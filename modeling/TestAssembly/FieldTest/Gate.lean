import TestAssembly.Config.Basic
import TestAssembly.Content.Record

/-!
# The field-test gate

Whether a segment may be given field-test items at a moment. Field testing must be enabled and
wanted by the segment, the segment must have a field-test item in the language of the exam, and the
window of the assessment must be open, in a segmented assessment that of the segment as well. In a
simulation environment the windows do not count (`isFieldTestOpen_iff`).
-/

namespace TestAssembly

open Time

/-- **The gate** for field-test items of a segment. -/
def isFieldTestOpen (config : Config) (exam : Exam) (assessment : Assessment) (segment : Segment)
    (now : Instant) : Bool :=
  config.fieldTest.enabled && segment.fieldTestMinItems != 0
    && (segment.itemsIn config.items.languageProperty exam.languageCode).any (·.fieldTest)
    && (config.fieldTest.isSimulation exam.environment
      || assessment.fieldTestWindow.isOpenAt now
        && (!assessment.segmented || segment.fieldTestWindow.isOpenAt now))

theorem isFieldTestOpen_iff {config : Config} {exam : Exam} {assessment : Assessment}
    {segment : Segment} {now : Instant} :
    isFieldTestOpen config exam assessment segment now = true ↔
      config.fieldTest.enabled = true ∧ segment.fieldTestMinItems ≠ 0 ∧
      (∃ item ∈ segment.itemsIn config.items.languageProperty exam.languageCode,
        item.fieldTest = true) ∧
      (config.fieldTest.isSimulation exam.environment = true ∨
        assessment.fieldTestWindow.isOpenAt now = true ∧
          (assessment.segmented = true → segment.fieldTestWindow.isOpenAt now = true)) := by
  cases h : assessment.segmented <;> simp [isFieldTestOpen, h, and_assoc]

end TestAssembly
