import TestAssembly.Content.Segment
import TestAssembly.NameMap

/-!
# Exams and their records

An exam is one examinee's attempt at an assessment. Assembling it leaves a record per segment and
the field-test groups that were placed, together the manifest of the attempt.
-/

namespace TestAssembly

/-- **Exam**: one attempt at an assessment. -/
structure Exam where
  id : String
  sessionId : String
  clientName : String
  assessmentKey : String
  languageCode : String
  environment : String
  deriving DecidableEq, Repr, Inhabited

/-- **Field-test group**: items seeded together, first as a candidate, then with the language and
the position at which they were placed. -/
structure FieldTestGroup where
  examId : String
  sessionId : String
  segmentKey : String
  segmentId : String
  groupKey : String
  groupId : String
  blockId : String
  itemCount : UInt32
  languageCode : Option String := none
  position : Option UInt32 := none
  deriving DecidableEq, Repr, Inhabited

/-- The form that an attempt was given. -/
structure FormAssignment where
  key : String
  id : String
  cohort : String
  deriving DecidableEq, Repr, Inhabited

/-- How an attempt refers to a form. -/
def Form.assignment (form : Form) : FormAssignment := ⟨form.key, form.id, form.cohort⟩

/-- **Record of an assembled segment.** It is satisfied when no item is owed for it. -/
structure ExamSegment where
  examId : String
  segmentKey : String
  segmentId : String
  segmentPosition : UInt32
  algorithm : Algorithm
  form : Option FormAssignment
  itemPool : NameSet
  poolCount : UInt32
  examItemCount : UInt32
  fieldTestItemCount : UInt32
  satisfied : Bool
  deriving DecidableEq, Inhabited

/-- **Manifest**: everything that one assembly produced. -/
structure Manifest where
  examId : String
  totalItems : UInt32
  segments : List ExamSegment
  fieldTestGroups : List FieldTestGroup
  deriving DecidableEq, Inhabited

end TestAssembly
