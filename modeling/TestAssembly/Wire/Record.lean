import TestAssembly.Content.Record
import TestAssembly.Wire.Content

/-!
# Wire format of exams and their records

The JSON of exams, placed field-test groups, segment records and manifests.
-/

namespace TestAssembly.Wire

open Fields

/-- Exams. -/
def exam : Codec Exam :=
  .record
    (required "id" .string <| required "session_id" .string <| required "client_name" .string <|
      required "assessment_key" .string <| required "language_code" .string <|
      required "environment" .string .done)
    (fun e => (e.id, e.sessionId, e.clientName, e.assessmentKey, e.languageCode, e.environment, ()))
    (fun (id, sessionId, clientName, assessmentKey, languageCode, environment, ()) =>
      ⟨id, sessionId, clientName, assessmentKey, languageCode, environment⟩)

/-- Field-test groups. -/
def fieldTestGroup : Codec FieldTestGroup :=
  .record
    (required "exam_id" .string <| required "session_id" .string <|
      required "segment_key" .string <| required "segment_id" .string <|
      required "group_key" .string <| required "group_id" .string <|
      required "block_id" .string <| required "item_count" .count <|
      optional "language_code" .string <| optional "position" .count .done)
    (fun g => (g.examId, g.sessionId, g.segmentKey, g.segmentId, g.groupKey, g.groupId, g.blockId,
      g.itemCount, g.languageCode, g.position, ()))
    (fun (examId, sessionId, segmentKey, segmentId, groupKey, groupId, blockId, itemCount,
        languageCode, position, ()) =>
      ⟨examId, sessionId, segmentKey, segmentId, groupKey, groupId, blockId, itemCount,
        languageCode, position⟩)

/-- Form assignments. -/
def formAssignment : Codec FormAssignment :=
  .record (required "key" .string <| required "id" .string <| required "cohort" .string .done)
    (fun f => (f.key, f.id, f.cohort, ()))
    (fun (key, id, cohort, ()) => ⟨key, id, cohort⟩)

/-- Segment records. -/
def examSegment : Codec ExamSegment :=
  .record
    (required "exam_id" .string <| required "segment_key" .string <|
      required "segment_id" .string <| required "segment_position" .count <|
      required "algorithm" algorithm <| optional "form" formAssignment <|
      required "item_pool" .nameSet <| required "pool_count" .count <|
      required "exam_item_count" .count <| required "field_test_item_count" .count <|
      required "satisfied" .bool .done)
    (fun s => (s.examId, s.segmentKey, s.segmentId, s.segmentPosition, s.algorithm, s.form,
      s.itemPool, s.poolCount, s.examItemCount, s.fieldTestItemCount, s.satisfied, ()))
    (fun (examId, segmentKey, segmentId, segmentPosition, algorithm, form, itemPool, poolCount,
        examItemCount, fieldTestItemCount, satisfied, ()) =>
      ⟨examId, segmentKey, segmentId, segmentPosition, algorithm, form, itemPool, poolCount,
        examItemCount, fieldTestItemCount, satisfied⟩)

/-- Manifests. -/
def manifest : Codec Manifest :=
  .record
    (required "exam_id" .string <| required "total_items" .count <|
      required "segments" examSegment.list <|
      required "field_test_groups" fieldTestGroup.list .done)
    (fun m => (m.examId, m.totalItems, m.segments, m.fieldTestGroups, ()))
    (fun (examId, totalItems, segments, fieldTestGroups, ()) =>
      ⟨examId, totalItems, segments, fieldTestGroups⟩)

end TestAssembly.Wire
