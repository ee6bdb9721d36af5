import TestAssembly.Assembly.Batch
import TestAssembly.Wire.Record

/-!
# Wire format of reports

The JSON of a batch report and of the failures in it.
-/

namespace TestAssembly.Wire

open Fields

/-- Failures. -/
def examFailure : Codec ExamFailure :=
  .record
    (required "exam_id" .string <| required "code" .string <| required "message" .string .done)
    (fun f => (f.examId, f.code, f.message, ()))
    (fun (examId, code, message, ()) => ⟨examId, code, message⟩)

/-- Reports. -/
def report : Codec Report :=
  .record
    (required "manifests" manifest.list <| required "failures" examFailure.list .done)
    (fun r => (r.manifests, r.failures, ()))
    (fun (manifests, failures, ()) => ⟨manifests, failures⟩)

end TestAssembly.Wire
