import TestAssembly.Assembly.Pass

/-!
# Batches

A batch assembles exams one after the other in one state. Each exam ends up either as a manifest or
as a failure; a failure stops no other exam.
-/

namespace TestAssembly

/-- An exam whose assembly failed, with the code and the message of the cause. -/
structure ExamFailure where
  examId : String
  code : String
  message : String
  deriving DecidableEq, Repr

/-- **Report of a batch**: manifests and failures, each in the order of the exams. -/
structure Report where
  manifests : List Manifest
  failures : List ExamFailure
  deriving DecidableEq

namespace Report

/-- The report on no exam. -/
def empty : Report := ⟨[], []⟩

/-- The items of all manifests together. -/
def totalItems (report : Report) : Nat := total (report.manifests.map (·.totalItems))

/-- A report with the outcome of one more exam in front. -/
def add (report : Report) (exam : Exam) : Except AssemblyError Manifest → Report
  | .ok manifest => { report with manifests := manifest :: report.manifests }
  | .error e => { report with failures := ⟨exam.id, e.code, e.message⟩ :: report.failures }

end Report

/-- **Assembly of a batch.** -/
def assembleBatch (env : Environment) : List Exam → AssemblyState → Report × AssemblyState
  | [], state => (.empty, state)
  | exam :: rest, state =>
    let (outcome, state) := assembleExam env exam state
    let (report, state) := assembleBatch env rest state
    (report.add exam outcome, state)

end TestAssembly
