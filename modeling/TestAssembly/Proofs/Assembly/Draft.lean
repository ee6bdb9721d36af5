import Mathlib.Data.List.Forall2
import TestAssembly.Proofs.Assembly.Persistence
import TestAssembly.Proofs.Assembly.Segment

/-!
# The draft of a pass

Before anything is counted or stored, a pass has made something of every segment: its draft. The
loop over the segments is taken apart into steps (`assembleNext`): a step fails and ends the pass,
or makes its segment and hands on the cohort (`assembleSegments_of_next_error`,
`assembleSegments_of_next_ok`). So a pass that succeeds made every segment, in order of delivery, in
one of the ways that `IsMade` tells, and its manifest sums up what it made
(`exists_made_of_assemble_ok`).
-/

namespace TestAssembly

variable {env : Environment} {exam : Exam} {assessment : Assessment}
  {accommodations : List Accommodation} {segment : Segment} {cohort : Option String}
  {state after : AssemblyState}

/-! ### Segments and what is made of them -/

section Pairs

variable {α β : Type} {R : α → β → Prop} {as : List α} {bs : List β}

/-- Members of two lists that correspond are members of theirs. -/
theorem forall₂_mem (h : List.Forall₂ R as bs) :
    List.Forall₂ (fun a b => a ∈ as ∧ b ∈ bs ∧ R a b) as bs := by
  refine List.forall₂_iff_zip.mpr ⟨h.length_eq, fun hab => ?_⟩
  obtain ⟨ha, hb⟩ := List.of_mem_zip hab
  exact ⟨ha, hb, List.forall₂_zip h hab⟩

/-- Each member of the second list corresponds to one of the first. -/
theorem exists_left_of_mem (h : List.Forall₂ R as bs) {b : β} (hb : b ∈ bs) : ∃ a ∈ as, R a b := by
  induction h with
  | nil => simp at hb
  | cons hab _ ih =>
    rcases List.mem_cons.mp hb with rfl | hb
    · exact ⟨_, List.mem_cons_self, hab⟩
    · obtain ⟨a, ha, hab⟩ := ih hb
      exact ⟨a, List.mem_cons_of_mem _ ha, hab⟩

/-- Each member of the first list corresponds to one of the second. -/
theorem exists_right_of_mem (h : List.Forall₂ R as bs) {a : α} (ha : a ∈ as) : ∃ b ∈ bs, R a b :=
  exists_left_of_mem h.flip ha

end Pairs

/-! ### Step by step -/

/-- **One step** of a pass: what it makes of a segment, with the cohort that holds afterwards. -/
def assembleNext (env : Environment) (exam : Exam) (assessment : Assessment)
    (accommodations : List Accommodation) (segment : Segment) (cohort : Option String)
    (state : AssemblyState) :
    Except AssemblyError (AssembledSegment × Option String) × AssemblyState :=
  if segment.isFixedForm then
    let chosen := chooseForm env exam segment cohort state
    (chosen.1.map fun form =>
      (fixedFormSegment exam segment form, some (cohort.getD form.cohort)), chosen.2)
  else
    let assembled := assembleAdaptive env exam assessment segment accommodations state
    (assembled.1.map fun made => (made, cohort), assembled.2)

/-- **The loop** over the segments goes on step by step and ends at the first failure. -/
theorem assembleSegments_cons (env : Environment) (exam : Exam) (assessment : Assessment)
    (accommodations : List Accommodation) (segment : Segment) (rest : List Segment)
    (cohort : Option String) (state : AssemblyState) :
    assembleSegments env exam assessment accommodations (segment :: rest) cohort state =
      match assembleNext env exam assessment accommodations segment cohort state with
      | (.error e, after) => (.error e, after)
      | (.ok (made, cohort), after) =>
        let later := assembleSegments env exam assessment accommodations rest cohort after
        (later.1.map (made :: ·), later.2) := by
  rw [assembleSegments, assembleNext]
  split
  · generalize chooseForm env exam segment cohort state = chosen
    obtain ⟨e | form, after⟩ := chosen
    · rfl
    · simp only [Except.map]
      generalize assembleSegments env exam assessment accommodations rest _ after = later
      obtain ⟨e | done, last⟩ := later <;> rfl
  · generalize assembleAdaptive env exam assessment segment accommodations state = assembled
    obtain ⟨e | made, after⟩ := assembled
    · rfl
    · simp only [Except.map]
      generalize assembleSegments env exam assessment accommodations rest cohort after = later
      obtain ⟨e | done, last⟩ := later <;> rfl

theorem assembleSegments_of_next_error {e : AssemblyError} (rest : List Segment)
    (h : assembleNext env exam assessment accommodations segment cohort state =
      (.error e, after)) :
    assembleSegments env exam assessment accommodations (segment :: rest) cohort state =
      (.error e, after) := by
  rw [assembleSegments_cons, h]

theorem assembleSegments_of_next_ok {made : AssembledSegment} {next : Option String}
    (rest : List Segment)
    (h : assembleNext env exam assessment accommodations segment cohort state =
      (.ok (made, next), after)) :
    assembleSegments env exam assessment accommodations (segment :: rest) cohort state =
      ((assembleSegments env exam assessment accommodations rest next after).1.map (made :: ·),
        (assembleSegments env exam assessment accommodations rest next after).2) := by
  rw [assembleSegments_cons, h]

/-- A step makes its segment. -/
theorem isMade_of_assembleNext {made : AssembledSegment} {next : Option String}
    (h : (assembleNext env exam assessment accommodations segment cohort state).1 =
      .ok (made, next)) : IsMade env exam assessment accommodations segment made := by
  rw [assembleNext] at h
  split at h
  · rename_i hfixed
    cases hform : (chooseForm env exam segment cohort state).1 with
    | error e => simp [hform, Except.map] at h
    | ok form =>
      simp only [hform, Except.map, Except.ok.injEq, Prod.mk.injEq] at h
      exact h.1 ▸ .onForm hfixed (mem_formsIn_of_chooseForm hform)
  · rename_i hfixed
    cases hmade : (assembleAdaptive env exam assessment segment accommodations state).1 with
    | error e => simp [hmade, Except.map] at h
    | ok assembled =>
      simp only [hmade, Except.map, Except.ok.injEq, Prod.mk.injEq] at h
      exact h.1 ▸ isMade_of_assembleAdaptive (Bool.eq_false_iff.mpr hfixed) hmade

/-- **A loop that succeeds** made its first segment in one step and the others from there on. -/
theorem exists_next_of_assembleSegments_ok {rest : List Segment} {made : List AssembledSegment}
    (h : (assembleSegments env exam assessment accommodations (segment :: rest) cohort state).1 =
      .ok made) :
    ∃ first next after later,
      assembleNext env exam assessment accommodations segment cohort state =
        (.ok (first, next), after) ∧
      assembleSegments env exam assessment accommodations rest next after =
        (.ok later, (assembleSegments env exam assessment accommodations (segment :: rest) cohort
          state).2) ∧
      first :: later = made := by
  cases hnext : assembleNext env exam assessment accommodations segment cohort state with
  | mk outcome after =>
    cases outcome with
    | error e => simp [assembleSegments_of_next_error rest hnext] at h
    | ok step =>
      obtain ⟨first, next⟩ := step
      rw [assembleSegments_of_next_ok rest hnext] at h ⊢
      cases hlater : assembleSegments env exam assessment accommodations rest next after with
      | mk outcome last =>
        rw [hlater] at h
        cases outcome with
        | error e => simp [Except.map] at h
        | ok later => exact ⟨first, next, after, later, rfl, hlater, Except.ok.inj h⟩

/-- **What a loop over segments makes**, segment by segment. -/
theorem forall₂_isMade_of_assembleSegments {segments : List Segment}
    {made : List AssembledSegment}
    (h : (assembleSegments env exam assessment accommodations segments cohort state).1 =
      .ok made) :
    List.Forall₂ (IsMade env exam assessment accommodations) segments made := by
  -- cohort and state are handed on from step to step, so the induction is for all of them
  induction segments generalizing cohort state made with
  | nil =>
    obtain rfl : [] = made := Except.ok.inj h
    exact .nil
  | cons segment rest ih =>
    obtain ⟨first, next, after, later, hnext, hlater, rfl⟩ := exists_next_of_assembleSegments_ok h
    exact .cons (isMade_of_assembleNext (congrArg Prod.fst hnext)) (ih (congrArg Prod.fst hlater))

/-! ### The draft -/

/-- The state in which a pass goes through the segments: the rotations that were idle are gone. -/
def AssemblyState.evictIdle (state : AssemblyState) (env : Environment) : AssemblyState :=
  { state with rotations := state.rotations.evictIdle env.config.rotation.idleTimeout env.now }

/-- **Draft** of a pass: what it makes of the segments, before it is known whether there is an
item. -/
def draft (env : Environment) (exam : Exam) (assessment : Assessment) (state : AssemblyState) :
    Except AssemblyError (List AssembledSegment) :=
  match env.accommodations exam.id with
  | .error outage => .error outage.error
  | .ok accommodations =>
    (assembleSegments env exam assessment accommodations assessment.inOrder none
      (state.evictIdle env)).1

/-- A draft is what the loop over the segments makes, once the accommodations are known. -/
theorem exists_assembleSegments_of_draft_ok {state : AssemblyState} {made : List AssembledSegment}
    (h : draft env exam assessment state = .ok made) :
    ∃ accommodations, env.accommodations exam.id = .ok accommodations ∧
      (assembleSegments env exam assessment accommodations assessment.inOrder none
        (state.evictIdle env)).1 = .ok made := by
  rw [draft] at h
  cases haccommodations : env.accommodations exam.id with
  | error outage => simp [haccommodations] at h
  | ok accommodations =>
    rw [haccommodations] at h
    exact ⟨accommodations, rfl, h⟩

/-- A draft makes something of every segment, in order of delivery. -/
theorem exists_isMade_of_draft_ok {state : AssemblyState} {made : List AssembledSegment}
    (h : draft env exam assessment state = .ok made) :
    ∃ accommodations, env.accommodations exam.id = .ok accommodations ∧
      List.Forall₂ (IsMade env exam assessment accommodations) assessment.inOrder made := by
  obtain ⟨accommodations, haccommodations, hloop⟩ := exists_assembleSegments_of_draft_ok h
  exact ⟨accommodations, haccommodations, forall₂_isMade_of_assembleSegments hloop⟩

/-- What a manifest has in total: the items of all segments, up to the greatest count. -/
theorem toNat_totalItems_manifestOf (exam : Exam) (made : List AssembledSegment) :
    (manifestOf exam made).totalItems.toNat =
      min (total (made.map (·.record.examItemCount)) +
        total (made.map (·.record.fieldTestItemCount))) maxCount := by
  rw [manifestOf, toNat_sumSat]
  congr 1
  induction made with
  | nil => rfl
  | cons a rest ih =>
    rw [List.flatMap_cons, total_append, ih]
    simp only [List.map_cons, total]
    omega

/-- A manifest is without items when every segment is. -/
theorem totalItems_manifestOf_eq_zero_iff {made : List AssembledSegment} :
    (manifestOf exam made).totalItems = 0 ↔
      ∀ a ∈ made, a.record.examItemCount = 0 ∧ a.record.fieldTestItemCount = 0 := by
  rw [manifestOf, sumSat_eq_zero_iff, List.forall_mem_flatMap]
  simp

/-- A pass plans the manifest of its draft, if there is an item in it. -/
theorem fst_plan (env : Environment) (exam : Exam) (assessment : Assessment)
    (state : AssemblyState) :
    (plan env exam assessment state).1 =
      match draft env exam assessment state with
      | .error e => .error e
      | .ok made =>
        if (manifestOf exam made).totalItems = 0 then .error (.noContent exam.id)
        else .ok (manifestOf exam made) := by
  unfold plan draft AssemblyState.evictIdle
  cases env.accommodations exam.id with
  | error outage => rfl
  | ok accommodations =>
    dsimp only
    generalize assembleSegments env exam assessment accommodations assessment.inOrder none _ = loop
    obtain ⟨e | made, after⟩ := loop
    · rfl
    · dsimp only
      split <;> rfl

/-- A pass succeeds only with the manifest that it plans. -/
theorem fst_plan_of_assemble_ok {manifest : Manifest}
    (h : (assemble env exam assessment state).1 = .ok manifest) :
    (plan env exam assessment state).1 = .ok manifest := by
  rw [assemble_eq] at h
  cases hplan : plan env exam assessment state with
  | mk planned after =>
    rw [hplan] at h
    cases planned with
    | error e => simp at h
    | ok planned =>
      dsimp only at h
      cases hsave : (save env planned after.store).1 with
      | error e => simp [hsave, Except.map] at h
      | ok => simpa [hsave, Except.map] using h

/-- The manifest of a pass that succeeds is that of its draft. -/
theorem exists_draft_of_assemble_ok {manifest : Manifest}
    (h : (assemble env exam assessment state).1 = .ok manifest) :
    ∃ made, draft env exam assessment state = .ok made ∧ manifest = manifestOf exam made := by
  have hplan := fst_plan_of_assemble_ok h
  rw [fst_plan] at hplan
  cases hdraft : draft env exam assessment state with
  | error e => simp [hdraft] at hplan
  | ok made =>
    simp only [hdraft] at hplan
    split at hplan
    · simp at hplan
    · exact ⟨made, rfl, (Except.ok.inj hplan).symm⟩

/-- **A pass that succeeds** made every segment in order of delivery, and its manifest is that of
what it made. -/
theorem exists_made_of_assemble_ok {manifest : Manifest}
    (h : (assemble env exam assessment state).1 = .ok manifest) :
    ∃ accommodations made, env.accommodations exam.id = .ok accommodations ∧
      List.Forall₂ (IsMade env exam assessment accommodations) assessment.inOrder made ∧
      manifest = manifestOf exam made := by
  obtain ⟨made, hdraft, hmanifest⟩ := exists_draft_of_assemble_ok h
  obtain ⟨accommodations, haccommodations, hmade⟩ := exists_isMade_of_draft_ok hdraft
  exact ⟨accommodations, made, haccommodations, hmade, hmanifest⟩

end TestAssembly
