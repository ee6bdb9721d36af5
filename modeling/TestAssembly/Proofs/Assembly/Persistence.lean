import Mathlib.Control.Monad.Basic
import TestAssembly.Assembly.Pass
import TestAssembly.Assembly.Site
import TestAssembly.Fixture

/-!
# What a failed pass leaves in the store

A pass is a plan and its storing (`assemble_eq`). The plan touches no record (`store_plan`) and does
not depend on what the storing services do (`plan_accepting`), so only the two saves at the end can
leave a trace. They come one after the other: when the groups are refused, the segment records
stand already. `StopsHalfway` says when that happens, in terms of the same pass at services that
take everything, and it is the only way in which a failed pass leaves something in the store
(`store_of_error_iff`). It does happen (`store_siteWithoutGroups`).
-/

namespace TestAssembly

variable {env : Environment} {exam : Exam} {assessment : Assessment}

/-! ### The plan -/

/-- The same environment with storing services that take everything. -/
def Environment.accepting (env : Environment) : Environment :=
  { env with segmentRefusal := none, groupRefusal := none }

/-- **Plan** of a pass: the manifest that it would store, or why there is none. -/
def plan (env : Environment) (exam : Exam) (assessment : Assessment) (state : AssemblyState) :
    Except AssemblyError Manifest × AssemblyState :=
  match env.accommodations exam.id with
  | .error outage => (.error outage.error, state)
  | .ok accommodations =>
    let state :=
      { state with
        rotations := state.rotations.evictIdle env.config.rotation.idleTimeout env.now }
    match assembleSegments env exam assessment accommodations assessment.inOrder none state with
    | (.error e, state) => (.error e, state)
    | (.ok assembled, state) =>
      let manifest := manifestOf exam assembled
      if manifest.totalItems = 0 then (.error (.noContent exam.id), state)
      else (.ok manifest, state)

/-- **A pass is a plan and its storing.** -/
theorem assemble_eq (env : Environment) (exam : Exam) (assessment : Assessment)
    (state : AssemblyState) :
    assemble env exam assessment state =
      match plan env exam assessment state with
      | (.error e, after) => (.error e, after)
      | (.ok manifest, after) =>
        ((save env manifest after.store).1.map fun _ => manifest,
          { after with store := (save env manifest after.store).2 }) := by
  unfold assemble plan
  cases env.accommodations exam.id with
  | error outage => rfl
  | ok accommodations =>
    dsimp only
    generalize assembleSegments env exam assessment accommodations assessment.inOrder none _ = made
    obtain ⟨e | assembled, after⟩ := made
    · rfl
    · dsimp only
      split
      · rfl
      · dsimp only
        generalize save env (manifestOf exam assembled) after.store = saved
        obtain ⟨e | _, store⟩ := saved <;> rfl

theorem assemble_of_plan_error {state after : AssemblyState} {e : AssemblyError}
    (h : plan env exam assessment state = (.error e, after)) :
    assemble env exam assessment state = (.error e, after) := by
  rw [assemble_eq, h]

theorem assemble_of_plan_ok {state after : AssemblyState} {manifest : Manifest}
    (h : plan env exam assessment state = (.ok manifest, after)) :
    assemble env exam assessment state =
      ((save env manifest after.store).1.map fun _ => manifest,
        { after with store := (save env manifest after.store).2 }) := by
  rw [assemble_eq, h]

section State

variable {state : AssemblyState}

theorem snd_plan_of_error {outage : Outage} (h : env.accommodations exam.id = .error outage) :
    (plan env exam assessment state).2 = state := by
  rw [plan, h]

/-- Whether or not there is an item, a plan ends in the state that its segments lead to. -/
theorem snd_plan_of_ok {accommodations : List Accommodation}
    (h : env.accommodations exam.id = .ok accommodations) :
    (plan env exam assessment state).2 =
      (assembleSegments env exam assessment accommodations assessment.inOrder none
        { state with
          rotations :=
            state.rotations.evictIdle env.config.rotation.idleTimeout env.now }).2 := by
  rw [plan, h]
  dsimp only
  generalize assembleSegments env exam assessment accommodations assessment.inOrder none _ = made
  obtain ⟨e | assembled, after⟩ := made
  · rfl
  · dsimp only
    split <;> rfl

/-- Storing touches the store only. -/
theorem exists_snd_assemble (env : Environment) (exam : Exam) (assessment : Assessment)
    (state : AssemblyState) :
    ∃ store, (assemble env exam assessment state).2 =
      { (plan env exam assessment state).2 with store } := by
  rw [assemble_eq]
  generalize plan env exam assessment state = planned
  obtain ⟨e | manifest, after⟩ := planned
  · exact ⟨after.store, rfl⟩
  · exact ⟨_, rfl⟩

theorem usage_assemble : (assemble env exam assessment state).2.usage =
    (plan env exam assessment state).2.usage := by
  obtain ⟨store, h⟩ := exists_snd_assemble env exam assessment state
  rw [h]

end State

/-! ### The plan touches no record -/

/-- Choosing a form touches the rotations only. -/
theorem exists_snd_chooseForm (env : Environment) (exam : Exam) (segment : Segment)
    (cohort : Option String) (state : AssemblyState) :
    ∃ rotations, (chooseForm env exam segment cohort state).2 = { state with rotations } := by
  unfold chooseForm
  split
  · dsimp only
    split <;> exact ⟨_, rfl⟩
  · split <;> exact ⟨state.rotations, rfl⟩

theorem store_chooseForm (env : Environment) (exam : Exam) (segment : Segment)
    (cohort : Option String) (state : AssemblyState) :
    (chooseForm env exam segment cohort state).2.store = state.store := by
  obtain ⟨rotations, h⟩ := exists_snd_chooseForm env exam segment cohort state
  rw [h]

theorem store_seed (env : Environment) (exam : Exam) (assessment : Assessment) (segment : Segment)
    (accommodations : List Accommodation) (state : AssemblyState) :
    (seed env exam assessment segment accommodations state).2.store = state.store := by
  unfold seed
  split <;> rfl

theorem store_assembleAdaptive (env : Environment) (exam : Exam) (assessment : Assessment)
    (segment : Segment) (accommodations : List Accommodation) (state : AssemblyState) :
    (assembleAdaptive env exam assessment segment accommodations state).2.store =
      state.store := by
  have hseed := store_seed env exam assessment segment accommodations state
  unfold assembleAdaptive
  dsimp only
  split
  · split
    · rename_i h
      rw [← hseed, h]
    · rename_i h
      rw [← hseed, h]
  · rfl

/-- **Invariants of a pass over segments**: what choosing forms for its fixed-form segments and
assembling its adaptive ones keep, every pass keeps, whether it succeeds or fails. -/
theorem assembleSegments_keeps {holds : AssemblyState → Prop} (env : Environment) (exam : Exam)
    (assessment : Assessment) (accommodations : List Accommodation) {segments : List Segment}
    (hform : ∀ segment ∈ segments, segment.isFixedForm = true → ∀ cohort state, holds state →
      holds (chooseForm env exam segment cohort state).2)
    (hadaptive : ∀ segment ∈ segments, segment.isFixedForm = false → ∀ state, holds state →
      holds (assembleAdaptive env exam assessment segment accommodations state).2)
    (cohort : Option String) {state : AssemblyState} (h : holds state) :
    holds (assembleSegments env exam assessment accommodations segments cohort state).2 := by
  induction segments generalizing cohort state with
  | nil => exact h
  | cons segment rest ih =>
    have hrest : ∀ cohort {after}, holds after →
        holds (assembleSegments env exam assessment accommodations rest cohort after).2 :=
      fun cohort _ => ih (fun s hs => hform s (List.mem_cons_of_mem _ hs))
        (fun s hs => hadaptive s (List.mem_cons_of_mem _ hs)) cohort
    rw [assembleSegments]
    split
    · rename_i hfixed
      have hchosen := hform segment List.mem_cons_self hfixed cohort state h
      generalize chooseForm env exam segment cohort state = chosen at hchosen
      obtain ⟨e | form, after⟩ := chosen
      · exact hchosen
      · have hlast := hrest (some (cohort.getD form.cohort)) hchosen
        dsimp only at hlast ⊢
        split <;> simpa [*] using hlast
    · rename_i hfixed
      have hmade := hadaptive segment List.mem_cons_self (Bool.eq_false_iff.mpr hfixed) state h
      generalize assembleAdaptive env exam assessment segment accommodations state = made at hmade
      obtain ⟨e | assembled, after⟩ := made
      · exact hmade
      · have hlast := hrest cohort hmade
        dsimp only at hlast ⊢
        split <;> simpa [*] using hlast

theorem store_assembleSegments (env : Environment) (exam : Exam) (assessment : Assessment)
    (accommodations : List Accommodation) (segments : List Segment) (cohort : Option String)
    (state : AssemblyState) :
    (assembleSegments env exam assessment accommodations segments cohort state).2.store =
      state.store := by
  refine @assembleSegments_keeps (fun after => after.store = state.store) env exam assessment
    accommodations segments (fun segment _ _ cohort after h => ?_)
    (fun segment _ _ after h => ?_) cohort state rfl
  · rw [store_chooseForm, h]
  · rw [store_assembleAdaptive, h]

theorem store_plan (env : Environment) (exam : Exam) (assessment : Assessment)
    (state : AssemblyState) : (plan env exam assessment state).2.store = state.store := by
  cases haccommodations : env.accommodations exam.id with
  | error outage => rw [snd_plan_of_error haccommodations]
  | ok accommodations => rw [snd_plan_of_ok haccommodations, store_assembleSegments]

/-! ### The plan does not depend on the storing services -/

theorem assembleSegments_accepting (env : Environment) (exam : Exam) (assessment : Assessment)
    (accommodations : List Accommodation) (segments : List Segment) (cohort : Option String)
    (state : AssemblyState) :
    assembleSegments env.accepting exam assessment accommodations segments cohort state =
      assembleSegments env exam assessment accommodations segments cohort state := by
  induction segments generalizing cohort state with
  | nil => rfl
  | cons segment rest ih =>
    have hform : chooseForm env.accepting exam segment cohort state =
        chooseForm env exam segment cohort state := rfl
    have hadaptive : assembleAdaptive env.accepting exam assessment segment accommodations state =
        assembleAdaptive env exam assessment segment accommodations state := rfl
    rw [assembleSegments, assembleSegments, hform, hadaptive]
    simp only [ih]

theorem plan_accepting (env : Environment) (exam : Exam) (assessment : Assessment)
    (state : AssemblyState) :
    plan env.accepting exam assessment state = plan env exam assessment state := by
  unfold plan
  simp only [assembleSegments_accepting]
  rfl

/-- A plan with field-test groups has segment records. -/
theorem segments_ne_nil_of_plan {state after : AssemblyState} {manifest : Manifest}
    (h : plan env exam assessment state = (.ok manifest, after))
    (hgroups : manifest.fieldTestGroups ≠ []) : manifest.segments ≠ [] := by
  have hmade : ∃ assembled, manifest = manifestOf exam assembled := by
    unfold plan at h
    split at h
    · simp at h
    · dsimp only at h
      split at h
      · simp at h
      · split at h
        · simp at h
        · rw [Prod.mk.injEq, Except.ok.injEq] at h
          exact ⟨_, h.1.symm⟩
  obtain ⟨assembled, rfl⟩ := hmade
  intro hnil
  obtain rfl : assembled = [] := List.map_eq_nil_iff.mp hnil
  exact hgroups rfl

/-! ### The two saves -/

section Save

variable {manifest : Manifest} {store : Store} {outage : Outage}

/-- More records make another store. -/
theorem Store.addSegments_ne {records : List ExamSegment} (h : records ≠ []) :
    store.addSegments records ≠ store := by
  intro heq
  have hsegments := congrArg Store.segments heq
  exact h (by simpa [addSegments] using hsegments)

/-- A refusal of the segment records stores nothing. -/
theorem save_of_segmentRefusal (h : env.segmentRefusal = some outage) :
    save env manifest store = (.error outage.error, store) := by
  rw [save, h]

/-- A refusal of the groups comes after the segment records were taken. -/
theorem save_of_groupRefusal (hsegments : env.segmentRefusal = none)
    (hgroups : env.groupRefusal = some outage) (hsome : manifest.fieldTestGroups ≠ []) :
    save env manifest store = (.error outage.error, store.addSegments manifest.segments) := by
  rw [save, hsegments, hgroups]
  dsimp only
  rw [if_neg (by simpa using hsome)]

/-- Without a refusal in the way a manifest is stored. -/
theorem save_fst_eq_ok (hsegments : env.segmentRefusal = none)
    (hgroups : env.groupRefusal = none ∨ manifest.fieldTestGroups = []) :
    (save env manifest store).1 = .ok () := by
  rw [save, hsegments]
  rcases hgroups with hgroups | hnil
  · rw [hgroups]
    dsimp only
    split <;> rfl
  · simp [hnil]

/-- A save that fails has taken nothing, or was refused groups after it took the records. -/
theorem store_of_save_error {e : AssemblyError} (h : (save env manifest store).1 = .error e) :
    (save env manifest store).2 = store ∨
      env.segmentRefusal = none ∧ env.groupRefusal ≠ none ∧ manifest.fieldTestGroups ≠ [] := by
  cases hsegments : env.segmentRefusal with
  | some outage => exact .inl (by rw [save_of_segmentRefusal hsegments])
  | none =>
    refine .inr ⟨rfl, fun hnone => ?_, fun hnil => ?_⟩
    · rw [save_fst_eq_ok hsegments (.inl hnone)] at h
      simp at h
    · rw [save_fst_eq_ok hsegments (.inr hnil)] at h
      simp at h

/-- Whether a manifest is taken does not depend on what is in the store. -/
theorem fst_save_congr (env : Environment) (manifest : Manifest) (store other : Store) :
    (save env manifest other).1 = (save env manifest store).1 := by
  unfold save
  split
  · rfl
  · dsimp only
    split
    · rfl
    · split <;> rfl

end Save

/-! ### Services that take everything -/

/-- **Storing services that take everything**; the others may fail. -/
structure Environment.TakesRecords (env : Environment) : Prop where
  segments : env.segmentRefusal = none
  groups : env.groupRefusal = none

/-- Add what an outcome has to store: the records and the groups of a manifest. -/
def Store.add (store : Store) : Except AssemblyError Manifest → Store
  | .ok manifest => (store.addSegments manifest.segments).addGroups manifest.fieldTestGroups
  | .error _ => store

/-- Storing services that take everything take a manifest as a whole. -/
theorem Environment.TakesRecords.save_eq (h : env.TakesRecords) (manifest : Manifest)
    (store : Store) : save env manifest store = (.ok (), store.add (.ok manifest)) := by
  rw [save, h.segments, h.groups]
  dsimp only
  split
  · rename_i hempty
    rw [Store.add, List.isEmpty_iff.mp hempty, Store.addGroups, List.append_nil]
  · rfl

/-- **All or nothing**: where everything is taken, a pass adds to the store what its outcome has to
store. -/
theorem Environment.TakesRecords.store_assemble (h : env.TakesRecords) (exam : Exam)
    (assessment : Assessment) (state : AssemblyState) :
    (assemble env exam assessment state).2.store =
      state.store.add (assemble env exam assessment state).1 := by
  have hkept := store_plan env exam assessment state
  rw [assemble_eq]
  generalize plan env exam assessment state = planned at hkept
  obtain ⟨e | manifest, after⟩ := planned
  · exact hkept
  · dsimp only at hkept ⊢
    rw [h.save_eq, hkept]
    rfl

/-! ### What an error leaves -/

/-- At services that take everything, a pass succeeds with the manifest that it plans. -/
theorem assemble_accepting_eq_ok_iff {state : AssemblyState} {manifest : Manifest} :
    (assemble env.accepting exam assessment state).1 = .ok manifest ↔
      (plan env exam assessment state).1 = .ok manifest := by
  rw [← plan_accepting]
  cases hplan : plan env.accepting exam assessment state with
  | mk planned after =>
    cases planned with
    | error e => rw [assemble_of_plan_error hplan]
    | ok planned =>
      have hsave : (save env.accepting planned after.store).1 = .ok () :=
        save_fst_eq_ok rfl (.inl rfl)
      rw [assemble_of_plan_ok hplan, hsave]
      rfl

/-- **Stopped halfway**: the pass plans a manifest with field-test groups, its segment records are
taken, and the groups are refused. -/
structure StopsHalfway (env : Environment) (exam : Exam) (assessment : Assessment)
    (state : AssemblyState) (manifest : Manifest) : Prop where
  /-- At services that take everything the pass would succeed. -/
  planned : (assemble env.accepting exam assessment state).1 = .ok manifest
  hasGroups : manifest.fieldTestGroups ≠ []
  segmentsTaken : env.segmentRefusal = none
  groupsRefused : env.groupRefusal ≠ none

namespace StopsHalfway

variable {state : AssemblyState} {manifest : Manifest}

theorem exists_plan (h : StopsHalfway env exam assessment state manifest) :
    ∃ after, plan env exam assessment state = (.ok manifest, after) :=
  ⟨_, Prod.ext (assemble_accepting_eq_ok_iff.1 h.planned) rfl⟩

/-- **A pass that stops halfway** fails with the refusal of the groups and leaves its segment
records in the store. -/
theorem outcome (h : StopsHalfway env exam assessment state manifest) :
    ∃ outage, env.groupRefusal = some outage ∧
      (assemble env exam assessment state).1 = .error outage.error ∧
      (assemble env exam assessment state).2.store = state.store.addSegments manifest.segments := by
  obtain ⟨outage, hrefusal⟩ := Option.ne_none_iff_exists'.mp h.groupsRefused
  obtain ⟨after, hplan⟩ := h.exists_plan
  have hkept : after.store = state.store := by
    rw [← store_plan env exam assessment state, hplan]
  refine ⟨outage, hrefusal, ?_⟩
  rw [assemble_of_plan_ok hplan, save_of_groupRefusal h.segmentsTaken hrefusal h.hasGroups, hkept]
  exact ⟨rfl, rfl⟩

theorem store_ne (h : StopsHalfway env exam assessment state manifest) :
    (assemble env exam assessment state).2.store ≠ state.store := by
  obtain ⟨after, hplan⟩ := h.exists_plan
  obtain ⟨outage, -, -, hstore⟩ := h.outcome
  rw [hstore]
  exact Store.addSegments_ne (segments_ne_nil_of_plan hplan h.hasGroups)

/-- **Only a pass that stops halfway** fails and leaves something in the store. -/
theorem of_error {e : AssemblyError} (herror : (assemble env exam assessment state).1 = .error e)
    (hstore : (assemble env exam assessment state).2.store ≠ state.store) :
    ∃ manifest, StopsHalfway env exam assessment state manifest := by
  have hkept := store_plan env exam assessment state
  cases hplan : plan env exam assessment state with
  | mk planned after =>
    rw [hplan] at hkept
    cases planned with
    | error e =>
      rw [assemble_of_plan_error hplan] at hstore
      exact absurd hkept hstore
    | ok manifest =>
      rw [assemble_of_plan_ok hplan] at herror hstore
      have hsave : (save env manifest after.store).1 = .error e := by
        cases hfst : (save env manifest after.store).1 with
        | error => simpa [hfst, Except.map] using herror
        | ok => simp [hfst, Except.map] at herror
      rcases store_of_save_error hsave with hsame | ⟨htaken, hrefused, hgroups⟩
      · exact absurd (hsame.trans hkept) hstore
      · have hplanned : (plan env exam assessment state).1 = .ok manifest := by rw [hplan]
        exact ⟨manifest, assemble_accepting_eq_ok_iff.2 hplanned, hgroups, htaken, hrefused⟩

end StopsHalfway

/-- **When a failed pass leaves something in the store**: exactly when it stops halfway, at the
assessment that it is given or that the catalog has for the exam. What it leaves then is its
segment records. -/
theorem store_of_error_iff (env : Environment) (exam : Exam) (assessment : Assessment)
    (state : AssemblyState) :
    ((∃ e, (assemble env exam assessment state).1 = .error e ∧
        (assemble env exam assessment state).2.store ≠ state.store) ↔
      ∃ manifest, StopsHalfway env exam assessment state manifest) ∧
    ((∃ e, (assembleExam env exam state).1 = .error e ∧
        (assembleExam env exam state).2.store ≠ state.store) ↔
      ∃ found manifest,
        env.assessment? exam.clientName exam.assessmentKey = .ok (some found) ∧
          StopsHalfway env exam found state manifest) ∧
    ∀ manifest, StopsHalfway env exam assessment state manifest →
      ∃ outage, env.groupRefusal = some outage ∧
        (assemble env exam assessment state).1 = .error outage.error ∧
        (assemble env exam assessment state).2.store =
          state.store.addSegments manifest.segments := by
  have hiff : ∀ given, (∃ e, (assemble env exam given state).1 = .error e ∧
      (assemble env exam given state).2.store ≠ state.store) ↔
        ∃ manifest, StopsHalfway env exam given state manifest := by
    intro given
    constructor
    · rintro ⟨e, herror, hstore⟩
      exact StopsHalfway.of_error herror hstore
    · rintro ⟨manifest, h⟩
      obtain ⟨outage, -, herror, -⟩ := h.outcome
      exact ⟨outage.error, herror, h.store_ne⟩
  refine ⟨hiff assessment, ?_, fun manifest h => h.outcome⟩
  unfold assembleExam
  cases hfound : env.assessment? exam.clientName exam.assessmentKey with
  | error outage => simp
  | ok found? =>
    cases found? with
    | none => simp
    | some found => simpa using hiff found

/-- The services of a site that only has its default configuration. -/
def plainServices : Environment := (Site.opened default default default).environment

/-- An assessment of one segment, with one operational item and one field-test group. -/
def seededAssessment : Assessment :=
  Fixture.assessment
    [Fixture.buildSegment "SEG" .adaptive
      [.maxItems 1, .fieldTestRange 1 3, .fieldTestItems 1 1, .strand "Reading" 0 (some 0.5),
        .items [Fixture.item "i1", Fixture.buildItem "i2" [.group "g2", .fieldTest]]]]

/-- A site with this assessment where groups cannot be stored. -/
def siteWithoutGroups : Site :=
  { Site.opened default default default with
    catalog := [("SBAC", seededAssessment)]
    outages := [(.saveGroups, "down")] }

/-- **A failed pass that leaves something**: the groups are refused when the record of the segment
is stored already. -/
theorem store_siteWithoutGroups :
    (assemble siteWithoutGroups.environment (Fixture.exam "EX") seededAssessment .initial).1 =
      .error (.collaborator "save_groups" "down") ∧
    (assemble siteWithoutGroups.environment (Fixture.exam "EX") seededAssessment
      .initial).2.store.segments.map (·.segmentKey) = ["SEG"] ∧
    (assemble siteWithoutGroups.environment (Fixture.exam "EX") seededAssessment
      .initial).2.store ≠ AssemblyState.initial.store ∧
    assembleExam siteWithoutGroups.environment (Fixture.exam "EX") .initial =
      assemble siteWithoutGroups.environment (Fixture.exam "EX") seededAssessment .initial := by
  refine ⟨?_, ?_, ?_, rfl⟩
  · decide +kernel
  · decide +kernel
  · decide +kernel

end TestAssembly
