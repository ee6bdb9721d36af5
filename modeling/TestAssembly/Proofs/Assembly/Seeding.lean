import TestAssembly.Proofs.Assembly.Draft

/-!
# When a pass seeds

A pass seeds a segment key when it changes the counters kept for the key, or when its manifest has a
field-test group for the key or counts field-test items in a record for it (`Seeds`). Each of these
goes back to an adaptive segment of the key that was seedable: the counters since nothing else in a
pass touches them (`get?_usage_assemble_eq`), also where a later segment makes the pass fail, and
the manifest since what is made without seeding has no groups (`IsMade.of_not_isSeedable`).
`exists_seedingConditions_of_seeds` says what that took: field testing enabled and wanted, an item
to seed, a pool of full length, and the moment strictly within the windows, if they count.
-/

namespace TestAssembly

open Time

variable {env : Environment} {exam : Exam} {assessment : Assessment}
  {accommodations : List Accommodation} {segment : Segment} {state : AssemblyState} {key : String}

/-! ### What it takes to seed -/

/-- **Within a window**: after its start and before its stop, as far as they are given. -/
def Window.Surrounds (window : Window) (now : Instant) : Prop :=
  (∀ start ∈ window.start?, start < now) ∧ ∀ stop ∈ window.stop?, now < stop

/-- **What it takes to seed a segment** for an exam. -/
structure SeedingConditions (env : Environment) (exam : Exam) (assessment : Assessment)
    (accommodations : List Accommodation) (segment : Segment) : Prop where
  enabled : env.config.fieldTest.enabled = true
  wanted : 0 < segment.fieldTestMinItems
  /-- The segment has a field-test item in the language of the exam. -/
  exists_item : ∃ item ∈ segment.items, item.fieldTest = true ∧
    item.hasProperty env.config.items.languageProperty exam.languageCode = true
  fullPool : (segmentPool accommodations assessment.constraints segment
    env.config.items.languageProperty exam.languageCode).length = segment.maxItems
  /-- It is a simulation, or the moment is within the windows that count. -/
  inTime : (∃ name ∈ env.config.fieldTest.simulationEnvironments,
      Text.sameUpToCase name exam.environment = true) ∨
    assessment.fieldTestWindow.Surrounds env.now ∧
      (assessment.segmented = true → segment.fieldTestWindow.Surrounds env.now)

/-- A segment is seedable exactly under these conditions. -/
theorem isSeedable_iff : IsSeedable env exam assessment accommodations segment ↔
    SeedingConditions env exam assessment accommodations segment := by
  have hwanted : segment.fieldTestMinItems ≠ 0 ↔ 0 < segment.fieldTestMinItems :=
    UInt32.pos_iff_ne_zero.symm
  have hsimulation : env.config.fieldTest.isSimulation exam.environment = true ↔
      ∃ name ∈ env.config.fieldTest.simulationEnvironments,
        Text.sameUpToCase name exam.environment = true := by
    rw [FieldTestConfig.isSimulation, List.any_eq_true]
  rw [IsSeedable, isFieldTestOpen_iff, hwanted, hsimulation, Window.isOpenAt_iff,
    Window.isOpenAt_iff]
  constructor
  · rintro ⟨hpool, henabled, hpositive, ⟨item, hitem, hfieldTest⟩, htime⟩
    obtain ⟨hmem, hlanguage⟩ := Segment.mem_itemsIn.1 hitem
    exact ⟨henabled, hpositive, ⟨item, hmem, hfieldTest, hlanguage⟩, hpool, htime⟩
  · rintro ⟨henabled, hpositive, ⟨item, hmem, hfieldTest, hlanguage⟩, hpool, htime⟩
    have hitem := Segment.mem_itemsIn.2 ⟨hmem, hlanguage⟩
    exact ⟨hpool, henabled, hpositive, ⟨item, hitem, hfieldTest⟩, htime⟩

/-! ### The counters -/

/-- **An adaptive segment that may be seeded** has the key. -/
def HasSeedable (env : Environment) (exam : Exam) (assessment : Assessment)
    (accommodations : List Accommodation) (key : String) : Prop :=
  ∃ segment ∈ assessment.segments, segment.key = key ∧ segment.isFixedForm = false ∧
    IsSeedable env exam assessment accommodations segment

/-- Choosing a form counts no use. -/
theorem usage_chooseForm (env : Environment) (exam : Exam) (segment : Segment)
    (cohort : Option String) (state : AssemblyState) :
    (chooseForm env exam segment cohort state).2.usage = state.usage := by
  obtain ⟨rotations, h⟩ := exists_snd_chooseForm env exam segment cohort state
  rw [h]

/-- An adaptive segment touches the counters of its own key, and only when it is seedable. -/
theorem get?_usage_assembleAdaptive
    (h : segment.key = key → ¬ IsSeedable env exam assessment accommodations segment) :
    (assembleAdaptive env exam assessment segment accommodations
      state).2.usage.segments.get? key = state.usage.segments.get? key := by
  by_cases hseedable : IsSeedable env exam assessment accommodations segment
  · have hne : segment.key ≠ key := fun heq => h heq hseedable
    cases hhistory : env.history exam.id segment.key with
    | error outage => rw [assembleAdaptive_of_history_error hseedable hhistory]
    | ok history =>
      rw [assembleAdaptive_of_history_ok hseedable hhistory]
      exact SelectionRequest.get?_select_of_ne state.usage hne
  · rw [assembleAdaptive_of_not_seedable hseedable]

/-- **The counters of a key stay as they are** over a whole pass, successful or not, without a
seedable segment of the key. -/
theorem get?_usage_assemble_eq
    (h : ∀ accommodations, env.accommodations exam.id = .ok accommodations →
      ¬ HasSeedable env exam assessment accommodations key) :
    (assemble env exam assessment state).2.usage.segments.get? key =
      state.usage.segments.get? key := by
  rw [usage_assemble]
  cases haccommodations : env.accommodations exam.id with
  | error outage => rw [snd_plan_of_error haccommodations]
  | ok accommodations =>
    rw [snd_plan_of_ok haccommodations]
    -- the invariant of the pass: what is kept for the key is what it was at the start
    refine @assembleSegments_keeps
      (fun after => after.usage.segments.get? key = state.usage.segments.get? key)
      env exam assessment accommodations assessment.inOrder
      (fun segment _ _ cohort after hafter => ?_) (fun segment hmem hadaptive after hafter => ?_)
      none _ rfl
    · rw [usage_chooseForm]
      exact hafter
    · rw [get?_usage_assembleAdaptive, hafter]
      intro hkey hseedable
      have hsegment := assessment.inOrder_perm.mem_iff.mp hmem
      exact h accommodations haccommodations ⟨segment, hsegment, hkey, hadaptive, hseedable⟩

/-! ### The manifest -/

/-- What is made of a segment that is not seeded has no field-test item. -/
theorem IsMade.of_not_isSeedable {made : AssembledSegment}
    (h : IsMade env exam assessment accommodations segment made)
    (hnot : segment.isFixedForm = false →
      ¬ IsSeedable env exam assessment accommodations segment) :
    made.record.fieldTestItemCount = 0 ∧ made.groups = [] := by
  cases h with
  | onForm => exact ⟨rfl, rfl⟩
  | onPool => exact ⟨rfl, rfl⟩
  | onSeededPool hadaptive hseedable => exact absurd hseedable (hnot hadaptive)

/-- What has field-test items was made of a seedable segment. -/
theorem IsMade.hasSeedable {made : AssembledSegment}
    (h : IsMade env exam assessment accommodations segment made)
    (hsegment : segment ∈ assessment.segments) (hkey : segment.key = key)
    (hsome : ¬ (made.record.fieldTestItemCount = 0 ∧ made.groups = [])) :
    HasSeedable env exam assessment accommodations key := by
  by_contra hnone
  refine hsome (h.of_not_isSeedable fun hadaptive hseedable => ?_)
  exact hnone ⟨segment, hsegment, hkey, hadaptive, hseedable⟩

/-! ### Passes -/

/-- **A pass seeds a segment key** when it changes the counters kept for the key, succeeds with a
group for it, or succeeds with field-test items counted in a record for it. -/
inductive Seeds (env : Environment) (exam : Exam) (assessment : Assessment)
    (state : AssemblyState) (key : String) : Prop
  | counters (hchanged : (assemble env exam assessment state).2.usage.segments.get? key ≠
      state.usage.segments.get? key)
  | group {manifest : Manifest} {group : FieldTestGroup}
      (hpass : (assemble env exam assessment state).1 = .ok manifest)
      (hgroup : group ∈ manifest.fieldTestGroups) (hkey : group.segmentKey = key)
  | record {manifest : Manifest} {record : ExamSegment}
      (hpass : (assemble env exam assessment state).1 = .ok manifest)
      (hrecord : record ∈ manifest.segments) (hkey : record.segmentKey = key)
      (hcount : record.fieldTestItemCount ≠ 0)

/-- A pass that seeds a key found a seedable segment of the key. -/
theorem Seeds.hasSeedable (h : Seeds env exam assessment state key) :
    ∃ accommodations, env.accommodations exam.id = .ok accommodations ∧
      HasSeedable env exam assessment accommodations key := by
  cases h with
  | counters hchanged =>
    -- without a seedable segment the counters would be what they were
    by_contra hnone
    refine hchanged (get?_usage_assemble_eq fun accommodations haccommodations hseedable => ?_)
    exact hnone ⟨accommodations, haccommodations, hseedable⟩
  | group hpass hgroup hkey =>
    obtain ⟨accommodations, made, haccommodations, hmade, rfl⟩ :=
      exists_made_of_assemble_ok hpass
    obtain ⟨a, ha, hgroup⟩ := List.mem_flatMap.mp hgroup
    obtain ⟨segment, hmem, h⟩ := exists_left_of_mem hmade ha
    refine ⟨accommodations, haccommodations, h.hasSeedable
      (assessment.inOrder_perm.mem_iff.mp hmem) ?_ fun hnone => ?_⟩
    · rw [← hkey, h.segmentKey_of_mem_groups hgroup]
    · simp [hnone.2] at hgroup
  | record hpass hrecord hkey hcount =>
    obtain ⟨accommodations, made, haccommodations, hmade, rfl⟩ :=
      exists_made_of_assemble_ok hpass
    obtain ⟨a, ha, rfl⟩ := List.mem_map.mp hrecord
    obtain ⟨segment, hmem, h⟩ := exists_left_of_mem hmade ha
    refine ⟨accommodations, haccommodations, h.hasSeedable
      (assessment.inOrder_perm.mem_iff.mp hmem) ?_ fun hnone => hcount hnone.1⟩
    rw [← hkey, h.isRecordFor.segmentKey]

/-- **Seeding is safe**: whatever the state, a pass seeds a key only when an adaptive segment of the
key meets all conditions of seeding. -/
theorem exists_seedingConditions_of_seeds {env : Environment} {exam : Exam}
    {assessment : Assessment} {state : AssemblyState} {key : String}
    (h : Seeds env exam assessment state key) :
    ∃ accommodations, env.accommodations exam.id = .ok accommodations ∧
      ∃ segment ∈ assessment.segments, segment.key = key ∧ segment.algorithm = .adaptive ∧
        SeedingConditions env exam assessment accommodations segment := by
  obtain ⟨accommodations, haccommodations, segment, hmem, hkey, hadaptive, hseedable⟩ :=
    h.hasSeedable
  refine ⟨accommodations, haccommodations, segment, hmem, hkey, ?_, isSeedable_iff.1 hseedable⟩
  cases halgorithm : segment.algorithm with
  | adaptive => rfl
  | fixedForm => simp [Segment.isFixedForm, halgorithm] at hadaptive

/-- The assessment with a seeded segment, followed by a segment that has no form. -/
def formlessAssessment : Assessment :=
  { seededAssessment with
    segments :=
      seededAssessment.segments ++ [Fixture.buildSegment "FORMS" .fixedForm [.position 2]] }

/-- **A failed pass that seeds**: the group of the first segment is counted as used when the second
one makes the pass fail. -/
theorem exists_seedingConditions_formlessAssessment :
    (assemble plainServices (Fixture.exam "EX") formlessAssessment .initial).1 =
        .error (.noForm "FORMS" "ENU") ∧
      Seeds plainServices (Fixture.exam "EX") formlessAssessment .initial "SEG" ∧
      ∃ segment ∈ formlessAssessment.segments, segment.key = "SEG" ∧
        segment.algorithm = .adaptive ∧
        SeedingConditions plainServices (Fixture.exam "EX") formlessAssessment [] segment := by
  have horder : formlessAssessment.inOrder = formlessAssessment.segments :=
    Assessment.inOrder_of_pairwise (by decide)
  have hseeds : Seeds plainServices (Fixture.exam "EX") formlessAssessment .initial "SEG" := by
    refine .counters ?_
    rw [assemble, horder]
    decide
  obtain ⟨accommodations, haccommodations, hsegment⟩ := exists_seedingConditions_of_seeds hseeds
  obtain rfl : [] = accommodations := Except.ok.inj haccommodations
  refine ⟨?_, hseeds, hsegment⟩
  rw [assemble, horder]
  decide

end TestAssembly
