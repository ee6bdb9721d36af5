import TestAssembly.Assembly.Pass
import TestAssembly.Proofs.FieldTest.Placement
import TestAssembly.Proofs.FieldTest.Selection

/-!
# What a pass can make of a segment

A fixed-form segment is made on one of its forms. An adaptive one is made on its pool, and seeded
with field-test groups when the pool is full and the gate is open (`IsSeedable`). `IsMade` tells
these three cases for one segment, whatever happened to the segments before. All that is known of a
single record follows from it: it is a record of its segment, of no more items than the segment may
have, and the groups that come with it were seeded there (`IsMade.exists_of_mem_groups`) and are
counted exactly (`IsMade.fieldTestItemCount_eq`).
-/

namespace TestAssembly

variable {env : Environment} {exam : Exam} {assessment : Assessment}
  {accommodations : List Accommodation} {segment : Segment} {cohort : Option String}
  {state : AssemblyState}

/-! ### Seeding -/

/-- **The pool** of a segment for an exam. -/
def poolOf (env : Environment) (exam : Exam) (assessment : Assessment)
    (accommodations : List Accommodation) (segment : Segment) : SegmentPool :=
  segmentPool accommodations assessment.constraints segment env.config.items.languageProperty
    exam.languageCode

/-- **Seedable**: the pool of the segment has full length and the field-test gate is open. -/
def IsSeedable (env : Environment) (exam : Exam) (assessment : Assessment)
    (accommodations : List Accommodation) (segment : Segment) : Prop :=
  (poolOf env exam assessment accommodations segment).length = segment.maxItems ∧
    isFieldTestOpen env.config exam assessment segment env.now = true

instance (env : Environment) (exam : Exam) (assessment : Assessment)
    (accommodations : List Accommodation) (segment : Segment) :
    Decidable (IsSeedable env exam assessment accommodations segment) :=
  inferInstanceAs (Decidable (_ ∧ _))

/-- The request with which a segment is seeded. -/
def seedingRequest (env : Environment) (exam : Exam) (assessment : Assessment)
    (accommodations : List Accommodation) (segment : Segment) (history : List FieldTestGroup) :
    SelectionRequest :=
  { exam, segment, accommodations
    constraints := assessment.constraints
    assignedGroupIds := history.map (·.groupId)
    languageProperty := env.config.items.languageProperty
    wanted := segment.fieldTestMinItems }

/-- The rule by which the seeded groups are placed. -/
def seedingRule (env : Environment) (exam : Exam) (segment : Segment) : PlacementRule :=
  { segment
    language := exam.languageCode
    random := env.random
    drawBound := env.config.fieldTest.positionDrawBound }

/-- **Seeding** with a history at a ledger and a number of draws. -/
def seeding (env : Environment) (exam : Exam) (assessment : Assessment)
    (accommodations : List Accommodation) (segment : Segment) (history : List FieldTestGroup)
    (ledger : Ledger) (draws : Nat) : Placement :=
  (seedingRule env exam segment).place (sumWrapped (history.map (·.itemCount))) draws
    ((seedingRequest env exam assessment accommodations segment history).select ledger).1

/-! ### One segment -/

/-- **What a pass can make of a segment.** -/
inductive IsMade (env : Environment) (exam : Exam) (assessment : Assessment)
    (accommodations : List Accommodation) (segment : Segment) : AssembledSegment → Prop
  /-- A fixed-form segment takes one of its forms in the language of the exam. -/
  | onForm {form : Form} (hfixed : segment.isFixedForm = true)
      (hform : form ∈ segment.formsIn exam.languageCode) :
      IsMade env exam assessment accommodations segment (fixedFormSegment exam segment form)
  /-- An adaptive segment takes its pool. -/
  | onPool {draws : Nat} (hadaptive : segment.isFixedForm = false)
      (hseedable : ¬ IsSeedable env exam assessment accommodations segment) :
      IsMade env exam assessment accommodations segment
        (adaptiveSegment exam segment (poolOf env exam assessment accommodations segment)
          ⟨[], 0, draws⟩)
  /-- A seedable one is seeded as well. -/
  | onSeededPool {history : List FieldTestGroup} {ledger : Ledger} {draws : Nat}
      (hadaptive : segment.isFixedForm = false)
      (hseedable : IsSeedable env exam assessment accommodations segment)
      (hhistory : env.history exam.id segment.key = .ok history) :
      IsMade env exam assessment accommodations segment
        (adaptiveSegment exam segment (poolOf env exam assessment accommodations segment)
          (seeding env exam assessment accommodations segment history ledger draws))

/-- A segment that is not seedable is made without a look at the history. -/
theorem assembleAdaptive_of_not_seedable
    (h : ¬ IsSeedable env exam assessment accommodations segment) :
    assembleAdaptive env exam assessment segment accommodations state =
      (.ok (adaptiveSegment exam segment (poolOf env exam assessment accommodations segment)
        ⟨[], 0, state.drawsTaken⟩), state) :=
  if_neg h

/-- A seedable segment cannot be made without its history. -/
theorem assembleAdaptive_of_history_error {outage : Outage}
    (h : IsSeedable env exam assessment accommodations segment)
    (hhistory : env.history exam.id segment.key = .error outage) :
    assembleAdaptive env exam assessment segment accommodations state =
      (.error outage.error, state) := by
  refine (if_pos h).trans ?_
  rw [seed, hhistory]

/-- A seedable segment is seeded. -/
theorem assembleAdaptive_of_history_ok {history : List FieldTestGroup}
    (h : IsSeedable env exam assessment accommodations segment)
    (hhistory : env.history exam.id segment.key = .ok history) :
    assembleAdaptive env exam assessment segment accommodations state =
      let placement :=
        seeding env exam assessment accommodations segment history state.usage state.drawsTaken
      (.ok (adaptiveSegment exam segment (poolOf env exam assessment accommodations segment)
          placement),
        { state with
          usage := ((seedingRequest env exam assessment accommodations segment history).select
            state.usage).2
          drawsTaken := placement.drawsTaken }) := by
  refine (if_pos h).trans ?_
  rw [seed, hhistory]
  rfl

/-- What is made of an adaptive segment touches no rotation. -/
theorem rotations_assembleAdaptive (env : Environment) (exam : Exam) (assessment : Assessment)
    (segment : Segment) (accommodations : List Accommodation) (state : AssemblyState) :
    (assembleAdaptive env exam assessment segment accommodations state).2.rotations =
      state.rotations := by
  by_cases h : IsSeedable env exam assessment accommodations segment
  · cases hhistory : env.history exam.id segment.key with
    | error outage => rw [assembleAdaptive_of_history_error h hhistory]
    | ok history => rw [assembleAdaptive_of_history_ok h hhistory]
  · rw [assembleAdaptive_of_not_seedable h]

/-- An adaptive segment whose history can be had is made. -/
theorem exists_assembleAdaptive_eq_ok (assessment : Assessment)
    (accommodations : List Accommodation) {history : List FieldTestGroup}
    (hhistory : env.history exam.id segment.key = .ok history) (state : AssemblyState) :
    ∃ made, (assembleAdaptive env exam assessment segment accommodations state).1 = .ok made := by
  by_cases h : IsSeedable env exam assessment accommodations segment
  · rw [assembleAdaptive_of_history_ok h hhistory]
    exact ⟨_, rfl⟩
  · rw [assembleAdaptive_of_not_seedable h]
    exact ⟨_, rfl⟩

theorem isMade_of_assembleAdaptive {made : AssembledSegment}
    (hadaptive : segment.isFixedForm = false)
    (hmade : (assembleAdaptive env exam assessment segment accommodations state).1 = .ok made) :
    IsMade env exam assessment accommodations segment made := by
  by_cases h : IsSeedable env exam assessment accommodations segment
  · cases hhistory : env.history exam.id segment.key with
    | error outage => simp [assembleAdaptive_of_history_error h hhistory] at hmade
    | ok history =>
      rw [assembleAdaptive_of_history_ok h hhistory, Except.ok.injEq] at hmade
      exact hmade ▸ .onSeededPool hadaptive h hhistory
  · rw [assembleAdaptive_of_not_seedable h, Except.ok.injEq] at hmade
    exact hmade ▸ .onPool hadaptive h

/-- A chosen form is a form of the segment in the language of the exam. -/
theorem mem_formsIn_of_chooseForm {form : Form}
    (h : (chooseForm env exam segment cohort state).1 = .ok form) :
    form ∈ segment.formsIn exam.languageCode := by
  unfold chooseForm at h
  split at h
  · dsimp only at h
    split at h
    · rename_i hselect
      obtain rfl := Except.ok.inj h
      exact Rotations.mem_formsIn_of_select hselect
    · simp at h
  · split at h
    · rename_i hfind
      obtain rfl := Except.ok.inj h
      exact List.mem_of_find?_eq_some hfind
    · simp at h

/-! ### The record of a segment -/

/-- **Record of a segment** for an exam, whatever it counts. -/
structure IsRecordFor (exam : Exam) (segment : Segment) (record : ExamSegment) : Prop where
  examId : record.examId = exam.id
  segmentKey : record.segmentKey = segment.key
  segmentId : record.segmentId = segment.id
  segmentPosition : record.segmentPosition = segment.position
  algorithm : record.algorithm = segment.algorithm

namespace IsMade

variable {made : AssembledSegment}

theorem isRecordFor (h : IsMade env exam assessment accommodations segment made) :
    IsRecordFor exam segment made.record := by
  cases h <;> exact ⟨rfl, rfl, rfl, rfl, rfl⟩

/-- A segment gets no more items than it may have, from a form or from its pool. -/
theorem examItemCount_le (h : IsMade env exam assessment accommodations segment made) :
    made.record.examItemCount ≤ segment.maxItems := by
  cases h with
  | onForm => exact Std.min_le_right
  | onPool => exact achievableLength_le _ _
  | onSeededPool => exact achievableLength_le _ _

/-- No field-test item comes with a form. -/
theorem of_isFixedForm (h : IsMade env exam assessment accommodations segment made)
    (hfixed : segment.isFixedForm = true) :
    made.record.fieldTestItemCount = 0 ∧ made.groups = [] := by
  cases h with
  | onForm => exact ⟨rfl, rfl⟩
  | onPool hadaptive => simp [hfixed] at hadaptive
  | onSeededPool hadaptive => simp [hfixed] at hadaptive

/-- **What a group is**: a group that was selected for the segment, placed. -/
theorem exists_selected_of_mem_groups (h : IsMade env exam assessment accommodations segment made)
    {group : FieldTestGroup} (hgroup : group ∈ made.groups) :
    ∃ history, env.history exam.id segment.key = .ok history ∧
      ∃ ledger, ∃ selected ∈
          ((seedingRequest env exam assessment accommodations segment history).select ledger).1,
        ∃ slot, (seedingRule env exam segment).placedAt selected slot = group := by
  cases h with
  | onForm => simp [fixedFormSegment] at hgroup
  | onPool => simp [adaptiveSegment] at hgroup
  | @onSeededPool history ledger _ _ _ hhistory =>
    exact ⟨history, hhistory, ledger, PlacementRule.exists_of_mem_place hgroup⟩

/-- **Where a group comes from**: a candidate item of the segment, which stands for a group that the
history does not have yet. -/
theorem exists_of_mem_groups (h : IsMade env exam assessment accommodations segment made)
    {group : FieldTestGroup} (hgroup : group ∈ made.groups) :
    ∃ history, env.history exam.id segment.key = .ok history ∧
      ∃ item ∈ (seedingRequest env exam assessment accommodations segment history).candidateItems,
        group.examId = exam.id ∧ group.segmentKey = segment.key ∧
          group.groupKey = item.groupKey ∧ group.groupId = item.groupId := by
  obtain ⟨history, hhistory, ledger, selected, hselected, slot, rfl⟩ :=
    h.exists_selected_of_mem_groups hgroup
  obtain ⟨item, hitem, rfl⟩ := SelectionRequest.exists_of_mem_select hselected
  exact ⟨history, hhistory, item, hitem, rfl, rfl, rfl, rfl⟩

/-- Every group is filed under its segment. -/
theorem segmentKey_of_mem_groups (h : IsMade env exam assessment accommodations segment made)
    {group : FieldTestGroup} (hgroup : group ∈ made.groups) :
    group.segmentKey = segment.key := by
  obtain ⟨-, -, -, -, -, hkey, -⟩ := h.exists_of_mem_groups hgroup
  exact hkey

theorem segmentId_of_mem_groups (h : IsMade env exam assessment accommodations segment made)
    {group : FieldTestGroup} (hgroup : group ∈ made.groups) :
    group.segmentId = segment.id := by
  obtain ⟨history, -, ledger, selected, hselected, slot, rfl⟩ :=
    h.exists_selected_of_mem_groups hgroup
  obtain ⟨item, -, rfl⟩ := SelectionRequest.exists_of_mem_select hselected
  rfl

/-- Every group is one of a field-test item of the pool. -/
theorem exists_item_of_mem_groups (h : IsMade env exam assessment accommodations segment made)
    {group : FieldTestGroup} (hgroup : group ∈ made.groups) :
    ∃ item ∈ segment.items, item.fieldTest = true ∧ item.groupKey = group.groupKey ∧
      item.id ∈ made.record.itemPool.keys := by
  obtain ⟨history, -, item, hitem, -, -, hkey, -⟩ := h.exists_of_mem_groups hgroup
  obtain ⟨hlanguage, hfieldTest, hadmits, -⟩ := SelectionRequest.mem_candidateItems.1 hitem
  refine ⟨item, (Segment.mem_itemsIn.1 hlanguage).1, hfieldTest, hkey.symm, ?_⟩
  -- what selection admits of the field-test items, the pool admits of all items
  have hpool : item ∈ (poolOf env exam assessment accommodations segment).items :=
    mem_eligibleItems.2 ⟨hlanguage, by simp, hadmits⟩
  cases h with
  | onForm => simp [fixedFormSegment] at hgroup
  | onPool => exact NameSet.mem_keys_ofNames.2 (List.mem_map_of_mem hpool)
  | onSeededPool => exact NameSet.mem_keys_ofNames.2 (List.mem_map_of_mem hpool)

/-- **How field-test items are counted**: without seeding there are none; with it, those that the
history has for the segment and those of the groups placed, within the budget once one is placed. -/
theorem fieldTestItemCount_eq (h : IsMade env exam assessment accommodations segment made)
    (hmax : segment.fieldTestMaxItems.toNat < maxCount)
    (hhistory : ∀ history, env.history exam.id segment.key = .ok history →
      total (history.map (·.itemCount)) < countBound) :
    (made.record.fieldTestItemCount = 0 ∧ made.groups = []) ∨
      ∃ history, env.history exam.id segment.key = .ok history ∧
        made.record.fieldTestItemCount.toNat =
          total (history.map (·.itemCount)) + total (made.groups.map (·.itemCount)) ∧
        (made.groups ≠ [] →
          made.record.fieldTestItemCount.toNat ≤ segment.fieldTestMaxItems.toNat) := by
  cases h with
  | onForm => exact .inl ⟨rfl, rfl⟩
  | onPool => exact .inl ⟨rfl, rfl⟩
  | @onSeededPool history ledger draws _ _ hfound =>
    have hrule : (seedingRule env exam segment).segment.fieldTestMaxItems.toNat < maxCount := hmax
    refine .inr ⟨history, hfound, ?_, PlacementRule.itemCount_place_le hrule⟩
    have hcount := PlacementRule.toNat_itemCount_place hrule
      (sumWrapped (history.map (·.itemCount))) draws
      ((seedingRequest env exam assessment accommodations segment history).select ledger).1
    rwa [toNat_sumWrapped, Nat.mod_eq_of_lt (hhistory history hfound)] at hcount

end IsMade

end TestAssembly
