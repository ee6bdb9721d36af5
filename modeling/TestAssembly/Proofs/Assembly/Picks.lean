import TestAssembly.Proofs.Assembly.Accounting
import TestAssembly.Proofs.Assembly.Commutation

/-!
# What a pass picks

The only way in which a pass changes the ledger is by selecting groups for the segments that it
seeds. So the loop over the segments is, for the ledger, a sequence of picks (`Ledger.pickAll`,
`usage_assembleSegments_of_ok`), and what it makes of a segment is the placement of what it picked
there (`IsPicked`).

Between segments of different keys picks do not meet: what is picked in a segment depends on its own
counters alone (`pick_congr`) and changes no others (`get?_pick_of_ne`). So with distinct keys all
picks of a pass can be told from the ledger that it started with. For each key picked in a segment
there is one use more after the pass (`uses_assemble`), and the groups of the segment in the
manifest are the placement of what was picked (`exists_placement_of_assemble_ok`).
-/

namespace TestAssembly

/-! ### Orderly ledgers -/

/-- **Orderly ledger**: the counters of every segment are orderly, as claims leave them. -/
def Ledger.IsOrderly (ledger : Ledger) : Prop := ∀ segment, Orderly (ledger.tallies segment)

theorem Ledger.isOrderly_empty : Ledger.empty.IsOrderly := fun _ => .nil

/-- Uses are counted by what is kept for the segment. -/
theorem Ledger.uses_congr {ledger other : Ledger} {segment : String}
    (h : other.segments.get? segment = ledger.segments.get? segment) (group : String) :
    other.uses segment group = ledger.uses segment group := by
  rw [uses, tallies, h, uses, tallies]

variable {env : Environment} {exam : Exam} {assessment : Assessment}
  {accommodations : List Accommodation} {segment : Segment} {segments : List Segment}
  {cohort : Option String} {state : AssemblyState} {ledger other : Ledger} {key : String}

/-! ### One segment -/

/-- **Pick**: what a pass selects for a segment, nothing unless it seeds it, and the ledger
afterwards. -/
def Ledger.pick (ledger : Ledger) (env : Environment) (exam : Exam) (assessment : Assessment)
    (accommodations : List Accommodation) (segment : Segment) : List FieldTestGroup × Ledger :=
  if segment.isFixedForm = false ∧ IsSeedable env exam assessment accommodations segment then
    match env.history exam.id segment.key with
    | .error _ => ([], ledger)
    | .ok history => (seedingRequest env exam assessment accommodations segment history).select ledger
  else ([], ledger)

/-- A pick is a selection for the segment, or nothing. -/
theorem pick_eq (env : Environment) (exam : Exam) (assessment : Assessment)
    (accommodations : List Accommodation) (segment : Segment) :
    (∃ history, ∀ ledger : Ledger, ledger.pick env exam assessment accommodations segment =
      (seedingRequest env exam assessment accommodations segment history).select ledger) ∨
    ∀ ledger : Ledger, ledger.pick env exam assessment accommodations segment = ([], ledger) := by
  unfold Ledger.pick
  split
  · cases env.history exam.id segment.key with
    | error outage => exact .inr fun _ => rfl
    | ok history => exact .inl ⟨history, fun _ => rfl⟩
  · exact .inr fun _ => rfl

/-- A pick touches the counters of its own segment only. -/
theorem get?_pick_of_ne (h : segment.key ≠ key) :
    (ledger.pick env exam assessment accommodations segment).2.segments.get? key =
      ledger.segments.get? key := by
  obtain ⟨history, hpick⟩ | hpick := pick_eq env exam assessment accommodations segment
  · rw [hpick]
    exact SelectionRequest.get?_select_of_ne ledger h
  · rw [hpick]

/-- **A pick depends on the counters of its own segment** alone. -/
theorem pick_congr (h : other.segments.get? segment.key = ledger.segments.get? segment.key) :
    (other.pick env exam assessment accommodations segment).1 =
      (ledger.pick env exam assessment accommodations segment).1 := by
  obtain ⟨history, hpick⟩ | hpick := pick_eq env exam assessment accommodations segment
  · rw [hpick, hpick]
    exact (SelectionRequest.select_congr h).1
  · rw [hpick, hpick]

/-- No key is picked twice. -/
theorem nodup_groupKey_pick (h : ledger.IsOrderly) :
    ((ledger.pick env exam assessment accommodations segment).1.map (·.groupKey)).Nodup := by
  obtain ⟨history, hpick⟩ | hpick := pick_eq env exam assessment accommodations segment
  · rw [hpick]
    exact SelectionRequest.nodup_groupKey_select (h _)
  · rw [hpick]
    exact .nil

/-- Each key picked has one use more. -/
theorem uses_pick (h : ledger.IsOrderly) (groupKey : String) :
    (ledger.pick env exam assessment accommodations segment).2.uses segment.key groupKey =
      ledger.uses segment.key groupKey +
        if groupKey ∈ (ledger.pick env exam assessment accommodations segment).1.map (·.groupKey)
        then 1 else 0 := by
  obtain ⟨history, hpick⟩ | hpick := pick_eq env exam assessment accommodations segment
  · rw [hpick]
    exact SelectionRequest.uses_select (h _) groupKey
  · simp [hpick]

theorem isOrderly_pick (h : ledger.IsOrderly) :
    (ledger.pick env exam assessment accommodations segment).2.IsOrderly := by
  intro key
  by_cases hkey : segment.key = key
  · subst hkey
    obtain ⟨history, hpick⟩ | hpick := pick_eq env exam assessment accommodations segment
    · rw [hpick]
      exact SelectionRequest.orderly_select (h _)
    · rw [hpick]
      exact h segment.key
  · rw [Ledger.tallies, get?_pick_of_ne hkey]
    exact h key

/-- The key of an item has a size. -/
theorem Segment.groupSize_ne_zero {item : Item} (h : item ∈ segment.items) :
    segment.groupSize item.groupKey ≠ 0 := by
  have hcount : 0 < segment.items.countP (·.groupKey == item.groupKey) :=
    List.countP_pos_iff.mpr ⟨item, h, beq_self_eq_true _⟩
  have hword : 0 < maxCount := by decide
  rw [groupSize, Ne, ← UInt32.toNat_inj, toNat_countOf, UInt32.toNat_zero]
  omega

/-- Every key picked has items in the segment. -/
theorem groupSize_ne_zero_of_mem_pick {group : FieldTestGroup}
    (h : group ∈ (ledger.pick env exam assessment accommodations segment).1) :
    segment.groupSize group.groupKey ≠ 0 := by
  obtain ⟨history, hpick⟩ | hpick := pick_eq env exam assessment accommodations segment
  · rw [hpick] at h
    obtain ⟨item, hitem, rfl⟩ := SelectionRequest.exists_of_mem_select h
    obtain ⟨hlanguage, -⟩ := SelectionRequest.mem_candidateItems.1 hitem
    exact Segment.groupSize_ne_zero (Segment.mem_itemsIn.1 hlanguage).1
  · simp [hpick] at h

/-! ### All segments -/

/-- **The ledger after picks** for segments, one after the other. -/
def Ledger.pickAll (env : Environment) (exam : Exam) (assessment : Assessment)
    (accommodations : List Accommodation) (segments : List Segment) (ledger : Ledger) : Ledger :=
  segments.foldl (fun ledger segment =>
    (ledger.pick env exam assessment accommodations segment).2) ledger

/-- Picks leave the counters of other keys. -/
theorem get?_pickAll_of_not_mem (h : key ∉ segments.map (·.key)) :
    (ledger.pickAll env exam assessment accommodations segments).segments.get? key =
      ledger.segments.get? key := by
  induction segments generalizing ledger with
  | nil => rfl
  | cons segment rest ih =>
    rw [List.map_cons, List.mem_cons, not_or] at h
    exact (ih h.2).trans (get?_pick_of_ne (Ne.symm h.1))

/-- **One use more** for each key picked in a segment, when no other segment has its key. -/
theorem uses_pickAll (hkeys : (segments.map (·.key)).Nodup) (h : ledger.IsOrderly)
    (hmem : segment ∈ segments) (groupKey : String) :
    (ledger.pickAll env exam assessment accommodations segments).uses segment.key groupKey =
      ledger.uses segment.key groupKey +
        if groupKey ∈ (ledger.pick env exam assessment accommodations segment).1.map (·.groupKey)
        then 1 else 0 := by
  induction segments generalizing ledger with
  | nil => simp at hmem
  | cons first rest ih =>
    rw [List.map_cons, List.nodup_cons] at hkeys
    rcases List.mem_cons.mp hmem with rfl | hmem
    · rw [← uses_pick h]
      exact Ledger.uses_congr (get?_pickAll_of_not_mem hkeys.1) groupKey
    · have hne : first.key ≠ segment.key := key_ne_of_mem hkeys.1 hmem
      have hsame := @get?_pick_of_ne env exam assessment accommodations first ledger segment.key hne
      refine (ih hkeys.2 (isOrderly_pick h) hmem).trans ?_
      rw [Ledger.uses_congr hsame, pick_congr hsame]

/-! ### Steps and loop -/

/-- A step changes the ledger by its pick. -/
theorem usage_assembleNext :
    (assembleNext env exam assessment accommodations segment cohort state).2.usage =
      (state.usage.pick env exam assessment accommodations segment).2 := by
  unfold assembleNext Ledger.pick
  by_cases hfixed : segment.isFixedForm = true
  · simp [hfixed, usage_chooseForm]
  · have hadaptive := Bool.eq_false_iff.mpr hfixed
    by_cases hseedable : IsSeedable env exam assessment accommodations segment
    · cases hhistory : env.history exam.id segment.key with
      | error outage =>
        simp [hadaptive, hseedable, assembleAdaptive_of_history_error hseedable hhistory]
      | ok history =>
        simp [hadaptive, hseedable, assembleAdaptive_of_history_ok hseedable hhistory]
    · simp [hadaptive, hseedable, assembleAdaptive_of_not_seedable hseedable]

/-- **Made of a pick**: the groups of a segment are the placement of what was picked for it at a
ledger, and its record has their count. -/
def IsPicked (env : Environment) (exam : Exam) (assessment : Assessment)
    (accommodations : List Accommodation) (ledger : Ledger) (segment : Segment)
    (made : AssembledSegment) : Prop :=
  ∃ count draws placement, (seedingRule env exam segment).place count draws
      (ledger.pick env exam assessment accommodations segment).1 = placement ∧
    made.groups = placement.groups ∧ made.record.fieldTestItemCount = placement.itemCount

/-- A step makes its segment of its pick. -/
theorem isPicked_of_assembleNext {made : AssembledSegment} {next : Option String}
    (h : (assembleNext env exam assessment accommodations segment cohort state).1 =
      .ok (made, next)) :
    IsPicked env exam assessment accommodations state.usage segment made := by
  unfold assembleNext at h
  unfold IsPicked Ledger.pick
  by_cases hfixed : segment.isFixedForm = true
  · rw [if_pos hfixed] at h
    cases hform : (chooseForm env exam segment cohort state).1 with
    | error e => simp [hform, Except.map] at h
    | ok form =>
      simp only [hform, Except.map, Except.ok.injEq, Prod.mk.injEq] at h
      rw [← h.1, if_neg (by simp [hfixed])]
      exact ⟨0, 0, _, rfl, rfl, rfl⟩
  · rw [if_neg hfixed] at h
    have hadaptive := Bool.eq_false_iff.mpr hfixed
    by_cases hseedable : IsSeedable env exam assessment accommodations segment
    · cases hhistory : env.history exam.id segment.key with
      | error outage =>
        simp [assembleAdaptive_of_history_error hseedable hhistory, Except.map] at h
      | ok history =>
        simp only [assembleAdaptive_of_history_ok hseedable hhistory, Except.map, Except.ok.injEq,
          Prod.mk.injEq] at h
        rw [← h.1, if_pos ⟨hadaptive, hseedable⟩]
        exact ⟨_, _, _, rfl, rfl, rfl⟩
    · simp only [assembleAdaptive_of_not_seedable hseedable, Except.map, Except.ok.injEq,
        Prod.mk.injEq] at h
      rw [← h.1, if_neg fun hboth => hseedable hboth.2]
      exact ⟨0, 0, _, rfl, rfl, rfl⟩

/-- The loop over the segments, when it succeeds, picks for one after the other. -/
theorem usage_assembleSegments_of_ok {made : List AssembledSegment}
    (h : (assembleSegments env exam assessment accommodations segments cohort state).1 =
      .ok made) :
    (assembleSegments env exam assessment accommodations segments cohort state).2.usage =
      state.usage.pickAll env exam assessment accommodations segments := by
  induction segments generalizing cohort state made with
  | nil => rfl
  | cons segment rest ih =>
    obtain ⟨first, next, after, later, hnext, hlater, -⟩ := exists_next_of_assembleSegments_ok h
    have hafter : after.usage = (state.usage.pick env exam assessment accommodations segment).2 :=
      congrArg (·.2.usage) hnext ▸ usage_assembleNext
    have hrest := ih (congrArg Prod.fst hlater)
    rw [hlater, hafter] at hrest
    exact hrest

/-- With distinct keys the loop makes every segment of what is picked at the start. -/
theorem forall₂_isPicked_of_assembleSegments {made : List AssembledSegment}
    (hkeys : (segments.map (·.key)).Nodup)
    (h : (assembleSegments env exam assessment accommodations segments cohort state).1 =
      .ok made) :
    List.Forall₂ (IsPicked env exam assessment accommodations state.usage) segments made := by
  induction segments generalizing cohort state made with
  | nil =>
    obtain rfl : [] = made := Except.ok.inj h
    exact .nil
  | cons segment rest ih =>
    rw [List.map_cons, List.nodup_cons] at hkeys
    obtain ⟨first, next, after, later, hnext, hlater, rfl⟩ := exists_next_of_assembleSegments_ok h
    have hafter : after.usage = (state.usage.pick env exam assessment accommodations segment).2 :=
      congrArg (·.2.usage) hnext ▸ usage_assembleNext
    refine .cons (isPicked_of_assembleNext (congrArg Prod.fst hnext)) ?_
    -- this pick has left the counters of all later segments
    refine (forall₂_mem (ih hkeys.2 (congrArg Prod.fst hlater))).imp ?_
    rintro other made ⟨hmem, -, hpicked⟩
    have hne : segment.key ≠ other.key := key_ne_of_mem hkeys.1 hmem
    unfold IsPicked at hpicked ⊢
    rwa [hafter, pick_congr (get?_pick_of_ne hne)] at hpicked

/-! ### Passes -/

/-- **The keys that a pass picks** for a segment key, from the ledger that it starts with. -/
def pickedKeys (env : Environment) (exam : Exam) (assessment : Assessment) (ledger : Ledger)
    (segmentKey : String) : List String :=
  match env.accommodations exam.id, assessment.segment? segmentKey with
  | .ok accommodations, some segment =>
    (ledger.pick env exam assessment accommodations segment).1.map (·.groupKey)
  | _, _ => []

/-- With distinct keys a segment is found by its own. -/
theorem Assessment.segment?_of_mem (hkeys : (assessment.segments.map (·.key)).Nodup)
    (hmem : segment ∈ assessment.segments) : assessment.segment? segment.key = some segment := by
  unfold Assessment.segment?
  generalize assessment.segments = segments at hkeys hmem
  induction segments with
  | nil => simp at hmem
  | cons first rest ih =>
    rw [List.map_cons, List.nodup_cons] at hkeys
    rcases List.mem_cons.mp hmem with rfl | hmem
    · simp
    · have hne : first.key ≠ segment.key := key_ne_of_mem hkeys.1 hmem
      rw [List.find?_cons_of_neg (by simpa using hne)]
      exact ih hkeys.2 hmem

theorem pickedKeys_of_mem (haccommodations : env.accommodations exam.id = .ok accommodations)
    (hkeys : (assessment.segments.map (·.key)).Nodup) (hmem : segment ∈ assessment.segments) :
    pickedKeys env exam assessment ledger segment.key =
      (ledger.pick env exam assessment accommodations segment).1.map (·.groupKey) := by
  rw [pickedKeys, haccommodations, Assessment.segment?_of_mem hkeys hmem]

theorem pickedKeys_of_not_mem (h : key ∉ assessment.segments.map (·.key)) :
    pickedKeys env exam assessment ledger key = [] := by
  have hnone : assessment.segment? key = none := by
    refine List.find?_eq_none.mpr fun segment hmem => ?_
    have hne : segment.key ≠ key := fun heq => h (heq ▸ List.mem_map_of_mem hmem)
    simpa using hne
  rw [pickedKeys, hnone]
  split <;> simp_all

/-- No key is picked twice. -/
theorem nodup_pickedKeys (h : ledger.IsOrderly) (segmentKey : String) :
    (pickedKeys env exam assessment ledger segmentKey).Nodup := by
  unfold pickedKeys
  split
  · exact nodup_groupKey_pick h
  · exact .nil

/-- **A pass keeps the ledger orderly**, whether it succeeds or fails. -/
theorem isOrderly_assemble (h : state.usage.IsOrderly) :
    (assemble env exam assessment state).2.usage.IsOrderly := by
  rw [usage_assemble]
  cases haccommodations : env.accommodations exam.id with
  | error outage => rwa [snd_plan_of_error haccommodations]
  | ok accommodations =>
    rw [snd_plan_of_ok haccommodations]
    refine @assembleSegments_keeps (·.usage.IsOrderly) env exam assessment accommodations
      assessment.inOrder (fun segment _ _ cohort after hafter => ?_)
      (fun segment _ hadaptive after hafter => ?_) none _ h
    · rwa [usage_chooseForm]
    · have husage := @usage_assembleNext env exam assessment accommodations segment none after
      rw [assembleNext, if_neg (Bool.eq_false_iff.mp hadaptive)] at husage
      rw [husage]
      exact isOrderly_pick hafter

section Pass

variable {manifest : Manifest} (hpass : (assemble env exam assessment state).1 = .ok manifest)

include hpass

/-- A pass that succeeds changes the ledger by its picks, in order of delivery. -/
theorem exists_usage_assemble_eq_pickAll :
    ∃ accommodations, env.accommodations exam.id = .ok accommodations ∧
      (assemble env exam assessment state).2.usage =
        state.usage.pickAll env exam assessment accommodations assessment.inOrder := by
  obtain ⟨made, hdraft, -⟩ := exists_draft_of_assemble_ok hpass
  obtain ⟨accommodations, haccommodations, hloop⟩ := exists_assembleSegments_of_draft_ok hdraft
  refine ⟨accommodations, haccommodations, ?_⟩
  rw [usage_assemble, snd_plan_of_ok haccommodations]
  exact usage_assembleSegments_of_ok hloop

variable (hkeys : (assessment.segments.map (·.key)).Nodup)

include hkeys

/-- **What a pass counts**: one use more for each key that it picks. -/
theorem uses_assemble (h : state.usage.IsOrderly) (segmentKey groupKey : String) :
    (assemble env exam assessment state).2.usage.uses segmentKey groupKey =
      state.usage.uses segmentKey groupKey +
        if groupKey ∈ pickedKeys env exam assessment state.usage segmentKey then 1 else 0 := by
  obtain ⟨accommodations, haccommodations, husage⟩ := exists_usage_assemble_eq_pickAll hpass
  have hperm := assessment.inOrder_perm
  rw [husage]
  by_cases hsegment : segmentKey ∈ assessment.segments.map (·.key)
  · obtain ⟨segment, hmem, rfl⟩ := List.mem_map.mp hsegment
    rw [pickedKeys_of_mem haccommodations hkeys hmem]
    exact uses_pickAll ((hperm.map _).nodup_iff.mpr hkeys) h (hperm.mem_iff.mpr hmem) groupKey
  · rw [pickedKeys_of_not_mem hsegment, if_neg List.not_mem_nil]
    exact Ledger.uses_congr
      (get?_pickAll_of_not_mem (mt (hperm.map _).mem_iff.mp hsegment)) groupKey

/-- **What a pass places**: in every segment the groups of the manifest are the placement of what
was picked at the start, and the record has their count. -/
theorem exists_placement_of_assemble_ok :
    ∃ accommodations, env.accommodations exam.id = .ok accommodations ∧
      ∀ segment ∈ assessment.segments, ∃ record ∈ manifest.segments,
        record.segmentKey = segment.key ∧ ∃ count draws placement,
          (seedingRule env exam segment).place count draws
            (state.usage.pick env exam assessment accommodations segment).1 = placement ∧
          manifest.groupsIn segment.key = placement.groups ∧
          record.fieldTestItemCount = placement.itemCount := by
  obtain ⟨made, hdraft, rfl⟩ := exists_draft_of_assemble_ok hpass
  obtain ⟨accommodations, haccommodations, hloop⟩ := exists_assembleSegments_of_draft_ok hdraft
  have hperm := assessment.inOrder_perm
  have hmade := forall₂_groupsIn (forall₂_isMade_of_assembleSegments hloop) hkeys
  have hpicked := forall₂_isPicked_of_assembleSegments ((hperm.map _).nodup_iff.mpr hkeys) hloop
  refine ⟨accommodations, haccommodations, fun segment hmem => ?_⟩
  obtain ⟨a, ha, ⟨-, hsegment, hgroups⟩, count, draws, placement, hplace, hplaced, hcount⟩ :=
    exists_right_of_mem (hmade.mp (fun _ _ => And.intro) hpicked) (hperm.mem_iff.mpr hmem)
  rw [hsegment.isRecordFor.segmentKey] at hgroups
  exact ⟨a.record, List.mem_map_of_mem ha, hsegment.isRecordFor.segmentKey, count, draws,
    placement, hplace, hgroups.trans hplaced, hcount⟩

end Pass

end TestAssembly
