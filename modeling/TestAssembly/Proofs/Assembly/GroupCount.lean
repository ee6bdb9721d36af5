import TestAssembly.Proofs.Assembly.Draft

/-!
# How large a placed group is

The items of a group are counted twice. Selection counts those that it offers: field-test items in
the language of the exam that are admitted and not assigned yet (`itemCount_groupOf_eq`). Placement
counts all items of the segment with the group key (`Segment.groupSize`), and its count replaces the
first one. `itemCount_of_mem_fieldTestGroups` tells what comes of it: a placed group is never
counted short, and it has the size that was selected exactly when every item with its key was
offered (or when the count cannot go higher). An operational item that shares the key of a group
makes the difference (`itemCount_mixedAssessment`): it is counted with the group and, once more,
with the pool.
-/

namespace TestAssembly

variable {env : Environment} {exam : Exam} {assessment : Assessment}
  {accommodations : List Accommodation} {history : List FieldTestGroup} {segment : Segment}
  {state : AssemblyState}

/-- **Offered items** of an exam: field-test items in its language that are admitted and whose group
is not in the history. -/
def isOffered (env : Environment) (exam : Exam) (assessment : Assessment)
    (accommodations : List Accommodation) (history : List FieldTestGroup) (item : Item) : Bool :=
  item.fieldTest && item.hasProperty env.config.items.languageProperty exam.languageCode
    && admits accommodations assessment.constraints item
    && !(history.map (·.groupId)).contains item.groupId

/-- Selection offers exactly these items. -/
theorem candidateItems_seedingRequest :
    (seedingRequest env exam assessment accommodations segment history).candidateItems =
      segment.items.filter (isOffered env exam assessment accommodations history) := by
  rw [SelectionRequest.candidateItems_eq_filter]
  rfl

/-- **What selection counts**: the offered items with the key. -/
theorem itemCount_groupOf_eq (item : Item) :
    ((seedingRequest env exam assessment accommodations segment history).groupOf item).itemCount =
      countOf (segment.items.countP fun other => other.groupKey == item.groupKey &&
        isOffered env exam assessment accommodations history other) := by
  rw [SelectionRequest.groupOf, SelectionRequest.itemsOfGroup, candidateItems_seedingRequest,
    List.filter_filter, List.countP_eq_length_filter]

/-- Counting fewer items, or all of them. -/
theorem countP_eq_countP_and_iff {items : List Item} {p q : Item → Bool} :
    items.countP p = items.countP (fun item => p item && q item) ↔
      ∀ item ∈ items, p item = true → q item = true := by
  -- both count among the items that pass the first test
  have hfilter : items.countP (fun item => p item && q item) = (items.filter p).countP q := by
    rw [List.countP_filter]
    exact List.countP_congr fun item _ => by rw [Bool.and_comm]
  rw [hfilter, List.countP_eq_length_filter, eq_comm, List.countP_eq_length]
  simp only [List.mem_filter, and_imp]

/-- **The size of a placed group**, in a pass that succeeds: all items of its segment with its key.
Selection had counted those of them that were offered, at least one. The two counts are the same
exactly when all of them were offered, or when the count cannot go higher. -/
theorem itemCount_of_mem_fieldTestGroups {env : Environment} {exam : Exam} {assessment : Assessment}
    {state : AssemblyState} {manifest : Manifest} {group : FieldTestGroup}
    (hpass : (assemble env exam assessment state).1 = .ok manifest)
    (hgroup : group ∈ manifest.fieldTestGroups) :
    ∃ accommodations history, env.accommodations exam.id = .ok accommodations ∧
      ∃ segment ∈ assessment.segments, segment.key = group.segmentKey ∧
        env.history exam.id segment.key = .ok history ∧
        ∃ ledger, ∃ selected ∈
            ((seedingRequest env exam assessment accommodations segment history).select ledger).1,
          let counted := segment.items.countP (·.groupKey == group.groupKey)
          let offered := segment.items.countP fun item => item.groupKey == group.groupKey &&
            isOffered env exam assessment accommodations history item
          selected.groupKey = group.groupKey ∧ selected.itemCount = countOf offered ∧
          group.itemCount = countOf counted ∧ 0 < offered ∧ offered ≤ counted ∧
          (group.itemCount = selected.itemCount ↔
            (∀ item ∈ segment.items, item.groupKey = group.groupKey →
              isOffered env exam assessment accommodations history item = true) ∨
            maxCount ≤ offered) := by
  obtain ⟨accommodations, made, haccommodations, hmade, rfl⟩ := exists_made_of_assemble_ok hpass
  obtain ⟨a, ha, hgroup⟩ := List.mem_flatMap.mp hgroup
  obtain ⟨segment, hmem, h⟩ := exists_left_of_mem hmade ha
  obtain ⟨history, hhistory, ledger, selected, hselected, slot, rfl⟩ :=
    h.exists_selected_of_mem_groups hgroup
  obtain ⟨item, hitem, rfl⟩ := SelectionRequest.exists_of_mem_select hselected
  have hkey := h.segmentKey_of_mem_groups hgroup
  refine ⟨accommodations, history, haccommodations, segment,
    assessment.inOrder_perm.mem_iff.mp hmem, hkey.symm, hhistory, ledger, _, hselected, ?_⟩
  intro counted offered
  -- the item that the group was selected for is one of those offered
  have hoffered : item ∈ segment.items ∧
      isOffered env exam assessment accommodations history item = true := by
    rwa [candidateItems_seedingRequest, List.mem_filter] at hitem
  have hpositive : 0 < offered := by
    refine List.countP_pos_iff.mpr ⟨item, hoffered.1, ?_⟩
    rw [hoffered.2, Bool.and_true]
    exact beq_self_eq_true _
  have hle : offered ≤ counted :=
    List.countP_mono_left fun other _ hother => (Bool.and_eq_true_iff.mp hother).1
  have hall : counted = offered ↔ ∀ other ∈ segment.items, other.groupKey = item.groupKey →
      isOffered env exam assessment accommodations history other = true := by
    refine countP_eq_countP_and_iff.trans (forall₂_congr fun other _ => ?_)
    rw [beq_iff_eq]
    rfl
  refine ⟨rfl, itemCount_groupOf_eq item, rfl, hpositive, hle, ?_⟩
  rw [itemCount_groupOf_eq item]
  exact (countOf_eq_countOf_iff hle).trans (or_congr_left hall)

theorem eq_ok_of_toOption_eq_some {α : Type} {result : Except AssemblyError α} {value : α}
    (h : result.toOption = some value) : result = .ok value := by
  cases result with
  | error e => simp [Except.toOption] at h
  | ok found => exact congrArg Except.ok (Option.some.inj h)

/-- **A group whose items are all offered** keeps the size that was selected. -/
theorem itemCount_seededAssessment :
    ∃ manifest, (assemble plainServices (Fixture.exam "EX") seededAssessment .initial).1 =
        .ok manifest ∧
      ∃ group ∈ manifest.fieldTestGroups, ∃ segment ∈ seededAssessment.segments,
        ∃ ledger, ∃ selected ∈ ((seedingRequest plainServices (Fixture.exam "EX") seededAssessment
            [] segment []).select ledger).1, group.itemCount = selected.itemCount := by
  have hmade : (assemble plainServices (Fixture.exam "EX") seededAssessment
      .initial).1.toOption.map (fun m => m.fieldTestGroups.map (·.groupKey)) = some ["G-g2"] := by
    decide +kernel
  obtain ⟨manifest, hmanifest, hgroups⟩ := Option.map_eq_some_iff.mp hmade
  have hpass := eq_ok_of_toOption_eq_some hmanifest
  obtain ⟨group, hgroup, hkey⟩ := List.mem_map.mp (hgroups ▸ List.mem_singleton_self "G-g2")
  obtain ⟨accommodations, history, haccommodations, segment, hmem, -, hhistory, ledger, selected,
    hselected, -, -, -, -, -, hsize⟩ := itemCount_of_mem_fieldTestGroups hpass hgroup
  obtain rfl : [] = accommodations := Except.ok.inj haccommodations
  obtain rfl : [] = history := Except.ok.inj hhistory
  have hoffered : ∀ segment ∈ seededAssessment.segments, ∀ item ∈ segment.items,
      item.groupKey = "G-g2" →
        isOffered plainServices (Fixture.exam "EX") seededAssessment [] [] item = true := by
    decide +kernel
  exact ⟨manifest, hpass, group, hgroup, segment, hmem, ledger, selected, hselected,
    hsize.mpr (.inl (hkey ▸ hoffered segment hmem))⟩

/-- Three items: an operational one, and a field-test group whose key a second operational item
shares. -/
def mixedAssessment : Assessment :=
  Fixture.assessment
    [Fixture.buildSegment "SEG" .adaptive
      [.maxItems 2, .fieldTestRange 1 3, .fieldTestItems 1 2, .strand "Reading" 0 (some 0.5),
        .items [Fixture.item "i1", Fixture.buildItem "i2" [.group "g2", .fieldTest],
          Fixture.buildItem "i3" [.group "g2"]]]]

/-- **A group counted with an operational item**: one item was offered and two are counted, so that
the manifest has four items in all while the segment has three. -/
theorem itemCount_mixedAssessment :
    ∃ manifest, (assemble plainServices (Fixture.exam "EX") mixedAssessment .initial).1 =
        .ok manifest ∧
      manifest.fieldTestGroups.map (fun group => (group.groupKey, group.itemCount)) =
        [("G-g2", 2)] ∧
      manifest.totalItems = 4 ∧
      plainServices.accommodations "EX" = .ok [] ∧ plainServices.history "EX" "SEG" = .ok [] ∧
      mixedAssessment.segments.map (fun segment => (segment.key, segment.items.length,
        segment.items.countP fun item => item.groupKey == "G-g2" &&
          isOffered plainServices (Fixture.exam "EX") mixedAssessment [] [] item)) =
        [("SEG", 3, 1)] := by
  have hmade : (assemble plainServices (Fixture.exam "EX") mixedAssessment .initial).1.toOption.map
      (fun manifest => (manifest.fieldTestGroups.map fun group =>
        (group.groupKey, group.itemCount), manifest.totalItems)) = some ([("G-g2", 2)], 4) := by
    decide +kernel
  obtain ⟨manifest, hmanifest, hcounts⟩ := Option.map_eq_some_iff.mp hmade
  obtain ⟨hgroups, htotal⟩ := Prod.mk.inj hcounts
  refine ⟨manifest, eq_ok_of_toOption_eq_some hmanifest, hgroups, htotal, rfl, rfl, ?_⟩
  decide +kernel

end TestAssembly
