import TestAssembly.Fixture
import TestAssembly.Proofs.FieldTest.Selection
import TestAssembly.Proofs.Ledger.Greedy

/-!
# What a selection hands out

A selection offers the group keys of its candidate items to the ledger, each with the number of
these items (`sizeIn_offer`). What the ledger deals is just enough of them, and every key dealt
becomes one group: that of its first candidate item, with all candidate items of the key
(`candidateGroup?_of_mem_select`). The number of items of a group is the size that was offered, so
the groups are just enough as well (`total_lt_of_prefix_select`), and each use that the ledger
counts is one group handed out (`selection_accounts`).
-/

namespace TestAssembly

/-- A proper first part of what is just enough stays below the number wanted, also when the elements
are told by a key of theirs. -/
theorem JustReaches.total_lt_of_isPrefix {α β : Type} {size : α → UInt32} {wanted : Nat}
    {offered : List α} {taken : List β} {key : β → α} {sizeOf : β → UInt32}
    (h : JustReaches size wanted offered (taken.map key))
    (hsize : ∀ b ∈ taken, sizeOf b = size (key b)) {first : List β} (hfirst : first <+: taken)
    (hne : first ≠ taken) : total (first.map sizeOf) < wanted := by
  have hsizes : first.map sizeOf = (first.map key).map size := by
    rw [List.map_map]
    exact List.map_congr_left fun b hb => hsize b (hfirst.subset hb)
  rw [hsizes]
  refine h.least _ (hfirst.map key) fun heq => hne (hfirst.eq_of_length ?_)
  simpa using congrArg List.length heq

namespace SelectionRequest

variable {r : SelectionRequest} {ledger : Ledger}

/-! ### What is offered -/

/-- The candidate items with a group key, counted in the segment. -/
theorem length_itemsOfGroup (r : SelectionRequest) (groupKey : String) :
    (r.itemsOfGroup groupKey).length =
      (r.segment.items.filter r.isCandidate).countP (·.groupKey == groupKey) := by
  rw [itemsOfGroup, candidateItems_eq_filter, List.countP_eq_length_filter]

/-- **The size offered** for a group key is the number of its candidate items. -/
theorem sizeIn_offer (r : SelectionRequest) (groupKey : String) :
    sizeIn r.offer groupKey = countOf (r.itemsOfGroup groupKey).length := by
  have hoffer : r.offer = NameMap.ofList ((r.candidateItems.map (·.groupKey)).map fun k =>
      (k, countOf (r.itemsOfGroup k).length)) := by
    rw [offer, List.map_map]
    rfl
  rw [sizeIn, hoffer, NameMap.get?_ofList_map]
  split
  · rfl
  · -- a key that is not offered has no candidate items
    rename_i hnot
    have hnone : r.itemsOfGroup groupKey = [] := by
      refine List.filter_eq_nil_iff.mpr fun item hitem hkey => hnot ?_
      exact List.mem_map.mpr ⟨item, hitem, by simpa using hkey⟩
    rw [hnone]
    rfl

/-! ### What is handed out -/

/-- **A group handed out** is the candidate group of its key. -/
theorem candidateGroup?_of_mem_select {group : FieldTestGroup}
    (h : group ∈ (r.select ledger).1) : r.candidateGroup? group.groupKey = some group := by
  unfold select at h
  split at h
  · simp at h
  · obtain ⟨groupKey, -, hgroup⟩ := List.mem_filterMap.mp h
    have hkey : group.groupKey = groupKey := by
      rw [candidateGroup?_eq, Option.map_eq_some_iff] at hgroup
      obtain ⟨first, hfirst, rfl⟩ := hgroup
      simpa [groupOf] using (List.mem_filter.mp (List.mem_of_head? hfirst)).2
    rwa [hkey]

/-- It stands for the first candidate item with its key. -/
theorem exists_first_of_mem_select {group : FieldTestGroup} (h : group ∈ (r.select ledger).1) :
    ∃ first, ((r.segment.items.filter r.isCandidate).filter
      (·.groupKey == group.groupKey)).head? = some first ∧ r.groupOf first = group := by
  have hgroup := candidateGroup?_of_mem_select h
  rw [candidateGroup?_eq, Option.map_eq_some_iff, itemsOfGroup, candidateItems_eq_filter] at hgroup
  exact hgroup

/-- It has the number of items that was offered for its key. -/
theorem itemCount_of_mem_select {group : FieldTestGroup} (h : group ∈ (r.select ledger).1) :
    group.itemCount = sizeIn r.offer group.groupKey := by
  obtain ⟨first, -, rfl⟩ := exists_first_of_mem_select h
  rw [sizeIn_offer]
  rfl

section Dealt

variable (horderly : Orderly (ledger.tallies r.segment.key)) (hsome : r.candidateItems ≠ [])

include horderly hsome

/-- The keys handed out are those that the ledger deals. -/
theorem groupKey_select_eq_claim : (r.select ledger).1.map (·.groupKey) =
    (ledger.claim r.segment.key r.offer r.wanted).1 := by
  have hask : ¬ r.candidateItems.isEmpty = true := by simpa using hsome
  rw [groupKey_select horderly, if_neg hask]

/-- **Just enough** of the offer is handed out. -/
theorem justReaches_select :
    JustReaches (sizeIn r.offer) r.wanted.toNat (ledger.queue r.segment.key r.offer)
      ((r.select ledger).1.map (·.groupKey)) := by
  rw [groupKey_select_eq_claim horderly hsome]
  exact Ledger.claim_justReaches r.offer r.wanted horderly

/-- The groups have as many items as are wanted, or every candidate item's key is among them. -/
theorem le_total_select_or :
    r.wanted.toNat ≤ total ((r.select ledger).1.map (·.itemCount)) ∨
      ∀ item ∈ r.candidateItems, item.groupKey ∈ (r.select ledger).1.map (·.groupKey) := by
  refine (justReaches_select horderly hsome).reaches.imp (fun hle => ?_) fun hall item hitem => ?_
  · have hsizes : (r.select ledger).1.map (·.itemCount) =
        ((r.select ledger).1.map (·.groupKey)).map (sizeIn r.offer) := by
      rw [List.map_map]
      exact List.map_congr_left fun group hgroup => itemCount_of_mem_select hgroup
    rwa [hsizes]
  · rw [hall, Ledger.mem_queue]
    exact mem_keys_offer.2 ⟨item, hitem, rfl⟩

/-- With fewer of the groups there would not be as many items as are wanted. -/
theorem total_lt_of_prefix_select {first : List FieldTestGroup}
    (hfirst : first <+: (r.select ledger).1) (hne : first ≠ (r.select ledger).1) :
    total (first.map (·.itemCount)) < r.wanted.toNat :=
  (justReaches_select horderly hsome).total_lt_of_isPrefix
    (fun _ hgroup => itemCount_of_mem_select hgroup) hfirst hne

/-- **The counters after a selection**: one use more for each key handed out, a new counter for
every other candidate key that had none. -/
theorem occurrences?_select (groupKey : String) :
    (r.select ledger).2.occurrences? r.segment.key groupKey =
      if groupKey ∈ (r.select ledger).1.map (·.groupKey) then
        some (ledger.uses r.segment.key groupKey + 1)
      else (ledger.occurrences? r.segment.key groupKey).or
        (if ∃ item ∈ r.candidateItems, item.groupKey = groupKey then some 0 else none) := by
  have hask : ¬ r.candidateItems.isEmpty = true := by simpa using hsome
  rw [groupKey_select_eq_claim horderly hsome]
  simp only [← mem_keys_offer]
  rw [← Ledger.occurrences?_claim r.offer r.wanted horderly, select, if_neg hask]

end Dealt

/-- **A selection accounts for what it hands out.** In every ledger that a run reaches, without
candidate items nothing is selected and the ledger stays as it is. Otherwise the groups have
different keys; each stands for the first candidate item with its key, in the order of the segment,
and counts all of them; together they have as many items as are wanted, and with fewer groups they
would not, or all candidate keys are among them. The counters of the segment have one use more for
just these keys and none is missing for a candidate key, and nothing is kept differently for other
segments. -/
theorem selection_accounts (history : List ClaimRequest) (r : SelectionRequest)
    (hitems : r.segment.items.length < countBound) :
    let before := (Ledger.empty.serve history).2
    let candidates := r.segment.items.filter r.isCandidate
    let groups := (r.select before).1
    let after := (r.select before).2
    (candidates = [] → groups = [] ∧ after = before) ∧
    (candidates ≠ [] →
      (groups.map (·.groupKey)).Nodup ∧
      (∀ group ∈ groups, group.groupId ∉ r.assignedGroupIds ∧
        group.itemCount.toNat = candidates.countP (·.groupKey == group.groupKey) ∧
        ∃ first, (candidates.filter (·.groupKey == group.groupKey)).head? = some first ∧
          r.groupOf first = group) ∧
      (r.wanted.toNat ≤ total (groups.map (·.itemCount)) ∨
        ∀ item ∈ candidates, item.groupKey ∈ groups.map (·.groupKey)) ∧
      (∀ first, first <+: groups → first ≠ groups →
        total (first.map (·.itemCount)) < r.wanted.toNat) ∧
      (∀ groupKey, after.occurrences? r.segment.key groupKey =
        if groupKey ∈ groups.map (·.groupKey) then
          some (before.uses r.segment.key groupKey + 1)
        else (before.occurrences? r.segment.key groupKey).or
          (if ∃ item ∈ candidates, item.groupKey = groupKey then some 0 else none)) ∧
      ∀ other, r.segment.key ≠ other →
        after.segments.get? other = before.segments.get? other) := by
  intro before candidates groups after
  have horderly : Orderly (before.tallies r.segment.key) :=
    (Ledger.isRecordOf_serve_empty history r.segment.key).toOrderly
  have hcandidates : r.candidateItems = candidates := r.candidateItems_eq_filter
  refine ⟨fun hnone => ?_, fun hsome => ?_⟩
  · have hselect := select_of_candidateItems_eq_nil before (hcandidates.trans hnone)
    exact ⟨congrArg Prod.fst hselect, congrArg Prod.snd hselect⟩
  · rw [← hcandidates] at hsome
    refine ⟨nodup_groupKey_select horderly, fun group hgroup => ⟨?_, ?_, ?_⟩, ?_,
      fun first => total_lt_of_prefix_select horderly hsome, ?_,
      fun other hne => get?_select_of_ne before hne⟩
    · obtain ⟨item, hitem, rfl⟩ := exists_of_mem_select hgroup
      exact (mem_candidateItems.1 hitem).2.2.2
    · -- the segment has no more items than a word can count
      have hbound : countBound = maxCount + 1 := rfl
      have hle : candidates.countP (·.groupKey == group.groupKey) ≤ maxCount := by
        have hcount : candidates.countP (·.groupKey == group.groupKey) ≤ r.segment.items.length :=
          Nat.le_trans List.countP_le_length (List.length_filter_le _ _)
        omega
      rw [itemCount_of_mem_select hgroup, sizeIn_offer, length_itemsOfGroup,
        toNat_countOf_of_le hle]
    · exact exists_first_of_mem_select hgroup
    · rw [← hcandidates]
      exact le_total_select_or horderly hsome
    · rw [← hcandidates]
      exact occurrences?_select horderly hsome

/-- A field-test item with a group key that is not that of its group. -/
def keyedItem (id groupId groupKey : String) : Item :=
  { Fixture.buildItem id [.group groupId, .fieldTest] with groupKey }

/-- Two items are wanted of two keys, one of which has items of several groups, the first of them
assigned before, and the other an item in another language. -/
def mixedRequest : SelectionRequest where
  exam := Fixture.exam "EX"
  constraints := []
  segment := Fixture.buildSegment "SEG" .adaptive
    [.items [keyedItem "i1" "g1" "K1", keyedItem "i2" "g2" "K1", keyedItem "i3" "g3" "K1",
      keyedItem "i4" "g4" "K2", { keyedItem "i5" "g5" "K2" with properties := [] }]]
  accommodations := []
  assignedGroupIds := ["g1"]
  languageProperty := Fixture.languageProperty
  wanted := 2

/-- The key without uses comes first; the other one has the group of its second item. -/
theorem selection_accounts_mixedRequest :
    let before := (Ledger.empty.serve [⟨"SEG", .ofList [("K1", 1)], 1⟩]).2
    let groups := (mixedRequest.select before).1
    mixedRequest.segment.items.length < countBound ∧
    groups.map (fun group => (group.groupKey, group.groupId, group.itemCount)) =
      [("K2", "g4", 1), ("K1", "g2", 2)] ∧
    (∀ first, first <+: groups → first ≠ groups → total (first.map (·.itemCount)) < 2) ∧
    (mixedRequest.select before).2.occurrences? "SEG" "K1" = some 2 := by
  intro before groups
  have hlength : mixedRequest.segment.items.length < countBound := by decide
  have hkey : mixedRequest.segment.key = "SEG" := rfl
  have hsome : mixedRequest.segment.items.filter mixedRequest.isCandidate ≠ [] := by decide
  have hgroups : groups.map (fun group => (group.groupKey, group.groupId, group.itemCount)) =
      [("K2", "g4", 1), ("K1", "g2", 2)] := by
    -- the counters are sorted by insertion, so that the selection can be computed
    simp only [groups, before, select, Ledger.serve, Ledger.claim, leastUsedFirst_eq_insertionSort]
    decide
  have hkeys : groups.map (·.groupKey) = ["K2", "K1"] := by
    simpa [Function.comp_def] using congrArg (List.map Prod.fst) hgroups
  have hone : before.uses "SEG" "K1" = 1 := by
    simp only [before, Ledger.serve, Ledger.claim, leastUsedFirst_eq_insertionSort]
    decide
  obtain ⟨-, -, -, hleast, hcounters, -⟩ :=
    (selection_accounts [⟨"SEG", .ofList [("K1", 1)], 1⟩] mixedRequest hlength).2 hsome
  have hcounter := hcounters "K1"
  rw [hkeys, if_pos (by decide), hkey, hone] at hcounter
  exact ⟨hlength, hgroups, hleast, hcounter⟩

end SelectionRequest

end TestAssembly
