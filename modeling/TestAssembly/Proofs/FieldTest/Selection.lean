import TestAssembly.FieldTest.Selection
import TestAssembly.Proofs.Ledger.Claim

/-!
# What a selection offers

Groups are handed out by key, but what is excluded are items, by their group. The two meet in the
candidate items: an item is a candidate only if its group was not assigned before
(`mem_candidateItems`), and a selected group takes its identity from one candidate item of its key
(`exists_of_mem_select`). So no selected group was assigned before, whatever groups the items of one
key belong to.

Every key that the ledger deals was offered and so has a candidate group. What is selected are just
the keys dealt (`groupKey_select`): no key is selected twice (`nodup_groupKey_select`), and each one
has one use more afterwards (`uses_select`).
-/

namespace TestAssembly

namespace SelectionRequest

variable {r : SelectionRequest}

/-- **Candidate items**: the field-test items of the segment in the language of the exam that are
admitted and whose group was not assigned before. -/
theorem mem_candidateItems {item : Item} :
    item ∈ r.candidateItems ↔
      item ∈ r.segment.itemsIn r.languageProperty r.exam.languageCode ∧
        item.fieldTest = true ∧ admits r.accommodations r.constraints item = true ∧
        item.groupId ∉ r.assignedGroupIds := by
  rw [candidateItems, List.mem_filter, mem_eligibleItems]
  simp [and_assoc]

/-- **Candidate**: whether an item is a field-test item in the language of the exam that is admitted
and whose group was not assigned before. -/
def isCandidate (r : SelectionRequest) (item : Item) : Bool :=
  item.fieldTest && item.hasProperty r.languageProperty r.exam.languageCode
    && admits r.accommodations r.constraints item && !r.assignedGroupIds.contains item.groupId

/-- The candidate items are the candidates of the segment, in its order. -/
theorem candidateItems_eq_filter (r : SelectionRequest) :
    r.candidateItems = r.segment.items.filter r.isCandidate := by
  rw [candidateItems, eligibleItems, Segment.itemsIn, List.filter_filter, List.filter_filter]
  -- the filters of selection in one, item by item
  refine List.filter_congr fun item _ => ?_
  simp only [isCandidate]
  cases item.fieldTest <;> simp [Bool.and_comm, Bool.and_assoc]

/-- **The group that an item stands for**: its own group and block, with all candidate items of its
key. -/
def groupOf (r : SelectionRequest) (item : Item) : FieldTestGroup :=
  { examId := r.exam.id
    sessionId := r.exam.sessionId
    segmentKey := r.segment.key
    segmentId := r.segment.id
    groupKey := item.groupKey
    groupId := item.groupId
    blockId := item.blockId
    itemCount := countOf (r.itemsOfGroup item.groupKey).length }

/-- The first candidate item of a key stands for the candidate group. -/
theorem candidateGroup?_eq (r : SelectionRequest) (groupKey : String) :
    r.candidateGroup? groupKey = (r.itemsOfGroup groupKey).head?.map r.groupOf := by
  rw [candidateGroup?]
  cases hfirst : (r.itemsOfGroup groupKey).head? with
  | none => rfl
  | some first =>
    have hmem : first ∈ r.itemsOfGroup groupKey := List.mem_of_head? hfirst
    have hkey : first.groupKey = groupKey := by
      simpa using (List.mem_filter.mp hmem).2
    simp [groupOf, hkey]

/-- **What is selected**: every group of a selection is one that a candidate item stands for. -/
theorem exists_of_mem_select {ledger : Ledger} {group : FieldTestGroup}
    (h : group ∈ (r.select ledger).1) : ∃ item ∈ r.candidateItems, r.groupOf item = group := by
  unfold select at h
  split at h
  · simp at h
  · obtain ⟨groupKey, -, hgroup⟩ := List.mem_filterMap.mp h
    rw [candidateGroup?_eq, Option.map_eq_some_iff] at hgroup
    obtain ⟨item, hfirst, hitem⟩ := hgroup
    have hmem : item ∈ r.itemsOfGroup groupKey := List.mem_of_head? hfirst
    exact ⟨item, (List.mem_filter.mp hmem).1, hitem⟩

/-- A selection touches what the ledger keeps for its own segment only. -/
theorem get?_select_of_ne (ledger : Ledger) {key : String} (h : r.segment.key ≠ key) :
    (r.select ledger).2.segments.get? key = ledger.segments.get? key := by
  unfold select
  split
  · rfl
  · exact ledger.get?_claim_of_ne r.offer r.wanted h

/-! ### What is dealt -/

/-- The keys offered are those of the candidate items. -/
theorem mem_keys_offer {groupKey : String} :
    groupKey ∈ r.offer.keys ↔ ∃ item ∈ r.candidateItems, item.groupKey = groupKey := by
  simp [offer, NameMap.mem_keys_ofList]

/-- A key that is offered has a candidate group. -/
theorem exists_candidateGroup? {groupKey : String} (h : groupKey ∈ r.offer.keys) :
    ∃ group, r.candidateGroup? groupKey = some group ∧ group.groupKey = groupKey := by
  obtain ⟨item, hitem, hkey⟩ := mem_keys_offer.1 h
  have hmem : item ∈ r.itemsOfGroup groupKey := List.mem_filter.mpr ⟨hitem, by simp [hkey]⟩
  obtain ⟨first, rest, hitems⟩ := List.exists_cons_of_ne_nil (List.ne_nil_of_mem hmem)
  have hfirst : first ∈ r.itemsOfGroup groupKey := by simp [hitems]
  refine ⟨r.groupOf first, ?_, ?_⟩
  · rw [candidateGroup?_eq, hitems]
    rfl
  · simpa [groupOf] using (List.mem_filter.mp hfirst).2

section Dealt

variable {ledger : Ledger} (horderly : Orderly (ledger.tallies r.segment.key))

include horderly

/-- **What is selected** are the keys that the ledger deals, if it is asked. -/
theorem groupKey_select : (r.select ledger).1.map (·.groupKey) =
    if r.candidateItems.isEmpty then []
    else (ledger.claim r.segment.key r.offer r.wanted).1 := by
  unfold select
  split
  · rfl
  · -- every key dealt was offered, so the look-up of its group drops none
    have hgroups : ∀ groupKey ∈ (ledger.claim r.segment.key r.offer r.wanted).1,
        (r.candidateGroup? groupKey).map (·.groupKey) = some groupKey := by
      intro groupKey hdealt
      obtain ⟨group, hgroup, hkey⟩ :=
        exists_candidateGroup? (Ledger.mem_keys_of_mem_claim horderly hdealt)
      rw [hgroup, Option.map_some, hkey]
    rw [List.map_filterMap, List.filterMap_congr hgroups, List.filterMap_some]

/-- **No key twice.** -/
theorem nodup_groupKey_select : ((r.select ledger).1.map (·.groupKey)).Nodup := by
  rw [groupKey_select horderly]
  split
  · exact .nil
  · exact Ledger.nodup_claim r.offer r.wanted horderly

/-- **One use more** for each key selected, and no other one. -/
theorem uses_select (groupKey : String) :
    (r.select ledger).2.uses r.segment.key groupKey = ledger.uses r.segment.key groupKey +
      if groupKey ∈ (r.select ledger).1.map (·.groupKey) then 1 else 0 := by
  rw [groupKey_select horderly]
  by_cases hnone : r.candidateItems.isEmpty = true
  · simp [select, hnone]
  · simp only [select, hnone]
    exact Ledger.uses_claim r.offer r.wanted horderly groupKey

/-- The counters stay orderly. -/
theorem orderly_select : Orderly ((r.select ledger).2.tallies r.segment.key) := by
  unfold select
  split
  · exact horderly
  · exact Ledger.orderly_claim r.offer r.wanted horderly

end Dealt

end SelectionRequest

end TestAssembly
