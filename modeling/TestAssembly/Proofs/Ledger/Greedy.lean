import TestAssembly.Proofs.Ledger.Record

/-!
# How much a claim takes

A claim goes through the queue and stops as soon as it has the number of items wanted. What it takes
is therefore the shortest first part of the queue that reaches this number, or the whole queue if
there is not enough in it (`JustReaches`). While it is dealt out, the number of items taken
saturates. That never shows, as the number wanted is within the word (`deal_justReaches`).

`claimAlong` registers the eligible groups in an order of its own. The counters are put in order of
use before anything is dealt, so the order of registration is forgotten (`claimAlong_eq_claim`).
Together with the counters afterwards this determines a claim (`greedy_claim`).
-/

namespace TestAssembly

/-! ### Just enough -/

/-- **Just enough**: of what is offered, from the front on, no more than it takes to reach the
number wanted, and all of it when it does not reach this number. -/
structure JustReaches {α : Type} (size : α → UInt32) (wanted : Nat) (offered taken : List α) :
    Prop where
  isPrefix : taken <+: offered
  reaches : wanted ≤ total (taken.map size) ∨ taken = offered
  least : ∀ first, first <+: taken → first ≠ taken → total (first.map size) < wanted

namespace JustReaches

variable {α : Type} {size : α → UInt32} {wanted : Nat} {offered taken : List α}

theorem nil (size : α → UInt32) (wanted : Nat) : JustReaches size wanted [] [] where
  isPrefix := List.prefix_rfl
  reaches := .inr rfl
  least _ hfirst hne := absurd (List.prefix_nil.mp hfirst) hne

/-- Nothing is enough when nothing is wanted. -/
theorem zero (size : α → UInt32) (offered : List α) : JustReaches size 0 offered [] where
  isPrefix := List.nil_prefix
  reaches := .inl (Nat.zero_le _)
  least _ hfirst hne := absurd (List.prefix_nil.mp hfirst) hne

/-- As long as something is wanted, the next element is taken, and then just enough of the rest. -/
theorem cons {a : α} (hwanted : 0 < wanted)
    (h : JustReaches size (wanted - (size a).toNat) offered taken) :
    JustReaches size wanted (a :: offered) (a :: taken) where
  isPrefix := List.cons_prefix_cons.mpr ⟨rfl, h.isPrefix⟩
  reaches := by
    rw [List.map_cons, total, List.cons_inj_right]
    exact h.reaches.imp_left fun hle => by omega
  least first hfirst hne := by
    cases first with
    | nil => exact hwanted
    | cons b first =>
      obtain ⟨rfl, htail⟩ := List.cons_prefix_cons.mp hfirst
      have hrest := h.least first htail fun heq => hne (heq ▸ rfl)
      rw [List.map_cons, total]
      omega

/-- When nothing is wanted nothing is taken. -/
theorem eq_nil (h : JustReaches size 0 offered taken) : taken = [] := by
  by_contra hne
  exact Nat.not_lt_zero _ (h.least [] List.nil_prefix (Ne.symm hne))

end JustReaches

/-- **Size** of an eligible group: its number of items. -/
def sizeIn (eligible : NameMap UInt32) (group : String) : UInt32 := (eligible.get? group).getD 0

namespace Ledger

/-! ### Dealing out -/

/-- **What is dealt** from counters in order is just enough of the eligible groups, beside the items
taken before. -/
theorem deal_justReaches (eligible : NameMap UInt32) (wanted taken : UInt32)
    (tallies : List Tally) :
    JustReaches (sizeIn eligible) (wanted.toNat - taken.toNat)
      ((tallies.map (·.groupKey)).filter fun g => (eligible.get? g).isSome)
      (deal eligible wanted taken tallies).1 := by
  induction tallies generalizing taken with
  | nil => exact .nil _ _
  | cons t rest ih =>
    rw [deal]
    split
    · rename_i hle
      rw [UInt32.le_iff_toNat_le] at hle
      rw [Nat.sub_eq_zero_of_le hle]
      exact .zero _ _
    · rename_i hlt
      rw [UInt32.le_iff_toNat_le] at hlt
      cases hget : eligible.get? t.groupKey with
      | none => simpa [hget] using ih taken
      | some size =>
        have hrest := ih (addSat taken size)
        have hsize : sizeIn eligible t.groupKey = size := by rw [sizeIn, hget, Option.getD_some]
        -- a sum that saturates is not below the number wanted, and neither is the exact one
        have hleft : wanted.toNat - (addSat taken size).toNat =
            wanted.toNat - taken.toNat - (sizeIn eligible t.groupKey).toNat := by
          have hword := toNat_le_maxCount wanted
          rw [hsize, toNat_addSat]
          omega
        rw [hleft] at hrest
        rw [List.map_cons, List.filter_cons_of_pos (by rw [hget, Option.isSome_some])]
        exact .cons (by omega) hrest

section Claim

variable {ledger : Ledger} {segment : String} (eligible : NameMap UInt32) (wanted : UInt32)

/-- **What a claim takes** is just enough of the queue. -/
theorem claim_justReaches (h : Orderly (ledger.tallies segment)) :
    JustReaches (sizeIn eligible) wanted.toNat (ledger.queue segment eligible)
      (ledger.claim segment eligible wanted).1 := by
  rw [← filter_offered eligible h]
  exact deal_justReaches eligible wanted 0 _

/-! ### The order of registration -/

/-- **A claim along an enumeration** of the eligible groups: they are registered in this order. -/
def claimAlong (ledger : Ledger) (enumeration : List String) (segment : String)
    (eligible : NameMap UInt32) (wanted : UInt32) : List String × Ledger :=
  let offered := leastUsedFirst (register enumeration (ledger.tallies segment))
  let (groups, after) := deal eligible wanted 0 offered
  (groups, ⟨ledger.segments.insert segment (leastUsedFirst after)⟩)

/-- **The order of registration is forgotten**: along every enumeration the claim is the same. -/
theorem claimAlong_eq_claim (h : Orderly (ledger.tallies segment)) {enumeration : List String}
    (hperm : enumeration.Perm eligible.keys) :
    ledger.claimAlong enumeration segment eligible wanted =
      ledger.claim segment eligible wanted := by
  have hregister : (register enumeration (ledger.tallies segment)).Perm
      (register eligible.keys (ledger.tallies segment)) :=
    ((hperm.filter _).map _).append_right _
  have hkeys := nodup_register eligible.nodup_keys h.nodup
  have hoffered : leastUsedFirst (register enumeration (ledger.tallies segment)) =
      leastUsedFirst (register eligible.keys (ledger.tallies segment)) := by
    refine Orderly.eq_of_mem_iff (orderly_leastUsedFirst ?_) (orderly_leastUsedFirst hkeys) ?_
    · exact (hregister.map _).nodup_iff.mpr hkeys
    · intro t
      rw [mem_leastUsedFirst, mem_leastUsedFirst, hregister.mem_iff]
  rw [claimAlong, hoffered, claim]

/-! ### The counters afterwards -/

/-- A group has a counter if it is registered, and the counter shows its uses. -/
theorem occurrences?_eq (ledger : Ledger) (segment group : String) :
    ledger.occurrences? segment group =
      if group ∈ (ledger.tallies segment).map (·.groupKey) then some (ledger.uses segment group)
      else none := by
  split
  · exact occurrences?_of_mem_keys ‹_›
  · rename_i hnot
    have hnone : (ledger.tallies segment).find? (·.groupKey == group) = none := by
      simpa [List.find?_eq_none] using hnot
    rw [occurrences?, hnone, Option.map_none]

/-- **The counters after a claim**: a group that was dealt has one use more, every other one its
counter from before, or a new one if it is eligible and had none. -/
theorem occurrences?_claim (h : Orderly (ledger.tallies segment)) (group : String) :
    (ledger.claim segment eligible wanted).2.occurrences? segment group =
      if group ∈ (ledger.claim segment eligible wanted).1 then
        some (ledger.uses segment group + 1)
      else (ledger.occurrences? segment group).or
        (if group ∈ eligible.keys then some 0 else none) := by
  rw [occurrences?_eq, occurrences?_eq, uses_claim eligible wanted h]
  simp only [mem_keys_claim eligible wanted h]
  by_cases hdealt : group ∈ (ledger.claim segment eligible wanted).1
  · rw [if_pos hdealt, if_pos hdealt, if_pos (.inl (mem_keys_of_mem_claim h hdealt))]
  · rw [if_neg hdealt, if_neg hdealt, Nat.add_zero]
    by_cases hknown : group ∈ (ledger.tallies segment).map (·.groupKey)
    · rw [if_pos (.inr hknown), if_pos hknown, Option.some_or]
    · rw [if_neg hknown, Option.none_or, uses, usesIn_eq_zero hknown]
      exact if_congr (or_iff_left hknown) rfl rfl

end Claim

end Ledger

/-- No counter is above the number of answers. -/
theorem IsRecordOf.occurrences_le {segment : String} {dealings : List Dealing}
    {tallies : List Tally} (h : IsRecordOf segment dealings tallies) {t : Tally}
    (ht : t ∈ tallies) : t.occurrences ≤ dealings.length := by
  rw [← usesIn_of_mem h.nodup ht, h.uses_eq]
  exact List.countP_le_length

namespace Ledger

/-- **A claim is greedy.** In every ledger that a run reaches, let the queue be the eligible groups
in turn order, those never registered with no uses. A claim takes just enough of the queue, so
nothing when nothing is wanted, no group twice and no group that is not eligible. Afterwards each
group taken has one use more, every other group keeps its counter, and the eligible ones that had
none are registered. Nothing is kept differently for other segments, and the order in which the
eligible groups are enumerated does not matter. -/
theorem greedy_claim (history : List ClaimRequest) (hlength : history.length + 1 < wordBound)
    (segment : String) (eligible : NameMap UInt32) (wanted : UInt32) :
    let before := (empty.serve history).2
    let queue := before.queue segment eligible
    let groups := (before.claim segment eligible wanted).1
    let after := (before.claim segment eligible wanted).2
    queue.Perm eligible.keys ∧ queue.Pairwise (before.Sooner segment) ∧
    JustReaches (sizeIn eligible) wanted.toNat queue groups ∧
    (wanted = 0 → groups = []) ∧ groups.Nodup ∧ (∀ g ∈ groups, g ∈ eligible.keys) ∧
    (∀ g, after.occurrences? segment g =
      if g ∈ groups then some (before.uses segment g + 1)
      else (before.occurrences? segment g).or (if g ∈ eligible.keys then some 0 else none)) ∧
    (∀ t ∈ after.tallies segment, t.occurrences < wordBound) ∧
    (∀ other, segment ≠ other → after.segments.get? other = before.segments.get? other) ∧
    ∀ enumeration, enumeration.Perm eligible.keys →
      before.claimAlong enumeration segment eligible wanted = (groups, after) := by
  intro before queue groups after
  have hrecord := isRecordOf_serve_empty history segment
  have horderly : Orderly (before.tallies segment) := hrecord.toOrderly
  have hgroups : JustReaches (sizeIn eligible) wanted.toNat queue groups :=
    claim_justReaches eligible wanted horderly
  refine ⟨before.queue_perm segment eligible, before.pairwise_queue segment eligible, hgroups,
    fun hzero => ?_, nodup_claim eligible wanted horderly,
    fun g hg => mem_keys_of_mem_claim horderly hg, occurrences?_claim eligible wanted horderly,
    fun t ht => ?_, fun other hne => before.get?_claim_of_ne eligible wanted hne,
    fun enumeration hperm => claimAlong_eq_claim eligible wanted horderly hperm⟩
  · subst hzero
    exact hgroups.eq_nil
  · have hle := (hrecord.claim ⟨segment, eligible, wanted⟩).occurrences_le ht
    rw [List.length_append, length_serve, List.length_singleton] at hle
    omega

/-- Three requests after which one group has two uses, one has one, and one is registered only. -/
def leaningHistory : List ClaimRequest :=
  [⟨"S", .ofList [("a", 1), ("b", 1), ("e", 1)], 2⟩, ⟨"T", .ofList [("c", 1)], 1⟩,
    ⟨"S", .ofList [("a", 1)], 1⟩]

/-- Of the four groups that are eligible the most used one is left, and the group that is registered
but not eligible is passed by. -/
theorem greedy_claim_leaningHistory :
    let before := (empty.serve leaningHistory).2
    let eligible : NameMap UInt32 := .ofList [("a", 5), ("b", 2), ("c", 1), ("d", 0)]
    let after := (before.claim "S" eligible 3).2
    leaningHistory.length + 1 < wordBound ∧
    (before.claim "S" eligible 3).1 = ["c", "d", "b"] ∧
    JustReaches (sizeIn eligible) 3 (before.queue "S" eligible) ["c", "d", "b"] ∧
    after.occurrences? "S" "b" = some 2 ∧ after.occurrences? "S" "e" = some 0 := by
  intro before eligible after
  -- the counters are sorted by insertion, so that the claims can be computed
  have hgroups : (before.claim "S" eligible 3).1 = ["c", "d", "b"] := by
    simp only [before, leaningHistory, serve, claim, leastUsedFirst_eq_insertionSort]
    decide
  have hcounters : before.uses "S" "b" = 1 ∧ before.occurrences? "S" "e" = some 0 := by
    simp only [before, leaningHistory, serve, claim, leastUsedFirst_eq_insertionSort]
    decide
  obtain ⟨-, -, hjust, -, -, -, hafter, -⟩ :=
    greedy_claim leaningHistory (by decide) "S" eligible 3
  have hdealt := hafter "b"
  have hpassed := hafter "e"
  rw [hgroups] at hjust hdealt hpassed
  rw [if_pos (by decide), hcounters.1] at hdealt
  rw [if_neg (by decide), hcounters.2, Option.some_or] at hpassed
  exact ⟨by decide, hgroups, hjust, hdealt, hpassed⟩

end Ledger

end TestAssembly
