import Mathlib.Data.List.Nodup
import Mathlib.Data.List.Sort
import TestAssembly.FieldTest.Ledger

/-!
# One claim on the ledger

A claim registers the new groups, sorts the counters, deals out and sorts again. All of that comes
down to three laws about one segment, from which the laws about many claims follow without a look
at the steps in between:

* **What is dealt** (`claim_prefix_queue`): a first part of the *queue*, the eligible groups with
  the least used one in front and groups of equal use by their key.
* **What is counted** (`uses_claim`, `mem_tallies_claim`): one use more for each group that was
  dealt, and nothing else. A group that is not registered has no uses, so registering it changes no
  count.
* **What is kept** (`orderly_claim`): no group has two counters, and the counters ascend strictly.

The queue is the only list with the eligible groups in this order (`eq_queue`).
-/

namespace TestAssembly

/-! ### The order of use -/

namespace Tally

/-- **Strict order of use**: fewer uses, or as many and a smaller key. -/
def Before (a b : Tally) : Prop :=
  a.occurrences < b.occurrences ∨ a.occurrences = b.occurrences ∧ a.groupKey < b.groupKey

theorem precedes_iff {a b : Tally} :
    a.precedes b = true ↔ a.occurrences < b.occurrences ∨
      a.occurrences = b.occurrences ∧ a.groupKey ≤ b.groupKey := by
  simp [precedes]

theorem precedes_trans {a b c : Tally} (hab : a.precedes b = true) (hbc : b.precedes c = true) :
    a.precedes c = true := by
  rw [precedes_iff] at *
  rcases hab with hab | ⟨hab, hkey⟩
  · exact .inl (by omega)
  · rcases hbc with hbc | ⟨hbc, hkey'⟩
    · exact .inl (by omega)
    · exact .inr ⟨hab.trans hbc, String.le_trans hkey hkey'⟩

theorem precedes_total (a b : Tally) : (a.precedes b || b.precedes a) = true := by
  rw [Bool.or_eq_true, precedes_iff, precedes_iff]
  rcases Nat.lt_trichotomy a.occurrences b.occurrences with h | h | h
  · exact .inl (.inl h)
  · rcases String.le_total a.groupKey b.groupKey with hkey | hkey
    · exact .inl (.inr ⟨h, hkey⟩)
    · exact .inr (.inr ⟨h.symm, hkey⟩)
  · exact .inr (.inl h)

theorem eq_of_precedes {a b : Tally} (hab : a.precedes b = true) (hba : b.precedes a = true) :
    a = b := by
  rw [precedes_iff] at hab hba
  have hocc : a.occurrences = b.occurrences := by omega
  have hkey : a.groupKey = b.groupKey :=
    String.le_antisymm (hab.resolve_left (by omega)).2 (hba.resolve_left (by omega)).2
  cases a
  cases b
  simp_all

instance : Std.Total fun a b : Tally => a.precedes b = true :=
  ⟨fun a b => Bool.or_eq_true _ _ ▸ precedes_total a b⟩

instance : IsTrans Tally fun a b => a.precedes b = true := ⟨fun _ _ _ => precedes_trans⟩

instance : Std.Antisymm fun a b : Tally => a.precedes b = true := ⟨fun _ _ => eq_of_precedes⟩

/-- Between different groups the order is strict. -/
theorem before_of_precedes {a b : Tally} (h : a.precedes b = true)
    (hne : a.groupKey ≠ b.groupKey) : a.Before b := by
  rcases precedes_iff.1 h with h | ⟨h, hkey⟩
  · exact .inl h
  · refine .inr ⟨h, ?_⟩
    rcases Decidable.em (a.groupKey < b.groupKey) with hlt | hnlt
    · exact hlt
    · exact absurd (String.le_antisymm hkey (String.not_lt.mp hnlt)) hne

theorem Before.asymm {a b : Tally} (h : a.Before b) : ¬ b.Before a := by
  rintro (h' | ⟨h', hkey'⟩) <;> rcases h with h | ⟨h, hkey⟩
  · omega
  · omega
  · omega
  · exact String.lt_asymm hkey hkey'

end Tally

/-! ### Orderly counters -/

/-- **Orderly counters**: each group has one, and they ascend strictly in the order of use. -/
structure Orderly (tallies : List Tally) : Prop where
  nodup : (tallies.map (·.groupKey)).Nodup
  ordered : tallies.Pairwise Tally.Before

@[simp] theorem mem_leastUsedFirst {tallies : List Tally} {t : Tally} :
    t ∈ leastUsedFirst tallies ↔ t ∈ tallies :=
  List.mem_mergeSort

theorem leastUsedFirst_perm (tallies : List Tally) : (leastUsedFirst tallies).Perm tallies :=
  List.mergeSort_perm _ _

/-- Sorting may go by insertion, which can be computed on given counters. -/
theorem leastUsedFirst_eq_insertionSort (tallies : List Tally) :
    leastUsedFirst tallies = tallies.insertionSort fun a b => a.precedes b = true := by
  rw [← List.mergeSort_eq_insertionSort, leastUsedFirst]
  simp only [Bool.decide_eq_true]

/-- Sorting puts counters of different groups in order. -/
theorem orderly_leastUsedFirst {tallies : List Tally}
    (h : (tallies.map (·.groupKey)).Nodup) : Orderly (leastUsedFirst tallies) := by
  have hnodup : ((leastUsedFirst tallies).map (·.groupKey)).Nodup :=
    ((leastUsedFirst_perm tallies).map _).nodup_iff.mpr h
  have hsorted : (leastUsedFirst tallies).Pairwise fun a b => a.precedes b = true :=
    @List.pairwise_mergeSort Tally Tally.precedes (fun _ _ _ => Tally.precedes_trans)
      Tally.precedes_total tallies
  have hkeys := List.pairwise_map.mp hnodup
  exact ⟨hnodup, (hsorted.and hkeys).imp fun h => Tally.before_of_precedes h.1 h.2⟩

namespace Orderly

variable {tallies other : List Tally}

theorem nil : Orderly [] := ⟨List.nodup_nil, .nil⟩

theorem filter (h : Orderly tallies) (keep : Tally → Bool) : Orderly (tallies.filter keep) :=
  ⟨h.nodup.sublist (List.filter_sublist.map _), h.ordered.filter keep⟩

/-- Orderly counters are determined by their members. -/
theorem eq_of_mem_iff (h : Orderly tallies) (h' : Orderly other)
    (hmem : ∀ t, t ∈ tallies ↔ t ∈ other) : tallies = other := by
  have hperm : tallies.Perm other :=
    (List.perm_ext_iff_of_nodup h.nodup.of_map h'.nodup.of_map).mpr hmem
  exact hperm.eq_of_pairwise (fun _ _ _ _ hab hba => absurd hba hab.asymm) h.ordered h'.ordered

end Orderly

/-! ### Uses of a group -/

/-- **Uses** of a group by its counter; none without a counter. -/
def usesIn (tallies : List Tally) (group : String) : Nat :=
  ((tallies.find? (·.groupKey == group)).map (·.occurrences)).getD 0

@[simp] theorem usesIn_nil (group : String) : usesIn [] group = 0 := rfl

theorem usesIn_eq_zero {tallies : List Tally} {group : String}
    (h : group ∉ tallies.map (·.groupKey)) : usesIn tallies group = 0 := by
  have hnone : tallies.find? (·.groupKey == group) = none := by
    simpa [List.find?_eq_none] using h
  simp [usesIn, hnone]

/-- A counter shows the uses of its group. -/
theorem usesIn_of_mem {tallies : List Tally} (h : (tallies.map (·.groupKey)).Nodup) {t : Tally}
    (ht : t ∈ tallies) : usesIn tallies t.groupKey = t.occurrences := by
  induction tallies with
  | nil => simp at ht
  | cons a rest ih =>
    rw [List.map_cons, List.nodup_cons] at h
    rcases List.mem_cons.mp ht with rfl | ht
    · simp [usesIn]
    · have hne : a.groupKey ≠ t.groupKey := fun heq => h.1 (heq ▸ List.mem_map_of_mem ht)
      simpa [usesIn, hne] using ih h.2 ht

/-- A counter is found under its group. -/
theorem mem_iff_usesIn {tallies : List Tally} (h : (tallies.map (·.groupKey)).Nodup) {t : Tally} :
    t ∈ tallies ↔
      t.groupKey ∈ tallies.map (·.groupKey) ∧ t.occurrences = usesIn tallies t.groupKey := by
  constructor
  · exact fun ht => ⟨List.mem_map_of_mem ht, (usesIn_of_mem h ht).symm⟩
  · rintro ⟨hmem, huses⟩
    obtain ⟨a, ha, hkey⟩ := List.mem_map.mp hmem
    have hat : a = t := by
      have hocc := usesIn_of_mem h ha
      rw [hkey, ← huses] at hocc
      cases a
      cases t
      simp_all
    exact hat ▸ ha

namespace Ledger

/-- **Uses** of a group in a segment. -/
def uses (ledger : Ledger) (segment group : String) : Nat :=
  usesIn (ledger.tallies segment) group

/-- The counter of a registered group shows its uses. -/
theorem occurrences?_of_mem_keys {ledger : Ledger} {segment group : String}
    (h : group ∈ (ledger.tallies segment).map (·.groupKey)) :
    ledger.occurrences? segment group = some (ledger.uses segment group) := by
  rw [occurrences?, uses, usesIn]
  cases hfind : (ledger.tallies segment).find? (·.groupKey == group) with
  | none =>
    obtain ⟨t, ht, rfl⟩ := List.mem_map.mp h
    simpa using List.find?_eq_none.mp hfind t ht
  | some t => rfl

/-! ### Registration -/

section Register

variable {groups : List String} {tallies : List Tally}

theorem keys_register : (register groups tallies).map (·.groupKey) =
    groups.filter (fun g => tallies.all (·.groupKey != g)) ++ tallies.map (·.groupKey) := by
  simp [register, Function.comp_def]

/-- After registration a group has a counter if it is among the groups or had one before. -/
theorem mem_keys_register {g : String} : g ∈ (register groups tallies).map (·.groupKey) ↔
    g ∈ groups ∨ g ∈ tallies.map (·.groupKey) := by
  rw [keys_register, List.mem_append, List.mem_filter]
  have hnew : (tallies.all (·.groupKey != g)) = true ↔ g ∉ tallies.map (·.groupKey) := by
    simp
  rw [hnew]
  tauto

theorem nodup_register (hgroups : groups.Nodup) (h : (tallies.map (·.groupKey)).Nodup) :
    ((register groups tallies).map (·.groupKey)).Nodup := by
  rw [keys_register]
  refine List.Nodup.append (hgroups.filter _) h fun g hg hmem => ?_
  have hnew := (List.mem_filter.mp hg).2
  obtain ⟨t, ht, rfl⟩ := List.mem_map.mp hmem
  simpa using List.all_eq_true.mp hnew t ht

/-- A new counter starts at no uses, so registration changes no use. -/
theorem usesIn_register (g : String) :
    usesIn (register groups tallies) g = usesIn tallies g := by
  unfold usesIn register
  rw [List.find?_append]
  cases hnew : ((groups.filter fun g => tallies.all (·.groupKey != g)).map
      fun g => (⟨g, 0⟩ : Tally)).find? (·.groupKey == g) with
  | none => simp
  | some t =>
    -- `g` has just been registered, so the old counters know nothing of it
    obtain ⟨a, ha, rfl⟩ := List.mem_map.mp (List.mem_of_find?_eq_some hnew)
    obtain rfl : a = g := by simpa using List.find?_some hnew
    have hnone : tallies.find? (·.groupKey == a) = none := by
      simpa [List.find?_eq_none] using (List.mem_filter.mp ha).2
    simp [hnone]

end Register

/-! ### Dealing out -/

/-- A counter after the given groups were dealt. -/
def credit (groups : List String) (t : Tally) : Tally :=
  if t.groupKey ∈ groups then { t with occurrences := t.occurrences + 1 } else t

@[simp] theorem groupKey_credit (groups : List String) (t : Tally) :
    (credit groups t).groupKey = t.groupKey := by
  unfold credit
  split <;> rfl

theorem occurrences_credit (groups : List String) (t : Tally) :
    (credit groups t).occurrences = t.occurrences + if t.groupKey ∈ groups then 1 else 0 := by
  unfold credit
  split <;> rfl

@[simp] theorem credit_nil : credit [] = id :=
  funext fun _ => rfl

/-- What is dealt is a first part of the eligible groups in the order of the counters. -/
theorem deal_isPrefix_filter (eligible : NameMap UInt32) (wanted taken : UInt32)
    (tallies : List Tally) :
    (deal eligible wanted taken tallies).1 <+:
      (tallies.map (·.groupKey)).filter fun g => (eligible.get? g).isSome := by
  induction tallies generalizing taken with
  | nil => simp [deal]
  | cons t rest ih =>
    rw [deal]
    split
    · exact List.nil_prefix
    · cases hget : eligible.get? t.groupKey with
      | none => simpa [hget] using ih taken
      | some size => simpa [hget, List.cons_prefix_cons] using ih (addSat taken size)

theorem mem_of_mem_deal {eligible : NameMap UInt32} {wanted taken : UInt32}
    {tallies : List Tally} {g : String} (h : g ∈ (deal eligible wanted taken tallies).1) :
    g ∈ tallies.map (·.groupKey) :=
  List.mem_of_mem_filter ((deal_isPrefix_filter eligible wanted taken tallies).subset h)

/-- Dealing counts exactly what it deals. -/
theorem deal_snd (eligible : NameMap UInt32) (wanted taken : UInt32) {tallies : List Tally}
    (h : (tallies.map (·.groupKey)).Nodup) :
    (deal eligible wanted taken tallies).2 =
      tallies.map (credit (deal eligible wanted taken tallies).1) := by
  induction tallies generalizing taken with
  | nil => simp [deal]
  | cons t rest ih =>
    rw [List.map_cons, List.nodup_cons] at h
    rw [deal]
    split
    · simp
    · cases hget : eligible.get? t.groupKey with
      | none =>
        have hnot : t.groupKey ∉ (deal eligible wanted taken rest).1 :=
          fun hmem => h.1 (mem_of_mem_deal hmem)
        simp [ih taken h.2, credit, hnot]
      | some size =>
        have hrest : ∀ a ∈ rest, credit (deal eligible wanted (addSat taken size) rest).1 a =
            credit (t.groupKey :: (deal eligible wanted (addSat taken size) rest).1) a := by
          intro a ha
          have hne : a.groupKey ≠ t.groupKey := fun heq => h.1 (heq ▸ List.mem_map_of_mem ha)
          simp [credit, hne]
        simp only [ih (addSat taken size) h.2, List.map_cons]
        rw [List.map_congr_left hrest]
        simp [credit]

/-! ### The queue -/

section Queue

variable (ledger : Ledger) (segment : String) (eligible : NameMap UInt32)

/-- **Turn order** of groups in a segment: the less used one first, of equal use the one with the
smaller key. -/
def Sooner (g h : String) : Prop :=
  Tally.Before ⟨g, ledger.uses segment g⟩ ⟨h, ledger.uses segment h⟩

/-- **Queue** of a claim: the eligible groups in turn order. -/
def queue : List String :=
  (leastUsedFirst (eligible.keys.map fun g => ⟨g, ledger.uses segment g⟩)).map (·.groupKey)

theorem queue_perm : (ledger.queue segment eligible).Perm eligible.keys := by
  have h := (leastUsedFirst_perm
    (eligible.keys.map fun g => ⟨g, ledger.uses segment g⟩)).map (·.groupKey)
  rw [List.map_map] at h
  exact h.trans (.of_eq (List.map_id _))

@[simp] theorem mem_queue {g : String} :
    g ∈ ledger.queue segment eligible ↔ g ∈ eligible.keys :=
  (ledger.queue_perm segment eligible).mem_iff

theorem nodup_queue : (ledger.queue segment eligible).Nodup :=
  (ledger.queue_perm segment eligible).nodup_iff.mpr eligible.nodup_keys

/-- The counters that the eligible groups have or get. -/
private theorem orderly_standing :
    Orderly (leastUsedFirst (eligible.keys.map fun g => ⟨g, ledger.uses segment g⟩)) := by
  refine orderly_leastUsedFirst ?_
  simpa [Function.comp_def] using eligible.nodup_keys

private theorem mem_standing {t : Tally} :
    t ∈ leastUsedFirst (eligible.keys.map fun g => ⟨g, ledger.uses segment g⟩) ↔
      t.groupKey ∈ eligible.keys ∧ t.occurrences = ledger.uses segment t.groupKey := by
  rw [mem_leastUsedFirst, List.mem_map]
  constructor
  · rintro ⟨g, hg, rfl⟩
    exact ⟨hg, rfl⟩
  · rintro ⟨hkey, hocc⟩
    exact ⟨t.groupKey, hkey, by rw [← hocc]⟩

theorem pairwise_queue : (ledger.queue segment eligible).Pairwise (ledger.Sooner segment) := by
  refine List.pairwise_map.mpr ?_
  refine (orderly_standing ledger segment eligible).ordered.imp_of_mem fun {a b} ha hb hab => ?_
  rw [mem_standing] at ha hb
  rw [Sooner, ← ha.2, ← hb.2]
  exact hab

/-- The queue is the only list of the eligible groups in turn order. -/
theorem eq_queue {groups : List String} (hperm : groups.Perm eligible.keys)
    (h : groups.Pairwise (ledger.Sooner segment)) : groups = ledger.queue segment eligible :=
  (hperm.trans (ledger.queue_perm segment eligible).symm).eq_of_pairwise
    (fun _ _ _ _ hab hba => absurd hba hab.asymm) h (ledger.pairwise_queue segment eligible)

variable {ledger segment}

/-- The counters as offered, less those of groups that are not eligible, are the queue. -/
theorem filter_offered (h : Orderly (ledger.tallies segment)) :
    ((leastUsedFirst (register eligible.keys (ledger.tallies segment))).map (·.groupKey)).filter
      (fun g => (eligible.get? g).isSome) = ledger.queue segment eligible := by
  have hnodup := nodup_register eligible.nodup_keys h.nodup
  rw [List.filter_map, queue]
  congr 1
  refine Orderly.eq_of_mem_iff ((orderly_leastUsedFirst hnodup).filter _)
    (orderly_standing ledger segment eligible) fun t => ?_
  rw [List.mem_filter, mem_leastUsedFirst, mem_iff_usesIn hnodup, mem_keys_register,
    usesIn_register, mem_standing, uses]
  simp only [Function.comp_apply, ← NameMap.mem_keys]
  tauto

end Queue

/-! ### The laws of a claim -/

section Claim

variable {ledger : Ledger} {segment : String} (eligible : NameMap UInt32) (wanted : UInt32)

/-- **What is dealt**: a first part of the queue. -/
theorem claim_prefix_queue (h : Orderly (ledger.tallies segment)) :
    (ledger.claim segment eligible wanted).1 <+: ledger.queue segment eligible := by
  rw [← filter_offered eligible h]
  exact deal_isPrefix_filter eligible wanted 0 _

variable {eligible wanted} in
/-- Only eligible groups are dealt. -/
theorem mem_keys_of_mem_claim (h : Orderly (ledger.tallies segment)) {g : String}
    (hg : g ∈ (ledger.claim segment eligible wanted).1) : g ∈ eligible.keys :=
  (ledger.mem_queue segment eligible).mp ((claim_prefix_queue eligible wanted h).subset hg)

/-- No group is dealt twice. -/
theorem nodup_claim (h : Orderly (ledger.tallies segment)) :
    (ledger.claim segment eligible wanted).1.Nodup :=
  (ledger.nodup_queue segment eligible).sublist (claim_prefix_queue eligible wanted h).sublist

variable {eligible wanted} in
/-- With a group every eligible group is dealt that comes sooner. -/
theorem mem_claim_of_sooner (h : Orderly (ledger.tallies segment)) {a b : String}
    (ha : a ∈ (ledger.claim segment eligible wanted).1) (hb : b ∈ eligible.keys)
    (hba : ledger.Sooner segment b a) : b ∈ (ledger.claim segment eligible wanted).1 := by
  obtain ⟨rest, hrest⟩ := claim_prefix_queue eligible wanted h
  have hpairwise := ledger.pairwise_queue segment eligible
  rw [← ledger.mem_queue segment, ← hrest, List.mem_append] at hb
  rw [← hrest, List.pairwise_append] at hpairwise
  rcases hb with hb | hb
  · exact hb
  · exact absurd hba (hpairwise.2.2 a ha b hb).asymm

private theorem tallies_claim_self (h : Orderly (ledger.tallies segment)) :
    (ledger.claim segment eligible wanted).2.tallies segment =
      leastUsedFirst ((leastUsedFirst (register eligible.keys (ledger.tallies segment))).map
        (credit (ledger.claim segment eligible wanted).1)) := by
  have hnodup := (orderly_leastUsedFirst (nodup_register eligible.nodup_keys h.nodup)).nodup
  have hdeal := deal_snd eligible wanted 0 hnodup
  simp only [claim, tallies, NameMap.get?_insert_self, Option.getD_some] at hdeal ⊢
  rw [hdeal]

/-- **What is counted**: after a claim the counters are those of all registered groups, with one
use more for each group dealt. -/
theorem mem_tallies_claim (h : Orderly (ledger.tallies segment)) {t : Tally} :
    t ∈ (ledger.claim segment eligible wanted).2.tallies segment ↔
      ∃ a ∈ register eligible.keys (ledger.tallies segment),
        credit (ledger.claim segment eligible wanted).1 a = t := by
  rw [tallies_claim_self eligible wanted h]
  simp only [mem_leastUsedFirst, List.mem_map]

/-- **What is kept**: counters stay orderly. -/
theorem orderly_claim (h : Orderly (ledger.tallies segment)) :
    Orderly ((ledger.claim segment eligible wanted).2.tallies segment) := by
  have hnodup := (orderly_leastUsedFirst (nodup_register eligible.nodup_keys h.nodup)).nodup
  rw [tallies_claim_self eligible wanted h]
  refine orderly_leastUsedFirst ?_
  simpa [Function.comp_def] using hnodup

/-- A claim registers the eligible groups and drops no group. -/
theorem mem_keys_claim (h : Orderly (ledger.tallies segment)) {g : String} :
    g ∈ ((ledger.claim segment eligible wanted).2.tallies segment).map (·.groupKey) ↔
      g ∈ eligible.keys ∨ g ∈ (ledger.tallies segment).map (·.groupKey) := by
  rw [tallies_claim_self eligible wanted h, ((leastUsedFirst_perm _).map _).mem_iff, List.map_map,
    ← mem_keys_register, ← ((leastUsedFirst_perm (register eligible.keys _)).map _).mem_iff]
  simp [Function.comp_def]

/-- Each group dealt has one use more, every other group as many as before. -/
theorem uses_claim (h : Orderly (ledger.tallies segment)) (g : String) :
    (ledger.claim segment eligible wanted).2.uses segment g =
      ledger.uses segment g +
        if g ∈ (ledger.claim segment eligible wanted).1 then 1 else 0 := by
  by_cases hg : g ∈ ((ledger.claim segment eligible wanted).2.tallies segment).map (·.groupKey)
  · obtain ⟨t, ht, rfl⟩ := List.mem_map.mp hg
    obtain ⟨a, ha, rfl⟩ := (mem_tallies_claim eligible wanted h).mp ht
    have hbefore := usesIn_of_mem (nodup_register eligible.nodup_keys h.nodup) ha
    rw [usesIn_register] at hbefore
    rw [uses, usesIn_of_mem (orderly_claim eligible wanted h).nodup ht, occurrences_credit,
      groupKey_credit, uses, hbefore]
  · have hnone := usesIn_eq_zero hg
    rw [mem_keys_claim eligible wanted h, not_or] at hg
    have hnot : g ∉ (ledger.claim segment eligible wanted).1 :=
      fun hmem => hg.1 (mem_keys_of_mem_claim h hmem)
    rw [uses, hnone, uses, usesIn_eq_zero hg.2, if_neg hnot]

end Claim

end Ledger

end TestAssembly
