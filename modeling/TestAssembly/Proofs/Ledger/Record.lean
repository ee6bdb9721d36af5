import TestAssembly.Proofs.Ledger.Claim
import TestAssembly.Word

/-!
# The ledger as a record of what was dealt

`Ledger.serve` answers requests one after the other and keeps each with its answer. The counters of
a segment are then a record of the answers that were given there (`IsRecordOf`): they name exactly
the groups that were ever eligible, each once and in the order of use, and each counter tells in how
many answers its group is. One claim extends the record by its own answer (`IsRecordOf.claim`), so
every run keeps it (`IsRecordOf.serve`), and from the empty ledger it holds without condition
(`tallies_serve_empty`).

Counters are natural numbers here. No counter is above the number of requests, so a run of fewer
than `wordBound` requests stays within 64-bit words.
-/

namespace TestAssembly

/-- **Request** for groups of a segment: which are eligible, with how many items each, and how many
items are wanted. -/
structure ClaimRequest where
  segment : String
  eligible : NameMap UInt32
  wanted : UInt32

/-- **Dealing**: a request with the groups that it was given. -/
structure Dealing extends ClaimRequest where
  groups : List String

namespace Ledger

/-- **Run of claims**: the requests with their answers, and the ledger afterwards. -/
def serve (ledger : Ledger) : List ClaimRequest → List Dealing × Ledger
  | [] => ([], ledger)
  | r :: rest =>
    let claimed := ledger.claim r.segment r.eligible r.wanted
    let served := claimed.2.serve rest
    (⟨r, claimed.1⟩ :: served.1, served.2)

@[simp] theorem serve_nil (ledger : Ledger) : ledger.serve [] = ([], ledger) := rfl

@[simp] theorem serve_cons (ledger : Ledger) (r : ClaimRequest) (rest : List ClaimRequest) :
    ledger.serve (r :: rest) =
      (⟨r, (ledger.claim r.segment r.eligible r.wanted).1⟩ ::
          ((ledger.claim r.segment r.eligible r.wanted).2.serve rest).1,
        ((ledger.claim r.segment r.eligible r.wanted).2.serve rest).2) := rfl

theorem serve_append (ledger : Ledger) (requests later : List ClaimRequest) :
    ledger.serve (requests ++ later) =
      ((ledger.serve requests).1 ++ ((ledger.serve requests).2.serve later).1,
        ((ledger.serve requests).2.serve later).2) := by
  induction requests generalizing ledger with
  | nil => simp
  | cons r rest ih => simp [ih]

/-- Every request is answered, in order. -/
theorem map_toClaimRequest_serve (ledger : Ledger) (requests : List ClaimRequest) :
    (ledger.serve requests).1.map (·.toClaimRequest) = requests := by
  induction requests generalizing ledger with
  | nil => rfl
  | cons r rest ih => simp [ih]

theorem mem_of_mem_serve {ledger : Ledger} {requests : List ClaimRequest} {d : Dealing}
    (h : d ∈ (ledger.serve requests).1) : d.toClaimRequest ∈ requests := by
  rw [← map_toClaimRequest_serve ledger requests]
  exact List.mem_map_of_mem h

@[simp] theorem length_serve (ledger : Ledger) (requests : List ClaimRequest) :
    (ledger.serve requests).1.length = requests.length := by
  rw [← List.length_map (·.toClaimRequest), map_toClaimRequest_serve]

/-- Requests on other segments leave the counters of a segment as they are. -/
theorem tallies_serve_of_ne (ledger : Ledger) {segment : String} {requests : List ClaimRequest}
    (h : ∀ r ∈ requests, r.segment ≠ segment) :
    (ledger.serve requests).2.tallies segment = ledger.tallies segment := by
  induction requests generalizing ledger with
  | nil => rfl
  | cons r rest ih =>
    rw [serve_cons, ih _ fun q hq => h q (List.mem_cons_of_mem _ hq)]
    exact ledger.tallies_claim_of_ne r.eligible r.wanted (h r List.mem_cons_self)

end Ledger

/-! ### Records -/

/-- **Record**: the counters of a segment tell what was dealt there. -/
structure IsRecordOf (segment : String) (dealings : List Dealing) (tallies : List Tally) : Prop
    extends Orderly tallies where
  /-- The groups with a counter are those that were ever eligible. -/
  mem_keys_iff : ∀ g, g ∈ tallies.map (·.groupKey) ↔
    ∃ d ∈ dealings, d.segment = segment ∧ g ∈ d.eligible.keys
  /-- No answer names a group twice. -/
  nodup_groups : ∀ d ∈ dealings, d.segment = segment → d.groups.Nodup
  /-- A group was used as often as it was in an answer. -/
  uses_eq : ∀ g, usesIn tallies g =
    dealings.countP fun d => d.segment = segment ∧ g ∈ d.groups

namespace IsRecordOf

variable {segment : String} {dealings : List Dealing} {ledger : Ledger}

/-- Before anything was dealt there are no counters. -/
theorem nil (segment : String) : IsRecordOf segment [] [] where
  toOrderly := .nil
  mem_keys_iff := by simp
  nodup_groups := by simp
  uses_eq := by simp

/-- **One claim** adds its answer to the record. -/
theorem claim (h : IsRecordOf segment dealings (ledger.tallies segment)) (r : ClaimRequest) :
    IsRecordOf segment
      (dealings ++ [⟨r, (ledger.claim r.segment r.eligible r.wanted).1⟩])
      ((ledger.claim r.segment r.eligible r.wanted).2.tallies segment) := by
  by_cases hseg : r.segment = segment
  · subst hseg
    refine ⟨Ledger.orderly_claim _ _ h.toOrderly, fun g => ?_, fun d hd _ => ?_, fun g => ?_⟩
    · rw [Ledger.mem_keys_claim _ _ h.toOrderly, h.mem_keys_iff]
      simp only [List.mem_append, List.mem_singleton, or_and_right, exists_or, exists_eq_left,
        true_and]
      exact or_comm
    · rcases List.mem_append.mp hd with hd | hd
      · exact h.nodup_groups d hd ‹_›
      · obtain rfl := List.mem_singleton.mp hd
        exact Ledger.nodup_claim _ _ h.toOrderly
    · have hclaim := Ledger.uses_claim r.eligible r.wanted h.toOrderly g
      rw [Ledger.uses, Ledger.uses, h.uses_eq] at hclaim
      rw [hclaim, List.countP_append, List.countP_singleton]
      simp
  · rw [Ledger.tallies_claim_of_ne ledger r.eligible r.wanted hseg]
    refine ⟨h.toOrderly, fun g => ?_, fun d hd hd' => ?_, fun g => ?_⟩
    · simp [h.mem_keys_iff, hseg, or_and_right, exists_or]
    · rcases List.mem_append.mp hd with hd | hd
      · exact h.nodup_groups d hd hd'
      · obtain rfl := List.mem_singleton.mp hd
        exact absurd hd' hseg
    · rw [h.uses_eq, List.countP_append, List.countP_singleton]
      simp [hseg]

/-- **A run of claims** adds its answers to the record. -/
theorem serve (h : IsRecordOf segment dealings (ledger.tallies segment))
    (requests : List ClaimRequest) :
    IsRecordOf segment (dealings ++ (ledger.serve requests).1)
      ((ledger.serve requests).2.tallies segment) := by
  induction requests generalizing ledger dealings with
  | nil => simpa using h
  | cons r rest ih => simpa using ih (h.claim r)

end IsRecordOf

namespace Ledger

/-- From the empty ledger on, counters are a record of everything that was dealt. -/
theorem isRecordOf_serve_empty (requests : List ClaimRequest) (segment : String) :
    IsRecordOf segment (empty.serve requests).1 ((empty.serve requests).2.tallies segment) := by
  have h : IsRecordOf segment [] (empty.tallies segment) := .nil segment
  simpa using h.serve requests

/-- Later requests drop no counter and decrease none. -/
theorem exists_mem_tallies_serve (requests later : List ClaimRequest) (segment : String) {t : Tally}
    (ht : t ∈ (empty.serve requests).2.tallies segment) :
    ∃ t' ∈ (empty.serve (requests ++ later)).2.tallies segment,
      t'.groupKey = t.groupKey ∧ t.occurrences ≤ t'.occurrences := by
  have hbefore := isRecordOf_serve_empty requests segment
  have hafter := isRecordOf_serve_empty (requests ++ later) segment
  rw [serve_append] at hafter ⊢
  have hkey : t.groupKey ∈ (((empty.serve requests).2.serve later).2.tallies segment).map
      (·.groupKey) := by
    obtain ⟨d, hd, hseg, helig⟩ := (hbefore.mem_keys_iff _).mp (List.mem_map_of_mem ht)
    exact (hafter.mem_keys_iff _).mpr ⟨d, List.mem_append_left _ hd, hseg, helig⟩
  obtain ⟨t', ht', heq⟩ := List.mem_map.mp hkey
  refine ⟨t', ht', heq, ?_⟩
  rw [← usesIn_of_mem hbefore.nodup ht, ← usesIn_of_mem hafter.nodup ht', heq, hbefore.uses_eq,
    hafter.uses_eq, List.countP_append]
  exact Nat.le_add_right _ _

/-- **The ledger is a record.** After any run of requests from the empty ledger on, the counters of
a segment are those of the groups that were eligible in some request on it, each once, strictly
ascending in the order of use, and each counter is the number of answers on the segment with its
group. So whatever comes later drops no counter and decreases none, and requests on other segments
change nothing. -/
theorem tallies_serve_empty (requests later : List ClaimRequest) (segment : String) :
    let dealings := (empty.serve requests).1
    let tallies := (empty.serve requests).2.tallies segment
    let afterwards := (empty.serve (requests ++ later)).2.tallies segment
    (∀ g, g ∈ tallies.map (·.groupKey) ↔
      ∃ r ∈ requests, r.segment = segment ∧ g ∈ r.eligible.keys) ∧
    (tallies.map (·.groupKey)).Nodup ∧
    tallies.Pairwise Tally.Before ∧
    (∀ t ∈ tallies, t.occurrences =
      dealings.countP fun d => d.segment = segment ∧ t.groupKey ∈ d.groups) ∧
    (requests.length < wordBound → ∀ t ∈ tallies, t.occurrences < wordBound) ∧
    (∀ t ∈ tallies, ∃ t' ∈ afterwards,
      t'.groupKey = t.groupKey ∧ t.occurrences ≤ t'.occurrences) ∧
    ((∀ r ∈ later, r.segment ≠ segment) → afterwards = tallies) := by
  intro dealings tallies afterwards
  have hrecord : IsRecordOf segment dealings tallies := isRecordOf_serve_empty requests segment
  have hcount : ∀ t ∈ tallies, t.occurrences =
      dealings.countP fun d => d.segment = segment ∧ t.groupKey ∈ d.groups := fun t ht => by
    rw [← usesIn_of_mem hrecord.nodup ht, hrecord.uses_eq]
  refine ⟨fun g => ?_, hrecord.nodup, hrecord.ordered, hcount, fun hlen t ht => ?_,
    fun t ht => exists_mem_tallies_serve requests later segment ht, fun hother => ?_⟩
  · -- the requests are the dealings without their answers
    rw [hrecord.mem_keys_iff, ← map_toClaimRequest_serve empty requests]
    simp [dealings]
  · calc t.occurrences
        = dealings.countP fun d => d.segment = segment ∧ t.groupKey ∈ d.groups := hcount t ht
      _ ≤ dealings.length := List.countP_le_length
      _ < wordBound := by rwa [length_serve]
  · simp only [afterwards, serve_append]
    exact tallies_serve_of_ne _ hother

end Ledger

end TestAssembly
