import Mathlib
import TestAssembly.Proofs.Ledger.Record

/-!
# Fairness between two groups

Two groups that are eligible only together are used about as often, whatever other groups come and
go. The reason is one fact about a claim: with a group it deals every eligible group that comes
sooner (`mem_claim_of_sooner`), so the more used of the two is never dealt without the other. A
claim can therefore widen the gap between them only from nothing to one (`gap_claim_le`), and a run
of claims keeps it within one or within what it was (`gap_serve_le_max`).
-/

namespace TestAssembly

namespace Ledger

/-- **Gap**: by how much the uses of two groups in a segment differ. -/
def gap (ledger : Ledger) (segment a b : String) : Nat :=
  ((ledger.uses segment a : Int) - ledger.uses segment b).natAbs

@[simp] theorem gap_empty (segment a b : String) : empty.gap segment a b = 0 := rfl

section Claim

variable {ledger : Ledger} {segment : String} {eligible : NameMap UInt32} {wanted : UInt32}

/-- A group that is dealt without another eligible one is not the more used of the two. -/
theorem uses_le_of_not_mem_claim (h : Orderly (ledger.tallies segment)) {a b : String}
    (htogether : a ∈ eligible.keys → b ∈ eligible.keys)
    (ha : a ∈ (ledger.claim segment eligible wanted).1)
    (hb : b ∉ (ledger.claim segment eligible wanted).1) :
    ledger.uses segment a ≤ ledger.uses segment b := by
  have hkey : b ∈ eligible.keys := htogether (mem_keys_of_mem_claim h ha)
  exact Nat.le_of_not_lt fun hlt => hb (mem_claim_of_sooner h ha hkey (.inl hlt))

/-- **One claim** on which both groups are eligible, or neither is, keeps their gap within one or
within what it was. -/
theorem gap_claim_le (h : Orderly (ledger.tallies segment)) {a b : String}
    (htogether : a ∈ eligible.keys ↔ b ∈ eligible.keys) :
    (ledger.claim segment eligible wanted).2.gap segment a b ≤
      max 1 (ledger.gap segment a b) := by
  unfold gap
  rw [uses_claim eligible wanted h a, uses_claim eligible wanted h b]
  by_cases ha : a ∈ (ledger.claim segment eligible wanted).1 <;>
    by_cases hb : b ∈ (ledger.claim segment eligible wanted).1
  · rw [if_pos ha, if_pos hb]
    omega
  · -- only `a` gains a use, and it was behind or level
    have hle := uses_le_of_not_mem_claim h htogether.mp ha hb
    rw [if_pos ha, if_neg hb]
    omega
  · have hle := uses_le_of_not_mem_claim h htogether.mpr hb ha
    rw [if_neg ha, if_pos hb]
    omega
  · rw [if_neg ha, if_neg hb]
    omega

/-- A claim on another segment leaves the gap as it is. -/
theorem gap_claim_of_ne {other : String} (hne : other ≠ segment) (a b : String) :
    (ledger.claim other eligible wanted).2.gap segment a b = ledger.gap segment a b := by
  rw [gap, gap, uses, uses, uses, uses, ledger.tallies_claim_of_ne eligible wanted hne]

end Claim

/-- **A run of claims** keeps the gap of groups that are eligible only together within one or
within what it was. -/
theorem gap_serve_le {ledger : Ledger} {segment : String} {dealings : List Dealing}
    (h : IsRecordOf segment dealings (ledger.tallies segment)) {a b : String}
    {requests : List ClaimRequest}
    (htogether : ∀ r ∈ requests, r.segment = segment →
      (a ∈ r.eligible.keys ↔ b ∈ r.eligible.keys)) :
    (ledger.serve requests).2.gap segment a b ≤ max 1 (ledger.gap segment a b) := by
  induction requests generalizing ledger dealings with
  | nil => exact Nat.le_max_right _ _
  | cons r rest ih =>
    have hrest := ih (h.claim r) fun q hq => htogether q (List.mem_cons_of_mem _ hq)
    have hstep : (ledger.claim r.segment r.eligible r.wanted).2.gap segment a b ≤
        max 1 (ledger.gap segment a b) := by
      by_cases hseg : r.segment = segment
      · have hboth := htogether r List.mem_cons_self hseg
        subst hseg
        exact gap_claim_le h.toOrderly hboth
      · rw [gap_claim_of_ne hseg]
        exact Nat.le_max_right _ _
    calc (ledger.serve (r :: rest)).2.gap segment a b
        ≤ max 1 ((ledger.claim r.segment r.eligible r.wanted).2.gap segment a b) := hrest
      _ ≤ max 1 (ledger.gap segment a b) := Nat.max_le.mpr ⟨Nat.le_max_left _ _, hstep⟩

/-- **Pairwise fairness.** In every ledger that a run reaches, further requests on any segments keep
the gap between two groups within one or within what it was, if no request on their segment has one
of them eligible without the other; between groups that were eligible only together from the start
on the gap is at most one. -/
theorem gap_serve_le_max (history further : List ClaimRequest) (segment a b : String)
    (htogether : ∀ r ∈ further, r.segment = segment →
      (a ∈ r.eligible.keys ↔ b ∈ r.eligible.keys)) :
    let before := (empty.serve history).2
    let after := (before.serve further).2
    after.gap segment a b ≤ max 1 (before.gap segment a b) ∧
    ((∀ r ∈ history, r.segment = segment → (a ∈ r.eligible.keys ↔ b ∈ r.eligible.keys)) →
      after.gap segment a b ≤ 1) := by
  intro before after
  have hbefore := isRecordOf_serve_empty history segment
  have hgap : after.gap segment a b ≤ max 1 (before.gap segment a b) :=
    gap_serve_le hbefore htogether
  refine ⟨hgap, fun hhistory => ?_⟩
  have hstart : before.gap segment a b ≤ max 1 (empty.gap segment a b) :=
    gap_serve_le (.nil segment) hhistory
  rw [gap_empty] at hstart
  omega

/-- Two requests that give one of two groups a lead of two. -/
def unevenHistory : List ClaimRequest :=
  [⟨"S", .ofList [("a", 1)], 1⟩, ⟨"S", .ofList [("a", 3), ("c", 0)], 2⟩]

/-- Requests on whose segment the same two groups are eligible only together. -/
def jointRequests : List ClaimRequest :=
  [⟨"S", .ofList [("a", 2), ("b", 1), ("d", 1)], 2⟩, ⟨"T", .ofList [("a", 1)], 1⟩,
    ⟨"S", .ofList [("c", 1)], 1⟩]

/-- The lead of two stays within two, and from the start on it is at most one. -/
theorem gap_serve_le_max_jointRequests :
    (empty.serve unevenHistory).2.gap "S" "a" "b" = 2 ∧
    ((empty.serve unevenHistory).2.serve jointRequests).2.gap "S" "a" "b" ≤ 2 ∧
    (empty.serve jointRequests).2.gap "S" "a" "b" ≤ 1 := by
  have hbefore : (empty.serve unevenHistory).2.gap "S" "a" "b" = 2 := by cbv
  have hlater := (gap_serve_le_max unevenHistory jointRequests "S" "a" "b" (by decide)).1
  have hfirst := (gap_serve_le_max [] jointRequests "S" "a" "b" (by decide)).2 (by simp)
  rw [hbefore] at hlater
  exact ⟨hbefore, hlater, hfirst⟩

end Ledger

end TestAssembly
