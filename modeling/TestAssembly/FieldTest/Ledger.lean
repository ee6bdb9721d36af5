import TestAssembly.NameMap
import TestAssembly.Saturating

/-!
# The ledger of uses

For each segment key the ledger counts how often each field-test group has been handed out. A claim
registers the groups that are new, then goes through the counters from the least used on, groups of
equal use by their key, and takes every eligible group until the items taken reach the number
wanted. Each taken group counts one more use. Claims on other segments touch nothing.

The view of the ledger is `tallies`: the counters of one segment, least used first.
-/

namespace TestAssembly

/-- **Tally**: how often a group has been handed out. -/
structure Tally where
  groupKey : String
  occurrences : Nat
  deriving DecidableEq, Repr, Inhabited

/-- Fewer uses come first, then the smaller key. -/
def Tally.precedes (a b : Tally) : Bool :=
  a.occurrences < b.occurrences || a.occurrences == b.occurrences && a.groupKey ≤ b.groupKey

/-- Counters in the order in which they are offered. -/
def leastUsedFirst (tallies : List Tally) : List Tally := tallies.mergeSort Tally.precedes

/-- **Ledger**: the counters of every segment key that was ever claimed on. -/
structure Ledger where
  segments : NameMap (List Tally)
  deriving DecidableEq

namespace Ledger

/-- The ledger before any claim. -/
def empty : Ledger := ⟨.empty⟩

instance : Inhabited Ledger := ⟨empty⟩

/-! ### Views -/

/-- Whether a claim on the segment was ever made. -/
def isTracking (ledger : Ledger) (segment : String) : Bool := (ledger.segments.get? segment).isSome

/-- The counters of a segment, least used first. -/
def tallies (ledger : Ledger) (segment : String) : List Tally :=
  (ledger.segments.get? segment).getD []

/-- The uses of a group in a segment, if it is registered there. -/
def occurrences? (ledger : Ledger) (segment group : String) : Option Nat :=
  ((ledger.tallies segment).find? (·.groupKey == group)).map (·.occurrences)

/-! ### Claims -/

/-- New groups start unused, in front of the others. -/
def register (groups : List String) (tallies : List Tally) : List Tally :=
  ((groups.filter fun g => tallies.all (·.groupKey != g)).map fun g => ⟨g, 0⟩) ++ tallies

/-- **Dealing out**: from counters in order, take every eligible group while fewer items are taken
than wanted. The result is what is taken and the counters afterwards. -/
def deal (eligible : NameMap UInt32) (wanted : UInt32) :
    UInt32 → List Tally → List String × List Tally
  | _, [] => ([], [])
  | taken, t :: rest =>
    if wanted ≤ taken then ([], t :: rest)
    else
      match eligible.get? t.groupKey with
      | none =>
        let (groups, after) := deal eligible wanted taken rest
        (groups, t :: after)
      | some count =>
        let (groups, after) := deal eligible wanted (addSat taken count) rest
        (t.groupKey :: groups, { t with occurrences := t.occurrences + 1 } :: after)

/-- **Claim** of at least the wanted number of items among eligible groups with their item counts:
the groups taken, in order, and the ledger afterwards. -/
def claim (ledger : Ledger) (segment : String) (eligible : NameMap UInt32) (wanted : UInt32) :
    List String × Ledger :=
  let offered := leastUsedFirst (register eligible.keys (ledger.tallies segment))
  let (groups, after) := deal eligible wanted 0 offered
  (groups, ⟨ledger.segments.insert segment (leastUsedFirst after)⟩)

@[simp] theorem tallies_empty (segment : String) : empty.tallies segment = [] := rfl

/-- A claim touches what is kept for its own segment only. -/
theorem get?_claim_of_ne (ledger : Ledger) {segment other : String}
    (eligible : NameMap UInt32) (wanted : UInt32) (h : segment ≠ other) :
    (ledger.claim segment eligible wanted).2.segments.get? other =
      ledger.segments.get? other :=
  NameMap.get?_insert_of_ne _ _ h

/-- A claim touches the counters of its own segment only. -/
theorem tallies_claim_of_ne (ledger : Ledger) {segment other : String}
    (eligible : NameMap UInt32) (wanted : UInt32) (h : segment ≠ other) :
    (ledger.claim segment eligible wanted).2.tallies other = ledger.tallies other := by
  rw [tallies, get?_claim_of_ne ledger eligible wanted h, tallies]

/-- After a claim the segment is tracked, whatever was taken. -/
theorem isTracking_claim_self (ledger : Ledger) (segment : String)
    (eligible : NameMap UInt32) (wanted : UInt32) :
    (ledger.claim segment eligible wanted).2.isTracking segment = true := by
  simp [claim, isTracking]

end Ledger

end TestAssembly
