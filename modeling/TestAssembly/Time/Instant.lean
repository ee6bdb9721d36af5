import TestAssembly.Time.Calendar

/-!
# Instants

An instant counts whole seconds from 1970-01-01T00:00:00Z, as if every day had 86400 of them, and
nanoseconds within the second. A leap second is the second before it, prolonged: its instants have
10^9 nanoseconds or more. Instants are ordered by seconds, then by nanoseconds (`lt_iff`).

Elapsed time assumes that no leap second lies between two instants, except where one of them is
itself within a leap second and the other falls later in the day; then that second counts.
-/

namespace TestAssembly.Time

/-- Nanoseconds in a second. -/
abbrev nanosPerSecond : Nat := 1000000000

/-- Seconds in a day. -/
abbrev secondsPerDay : Nat := 86400

/-- **Instant** in universal time. -/
structure Instant where
  seconds : Int
  nanos : Nat
  nanos_lt : nanos < 2 * nanosPerSecond := by decide
  deriving DecidableEq

namespace Instant

instance : Inhabited Instant := ⟨⟨0, 0, by decide⟩⟩

/-! ### Order -/

instance : LT Instant :=
  ⟨fun a b => a.seconds < b.seconds ∨ a.seconds = b.seconds ∧ a.nanos < b.nanos⟩

theorem lt_iff {a b : Instant} :
    a < b ↔ a.seconds < b.seconds ∨ a.seconds = b.seconds ∧ a.nanos < b.nanos :=
  Iff.rfl

instance (a b : Instant) : Decidable (a < b) := decidable_of_iff _ lt_iff.symm

instance : LE Instant := ⟨fun a b => ¬ b < a⟩

theorem le_iff_not_lt {a b : Instant} : a ≤ b ↔ ¬ b < a := Iff.rfl

instance (a b : Instant) : Decidable (a ≤ b) := inferInstanceAs (Decidable (¬ b < a))

/-! ### Elapsed time -/

/-- Whether the instant lies in a leap second. -/
def inLeapSecond (t : Instant) : Bool := nanosPerSecond ≤ t.nanos

/-- Whole seconds since midnight. -/
def secondOfDay (t : Instant) : Int := t.seconds % secondsPerDay

/-- The leap second between two instants of which one lies in it. -/
def leapBetween (later earlier : Instant) : Int :=
  if earlier.secondOfDay < later.secondOfDay ∧ earlier.inLeapSecond then 1
  else if later.secondOfDay < earlier.secondOfDay ∧ later.inLeapSecond then -1
  else 0

/-- **Elapsed time** from one instant to another, in nanoseconds. -/
def elapsed (later earlier : Instant) : Int :=
  (later.seconds - earlier.seconds + leapBetween later earlier) * nanosPerSecond
    + ((later.nanos : Int) - earlier.nanos)

/-- Away from leap seconds, elapsed time is the difference of the two counts. -/
theorem elapsed_eq {later earlier : Instant} (h : later.inLeapSecond = false)
    (h' : earlier.inLeapSecond = false) :
    later.elapsed earlier =
      (later.seconds * nanosPerSecond + later.nanos)
        - (earlier.seconds * nanosPerSecond + earlier.nanos) := by
  simp only [elapsed, leapBetween, h, h', Bool.false_eq_true, and_false, if_false, nanosPerSecond]
  omega

/-- Away from leap seconds, elapsed time never runs backwards. -/
theorem elapsed_le_elapsed {earlier between later : Instant} (h : between ≤ later)
    (hearlier : earlier.inLeapSecond = false) (hbetween : between.inLeapSecond = false)
    (hlater : later.inLeapSecond = false) : between.elapsed earlier ≤ later.elapsed earlier := by
  have hnanos : between.nanos < nanosPerSecond := by simpa [inLeapSecond] using hbetween
  have horder := mt lt_iff.2 (le_iff_not_lt.1 h)
  rw [elapsed_eq hbetween hearlier, elapsed_eq hlater hearlier]
  simp only [nanosPerSecond] at hnanos ⊢
  omega

/-- The instant a number of nanoseconds after a count of seconds. -/
def ofNanos (seconds : Int) (nanos : Int) : Instant :=
  ⟨seconds + nanos / nanosPerSecond, (nanos % nanosPerSecond).toNat, by
    simp only [nanosPerSecond]
    omega⟩

/-- **Moved by a duration** in milliseconds, forwards or backwards. Within a leap second the
instant stays in it while the move does not lead out of it. -/
def addMillis (t : Instant) (millis : Int) : Instant :=
  let wholeSeconds := millis.tdiv 1000
  let restNanos := millis.tmod 1000 * 1000000
  let moved := (t.nanos : Int) + restNanos
  if t.inLeapSecond then
    if h : 0 < wholeSeconds ∨ 2 * (nanosPerSecond : Int) ≤ moved then
      ofNanos (t.seconds + wholeSeconds) (moved - nanosPerSecond)
    else if wholeSeconds < 0 then
      ofNanos (t.seconds + 1 + wholeSeconds) (moved - nanosPerSecond)
    else
      ⟨t.seconds, moved.toNat, by
        have hnanos : nanosPerSecond = 1000000000 := rfl
        omega⟩
  else ofNanos (t.seconds + wholeSeconds) moved

end Instant

end TestAssembly.Time
