import TestAssembly.Time.Instant

/-!
# Date windows

A field-test window has an optional start and an optional stop. It is open strictly between them
(`isOpenAt_iff`): at either bound itself the window is closed.
-/

namespace TestAssembly

open Time

/-- **Date window** with optional bounds. -/
inductive Window where
  | unbounded
  | startingAt (start : Instant)
  | endingAt (stop : Instant)
  | between (start stop : Instant)
  deriving DecidableEq

namespace Window

instance : Inhabited Window := ⟨unbounded⟩

/-- The window with the given bounds. -/
def ofBounds : Option Instant → Option Instant → Window
  | none, none => unbounded
  | some start, none => startingAt start
  | none, some stop => endingAt stop
  | some start, some stop => between start stop

/-- The start, if there is one. -/
def start? : Window → Option Instant
  | startingAt start | between start _ => some start
  | _ => none

/-- The stop, if there is one. -/
def stop? : Window → Option Instant
  | endingAt stop | between _ stop => some stop
  | _ => none

/-- **Open at an instant:** after the start and before the stop, as far as they are given. -/
def isOpenAt (w : Window) (now : Instant) : Bool :=
  w.start?.all (fun start => decide (start < now)) && w.stop?.all (fun stop => decide (now < stop))

@[simp] theorem ofBounds_bounds (w : Window) : ofBounds w.start? w.stop? = w := by
  cases w <;> rfl

@[simp] theorem start?_ofBounds (start stop : Option Instant) :
    (ofBounds start stop).start? = start := by
  cases start <;> cases stop <;> rfl

@[simp] theorem stop?_ofBounds (start stop : Option Instant) :
    (ofBounds start stop).stop? = stop := by
  cases start <;> cases stop <;> rfl

/-- A window is open exactly strictly between its bounds. -/
theorem isOpenAt_iff {w : Window} {now : Instant} :
    w.isOpenAt now = true ↔ (∀ start ∈ w.start?, start < now) ∧ ∀ stop ∈ w.stop?, now < stop := by
  cases w <;> simp [isOpenAt, start?, stop?]

end Window

end TestAssembly
