import Mathlib.Data.List.Chain
import Mathlib.Data.List.Induction
import TestAssembly.Fixture
import TestAssembly.Rotation

/-!
# Rotation by history

Rotations are counters in a map, and idle ones are dropped from it now and then. Which form is next
can be told without the map: from the moves alone, the earlier requests on the segment key that had
a choice of forms (`Rotation.dueIndex`). `formAfter_eq` proves that the map answers so, wherever
idle rotations were dropped.

The invariant is `Follows`: for any request that may come next, the kept rotation and the moves so
far give the same index. A request with a choice makes the two move together, and any other request
leaves both alone. Dropping a rotation changes what is kept but not the moves. This is harmless
because what is idle when it is dropped is idle at the next request as well, so that both start over
(`nextIndex_filter`), provided that elapsed time does not run backwards (`Steady`). Along ascending
instants it does not, away from leap seconds (`steady_of_ascending`). Within one it can: at
`formAfter_leapSecond` a rotation is dropped as idle that half a second later is not idle yet.
-/

namespace TestAssembly

open Time

/-! ### Moves and the next index -/

namespace Rotation

/-- **Move** of a rotation: a request that had a choice of forms. -/
structure Move where
  now : Instant
  /-- The number of forms to choose from. -/
  choice : Nat
  deriving DecidableEq

/-- **Due index** of a request after some moves, the latest first: the one after the index of the
latest move, or the first one when there was no move or the latest is as long ago as the timeout. -/
def dueIndex (timeout : Nat) : List Move → Instant → Nat → Nat
  | [], _, _ => 0
  | last :: earlier, now, count =>
    if timeout ≤ now.elapsed last.now then 0
    else (dueIndex timeout earlier last.now last.choice + 1) % count

theorem dueIndex_lt (timeout : Nat) (moves : List Move) (now : Instant) {count : Nat}
    (h : 0 < count) : dueIndex timeout moves now count < count := by
  cases moves with
  | nil => exact h
  | cons last earlier =>
    rw [dueIndex]
    split
    · exact h
    · exact Nat.mod_lt _ h

/-- **No idle gap** between moves, the latest first. -/
def NoIdleGap (timeout : Nat) (moves : List Move) : Prop :=
  moves.IsChain fun later earlier => later.now.elapsed earlier.now < (timeout : Int)

instance (timeout : Nat) (moves : List Move) : Decidable (NoIdleGap timeout moves) :=
  inferInstanceAs (Decidable (moves.IsChain fun a b => a.now.elapsed b.now < (timeout : Int)))

/-- Without an idle gap the index goes one up from the latest move. -/
theorem dueIndex_cons {timeout count : Nat} {now : Instant} {last : Move} {earlier : List Move}
    (h : NoIdleGap timeout (⟨now, count⟩ :: last :: earlier)) :
    dueIndex timeout (last :: earlier) now count =
      (dueIndex timeout earlier last.now last.choice + 1) % count := by
  have hgap := (List.isChain_cons_cons.mp h).1
  exact if_neg (Int.not_le.mpr hgap)

/-- **Dealt index** out of a number of forms after choices among so many others, the latest first:
the one after the index dealt last. -/
def dealtIndex : List Nat → Nat → Nat
  | [], _ => 0
  | last :: earlier, count => (dealtIndex earlier last + 1) % count

theorem dealtIndex_lt {count : Nat} (h : 0 < count) (choices : List Nat) :
    dealtIndex choices count < count := by
  cases choices with
  | nil => exact h
  | cons last earlier => exact Nat.mod_lt _ h

/-- Without an idle gap only the numbers of forms count. -/
theorem dueIndex_eq_dealtIndex {timeout count : Nat} {now : Instant} {moves : List Move}
    (hgap : NoIdleGap timeout (⟨now, count⟩ :: moves)) :
    dueIndex timeout moves now count = dealtIndex (moves.map (·.choice)) count := by
  -- the latest move is itself a request after the earlier ones
  induction moves generalizing now count with
  | nil => rfl
  | cons last earlier ih =>
    have hearlier : dueIndex timeout earlier last.now last.choice =
        dealtIndex (earlier.map (·.choice)) last.choice := ih (List.IsChain.tail hgap)
    rw [dueIndex_cons hgap, hearlier, List.map_cons, dealtIndex]

/-- Among the same number of forms each time the index counts the choices. -/
theorem dealtIndex_replicate (choices count : Nat) :
    dealtIndex (List.replicate choices count) count = choices % count := by
  induction choices with
  | zero => exact (Nat.zero_mod count).symm
  | succ choices ih => rw [List.replicate_succ, dealtIndex, ih, Nat.mod_add_mod]

end Rotation

/-! ### Calls -/

namespace Rotations

/-- **Call**: a request for the next form of a segment, or the dropping of idle rotations. -/
inductive Call where
  | select (segment : Segment) (language : String) (now : Instant)
  | evictIdle (now : Instant)

/-- When a call is made. -/
def Call.now : Call → Instant
  | .select _ _ now => now
  | .evictIdle now => now

/-- The move that a call makes on a segment key, if any. -/
def Call.move? (key : String) : Call → Option Rotation.Move
  | .select segment language now =>
    if segment.key = key ∧ 2 ≤ (segment.formsIn language).length then
      some ⟨now, (segment.formsIn language).length⟩
    else none
  | .evictIdle _ => none

/-- **The moves** of calls on a segment key, the latest first. -/
def movesOn (key : String) (calls : List Call) : List Rotation.Move :=
  (calls.filterMap (·.move? key)).reverse

/-- The rotations after a call. -/
def handle (timeout : Nat) (rotations : Rotations) : Call → Rotations
  | .select segment language now => (rotations.select timeout segment language now).2
  | .evictIdle now => rotations.evictIdle timeout now

/-- **The rotations after calls**, from none on. -/
def after (timeout : Nat) (calls : List Call) : Rotations := calls.foldl (handle timeout) empty

/-- **The next form** of a segment after calls. -/
def formAfter (timeout : Nat) (calls : List Call) (segment : Segment) (language : String)
    (now : Instant) : Option Form :=
  ((after timeout calls).select timeout segment language now).1

theorem after_append_singleton (timeout : Nat) (calls : List Call) (call : Call) :
    after timeout (calls ++ [call]) = handle timeout (after timeout calls) call := by
  simp [after]

section MovesOn

variable {key : String} {calls : List Call} {call : Call}

theorem movesOn_append (key : String) (calls more : List Call) :
    movesOn key (calls ++ more) = movesOn key more ++ movesOn key calls := by
  simp [movesOn]

theorem movesOn_append_of_none (h : call.move? key = none) :
    movesOn key (calls ++ [call]) = movesOn key calls := by
  simp [movesOn, h]

theorem movesOn_append_of_some {move : Rotation.Move} (h : call.move? key = some move) :
    movesOn key (calls ++ [call]) = move :: movesOn key calls := by
  simp [movesOn, h]

end MovesOn

/-! ### Time runs forward -/

/-- **Ascending calls**: no call is made before an earlier one. -/
def Ascending (calls : List Call) : Prop := calls.Pairwise fun a b => a.now ≤ b.now

instance (calls : List Call) : Decidable (Ascending calls) :=
  inferInstanceAs (Decidable (calls.Pairwise fun a b => a.now ≤ b.now))

/-- **Steady calls**: at a call after rotations were dropped, no less time has elapsed since an
earlier call than when they were dropped. -/
def Steady (calls : List Call) : Prop :=
  ∀ earlier dropped later, [earlier, .evictIdle dropped, later].Sublist calls →
    dropped.elapsed earlier.now ≤ later.now.elapsed earlier.now

/-- Calls that are **steady at leap seconds**: as long as one of the three instants is within a
leap second, no less time has elapsed at the later call. -/
def SteadyAtLeaps (calls : List Call) : Prop :=
  ∀ earlier dropped later, [earlier, .evictIdle dropped, later].Sublist calls →
    (earlier.now.inLeapSecond ∨ dropped.inLeapSecond ∨ later.now.inLeapSecond) →
      dropped.elapsed earlier.now ≤ later.now.elapsed earlier.now

theorem Steady.sublist {calls kept : List Call} (h : Steady calls) (hkept : kept.Sublist calls) :
    Steady kept :=
  fun earlier dropped later hsub => h earlier dropped later (hsub.trans hkept)

/-- Calls without a leap second are steady at leap seconds. -/
theorem SteadyAtLeaps.of_forall {calls : List Call}
    (h : ∀ call ∈ calls, call.now.inLeapSecond = false) : SteadyAtLeaps calls := by
  intro earlier dropped later hsub hleap
  have hearlier := h earlier (hsub.subset (by simp))
  have hdropped := h (.evictIdle dropped) (hsub.subset (by simp))
  have hlater := h later (hsub.subset (by simp))
  simp_all [Call.now]

/-- Only at a leap second can elapsed time run backwards over ascending instants. -/
theorem steady_of_ascending {calls : List Call} (hascending : Ascending calls)
    (hleaps : SteadyAtLeaps calls) : Steady calls := by
  intro earlier dropped later hsub
  -- away from leap seconds the order of the instants is enough
  by_cases hleap : earlier.now.inLeapSecond ∨ dropped.inLeapSecond ∨ later.now.inLeapSecond
  · exact hleaps earlier dropped later hsub hleap
  · have hthree := List.Pairwise.sublist hsub hascending
    have hle : dropped ≤ later.now := by simp_all [Call.now]
    simp only [not_or, Bool.not_eq_true] at hleap
    obtain ⟨hearlier, hdropped, hlater⟩ := hleap
    exact Instant.elapsed_le_elapsed hle hearlier hdropped hlater

/-- Requests alone are steady. -/
theorem steady_of_forall_ne {calls : List Call} (h : ∀ now, .evictIdle now ∉ calls) :
    Steady calls :=
  fun _ dropped _ hsub => absurd (hsub.subset (by simp)) (h dropped)

/-! ### The kept rotation follows the moves -/

/-- **A kept rotation follows the calls** on its key: whatever request comes next, it has the index
that is due after the moves, and what it was used by last is one of the calls. -/
structure Follows (timeout : Nat) (key : String) (calls : List Call)
    (rotation? : Option Rotation) : Prop where
  nextIndex_eq : ∀ (next : Call) (count : Nat), Steady (calls ++ [next]) →
    Rotation.nextIndex timeout next.now count rotation? =
      Rotation.dueIndex timeout (movesOn key calls) next.now count
  exists_lastUsed : ∀ rotation ∈ rotation?, ∃ call ∈ calls, call.now = rotation.lastUsed

section Follows

variable {timeout : Nat} {key : String} {calls : List Call} {rotation? : Option Rotation}

theorem follows_nil (timeout : Nat) (key : String) : Follows timeout key [] none :=
  ⟨fun _ _ _ => rfl, fun _ h => nomatch h⟩

/-- One call earlier the calls were steady with the same call next. -/
theorem Steady.of_append {call next : Call} (h : Steady (calls ++ [call] ++ [next])) :
    Steady (calls ++ [next]) :=
  h.sublist ((List.sublist_append_left calls [call]).append (List.Sublist.refl _))

/-- A call that makes no move and leaves the rotation alone. -/
theorem Follows.append_of_none {call : Call} (h : Follows timeout key calls rotation?)
    (hcall : call.move? key = none) : Follows timeout key (calls ++ [call]) rotation? := by
  refine ⟨fun next count hsteady => ?_, fun rotation hrotation => ?_⟩
  · rw [movesOn_append_of_none hcall]
    exact h.nextIndex_eq next count hsteady.of_append
  · obtain ⟨used, hused, hnow⟩ := h.exists_lastUsed rotation hrotation
    exact ⟨used, List.mem_append_left _ hused, hnow⟩

/-- A call that makes a move: the rotation moves to the index that is due. -/
theorem Follows.append_of_some {call : Call} {move : Rotation.Move}
    (h : Follows timeout key calls rotation?) (hsteady : Steady (calls ++ [call]))
    (hcall : call.move? key = some move) (hnow : move.now = call.now) :
    Follows timeout key (calls ++ [call])
      (some ⟨Rotation.nextIndex timeout call.now move.choice rotation?, call.now⟩) := by
  refine ⟨fun next count _ => ?_, fun rotation hrotation => ?_⟩
  · rw [movesOn_append_of_some hcall, Rotation.dueIndex, hnow,
      ← h.nextIndex_eq call move.choice hsteady]
    simp [Rotation.nextIndex, Rotation.isIdle]
  · obtain rfl := Option.mem_some.mp hrotation
    exact ⟨call, by simp, rfl⟩

/-- Dropping idle rotations: one that is dropped starts over at whatever request comes next. -/
theorem Follows.append_evictIdle (h : Follows timeout key calls rotation?) (dropped : Instant) :
    Follows timeout key (calls ++ [.evictIdle dropped])
      (rotation?.filter fun rotation => !rotation.isIdle timeout dropped) := by
  have hmove : (Call.evictIdle dropped).move? key = none := rfl
  have hkept := h.append_of_none hmove
  refine ⟨fun next count hsteady => ?_, fun rotation hrotation => ?_⟩
  · rw [← hkept.nextIndex_eq next count hsteady]
    refine nextIndex_filter fun rotation hrotation => ?_
    -- the rotation was used by an earlier call, and since then time has only gone on elapsing
    obtain ⟨used, hused, hnow⟩ := h.exists_lastUsed rotation hrotation
    rw [← hnow]
    refine hsteady used dropped next ?_
    simpa using (List.singleton_sublist.mpr hused).append
      (List.Sublist.refl [Call.evictIdle dropped, next])
  · exact hkept.exists_lastUsed rotation (Option.mem_filter_iff.mp hrotation).1

/-- **Step**: every call keeps the rotation of a key in line with the moves on it. -/
theorem Follows.handle {rotations : Rotations} {call : Call}
    (h : Follows timeout key calls (rotations.bySegment.get? key))
    (hsteady : Steady (calls ++ [call])) :
    Follows timeout key (calls ++ [call]) ((handle timeout rotations call).bySegment.get? key) := by
  cases call with
  | evictIdle dropped =>
    have hfiltered := h.append_evictIdle dropped
    rwa [← NameMap.get?_filter rotations.bySegment
      (fun _ rotation => !rotation.isIdle timeout dropped)] at hfiltered
  | select segment language now =>
    rw [Rotations.handle]
    by_cases hkey : segment.key = key
    · rcases Nat.lt_or_ge (segment.formsIn language).length 2 with hlt | hge
      · rw [select_of_length_lt hlt]
        exact h.append_of_none (if_neg fun hmove => absurd hmove.2 (Nat.not_le.mpr hlt))
      · subst hkey
        rw [select_of_two_le_length hge]
        dsimp only
        rw [NameMap.get?_insert_self]
        exact h.append_of_some hsteady (if_pos ⟨rfl, hge⟩) rfl
    · rw [get?_select_of_ne hkey]
      exact h.append_of_none (if_neg fun hmove => hkey hmove.1)

/-- **Run**: after steady calls every kept rotation follows the moves on its key. -/
theorem follows_after (timeout : Nat) (key : String) {calls : List Call} (h : Steady calls) :
    Follows timeout key calls ((after timeout calls).bySegment.get? key) := by
  -- calls come at the end, and what was steady with the last one was so without it
  induction calls using List.reverseRecOn with
  | nil => exact follows_nil timeout key
  | append_singleton calls call ih =>
    rw [after_append_singleton]
    exact (ih (h.sublist (List.sublist_append_left _ _))).handle h

end Follows

/-! ### The next form by history -/

section FormAfter

variable {timeout : Nat} {calls : List Call} {segment : Segment} {language : String} {now : Instant}

/-- Without a choice the next form is the only one, whatever was called before. -/
theorem formAfter_of_length_lt (h : (segment.formsIn language).length < 2) :
    formAfter timeout calls segment language now = (segment.formsIn language).head? := by
  rw [formAfter, select_of_length_lt h]

/-- With a choice the next form is the one due after the moves. -/
theorem formAfter_of_steady (h : Steady (calls ++ [.select segment language now]))
    (hchoice : 2 ≤ (segment.formsIn language).length) :
    formAfter timeout calls segment language now =
      (segment.formsIn language)[Rotation.dueIndex timeout (movesOn segment.key calls) now
        (segment.formsIn language).length]? := by
  have hcalls := h.sublist (List.sublist_append_left _ _)
  have hdue := (follows_after timeout segment.key hcalls).nextIndex_eq
    (.select segment language now) (segment.formsIn language).length h
  rw [formAfter, select_of_two_le_length hchoice]
  exact congrArg ((segment.formsIn language)[·]?) hdue

/-- Calls that make the same moves lead to the same next form. -/
theorem formAfter_congr {other : List Call} (h : Steady (calls ++ [.select segment language now]))
    (hother : Steady (other ++ [.select segment language now]))
    (hmoves : movesOn segment.key other = movesOn segment.key calls) :
    formAfter timeout other segment language now =
      formAfter timeout calls segment language now := by
  rcases Nat.lt_or_ge (segment.formsIn language).length 2 with hlt | hge
  · rw [formAfter_of_length_lt hlt, formAfter_of_length_lt hlt]
  · rw [formAfter_of_steady h hge, formAfter_of_steady hother hge, hmoves]

/-- **The next form by history**, after calls at ascending instants that are steady at leap
seconds. Out of two forms or more it is the one due after the moves on the segment key, and nothing
else that was called counts. With one number of forms and no idle gap the forms come in turn. -/
theorem formAfter_eq (timeout : Nat)
    (hascending : Ascending (calls ++ [.select segment language now]))
    (hleaps : SteadyAtLeaps (calls ++ [.select segment language now])) :
    let forms := segment.formsIn language
    let moves := movesOn segment.key calls
    let index := Rotation.dueIndex timeout moves now forms.length
    (2 ≤ forms.length → ∃ h : index < forms.length,
      formAfter timeout calls segment language now = some forms[index]) ∧
    (∀ kept, kept.Sublist calls → movesOn segment.key kept = moves →
      formAfter timeout kept segment language now =
        formAfter timeout calls segment language now) ∧
    (forms.length < 2 → formAfter timeout calls segment language now = forms.head?) ∧
    (2 ≤ forms.length → (∀ move ∈ moves, move.choice = forms.length) →
      Rotation.NoIdleGap timeout (⟨now, forms.length⟩ :: moves) →
        formAfter timeout calls segment language now = forms[moves.length % forms.length]?) := by
  intro forms moves index
  have hsteady := steady_of_ascending hascending hleaps
  refine ⟨fun hchoice => ?_, fun kept hkept hmoves => ?_, formAfter_of_length_lt,
    fun hchoice hsame hgap => ?_⟩
  · have hindex : index < forms.length := Rotation.dueIndex_lt timeout moves now (by omega)
    refine ⟨hindex, ?_⟩
    rw [formAfter_of_steady hsteady hchoice]
    exact List.getElem?_eq_getElem hindex
  · have hkeptSteady := hsteady.sublist (hkept.append (List.Sublist.refl _))
    exact formAfter_congr hsteady hkeptSteady hmoves
  · have hchoices : moves.map (·.choice) = List.replicate moves.length forms.length := by
      rw [← List.length_map (·.choice)]
      exact List.eq_replicate_of_mem (by simpa using hsame)
    rw [formAfter_of_steady hsteady hchoice, Rotation.dueIndex_eq_dealtIndex hgap, hchoices,
      Rotation.dealtIndex_replicate]

end FormAfter

/-- A segment with two forms. -/
def twoForms : Segment :=
  Fixture.buildSegment "SEG" .fixedForm
    [.form (Fixture.form "F0" "ENU" "cohort-0" 1), .form (Fixture.form "F1" "ENU" "cohort-1" 1)]

/-- Calls once a day: two requests on the segment, then idle rotations are dropped twice, with a
request on another segment in between. -/
def dailyCalls : List Call :=
  [.select twoForms "ENU" (.ofNanos 0 0), .select twoForms "ENU" (.ofNanos 86400 0),
    .evictIdle (.ofNanos 172800 0),
    .select (Fixture.segment "OTHER" .fixedForm) "ENU" (.ofNanos 172800 0),
    .evictIdle (.ofNanos 259200 0)]

/-- Two days after its last request the segment starts over, and would had nothing been dropped. -/
theorem formAfter_dailyCalls :
    Ascending (dailyCalls ++ [.select twoForms "ENU" (.ofNanos 259200 0)]) ∧
      SteadyAtLeaps (dailyCalls ++ [.select twoForms "ENU" (.ofNanos 259200 0)]) ∧
      formAfter (172800 * nanosPerSecond) dailyCalls twoForms "ENU" (.ofNanos 259200 0) =
        some (Fixture.form "F0" "ENU" "cohort-0" 1) ∧
      formAfter (172800 * nanosPerSecond) (dailyCalls.take 2) twoForms "ENU" (.ofNanos 259200 0) =
        some (Fixture.form "F0" "ENU" "cohort-0" 1) := by
  have hascending : Ascending (dailyCalls ++ [.select twoForms "ENU" (.ofNanos 259200 0)]) := by
    decide
  have hleaps : SteadyAtLeaps (dailyCalls ++ [.select twoForms "ENU" (.ofNanos 259200 0)]) :=
    .of_forall (by decide)
  obtain ⟨hform, hkept, -, -⟩ := formAfter_eq (172800 * nanosPerSecond) hascending hleaps
  obtain ⟨hindex, hdue⟩ := hform (by decide)
  have hfirst := hdue.trans ((List.getElem?_eq_getElem hindex).symm.trans
    (show _ = some (Fixture.form "F0" "ENU" "cohort-0" 1) by decide))
  have hsame := hkept (dailyCalls.take 2) (List.take_sublist _ _) (by decide)
  exact ⟨hascending, hleaps, hfirst, hsame.trans hfirst⟩

/-- **A rotation dropped in vain**: half a second after a rotation was dropped as idle it is idle no
longer, since the leap second that has begun counts against a request later in the day. By history
the second form is next, and it would be had nothing been dropped, but the first one is given. -/
theorem formAfter_leapSecond :
    let used : Call := .select twoForms "ENU" (.ofNanos 1768478460 300000000)
    let dropped : Call := .evictIdle (.ofNanos 1768564859 500000000)
    let now : Instant := { seconds := 1768564859, nanos := 1000000000 }
    Ascending ([used, dropped] ++ [.select twoForms "ENU" now]) ∧
      Rotation.dueIndex (86399 * nanosPerSecond) (movesOn "SEG" [used, dropped]) now 2 = 1 ∧
      formAfter (86399 * nanosPerSecond) [used, dropped] twoForms "ENU" now =
        some (Fixture.form "F0" "ENU" "cohort-0" 1) ∧
      formAfter (86399 * nanosPerSecond) [used] twoForms "ENU" now =
        some (Fixture.form "F1" "ENU" "cohort-1" 1) := by
  refine ⟨?_, ?_, ?_, ?_⟩
  · decide
  · decide
  · decide
  · decide

end Rotations

end TestAssembly
