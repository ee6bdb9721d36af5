import TestAssembly.Config.Basic
import TestAssembly.Content.Segment
import TestAssembly.NameMap
import TestAssembly.Time.Instant

/-!
# Form rotation

Attempts at a fixed-form segment are given its forms in turn. Each segment key has a rotation: the
first request gets the first form, every later one the next, around and around. A rotation that was
idle for the timeout starts over. Only a request that has a choice of forms moves the rotation.
-/

namespace TestAssembly

open Time

/-- **Rotation**: the index of the form given last, and when. -/
structure Rotation where
  index : Nat
  lastUsed : Instant
  deriving DecidableEq, Inhabited

/-- **Rotations** by segment key. -/
structure Rotations where
  bySegment : NameMap Rotation
  deriving DecidableEq

/-- The timeout of idle rotations, in nanoseconds. -/
def RotationConfig.idleTimeout (config : RotationConfig) : Nat :=
  config.idleSeconds.toNat * nanosPerSecond

namespace Rotation

/-- Whether a rotation was idle for the timeout. -/
def isIdle (rotation : Rotation) (timeout : Nat) (now : Instant) : Bool :=
  timeout ≤ now.elapsed rotation.lastUsed

/-- The index of the next form out of a number of forms. -/
def nextIndex (timeout : Nat) (now : Instant) (count : Nat) : Option Rotation → Nat
  | none => 0
  | some rotation =>
    if rotation.isIdle timeout now then 0 else (rotation.index + 1) % count

end Rotation

namespace Rotations

/-- The rotations before any request. -/
def empty : Rotations := ⟨.empty⟩

instance : Inhabited Rotations := ⟨empty⟩

/-- The number of segment keys with a rotation. -/
def size (rotations : Rotations) : Nat := rotations.bySegment.size

/-- **Next form** of a segment in a language, if it has one. -/
def select (rotations : Rotations) (timeout : Nat) (segment : Segment) (language : String)
    (now : Instant) : Option Form × Rotations :=
  match segment.formsIn language with
  | [] => (none, rotations)
  | [form] => (some form, rotations)
  | forms =>
    let index :=
      Rotation.nextIndex timeout now forms.length (rotations.bySegment.get? segment.key)
    (forms[index]?, ⟨rotations.bySegment.insert segment.key ⟨index, now⟩⟩)

/-- Drop the rotations that were idle for the timeout. -/
def evictIdle (rotations : Rotations) (timeout : Nat) (now : Instant) : Rotations :=
  ⟨rotations.bySegment.filter fun _ rotation => !rotation.isIdle timeout now⟩

/-- The index of the next form is one of the forms. -/
theorem nextIndex_lt (timeout : Nat) (now : Instant) {count : Nat} (h : 0 < count)
    (rotation : Option Rotation) : Rotation.nextIndex timeout now count rotation < count := by
  cases rotation with
  | none => exact h
  | some rotation =>
    rw [Rotation.nextIndex]
    split
    · exact h
    · exact Nat.mod_lt _ h

/-- Dropping an idle rotation changes no next index: it would start over anyway, as long as it is
not less idle later. -/
theorem nextIndex_filter {timeout count : Nat} {dropped now : Instant} {rotation? : Option Rotation}
    (h : ∀ rotation ∈ rotation?,
      dropped.elapsed rotation.lastUsed ≤ now.elapsed rotation.lastUsed) :
    Rotation.nextIndex timeout now count
        (rotation?.filter fun rotation => !rotation.isIdle timeout dropped) =
      Rotation.nextIndex timeout now count rotation? := by
  cases rotation? with
  | none => rfl
  | some rotation =>
    cases hdropped : rotation.isIdle timeout dropped with
    | false => simp [Option.filter_some, hdropped]
    | true =>
      have helapsed := h rotation rfl
      have hidle : rotation.isIdle timeout now = true := by
        simp only [Rotation.isIdle, decide_eq_true_eq] at hdropped ⊢
        omega
      simp [Option.filter_some, Rotation.nextIndex, hdropped, hidle]

section Select

variable {rotations : Rotations} {timeout : Nat} {segment : Segment} {language : String}
  {now : Instant}

/-- Without a choice of forms no rotation moves. -/
theorem select_of_length_lt (h : (segment.formsIn language).length < 2) :
    rotations.select timeout segment language now =
      ((segment.formsIn language).head?, rotations) := by
  unfold select
  split
  · simp [*]
  · simp [*]
  · rename_i forms hnil hone
    match hforms : segment.formsIn language with
    | [] => exact absurd hforms hnil
    | [form] => exact absurd hforms (hone form)
    | _ :: _ :: _ =>
      rw [hforms, List.length_cons, List.length_cons] at h
      omega

/-- With a choice of forms the rotation of the segment moves on. -/
theorem select_of_two_le_length (h : 2 ≤ (segment.formsIn language).length) :
    rotations.select timeout segment language now =
      let index := Rotation.nextIndex timeout now (segment.formsIn language).length
        (rotations.bySegment.get? segment.key)
      ((segment.formsIn language)[index]?,
        ⟨rotations.bySegment.insert segment.key ⟨index, now⟩⟩) := by
  unfold select
  split
  · simp_all
  · simp_all
  · rfl

/-- The next form is a form of the segment in the language. -/
theorem mem_formsIn_of_select {form : Form}
    (h : (rotations.select timeout segment language now).1 = some form) :
    form ∈ segment.formsIn language := by
  rcases Nat.lt_or_ge (segment.formsIn language).length 2 with hlt | hge
  · rw [select_of_length_lt hlt] at h
    exact List.mem_of_head? h
  · rw [select_of_two_le_length hge] at h
    exact List.mem_of_getElem? h

/-- There is a next form unless the segment has no form in the language. -/
theorem select_eq_none_iff : (rotations.select timeout segment language now).1 = none ↔
    segment.formsIn language = [] := by
  rcases Nat.lt_or_ge (segment.formsIn language).length 2 with hlt | hge
  · rw [select_of_length_lt hlt]
    exact List.head?_eq_none_iff
  · have hnil : segment.formsIn language ≠ [] := List.ne_nil_of_length_pos (by omega)
    have hpos : 0 < (segment.formsIn language).length := by omega
    have hindex := nextIndex_lt timeout now hpos (rotations.bySegment.get? segment.key)
    rw [select_of_two_le_length hge]
    refine iff_of_false (fun hnone => ?_) hnil
    exact absurd (List.getElem?_eq_none_iff.mp hnone) (Nat.not_le.mpr hindex)

/-- Only the segment's own rotation moves. -/
theorem get?_select_of_ne {key : String} (h : segment.key ≠ key) :
    (rotations.select timeout segment language now).2.bySegment.get? key =
      rotations.bySegment.get? key := by
  rcases Nat.lt_or_ge (segment.formsIn language).length 2 with hlt | hge
  · rw [select_of_length_lt hlt]
  · rw [select_of_two_le_length hge]
    exact NameMap.get?_insert_of_ne _ _ h

/-- Idle rotations start over anyway: dropping them changes no next form. -/
theorem select_evictIdle : ((rotations.evictIdle timeout now).select timeout segment language
    now).1 = (rotations.select timeout segment language now).1 := by
  rcases Nat.lt_or_ge (segment.formsIn language).length 2 with hlt | hge
  · rw [select_of_length_lt hlt, select_of_length_lt hlt]
  · rw [select_of_two_le_length hge, select_of_two_le_length hge]
    dsimp only
    rw [evictIdle, NameMap.get?_filter, nextIndex_filter fun _ _ => Int.le_refl _]

end Select

end Rotations

end TestAssembly
