import Mathlib.Data.List.Induction
import TestAssembly.Proofs.Rotation.History

/-!
# One rotation for all languages

A segment has one rotation, whatever languages its forms are requested in. Without an idle gap each
request that has a choice gets the index after the one before it, taken modulo its own number of
forms (`Rotation.dealtIndex`). So two languages that are requested alternately move each other on
(`Segment.formsGiven_alternately`): each of them can get one and the same form every time.

As long as the other languages leave no choice, the forms of a language come in turn
(`Segment.formsGiven_eq_formsInTurn`), and `count_formsInTurn` counts how often each is given.
-/

namespace TestAssembly

open Time

/-! ### Forms in turn -/

/-- **Forms in turn**: what a number of requests get that go through the forms around and around. -/
def formsInTurn (forms : List Form) (requests : Nat) : List (Option Form) :=
  (List.range requests).map fun t => forms[t % forms.length]?

theorem formsInTurn_succ (forms : List Form) (requests : Nat) :
    formsInTurn forms (requests + 1) =
      formsInTurn forms requests ++ [forms[requests % forms.length]?] := by
  simp [formsInTurn, List.range_succ]

/-- Every full round gives each form once, and the round begun gives the first forms. -/
theorem count_formsInTurn {forms : List Form} (h : forms ≠ []) (form : Form) (requests : Nat) :
    (formsInTurn forms requests).count (some form) =
      requests / forms.length * forms.count form +
        (forms.take (requests % forms.length)).count form := by
  have hpos : 0 < forms.length := List.length_pos_iff.mpr h
  induction requests with
  | zero => simp [formsInTurn]
  | succ requests ih =>
    have hnext : (forms.take (requests % forms.length + 1)).count form =
        (forms.take (requests % forms.length)).count form +
          [forms[requests % forms.length]?].count (some form) := by
      have hlt := Nat.mod_lt requests hpos
      rw [List.take_add_one, List.count_append, List.getElem?_eq_getElem hlt]
      simp [List.count_singleton]
    rw [formsInTurn_succ, List.count_append, ih, Nat.add_assoc, ← hnext]
    have hdivision := Nat.mod_add_div requests forms.length
    rcases Nat.lt_or_ge (requests % forms.length + 1) forms.length with hlt | hge
    · -- the round goes on
      have hsum : requests % forms.length + 1 + forms.length * (requests / forms.length) =
          requests + 1 := by omega
      obtain ⟨hdiv, hmod⟩ := (Nat.div_mod_unique hpos).mpr ⟨hsum, hlt⟩
      rw [hdiv, hmod]
    · -- the round is complete
      have hlast : requests % forms.length + 1 = forms.length := by
        have hlt := Nat.mod_lt requests hpos
        omega
      have hsum : 0 + forms.length * (requests / forms.length + 1) = requests + 1 := by
        rw [Nat.mul_add_one]
        omega
      obtain ⟨hdiv, hmod⟩ := (Nat.div_mod_unique hpos).mpr ⟨hsum, hpos⟩
      rw [hdiv, hmod, hlast, List.take_length, List.take_zero, List.count_nil, Nat.add_one_mul]
      rfl

/-- **Equal use** up to one: a form is given once in every full round and at most once more. -/
theorem count_formsInTurn_bounds {forms : List Form} (h : forms ≠ []) (form : Form)
    (requests : Nat) :
    requests / forms.length * forms.count form ≤ (formsInTurn forms requests).count (some form) ∧
      (formsInTurn forms requests).count (some form) ≤
        (requests / forms.length + 1) * forms.count form := by
  have hbegun := (List.take_sublist (requests % forms.length) forms).count_le form
  rw [count_formsInTurn h, Nat.add_one_mul]
  exact ⟨Nat.le_add_right _ _, Nat.add_le_add_left hbegun _⟩

/-! ### Requests on one segment -/

/-- **Request** for the next form of a segment in a language. -/
structure FormRequest where
  language : String
  now : Instant
  deriving DecidableEq

namespace Segment

variable {segment : Segment} {timeout : Nat} {requests : List FormRequest}

/-- Requests as calls. -/
def callsFor (segment : Segment) (requests : List FormRequest) : List Rotations.Call :=
  requests.map fun request => .select segment request.language request.now

/-- **The moves** that requests make on the rotation of the segment, the latest first. -/
def movesFor (segment : Segment) (requests : List FormRequest) : List Rotation.Move :=
  Rotations.movesOn segment.key (segment.callsFor requests)

/-- **The forms given** to requests, the answers to those in one language only. -/
def formsGiven (segment : Segment) (timeout : Nat) (language : String) :
    Rotations → List FormRequest → List (Option Form)
  | _, [] => []
  | rotations, request :: rest =>
    let (form, rotations) := rotations.select timeout segment request.language request.now
    if request.language = language then form :: segment.formsGiven timeout language rotations rest
    else segment.formsGiven timeout language rotations rest

theorem callsFor_append_singleton (segment : Segment) (requests : List FormRequest)
    (request : FormRequest) : segment.callsFor (requests ++ [request]) =
      segment.callsFor requests ++ [.select segment request.language request.now] := by
  simp [callsFor]

/-- Requests drop no rotation. -/
theorem steady_callsFor (segment : Segment) (requests : List FormRequest) :
    Rotations.Steady (segment.callsFor requests) :=
  Rotations.steady_of_forall_ne fun now hmem => by simp [callsFor] at hmem

theorem movesFor_append_of_lt {request : FormRequest}
    (h : (segment.formsIn request.language).length < 2) :
    segment.movesFor (requests ++ [request]) = segment.movesFor requests := by
  rw [movesFor, callsFor_append_singleton]
  exact Rotations.movesOn_append_of_none (if_neg fun hmove => absurd hmove.2 (Nat.not_le.mpr h))

theorem movesFor_append_of_le {request : FormRequest}
    (h : 2 ≤ (segment.formsIn request.language).length) :
    segment.movesFor (requests ++ [request]) =
      ⟨request.now, (segment.formsIn request.language).length⟩ :: segment.movesFor requests := by
  rw [movesFor, callsFor_append_singleton]
  exact Rotations.movesOn_append_of_some (if_pos ⟨rfl, h⟩)

/-- Later requests put their moves in front. -/
theorem movesFor_suffix {earlier : List FormRequest} (h : earlier <+: requests) :
    segment.movesFor earlier <:+ segment.movesFor requests := by
  obtain ⟨later, rfl⟩ := h
  refine ⟨segment.movesFor later, ?_⟩
  simp only [movesFor, callsFor, List.map_append, Rotations.movesOn_append]

/-- The last request gets the form that is next after the others. -/
theorem formsGiven_append_singleton (segment : Segment) (timeout : Nat) (language : String)
    (requests : List FormRequest) (request : FormRequest) :
    segment.formsGiven timeout language .empty (requests ++ [request]) =
      segment.formsGiven timeout language .empty requests ++
        if request.language = language then
          [Rotations.formAfter timeout (segment.callsFor requests) segment request.language
            request.now]
        else [] := by
  -- requests hand the rotations on, so this is shown from any rotations on
  suffices h : ∀ rotations, segment.formsGiven timeout language rotations (requests ++ [request]) =
      segment.formsGiven timeout language rotations requests ++
        if request.language = language then
          [(((segment.callsFor requests).foldl (Rotations.handle timeout) rotations).select timeout
            segment request.language request.now).1]
        else [] from h .empty
  induction requests with
  | nil =>
    intro rotations
    simp only [List.nil_append, formsGiven]
    split <;> rfl
  | cons first rest ih =>
    intro rotations
    rw [List.cons_append, formsGiven, formsGiven]
    dsimp only
    rw [ih]
    split <;> rfl

/-- **The index of a request with a choice** is the one dealt after the earlier choices. -/
theorem formAfter_callsFor {request : FormRequest}
    (hgap : Rotation.NoIdleGap timeout (segment.movesFor (requests ++ [request])))
    (hchoice : 2 ≤ (segment.formsIn request.language).length) :
    Rotations.formAfter timeout (segment.callsFor requests) segment request.language request.now =
      (segment.formsIn request.language)[
        Rotation.dealtIndex ((segment.movesFor requests).map (·.choice))
          (segment.formsIn request.language).length]? := by
  have hsteady := segment.steady_callsFor (requests ++ [request])
  rw [callsFor_append_singleton] at hsteady
  rw [movesFor_append_of_le hchoice] at hgap
  rw [Rotations.formAfter_of_steady hsteady hchoice, ← movesFor,
    Rotation.dueIndex_eq_dealtIndex hgap]

section OneChoice

variable {language : String}

/-- As long as the other languages leave no choice, every choice is made in the one language. -/
theorem choices_movesFor (hchoice : 2 ≤ (segment.formsIn language).length)
    (hothers : ∀ request ∈ requests, request.language ≠ language →
      (segment.formsIn request.language).length < 2) :
    (segment.movesFor requests).map (·.choice) =
      List.replicate (requests.countP (·.language = language))
        (segment.formsIn language).length := by
  induction requests using List.reverseRecOn with
  | nil => rfl
  | append_singleton requests request ih =>
    have hearlier := ih fun r hr => hothers r (List.mem_append_left _ hr)
    rw [List.countP_append, List.countP_singleton]
    by_cases hlanguage : request.language = language
    · subst hlanguage
      rw [movesFor_append_of_le hchoice, List.map_cons, hearlier]
      simp [List.replicate_succ]
    · have hnone := hothers request (by simp) hlanguage
      rw [movesFor_append_of_lt hnone, hearlier]
      simp [hlanguage]

/-- As long as the other languages leave no choice, the forms of the one language come in turn. -/
theorem formsGiven_eq_formsInTurn
    (hgap : Rotation.NoIdleGap timeout (segment.movesFor requests))
    (hchoice : 2 ≤ (segment.formsIn language).length)
    (hothers : ∀ request ∈ requests, request.language ≠ language →
      (segment.formsIn request.language).length < 2) :
    segment.formsGiven timeout language .empty requests =
      formsInTurn (segment.formsIn language) (requests.countP (·.language = language)) := by
  induction requests using List.reverseRecOn with
  | nil => rfl
  | append_singleton requests request ih =>
    have hearlier : ∀ r ∈ requests, r.language ≠ language →
        (segment.formsIn r.language).length < 2 :=
      fun r hr => hothers r (List.mem_append_left _ hr)
    rw [formsGiven_append_singleton, List.countP_append, List.countP_singleton]
    by_cases hlanguage : request.language = language
    · subst hlanguage
      -- all choices so far were made in this language, so the index dealt is their number
      have hform := formAfter_callsFor hgap hchoice
      rw [choices_movesFor hchoice hearlier, Rotation.dealtIndex_replicate] at hform
      rw [movesFor_append_of_le hchoice] at hgap
      rw [if_pos rfl, hform, ih (List.IsChain.tail hgap) hearlier, if_pos (by simp),
        formsInTurn_succ]
    · rw [movesFor_append_of_lt (hothers request (by simp) hlanguage)] at hgap
      rw [if_neg hlanguage, List.append_nil, ih hgap hearlier, if_neg (by simpa using hlanguage),
        Nat.add_zero]

end OneChoice

/-- **Forms by language**, for requests on one segment without an idle gap. A request that has a
choice gets the index after the one that the latest such request got, in whatever language. So a
language next to which no other leaves a choice has its forms given in turn, all of them equally
often up to one. -/
theorem forms_by_language (segment : Segment) {timeout : Nat} {requests : List FormRequest}
    (hgap : Rotation.NoIdleGap timeout (segment.movesFor requests)) :
    (∀ earlier request later, requests = earlier ++ request :: later →
      2 ≤ (segment.formsIn request.language).length →
        let index := Rotation.dealtIndex ((segment.movesFor earlier).map (·.choice))
          (segment.formsIn request.language).length
        ∃ h : index < (segment.formsIn request.language).length,
          Rotations.formAfter timeout (segment.callsFor earlier) segment request.language
            request.now = some (segment.formsIn request.language)[index]) ∧
    ∀ language, 2 ≤ (segment.formsIn language).length →
      (∀ request ∈ requests, request.language ≠ language →
        (segment.formsIn request.language).length < 2) →
      let forms := segment.formsIn language
      let count := requests.countP (·.language = language)
      let given := segment.formsGiven timeout language .empty requests
      given = (List.range count).map (fun t => forms[t % forms.length]?) ∧
        ∀ form, count / forms.length * forms.count form ≤ given.count (some form) ∧
          given.count (some form) ≤ (count / forms.length + 1) * forms.count form := by
  refine ⟨fun earlier request later hrequests hchoice => ?_, fun language hchoice hothers => ?_⟩
  · intro index
    have hindex : index < (segment.formsIn request.language).length :=
      Rotation.dealtIndex_lt (by omega) _
    -- what holds up to the last request holds up to this one
    have hgap' : Rotation.NoIdleGap timeout (segment.movesFor (earlier ++ [request])) := by
      refine List.IsChain.suffix hgap (movesFor_suffix ⟨later, ?_⟩)
      rw [hrequests, List.append_assoc, List.singleton_append]
    refine ⟨hindex, ?_⟩
    rw [formAfter_callsFor hgap' hchoice]
    exact List.getElem?_eq_getElem hindex
  · intro forms count given
    have hturn : given = formsInTurn forms count :=
      formsGiven_eq_formsInTurn hgap hchoice hothers
    have hpos : 0 < forms.length := Nat.lt_of_lt_of_le Nat.two_pos hchoice
    have hnil := List.ne_nil_of_length_pos hpos
    refine ⟨hturn, fun form => ?_⟩
    rw [hturn]
    exact count_formsInTurn_bounds hnil form count

/-- A segment with two forms in each of two languages, and one form in a third. -/
def ofLanguages : Segment :=
  Fixture.buildSegment "SEG" .fixedForm
    [.form (Fixture.form "F0" "ENU" "cohort-0" 1), .form (Fixture.form "F1" "ENU" "cohort-1" 1),
      .form (Fixture.form "S0" "ESN" "cohort-0" 1), .form (Fixture.form "S1" "ESN" "cohort-1" 1),
      .form (Fixture.form "H0" "HAW" "cohort-0" 1)]

/-- Requests at one instant. -/
def requestsIn (languages : List String) : List FormRequest :=
  languages.map fun language => ⟨language, .ofNanos 1768478400 0⟩

/-- A language with one form leaves the turn of another one alone. -/
theorem forms_by_language_oneChoice :
    Rotation.NoIdleGap (3600 * nanosPerSecond)
        (ofLanguages.movesFor (requestsIn ["ENU", "HAW", "ENU", "ENU"])) ∧
      ofLanguages.formsGiven (3600 * nanosPerSecond) "ENU" .empty
          (requestsIn ["ENU", "HAW", "ENU", "ENU"]) =
        [some (Fixture.form "F0" "ENU" "cohort-0" 1), some (Fixture.form "F1" "ENU" "cohort-1" 1),
          some (Fixture.form "F0" "ENU" "cohort-0" 1)] := by
  have hgap : Rotation.NoIdleGap (3600 * nanosPerSecond)
      (ofLanguages.movesFor (requestsIn ["ENU", "HAW", "ENU", "ENU"])) := by decide
  obtain ⟨-, hlanguage⟩ := forms_by_language ofLanguages hgap
  obtain ⟨hgiven, -⟩ := hlanguage "ENU" (by decide) (by decide)
  refine ⟨hgap, hgiven.trans ?_⟩
  decide

/-- **Languages in each other's turn**: of two languages requested alternately, one gets its first
form each time and the other its second form each time. -/
theorem formsGiven_alternately :
    let requests := requestsIn ["ENU", "ESN", "ENU", "ESN"]
    Rotation.NoIdleGap (3600 * nanosPerSecond) (ofLanguages.movesFor requests) ∧
      Rotations.Ascending (ofLanguages.callsFor requests) ∧
      ofLanguages.formsIn "ENU" =
        [Fixture.form "F0" "ENU" "cohort-0" 1, Fixture.form "F1" "ENU" "cohort-1" 1] ∧
      ofLanguages.formsIn "ESN" =
        [Fixture.form "S0" "ESN" "cohort-0" 1, Fixture.form "S1" "ESN" "cohort-1" 1] ∧
      ofLanguages.formsGiven (3600 * nanosPerSecond) "ENU" .empty requests =
        [some (Fixture.form "F0" "ENU" "cohort-0" 1),
          some (Fixture.form "F0" "ENU" "cohort-0" 1)] ∧
      ofLanguages.formsGiven (3600 * nanosPerSecond) "ESN" .empty requests =
        [some (Fixture.form "S1" "ESN" "cohort-1" 1),
          some (Fixture.form "S1" "ESN" "cohort-1" 1)] := by
  refine ⟨?_, ?_, ?_, ?_, ?_, ?_⟩
  · decide
  · decide
  · decide
  · decide
  · decide
  · decide

end Segment

end TestAssembly
