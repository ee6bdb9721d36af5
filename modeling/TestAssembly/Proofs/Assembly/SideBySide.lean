import TestAssembly.Proofs.Assembly.Draft

/-!
# Two passes side by side

Two passes over the same segments, in two environments or from two states, are compared step by
step. When related states lead to related outcomes and related states at every fixed-form segment
and at every adaptive one, they do so over all segments (`assembleSegments_sideBySide`): either both
passes end with the same error, or both make something of every segment, and what they make is
related segment by segment. If what is related adds up to the same totals, the plans of the two
passes are side by side as well (`plan_sideBySide`).
-/

namespace TestAssembly

/-! ### Outcomes -/

section Outcomes

variable {ε α β α' β' : Type}

/-- **Outcomes side by side**: the same error, or two values that are related. -/
inductive SideBySide (related : α → β → Prop) : Except ε α → Except ε β → Prop
  | error (e : ε) : SideBySide related (.error e) (.error e)
  | ok {a : α} {b : β} (h : related a b) : SideBySide related (.ok a) (.ok b)

namespace SideBySide

variable {related : α → β → Prop} {one : Except ε α} {other : Except ε β}

/-- What is done to both values afterwards may rest on their relation. -/
theorem map {related' : α' → β' → Prop} {f : α → α'} {g : β → β'}
    (h : SideBySide related one other) (hmap : ∀ a b, related a b → related' (f a) (g b)) :
    SideBySide related' (one.map f) (other.map g) := by
  cases h with
  | error e => exact .error e
  | ok h => exact .ok (hmap _ _ h)

/-- Equal outcomes are side by side with equal values. -/
theorem of_eq {one other : Except ε α} (h : one = other) :
    SideBySide Eq one other := by
  subst h
  cases one with
  | error e => exact .error e
  | ok a => exact .ok rfl

theorem eq {one other : Except ε α} (h : SideBySide Eq one other) : one = other := by
  cases h with
  | error e => rfl
  | ok h => rw [h]

end SideBySide

end Outcomes

/-! ### Segment by segment -/

/-- The record of an adaptive segment shows of a placement how many items it counts. -/
theorem record_adaptiveSegment_congr (exam : Exam) (segment : Segment) (pool : SegmentPool)
    {placement other : Placement} (h : other.itemCount = placement.itemCount) :
    (adaptiveSegment exam segment pool other).record =
      (adaptiveSegment exam segment pool placement).record := by
  rw [adaptiveSegment, adaptiveSegment, h]

/-- **What two passes make, segment by segment**: as many segments on both sides, the two of each
segment related. -/
inductive Segmentwise (related : Segment → AssembledSegment → AssembledSegment → Prop) :
    List Segment → List AssembledSegment → List AssembledSegment → Prop
  | nil : Segmentwise related [] [] []
  | cons {segment : Segment} {made other : AssembledSegment} {rest : List Segment}
      {later others : List AssembledSegment} (h : related segment made other)
      (hrest : Segmentwise related rest later others) :
      Segmentwise related (segment :: rest) (made :: later) (other :: others)

namespace Segmentwise

variable {segments : List Segment} {made others : List AssembledSegment}

theorem eq (h : Segmentwise (fun _ => Eq) segments made others) : made = others := by
  induction h with
  | nil => rfl
  | cons h _ ih => rw [h, ih]

end Segmentwise

variable {env other : Environment} {exam : Exam} {assessment : Assessment}
  {accommodations : List Accommodation} {segments : List Segment}
  {holds : AssemblyState → AssemblyState → Prop}
  {related : Segment → AssembledSegment → AssembledSegment → Prop}

/-- **Two passes side by side**: from related states, over the same segments. What relates the
outcomes and the states of every step relates those of the passes, whether they succeed or fail. -/
theorem assembleSegments_sideBySide
    (hsame : ∀ segment form, related segment (fixedFormSegment exam segment form)
      (fixedFormSegment exam segment form))
    (hform : ∀ segment ∈ segments, segment.isFixedForm = true → ∀ cohort one two, holds one two →
      (chooseForm other exam segment cohort two).1 = (chooseForm env exam segment cohort one).1 ∧
        holds (chooseForm env exam segment cohort one).2
          (chooseForm other exam segment cohort two).2)
    (hadaptive : ∀ segment ∈ segments, segment.isFixedForm = false → ∀ one two, holds one two →
      SideBySide (related segment)
          (assembleAdaptive env exam assessment segment accommodations one).1
          (assembleAdaptive other exam assessment segment accommodations two).1 ∧
        holds (assembleAdaptive env exam assessment segment accommodations one).2
          (assembleAdaptive other exam assessment segment accommodations two).2)
    (cohort : Option String) {one two : AssemblyState} (h : holds one two) :
    SideBySide (Segmentwise related segments)
        (assembleSegments env exam assessment accommodations segments cohort one).1
        (assembleSegments other exam assessment accommodations segments cohort two).1 ∧
      holds (assembleSegments env exam assessment accommodations segments cohort one).2
        (assembleSegments other exam assessment accommodations segments cohort two).2 := by
  induction segments generalizing cohort one two with
  | nil => exact ⟨.ok .nil, h⟩
  | cons segment rest ih =>
    have hnext : SideBySide (fun made found => related segment made.1 found.1 ∧ found.2 = made.2)
          (assembleNext env exam assessment accommodations segment cohort one).1
          (assembleNext other exam assessment accommodations segment cohort two).1 ∧
        holds (assembleNext env exam assessment accommodations segment cohort one).2
          (assembleNext other exam assessment accommodations segment cohort two).2 := by
      unfold assembleNext
      split
      · rename_i hfixed
        obtain ⟨houtcome, hstate⟩ := hform segment List.mem_cons_self hfixed cohort one two h
        refine ⟨(SideBySide.of_eq houtcome.symm).map ?_, hstate⟩
        rintro form _ rfl
        exact ⟨hsame _ _, rfl⟩
      · rename_i hfixed
        obtain ⟨houtcome, hstate⟩ := hadaptive segment List.mem_cons_self
          (Bool.eq_false_iff.mpr hfixed) one two h
        exact ⟨houtcome.map fun _ _ hmade => ⟨hmade, rfl⟩, hstate⟩
    obtain ⟨houtcome, hstate⟩ := hnext
    rcases hone : assembleNext env exam assessment accommodations segment cohort one with
      ⟨outcome, after⟩
    rcases htwo : assembleNext other exam assessment accommodations segment cohort two with
      ⟨outcome', after'⟩
    rw [hone, htwo] at houtcome hstate
    cases houtcome with
    | error e =>
      rw [assembleSegments_of_next_error rest hone, assembleSegments_of_next_error rest htwo]
      exact ⟨.error e, hstate⟩
    | @ok made found hmade =>
      obtain ⟨first, next⟩ := made
      obtain ⟨first', next'⟩ := found
      obtain ⟨hfirst, hcohort⟩ := hmade
      obtain rfl : next' = next := hcohort
      rw [assembleSegments_of_next_ok rest hone, assembleSegments_of_next_ok rest htwo]
      obtain ⟨hlater, hlast⟩ := ih (fun s hs => hform s (List.mem_cons_of_mem _ hs))
        (fun s hs => hadaptive s (List.mem_cons_of_mem _ hs)) next' hstate
      exact ⟨hlater.map fun _ _ hrest => .cons hfirst hrest, hlast⟩

/-- **Two plans side by side**: with the same accommodations and with segments that are assembled
side by side, both fail with the same error or both plan a manifest, as long as manifests of what
is related have the same total. -/
theorem plan_sideBySide (related : Segment → AssembledSegment → AssembledSegment → Prop)
    {relatedManifest : Manifest → Manifest → Prop} {one two : AssemblyState}
    (haccommodations : other.accommodations exam.id = env.accommodations exam.id)
    (hsegments : ∀ accommodations,
      SideBySide (Segmentwise related assessment.inOrder)
          (assembleSegments env exam assessment accommodations assessment.inOrder none
            (one.evictIdle env)).1
          (assembleSegments other exam assessment accommodations assessment.inOrder none
            (two.evictIdle other)).1 ∧
        holds (assembleSegments env exam assessment accommodations assessment.inOrder none
            (one.evictIdle env)).2
          (assembleSegments other exam assessment accommodations assessment.inOrder none
            (two.evictIdle other)).2)
    (hmanifest : ∀ made others, Segmentwise related assessment.inOrder made others →
      (manifestOf exam others).totalItems = (manifestOf exam made).totalItems ∧
        relatedManifest (manifestOf exam made) (manifestOf exam others))
    (h : holds one two) :
    SideBySide relatedManifest (plan env exam assessment one).1 (plan other exam assessment two).1 ∧
      holds (plan env exam assessment one).2 (plan other exam assessment two).2 := by
  unfold plan
  rw [haccommodations]
  cases env.accommodations exam.id with
  | error outage => exact ⟨.error _, h⟩
  | ok accommodations =>
    obtain ⟨houtcome, hstate⟩ := hsegments accommodations
    unfold AssemblyState.evictIdle at houtcome hstate
    dsimp only
    generalize assembleSegments env exam assessment accommodations assessment.inOrder none _ =
      made at houtcome hstate
    generalize assembleSegments other exam assessment accommodations assessment.inOrder none _ =
      made' at houtcome hstate
    obtain ⟨outcome, after⟩ := made
    obtain ⟨outcome', after'⟩ := made'
    cases houtcome with
    | error e => exact ⟨.error e, hstate⟩
    | ok hmade =>
      obtain ⟨htotal, hrelated⟩ := hmanifest _ _ hmade
      dsimp only
      rw [htotal]
      split
      · exact ⟨.error _, hstate⟩
      · exact ⟨.ok hrelated, hstate⟩

end TestAssembly
