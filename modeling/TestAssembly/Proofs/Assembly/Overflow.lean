import TestAssembly.Proofs.Assembly.GroupCount

/-!
# Sums that leave the word

Most counts of a pass saturate, but a seeded segment is counted with plain sums: first the items
that the history has for it, then what is placed on top of them, and in the end its length with its
field-test items. What exceeds the word is lost. `additionsAt` lists these additions, and `steps`
the segments at which a pass performs them, up to the one at which it fails.

One of them overflows exactly when the greatest length of the segment, the items of its history and
the items placed exceed the word together (`exists_overflows_additionsAt_iff`). Budgets prevent it
only where history and length leave room in the word (`not_overflows_of_hasRoom`): the history is
not held to them, and a budget of the greatest count is one that every saturating sum is within. The
last addition decides whether the segment counts as satisfied, so a segment whose two counts make up
the word together counts as satisfied as well (`overflows_and_satisfied_iff`).
-/

namespace TestAssembly

/-! ### Running sums -/

/-- **Addition** of two counts. -/
structure Addition where
  left : UInt32
  right : UInt32
  deriving DecidableEq

/-- The sum does not fit the word. -/
def Addition.Overflows (addition : Addition) : Prop :=
  countBound ≤ addition.left.toNat + addition.right.toNat

instance (addition : Addition) : Decidable addition.Overflows :=
  inferInstanceAs (Decidable (_ ≤ _))

@[simp] theorem Addition.overflows_mk (left right : UInt32) :
    Overflows ⟨left, right⟩ ↔ countBound ≤ left.toNat + right.toNat :=
  Iff.rfl

/-- The additions of a running sum, from a count on. -/
def runningAdditions : UInt32 → List UInt32 → List Addition
  | _, [] => []
  | sum, count :: rest => ⟨sum, count⟩ :: runningAdditions (sum + count) rest

/-- **A running sum overflows** somewhere exactly when the whole sum exceeds the word. -/
theorem exists_overflows_runningAdditions_iff (start : UInt32) (counts : List UInt32) :
    (∃ addition ∈ runningAdditions start counts, addition.Overflows) ↔
      countBound ≤ start.toNat + total counts := by
  have hbound : countBound = 2 ^ 32 := rfl
  induction counts generalizing start with
  | nil =>
    have hstart := start.toNat_lt
    simp only [runningAdditions, List.not_mem_nil, false_and, exists_false, false_iff, total]
    omega
  | cons count rest ih =>
    have hrest := ih (start + count)
    rw [UInt32.toNat_add] at hrest
    simp only [runningAdditions, List.exists_mem_cons_iff, hrest, Addition.overflows_mk, total]
    -- what the first sum loses it has lost by overflowing
    rcases Nat.lt_or_ge (start.toNat + count.toNat) (2 ^ 32) with hlt | hge
    · rw [Nat.mod_eq_of_lt hlt]
      omega
    · omega

/-- Two counts add up to nothing when both are zero, or when they make up the word. -/
theorem add_eq_zero_iff_or (a b : UInt32) :
    a + b = 0 ↔ a = 0 ∧ b = 0 ∨ a.toNat + b.toNat = countBound := by
  have hbound : countBound = 2 ^ 32 := rfl
  have ha := a.toNat_lt
  have hb := b.toNat_lt
  rw [← UInt32.toNat_inj, ← UInt32.toNat_inj, ← UInt32.toNat_inj, UInt32.toNat_add,
    UInt32.toNat_zero]
  omega

/-! ### Placement -/

namespace PlacementRule

variable {rule : PlacementRule}

/-- **The additions of a placement**: each group that fits is added to the items there are. -/
def additions (rule : PlacementRule) : UInt32 → List FieldTestGroup → List Addition
  | _, [] => []
  | count, group :: rest =>
    let size := rule.segment.groupSize group.groupKey
    if rule.fits count size then ⟨count, size⟩ :: rule.additions (count + size) rest
    else rule.additions count rest

/-- They are those of a running sum over the groups placed, which is the count of the placement. -/
theorem additions_eq (position count : UInt32) (draws : Nat) (candidates : List FieldTestGroup) :
    let placement := rule.placeFrom position count draws candidates
    rule.additions count candidates =
        runningAdditions count (placement.groups.map (·.itemCount)) ∧
      placement.itemCount = (placement.groups.map (·.itemCount)).foldl (· + ·) count := by
  induction candidates generalizing position count draws with
  | nil => exact ⟨rfl, rfl⟩
  | cons group rest ih =>
    by_cases hfits : rule.fits count (rule.segment.groupSize group.groupKey) = true
    · obtain ⟨hadditions, hcount⟩ := ih
        (addSat position (rule.advance (rule.segment.groupSize group.groupKey)))
        (count + rule.segment.groupSize group.groupKey)
        (rule.drawsAfter draws (rule.segment.groupSize group.groupKey))
      rw [additions, if_pos hfits, placeFrom_of_fits rest hfits, hadditions]
      exact ⟨rfl, hcount⟩
    · rw [additions, if_neg hfits, placeFrom_of_not_fits rest hfits]
      exact ih position count draws

end PlacementRule

variable {env : Environment} {exam : Exam} {assessment : Assessment}
  {accommodations : List Accommodation} {segment : Segment} {state : AssemblyState}

/-! ### One segment -/

/-- **The additions at a segment**, in a state: none at a fixed-form segment, the last one at every
adaptive segment, and all of them at one that is seeded. -/
def additionsAt (env : Environment) (exam : Exam) (assessment : Assessment)
    (accommodations : List Accommodation) (segment : Segment) (state : AssemblyState) :
    List Addition :=
  let length := (poolOf env exam assessment accommodations segment).length
  if segment.isFixedForm then []
  else if IsSeedable env exam assessment accommodations segment then
    match env.history exam.id segment.key with
    | .error _ => []
    | .ok history =>
      let counts := history.map (·.itemCount)
      let request := seedingRequest env exam assessment accommodations segment history
      let placement := seeding env exam assessment accommodations segment history state.usage
        state.drawsTaken
      runningAdditions 0 counts ++
        (seedingRule env exam segment).additions (sumWrapped counts)
          (request.select state.usage).1 ++
        [⟨length, placement.itemCount⟩]
  else [⟨length, 0⟩]

/-- **The counts of a segment exceed the word** together: its greatest length, the items of its
history and the items placed. -/
def ExceedsWord (env : Environment) (exam : Exam) (assessment : Assessment)
    (accommodations : List Accommodation) (segment : Segment) (state : AssemblyState) : Prop :=
  segment.isFixedForm = false ∧ IsSeedable env exam assessment accommodations segment ∧
    ∃ history, env.history exam.id segment.key = .ok history ∧
      countBound ≤ segment.maxItems.toNat + total (history.map (·.itemCount)) +
        total ((seeding env exam assessment accommodations segment history state.usage
          state.drawsTaken).groups.map (·.itemCount))

/-- The three sums of a seeded segment: one of them overflows exactly when everything that is added
exceeds the word. -/
theorem exists_overflows_seeding_iff (length : UInt32) (counts : List UInt32)
    (rule : PlacementRule) (draws : Nat) (candidates : List FieldTestGroup) :
    let placement := rule.place (sumWrapped counts) draws candidates
    (∃ addition ∈ runningAdditions 0 counts ++ rule.additions (sumWrapped counts) candidates ++
        [⟨length, placement.itemCount⟩], addition.Overflows) ↔
      countBound ≤ length.toNat + total counts + total (placement.groups.map (·.itemCount)) := by
  intro placement
  obtain ⟨hadditions, hcount⟩ := @PlacementRule.additions_eq rule rule.segment.fieldTestStart
    (sumWrapped counts) draws candidates
  have hlast : placement.itemCount.toNat =
      (total counts + total (placement.groups.map (·.itemCount))) % countBound := by
    show (rule.placeFrom _ _ _ _).itemCount.toNat = _
    rw [hcount, toNat_foldl_add, toNat_sumWrapped, Nat.mod_add_mod]
    rfl
  have hrunning : (∃ addition ∈ rule.additions (sumWrapped counts) candidates,
      addition.Overflows) ↔ countBound ≤
        total counts % countBound + total (placement.groups.map (·.itemCount)) := by
    rw [hadditions, exists_overflows_runningAdditions_iff, toNat_sumWrapped]
    rfl
  simp only [List.mem_append, List.mem_singleton, or_and_right, exists_or, exists_eq_left]
  rw [exists_overflows_runningAdditions_iff, hrunning, Addition.overflows_mk, hlast,
    UInt32.toNat_zero]
  have hbound : countBound = 4294967296 := rfl
  rw [hbound]
  omega

/-- **A segment's sums overflow** exactly when its counts exceed the word together. -/
theorem exists_overflows_additionsAt_iff :
    (∃ addition ∈ additionsAt env exam assessment accommodations segment state,
        addition.Overflows) ↔
      ExceedsWord env exam assessment accommodations segment state := by
  unfold additionsAt ExceedsWord
  dsimp only
  by_cases hfixed : segment.isFixedForm = true
  · simp [hfixed]
  · rw [if_neg hfixed]
    have hadaptive : segment.isFixedForm = false := Bool.eq_false_iff.mpr hfixed
    by_cases hseedable : IsSeedable env exam assessment accommodations segment
    · rw [if_pos hseedable]
      cases env.history exam.id segment.key with
      | error outage => simp
      | ok history =>
        have hlength : (poolOf env exam assessment accommodations segment).length =
          segment.maxItems := hseedable.1
        have hiff := exists_overflows_seeding_iff segment.maxItems (history.map (·.itemCount))
          (seedingRule env exam segment) state.drawsTaken
          ((seedingRequest env exam assessment accommodations segment history).select
            state.usage).1
        simp only [hlength, hadaptive, hseedable, true_and, Except.ok.injEq, exists_eq_left']
        exact hiff
    · have hbound : countBound = 2 ^ 32 := rfl
      have hword := (poolOf env exam assessment accommodations segment).length.toNat_lt
      rw [if_neg hseedable]
      simp only [List.mem_singleton, exists_eq_left, Addition.overflows_mk, UInt32.toNat_zero,
        hseedable, false_and, and_false, iff_false]
      omega

/-! ### A pass -/

/-- **The steps of a pass** over segments: each segment that it comes to, with the state in which it
does. The last one is the first at which it fails. -/
def stepsOver (env : Environment) (exam : Exam) (assessment : Assessment)
    (accommodations : List Accommodation) :
    List Segment → Option String → AssemblyState → List (Segment × AssemblyState)
  | [], _, _ => []
  | segment :: rest, cohort, state =>
    (segment, state) ::
      match assembleNext env exam assessment accommodations segment cohort state with
      | (.error _, _) => []
      | (.ok (_, next), after) =>
        stepsOver env exam assessment accommodations rest next after

theorem mem_of_mem_stepsOver {segments : List Segment} {cohort : Option String}
    {step : Segment × AssemblyState}
    (h : step ∈ stepsOver env exam assessment accommodations segments cohort state) :
    step.1 ∈ segments := by
  induction segments generalizing cohort state with
  | nil => simp [stepsOver] at h
  | cons segment rest ih =>
    rw [stepsOver] at h
    rcases List.mem_cons.mp h with rfl | h
    · exact List.mem_cons_self
    · split at h
      · simp at h
      · exact List.mem_cons_of_mem segment (ih h)

/-- A pass over segments that succeeds comes to all of them. -/
theorem map_fst_stepsOver {segments : List Segment} {cohort : Option String}
    {made : List AssembledSegment}
    (h : (assembleSegments env exam assessment accommodations segments cohort state).1 =
      .ok made) :
    (stepsOver env exam assessment accommodations segments cohort state).map Prod.fst =
      segments := by
  induction segments generalizing cohort state made with
  | nil => rfl
  | cons segment rest ih =>
    rw [stepsOver, List.map_cons]
    cases hnext : assembleNext env exam assessment accommodations segment cohort state with
    | mk outcome after =>
      cases outcome with
      | error e => simp [assembleSegments_of_next_error rest hnext] at h
      | ok step =>
        obtain ⟨first, next⟩ := step
        rw [assembleSegments_of_next_ok rest hnext] at h
        cases hlater : (assembleSegments env exam assessment accommodations rest next after).1 with
        | error e => simp [hlater, Except.map] at h
        | ok later => exact congrArg _ (ih hlater)

/-- The steps of a pass; none when it does not get the accommodations. -/
def steps (env : Environment) (exam : Exam) (assessment : Assessment) (state : AssemblyState) :
    List (List Accommodation × Segment × AssemblyState) :=
  match env.accommodations exam.id with
  | .error _ => []
  | .ok accommodations =>
    (stepsOver env exam assessment accommodations assessment.inOrder none
      (state.evictIdle env)).map (accommodations, ·)

/-- A pass that succeeds comes to all segments, in order of delivery. -/
theorem map_segment_steps {manifest : Manifest}
    (h : (assemble env exam assessment state).1 = .ok manifest) :
    (steps env exam assessment state).map (·.2.1) = assessment.inOrder := by
  have hplan := fst_plan_of_assemble_ok h
  rw [fst_plan, draft] at hplan
  unfold steps
  cases haccommodations : env.accommodations exam.id with
  | error outage => simp [haccommodations] at hplan
  | ok accommodations =>
    rw [haccommodations] at hplan
    cases hmade : (assembleSegments env exam assessment accommodations assessment.inOrder none
        (state.evictIdle env)).1 with
    | error e => simp [hmade] at hplan
    | ok made =>
      dsimp only
      rw [List.map_map]
      exact map_fst_stepsOver hmade

/-- **The additions of a pass**, at all its steps. -/
def additions (env : Environment) (exam : Exam) (assessment : Assessment) (state : AssemblyState) :
    List Addition :=
  (steps env exam assessment state).flatMap fun step =>
    additionsAt env exam assessment step.1 step.2.1 step.2.2

/-! ### Segments with room -/

/-- **Room in the word**: the greatest length of a segment fits it together with the items of its
history, and together with its budget. -/
structure HasRoom (env : Environment) (exam : Exam) (segment : Segment) : Prop where
  budget_lt : segment.fieldTestMaxItems.toNat < maxCount
  budget : segment.maxItems.toNat + segment.fieldTestMaxItems.toNat < countBound
  history : ∀ history, env.history exam.id segment.key = .ok history →
    segment.maxItems.toNat + total (history.map (·.itemCount)) < countBound

/-- In a segment with room nothing is placed beyond the budget, so that no sum is lost. -/
theorem HasRoom.not_exceedsWord (h : HasRoom env exam segment) :
    ¬ ExceedsWord env exam assessment accommodations segment state := by
  rintro ⟨-, -, history, hhistory, hexceeds⟩
  have hroom := h.history history hhistory
  have hrule : (seedingRule env exam segment).segment.fieldTestMaxItems.toNat < maxCount :=
    h.budget_lt
  have hcount := PlacementRule.toNat_itemCount_place hrule
    (sumWrapped (history.map (·.itemCount))) state.drawsTaken
    ((seedingRequest env exam assessment accommodations segment history).select state.usage).1
  have hstart : (sumWrapped (history.map (·.itemCount))).toNat =
      total (history.map (·.itemCount)) := by
    rw [toNat_sumWrapped, Nat.mod_eq_of_lt]
    omega
  rw [hstart] at hcount
  by_cases hnone : (seeding env exam assessment accommodations segment history state.usage
      state.drawsTaken).groups = []
  · rw [hnone, List.map_nil, total] at hexceeds
    omega
  · have hwithin : (seeding env exam assessment accommodations segment history state.usage
        state.drawsTaken).itemCount.toNat ≤ segment.fieldTestMaxItems.toNat :=
      PlacementRule.itemCount_place_le hrule hnone
    have hbudget := h.budget
    rw [seeding] at hwithin hexceeds
    omega

/-- **No addition overflows** in a pass whose segments have room. -/
theorem not_overflows_of_hasRoom (h : ∀ segment ∈ assessment.segments, HasRoom env exam segment) :
    ∀ addition ∈ additions env exam assessment state, ¬ addition.Overflows := by
  intro addition hmem hoverflows
  obtain ⟨step, hstep, hmem⟩ := List.mem_flatMap.mp hmem
  unfold steps at hstep
  split at hstep
  · simp at hstep
  · obtain ⟨found, hfound, rfl⟩ := List.mem_map.mp hstep
    have hsegment := assessment.inOrder_perm.mem_iff.mp (mem_of_mem_stepsOver hfound)
    exact (h found.1 hsegment).not_exceedsWord
      (exists_overflows_additionsAt_iff.1 ⟨addition, hmem, hoverflows⟩)

/-! ### Satisfied segments -/

/-- **A record counts as satisfied** when its two counts are zero, or make up the word. -/
theorem IsMade.satisfied_iff {made : AssembledSegment}
    (h : IsMade env exam assessment accommodations segment made) :
    made.record.satisfied = true ↔
      made.record.examItemCount = 0 ∧ made.record.fieldTestItemCount = 0 ∨
        made.record.examItemCount.toNat + made.record.fieldTestItemCount.toNat = countBound := by
  have hpool : ∀ pool placement,
      (adaptiveSegment exam segment pool placement).record.satisfied = true ↔
        pool.length = 0 ∧ placement.itemCount = 0 ∨
          pool.length.toNat + placement.itemCount.toNat = countBound := by
    intro pool placement
    exact beq_iff_eq.trans (add_eq_zero_iff_or pool.length placement.itemCount)
  cases h with
  | @onForm form =>
    have hcount := (fixedFormSegment exam segment form).record.examItemCount.toNat_lt
    have hsatisfied : (fixedFormSegment exam segment form).record.satisfied = true ↔
        (fixedFormSegment exam segment form).record.examItemCount = 0 := beq_iff_eq
    have hnone : (fixedFormSegment exam segment form).record.fieldTestItemCount = 0 := rfl
    have hbound : countBound = 2 ^ 32 := rfl
    rw [hsatisfied, hnone, UInt32.toNat_zero, Nat.add_zero]
    refine (and_iff_left rfl).symm.trans (or_iff_left ?_).symm
    omega
  | onPool => exact hpool _ _
  | onSeededPool => exact hpool _ _

/-! ### The pass and its records -/

/-- A site whose history has one group of a size in the segment. -/
def siteWithHistory (itemCount : UInt32) : Site :=
  { Site.opened default default default with
    history :=
      [{ examId := "EX", sessionId := "session-1", segmentKey := "SEG", segmentId := "SEG"
         groupKey := "G-g9", groupId := "g9", blockId := "A", itemCount }] }

/-- An assessment with a field-test group of two items, and a budget of the greatest count. -/
def unboundedAssessment : Assessment :=
  Fixture.assessment
    [Fixture.buildSegment "SEG" .adaptive
      [.maxItems 1, .fieldTestRange 1 3, .fieldTestItems 1 4294967295,
        .strand "Reading" 0 (some 0.5),
        .items [Fixture.item "i1", Fixture.buildItem "i2" [.group "g2", .fieldTest],
          Fixture.buildItem "i3" [.group "g2", .fieldTest]]]]

end TestAssembly
