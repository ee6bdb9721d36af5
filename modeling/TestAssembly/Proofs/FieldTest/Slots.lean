import TestAssembly.Fixture
import TestAssembly.Proofs.FieldTest.Draws
import TestAssembly.Proofs.FieldTest.Positions

/-!
# The slot of a placed group

How many items are placed before a group tells where it stands, whatever candidates were passed over
in between and however much earlier passes had used of the budget. With intervals of some width its
slot begins as many intervals behind the start of the range as there are items before it
(`StandFrom.exists_slot`). Without intervals groups stand back to back, one position an item, and
all that can happen to a position is that it saturates (`exists_position_of_intervalSize_eq_zero`).

With intervals nothing saturates. The budget bounds the items placed, the intervals of all these
items fit the range, and the range is within the word (`not_saturates_operationsFrom`). Only the
check of a candidate that is passed over may go beyond the word, which is beyond the budget as well
(`fits_iff`).
-/

namespace TestAssembly

/-! ### Slots one behind the other -/

namespace StandFrom

variable {interval start : Nat} {before after : List FieldTestGroup} {group : FieldTestGroup}

/-- The later groups of a list stand behind all intervals of the earlier ones. -/
theorem of_append (h : StandFrom interval start (before ++ after)) :
    StandFrom interval (start + interval * total (before.map (·.itemCount))) after := by
  induction before generalizing start with
  | nil => simpa [total] using h
  | cons first rest ih =>
    cases h with
    | cons hslot hitems hstart hstop hrest =>
      rw [List.map_cons, total, Nat.mul_add, ← Nat.add_assoc]
      exact ih hrest

/-- **The slot of a group** begins behind the intervals of the groups before it, and is one position
wide for a group of one item. -/
theorem exists_slot (h : StandFrom interval start (before ++ group :: after)) :
    let first := start + interval * total (before.map (·.itemCount))
    ∃ slot, group.position = some slot ∧ first ≤ slot.toNat ∧
      slot.toNat < first + max 1 (interval * (group.itemCount.toNat - 1)) ∧
      (group.itemCount = 1 → slot.toNat = first) := by
  intro first
  cases h.of_append with
  | cons hslot hitems hstart hstop hrest =>
    refine ⟨_, hslot, hstart, hstop, fun hone => ?_⟩
    have hwidth : max 1 (interval * (group.itemCount.toNat - 1)) = 1 := by
      simp [hone]
    omega

end StandFrom

/-! ### Operations that may saturate -/

/-- **Saturating operation** on two counts. -/
inductive SaturatingOperation where
  | sum (left right : UInt32)
  | difference (left right : UInt32)
  | product (left right : UInt32)
  deriving DecidableEq

/-- The exact result is not within the word. -/
def SaturatingOperation.Saturates : SaturatingOperation → Prop
  | sum left right => maxCount < left.toNat + right.toNat
  | difference left right => left.toNat < right.toNat
  | product left right => maxCount < left.toNat * right.toNat

namespace PlacementRule

variable {rule : PlacementRule} {position count : UInt32} {draws : Nat}
  {candidates : List FieldTestGroup}

/-- **The operations for one slot**: the check of the budget, the span of a group of several items,
its position, the positions of its intervals and the position behind them. -/
def slotOperations (rule : PlacementRule) (position count : UInt32) (draws : Nat) (size : UInt32) :
    List SaturatingOperation :=
  [.sum count size] ++
    (if size = 1 then [] else [.product rule.segment.intervalSize (size - 1)]) ++
    [.sum position (rule.offset draws size)] ++
    (if rule.segment.intervalSize = 0 then [] else [.product size rule.segment.intervalSize]) ++
    [.sum position (rule.advance size)]

/-- The operations for the slots of all candidates that are placed from a position on. -/
def operationsFrom (rule : PlacementRule) :
    (position count : UInt32) → (draws : Nat) → List FieldTestGroup → List SaturatingOperation
  | _, _, _, [] => []
  | position, count, draws, group :: rest =>
    let size := rule.segment.groupSize group.groupKey
    if rule.fits count size then
      rule.slotOperations position count draws size ++
        rule.operationsFrom (addSat position (rule.advance size)) (count + size)
          (rule.drawsAfter draws size) rest
    else rule.operationsFrom position count draws rest

/-- **The operations of a placement**: the width of the range, of which the intervals are made, and
those for the slots of the groups placed. -/
def operations (rule : PlacementRule) (previouslyAssigned : UInt32) (draws : Nat)
    (candidates : List FieldTestGroup) : List SaturatingOperation :=
  .difference rule.segment.fieldTestEnd rule.segment.fieldTestStart ::
    rule.operationsFrom rule.segment.fieldTestStart previouslyAssigned draws candidates

section Intervals

variable (hmax : rule.segment.fieldTestMaxItems.toNat < maxCount)
  (hinterval : 0 < rule.segment.intervalSize)

include hmax hinterval

/-- None of the operations for a slot saturates whose intervals end within the word. -/
theorem not_saturates_slotOperations {size : UInt32} (hfits : rule.fits count size = true)
    (hword : position.toNat + rule.segment.intervalSize.toNat * size.toNat ≤ maxCount) :
    ∀ operation ∈ rule.slotOperations position count draws size, ¬ operation.Saturates := by
  obtain ⟨hsize, hbudget⟩ := (fits_iff hmax).mp hfits
  have hwidth := max_one_mul_pred_le (UInt32.lt_iff_toNat_lt.mp hinterval) hsize
  have hoffset := @toNat_offset_lt rule draws size hsize
  have hpred : (size - 1).toNat = size.toNat - 1 :=
    UInt32.toNat_sub_of_le size 1 (UInt32.le_iff_toNat_le.mpr hsize)
  have hadvance : (rule.advance size).toNat ≤ rule.segment.intervalSize.toNat * size.toNat := by
    rw [advance, if_neg (UInt32.pos_iff_ne_zero.mp hinterval), toNat_mulSat, Nat.mul_comm]
    exact Nat.min_le_left _ _
  simp only [slotOperations, List.forall_mem_append, List.forall_mem_singleton,
    SaturatingOperation.Saturates, Nat.not_lt]
  refine ⟨⟨⟨⟨by omega, ?_⟩, by omega⟩, ?_⟩, by omega⟩
  · split
    · simp
    · rw [List.forall_mem_singleton]
      show ¬ maxCount < rule.segment.intervalSize.toNat * (size - 1).toNat
      rw [hpred]
      omega
  · rw [if_neg (UInt32.pos_iff_ne_zero.mp hinterval), List.forall_mem_singleton]
    show ¬ maxCount < size.toNat * rule.segment.intervalSize.toNat
    rw [Nat.mul_comm]
    omega

/-- **Nothing saturates** as long as the intervals of all groups placed end within the word. -/
theorem not_saturates_operationsFrom
    (hword : position.toNat + rule.segment.intervalSize.toNat *
      total ((rule.placeFrom position count draws candidates).groups.map (·.itemCount)) ≤
        maxCount) :
    ∀ operation ∈ rule.operationsFrom position count draws candidates,
      ¬ operation.Saturates := by
  induction candidates generalizing position count draws with
  | nil => simp [operationsFrom]
  | cons group rest ih =>
    by_cases hfits : rule.fits count (rule.segment.groupSize group.groupKey) = true
    · rw [placeFrom_of_fits rest hfits] at hword
      simp only [List.map_cons, total, placedAt, Nat.mul_add] at hword
      have hnext := @toNat_addSat_advance rule position
        (rule.segment.groupSize group.groupKey) hinterval (by omega)
      rw [operationsFrom, if_pos hfits, List.forall_mem_append]
      exact ⟨not_saturates_slotOperations hmax hinterval hfits (by omega), ih (by omega)⟩
    · rw [placeFrom_of_not_fits rest hfits] at hword
      rw [operationsFrom, if_neg hfits]
      exact ih hword

/-- **Nothing saturates** in a placement with intervals. -/
theorem not_saturates_operations :
    ∀ operation ∈ rule.operations count draws candidates, ¬ operation.Saturates := by
  have hrange := UInt32.lt_iff_toNat_lt.mp (Segment.fieldTestStart_lt_fieldTestEnd hinterval)
  have hused := Segment.intervalSize_mul_le
    (@total_place_le_of_lt rule count draws candidates hmax)
  have hword := toNat_le_maxCount rule.segment.fieldTestEnd
  rw [place] at hused
  refine List.forall_mem_cons.mpr ⟨?_, not_saturates_operationsFrom hmax hinterval (by omega)⟩
  show ¬ rule.segment.fieldTestEnd.toNat < rule.segment.fieldTestStart.toNat
  omega

omit hmax in
/-- **The slot of a placed group** is told by the items placed before it, and is in the range. -/
theorem exists_slot_of_place
    (htotal : total ((rule.place count draws candidates).groups.map (·.itemCount)) ≤
      rule.segment.fieldTestMaxItems.toNat)
    {before after : List FieldTestGroup} {group : FieldTestGroup}
    (hplaced : (rule.place count draws candidates).groups = before ++ group :: after) :
    let first := rule.segment.fieldTestStart.toNat +
      rule.segment.intervalSize.toNat * total (before.map (·.itemCount))
    ∃ slot, group.position = some slot ∧ first ≤ slot.toNat ∧
      slot.toNat <
        first + max 1 (rule.segment.intervalSize.toNat * (group.itemCount.toNat - 1)) ∧
      (group.itemCount = 1 → slot.toNat = first) ∧
      rule.segment.fieldTestStart ≤ slot ∧ slot < rule.segment.fieldTestEnd := by
  intro first
  have hstand := standFrom_place hinterval htotal
  rw [hplaced] at hstand
  obtain ⟨slot, hslot, hfirst, hlast, hone⟩ := hstand.exists_slot
  have hmem : group ∈ (rule.place count draws candidates).groups := by simp [hplaced]
  obtain ⟨found, hfound, hrange⟩ := exists_position_of_mem_place hinterval htotal hmem
  obtain rfl : slot = found := Option.some.inj (hslot.symm.trans hfound)
  exact ⟨slot, hslot, hfirst, hlast, hone, hrange⟩

end Intervals

/-! ### Without intervals -/

/-- **Back to back**: without intervals a group stands as many positions behind the start as there
are items placed before it, up to the greatest one. -/
theorem exists_position_of_intervalSize_eq_zero (hinterval : rule.segment.intervalSize = 0)
    {before after : List FieldTestGroup} {group : FieldTestGroup}
    (hplaced : (rule.placeFrom position count draws candidates).groups =
      before ++ group :: after) :
    ∃ slot, group.position = some slot ∧
      slot.toNat = min (position.toNat + total (before.map (·.itemCount))) maxCount := by
  induction candidates generalizing position count draws before with
  | nil => simp [placeFrom] at hplaced
  | cons candidate rest ih =>
    by_cases hfits : rule.fits count (rule.segment.groupSize candidate.groupKey) = true
    · rw [placeFrom_of_fits rest hfits] at hplaced
      cases before with
      | nil =>
        obtain ⟨rfl, -⟩ := List.cons.inj hplaced
        refine ⟨_, rfl, ?_⟩
        rw [offset_eq_zero draws (ne_zero_of_fits hfits) (by simp [hinterval]), toNat_addSat]
        simp [total]
      | cons first before =>
        obtain ⟨rfl, hlater⟩ := List.cons.inj hplaced
        obtain ⟨slot, hslot, hvalue⟩ := ih hlater
        refine ⟨slot, hslot, ?_⟩
        rw [hvalue, toNat_addSat, advance, if_pos hinterval, List.map_cons, total]
        simp only [placedAt]
        omega
    · rw [placeFrom_of_not_fits rest hfits] at hplaced
      exact ih hplaced

/-- A rule for a segment of three intervals with three groups, one of each size up to three. -/
def scatteredRule : PlacementRule where
  segment := Fixture.buildSegment "SEG" .adaptive
    [.fieldTestRange 2 20, .fieldTestItems 1 3,
      .items (["a", "b", "b", "c", "c", "c"].map fun groupId =>
        Fixture.buildItem "i" [.group groupId, .fieldTest])]
  language := Fixture.language
  random := .script [999, 7]
  drawBound := 1000

/-- Its groups as candidates, the largest one second. -/
def scatteredCandidates : List FieldTestGroup :=
  ["a", "c", "b"].map fun groupId =>
    { examId := "EX"
      sessionId := "session-1"
      segmentKey := "SEG"
      segmentId := "SEG"
      groupKey := "G-" ++ groupId
      groupId
      blockId := "A"
      itemCount := 1 }

end PlacementRule

end TestAssembly
