import TestAssembly.Proofs.FieldTest.Slots

/-!
# The positions that a group occupies

The items of a group are delivered together, one a position, from the position of the group on. So
it needs as many positions as it has items, while what it has to itself are its intervals. It is
offset within all but the last of them, and so keeps, even at the greatest offset, one position
more than an interval is wide. A group of no more items than that stays within its intervals
whatever is drawn (`exists_slot_add_le`), and shares no position with a later group
(`pairwise_apart`).

A larger group may reach beyond its intervals by the difference, and at the greatest draw it does:
it then stands on the first position of the next group (`exists_occupies_next`). In a range with
intervals of one position, a group of three items is large enough for that
(`occupies_tightRule`).
-/

namespace TestAssembly

/-- **Occupied positions**: those of the items of a placed group, one behind the other. -/
def FieldTestGroup.Occupies (group : FieldTestGroup) (position : Nat) : Prop :=
  ∃ slot ∈ group.position, slot.toNat ≤ position ∧ position < slot.toNat + group.itemCount.toNat

instance (group : FieldTestGroup) (position : Nat) : Decidable (group.Occupies position) :=
  inferInstanceAs (Decidable (∃ slot ∈ group.position, _))

/-- **Greatest draws**: a source that always draws the greatest number below the bound. -/
def RandomSource.greatest : RandomSource := ⟨fun _ bound => bound - 1⟩

/-! ### Within the intervals -/

/-- Behind the greatest offset of a group there is room for as many items as an interval has
positions, and one. More items reach beyond the intervals. -/
theorem add_le_of_lt_max {interval first slot size : Nat} (hinterval : 0 < interval)
    (hsize : 0 < size) (hslot : slot < first + max 1 (interval * (size - 1))) :
    slot + size ≤ first + interval * size + (size - (interval + 1)) := by
  obtain ⟨items, rfl⟩ := Nat.exists_eq_add_of_le' hsize
  rw [Nat.add_sub_cancel] at hslot
  rw [Nat.mul_succ]
  cases items with
  | zero => omega
  | succ more =>
    have hwidth : 0 < interval * (more + 1) := Nat.mul_pos hinterval more.succ_pos
    omega

namespace StandFrom

variable {interval start : Nat} {groups before after : List FieldTestGroup}
  {group : FieldTestGroup}

/-- **Where a group ends**: with its intervals, or behind them by the items for which there is no
room. -/
theorem exists_slot_add_le (h : StandFrom interval start (before ++ group :: after))
    (hinterval : 0 < interval) :
    let first := start + interval * total (before.map (·.itemCount))
    ∃ slot, group.position = some slot ∧ first ≤ slot.toNat ∧
      slot.toNat + group.itemCount.toNat ≤
        first + interval * group.itemCount.toNat + (group.itemCount.toNat - (interval + 1)) := by
  intro first
  cases h.of_append with
  | cons hslot hitems hstart hstop hrest =>
    exact ⟨_, hslot, hstart, add_le_of_lt_max hinterval hitems hstop⟩

/-- **Apart**: a group with room for all its items shares no position with a later group. -/
theorem pairwise_apart (h : StandFrom interval start groups) (hinterval : 0 < interval) :
    groups.Pairwise fun earlier later => earlier.itemCount.toNat ≤ interval + 1 →
      ∀ position, earlier.Occupies position → ¬ later.Occupies position := by
  induction h with
  | nil => exact .nil
  | @cons start first rest slot hslot hitems hstart hstop hrest ih =>
    refine .cons (fun later hlater hsize position hfirst hsecond => ?_) ih
    -- the first group ends with its intervals, and the later one starts behind them
    have hend := add_le_of_lt_max hinterval hitems hstop
    obtain ⟨further, hfurther, hbehind, -⟩ := hrest.exists_position hinterval hlater
    obtain ⟨one, hone, -, hlt⟩ := hfirst
    obtain ⟨other, hother, hle, -⟩ := hsecond
    obtain rfl : slot = one := Option.some.inj (hslot.symm.trans hone)
    obtain rfl : further = other := Option.some.inj (hfurther.symm.trans hother)
    omega

end StandFrom

/-! ### At the greatest draw -/

namespace PlacementRule

variable {rule : PlacementRule} {position count : UInt32} {draws : Nat}
  {candidates before after : List FieldTestGroup} {group : FieldTestGroup}

/-- As long as the positions used up are within the word, a group stands as far behind the intervals
of the groups before it as some draw offsets it. -/
theorem exists_offset_of_placeFrom (hinterval : 0 < rule.segment.intervalSize)
    (hword : position.toNat + rule.segment.intervalSize.toNat *
      total ((rule.placeFrom position count draws candidates).groups.map (·.itemCount)) ≤
        maxCount)
    (hplaced : (rule.placeFrom position count draws candidates).groups =
      before ++ group :: after) :
    ∃ n slot, group.position = some slot ∧ slot.toNat = position.toNat +
      rule.segment.intervalSize.toNat * total (before.map (·.itemCount)) +
        (rule.offset n group.itemCount).toNat := by
  induction candidates generalizing position count draws before with
  | nil => simp [placeFrom] at hplaced
  | cons candidate rest ih =>
    by_cases hfits : rule.fits count (rule.segment.groupSize candidate.groupKey) = true
    · rw [placeFrom_of_fits rest hfits] at hplaced hword
      simp only [List.map_cons, total, placedAt, Nat.mul_add] at hword
      cases before with
      | nil =>
        obtain ⟨rfl, -⟩ := List.cons.inj hplaced
        refine ⟨draws, _, rfl, ?_⟩
        rw [toNat_addSat_offset hinterval (toNat_pos_of_fits hfits) (by omega)]
        simp only [placedAt, List.map_nil, total, Nat.mul_zero, Nat.add_zero]
      | cons first before =>
        obtain ⟨rfl, hlater⟩ := List.cons.inj hplaced
        have hnext := @toNat_addSat_advance rule position
          (rule.segment.groupSize candidate.groupKey) hinterval (by omega)
        obtain ⟨n, slot, hslot, hvalue⟩ := ih (by omega) hlater
        refine ⟨n, slot, hslot, ?_⟩
        rw [hvalue, hnext, List.map_cons, total, Nat.mul_add]
        simp only [placedAt]
        omega
    · rw [placeFrom_of_not_fits rest hfits] at hplaced hword
      exact ih hword hplaced

/-- A placement within the budget stays within the word, so every group of it stands where some draw
offsets it. -/
theorem exists_offset_of_place (hinterval : 0 < rule.segment.intervalSize)
    (htotal : total ((rule.place count draws candidates).groups.map (·.itemCount)) ≤
      rule.segment.fieldTestMaxItems.toNat)
    (hplaced : (rule.place count draws candidates).groups = before ++ group :: after) :
    ∃ n slot, group.position = some slot ∧ slot.toNat = rule.segment.fieldTestStart.toNat +
      rule.segment.intervalSize.toNat * total (before.map (·.itemCount)) +
        (rule.offset n group.itemCount).toNat := by
  have hused := Segment.intervalSize_mul_le htotal
  have hstart := toNat_le_maxCount rule.segment.fieldTestStart
  have hstop := toNat_le_maxCount rule.segment.fieldTestEnd
  rw [place] at hused hplaced
  exact exists_offset_of_placeFrom hinterval (by omega) hplaced

/-- **The twin of a group** stands at its place in the placement of any other source. -/
theorem exists_twin_of_place (random : RandomSource) (drawBound : UInt32)
    (hplaced : (rule.place count draws candidates).groups = before ++ group :: after) :
    ∃ earlier twin later,
      ((rule.drawing random drawBound).place count draws candidates).groups =
        earlier ++ twin :: later ∧
      List.Forall₂ rule.segment.AreTwins before earlier ∧ rule.segment.AreTwins group twin := by
  obtain ⟨htwins, -, -⟩ := areTwins_place rule random drawBound count draws candidates
  rw [hplaced] at htwins
  exact exists_of_forall₂_append_cons htwins

/-- The greatest draw offsets a group to the end of its span. -/
theorem toNat_offset_greatest {size : UInt32} (hspan : 0 < (rule.span size).toNat) (n : Nat) :
    ((rule.drawing .greatest (rule.span size)).offset n size).toNat =
      (rule.span size).toNat - 1 := by
  have hzero : rule.span size ≠ 0 := by
    intro h
    rw [h] at hspan
    exact Nat.lt_irrefl 0 hspan
  have hone : (rule.span size - 1).toNat = (rule.span size).toNat - 1 :=
    UInt32.toNat_sub_of_le _ 1 (UInt32.le_iff_toNat_le.mpr hspan)
  have hoffset : (rule.drawing .greatest (rule.span size)).offset n size =
      (rule.span size - 1) % rule.span size := if_neg hzero
  rw [hoffset, UInt32.toNat_mod, hone]
  exact Nat.mod_eq_of_lt (Nat.sub_lt hspan Nat.one_pos)

/-- The span of a group of several items is the width of all but the last of its intervals. -/
theorem toNat_span {size : UInt32} (hsize : 1 < size.toNat)
    (hword : rule.segment.intervalSize.toNat * (size.toNat - 1) ≤ maxCount) :
    (rule.span size).toNat = rule.segment.intervalSize.toNat * (size.toNat - 1) := by
  have hone : size ≠ 1 := by
    rintro rfl
    exact absurd hsize (by decide)
  have hpred : (size - 1).toNat = size.toNat - 1 :=
    UInt32.toNat_sub_of_le size 1 (UInt32.le_iff_toNat_le.mpr (Nat.le_of_lt hsize))
  rw [span, if_neg hone, toNat_mulSat, hpred]
  exact Nat.min_eq_left hword

/-- The intervals of a placed group are within the range. -/
theorem intervals_le_fieldTestEnd (hinterval : 0 < rule.segment.intervalSize)
    (htotal : total ((rule.place count draws candidates).groups.map (·.itemCount)) ≤
      rule.segment.fieldTestMaxItems.toNat)
    (hplaced : (rule.place count draws candidates).groups = before ++ group :: after) :
    rule.segment.fieldTestStart.toNat +
        rule.segment.intervalSize.toNat * total (before.map (·.itemCount)) +
          rule.segment.intervalSize.toNat * group.itemCount.toNat ≤
      rule.segment.fieldTestEnd.toNat := by
  have hrange := UInt32.lt_iff_toNat_lt.mp (Segment.fieldTestStart_lt_fieldTestEnd hinterval)
  have hused := Segment.intervalSize_mul_le htotal
  rw [hplaced, List.map_append, total_append, List.map_cons, total, Nat.mul_add, Nat.mul_add]
    at hused
  omega

/-- **On the next group's ground**: a group for whose items there is no room behind the greatest
offset occupies, at the greatest draw, the first position behind its intervals. -/
theorem exists_occupies_next (hinterval : 0 < rule.segment.intervalSize)
    (hmax : rule.segment.fieldTestMaxItems.toNat < maxCount)
    (hplaced : (rule.place count draws candidates).groups = before ++ group :: after)
    (hsize : rule.segment.intervalSize.toNat + 1 < group.itemCount.toNat) :
    ∃ earlier twin later,
      ((rule.drawing .greatest (rule.span group.itemCount)).place count draws candidates).groups =
        earlier ++ twin :: later ∧
      earlier.map (·.groupKey) = before.map (·.groupKey) ∧
      twin = { group with position := twin.position } ∧
      twin.Occupies (rule.segment.fieldTestStart.toNat +
        rule.segment.intervalSize.toNat * total (before.map (·.itemCount)) +
          rule.segment.intervalSize.toNat * group.itemCount.toNat) := by
  obtain ⟨earlier, twin, later, hother, hearlier, htwin⟩ :=
    exists_twin_of_place .greatest (rule.span group.itemCount) hplaced
  have hkeys : before.map (·.groupKey) = earlier.map (·.groupKey) :=
    map_eq_of_forall₂ hearlier fun _ _ h => by rw [h.same]
  have hcounts : before.map (·.itemCount) = earlier.map (·.itemCount) :=
    map_eq_of_forall₂ hearlier fun _ _ h => by rw [h.same]
  have hcount : twin.itemCount = group.itemCount := by rw [htwin.same]
  refine ⟨earlier, twin, later, hother, hkeys.symm, htwin.same, ?_⟩
  -- all but the last of the intervals, and these less the last position as the offset
  have hintervals : 0 < rule.segment.intervalSize.toNat := UInt32.lt_iff_toNat_lt.mp hinterval
  have hwidth : rule.segment.intervalSize.toNat * group.itemCount.toNat =
      rule.segment.intervalSize.toNat * (group.itemCount.toNat - 1) +
        rule.segment.intervalSize.toNat := by
    rw [Nat.mul_sub_one]
    exact (Nat.sub_add_cancel (Nat.le_mul_of_pos_right _ (by omega))).symm
  have hend := intervals_le_fieldTestEnd hinterval (total_place_le_of_lt hmax) hplaced
  have hword := toNat_le_maxCount rule.segment.fieldTestEnd
  have hspan := @toNat_span rule group.itemCount (by omega) (by omega)
  have hpositive : 0 < (rule.span group.itemCount).toNat := by
    rw [hspan]
    exact Nat.mul_pos hintervals (by omega)
  obtain ⟨n, slot, hslot, hvalue⟩ :=
    @exists_offset_of_place (rule.drawing .greatest (rule.span group.itemCount)) _ _ _ _ _ _
      hinterval (total_place_le_of_lt hmax) hother
  rw [← hcounts, hcount, toNat_offset_greatest hpositive, hspan, segment_drawing] at hvalue
  refine ⟨slot, hslot, by omega, ?_⟩
  rw [hcount]
  omega

/-! ### The positions of a placement -/

/-- **The positions of a placement** with intervals, the budget being below the greatest word. A
group stands behind the intervals of the groups before it, and its items end with its own as long as
they are no more than the positions of an interval and one; then they are within the range, and on
no position of a later group. More items reach beyond the intervals by at most the difference, and
at the greatest draw the same group, placed behind the same ones, occupies the first position behind
its intervals. -/
theorem place_apart (rule : PlacementRule)
    (hmax : rule.segment.fieldTestMaxItems.toNat < maxCount)
    (hinterval : 0 < rule.segment.intervalSize) (previouslyAssigned : UInt32) (draws : Nat)
    (candidates : List FieldTestGroup) :
    let placed := (rule.place previouslyAssigned draws candidates).groups
    let interval := rule.segment.intervalSize.toNat
    (placed.Pairwise fun earlier later => earlier.itemCount.toNat ≤ interval + 1 →
      ∀ position, earlier.Occupies position → ¬ later.Occupies position) ∧
    ∀ before group after, placed = before ++ group :: after →
      let items := group.itemCount.toNat
      let first := rule.segment.fieldTestStart.toNat + interval * total (before.map (·.itemCount))
      let next := first + interval * items
      (∃ slot, group.position = some slot ∧ first ≤ slot.toNat ∧
        slot.toNat + items ≤ next + (items - (interval + 1)) ∧
        (items ≤ interval + 1 → slot.toNat + items ≤ rule.segment.fieldTestEnd.toNat)) ∧
      (interval + 1 < items → ∃ earlier twin later,
        ((rule.drawing .greatest (rule.span group.itemCount)).place previouslyAssigned draws
          candidates).groups = earlier ++ twin :: later ∧
        earlier.map (·.groupKey) = before.map (·.groupKey) ∧
        twin = { group with position := twin.position } ∧ twin.Occupies next) := by
  intro placed interval
  have hpositive : 0 < interval := UInt32.lt_iff_toNat_lt.mp hinterval
  have htotal : total (placed.map (·.itemCount)) ≤ rule.segment.fieldTestMaxItems.toNat :=
    total_place_le_of_lt hmax
  have hstand : StandFrom interval rule.segment.fieldTestStart.toNat placed :=
    standFrom_place hinterval htotal
  refine ⟨hstand.pairwise_apart hpositive, fun before group after hplaced => ?_⟩
  intro items first next
  rw [hplaced] at hstand
  obtain ⟨slot, hslot, hfirst, hend⟩ := hstand.exists_slot_add_le hpositive
  refine ⟨⟨slot, hslot, hfirst, hend, fun hroom => ?_⟩, fun hsize =>
    exists_occupies_next hinterval hmax hplaced hsize⟩
  calc slot.toNat + items ≤ next + (items - (interval + 1)) := hend
    _ = next := by rw [Nat.sub_eq_zero_of_le hroom, Nat.add_zero]
    _ ≤ rule.segment.fieldTestEnd.toNat := intervals_le_fieldTestEnd hinterval htotal hplaced

/-- A rule for a segment of four intervals of one position, with a group of three items and one of
one. Of the candidates `scatteredCandidates` the third has no items. -/
def tightRule : PlacementRule where
  segment := Fixture.buildSegment "SEG" .adaptive
    [.fieldTestRange 1 5, .fieldTestItems 1 4,
      .items (["a", "a", "a", "b"].map fun groupId =>
        Fixture.buildItem "i" [.group groupId, .fieldTest])]
  language := Fixture.language
  random := .script [1]
  drawBound := 1000

/-- **Positions shared and positions outside**: the three items of one group take the positions from
2 to 4, and the other group stands on 4. In the other order they take the positions from 3 to 5, and
the range ends before 5. -/
theorem occupies_tightRule :
    let placed := (tightRule.place 0 0 scatteredCandidates).groups
    let reversed := (tightRule.place 0 0 scatteredCandidates.reverse).groups
    tightRule.segment.fieldTestMaxItems.toNat < maxCount ∧ 0 < tightRule.segment.intervalSize ∧
      placed.map (fun group => (group.groupKey, group.itemCount, group.position)) =
        [("G-a", 3, some 2), ("G-b", 1, some 4)] ∧
      reversed.map (fun group => (group.groupKey, group.itemCount, group.position)) =
        [("G-b", 1, some 1), ("G-a", 3, some 3)] ∧
      ¬ placed.Pairwise (fun earlier later => ∀ position, earlier.Occupies position →
        ¬ later.Occupies position) ∧
      ¬ ∀ group ∈ reversed, ∀ position, group.Occupies position →
        position < tightRule.segment.fieldTestEnd.toNat := by
  intro placed reversed
  refine ⟨by decide, by decide, by decide, by decide, fun hapart => ?_,
    fun hrange => ?_⟩
  · have hplaced : placed = [placed[0]!, placed[1]!] := by decide
    rw [hplaced] at hapart
    exact (List.pairwise_cons.mp hapart).1 _ List.mem_cons_self 4 (by decide)
      (by decide)
  · have hreversed : reversed[1]! ∈ reversed := by decide
    exact absurd (hrange _ hreversed 5 (by decide)) (by decide)

/-- With intervals of six positions there is room for groups of one item and of two, which stand
apart and within the range. With intervals of one position the group of three items takes, at some
draw, the position behind its intervals. -/
theorem place_apart_scatteredRule :
    let placed := (scatteredRule.place 0 0 scatteredCandidates).groups
    scatteredRule.segment.fieldTestMaxItems.toNat < maxCount ∧
    0 < scatteredRule.segment.intervalSize ∧
    (∀ position, placed[0]!.Occupies position → ¬ placed[1]!.Occupies position) ∧
    (∃ slot, placed[1]!.position = some slot ∧ slot.toNat + 2 ≤ 20) ∧
    tightRule.segment.fieldTestMaxItems.toNat < maxCount ∧ 0 < tightRule.segment.intervalSize ∧
    ∃ earlier twin later,
      ((tightRule.drawing .greatest 2).place 0 0 scatteredCandidates).groups =
        earlier ++ twin :: later ∧ twin.Occupies 4 := by
  intro placed
  have hmax : scatteredRule.segment.fieldTestMaxItems.toNat < maxCount := by decide
  have hinterval : 0 < scatteredRule.segment.intervalSize := by decide
  have hplaced : placed = [placed[0]!] ++ [placed[1]!] := by decide
  obtain ⟨hapart, hslots⟩ := place_apart scatteredRule hmax hinterval 0 0 scatteredCandidates
  obtain ⟨⟨slot, hslot, -, -, hroom⟩, -⟩ := hslots _ _ _ hplaced
  have htight : tightRule.segment.fieldTestMaxItems.toNat < maxCount := by decide
  have hnarrow : 0 < tightRule.segment.intervalSize := by decide
  let tight := (tightRule.place 0 0 scatteredCandidates).groups
  have hlarge : tight = [] ++ tight[0]! :: [tight[1]!] := by decide
  obtain ⟨earlier, twin, later, hother, -, -, hnext⟩ :=
    ((place_apart tightRule htight hnarrow 0 0 scatteredCandidates).2 _ _ _ hlarge).2
      (by decide)
  have hcount : placed[1]!.itemCount.toNat = 2 := by decide
  have hstop : scatteredRule.segment.fieldTestEnd.toNat = 20 := by decide
  have hspan : tightRule.span tight[0]!.itemCount = 2 := by decide
  rw [hcount, hstop] at hroom
  refine ⟨hmax, hinterval, ?_, ⟨slot, hslot, hroom (by decide)⟩, htight, hnarrow,
    ⟨earlier, twin, later, hspan ▸ hother, ?_⟩⟩
  · change placed.Pairwise _ at hapart
    rw [hplaced] at hapart
    exact (List.pairwise_cons.mp hapart).1 _ List.mem_cons_self (by decide)
  · have hfour : tightRule.segment.fieldTestStart.toNat +
        tightRule.segment.intervalSize.toNat *
          total (([] : List FieldTestGroup).map (·.itemCount)) +
            tightRule.segment.intervalSize.toNat * tight[0]!.itemCount.toNat = 4 := by
      decide
    exact hfour ▸ hnext

end PlacementRule

end TestAssembly
