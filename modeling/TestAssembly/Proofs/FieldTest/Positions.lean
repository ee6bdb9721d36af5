import TestAssembly.Proofs.FieldTest.Placement
import TestAssembly.Proofs.Pool.Length

/-!
# Where placed groups stand

With intervals of some width, each placed group gets as many intervals as it has items, and the next
group starts behind the last of them. A group is offset within all but the last of its intervals, so
it stands before the next one whatever is drawn. `StandFrom` says this of a list of groups, and that
they ascend strictly follows from it (`StandFrom.pairwise`).

A placement is such a list from the start of the field-test range on (`standFrom_place`), and it
ends within the range, provided that its groups have no more items than the budget. Without overflow
they do; at the greatest word as a budget, where sums saturate, they do because each key is placed
once and no item is counted for two keys (`total_place_le`).
-/

namespace TestAssembly

/-! ### One behind the other -/

/-- **Standing one behind the other** from a position on: each group somewhere in its intervals but
the last, or at their start if it has just one, and the next group behind them all. -/
inductive StandFrom (interval : Nat) : Nat → List FieldTestGroup → Prop
  | nil {start : Nat} : StandFrom interval start []
  | cons {start : Nat} {group : FieldTestGroup} {rest : List FieldTestGroup} {slot : UInt32}
      (hslot : group.position = some slot) (hitems : 0 < group.itemCount.toNat)
      (hstart : start ≤ slot.toNat)
      (hstop : slot.toNat < start + max 1 (interval * (group.itemCount.toNat - 1)))
      (hrest : StandFrom interval (start + interval * group.itemCount.toNat) rest) :
      StandFrom interval start (group :: rest)

/-- A group uses up at least the positions among which it is offset. -/
theorem max_one_mul_pred_le {interval size : Nat} (hinterval : 0 < interval) (hsize : 0 < size) :
    max 1 (interval * (size - 1)) ≤ interval * size :=
  Nat.max_le.mpr ⟨Nat.mul_pos hinterval hsize, Nat.mul_le_mul_left interval (Nat.sub_le size 1)⟩

namespace StandFrom

variable {interval start : Nat} {groups : List FieldTestGroup}

/-- Every group stands at a position, between the start and the end of all intervals used. -/
theorem exists_position (h : StandFrom interval start groups) (hinterval : 0 < interval)
    {group : FieldTestGroup} (hgroup : group ∈ groups) :
    ∃ slot, group.position = some slot ∧ start ≤ slot.toNat ∧
      slot.toNat < start + interval * total (groups.map (·.itemCount)) := by
  induction h with
  | nil => simp at hgroup
  | @cons start first rest slot hslot hitems hstart hstop _ ih =>
    rw [List.map_cons, total, Nat.mul_add]
    rcases List.mem_cons.mp hgroup with rfl | hgroup
    · have hwidth := max_one_mul_pred_le hinterval hitems
      exact ⟨slot, hslot, hstart, by omega⟩
    · obtain ⟨later, hlater, hle, hlt⟩ := ih hgroup
      exact ⟨later, hlater, by omega, by omega⟩

/-- **Positions ascend strictly.** -/
theorem pairwise (h : StandFrom interval start groups) (hinterval : 0 < interval) :
    groups.Pairwise fun first second => ∃ slot later, first.position = some slot ∧
      second.position = some later ∧ slot < later := by
  induction h with
  | nil => exact .nil
  | @cons start first rest slot hslot hitems _ hstop hrest ih =>
    refine .cons (fun second hsecond => ?_) ih
    obtain ⟨later, hlater, hle, -⟩ := hrest.exists_position hinterval hsecond
    have hwidth := max_one_mul_pred_le hinterval hitems
    exact ⟨slot, later, hslot, hlater, UInt32.lt_iff_toNat_lt.mpr (by omega)⟩

end StandFrom

/-! ### The range -/

/-- The intervals of a segment fit its field-test range. -/
theorem Segment.intervalSize_mul_le {segment : Segment} {intervals : Nat}
    (h : intervals ≤ segment.fieldTestMaxItems.toNat) :
    segment.intervalSize.toNat * intervals ≤
      segment.fieldTestEnd.toNat - segment.fieldTestStart.toNat := by
  refine Nat.le_trans (Nat.mul_le_mul_left _ h) ?_
  rw [intervalSize, UInt32.toNat_div, toNat_subSat]
  exact Nat.div_mul_le_self _ _

/-- A range that is divided into intervals ends behind its start. -/
theorem Segment.fieldTestStart_lt_fieldTestEnd {segment : Segment}
    (h : 0 < segment.intervalSize) : segment.fieldTestStart < segment.fieldTestEnd := by
  rw [UInt32.lt_iff_toNat_lt, intervalSize, UInt32.toNat_div, toNat_subSat] at h
  rw [UInt32.lt_iff_toNat_lt]
  refine Nat.lt_of_not_le fun hle => ?_
  rw [Nat.sub_eq_zero_of_le hle, Nat.zero_div] at h
  exact Nat.lt_irrefl _ h

namespace PlacementRule

variable {rule : PlacementRule} {position count : UInt32} {draws : Nat}
  {candidates : List FieldTestGroup}

/-- The offset of a group stays within all but the last of its intervals. -/
theorem toNat_offset_lt {size : UInt32} (hsize : 0 < size.toNat) :
    (rule.offset draws size).toNat <
      max 1 (rule.segment.intervalSize.toNat * (size.toNat - 1)) := by
  have hspan : (rule.span size).toNat ≤
      max 1 (rule.segment.intervalSize.toNat * (size.toNat - 1)) := by
    unfold span
    split
    · exact Nat.le_max_left 1 _
    · have hpred : (size - 1).toNat = size.toNat - 1 :=
        UInt32.toNat_sub_of_le size 1 (UInt32.le_iff_toNat_le.mpr hsize)
      rw [toNat_mulSat, hpred]
      omega
  unfold offset
  split
  · exact Nat.lt_of_lt_of_le Nat.one_pos (Nat.le_max_left 1 _)
  · rename_i hzero
    have hpositive : 0 < (rule.span size).toNat :=
      UInt32.lt_iff_toNat_lt.mp (UInt32.pos_iff_ne_zero.mpr hzero)
    rw [UInt32.toNat_mod]
    exact Nat.lt_of_lt_of_le (Nat.mod_lt _ hpositive) hspan

/-- A group stands as far behind its start as it is offset, as long as its intervals end within the
word. -/
theorem toNat_addSat_offset {size : UInt32} (hinterval : 0 < rule.segment.intervalSize)
    (hsize : 0 < size.toNat)
    (hword : position.toNat + rule.segment.intervalSize.toNat * size.toNat ≤ maxCount) :
    (addSat position (rule.offset draws size)).toNat =
      position.toNat + (rule.offset draws size).toNat := by
  have hoffset := @toNat_offset_lt rule draws size hsize
  have hwidth := max_one_mul_pred_le (UInt32.lt_iff_toNat_lt.mp hinterval) hsize
  rw [toNat_addSat]
  omega

/-- The next group starts behind all intervals of a group, as long as they end within the word. -/
theorem toNat_addSat_advance {size : UInt32} (hinterval : 0 < rule.segment.intervalSize)
    (hword : position.toNat + rule.segment.intervalSize.toNat * size.toNat ≤ maxCount) :
    (addSat position (rule.advance size)).toNat =
      position.toNat + rule.segment.intervalSize.toNat * size.toNat := by
  rw [advance, if_neg (UInt32.pos_iff_ne_zero.mp hinterval), toNat_addSat, toNat_mulSat,
    Nat.mul_comm]
  omega

/-- As long as the positions used up are within the word, the groups placed stand one behind the
other. -/
theorem standFrom_placeFrom (hinterval : 0 < rule.segment.intervalSize)
    (hword : position.toNat + rule.segment.intervalSize.toNat *
      total ((rule.placeFrom position count draws candidates).groups.map (·.itemCount)) ≤
        maxCount) :
    StandFrom rule.segment.intervalSize.toNat position.toNat
      (rule.placeFrom position count draws candidates).groups := by
  induction candidates generalizing position count draws with
  | nil => exact .nil
  | cons group rest ih =>
    by_cases hfits : rule.fits count (rule.segment.groupSize group.groupKey) = true
    · rw [placeFrom_of_fits rest hfits] at hword ⊢
      simp only [List.map_cons, total] at hword
      generalize hsizeEq : rule.segment.groupSize group.groupKey = size at hfits hword ⊢
      have hitems : (rule.placedAt group (addSat position (rule.offset draws size))).itemCount =
          size := hsizeEq
      rw [hitems, Nat.mul_add] at hword
      have hsize : 0 < size.toNat := toNat_pos_of_fits hfits
      have hoffset := @toNat_offset_lt rule draws size hsize
      have hslot := @toNat_addSat_offset rule position draws size hinterval hsize (by omega)
      have hnext := @toNat_addSat_advance rule position size hinterval (by omega)
      refine .cons rfl (hitems ▸ hsize) (by omega) (by rw [hitems]; omega) ?_
      rw [hitems, ← hnext]
      exact ih (by omega)
    · rw [placeFrom_of_not_fits rest hfits] at hword ⊢
      exact ih hword

section Range

variable (hinterval : 0 < rule.segment.intervalSize)
  (htotal : total ((rule.place count draws candidates).groups.map (·.itemCount)) ≤
    rule.segment.fieldTestMaxItems.toNat)

include hinterval htotal

/-- **A placement** within the budget stands one behind the other from the start of the range. -/
theorem standFrom_place :
    StandFrom rule.segment.intervalSize.toNat rule.segment.fieldTestStart.toNat
      (rule.place count draws candidates).groups := by
  rw [place] at htotal ⊢
  refine standFrom_placeFrom hinterval ?_
  have hused := Segment.intervalSize_mul_le htotal
  have hstart := toNat_le_maxCount rule.segment.fieldTestStart
  have hstop := toNat_le_maxCount rule.segment.fieldTestEnd
  omega

/-- **Within the range**: every group of it stands there. -/
theorem exists_position_of_mem_place {group : FieldTestGroup}
    (hgroup : group ∈ (rule.place count draws candidates).groups) :
    ∃ slot, group.position = some slot ∧ rule.segment.fieldTestStart ≤ slot ∧
      slot < rule.segment.fieldTestEnd := by
  obtain ⟨slot, hslot, hstart, hstop⟩ := (standFrom_place hinterval htotal).exists_position
    (UInt32.lt_iff_toNat_lt.mp hinterval) hgroup
  have hused := Segment.intervalSize_mul_le htotal
  refine ⟨slot, hslot, UInt32.le_iff_toNat_le.mpr hstart, UInt32.lt_iff_toNat_lt.mpr ?_⟩
  omega

end Range

/-! ### The budget -/

/-- Counts of the word are at most the numbers that they stand for. -/
theorem total_map_countOf_le {α : Type} (f : α → Nat) (elements : List α) :
    total (elements.map fun a => countOf (f a)) ≤ (elements.map f).sum := by
  induction elements with
  | nil => exact Nat.le_refl 0
  | cons a rest ih =>
    simp only [List.map_cons, total, List.sum_cons, toNat_countOf]
    omega

/-- Groups of different keys have no more items than the segment. -/
theorem total_place_le_length (hkeys : (candidates.map (·.groupKey)).Nodup) :
    total ((rule.place count draws candidates).groups.map (·.itemCount)) ≤
      rule.segment.items.length := by
  have hcounts : (rule.place count draws candidates).groups.map (·.itemCount) =
      ((rule.place count draws candidates).groups.map (·.groupKey)).map rule.segment.groupSize := by
    rw [List.map_map]
    refine List.map_congr_left fun placed hplaced => ?_
    obtain ⟨group, -, slot, rfl⟩ := exists_of_mem_place hplaced
    rfl
  have hplaced := hkeys.sublist (rule.groupKey_place_sublist count draws candidates)
  have hsum := sum_countP_eq (fun _ => true) (·.groupKey) rule.segment.items hplaced
  simp only [Bool.true_and] at hsum
  rw [hcounts]
  refine Nat.le_trans (total_map_countOf_le _ _) ?_
  rw [hsum]
  exact List.countP_le_length

/-- Below the greatest word the budget bounds the items of all groups placed. -/
theorem total_place_le_of_lt (hmax : rule.segment.fieldTestMaxItems.toNat < maxCount) :
    total ((rule.place count draws candidates).groups.map (·.itemCount)) ≤
      rule.segment.fieldTestMaxItems.toNat := by
  by_cases hgroups : (rule.place count draws candidates).groups = []
  · simp [hgroups, total]
  · have hcount := toNat_itemCount_place hmax count draws candidates
    have hle := itemCount_place_le hmax hgroups
    omega

/-- **The groups placed** have no more items than the budget: either it is below the greatest word,
or the segment has no more items than that and each key comes once. -/
theorem total_place_le (h : rule.segment.fieldTestMaxItems.toNat < maxCount ∨
      rule.segment.items.length ≤ maxCount)
    (hkeys : (candidates.map (·.groupKey)).Nodup) :
    total ((rule.place count draws candidates).groups.map (·.itemCount)) ≤
      rule.segment.fieldTestMaxItems.toNat := by
  by_cases hmax : rule.segment.fieldTestMaxItems.toNat < maxCount
  · exact total_place_le_of_lt hmax
  · have hlength := @total_place_le_length rule count draws candidates hkeys
    have hitems := h.resolve_left hmax
    omega

end PlacementRule

end TestAssembly
