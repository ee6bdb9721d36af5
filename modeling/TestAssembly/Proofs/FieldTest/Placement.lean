import TestAssembly.FieldTest.Placement

/-!
# What a placement counts

Placement goes through the candidates once: a group that fits what is left of the budget is placed
(`placeFrom_of_fits`), any other one is passed over (`placeFrom_of_not_fits`). Placing a group sets
its count, language and position and keeps everything that says which group it is
(`exists_of_mem_place`). The count of items is what there was before together with what was placed
(`toNat_itemCount_place`), and once something was placed it is within the budget
(`itemCount_place_le`).

A candidate with items is passed over for want of room only, and what is placed later takes more of
it: at the end there is no room for it either (`exists_mem_place_or_lt`).

The counts are exact as long as the budget is below the greatest word: a sum that leaves the word is
then over the budget as well (`fits_iff`).
-/

namespace TestAssembly

namespace PlacementRule

variable {rule : PlacementRule} {position count : UInt32} {draws : Nat}
  {candidates : List FieldTestGroup}

/-! ### One candidate -/

/-- **A placed group**: a candidate with its size, the language and a position. -/
def placedAt (rule : PlacementRule) (group : FieldTestGroup) (position : UInt32) :
    FieldTestGroup :=
  { group with
    itemCount := rule.segment.groupSize group.groupKey
    languageCode := some rule.language
    position := some position }

/-- The offset of a group of a size, by the next draw if there is something to choose. -/
def offset (rule : PlacementRule) (draws : Nat) (size : UInt32) : UInt32 :=
  if rule.span size = 0 then 0 else rule.random.draw draws rule.drawBound % rule.span size

/-- The draws taken after a group of a size. -/
def drawsAfter (rule : PlacementRule) (draws : Nat) (size : UInt32) : Nat :=
  if rule.span size = 0 then draws else draws + 1

/-- Only a group with items fits. -/
theorem ne_zero_of_fits {size : UInt32} (h : rule.fits count size = true) : size ≠ 0 := by
  simp only [fits, Bool.and_eq_true, bne_iff_ne] at h
  exact h.1.1

theorem toNat_pos_of_fits {size : UInt32} (h : rule.fits count size = true) : 0 < size.toNat :=
  UInt32.lt_iff_toNat_lt.mp (UInt32.pos_iff_ne_zero.mpr (ne_zero_of_fits h))

/-- A group that fits is placed before the rest. -/
theorem placeFrom_of_fits {group : FieldTestGroup} (rest : List FieldTestGroup)
    (h : rule.fits count (rule.segment.groupSize group.groupKey) = true) :
    rule.placeFrom position count draws (group :: rest) =
      let size := rule.segment.groupSize group.groupKey
      let after := rule.placeFrom (addSat position (rule.advance size)) (count + size)
        (rule.drawsAfter draws size) rest
      { after with
        groups :=
          rule.placedAt group (addSat position (rule.offset draws size)) :: after.groups } :=
  if_pos h

/-- A group that does not fit is passed over. -/
theorem placeFrom_of_not_fits {group : FieldTestGroup} (rest : List FieldTestGroup)
    (h : rule.fits count (rule.segment.groupSize group.groupKey) ≠ true) :
    rule.placeFrom position count draws (group :: rest) =
      rule.placeFrom position count draws rest :=
  if_neg h

/-! ### The groups -/

theorem exists_of_mem_placeFrom {placed : FieldTestGroup}
    (h : placed ∈ (rule.placeFrom position count draws candidates).groups) :
    ∃ group ∈ candidates, ∃ slot, rule.placedAt group slot = placed := by
  induction candidates generalizing position count draws with
  | nil => exact absurd h List.not_mem_nil
  | cons group rest ih =>
    by_cases hfits : rule.fits count (rule.segment.groupSize group.groupKey) = true
    · rw [placeFrom_of_fits rest hfits] at h
      rcases List.mem_cons.mp h with rfl | h
      · exact ⟨group, List.mem_cons_self, _, rfl⟩
      · obtain ⟨found, hfound, hslot⟩ := ih h
        exact ⟨found, List.mem_cons_of_mem _ hfound, hslot⟩
    · rw [placeFrom_of_not_fits rest hfits] at h
      obtain ⟨found, hfound, hslot⟩ := ih h
      exact ⟨found, List.mem_cons_of_mem _ hfound, hslot⟩

/-- **What is placed** are candidates, with count, language and position set. -/
theorem exists_of_mem_place {placed : FieldTestGroup}
    (h : placed ∈ (rule.place count draws candidates).groups) :
    ∃ group ∈ candidates, ∃ slot, rule.placedAt group slot = placed :=
  exists_of_mem_placeFrom h

theorem groupKey_placeFrom_sublist : ((rule.placeFrom position count draws candidates).groups.map
    (·.groupKey)).Sublist (candidates.map (·.groupKey)) := by
  induction candidates generalizing position count draws with
  | nil => exact .slnil
  | cons group rest ih =>
    by_cases hfits : rule.fits count (rule.segment.groupSize group.groupKey) = true
    · rw [placeFrom_of_fits rest hfits]
      exact ih.cons_cons _
    · rw [placeFrom_of_not_fits rest hfits]
      exact ih.cons _

/-- **The order** of the candidates is kept by those that are placed. -/
theorem groupKey_place_sublist (rule : PlacementRule) (count : UInt32) (draws : Nat)
    (candidates : List FieldTestGroup) :
    ((rule.place count draws candidates).groups.map (·.groupKey)).Sublist
      (candidates.map (·.groupKey)) :=
  groupKey_placeFrom_sublist

/-! ### The count -/

section Count

variable (hmax : rule.segment.fieldTestMaxItems.toNat < maxCount)

include hmax

/-- A group fits when it has items and all of them are within the budget. -/
theorem fits_iff {size : UInt32} :
    rule.fits count size = true ↔
      0 < size.toNat ∧ count.toNat + size.toNat ≤ rule.segment.fieldTestMaxItems.toNat := by
  have hsize : size ≠ 0 ↔ 0 < size.toNat := by
    rw [Nat.pos_iff_ne_zero, Ne, Ne, ← UInt32.toNat_inj, UInt32.toNat_zero]
  simp only [fits, Bool.and_eq_true, bne_iff_ne, decide_eq_true_eq, UInt32.lt_iff_toNat_lt,
    UInt32.le_iff_toNat_le, toNat_addSat, hsize]
  omega

/-- The count with a group that fits stays within the word. -/
theorem toNat_add_of_fits {size : UInt32} (h : rule.fits count size = true) :
    (count + size).toNat = count.toNat + size.toNat := by
  have hfits := (fits_iff hmax).mp h
  have hbound : maxCount < 2 ^ 32 := by decide
  rw [UInt32.toNat_add, Nat.mod_eq_of_lt]
  omega

theorem toNat_itemCount_placeFrom :
    (rule.placeFrom position count draws candidates).itemCount.toNat = count.toNat +
      total ((rule.placeFrom position count draws candidates).groups.map (·.itemCount)) := by
  induction candidates generalizing position count draws with
  | nil => rfl
  | cons group rest ih =>
    by_cases hfits : rule.fits count (rule.segment.groupSize group.groupKey) = true
    · have hadd := toNat_add_of_fits hmax hfits
      simp only [placeFrom_of_fits rest hfits, List.map_cons, total_cons, placedAt, ih, hadd]
      omega
    · rw [placeFrom_of_not_fits rest hfits]
      exact ih

theorem itemCount_placeFrom_le
    (h : (rule.placeFrom position count draws candidates).groups ≠ []) :
    (rule.placeFrom position count draws candidates).itemCount.toNat ≤
      rule.segment.fieldTestMaxItems.toNat := by
  induction candidates generalizing position count draws with
  | nil => exact absurd rfl h
  | cons group rest ih =>
    by_cases hfits : rule.fits count (rule.segment.groupSize group.groupKey) = true
    · rw [placeFrom_of_fits rest hfits]
      dsimp only
      -- either a later group is placed as well, or this one is the last
      by_cases hlast : (rule.placeFrom
          (addSat position (rule.advance (rule.segment.groupSize group.groupKey)))
          (count + rule.segment.groupSize group.groupKey)
          (rule.drawsAfter draws (rule.segment.groupSize group.groupKey)) rest).groups = []
      · rw [toNat_itemCount_placeFrom hmax, hlast, toNat_add_of_fits hmax hfits]
        exact ((fits_iff hmax).mp hfits).2
      · exact ih hlast
    · rw [placeFrom_of_not_fits rest hfits] at h ⊢
      exact ih h

/-- **The count** of a placement: the items there were before, and those of the groups placed. -/
theorem toNat_itemCount_place (count : UInt32) (draws : Nat) (candidates : List FieldTestGroup) :
    (rule.place count draws candidates).itemCount.toNat =
      count.toNat + total ((rule.place count draws candidates).groups.map (·.itemCount)) :=
  toNat_itemCount_placeFrom hmax

/-- **The budget**: with a group placed, the count is within it. -/
theorem itemCount_place_le (h : (rule.place count draws candidates).groups ≠ []) :
    (rule.place count draws candidates).itemCount.toNat ≤
      rule.segment.fieldTestMaxItems.toNat :=
  itemCount_placeFrom_le hmax h

end Count

/-! ### What is passed over -/

/-- Items do not fit once the budget is used up, or when they are more than its rest. -/
theorem not_fits_iff {size : UInt32} (hsize : size ≠ 0) :
    rule.fits count size ≠ true ↔
      rule.segment.fieldTestMaxItems ≤ count ∨
        rule.segment.fieldTestMaxItems.toNat < min (count.toNat + size.toNat) maxCount := by
  rw [← toNat_addSat, ← UInt32.lt_iff_toNat_lt]
  simp only [fits, ne_eq, Bool.and_eq_true, bne_iff_ne, decide_eq_true_eq, hsize,
    not_false_eq_true, true_and, Classical.not_and_iff_not_or_not, UInt32.not_lt, UInt32.not_le]

/-- With the budget used up nothing more is placed. -/
theorem itemCount_placeFrom_of_le (h : rule.segment.fieldTestMaxItems ≤ count) :
    (rule.placeFrom position count draws candidates).itemCount = count := by
  induction candidates generalizing position count draws with
  | nil => rfl
  | cons group rest ih =>
    have hfits : rule.fits count (rule.segment.groupSize group.groupKey) ≠ true := by
      simp [fits, UInt32.not_lt.mpr h]
    rw [placeFrom_of_not_fits rest hfits]
    exact ih h

/-- Items that do not fit at some point do not fit at the end. -/
theorem lt_itemCount_placeFrom_add {size : UInt32} (hsize : size ≠ 0)
    (h : rule.fits count size ≠ true) :
    rule.segment.fieldTestMaxItems.toNat <
      (rule.placeFrom position count draws candidates).itemCount.toNat + size.toNat := by
  rcases (not_fits_iff hsize).mp h with hfull | hover
  · have hpositive : 0 < size.toNat :=
      UInt32.lt_iff_toNat_lt.mp (UInt32.pos_iff_ne_zero.mpr hsize)
    rw [itemCount_placeFrom_of_le hfull]
    rw [UInt32.le_iff_toNat_le] at hfull
    omega
  · -- a sum beyond the budget leaves the budget below the greatest word
    rw [toNat_itemCount_placeFrom (by omega)]
    omega

theorem exists_mem_placeFrom_or_lt {group : FieldTestGroup} (hgroup : group ∈ candidates)
    (hsize : rule.segment.groupSize group.groupKey ≠ 0) :
    (∃ slot, rule.placedAt group slot ∈
      (rule.placeFrom position count draws candidates).groups) ∨
    rule.segment.fieldTestMaxItems.toNat <
      (rule.placeFrom position count draws candidates).itemCount.toNat +
        (rule.segment.groupSize group.groupKey).toNat := by
  induction candidates generalizing position count draws with
  | nil => simp at hgroup
  | cons first rest ih =>
    by_cases hfits : rule.fits count (rule.segment.groupSize first.groupKey) = true
    · rw [placeFrom_of_fits rest hfits]
      rcases List.mem_cons.mp hgroup with rfl | hgroup
      · exact .inl ⟨_, List.mem_cons_self⟩
      · exact (ih hgroup).imp_left fun ⟨slot, hslot⟩ => ⟨slot, List.mem_cons_of_mem _ hslot⟩
    · rw [placeFrom_of_not_fits rest hfits]
      rcases List.mem_cons.mp hgroup with rfl | hgroup
      · exact .inr (lt_itemCount_placeFrom_add hsize hfits)
      · exact ih hgroup

/-- **What is passed over**: a candidate with items is placed, unless the budget has no room for it
even when all is done. -/
theorem exists_mem_place_or_lt (count : UInt32) (draws : Nat) {group : FieldTestGroup}
    (hgroup : group ∈ candidates) (hsize : rule.segment.groupSize group.groupKey ≠ 0) :
    (∃ slot, rule.placedAt group slot ∈ (rule.place count draws candidates).groups) ∨
    rule.segment.fieldTestMaxItems.toNat <
      (rule.place count draws candidates).itemCount.toNat +
        (rule.segment.groupSize group.groupKey).toNat :=
  exists_mem_placeFrom_or_lt hgroup hsize

end PlacementRule

end TestAssembly
