import TestAssembly.Proofs.FieldTest.Slots

/-!
# Which candidates are placed

Placement decides about one candidate after the other. A candidate has room when it has items and
the budget holds all of them beside the items there are (`HasRoom`); it is placed then, and passed
over otherwise. What is placed takes room from all that come later, so the first candidate that has
room at the start is placed (`isSome_of_first_hasRoom`), and a candidate that was passed over for
want of room would not have it at the end either (`lt_of_passed_over`).

Decisions are kept candidate by candidate, not by group key: candidates of the same key, or even
equal ones, may be decided about differently.
-/

namespace TestAssembly

/-- The items of a segment with a group key, however many they are. -/
def Segment.itemsWithKey (segment : Segment) (groupKey : String) : Nat :=
  segment.items.countP (·.groupKey == groupKey)

namespace PlacementRule

variable {rule : PlacementRule} {position count : UInt32} {draws : Nat}
  {candidates : List FieldTestGroup} {candidate : FieldTestGroup}

/-! ### Room -/

/-- **Room for a candidate** beside the items there are: it has items, and the budget holds them
all. -/
def HasRoom (rule : PlacementRule) (count : Nat) (candidate : FieldTestGroup) : Prop :=
  0 < rule.segment.itemsWithKey candidate.groupKey ∧
    count + rule.segment.itemsWithKey candidate.groupKey ≤ rule.segment.fieldTestMaxItems.toNat

instance (rule : PlacementRule) (count : Nat) (candidate : FieldTestGroup) :
    Decidable (rule.HasRoom count candidate) :=
  inferInstanceAs (Decidable (_ ∧ _))

/-- The size of a group is its number of items, as far as the word goes. -/
theorem toNat_groupSize (segment : Segment) (groupKey : String) :
    (segment.groupSize groupKey).toNat = min (segment.itemsWithKey groupKey) maxCount :=
  toNat_countOf _

/-- With the budget below the greatest word, what fits is what has room. -/
theorem fits_iff_hasRoom (hmax : rule.segment.fieldTestMaxItems.toNat < maxCount) :
    rule.fits count (rule.segment.groupSize candidate.groupKey) = true ↔
      rule.HasRoom count.toNat candidate := by
  rw [fits_iff hmax, toNat_groupSize, HasRoom]
  omega

/-! ### Decisions -/

/-- **Decisions** about candidates from a position on: for each of them the position at which it is
placed, if it is. -/
def decisionsFrom (rule : PlacementRule) :
    (position count : UInt32) → (draws : Nat) → List FieldTestGroup →
      List (FieldTestGroup × Option UInt32)
  | _, _, _, [] => []
  | position, count, draws, candidate :: rest =>
    let size := rule.segment.groupSize candidate.groupKey
    if rule.fits count size then
      (candidate, some (addSat position (rule.offset draws size))) ::
        rule.decisionsFrom (addSat position (rule.advance size)) (count + size)
          (rule.drawsAfter draws size) rest
    else (candidate, none) :: rule.decisionsFrom position count draws rest

/-- **The decisions of a placement** about its candidates. -/
def decisions (rule : PlacementRule) (previouslyAssigned : UInt32) (draws : Nat)
    (candidates : List FieldTestGroup) : List (FieldTestGroup × Option UInt32) :=
  rule.decisionsFrom rule.segment.fieldTestStart previouslyAssigned draws candidates

/-- The group that a decision places: its candidate with size, language and position set. -/
def placedBy? (rule : PlacementRule) (decision : FieldTestGroup × Option UInt32) :
    Option FieldTestGroup :=
  decision.2.map (rule.placedAt decision.1)

theorem decisionsFrom_of_fits (rest : List FieldTestGroup)
    (h : rule.fits count (rule.segment.groupSize candidate.groupKey) = true) :
    rule.decisionsFrom position count draws (candidate :: rest) =
      let size := rule.segment.groupSize candidate.groupKey
      (candidate, some (addSat position (rule.offset draws size))) ::
        rule.decisionsFrom (addSat position (rule.advance size)) (count + size)
          (rule.drawsAfter draws size) rest :=
  if_pos h

theorem decisionsFrom_of_not_fits (rest : List FieldTestGroup)
    (h : rule.fits count (rule.segment.groupSize candidate.groupKey) ≠ true) :
    rule.decisionsFrom position count draws (candidate :: rest) =
      (candidate, none) :: rule.decisionsFrom position count draws rest :=
  if_neg h

/-- There is one decision about each candidate, in their order. -/
theorem map_fst_decisionsFrom :
    (rule.decisionsFrom position count draws candidates).map Prod.fst = candidates := by
  induction candidates generalizing position count draws with
  | nil => rfl
  | cons candidate rest ih =>
    by_cases hfits : rule.fits count (rule.segment.groupSize candidate.groupKey) = true
    · rw [decisionsFrom_of_fits rest hfits, List.map_cons, ih]
    · rw [decisionsFrom_of_not_fits rest hfits, List.map_cons, ih]

/-- The groups of a placement are those that the decisions place. -/
theorem filterMap_decisionsFrom :
    (rule.decisionsFrom position count draws candidates).filterMap rule.placedBy? =
      (rule.placeFrom position count draws candidates).groups := by
  induction candidates generalizing position count draws with
  | nil => rfl
  | cons candidate rest ih =>
    by_cases hfits : rule.fits count (rule.segment.groupSize candidate.groupKey) = true
    · rw [decisionsFrom_of_fits rest hfits, placeFrom_of_fits rest hfits]
      exact congrArg (rule.placedAt candidate _ :: ·) ih
    · rw [decisionsFrom_of_not_fits rest hfits, placeFrom_of_not_fits rest hfits]
      exact ih

/-- **Passed over** with items: the items that there are at the end leave no room for them. -/
theorem lt_of_passed_over
    (h : (candidate, none) ∈ rule.decisionsFrom position count draws candidates)
    (hitems : 0 < rule.segment.itemsWithKey candidate.groupKey) :
    rule.segment.fieldTestMaxItems.toNat <
      (rule.placeFrom position count draws candidates).itemCount.toNat +
        rule.segment.itemsWithKey candidate.groupKey := by
  induction candidates generalizing position count draws with
  | nil => exact absurd h List.not_mem_nil
  | cons first rest ih =>
    by_cases hfits : rule.fits count (rule.segment.groupSize first.groupKey) = true
    · rw [decisionsFrom_of_fits rest hfits] at h
      rw [placeFrom_of_fits rest hfits]
      rcases List.mem_cons.mp h with hfirst | hrest
      · cases hfirst
      · exact ih hrest
    · rw [decisionsFrom_of_not_fits rest hfits] at h
      rw [placeFrom_of_not_fits rest hfits]
      rcases List.mem_cons.mp h with hfirst | hrest
      · obtain ⟨rfl, -⟩ := Prod.mk.inj hfirst
        have hsize := toNat_groupSize rule.segment candidate.groupKey
        have hpositive : 0 < (rule.segment.groupSize candidate.groupKey).toNat :=
          hsize ▸ Nat.lt_min.mpr ⟨hitems, by decide⟩
        have hne : rule.segment.groupSize candidate.groupKey ≠ 0 :=
          UInt32.pos_iff_ne_zero.mp (UInt32.lt_iff_toNat_lt.mpr hpositive)
        -- the size that did not fit is at most the number of items
        have hlt := @lt_itemCount_placeFrom_add rule position count draws rest _ hne hfits
        omega
      · exact ih hrest

/-- **The first candidate with room** is placed. -/
theorem isSome_of_first_hasRoom (hmax : rule.segment.fieldTestMaxItems.toNat < maxCount)
    {before after : List (FieldTestGroup × Option UInt32)} {slot? : Option UInt32}
    (h : rule.decisionsFrom position count draws candidates = before ++ (candidate, slot?) :: after)
    (hbefore : ∀ decision ∈ before, ¬ rule.HasRoom count.toNat decision.1)
    (hroom : rule.HasRoom count.toNat candidate) : slot?.isSome = true := by
  induction candidates generalizing before with
  | nil => exact absurd h.symm (List.append_ne_nil_of_right_ne_nil _ (List.cons_ne_nil _ _))
  | cons first rest ih =>
    by_cases hfits : rule.fits count (rule.segment.groupSize first.groupKey) = true
    · rw [decisionsFrom_of_fits rest hfits] at h
      cases before with
      | nil =>
        obtain ⟨hfirst, -⟩ := List.cons.inj h
        rw [← (Prod.mk.inj hfirst).2]
        rfl
      | cons decision before =>
        -- a candidate before it had room as well
        obtain ⟨rfl, -⟩ := List.cons.inj h
        exact absurd ((fits_iff_hasRoom hmax).mp hfits) (hbefore _ List.mem_cons_self)
    · rw [decisionsFrom_of_not_fits rest hfits] at h
      cases before with
      | nil =>
        obtain ⟨hfirst, -⟩ := List.cons.inj h
        obtain ⟨rfl, -⟩ := Prod.mk.inj hfirst
        exact absurd ((fits_iff_hasRoom hmax).mpr hroom) hfits
      | cons decision before =>
        obtain ⟨-, hrest⟩ := List.cons.inj h
        exact ih hrest fun other hother => hbefore other (List.mem_cons_of_mem _ hother)

/-! ### What is placed -/

/-- What is placed has room in the whole budget. -/
theorem hasRoom_of_placedBy (hmax : rule.segment.fieldTestMaxItems.toNat < maxCount)
    {slot : UInt32}
    (h : (candidate, some slot) ∈ rule.decisionsFrom position count draws candidates) :
    rule.HasRoom 0 candidate := by
  induction candidates generalizing position count draws with
  | nil => exact absurd h List.not_mem_nil
  | cons first rest ih =>
    by_cases hfits : rule.fits count (rule.segment.groupSize first.groupKey) = true
    · rw [decisionsFrom_of_fits rest hfits] at h
      rcases List.mem_cons.mp h with hfirst | hrest
      · obtain ⟨rfl, -⟩ := Prod.mk.inj hfirst
        obtain ⟨hitems, hbudget⟩ := (fits_iff_hasRoom hmax).mp hfits
        exact ⟨hitems, by omega⟩
      · exact ih hrest
    · rw [decisionsFrom_of_not_fits rest hfits] at h
      rcases List.mem_cons.mp h with hfirst | hrest
      · cases hfirst
      · exact ih hrest

/-- **The count of a placed group** is the number of its items in the segment. -/
theorem toNat_itemCount_of_mem_place (hmax : rule.segment.fieldTestMaxItems.toNat < maxCount)
    {placed : FieldTestGroup} (h : placed ∈ (rule.place count draws candidates).groups) :
    0 < placed.itemCount.toNat ∧
      placed.itemCount.toNat = rule.segment.itemsWithKey placed.groupKey := by
  rw [place, ← filterMap_decisionsFrom, List.mem_filterMap] at h
  obtain ⟨⟨candidate, slot?⟩, hdecision, hplaced⟩ := h
  obtain ⟨slot, rfl, rfl⟩ := Option.map_eq_some_iff.mp hplaced
  obtain ⟨hitems, hbudget⟩ := hasRoom_of_placedBy hmax hdecision
  have hcount : (rule.placedAt candidate slot).itemCount.toNat =
      rule.segment.itemsWithKey candidate.groupKey := by
    have hsize := toNat_groupSize rule.segment candidate.groupKey
    change (rule.segment.groupSize candidate.groupKey).toNat = _
    omega
  exact ⟨hcount ▸ hitems, hcount⟩

/-- The count stays within the budget, or as it was where it was beyond the budget before. -/
theorem toNat_itemCount_place_le_max (hmax : rule.segment.fieldTestMaxItems.toNat < maxCount)
    (count : UInt32) (draws : Nat) (candidates : List FieldTestGroup) :
    (rule.place count draws candidates).itemCount.toNat ≤
      max rule.segment.fieldTestMaxItems.toNat count.toNat := by
  by_cases hnone : (rule.place count draws candidates).groups = []
  · have hcount := toNat_itemCount_place hmax count draws candidates
    rw [hnone, List.map_nil, total, Nat.add_zero] at hcount
    exact hcount ▸ Nat.le_max_right _ _
  · exact Nat.le_trans (itemCount_place_le hmax hnone) (Nat.le_max_left _ _)

/-- **First fit**, with the budget below the greatest word. There is one decision about each
candidate, in their order, and the groups are those that the decisions place, each with the number
of its items in the segment as its count. The count of all is what there was before and what is
placed, and within the budget unless it was beyond it before. The first candidate that has room
beside the items there were is placed, and beside the items there are at the end no candidate with
items that was passed over has room. -/
theorem place_firstFit (rule : PlacementRule)
    (hmax : rule.segment.fieldTestMaxItems.toNat < maxCount) (previouslyAssigned : UInt32)
    (draws : Nat) (candidates : List FieldTestGroup) :
    let placement := rule.place previouslyAssigned draws candidates
    let decisions := rule.decisions previouslyAssigned draws candidates
    decisions.map Prod.fst = candidates ∧
      placement.groups = decisions.filterMap rule.placedBy? ∧
      (∀ placed ∈ placement.groups, 0 < placed.itemCount.toNat ∧
        placed.itemCount.toNat = rule.segment.itemsWithKey placed.groupKey) ∧
      placement.itemCount.toNat =
        previouslyAssigned.toNat + total (placement.groups.map (·.itemCount)) ∧
      placement.itemCount.toNat ≤
        max rule.segment.fieldTestMaxItems.toNat previouslyAssigned.toNat ∧
      (∀ before candidate slot? after, decisions = before ++ (candidate, slot?) :: after →
        (∀ decision ∈ before, ¬ rule.HasRoom previouslyAssigned.toNat decision.1) →
          rule.HasRoom previouslyAssigned.toNat candidate → slot?.isSome = true) ∧
      ∀ candidate, (candidate, none) ∈ decisions →
        0 < rule.segment.itemsWithKey candidate.groupKey →
          rule.segment.fieldTestMaxItems.toNat <
            placement.itemCount.toNat + rule.segment.itemsWithKey candidate.groupKey := by
  intro placement decisions
  refine ⟨map_fst_decisionsFrom, filterMap_decisionsFrom.symm, fun placed hplaced => ?_,
    toNat_itemCount_place hmax previouslyAssigned draws candidates,
    toNat_itemCount_place_le_max hmax previouslyAssigned draws candidates, ?_, ?_⟩
  · exact toNat_itemCount_of_mem_place hmax hplaced
  · intro before candidate slot? after hdecisions hbefore hroom
    exact isSome_of_first_hasRoom hmax hdecisions hbefore hroom
  · intro candidate hpassed hitems
    exact lt_of_passed_over hpassed hitems

/-- The group of three items is passed over, and so is the group of one item when it comes again
after it was placed: three items are in the budget, and two groups fill it. -/
theorem place_firstFit_repeatedCandidate :
    let candidates := scatteredCandidates ++ scatteredCandidates.take 1
    let placement := scatteredRule.place 0 0 candidates
    let decisions := scatteredRule.decisions 0 0 candidates
    scatteredRule.segment.fieldTestMaxItems.toNat < maxCount ∧
      decisions.map (fun decision => (decision.1.groupKey, decision.2)) =
        [("G-a", some 2), ("G-c", none), ("G-b", some 9), ("G-a", none)] ∧
      (∃ slot, decisions.head?.bind Prod.snd = some slot) ∧
      ∀ decision ∈ decisions, decision.2 = none → 3 <
        placement.itemCount.toNat + scatteredRule.segment.itemsWithKey decision.1.groupKey := by
  intro candidates placement decisions
  have hmax : scatteredRule.segment.fieldTestMaxItems.toNat < maxCount := by decide
  obtain ⟨-, -, -, -, -, hfirst, hpassed⟩ := place_firstFit scatteredRule hmax 0 0 candidates
  refine ⟨hmax, by decide, ?_, fun decision hdecision hnone => ?_⟩
  · have hhead : decisions = [] ++ (decisions[0]!.1, decisions[0]!.2) :: decisions.tail := by
      decide
    have hroom := hfirst _ _ _ _ hhead (fun _ hmem => absurd hmem List.not_mem_nil)
      (by decide)
    rw [hhead]
    exact Option.isSome_iff_exists.mp hroom
  · have hitems : ∀ other ∈ decisions,
        0 < scatteredRule.segment.itemsWithKey other.1.groupKey := by decide
    have hmem : (decision.1, none) ∈ decisions := by
      rw [← hnone]
      exact hdecision
    exact hpassed decision.1 hmem (hitems decision hdecision)

end PlacementRule

end TestAssembly
