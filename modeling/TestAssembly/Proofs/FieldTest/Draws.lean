import Mathlib.Data.List.Forall2
import TestAssembly.Proofs.FieldTest.Placement

/-!
# What a draw decides

Placement asks the source of randomness for one thing: the offset of a group within its span. A
group of one item has no room to move, and neither has a group in a segment without intervals
(`offset_eq_zero`). Which groups are placed, how they are counted, how far the next one starts and
how many draws are taken does not depend on what is drawn (`placeFrom_drawing`). So two sources
place the same groups, and apart at most in the positions of groups of several items within
intervals (`areTwins_place`); and a source without memory places the same groups at the same
positions, whatever was drawn before (`place_of_isMemoryless`).
-/

namespace TestAssembly

/-- **A source without memory**: a draw depends on its bound alone, not on the draws before it. -/
def RandomSource.IsMemoryless (random : RandomSource) : Prop :=
  ∀ m n bound, random.draw m bound = random.draw n bound

/-- **Twins** in a segment: two placements of one group that differ at most in the position, and
there only when the group has several items and the segment is divided into intervals. -/
structure Segment.AreTwins (segment : Segment) (group other : FieldTestGroup) : Prop where
  same : other = { group with position := other.position }
  position : other.position = group.position ∨ 2 ≤ group.itemCount ∧ 0 < segment.intervalSize

section Pairs

variable {α β γ : Type} {related : α → β → Prop} {before after : List α} {others : List β}

/-- Lists that are related element by element split at the same place. -/
theorem exists_of_forall₂_append_cons {a : α}
    (h : List.Forall₂ related (before ++ a :: after) others) :
    ∃ earlier b later, others = earlier ++ b :: later ∧ List.Forall₂ related before earlier ∧
      related a b := by
  induction before generalizing others with
  | nil =>
    obtain ⟨b, later, hrelated, -, rfl⟩ := List.forall₂_cons_left_iff.mp h
    exact ⟨[], b, later, rfl, .nil, hrelated⟩
  | cons first rest ih =>
    obtain ⟨other, others, hfirst, hothers, rfl⟩ := List.forall₂_cons_left_iff.mp h
    obtain ⟨earlier, b, later, rfl, hrest, hrelated⟩ := ih hothers
    exact ⟨other :: earlier, b, later, rfl, .cons hfirst hrest, hrelated⟩

/-- What is the same for related elements is the same for the lists. -/
theorem map_eq_of_forall₂ {f : α → γ} {g : β → γ}
    (h : List.Forall₂ related before others) (hsame : ∀ a b, related a b → f a = g b) :
    before.map f = others.map g := by
  rw [← List.forall₂_eq_eq_eq, List.forall₂_map_left_iff, List.forall₂_map_right_iff]
  exact h.imp hsame

end Pairs

namespace PlacementRule

variable {rule : PlacementRule}

/-- The rule with another source of randomness. -/
def drawing (rule : PlacementRule) (random : RandomSource) (drawBound : UInt32) : PlacementRule :=
  { rule with random, drawBound }

section Drawing

variable (rule : PlacementRule) (random : RandomSource) (drawBound size : UInt32)

@[simp] theorem segment_drawing : (rule.drawing random drawBound).segment = rule.segment := rfl

@[simp] theorem advance_drawing :
    (rule.drawing random drawBound).advance size = rule.advance size := rfl

@[simp] theorem placedAt_drawing (group : FieldTestGroup) (position : UInt32) :
    (rule.drawing random drawBound).placedAt group position = rule.placedAt group position := rfl

@[simp] theorem drawsAfter_drawing (draws : Nat) :
    (rule.drawing random drawBound).drawsAfter draws size = rule.drawsAfter draws size := rfl

end Drawing

/-- **No room to move**: a group of one item, or one in a segment without intervals, stands where
its first interval starts. -/
theorem offset_eq_zero {size : UInt32} (draws : Nat) (hsize : size ≠ 0)
    (h : ¬ (2 ≤ size ∧ 0 < rule.segment.intervalSize)) : rule.offset draws size = 0 := by
  by_cases hone : size = 1
  · -- every number leaves the rest zero when it is divided by one
    have hspan : rule.span size = 1 := if_pos hone
    have hne : (1 : UInt32) ≠ 0 := by decide
    rw [offset, hspan, if_neg hne]
    exact UInt32.mod_one
  · have hinterval : rule.segment.intervalSize = 0 := by
      by_contra hne
      refine h ⟨?_, UInt32.pos_iff_ne_zero.mpr hne⟩
      have hzero : size.toNat ≠ 0 := fun heq => hsize (UInt32.toNat_inj.mp heq)
      have hother : size.toNat ≠ 1 := fun heq => hone (UInt32.toNat_inj.mp heq)
      have htwo : (2 : UInt32).toNat = 2 := rfl
      rw [UInt32.le_iff_toNat_le]
      omega
    have hspan : rule.span size = 0 := by
      rw [span, if_neg hone, hinterval, ← UInt32.toNat_inj, toNat_mulSat]
      simp
    rw [offset, if_pos hspan]

/-- Whether a group takes a draw does not depend on the draws before. -/
theorem drawsAfter_add (rule : PlacementRule) (draws others : Nat) (size : UInt32) :
    rule.drawsAfter others size + draws = rule.drawsAfter draws size + others := by
  unfold drawsAfter
  split <;> omega

/-- **Two sources side by side**: both place the same groups of the same candidates, with the same
count, and take equally many draws. What relates two placements of a single group relates the
groups of the two placements one by one. -/
theorem placeFrom_drawing {related : FieldTestGroup → FieldTestGroup → Prop}
    (random : RandomSource) (drawBound : UInt32)
    (hplaced : ∀ group position m n, rule.segment.groupSize group.groupKey ≠ 0 →
      related
        (rule.placedAt group
          (addSat position (rule.offset m (rule.segment.groupSize group.groupKey))))
        (rule.placedAt group (addSat position
          ((rule.drawing random drawBound).offset n (rule.segment.groupSize group.groupKey)))))
    (position count : UInt32) (draws others : Nat) (candidates : List FieldTestGroup) :
    let one := rule.placeFrom position count draws candidates
    let other := (rule.drawing random drawBound).placeFrom position count others candidates
    List.Forall₂ related one.groups other.groups ∧ other.itemCount = one.itemCount ∧
      other.drawsTaken + draws = one.drawsTaken + others := by
  induction candidates generalizing position count draws others with
  | nil => exact ⟨.nil, rfl, Nat.add_comm _ _⟩
  | cons group rest ih =>
    by_cases hfits : rule.fits count (rule.segment.groupSize group.groupKey) = true
    · have hother : (rule.drawing random drawBound).fits count
          ((rule.drawing random drawBound).segment.groupSize group.groupKey) = true := hfits
      rw [placeFrom_of_fits rest hfits, placeFrom_of_fits rest hother]
      simp only [segment_drawing, advance_drawing, placedAt_drawing, drawsAfter_drawing]
      obtain ⟨hgroups, hcount, hdraws⟩ := ih
        (addSat position (rule.advance (rule.segment.groupSize group.groupKey)))
        (count + rule.segment.groupSize group.groupKey)
        (rule.drawsAfter draws (rule.segment.groupSize group.groupKey))
        (rule.drawsAfter others (rule.segment.groupSize group.groupKey))
      have hstep := rule.drawsAfter_add draws others (rule.segment.groupSize group.groupKey)
      have hrelated := hplaced group position draws others (ne_zero_of_fits hfits)
      refine ⟨.cons hrelated hgroups, hcount, ?_⟩
      omega
    · have hother : (rule.drawing random drawBound).fits count
          ((rule.drawing random drawBound).segment.groupSize group.groupKey) ≠ true := hfits
      rw [placeFrom_of_not_fits rest hfits, placeFrom_of_not_fits rest hother]
      exact ih position count draws others

/-- **Two sources place twins**: the same groups, with the same count and equally many draws. -/
theorem areTwins_place (rule : PlacementRule) (random : RandomSource) (drawBound count : UInt32)
    (draws : Nat) (candidates : List FieldTestGroup) :
    let one := rule.place count draws candidates
    let other := (rule.drawing random drawBound).place count draws candidates
    List.Forall₂ rule.segment.AreTwins one.groups other.groups ∧ other.itemCount = one.itemCount ∧
      other.drawsTaken = one.drawsTaken := by
  have hplaced : ∀ group position m n, rule.segment.groupSize group.groupKey ≠ 0 →
      rule.segment.AreTwins
        (rule.placedAt group
          (addSat position (rule.offset m (rule.segment.groupSize group.groupKey))))
        (rule.placedAt group (addSat position
          ((rule.drawing random drawBound).offset n (rule.segment.groupSize group.groupKey)))) := by
    intro group position m n hsize
    refine ⟨rfl, ?_⟩
    by_cases hroom : 2 ≤ rule.segment.groupSize group.groupKey ∧ 0 < rule.segment.intervalSize
    · exact .inr hroom
    · have hone := rule.offset_eq_zero m hsize hroom
      have hother := (rule.drawing random drawBound).offset_eq_zero n hsize hroom
      rw [hone, hother]
      exact .inl rfl
  obtain ⟨hgroups, hcount, hdraws⟩ :=
    placeFrom_drawing random drawBound hplaced rule.segment.fieldTestStart count draws draws
      candidates
  exact ⟨hgroups, hcount, Nat.add_right_cancel hdraws⟩

/-- **A source without memory** places the same groups at the same positions and takes equally many
draws, whatever was drawn before. -/
theorem place_of_isMemoryless (hrandom : rule.random.IsMemoryless) (count : UInt32)
    (draws others : Nat) (candidates : List FieldTestGroup) :
    let one := rule.place count draws candidates
    let other := rule.place count others candidates
    other.groups = one.groups ∧ other.itemCount = one.itemCount ∧
      other.drawsTaken + draws = one.drawsTaken + others := by
  have hplaced : ∀ (group : FieldTestGroup) (position : UInt32) (m n : Nat),
      rule.segment.groupSize group.groupKey ≠ 0 →
      rule.placedAt group
          (addSat position (rule.offset m (rule.segment.groupSize group.groupKey))) =
        rule.placedAt group (addSat position
          ((rule.drawing rule.random rule.drawBound).offset n
            (rule.segment.groupSize group.groupKey))) := by
    intro group position m n _
    have hoffset : rule.offset m (rule.segment.groupSize group.groupKey) =
        rule.offset n (rule.segment.groupSize group.groupKey) := by
      rw [offset, offset, hrandom m n]
    rw [hoffset]
    rfl
  obtain ⟨hgroups, hcount, hdraws⟩ :=
    placeFrom_drawing rule.random rule.drawBound hplaced rule.segment.fieldTestStart count draws
      others candidates
  exact ⟨(List.forall₂_eq_eq_eq ▸ hgroups :).symm, hcount, hdraws⟩

end PlacementRule

end TestAssembly
