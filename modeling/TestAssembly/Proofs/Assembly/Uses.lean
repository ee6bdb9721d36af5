import Mathlib.Algebra.GroupWithZero.Nat
import TestAssembly.Proofs.Assembly.Picks

/-!
# Uses and placed groups

A use is counted when a group is picked, before it is known whether there is room for it. So a
counter has two parts: the groups that were placed, and the picks that were passed over
(`uses_eq_of_run`). In one pass a key is picked at most once and placed at most once in a segment,
and only what was picked is placed (`count_add_passesOver_eq`); a run adds this up.

A pick is passed over only for want of room: its items and those that the record counts are together
more than the segment may have. Then it is counted and in no manifest (`uses_pairPass`).
-/

namespace TestAssembly

/-! ### Runs -/

/-- **A pass that succeeded**: where and for what it was made, the state before it and its
manifest. -/
structure SuccessfulPass where
  env : Environment
  exam : Exam
  assessment : Assessment
  before : AssemblyState
  manifest : Manifest

namespace SuccessfulPass

/-- The state after a pass. -/
def after (pass : SuccessfulPass) : AssemblyState :=
  (assemble pass.env pass.exam pass.assessment pass.before).2

/-- **Runs** of passes that succeed, each in the state that the one before it left. -/
inductive Run : AssemblyState → List SuccessfulPass → AssemblyState → Prop
  | nil {state : AssemblyState} : Run state [] state
  | cons {pass : SuccessfulPass} {rest : List SuccessfulPass} {last : AssemblyState}
      (hpass : (assemble pass.env pass.exam pass.assessment pass.before).1 = .ok pass.manifest)
      (hrest : Run pass.after rest last) : Run pass.before (pass :: rest) last

/-- The keys that a pass picks for a segment. -/
def picked (pass : SuccessfulPass) (segmentKey : String) : List String :=
  pickedKeys pass.env pass.exam pass.assessment pass.before.usage segmentKey

/-- **How often a group is in the manifest** of a pass, under the key of a segment. -/
def count (pass : SuccessfulPass) (segmentKey groupKey : String) : Nat :=
  pass.manifest.fieldTestGroups.countP fun group =>
    group.segmentKey == segmentKey && group.groupKey == groupKey

/-- **Passed over**: the key is picked for the segment, and the manifest has no such group. -/
def passesOver (pass : SuccessfulPass) (segmentKey groupKey : String) : Bool :=
  (pass.picked segmentKey).contains groupKey && pass.count segmentKey groupKey == 0

/-! ### One pass -/

/-- Groups of a segment and a key are counted among those of the segment. -/
theorem count_eq (pass : SuccessfulPass) (segmentKey groupKey : String) :
    pass.count segmentKey groupKey =
      ((pass.manifest.groupsIn segmentKey).map (·.groupKey)).count groupKey := by
  rw [count, Manifest.groupsIn, List.count, List.countP_map, List.countP_filter]
  exact List.countP_congr fun group _ => by simp [and_comm]

section Succeeded

variable {pass : SuccessfulPass}
  (hpass : (assemble pass.env pass.exam pass.assessment pass.before).1 = .ok pass.manifest)
  (hkeys : (pass.assessment.segments.map (·.key)).Nodup)

include hpass hkeys

/-- What is placed in a segment was picked for it, in this order. -/
theorem groupKey_groupsIn_sublist (segmentKey : String) :
    ((pass.manifest.groupsIn segmentKey).map (·.groupKey)).Sublist (pass.picked segmentKey) := by
  by_cases hsegment : segmentKey ∈ pass.assessment.segments.map (·.key)
  · obtain ⟨accommodations, haccommodations, hplaced⟩ := exists_placement_of_assemble_ok hpass hkeys
    obtain ⟨segment, hmem, rfl⟩ := List.mem_map.mp hsegment
    obtain ⟨-, -, -, count, draws, placement, rfl, hgroups, -⟩ := hplaced segment hmem
    rw [hgroups, picked, pickedKeys_of_mem haccommodations hkeys hmem]
    exact PlacementRule.groupKey_place_sublist _ count draws _
  · -- a group of the manifest is for one of the segments
    have hnone : pass.manifest.groupsIn segmentKey = [] := by
      refine List.filter_eq_nil_iff.mpr fun group hgroup hkey => hsegment ?_
      obtain ⟨-, -, segment, hmem, hsame, -⟩ :=
        (Seeds.group hpass hgroup (beq_iff_eq.mp hkey)).hasSeedable
      exact List.mem_map.mpr ⟨segment, hmem, hsame⟩
    rw [hnone]
    exact List.nil_sublist _

/-- **A pick is placed or passed over**, and nothing else is placed. -/
theorem count_add_passesOver_eq (hledger : pass.before.usage.IsOrderly)
    (segmentKey groupKey : String) :
    (pass.count segmentKey groupKey + if pass.passesOver segmentKey groupKey then 1 else 0) =
      if groupKey ∈ pass.picked segmentKey then 1 else 0 := by
  have hsub := groupKey_groupsIn_sublist hpass hkeys segmentKey
  have hnodup : ((pass.manifest.groupsIn segmentKey).map (·.groupKey)).Nodup :=
    (nodup_pickedKeys hledger segmentKey).sublist hsub
  have hcount := pass.count_eq segmentKey groupKey
  by_cases hpicked : groupKey ∈ pass.picked segmentKey
  · by_cases hplaced : groupKey ∈ (pass.manifest.groupsIn segmentKey).map (·.groupKey)
    · rw [List.count_eq_one_of_mem hnodup hplaced] at hcount
      simp [passesOver, hpicked, hcount]
    · rw [List.count_eq_zero_of_not_mem hplaced] at hcount
      simp [passesOver, hpicked, hcount]
  · rw [List.count_eq_zero_of_not_mem (mt (hsub.subset ·) hpicked)] at hcount
    simp [passesOver, hpicked, hcount]

/-- **Why a pick is passed over**: the segment may not have its items beside those that the record
counts. -/
theorem exists_lt_of_passesOver {segmentKey groupKey : String}
    (h : pass.passesOver segmentKey groupKey = true) :
    ∃ segment ∈ pass.assessment.segments, segment.key = segmentKey ∧
      ∃ record ∈ pass.manifest.segments, record.segmentKey = segmentKey ∧
        segment.fieldTestMaxItems.toNat <
          record.fieldTestItemCount.toNat + (segment.groupSize groupKey).toNat := by
  obtain ⟨hpicked, hcount⟩ : groupKey ∈ pass.picked segmentKey ∧
      pass.count segmentKey groupKey = 0 := by
    simpa [passesOver] using h
  rw [count_eq, List.count_eq_zero] at hcount
  by_cases hsegment : segmentKey ∈ pass.assessment.segments.map (·.key)
  · obtain ⟨accommodations, haccommodations, hplaced⟩ := exists_placement_of_assemble_ok hpass hkeys
    obtain ⟨segment, hmem, rfl⟩ := List.mem_map.mp hsegment
    obtain ⟨record, hrecord, hkey, count, draws, placement, rfl, hgroups, hitems⟩ :=
      hplaced segment hmem
    rw [picked, pickedKeys_of_mem haccommodations hkeys hmem] at hpicked
    obtain ⟨group, hgroup, rfl⟩ := List.mem_map.mp hpicked
    refine ⟨segment, hmem, rfl, record, hrecord, hkey, ?_⟩
    rw [hitems]
    rcases @PlacementRule.exists_mem_place_or_lt (seedingRule pass.env pass.exam segment) _ count
      draws group hgroup (groupSize_ne_zero_of_mem_pick hgroup) with ⟨slot, hslot⟩ | hlt
    · rw [← hgroups] at hslot
      exact absurd (List.mem_map.mpr ⟨_, hslot, rfl⟩) hcount
    · exact hlt
  · rw [picked, pickedKeys_of_not_mem hsegment] at hpicked
    exact absurd hpicked List.not_mem_nil

/-- **What a pass counts** for a group in a segment: what it places there, and the pick that it
passes over. -/
theorem uses_after (hledger : pass.before.usage.IsOrderly) (segmentKey groupKey : String) :
    pass.after.usage.uses segmentKey groupKey = pass.before.usage.uses segmentKey groupKey +
      (pass.count segmentKey groupKey +
        if pass.passesOver segmentKey groupKey then 1 else 0) := by
  rw [count_add_passesOver_eq hpass hkeys hledger]
  exact uses_assemble hpass hkeys hledger segmentKey groupKey

end Succeeded

/-! ### Runs of passes -/

/-- **What a run counts**: one use for each group in a manifest, and one for each pick passed
over. -/
theorem uses_of_run {passes : List SuccessfulPass} {state last : AssemblyState}
    (hrun : Run state passes last)
    (hkeys : ∀ pass ∈ passes, (pass.assessment.segments.map (·.key)).Nodup)
    (hledger : state.usage.IsOrderly) (segmentKey groupKey : String) :
    last.usage.uses segmentKey groupKey = state.usage.uses segmentKey groupKey +
      ((passes.map (·.count segmentKey groupKey)).sum +
        passes.countP (·.passesOver segmentKey groupKey)) := by
  induction hrun with
  | nil => simp
  | @cons pass rest last hpass _ ih =>
    have hfirst := hkeys pass List.mem_cons_self
    have hafter : pass.after.usage.IsOrderly := isOrderly_assemble hledger
    rw [ih (fun later hlater => hkeys later (List.mem_cons_of_mem _ hlater)) hafter,
      uses_after hpass hfirst hledger, List.map_cons, List.sum_cons, List.countP_cons]
    omega

/-- Every pass of a run succeeded. -/
theorem Run.assemble_eq_ok {passes : List SuccessfulPass} {state last : AssemblyState}
    (hrun : Run state passes last) {pass : SuccessfulPass} (hmem : pass ∈ passes) :
    (assemble pass.env pass.exam pass.assessment pass.before).1 = .ok pass.manifest := by
  induction hrun with
  | nil => simp at hmem
  | cons hpass _ ih =>
    rcases List.mem_cons.mp hmem with rfl | hmem
    · exact hpass
    · exact ih hmem

/-- **Uses and placed groups.** After a run of passes that succeeded from the start, the uses of a
group in a segment are the groups in the manifests and the picks that were passed over; so they are
just the groups when no pass passed it over. A pick is passed over only where the budget of the
segment has no room for it beside the items counted. -/
theorem uses_eq_of_run {passes : List SuccessfulPass} {last : AssemblyState}
    (hrun : Run .initial passes last)
    (hkeys : ∀ pass ∈ passes, (pass.assessment.segments.map (·.key)).Nodup)
    (segmentKey groupKey : String) :
    let groups := passes.flatMap (·.manifest.fieldTestGroups)
    let placed := groups.countP fun group =>
      group.segmentKey == segmentKey && group.groupKey == groupKey
    last.usage.uses segmentKey groupKey =
        placed + passes.countP (·.passesOver segmentKey groupKey) ∧
      (last.usage.uses segmentKey groupKey = placed ↔
        ∀ pass ∈ passes, pass.passesOver segmentKey groupKey = false) ∧
      ∀ pass ∈ passes, pass.passesOver segmentKey groupKey = true →
        ∃ segment ∈ pass.assessment.segments, segment.key = segmentKey ∧
          ∃ record ∈ pass.manifest.segments, record.segmentKey = segmentKey ∧
            segment.fieldTestMaxItems.toNat <
              record.fieldTestItemCount.toNat + (segment.groupSize groupKey).toNat := by
  intro groups placed
  have hplaced : placed = (passes.map (·.count segmentKey groupKey)).sum := List.countP_flatMap
  have huses : last.usage.uses segmentKey groupKey =
      placed + passes.countP (·.passesOver segmentKey groupKey) := by
    rw [hplaced]
    exact (uses_of_run hrun hkeys Ledger.isOrderly_empty segmentKey groupKey).trans
      (Nat.zero_add _)
  refine ⟨huses, ?_, fun pass hmem => exists_lt_of_passesOver (hrun.assemble_eq_ok hmem)
    (hkeys pass hmem)⟩
  rw [huses, Nat.add_eq_left, List.countP_eq_zero]
  simp

/-! ### A pick passed over -/

/-- An assessment with a group of one item and a group of two, two field-test items wanted and so
many allowed. -/
def pairAssessment (budget : UInt32) : Assessment :=
  Fixture.assessment
    [Fixture.buildSegment "SEG" .adaptive
      [.maxItems 1, .fieldTestRange 1 9, .fieldTestItems 2 budget, .strand "Reading" 0 (some 0.5),
        .items [Fixture.item "i1", Fixture.buildItem "i2" [.group "g2", .fieldTest],
          Fixture.buildItem "i3" [.group "g3", .fieldTest],
          Fixture.buildItem "i4" [.group "g3", .fieldTest]]]]

/-- A pass for an exam without a history at such an assessment. -/
def pairPass (exam : String) (budget : UInt32) (before : AssemblyState) : SuccessfulPass :=
  { env := plainServices
    exam := Fixture.exam exam
    assessment := pairAssessment budget
    before
    manifest :=
      (assemble plainServices (Fixture.exam exam) (pairAssessment budget) before).1.toOption.getD
        default }

/-- What such a pass returns is its manifest, if there is a group in it. -/
theorem assemble_pairPass {exam : String} {budget : UInt32} {before : AssemblyState}
    (h : (pairPass exam budget before).manifest.fieldTestGroups.length ≠ 0) :
    (assemble plainServices (Fixture.exam exam) (pairAssessment budget) before).1 =
      .ok (pairPass exam budget before).manifest := by
  unfold pairPass at h ⊢
  dsimp only at h ⊢
  cases hresult : (assemble plainServices (Fixture.exam exam) (pairAssessment budget) before).1 with
  | error e => exact absurd (by rw [hresult]; rfl) h
  | ok manifest => rfl

/-- The first of two passes has room for two field-test items only, the second one for three. -/
theorem run_pairPass :
    let first := pairPass "EX" 2 .initial
    let second := pairPass "EY" 3 first.after
    Run .initial [first] first.after ∧ Run .initial [first, second] second.after ∧
      first.count "SEG" "G-g3" = 0 ∧ second.count "SEG" "G-g3" = 1 ∧
      first.after.usage.uses "SEG" "G-g3" = 1 ∧ second.after.usage.uses "SEG" "G-g3" = 2 := by
  intro first second
  have horder : (pairAssessment 2).inOrder = [(pairAssessment 2).segments.head!] :=
    Assessment.inOrder_of_pairwise (by decide)
  have horder' : (pairAssessment 3).inOrder = [(pairAssessment 3).segments.head!] :=
    Assessment.inOrder_of_pairwise (by decide)
  obtain ⟨hlength, hlength', hcomputed⟩ : first.manifest.fieldTestGroups.length ≠ 0 ∧
      second.manifest.fieldTestGroups.length ≠ 0 ∧
      first.count "SEG" "G-g3" = 0 ∧ second.count "SEG" "G-g3" = 1 ∧
      first.after.usage.uses "SEG" "G-g3" = 1 ∧ second.after.usage.uses "SEG" "G-g3" = 2 := by
    -- the counters are sorted by insertion, so that the run can be computed
    simp only [first, second, pairPass, after, count, assemble, horder, horder', assembleSegments,
      assembleAdaptive, seed, SelectionRequest.select, Ledger.claim,
      leastUsedFirst_eq_insertionSort]
    decide
  have hsecond : Run second.before [second] second.after :=
    .cons (assemble_pairPass hlength') .nil
  exact ⟨@Run.cons first [] _ (assemble_pairPass hlength) .nil,
    @Run.cons first [second] _ (assemble_pairPass hlength) hsecond, hcomputed⟩

/-- **A use without a group**: the exam has no history, the pass succeeds and counts a use of a
group that its manifest does not have. -/
theorem uses_pairPass :
    ∃ pass, Run .initial [pass] pass.after ∧
      (pass.assessment.segments.map (·.key)).Nodup ∧
      pass.env.history pass.exam.id "SEG" = .ok [] ∧
      pass.after.usage.uses "SEG" "G-g3" = 1 ∧
      (pass.manifest.fieldTestGroups.countP fun group =>
        group.segmentKey == "SEG" && group.groupKey == "G-g3") = 0 := by
  obtain ⟨hrun, -, hcount, -, huses, -⟩ := run_pairPass
  exact ⟨pairPass "EX" 2 .initial, hrun, by decide, rfl, huses, hcount⟩

/-- **Two exams in a row**: the second one gets the group that the first one had no room for, so
that it is used twice, once without a place. -/
theorem uses_eq_of_run_pairPass :
    let first := pairPass "EX" 2 .initial
    let second := pairPass "EY" 3 first.after
    Run .initial [first, second] second.after ∧
      (∀ pass ∈ [first, second], (pass.assessment.segments.map (·.key)).Nodup) ∧
      second.after.usage.uses "SEG" "G-g3" = 1 + 1 ∧
      first.count "SEG" "G-g3" + second.count "SEG" "G-g3" = 1 ∧
      [first, second].countP (·.passesOver "SEG" "G-g3") = 1 := by
  intro first second
  obtain ⟨-, hrun, hcount, hcount', -, huses⟩ := run_pairPass
  have hfirst : first.count "SEG" "G-g3" = 0 := hcount
  have hsecond : second.count "SEG" "G-g3" = 1 := hcount'
  have hkeys : ∀ pass ∈ [first, second], (pass.assessment.segments.map (·.key)).Nodup := by
    simp only [List.forall_mem_cons]
    exact ⟨by decide, by decide, List.forall_mem_nil _⟩
  have hsum := (uses_eq_of_run hrun hkeys "SEG" "G-g3").1
  have hplaced : ([first, second].flatMap (·.manifest.fieldTestGroups)).countP (fun group =>
      group.segmentKey == "SEG" && group.groupKey == "G-g3") = 0 + 1 := by
    rw [List.countP_flatMap, ← hfirst, ← hsecond]
    rfl
  rw [hplaced, huses] at hsum
  exact ⟨hrun, hkeys, huses, by rw [hfirst, hsecond], Nat.add_left_cancel hsum.symm⟩

end SuccessfulPass

end TestAssembly
