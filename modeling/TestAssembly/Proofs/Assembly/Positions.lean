import TestAssembly.Proofs.Assembly.Picks
import TestAssembly.Proofs.Assembly.Series
import TestAssembly.Proofs.FieldTest.Positions

/-!
# Positions over a series

A pass places its groups in a segment from the start of the field-test range on, whatever the passes
before it placed there: of earlier groups it knows only how many items they have. So positions are
told apart pass by pass. Within a pass they ascend strictly and stay in the range
(`log_positions_ascend`); two passes may well come to the same one (`position_repeatedTurn`).
-/

namespace TestAssembly

/-- **The groups of a segment in a pass** that succeeds stand one behind the other from the start of
the range, and within it. -/
theorem standFrom_groupsIn {env : Environment} {exam : Exam} {assessment : Assessment}
    {state : AssemblyState} {manifest : Manifest}
    (hpass : (assemble env exam assessment state).1 = .ok manifest)
    (hkeys : (assessment.segments.map (·.key)).Nodup) (hledger : state.usage.IsOrderly)
    {segment : Segment} (hsegment : segment ∈ assessment.segments)
    (hinterval : 0 < segment.intervalSize)
    (hword : segment.fieldTestMaxItems.toNat < maxCount ∨ segment.items.length ≤ maxCount) :
    StandFrom segment.intervalSize.toNat segment.fieldTestStart.toNat
        (manifest.groupsIn segment.key) ∧
      ∀ group ∈ manifest.groupsIn segment.key, ∃ slot, group.position = some slot ∧
        segment.fieldTestStart ≤ slot ∧ slot < segment.fieldTestEnd := by
  obtain ⟨accommodations, -, hplaced⟩ := exists_placement_of_assemble_ok hpass hkeys
  obtain ⟨record, -, -, count, draws, placement, rfl, hgroups, -⟩ := hplaced segment hsegment
  have hpicked := @nodup_groupKey_pick env exam assessment accommodations segment _ hledger
  -- the rule places in this segment, whatever else it says
  have hrule : (seedingRule env exam segment).segment = segment := rfl
  generalize seedingRule env exam segment = rule at hgroups hrule
  subst hrule
  have htotal := @PlacementRule.total_place_le rule count draws _ hword hpicked
  rw [hgroups]
  exact ⟨PlacementRule.standFrom_place hinterval htotal,
    fun group hgroup => PlacementRule.exists_position_of_mem_place hinterval htotal hgroup⟩

/-- **Positions in a series** from a state that claims can lead to. In every segment that is divided
into intervals, the groups that one pass places have positions that ascend strictly, from the start
of the range on and within it. The one exception are segments with the greatest word as a budget and
more items than a word can count. -/
theorem log_positions_ascend {state : AssemblyState} {turns : List Turn}
    (hledger : state.usage.IsOrderly)
    (hkeys : ∀ turn ∈ turns, (turn.assessment.segments.map (·.key)).Nodup)
    (history : List FieldTestGroup) :
    ∀ entry ∈ log history state turns, ∀ segment ∈ entry.assessment.segments,
      0 < segment.intervalSize →
      (segment.fieldTestMaxItems.toNat < maxCount ∨ segment.items.length ≤ maxCount) →
      let groups := entry.placed.filter (·.segmentKey == segment.key)
      StandFrom segment.intervalSize.toNat segment.fieldTestStart.toNat groups ∧
      (groups.Pairwise fun first second => ∃ slot later, first.position = some slot ∧
        second.position = some later ∧ slot < later) ∧
      ∀ group ∈ groups, ∃ slot, group.position = some slot ∧
        segment.fieldTestStart ≤ slot ∧ slot < segment.fieldTestEnd := by
  intro entry hentry segment hsegment hinterval hword groups
  obtain ⟨turn, hturn, before, start, hstart, rfl⟩ :=
    log_keeps_state (fun _ state => state.usage.IsOrderly)
      (fun _ _ _ _ h => isOrderly_assemble h) hledger hentry
  have hstand : StandFrom segment.intervalSize.toNat segment.fieldTestStart.toNat groups ∧
      ∀ group ∈ groups, ∃ slot, group.position = some slot ∧
        segment.fieldTestStart ≤ slot ∧ slot < segment.fieldTestEnd := by
    cases hpass : (turn.entry before start).result with
    | error e =>
      have hnone : groups = [] := by simp [groups, Entry.placed_of_error hpass]
      simp [hnone, StandFrom.nil]
    | ok manifest =>
      have hgroups : groups = manifest.groupsIn segment.key := by
        simp only [groups, Entry.placed_of_ok hpass, Manifest.groupsIn]
      rw [Turn.result_entry] at hpass
      rw [hgroups]
      exact standFrom_groupsIn hpass (hkeys turn hturn) hstart hsegment hinterval hword
  exact ⟨hstand.1, hstand.1.pairwise (UInt32.lt_iff_toNat_lt.mp hinterval), hstand.2⟩

/-- A turn for an exam at an assessment with four field-test groups, one of them of two items, two
of which are wanted in a pass. -/
def repeatedTurn : Turn where
  site := Site.opened default default (.script [1])
  exam := Fixture.exam "EX"
  assessment := Fixture.assessment
    [Fixture.buildSegment "SEG" .adaptive
      [.maxItems 1, .fieldTestRange 1 17, .fieldTestItems 2 8, .strand "Reading" 0 (some 0.5),
        .items [Fixture.item "i1", Fixture.buildItem "i2" [.group "g2", .fieldTest],
          Fixture.buildItem "i3" [.group "g3", .fieldTest],
          Fixture.buildItem "i4" [.group "g3", .fieldTest],
          Fixture.buildItem "i5" [.group "g4", .fieldTest],
          Fixture.buildItem "i6" [.group "g5", .fieldTest]]]]

/-- A group that such a turn places. -/
def repeatedGroup (groupId : String) (itemCount position : UInt32) : FieldTestGroup :=
  { examId := "EX"
    sessionId := "session-1"
    segmentKey := "SEG"
    segmentId := "SEG"
    groupKey := "G-" ++ groupId
    groupId
    blockId := "A"
    itemCount
    languageCode := some "ENU"
    position := some position }

theorem placed_repeatedTurn :
    (log [] .initial [repeatedTurn, repeatedTurn]).map (·.placed) =
      [[repeatedGroup "g2" 1 1, repeatedGroup "g3" 2 4],
        [repeatedGroup "g4" 1 1, repeatedGroup "g5" 1 3]] := by
  have horder : repeatedTurn.assessment.inOrder = [repeatedTurn.assessment.segments.head!] :=
    Assessment.inOrder_of_pairwise (by decide)
  -- the counters are sorted by insertion, so that the run can be computed
  simp only [log, Turn.entry, Turn.pass, assemble, horder, assembleSegments, assembleAdaptive, seed,
    SelectionRequest.select, Ledger.claim, leastUsedFirst_eq_insertionSort]
  decide

/-- **The same position twice**: a second pass for the exam starts at the position of the first, so
of the groups recorded for one exam and one segment two have the same position. -/
theorem position_repeatedTurn :
    (repeatedTurn.assessment.segments.map (·.key)).Nodup ∧
      (∀ segment ∈ repeatedTurn.assessment.segments, 0 < segment.intervalSize) ∧
      ¬ ((log [] .initial [repeatedTurn, repeatedTurn]).flatMap (·.placed)).Pairwise
        fun one other => one.examId = other.examId ∧ one.segmentKey = other.segmentKey →
          one.position ≠ other.position := by
  refine ⟨by decide, by decide, ?_⟩
  rw [List.flatMap_def, placed_repeatedTurn]
  decide

/-- **Two passes** for an exam, each with two groups in ascending positions from the start on. -/
theorem log_positions_ascend_repeatedTurn :
    AssemblyState.initial.usage.IsOrderly ∧
      ∀ entry ∈ log [] .initial [repeatedTurn, repeatedTurn],
        let groups := entry.placed.filter (·.segmentKey == "SEG")
        groups.length = 2 ∧ StandFrom 2 1 groups ∧
          groups.Pairwise fun first second => ∃ slot later, first.position = some slot ∧
            second.position = some later ∧ slot < later := by
  refine ⟨Ledger.isOrderly_empty, fun entry hentry => ?_⟩
  have hlength : (entry.placed.filter (·.segmentKey == "SEG")).length = 2 := by
    have hplaced := List.mem_map_of_mem (f := Entry.placed) hentry
    rw [placed_repeatedTurn] at hplaced
    generalize entry.placed = placed at hplaced
    revert placed
    decide
  obtain ⟨turn, hturn, before, start, -, rfl⟩ := log_keeps (fun _ => True) (by simp) trivial hentry
  obtain rfl : turn = repeatedTurn := by simpa using hturn
  obtain ⟨hstand, hascend, -⟩ := log_positions_ascend Ledger.isOrderly_empty (by decide) [] _ hentry
    _ List.mem_cons_self (by decide) (by decide)
  exact ⟨hlength, hstand, hascend⟩

end TestAssembly
