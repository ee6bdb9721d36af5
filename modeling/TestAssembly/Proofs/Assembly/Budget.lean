import TestAssembly.Proofs.Assembly.Accounting
import TestAssembly.Proofs.Assembly.Series

/-!
# The field-test budget over a series

The budget of a segment is for all passes of an exam together. A pass learns what is used of it from
the history (`assignedItems`), places only what fits the rest, and records with each group the items
by which it counted it. So a pass within the budget leaves a history within the budget
(`assignedItems_recorded_le`), and with a group placed the count in its record is what the history
has then (`fieldTestItemCount_eq_assignedItems`); over a series both stay true
(`log_within_budget`).
-/

namespace TestAssembly

/-! ### Items in a history -/

/-- **Assigned items**: the items of the groups that a history has for an exam in a segment. -/
def assignedItems (history : List FieldTestGroup) (exam segmentKey : String) : Nat :=
  total <| (history.filter fun g => g.examId == exam && g.segmentKey == segmentKey).map
    (·.itemCount)

/-- What a site answers with are the assigned items of its history. -/
theorem total_assigned (site : Site) (exam segmentKey : String) :
    total ((site.assigned exam segmentKey).map (·.itemCount)) =
      assignedItems site.history exam segmentKey := rfl

@[simp] theorem assignedItems_append (history more : List FieldTestGroup)
    (exam segmentKey : String) : assignedItems (history ++ more) exam segmentKey =
      assignedItems history exam segmentKey + assignedItems more exam segmentKey := by
  simp [assignedItems]

/-- Groups of another exam do not count. -/
theorem assignedItems_eq_zero {groups : List FieldTestGroup} {exam segmentKey : String}
    (h : ∀ group ∈ groups, group.examId ≠ exam) : assignedItems groups exam segmentKey = 0 := by
  have hnone : (groups.filter fun g => g.examId == exam && g.segmentKey == segmentKey) = [] :=
    List.filter_eq_nil_iff.mpr fun group hgroup => by simp [h group hgroup]
  rw [assignedItems, hnone, List.map_nil, total]

/-! ### One pass -/

/-- A record of a segment with groups counts what the history has and these groups, within the
budget. -/
theorem IsAccounted.of_groupsIn_ne_nil {site : Site} {exam : Exam} {manifest : Manifest}
    {segment : Segment} {record : ExamSegment}
    (h : IsAccounted site.environment exam manifest segment record)
    (hgroups : manifest.groupsIn record.segmentKey ≠ []) :
    record.fieldTestItemCount.toNat = assignedItems site.history exam.id record.segmentKey +
        total ((manifest.groupsIn record.segmentKey).map (·.itemCount)) ∧
      record.fieldTestItemCount.toNat ≤ segment.fieldTestMaxItems.toNat := by
  rcases h.fieldTest with ⟨-, hnil⟩ | ⟨history, hhistory, hcount, hmax⟩
  · exact absurd hnil hgroups
  · obtain ⟨-, rfl⟩ := Site.answer_eq_ok_iff.1 hhistory
    rw [total_assigned, ← h.segmentKey] at hcount
    exact ⟨hcount, hmax hgroups⟩

section Pass

variable {site : Site} {exam : Exam} {assessment : Assessment} {state : AssemblyState}
  {manifest : Manifest} (hpass : (assemble site.environment exam assessment state).1 = .ok manifest)

include hpass

/-- The groups of a manifest count for its exam, each in its segment. -/
theorem assignedItems_fieldTestGroups (segmentKey : String) :
    assignedItems manifest.fieldTestGroups exam.id segmentKey =
      total ((manifest.groupsIn segmentKey).map (·.itemCount)) := by
  have hsame : (manifest.fieldTestGroups.filter fun g =>
      g.examId == exam.id && g.segmentKey == segmentKey) = manifest.groupsIn segmentKey := by
    refine List.filter_congr fun group hgroup => ?_
    simp [(not_mem_assigned_of_assemble_ok hpass hgroup).1]
  rw [assignedItems, hsame]

variable (hkeys : (assessment.segments.map (·.key)).Nodup)
  (hmax : ∀ segment ∈ assessment.segments, segment.fieldTestMaxItems.toNat < maxCount)
  (hbudget : ∀ segment ∈ assessment.segments,
    assignedItems site.history exam.id segment.key ≤ segment.fieldTestMaxItems.toNat)

include hkeys hmax hbudget

/-- A pass within the budget leaves every record accounted for. -/
theorem forall₂_isAccounted_of_budget :
    List.Forall₂ (IsAccounted site.environment exam manifest) assessment.inOrder
      manifest.segments := by
  refine forall₂_isAccounted hpass hkeys hmax fun segment hsegment history hhistory => ?_
  obtain ⟨-, rfl⟩ := Site.answer_eq_ok_iff.1 hhistory
  have hword : maxCount < countBound := by decide
  rw [total_assigned]
  have hused := hbudget segment hsegment
  have hless := hmax segment hsegment
  omega

/-- **The count** of a record with groups is what the history has once they are recorded. -/
theorem fieldTestItemCount_eq_assignedItems {record : ExamSegment}
    (hrecord : record ∈ manifest.segments) (hgroups : manifest.groupsIn record.segmentKey ≠ []) :
    record.fieldTestItemCount.toNat =
      assignedItems (site.history ++ manifest.fieldTestGroups) exam.id record.segmentKey := by
  obtain ⟨segment, -, h⟩ :=
    exists_left_of_mem (forall₂_isAccounted_of_budget hpass hkeys hmax hbudget) hrecord
  rw [assignedItems_append, assignedItems_fieldTestGroups hpass]
  exact (h.of_groupsIn_ne_nil hgroups).1

/-- **The budget** is kept when the groups of a pass are recorded. -/
theorem assignedItems_recorded_le {segment : Segment} (hsegment : segment ∈ assessment.segments) :
    assignedItems (site.history ++ manifest.fieldTestGroups) exam.id segment.key ≤
      segment.fieldTestMaxItems.toNat := by
  obtain ⟨record, -, h⟩ := exists_right_of_mem
    (forall₂_isAccounted_of_budget hpass hkeys hmax hbudget)
    (assessment.inOrder_perm.mem_iff.mpr hsegment)
  rw [assignedItems_append, assignedItems_fieldTestGroups hpass, ← h.segmentKey]
  -- without groups the history gains nothing here; with groups it now has what the record counts
  by_cases hgroups : manifest.groupsIn record.segmentKey = []
  · rw [hgroups, h.segmentKey]
    exact hbudget segment hsegment
  · obtain ⟨hcount, hle⟩ := h.of_groupsIn_ne_nil hgroups
    omega

end Pass

/-! ### A series -/

section Series

variable {assessment : Assessment} {exam : String} {history : List FieldTestGroup}

/-- **Within the budget**: what a history has for an exam fits the budget of every segment. -/
def IsWithinBudget (assessment : Assessment) (exam : String) (history : List FieldTestGroup) :
    Prop :=
  ∀ segment ∈ assessment.segments,
    assignedItems history exam segment.key ≤ segment.fieldTestMaxItems.toNat

variable (hkeys : (assessment.segments.map (·.key)).Nodup)
  (hmax : ∀ segment ∈ assessment.segments, segment.fieldTestMaxItems.toNat < maxCount)

include hkeys hmax

/-- A turn at the assessment, for whatever exam, keeps the budget of an exam. -/
theorem IsWithinBudget.recorded (h : IsWithinBudget assessment exam history) {turn : Turn}
    (hturn : turn.assessment = assessment) (state : AssemblyState) :
    IsWithinBudget assessment exam (turn.entry history state).recorded.history := by
  subst hturn
  intro segment hsegment
  rw [Turn.history_recorded]
  by_cases hexam : turn.exam.id = exam
  · subst hexam
    cases hpass : (turn.entry history state).result with
    | error e =>
      rw [Entry.placed_of_error hpass, List.append_nil]
      exact h segment hsegment
    | ok manifest =>
      rw [Entry.placed_of_ok hpass]
      rw [Turn.result_entry] at hpass
      exact assignedItems_recorded_le hpass hkeys hmax h hsegment
  · have hnone : assignedItems (turn.entry history state).placed exam segment.key = 0 := by
      refine assignedItems_eq_zero fun group hgroup => ?_
      obtain ⟨manifest, hpass, hgroup⟩ := Entry.mem_placed.1 hgroup
      rw [(not_mem_assigned_of_assemble_ok hpass hgroup).1]
      exact hexam
    rw [assignedItems_append, hnone]
    exact h segment hsegment

end Series

/-- **The budget over a series** of passes at one assessment: once the history of an exam is within
the budget it stays there, and whenever a pass for the exam placed a group in a segment, the record
counts just what the history has after it. -/
theorem log_within_budget {assessment : Assessment} {exam : String} {history : List FieldTestGroup}
    {turns : List Turn} (hkeys : (assessment.segments.map (·.key)).Nodup)
    (hmax : ∀ segment ∈ assessment.segments, segment.fieldTestMaxItems.toNat < maxCount)
    (hhistory : IsWithinBudget assessment exam history)
    (hturns : ∀ turn ∈ turns, turn.assessment = assessment) (state : AssemblyState) :
    ∀ entry ∈ log history state turns,
      IsWithinBudget assessment exam entry.recorded.history ∧
      ∀ manifest, entry.result = .ok manifest → entry.exam.id = exam →
        ∀ record ∈ manifest.segments, manifest.groupsIn record.segmentKey ≠ [] →
          record.fieldTestItemCount.toNat =
            assignedItems entry.recorded.history exam record.segmentKey := by
  intro entry hentry
  obtain ⟨turn, hturn, before, start, hbefore, rfl⟩ :=
    log_keeps (IsWithinBudget assessment exam)
      (fun turn hturn _ state h => h.recorded hkeys hmax (hturns turn hturn) state) hhistory hentry
  refine ⟨hbefore.recorded hkeys hmax (hturns turn hturn) start, ?_⟩
  rintro manifest hpass rfl record hrecord hgroups
  obtain rfl := hturns turn hturn
  rw [Turn.history_recorded, Entry.placed_of_ok hpass]
  rw [Turn.result_entry] at hpass
  exact fieldTestItemCount_eq_assignedItems hpass hkeys hmax hbefore hrecord hgroups

/-- A turn for an exam at the assessment with two groups of one key. -/
def sharedKeyTurn : Turn :=
  ⟨Site.opened default default default, Fixture.exam "EX", sharedKeyAssessment⟩

/-- **Two passes** of an exam place one group each and use up the budget of the segment. -/
theorem log_within_budget_sharedKeyTurn :
    ∃ first second, log [] .initial [sharedKeyTurn, sharedKeyTurn] = [first, second] ∧
      first.placed.map (·.groupId) = ["g2"] ∧ second.placed.map (·.groupId) = ["g3"] ∧
      assignedItems second.recorded.history "EX" "SEG" = 4 ∧
      IsWithinBudget sharedKeyAssessment "EX" second.recorded.history ∧
      ∃ manifest, second.result = .ok manifest ∧
        ∀ record ∈ manifest.segments, record.fieldTestItemCount.toNat =
          assignedItems second.recorded.history "EX" record.segmentKey := by
  obtain ⟨first, second, hlog⟩ : ∃ first second,
      log [] .initial [sharedKeyTurn, sharedKeyTurn] = [first, second] := ⟨_, _, rfl⟩
  have hrun : (log [] .initial [sharedKeyTurn, sharedKeyTurn]).map (fun entry =>
      (entry.placed.map (·.groupId), assignedItems entry.recorded.history "EX" "SEG",
        entry.exam.id)) = [(["g2"], 2, "EX"), (["g3"], 4, "EX")] := by
    decide +kernel
  have hgroups : (log [] .initial [sharedKeyTurn, sharedKeyTurn]).map (fun entry =>
      entry.result.toOption.map fun manifest =>
        manifest.segments.all fun record => !(manifest.groupsIn record.segmentKey).isEmpty) =
          [some true, some true] := by
    decide +kernel
  rw [hlog] at hrun hgroups
  simp only [List.map_cons, List.map_nil, List.cons.injEq, Prod.mk.injEq, and_true] at hrun hgroups
  obtain ⟨⟨hfirst, -, -⟩, hsecond, hcount, hexam⟩ := hrun
  have hentry : second ∈ log [] .initial [sharedKeyTurn, sharedKeyTurn] := by simp [hlog]
  have hempty : IsWithinBudget sharedKeyAssessment "EX" [] := fun _ _ => Nat.zero_le _
  obtain ⟨hwithin, hcounts⟩ := log_within_budget (by decide) (by decide) hempty
    (by simp [sharedKeyTurn]) _ second hentry
  refine ⟨first, second, hlog, hfirst, hsecond, hcount, hwithin, ?_⟩
  cases hresult : second.result with
  | error e => simp [hresult, Except.toOption] at hgroups
  | ok manifest =>
    have hall := hgroups.2
    simp only [hresult, Except.toOption, Option.map_some, Option.some.injEq, List.all_eq_true,
      Bool.not_eq_true', List.isEmpty_eq_false_iff] at hall
    exact ⟨manifest, rfl, fun record hrecord =>
      hcounts manifest hresult hexam record hrecord (hall record hrecord)⟩

end TestAssembly
