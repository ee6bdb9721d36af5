import TestAssembly.Proofs.Assembly.Draft

/-!
# Series of passes

In a series passes follow one another in one state, for any exams, at any assessments and at sites
that change between them. What a pass places is recorded in the history before the next one, so
every pass is an entry of a log that says at which history it was made (`log`). What no pass breaks
by recording, all entries of a log have (`log_keeps`), and so with the state that passes change
(`log_keeps_state`).

A group takes its identity from an item that the history did not rule out, so no pass places a group
that the exam was assigned in the segment before (`not_mem_assigned_of_assemble_ok`), and since a
history only grows, neither do two passes of a series (`log_offers_anew`).
-/

namespace TestAssembly

/-! ### One pass -/

/-- **No group twice**: what a pass places at a site is for its exam and was not assigned to it in
the segment before. -/
theorem not_mem_assigned_of_assemble_ok {site : Site} {exam : Exam} {assessment : Assessment}
    {state : AssemblyState} {manifest : Manifest}
    (h : (assemble site.environment exam assessment state).1 = .ok manifest)
    {group : FieldTestGroup} (hgroup : group ∈ manifest.fieldTestGroups) :
    group.examId = exam.id ∧
      group.groupId ∉ (site.assigned exam.id group.segmentKey).map (·.groupId) := by
  obtain ⟨accommodations, made, -, hmade, rfl⟩ := exists_made_of_assemble_ok h
  obtain ⟨a, ha, hgroup⟩ := List.mem_flatMap.mp hgroup
  obtain ⟨segment, -, hsegment⟩ := exists_left_of_mem hmade ha
  obtain ⟨history, hhistory, item, hitem, hexam, hkey, -, hid⟩ :=
    hsegment.exists_of_mem_groups hgroup
  obtain ⟨-, rfl⟩ := Site.answer_eq_ok_iff.1 hhistory
  obtain ⟨-, -, -, hnew⟩ := SelectionRequest.mem_candidateItems.1 hitem
  rw [hkey, hid]
  exact ⟨hexam, hnew⟩

/-! ### The log of a series -/

/-- **Turn** in a series: a pass for an exam at an assessment, with the site as it is then but for
the history, which the series brings along. -/
structure Turn where
  site : Site
  exam : Exam
  assessment : Assessment

/-- **Entry** in the log of a series: a pass, the site at which it was made, and its result. -/
structure Entry where
  site : Site
  exam : Exam
  assessment : Assessment
  result : Except AssemblyError Manifest

namespace Entry

/-- The groups that a pass placed, none when it failed. -/
def placed (entry : Entry) : List FieldTestGroup :=
  match entry.result with
  | .ok manifest => manifest.fieldTestGroups
  | .error _ => []

theorem placed_of_ok {entry : Entry} {manifest : Manifest} (h : entry.result = .ok manifest) :
    entry.placed = manifest.fieldTestGroups := by
  rw [placed, h]

theorem placed_of_error {entry : Entry} {e : AssemblyError} (h : entry.result = .error e) :
    entry.placed = [] := by
  rw [placed, h]

theorem mem_placed {entry : Entry} {group : FieldTestGroup} :
    group ∈ entry.placed ↔
      ∃ manifest, entry.result = .ok manifest ∧ group ∈ manifest.fieldTestGroups := by
  unfold placed
  cases entry.result <;> simp

/-- The site with these groups recorded. -/
def recorded (entry : Entry) : Site := entry.site.record entry.placed

end Entry

namespace Turn

/-- The site of a turn with the history that the series brings. -/
def siteAt (turn : Turn) (history : List FieldTestGroup) : Site := { turn.site with history }

/-- The pass of a turn. -/
def pass (turn : Turn) (history : List FieldTestGroup) (state : AssemblyState) :
    Except AssemblyError Manifest × AssemblyState :=
  assemble (turn.siteAt history).environment turn.exam turn.assessment state

/-- The entry of a turn. -/
def entry (turn : Turn) (history : List FieldTestGroup) (state : AssemblyState) : Entry :=
  ⟨turn.siteAt history, turn.exam, turn.assessment, (turn.pass history state).1⟩

theorem result_entry (turn : Turn) (history : List FieldTestGroup) (state : AssemblyState) :
    (turn.entry history state).result =
      (assemble (turn.siteAt history).environment turn.exam turn.assessment state).1 := rfl

/-- Recording a turn adds its groups to the history that the series brought. -/
theorem history_recorded (turn : Turn) (history : List FieldTestGroup)
    (state : AssemblyState) : (turn.entry history state).recorded.history =
      history ++ (turn.entry history state).placed := rfl

end Turn

/-- **Log of a series** from a history and a state: each pass is made at the history that the passes
before it left. -/
def log (history : List FieldTestGroup) (state : AssemblyState) : List Turn → List Entry
  | [] => []
  | turn :: rest =>
    let entry := turn.entry history state
    entry :: log entry.recorded.history (turn.pass history state).2 rest

variable {history : List FieldTestGroup} {state : AssemblyState} {turns : List Turn}

/-- **Invariants of a series**: what no turn breaks by its pass and by recording its groups holds of
the history and the state at which each entry was made. -/
theorem log_keeps_state (holds : List FieldTestGroup → AssemblyState → Prop)
    (hstep : ∀ turn ∈ turns, ∀ history state, holds history state →
      holds (turn.entry history state).recorded.history (turn.pass history state).2)
    (h : holds history state) {entry : Entry} (hentry : entry ∈ log history state turns) :
    ∃ turn ∈ turns, ∃ before start, holds before start ∧ turn.entry before start = entry := by
  induction turns generalizing history state with
  | nil => simp [log] at hentry
  | cons turn rest ih =>
    rw [log] at hentry
    rcases List.mem_cons.mp hentry with rfl | hentry
    · exact ⟨turn, List.mem_cons_self, history, state, h, rfl⟩
    · obtain ⟨later, hlater, hturn⟩ := ih (fun t ht => hstep t (List.mem_cons_of_mem _ ht))
        (hstep turn List.mem_cons_self _ _ h) hentry
      exact ⟨later, List.mem_cons_of_mem _ hlater, hturn⟩

/-- The same for what is known of the history alone. -/
theorem log_keeps (holds : List FieldTestGroup → Prop)
    (hstep : ∀ turn ∈ turns, ∀ history state, holds history →
      holds (turn.entry history state).recorded.history)
    (h : holds history) {entry : Entry} (hentry : entry ∈ log history state turns) :
    ∃ turn ∈ turns, ∃ before start, holds before ∧ turn.entry before start = entry :=
  log_keeps_state (fun history _ => holds history) hstep h hentry

/-- What a pass places in a series is for its exam and was not assigned to it in the segment
before. -/
theorem not_mem_assigned_of_mem_log {entry : Entry} (hentry : entry ∈ log history state turns)
    {group : FieldTestGroup} (hgroup : group ∈ entry.placed) :
    group.examId = entry.exam.id ∧
      group.groupId ∉ (entry.site.assigned entry.exam.id group.segmentKey).map (·.groupId) := by
  obtain ⟨turn, -, before, start, -, rfl⟩ := log_keeps (fun _ => True) (by simp) trivial hentry
  obtain ⟨manifest, hpass, hgroup⟩ := Entry.mem_placed.1 hgroup
  exact not_mem_assigned_of_assemble_ok hpass hgroup

/-- What a pass of a series placed is in the history of all later ones. -/
theorem pairwise_log (history : List FieldTestGroup) (state : AssemblyState)
    (turns : List Turn) : (log history state turns).Pairwise fun first second =>
      ∀ group ∈ first.placed, group ∈ second.site.history := by
  induction turns generalizing history state with
  | nil => exact .nil
  | cons turn rest ih =>
    rw [log]
    refine .cons (fun later hlater group hgroup => ?_) (ih _ _)
    -- a history only grows, so the group stays in it once it is recorded
    obtain ⟨-, -, before, -, hmem, rfl⟩ := log_keeps (group ∈ ·)
      (fun _ _ _ _ hmem => List.mem_append_left _ hmem) (List.mem_append_right _ hgroup) hlater
    exact hmem

/-- **A series offers nothing twice**: no pass places a group that its exam was assigned in the
segment before, so two passes for one exam place no common group in segments of one key. -/
theorem log_offers_anew (history : List FieldTestGroup) (state : AssemblyState)
    (turns : List Turn) :
    (∀ entry ∈ log history state turns, ∀ group ∈ entry.placed,
      group.examId = entry.exam.id ∧
        group.groupId ∉ (entry.site.assigned entry.exam.id group.segmentKey).map (·.groupId)) ∧
    (log history state turns).Pairwise fun first second => first.exam.id = second.exam.id →
      ∀ group ∈ first.placed, ∀ other ∈ second.placed,
        group.segmentKey = other.segmentKey → group.groupId ≠ other.groupId := by
  refine ⟨fun entry hentry group hgroup => not_mem_assigned_of_mem_log hentry hgroup, ?_⟩
  refine (pairwise_log history state turns).imp_of_mem ?_
  intro first second hfirst hsecond hgrown hexam group hgroup other hother hkey hid
  obtain ⟨hgroupExam, -⟩ := not_mem_assigned_of_mem_log hfirst hgroup
  obtain ⟨-, hnew⟩ := not_mem_assigned_of_mem_log hsecond hother
  refine hnew (List.mem_map.mpr ⟨group, List.mem_filter.mpr ⟨hgrown group hgroup, ?_⟩, hid⟩)
  simp [hgroupExam, hexam, hkey]

end TestAssembly
