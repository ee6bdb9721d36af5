import TestAssembly.Proofs.Assembly.Draws

/-!
# Series of actions

A series of actions makes passes, moves the clock and records what was placed in the history, from
which later passes learn. Two series of the same actions, at services that are the same but for the
source of randomness and the bound of its draws, go on side by side: whatever was recorded counts
the same on both sides, so one action further they differ by draws again (`Progress.AreTwins.act`).
Both return the same results, take equally many draws and end with the same ledger, rotations,
history and store, except for positions of groups of several items within intervals
(`areTwins_run`).
-/

namespace TestAssembly

open Time

/-! ### Actions -/

/-- **Recorded groups** stand in the history behind those that it had before. -/
def Environment.afterRecording (env : Environment) (recorded : List FieldTestGroup)
    (now : Instant) : Environment :=
  { env with
    now
    history := fun exam key => (env.history exam key).map
      (· ++ recorded.filter fun g => g.examId == exam && g.segmentKey == key) }

/-- At a site these are the groups that are added to its history. -/
theorem Site.environment_record (site : Site) (groups : List FieldTestGroup) :
    (site.record groups).environment = site.environment.afterRecording groups site.now := by
  have hhistory : ∀ exam key, (site.record groups).answer .history
      ((site.record groups).assigned exam key) =
        (site.answer .history (site.assigned exam key)).map
          (· ++ groups.filter fun g => g.examId == exam && g.segmentKey == key) := by
    intro exam key
    have houtage : (site.record groups).outage? .history = site.outage? .history := rfl
    have hassigned : (site.record groups).assigned exam key = site.assigned exam key ++
        groups.filter fun g => g.examId == exam && g.segmentKey == key :=
      List.filter_append ..
    rw [answer, answer, houtage, hassigned]
    cases site.outage? .history <;> rfl
  simp only [environment, Environment.afterRecording]
  rw [funext₂ hhistory]
  rfl

/-- **One action** on an assembler and what is around it. -/
inductive Action where
  | assemble (exam : Exam) (assessment : Assessment)
  /-- A pass at the assessment that the catalog has for the exam. -/
  | assembleExam (exam : Exam)
  | setTime (now : Instant)
  /-- Record a group that an earlier pass placed: the number of the pass, and of the group in its
  manifest. -/
  | record (pass group : Nat)

/-- **A pass of a series**, with the segments that it was made at. -/
structure Pass where
  exam : Exam
  segments : List Segment
  result : Except AssemblyError Manifest

/-- The groups that a pass placed, none when it failed. -/
def Pass.placed (pass : Pass) : List FieldTestGroup :=
  match pass.result with
  | .ok manifest => manifest.fieldTestGroups
  | .error _ => []

/-- **Where a series of actions has got to.** -/
structure Progress where
  now : Instant
  recorded : List FieldTestGroup
  state : AssemblyState
  passes : List Pass

namespace Progress

/-- Before any action. -/
def start (env : Environment) (state : AssemblyState) : Progress := ⟨env.now, [], state, []⟩

/-- The segments at which passes were made. -/
def segments (progress : Progress) : List Segment := progress.passes.flatMap (·.segments)

/-- The environment of the next pass. -/
def environment (progress : Progress) (env : Environment) : Environment :=
  env.afterRecording progress.recorded progress.now

/-- The groups that a pass placed, none before it was made. -/
def placed (progress : Progress) (pass : Nat) : List FieldTestGroup :=
  progress.passes[pass]?.toList.flatMap Pass.placed

/-- One pass further. -/
def add (progress : Progress) (exam : Exam) (segments : List Segment)
    (pass : Except AssemblyError Manifest × AssemblyState) : Progress :=
  { progress with
    state := pass.2
    passes := progress.passes ++ [⟨exam, segments, pass.1⟩] }

/-- One action further. -/
def act (env : Environment) (progress : Progress) : Action → Progress
  | .assemble exam assessment =>
    progress.add exam assessment.inOrder
      (TestAssembly.assemble (progress.environment env) exam assessment progress.state)
  | .assembleExam exam =>
    progress.add exam (segmentsFor env exam)
      (TestAssembly.assembleExam (progress.environment env) exam progress.state)
  | .setTime now => { progress with now }
  | .record pass group =>
    { progress with recorded := progress.recorded ++ (progress.placed pass)[group]?.toList }

/-- **A series of actions** from a state on. -/
def run (env : Environment) (state : AssemblyState) (actions : List Action) : Progress :=
  actions.foldl (act env) (start env state)

end Progress

/-! ### Side by side -/

/-- **Passes that differ by draws**, of the same exam at the same segments. -/
structure Pass.AreTwins (pass other : Pass) : Prop where
  exam : other.exam = pass.exam
  segments : other.segments = pass.segments
  result : SideBySide (Manifest.AreTwins pass.segments) pass.result other.result

/-- **Series that differ by draws**: the same passes with the same results, and the same ledger,
rotations, draws, history and store, but for positions of groups. -/
structure Progress.AreTwins (progress other : Progress) : Prop where
  now : other.now = progress.now
  recorded : GroupsAreTwins progress.segments progress.recorded other.recorded
  state : progress.state.AreTwins progress.segments other.state
  passes : List.Forall₂ Pass.AreTwins progress.passes other.passes

/-- Members of the same number in two lists that correspond. -/
theorem forall₂_toList_getElem? {α β : Type} {R : α → β → Prop} {as : List α} {bs : List β}
    (h : List.Forall₂ R as bs) (index : Nat) :
    List.Forall₂ R as[index]?.toList bs[index]?.toList := by
  induction h generalizing index with
  | nil => exact .nil
  | cons hab _ ih =>
    cases index with
    | zero => exact .cons hab .nil
    | succ index => simpa using ih index

/-- Groups that were placed by passes that differ by draws are twins. -/
theorem Pass.AreTwins.groupsAreTwins {pass other : Pass} (h : pass.AreTwins other) :
    GroupsAreTwins pass.segments pass.placed other.placed := by
  have hresult := h.result
  unfold placed
  generalize pass.result = result at hresult
  generalize other.result = result' at hresult
  cases hresult with
  | error e => exact .nil
  | ok hmanifest => exact .of_twinsAmong hmanifest.groups

namespace Progress.AreTwins

variable {env : Environment} {progress other : Progress}

/-- What a pass placed are twins on both sides. -/
theorem placed (h : progress.AreTwins other) (pass : Nat) :
    GroupsAreTwins progress.segments (progress.placed pass) (other.placed pass) := by
  have hpass := forall₂_mem (forall₂_toList_getElem? h.passes pass)
  refine List.rel_flatMap hpass ?_
  rintro made twin ⟨hmade, -, htwins⟩
  refine htwins.groupsAreTwins.mono fun segment hsegment => ?_
  have hmem : made ∈ progress.passes := List.mem_of_getElem? (Option.mem_toList.mp hmade)
  exact List.mem_flatMap.mpr ⟨made, hmem, hsegment⟩

/-- What is recorded counts the same on both sides. -/
theorem sideBySide_history (h : progress.AreTwins other) (exam key : String) :
    SideBySide CountTheSame ((progress.environment env).history exam key)
      ((other.environment env).history exam key) := by
  refine (SideBySide.of_eq rfl).map ?_
  rintro found _ rfl
  refine List.rel_append ?_ (h.recorded.countTheSame_filter exam key)
  exact List.forall₂_same.mpr fun _ _ => ⟨rfl, rfl⟩

/-- One pass further on both sides. -/
theorem add (h : progress.AreTwins other) (exam : Exam) (segments : List Segment)
    {pass pass' : Except AssemblyError Manifest × AssemblyState}
    (hresult : SideBySide (Manifest.AreTwins segments) pass.1 pass'.1)
    (hstate : pass.2.AreTwins (progress.segments ++ segments) pass'.2) :
    (progress.add exam segments pass).AreTwins (other.add exam segments pass') := by
  have hsegments : (progress.add exam segments pass).segments = progress.segments ++ segments := by
    simp [Progress.segments, Progress.add]
  refine ⟨h.now, ?_, ?_, ?_⟩
  · rw [hsegments]
    exact h.recorded.mono (List.subset_append_left _ _)
  · rw [hsegments]
    exact hstate
  · exact List.rel_append h.passes (.cons ⟨rfl, rfl, hresult⟩ .nil)

/-- **One action** on both sides. -/
theorem act (h : progress.AreTwins other) (random : RandomSource) (drawBound : UInt32)
    (action : Action) :
    (progress.act env action).AreTwins (other.act (env.drawing random drawBound) action) := by
  -- the environments of the next pass differ in source and history only, and these count the same
  have henv : other.environment (env.drawing random drawBound) =
      { (progress.environment env).drawing random drawBound with
        history := (other.environment env).history } := by
    rw [Progress.environment, h.now]
    rfl
  cases action with
  | assemble exam assessment =>
    obtain ⟨hresult, hstate⟩ := @areTwins_assemble (progress.environment env) exam assessment
      progress.segments progress.state other.state random drawBound (other.environment env).history
      (h.sideBySide_history exam.id) h.state
    rw [← henv] at hresult hstate
    exact h.add exam assessment.inOrder hresult hstate
  | assembleExam exam =>
    obtain ⟨hresult, hstate⟩ := @areTwins_assembleExam (progress.environment env) exam
      progress.segments progress.state other.state random drawBound (other.environment env).history
      (h.sideBySide_history exam.id) h.state
    rw [← henv] at hresult hstate
    exact h.add exam (segmentsFor env exam) hresult hstate
  | setTime now => exact ⟨rfl, h.recorded, h.state, h.passes⟩
  | record pass group =>
    have hgroup : GroupsAreTwins progress.segments (progress.placed pass)[group]?.toList
        (other.placed pass)[group]?.toList :=
      forall₂_toList_getElem? (h.placed pass) group
    exact ⟨h.now, h.recorded.append hgroup, h.state, h.passes⟩

end Progress.AreTwins

/-- **Randomness touches positions only**: a series of actions with another source of randomness and
another bound of draws returns the same results, takes equally many draws and ends with the same
ledger, rotations, history and store, but for the positions of groups of several items in segments
that are divided into intervals. -/
theorem areTwins_run (env : Environment) (random : RandomSource) (drawBound : UInt32)
    (state : AssemblyState) (actions : List Action) :
    (Progress.run env state actions).AreTwins
      (Progress.run (env.drawing random drawBound) state actions) := by
  have hstart : (Progress.start env state).AreTwins
      (Progress.start (env.drawing random drawBound) state) :=
    ⟨rfl, .nil, state.areTwins_refl _, .nil⟩
  unfold Progress.run
  generalize Progress.start env state = progress at hstart
  generalize Progress.start (env.drawing random drawBound) state = other at hstart
  induction actions generalizing progress other with
  | nil => exact hstart
  | cons action rest ih => exact ih _ _ (hstart.act random drawBound action)

/-- An assessment with a field-test group of two items in two intervals of four positions. -/
def pairAssessment : Assessment :=
  Fixture.assessment
    [Fixture.buildSegment "SEG" .adaptive
      [.maxItems 1, .fieldTestRange 1 9, .fieldTestItems 1 2, .strand "Reading" 0 (some 0.5),
        .items [Fixture.item "i1", Fixture.buildItem "i2" [.group "g2", .fieldTest],
          Fixture.buildItem "i3" [.group "g2", .fieldTest]]]]

-- such a group stands where its draw puts it
example :
    [0, 3].map (fun value =>
      let env := plainServices.drawing (.script [value]) 4
      (assemble env (Fixture.exam "EX") pairAssessment .initial).1.toOption.map
        (·.fieldTestGroups.map (·.position))) =
      [some [some 1], some [some 4]] := by
  decide +kernel

end TestAssembly
