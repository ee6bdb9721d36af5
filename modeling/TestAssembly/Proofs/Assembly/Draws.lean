import TestAssembly.Proofs.Assembly.Outcome
import TestAssembly.Proofs.Assembly.SideBySide
import TestAssembly.Proofs.FieldTest.Draws

/-!
# What a pass makes of its draws

Two passes are set side by side that differ in the source of randomness, in the bound of its draws
and in the history. A draw decides a position and nothing else, and no position is ever read again:
a pass learns from the history which groups it has and how many items they count
(`CountTheSame`). So two such passes make twins: the same error or manifests, the same ledger,
rotations and store, and equally many draws, except for positions of groups of several items within
intervals (`areTwins_assemble`).
-/

namespace TestAssembly

/-! ### Twins -/

/-- **Twins among segments**: twins in a segment that both are filed under. -/
def TwinsAmong (segments : List Segment) (group other : FieldTestGroup) : Prop :=
  ∃ segment ∈ segments, segment.key = group.segmentKey ∧ segment.id = group.segmentId ∧
    segment.AreTwins group other

theorem TwinsAmong.mono {segments more : List Segment} {group other : FieldTestGroup}
    (h : TwinsAmong segments group other) (hmore : segments ⊆ more) :
    TwinsAmong more group other := by
  obtain ⟨segment, hmem, hfiled⟩ := h
  exact ⟨segment, hmore hmem, hfiled⟩

theorem TwinsAmong.same {segments : List Segment} {group other : FieldTestGroup}
    (h : TwinsAmong segments group other) : other = { group with position := other.position } := by
  obtain ⟨segment, -, -, -, htwins⟩ := h
  exact htwins.same

/-- **Manifests that differ by draws**: everything is the same, and the groups are twins one by
one. -/
structure Manifest.AreTwins (among : List Segment) (manifest other : Manifest) : Prop where
  examId : other.examId = manifest.examId
  totalItems : other.totalItems = manifest.totalItems
  segments : other.segments = manifest.segments
  groups : List.Forall₂ (TwinsAmong among) manifest.fieldTestGroups other.fieldTestGroups

/-- **Groups that differ by draws**: one by one the same, or twins in one of the segments. -/
def GroupsAreTwins (segments : List Segment) (groups others : List FieldTestGroup) : Prop :=
  List.Forall₂ (fun group other => other = group ∨ TwinsAmong segments group other) groups others

namespace GroupsAreTwins

variable {segments more : List Segment} {groups others added : List FieldTestGroup}

theorem refl (segments : List Segment) (groups : List FieldTestGroup) :
    GroupsAreTwins segments groups groups :=
  List.forall₂_same.mpr fun _ _ => .inl rfl

theorem of_twinsAmong (h : List.Forall₂ (TwinsAmong segments) groups others) :
    GroupsAreTwins segments groups others :=
  h.imp fun _ _ htwins => .inr htwins

theorem mono (h : GroupsAreTwins segments groups others) (hmore : segments ⊆ more) :
    GroupsAreTwins more groups others :=
  List.Forall₂.imp (fun _ _ => Or.imp_right fun htwins => htwins.mono hmore) h

theorem append {more' : List FieldTestGroup} (h : GroupsAreTwins segments groups others)
    (hadded : GroupsAreTwins segments added more') :
    GroupsAreTwins segments (groups ++ added) (others ++ more') :=
  List.rel_append h hadded

end GroupsAreTwins

/-- **Stores that differ by draws**: the same segment records, and groups that are twins. -/
structure Store.AreTwins (among : List Segment) (store other : Store) : Prop where
  segments : other.segments = store.segments
  groups : GroupsAreTwins among store.groups other.groups

/-- **States that differ by draws**: nothing differs but what was stored of groups. -/
structure AssemblyState.AreTwins (among : List Segment) (one two : AssemblyState) : Prop where
  usage : two.usage = one.usage
  rotations : two.rotations = one.rotations
  drawsTaken : two.drawsTaken = one.drawsTaken
  store : one.store.AreTwins among two.store

theorem AssemblyState.areTwins_refl (among : List Segment) (state : AssemblyState) :
    state.AreTwins among state :=
  ⟨rfl, rfl, rfl, rfl, .refl among state.store.groups⟩

theorem AssemblyState.AreTwins.mono {among more : List Segment} {one two : AssemblyState}
    (h : one.AreTwins among two) (hmore : among ⊆ more) : one.AreTwins more two :=
  ⟨h.usage, h.rotations, h.drawsTaken, h.store.segments, h.store.groups.mono hmore⟩

/-! ### What a pass learns from the history -/

/-- **Histories that count the same**: as many groups, of the same names and sizes. -/
def CountTheSame (groups others : List FieldTestGroup) : Prop :=
  List.Forall₂ (fun group other => other.groupId = group.groupId ∧
    other.itemCount = group.itemCount) groups others

namespace CountTheSame

variable {groups others : List FieldTestGroup}

theorem map_groupId (h : CountTheSame groups others) :
    others.map (·.groupId) = groups.map (·.groupId) :=
  (map_eq_of_forall₂ h fun _ _ hsame => hsame.1.symm).symm

theorem map_itemCount (h : CountTheSame groups others) :
    others.map (·.itemCount) = groups.map (·.itemCount) :=
  (map_eq_of_forall₂ h fun _ _ hsame => hsame.2.symm).symm

end CountTheSame

/-- Groups that differ by draws count the same, for every exam in every segment. -/
theorem GroupsAreTwins.countTheSame_filter {segments : List Segment}
    {groups others : List FieldTestGroup} (h : GroupsAreTwins segments groups others)
    (exam key : String) :
    CountTheSame (groups.filter fun g => g.examId == exam && g.segmentKey == key)
      (others.filter fun g => g.examId == exam && g.segmentKey == key) := by
  induction h with
  | nil => exact .nil
  | @cons group other _ _ hgroup _ ih =>
    have hsame : other = { group with position := other.position } := by
      rcases hgroup with rfl | htwins
      · rfl
      · exact htwins.same
    rw [List.filter_cons, List.filter_cons, hsame]
    dsimp only
    split
    · exact .cons ⟨rfl, rfl⟩ ih
    · exact ih

/-! ### One pass -/

/-- The environment with another source of randomness. -/
def Environment.drawing (env : Environment) (random : RandomSource) (drawBound : UInt32) :
    Environment :=
  { env with
    random
    config.fieldTest.positionDrawBound := drawBound }

section Pass

variable {env : Environment} {exam : Exam} {assessment : Assessment}
  {accommodations : List Accommodation} {segment : Segment} {segments among : List Segment}
  {one two : AssemblyState} {random : RandomSource} {drawBound : UInt32}
  {history : String → String → Except Outage (List FieldTestGroup)}

/-- **What two passes make of a segment**: the same record, and groups that are twins. -/
structure AssembledSegment.AreTwins (segment : Segment) (made other : AssembledSegment) :
    Prop where
  record : other.record = made.record
  groups : List.Forall₂ segment.AreTwins made.groups other.groups
  filed : ∀ group ∈ made.groups, group.segmentKey = segment.key ∧ group.segmentId = segment.id

/-- At a history that counts the same, the request for groups is the same. -/
theorem seedingRequest_drawing {found others : List FieldTestGroup}
    (h : CountTheSame found others) :
    seedingRequest { env.drawing random drawBound with history } exam assessment accommodations
      segment others = seedingRequest env exam assessment accommodations segment found := by
  rw [seedingRequest, h.map_groupId]
  rfl

/-- **Seeding with another source** places twins, in the same number and with equally many draws. -/
theorem areTwins_seeding {found others : List FieldTestGroup} (h : CountTheSame found others)
    (ledger : Ledger) (draws : Nat) :
    let placed := seeding env exam assessment accommodations segment found ledger draws
    let other := seeding { env.drawing random drawBound with history } exam assessment
      accommodations segment others ledger draws
    List.Forall₂ segment.AreTwins placed.groups other.groups ∧
      other.itemCount = placed.itemCount ∧ other.drawsTaken = placed.drawsTaken := by
  simp only [seeding, seedingRequest_drawing h, h.map_itemCount]
  exact PlacementRule.areTwins_place (seedingRule env exam segment) random drawBound _ _ _

/-- **An adaptive segment** is made alike at histories that count the same. -/
theorem areTwins_assembleAdaptive (hadaptive : segment.isFixedForm = false)
    (hhistory : SideBySide CountTheSame (env.history exam.id segment.key)
      (history exam.id segment.key))
    (h : one.AreTwins among two) :
    let other := { env.drawing random drawBound with history }
    SideBySide (AssembledSegment.AreTwins segment)
        (assembleAdaptive env exam assessment segment accommodations one).1
        (assembleAdaptive other exam assessment segment accommodations two).1 ∧
      (assembleAdaptive env exam assessment segment accommodations one).2.AreTwins among
        (assembleAdaptive other exam assessment segment accommodations two).2 := by
  intro other
  by_cases hseedable : IsSeedable env exam assessment accommodations segment
  · have hother : IsSeedable other exam assessment accommodations segment := hseedable
    generalize hone : env.history exam.id segment.key = answer at hhistory
    generalize htwo : history exam.id segment.key = answer' at hhistory
    cases hhistory with
    | error outage =>
      rw [assembleAdaptive_of_history_error hseedable hone,
        assembleAdaptive_of_history_error hother htwo]
      exact ⟨.error _, h⟩
    | @ok found others hsame =>
      have hmade := congrArg Prod.fst
        (@assembleAdaptive_of_history_ok env exam assessment accommodations segment one found
          hseedable hone)
      have hfiled := isMade_of_assembleAdaptive hadaptive hmade
      obtain ⟨hgroups, hcount, hdraws⟩ := @areTwins_seeding env exam assessment accommodations
        segment random drawBound history found others hsame one.usage one.drawsTaken
      rw [assembleAdaptive_of_history_ok hseedable hone,
        assembleAdaptive_of_history_ok hother htwo, h.usage, h.drawsTaken]
      refine ⟨.ok ⟨?_, hgroups, ?_⟩, ?_⟩
      · exact record_adaptiveSegment_congr exam segment _ hcount
      · intro group hgroup
        exact ⟨hfiled.segmentKey_of_mem_groups hgroup, hfiled.segmentId_of_mem_groups hgroup⟩
      · refine ⟨?_, h.rotations, hdraws, h.store⟩
        dsimp only
        rw [seedingRequest_drawing hsame]
  · have hother : ¬ IsSeedable other exam assessment accommodations segment := hseedable
    rw [assembleAdaptive_of_not_seedable hseedable, assembleAdaptive_of_not_seedable hother]
    exact ⟨.ok ⟨rfl, .nil, by simp [adaptiveSegment]⟩, h⟩

/-- A form is chosen alike. -/
theorem areTwins_chooseForm (cohort : Option String) (h : one.AreTwins among two) :
    let other := { env.drawing random drawBound with history }
    (chooseForm other exam segment cohort two).1 = (chooseForm env exam segment cohort one).1 ∧
      (chooseForm env exam segment cohort one).2.AreTwins among
        (chooseForm other exam segment cohort two).2 := by
  intro other
  have hchoice : chooseForm other exam segment cohort two =
      chooseForm env exam segment cohort two := rfl
  obtain ⟨rotations, hafter⟩ := exists_snd_chooseForm env exam segment cohort one
  rw [hchoice, chooseForm_congr h.rotations, hafter]
  exact ⟨rfl, h.usage, rfl, h.drawsTaken, h.store⟩

/-- Twins that are filed under their segment are twins among all segments. -/
theorem AssembledSegment.AreTwins.forall₂_twinsAmong {made other : AssembledSegment}
    (h : AreTwins segment made other) (hmem : segment ∈ segments) :
    List.Forall₂ (TwinsAmong segments) made.groups other.groups := by
  refine (forall₂_mem h.groups).imp ?_
  rintro group twin ⟨hgroup, -, htwins⟩
  obtain ⟨hkey, hid⟩ := h.filed group hgroup
  exact ⟨segment, hmem, hkey.symm, hid.symm, htwins⟩

/-- The groups of all segments are twins one by one. -/
theorem forall₂_twinsAmong_flatMap {made others : List AssembledSegment}
    (h : Segmentwise AssembledSegment.AreTwins segments made others) :
    List.Forall₂ (TwinsAmong segments) (made.flatMap (·.groups)) (others.flatMap (·.groups)) := by
  induction h with
  | nil => exact .nil
  | @cons segment first other rest _ _ hsame _ ih =>
    have hfirst := hsame.forall₂_twinsAmong (@List.mem_cons_self _ segment rest)
    have hrest := ih.imp fun _ _ htwins => htwins.mono (List.subset_cons_self segment rest)
    rw [List.flatMap_cons, List.flatMap_cons]
    exact List.rel_append hfirst hrest

/-- What is made segment by segment adds up to manifests that differ by draws. -/
theorem areTwins_manifestOf (exam : Exam) {made others : List AssembledSegment}
    (h : Segmentwise AssembledSegment.AreTwins segments made others) :
    (manifestOf exam made).AreTwins segments (manifestOf exam others) := by
  have hrecords : others.map (·.record) = made.map (·.record) := by
    induction h with
    | nil => rfl
    | cons hsame _ ih => rw [List.map_cons, List.map_cons, hsame.record, ih]
  -- the total is taken over the records
  have htotal : ∀ all : List AssembledSegment, (manifestOf exam all).totalItems =
      sumSat ((all.map (·.record)).flatMap fun r => [r.examItemCount, r.fieldTestItemCount]) := by
    intro all
    rw [manifestOf, List.flatMap_map]
  refine ⟨rfl, ?_, hrecords, forall₂_twinsAmong_flatMap h⟩
  rw [htotal, htotal, hrecords]

/-- **A plan with another source**: the same error, or manifests that differ by draws. -/
theorem areTwins_plan
    (hhistory : ∀ key, SideBySide CountTheSame (env.history exam.id key) (history exam.id key))
    (h : one.AreTwins among two) :
    let other := { env.drawing random drawBound with history }
    SideBySide (Manifest.AreTwins assessment.inOrder) (plan env exam assessment one).1
        (plan other exam assessment two).1 ∧
      (plan env exam assessment one).2.AreTwins among (plan other exam assessment two).2 := by
  intro other
  have hevicted : (one.evictIdle env).AreTwins among (two.evictIdle other) := by
    refine ⟨h.usage, ?_, h.drawsTaken, h.store⟩
    simp only [AssemblyState.evictIdle, h.rotations]
    rfl
  refine plan_sideBySide AssembledSegment.AreTwins rfl (fun accommodations => ?_)
    (fun made others hmade => ?_) h
  · exact assembleSegments_sideBySide (fun segment form => ⟨rfl, .nil, by simp [fixedFormSegment]⟩)
      (fun segment _ _ cohort _ _ hholds => areTwins_chooseForm cohort hholds)
      (fun segment _ hadaptive _ _ hholds =>
        areTwins_assembleAdaptive hadaptive (hhistory segment.key) hholds)
      none hevicted
  · have hmanifest := areTwins_manifestOf exam hmade
    exact ⟨hmanifest.totalItems, hmanifest⟩

/-- Manifests that differ by draws are stored alike, or refused alike. -/
theorem areTwins_save {manifest other : Manifest} {store store' : Store}
    (h : manifest.AreTwins segments other) (hstore : store.AreTwins among store') :
    let env' := { env.drawing random drawBound with history }
    (save env' other store').1 = (save env manifest store).1 ∧
      (save env manifest store).2.AreTwins (among ++ segments) (save env' other store').2 := by
  intro env'
  have hold : store.AreTwins (among ++ segments) store' :=
    ⟨hstore.segments, hstore.groups.mono (List.subset_append_left among segments)⟩
  have hgroups : GroupsAreTwins (among ++ segments) manifest.fieldTestGroups
      other.fieldTestGroups :=
    (GroupsAreTwins.of_twinsAmong h.groups).mono (List.subset_append_right among segments)
  have hadded : (store.addSegments manifest.segments).AreTwins (among ++ segments)
      (store'.addSegments other.segments) := by
    refine ⟨?_, hold.groups⟩
    simp only [Store.addSegments, hstore.segments, h.segments]
  have hempty : other.fieldTestGroups.isEmpty = manifest.fieldTestGroups.isEmpty := by
    rw [Bool.eq_iff_iff, List.isEmpty_iff_length_eq_zero, List.isEmpty_iff_length_eq_zero,
      h.groups.length_eq]
  have hsegmentRefusal : env'.segmentRefusal = env.segmentRefusal := rfl
  have hgroupRefusal : env'.groupRefusal = env.groupRefusal := rfl
  unfold save
  rw [hsegmentRefusal, hgroupRefusal, hempty]
  cases env.segmentRefusal with
  | some outage => exact ⟨rfl, hold⟩
  | none =>
    dsimp only
    split
    · exact ⟨rfl, hadded⟩
    · cases env.groupRefusal with
      | some outage => exact ⟨rfl, hadded⟩
      | none => exact ⟨rfl, hadded.segments, hadded.groups.append hgroups⟩

/-- **A pass with another source**: the same error, or manifests that differ by draws, and a state
that differs by draws. -/
theorem areTwins_assemble
    (hhistory : ∀ key, SideBySide CountTheSame (env.history exam.id key) (history exam.id key))
    (h : one.AreTwins among two) :
    let other := { env.drawing random drawBound with history }
    SideBySide (Manifest.AreTwins assessment.inOrder) (assemble env exam assessment one).1
        (assemble other exam assessment two).1 ∧
      (assemble env exam assessment one).2.AreTwins (among ++ assessment.inOrder)
        (assemble other exam assessment two).2 := by
  intro other
  obtain ⟨houtcome, hstate⟩ := @areTwins_plan env exam assessment among one two random drawBound
    history hhistory h
  rw [assemble_eq, assemble_eq]
  generalize plan env exam assessment one = planned at houtcome hstate
  generalize plan other exam assessment two = planned' at houtcome hstate
  obtain ⟨outcome, after⟩ := planned
  obtain ⟨outcome', after'⟩ := planned'
  cases houtcome with
  | error e => exact ⟨.error e, hstate.mono (List.subset_append_left among assessment.inOrder)⟩
  | ok hmanifest =>
    obtain ⟨hsaved, hstore⟩ := @areTwins_save env _ among random drawBound history _ _ _ _
      hmanifest hstate.store
    dsimp only
    refine ⟨?_, hstate.usage, hstate.rotations, hstate.drawsTaken, hstore⟩
    exact (SideBySide.of_eq hsaved.symm).map fun _ _ _ => hmanifest

/-- The segments at which an exam is assembled, in order of delivery, if the catalog has any for
it. -/
def segmentsFor (env : Environment) (exam : Exam) : List Segment :=
  match env.assessment? exam.clientName exam.assessmentKey with
  | .ok (some assessment) => assessment.inOrder
  | _ => []

theorem areTwins_assembleExam
    (hhistory : ∀ key, SideBySide CountTheSame (env.history exam.id key) (history exam.id key))
    (h : one.AreTwins among two) :
    let other := { env.drawing random drawBound with history }
    SideBySide (Manifest.AreTwins (segmentsFor env exam)) (assembleExam env exam one).1
        (assembleExam other exam two).1 ∧
      (assembleExam env exam one).2.AreTwins (among ++ segmentsFor env exam)
        (assembleExam other exam two).2 := by
  intro other
  have hcatalog : other.assessment? = env.assessment? := rfl
  unfold assembleExam segmentsFor
  rw [hcatalog]
  rcases env.assessment? exam.clientName exam.assessmentKey with outage | (- | assessment)
  · exact ⟨.error _, h.mono (List.subset_append_left among [])⟩
  · exact ⟨.error _, h.mono (List.subset_append_left among [])⟩
  · exact areTwins_assemble hhistory h

end Pass

end TestAssembly
