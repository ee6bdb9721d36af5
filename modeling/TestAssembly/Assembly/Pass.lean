import TestAssembly.Assembly.Environment
import TestAssembly.FieldTest.Gate
import TestAssembly.FieldTest.Selection
import TestAssembly.Pool.Coverage
import TestAssembly.Rotation

/-!
# Assembly of an attempt

A pass goes through the segments of an assessment in order of delivery. A fixed-form segment gets a
form: the first one the next in rotation, all later ones the first form of the same cohort. An
adaptive segment gets its sized pool and, when the pool has full length and the field-test gate is
open, field-test groups. The first failure ends the pass. Records are stored only when every
segment succeeded and the attempt has an item.

What outlives a pass is its state: ledger, rotations, draws taken and store. A pass that fails
keeps the changes that it made to ledger, rotations and draws before.
-/

namespace TestAssembly

/-- **State** that outlives a pass. -/
structure AssemblyState where
  usage : Ledger
  rotations : Rotations
  drawsTaken : Nat
  store : Store
  deriving DecidableEq

namespace AssemblyState

/-- The state before any pass. -/
def initial : AssemblyState := ⟨.empty, .empty, 0, .empty⟩

instance : Inhabited AssemblyState := ⟨initial⟩

end AssemblyState

/-- A segment record with the field-test groups placed in the segment. -/
structure AssembledSegment where
  record : ExamSegment
  groups : List FieldTestGroup
  deriving DecidableEq

/-! ### Fixed-form segments -/

/-- **Choice of a form.** Without a cohort the next form in rotation, within one its first form. -/
def chooseForm (env : Environment) (exam : Exam) (segment : Segment) (cohort : Option String)
    (state : AssemblyState) : Except AssemblyError Form × AssemblyState :=
  match cohort with
  | none =>
    let (form, rotations) := state.rotations.select env.config.rotation.idleTimeout segment
      exam.languageCode env.now
    match form with
    | some form => (.ok form, { state with rotations })
    | none => (.error (.noForm segment.key exam.languageCode), { state with rotations })
  | some cohort =>
    match segment.formOfCohort? exam.languageCode cohort with
    | some form => (.ok form, state)
    | none => (.error (.noCohortForm segment.key exam.languageCode cohort), state)

/-- The record of a segment that takes its items from a form, no more than it may have. -/
def fixedFormSegment (exam : Exam) (segment : Segment) (form : Form) : AssembledSegment :=
  let count := min form.itemCount segment.maxItems
  { record :=
      { examId := exam.id
        segmentKey := segment.key
        segmentId := segment.id
        segmentPosition := segment.position
        algorithm := segment.algorithm
        form := some form.assignment
        itemPool := .empty
        poolCount := count
        examItemCount := count
        fieldTestItemCount := 0
        satisfied := count == 0 }
    groups := [] }

/-! ### Adaptive segments -/

/-- **Seeding**: select and place field-test groups in a segment. -/
def seed (env : Environment) (exam : Exam) (assessment : Assessment) (segment : Segment)
    (accommodations : List Accommodation) (state : AssemblyState) :
    Except AssemblyError Placement × AssemblyState :=
  match env.history exam.id segment.key with
  | .error outage => (.error outage.error, state)
  | .ok history =>
    let request : SelectionRequest :=
      { exam, segment, accommodations
        constraints := assessment.constraints
        assignedGroupIds := history.map (·.groupId)
        languageProperty := env.config.items.languageProperty
        wanted := segment.fieldTestMinItems }
    let (candidates, usage) := request.select state.usage
    let rule : PlacementRule :=
      { segment
        language := exam.languageCode
        random := env.random
        drawBound := env.config.fieldTest.positionDrawBound }
    let placement := rule.place (sumWrapped (history.map (·.itemCount))) state.drawsTaken candidates
    (.ok placement, { state with usage, drawsTaken := placement.drawsTaken })

/-- The record of a segment that takes its items from a pool, with what was placed in it. -/
def adaptiveSegment (exam : Exam) (segment : Segment) (pool : SegmentPool)
    (placement : Placement) : AssembledSegment :=
  { record :=
      { examId := exam.id
        segmentKey := segment.key
        segmentId := segment.id
        segmentPosition := segment.position
        algorithm := segment.algorithm
        form := none
        itemPool := pool.itemIds
        poolCount := pool.poolCount
        examItemCount := pool.length
        fieldTestItemCount := placement.itemCount
        satisfied := pool.length + placement.itemCount == 0 }
    groups := placement.groups }

/-- Assemble an adaptive segment. -/
def assembleAdaptive (env : Environment) (exam : Exam) (assessment : Assessment)
    (segment : Segment) (accommodations : List Accommodation) (state : AssemblyState) :
    Except AssemblyError AssembledSegment × AssemblyState :=
  let pool := segmentPool accommodations assessment.constraints segment
    env.config.items.languageProperty exam.languageCode
  if pool.length = segment.maxItems ∧ isFieldTestOpen env.config exam assessment segment env.now
  then
    match seed env exam assessment segment accommodations state with
    | (.ok placement, state) => (.ok (adaptiveSegment exam segment pool placement), state)
    | (.error e, state) => (.error e, state)
  else (.ok (adaptiveSegment exam segment pool ⟨[], 0, state.drawsTaken⟩), state)

/-! ### The pass -/

/-- Assemble segments in order, from the cohort that earlier ones fixed. -/
def assembleSegments (env : Environment) (exam : Exam) (assessment : Assessment)
    (accommodations : List Accommodation) :
    List Segment → Option String → AssemblyState →
      Except AssemblyError (List AssembledSegment) × AssemblyState
  | [], _, state => (.ok [], state)
  | segment :: rest, cohort, state =>
    if segment.isFixedForm then
      match chooseForm env exam segment cohort state with
      | (.error e, state) => (.error e, state)
      | (.ok form, state) =>
        match assembleSegments env exam assessment accommodations rest
          (some (cohort.getD form.cohort)) state with
        | (.error e, state) => (.error e, state)
        | (.ok done, state) => (.ok (fixedFormSegment exam segment form :: done), state)
    else
      match assembleAdaptive env exam assessment segment accommodations state with
      | (.error e, state) => (.error e, state)
      | (.ok assembled, state) =>
        match assembleSegments env exam assessment accommodations rest cohort state with
        | (.error e, state) => (.error e, state)
        | (.ok done, state) => (.ok (assembled :: done), state)

/-- The manifest of assembled segments. -/
def manifestOf (exam : Exam) (assembled : List AssembledSegment) : Manifest :=
  { examId := exam.id
    totalItems := sumSat <| assembled.flatMap fun a =>
      [a.record.examItemCount, a.record.fieldTestItemCount]
    segments := assembled.map (·.record)
    fieldTestGroups := assembled.flatMap (·.groups) }

/-- **Storing a manifest**: its segment records, then its groups if it has any. -/
def save (env : Environment) (manifest : Manifest) (store : Store) :
    Except AssemblyError Unit × Store :=
  match env.segmentRefusal with
  | some outage => (.error outage.error, store)
  | none =>
    let store := store.addSegments manifest.segments
    if manifest.fieldTestGroups.isEmpty then (.ok (), store)
    else
      match env.groupRefusal with
      | some outage => (.error outage.error, store)
      | none => (.ok (), store.addGroups manifest.fieldTestGroups)

/-- **Assembly** of an attempt at a given assessment. -/
def assemble (env : Environment) (exam : Exam) (assessment : Assessment) (state : AssemblyState) :
    Except AssemblyError Manifest × AssemblyState :=
  match env.accommodations exam.id with
  | .error outage => (.error outage.error, state)
  | .ok accommodations =>
    let state :=
      { state with
        rotations := state.rotations.evictIdle env.config.rotation.idleTimeout env.now }
    match assembleSegments env exam assessment accommodations assessment.inOrder none state with
    | (.error e, state) => (.error e, state)
    | (.ok assembled, state) =>
      let manifest := manifestOf exam assembled
      if manifest.totalItems = 0 then (.error (.noContent exam.id), state)
      else
        match save env manifest state.store with
        | (.error e, store) => (.error e, { state with store })
        | (.ok (), store) => (.ok manifest, { state with store })

/-- **Assembly of an exam** at the assessment that the catalog has for it. -/
def assembleExam (env : Environment) (exam : Exam) (state : AssemblyState) :
    Except AssemblyError Manifest × AssemblyState :=
  match env.assessment? exam.clientName exam.assessmentKey with
  | .error outage => (.error outage.error, state)
  | .ok none => (.error (.assessmentNotFound exam.clientName exam.assessmentKey), state)
  | .ok (some assessment) => assemble env exam assessment state

end TestAssembly
