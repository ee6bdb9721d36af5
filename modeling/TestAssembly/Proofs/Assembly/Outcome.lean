import TestAssembly.Proofs.Assembly.Draft

/-!
# How a pass ends

When no service fails, only fixed-form segments can end a pass early. A step at an adaptive segment
succeeds and leaves cohort and rotations alone, so what becomes of the fixed-form segments is what
would become of them without the others (`map_onForms_assembleSegments`). The first of them ends the
pass when it has no form in the language of the exam; otherwise its next form in rotation fixes the
cohort, within which every later one takes its first form or, having none, ends the pass
(`EndsOnForm`). A pass that gets through all segments has no content or succeeds (`Concludes`).
-/

namespace TestAssembly

variable {env : Environment} {exam : Exam} {assessment : Assessment}
  {accommodations : List Accommodation} {segment : Segment} {cohort : Option String}
  {state other : AssemblyState}

/-! ### Services that do not fail -/

/-- **Available** services: none that a pass asks fails. -/
structure Environment.Available (env : Environment) : Prop where
  accommodations : ∀ exam, ∃ found, env.accommodations exam = .ok found
  history : ∀ exam segment, ∃ found, env.history exam segment = .ok found
  segments : env.segmentRefusal = none
  groups : env.groupRefusal = none

/-- At a site without outages all services are available. -/
theorem Site.available {site : Site} (h : site.outages = []) : site.environment.Available := by
  have hnone : ∀ service, site.outage? service = none := fun service => by rw [outage?, h]; rfl
  exact {
    accommodations := fun exam => ⟨_, answer_eq_ok_iff.2 ⟨hnone _, rfl⟩⟩
    history := fun exam segment => ⟨_, answer_eq_ok_iff.2 ⟨hnone _, rfl⟩⟩
    segments := hnone _
    groups := hnone _ }

/-! ### Forms of a cohort -/

/-- Whether a form is in a language and belongs to a cohort. -/
def Form.isFor (form : Form) (language cohort : String) : Bool :=
  form.language == language && form.cohort == cohort

/-- **A segment has a form** in a language for a cohort. -/
def Segment.HasForm (segment : Segment) (language cohort : String) : Prop :=
  ∃ form ∈ segment.forms, form.language = language ∧ form.cohort = cohort

theorem Segment.formOfCohort?_eq (segment : Segment) (language cohort : String) :
    segment.formOfCohort? language cohort = segment.forms.find? (·.isFor language cohort) := by
  rw [formOfCohort?, formsIn, List.find?_filter]
  simp only [Form.isFor, Bool.decide_and, Bool.decide_eq_true]

theorem Segment.hasForm_iff {segment : Segment} {language cohort : String} :
    segment.HasForm language cohort ↔
      ∃ form, segment.formOfCohort? language cohort = some form := by
  rw [formOfCohort?_eq, ← Option.isSome_iff_exists, List.find?_isSome]
  simp [HasForm, Form.isFor]

/-! ### Adaptive segments do not interfere -/

/-- A choice of a form depends on the rotations alone, and changes nothing else. -/
theorem chooseForm_congr (h : other.rotations = state.rotations) :
    chooseForm env exam segment cohort other =
      ((chooseForm env exam segment cohort state).1,
        { other with rotations := (chooseForm env exam segment cohort state).2.rotations }) := by
  unfold chooseForm
  cases cohort with
  | none =>
    dsimp only
    rw [h]
    split <;> rfl
  | some cohort =>
    dsimp only
    split <;> rw [← h]

/-- **What was made on forms.** -/
def onForms (made : List AssembledSegment) : List AssembledSegment :=
  made.filter (·.record.algorithm == .fixedForm)

/-- The fixed-form records of a manifest are those of what was made on forms. -/
theorem filter_segments_manifestOf (exam : Exam) (made : List AssembledSegment) :
    (manifestOf exam made).segments.filter (·.algorithm == .fixedForm) =
      (onForms made).map (·.record) := by
  rw [manifestOf, onForms, List.filter_map]
  rfl

/-- One more segment counts among those made on forms if it is a fixed-form one. -/
theorem map_onForms_cons (made : AssembledSegment)
    (later : Except AssemblyError (List AssembledSegment)) :
    (later.map (made :: ·)).map onForms =
      if made.record.algorithm = .fixedForm then (later.map onForms).map (made :: ·)
      else later.map onForms := by
  cases later with
  | error e => simp [Except.map]
  | ok later => by_cases h : made.record.algorithm = .fixedForm <;> simp [Except.map, onForms, h]

theorem map_onForms_eq_error {made : Except AssemblyError (List AssembledSegment)}
    {e : AssemblyError} (h : made.map onForms = .error e) : made = .error e := by
  cases made with
  | error e => exact h
  | ok made => simp [Except.map] at h

theorem map_onForms_eq_ok {made : Except AssemblyError (List AssembledSegment)}
    {found : List AssembledSegment} (h : made.map onForms = .ok found) :
    ∃ all, made = .ok all ∧ onForms all = found := by
  cases made with
  | error e => simp [Except.map] at h
  | ok all => exact ⟨all, rfl, Except.ok.inj h⟩

/-- A step at a fixed-form segment is its choice of a form. -/
theorem assembleNext_of_fixedForm (h : segment.isFixedForm = true) :
    assembleNext env exam assessment accommodations segment cohort state =
      ((chooseForm env exam segment cohort state).1.map fun form =>
        (fixedFormSegment exam segment form, some (cohort.getD form.cohort)),
        (chooseForm env exam segment cohort state).2) :=
  if_pos h

/-- A step at a fixed-form segment depends on the rotations alone, and changes nothing else. -/
theorem assembleNext_congr (hfixed : segment.isFixedForm = true)
    (h : other.rotations = state.rotations) :
    assembleNext env exam assessment accommodations segment cohort other =
      let next := assembleNext env exam assessment accommodations segment cohort state
      (next.1, { other with rotations := next.2.rotations }) := by
  rw [assembleNext_of_fixedForm hfixed, assembleNext_of_fixedForm hfixed, chooseForm_congr h]

/-- A step at an adaptive segment whose history can be had is made, and moves neither the cohort
nor a rotation. -/
theorem exists_assembleNext_of_adaptive (assessment : Assessment)
    (accommodations : List Accommodation) (cohort : Option String) (state : AssemblyState)
    (hadaptive : segment.isFixedForm = false) {history : List FieldTestGroup}
    (hhistory : env.history exam.id segment.key = .ok history) :
    ∃ made after, assembleNext env exam assessment accommodations segment cohort state =
      (.ok (made, cohort), after) ∧ after.rotations = state.rotations := by
  obtain ⟨made, hmade⟩ := exists_assembleAdaptive_eq_ok assessment accommodations hhistory state
  refine ⟨made, (assembleAdaptive env exam assessment segment accommodations state).2, ?_,
    rotations_assembleAdaptive ..⟩
  rw [assembleNext, hadaptive]
  simp [hmade, Except.map]

/-- **Adaptive segments do not interfere**: what becomes of the fixed-form segments is what would
become of them alone. -/
theorem map_onForms_assembleSegments
    (hhistory : ∀ key, ∃ found, env.history exam.id key = .ok found) (segments : List Segment)
    (h : other.rotations = state.rotations) :
    (assembleSegments env exam assessment accommodations segments cohort state).1.map onForms =
      (assembleSegments env exam assessment accommodations (segments.filter (·.isFixedForm)) cohort
        other).1 := by
  induction segments generalizing cohort state other with
  | nil => rfl
  | cons segment rest ih =>
    have halgorithm : ∀ {made next} {after : AssemblyState},
        assembleNext env exam assessment accommodations segment cohort state =
          (.ok (made, next), after) → made.record.algorithm = segment.algorithm :=
      fun hnext => (isMade_of_assembleNext (congrArg Prod.fst hnext)).isRecordFor.algorithm
    cases hfixed : segment.isFixedForm with
    | true =>
      -- both sides take this step, with the same outcome for the same rotations
      rw [List.filter_cons_of_pos hfixed]
      rcases hnext : assembleNext env exam assessment accommodations segment cohort state with
        ⟨e | ⟨made, next⟩, after⟩
      · have hother : assembleNext env exam assessment accommodations segment cohort other =
            (.error e, { other with rotations := after.rotations }) := by
          rw [assembleNext_congr hfixed h, hnext]
        rw [assembleSegments_of_next_error _ hnext, assembleSegments_of_next_error _ hother]
        rfl
      · have hother : assembleNext env exam assessment accommodations segment cohort other =
            (.ok (made, next), { other with rotations := after.rotations }) := by
          rw [assembleNext_congr hfixed h, hnext]
        have hform : made.record.algorithm = .fixedForm := by
          simpa [halgorithm hnext, Segment.isFixedForm] using hfixed
        rw [assembleSegments_of_next_ok _ hnext, assembleSegments_of_next_ok _ hother,
          map_onForms_cons, if_pos hform, ih]
        rfl
    | false =>
      -- only the left side takes this step, and the rotations are the same after it
      rw [List.filter_cons_of_neg (by simp [hfixed])]
      obtain ⟨found, hfound⟩ := hhistory segment.key
      obtain ⟨made, after, hnext, hrotations⟩ :=
        exists_assembleNext_of_adaptive assessment accommodations cohort state hfixed hfound
      have hform : made.record.algorithm ≠ .fixedForm := by
        simpa [halgorithm hnext, Segment.isFixedForm] using hfixed
      rw [assembleSegments_of_next_ok _ hnext, map_onForms_cons, if_neg hform,
        ih (h.trans hrotations.symm)]

/-! ### Fixed-form segments alone -/

/-- Within a cohort a segment without a form of it ends the pass. -/
theorem assembleNext_of_not_hasForm {cohort : String} (hfixed : segment.isFixedForm = true)
    (h : ¬ segment.HasForm exam.languageCode cohort) :
    assembleNext env exam assessment accommodations segment (some cohort) state =
      (.error (.noCohortForm segment.key exam.languageCode cohort), state) := by
  have hnone : segment.formOfCohort? exam.languageCode cohort = none := by
    rw [Segment.hasForm_iff] at h
    simpa [Option.eq_none_iff_forall_ne_some] using h
  rw [assembleNext_of_fixedForm hfixed, chooseForm, hnone]
  rfl

/-- Within a cohort a segment takes its first form of it, and the cohort stays. -/
theorem assembleNext_of_formOfCohort? {cohort : String} {form : Form}
    (hfixed : segment.isFixedForm = true)
    (h : segment.formOfCohort? exam.languageCode cohort = some form) :
    assembleNext env exam assessment accommodations segment (some cohort) state =
      (.ok (fixedFormSegment exam segment form, some cohort), state) := by
  rw [assembleNext_of_fixedForm hfixed, chooseForm, h]
  rfl

/-- **A record carries a form**: it is the record of the segment, made on the form. -/
structure Carries (exam : Exam) (form : Form) (segment : Segment) (record : ExamSegment) : Prop
    extends IsRecordFor exam segment record where
  form : record.form = some form.assignment

theorem carries_fixedFormSegment (exam : Exam) (segment : Segment) (form : Form) :
    Carries exam form segment (fixedFormSegment exam segment form).record :=
  ⟨⟨rfl, rfl, rfl, rfl, rfl⟩, rfl⟩

/-- Within a cohort fixed-form segments that all have forms of it are made on the first of these. -/
theorem exists_assembleSegments_of_hasForm (env : Environment) (assessment : Assessment)
    (accommodations : List Accommodation) (state : AssemblyState) {cohort : String}
    {segments : List Segment} (hfixed : ∀ segment ∈ segments, segment.isFixedForm = true)
    (hforms : ∀ segment ∈ segments, segment.HasForm exam.languageCode cohort) :
    ∃ made, (assembleSegments env exam assessment accommodations segments (some cohort) state).1 =
        .ok made ∧
      List.Forall₂ (fun segment a =>
        ∃ form, segment.forms.find? (·.isFor exam.languageCode cohort) = some form ∧
          Carries exam form segment a.record) segments made := by
  induction segments with
  | nil => exact ⟨[], rfl, .nil⟩
  | cons segment rest ih =>
    rw [List.forall_mem_cons] at hfixed hforms
    obtain ⟨form, hform⟩ := Segment.hasForm_iff.1 hforms.1
    obtain ⟨made, hmade, hcarries⟩ := ih hfixed.2 hforms.2
    rw [assembleSegments_of_next_ok _ (assembleNext_of_formOfCohort? hfixed.1 hform), hmade]
    rw [Segment.formOfCohort?_eq] at hform
    exact ⟨_, rfl, .cons ⟨form, hform, carries_fixedFormSegment ..⟩ hcarries⟩

/-- Within a cohort the first fixed-form segment without a form of it ends the pass. -/
theorem assembleSegments_of_not_hasForm {cohort : String} {earlier later : List Segment}
    {lacking : Segment}
    (hfixed : ∀ segment ∈ earlier ++ lacking :: later, segment.isFixedForm = true)
    (hforms : ∀ segment ∈ earlier, segment.HasForm exam.languageCode cohort)
    (hlacking : ¬ lacking.HasForm exam.languageCode cohort) :
    (assembleSegments env exam assessment accommodations (earlier ++ lacking :: later) (some cohort)
      state).1 = .error (.noCohortForm lacking.key exam.languageCode cohort) := by
  induction earlier with
  | nil =>
    have hfirst : lacking.isFixedForm = true := hfixed lacking List.mem_cons_self
    rw [List.nil_append,
      assembleSegments_of_next_error later (assembleNext_of_not_hasForm hfirst hlacking)]
  | cons segment rest ih =>
    rw [List.cons_append, List.forall_mem_cons] at hfixed
    rw [List.forall_mem_cons] at hforms
    obtain ⟨form, hform⟩ := Segment.hasForm_iff.1 hforms.1
    rw [List.cons_append,
      assembleSegments_of_next_ok _ (assembleNext_of_formOfCohort? hfixed.1 hform),
      ih hfixed.2 hforms.2]
    rfl

/-- The first fixed-form segment ends the pass when it has no form in the language. -/
theorem assembleNext_of_no_form (hfixed : segment.isFixedForm = true)
    (h : ∀ form ∈ segment.forms, form.language ≠ exam.languageCode) :
    (assembleNext env exam assessment accommodations segment none state).1 =
      .error (.noForm segment.key exam.languageCode) := by
  have hnil : segment.formsIn exam.languageCode = [] := by
    rw [Segment.formsIn, List.filter_eq_nil_iff]
    simpa using h
  rw [assembleNext_of_fixedForm hfixed, chooseForm]
  dsimp only
  rw [Rotations.select_eq_none_iff.2 hnil]
  rfl

/-- The first fixed-form segment takes its next form in rotation, which fixes the cohort. -/
theorem assembleNext_of_select {form : Form} (hfixed : segment.isFixedForm = true)
    (h : (state.rotations.select env.config.rotation.idleTimeout segment exam.languageCode
      env.now).1 = some form) :
    (assembleNext env exam assessment accommodations segment none state).1 =
      .ok (fixedFormSegment exam segment form, some form.cohort) := by
  rw [assembleNext_of_fixedForm hfixed, chooseForm]
  dsimp only
  rw [h]
  rfl

/-- After the first fixed-form segment the pass goes on within the cohort of its form. -/
theorem exists_assembleSegments_of_select (assessment : Assessment)
    (accommodations : List Accommodation) (state : AssemblyState) {form : Form}
    (rest : List Segment) (hfixed : segment.isFixedForm = true)
    (h : (state.rotations.select env.config.rotation.idleTimeout segment exam.languageCode
      env.now).1 = some form) :
    ∃ after, (assembleSegments env exam assessment accommodations (segment :: rest) none state).1 =
      (assembleSegments env exam assessment accommodations rest (some form.cohort) after).1.map
        (fixedFormSegment exam segment form :: ·) := by
  refine ⟨(assembleNext env exam assessment accommodations segment none state).2, ?_⟩
  rw [assembleSegments_of_next_ok rest (Prod.ext (assembleNext_of_select hfixed h) rfl)]

/-! ### The outcome -/

/-- **A pass concludes** when something was made of every segment: it has no content when that is
no item at all, and succeeds otherwise. -/
structure Concludes (env : Environment) (exam : Exam) (assessment : Assessment)
    (state : AssemblyState) (made : List AssembledSegment) : Prop where
  draft : draft env exam assessment state = .ok made
  segments : ∃ accommodations, env.accommodations exam.id = .ok accommodations ∧
    List.Forall₂ (IsMade env exam assessment accommodations) assessment.inOrder made
  outcome : (assemble env exam assessment state).1 =
    if ∀ a ∈ made, a.record.examItemCount = 0 ∧ a.record.fieldTestItemCount = 0 then
      .error (.noContent exam.id)
    else .ok (manifestOf exam made)

namespace Environment.Available

variable (henv : env.Available)

include henv

/-- When nothing fails to be stored, a pass ends as its plan does. -/
theorem fst_assemble_eq : (assemble env exam assessment state).1 =
    (plan env exam assessment state).1 := by
  rw [assemble_eq]
  rcases plan env exam assessment state with ⟨e | manifest, after⟩
  · rfl
  · dsimp only
    rw [save_fst_eq_ok henv.segments (.inl henv.groups)]
    rfl

/-- A pass that fails in its draft ends with that failure. -/
theorem fst_assemble_of_draft_error {e : AssemblyError}
    (h : draft env exam assessment state = .error e) :
    (assemble env exam assessment state).1 = .error e := by
  rw [henv.fst_assemble_eq, fst_plan, h]

/-- A pass that has its draft concludes with it. -/
theorem concludes_of_draft_ok {made : List AssembledSegment}
    (h : draft env exam assessment state = .ok made) :
    Concludes env exam assessment state made where
  draft := h
  segments := exists_isMade_of_draft_ok h
  outcome := by
    rw [henv.fst_assemble_eq, fst_plan, h]
    simp only [totalItems_manifestOf_eq_zero_iff]

/-- What becomes of the fixed-form segments of a draft is what would become of them alone. -/
theorem map_onForms_draft (exam : Exam) (assessment : Assessment) (state : AssemblyState) :
    ∃ accommodations, (draft env exam assessment state).map onForms =
      (assembleSegments env exam assessment accommodations
        (assessment.inOrder.filter (·.isFixedForm)) none (state.evictIdle env)).1 := by
  obtain ⟨accommodations, haccommodations⟩ := henv.accommodations exam.id
  refine ⟨accommodations, ?_⟩
  rw [draft, haccommodations]
  exact map_onForms_assembleSegments (henv.history exam.id) _ rfl

end Environment.Available

/-- **How a pass ends once its first fixed-form segment has a form**: the first later one without a
form for the cohort ends it, and if there is none it concludes with every fixed-form segment on a
form of the cohort, the later ones each on their first. -/
structure EndsOnForm (env : Environment) (exam : Exam) (assessment : Assessment)
    (state : AssemblyState) (form : Form) (first : Segment) (rest : List Segment) : Prop where
  lacking : ∀ earlier lacking later, rest = earlier ++ lacking :: later →
    (∀ segment ∈ earlier, segment.HasForm exam.languageCode form.cohort) →
    ¬ lacking.HasForm exam.languageCode form.cohort →
      (assemble env exam assessment state).1 =
        .error (.noCohortForm lacking.key exam.languageCode form.cohort)
  complete : (∀ segment ∈ rest, segment.HasForm exam.languageCode form.cohort) →
    ∃ made, Concludes env exam assessment state made ∧
      ∃ record records,
        (manifestOf exam made).segments.filter (·.algorithm == .fixedForm) = record :: records ∧
        Carries exam form first record ∧
        List.Forall₂ (fun segment record =>
          ∃ found, segment.forms.find? (·.isFor exam.languageCode form.cohort) = some found ∧
            Carries exam found segment record) rest records

/-- A pass whose first fixed-form segment has a next form in rotation ends on that form. -/
theorem endsOnForm_of_select (henv : env.Available) {form : Form} {first : Segment}
    {rest : List Segment} (hfixed : assessment.inOrder.filter (·.isFixedForm) = first :: rest)
    (hselect : (state.rotations.select env.config.rotation.idleTimeout first exam.languageCode
      env.now).1 = some form) :
    EndsOnForm env exam assessment state form first rest := by
  have hall : ∀ segment ∈ first :: rest, segment.isFixedForm = true := by
    intro segment hsegment
    rw [← hfixed] at hsegment
    exact (List.mem_filter.mp hsegment).2
  rw [List.forall_mem_cons] at hall
  obtain ⟨accommodations, hdraft⟩ := henv.map_onForms_draft exam assessment state
  -- idle rotations are gone by then, which does not change what is selected
  rw [← Rotations.select_evictIdle] at hselect
  obtain ⟨after, hloop⟩ := exists_assembleSegments_of_select assessment accommodations
    (state.evictIdle env) rest hall.1 hselect
  rw [hfixed, hloop] at hdraft
  constructor
  · rintro earlier lacking later rfl hforms hlacking
    rw [assembleSegments_of_not_hasForm hall.2 hforms hlacking] at hdraft
    exact henv.fst_assemble_of_draft_error (map_onForms_eq_error hdraft)
  · intro hforms
    obtain ⟨found, hfound, hcarries⟩ :=
      exists_assembleSegments_of_hasForm env assessment accommodations after hall.2 hforms
    rw [hfound] at hdraft
    obtain ⟨made, hmade, honForms⟩ := map_onForms_eq_ok hdraft
    have hrecords := filter_segments_manifestOf exam made
    rw [honForms, List.map_cons] at hrecords
    exact ⟨made, henv.concludes_of_draft_ok hmade, _, _, hrecords, carries_fixedFormSegment ..,
      List.forall₂_map_right_iff.mpr hcarries⟩

/-- A fixed-form segment at a position, with a form for each of the cohorts. -/
def segmentOfCohorts (key : String) (position : UInt32) (cohorts : List String) : Segment :=
  Fixture.buildSegment key .fixedForm <| .position position :: cohorts.map fun cohort =>
    .form (Fixture.form (key ++ cohort) Fixture.language cohort 2)

/-- An assessment whose last segment has no form for the cohort of the first. -/
def crossedAssessment : Assessment :=
  Fixture.assessment
    [segmentOfCohorts "S1" 1 ["Blue", "Red"], Fixture.buildSegment "S2" .adaptive [.position 2],
      segmentOfCohorts "S3" 3 ["Red"]]

end TestAssembly
