import TestAssembly.Proofs.Assembly.Outcome
import TestAssembly.Proofs.Assembly.Seeding
import TestAssembly.Proofs.Assembly.SideBySide
import TestAssembly.Proofs.FieldTest.Draws

/-!
# Independent passes commute

All passes share one ledger, one set of rotations, one source of randomness and one store. What the
ledger and the rotations keep is kept by segment key, and two facts hold passes apart whose
assessments have no key in common: a pass leaves what is kept for any other key as it is
(`sameAt_assemble`), and what it makes of its own segments depends on what is kept for their keys
alone (`agreesOn_assemble`). Both are up to idle rotations, which a pass drops for all keys; but
they would start over anyway. Draws are counted by how many a pass takes, not from which on, so a
source without memory gives it the same positions. `assemble_comm` puts both facts together: the
order of two such passes makes no difference to their results or to the state they end in, except
for the order in which the store has their records.
-/

namespace TestAssembly

open Time

/-! ### Live rotations -/

namespace Rotations

variable {rotations others : Rotations} {timeout : Nat} {now : Instant} {key language : String}
  {segment : Segment}

/-- The rotation of a key, unless it was idle for the timeout. -/
def live? (rotations : Rotations) (timeout : Nat) (now : Instant) (key : String) :
    Option Rotation :=
  (rotations.bySegment.get? key).filter fun rotation => !rotation.isIdle timeout now

/-- The live rotations are those that stay. -/
theorem get?_evictIdle (rotations : Rotations) (timeout : Nat) (now : Instant) (key : String) :
    (rotations.evictIdle timeout now).bySegment.get? key = rotations.live? timeout now key :=
  NameMap.get?_filter rotations.bySegment _ key

theorem live?_evictIdle (rotations : Rotations) (timeout : Nat) (now : Instant) (key : String) :
    (rotations.evictIdle timeout now).live? timeout now key = rotations.live? timeout now key := by
  rw [live?, get?_evictIdle, live?, Option.filter_filter]
  simp only [Bool.and_self]

theorem live?_select_of_ne (h : segment.key ≠ key) :
    (rotations.select timeout segment language now).2.live? timeout now key =
      rotations.live? timeout now key := by
  rw [live?, get?_select_of_ne h, live?]

/-- An idle rotation starts over like one that is not there. -/
theorem nextIndex_live? (rotations : Rotations) (timeout : Nat) (now : Instant) (key : String)
    (count : Nat) :
    Rotation.nextIndex timeout now count (rotations.live? timeout now key) =
      Rotation.nextIndex timeout now count (rotations.bySegment.get? key) :=
  nextIndex_filter fun _ _ => Int.le_refl _

/-- **A segment's next form** and the move of its rotation depend on its live rotation alone. -/
theorem select_congr
    (h : others.live? timeout now segment.key = rotations.live? timeout now segment.key) :
    (others.select timeout segment language now).1 =
        (rotations.select timeout segment language now).1 ∧
      (others.select timeout segment language now).2.live? timeout now segment.key =
        (rotations.select timeout segment language now).2.live? timeout now segment.key := by
  rcases Nat.lt_or_ge (segment.formsIn language).length 2 with hlt | hge
  · rw [select_of_length_lt hlt, select_of_length_lt hlt]
    exact ⟨rfl, h⟩
  · have hindex : Rotation.nextIndex timeout now (segment.formsIn language).length
          (others.bySegment.get? segment.key) =
        Rotation.nextIndex timeout now (segment.formsIn language).length
          (rotations.bySegment.get? segment.key) := by
      rw [← nextIndex_live?, ← nextIndex_live?, h]
    rw [select_of_two_le_length hge, select_of_two_le_length hge]
    simp only [hindex, live?, NameMap.get?_insert_self]
    exact ⟨trivial, trivial⟩

/-- **No rotation is idle.** -/
def AllLive (rotations : Rotations) (timeout : Nat) (now : Instant) : Prop :=
  ∀ key, rotations.bySegment.get? key = rotations.live? timeout now key

theorem allLive_evictIdle (rotations : Rotations) (timeout : Nat) (now : Instant) :
    (rotations.evictIdle timeout now).AllLive timeout now := by
  intro key
  rw [get?_evictIdle, live?_evictIdle]

/-- A rotation that moves at present is not idle, unless idleness takes no time at all. -/
theorem AllLive.select (h : rotations.AllLive timeout now) (htimeout : 0 < timeout)
    (segment : Segment) (language : String) :
    (rotations.select timeout segment language now).2.AllLive timeout now := by
  intro key
  by_cases hkey : segment.key = key
  · subst hkey
    rcases Nat.lt_or_ge (segment.formsIn language).length 2 with hlt | hge
    · rw [select_of_length_lt hlt]
      exact h segment.key
    · have hnow : now.elapsed now = 0 := by
        simp [Instant.elapsed, Instant.leapBetween]
      have hidle : ∀ index, Rotation.isIdle ⟨index, now⟩ timeout now = false := by
        intro index
        simp only [Rotation.isIdle, hnow, decide_eq_false_iff_not]
        omega
      rw [select_of_two_le_length hge]
      simp only [live?, NameMap.get?_insert_self, Option.filter_some, hidle]
      rfl
  · rw [get?_select_of_ne hkey, live?_select_of_ne hkey]
    exact h key

/-- Rotations of which none is idle are known by their live ones. -/
theorem AllLive.eq (h : rotations.AllLive timeout now) (hothers : others.AllLive timeout now)
    (hlive : ∀ key, others.live? timeout now key = rotations.live? timeout now key) :
    others = rotations := by
  have hmap : others.bySegment = rotations.bySegment :=
    NameMap.ext_get? fun key => by rw [h key, hothers key, hlive key]
  cases others
  cases rotations
  exact congrArg Rotations.mk hmap

end Rotations

/-! ### The counters of a segment -/

/-- What is dealt out on a segment depends on its own counters alone. -/
theorem Ledger.claim_congr {ledger other : Ledger} {segment : String}
    (h : other.segments.get? segment = ledger.segments.get? segment)
    (eligible : NameMap UInt32) (wanted : UInt32) :
    (other.claim segment eligible wanted).1 = (ledger.claim segment eligible wanted).1 ∧
      (other.claim segment eligible wanted).2.segments.get? segment =
        (ledger.claim segment eligible wanted).2.segments.get? segment := by
  have htallies : other.tallies segment = ledger.tallies segment := by rw [tallies, h, tallies]
  simp only [claim, htallies, NameMap.get?_insert_self]
  exact ⟨trivial, trivial⟩

theorem SelectionRequest.select_congr {r : SelectionRequest} {ledger other : Ledger}
    (h : other.segments.get? r.segment.key = ledger.segments.get? r.segment.key) :
    (r.select other).1 = (r.select ledger).1 ∧
      (r.select other).2.segments.get? r.segment.key =
        (r.select ledger).2.segments.get? r.segment.key := by
  unfold select
  split
  · exact ⟨rfl, h⟩
  · obtain ⟨hgroups, hcounters⟩ := Ledger.claim_congr h r.offer r.wanted
    dsimp only
    rw [hgroups]
    exact ⟨rfl, hcounters⟩

variable {env : Environment} {exam : Exam} {assessment : Assessment}
  {accommodations : List Accommodation} {segment : Segment} {segments : List Segment}
  {key : String} {state one two : AssemblyState} {since since' : Nat}

/-! ### Other keys -/

/-- **The same at a key**: what two states keep for a segment key, apart from an idle rotation. -/
structure AssemblyState.SameAt (env : Environment) (key : String) (one two : AssemblyState) :
    Prop where
  usage : two.usage.segments.get? key = one.usage.segments.get? key
  rotation : two.rotations.live? env.config.rotation.idleTimeout env.now key =
    one.rotations.live? env.config.rotation.idleTimeout env.now key

namespace AssemblyState.SameAt

theorem refl (env : Environment) (key : String) (state : AssemblyState) :
    state.SameAt env key state :=
  ⟨rfl, rfl⟩

theorem symm (h : one.SameAt env key two) : two.SameAt env key one :=
  ⟨h.usage.symm, h.rotation.symm⟩

theorem trans {three : AssemblyState} (h : one.SameAt env key two)
    (h' : two.SameAt env key three) : one.SameAt env key three :=
  ⟨h'.usage.trans h.usage, h'.rotation.trans h.rotation⟩

end AssemblyState.SameAt

/-- Dropping idle rotations leaves all live ones. -/
theorem sameAt_evictIdle (env : Environment) (key : String) (state : AssemblyState) :
    state.SameAt env key (state.evictIdle env) :=
  ⟨rfl, Rotations.live?_evictIdle _ _ _ key⟩

/-- A choice of a form leaves what is kept for other keys. -/
theorem sameAt_chooseForm (h : segment.key ≠ key) (cohort : Option String) :
    state.SameAt env key (chooseForm env exam segment cohort state).2 := by
  unfold chooseForm
  split
  · dsimp only
    split <;> exact ⟨rfl, Rotations.live?_select_of_ne h⟩
  · split <;> exact .refl env key state

/-- So does an adaptive segment. -/
theorem sameAt_assembleAdaptive (h : segment.key ≠ key) :
    state.SameAt env key
      (assembleAdaptive env exam assessment segment accommodations state).2 := by
  refine ⟨get?_usage_assembleAdaptive fun heq => absurd heq h, ?_⟩
  rw [rotations_assembleAdaptive]

/-- **A pass leaves what is kept for other keys** as it is, whether it succeeds or fails. -/
theorem sameAt_assemble (h : ∀ segment ∈ assessment.segments, segment.key ≠ key) (exam : Exam)
    (state : AssemblyState) : state.SameAt env key (assemble env exam assessment state).2 := by
  have hplan : state.SameAt env key (plan env exam assessment state).2 := by
    cases haccommodations : env.accommodations exam.id with
    | error outage =>
      rw [snd_plan_of_error haccommodations]
      exact .refl env key state
    | ok accommodations =>
      rw [snd_plan_of_ok haccommodations]
      have hne : ∀ segment ∈ assessment.inOrder, segment.key ≠ key := fun segment hmem =>
        h segment (assessment.inOrder_perm.mem_iff.mp hmem)
      exact assembleSegments_keeps env exam assessment accommodations
        (fun segment hmem _ cohort _ hafter =>
          hafter.trans (sameAt_chooseForm (hne segment hmem) cohort))
        (fun segment hmem _ _ hafter => hafter.trans (sameAt_assembleAdaptive (hne segment hmem)))
        none (sameAt_evictIdle env key state)
  obtain ⟨store, hafter⟩ := exists_snd_assemble env exam assessment state
  rw [hafter]
  exact ⟨hplan.usage, hplan.rotation⟩

/-! ### A pass at its own keys -/

/-- **Agreement on segments**: two states keep the same for the keys of the segments, and as many
draws were taken towards the one since some point as towards the other since another. -/
structure AssemblyState.AgreesOn (env : Environment) (segments : List Segment) (since since' : Nat)
    (one two : AssemblyState) : Prop where
  same : ∀ segment ∈ segments, one.SameAt env segment.key two
  drawsTaken : two.drawsTaken + since = one.drawsTaken + since'

/-- After a step at one segment the states agree on all segments, if they do on this one: the step
leaves what is kept for other keys. -/
theorem AssemblyState.AgreesOn.step {one' two' : AssemblyState}
    (h : one.AgreesOn env segments since since' two)
    (hother : ∀ key, segment.key ≠ key → one.SameAt env key one' ∧ two.SameAt env key two')
    (hself : one'.SameAt env segment.key two')
    (hdraws : two'.drawsTaken + since = one'.drawsTaken + since') :
    one'.AgreesOn env segments since since' two' := by
  refine ⟨fun other hmem => ?_, hdraws⟩
  by_cases hkey : segment.key = other.key
  · rw [← hkey]
    exact hself
  · obtain ⟨hone, htwo⟩ := hother other.key hkey
    exact (hone.symm.trans (h.same other hmem)).trans htwo

/-- A form is chosen alike where the states agree. -/
theorem agreesOn_chooseForm (hmem : segment ∈ segments) (cohort : Option String)
    (h : one.AgreesOn env segments since since' two) :
    (chooseForm env exam segment cohort two).1 = (chooseForm env exam segment cohort one).1 ∧
      (chooseForm env exam segment cohort one).2.AgreesOn env segments since since'
        (chooseForm env exam segment cohort two).2 := by
  cases cohort with
  | some cohort =>
    unfold chooseForm
    dsimp only
    split <;> exact ⟨rfl, h⟩
  | none =>
    have hsame := h.same segment hmem
    obtain ⟨hform, hrotation⟩ := @Rotations.select_congr one.rotations two.rotations
      env.config.rotation.idleTimeout env.now exam.languageCode segment hsame.rotation
    obtain ⟨rotations, hone⟩ := exists_snd_chooseForm env exam segment none one
    obtain ⟨rotations', htwo⟩ := exists_snd_chooseForm env exam segment none two
    refine ⟨?_, ?_⟩
    · simp only [chooseForm, hform]
      split <;> rfl
    · refine h.step (fun key hkey => ⟨sameAt_chooseForm hkey none, sameAt_chooseForm hkey none⟩)
        ⟨?_, ?_⟩ ?_
      · rw [hone, htwo]
        exact hsame.usage
      · simp only [chooseForm]
        rw [hform]
        split <;> exact hrotation
      · rw [hone, htwo]
        exact h.drawsTaken

/-- An adaptive segment is made alike where the states agree, from a source without memory. -/
theorem agreesOn_assembleAdaptive (hrandom : env.random.IsMemoryless) (hmem : segment ∈ segments)
    (h : one.AgreesOn env segments since since' two) :
    (assembleAdaptive env exam assessment segment accommodations two).1 =
        (assembleAdaptive env exam assessment segment accommodations one).1 ∧
      (assembleAdaptive env exam assessment segment accommodations one).2.AgreesOn env segments
        since since' (assembleAdaptive env exam assessment segment accommodations two).2 := by
  by_cases hseedable : IsSeedable env exam assessment accommodations segment
  · cases hhistory : env.history exam.id segment.key with
    | error outage =>
      rw [assembleAdaptive_of_history_error hseedable hhistory,
        assembleAdaptive_of_history_error hseedable hhistory]
      exact ⟨rfl, h⟩
    | ok history =>
      have hsame := h.same segment hmem
      obtain ⟨hselected, hcounters⟩ := @SelectionRequest.select_congr
        (seedingRequest env exam assessment accommodations segment history) one.usage two.usage
        hsame.usage
      obtain ⟨hgroups, hcount, hdraws⟩ := @PlacementRule.place_of_isMemoryless
        (seedingRule env exam segment) hrandom (sumWrapped (history.map (·.itemCount)))
        one.drawsTaken two.drawsTaken
        ((seedingRequest env exam assessment accommodations segment history).select one.usage).1
      have hother : ∀ key, segment.key ≠ key →
          one.SameAt env key (assembleAdaptive env exam assessment segment accommodations one).2 ∧
            two.SameAt env key
              (assembleAdaptive env exam assessment segment accommodations two).2 :=
        fun key hkey => ⟨sameAt_assembleAdaptive hkey, sameAt_assembleAdaptive hkey⟩
      rw [assembleAdaptive_of_history_ok hseedable hhistory,
        assembleAdaptive_of_history_ok hseedable hhistory] at hother ⊢
      simp only [seeding, hselected] at hother ⊢
      refine ⟨?_, h.step hother ⟨hcounters, hsame.rotation⟩ ?_⟩
      · rw [adaptiveSegment, adaptiveSegment, hgroups, hcount]
      · -- both placements take equally many draws, from wherever they start
        have htaken := h.drawsTaken
        dsimp only
        omega
  · rw [assembleAdaptive_of_not_seedable hseedable, assembleAdaptive_of_not_seedable hseedable]
    exact ⟨rfl, h⟩

/-- A pass plans alike from states that agree on its segments. -/
theorem agreesOn_plan (hrandom : env.random.IsMemoryless) (exam : Exam)
    (h : one.AgreesOn env assessment.segments since since' two) :
    (plan env exam assessment two).1 = (plan env exam assessment one).1 ∧
      (plan env exam assessment one).2.AgreesOn env assessment.segments since since'
        (plan env exam assessment two).2 := by
  have hevicted : (one.evictIdle env).AgreesOn env assessment.segments since since'
      (two.evictIdle env) := by
    refine ⟨fun segment hmem => ?_, h.drawsTaken⟩
    have hone := sameAt_evictIdle env segment.key one
    exact (hone.symm.trans (h.same segment hmem)).trans (sameAt_evictIdle env segment.key two)
  have hsegments : assessment.inOrder ⊆ assessment.segments := fun segment hmem =>
    assessment.inOrder_perm.mem_iff.mp hmem
  have hplan : SideBySide Eq (plan env exam assessment one).1 (plan env exam assessment two).1 ∧
      (plan env exam assessment one).2.AgreesOn env assessment.segments since since'
        (plan env exam assessment two).2 := by
    refine plan_sideBySide (fun _ => Eq) rfl (fun accommodations => ?_)
      (fun made others hmade => ?_) h
    · exact assembleSegments_sideBySide (fun _ _ => rfl)
        (fun segment hmem _ cohort _ _ hholds =>
          agreesOn_chooseForm (hsegments hmem) cohort hholds)
        (fun segment hmem _ _ _ hholds =>
          (agreesOn_assembleAdaptive hrandom (hsegments hmem) hholds).imp_left
            fun hmade => .of_eq hmade.symm)
        none hevicted
    · obtain rfl := hmade.eq
      exact ⟨rfl, rfl⟩
  exact ⟨hplan.1.eq.symm, hplan.2⟩

/-- **A pass depends on what is kept for its own keys**: from states that agree on its segments it
has the same outcome, takes equally many draws and leaves states that agree on them again. -/
theorem agreesOn_assemble (hrandom : env.random.IsMemoryless) (exam : Exam)
    (h : one.AgreesOn env assessment.segments since since' two) :
    (assemble env exam assessment two).1 = (assemble env exam assessment one).1 ∧
      (assemble env exam assessment one).2.AgreesOn env assessment.segments since since'
        (assemble env exam assessment two).2 := by
  obtain ⟨houtcome, hstate⟩ := agreesOn_plan hrandom exam h
  constructor
  · rw [assemble_eq, assemble_eq]
    generalize plan env exam assessment one = planned at houtcome
    generalize plan env exam assessment two = planned' at houtcome
    obtain ⟨e | manifest, after⟩ := planned <;> obtain ⟨_, after'⟩ := planned' <;>
      obtain rfl := houtcome
    · rfl
    · dsimp only
      rw [fst_save_congr]
  · obtain ⟨store, hone⟩ := exists_snd_assemble env exam assessment one
    obtain ⟨store', htwo⟩ := exists_snd_assemble env exam assessment two
    rw [hone, htwo]
    refine ⟨fun segment hmem => ?_, hstate.drawsTaken⟩
    have hsame := hstate.same segment hmem
    exact ⟨hsame.usage, hsame.rotation⟩

/-! ### Idle rotations -/

/-- **A pass leaves no idle rotation**, once it has the accommodations and unless idleness takes no
time at all. -/
theorem allLive_assemble (htimeout : 0 < env.config.rotation.idleTimeout)
    (haccommodations : env.accommodations exam.id = .ok accommodations) (assessment : Assessment)
    (state : AssemblyState) :
    (assemble env exam assessment state).2.rotations.AllLive env.config.rotation.idleTimeout
      env.now := by
  obtain ⟨store, hafter⟩ := exists_snd_assemble env exam assessment state
  rw [hafter, snd_plan_of_ok haccommodations]
  dsimp only
  refine @assembleSegments_keeps
    (fun after => after.rotations.AllLive env.config.rotation.idleTimeout env.now) env exam
    assessment accommodations assessment.inOrder (fun segment _ _ cohort after h => ?_)
    (fun segment _ _ after h => ?_) none _ (Rotations.allLive_evictIdle _ _ _)
  · unfold chooseForm
    split
    · dsimp only
      split <;> exact h.select htimeout segment exam.languageCode
    · split <;> exact h
  · rw [rotations_assembleAdaptive]
    exact h

/-- Without the accommodations nothing is changed. -/
theorem snd_assemble_of_error {outage : Outage} (h : env.accommodations exam.id = .error outage)
    (assessment : Assessment) (state : AssemblyState) :
    (assemble env exam assessment state).2 = state := by
  rw [assemble, h]

/-! ### Both orders -/

/-- **No segment key in common.** -/
def Assessment.IsApartFrom (assessment other : Assessment) : Prop :=
  ∀ segment ∈ assessment.segments, ∀ segment' ∈ other.segments, segment.key ≠ segment'.key

theorem Assessment.IsApartFrom.symm {assessment other : Assessment}
    (h : assessment.IsApartFrom other) : other.IsApartFrom assessment :=
  fun segment hmem segment' hmem' => (h segment' hmem' segment hmem).symm

section Orders

variable {assessment' : Assessment}

/-- **Passing after another** at an assessment without a common key makes no difference: the outcome
is that of passing first, and so are the change for the own keys and the number of draws. -/
theorem agreesOn_assemble_after (hrandom : env.random.IsMemoryless)
    (hapart : assessment.IsApartFrom assessment') (exam exam' : Exam) (state : AssemblyState) :
    let after := (assemble env exam' assessment' state).2
    (assemble env exam assessment after).1 = (assemble env exam assessment state).1 ∧
      (assemble env exam assessment state).2.AgreesOn env assessment.segments state.drawsTaken
        after.drawsTaken (assemble env exam assessment after).2 := by
  intro after
  have hagrees : state.AgreesOn env assessment.segments state.drawsTaken after.drawsTaken
      after := by
    refine ⟨fun segment hmem => ?_, Nat.add_comm _ _⟩
    exact sameAt_assemble (fun other hother => hapart.symm other hother segment hmem) exam' state
  exact agreesOn_assemble hrandom exam hagrees

/-- In both orders the same is kept for every key. -/
theorem sameAt_assemble_assemble (hrandom : env.random.IsMemoryless)
    (hapart : assessment.IsApartFrom assessment') (exam exam' : Exam) (state : AssemblyState)
    (key : String) :
    (assemble env exam' assessment' (assemble env exam assessment state).2).2.SameAt env key
      (assemble env exam assessment (assemble env exam' assessment' state).2).2 := by
  obtain ⟨-, hown⟩ := agreesOn_assemble_after hrandom hapart exam exam' state
  obtain ⟨-, hown'⟩ := agreesOn_assemble_after hrandom hapart.symm exam' exam state
  by_cases hkey : ∃ segment ∈ assessment.segments, segment.key = key
  · -- a key of the first assessment: the second pass leaves it
    obtain ⟨segment, hmem, rfl⟩ := hkey
    have hleft : ∀ start : AssemblyState,
        start.SameAt env segment.key (assemble env exam' assessment' start).2 :=
      sameAt_assemble (fun other hother => hapart.symm other hother segment hmem) exam'
    exact (hleft _).symm.trans (hown.same segment hmem)
  · have hleft : ∀ start : AssemblyState,
        start.SameAt env key (assemble env exam assessment start).2 :=
      sameAt_assemble (fun segment hmem heq => hkey ⟨segment, hmem, heq⟩) exam
    by_cases hkey' : ∃ segment ∈ assessment'.segments, segment.key = key
    · obtain ⟨segment, hmem, rfl⟩ := hkey'
      exact (hown'.same segment hmem).symm.trans (hleft _)
    · have hleft' : ∀ start : AssemblyState,
          start.SameAt env key (assemble env exam' assessment' start).2 :=
        sameAt_assemble (fun segment hmem heq => hkey' ⟨segment, hmem, heq⟩) exam'
      exact ((hleft _).trans (hleft' _)).symm.trans ((hleft' _).trans (hleft _))

/-- In both orders the rotations are the same, idle ones included. -/
theorem rotations_assemble_comm (hrandom : env.random.IsMemoryless)
    (htimeout : 0 < env.config.rotation.idleTimeout) (hapart : assessment.IsApartFrom assessment')
    (exam exam' : Exam) (state : AssemblyState) :
    (assemble env exam assessment (assemble env exam' assessment' state).2).2.rotations =
      (assemble env exam' assessment' (assemble env exam assessment state).2).2.rotations := by
  cases hfirst : env.accommodations exam.id with
  | error outage => rw [snd_assemble_of_error hfirst, snd_assemble_of_error hfirst]
  | ok accommodations =>
    cases hsecond : env.accommodations exam'.id with
    | error outage => rw [snd_assemble_of_error hsecond, snd_assemble_of_error hsecond]
    | ok accommodations' =>
      -- each pass drops the idle rotations, so in both orders only live ones are left
      have hlive := allLive_assemble htimeout hsecond assessment'
        (assemble env exam assessment state).2
      refine hlive.eq (allLive_assemble htimeout hfirst assessment _) fun key => ?_
      exact (sameAt_assemble_assemble hrandom hapart exam exam' state key).rotation

end Orders

/-- **Independent passes commute.** Two passes at assessments without a common segment key, at one
moment, from a source without memory, where everything is taken that is stored and idleness takes
some time: in both orders each exam gets the same result, and ledger, rotations and draws end up the
same. The store has the records of the two, one after the other. -/
theorem assemble_comm {env : Environment} (hrandom : env.random.IsMemoryless)
    (hstoring : env.TakesRecords) (hidle : 0 < env.config.rotation.idleSeconds)
    {one two : Assessment} (hapart : one.IsApartFrom two) (exam exam' : Exam)
    (state : AssemblyState) :
    let first := assemble env exam one state
    let second := assemble env exam' two first.2
    let second' := assemble env exam' two state
    let first' := assemble env exam one second'.2
    first'.1 = first.1 ∧ second'.1 = second.1 ∧
      first'.2.usage = second.2.usage ∧ first'.2.rotations = second.2.rotations ∧
      first'.2.drawsTaken = second.2.drawsTaken ∧
      second.2.store = (state.store.add first.1).add second.1 ∧
      first'.2.store = (state.store.add second.1).add first.1 := by
  intro first second second' first'
  obtain ⟨hfirst, hown⟩ := agreesOn_assemble_after hrandom hapart exam exam' state
  obtain ⟨hsecond, hown'⟩ := agreesOn_assemble_after hrandom hapart.symm exam' exam state
  have htimeout : 0 < env.config.rotation.idleTimeout :=
    Nat.mul_pos (UInt64.lt_iff_toNat_lt.mp hidle) (by decide)
  have husage : first'.2.usage = second.2.usage := by
    refine congrArg Ledger.mk (NameMap.ext_get? fun key => ?_)
    exact (sameAt_assemble_assemble hrandom hapart exam exam' state key).usage
  have hdraws : first'.2.drawsTaken = second.2.drawsTaken := by
    have htaken : first'.2.drawsTaken + state.drawsTaken =
        second.2.drawsTaken + state.drawsTaken :=
      (hown.drawsTaken.trans (Nat.add_comm _ _)).trans hown'.drawsTaken.symm
    exact Nat.add_right_cancel htaken
  have hstore : second.2.store = (state.store.add first.1).add second.1 := by
    rw [hstoring.store_assemble, hstoring.store_assemble]
  have hstore' : first'.2.store = (state.store.add second'.1).add first'.1 := by
    rw [hstoring.store_assemble, hstoring.store_assemble]
  refine ⟨hfirst, hsecond.symm, husage, ?_, hdraws, hstore, ?_⟩
  · exact rotations_assemble_comm hrandom htimeout hapart exam exam' state
  · rw [hstore', ← hsecond, hfirst]

/-- **A pass that fails commutes** with one that seeds: it moves the rotation of its first segment
before it fails at its last one. -/
theorem assemble_comm_crossedAssessment :
    let first := assemble plainServices (Fixture.exam "EX") seededAssessment .initial
    let second := assemble plainServices (Fixture.exam "EY") crossedAssessment first.2
    let second' := assemble plainServices (Fixture.exam "EY") crossedAssessment .initial
    let first' := assemble plainServices (Fixture.exam "EX") seededAssessment second'.2
    first'.1 = first.1 ∧ first.1.isOk = true ∧
      second'.1 = second.1 ∧ second'.1 = .error (.noCohortForm "S3" "ENU" "Blue") ∧
      second'.2.rotations.size = 1 ∧ first'.2.usage = second.2.usage ∧
      first'.2.rotations = second.2.rotations ∧ first'.2.drawsTaken = second.2.drawsTaken ∧
      second.2.store = Store.empty.add first.1 ∧ first'.2.store = Store.empty.add first.1 := by
  intro first second second' first'
  have hapart : seededAssessment.IsApartFrom crossedAssessment := by
    unfold Assessment.IsApartFrom
    decide
  have horder : crossedAssessment.inOrder = crossedAssessment.segments :=
    Assessment.inOrder_of_pairwise (by decide)
  have hsuccess : first.1.isOk = true := by decide +kernel
  have herror : second'.1 = .error (.noCohortForm "S3" "ENU" "Blue") := by
    show (assemble plainServices (Fixture.exam "EY") crossedAssessment .initial).1 = _
    rw [assemble, horder]
    decide +kernel
  have hrotation : second'.2.rotations.size = 1 := by
    show (assemble plainServices (Fixture.exam "EY") crossedAssessment
      .initial).2.rotations.size = 1
    rw [assemble, horder]
    decide +kernel
  obtain ⟨hfirst, hsecond, husage, hrotations, hdraws, hstore, hstore'⟩ :=
    @assemble_comm plainServices (fun _ _ _ => rfl) ⟨rfl, rfl⟩ (by decide) seededAssessment
      crossedAssessment hapart (Fixture.exam "EX") (Fixture.exam "EY") .initial
  have hfailed : second.1 = .error (.noCohortForm "S3" "ENU" "Blue") := hsecond.symm.trans herror
  refine ⟨hfirst, hsuccess, hsecond, herror, hrotation, husage, hrotations, hdraws, ?_, ?_⟩
  · exact hstore.trans (congrArg _ hfailed)
  · exact hstore'.trans (congrArg (fun outcome => Store.add (Store.add _ outcome) _) hfailed)

end TestAssembly
