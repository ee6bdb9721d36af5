import TestAssembly.Proofs.Wire.Rewriting
import TestAssembly.Wire.Catalog
import TestAssembly.Wire.Config

/-!
# What is written can be read

A value is read back from its own JSON (`Codec.RoundTrips`): single values one by one, and records
by their fields, which all are written, each under a name of its own (`roundTrips_record`). For each
type of the wire format this is put together from the types of its fields.

Two kinds of values are not read back everywhere. Instants are taken to be those that their texts
stand for, and an adaptive cut must be finite to be written at all. Where this holds of a value
(`IsPortable`), it is read from every rewriting of its JSON (`wire_keeps`).
-/

namespace TestAssembly

open Time

namespace Codec

variable {α : Type}

/-- **Round trip**: the value is read back from its JSON. -/
def RoundTrips (c : Codec α) (a : α) : Prop := c.decode (c.encode a) = .ok a

/-! ### Single values -/

@[simp] theorem roundTrips_string (s : String) : string.RoundTrips s := rfl

@[simp] theorem roundTrips_bool (b : Bool) : bool.RoundTrips b := rfl

theorem natural?_nat (n : Nat) : natural? (.nat n) = some n := by
  simp [natural?, Json.nat]

@[simp] theorem roundTrips_count (n : UInt32) : count.RoundTrips n := by
  have h : n.toNat < countBound := n.toNat_lt
  simp [RoundTrips, count, natural?_nat, h]

@[simp] theorem roundTrips_word (n : UInt64) : word.RoundTrips n := by
  have h : n.toNat < wordBound := n.toNat_lt
  simp [RoundTrips, word, natural?_nat, h]

theorem roundTrips_real {x : Float} (h : x.isFinite = true) : real.RoundTrips x := by
  simp [RoundTrips, real, h]

theorem roundTrips_text {write : α → String} {read? : String → Option α} {a : α}
    (h : read? (write a) = some a) : (text write read?).RoundTrips a := by
  simp [RoundTrips, text, h]

theorem roundTrips_choice {write : α → String} {read? : String → Option α} {a : α}
    (h : read? (write a) = some a) : (choice write read?).RoundTrips a := by
  simp [RoundTrips, choice, h]

/-! ### Values made of values -/

/-- Null is left to stand for no value. -/
theorem roundTrips_option {c : Codec α} {o : Option α}
    (h : ∀ a ∈ o, c.RoundTrips a ∧ (c.encode a).isNull = false) : c.option.RoundTrips o := by
  cases o with
  | none => rfl
  | some a =>
    obtain ⟨hvalue, hnull⟩ := h a rfl
    exact (decode_option hnull).trans (congrArg (Except.map some) hvalue)

@[simp] theorem roundTrips_list {c : Codec α} {as : List α} :
    c.list.RoundTrips as ↔ ∀ a ∈ as, c.RoundTrips a :=
  mapM_eq_ok_iff.trans (List.forall₂_map_left_iff.trans List.forall₂_same)

theorem roundTrips_map {c : Codec α} {m : NameMap α} (h : ∀ e ∈ m.entries, c.RoundTrips e.2) :
    c.map.RoundTrips m := by
  refine decode_map_eq_ok_iff.2 ⟨m.entries, ?_, m.ofList_entries⟩
  exact List.forall₂_map_left_iff.mpr (List.forall₂_same.mpr fun e he => ⟨h e he, rfl⟩)

@[simp] theorem roundTrips_nameSet (s : NameSet) : nameSet.RoundTrips s := by
  have hnames : string.list.decode (nameSet.encode s) = .ok s.keys :=
    roundTrips_list.2 fun _ _ => roundTrips_string _
  exact map_eq_ok_iff.2 ⟨s.keys, hnames, s.ofNames_keys⟩

end Codec

/-! ### Records -/

namespace Fields

/-- Every field of a record is read back. -/
def RoundTrips {σ ρ : Type} : Fields σ ρ → ρ → Prop
  | done, _ => True
  | cons field rest, (a, r) => field.codec.RoundTrips a ∧ rest.RoundTrips r

section

variable {α σ ρ : Type} {name : String} {codec : Codec α} {rest : Fields σ ρ} {a : α} {r : ρ}

@[simp] theorem roundTrips_done : done.RoundTrips () := trivial

@[simp] theorem roundTrips_required :
    (required name codec rest).RoundTrips (a, r) ↔ codec.RoundTrips a ∧ rest.RoundTrips r :=
  Iff.rfl

@[simp] theorem roundTrips_defaulted {value : α} :
    (defaulted name codec value rest).RoundTrips (a, r) ↔
      codec.RoundTrips a ∧ rest.RoundTrips r :=
  Iff.rfl

@[simp] theorem roundTrips_optional {o : Option α} :
    (optional name codec rest).RoundTrips (o, r) ↔
      codec.option.RoundTrips o ∧ rest.RoundTrips r :=
  Iff.rfl

end

/-- Members for the fields behind the first one leave it as it is. -/
theorem foldlM_place_cons {α σ ρ : Type} {field : Field α} {rest : Fields σ ρ}
    {ms : List (String × Json)} (hnames : field.name ∉ ms.map Prod.fst) {found : Option α}
    {s t : σ} (h : ms.foldlM rest.place s = .ok t) :
    ms.foldlM (cons field rest).place (found, s) = .ok (found, t) := by
  induction ms generalizing s with
  | nil =>
    obtain rfl : s = t := Except.ok.inj h
    rfl
  | cons m ms ih =>
    obtain ⟨hname, hrest⟩ := not_or.mp (mt List.mem_cons.mpr hnames)
    obtain ⟨next, hm, hms⟩ := foldlM_cons_eq_ok_iff.1 h
    exact foldlM_cons_eq_ok_iff.2 ⟨(found, next),
      place_cons_eq_ok_iff.2 (.inr ⟨Ne.symm hname, next, hm, rfl⟩), ih hrest hms⟩

theorem map_fst_encode {σ ρ : Type} (fields : Fields σ ρ) (r : ρ) :
    (fields.encode r).map Prod.fst = fields.names := by
  induction fields with
  | done => rfl
  | cons field rest ih => exact congrArg (field.name :: ·) (ih r.2)

/-- **A record is read back** when its fields are, if their names are different. -/
theorem decodeMembers_encode {σ ρ : Type} {fields : Fields σ ρ} (hnames : fields.names.Nodup)
    {r : ρ} (h : fields.RoundTrips r) : fields.decodeMembers (fields.encode r) = .ok r := by
  rw [decodeMembers_eq_ok_iff]
  induction fields with
  | done => exact ⟨(), rfl, rfl⟩
  | @cons α σ ρ field rest ih =>
    obtain ⟨a, r⟩ := r
    obtain ⟨hname, hrest⟩ := List.nodup_cons.mp hnames
    obtain ⟨hvalue, hvalues⟩ := h
    obtain ⟨t, hplaced, hcomplete⟩ := ih hrest hvalues
    refine ⟨(some a, t), foldlM_cons_eq_ok_iff.2 ⟨(some a, rest.vacant), ?_, ?_⟩, ?_⟩
    · exact place_cons_eq_ok_iff.2 (.inl ⟨rfl, rfl, a, hvalue, rfl⟩)
    · exact foldlM_place_cons (rest.map_fst_encode r ▸ hname) hplaced
    · simp [complete, hcomplete, Except.map]

end Fields

theorem Codec.roundTrips_record {α σ ρ : Type} {fields : Fields σ ρ} {split : α → ρ}
    {build : ρ → α} {a : α} (hnames : fields.names.Nodup) (hbuild : build (split a) = a)
    (h : fields.RoundTrips (split a)) : (record fields split build).RoundTrips a :=
  map_eq_ok_iff.2 ⟨split a, Fields.decodeMembers_encode hnames h, hbuild⟩

/-! ### The wire format -/

/-- **Portable window**: its bounds are the instants that their texts stand for. -/
def Window.IsPortable (window : Window) : Prop :=
  (∀ start ∈ window.start?, Instant.ofText? start.text = some start) ∧
    ∀ stop ∈ window.stop?, Instant.ofText? stop.text = some stop

/-- **Portable strand**: its adaptive cut is finite. -/
def Strand.IsPortable (strand : Strand) : Prop := ∀ cut ∈ strand.adaptiveCut, cut.isFinite = true

/-- **Portable segment**: window and strands are portable. -/
def Segment.IsPortable (segment : Segment) : Prop :=
  segment.fieldTestWindow.IsPortable ∧ ∀ strand ∈ segment.strands, strand.IsPortable

/-- **Portable assessment**: window and segments are portable. -/
def Assessment.IsPortable (assessment : Assessment) : Prop :=
  assessment.fieldTestWindow.IsPortable ∧ ∀ segment ∈ assessment.segments, segment.IsPortable

/-- **Portable catalog file**: all assessments are portable. -/
def CatalogFile.IsPortable (file : CatalogFile) : Prop :=
  ∀ e ∈ file.clients.entries, ∀ assessment ∈ e.2, assessment.IsPortable

namespace Wire

open Codec

/-! Content -/

@[simp] theorem roundTrips_property (p : Property) : property.RoundTrips p :=
  roundTrips_record (by decide) rfl (by simp)

@[simp] theorem roundTrips_item (i : Item) : item.RoundTrips i :=
  roundTrips_record (by decide) rfl (by simp)

@[simp] theorem roundTrips_constraint (c : Constraint) : constraint.RoundTrips c :=
  roundTrips_record (by decide) rfl (by simp)

@[simp] theorem roundTrips_accommodation (a : Accommodation) : accommodation.RoundTrips a :=
  roundTrips_record (by decide) rfl (by simp)

theorem roundTrips_strand {s : Strand} (h : s.IsPortable) : strand.RoundTrips s := by
  have hcut : real.option.RoundTrips s.adaptiveCut := by
    refine roundTrips_option fun cut hcut => ⟨roundTrips_real (h cut hcut), ?_⟩
    simp [real, h cut hcut, Json.isNull]
  exact roundTrips_record (by decide) rfl (by simp [hcut])

@[simp] theorem roundTrips_form (f : Form) : form.RoundTrips f :=
  roundTrips_record (by decide) rfl (by simp)

@[simp] theorem roundTrips_algorithm (a : Algorithm) : algorithm.RoundTrips a := by
  cases a <;> exact roundTrips_choice rfl

theorem roundTrips_window {w : Window} (h : w.IsPortable) : window.RoundTrips w := by
  have hstart : instant.option.RoundTrips w.start? :=
    roundTrips_option fun start hstart => ⟨roundTrips_text (h.1 start hstart), rfl⟩
  have hstop : instant.option.RoundTrips w.stop? :=
    roundTrips_option fun stop hstop => ⟨roundTrips_text (h.2 stop hstop), rfl⟩
  exact roundTrips_record (by decide) w.ofBounds_bounds (by simp [hstart, hstop])

theorem roundTrips_segment {s : Segment} (h : s.IsPortable) : segment.RoundTrips s := by
  have hstrands : ∀ t ∈ s.strands, strand.RoundTrips t := fun t ht => roundTrips_strand (h.2 t ht)
  exact roundTrips_record (by decide) rfl (by simpa [roundTrips_window h.1] using hstrands)

theorem roundTrips_assessment {a : Assessment} (h : a.IsPortable) : assessment.RoundTrips a := by
  have hsegments : ∀ s ∈ a.segments, segment.RoundTrips s := fun s hs =>
    roundTrips_segment (h.2 s hs)
  exact roundTrips_record (by decide) rfl (by simpa [roundTrips_window h.1] using hsegments)

/-! Exams and their records -/

@[simp] theorem roundTrips_exam (e : Exam) : exam.RoundTrips e :=
  roundTrips_record (by decide) rfl (by simp)

@[simp] theorem roundTrips_fieldTestGroup (g : FieldTestGroup) : fieldTestGroup.RoundTrips g := by
  have hlanguage : string.option.RoundTrips g.languageCode :=
    roundTrips_option fun language _ => ⟨roundTrips_string language, rfl⟩
  have hposition : count.option.RoundTrips g.position :=
    roundTrips_option fun position _ => ⟨roundTrips_count position, rfl⟩
  exact roundTrips_record (by decide) rfl (by simp [hlanguage, hposition])

@[simp] theorem roundTrips_formAssignment (f : FormAssignment) : formAssignment.RoundTrips f :=
  roundTrips_record (by decide) rfl (by simp)

@[simp] theorem roundTrips_examSegment (s : ExamSegment) : examSegment.RoundTrips s := by
  have hform : formAssignment.option.RoundTrips s.form :=
    roundTrips_option fun f _ => ⟨roundTrips_formAssignment f, rfl⟩
  exact roundTrips_record (by decide) rfl (by simp [hform])

theorem roundTrips_manifest (m : Manifest) : manifest.RoundTrips m :=
  roundTrips_record (by decide) rfl (by simp)

/-! Configurations and catalog files -/

@[simp] theorem roundTrips_fieldTestConfig (c : FieldTestConfig) : fieldTestConfig.RoundTrips c :=
  roundTrips_record (by decide) rfl (by simp)

@[simp] theorem roundTrips_rotationConfig (c : RotationConfig) : rotationConfig.RoundTrips c :=
  roundTrips_record (by decide) rfl (by simp)

@[simp] theorem roundTrips_itemConfig (c : ItemConfig) : itemConfig.RoundTrips c :=
  roundTrips_record (by decide) rfl (by simp)

theorem roundTrips_config (c : Config) : config.RoundTrips c :=
  roundTrips_record (by decide) rfl (by simp)

theorem roundTrips_catalogFile {f : CatalogFile} (h : f.IsPortable) : catalogFile.RoundTrips f := by
  have hclients : assessment.list.map.RoundTrips f.clients :=
    roundTrips_map fun e he => roundTrips_list.2 fun a ha => roundTrips_assessment (h e he a ha)
  have haccommodations : accommodation.list.map.RoundTrips f.accommodations :=
    roundTrips_map fun e _ => roundTrips_list.2 fun a _ => roundTrips_accommodation a
  exact roundTrips_record (by decide) rfl (by simp [hclients, haccommodations])

end Wire

/-! ### Rewritten files -/

/-- **Kept by the wire**: a value is read back from its JSON and from every rewriting of that. -/
structure Codec.Keeps {α : Type} (c : Codec α) (a : α) : Prop where
  roundTrips : c.RoundTrips a
  rewritten : ∀ v, c.Rewrites (c.encode a) v → c.decode v = .ok a

theorem Codec.keeps_of_roundTrips {α : Type} {c : Codec α} {a : α} (h : c.RoundTrips a) :
    c.Keeps a :=
  ⟨h, fun _ hv => decode_of_rewrites hv h⟩

open Codec in
/-- **The wire format keeps all values.** Whatever is written is read as the same again, also after
members have changed places, unknown ones have been added to records, and fields that have their
default, or are optional and have no value, have been left out. Texts of instants must stand for
them, and adaptive cuts must be finite. -/
theorem wire_keeps :
    (∀ a : Assessment, a.IsPortable → Wire.assessment.Keeps a) ∧
    (∀ s : Segment, s.IsPortable → Wire.segment.Keeps s) ∧
    (∀ i : Item, Wire.item.Keeps i) ∧
    (∀ c : Constraint, Wire.constraint.Keeps c) ∧
    (∀ a : Accommodation, Wire.accommodation.Keeps a) ∧
    (∀ s : Strand, s.IsPortable → Wire.strand.Keeps s) ∧
    (∀ f : Form, Wire.form.Keeps f) ∧
    (∀ e : Exam, Wire.exam.Keeps e) ∧
    (∀ g : FieldTestGroup, Wire.fieldTestGroup.Keeps g) ∧
    (∀ s : ExamSegment, Wire.examSegment.Keeps s) ∧
    (∀ m : Manifest, Wire.manifest.Keeps m) ∧
    (∀ c : Config, Wire.config.Keeps c) ∧
    ∀ f : CatalogFile, f.IsPortable → Wire.catalogFile.Keeps f :=
  ⟨fun _ h => keeps_of_roundTrips (Wire.roundTrips_assessment h),
    fun _ h => keeps_of_roundTrips (Wire.roundTrips_segment h),
    fun i => keeps_of_roundTrips (Wire.roundTrips_item i),
    fun c => keeps_of_roundTrips (Wire.roundTrips_constraint c),
    fun a => keeps_of_roundTrips (Wire.roundTrips_accommodation a),
    fun _ h => keeps_of_roundTrips (Wire.roundTrips_strand h),
    fun f => keeps_of_roundTrips (Wire.roundTrips_form f),
    fun e => keeps_of_roundTrips (Wire.roundTrips_exam e),
    fun g => keeps_of_roundTrips (Wire.roundTrips_fieldTestGroup g),
    fun s => keeps_of_roundTrips (Wire.roundTrips_examSegment s),
    fun m => keeps_of_roundTrips (Wire.roundTrips_manifest m),
    fun c => keeps_of_roundTrips (Wire.roundTrips_config c),
    fun _ h => keeps_of_roundTrips (Wire.roundTrips_catalogFile h)⟩

/-- An assessment with a window, and a strand with a cut. -/
def cutAssessment : Assessment :=
  { key := "A", id := "A", fieldTestWindow := .startingAt default
    segments := [{
      key := "S", id := "S", position := 1, algorithm := .adaptive, maxItems := 1
      strands := [⟨"Reading", 0, 1, some 0.5⟩] }] }

/-- A catalog file with an assessment, and accommodations of two exams. -/
def cutFile : CatalogFile :=
  { clients := ⟨[("C", [cutAssessment])], by decide⟩
    accommodations := ⟨[("EX1", []), ("EX2", [⟨"TextSize", "TS1"⟩])], by decide⟩ }

/-- The JSON of the assessment, without telling that it is not segmented. -/
def cutAssessmentBrief : Json :=
  .object [("key", .string "A"), ("id", .string "A"),
    ("field_test_window", Wire.window.encode cutAssessment.fieldTestWindow),
    ("segments", Wire.segment.list.encode cutAssessment.segments),
    ("item_constraints", .array [])]

/-- The JSON of the file with a note, the exams in another order, and without the empty history. -/
def cutFileNoted : Json :=
  .object [("note", .string "reviewed"),
    ("accommodations", .object [
      ("EX2", .array [.object [("type", .string "TextSize"), ("code", .string "TS1")]]),
      ("EX1", .array [])]),
    ("clients", .object [("C", .array [cutAssessmentBrief])])]

open Codec in
theorem wire_keeps_cutFile :
    cutFile.IsPortable ∧ Wire.catalogFile.decode cutFileNoted = .ok cutFile := by
  obtain ⟨-, -, -, -, -, -, -, -, -, -, -, -, hkeeps⟩ := wire_keeps
  have hportable : cutFile.IsPortable := by
    simp only [CatalogFile.IsPortable, cutFile, List.forall_mem_singleton, Assessment.IsPortable,
      cutAssessment, Segment.IsPortable, Strand.IsPortable, Window.IsPortable]
    decide
  -- the rewriting, from the inside out
  have hbrief : Wire.assessment.Rewrites (Wire.assessment.encode cutAssessment)
      cutAssessmentBrief :=
    .leave_out [("key", .string "A"), ("id", .string "A")] (v := .bool false)
      (.later (by decide) (.later (by decide) .first)) rfl rfl
  have hclients : Wire.assessment.list.map.Rewrites
      (.object [("C", .array [Wire.assessment.encode cutAssessment])])
      (.object [("C", .array [cutAssessmentBrief])]) :=
    .entry (@Rewrites.element _ _ _ _ [] [] hbrief)
  have hexams : Wire.accommodation.list.map.Rewrites
      (Wire.accommodation.list.map.encode cutFile.accommodations)
      (.object [
        ("EX2", .array [.object [("type", .string "TextSize"), ("code", .string "TS1")]]),
        ("EX1", .array [])]) :=
    .entries (by decide) (.swap _ _ _)
  have hhistory : Wire.catalogFile.Rewrites (Wire.catalogFile.encode cutFile)
      (.object [("clients", .object [("C", .array [Wire.assessment.encode cutAssessment])]),
        ("accommodations", Wire.accommodation.list.map.encode cutFile.accommodations)]) :=
    .leave_out [_, _] (v := .array []) (.later (by decide) (.later (by decide) .first)) rfl rfl
  have hswapped := (hhistory.trans (.field .first hclients)).trans (.members (.swap _ _ _))
  have hnoted := (hswapped.trans (.field (.later (by decide) .first) hexams)).trans
    (.unknown (m := ("note", .string "reviewed")) (by decide))
  exact ⟨hportable, (hkeeps cutFile hportable).rewritten cutFileNoted hnoted⟩

end TestAssembly
