import Mathlib.Data.List.Forall2
import Mathlib.Data.List.Perm.Basic
import TestAssembly.Json.Codec

/-!
# Rewritings that keep a value

Some changes to the JSON of a value make no difference to who reads it: members of an object in
another order, unknown members of a record, and the absence of a field that has its default.
`Codec.Rewrites` generates from these the rewritings of a value for a codec, at any depth in it.
They are about JSON alone; that they keep what is read is `decode_of_rewrites`.

For records all of it rests on one fact. Members are taken in one after the other, but two that are
taken in may be swapped (`place_swap`), so the order does not matter (`foldlM_place_perm`). A member
that is dropped may therefore be thought to come last, where it only does what the default does when
absent fields are filled in (`complete_of_place`).
-/

namespace TestAssembly

/-! ### Steps that may fail -/

section Steps

variable {ε α β : Type}

theorem map_eq_ok_iff {f : α → β} {outcome : Except ε α} {b : β} :
    outcome.map f = .ok b ↔ ∃ a, outcome = .ok a ∧ f a = b := by
  cases outcome <;> simp [Except.map]

/-- A fold succeeds when its first step and the rest do. -/
theorem foldlM_cons_eq_ok_iff {f : β → α → Except ε β} {a : α} {as : List α} {b c : β} :
    (a :: as).foldlM f b = .ok c ↔ ∃ next, f b a = .ok next ∧ as.foldlM f next = .ok c := by
  rw [List.foldlM_cons]
  cases h : f b a with
  | error e => simp [bind, Except.bind]
  | ok next => simp [bind, Except.bind]

theorem foldlM_append_eq_ok_iff {f : β → α → Except ε β} {as later : List α} {b c : β} :
    (as ++ later).foldlM f b = .ok c ↔
      ∃ next, as.foldlM f b = .ok next ∧ later.foldlM f next = .ok c := by
  rw [List.foldlM_append]
  cases h : as.foldlM f b with
  | error e => simp [bind, Except.bind]
  | ok next => simp [bind, Except.bind]

end Steps

namespace Fields

/-! ### Taking in members -/

/-- **A member is taken in** by the first field of its name, which must not have a value yet, or by
the fields behind. -/
theorem place_cons_eq_ok_iff {α σ ρ : Type} {field : Field α} {rest : Fields σ ρ}
    {m : String × Json} {found : Option α} {s : σ} {t : Option α × σ} :
    (cons field rest).place (found, s) m = .ok t ↔
      m.1 = field.name ∧ found = none ∧ (∃ a, field.codec.decode m.2 = .ok a ∧ (some a, s) = t) ∨
      m.1 ≠ field.name ∧ ∃ s', rest.place s m = .ok s' ∧ (found, s') = t := by
  by_cases hname : m.1 = field.name
  · cases found <;> simp [place, hname, map_eq_ok_iff]
  · cases found <;> simp [place, hname, map_eq_ok_iff]

/-- A member that names no field is passed over. -/
theorem place_of_not_mem {σ ρ : Type} {fields : Fields σ ρ} {m : String × Json}
    (h : m.1 ∉ fields.names) (s : σ) : fields.place s m = .ok s := by
  induction fields with
  | done => rfl
  | cons field rest ih =>
    obtain ⟨hname, hrest⟩ := not_or.mp (mt List.mem_cons.mpr h)
    exact place_cons_eq_ok_iff.2 (.inr ⟨hname, s.2, ih hrest s.2, rfl⟩)

/-- **Two members that are taken in may be swapped.** -/
theorem place_swap {σ ρ : Type} {fields : Fields σ ρ} {m n : String × Json} {s t u : σ}
    (hm : fields.place s m = .ok t) (hn : fields.place t n = .ok u) :
    ∃ t', fields.place s n = .ok t' ∧ fields.place t' m = .ok u := by
  induction fields with
  | done => exact ⟨(), rfl, rfl⟩
  | cons field rest ih =>
    obtain ⟨found, s⟩ := s
    rcases place_cons_eq_ok_iff.1 hm with ⟨hname, rfl, a, ha, rfl⟩ | ⟨hname, s', hs', rfl⟩
    · -- the field of the first member has a value then, so the second one is for another field
      rcases place_cons_eq_ok_iff.1 hn with ⟨-, hnone, -⟩ | ⟨hname', s', hs', rfl⟩
      · simp at hnone
      · exact ⟨(none, s'), place_cons_eq_ok_iff.2 (.inr ⟨hname', s', hs', rfl⟩),
          place_cons_eq_ok_iff.2 (.inl ⟨hname, rfl, a, ha, rfl⟩)⟩
    · rcases place_cons_eq_ok_iff.1 hn with ⟨hname', rfl, a, ha, rfl⟩ | ⟨hname', s'', hs'', rfl⟩
      · exact ⟨(some a, s), place_cons_eq_ok_iff.2 (.inl ⟨hname', rfl, a, ha, rfl⟩),
          place_cons_eq_ok_iff.2 (.inr ⟨hname, s', hs', rfl⟩)⟩
      · obtain ⟨between, hn, hm⟩ := ih hs' hs''
        exact ⟨(found, between), place_cons_eq_ok_iff.2 (.inr ⟨hname', between, hn, rfl⟩),
          place_cons_eq_ok_iff.2 (.inr ⟨hname, s'', hm, rfl⟩)⟩

section Members

variable {σ ρ : Type} {fields : Fields σ ρ} {ms ms' : List (String × Json)} {s t : σ} {r : ρ}

/-- **The order of members does not matter** when all are taken in. -/
theorem foldlM_place_perm (hperm : ms.Perm ms') (h : ms.foldlM fields.place s = .ok t) :
    ms'.foldlM fields.place s = .ok t := by
  induction hperm generalizing s with
  | nil => exact h
  | cons m _ ih =>
    obtain ⟨next, hm, hrest⟩ := foldlM_cons_eq_ok_iff.1 h
    exact foldlM_cons_eq_ok_iff.2 ⟨next, hm, ih hrest⟩
  | swap m n ms =>
    obtain ⟨first, hn, h⟩ := foldlM_cons_eq_ok_iff.1 h
    obtain ⟨second, hm, hrest⟩ := foldlM_cons_eq_ok_iff.1 h
    obtain ⟨other, hm, hn⟩ := place_swap hn hm
    exact foldlM_cons_eq_ok_iff.2 ⟨other, hm, foldlM_cons_eq_ok_iff.2 ⟨second, hn, hrest⟩⟩
  | trans _ _ ih ih' => exact ih' (ih h)

/-- A record is read when all members are taken in and the absent fields can be filled in. -/
theorem decodeMembers_eq_ok_iff : fields.decodeMembers ms = .ok r ↔
    ∃ t, ms.foldlM fields.place fields.vacant = .ok t ∧ fields.complete t = .ok r := by
  rw [decodeMembers]
  cases ms.foldlM fields.place fields.vacant <;> simp

theorem decodeMembers_perm (hperm : ms.Perm ms') (h : fields.decodeMembers ms = .ok r) :
    fields.decodeMembers ms' = .ok r := by
  obtain ⟨t, hplaced, hcomplete⟩ := decodeMembers_eq_ok_iff.1 h
  exact decodeMembers_eq_ok_iff.2 ⟨t, foldlM_place_perm hperm hplaced, hcomplete⟩

/-- A member that names no field makes no difference. -/
theorem decodeMembers_cons_of_not_mem {m : String × Json} (hname : m.1 ∉ fields.names)
    (h : fields.decodeMembers ms = .ok r) : fields.decodeMembers (m :: ms) = .ok r := by
  obtain ⟨t, hplaced, hcomplete⟩ := decodeMembers_eq_ok_iff.1 h
  exact decodeMembers_eq_ok_iff.2
    ⟨t, foldlM_cons_eq_ok_iff.2 ⟨_, place_of_not_mem hname _, hplaced⟩, hcomplete⟩

end Members

/-! ### The member of a field -/

/-- **A field of a record**: the first one of its name. -/
inductive Has {α : Type} (field : Field α) : {σ ρ : Type} → Fields σ ρ → Prop
  | first {σ ρ : Type} {rest : Fields σ ρ} : Has field (cons field rest)
  | later {β σ ρ : Type} {other : Field β} {rest : Fields σ ρ} (hname : field.name ≠ other.name)
      (h : Has field rest) : Has field (cons other rest)

section Member

variable {α σ ρ : Type} {field : Field α} {fields : Fields σ ρ} {v w : Json}

/-- The member of a field is taken in by what its value is read as. -/
theorem place_congr (hfield : fields.Has field)
    (hvalue : ∀ a, field.codec.decode v = .ok a → field.codec.decode w = .ok a) {s t : σ}
    (h : fields.place s (field.name, v) = .ok t) : fields.place s (field.name, w) = .ok t := by
  induction hfield with
  | first =>
    obtain ⟨found, s⟩ := s
    rcases place_cons_eq_ok_iff.1 h with ⟨-, rfl, a, ha, rfl⟩ | ⟨hname, -⟩
    · exact place_cons_eq_ok_iff.2 (.inl ⟨rfl, rfl, a, hvalue a ha, rfl⟩)
    · exact absurd rfl hname
  | later hname _ ih =>
    obtain ⟨found, s⟩ := s
    rcases place_cons_eq_ok_iff.1 h with ⟨hsame, -⟩ | ⟨-, s', hs', rfl⟩
    · exact absurd hsame hname
    · exact place_cons_eq_ok_iff.2 (.inr ⟨hname, s', ih hs', rfl⟩)

/-- **A default given** as a member fills in what it would fill in when absent. -/
theorem complete_of_place (hfield : fields.Has field) {a : α} (habsent : field.absent = some a)
    (hvalue : field.codec.decode v = .ok a) {s t : σ}
    (h : fields.place s (field.name, v) = .ok t) : fields.complete s = fields.complete t := by
  induction hfield with
  | first =>
    obtain ⟨found, s⟩ := s
    rcases place_cons_eq_ok_iff.1 h with ⟨-, rfl, b, hb, rfl⟩ | ⟨hname, -⟩
    · obtain rfl : a = b := Except.ok.inj (hvalue.symm.trans hb)
      simp [complete, habsent]
    · exact absurd rfl hname
  | later hname _ ih =>
    obtain ⟨found, s⟩ := s
    rcases place_cons_eq_ok_iff.1 h with ⟨hsame, -⟩ | ⟨-, s', hs', rfl⟩
    · exact absurd hsame hname
    · rw [complete, complete, ih hs']

/-- The value of a field may be any that is read as the same. -/
theorem decodeMembers_congr (hfield : fields.Has field)
    (hvalue : ∀ a, field.codec.decode v = .ok a → field.codec.decode w = .ok a)
    {ms : List (String × Json)} {r : ρ}
    (h : fields.decodeMembers ((field.name, v) :: ms) = .ok r) :
    fields.decodeMembers ((field.name, w) :: ms) = .ok r := by
  obtain ⟨t, hplaced, hcomplete⟩ := decodeMembers_eq_ok_iff.1 h
  obtain ⟨next, hfirst, hrest⟩ := foldlM_cons_eq_ok_iff.1 hplaced
  exact decodeMembers_eq_ok_iff.2
    ⟨t, foldlM_cons_eq_ok_iff.2 ⟨next, place_congr hfield hvalue hfirst, hrest⟩, hcomplete⟩

/-- A field that has its default may be absent. -/
theorem decodeMembers_of_cons_default (hfield : fields.Has field) {a : α}
    (habsent : field.absent = some a) (hvalue : field.codec.decode v = .ok a)
    {ms : List (String × Json)} {r : ρ}
    (h : fields.decodeMembers ((field.name, v) :: ms) = .ok r) :
    fields.decodeMembers ms = .ok r := by
  -- the member of the field may as well come last
  have hlast := decodeMembers_perm (List.perm_append_singleton (field.name, v) ms).symm h
  obtain ⟨t, hplaced, hcomplete⟩ := decodeMembers_eq_ok_iff.1 hlast
  obtain ⟨before, hbefore, hlast⟩ := foldlM_append_eq_ok_iff.1 hplaced
  obtain ⟨after, hgiven, hnil⟩ := foldlM_cons_eq_ok_iff.1 hlast
  obtain rfl : after = t := Except.ok.inj hnil
  refine decodeMembers_eq_ok_iff.2 ⟨before, hbefore, ?_⟩
  rw [complete_of_place hfield habsent hvalue hgiven, hcomplete]

end Member

end Fields

/-! ### Lists and maps -/

/-- A list is read when its elements are, one by one. -/
theorem mapM_eq_ok_iff {ε α β : Type} {f : α → Except ε β} {as : List α} {bs : List β} :
    as.mapM f = .ok bs ↔ List.Forall₂ (fun a b => f a = .ok b) as bs := by
  induction as generalizing bs with
  | nil => simp [pure, Except.pure, eq_comm]
  | cons a as ih =>
    have hcons : (a :: as).mapM f = .ok bs ↔
        ∃ b rest, f a = .ok b ∧ as.mapM f = .ok rest ∧ bs = b :: rest := by
      rw [List.mapM_cons]
      cases f a with
      | error e => simp [bind, Except.bind]
      | ok b => cases as.mapM f <;> simp [bind, Except.bind, pure, Except.pure, eq_comm]
    rw [hcons, List.forall₂_cons_left_iff]
    simp only [ih]

namespace Codec

variable {α : Type} {c : Codec α} {v w : Json}

/-- An element of a list may be any that is read as the same. -/
theorem decode_list_congr (hvalue : ∀ a, c.decode v = .ok a → c.decode w = .ok a)
    {before behind : List Json} {as : List α}
    (h : (before ++ v :: behind).mapM c.decode = .ok as) :
    (before ++ w :: behind).mapM c.decode = .ok as := by
  rw [mapM_eq_ok_iff] at h ⊢
  induction before generalizing as with
  | nil =>
    obtain ⟨a, rest, ha, hrest, rfl⟩ := List.forall₂_cons_left_iff.mp h
    exact .cons (hvalue a ha) hrest
  | cons first before ih =>
    obtain ⟨a, rest, ha, hrest, rfl⟩ := List.forall₂_cons_left_iff.mp h
    exact .cons ha (ih hrest)

/-- **A map is read** entry by entry. -/
theorem decode_map_eq_ok_iff {ms : List (String × Json)} {m : NameMap α} :
    c.map.decode (.object ms) = .ok m ↔ ∃ entries,
      List.Forall₂ (fun m e => c.decode m.2 = .ok e.2 ∧ m.1 = e.1) ms entries ∧
        NameMap.ofList entries = m := by
  have hentry : ∀ (m : String × Json) (e : String × α),
      (c.decode m.2).map (m.1, ·) = .ok e ↔ c.decode m.2 = .ok e.2 ∧ m.1 = e.1 := by
    intro m e
    cases c.decode m.2 <;> simp [Except.map, Prod.ext_iff, and_comm]
  simp only [map, map_eq_ok_iff, mapM_eq_ok_iff, hentry]

/-- What is read of a map has the names of its members. -/
theorem map_fst_eq {ms : List (String × Json)} {entries : List (String × α)}
    (h : List.Forall₂ (fun m e => c.decode m.2 = .ok e.2 ∧ m.1 = e.1) ms entries) :
    ms.map Prod.fst = entries.map Prod.fst := by
  rw [← List.forall₂_eq_eq_eq, List.forall₂_map_left_iff, List.forall₂_map_right_iff]
  exact h.imp fun _ _ he => he.2

theorem decode_map_perm {ms ms' : List (String × Json)} (hnames : (ms.map Prod.fst).Nodup)
    (hperm : ms.Perm ms') {m : NameMap α} (h : c.map.decode (.object ms) = .ok m) :
    c.map.decode (.object ms') = .ok m := by
  obtain ⟨entries, hentries, rfl⟩ := decode_map_eq_ok_iff.1 h
  obtain ⟨entries', hentries', hsame⟩ := List.perm_comp_forall₂ hperm.symm hentries
  refine decode_map_eq_ok_iff.2 ⟨entries', hentries', (NameMap.ofList_perm hsame.symm ?_).symm⟩
  rwa [← map_fst_eq hentries]

theorem decode_map_congr (hvalue : ∀ a, c.decode v = .ok a → c.decode w = .ok a) {name : String}
    {ms : List (String × Json)} {m : NameMap α}
    (h : c.map.decode (.object ((name, v) :: ms)) = .ok m) :
    c.map.decode (.object ((name, w) :: ms)) = .ok m := by
  obtain ⟨entries, hentries, hm⟩ := decode_map_eq_ok_iff.1 h
  obtain ⟨e, rest, ⟨he, hname⟩, hrest, rfl⟩ := List.forall₂_cons_left_iff.mp hentries
  exact decode_map_eq_ok_iff.2 ⟨e :: rest, .cons ⟨hvalue e.2 he, hname⟩ hrest, hm⟩

/-- Where there is not null, an optional value is read as the value. -/
theorem decode_option (h : v.isNull = false) : c.option.decode v = (c.decode v).map some := by
  cases v with
  | null => simp [Json.isNull] at h
  | _ => rfl

/-! ### Rewritings -/

/-- **Rewritings of the JSON of a value**, as a codec reads it. Members of an object are put in
another order; a record gets a member that names none of its fields, or loses a field that has its
default; or a part of it is rewritten. -/
inductive Rewrites : {α : Type} → Codec α → Json → Json → Prop
  | refl {α : Type} (c : Codec α) (v : Json) : Rewrites c v v
  | trans {α : Type} {c : Codec α} {u v w : Json} (h : Rewrites c u v) (h' : Rewrites c v w) :
      Rewrites c u w
  /-- The members of a record in another order. -/
  | members {α σ ρ : Type} {fields : Fields σ ρ} {split : α → ρ} {build : ρ → α}
      {ms ms' : List (String × Json)} (hperm : ms.Perm ms') :
      Rewrites (record fields split build) (.object ms) (.object ms')
  /-- A member that is unknown to a record. -/
  | unknown {α σ ρ : Type} {fields : Fields σ ρ} {split : α → ρ} {build : ρ → α}
      {ms : List (String × Json)} {m : String × Json} (hname : m.1 ∉ fields.names) :
      Rewrites (record fields split build) (.object ms) (.object (m :: ms))
  /-- A field of a record that has its default, or is optional and has no value. -/
  | default {α σ ρ β : Type} {fields : Fields σ ρ} {split : α → ρ} {build : ρ → α}
      {ms : List (String × Json)} {field : Field β} {v : Json} {b : β} (hfield : fields.Has field)
      (habsent : field.absent = some b) (hvalue : field.codec.decode v = .ok b) :
      Rewrites (record fields split build) (.object ((field.name, v) :: ms)) (.object ms)
  /-- The value of a field. -/
  | field {α σ ρ β : Type} {fields : Fields σ ρ} {split : α → ρ} {build : ρ → α}
      {ms : List (String × Json)} {field : Field β} {v w : Json} (hfield : fields.Has field)
      (h : Rewrites field.codec v w) :
      Rewrites (record fields split build) (.object ((field.name, v) :: ms))
        (.object ((field.name, w) :: ms))
  /-- An optional value. -/
  | option {α : Type} {c : Codec α} {v w : Json} (h : Rewrites c v w) : Rewrites c.option v w
  /-- An element of a list. -/
  | element {α : Type} {c : Codec α} {v w : Json} {before behind : List Json}
      (h : Rewrites c v w) :
      Rewrites c.list (.array (before ++ v :: behind)) (.array (before ++ w :: behind))
  /-- The members of a map in another order. -/
  | entries {α : Type} {c : Codec α} {ms ms' : List (String × Json)}
      (hnames : (ms.map Prod.fst).Nodup) (hperm : ms.Perm ms') :
      Rewrites c.map (.object ms) (.object ms')
  /-- The value of a name in a map. -/
  | entry {α : Type} {c : Codec α} {v w : Json} {name : String} {ms : List (String × Json)}
      (h : Rewrites c v w) :
      Rewrites c.map (.object ((name, v) :: ms)) (.object ((name, w) :: ms))

/-- A field that is left out may stand anywhere among the members. -/
theorem Rewrites.leave_out {β σ ρ : Type} {fields : Fields σ ρ} {split : α → ρ} {build : ρ → α}
    (before : List (String × Json)) {behind : List (String × Json)} {field : Field β} {b : β}
    (hfield : fields.Has field) (habsent : field.absent = some b)
    (hvalue : field.codec.decode v = .ok b) :
    (record fields split build).Rewrites (.object (before ++ (field.name, v) :: behind))
      (.object (before ++ behind)) :=
  .trans (.members List.perm_middle) (.default hfield habsent hvalue)

/-- Nothing becomes or ceases to be null by a rewriting. -/
theorem Rewrites.isNull_eq (h : c.Rewrites v w) : v.isNull = w.isNull := by
  induction h with
  | trans _ _ ih ih' => exact ih.trans ih'
  | option _ ih => exact ih
  | _ => rfl

/-- **A rewriting keeps the value**: what can be read is read as the same afterwards. -/
theorem decode_of_rewrites (h : c.Rewrites v w) {a : α} (hvalue : c.decode v = .ok a) :
    c.decode w = .ok a := by
  induction h with
  | refl => exact hvalue
  | trans _ _ ih ih' => exact ih' (ih hvalue)
  | members hperm =>
    obtain ⟨r, hr, rfl⟩ := map_eq_ok_iff.1 hvalue
    exact map_eq_ok_iff.2 ⟨r, Fields.decodeMembers_perm hperm hr, rfl⟩
  | unknown hname =>
    obtain ⟨r, hr, rfl⟩ := map_eq_ok_iff.1 hvalue
    exact map_eq_ok_iff.2 ⟨r, Fields.decodeMembers_cons_of_not_mem hname hr, rfl⟩
  | default hfield habsent hdefault =>
    obtain ⟨r, hr, rfl⟩ := map_eq_ok_iff.1 hvalue
    exact map_eq_ok_iff.2
      ⟨r, Fields.decodeMembers_of_cons_default hfield habsent hdefault hr, rfl⟩
  | field hfield _ ih =>
    obtain ⟨r, hr, rfl⟩ := map_eq_ok_iff.1 hvalue
    exact map_eq_ok_iff.2 ⟨r, Fields.decodeMembers_congr hfield (fun _ => ih) hr, rfl⟩
  | @option _ c v w h ih =>
    cases hnull : v.isNull with
    | true =>
      -- then both are null
      have hnull' := h.isNull_eq.symm.trans hnull
      cases v <;> cases w <;> simp_all [Json.isNull]
    | false =>
      rw [decode_option hnull] at hvalue
      obtain ⟨b, hb, rfl⟩ := map_eq_ok_iff.1 hvalue
      rw [decode_option (h.isNull_eq.symm.trans hnull)]
      exact map_eq_ok_iff.2 ⟨b, ih hb, rfl⟩
  | element _ ih => exact decode_list_congr (fun _ => ih) hvalue
  | entries hnames hperm => exact decode_map_perm hnames hperm hvalue
  | entry _ ih => exact decode_map_congr (fun _ => ih) hvalue

end Codec

end TestAssembly
