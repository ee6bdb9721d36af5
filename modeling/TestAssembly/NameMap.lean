/-!
# Maps and sets keyed by name

A map from names to values keeps its entries in ascending order of the names, by code point, with
no name twice. Two maps with the same look-ups are therefore equal as data. The view of a map is
`get?`: after an insertion the inserted name has its new value and every other name has its old
one (`get?_insert`). A set of names is a map to the unit type.
-/

namespace TestAssembly

/-- **Map keyed by name**, its entries strictly ascending by name. -/
structure NameMap (α : Type) where
  entries : List (String × α)
  ascending : entries.Pairwise (fun a b => a.1 < b.1)
  deriving DecidableEq

namespace NameMap

variable {α : Type}

instance : Inhabited (NameMap α) := ⟨⟨[], .nil⟩⟩

/-! ### Entries in order -/

/-- Put a value at its place among ascending entries, over an old value of the same name. -/
def putEntry (name : String) (value : α) : List (String × α) → List (String × α)
  | [] => [(name, value)]
  | e :: rest =>
    if name < e.1 then (name, value) :: e :: rest
    else if name = e.1 then (name, value) :: rest
    else e :: putEntry name value rest

theorem mem_putEntry {name : String} {value : α} {l : List (String × α)} {e : String × α}
    (h : e ∈ putEntry name value l) : e = (name, value) ∨ e ∈ l := by
  induction l with
  | nil => simpa [putEntry] using h
  | cons x rest ih =>
    rw [putEntry] at h
    split at h
    · simpa using h
    · split at h
      · rcases List.mem_cons.mp h with h | h
        · exact .inl h
        · exact .inr (List.mem_cons_of_mem _ h)
      · rcases List.mem_cons.mp h with h | h
        · exact .inr (h ▸ List.mem_cons_self)
        · exact (ih h).imp_right (List.mem_cons_of_mem _)

theorem lt_of_not_lt_of_ne {a b : String} (h : ¬ a < b) (hne : a ≠ b) : b < a := by
  rcases Decidable.em (b < a) with h' | h'
  · exact h'
  · exact absurd (String.le_antisymm (String.not_lt.mp h') (String.not_lt.mp h)) hne

theorem pairwise_putEntry (name : String) (value : α) {l : List (String × α)}
    (h : l.Pairwise (fun a b => a.1 < b.1)) :
    (putEntry name value l).Pairwise (fun a b => a.1 < b.1) := by
  induction l with
  | nil => simp [putEntry]
  | cons x rest ih =>
    have hx := List.pairwise_cons.mp h
    rw [putEntry]
    split
    · rename_i hlt
      refine List.pairwise_cons.mpr ⟨fun y hy => ?_, h⟩
      rcases List.mem_cons.mp hy with rfl | hy
      · exact hlt
      · exact String.lt_trans hlt (hx.1 y hy)
    · split
      · rename_i hnlt heq
        refine List.pairwise_cons.mpr ⟨fun y hy => ?_, hx.2⟩
        exact heq ▸ hx.1 y hy
      · rename_i hnlt hne
        refine List.pairwise_cons.mpr ⟨fun y hy => ?_, ih hx.2⟩
        rcases mem_putEntry hy with rfl | hy
        · exact lt_of_not_lt_of_ne hnlt hne
        · exact hx.1 y hy

/-! ### Operations -/

/-- The map without entries. -/
def empty : NameMap α := ⟨[], .nil⟩

/-- The value of a name, if it has one. -/
def get? (m : NameMap α) (name : String) : Option α :=
  (m.entries.find? fun e => e.1 = name).map Prod.snd

/-- Give a name a value, in place of an old one. -/
def insert (m : NameMap α) (name : String) (value : α) : NameMap α :=
  ⟨putEntry name value m.entries, pairwise_putEntry name value m.ascending⟩

/-- Keep the entries that pass a test. -/
def filter (m : NameMap α) (keep : String → α → Bool) : NameMap α :=
  ⟨m.entries.filter fun e => keep e.1 e.2, m.ascending.filter _⟩

/-- The map with the given entries; of two entries for a name the later one counts. -/
def ofList (l : List (String × α)) : NameMap α := l.foldl (fun m e => m.insert e.1 e.2) empty

/-- The names that have a value, ascending. -/
def keys (m : NameMap α) : List String := m.entries.map Prod.fst

/-- How many names have a value. -/
def size (m : NameMap α) : Nat := m.entries.length

/-! ### Look-ups -/

@[simp] theorem get?_empty (name : String) : (empty : NameMap α).get? name = none := rfl

theorem find?_putEntry (name other : String) (value : α) (l : List (String × α)) :
    ((putEntry name value l).find? fun e => e.1 = other).map Prod.snd =
      if name = other then some value else (l.find? fun e => e.1 = other).map Prod.snd := by
  induction l with
  | nil => by_cases h : name = other <;> simp [putEntry, h]
  | cons x rest ih =>
    rw [putEntry]
    split
    · by_cases h : name = other <;> simp [h]
    · split
      · rename_i heq
        by_cases h : name = other
        · simp [h]
        · simp [h, ← heq]
      · rename_i hne
        by_cases hx : x.1 = other
        · have hno : name ≠ other := fun h => hne (h.trans hx.symm)
          simp [hx, hno]
        · simpa [hx] using ih

/-- After an insertion the inserted name has the new value, any other name its old one. -/
theorem get?_insert (m : NameMap α) (name other : String) (value : α) :
    (m.insert name value).get? other = if name = other then some value else m.get? other :=
  find?_putEntry name other value m.entries

@[simp] theorem get?_insert_self (m : NameMap α) (name : String) (value : α) :
    (m.insert name value).get? name = some value := by
  simp [get?_insert]

theorem get?_insert_of_ne (m : NameMap α) {name other : String} (value : α) (h : name ≠ other) :
    (m.insert name value).get? other = m.get? other := by
  simp [get?_insert, h]

theorem find?_eq_some_iff {l : List (String × α)} (h : l.Pairwise fun a b => a.1 < b.1)
    {name : String} {value : α} :
    (l.find? fun e => e.1 = name).map Prod.snd = some value ↔ (name, value) ∈ l := by
  induction l with
  | nil => simp
  | cons e rest ih =>
    obtain ⟨hfirst, hrest⟩ := List.pairwise_cons.mp h
    by_cases hname : e.1 = name
    · have hnot : (name, value) ∉ rest := fun hmem =>
        String.lt_irrefl name (hname ▸ hfirst (name, value) hmem)
      simp [hname, hnot, Prod.ext_iff, eq_comm]
    · have hne : (name, value) ≠ e := fun heq => hname (heq ▸ rfl)
      simpa [hname, hne] using ih hrest

/-- The value of a name stands in its entry. -/
theorem get?_eq_some_iff {m : NameMap α} {name : String} {value : α} :
    m.get? name = some value ↔ (name, value) ∈ m.entries :=
  find?_eq_some_iff m.ascending

/-- A name keeps its value if its entry passes the test. -/
theorem get?_filter (m : NameMap α) (keep : String → α → Bool) (name : String) :
    (m.filter keep).get? name = (m.get? name).filter (keep name) := by
  refine Option.ext fun value => ?_
  rw [Option.filter_eq_some_iff, get?_eq_some_iff, get?_eq_some_iff]
  exact List.mem_filter

/-- The keys are the names that have a value. -/
theorem mem_keys {m : NameMap α} {name : String} :
    name ∈ m.keys ↔ (m.get? name).isSome = true := by
  simp [keys, get?]

theorem mem_keys_insert {m : NameMap α} {name other : String} {value : α} :
    other ∈ (m.insert name value).keys ↔ other = name ∨ other ∈ m.keys := by
  rw [mem_keys, mem_keys, get?_insert]
  by_cases h : name = other
  · simp [h]
  · simp [h, Ne.symm h]

/-- The keys of a map made from entries are their names. -/
theorem mem_keys_ofList {l : List (String × α)} {name : String} :
    name ∈ (ofList l).keys ↔ name ∈ l.map Prod.fst := by
  suffices h : ∀ m : NameMap α, name ∈ (l.foldl (fun m e => m.insert e.1 e.2) m).keys ↔
      name ∈ m.keys ∨ name ∈ l.map Prod.fst by
    simpa [ofList, empty, keys] using h empty
  induction l with
  | nil => simp
  | cons e rest ih =>
    intro m
    rw [List.foldl_cons, ih, mem_keys_insert, List.map_cons, List.mem_cons, or_assoc,
      or_left_comm]

theorem pairwise_keys (m : NameMap α) : m.keys.Pairwise (· < ·) :=
  List.pairwise_map.mpr m.ascending

theorem nodup_keys (m : NameMap α) : m.keys.Nodup := by
  refine m.pairwise_keys.imp fun {a b} hlt heq => ?_
  exact String.lt_irrefl a (heq ▸ hlt)

theorem nodup_entries (m : NameMap α) : m.entries.Nodup := by
  refine m.ascending.imp fun {a b} hlt heq => ?_
  exact String.lt_irrefl a.1 (heq ▸ hlt)

/-- **Two maps with the same look-ups are equal.** -/
theorem ext_get? {m other : NameMap α} (h : ∀ name, m.get? name = other.get? name) :
    m = other := by
  have hmem : ∀ e, e ∈ m.entries ↔ e ∈ other.entries := by
    rintro ⟨name, value⟩
    rw [← get?_eq_some_iff, ← get?_eq_some_iff, h]
  have hperm : m.entries.Perm other.entries :=
    (List.perm_ext_iff_of_nodup m.nodup_entries other.nodup_entries).mpr hmem
  have hentries : m.entries = other.entries :=
    hperm.eq_of_pairwise
      (fun a _ _ _ hab hba => absurd (String.lt_trans hab hba) (String.lt_irrefl a.1))
      m.ascending other.ascending
  cases m
  cases other
  congr

/-! ### Maps from entries -/

/-- A map made from entries of different names has just these. -/
theorem get?_ofList_eq_some_iff {l : List (String × α)} (h : (l.map Prod.fst).Nodup)
    {name : String} {value : α} : (ofList l).get? name = some value ↔ (name, value) ∈ l := by
  suffices hfold : ∀ m : NameMap α, (∀ e ∈ l, m.get? e.1 = none) →
      ((l.foldl (fun m e => m.insert e.1 e.2) m).get? name = some value ↔
        m.get? name = some value ∨ (name, value) ∈ l) by
    simpa [ofList] using hfold empty fun _ _ => rfl
  induction l with
  | nil => simp
  | cons e rest ih =>
    intro m hnew
    obtain ⟨hname, hrest⟩ := List.nodup_cons.mp h
    obtain ⟨hfirst, hlater⟩ := List.forall_mem_cons.mp hnew
    rw [List.foldl_cons, ih hrest, get?_insert, List.mem_cons, ← or_assoc]
    · -- the first entry is new to the map
      refine or_congr_left ?_
      by_cases heq : e.1 = name
      · subst heq
        simp [hfirst, Prod.ext_iff, eq_comm]
      · simp [heq, Prod.ext_iff, Ne.symm heq]
    · intro later hmem
      have hne : e.1 ≠ later.1 := fun heq => hname (heq ▸ List.mem_map_of_mem hmem)
      rw [get?_insert_of_ne m e.2 hne]
      exact hlater later hmem

/-- A map made from names and a value for each name. -/
theorem get?_ofList_map (names : List String) (value : String → α) (name : String) :
    (ofList (names.map fun n => (n, value n))).get? name =
      if name ∈ names then some (value name) else none := by
  suffices hfold : ∀ m : NameMap α,
      ((names.map fun n => (n, value n)).foldl (fun m e => m.insert e.1 e.2) m).get? name =
        if name ∈ names then some (value name) else m.get? name by
    simpa [ofList] using hfold empty
  induction names with
  | nil => simp
  | cons n rest ih =>
    intro m
    rw [List.map_cons, List.foldl_cons, ih, get?_insert]
    by_cases hrest : name ∈ rest
    · simp [hrest]
    · by_cases hfirst : n = name
      · simp [hfirst]
      · simp [hrest, hfirst, Ne.symm hfirst]

/-- The order of entries of different names does not matter. -/
theorem ofList_perm {l l' : List (String × α)} (hperm : l.Perm l')
    (h : (l.map Prod.fst).Nodup) : ofList l = ofList l' := by
  have h' : (l'.map Prod.fst).Nodup := (hperm.map _).nodup_iff.mp h
  refine ext_get? fun name => Option.ext fun value => ?_
  rw [get?_ofList_eq_some_iff h, get?_ofList_eq_some_iff h', hperm.mem_iff]

/-- A map is made from its entries. -/
theorem ofList_entries (m : NameMap α) : ofList m.entries = m := by
  refine ext_get? fun name => Option.ext fun value => ?_
  rw [get?_ofList_eq_some_iff m.nodup_keys, get?_eq_some_iff]

end NameMap

/-- **Set of names**, ascending by code point. -/
abbrev NameSet := NameMap Unit

namespace NameSet

/-- The set of the listed names. -/
def ofNames (names : List String) : NameSet := NameMap.ofList (names.map fun n => (n, ()))

theorem mem_keys_ofNames {names : List String} {name : String} :
    name ∈ (ofNames names).keys ↔ name ∈ names := by
  rw [ofNames, NameMap.mem_keys_ofList]
  simp

/-- A set is that of its names. -/
theorem ofNames_keys (s : NameSet) : ofNames s.keys = s := by
  rw [ofNames, NameMap.keys, List.map_map]
  exact (congrArg NameMap.ofList (List.map_id _)).trans s.ofList_entries

end NameSet

end TestAssembly
