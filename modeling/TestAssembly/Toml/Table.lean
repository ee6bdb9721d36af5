/-!
# TOML values and tables

A document is a table; a table has values under names, no name twice. What may still be added to
a table depends on how it came to be (`Origin`):

* a table written in place, between braces, is complete;
* a table with a heading takes the entries below the heading, and other headings may lead through
  it, but it has no second heading, and dotted keys do not lead into it;
* a table that a heading only led through may get its own heading once;
* a table that a dotted key made takes further entries by dotted keys only.

Headings in double brackets make the elements of an array of tables; a key that leads through such
an array leads into its last element.

A number is checked only as far as its form goes when the document is read. What turns out to be no
number (`Value.unreadable`) does no harm to the document until somebody asks for its value.
-/

namespace TestAssembly.Toml

/-- How a table came to be. -/
inductive Origin where
  /-- It was written in place. -/
  | written
  /-- It has a heading, or is the document itself. -/
  | heading
  /-- A heading led through it. -/
  | passed
  /-- A dotted key led through it. -/
  | dotted
  deriving DecidableEq, Repr, Inhabited

/-- **Value.** Dates and times are kept as they were written. -/
inductive Value where
  | string (text : String)
  | integer (value : Int)
  | real (value : Float)
  | boolean (value : Bool)
  | moment (text : String)
  | array (elements : List Value)
  /-- An array whose elements are tables with headings. -/
  | tables (elements : List (List (String × Value)))
  | table (origin : Origin) (entries : List (String × Value))
  /-- What has the form of a number and is none. -/
  | unreadable
  deriving Inhabited

/-- **Table**: values under names, in the order in which the names were first given. -/
abbrev Table := List (String × Value)

/-- **Dotted key**: the names of the tables that it leads through, and the name in the last. -/
structure Key where
  path : List String
  name : String
  deriving DecidableEq, Repr, Inhabited

mutual

/-- **Whether a value can be read**, with all values in it. -/
def Value.isReadable : Value → Bool
  | .unreadable => false
  | .array elements => areReadable elements
  | .tables elements => tablesReadable elements
  | .table _ entries => entriesReadable entries
  | _ => true

/-- Whether all elements of an array can be read. -/
def areReadable : List Value → Bool
  | [] => true
  | v :: rest => v.isReadable && areReadable rest

/-- Whether all tables of an array can be read. -/
def tablesReadable : List (List (String × Value)) → Bool
  | [] => true
  | entries :: rest => entriesReadable entries && tablesReadable rest

/-- Whether all values of a table can be read. -/
def entriesReadable : List (String × Value) → Bool
  | [] => true
  | (_, v) :: rest => v.isReadable && entriesReadable rest

end

namespace Table

/-- The value under a name. -/
def get? (name : String) (table : Table) : Option Value :=
  (table.find? (·.1 = name)).map Prod.snd

/-- Put a value under a name, in place of an old one or at the end. -/
def set (name : String) (value : Value) : Table → Table
  | [] => [(name, value)]
  | e :: rest => if e.1 = name then (name, value) :: rest else e :: set name value rest

/-! ### Following keys -/

/-- **Change a table inside a table.** `dotted` tells whether a dotted key leads there or a
heading; tables that are missing on the way are made accordingly. -/
def alterAt (dotted : Bool) (alter : Origin → Table → Option Table) :
    List String → Origin → Table → Option Table
  | [], origin, table => alter origin table
  | name :: rest, _, table =>
    match table.get? name with
    | none =>
      let made := if dotted then Origin.dotted else .passed
      (alterAt dotted alter rest made []).map fun inner => table.set name (.table made inner)
    | some (.table origin inner) =>
      if origin = .written ∨ dotted = true ∧ origin = .heading then none
      else (alterAt dotted alter rest origin inner).map fun inner =>
        table.set name (.table origin inner)
    | some (.tables elements) =>
      match elements.getLast? with
      | none => none
      | some last => (alterAt dotted alter rest .heading last).map fun last =>
        table.set name (.tables (elements.dropLast ++ [last]))
    | some _ => none

/-- **The table that a heading leads to**, empty where nothing was made yet. -/
def follow? : List String → Table → Option Table
  | [], table => some table
  | name :: rest, table =>
    match table.get? name with
    | none => some []
    | some (.table origin inner) => if origin = .written then none else follow? rest inner
    | some (.tables elements) => elements.getLast?.bind (follow? rest)
    | some _ => none

/-! ### Entries -/

/-- Add an entry to a table. The last table of a dotted key must itself have been made by dotted
keys, and the name must be new in it. -/
def addEntry (table : Table) (key : Key) (value : Value) : Option Table :=
  let dotted := !key.path.isEmpty
  alterAt dotted
    (fun origin inner =>
      if decide (origin = .dotted) = dotted ∧ (inner.get? key.name).isNone then
        some (inner.set key.name value)
      else none)
    key.path .heading table

/-- Add entries to a table one after the other. -/
def addEntries (table : Table) (entries : List (Key × Value)) : Option Table :=
  entries.foldlM (fun table entry => table.addEntry entry.1 entry.2) table

/-! ### Headings -/

/-- **Section** of a document: a heading, whether it stands in double brackets, and the entries
below it. -/
structure Section where
  key : Key
  repeated : Bool
  entries : List (Key × Value)
  deriving Inhabited

/-- The table that a heading starts from, given what its name stands for so far. -/
def headingStart? (repeated : Bool) : Option Value → Option Table
  | none => some []
  | some (.tables _) => if repeated then some [] else none
  | some (.table .passed inner) => if repeated then none else some inner
  | some _ => none

/-- The value of a heading's name, with one more table. -/
def headingValue (repeated : Bool) (table : Table) : Option Value → Value
  | some (.tables elements) => .tables (elements ++ [table])
  | _ => if repeated then .tables [table] else .table .heading table

/-- Add a section to a document. -/
def addSection (document : Table) (s : Section) : Option Table := do
  let parent ← follow? s.key.path document
  let start ← headingStart? s.repeated (parent.get? s.key.name)
  let table ← start.addEntries s.entries
  alterAt false
    (fun _ parent => some (parent.set s.key.name (headingValue s.repeated table
      (parent.get? s.key.name))))
    s.key.path .heading document

/-- **Document** with entries in front and sections behind. -/
def ofSections (entries : List (Key × Value)) (sections : List Section) : Option Table := do
  let document ← addEntries [] entries
  sections.foldlM addSection document

end Table

/-! ### Look-ups -/

/-- A name that was given a value has it, any other name its old one. -/
theorem Table.get?_set (table : Table) (name other : String) (value : Value) :
    (Table.set name value table).get? other =
      if name = other then some value else table.get? other := by
  induction table with
  | nil => by_cases h : name = other <;> simp [Table.set, Table.get?, h]
  | cons e rest ih =>
    rw [Table.set]
    split
    · rename_i he
      by_cases h : name = other
      · simp [Table.get?, h]
      · simp [Table.get?, h, he]
    · rename_i he
      by_cases heo : e.1 = other
      · have hno : name ≠ other := fun h => he (heo.trans h.symm)
        simp [Table.get?, heo, hno]
      · simpa [Table.get?, heo] using ih

end TestAssembly.Toml
