import TestAssembly.Config.Basic
import TestAssembly.Toml.Reader
import TestAssembly.Toml.Writer
import TestAssembly.Word

/-!
# Text of a configuration

A configuration is written as a TOML document with a table for each group of settings. Every table
and every setting may be left out and then has its default; names that are no settings are passed
over, with values that can be read. A group may also be given as an array of its settings' values in
order; elements behind them are not looked at.

A text is accepted when it is such a document and the configuration has no issue. Written, every
setting appears, and from a document with every setting the configuration is taken as it was
(`ofTable?_table`).
-/

namespace TestAssembly

open Toml

namespace Config

/-- The name of the file in which configurations are kept. -/
def fileName : String := ".exam-assembly.toml"

/-! ### Settings -/

/-- A text. -/
private def textOf? : Value → Option String
  | .string s => some s
  | _ => none

/-- A truth value. -/
private def truthOf? : Value → Option Bool
  | .boolean b => some b
  | _ => none

/-- A natural number below a bound. -/
private def naturalOf? (bound : Nat) : Value → Option Nat
  | .integer n => if 0 ≤ n ∧ n < bound then some n.toNat else none
  | _ => none

/-- A list of texts. -/
private def textsOf? : Value → Option (List String)
  | .array vs => vs.mapM textOf?
  | _ => none

/-- A table with settings of the given names, when the values of other names can be read. -/
private def settings? (names : List String) (entries : Table) : Option Table :=
  if entries.all fun e => names.contains e.1 || e.2.isReadable then some entries else none

/-- The settings of a group with the given names. -/
private def group? (names : List String) : Value → Option Table
  | .table _ entries => settings? names entries
  | .array vs => some (names.zip vs)
  | .moment _ => some []
  | _ => none

/-- A setting of a group, or its default. -/
private def setting? {α : Type} (group : Table) (name : String) (read? : Value → Option α)
    (standard : α) : Option α :=
  match group.get? name with
  | none => some standard
  | some v => read? v

/-- The settings of field-test seeding. -/
def fieldTestOf? (v : Value) : Option FieldTestConfig := do
  let standard : FieldTestConfig := {}
  let group ← group? ["enabled", "simulation_environments", "position_draw_bound"] v
  return {
    enabled := ← setting? group "enabled" truthOf? standard.enabled
    simulationEnvironments :=
      ← setting? group "simulation_environments" textsOf? standard.simulationEnvironments
    positionDrawBound := ← setting? group "position_draw_bound"
      (fun v => (naturalOf? countBound v).map UInt32.ofNat) standard.positionDrawBound }

/-- The settings of form rotation. -/
def rotationOf? (v : Value) : Option RotationConfig := do
  let standard : RotationConfig := {}
  let group ← group? ["rotation_idle_secs"] v
  return {
    idleSeconds := ← setting? group "rotation_idle_secs"
      (fun v => (naturalOf? wordBound v).map UInt64.ofNat) standard.idleSeconds }

/-- The settings of item pools. -/
def itemsOf? (v : Value) : Option ItemConfig := do
  let standard : ItemConfig := {}
  let group ← group? ["language_property"] v
  return {
    languageProperty := ← setting? group "language_property" textOf? standard.languageProperty }

/-- **Configuration of a document.** -/
def ofTable? (document : Table) : Option Config := do
  let document ← settings? ["field_test", "forms", "items"] document
  return {
    fieldTest := ← setting? document "field_test" fieldTestOf? {}
    rotation := ← setting? document "forms" rotationOf? {}
    items := ← setting? document "items" itemsOf? {} }

/-! ### The table of a configuration -/

/-- **Table of a configuration**, with every setting. -/
def table (config : Config) : Table :=
  [("field_test", .table .heading
      [("enabled", .boolean config.fieldTest.enabled),
        ("simulation_environments",
          .array (config.fieldTest.simulationEnvironments.map .string)),
        ("position_draw_bound", .integer config.fieldTest.positionDrawBound.toNat)]),
    ("forms", .table .heading
      [("rotation_idle_secs", .integer config.rotation.idleSeconds.toNat)]),
    ("items", .table .heading [("language_property", .string config.items.languageProperty)])]

/-- Where every name is that of a setting, all entries are. -/
private theorem settings?_eq_self {names : List String} {entries : Table}
    (h : entries.all (fun e => names.contains e.1) = true) :
    settings? names entries = some entries := by
  have hall : entries.all (fun e => names.contains e.1 || e.2.isReadable) = true :=
    List.all_eq_true.mpr fun e he => by rw [List.all_eq_true.mp h e he, Bool.true_or]
  rw [settings?, if_pos hall]

private theorem group?_heading {names : List String} {entries : Table}
    (h : entries.all (fun e => names.contains e.1) = true) :
    group? names (.table .heading entries) = some entries :=
  settings?_eq_self h

/-- The first entry of a name gives the setting. -/
private theorem setting?_cons {α : Type} (key name : String) (v : Value) (rest : Table)
    (read? : Value → Option α) (standard : α) :
    setting? ((key, v) :: rest) name read? standard =
      if key = name then read? v else setting? rest name read? standard := by
  by_cases h : key = name <;> simp [setting?, Table.get?, h]

private theorem textsOf?_map (texts : List String) :
    textsOf? (.array (texts.map .string)) = some texts := by
  induction texts with
  | nil => rfl
  | cons s texts ih =>
    simp only [textsOf?] at ih ⊢
    simp [ih, textOf?]

private theorem naturalOf?_nat {bound n : Nat} (h : n < bound) :
    naturalOf? bound (.integer n) = some n := by
  simp [naturalOf?, h]

private theorem naturalOf?_count (n : UInt32) :
    (naturalOf? countBound (.integer n.toNat)).map UInt32.ofNat = some n := by
  have h : n.toNat < countBound := n.toNat_lt
  simp only [naturalOf?_nat h, Option.map_some, UInt32.ofNat_toNat]

private theorem naturalOf?_word (n : UInt64) :
    (naturalOf? wordBound (.integer n.toNat)).map UInt64.ofNat = some n := by
  have h : n.toNat < wordBound := n.toNat_lt
  simp only [naturalOf?_nat h, Option.map_some, UInt64.ofNat_toNat]

-- Stated for any value: with a written number in it, the check would count up to the bound.
private theorem rotationOf?_entry (v : Value) :
    rotationOf? (.table .heading [("rotation_idle_secs", v)]) =
      ((naturalOf? wordBound v).map UInt64.ofNat).bind fun n => some { idleSeconds := n } := by
  simp [rotationOf?, group?_heading, setting?_cons]

private theorem rotationOf?_table (config : RotationConfig) :
    rotationOf? (.table .heading
      [("rotation_idle_secs", .integer config.idleSeconds.toNat)]) = some config := by
  rw [rotationOf?_entry, naturalOf?_word, Option.bind_some]

private theorem itemsOf?_table (config : ItemConfig) :
    itemsOf? (.table .heading [("language_property", .string config.languageProperty)]) =
      some config := by
  simp [itemsOf?, group?_heading, setting?_cons, textOf?]

private theorem fieldTestOf?_table (config : FieldTestConfig) :
    fieldTestOf? (.table .heading
      [("enabled", .boolean config.enabled),
        ("simulation_environments", .array (config.simulationEnvironments.map .string)),
        ("position_draw_bound", .integer config.positionDrawBound.toNat)]) = some config := by
  simp [fieldTestOf?, group?_heading, setting?_cons, truthOf?, textsOf?_map, naturalOf?_count]

/-- The table of a configuration stands for it. -/
theorem ofTable?_table (config : Config) : ofTable? config.table = some config := by
  simp [ofTable?, table, settings?_eq_self, setting?_cons, fieldTestOf?_table, rotationOf?_table,
    itemsOf?_table]

/-! ### Reading and writing -/

/-- The configuration that a text stands for, whether it is valid or not. -/
def ofText? (s : String) : Option Config := (Toml.ofText? s).bind ofTable?

/-- **The valid configuration that a text stands for.** -/
def parse (s : String) : Except AssemblyError Config :=
  match ofText? s with
  | some config => config.validate
  | none => .error (.config ("Failed to parse " ++ fileName) none)

/-- The document of a configuration. -/
def document (config : Config) : List Char :=
  writeDocument
    [writeSection "field_test"
      [("enabled", writeBoolean config.fieldTest.enabled),
        ("simulation_environments",
          writeArray (config.fieldTest.simulationEnvironments.map fun s => writeQuoted s.toList)),
        ("position_draw_bound", Text.decimal config.fieldTest.positionDrawBound.toNat)],
      writeSection "forms"
        [("rotation_idle_secs", Text.decimal config.rotation.idleSeconds.toNat)],
      writeSection "items"
        [("language_property", writeQuoted config.items.languageProperty.toList)]]

/-- **Text of a configuration.** -/
def text (config : Config) : String := String.ofList config.document

/-- Exactly the texts of valid configurations are accepted, each as what it stands for. -/
theorem parse_eq_ok_iff {s : String} {config : Config} :
    parse s = .ok config ↔ ofText? s = some config ∧ config.issues = [] := by
  rw [parse]
  cases h : ofText? s with
  | none => simp
  | some c =>
    simp only [validate_eq_ok_iff, Option.some.injEq]
    constructor
    · rintro ⟨hc, rfl⟩
      exact ⟨rfl, hc⟩
    · rintro ⟨rfl, hc⟩
      exact ⟨hc, rfl⟩

end Config

end TestAssembly
