import TestAssembly.Json.Reader
import TestAssembly.NameMap
import TestAssembly.Word

/-!
# Codecs

A codec writes the values of a type as JSON and reads them back. Records are coded field by field.
Written, every field appears, in the order of the declaration. Read, the members of an object are
taken in the order of the text: unknown names are passed over, a known name must not come twice,
and the first value that does not decode ends the reading. Only then are absent fields filled in,
and the first one in the order of the declaration that has nothing to stand for it is reported as
missing; of an object that is cut no field is known to be missing. A record may also be read from
an array of its fields' values in that order.
-/

namespace TestAssembly

/-- **Codec** of a type. -/
structure Codec (α : Type) where
  encode : α → Json
  decode : Json → Except JsonFault α

namespace Codec

variable {α β : Type}

/-! ### Single values -/

/-- Texts. -/
def string : Codec String where
  encode := .string
  decode
    | .string s => .ok s
    | _ => .error .malformed

/-- Truth values. -/
def bool : Codec Bool where
  encode := .bool
  decode
    | .bool b => .ok b
    | _ => .error .malformed

/-- The natural number that an integer value is. -/
def natural? : Json → Option Nat
  | .number (.integer n) => if 0 ≤ n then some n.toNat else none
  | _ => none

/-- Counts: integers that fit an unsigned 32-bit word. -/
def count : Codec UInt32 where
  encode n := .nat n.toNat
  decode v :=
    match natural? v with
    | some n => if n < countBound then .ok (UInt32.ofNat n) else .error .malformed
    | none => .error .malformed

/-- Integers that fit an unsigned 64-bit word. -/
def word : Codec UInt64 where
  encode n := .nat n.toNat
  decode v :=
    match natural? v with
    | some n => if n < wordBound then .ok (UInt64.ofNat n) else .error .malformed
    | none => .error .malformed

/-- Floating-point numbers; what is not finite is written as null, and not read. -/
def real : Codec Float where
  encode x := if x.isFinite then .number (.real x) else .null
  decode
    | .number (.real x) => if x.isFinite then .ok x else .error .malformed
    | .number (.integer n) => .ok (Float.ofInt n)
    | _ => .error .malformed

/-! ### Values made of values -/

/-- A value or null. -/
def option (c : Codec α) : Codec (Option α) where
  encode
    | none => .null
    | some a => c.encode a
  decode
    | .null => .ok none
    | v => (c.decode v).map some

/-- Lists. -/
def list (c : Codec α) : Codec (List α) where
  encode as := .array (as.map c.encode)
  decode
    | .array vs => vs.mapM c.decode
    | _ => .error .malformed

/-- Maps keyed by name; of two members of a name the later one counts. -/
def map (c : Codec α) : Codec (NameMap α) where
  encode m := .object (m.entries.map fun e => (e.1, c.encode e.2))
  decode
    | .object ms => (ms.mapM fun m => (c.decode m.2).map (m.1, ·)).map NameMap.ofList
    | .cut ms => (ms.mapM fun m => (c.decode m.2).map (m.1, ·)).bind fun _ => .error .malformed
    | _ => .error .malformed

/-- Sets of names, in any order and with repetitions. -/
def nameSet : Codec NameSet where
  encode s := .array (s.keys.map .string)
  decode v := (string.list.decode v).map NameSet.ofNames

/-- The same values read and written as another type. -/
def imap (c : Codec α) (build : α → β) (split : β → α) : Codec β where
  encode b := c.encode (split b)
  decode v := (c.decode v).map build

/-- Values that are written as texts. -/
def text (write : α → String) (read? : String → Option α) : Codec α where
  encode a := .string (write a)
  decode
    | .string s =>
      match read? s with
      | some a => .ok a
      | none => .error .malformed
    | _ => .error .malformed

/-- A choice among named values: the name, or an object that gives the name and null. -/
def choice (write : α → String) (read? : String → Option α) : Codec α where
  encode a := .string (write a)
  decode
    | .string s | .object [(s, .null)] =>
      match read? s with
      | some a => .ok a
      | none => .error .malformed
    | _ => .error .malformed

end Codec

/-! ### Records -/

/-- **Field** of a record: its name, how its value is coded, and what an absent field stands for,
if it may be absent. -/
structure Field (α : Type) where
  name : String
  codec : Codec α
  absent : Option α := none

/-- **Fields of a record** in the order of their declaration. The second type is that of their
values, the first that of the values found so far. -/
inductive Fields : Type → Type → Type 1 where
  | done : Fields Unit Unit
  | cons {α σ ρ : Type} (field : Field α) (rest : Fields σ ρ) : Fields (Option α × σ) (α × ρ)

namespace Fields

variable {α σ ρ : Type}

/-- A field that must be there, in front of others. -/
def required (name : String) (codec : Codec α) (rest : Fields σ ρ) :
    Fields (Option α × σ) (α × ρ) :=
  cons ⟨name, codec, none⟩ rest

/-- A field with a default, in front of others. -/
def defaulted (name : String) (codec : Codec α) (value : α) (rest : Fields σ ρ) :
    Fields (Option α × σ) (α × ρ) :=
  cons ⟨name, codec, some value⟩ rest

/-- A field that may be absent or null, in front of others. -/
def optional (name : String) (codec : Codec α) (rest : Fields σ ρ) :
    Fields (Option (Option α) × σ) (Option α × ρ) :=
  cons ⟨name, codec.option, some none⟩ rest

/-- The names of the fields. -/
def names {σ ρ : Type} : Fields σ ρ → List String
  | done => []
  | cons field rest => field.name :: rest.names

/-- The members of a record. -/
def encode {σ ρ : Type} : Fields σ ρ → ρ → List (String × Json)
  | done, _ => []
  | cons field rest, (a, r) => (field.name, field.codec.encode a) :: rest.encode r

/-- No value found yet. -/
def vacant {σ ρ : Type} : Fields σ ρ → σ
  | done => ()
  | cons _ rest => (none, rest.vacant)

/-- Take in one member of an object. -/
def place {σ ρ : Type} : Fields σ ρ → σ → String × Json → Except JsonFault σ
  | done, s, _ => .ok s
  | cons field rest, (found, s), m =>
    if m.1 = field.name then
      match found with
      | some _ => .error .malformed
      | none => (field.codec.decode m.2).map fun a => (some a, s)
    else (rest.place s m).map (found, ·)

/-- Fill in absent fields. -/
def complete {σ ρ : Type} : Fields σ ρ → σ → Except JsonFault ρ
  | done, _ => .ok ()
  | cons field rest, (found, s) =>
    match found.or field.absent with
    | none => .error (.missingField field.name)
    | some a => (rest.complete s).map (a, ·)

/-- The values of a record given by its members. -/
def decodeMembers (fields : Fields σ ρ) (ms : List (String × Json)) : Except JsonFault ρ :=
  match ms.foldlM fields.place fields.vacant with
  | .ok s => fields.complete s
  | .error e => .error e

/-- The fault of a record of which only the first members can be read. -/
def decodeCut (fields : Fields σ ρ) (ms : List (String × Json)) : Except JsonFault ρ :=
  match ms.foldlM fields.place fields.vacant with
  | .ok _ => .error .malformed
  | .error e => .error e

/-- The values of a record given in order. -/
def decodeElements {σ ρ : Type} : Fields σ ρ → List Json → Except JsonFault ρ
  | done, [] => .ok ()
  | done, _ :: _ => .error .malformed
  | cons field rest, v :: vs =>
    match field.codec.decode v with
    | .ok a => (rest.decodeElements vs).map (a, ·)
    | .error e => .error e
  | cons field rest, [] =>
    match field.absent with
    | some a => (rest.decodeElements []).map (a, ·)
    | none => .error .malformed

end Fields

namespace Codec

variable {α σ ρ : Type}

/-- **Record** with the given fields. -/
def record (fields : Fields σ ρ) (split : α → ρ) (build : ρ → α) : Codec α where
  encode a := .object (fields.encode (split a))
  decode
    | .object ms => (fields.decodeMembers ms).map build
    | .cut ms => (fields.decodeCut ms).map build
    | .array vs => (fields.decodeElements vs).map build
    | _ => .error .malformed

/-- **Value that a text stands for.** What follows the value is looked at last. -/
def ofText (c : Codec α) (s : String) : Except JsonFault α :=
  let (v, rest) := Json.read s.toList
  match c.decode v with
  | .error e => .error e
  | .ok a => if rest.any fun rest => (Json.skipSpace rest).isEmpty then .ok a else .error .malformed

end Codec

end TestAssembly
