/-!
# JSON values

Values of the JSON data format. Members of an object keep the order of the text, and a name may
occur twice; who reads an object decides what that means. A number is an integer when it was
written without fraction and exponent and fits a signed or unsigned 64-bit word, otherwise a
binary floating-point number.

A text that is no JSON has a value too, as far as it goes. Where it cannot be read stands
`unreadable`, and of an object around that place only the members in front of it are known (`cut`).
So a reader of values meets the faults of a text in their order: a field that is missing in front
of the place where the text breaks off is still the first fault.
-/

namespace TestAssembly

/-- A JSON number. -/
inductive JsonNumber where
  | integer (value : Int)
  | real (value : Float)
  deriving Inhabited

/-- **JSON value.** -/
inductive Json where
  | null
  | bool (value : Bool)
  | number (value : JsonNumber)
  | string (value : String)
  | array (elements : List Json)
  | object (members : List (String × Json))
  /-- A string that is the encoding of no text, or the place where a text breaks off. -/
  | unreadable
  /-- An object of which only the first members can be read. -/
  | cut (members : List (String × Json))
  deriving Inhabited

/-- Why a text or value is not what was asked for. -/
inductive JsonFault where
  /-- A required field of an otherwise readable object is absent. -/
  | missingField (name : String)
  /-- The text is no JSON, or a value is of another kind. -/
  | malformed
  deriving DecidableEq, Repr, Inhabited

namespace Json

/-- A natural number as a value. -/
def nat (n : Nat) : Json := .number (.integer n)

/-- The members of an object; nothing else has members. -/
def members : Json → List (String × Json)
  | object members => members
  | _ => []

/-- The last member of a name, absent members being null. -/
def member (name : String) (value : Json) : Json :=
  ((value.members.reverse.find? (·.1 == name)).map Prod.snd).getD null

/-- A value with one more member in front. Without a name, nothing from there on can be read. -/
def withMember (name : Option String) (value behind : Json) : Json :=
  match name, behind with
  | some name, object members => object ((name, value) :: members)
  | some name, cut members => cut ((name, value) :: members)
  | none, _ => cut []
  | some _, behind => behind

/-- Whether a value is null. -/
def isNull : Json → Bool
  | null => true
  | _ => false

end Json

/-- The message of a fault. -/
def JsonFault.message : JsonFault → String
  | missingField name => "missing field `" ++ name ++ "`"
  | malformed => "malformed JSON"

end TestAssembly
