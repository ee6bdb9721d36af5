import TestAssembly.Json.Basic
import TestAssembly.Text.Digits
import TestAssembly.Word

/-!
# Reading JSON

The value at the start of a text, and what follows it. Blanks are space, tab, line feed and
carriage return. Strings hold no bare control characters. A number without fraction and exponent
that fits a 64-bit word is an integer.

An escape may give any UTF-16 unit. A string in which surrogates are not in pairs of escapes ends
where it would end otherwise, but it is the encoding of no text: it is `unreadable`, and so is an
object from a member with such a name on.

A decimal becomes a floating-point number in one rounding for its leading digits, as many as fit an
unsigned 64-bit word, and one for the power of ten: what has up to fifteen digits and a power
within twenty-two is therefore read exactly rounded.
-/

namespace TestAssembly

open Text

namespace Json

/-- The blanks between the parts of a text. -/
private def isJsonBlank (c : Char) : Bool := c = ' ' || c = '\t' || c = '\n' || c = '\r'

/-- A text from its first character that is not blank. -/
def skipSpace (cs : List Char) : List Char := cs.dropWhile isJsonBlank

/-! ### Strings -/

/-- The characters that stand behind a backslash for themselves or for a control character. -/
private def shortEscape? : Char → Option Char
  | '"' => some '"'
  | '\\' => some '\\'
  | '/' => some '/'
  | 'b' => some '\x08'
  | 'f' => some '\x0c'
  | 'n' => some '\n'
  | 'r' => some '\r'
  | 't' => some '\t'
  | _ => none

/-- The number of four hexadecimal digits. -/
private def unit? (a b c d : Char) : Option Nat :=
  if [a, b, c, d].all (isDigitOf 16) then some (ofDigits 16 [a, b, c, d]) else none

/-- **Part of a string**: a character, or the UTF-16 unit of an escape. -/
inductive StringPart where
  | char (c : Char)
  | unit (value : Nat)
  deriving DecidableEq, Repr

/-- The parts of a string up to its closing quotation mark, and what follows. -/
def readParts : List Char → Option (List StringPart × List Char)
  | '"' :: rest => some ([], rest)
  | '\\' :: 'u' :: a :: b :: c :: d :: rest =>
    match unit? a b c d with
    | some value => (readParts rest).map fun (parts, rest) => (.unit value :: parts, rest)
    | none => none
  | '\\' :: c :: rest =>
    match shortEscape? c with
    | some char => (readParts rest).map fun (parts, rest) => (.char char :: parts, rest)
    | none => none
  | c :: rest =>
    if c = '\\' ∨ c.toNat < 32 then none
    else (readParts rest).map fun (parts, rest) => (.char c :: parts, rest)
  | [] => none

/-- The character of a single unit that is no surrogate. -/
private def charOfUnit? (value : Nat) : Option Char :=
  if 0xD800 ≤ value ∧ value ≤ 0xDFFF then none else some (Char.ofNat value)

/-- The character of a surrogate pair. -/
private def charOfPair? (high low : Nat) : Option Char :=
  if 0xD800 ≤ high ∧ high ≤ 0xDBFF ∧ 0xDC00 ≤ low ∧ low ≤ 0xDFFF then
    some (Char.ofNat (0x10000 + (high - 0xD800) * 0x400 + (low - 0xDC00)))
  else none

/-- The characters that parts are the encoding of. -/
def charsOfParts? : List StringPart → Option (List Char)
  | [] => some []
  | .char c :: rest => (charsOfParts? rest).map (c :: ·)
  | .unit high :: .unit low :: rest =>
    match charOfUnit? high, charOfPair? high low with
    | some c, _ => (charsOfParts? (.unit low :: rest)).map (c :: ·)
    | none, some c => (charsOfParts? rest).map (c :: ·)
    | none, none => none
  | .unit value :: rest =>
    match charOfUnit? value with
    | some c => (charsOfParts? rest).map (c :: ·)
    | none => none

/-- **String behind its opening quotation mark**, if it is a text, and what follows it. -/
def readString (cs : List Char) : Option (Option String × List Char) :=
  (readParts cs).map fun (parts, rest) => ((charsOfParts? parts).map String.ofList, rest)

/-! ### Numbers -/

/-- Leading digits appended to a number as long as it fits a word, and how many are left over. -/
private def appendDigits : Nat → List Char → Nat × Nat
  | n, [] => (n, 0)
  | n, d :: rest =>
    let next := 10 * n + ofDigits 10 [d]
    if next < wordBound then appendDigits next rest else (n, rest.length + 1)

/-- `x · 10 ^ exponent`, the power taken in steps that a double holds. -/
private def scaled (x : Float) (exponent : Int) : Float :=
  let power (n : Nat) : Float := Float.ofScientific 1 false n
  if 308 < exponent then if x == 0 then x else x * power 308 * power 308
  else if 0 ≤ exponent then x * power exponent.toNat
  else if -308 ≤ exponent then x / power (-exponent).toNat
  else if -616 ≤ exponent then x / power 308 / power (-exponent - 308).toNat
  else 0

/-- The floating-point number of a decimal given by sign, digits before and behind the point, and
exponent. -/
def realOfDecimal (negative : Bool) (whole fraction : List Char) (exponent : Int) : Float :=
  let (leading, dropped) := appendDigits 0 whole
  let (significand, left) := appendDigits leading fraction
  let power := exponent + dropped - ((fraction.length - left : Nat) : Int)
  let magnitude := scaled significand.toUInt64.toFloat power
  if negative then -magnitude else magnitude

/-- An optional exponent: zero when there is none. -/
private def readExponent : List Char → Option (Int × List Char)
  | c :: rest =>
    if c = 'e' ∨ c = 'E' then
      match rest with
      | '-' :: rest => (takeWholeNumber? rest).map fun (n, rest) => (-(n : Int), rest)
      | '+' :: rest => (takeWholeNumber? rest).map fun (n, rest) => ((n : Int), rest)
      | rest => (takeWholeNumber? rest).map fun (n, rest) => ((n : Int), rest)
    else some (0, c :: rest)
  | [] => some (0, [])

/-- A number behind its sign. A leading zero stands alone. -/
def readMagnitude (negative : Bool) (cs : List Char) : Option (JsonNumber × List Char) := do
  let (whole, rest) ← if cs.head? = some '0' then takeDigits? 1 cs else takeAllDigits? cs
  let (fraction, rest) ←
    match rest with
    | '.' :: more => takeAllDigits? more
    | rest => some ([], rest)
  let (exponent, behind) ← readExponent rest
  let value := ofDigits 10 whole
  let asWritten := fraction.isEmpty && behind.length = rest.length
  if asWritten ∧ ¬ negative ∧ value < wordBound then some (.integer value, behind)
  else if asWritten ∧ negative ∧ 0 < value ∧ value ≤ signedWordBound then
    some (.integer (-(value : Int)), behind)
  else some (.real (realOfDecimal negative whole fraction exponent), behind)

/-- A number in front of a text. -/
def readNumber : List Char → Option (JsonNumber × List Char)
  | '-' :: rest => readMagnitude true rest
  | cs => readMagnitude false cs

/-! ### Values -/

mutual

/-- A value in front of a text, after blanks, and what follows it, unless the text breaks off. The
fuel bounds how often values and their parts are entered. -/
def readValue : Nat → List Char → Json × Option (List Char)
  | 0, _ => (unreadable, none)
  | fuel + 1, cs =>
    match skipSpace cs with
    | 'n' :: 'u' :: 'l' :: 'l' :: rest => (null, some rest)
    | 't' :: 'r' :: 'u' :: 'e' :: rest => (bool true, some rest)
    | 'f' :: 'a' :: 'l' :: 's' :: 'e' :: rest => (bool false, some rest)
    | '"' :: rest =>
      match readString rest with
      | some (some s, rest) => (string s, some rest)
      | some (none, rest) => (unreadable, some rest)
      | none => (unreadable, none)
    | '[' :: rest =>
      match skipSpace rest with
      | ']' :: rest => (array [], some rest)
      | rest =>
        let (elements, rest) := readElements fuel rest
        (array elements, rest)
    | '\x7b' :: rest =>
      match skipSpace rest with
      | '\x7d' :: rest => (object [], some rest)
      | rest => readMembers fuel rest
    | cs =>
      match readNumber cs with
      | some (n, rest) => (number n, some rest)
      | none => (unreadable, none)

/-- One or more elements up to the closing bracket. -/
def readElements : Nat → List Char → List Json × Option (List Char)
  | 0, _ => ([unreadable], none)
  | fuel + 1, cs =>
    match readValue fuel cs with
    | (v, none) => ([v], none)
    | (v, some rest) =>
      match skipSpace rest with
      | ',' :: rest =>
        let (elements, rest) := readElements fuel rest
        (v :: elements, rest)
      | ']' :: rest => ([v], some rest)
      | _ => ([v, unreadable], none)

/-- The object of one or more members up to the closing brace. -/
def readMembers : Nat → List Char → Json × Option (List Char)
  | 0, _ => (cut [], none)
  | fuel + 1, cs =>
    match skipSpace cs with
    | '"' :: rest =>
      match readString rest with
      | none => (cut [], none)
      | some (name, rest) =>
        match skipSpace rest with
        | ':' :: rest =>
          match readValue fuel rest with
          | (v, none) => (withMember name v (cut []), none)
          | (v, some rest) =>
            match skipSpace rest with
            | ',' :: rest =>
              let (behind, rest) := readMembers fuel rest
              (withMember name v behind, rest)
            | '\x7d' :: rest => (withMember name v (object []), some rest)
            | _ => (withMember name v (cut []), none)
        | _ => (cut [], none)
    | _ => (cut [], none)

end

/-- **Value in front of a text**, and what follows it, unless the text breaks off. -/
def read (cs : List Char) : Json × Option (List Char) := readValue (2 * cs.length + 1) cs

/-- **Value that a whole text stands for**, with nothing but blanks around it. -/
def ofText? (s : String) : Option Json :=
  match read s.toList with
  | (v, some rest) => if (skipSpace rest).isEmpty then some v else none
  | (_, none) => none

end Json

end TestAssembly
