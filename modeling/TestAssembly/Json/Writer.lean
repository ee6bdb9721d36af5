import TestAssembly.Decimal.Shortest
import TestAssembly.Json.Basic
import TestAssembly.Word

/-!
# Writing JSON

The text of a JSON value, either without any blanks or indented by two blanks a level. In strings
only quotation marks, backslashes and control characters are escaped. Floating-point numbers have
the shortest digits that read back; they are written positionally from `1e-5` up to `1e16`, with a
fraction even when it is zero, and otherwise with an exponent. What is unreadable is written as
null.
-/

namespace TestAssembly

open Text

/-! ### Strings and numbers -/

/-- A character of a string, escaped where it has to be. -/
private def escaped (c : Char) : List Char :=
  if c = '"' then ['\\', '"']
  else if c = '\\' then ['\\', '\\']
  else if c = '\n' then ['\\', 'n']
  else if c = '\r' then ['\\', 'r']
  else if c = '\t' then ['\\', 't']
  else if c = '\x08' then ['\\', 'b']
  else if c = '\x0c' then ['\\', 'f']
  else if c.toNat < 32 then ['\\', 'u', '0', '0'] ++ (paddedHex 2 c.toNat).map Char.toLower
  else [c]

/-- A text between quotation marks. -/
def quoted (s : String) : List Char := '"' :: s.toList.flatMap escaped ++ ['"']

/-- A signed number in decimal digits. -/
private def integerText (n : Int) : List Char :=
  if n < 0 then '-' :: decimal n.natAbs else decimal n.toNat

/-- A decimal, positionally or with an exponent. -/
private def decimalText (d : Decimal) : List Char :=
  let digits := decimal d.digits
  let point := (digits.length : Int) + d.exponent
  if 0 ≤ d.exponent ∧ point ≤ 16 then
    digits ++ List.replicate d.exponent.toNat '0' ++ ['.', '0']
  else if 0 < point ∧ point ≤ 16 then
    digits.take point.toNat ++ '.' :: digits.drop point.toNat
  else if -5 < point ∧ point ≤ 0 then
    '0' :: '.' :: List.replicate (-point).toNat '0' ++ digits
  else
    let exponent := 'e' :: integerText (point - 1)
    match digits with
    | [digit] => digit :: exponent
    | digit :: rest => digit :: '.' :: rest ++ exponent
    | [] => exponent

/-- A floating-point number; what is not finite has no text of its own. -/
private def realText (x : Float) : List Char :=
  if x.isFinite then
    let bits := x.toBits
    let sign := if signedWordBound ≤ bits.toNat then ['-'] else []
    let magnitude := Binary.ofBits bits
    sign ++ if magnitude.mantissa = 0 then ['0', '.', '0']
      else decimalText magnitude.shortest.trimmed
  else "null".toList

/-- A number. -/
def JsonNumber.text : JsonNumber → List Char
  | integer n => integerText n
  | real x => realText x

/-! ### Values -/

namespace Json

mutual

/-- The text of a value without blanks. -/
def compact : Json → List Char
  | null => "null".toList
  | bool true => "true".toList
  | bool false => "false".toList
  | number n => n.text
  | string s => quoted s
  | unreadable => "null".toList
  | array elements => '[' :: compactElements elements ++ [']']
  | object members | cut members => '\x7b' :: compactMembers members ++ ['\x7d']

/-- Elements separated by commas. -/
def compactElements : List Json → List Char
  | [] => []
  | [v] => compact v
  | v :: rest => compact v ++ ',' :: compactElements rest

/-- Members separated by commas. -/
def compactMembers : List (String × Json) → List Char
  | [] => []
  | [(name, v)] => quoted name ++ ':' :: compact v
  | (name, v) :: rest => quoted name ++ ':' :: compact v ++ ',' :: compactMembers rest

end

/-- A line break and the indentation of a level. -/
private def newLine (level : Nat) : List Char := '\n' :: List.replicate (2 * level) ' '

mutual

/-- The text of a value on a level of indentation. -/
def indented (level : Nat) : Json → List Char
  | array (v :: rest) =>
    '[' :: indentedElements (level + 1) (v :: rest) ++ newLine level ++ [']']
  | object (m :: rest) | cut (m :: rest) =>
    '\x7b' :: indentedMembers (level + 1) (m :: rest) ++ newLine level ++ ['\x7d']
  | array [] => ['[', ']']
  | object [] | cut [] => ['\x7b', '\x7d']
  | null | unreadable => "null".toList
  | bool true => "true".toList
  | bool false => "false".toList
  | number n => n.text
  | string s => quoted s

/-- Elements on lines of their own. -/
def indentedElements (level : Nat) : List Json → List Char
  | [] => []
  | [v] => newLine level ++ indented level v
  | v :: rest => newLine level ++ indented level v ++ ',' :: indentedElements level rest

/-- Members on lines of their own. -/
def indentedMembers (level : Nat) : List (String × Json) → List Char
  | [] => []
  | [(name, v)] => newLine level ++ quoted name ++ ':' :: ' ' :: indented level v
  | (name, v) :: rest =>
    newLine level ++ quoted name ++ ':' :: ' ' :: indented level v
      ++ ',' :: indentedMembers level rest

end

/-- **Text of a value** on one line. -/
def text (v : Json) : String := String.ofList v.compact

/-- **Indented text of a value.** -/
def pretty (v : Json) : String := String.ofList (v.indented 0)

end Json

end TestAssembly
