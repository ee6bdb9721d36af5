import TestAssembly.Text.Digits
import TestAssembly.Text.Pieces
import TestAssembly.Time.Calendar
import TestAssembly.Toml.Quoted
import TestAssembly.Toml.Table
import TestAssembly.Word

/-!
# Scalars

Values that are written without marks: truth values, integers, floating-point numbers, dates and
times. Underscores may stand between digits. A decimal has no leading zeros; integers in base 16, 8
and 2 have no sign.

A scalar goes up to a line break, a comment, or a mark of the document's structure. Quotation marks
inside of it are characters like others, and so are blanks with more of the scalar behind them. Only
dates with times may have a space, and only what is unreadable may have anything else of the kind.

Some scalars have the form of a number and are none: an integer of another base without digits, a
decimal integer that goes wrong behind an underscore, an integer below the least signed or above
the greatest unsigned 128-bit word, and a floating-point number that is too great for its type. They
are `Value.unreadable`.

The digits of a number are read as it (`scalar?_decimal`).
-/

namespace TestAssembly.Toml

open Text

/-! ### Digits and signs -/

/-- The digits of a run with single underscores between digits. -/
def digitGroups? (base : Nat) : List Char → Option (List Char)
  | [] => none
  | [c] => if isDigitOf base c then some [c] else none
  | c :: '_' :: rest => if isDigitOf base c then (digitGroups? base rest).map (c :: ·) else none
  | c :: rest => if isDigitOf base c then (digitGroups? base rest).map (c :: ·) else none

/-- A sign in front, true when it is negative, and what follows it. -/
def takeSign : List Char → Bool × List Char
  | '-' :: rest => (true, rest)
  | '+' :: rest => (false, rest)
  | rest => (false, rest)

/-- A number with its sign. -/
private def signed (negative : Bool) (n : Nat) : Int := if negative then -(n : Int) else n

/-! ### Integers -/

/-- An integer, if a type can hold it. -/
def integerValue (n : Int) : Value :=
  if -(signedDoubleWordBound : Int) ≤ n ∧ n < (doubleWordBound : Int) then .integer n
  else .unreadable

/-- An integer in a base other than ten, behind the mark of the base. -/
def markedInteger? (base : Nat) : List Char → Option Value
  | [] => some .unreadable
  | cs => (digitGroups? base cs).map fun digits => integerValue (ofDigits base digits)

/-- Whether groups behind underscores have the form of digits: each begins with a hexadecimal
digit, and ends with one in front of a further group. -/
def groupsInForm : List (List Char) → Bool
  | [] => true
  | [group] => group.head?.any (isDigitOf 16)
  | group :: rest =>
    group.head?.any (isDigitOf 16) && group.getLast?.any (isDigitOf 16) && groupsInForm rest

/-- A group in front of an underscore, or a whole integer. A lone one may be zero. -/
def isFirstGroup (alone : Bool) (group : List Char) : Bool :=
  !group.isEmpty && group.all (isDigitOf 10) &&
    (group.head? != some '0' || alone && group.length = 1)

/-- A decimal integer behind its sign. -/
def decimalInteger? (negative : Bool) (cs : List Char) : Option Value :=
  let inForm :=
    match pieces '_' cs with
    | first :: rest => isFirstGroup rest.isEmpty first && groupsInForm rest
    | [] => false
  let digits := cs.filter (· != '_')
  if !inForm || cs.contains ' ' then none
  else if digits.all (isDigitOf 10) then some (integerValue (signed negative (ofDigits 10 digits)))
  else some .unreadable

/-! ### Floating-point numbers -/

/-- The number `digits · 10 ^ exponent`, unless it is too great. Powers of ten far outside of the
type are not computed. -/
def realValue (negative : Bool) (digits : List Char) (exponent : Int) : Value :=
  let significand := ofDigits 10 digits
  let magnitude := exponent + (decimal significand).length
  if significand = 0 ∨ magnitude < -400 then .real (if negative then -0.0 else 0.0)
  else if 400 < magnitude then .unreadable
  else
    let x := Float.ofScientific significand (exponent < 0) exponent.natAbs
    if x.isFinite then .real (if negative then -x else x) else .unreadable

/-- Whether a character begins an exponent. -/
private def beginsExponent (c : Char) : Bool := c = 'e' || c = 'E'

/-- Whether a character makes a decimal a floating-point number. -/
private def isRealMark (c : Char) : Bool := c = '.' || beginsExponent c

/-- The digits in front of the point, without a leading zero. -/
def wholeDigits? (cs : List Char) : Option (List Char) :=
  match digitGroups? 10 cs with
  | some ('0' :: _ :: _) => none
  | digits => digits

/-- The exponent of a number: zero if there is none. -/
def exponent? : List Char → Option Int
  | [] => some 0
  | c :: rest =>
    if beginsExponent c then
      let (negative, digits) := takeSign rest
      (digitGroups? 10 digits).map fun ds => signed negative (ofDigits 10 ds)
    else none

/-- A floating-point number behind its sign. -/
def decimalReal? (negative : Bool) (cs : List Char) : Option Value :=
  let (whole, rest) := cs.span fun c => !isRealMark c
  match rest with
  | '.' :: rest =>
    let (fraction, rest) := rest.span fun c => !beginsExponent c
    match wholeDigits? whole, digitGroups? 10 fraction, exponent? rest with
    | some ds, some fs, some exponent =>
      some (realValue negative (ds ++ fs) (exponent - fs.length))
    | _, _, _ => none
  | rest =>
    match wholeDigits? whole, exponent? rest with
    | some ds, some exponent => some (realValue negative ds exponent)
    | _, _ => none

/-! ### Numbers -/

/-- **The number that a scalar has the form of.** -/
def number? : List Char → Option Value
  | '0' :: 'x' :: digits => markedInteger? 16 digits
  | '0' :: 'o' :: digits => markedInteger? 8 digits
  | '0' :: 'b' :: digits => markedInteger? 2 digits
  | cs =>
    let (negative, rest) := takeSign cs
    if rest = "inf".toList then some (.real (if negative then -1.0 / 0.0 else 1.0 / 0.0))
    else if rest = "nan".toList then some (.real (0.0 / 0.0))
    else if rest.any isRealMark then decimalReal? negative rest
    else decimalInteger? negative rest

/-! ### Dates and times -/

/-- Exactly `width` digits in front that stand for at least `least` and at most `most`, and what
follows. -/
def takeField? (width least most : Nat) (cs : List Char) : Option (Nat × List Char) :=
  match takeDigits? width cs with
  | some (digits, rest) =>
    let n := ofDigits 10 digits
    if digits.length = width ∧ least ≤ n ∧ n ≤ most then some (n, rest) else none
  | none => none

/-- What follows a mark in front. -/
private def takeMark? (mark : Char) : List Char → Option (List Char)
  | c :: rest => if c = mark then some rest else none
  | [] => none

/-- What follows a date in front. -/
def afterDate? (cs : List Char) : Option (List Char) := do
  let (year, rest) ← takeField? 4 0 9999 cs
  let (month, rest) ← takeField? 2 1 12 (← takeMark? '-' rest)
  let (_, rest) ← takeField? 2 1 (Time.daysInMonth year month) (← takeMark? '-' rest)
  return rest

/-- What follows an optional fraction of a second. -/
private def afterFraction? : List Char → Option (List Char)
  | '.' :: rest => (takeAllDigits? rest).map Prod.snd
  | rest => some rest

/-- What follows a time of day in front. Seconds may be left out. -/
def afterTime? (cs : List Char) : Option (List Char) := do
  let (_, rest) ← takeField? 2 0 23 cs
  let (_, rest) ← takeField? 2 0 59 (← takeMark? ':' rest)
  match rest with
  | ':' :: rest =>
    let (_, rest) ← takeField? 2 0 60 rest
    afterFraction? rest
  | rest => return rest

/-- Whether a run is empty or a distance from universal time. -/
def isOffset : List Char → Bool
  | [] => true
  | [c] => c = 'Z' || c = 'z'
  | c :: rest =>
    (c = '+' || c = '-') && (do
      let (_, rest) ← takeField? 2 0 23 rest
      let (_, rest) ← takeField? 2 0 59 (← takeMark? ':' rest)
      return rest) == some []

/-- **Whether a run is a date, a time, or both.** -/
def isMoment (cs : List Char) : Bool :=
  match afterDate? cs with
  | some [] => true
  | some (c :: rest) =>
    (c = 'T' || c = 't' || c = ' ') && (afterTime? rest).any isOffset
  | none => afterTime? cs == some []

/-! ### Scalars -/

/-- **The value that a scalar stands for.** -/
def scalar? (cs : List Char) : Option Value :=
  if cs = "true".toList then some (.boolean true)
  else if cs = "false".toList then some (.boolean false)
  else
    match number? cs with
    | some value => some value
    | none => if isMoment cs then some (.moment (String.ofList cs)) else none

/-- The marks of a document's structure, blanks and line breaks. -/
def scalarEnds : List Char :=
  [' ', '\t', '\n', '\r', '#', ',', '=', '[', ']', '\x7b', '\x7d']

/-- Whether a scalar goes on with a character. -/
def isScalarChar (c : Char) : Bool := !scalarEnds.contains c

/-- Whether a scalar goes on behind blanks in front. A quotation mark there begins a string. -/
def goesOn (cs : List Char) : Bool :=
  (cs.dropWhile isBlank).head?.any fun c => isScalarChar c && c != '"' && c != '\''

/-- The characters of a scalar in front, and what follows it. -/
def spanScalar : List Char → List Char × List Char
  | [] => ([], [])
  | c :: rest =>
    if isScalarChar c || isBlank c && goesOn rest then
      let (scalar, rest) := spanScalar rest
      (c :: scalar, rest)
    else ([], c :: rest)

/-- **Scalar in front**, and what follows it. -/
def readScalar (cs : List Char) : Option (Value × List Char) :=
  let (scalar, rest) := spanScalar cs
  (scalar? scalar).map (·, rest)

/-! ### Numbers without a sign -/

section Decimal

variable {n : Nat} {c : Char}

/-- What is no digit is not among the digits of a number. -/
private theorem not_mem_decimal (hc : isDigitOf 10 c = false) : c ∉ decimal n := fun h => by
  simp [isDigitOf_of_mem_decimal h] at hc

private theorem takeSign_decimal : takeSign (decimal n) = (false, decimal n) := by
  unfold takeSign
  split
  · rename_i h
    exact absurd (h ▸ List.mem_cons_self) (not_mem_decimal (c := '-') rfl)
  · rename_i h
    exact absurd (h ▸ List.mem_cons_self) (not_mem_decimal (c := '+') rfl)
  · rfl

private theorem isFirstGroup_decimal (n : Nat) : isFirstGroup true (decimal n) = true := by
  have hempty : (decimal n).isEmpty = false := by simp [decimal_ne_nil]
  have hzero : ((decimal n).head? != some '0' || true && decide ((decimal n).length = 1)) = true := by
    by_cases hn : n = 0
    · subst hn
      rfl
    · simp [head?_decimal_ne_zero hn]
  rw [isFirstGroup, hempty, all_isDigitOf_decimal, hzero]
  rfl

/-- The digits of a number are an integer. -/
theorem decimalInteger?_decimal (n : Nat) :
    decimalInteger? false (decimal n) = some (integerValue n) := by
  have hpieces : pieces '_' (decimal n) = [decimal n] := pieces_of_not_mem (not_mem_decimal rfl)
  have hfilter : (decimal n).filter (· != '_') = decimal n := by
    refine List.filter_eq_self.mpr fun c hc => bne_iff_ne.mpr ?_
    rintro rfl
    exact not_mem_decimal rfl hc
  have hspace : (decimal n).contains ' ' = false := by
    simpa using not_mem_decimal (n := n) (c := ' ') rfl
  rw [decimalInteger?, hpieces, hfilter, hspace, all_isDigitOf_decimal]
  simp only [List.isEmpty_nil, isFirstGroup_decimal, groupsInForm, ofDigits_decimal, signed,
    Bool.and_self, Bool.not_true, Bool.or_self, Bool.false_eq_true, if_false, if_true]

/-- **The digits of a number have its form.** -/
theorem number?_decimal (n : Nat) : number? (decimal n) = some (integerValue n) := by
  have hreal : (decimal n).any isRealMark = false := by
    refine List.any_eq_false.mpr fun c hc hmark => ?_
    simp only [isRealMark, beginsExponent, Bool.or_eq_true, decide_eq_true_eq] at hmark
    rcases hmark with rfl | rfl | rfl <;> exact not_mem_decimal rfl hc
  have hinf : decimal n ≠ "inf".toList := fun h =>
    absurd (h ▸ List.mem_cons_self) (not_mem_decimal (n := n) (c := 'i') rfl)
  have hnan : decimal n ≠ "nan".toList := fun h =>
    absurd (h ▸ List.mem_cons_self) (not_mem_decimal (n := n) (c := 'n') rfl)
  unfold number?
  split
  · rename_i h
    exact absurd (h ▸ by simp) (not_mem_decimal (n := n) (c := 'x') rfl)
  · rename_i h
    exact absurd (h ▸ by simp) (not_mem_decimal (n := n) (c := 'o') rfl)
  · rename_i h
    exact absurd (h ▸ by simp) (not_mem_decimal (n := n) (c := 'b') rfl)
  · simp only [takeSign_decimal, hinf, hnan, hreal, decimalInteger?_decimal, if_false,
      Bool.false_eq_true]

/-- **The digits of a number are read as it.** -/
theorem scalar?_decimal (n : Nat) : scalar? (decimal n) = some (integerValue n) := by
  have htrue : decimal n ≠ "true".toList := fun h =>
    absurd (h ▸ List.mem_cons_self) (not_mem_decimal (n := n) (c := 't') rfl)
  have hfalse : decimal n ≠ "false".toList := fun h =>
    absurd (h ▸ List.mem_cons_self) (not_mem_decimal (n := n) (c := 'f') rfl)
  rw [scalar?, if_neg htrue, if_neg hfalse, number?_decimal]

end Decimal

end TestAssembly.Toml
