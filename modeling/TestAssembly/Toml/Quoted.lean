import TestAssembly.Text.Digits

/-!
# Quoted strings

A string stands between quotation marks, in one of four forms. Between double marks a backslash
begins an escape; between single marks every character stands for itself. Between three marks of
either kind a string may have line breaks, with or without a carriage return; they belong to the
string as they are written, except for one right behind the opening marks. Up to two marks may stand
in such a string, also in front of the closing ones.

A string is written in the first form that needs no escapes: on one line between double marks, on
one line between single marks, then between three of either kind. A string for which none of them
will do is escaped, and is written between three double marks when it has a line break.
-/

namespace TestAssembly.Toml

open Text

/-! ### Characters -/

/-- Spaces and tabs. -/
def isBlank (c : Char) : Bool := c = ' ' || c = '\t'

/-- Control characters other than the tab. They stand in a document only as line breaks. -/
def isControl (c : Char) : Bool := (c.toNat < 32 && c != '\t') || c.toNat = 127

/-- The character with a code point. -/
def charOf? (n : Nat) : Option Char :=
  if n < 0xD800 ∨ 0xDFFF < n ∧ n < 0x110000 then some (Char.ofNat n) else none

/-- Whether a line break is in front. -/
def atLineBreak : List Char → Bool
  | '\n' :: _ => true
  | '\r' :: '\n' :: _ => true
  | _ => false

/-! ### Reading -/

/-- The character that a backslash and this character stand for. -/
def shortEscape? : Char → Option Char
  | '"' => some '"'
  | '\\' => some '\\'
  | 'b' => some '\x08'
  | 'e' => some '\x1b'
  | 'f' => some '\x0c'
  | 'n' => some '\n'
  | 'r' => some '\r'
  | 't' => some '\t'
  | _ => none

/-- How many hexadecimal digits a backslash and this character ask for. -/
def escapeWidth? : Char → Option Nat
  | 'x' => some 2
  | 'u' => some 4
  | 'U' => some 8
  | _ => none

/-- The closing marks in front, up to two marks that still belong to the string, and what follows
the closing marks. -/
def closing? (mark : Char) (cs : List Char) : Option (List Char × List Char) :=
  let marks := (cs.take 5).takeWhile (· = mark)
  if marks.length < 3 then none else some (marks.drop 3, cs.drop marks.length)

/-- Where a reader of a string stands relative to an escape. -/
inductive EscapeState where
  /-- Outside. -/
  | outside
  /-- Behind a backslash. -/
  | begun
  /-- In front of so many more hexadecimal digits, behind digits of this value. -/
  | digits (left value : Nat)
  /-- Between a backslash and the end of its line. -/
  | lineEnd
  /-- In front of blanks and line breaks that are passed over. -/
  | margin
  deriving DecidableEq, Repr

/-- The state behind a line break that is passed over. -/
def behindBreak (cs : List Char) : EscapeState :=
  if atLineBreak cs || cs.head?.any isBlank then .margin else .outside

/-- Put a character in front of what was read. -/
def consRead (c : Char) : Option (List Char × List Char) → Option (List Char × List Char)
  | some (cs, rest) => some (c :: cs, rest)
  | none => none

/-- **String between double marks**, up to the closing ones, and what follows them. -/
def readBasic (multiline : Bool) : EscapeState → List Char → Option (List Char × List Char)
  | _, [] => none
  | .outside, c :: rest =>
    if c = '"' then
      if multiline then
        match closing? '"' (c :: rest) with
        | some found => some found
        | none => consRead c (readBasic multiline .outside rest)
      else some ([], rest)
    else if c = '\\' then readBasic multiline .begun rest
    else if !isControl c then consRead c (readBasic multiline .outside rest)
    else if multiline ∧ atLineBreak (c :: rest) then consRead c (readBasic multiline .outside rest)
    else none
  | .begun, c :: rest =>
    match shortEscape? c, escapeWidth? c with
    | some char, _ => consRead char (readBasic multiline .outside rest)
    | none, some width => readBasic multiline (.digits width 0) rest
    | none, none =>
      if multiline ∧ isBlank c then readBasic multiline .lineEnd rest
      else if multiline ∧ c = '\n' then readBasic multiline (behindBreak rest) rest
      else if multiline ∧ atLineBreak (c :: rest) then readBasic multiline .lineEnd rest
      else none
  | .digits left value, c :: rest =>
    match hexValue? c with
    | none => none
    | some digit =>
      let value := 16 * value + digit
      if 1 < left then readBasic multiline (.digits (left - 1) value) rest
      else
        match charOf? value with
        | some char => consRead char (readBasic multiline .outside rest)
        | none => none
  | .lineEnd, c :: rest =>
    if isBlank c then readBasic multiline .lineEnd rest
    else if c = '\n' then readBasic multiline (behindBreak rest) rest
    else if atLineBreak (c :: rest) then readBasic multiline .lineEnd rest
    else none
  | .margin, c :: rest =>
    if c = '\r' then readBasic multiline .margin rest
    else readBasic multiline (behindBreak rest) rest

/-- **String between single marks**, up to the closing ones, and what follows them. -/
def readLiteral (multiline : Bool) : List Char → Option (List Char × List Char)
  | [] => none
  | c :: rest =>
    if c = '\'' then
      if multiline then
        match closing? '\'' (c :: rest) with
        | some found => some found
        | none => consRead c (readLiteral multiline rest)
      else some ([], rest)
    else if !isControl c then consRead c (readLiteral multiline rest)
    else if multiline ∧ atLineBreak (c :: rest) then consRead c (readLiteral multiline rest)
    else none

section Steps

variable {multiline : Bool} {c : Char} {rest : List Char}

theorem readBasic_outside_cons :
    readBasic multiline .outside (c :: rest) =
      if c = '"' then
        if multiline then
          (closing? '"' (c :: rest)).or (consRead c (readBasic multiline .outside rest))
        else some ([], rest)
      else if c = '\\' then readBasic multiline .begun rest
      else if !isControl c then consRead c (readBasic multiline .outside rest)
      else if multiline ∧ atLineBreak (c :: rest) then consRead c (readBasic multiline .outside rest)
      else none := by
  rw [readBasic]
  cases closing? '"' (c :: rest) <;> rfl

theorem readBasic_digits_cons {left value digit : Nat} (hdigit : hexValue? c = some digit) :
    readBasic multiline (.digits left value) (c :: rest) =
      if 1 < left then readBasic multiline (.digits (left - 1) (16 * value + digit)) rest
      else (charOf? (16 * value + digit)).bind fun char =>
        consRead char (readBasic multiline .outside rest) := by
  simp only [readBasic, hdigit]
  cases charOf? (16 * value + digit) <;> rfl

theorem readLiteral_cons :
    readLiteral multiline (c :: rest) =
      if c = '\'' then
        if multiline then (closing? '\'' (c :: rest)).or (consRead c (readLiteral multiline rest))
        else some ([], rest)
      else if !isControl c then consRead c (readLiteral multiline rest)
      else if multiline ∧ atLineBreak (c :: rest) then consRead c (readLiteral multiline rest)
      else none := by
  rw [readLiteral]
  cases closing? '\'' (c :: rest) <;> rfl

end Steps

/-- A text without a line break in front. -/
def skipLineBreak : List Char → List Char
  | '\n' :: rest => rest
  | '\r' :: '\n' :: rest => rest
  | rest => rest

/-- **String on one line** in front, and what follows it. -/
def readLine? : List Char → Option (List Char × List Char)
  | '"' :: rest => readBasic false .outside rest
  | '\'' :: rest => readLiteral false rest
  | _ => none

/-- **String** of any form in front, and what follows it. -/
def readQuoted? : List Char → Option (List Char × List Char)
  | '"' :: '"' :: '"' :: rest => readBasic true .outside (skipLineBreak rest)
  | '\'' :: '\'' :: '\'' :: rest => readLiteral true (skipLineBreak rest)
  | rest => readLine? rest

/-! ### Writing -/

/-- Whether more than `most` of a mark follow each other. -/
def hasRun (mark : Char) (most : Nat) : Nat → List Char → Bool
  | _, [] => false
  | run, c :: rest =>
    if c = mark then most ≤ run || hasRun mark most (run + 1) rest else hasRun mark most 0 rest

/-- The character that stands for another one behind a backslash. -/
def escapeLetter? (c : Char) : Option Char :=
  if c = '"' then some '"'
  else if c = '\\' then some '\\'
  else if c = '\t' then some 't'
  else if c = '\n' then some 'n'
  else if c = '\r' then some 'r'
  else if c = '\x08' then some 'b'
  else if c = '\x0c' then some 'f'
  else none

/-- A character as an escape. -/
def escape (c : Char) : List Char :=
  match escapeLetter? c with
  | some letter => ['\\', letter]
  | none => '\\' :: 'u' :: paddedHex 4 c.toNat

/-- The text between double marks that stands for characters. A double mark is escaped when
`most` of them stand in front of it. -/
def escapeAll (multiline : Bool) (most : Nat) : Nat → List Char → List Char
  | _, [] => []
  | run, c :: rest =>
    if c = '"' then
      if most ≤ run then escape c ++ escapeAll multiline most 0 rest
      else c :: escapeAll multiline most (run + 1) rest
    else if c = '\n' ∧ multiline then c :: escapeAll multiline most 0 rest
    else if isControl c ∨ c = '\\' ∨ c = '\t' then escape c ++ escapeAll multiline most 0 rest
    else c :: escapeAll multiline most 0 rest

section Steps

variable {mark c : Char} {most run : Nat} {rest : List Char}

theorem hasRun_cons :
    hasRun mark most run (c :: rest) =
      if c = mark then most ≤ run || hasRun mark most (run + 1) rest
      else hasRun mark most 0 rest := rfl

theorem escapeAll_cons {multiline : Bool} :
    escapeAll multiline most run (c :: rest) =
      if c = '"' then
        if most ≤ run then escape c ++ escapeAll multiline most 0 rest
        else c :: escapeAll multiline most (run + 1) rest
      else if c = '\n' ∧ multiline then c :: escapeAll multiline most 0 rest
      else if isControl c ∨ c = '\\' ∨ c = '\t' then escape c ++ escapeAll multiline most 0 rest
      else c :: escapeAll multiline most 0 rest := rfl

end Steps

/-- The forms of a string. -/
inductive QuoteForm where
  | basic
  | literal
  | multilineBasic
  | multilineLiteral
  deriving DecidableEq, Repr

/-- **The form in which a string is written.** -/
def QuoteForm.choose (cs : List Char) : QuoteForm :=
  let broken := cs.any (· = '\n')
  let control := cs.any fun c => isControl c && c != '\n'
  let backslash := cs.any (· = '\\')
  if !control && !backslash && !hasRun '"' 0 0 cs && !broken then basic
  else if !control && !hasRun '\'' 0 0 cs && !broken then literal
  else if !control && !backslash && !hasRun '"' 2 0 cs then multilineBasic
  else if !control && !hasRun '\'' 2 0 cs then multilineLiteral
  else if broken then multilineBasic
  else basic

/-- **String with its marks.** -/
def writeQuoted (cs : List Char) : List Char :=
  let opening := if cs.any (· = '\n') then ['\n'] else []
  match QuoteForm.choose cs with
  | .basic => '"' :: escapeAll false 0 0 cs ++ ['"']
  | .literal => '\'' :: cs ++ ['\'']
  | .multilineBasic => ['"', '"', '"'] ++ opening ++ escapeAll true 2 0 cs ++ ['"', '"', '"']
  | .multilineLiteral => ['\'', '\'', '\''] ++ opening ++ cs ++ ['\'', '\'', '\'']

end TestAssembly.Toml
