import TestAssembly.Toml.Quoted
import TestAssembly.Toml.Scalar

/-!
# Reading TOML documents

A document is read line by line: an empty line, an entry, or a heading in single or double
brackets, each with blanks around it and a comment behind it. Keys are bare or quoted names with
dots between them. Arrays and tables in place may go over several lines, with comments, wherever
there is no key in the making, and may have a comma behind the last element.

What the entries and headings make of the document is the matter of `Table.ofSections`. A text has
a document (`ofText?`) when both its lines and its tables are in order.

An array is read by its elements (`readValue_array`), one after the other (`readElements_comma`). A
heading and an entry with bare names are read from lines of their own (`readLineOf?_heading`,
`readLineOf?_entry`).
-/

namespace TestAssembly.Toml

open Text

/-! ### Blanks and line ends -/

/-- A text from its first character that is no blank. -/
def skipBlank (cs : List Char) : List Char := cs.dropWhile isBlank

/-- Whether a character may stand in a comment. -/
private def isCommentChar (c : Char) : Bool := !isControl c

/-- **What follows the end of a line**, blanks and a comment before it passed over. -/
def lineEnd? (cs : List Char) : Option (List Char) :=
  let rest :=
    match skipBlank cs with
    | '#' :: rest => rest.dropWhile isCommentChar
    | rest => rest
  match rest with
  | [] => some []
  | '\n' :: rest => some rest
  | '\r' :: '\n' :: rest => some rest
  | _ => none

/-- What follows blanks, line breaks and comments. -/
def skipGap? : Bool → List Char → Option (List Char)
  | _, [] => some []
  | inComment, c :: rest =>
    if c = '\n' then skipGap? false rest
    else if atLineBreak (c :: rest) then skipGap? inComment rest
    else if inComment then if isCommentChar c then skipGap? true rest else none
    else if isBlank c then skipGap? false rest
    else if c = '#' then skipGap? true rest
    else some (c :: rest)

/-! ### Keys -/

/-- Characters of bare names. -/
def isBareChar (c : Char) : Bool := c.isAlphanum || c = '_' || c = '-'

/-- A name in front, and what follows it. -/
def readName? (cs : List Char) : Option (String × List Char) :=
  match cs.takeWhile isBareChar with
  | [] => (readLine? cs).map fun (name, rest) => (String.ofList name, rest)
  | name => some (String.ofList name, cs.dropWhile isBareChar)

/-- How many names a key may have. -/
def maxKeyLength : Nat := 80

/-- **Key in front** with at most so many names, and what follows it and the blanks behind it. -/
def readKey? : Nat → List Char → Option (Key × List Char)
  | 0, _ => none
  | most + 1, cs =>
    match readName? cs with
    | none => none
    | some (name, rest) =>
      match skipBlank rest with
      | '.' :: rest =>
        (readKey? most (skipBlank rest)).map fun (key, rest) =>
          (⟨name :: key.path, key.name⟩, rest)
      | rest => some (⟨[], name⟩, rest)

/-- A key of a table in place, and the value in front of which the equals sign leads. Lines may
break on either side of the sign. -/
def readAssigned? (cs : List Char) : Option (Key × List Char) :=
  match readKey? maxKeyLength cs with
  | none => none
  | some (key, rest) =>
    match skipGap? false rest with
    | some ('=' :: rest) => (skipGap? false rest).map (key, ·)
    | _ => none

/-! ### Values -/

/-- How deep arrays and tables in place may be nested. -/
def maxDepth : Nat := 80

mutual

/-- A value in front of a text, and what follows it. The fuel bounds how often values and their
parts are entered. -/
def readValue : Nat → Nat → List Char → Option (Value × List Char)
  | 0, _, _ => none
  | fuel + 1, depth, cs =>
    match cs with
    | '[' :: rest =>
      match depth, skipGap? false rest with
      | 0, _ | _, none => none
      | _ + 1, some (']' :: rest) => some (.array [], rest)
      | depth + 1, some rest =>
        (readElements fuel depth rest).map fun (vs, rest) => (.array vs, rest)
    | '\x7b' :: rest =>
      match depth, skipGap? false rest with
      | 0, _ | _, none => none
      | _ + 1, some ('\x7d' :: rest) => some (.table .written [], rest)
      | depth + 1, some rest =>
        match readEntries fuel depth rest with
        | none => none
        | some (entries, rest) =>
          (Table.addEntries [] entries).map fun table => (.table .written table, rest)
    | cs =>
      if cs.head?.any (fun c => c = '"' || c = '\'') then
        (readQuoted? cs).map fun (s, rest) => (.string (String.ofList s), rest)
      else readScalar cs

/-- One or more elements up to the closing bracket. -/
def readElements : Nat → Nat → List Char → Option (List Value × List Char)
  | 0, _, _ => none
  | fuel + 1, depth, cs =>
    match readValue fuel depth cs with
    | none => none
    | some (v, rest) =>
      match skipGap? false rest with
      | some (']' :: rest) => some ([v], rest)
      | some (',' :: rest) =>
        match skipGap? false rest with
        | none => none
        | some (']' :: rest) => some ([v], rest)
        | some rest => (readElements fuel depth rest).map fun (vs, rest) => (v :: vs, rest)
      | _ => none

/-- One or more entries up to the closing brace. -/
def readEntries : Nat → Nat → List Char → Option (List (Key × Value) × List Char)
  | 0, _, _ => none
  | fuel + 1, depth, cs =>
    match readAssigned? cs with
    | none => none
    | some (key, rest) =>
      match readValue fuel depth rest with
      | none => none
      | some (v, rest) =>
        match skipGap? false rest with
        | some ('\x7d' :: rest) => some ([(key, v)], rest)
        | some (',' :: rest) =>
          match skipGap? false rest with
          | none => none
          | some ('\x7d' :: rest) => some ([(key, v)], rest)
          | some rest =>
            (readEntries fuel depth rest).map fun (es, rest) => ((key, v) :: es, rest)
        | _ => none

end

/-! ### Steps of reading values -/

section Steps

variable {fuel depth : Nat} {cs rest behind next : List Char} {v : Value} {vs : List Value}

/-- What begins neither with a bracket nor with a brace is a string or a scalar. -/
theorem readValue_cons {c : Char} (hbracket : c ≠ '[') (hbrace : c ≠ '\x7b') :
    readValue (fuel + 1) depth (c :: cs) =
      if c = '"' ∨ c = '\'' then
        (readQuoted? (c :: cs)).map fun found => (.string (String.ofList found.1), found.2)
      else readScalar (c :: cs) := by
  rw [readValue]
  · simp
  · simpa using hbracket
  · simpa using hbrace

/-- An array is read by the elements behind its bracket, if there are any. -/
theorem readValue_array (hopen : skipGap? false cs = some next) (hnext : next.head? ≠ some ']')
    (hvalues : readElements fuel depth next = some (vs, rest)) :
    readValue (fuel + 1) (depth + 1) ('[' :: cs) = some (.array vs, rest) := by
  cases next with
  | nil => simp [readValue, hopen, hvalues]
  | cons c next =>
    have hc : c ≠ ']' := fun h => hnext (congrArg some h)
    simp [readValue, hopen, hc, hvalues]

theorem readElements_last (hvalue : readValue fuel depth cs = some (v, ']' :: rest)) :
    readElements (fuel + 1) depth cs = some ([v], rest) := by
  have hgap : skipGap? false (']' :: rest) = some (']' :: rest) := rfl
  simp only [readElements, hvalue, hgap]

/-- Behind a comma stands the closing bracket or one more element. -/
theorem readElements_comma (hvalue : readValue fuel depth cs = some (v, ',' :: behind))
    (hgap : skipGap? false behind = some next) :
    readElements (fuel + 1) depth cs =
      if next.head? = some ']' then some ([v], next.tail)
      else (readElements fuel depth next).map fun found => (v :: found.1, found.2) := by
  have hcomma : skipGap? false (',' :: behind) = some (',' :: behind) := rfl
  simp only [readElements, hvalue, hcomma, hgap]
  split
  · rename_i h
    cases h
  · rename_i h
    cases h
    rfl
  · rename_i hnext h
    cases h
    rw [if_neg]
    intro h
    obtain ⟨tail, rfl⟩ := List.head?_eq_some_iff.mp h
    exact hnext tail rfl

end Steps

/-! ### Lines -/

/-- **Line** of a document. -/
inductive Line where
  | empty
  | entry (key : Key) (value : Value)
  | heading (key : Key) (repeated : Bool)
  deriving Inhabited

/-- The closing brackets of a heading, and what follows them. -/
private def headingEnd? (repeated : Bool) : List Char → Option (List Char)
  | ']' :: ']' :: rest => if repeated then some rest else none
  | ']' :: rest => if repeated then none else some rest
  | _ => none

/-- A heading behind its opening brackets, and what follows it. -/
private def readHeading? (repeated : Bool) (cs : List Char) : Option (Line × List Char) :=
  match readKey? maxKeyLength (skipBlank cs) with
  | none => none
  | some (key, rest) => (headingEnd? repeated rest).map (Line.heading key repeated, ·)

/-- An entry, and what follows it. -/
private def readEntry? (cs : List Char) : Option (Line × List Char) :=
  match readKey? maxKeyLength cs with
  | some (key, '=' :: rest) =>
    (readValue (2 * rest.length + 1) maxDepth (skipBlank rest)).map fun (value, rest) =>
      (Line.entry key value, rest)
  | _ => none

/-- The line in front of a text, without its end, and what follows it. -/
def readContent? (cs : List Char) : Option (Line × List Char) :=
  match cs with
  | '[' :: '[' :: rest => readHeading? true rest
  | '[' :: rest => readHeading? false rest
  | cs =>
    if cs.head?.all (fun c => c = '#' || c = '\n' || c = '\r') then some (.empty, cs)
    else readEntry? cs

/-- **Line** in front of a text, and what follows it. -/
def readLineOf? (cs : List Char) : Option (Line × List Char) :=
  match readContent? (skipBlank cs) with
  | none => none
  | some (line, rest) => (lineEnd? rest).map (line, ·)

/-- All lines of a text. The fuel bounds their number. -/
def readLines : Nat → List Char → Option (List Line)
  | _, [] => some []
  | 0, _ => none
  | fuel + 1, cs =>
    match readLineOf? cs with
    | none => none
    | some (line, rest) => (readLines fuel rest).map (line :: ·)

/-! ### Documents -/

/-- The entries in front of the first heading, and the sections behind. -/
def sectionsOf : List Line → List (Key × Value) × List Table.Section
  | [] => ([], [])
  | .empty :: rest => sectionsOf rest
  | .entry key value :: rest =>
    let (entries, sections) := sectionsOf rest
    ((key, value) :: entries, sections)
  | .heading key repeated :: rest =>
    let (entries, sections) := sectionsOf rest
    ([], ⟨key, repeated, entries⟩ :: sections)

/-- A text without a mark of byte order in front. -/
private def skipByteOrderMark : List Char → List Char
  | '\ufeff' :: rest => rest
  | cs => cs

/-- **Document that a text stands for.** -/
def ofText? (s : String) : Option Table := do
  let cs := skipByteOrderMark s.toList
  let lines ← readLines cs.length cs
  let (entries, sections) := sectionsOf lines
  Table.ofSections entries sections

/-! ### Plain lines -/

section Plain

variable {name : String} {rest : List Char}

/-- **Bare name**: it can stand in a key without quotation marks. -/
def IsBare (name : String) : Prop := name.toList ≠ [] ∧ name.toList.all isBareChar = true

instance (name : String) : Decidable (IsBare name) := inferInstanceAs (Decidable (_ ∧ _))

theorem ne_of_isBareChar {c d : Char} (hc : isBareChar c = true) (hd : isBareChar d = false) :
    c ≠ d := by
  rintro rfl
  simp [hc] at hd

theorem IsBare.isBareChar_of_mem {c : Char} (hname : IsBare name) (hc : c ∈ name.toList) :
    isBareChar c = true :=
  List.all_eq_true.mp hname.2 c hc

theorem IsBare.exists_cons (hname : IsBare name) :
    ∃ c cs, name.toList = c :: cs ∧ isBareChar c = true := by
  obtain ⟨c, cs, hlist⟩ := List.exists_cons_of_ne_nil hname.1
  exact ⟨c, cs, hlist, hname.isBareChar_of_mem (hlist ▸ List.mem_cons_self)⟩

theorem IsBare.skipBlank_append (hname : IsBare name) :
    skipBlank (name.toList ++ rest) = name.toList ++ rest := by
  obtain ⟨c, cs, hlist, hc⟩ := hname.exists_cons
  have hspace : c ≠ ' ' := ne_of_isBareChar hc rfl
  have htab : c ≠ '\t' := ne_of_isBareChar hc rfl
  simp [skipBlank, hlist, isBlank, hspace, htab]

/-- A bare name is read up to a character that is not bare. -/
theorem readName?_of_isBare (hname : IsBare name) (hrest : rest.head?.any isBareChar = false) :
    readName? (name.toList ++ rest) = some (name, rest) := by
  have htake : (name.toList ++ rest).takeWhile isBareChar = name.toList := by
    rw [List.takeWhile_append_of_pos fun _ => hname.isBareChar_of_mem]
    cases rest <;> simp_all
  have hdrop : (name.toList ++ rest).dropWhile isBareChar = rest := by
    rw [List.dropWhile_append_of_pos fun _ => hname.isBareChar_of_mem]
    cases rest <;> simp_all
  rw [readName?, htake, hdrop]
  cases hlist : name.toList with
  | nil => exact absurd hlist hname.1
  | cons c cs => simp [← hlist]

/-- A bare name is a key when no dot follows it. -/
theorem readKey?_of_isBare (most : Nat) (hname : IsBare name)
    (hrest : rest.head?.any isBareChar = false) (hdot : (skipBlank rest).head? ≠ some '.') :
    readKey? (most + 1) (name.toList ++ rest) = some (⟨[], name⟩, skipBlank rest) := by
  simp only [readKey?, readName?_of_isBare hname hrest]
  split
  · rename_i h
    simp [h] at hdot
  · rfl

theorem lineEnd?_newline : lineEnd? ('\n' :: rest) = some rest := rfl

/-- A heading on a line of its own. -/
theorem readLineOf?_heading (hname : IsBare name) :
    readLineOf? ('[' :: (name.toList ++ ']' :: '\n' :: rest)) =
      some (.heading ⟨[], name⟩ false, rest) := by
  have hkey : readKey? maxKeyLength (name.toList ++ ']' :: '\n' :: rest) =
      some (⟨[], name⟩, ']' :: '\n' :: rest) :=
    readKey?_of_isBare 79 hname rfl (by simp [skipBlank, isBlank])
  have hheading : readHeading? false (name.toList ++ ']' :: '\n' :: rest) =
      some (.heading ⟨[], name⟩ false, '\n' :: rest) := by
    simp [readHeading?, hname.skipBlank_append, hkey, headingEnd?]
  have hcontent : readContent? ('[' :: (name.toList ++ ']' :: '\n' :: rest)) =
      readHeading? false (name.toList ++ ']' :: '\n' :: rest) := by
    obtain ⟨c, cs, hlist, hc⟩ := hname.exists_cons
    simp [hlist, readContent?, ne_of_isBareChar hc (d := '[') rfl]
  have hskip : skipBlank ('[' :: (name.toList ++ ']' :: '\n' :: rest)) =
      '[' :: (name.toList ++ ']' :: '\n' :: rest) := rfl
  simp only [readLineOf?, hskip, hcontent, hheading, lineEnd?_newline, Option.map_some]

/-- An entry on a line of its own, given how its value is read. -/
theorem readLineOf?_entry {text : List Char} {value : Value} (hname : IsBare name)
    (hvalue : readValue (2 * (' ' :: (text ++ '\n' :: rest)).length + 1) maxDepth
      (skipBlank (text ++ '\n' :: rest)) = some (value, '\n' :: rest)) :
    readLineOf? (name.toList ++ ' ' :: '=' :: ' ' :: (text ++ '\n' :: rest)) =
      some (.entry ⟨[], name⟩ value, rest) := by
  have hkey : readKey? maxKeyLength (name.toList ++ ' ' :: '=' :: ' ' :: (text ++ '\n' :: rest)) =
      some (⟨[], name⟩, '=' :: ' ' :: (text ++ '\n' :: rest)) :=
    readKey?_of_isBare 79 hname rfl (by simp [skipBlank, isBlank])
  have hentry : readEntry? (name.toList ++ ' ' :: '=' :: ' ' :: (text ++ '\n' :: rest)) =
      some (.entry ⟨[], name⟩ value, '\n' :: rest) := by
    have hskip : skipBlank (' ' :: (text ++ '\n' :: rest)) = skipBlank (text ++ '\n' :: rest) := rfl
    simp only [hkey, hskip, hvalue, Option.map_some, readEntry?]
  have hcontent : readContent? (name.toList ++ ' ' :: '=' :: ' ' :: (text ++ '\n' :: rest)) =
      readEntry? (name.toList ++ ' ' :: '=' :: ' ' :: (text ++ '\n' :: rest)) := by
    obtain ⟨c, cs, hlist, hc⟩ := hname.exists_cons
    simp [hlist, readContent?, ne_of_isBareChar hc (d := '[') rfl,
      ne_of_isBareChar hc (d := '#') rfl, ne_of_isBareChar hc (d := '\n') rfl,
      ne_of_isBareChar hc (d := '\r') rfl]
  simp only [readLineOf?, hname.skipBlank_append, hcontent, hentry, lineEnd?_newline,
    Option.map_some]

theorem readLineOf?_empty : readLineOf? ('\n' :: rest) = some (.empty, rest) := rfl

/-- A text that begins with no mark of byte order has the document of its lines. -/
theorem ofText?_of_readLines {s : String} {lines : List Line}
    (hmark : s.toList.head? ≠ some '\ufeff')
    (hlines : readLines s.toList.length s.toList = some lines) :
    ofText? s = Table.ofSections (sectionsOf lines).1 (sectionsOf lines).2 := by
  have hskip : skipByteOrderMark s.toList = s.toList := by
    unfold skipByteOrderMark
    split
    · rename_i h
      simp [h] at hmark
    · rfl
  simp [ofText?, hskip, hlines]

end Plain

end TestAssembly.Toml
