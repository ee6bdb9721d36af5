import TestAssembly.Proofs.Toml.Quoted
import TestAssembly.Toml.Reader
import TestAssembly.Toml.Writer

/-!
# Documents are read as they were written

The text of a value is one from which the value is read where it stands at the end of a line
(`IsTextOf`): truth values, decimal numbers, strings, and arrays of strings on one line or on
several. A plain section is a heading and entries whose names are bare and whose texts are those of
their values; the proofs of this are carried along (`PlainSection`). A document of plain sections
is read section by section, whatever empty lines follow it (`ofText?_writeDocument`). What the
sections then make of a table is not looked at here.

Reading is bounded by fuel. A text of a value gives enough of it by its length, since each element
of an array takes at least one character, and so does a document, since each line does.
-/

namespace TestAssembly.Toml

open Text

/-! ### Texts of values -/

section Values

variable {fuel depth : Nat} {rest : List Char}

/-- **Text of a value**: at the end of a line the value is read from it. -/
def IsTextOf (text : List Char) (value : Value) : Prop :=
  ∀ fuel rest, text.length < fuel →
    readValue fuel maxDepth (skipBlank (text ++ '\n' :: rest)) = some (value, '\n' :: rest)

theorem noMarkInFront_cons {c : Char} (hdouble : c ≠ '"') (hsingle : c ≠ '\'') :
    NoMarkInFront (c :: rest) :=
  ⟨by simpa using hdouble, by simpa using hsingle⟩

/-! Scalars -/

/-- A scalar ends where its line does. -/
theorem spanScalar_newline {cs : List Char} (hcs : ∀ c ∈ cs, isScalarChar c = true) :
    spanScalar (cs ++ '\n' :: rest) = (cs, '\n' :: rest) := by
  induction cs with
  | nil => rfl
  | cons c cs ih =>
    rw [List.forall_mem_cons] at hcs
    simp [spanScalar, hcs.1, ih hcs.2]

theorem ne_of_isScalarChar {c d : Char} (hc : isScalarChar c = true)
    (hd : isScalarChar d = false) : c ≠ d := by
  rintro rfl
  simp [hc] at hd

theorem readValue_scalar {c : Char} {cs : List Char} (hscalar : isScalarChar c = true)
    (hdouble : c ≠ '"') (hsingle : c ≠ '\'') :
    readValue (fuel + 1) depth (c :: cs) = readScalar (c :: cs) := by
  have hbracket : c ≠ '[' := ne_of_isScalarChar hscalar rfl
  have hbrace : c ≠ '\x7b' := ne_of_isScalarChar hscalar rfl
  rw [readValue_cons hbracket hbrace, if_neg (not_or.mpr ⟨hdouble, hsingle⟩)]

theorem skipBlank_scalar {c : Char} {cs : List Char} (hscalar : isScalarChar c = true) :
    skipBlank (c :: cs) = c :: cs := by
  have hspace : c ≠ ' ' := ne_of_isScalarChar hscalar rfl
  have htab : c ≠ '\t' := ne_of_isScalarChar hscalar rfl
  simp [skipBlank, isBlank, hspace, htab]

theorem isTextOf_scalar {c : Char} {cs : List Char} {value : Value}
    (hscalar : (c :: cs).all isScalarChar = true) (hdouble : c ≠ '"') (hsingle : c ≠ '\'')
    (hvalue : scalar? (c :: cs) = some value) : IsTextOf (c :: cs) value := by
  intro fuel rest hfuel
  obtain ⟨fuel, rfl⟩ := Nat.exists_eq_succ_of_ne_zero (Nat.ne_zero_of_lt hfuel)
  have hall : ∀ d ∈ c :: cs, isScalarChar d = true := List.all_eq_true.mp hscalar
  have hc : isScalarChar c = true := hall c List.mem_cons_self
  have hspan : spanScalar (c :: (cs ++ '\n' :: rest)) = (c :: cs, '\n' :: rest) :=
    spanScalar_newline hall
  rw [List.cons_append, skipBlank_scalar hc, readValue_scalar hc hdouble hsingle]
  simp only [readScalar, hspan, hvalue, Option.map_some]

theorem isTextOf_boolean (b : Bool) : IsTextOf (writeBoolean b) (.boolean b) := by
  cases b
  · exact isTextOf_scalar (by decide) (by decide) (by decide) rfl
  · exact isTextOf_scalar (by decide) (by decide) (by decide) rfl

theorem isTextOf_decimal {n : Nat} (hn : n < doubleWordBound) :
    IsTextOf (decimal n) (.integer n) := by
  have hvalue : scalar? (decimal n) = some (.integer n) := by
    rw [scalar?_decimal, integerValue, if_pos (by omega)]
  have hscalar : ∀ c ∈ decimal n, isScalarChar c = true ∧ c ≠ '"' ∧ c ≠ '\'' :=
    forall_mem_decimal (by decide) n
  cases hdigits : decimal n with
  | nil => exact absurd hdigits (decimal_ne_nil n)
  | cons c cs =>
    rw [hdigits] at hvalue hscalar
    obtain ⟨-, hdouble, hsingle⟩ := hscalar c List.mem_cons_self
    have hall : (c :: cs).all isScalarChar = true :=
      List.all_eq_true.mpr fun d hd => (hscalar d hd).1
    exact isTextOf_scalar hall hdouble hsingle hvalue

/-! Strings -/

theorem exists_writeQuoted_eq_cons (cs : List Char) :
    ∃ mark tail, writeQuoted cs = mark :: tail ∧ (mark = '"' ∨ mark = '\'') := by
  rw [writeQuoted]
  cases QuoteForm.choose cs with
  | basic => exact ⟨_, _, rfl, .inl rfl⟩
  | literal => exact ⟨_, _, rfl, .inr rfl⟩
  | multilineBasic => exact ⟨_, _, rfl, .inl rfl⟩
  | multilineLiteral => exact ⟨_, _, rfl, .inr rfl⟩

/-- **A written string is read as a value**, wherever no mark follows it. -/
theorem readValue_writeQuoted (s : String) (rest : List Char) (hrest : NoMarkInFront rest) :
    readValue (fuel + 1) depth (writeQuoted s.toList ++ rest) = some (.string s, rest) := by
  have hread := readQuoted?_writeQuoted s.toList hrest
  obtain ⟨mark, tail, htext, hmark⟩ := exists_writeQuoted_eq_cons s.toList
  have hbracket : mark ≠ '[' := by rcases hmark with rfl | rfl <;> decide
  have hbrace : mark ≠ '\x7b' := by rcases hmark with rfl | rfl <;> decide
  rw [htext, List.cons_append] at hread ⊢
  rw [readValue_cons hbracket hbrace, if_pos hmark, hread, Option.map_some, String.ofList_toList]

/-- Between blanks, line breaks and comments on the one hand and a string on the other, there is
nothing. -/
theorem skipGap?_writeQuoted (s : String) (rest : List Char) :
    skipGap? false (writeQuoted s.toList ++ rest) = some (writeQuoted s.toList ++ rest) := by
  obtain ⟨mark, tail, htext, rfl | rfl⟩ := exists_writeQuoted_eq_cons s.toList
  · rw [htext]
    rfl
  · rw [htext]
    rfl

/-- A string is not taken for the end of an array. -/
theorem head?_writeQuoted_append (s : String) (rest : List Char) :
    (writeQuoted s.toList ++ rest).head? ≠ some ']' := by
  obtain ⟨mark, tail, htext, rfl | rfl⟩ := exists_writeQuoted_eq_cons s.toList
  · simp [htext]
  · simp [htext]

theorem skipBlank_writeQuoted (s : String) (rest : List Char) :
    skipBlank (writeQuoted s.toList ++ rest) = writeQuoted s.toList ++ rest := by
  obtain ⟨mark, tail, htext, rfl | rfl⟩ := exists_writeQuoted_eq_cons s.toList
  · rw [htext]
    rfl
  · rw [htext]
    rfl

theorem isTextOf_quoted (s : String) : IsTextOf (writeQuoted s.toList) (.string s) := by
  intro fuel rest hfuel
  obtain ⟨fuel, rfl⟩ := Nat.exists_eq_succ_of_ne_zero (Nat.ne_zero_of_lt hfuel)
  rw [skipBlank_writeQuoted, readValue_writeQuoted]
  exact noMarkInFront_cons (by decide) (by decide)

/-! Arrays of strings -/

/-- The lines of the elements of an array, in front of its closing bracket. -/
def elementLines (ss : List String) : List Char :=
  ss.flatMap fun s => "    ".toList ++ writeQuoted s.toList ++ [',', '\n']

theorem elementLines_cons (s : String) (ss : List String) :
    elementLines (s :: ss) =
      ' ' :: ' ' :: ' ' :: ' ' :: (writeQuoted s.toList ++ ',' :: '\n' :: elementLines ss) := by
  simp [elementLines]

/-- Every element takes up some of the text. -/
theorem length_le_elementLines (ss : List String) : ss.length ≤ (elementLines ss).length := by
  induction ss with
  | nil => simp
  | cons s ss ih =>
    rw [elementLines_cons]
    simp only [List.length_cons, List.length_append]
    omega

/-- The blanks in front of an element are passed over. -/
theorem skipGap?_elementLines (s : String) (ss : List String) (behind : List Char) :
    skipGap? false ('\n' :: (elementLines (s :: ss) ++ behind)) =
      some (writeQuoted s.toList ++ ',' :: '\n' :: (elementLines ss ++ behind)) := by
  rw [elementLines_cons, List.cons_append, List.cons_append, List.cons_append, List.cons_append,
    List.append_assoc]
  -- the line break and the four blanks go by evaluation
  exact skipGap?_writeQuoted s (',' :: '\n' :: (elementLines ss ++ behind))

/-- **Elements on lines of their own** are read up to the closing bracket. -/
theorem readElements_elementLines (fuel : Nat) (s : String) (ss : List String) :
    readElements (fuel + ss.length + 2) depth
        (writeQuoted s.toList ++ ',' :: '\n' :: (elementLines ss ++ ']' :: rest)) =
      some ((s :: ss).map .string, rest) := by
  have hcomma (behind : List Char) : NoMarkInFront (',' :: behind) :=
    noMarkInFront_cons (by decide) (by decide)
  induction ss generalizing s with
  | nil =>
    have hgap : skipGap? false ('\n' :: (elementLines [] ++ ']' :: rest)) = some (']' :: rest) := rfl
    rw [readElements_comma (readValue_writeQuoted s _ (hcomma _)) hgap]
    rfl
  | cons t ss ih =>
    rw [readElements_comma (readValue_writeQuoted s _ (hcomma _)) (skipGap?_elementLines t ss _),
      if_neg (head?_writeQuoted_append t _)]
    exact congrArg _ (ih t)

theorem writeArray_of_two (s t : String) (ss : List String) :
    writeArray ((s :: t :: ss).map fun s => writeQuoted s.toList) =
      '[' :: '\n' :: (elementLines (s :: t :: ss) ++ [']']) := by
  simp [writeArray, elementLines, List.flatMap_map]

theorem isTextOf_array (ss : List String) :
    IsTextOf (writeArray (ss.map fun s => writeQuoted s.toList)) (.array (ss.map .string)) := by
  intro fuel rest hfuel
  match ss with
  | [] =>
    obtain ⟨fuel, rfl⟩ := Nat.exists_eq_succ_of_ne_zero (Nat.ne_zero_of_lt hfuel)
    rfl
  | [s] =>
    obtain ⟨fuel, rfl⟩ : ∃ k, fuel = k + 3 := ⟨fuel - 3, by simp [writeArray] at hfuel; omega⟩
    have hbracket : NoMarkInFront (']' :: '\n' :: rest) :=
      noMarkInFront_cons (by decide) (by decide)
    have hvalues : readElements (fuel + 2) 79 (writeQuoted s.toList ++ ']' :: '\n' :: rest) =
        some ([.string s], '\n' :: rest) :=
      readElements_last (readValue_writeQuoted s _ hbracket)
    have htext : writeArray [writeQuoted s.toList] ++ '\n' :: rest =
        '[' :: (writeQuoted s.toList ++ ']' :: '\n' :: rest) := by
      simp [writeArray]
    rw [List.map_singleton, htext]
    exact readValue_array (skipGap?_writeQuoted s _) (head?_writeQuoted_append s _) hvalues
  | s :: t :: ss =>
    rw [writeArray_of_two] at hfuel ⊢
    have hlength := length_le_elementLines (s :: t :: ss)
    obtain ⟨fuel, rfl⟩ : ∃ k, fuel = k + (t :: ss).length + 3 := by
      refine ⟨fuel - ((t :: ss).length + 3), ?_⟩
      simp only [List.length_cons, List.length_append, List.length_nil] at hfuel hlength ⊢
      omega
    rw [List.cons_append, List.cons_append, List.append_assoc, List.singleton_append]
    exact readValue_array (skipGap?_elementLines s (t :: ss) _) (head?_writeQuoted_append s _)
      (readElements_elementLines fuel s (t :: ss))

end Values

/-! ### Plain sections -/

/-- **Plain entry**: a bare name, and a value with a text from which it is read. -/
structure PlainEntry where
  name : String
  text : List Char
  value : Value
  isBare : IsBare name
  isTextOf : IsTextOf text value

/-- The entry that gives a name to a value with a text. -/
def IsTextOf.entry {text : List Char} {value : Value} (h : IsTextOf text value) (name : String)
    (hname : IsBare name) : PlainEntry :=
  ⟨name, text, value, hname, h⟩

/-- **Plain section**: a bare heading, with plain entries below it. -/
structure PlainSection where
  heading : String
  entries : List PlainEntry
  isBare : IsBare heading

namespace PlainEntry

/-- An entry with its key. -/
def entry (e : PlainEntry) : Key × Value := (⟨[], e.name⟩, e.value)

/-- The line of an entry. -/
def line (e : PlainEntry) : List Char := e.name.toList ++ " = ".toList ++ e.text ++ ['\n']

theorem readLineOf?_line (e : PlainEntry) (rest : List Char) :
    readLineOf? (e.line ++ rest) = some (.entry ⟨[], e.name⟩ e.value, rest) := by
  have hvalue := e.isTextOf (2 * (' ' :: (e.text ++ '\n' :: rest)).length + 1) rest (by simp; omega)
  simpa [line] using readLineOf?_entry e.isBare hvalue

end PlainEntry

namespace PlainSection

/-- The section as it is written. -/
def text (s : PlainSection) : List Char :=
  writeSection s.heading (s.entries.map fun e => (e.name, e.text))

theorem text_eq (s : PlainSection) :
    s.text = '[' :: (s.heading.toList ++ ']' :: '\n' :: s.entries.flatMap PlainEntry.line) := by
  have hlines : (s.entries.map fun e => (e.name, e.text)).flatMap
      (fun entry => entry.1.toList ++ " = ".toList ++ entry.2 ++ ['\n']) =
        s.entries.flatMap PlainEntry.line := List.flatMap_map ..
  rw [text, writeSection, hlines]
  simp

/-- The section as it is read. -/
def toSection (s : PlainSection) : Table.Section :=
  ⟨⟨[], s.heading⟩, false, s.entries.map PlainEntry.entry⟩

end PlainSection

/-! ### Lines -/

section Lines

variable {text rest : List Char} {line : Line} {lines : List Line}

/-- **Lines of a text**: they are read from it, given fuel for every character. -/
def AreLinesOf (lines : List Line) (cs : List Char) : Prop :=
  ∀ fuel, cs.length ≤ fuel → readLines fuel cs = some lines

theorem areLinesOf_nil : AreLinesOf [] [] := by
  intro fuel hfuel
  simp [readLines]

/-- A line takes up some of the text. -/
theorem AreLinesOf.cons (h : AreLinesOf lines rest) (htext : text ≠ [])
    (hline : readLineOf? (text ++ rest) = some (line, rest)) :
    AreLinesOf (line :: lines) (text ++ rest) := by
  intro fuel hfuel
  obtain ⟨c, cs, rfl⟩ := List.exists_cons_of_ne_nil htext
  obtain ⟨fuel, rfl⟩ : ∃ k, fuel = k + 1 := ⟨fuel - 1, by simp at hfuel; omega⟩
  have hlines := h fuel (by simp at hfuel; omega)
  rw [List.cons_append] at hline ⊢
  simp only [readLines, hline, hlines, Option.map_some]

/-- Entries in front, each on its line. -/
theorem AreLinesOf.entries (h : AreLinesOf lines rest) (entries : List PlainEntry) :
    AreLinesOf (entries.map (fun e => .entry ⟨[], e.name⟩ e.value) ++ lines)
      (entries.flatMap PlainEntry.line ++ rest) := by
  induction entries with
  | nil => exact h
  | cons e entries ih =>
    rw [List.flatMap_cons, List.append_assoc]
    exact ih.cons (by simp [PlainEntry.line]) (e.readLineOf?_line _)

end Lines

/-! ### Documents -/

section Sections

variable {rest : List Char} {sections : List Table.Section}

/-- **Sections of a text**: its lines make them up, with no entries in front of the first. -/
def AreSectionsOf (sections : List Table.Section) (cs : List Char) : Prop :=
  ∃ lines, AreLinesOf lines cs ∧ sectionsOf lines = ([], sections)

theorem sectionsOf_entries (entries : List PlainEntry) (lines : List Line) :
    sectionsOf (entries.map (fun e => .entry ⟨[], e.name⟩ e.value) ++ lines) =
      (entries.map PlainEntry.entry ++ (sectionsOf lines).1, (sectionsOf lines).2) := by
  induction entries with
  | nil => rfl
  | cons e entries ih =>
    rw [List.map_cons, List.cons_append, sectionsOf, ih]
    rfl

theorem AreSectionsOf.newline (h : AreSectionsOf sections rest) :
    AreSectionsOf sections ('\n' :: rest) := by
  obtain ⟨lines, hlines, hsections⟩ := h
  exact ⟨.empty :: lines, hlines.cons (List.cons_ne_nil '\n' []) readLineOf?_empty, hsections⟩

/-- Any number of empty lines. -/
theorem areSectionsOf_breaks (breaks : Nat) : AreSectionsOf [] (List.replicate breaks '\n') := by
  induction breaks with
  | zero => exact ⟨[], areLinesOf_nil, rfl⟩
  | succ breaks ih => exact ih.newline

/-- A section in front. -/
theorem AreSectionsOf.cons (h : AreSectionsOf sections rest) (s : PlainSection) :
    AreSectionsOf (s.toSection :: sections) (s.text ++ rest) := by
  obtain ⟨lines, hlines, hsections⟩ := h
  have htext : s.text ++ rest = ('[' :: (s.heading.toList ++ [']', '\n'])) ++
      (s.entries.flatMap PlainEntry.line ++ rest) := by
    simp [s.text_eq]
  refine ⟨.heading ⟨[], s.heading⟩ false ::
    (s.entries.map (fun e => .entry ⟨[], e.name⟩ e.value) ++ lines), ?_, ?_⟩
  · rw [htext]
    refine (hlines.entries s.entries).cons (List.cons_ne_nil _ _) ?_
    rw [List.cons_append, List.append_assoc]
    exact readLineOf?_heading s.isBare
  · rw [sectionsOf, sectionsOf_entries, hsections, List.append_nil]
    rfl

/-- A document, with empty lines behind it. -/
theorem areSectionsOf_writeDocument (sections : List PlainSection) (breaks : Nat) :
    AreSectionsOf (sections.map PlainSection.toSection)
      (writeDocument (sections.map PlainSection.text) ++ List.replicate breaks '\n') := by
  induction sections with
  | nil => exact areSectionsOf_breaks breaks
  | cons s sections ih =>
    cases sections with
    | nil => simpa [writeDocument] using (areSectionsOf_breaks breaks).cons s
    | cons t sections =>
      simpa [writeDocument, List.intercalate_cons_cons] using ih.newline.cons s

end Sections

/-- **A document of plain sections is read section by section.** -/
theorem ofText?_writeDocument (sections : List PlainSection) (breaks : Nat) :
    ofText? (String.ofList
        (writeDocument (sections.map PlainSection.text) ++ List.replicate breaks '\n')) =
      Table.ofSections [] (sections.map PlainSection.toSection) := by
  obtain ⟨lines, hlines, hsections⟩ := areSectionsOf_writeDocument sections breaks
  have hmark : (writeDocument (sections.map PlainSection.text) ++
      List.replicate breaks '\n').head? ≠ some '\ufeff' := by
    match sections, breaks with
    | [], 0 => simp [writeDocument]
    | [], breaks + 1 => simp [writeDocument, List.replicate_succ]
    | [s], _ => simp [writeDocument, s.text_eq]
    | s :: _ :: _, _ => simp [writeDocument, s.text_eq, List.intercalate_cons_cons]
  rw [ofText?_of_readLines (by rwa [String.toList_ofList])
    (by rw [String.toList_ofList]; exact hlines _ (Nat.le_refl _)), hsections]

end TestAssembly.Toml
