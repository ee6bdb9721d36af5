import Mathlib.Tactic.SplitIfs
import TestAssembly.Toml.Quoted

/-!
# Strings are read as they were written

A string of any characters, written in the form that is chosen for it, is read back, with whatever
follows it left over (`readQuoted?_writeQuoted`). Nothing is asked of the string. What follows must
not begin with a quotation mark, which could be taken for one more closing mark.

Between double marks, characters stand for themselves or are escaped, and an escape is read as the
character it stands for (`readBasic_escape`). The point that needs care is where a string between
three marks ends, since marks of the string may stand right in front of the closing ones. In the text
of such a string at most two marks follow each other. Marks in front of something else are too few
to close it; if they are all that is left of it, the closing ones come next, and the marks in front
of these are the end of the string (`closing?_of_leads`).
-/

namespace TestAssembly.Toml

open Text

/-- **No mark in front**: a text does not begin with a quotation mark. -/
structure NoMarkInFront (rest : List Char) : Prop where
  double : rest.head? ≠ some '"'
  single : rest.head? ≠ some '\''

theorem consRead_some (c : Char) (cs rest : List Char) :
    consRead c (some (cs, rest)) = some (c :: cs, rest) := rfl

/-! ### Escapes -/

section Escapes

variable {multiline : Bool} {c : Char} {rest : List Char}

/-- Characters that never stand for themselves in a string that is written with escapes. -/
def IsEscapable (c : Char) : Prop := isControl c = true ∨ c = '\\' ∨ c = '\t'

instance (c : Char) : Decidable (IsEscapable c) := inferInstanceAs (Decidable (_ ∨ _))

theorem toNat_lt_of_isControl (h : isControl c = true) : c.toNat < 128 := by
  simp only [isControl, Bool.or_eq_true, Bool.and_eq_true, decide_eq_true_eq] at h
  omega

/-- A letter behind a backslash is read as the character that it stands for. -/
theorem readBasic_letter {letter : Char} (h : escapeLetter? c = some letter) :
    readBasic multiline .outside ('\\' :: letter :: rest) =
      consRead c (readBasic multiline .outside rest) := by
  unfold escapeLetter? at h
  split_ifs at h with hc hc hc hc hc hc hc <;> cases h <;> subst hc <;> rfl

theorem exists_hexValue? {d : Char} (h : isDigitOf 16 d = true) :
    ∃ digit, hexValue? d = some digit := by
  rw [isDigitOf, digitValue?, Option.isSome_iff_exists] at h
  obtain ⟨digit, hdigit⟩ := h
  exact ⟨digit, (Option.filter_eq_some_iff.mp hdigit).1⟩

/-- A run of digits in an escape is read as the character with its value. -/
theorem readBasic_digits {digits : List Char} (hne : digits ≠ [])
    (hdigits : ∀ d ∈ digits, isDigitOf 16 d = true) (value : Nat) :
    readBasic multiline (.digits digits.length value) (digits ++ rest) =
      (charOf? (digits.foldl (fun n d => 16 * n + (hexValue? d).getD 0) value)).bind
        fun char => consRead char (readBasic multiline .outside rest) := by
  induction digits generalizing value with
  | nil => exact absurd rfl hne
  | cons d ds ih =>
    obtain ⟨digit, hdigit⟩ := exists_hexValue? (hdigits d List.mem_cons_self)
    by_cases hds : ds = []
    · subst hds
      simp only [List.length_singleton, List.cons_append, List.nil_append,
        readBasic_digits_cons hdigit, Nat.lt_irrefl, if_false, hdigit, List.foldl_cons,
        List.foldl_nil, Option.getD_some]
    · have hlength : 1 < ds.length + 1 := Nat.succ_lt_succ (List.length_pos_iff.mpr hds)
      have hread := ih hds (fun e he => hdigits e (List.mem_cons_of_mem d he)) (16 * value + digit)
      simpa [readBasic_digits_cons hdigit, hdigit, hlength, hds] using hread

/-- **An escape is read as the character that it stands for.** -/
theorem readBasic_escape (h : c = '"' ∨ IsEscapable c) :
    readBasic multiline .outside (escape c ++ rest) =
      consRead c (readBasic multiline .outside rest) := by
  rw [escape]
  split
  · rename_i letter hletter
    exact readBasic_letter hletter
  · rename_i hletter
    have hcontrol : isControl c = true := by
      rcases h with rfl | h | rfl | rfl
      · simp [escapeLetter?] at hletter
      · exact h
      · simp [escapeLetter?] at hletter
      · simp [escapeLetter?] at hletter
    have hlt := toNat_lt_of_isControl hcontrol
    have hchar : charOf? c.toNat = some c := by
      rw [charOf?, if_pos (.inl (by omega)), Char.ofNat_toNat]
    obtain ⟨hlength, hdigits, hvalue⟩ := paddedHex_four (n := c.toNat) (by omega)
    generalize paddedHex 4 c.toNat = digits at hlength hdigits hvalue
    have hbegun : readBasic multiline .outside ('\\' :: 'u' :: (digits ++ rest)) =
        readBasic multiline (.digits 4 0) (digits ++ rest) := rfl
    rw [List.cons_append, List.cons_append, hbegun, ← hlength,
      readBasic_digits (List.ne_nil_of_length_pos (by omega)) (List.all_eq_true.mp hdigits),
      ← ofDigits, hvalue, hchar, Option.bind_some]

theorem head?_escape_append (c : Char) (cs : List Char) :
    (escape c ++ cs).head? = some '\\' := by
  rw [escape]
  split <;> rfl

end Escapes

/-! ### Strings with escapes on one line -/

section Line

variable {multiline : Bool} {c : Char} {rest : List Char}

/-- A character that needs no escape stands for itself. -/
theorem readBasic_plain (hquote : c ≠ '"') (hplain : ¬IsEscapable c) :
    readBasic multiline .outside (c :: rest) =
      consRead c (readBasic multiline .outside rest) := by
  simp only [IsEscapable, not_or, Bool.not_eq_true] at hplain
  simp [readBasic_outside_cons, hquote, hplain]

/-- On one line every double mark is escaped, and so is every control character. -/
theorem escapeAll_line_cons (c : Char) (cs : List Char) :
    escapeAll false 0 0 (c :: cs) =
      (if c = '"' ∨ IsEscapable c then escape c else [c]) ++ escapeAll false 0 0 cs := by
  by_cases hquote : c = '"'
  · simp [escapeAll_cons, hquote]
  · by_cases hescape : IsEscapable c
    · have hplain : isControl c = true ∨ c = '\\' ∨ c = '\t' := hescape
      simp [escapeAll_cons, hquote, hplain, hescape]
    · have hplain : ¬(isControl c = true ∨ c = '\\' ∨ c = '\t') := hescape
      simp [escapeAll_cons, hquote, hplain, hescape]

/-- **A string on one line between double marks** is read back. -/
theorem readBasic_escapeAll_line (cs rest : List Char) :
    readBasic false .outside (escapeAll false 0 0 cs ++ '"' :: rest) = some (cs, rest) := by
  induction cs with
  | nil => rfl
  | cons c cs ih =>
    rw [escapeAll_line_cons, List.append_assoc]
    split
    · rename_i h
      rw [readBasic_escape h, ih, consRead_some]
    · rename_i h
      rw [not_or] at h
      rw [List.singleton_append, readBasic_plain h.1 h.2, ih, consRead_some]

/-- Such a text does not begin with a double mark. -/
theorem head?_escapeAll_line (cs : List Char) : (escapeAll false 0 0 cs).head? ≠ some '"' := by
  cases cs with
  | nil => decide
  | cons c cs =>
    rw [escapeAll_line_cons]
    split
    · rw [head?_escape_append]
      decide
    · rename_i h
      simpa using fun hc => h (.inl hc)

end Line

/-! ### Closing marks -/

section Closing

variable {mark : Char} {behind rest : List Char} {marks : Nat}

/-- The marks in front, among the first five characters. -/
theorem takeWhile_marks (hmarks : marks ≤ 5) (hbehind : behind.head? ≠ some mark) :
    ((List.replicate marks mark ++ behind).take 5).takeWhile (· = mark) =
      List.replicate marks mark := by
  have hnone : (behind.take (5 - marks)).takeWhile (· = mark) = [] := by
    cases behind with
    | nil => simp
    | cons c rest =>
      have hc : c ≠ mark := fun h => hbehind (congrArg some h)
      cases 5 - marks <;> simp [hc]
  rw [List.take_append, List.take_of_length_le (by simpa using hmarks), List.length_replicate,
    List.takeWhile_append_of_pos (by simp), hnone, List.append_nil]

/-- Fewer than three marks close nothing. -/
theorem closing?_of_few (hmarks : marks ≤ 2) (hbehind : behind.head? ≠ some mark) :
    closing? mark (List.replicate marks mark ++ behind) = none := by
  rw [closing?, takeWhile_marks (by omega) hbehind]
  simp
  omega

/-- Up to two marks in front of the closing ones belong to the string. -/
theorem closing?_of_fence (hmarks : marks ≤ 2) (hrest : rest.head? ≠ some mark) :
    closing? mark (List.replicate marks mark ++ [mark, mark, mark] ++ rest) =
      some (List.replicate marks mark, rest) := by
  have hfence : List.replicate marks mark ++ [mark, mark, mark] = List.replicate (marks + 3) mark :=
    List.replicate_append_replicate (n := marks) (m := 3)
  rw [hfence, closing?, takeWhile_marks (by omega) hrest]
  simp

/-- **Runs into its end**: at most so many marks are in front of a text, and if it has nothing else,
it is the string that it stands for. -/
def RunsInto (mark : Char) (most : Nat) (text cs : List Char) : Prop :=
  ∃ marks behind, marks ≤ most ∧ text = List.replicate marks mark ++ behind ∧
    behind.head? ≠ some mark ∧ (behind = [] → text = cs)

namespace RunsInto

variable {most : Nat} {text cs : List Char} {c : Char}

theorem nil : RunsInto mark most [] [] := ⟨0, [], Nat.zero_le most, by simp⟩

theorem of_head (hhead : text.head? = some c) (hc : c ≠ mark) : RunsInto mark most text cs := by
  refine ⟨0, text, Nat.zero_le most, by simp, ?_, ?_⟩
  · rw [hhead]
    exact fun h => hc (Option.some_inj.mp h)
  · rintro rfl
    simp at hhead

theorem cons (h : RunsInto mark most text cs) :
    RunsInto mark (most + 1) (mark :: text) (mark :: cs) := by
  obtain ⟨marks, behind, hmarks, hsplit, hhead, hwhole⟩ := h
  refine ⟨marks + 1, behind, Nat.succ_le_succ hmarks, ?_, hhead, fun h => ?_⟩
  · rw [hsplit, List.replicate_succ, List.cons_append]
  · rw [hwhole h]

/-- In front of the closing marks, nothing is closed yet, or the rest of the string is. -/
theorem closing? (h : RunsInto mark most text cs) (hmost : most ≤ 2)
    (hrest : rest.head? ≠ some mark) :
    Toml.closing? mark (text ++ [mark, mark, mark] ++ rest) = none ∨
      Toml.closing? mark (text ++ [mark, mark, mark] ++ rest) = some (cs, rest) := by
  obtain ⟨marks, behind, hmarks, hsplit, hhead, hwhole⟩ := h
  cases behind with
  | nil =>
    right
    rw [← hwhole rfl, hsplit, List.append_nil]
    exact closing?_of_fence (Nat.le_trans hmarks hmost) hrest
  | cons c behind =>
    left
    rw [hsplit, List.append_assoc, List.append_assoc]
    exact closing?_of_few (Nat.le_trans hmarks hmost) hhead

end RunsInto

end Closing

/-! ### Strings with escapes between three marks -/

section MultilineBasic

variable {run : Nat} {c : Char} {rest : List Char}

theorem readBasic_newline :
    readBasic true .outside ('\n' :: rest) = consRead '\n' (readBasic true .outside rest) := by
  simp [readBasic_outside_cons, isControl, atLineBreak]

theorem readBasic_mark (h : closing? '"' ('"' :: rest) = none) :
    readBasic true .outside ('"' :: rest) = consRead '"' (readBasic true .outside rest) := by
  simp [readBasic_outside_cons, h]

theorem readBasic_closing {found : List Char × List Char}
    (h : closing? '"' ('"' :: rest) = some found) :
    readBasic true .outside ('"' :: rest) = some found := by
  simp [readBasic_outside_cons, h]

/-- Behind two double marks the next one is escaped. -/
theorem escapeAll_mark (cs : List Char) :
    escapeAll true 2 run ('"' :: cs) =
      if 2 ≤ run then escape '"' ++ escapeAll true 2 0 cs
      else '"' :: escapeAll true 2 (run + 1) cs := by
  rw [escapeAll_cons, if_pos rfl]

/-- Between three marks, line breaks stand for themselves. -/
theorem escapeAll_multiline_cons (hc : c ≠ '"') (cs : List Char) :
    escapeAll true 2 run (c :: cs) =
      (if c ≠ '\n' ∧ IsEscapable c then escape c else [c]) ++ escapeAll true 2 0 cs := by
  by_cases hnewline : c = '\n'
  · simp [escapeAll_cons, hnewline]
  · by_cases hescape : IsEscapable c
    · have hplain : isControl c = true ∨ c = '\\' ∨ c = '\t' := hescape
      simp [escapeAll_cons, hc, hnewline, hplain, hescape]
    · have hplain : ¬(isControl c = true ∨ c = '\\' ∨ c = '\t') := hescape
      simp [escapeAll_cons, hc, hnewline, hplain, hescape]

/-- The first character of such a text, when it is not a double mark of the string. -/
theorem head?_escapeAll_multiline (hc : c ≠ '"') (cs : List Char) :
    (escapeAll true 2 run (c :: cs)).head? =
      some (if c ≠ '\n' ∧ IsEscapable c then '\\' else c) := by
  rw [escapeAll_multiline_cons hc]
  split
  · exact head?_escape_append c _
  · rfl

theorem runsInto_escapeAll (cs : List Char) (hrun : run ≤ 2) :
    RunsInto '"' (2 - run) (escapeAll true 2 run cs) cs := by
  induction cs generalizing run with
  | nil => exact .nil
  | cons c cs ih =>
    by_cases hc : c = '"'
    · subst hc
      rw [escapeAll_mark]
      split
      · exact .of_head (head?_escape_append '"' _) (by decide)
      · have hmost : 2 - run = 2 - (run + 1) + 1 := by omega
        rw [hmost]
        exact (ih (by omega)).cons
    · refine .of_head (head?_escapeAll_multiline hc cs) ?_
      split
      · decide
      · exact hc

/-- **A string between three double marks** is read back. -/
theorem readBasic_escapeAll (cs : List Char) (hrun : run ≤ 2) (hrest : rest.head? ≠ some '"') :
    readBasic true .outside (escapeAll true 2 run cs ++ ['"', '"', '"'] ++ rest) =
      some (cs, rest) := by
  induction cs generalizing run with
  | nil => exact readBasic_closing (closing?_of_fence (Nat.zero_le 2) hrest)
  | cons c cs ih =>
    by_cases hc : c = '"'
    · subst hc
      have hruns := runsInto_escapeAll ('"' :: cs) hrun
      rw [escapeAll_mark] at hruns ⊢
      split at hruns
      · rw [if_pos ‹_›, List.append_assoc, List.append_assoc, readBasic_escape (.inl rfl),
          ← List.append_assoc, ih (Nat.zero_le 2), consRead_some]
      · rw [if_neg ‹_›]
        rcases hruns.closing? (Nat.sub_le 2 run) hrest with hnone | hsome
        · rw [List.cons_append, List.cons_append] at hnone ⊢
          rw [readBasic_mark hnone, ih (by omega), consRead_some]
        · exact readBasic_closing hsome
    · rw [escapeAll_multiline_cons hc, List.append_assoc, List.append_assoc]
      have hcs := ih (Nat.zero_le 2)
      rw [List.append_assoc] at hcs
      split
      · rename_i h
        rw [readBasic_escape (.inr h.2), hcs, consRead_some]
      · rename_i h
        rw [List.singleton_append]
        by_cases hnewline : c = '\n'
        · rw [hnewline, readBasic_newline, hcs, consRead_some]
        · rw [readBasic_plain hc fun hescape => h ⟨hnewline, hescape⟩, hcs, consRead_some]

end MultilineBasic

/-! ### Strings without escapes -/

section Literal

variable {run : Nat} {c : Char} {cs rest : List Char}

/-- No more marks follow each other than may. -/
theorem hasRun_cons_eq_false_iff {mark : Char} {most : Nat} :
    hasRun mark most run (c :: cs) = false ↔
      if c = mark then run < most ∧ hasRun mark most (run + 1) cs = false
      else hasRun mark most 0 cs = false := by
  rw [hasRun_cons]
  split <;> simp

theorem readLiteral_plain {multiline : Bool} (hquote : c ≠ '\'')
    (hplain : isControl c = false ∨ multiline = true ∧ c = '\n') :
    readLiteral multiline (c :: rest) = consRead c (readLiteral multiline rest) := by
  rcases hplain with h | ⟨rfl, rfl⟩
  · simp [readLiteral_cons, hquote, h]
  · simp [readLiteral_cons, isControl, atLineBreak]

theorem readLiteral_mark (h : closing? '\'' ('\'' :: rest) = none) :
    readLiteral true ('\'' :: rest) = consRead '\'' (readLiteral true rest) := by
  simp [readLiteral_cons, h]

theorem readLiteral_closing {found : List Char × List Char}
    (h : closing? '\'' ('\'' :: rest) = some found) :
    readLiteral true ('\'' :: rest) = some found := by
  simp [readLiteral_cons, h]

/-- **A string between single marks** is read back when it has no such mark and no control
character. -/
theorem readLiteral_line (hmark : hasRun '\'' 0 run cs = false)
    (hplain : ∀ c ∈ cs, isControl c = false) :
    readLiteral false (cs ++ '\'' :: rest) = some (cs, rest) := by
  induction cs generalizing run with
  | nil => rfl
  | cons c cs ih =>
    rw [List.forall_mem_cons] at hplain
    rw [hasRun_cons_eq_false_iff] at hmark
    split at hmark
    · exact absurd hmark.1 (Nat.not_lt_zero run)
    · rw [List.cons_append, readLiteral_plain ‹_› (.inl hplain.1), ih hmark hplain.2, consRead_some]

theorem runsInto_of_hasRun (hmark : hasRun '\'' 2 run cs = false) (hrun : run ≤ 2) :
    RunsInto '\'' (2 - run) cs cs := by
  induction cs generalizing run with
  | nil => exact .nil
  | cons c cs ih =>
    rw [hasRun_cons_eq_false_iff] at hmark
    split at hmark
    · rename_i hc
      have hmost : 2 - run = 2 - (run + 1) + 1 := by omega
      rw [hmost, hc]
      exact (ih hmark.2 hmark.1).cons
    · exact .of_head List.head?_cons ‹_›

/-- **A string between three single marks** is read back when at most two of them follow each other
in it, and it has no control character other than line breaks. -/
theorem readLiteral_multiline (hmark : hasRun '\'' 2 run cs = false) (hrun : run ≤ 2)
    (hplain : ∀ c ∈ cs, isControl c = false ∨ c = '\n') (hrest : rest.head? ≠ some '\'') :
    readLiteral true (cs ++ ['\'', '\'', '\''] ++ rest) = some (cs, rest) := by
  induction cs generalizing run with
  | nil => exact readLiteral_closing (closing?_of_fence (Nat.zero_le 2) hrest)
  | cons c cs ih =>
    have hruns := runsInto_of_hasRun hmark hrun
    rw [List.forall_mem_cons] at hplain
    rw [hasRun_cons_eq_false_iff] at hmark
    split at hmark
    · rename_i hc
      subst hc
      rcases hruns.closing? (Nat.sub_le 2 run) hrest with hnone | hsome
      · rw [List.cons_append, List.cons_append] at hnone ⊢
        rw [readLiteral_mark hnone, ih hmark.2 hmark.1 hplain.2, consRead_some]
      · exact readLiteral_closing hsome
    · have hc := hplain.1.imp_right fun h : c = '\n' => And.intro (Eq.refl true) h
      rw [List.cons_append, List.cons_append, readLiteral_plain ‹_› hc,
        ih hmark (Nat.zero_le 2) hplain.2, consRead_some]

end Literal

/-! ### All forms -/

section Forms

variable {cs rest : List Char}

/-- A string that is written between single marks has none, and no control characters. -/
theorem of_choose_eq_literal (h : QuoteForm.choose cs = .literal) :
    hasRun '\'' 0 0 cs = false ∧ ∀ c ∈ cs, isControl c = false := by
  rw [QuoteForm.choose] at h
  split_ifs at h with hbasic hliteral
  simp only [Bool.and_eq_true, Bool.not_eq_true', List.any_eq_false, bne_iff_ne,
    decide_eq_true_eq] at hliteral
  obtain ⟨⟨hcontrol, hmark⟩, hnewline⟩ := hliteral
  refine ⟨hmark, fun c hc => Bool.eq_false_iff.mpr fun h => ?_⟩
  exact hcontrol c hc ⟨h, hnewline c hc⟩

/-- A string that is written between three single marks has at most two of them in a row, and no
control characters other than line breaks. -/
theorem of_choose_eq_multilineLiteral (h : QuoteForm.choose cs = .multilineLiteral) :
    hasRun '\'' 2 0 cs = false ∧ ∀ c ∈ cs, isControl c = false ∨ c = '\n' := by
  rw [QuoteForm.choose] at h
  split_ifs at h with hbasic hliteral hmultiline hform
  simp only [Bool.and_eq_true, Bool.not_eq_true', List.any_eq_false, bne_iff_ne] at hform
  obtain ⟨hcontrol, hmark⟩ := hform
  refine ⟨hmark, fun c hc => ?_⟩
  by_cases hnewline : c = '\n'
  · exact .inr hnewline
  · exact .inl (Bool.eq_false_iff.mpr fun h => hcontrol c hc ⟨h, hnewline⟩)

/-- Two marks of which the second closes the string do not open a string of the other kind. -/
theorem readQuoted?_eq_readLine? {mark : Char} (hcs : cs.head? ≠ some mark)
    (hrest : rest.head? ≠ some mark) :
    readQuoted? (mark :: (cs ++ mark :: rest)) = readLine? (mark :: (cs ++ mark :: rest)) := by
  have hthree (tail : List Char) : cs ++ mark :: rest ≠ mark :: mark :: tail := by
    cases cs with
    | nil =>
      rintro ⟨⟩
      exact hrest rfl
    | cons c cs =>
      intro h
      exact hcs (congrArg some (List.cons.inj h).1)
  rw [readQuoted?]
  · intro tail h
    obtain ⟨rfl, htail⟩ := List.cons.inj h
    exact hthree tail htail
  · intro tail h
    obtain ⟨rfl, htail⟩ := List.cons.inj h
    exact hthree tail htail

/-- **Opened safely**: what a text begins with is not taken for the line break behind the opening
marks, unless there is one. -/
def OpensSafely (broken : Bool) (text : List Char) : Prop :=
  ∀ c, text.head? = some c → c ≠ '\r' ∧ (c = '\n' → broken = true)

theorem skipLineBreak_opening {broken : Bool} {text : List Char} (h : OpensSafely broken text) :
    skipLineBreak ((if broken then ['\n'] else []) ++ text) = text := by
  cases broken with
  | true => rfl
  | false =>
    cases text with
    | nil => rfl
    | cons c text =>
      obtain ⟨hreturn, hnewline⟩ := h c rfl
      have hn : c ≠ '\n' := fun hc => Bool.noConfusion (hnewline hc)
      simp [skipLineBreak, hreturn, hn]

theorem opensSafely_escapeAll (cs tail : List Char) :
    OpensSafely (cs.any (· = '\n')) (escapeAll true 2 0 cs ++ '"' :: tail) := by
  intro d hd
  cases cs with
  | nil =>
    cases hd
    decide
  | cons c cs =>
    by_cases hc : c = '"'
    · rw [hc, escapeAll_mark] at hd
      cases hd
      exact ⟨by decide, fun h => absurd h (by decide)⟩
    · rw [List.head?_append, head?_escapeAll_multiline hc, Option.some_or, Option.some.injEq] at hd
      subst hd
      split
      · exact ⟨by decide, fun h => absurd h (by decide)⟩
      · rename_i hplain
        refine ⟨?_, fun h => by simp [h]⟩
        rintro rfl
        exact hplain ⟨by decide, by decide⟩

theorem opensSafely_literal (hplain : ∀ c ∈ cs, isControl c = false ∨ c = '\n')
    (tail : List Char) : OpensSafely (cs.any (· = '\n')) (cs ++ '\'' :: tail) := by
  intro d hd
  cases cs with
  | nil =>
    cases hd
    decide
  | cons c cs =>
    cases hd
    refine ⟨?_, fun h => by simp [h]⟩
    rintro rfl
    exact absurd (hplain _ List.mem_cons_self) (by decide)

end Forms

/-- **Strings are read as they were written**, whatever characters they have. -/
theorem readQuoted?_writeQuoted (cs : List Char) {rest : List Char} (hrest : NoMarkInFront rest) :
    readQuoted? (writeQuoted cs ++ rest) = some (cs, rest) := by
  rw [writeQuoted]
  cases hform : QuoteForm.choose cs with
  | basic =>
    simp only [List.cons_append, List.append_assoc, List.nil_append]
    rw [readQuoted?_eq_readLine? (head?_escapeAll_line cs) hrest.double, readLine?,
      readBasic_escapeAll_line]
  | literal =>
    obtain ⟨hmark, hplain⟩ := of_choose_eq_literal hform
    have hhead : cs.head? ≠ some '\'' := by
      cases cs with
      | nil => simp
      | cons c cs =>
        rintro ⟨⟩
        simp [hasRun_cons] at hmark
    simp only [List.cons_append, List.append_assoc, List.nil_append]
    rw [readQuoted?_eq_readLine? hhead hrest.single, readLine?, readLiteral_line hmark hplain]
  | multilineBasic =>
    have hskip := skipLineBreak_opening (opensSafely_escapeAll cs ('"' :: '"' :: rest))
    have hread := readBasic_escapeAll cs (Nat.zero_le 2) hrest.double
    simp only [List.append_assoc, List.cons_append, List.nil_append] at hskip hread ⊢
    rw [readQuoted?, hskip, hread]
  | multilineLiteral =>
    obtain ⟨hmark, hplain⟩ := of_choose_eq_multilineLiteral hform
    have hskip := skipLineBreak_opening (opensSafely_literal hplain ('\'' :: '\'' :: rest))
    have hread := readLiteral_multiline hmark (Nat.zero_le 2) hplain hrest.single
    simp only [List.append_assoc, List.cons_append, List.nil_append] at hskip hread ⊢
    rw [readQuoted?, hskip, hread]

end TestAssembly.Toml
