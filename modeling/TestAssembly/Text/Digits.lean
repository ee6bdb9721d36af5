/-!
# Digits

Numbers as runs of digits, most significant first. `ofDigits` is the value of a run in a base,
`decimal` the shortest run of a number in base ten, and `padded` that run filled up with zeros.
The digits of a number stand for it (`ofDigits_decimal`), and so do the four hexadecimal ones of a
number below 256 (`paddedHex_four`).
-/

namespace TestAssembly.Text

/-- The value of a hexadecimal digit of either case. -/
def hexValue? (c : Char) : Option Nat :=
  if '0' ≤ c ∧ c ≤ '9' then some (c.toNat - 48)
  else if 'a' ≤ c ∧ c ≤ 'f' then some (c.toNat - 87)
  else if 'A' ≤ c ∧ c ≤ 'F' then some (c.toNat - 55)
  else none

/-- The value of a digit in a base, if the base has it. -/
def digitValue? (base : Nat) (c : Char) : Option Nat :=
  (hexValue? c).filter (· < base)

/-- Whether a character is a digit of a base. -/
def isDigitOf (base : Nat) (c : Char) : Bool := (digitValue? base c).isSome

/-- **Value of a run of digits**, characters that are no digits counting as zero. -/
def ofDigits (base : Nat) (cs : List Char) : Nat :=
  cs.foldl (fun n c => base * n + (hexValue? c).getD 0) 0

/-- The decimal digits of a number, without leading zeros. -/
def decimal (n : Nat) : List Char := Nat.toDigits 10 n

/-- The decimal digits of a number, with leading zeros up to a width. -/
def padded (width n : Nat) : List Char :=
  let digits := decimal n
  List.replicate (width - digits.length) '0' ++ digits

/-- The hexadecimal digits of a number, in capitals, with leading zeros up to a width. -/
def paddedHex (width n : Nat) : List Char :=
  let digits := (Nat.toDigits 16 n).map Char.toUpper
  List.replicate (width - digits.length) '0' ++ digits

/-- The decimal digits in front of a text, at most `limit` of them, and what follows. -/
def digitRun : Nat → List Char → List Char × List Char
  | limit + 1, c :: rest =>
    if isDigitOf 10 c then
      let (run, rest) := digitRun limit rest
      (c :: run, rest)
    else ([], c :: rest)
  | _, rest => ([], rest)

/-- A run of at least one and at most `limit` decimal digits in front, and what follows it. -/
def takeDigits? (limit : Nat) (cs : List Char) : Option (List Char × List Char) :=
  match digitRun limit cs with
  | ([], _) => none
  | (run, rest) => some (run, rest)

/-- All decimal digits in front, at least one, and what follows them. -/
def takeAllDigits? (cs : List Char) : Option (List Char × List Char) :=
  match cs.takeWhile (isDigitOf 10) with
  | [] => none
  | run => some (run, cs.dropWhile (isDigitOf 10))

/-- The number that a run of at most `limit` decimal digits in front stands for. -/
def takeNumber? (limit : Nat) (cs : List Char) : Option (Nat × List Char) :=
  (takeDigits? limit cs).map fun (run, rest) => (ofDigits 10 run, rest)

/-- The number that all decimal digits in front stand for. -/
def takeWholeNumber? (cs : List Char) : Option (Nat × List Char) :=
  (takeAllDigits? cs).map fun (run, rest) => (ofDigits 10 run, rest)

/-- A run of digits and what follows it make up the text. -/
theorem digitRun_append (limit : Nat) (cs : List Char) :
    (digitRun limit cs).1 ++ (digitRun limit cs).2 = cs := by
  induction limit generalizing cs with
  | zero => simp [digitRun]
  | succ limit ih =>
    cases cs with
    | nil => simp [digitRun]
    | cons c rest =>
      by_cases h : isDigitOf 10 c = true
      · simp [digitRun, h, ih]
      · simp [digitRun, h]

@[simp] theorem ofDigits_nil (base : Nat) : ofDigits base [] = 0 := rfl

/-- One more digit at the end multiplies the value by the base and adds the digit. -/
theorem ofDigits_concat (base : Nat) (cs : List Char) (c : Char) :
    ofDigits base (cs ++ [c]) = base * ofDigits base cs + (hexValue? c).getD 0 := by
  simp [ofDigits]

/-! ### Decimal digits of a number -/

theorem decimal_of_lt {n : Nat} (h : n < 10) : decimal n = [n.digitChar] :=
  Nat.toDigits_of_lt_base h

theorem decimal_of_le {n : Nat} (h : 10 ≤ n) :
    decimal n = decimal (n / 10) ++ [(n % 10).digitChar] :=
  Nat.toDigits_of_base_le (by decide) h

theorem decimal_ne_nil (n : Nat) : decimal n ≠ [] := Nat.toDigits_ne_nil

/-- What holds of the ten digits holds of all digits of a number. -/
theorem forall_mem_decimal {p : Char → Prop} (h : ∀ d < 10, p (Nat.digitChar d)) (n : Nat) :
    ∀ c ∈ decimal n, p c := by
  induction n using Nat.strongRecOn with
  | ind n ih =>
    intro c hc
    by_cases hn : n < 10
    · rw [decimal_of_lt hn, List.mem_singleton] at hc
      exact hc ▸ h n hn
    · rw [decimal_of_le (Nat.le_of_not_lt hn), List.mem_append, List.mem_singleton] at hc
      rcases hc with hc | rfl
      · exact ih (n / 10) (by omega) c hc
      · exact h (n % 10) (by omega)

theorem isDigitOf_of_mem_decimal {n : Nat} {c : Char} (h : c ∈ decimal n) :
    isDigitOf 10 c = true :=
  forall_mem_decimal (p := fun c => isDigitOf 10 c = true) (by decide) n c h

theorem all_isDigitOf_decimal (n : Nat) : (decimal n).all (isDigitOf 10) = true :=
  List.all_eq_true.mpr fun _ => isDigitOf_of_mem_decimal

theorem hexValue?_digitChar {d : Nat} (h : d < 10) : hexValue? d.digitChar = some d := by
  have hall : ∀ d < 10, hexValue? (Nat.digitChar d) = some d := by decide
  exact hall d h

/-- **The digits of a number stand for it.** -/
theorem ofDigits_decimal (n : Nat) : ofDigits 10 (decimal n) = n := by
  induction n using Nat.strongRecOn with
  | ind n ih =>
    by_cases hn : n < 10
    · simp [decimal_of_lt hn, ofDigits, hexValue?_digitChar hn]
    · rw [decimal_of_le (Nat.le_of_not_lt hn), ofDigits_concat, ih (n / 10) (by omega),
        hexValue?_digitChar (by omega), Option.getD_some]
      omega

/-- No number but zero has a leading zero. -/
theorem head?_decimal_ne_zero {n : Nat} (h : n ≠ 0) : (decimal n).head? ≠ some '0' := by
  induction n using Nat.strongRecOn with
  | ind n ih =>
    by_cases hn : n < 10
    · have hall : ∀ d < 10, d ≠ 0 → [Nat.digitChar d].head? ≠ some '0' := by decide
      exact decimal_of_lt hn ▸ hall n hn h
    · have hhead := ih (n / 10) (by omega) (by omega)
      rw [decimal_of_le (Nat.le_of_not_lt hn), List.head?_append]
      cases hd : decimal (n / 10) with
      | nil => exact absurd hd (decimal_ne_nil _)
      | cons c rest => simpa [hd] using hhead

/-! ### Hexadecimal digits of a number -/

theorem hexDigit_toUpper {d : Nat} (h : d < 16) :
    isDigitOf 16 d.digitChar.toUpper = true ∧ hexValue? d.digitChar.toUpper = some d := by
  have hall : ∀ d < 16, isDigitOf 16 (Nat.digitChar d).toUpper = true ∧
      hexValue? (Nat.digitChar d).toUpper = some d := by decide
  exact hall d h

/-- A number below 256 has two hexadecimal digits. -/
theorem paddedHex_of_lt {n : Nat} (h : n < 256) :
    paddedHex 4 n = ['0', '0', (n / 16).digitChar.toUpper, (n % 16).digitChar.toUpper] := by
  by_cases hn : n < 16
  · rw [paddedHex, Nat.toDigits_of_lt_base hn, Nat.div_eq_of_lt hn, Nat.mod_eq_of_lt hn]
    rfl
  · rw [paddedHex, Nat.toDigits_of_base_le (by decide) (Nat.le_of_not_lt hn),
      Nat.toDigits_of_lt_base (by omega)]
    rfl

/-- Filled up to four digits, they stand for it. -/
theorem paddedHex_four {n : Nat} (h : n < 256) :
    (paddedHex 4 n).length = 4 ∧ (paddedHex 4 n).all (isDigitOf 16) = true ∧
      ofDigits 16 (paddedHex 4 n) = n := by
  have hzero : isDigitOf 16 '0' = true ∧ hexValue? '0' = some 0 := ⟨rfl, rfl⟩
  have hhigh := hexDigit_toUpper (d := n / 16) (by omega)
  have hlow := hexDigit_toUpper (d := n % 16) (by omega)
  rw [paddedHex_of_lt h]
  refine ⟨rfl, ?_, ?_⟩
  · simp [hzero.1, hhigh.1, hlow.1]
  · simp only [ofDigits, List.foldl_cons, List.foldl_nil, hzero.2, hhigh.2, hlow.2,
      Option.getD_some]
    omega

end TestAssembly.Text
