/-!
# Words

The bounds of unsigned and signed words, and powers of two and ten.
-/

namespace TestAssembly

/-- The number of unsigned 32-bit words. -/
abbrev countBound : Nat := 4294967296

/-- The number of unsigned 64-bit words. -/
abbrev wordBound : Nat := 18446744073709551616

/-- The number of signed 64-bit words that are not negative. -/
abbrev signedWordBound : Nat := 9223372036854775808

/-- The number of unsigned 128-bit words. -/
abbrev doubleWordBound : Nat := 340282366920938463463374607431768211456

/-- The number of signed 128-bit words that are not negative. -/
abbrev signedDoubleWordBound : Nat := 170141183460469231731687303715884105728

/-- **Power of two.** -/
def powerOfTwo (n : Nat) : Nat := Nat.pow 2 n

/-- **Power of ten.** -/
def powerOfTen (n : Nat) : Nat := Nat.pow 10 n

theorem powerOfTwo_succ (n : Nat) : powerOfTwo (n + 1) = powerOfTwo n * 2 := rfl

theorem powerOfTen_succ (n : Nat) : powerOfTen (n + 1) = powerOfTen n * 10 := rfl

example : powerOfTwo 32 = countBound ∧ powerOfTwo 64 = wordBound := by decide
example : powerOfTwo 63 = signedWordBound ∧ powerOfTwo 128 = doubleWordBound := by decide
example : powerOfTwo 127 = signedDoubleWordBound := by decide

end TestAssembly
