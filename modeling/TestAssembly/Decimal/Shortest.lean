import TestAssembly.Text.Digits
import TestAssembly.Word

/-!
# Shortest decimals

A binary floating-point number stands for every real that rounds to it. Of the decimals among
these, the one with the fewest digits is written, and of several such the nearest to the number.
For one digit, two digits and so on the two neighbours of the number on that decimal grid are
tried: if a point of a grid rounds to the number, one of its two neighbours does. All arithmetic is
exact, on natural numbers.
-/

namespace TestAssembly

/-- The decimal `digits · 10 ^ exponent`. -/
structure Decimal where
  digits : Nat
  exponent : Int
  deriving DecidableEq, Repr, Inhabited

/-- **Positive binary number** `mantissa · 2 ^ exponent`; `narrowBelow` when the next smaller one
lies at half the usual distance. -/
structure Binary where
  mantissa : Nat
  exponent : Int
  narrowBelow : Bool

namespace Binary

/-- The magnitude that the bits of a finite double stand for. -/
def ofBits (bits : UInt64) : Binary :=
  let fraction : Nat := bits.toNat % powerOfTwo 52
  let biased : Nat := bits.toNat / powerOfTwo 52 % powerOfTwo 11
  if biased = 0 then ⟨fraction, -1074, false⟩
  else ⟨fraction + powerOfTwo 52, (biased : Int) - 1075, fraction = 0 && 1 < biased⟩

/-- Quarter steps: the number, the lower and the upper end of what rounds to it, each as a
numerator over one common denominator. -/
private def quarters (b : Binary) : Nat × Nat × Nat × Nat :=
  let up : Nat := powerOfTwo (b.exponent - 2).toNat
  (4 * b.mantissa * up, (4 * b.mantissa - if b.narrowBelow then 1 else 2) * up,
    (4 * b.mantissa + 2) * up, powerOfTwo (2 - b.exponent).toNat)

/-- The exponent of the leading decimal digit of `num / den`. -/
private def leadingExponent (num den : Nat) : Int :=
  if den ≤ num then ((Text.decimal (num / den)).length : Int) - 1
  else
    match (List.range 400).find? fun j => den ≤ num * powerOfTen (j + 1) with
    | some j => -((j : Int) + 1)
    | none => 0

/-- The neighbour of the number on the grid of multiples of `10 ^ exponent` that rounds to it, the
nearer one if both do. -/
private def onGrid? (b : Binary) (exponent : Int) : Option Decimal :=
  let (mid, low, high, den) := b.quarters
  let scale : Nat := powerOfTen (-exponent).toNat
  let den := den * powerOfTen exponent.toNat
  let (mid, low, high) := (mid * scale, low * scale, high * scale)
  let rounds (d : Nat) : Bool :=
    if b.mantissa % 2 = 0 then low ≤ d * den && d * den ≤ high
    else low < d * den && d * den < high
  let below := mid / den
  let nearerBelow := 2 * (mid - below * den) ≤ den
  if rounds below && (nearerBelow || !rounds (below + 1)) then some ⟨below, exponent⟩
  else if rounds (below + 1) then some ⟨below + 1, exponent⟩
  else none

/-- **Shortest decimal** that rounds to the number. Seventeen digits are always enough. -/
def shortest (b : Binary) : Decimal :=
  let (mid, _, _, den) := b.quarters
  let leading := leadingExponent mid den
  ((List.range 17).findSome? fun (n : Nat) => b.onGrid? (leading - n)).getD ⟨0, 0⟩

end Binary

/-- The same decimal without zeros at the end. -/
def Decimal.trimmed (d : Decimal) : Decimal :=
  let digits := Text.decimal d.digits
  let zeros := (digits.reverse.takeWhile (· = '0')).length
  if d.digits = 0 then ⟨0, 0⟩ else ⟨d.digits / powerOfTen zeros, d.exponent + (zeros : Nat)⟩

end TestAssembly
