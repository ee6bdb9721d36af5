import TestAssembly.FieldTest.Placement

/-!
# Seeded randomness

Draws that depend on a seed alone: the draw of a number is a thorough mixture of the bits of seed
and number, reduced to its bound. Two passes with one seed place field-test groups alike.
-/

namespace TestAssembly

/-- A mixture of the bits of a word, every bit of which depends on every bit of the word. -/
def mixBits (word : UInt64) : UInt64 :=
  let a := (word ^^^ (word >>> 30)) * 0xbf58476d1ce4e5b9
  let b := (a ^^^ (a >>> 27)) * 0x94d049bb133111eb
  b ^^^ (b >>> 31)

/-- **Draws of a seed**, each below its bound. -/
def RandomSource.seeded (seed : UInt64) : RandomSource where
  draw n bound :=
    let word := mixBits (seed + (UInt64.ofNat n + 1) * 0x9e3779b97f4a7c15)
    (word % (max bound 1).toUInt64).toUInt32

end TestAssembly
