import TestAssembly.Word

/-!
# Saturating counts

Item counts and positions are 32-bit words. Wherever a sum or product could leave the word,
it stays at the greatest one instead. Each operation is pinned by its value in `Nat`:
`toNat_addSat`, `toNat_subSat`, `toNat_mulSat`, `toNat_countOf`, `toNat_sumSat`,
`toNat_sumWrapped`.
-/

namespace TestAssembly

/-- The greatest 32-bit count. -/
abbrev maxCount : Nat := 4294967295

/-- The 32-bit count nearest to `n`: `n` itself, or the greatest count. -/
def countOf (n : Nat) : UInt32 := UInt32.ofNat (min n maxCount)

/-- **Saturating sum.** -/
def addSat (a b : UInt32) : UInt32 := countOf (a.toNat + b.toNat)

/-- **Saturating difference:** zero when `b` is the greater. -/
def subSat (a b : UInt32) : UInt32 := countOf (a.toNat - b.toNat)

/-- **Saturating product.** -/
def mulSat (a b : UInt32) : UInt32 := countOf (a.toNat * b.toNat)

/-- **Saturating sum of a list.** -/
def sumSat (counts : List UInt32) : UInt32 := counts.foldl addSat 0

/-- **Wrapping sum of a list:** what exceeds the word is lost. -/
def sumWrapped (counts : List UInt32) : UInt32 := counts.foldl (· + ·) 0

/-- The sum of a list as a number. -/
def total : List UInt32 → Nat
  | [] => 0
  | n :: rest => n.toNat + total rest

theorem total_nil : total [] = 0 := rfl

theorem total_cons (n : UInt32) (rest : List UInt32) :
    total (n :: rest) = n.toNat + total rest := rfl

/-! ### Values -/

@[simp] theorem toNat_countOf (n : Nat) : (countOf n).toNat = min n maxCount := by
  have hmax : maxCount = 4294967295 := rfl
  have h : min n maxCount < 4294967296 := by omega
  rw [countOf, UInt32.toNat_ofNat', Nat.mod_eq_of_lt h]

/-- Counts are told apart below the greatest one. -/
theorem countOf_eq_countOf_iff {m n : Nat} (h : n ≤ m) :
    countOf m = countOf n ↔ m = n ∨ maxCount ≤ n := by
  rw [← UInt32.toNat_inj, toNat_countOf, toNat_countOf]
  omega

@[simp] theorem toNat_addSat (a b : UInt32) :
    (addSat a b).toNat = min (a.toNat + b.toNat) maxCount :=
  toNat_countOf _

@[simp] theorem toNat_subSat (a b : UInt32) : (subSat a b).toNat = a.toNat - b.toNat := by
  have hmax : maxCount = 4294967295 := rfl
  have h := a.toNat_lt
  rw [subSat, toNat_countOf]
  omega

@[simp] theorem toNat_mulSat (a b : UInt32) :
    (mulSat a b).toNat = min (a.toNat * b.toNat) maxCount :=
  toNat_countOf _

/-- Saturating once is enough: a saturating sum is the plain sum, or the greatest count. -/
theorem toNat_sumSat (counts : List UInt32) :
    (sumSat counts).toNat = min (total counts) maxCount := by
  suffices h : ∀ start : UInt32, (counts.foldl addSat start).toNat
      = min (start.toNat + total counts) maxCount by
    simpa [sumSat] using h 0
  induction counts with
  | nil =>
    intro start
    have hmax : maxCount = 4294967295 := rfl
    have h := start.toNat_lt
    simp only [List.foldl_nil, total_nil]
    omega
  | cons n rest ih =>
    intro start
    rw [List.foldl_cons, ih, toNat_addSat, total_cons]
    omega

/-- Plain sums from a count on: what exceeds the word is lost. -/
theorem toNat_foldl_add (start : UInt32) (counts : List UInt32) :
    (counts.foldl (· + ·) start).toNat = (start.toNat + total counts) % countBound := by
  induction counts generalizing start with
  | nil => rw [List.foldl_nil, total_nil, Nat.add_zero, Nat.mod_eq_of_lt start.toNat_lt]
  | cons n rest ih =>
    have hbound : countBound = 2 ^ 32 := rfl
    rw [List.foldl_cons, ih, UInt32.toNat_add, total_cons, hbound, Nat.mod_add_mod, Nat.add_assoc]

/-- A wrapping sum is the plain sum, up to whole words. -/
theorem toNat_sumWrapped (counts : List UInt32) :
    (sumWrapped counts).toNat = total counts % countBound := by
  rw [sumWrapped, toNat_foldl_add, UInt32.toNat_zero, Nat.zero_add]

@[simp] theorem total_append (counts more : List UInt32) :
    total (counts ++ more) = total counts + total more := by
  induction counts with
  | nil => simp [total_nil]
  | cons n rest ih =>
    simp only [List.cons_append, total_cons, ih]
    omega

theorem total_eq_zero_iff {counts : List UInt32} : total counts = 0 ↔ ∀ n ∈ counts, n = 0 := by
  induction counts with
  | nil => simp [total_nil]
  | cons n rest ih =>
    have hzero : n.toNat = 0 ↔ n = 0 := by rw [← UInt32.toNat_inj, UInt32.toNat_zero]
    rw [total_cons, Nat.add_eq_zero_iff, ih, hzero, List.forall_mem_cons]

/-- A saturating sum is zero when all counts are. -/
theorem sumSat_eq_zero_iff {counts : List UInt32} : sumSat counts = 0 ↔ ∀ n ∈ counts, n = 0 := by
  have hmax : maxCount = 4294967295 := rfl
  rw [← total_eq_zero_iff, ← UInt32.toNat_inj, toNat_sumSat, UInt32.toNat_zero]
  omega

/-- A count that fits the word is kept. -/
theorem toNat_countOf_of_le {n : Nat} (h : n ≤ maxCount) : (countOf n).toNat = n := by
  rw [toNat_countOf]
  omega

/-- Every count is within the greatest one. -/
theorem toNat_le_maxCount (a : UInt32) : a.toNat ≤ maxCount := by
  have hmax : maxCount = 4294967295 := rfl
  have h := a.toNat_lt
  omega

end TestAssembly
