/-!
# Comparison up to ASCII case

Names of properties, tools and environments are compared without regard to the case of the
letters `A` to `Z`; every other character, accented letters included, must agree exactly.
-/

namespace TestAssembly.Text

/-- The characters of a text with the capital letters `A` to `Z` made small. -/
def asciiFold (s : String) : List Char := s.toList.map Char.toLower

/-- **Equal up to ASCII case.** -/
def sameUpToCase (s t : String) : Bool := asciiFold s == asciiFold t

theorem sameUpToCase_iff {s t : String} : sameUpToCase s t = true ↔ asciiFold s = asciiFold t := by
  simp [sameUpToCase]

@[simp] theorem sameUpToCase_refl (s : String) : sameUpToCase s s = true :=
  sameUpToCase_iff.2 rfl

theorem sameUpToCase_comm (s t : String) : sameUpToCase s t = sameUpToCase t s := by
  rw [Bool.eq_iff_iff, sameUpToCase_iff, sameUpToCase_iff]
  exact eq_comm

theorem sameUpToCase_trans {s t u : String} (h : sameUpToCase s t = true)
    (h' : sameUpToCase t u = true) : sameUpToCase s u = true :=
  sameUpToCase_iff.2 ((sameUpToCase_iff.1 h).trans (sameUpToCase_iff.1 h'))

end TestAssembly.Text
