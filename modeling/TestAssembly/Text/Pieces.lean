/-!
# Pieces of a text

A text is cut at every separator, and its pieces are joined with separators between them. Joining
undoes cutting (`joined_pieces`).
-/

namespace TestAssembly.Text

/-- **Pieces of a text** between separators. There is one more of them than separators. -/
def pieces (separator : Char) : List Char → List (List Char)
  | [] => [[]]
  | c :: rest =>
    if c = separator then [] :: pieces separator rest
    else
      match pieces separator rest with
      | [] => [[c]]
      | piece :: behind => (c :: piece) :: behind

/-- Pieces with separators between them. -/
def joined (separator : Char) : List (List Char) → List Char
  | [] => []
  | [piece] => piece
  | piece :: rest => piece ++ separator :: joined separator rest

theorem pieces_ne_nil (separator : Char) (cs : List Char) : pieces separator cs ≠ [] := by
  cases cs with
  | nil => simp [pieces]
  | cons c rest =>
    rw [pieces]
    split
    · simp
    · split <;> simp

/-- Joining undoes cutting. -/
theorem joined_pieces (separator : Char) (cs : List Char) :
    joined separator (pieces separator cs) = cs := by
  induction cs with
  | nil => rfl
  | cons c rest ih =>
    rw [pieces]
    split
    · rename_i h
      cases hs : pieces separator rest with
      | nil => exact absurd hs (pieces_ne_nil separator rest)
      | cons piece behind => rw [joined, ← hs, ih, h, List.nil_append]; simp
    · cases hs : pieces separator rest with
      | nil => exact absurd hs (pieces_ne_nil separator rest)
      | cons piece behind =>
        rw [hs] at ih
        cases behind with
        | nil => simpa [joined] using ih
        | cons p ps => simpa [joined] using ih

/-- A text without the separator is a single piece. -/
theorem pieces_of_not_mem {separator : Char} {cs : List Char} (h : separator ∉ cs) :
    pieces separator cs = [cs] := by
  induction cs with
  | nil => rfl
  | cons c rest ih =>
    rw [List.mem_cons, not_or] at h
    rw [pieces, if_neg (Ne.symm h.1), ih h.2]

end TestAssembly.Text
