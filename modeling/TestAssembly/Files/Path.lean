import TestAssembly.Text.Pieces

/-!
# Paths

A path is an anchor and the steps behind it, as they are separated by slashes in its text. Steps
may be empty or a dot; such steps are idle. They stay in the text, so that a path is written as it
was read (`text_ofText`).

The parent of a path is found in its text alone: the last step that is not idle is dropped,
together with the idle steps around it, and a step to the parent directory is dropped like a name.
Nothing lies above the root and above the empty path.
-/

namespace TestAssembly.Files

/-- Where a path starts. -/
inductive Anchor where
  /-- At the root. -/
  | root
  /-- In the current directory, which is written as a leading dot. -/
  | here
  /-- In the current directory, which is not written. -/
  | unwritten
  deriving DecidableEq, Repr, Inhabited

/-- **Path.** -/
structure Path where
  anchor : Anchor
  steps : List String
  deriving DecidableEq, Repr, Inhabited

/-! ### Text -/

namespace Path

/-- The path of the pieces of a text. -/
def ofPieces : List (List Char) → Path
  | [] | [[]] => ⟨.unwritten, []⟩
  | [] :: steps => ⟨.root, steps.map String.ofList⟩
  | ['.'] :: steps => ⟨.here, steps.map String.ofList⟩
  | steps => ⟨.unwritten, steps.map String.ofList⟩

/-- The pieces of a path. A slash is written behind the root even when no step follows it. -/
def pieces (path : Path) : List (List Char) :=
  match path.anchor, path.steps.map String.toList with
  | .root, [] => [[], []]
  | .root, steps => [] :: steps
  | .here, steps => ['.'] :: steps
  | .unwritten, steps => steps

/-- The path that a text stands for. -/
def ofText (s : String) : Path := ofPieces (Text.pieces '/' s.toList)

/-- The text of a path. -/
def text (path : Path) : String := String.ofList (Text.joined '/' path.pieces)

/-- A path is written as it was read. -/
theorem text_ofText (s : String) : (ofText s).text = s := by
  have h := Text.joined_pieces '/' s.toList
  have h' : Text.joined '/' (ofPieces (Text.pieces '/' s.toList)).pieces = s.toList := by
    revert h
    generalize Text.pieces '/' s.toList = pieces
    intro h
    rw [← h]
    fun_cases ofPieces pieces <;> simp_all [Path.pieces, Text.joined]
  rw [text, ofText, h', String.ofList_toList]

/-! ### Ancestors -/

/-- A step that leads nowhere. -/
def isIdle (step : String) : Bool := step = "" || step = "."

/-- Steps without the idle ones at their end. -/
def trimIdle (steps : List String) : List String := (steps.reverse.dropWhile isIdle).reverse

/-- **Parent of a path**, by its text. -/
def parent? (path : Path) : Option Path :=
  match path.anchor, trimIdle path.steps with
  | .root, [] | .unwritten, [] => none
  | .here, [] => some ⟨.unwritten, []⟩
  | anchor, steps => some ⟨anchor, trimIdle steps.dropLast⟩

/-- **Ancestors of a path**, itself first, at most `depth` of them. -/
def ancestors : Nat → Path → List Path
  | 0, _ => []
  | depth + 1, path =>
    path :: match path.parent? with
      | some parent => ancestors depth parent
      | none => []

theorem length_ancestors_le (depth : Nat) (path : Path) :
    (ancestors depth path).length ≤ depth := by
  induction depth generalizing path with
  | zero => simp [ancestors]
  | succ depth ih =>
    rw [ancestors, List.length_cons]
    cases path.parent? with
    | none => simp
    | some parent => exact Nat.succ_le_succ (ih parent)

/-- The nearest ancestor is the path itself. -/
theorem head?_ancestors_succ (depth : Nat) (path : Path) :
    (ancestors (depth + 1) path).head? = some path := rfl

/-! ### Joining -/

/-- The path that a relative path leads to from a base; an absolute path stands for itself. -/
def join (base path : Path) : Path :=
  match base, path.anchor with
  | _, .root | ⟨.unwritten, []⟩, _ => path
  | base, _ =>
    let walked := if base.steps.getLast? = some "" then base.steps.dropLast else base.steps
    let further := if path.pieces = [] then [""] else path.pieces.map String.ofList
    ⟨base.anchor, walked ++ further⟩

end Path

end TestAssembly.Files
