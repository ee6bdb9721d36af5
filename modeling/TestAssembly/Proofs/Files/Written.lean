import TestAssembly.Files.Tree

/-!
# What was written is read

A text is written where no directory is. The directories that a walk comes through are then none
below that place, so they are still directories in the new tree (`IsDirectory.put`) and the walk
leads to the same location (`locate_put`), where the new text is found (`read_of_write`).
-/

namespace TestAssembly.Files.FileTree

variable {tree : FileTree} {location walked : List String} {name : String} {node : FileTree}

/-! ### Entries -/

theorem entry?_put_self :
    entry? name (tree.put (name :: location) node) =
      some (((tree.entry? name).getD empty).put location node) := by
  simp [put, entry?]

/-- The other entries stay. -/
theorem entry?_put_of_ne {other : String} (h : other ≠ name) :
    entry? other (tree.put (name :: location) node) = tree.entry? other := by
  have hfilter (p : String × FileTree) :
      (p.1 ≠ name ∧ p.1 = other) ↔ p.1 = other := by
    refine ⟨And.right, ?_⟩
    rintro rfl
    exact ⟨h, rfl⟩
  cases tree with
  | file text => simp [put, entry?, entries, h.symm]
  | directory entries =>
    simp [put, entry?, FileTree.entries, h.symm, List.find?_filter, hfilter]

/-! ### Directories -/

/-- **Directory** at a location. -/
def IsDirectory (tree : FileTree) (location : List String) : Prop :=
  ∃ entries, tree.at? location = some (directory entries)

theorem isDirectory_cons :
    tree.IsDirectory (name :: location) ↔
      ∃ child, tree.entry? name = some child ∧ child.IsDirectory location := by
  simp only [IsDirectory, at?, Option.bind_eq_some_iff]
  constructor
  · rintro ⟨entries, child, hchild, hentries⟩
    exact ⟨child, hchild, entries, hentries⟩
  · rintro ⟨child, hchild, entries, hentries⟩
    exact ⟨entries, child, hchild, hentries⟩

/-- Below a node that is no directory there is none. -/
theorem not_isDirectory_of_nil (h : ¬ tree.IsDirectory []) (walked : List String) :
    ¬ tree.IsDirectory walked := by
  cases tree with
  | directory entries => exact absurd ⟨entries, rfl⟩ h
  | file text =>
    cases walked with
    | nil => exact h
    | cons name rest => simp [isDirectory_cons, entry?]

/-- **Directories stay** when a node is put where no directory is. -/
theorem IsDirectory.put (h : tree.IsDirectory walked) (hfree : ¬ tree.IsDirectory location) :
    (tree.put location node).IsDirectory walked := by
  induction location generalizing tree walked with
  | nil => exact absurd h (not_isDirectory_of_nil hfree walked)
  | cons name rest ih =>
    cases walked with
    | nil => exact ⟨_, rfl⟩
    | cons other walked =>
      obtain ⟨child, hchild, hdirectory⟩ := isDirectory_cons.1 h
      rw [isDirectory_cons]
      by_cases hname : other = name
      · subst hname
        refine ⟨_, entry?_put_self, ?_⟩
        rw [hchild, Option.getD_some]
        exact ih hdirectory fun hrest => hfree (isDirectory_cons.2 ⟨child, hchild, hrest⟩)
      · exact ⟨child, (entry?_put_of_ne hname).trans hchild, hdirectory⟩

/-! ### Walks -/

/-- A step is taken from a directory. -/
theorem isDirectory_of_step {next : List String} (h : tree.step walked name = .ok next) :
    tree.IsDirectory walked := by
  rw [step] at h
  split at h
  · cases h
  · cases h
  · rename_i entries hentries
    exact ⟨entries, hentries⟩

/-- From a directory a step leads to the same place, whatever else the tree holds. -/
theorem step_eq_of_isDirectory {other : FileTree} (h : tree.IsDirectory walked)
    (hother : other.IsDirectory walked) : other.step walked name = tree.step walked name := by
  obtain ⟨entries, hentries⟩ := h
  obtain ⟨others, hothers⟩ := hother
  simp only [step, hentries, hothers]

theorem step_put {next : List String} (hfree : ¬ tree.IsDirectory location)
    (h : tree.step walked name = .ok next) :
    (tree.put location node).step walked name = .ok next := by
  have hdirectory := isDirectory_of_step h
  rw [step_eq_of_isDirectory hdirectory (hdirectory.put hfree), h]

/-- A walk leads to the same location as before. -/
theorem walk_put {steps target : List String} (hfree : ¬ tree.IsDirectory location)
    (h : tree.walk walked steps = .ok target) :
    (tree.put location node).walk walked steps = .ok target := by
  induction steps generalizing walked with
  | nil => exact h
  | cons name rest ih =>
    rw [walk] at h ⊢
    cases hstep : tree.step walked name with
    | error fault => simp [hstep] at h
    | ok next =>
      rw [hstep] at h
      rw [step_put hfree hstep]
      exact ih h

theorem locate_put {directory target : List String} {path : Path}
    (hfree : ¬ tree.IsDirectory location) (h : tree.locate directory path = .ok target) :
    (tree.put location node).locate directory path = .ok target := by
  rw [locate] at h ⊢
  by_cases hnul : path.text.toList.any (· = '\x00') = true
  · simp [hnul] at h
  · by_cases hlong : maxPathLength < path.text.utf8ByteSize
    · simp [hnul, hlong] at h
    · rw [if_neg hnul, if_neg hlong] at h ⊢
      match path, h with
      | ⟨.root, _⟩, h => exact walk_put hfree h
      | ⟨.here, _⟩, h => exact walk_put hfree h
      | ⟨.unwritten, _ :: _⟩, h => exact walk_put hfree h

/-! ### Texts -/

/-- A text is put where no directory is. -/
theorem write_eq_ok_iff {directory : List String} {path : Path} {text : String}
    {written : FileTree} :
    tree.write directory path text = .ok written ↔
      ∃ location, tree.locate directory path = .ok location ∧ ¬ tree.IsDirectory location ∧
        written = tree.put location (file (some text)) := by
  rw [write]
  cases tree.locate directory path with
  | error fault => simp
  | ok location =>
    simp only [Except.ok.injEq, exists_eq_left', IsDirectory]
    cases hat : tree.at? location with
    | none => simp [eq_comm]
    | some found => cases found <;> simp [eq_comm]

/-- **What was written is read.** -/
theorem read_of_write {directory : List String} {path : Path} {text : String}
    {written : FileTree} (h : tree.write directory path text = .ok written) :
    written.read directory path = .ok text := by
  obtain ⟨location, hlocation, hfree, rfl⟩ := write_eq_ok_iff.1 h
  rw [read, locate_put hfree hlocation]
  simp only [at?_put_self]

end TestAssembly.Files.FileTree
