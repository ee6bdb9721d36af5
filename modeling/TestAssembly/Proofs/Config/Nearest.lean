import TestAssembly.Config.Search

/-!
# Which file decides

In a file tree, the places where a configuration is looked for are followed upwards from a start
until a file can be loaded. Where nothing can be read there is no configuration to be loaded
(`toOption_load_of_not_isFile`), so the search first comes to the nearest file (`IsNearestFile`). It
takes this file's configuration if it can be loaded, and otherwise goes on further up
(`firstLoaded?_of_isNearestFile`).

That the nearest file decides alone, the default configuration standing in for a file that cannot be
loaded, is another rule (`ofNearestFile`). The two differ exactly where the nearest file fails and
the next one that can be loaded, further up, has a configuration other than the default one.
-/

namespace TestAssembly.Config

open Files

section Search

variable {read : Path → Except FileFault String} {tree : FileTree} {directory : List String}
  {start path : Path} {further : List Path}

/-! ### The nearest file -/

/-- **Nearest file**: a file at a place where a configuration is looked for from a start, when no
file is at a nearer one. The places further up are left. -/
structure IsNearestFile (tree : FileTree) (directory : List String) (start path : Path)
    (further : List Path) : Prop where
  isFile : tree.isFile directory path = true
  split : ∃ nearer, candidates start = nearer ++ path :: further ∧
    ∀ p ∈ nearer, tree.isFile directory p = false

/-- The nearest file, if there is one. -/
def nearestFile? (tree : FileTree) (directory : List String) (start : Path) : Option Path :=
  (candidates start).find? (tree.isFile directory)

theorem nearestFile?_eq_some_iff :
    nearestFile? tree directory start = some path ↔
      ∃ further, IsNearestFile tree directory start path further := by
  simp only [nearestFile?, List.find?_eq_some_iff_append, Bool.not_eq_true']
  constructor
  · rintro ⟨hfile, nearer, further, hsplit, hnone⟩
    exact ⟨further, hfile, nearer, hsplit, hnone⟩
  · rintro ⟨further, hfile, nearer, hsplit, hnone⟩
    exact ⟨hfile, nearer, further, hsplit, hnone⟩

theorem nearestFile?_eq_none_iff :
    nearestFile? tree directory start = none ↔
      ∀ p ∈ candidates start, tree.isFile directory p = false := by
  simp [nearestFile?]

/-- **The configuration by the nearest file alone**: the one that is loaded from it, and the default
one when it cannot be loaded or when there is no file. -/
def ofNearestFile (tree : FileTree) (directory : List String) (start : Path) : Config :=
  match nearestFile? tree directory start with
  | some path => (load (tree.read directory) path).toOption.getD default
  | none => default

theorem ofNearestFile_of_no_file (h : ∀ p ∈ candidates start, tree.isFile directory p = false) :
    ofNearestFile tree directory start = default := by
  rw [ofNearestFile, nearestFile?_eq_none_iff.2 h]

theorem ofNearestFile_of_isNearestFile (h : IsNearestFile tree directory start path further) :
    ofNearestFile tree directory start =
      (load (tree.read directory) path).toOption.getD default := by
  rw [ofNearestFile, nearestFile?_eq_some_iff.2 ⟨further, h⟩]

/-! ### The search -/

/-- Nothing is loaded from where no file is. -/
theorem toOption_load_of_not_isFile (h : tree.isFile directory path = false) :
    (load (tree.read directory) path).toOption = none := by
  cases hread : tree.read directory path with
  | error fault => simp [load, hread, Except.toOption]
  | ok text => simp [FileTree.isFile_of_read hread] at h

theorem firstLoaded?_append (nearer : List Path) :
    firstLoaded? read (nearer ++ further) =
      (firstLoaded? read nearer).or (firstLoaded? read further) :=
  List.findSome?_append

theorem firstLoaded?_cons :
    firstLoaded? read (path :: further) =
      (load read path).toOption.or (firstLoaded? read further) := by
  rw [firstLoaded?, List.findSome?_cons]
  cases (load read path).toOption <;> rfl

/-- Without any file nothing is found. -/
theorem firstLoaded?_of_not_isFile {paths : List Path}
    (h : ∀ p ∈ paths, tree.isFile directory p = false) :
    firstLoaded? (tree.read directory) paths = none :=
  firstLoaded?_eq_none_iff.2 fun p hp => toOption_load_of_not_isFile (h p hp)

/-- **The search comes to the nearest file first**, and goes on when it cannot be loaded. -/
theorem firstLoaded?_of_isNearestFile (h : IsNearestFile tree directory start path further) :
    firstLoaded? (tree.read directory) (candidates start) =
      (load (tree.read directory) path).toOption.or
        (firstLoaded? (tree.read directory) further) := by
  obtain ⟨nearer, hsplit, hnone⟩ := h.split
  rw [hsplit, firstLoaded?_append, firstLoaded?_of_not_isFile hnone, Option.none_or,
    firstLoaded?_cons]

theorem nearest_of_no_file (h : ∀ p ∈ candidates start, tree.isFile directory p = false) :
    nearest (tree.read directory) start = default := by
  rw [nearest, firstLoaded?_of_not_isFile h, Option.getD_none]

theorem nearest_of_load_ok {config : Config}
    (h : IsNearestFile tree directory start path further)
    (hload : load (tree.read directory) path = .ok config) :
    nearest (tree.read directory) start = config := by
  rw [nearest, firstLoaded?_of_isNearestFile h, hload]
  rfl

theorem nearest_of_load_error {e : AssemblyError}
    (h : IsNearestFile tree directory start path further)
    (hload : load (tree.read directory) path = .error e) :
    nearest (tree.read directory) start =
      (firstLoaded? (tree.read directory) further).getD default := by
  rw [nearest, firstLoaded?_of_isNearestFile h, hload]
  rfl

/-- Where the nearest file cannot be loaded, it leaves the default configuration exactly when the
search further up does. -/
theorem nearest_eq_default_iff {e : AssemblyError}
    (h : IsNearestFile tree directory start path further)
    (hload : load (tree.read directory) path = .error e) :
    nearest (tree.read directory) start = default ↔
      ∀ config, firstLoaded? (tree.read directory) further = some config → config = default := by
  rw [nearest_of_load_error h hload]
  cases firstLoaded? (tree.read directory) further <;> simp

/-! ### One file or several -/

/-- If the nearest file can be loaded, it decides alone. If it cannot, it decides alone exactly when
nothing but the default configuration is found further up. -/
theorem nearest_eq_ofNearestFile_iff :
    nearest (tree.read directory) start = ofNearestFile tree directory start ↔
      ∀ path further e config, IsNearestFile tree directory start path further →
        load (tree.read directory) path = .error e →
          firstLoaded? (tree.read directory) further = some config → config = default := by
  constructor
  · intro halone path further e config h hload hfurther
    have hdefault : nearest (tree.read directory) start = default := by
      rw [halone, ofNearestFile_of_isNearestFile h, hload]
      rfl
    exact (nearest_eq_default_iff h hload).mp hdefault config hfurther
  · intro hfurther
    cases hfile : nearestFile? tree directory start with
    | none =>
      have hnone := nearestFile?_eq_none_iff.1 hfile
      rw [nearest_of_no_file hnone, ofNearestFile_of_no_file hnone]
    | some path =>
      obtain ⟨further, h⟩ := nearestFile?_eq_some_iff.1 hfile
      rw [ofNearestFile_of_isNearestFile h]
      cases hload : load (tree.read directory) path with
      | ok config => exact nearest_of_load_ok h hload
      | error e =>
        exact (nearest_eq_default_iff h hload).mpr fun config =>
          hfurther path further e config h hload

end Search

/-- **What files decide.** Without a file the configuration is the default one, and a nearest file
that can be loaded decides. One that cannot be loaded leaves the decision to the places further up.
So the nearest file decides alone exactly if, whenever it cannot be loaded, the first file further
up that can be, if there is one, has the default configuration. -/
theorem nearest_by_files (tree : FileTree) (directory : List String) (start : Path) :
    ((∀ p ∈ candidates start, tree.isFile directory p = false) →
      nearest (tree.read directory) start = default) ∧
    (∀ path further, IsNearestFile tree directory start path further →
      (∀ config, load (tree.read directory) path = .ok config →
        nearest (tree.read directory) start = config) ∧
      ∀ e, load (tree.read directory) path = .error e →
        nearest (tree.read directory) start =
          (firstLoaded? (tree.read directory) further).getD default) ∧
    (nearest (tree.read directory) start = ofNearestFile tree directory start ↔
      ∀ path further e config, IsNearestFile tree directory start path further →
        load (tree.read directory) path = .error e →
          firstLoaded? (tree.read directory) further = some config → config = default) :=
  ⟨nearest_of_no_file,
    fun _ _ h => ⟨fun _ => nearest_of_load_ok h, fun _ => nearest_of_load_error h⟩,
    nearest_eq_ofNearestFile_iff⟩

/-! ### A file that fails below one that does not -/

/-- A directory with a file that is no document, below a directory with a valid one. -/
def brokenBelowValid : FileTree :=
  .directory
    [(fileName, .file (some "[items]\nlanguage_property = \"Tongue\"\n")),
      ("a", .directory [(fileName, .file (some "not = [valid"))])]

/-- **The nearest file does not decide alone**: it cannot be loaded, and the configuration is that
of the file further up. By the nearest file alone it would be the default one. -/
theorem nearest_brokenBelowValid :
    IsNearestFile brokenBelowValid [] (.ofText "/a") (.ofText "/a/.exam-assembly.toml")
      [.ofText "/.exam-assembly.toml"] ∧
    (load (brokenBelowValid.read []) (.ofText "/a/.exam-assembly.toml")).toOption = none ∧
    ofNearestFile brokenBelowValid [] (.ofText "/a") = default ∧
    nearest (brokenBelowValid.read []) (.ofText "/a") =
      { items := { languageProperty := "Tongue" } } ∧
    nearest (brokenBelowValid.read []) (.ofText "/a") ≠
      ofNearestFile brokenBelowValid [] (.ofText "/a") := by
  have hnearest : nearest (brokenBelowValid.read []) (.ofText "/a") =
      { items := { languageProperty := "Tongue" } } := by decide +kernel
  have hdefault : ofNearestFile brokenBelowValid [] (.ofText "/a") = default := by decide +kernel
  refine ⟨⟨?_, [], ?_, by simp⟩, ?_, hdefault, hnearest, ?_⟩
  · decide +kernel
  · decide +kernel
  · decide +kernel
  · rw [hnearest, hdefault]
    decide

end TestAssembly.Config
