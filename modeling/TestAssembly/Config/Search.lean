import TestAssembly.Config.Text
import TestAssembly.Files.Tree

/-!
# Finding the configuration

Without a path, the configuration is taken from the nearest file of its name that can be read and
is valid, in a directory or its ancestors up to a depth; a file that fails does not end the search.
When no file will do, the default configuration is taken (`firstLoaded?_eq_some_iff`,
`firstLoaded?_eq_none_iff`). With a path, a failure of its file is the outcome.
-/

namespace TestAssembly.Config

open Files

/-- How many directories are searched. -/
def searchDepth : Nat := 10

/-- **The configuration in the file at a path**, given how files are read. -/
def load (read : Path → Except FileFault String) (path : Path) : Except AssemblyError Config :=
  match read path with
  | .ok text => parse text
  | .error fault => .error (.io fault.message)

/-- The places where a configuration is looked for, nearest first. -/
def candidates (start : Path) : List Path :=
  (Path.ancestors searchDepth start).map (·.join (.ofText fileName))

/-- The configuration in the first file that can be loaded. -/
def firstLoaded? (read : Path → Except FileFault String) (paths : List Path) : Option Config :=
  paths.findSome? fun path => (load read path).toOption

/-- **The nearest configuration**, or the default one. -/
def nearest (read : Path → Except FileFault String) (start : Path) : Config :=
  (firstLoaded? read (candidates start)).getD default

/-- The first file that can be loaded stands behind files that cannot. -/
theorem firstLoaded?_eq_some_iff {read : Path → Except FileFault String} {paths : List Path}
    {config : Config} :
    firstLoaded? read paths = some config ↔
      ∃ before path behind, paths = before ++ path :: behind ∧ load read path = .ok config ∧
        ∀ p ∈ before, (load read p).toOption = none := by
  have h (p : Path) : (load read p).toOption = some config ↔ load read p = .ok config := by
    cases load read p <;> simp [Except.toOption]
  simp [firstLoaded?, List.findSome?_eq_some_iff, h]

/-- The default configuration is taken exactly when no file can be loaded. -/
theorem firstLoaded?_eq_none_iff {read : Path → Except FileFault String} {paths : List Path} :
    firstLoaded? read paths = none ↔ ∀ p ∈ paths, (load read p).toOption = none := by
  simp [firstLoaded?]

/-- Every file that can be loaded holds a valid configuration. -/
theorem issues_eq_nil_of_load {read : Path → Except FileFault String} {path : Path}
    {config : Config} (h : load read path = .ok config) : config.issues = [] := by
  rw [load] at h
  split at h
  · exact (parse_eq_ok_iff.1 h).2
  · exact absurd h (by simp)

/-- The nearest configuration is valid. -/
theorem issues_nearest (read : Path → Except FileFault String) (start : Path) :
    (nearest read start).issues = [] := by
  rw [nearest]
  cases h : firstLoaded? read (candidates start) with
  | none => exact issues_default
  | some config =>
    obtain ⟨path, _, hpath⟩ := List.exists_of_findSome?_eq_some h
    cases hl : load read path with
    | error e => simp [hl, Except.toOption] at hpath
    | ok c =>
      rw [hl] at hpath
      cases hpath
      exact issues_eq_nil_of_load hl

end TestAssembly.Config
