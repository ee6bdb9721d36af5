import TestAssembly.Error
import TestAssembly.Text.AsciiCase
import TestAssembly.Text.Blank

/-!
# Configuration

The settings of the assembly, each with a default, and the issues that make a configuration
invalid. All issues are found before any is reported; a single issue is reported with its field,
several are joined into one message.
-/

namespace TestAssembly

/-- Settings of field-test seeding. -/
structure FieldTestConfig where
  enabled : Bool := true
  /-- Environments in which field-test windows do not count. -/
  simulationEnvironments : List String := ["SIMULATION"]
  /-- Draws for positions are taken below this bound. -/
  positionDrawBound : UInt32 := 1000
  deriving DecidableEq, Repr

/-- Settings of form rotation. -/
structure RotationConfig where
  /-- After so many seconds without use a rotation starts over. -/
  idleSeconds : UInt64 := 3600
  deriving DecidableEq, Repr

/-- Settings of item pools. -/
structure ItemConfig where
  /-- The item property that names the language. -/
  languageProperty : String := "Language"
  deriving DecidableEq, Repr

/-- **Configuration** of the assembly. -/
structure Config where
  fieldTest : FieldTestConfig := {}
  rotation : RotationConfig := {}
  items : ItemConfig := {}
  deriving DecidableEq, Repr

instance : Inhabited Config := ⟨{}⟩

/-- Whether an environment is one of the simulation environments. -/
def FieldTestConfig.isSimulation (config : FieldTestConfig) (environment : String) : Bool :=
  config.simulationEnvironments.any (Text.sameUpToCase · environment)

/-! ### Issues -/

/-- What can be invalid in a configuration. -/
inductive ConfigIssue where
  | zeroDrawBound
  | zeroIdleSeconds
  | blankLanguageProperty
  deriving DecidableEq, Repr

namespace ConfigIssue

/-- The field that an issue is about. -/
def field : ConfigIssue → String
  | zeroDrawBound => "field_test.position_draw_bound"
  | zeroIdleSeconds => "forms.rotation_idle_secs"
  | blankLanguageProperty => "items.language_property"

/-- What an issue demands of its field. -/
def message : ConfigIssue → String
  | zeroDrawBound | zeroIdleSeconds => "must be greater than zero"
  | blankLanguageProperty => "must not be empty"

/-- An issue with its field in front. -/
def report (issue : ConfigIssue) : String := issue.field ++ ": " ++ issue.message

end ConfigIssue

namespace Config

/-- **Issues of a configuration**, in the order of its fields. -/
def issues (config : Config) : List ConfigIssue :=
  (if config.fieldTest.positionDrawBound = 0 then [.zeroDrawBound] else [])
    ++ (if config.rotation.idleSeconds = 0 then [.zeroIdleSeconds] else [])
    ++ (if Text.allBlank config.items.languageProperty then [.blankLanguageProperty] else [])

/-- The configuration itself when it has no issue, otherwise the error that reports them. -/
def validate (config : Config) : Except AssemblyError Config :=
  match config.issues with
  | [] => .ok config
  | [issue] => .error (.config issue.report (some issue.field))
  | many => .error (.config (String.intercalate "; " (many.map ConfigIssue.report)) none)

/-- A configuration without issues is a valid one, and is returned as it is. -/
theorem validate_eq_ok_iff {config c : Config} :
    config.validate = .ok c ↔ config.issues = [] ∧ c = config := by
  rw [validate]
  split
  · rename_i h
    rw [h, Except.ok.injEq]
    exact ⟨fun hc => ⟨rfl, hc.symm⟩, fun hc => hc.2.symm⟩
  · rename_i h
    simp [h]
  · rename_i h _
    simp only [reduceCtorEq, false_iff, not_and]
    exact fun hc => absurd hc h

/-- Exactly what makes a configuration valid. -/
theorem issues_eq_nil_iff {config : Config} :
    config.issues = [] ↔ config.fieldTest.positionDrawBound ≠ 0 ∧ config.rotation.idleSeconds ≠ 0
      ∧ Text.allBlank config.items.languageProperty = false := by
  simp [issues]

/-- The default configuration is valid. -/
theorem issues_default : (default : Config).issues = [] := by decide

end Config

end TestAssembly
