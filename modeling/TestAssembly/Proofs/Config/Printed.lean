import TestAssembly.CommandLine.Run
import TestAssembly.Proofs.Files.Written
import TestAssembly.Proofs.Toml.Document

/-!
# A printed configuration is a configuration

The document of a configuration consists of plain sections (`plainSections`), so it is read as the
table of all settings (`ofText?_document`), and from this table the same configuration is taken,
whatever texts stand in it. A valid configuration is therefore accepted from its text, and also with
the end of line that a command prints behind it (`parse_text`, `parse_output`).

So a checked configuration can take the place of the file that it was read from: the printed text is
checked without an issue and printed once more (`checkConfig_written`).
-/

namespace TestAssembly

open Toml

namespace Config

/-! ### The document -/

/-- **Sections of a configuration**. Each setting has a text from which its value is read. -/
def plainSections (config : Config) : List PlainSection :=
  have hbound : config.fieldTest.positionDrawBound.toNat < doubleWordBound :=
    Nat.lt_trans config.fieldTest.positionDrawBound.toNat_lt (by decide)
  have hidle : config.rotation.idleSeconds.toNat < doubleWordBound :=
    Nat.lt_trans config.rotation.idleSeconds.toNat_lt (by decide)
  [⟨"field_test",
      [(isTextOf_boolean config.fieldTest.enabled).entry "enabled" (by decide),
        (isTextOf_array config.fieldTest.simulationEnvironments).entry "simulation_environments"
          (by decide),
        (isTextOf_decimal hbound).entry "position_draw_bound" (by decide)],
      by decide⟩,
    ⟨"forms", [(isTextOf_decimal hidle).entry "rotation_idle_secs" (by decide)], by decide⟩,
    ⟨"items",
      [(isTextOf_quoted config.items.languageProperty).entry "language_property" (by decide)],
      by decide⟩]

theorem document_eq (config : Config) :
    config.document = writeDocument (config.plainSections.map PlainSection.text) := rfl

/-- The sections make up the table of all settings. -/
theorem ofSections_plainSections (config : Config) :
    Table.ofSections [] (config.plainSections.map PlainSection.toSection) = some config.table :=
  rfl

/-- **A configuration is read from its document**, whatever empty lines stand behind it. -/
theorem ofText?_document (config : Config) (breaks : Nat) :
    ofText? (String.ofList (config.document ++ List.replicate breaks '\n')) = some config := by
  rw [ofText?, document_eq, ofText?_writeDocument, ofSections_plainSections, Option.bind_some,
    ofTable?_table]

/-! ### The text -/

theorem parse_document {config : Config} (h : config.issues = []) (breaks : Nat) :
    parse (String.ofList (config.document ++ List.replicate breaks '\n')) = .ok config :=
  parse_eq_ok_iff.2 ⟨ofText?_document config breaks, h⟩

/-- **A valid configuration is accepted from its text.** -/
theorem parse_text {config : Config} (h : config.issues = []) : parse config.text = .ok config := by
  have hparse := parse_document h 0
  rwa [List.replicate_zero, List.append_nil] at hparse

/-- An end of line behind the text changes nothing. -/
theorem parse_text_push {config : Config} (h : config.issues = []) :
    parse (config.text.push '\n') = .ok config := by
  have htext : config.text.push '\n' =
      String.ofList (config.document ++ List.replicate 1 '\n') := by
    apply String.toList_injective
    simp [text]
  rw [htext]
  exact parse_document h 1

end Config

/-! ### The command -/

namespace CommandLine

open Files Time

variable {around : Surroundings} {path : Path} {text : String} {config : Config}

theorem effectiveConfig_of_read (hread : around.read path = .ok text)
    (hparse : Config.parse text = .ok config) : effectiveConfig around (some path) = .ok config := by
  simp only [effectiveConfig, Config.load, hread, hparse, Except.mapError]

theorem run_checkConfig {path? : Option Path} (h : effectiveConfig around path? = .ok config) :
    (Command.checkConfig path?).run around = { printed := some config.text } := by
  simp only [Command.run, h]

/-- Checking the file at a path leaves the files as they are. -/
theorem runIn_checkConfig_of_read {tree : FileTree} {directory : List String} (now : Instant)
    (entropy : UInt64) (hread : tree.read directory path = .ok text)
    (hparse : Config.parse text = .ok config) :
    (Command.checkConfig (some path)).runIn tree directory now entropy =
      ({ printed := some config.text }, tree) := by
  rw [Command.runIn, run_checkConfig (effectiveConfig_of_read hread hparse)]

/-- **What is printed can be checked again.** A configuration that a text is accepted as is accepted
from the text that is printed for it, however it came into force. Once the output of the check is
written to a file, the check of this file has the same outcome. -/
theorem checkConfig_written (hparse : Config.parse text = .ok config) :
    Config.parse config.text = .ok config ∧
    (∀ (around : Surroundings) (path : Path), around.read path = .ok text →
      effectiveConfig around (some path) = .ok config) ∧
    ∀ (around : Surroundings) (path? : Option Path), effectiveConfig around path? = .ok config →
      let outcome := (Command.checkConfig path?).run around
      outcome = { printed := some config.text } ∧
      Config.parse outcome.output = .ok config ∧
      ∀ (tree written : FileTree) (directory : List String) (target : Path) (now : Instant)
        (entropy : UInt64), tree.write directory target outcome.output = .ok written →
          (Command.checkConfig (some target)).runIn written directory now entropy =
            (outcome, written) := by
  have hvalid : config.issues = [] := (Config.parse_eq_ok_iff.1 hparse).2
  refine ⟨Config.parse_text hvalid, fun _ _ hread => effectiveConfig_of_read hread hparse, ?_⟩
  intro around path? heffective
  have houtcome := run_checkConfig heffective
  have houtput : Config.parse ((Command.checkConfig path?).run around).output = .ok config := by
    rw [houtcome]
    exact Config.parse_text_push hvalid
  refine ⟨houtcome, houtput, ?_⟩
  intro tree written directory target now entropy hwrite
  rw [runIn_checkConfig_of_read now entropy (FileTree.read_of_write hwrite) houtput, houtcome]

/-! ### A configuration with special characters -/

/-- A text with quotation marks, a backslash, an end of line and control characters in its strings,
and without some of the settings. -/
def specialText : String :=
  "[field_test]\nsimulation_environments = [\"say \\\"so\\\"\", \"C:\\\\\", \"\\u0000\\t\"]\n" ++
    "[items]\nlanguage_property = \"two\\nlines\"\n"

def specialConfig : Config where
  fieldTest := { simulationEnvironments := ["say \"so\"", "C:\\", "\x00\t"] }
  items := { languageProperty := "two\nlines" }

/-- A directory with a text in a file. -/
def specialTree (text : String) : FileTree := .directory [("special.toml", .file (some text))]

/-- The directory in which the text is checked. -/
def specialSurroundings : Surroundings where
  read := (specialTree specialText).read []
  directory := ⟨.root, []⟩
  now := default
  entropy := 0

theorem parse_specialText : Config.parse specialText = .ok specialConfig :=
  Config.parse_eq_ok_iff.2 ⟨by decide +kernel, by decide +kernel⟩

/-- The output can be written over the text from which the configuration was read. -/
theorem write_specialTree (text output : String) :
    (specialTree text).write [] (.ofText "special.toml") output = .ok (specialTree output) := by
  rfl

/-- The checked text is replaced by what is printed for it, which is then checked and printed. -/
theorem checkConfig_specialText :
    Config.parse specialText = .ok specialConfig ∧
    specialSurroundings.read (.ofText "special.toml") = .ok specialText ∧
    Config.parse specialConfig.text = .ok specialConfig ∧
    let outcome := (Command.checkConfig (some (.ofText "special.toml"))).run specialSurroundings
    outcome.printed = some specialConfig.text ∧
    (specialTree specialText).write [] (.ofText "special.toml") outcome.output =
      .ok (specialTree outcome.output) ∧
    (Command.checkConfig (some (.ofText "special.toml"))).runIn (specialTree outcome.output) []
      default 0 = (outcome, specialTree outcome.output) := by
  have hread : specialSurroundings.read (.ofText "special.toml") = .ok specialText := rfl
  obtain ⟨htext, heffective, hcheck⟩ := checkConfig_written parse_specialText
  obtain ⟨houtcome, _, hagain⟩ := hcheck _ _ (heffective _ _ hread)
  have hwrite := write_specialTree specialText
    ((Command.checkConfig (some (.ofText "special.toml"))).run specialSurroundings).output
  refine ⟨parse_specialText, hread, htext, ?_, hwrite, hagain _ _ _ _ _ _ hwrite⟩
  rw [houtcome]

end CommandLine

end TestAssembly
