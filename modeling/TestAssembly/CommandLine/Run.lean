import TestAssembly.CommandLine.Arguments
import TestAssembly.Config.Search
import TestAssembly.FieldTest.Randomness
import TestAssembly.Json.Writer
import TestAssembly.Wire.Catalog
import TestAssembly.Wire.Report

/-!
# Running commands

What a command does with the files and the time that it finds: the text that it prints, the report
that it wants written, and why it fails, if it does. The command that assembles reads catalog, exams
and configuration in this order, and the first that fails decides. A report is delivered even when
exams in it failed; the command fails all the same.
-/

namespace TestAssembly.CommandLine

open Files Time

/-! ### Failures -/

/-- **Why a command failed.** -/
inductive CommandFailure where
  | catalog (path : Path) (cause : AssemblyError)
  | unreadExams (path : Path)
  | malformedExams (path : Path)
  | config (path : Path) (cause : AssemblyError)
  | unwrittenReport (path : Path)
  | failedExams (failed total : Nat)
  deriving DecidableEq, Repr

namespace CommandFailure

/-- The message of a failure, without its cause. -/
def message : CommandFailure → String
  | catalog path _ => "Failed to load catalog from " ++ path.text
  | unreadExams path => "Failed to read exams from " ++ path.text
  | malformedExams path => "Failed to parse exams from " ++ path.text
  | config path _ => "Failed to load config from " ++ path.text
  | unwrittenReport path => "Failed to write report to " ++ path.text
  | failedExams failed total =>
      String.ofList (Text.decimal failed) ++ " of " ++ String.ofList (Text.decimal total)
        ++ " exams failed to assemble"

/-- The cause of a failure, where it is one of the assembly. -/
def cause? : CommandFailure → Option AssemblyError
  | catalog _ cause | config _ cause => some cause
  | _ => none

end CommandFailure

/-! ### Commands -/

/-- **Surroundings** of a command. -/
structure Surroundings where
  read : Path → Except FileFault String
  /-- The directory in which the search for a configuration starts. -/
  directory : Path
  now : Instant
  /-- The seed for randomness when none is given. -/
  entropy : UInt64

/-- **Outcome** of a command: the text that it prints, the report that it wants written to a file,
and why it fails. -/
structure Outcome where
  printed : Option String := none
  report : Option (Path × String) := none
  failure : Option CommandFailure := none
  deriving DecidableEq, Repr

namespace Outcome

/-- The exit code. -/
def exitCode (outcome : Outcome) : UInt8 := if outcome.failure.isSome then 1 else 0

/-- The whole output, each printed text ending its line. -/
def output (outcome : Outcome) : String :=
  match outcome.printed with
  | some text => text.push '\n'
  | none => ""

/-- The outcome when the report could not be written. -/
def unwritten (outcome : Outcome) : Outcome :=
  match outcome.report with
  | some (path, _) => { outcome with failure := some (.unwrittenReport path) }
  | none => outcome

end Outcome

variable (around : Surroundings)

/-- **The configuration in force**: that of a path, or the nearest one. -/
def effectiveConfig (path : Option Path) : Except CommandFailure Config :=
  match path with
  | some path => (Config.load around.read path).mapError (.config path)
  | none => .ok (Config.nearest around.read around.directory)

/-- The content of a catalog file. -/
def loadCatalog (path : Path) : Except AssemblyError CatalogFile :=
  match around.read path with
  | .ok text => (Wire.catalogFile.ofText text).mapError .json
  | .error fault => .error (.io fault.message)

/-- The exams in a file. -/
def loadExams (path : Path) : Except CommandFailure (List Exam) :=
  match around.read path with
  | .ok text => (Wire.exam.list.ofText text).mapError fun _ => .malformedExams path
  | .error _ => .error (.unreadExams path)

/-- The report on the exams that arguments name, and how many exams there are. -/
def reportOf (arguments : AssembleArguments) : Except CommandFailure (Report × Nat) := do
  let catalog ← (loadCatalog around arguments.catalog).mapError (.catalog arguments.catalog)
  let exams ← loadExams around arguments.exams
  let config ← effectiveConfig around arguments.config
  let random := RandomSource.seeded (arguments.seed.getD around.entropy)
  let site := (Site.opened config around.now random).load catalog
  return ((assembleBatch site.environment exams .initial).1, exams.length)

/-- The outcome of a report on so many exams. -/
def deliver (output : Option Path) (report : Report) (exams : Nat) : Outcome :=
  let text := (Wire.report.encode report).pretty
  let failed := report.failures.length
  let failure := if failed = 0 then none else some (.failedExams failed exams)
  match output with
  | some path => { report := some (path, text), failure }
  | none => { printed := some text, failure }

/-- **Outcome of a command.** -/
def Command.run : Command → Outcome
  | .assemble arguments =>
    match reportOf around arguments with
    | .ok (report, exams) => deliver arguments.output report exams
    | .error failure => { failure := some failure }
  | .checkConfig path =>
    match effectiveConfig around path with
    | .ok config => { printed := some config.text }
    | .error failure => { failure := some failure }

/-- **Run a command in a directory of a file tree**, which ends up with the report. -/
def Command.runIn (tree : FileTree) (directory : List String) (now : Instant) (entropy : UInt64)
    (command : Command) : Outcome × FileTree :=
  let outcome := command.run
    { read := tree.read directory
      directory := ⟨.root, directory⟩
      now, entropy }
  match outcome.report with
  | none => (outcome, tree)
  | some (path, text) =>
    match tree.write directory path text with
    | .ok tree => (outcome, tree)
    | .error _ => (outcome.unwritten, tree)

end TestAssembly.CommandLine
