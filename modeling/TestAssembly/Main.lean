import Std.Time.DateTime.Timestamp
import TestAssembly.CommandLine.Help
import TestAssembly.CommandLine.Run

/-!
# The program

The program reads its arguments, the files that its command may look at, the clock and a random
seed, runs the command, and then prints, writes the report and exits. Everything in between is
`Command.run`.
-/

namespace TestAssembly.CommandLine

open Files

/-- The fault that a failure of the file system stands for. -/
def faultOf : IO.Error → FileFault
  | .noFileOrDirectory .. => .notFound
  | e => .other (toString e)

/-- The text of a file. -/
def readText (path : Path) : IO (Except FileFault String) := do
  try
    match String.fromUTF8? (← IO.FS.readBinFile path.text) with
    | some text => return .ok text
    | none => return .error .notText
  catch e => return .error (faultOf e)

/-- The files that a command may look at. -/
def Command.paths (directory : Path) : Command → List Path
  | .assemble arguments =>
    arguments.catalog :: arguments.exams
      :: (arguments.config.map ([·])).getD (Config.candidates directory)
  | .checkConfig config => (config.map ([·])).getD (Config.candidates directory)

/-- What reading each of some files comes to. -/
def readAll (paths : List Path) : IO (List (Path × Except FileFault String)) :=
  paths.mapM fun path => do return (path, ← readText path)

/-- The present time. -/
def presentTime : IO Time.Instant := do
  let now ← Std.Time.Timestamp.now
  let sinceEpoch := now.toNanosecondsSinceUnixEpoch.toInt
  let nanos := (sinceEpoch % Time.nanosPerSecond).toNat
  if h : nanos < 2 * Time.nanosPerSecond then
    return ⟨sinceEpoch / Time.nanosPerSecond, nanos, h⟩
  else return default

/-- A seed that differs from run to run. -/
def randomSeed : IO UInt64 := do
  let bytes ← IO.getRandomBytes 8
  return bytes.toList.foldl (fun seed byte => seed * 256 + byte.toUInt64) 0

/-- The surroundings of a command. -/
def surroundings (command : Command) : IO Surroundings := do
  let directory := Path.ofText (← IO.currentDir).toString
  let files ← readAll (command.paths directory)
  return {
    read := fun path => ((files.find? (·.1 = path)).map Prod.snd).getD (.error .notFound)
    directory
    now := ← presentTime
    entropy := ← randomSeed }

/-- Write the report of an outcome, if there is one. -/
def writeReport (outcome : Outcome) : IO Outcome := do
  match outcome.report with
  | none => return outcome
  | some (path, text) =>
    try
      IO.FS.writeFile path.text text
      return outcome
    catch _ => return outcome.unwritten

/-- Run a command, print what it has to say, and give the exit code. -/
def perform (command : Command) : IO UInt32 := do
  let outcome ← writeReport (command.run (← surroundings command))
  IO.print outcome.output
  if let some failure := outcome.failure then
    IO.eprintln ("Error: " ++ failure.message)
    if let some cause := failure.cause? then
      IO.eprintln ("\nCaused by:\n    " ++ cause.message)
  return outcome.exitCode.toUInt32

end TestAssembly.CommandLine

open TestAssembly.CommandLine in
/-- The command line. -/
def main (arguments : List String) : IO UInt32 := do
  match Command.parse (← IO.getEnv "EXAM_ASSEMBLY_CONFIG") arguments with
  | .ok command => perform command
  | .error usage =>
    if usage.isError then IO.eprint usage.text else IO.print usage.text
    return usage.exitCode.toUInt32
