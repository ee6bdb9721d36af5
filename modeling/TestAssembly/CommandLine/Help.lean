import TestAssembly.CommandLine.Arguments

/-!
# Help

What the command line says about itself, and about arguments that are no command.
-/

namespace TestAssembly.CommandLine

/-- The name and version of the program. -/
def versionText : String := "exam-assembly 0.4.1"

/-- How the program is used. -/
def helpText : String :=
  "Assemble test segments and seed field-test items\n\n"
    ++ "Usage: exam-assembly <COMMAND>\n\n"
    ++ "Commands:\n"
    ++ "  assemble      Assemble segments for every exam in a batch\n"
    ++ "  check-config  Print the effective configuration\n"
    ++ "  help          Print this message\n\n"
    ++ "Options of both commands:\n"
    ++ "  -c, --config <CONFIG>    Configuration file (defaults to the nearest one)\n"
    ++ "  -h, --help               Print help\n\n"
    ++ "Options of assemble:\n"
    ++ "      --catalog <CATALOG>  Assessments, accommodations and field-test history\n"
    ++ "      --exams <EXAMS>      List of exams to assemble\n"
    ++ "      --seed <SEED>        Seed for reproducible field-test positions\n"
    ++ "  -o, --output <OUTPUT>    File for the report (defaults to standard output)\n"
    ++ "  -v, --verbose            More detail, also repeated\n"

/-- What is wrong with arguments. -/
def Usage.complaint : Usage → String
  | help | version => ""
  | noCommand => "a command is required"
  | unknownCommand => "unrecognized command"
  | unknownArgument => "unexpected argument"
  | missingOption => "a required option is missing"
  | invalidValue => "an option has no value"
  | invalidSeed => "the seed is no unsigned 64-bit number"
  | repeatedOption => "an option is given more than once"
  | superfluousValue => "a switch takes no value"

/-- **What is said to arguments that are no command.** -/
def Usage.text : Usage → String
  | help => helpText
  | version => versionText ++ "\n"
  | noCommand => helpText
  | usage => "error: " ++ usage.complaint ++ "\n\n" ++ helpText

end TestAssembly.CommandLine
