import TestAssembly.Toml.Quoted

/-!
# Writing TOML documents

The parts of a document in the layout that is easiest to read: a heading, an entry on each line,
and an empty line between two sections. An array with more than one element has each element on a
line of its own, indented by four blanks and followed by a comma.
-/

namespace TestAssembly.Toml

open Text

/-- A truth value. -/
def writeBoolean (b : Bool) : List Char := if b then "true".toList else "false".toList

/-- An array of values that are already written. -/
def writeArray : List (List Char) → List Char
  | [] => "[]".toList
  | [element] => '[' :: element ++ [']']
  | elements =>
    '[' :: '\n' :: elements.flatMap (fun element => "    ".toList ++ element ++ [',', '\n'])
      ++ [']']

/-- **Section**: a heading and entries, all names being bare. -/
def writeSection (heading : String) (entries : List (String × List Char)) : List Char :=
  '[' :: heading.toList ++ [']', '\n']
    ++ entries.flatMap fun entry => entry.1.toList ++ " = ".toList ++ entry.2 ++ ['\n']

/-- **Document** of sections. -/
def writeDocument (sections : List (List Char)) : List Char :=
  List.intercalate ['\n'] sections

end TestAssembly.Toml
