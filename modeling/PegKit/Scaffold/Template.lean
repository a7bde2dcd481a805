import PegKit.Scaffold.Target
import PegKit.Text.Literal

/-! The text of a scaffold: a program that holds the grammar, names the rule to start from, and
runs the parser on a sample. The grammar goes in unchanged, or as a literal that reads back to
it. Only its first line takes the indentation of the block that it stands in. -/

namespace PegKit

structure ScaffoldInput where
  grammar : String
  file : String
  entry : String
deriving DecidableEq, Repr

/-- A file identifier as it stands in a line comment: line breaks become spaces. -/
def provenance (file : String) : String :=
  String.ofList (file.toList.map fun c => if c = '\r' || c = '\n' then ' ' else c)

def nimTail : String :=
  "\n\n# Example usage\n" ++
  "let input = \"your input here\"\n" ++
  "let result = parser.match(input)\n\n" ++
  "if result.ok:\n" ++
  "  echo \"Parsing succeeded!\"\n" ++
  "  if result.captures.len > 0:\n" ++
  "    echo \"Captures: \", result.captures\n" ++
  "else:\n" ++
  "  echo \"Parsing failed at position \", result.matchMax\n"

def nimProgram (s : ScaffoldInput) : String :=
  "import npeg, strutils\n\nlet parser = peg \"" ++ s.entry ++ "\":\n" ++
  "  # Grammar generated from " ++ provenance s.file ++ "\n" ++
  "  " ++ s.grammar ++ nimTail

/-- The part of the Rust program behind the entry rule: a parser to be filled in, and a main
function that runs it. -/
def rustTail : String :=
  " ;\n\n" ++
  "fn parse (grammar : & str , entry_rule : & str , input : & str)" ++
  " -> Result < Vec < String > , usize >" ++
  " \x7b let _ = (grammar , entry_rule , input) ; Err (0) \x7d\n\n" ++
  "fn main () -> std :: process :: ExitCode \x7b let input = \"your input here\" ;" ++
  " match parse (GRAMMAR , ENTRY_RULE , input) \x7b" ++
  " Ok (captures) => \x7b println ! (\"Parsing succeeded!\") ;" ++
  " if ! captures . is_empty () \x7b println ! (\"Captures: \x7b:?\x7d\" , captures) ; \x7d" ++
  " std :: process :: ExitCode :: SUCCESS \x7d" ++
  " Err (position) => \x7b println ! (\"Parsing failed at position \x7b\x7d\" , position) ;" ++
  " std :: process :: ExitCode :: FAILURE \x7d \x7d \x7d\n"

def rustProgram (s : ScaffoldInput) : String :=
  "// Scaffold generated from " ++ provenance s.file ++ "\n" ++
  "// Replace the body of `parse` with a call into a PEG runtime.\n\n" ++
  "const GRAMMAR: &str = " ++ Text.literal s.grammar ++ ";\n\n" ++
  "const ENTRY_RULE : & str = " ++ Text.escapedLiteral s.entry ++ rustTail

def Target.render (t : Target) (s : ScaffoldInput) : String :=
  match t with
  | nim => nimProgram s
  | rust => rustProgram s

end PegKit
