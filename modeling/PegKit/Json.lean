/-! Structured output: values with fields in a fixed order, written over several lines with two
spaces for each level. -/

namespace PegKit

inductive Json where
  | boolean (b : Bool)
  | number (n : Nat)
  | text (s : String)
  | array (items : List Json)
  | object (fields : List (String × Json))
deriving Inhabited

namespace Json

def hex4 (n : Nat) : List Char :=
  let ds := Nat.toDigits 16 n
  List.replicate (4 - ds.length) '0' ++ ds

/-- One character as it stands in a string: only quotes, backslashes and controls are escaped. -/
def escaped (c : Char) : List Char :=
  if c = '"' then ['\\', '"']
  else if c = '\\' then ['\\', '\\']
  else if c = '\x08' then ['\\', 'b']
  else if c = '\x0c' then ['\\', 'f']
  else if c = '\n' then ['\\', 'n']
  else if c = '\r' then ['\\', 'r']
  else if c = '\t' then ['\\', 't']
  else if c.toNat < 32 then ['\\', 'u'] ++ hex4 c.toNat
  else [c]

def quoted (s : String) : String :=
  "\"" ++ String.ofList (s.toList.flatMap escaped) ++ "\""

def newline (depth : Nat) : String :=
  "\n" ++ String.ofList (List.replicate (2 * depth) ' ')

/-- Parts on lines of their own between two marks; the marks alone if there are none. -/
def block (opening closing : String) (depth : Nat) (parts : List String) : String :=
  if parts.isEmpty then opening ++ closing
  else
    opening ++ newline (depth + 1) ++
      String.intercalate ("," ++ newline (depth + 1)) parts ++ newline depth ++ closing

mutual

/-- The value, where `depth` levels stand around it. -/
def render (depth : Nat) : Json → String
  | boolean b => if b then "true" else "false"
  | number n => toString n
  | text s => quoted s
  | array items => block "[" "]" depth (renderItems (depth + 1) items)
  | object fields => block "\x7b" "\x7d" depth (renderFields (depth + 1) fields)

def renderItems (depth : Nat) : List Json → List String
  | [] => []
  | j :: rest => render depth j :: renderItems depth rest

def renderFields (depth : Nat) : List (String × Json) → List String
  | [] => []
  | (name, j) :: rest => (quoted name ++ ": " ++ render depth j) :: renderFields depth rest

end

end Json

end PegKit
