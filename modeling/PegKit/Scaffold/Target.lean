/-! The languages that a scaffold can be written in. Each is known by one identifier, and only
that spelling is accepted. -/

namespace PegKit

inductive Target where
  | nim
  | rust
deriving DecidableEq, Repr, Inhabited

namespace Target

def all : List Target := [nim, rust]

def id : Target → String
  | nim => "nim"
  | rust => "rust"

/-- The usual extension of a file that holds a program in the language. -/
def fileExtension : Target → String
  | nim => "nim"
  | rust => "rs"

def ofId? (name : String) : Option Target :=
  all.find? (·.id == name)

def supported : String :=
  String.intercalate ", " (all.map id)

theorem ofId?_id (t : Target) : ofId? t.id = some t := by
  cases t <;> decide

end Target

end PegKit
