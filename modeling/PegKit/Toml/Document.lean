import PegKit.Toml.Scalar
import PegKit.Toml.Table

/-! TOML documents. Arrays and inline tables may be nested, and keys dotted, up to a fixed depth;
so reading a value recurses on the depth that is left, and every list inside it on the characters
that are left. -/

namespace PegKit.Toml

def nestingLimit : Nat := 80

def isBareKeyChar (c : Char) : Bool := c.isAlphanum || c == '_' || c == '-'

/-- One name of a key: bare, or a string in quotes on one line. -/
def keyName : Reader String
  | '"' :: rest => (basicString rest).map fun (s, rest) => (String.ofList s, rest)
  | '\'' :: rest => (literalString rest).map fun (s, rest) => (String.ofList s, rest)
  | cs =>
    match cs.takeWhile isBareKeyChar with
    | [] => none
    | name => some (String.ofList name, cs.drop name.length)

def dottedNames : Nat → Reader (List String)
  | 0, _ => none
  | fuel + 1, cs => do
    let (name, cs) ← keyName (skipSpaces cs)
    match skipSpaces cs with
    | '.' :: cs =>
      let (names, cs) ← dottedNames fuel cs
      return (name :: names, cs)
    | cs => return ([name], cs)

def key : Reader Key := fun cs => do
  let (names, cs) ← dottedNames (nestingLimit - 1) cs
  return (⟨names.dropLast, names.getLast?.getD ""⟩, cs)

/-- The items of an array, behind its opening bracket. A comma may follow the last one. -/
def items (value : Reader Datum) : Nat → Reader (List Datum)
  | 0, _ => none
  | fuel + 1, cs =>
    match skipLayout false cs with
    | ']' :: rest => some ([], rest)
    | cs => do
      let (d, cs) ← value cs
      match skipLayout false cs with
      | ',' :: cs =>
        let (ds, rest) ← items value fuel cs
        return (d :: ds, rest)
      | ']' :: rest => return ([d], rest)
      | _ => none

def pair (value : Reader Datum) : Reader (Key × Datum) := fun cs => do
  let (k, cs) ← key cs
  let cs ← exactly ['='] cs
  let (d, cs) ← value (skipSpaces cs)
  return ((k, d), skipSpaces cs)

/-- The pairs of an inline table that has any. No comma follows the last one. -/
def pairs (value : Reader Datum) : Nat → Reader (List (Key × Datum))
  | 0, _ => none
  | fuel + 1, cs => do
    let (p, cs) ← pair value cs
    match cs with
    | ',' :: cs =>
      let (ps, rest) ← pairs value fuel cs
      return (p :: ps, rest)
    | '\x7d' :: rest => return ([p], rest)
    | _ => none

def inlineTable (value : Reader Datum) : Reader Datum := fun cs =>
  match skipSpaces cs with
  | '\x7d' :: rest => some (.table [], rest)
  | cs => do
    let (ps, rest) ← pairs value cs.length cs
    let es ← assignAll ps []
    return (.table (finished es), rest)

/-- A value with at most `depth` arrays and inline tables around one another. -/
def value : Nat → Reader Datum
  | _, [] => none
  | 0, cs => scalar cs
  | depth + 1, c :: cs =>
    if c = '[' then
      (items (value depth) (cs.length + 1) cs).map fun (ds, rest) => (.list ds, rest)
    else if c = '\x7b' then inlineTable (value depth) cs
    else scalar (c :: cs)

inductive Statement where
  | header (kind : HeaderKind) (key : Key)
  | assignment (key : Key) (d : Datum)

def header : Reader Statement
  | '[' :: '[' :: cs => do
    let (k, cs) ← key cs
    let cs ← exactly [']', ']'] cs
    return (.header .arrayItem k, cs)
  | '[' :: cs => do
    let (k, cs) ← key cs
    let cs ← exactly [']'] cs
    return (.header .table k, cs)
  | _ => none

def statement : Reader Statement
  | '[' :: cs => header ('[' :: cs)
  | cs => (pair (value (nestingLimit - 1)) cs).map fun ((k, d), cs) => (.assignment k d, cs)

def statements : Nat → List Char → Option (List Statement)
  | 0, _ => none
  | fuel + 1, cs =>
    match skipSpaces cs with
    | [] => some []
    | '\n' :: cs => statements fuel cs
    | '\r' :: '\n' :: cs => statements fuel cs
    | '#' :: cs => (lineEnd? ('#' :: cs)).bind (statements fuel)
    | cs => do
      let (s, cs) ← statement cs
      let cs ← lineEnd? cs
      return s :: (← statements fuel cs)

def section? : List Statement → List (Key × Datum) × List Statement
  | .assignment k d :: rest =>
    let (ps, rest) := section? rest
    ((k, d) :: ps, rest)
  | rest => ([], rest)

theorem section?_length (ss : List Statement) : (section? ss).2.length ≤ ss.length := by
  induction ss with
  | nil => simp [section?]
  | cons s ss ih =>
    cases s with
    | header kind k => simp [section?]
    | assignment k d =>
      simp only [section?, List.length_cons]
      omega

/-- The tables that the headers of a document open, with what is assigned in each. -/
def openAll (ss : List Statement) (es : Entries) : Option Entries :=
  match ss with
  | [] => some es
  | .header kind k :: rest => do
    let body := section? rest
    let es ← openTable kind k.name (assignAll body.1) k.parents es
    openAll body.2 es
  | .assignment _ _ :: _ => none
termination_by ss.length
decreasing_by
  have := section?_length rest
  simp
  omega

/-- A document as a table, or nothing if the text is not well formed. A byte order mark at the
front does not count. -/
def parse (source : String) : Option (List (String × Datum)) := do
  let cs := match source.toList with
    | '\ufeff' :: cs => cs
    | cs => cs
  let ss ← statements (cs.length + 1) cs
  let top := section? ss
  let es ← assignAll top.1 []
  let es ← openAll top.2 es
  return finished es

end PegKit.Toml
