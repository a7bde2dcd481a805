import PegKit.Toml.Datum

/-! Building the tables of a TOML document. A table may be opened by a header only once, but a
header for a table inside it, or a dotted key, makes it exist before. A table made by dotted keys
takes more dotted keys and no header; one made by a header takes no dotted keys from outside. -/

namespace PegKit.Toml

inductive Origin where
  | header
  | implied
  | dotted
deriving DecidableEq, Repr

inductive Node where
  /-- A value that is complete: nothing can be added to it. -/
  | leaf (d : Datum)
  | table (origin : Origin) (entries : List (String × Node))
  /-- An array of tables: those complete, and the last one, which is still open. -/
  | tables (earlier : List (List (String × Node))) (last : List (String × Node))
deriving Inhabited

abbrev Entries := List (String × Node)

def lookup (key : String) (es : Entries) : Option Node :=
  (es.find? (·.1 == key)).map (·.2)

def replace (key : String) (n : Node) (es : Entries) : Entries :=
  es.map fun e => if e.1 == key then (key, n) else e

def remove (key : String) (es : Entries) : Entries :=
  es.filter (·.1 != key)

/-- Sets a key that is not set yet, below the tables on `path`. The flag says whether a key may be
set in the table at hand: not in one that no dotted key made. -/
def assign (key : String) (d : Datum) : Bool → List String → Entries → Option Entries
  | open?, [], es => if open? && (lookup key es).isNone then some (es ++ [(key, .leaf d)]) else none
  | _, k :: path, es =>
    match lookup k es with
    | none => do
      let sub ← assign key d true path []
      return es ++ [(k, .table .dotted sub)]
    | some (.table origin sub) =>
      if origin = .header then none
      else do
        let sub ← assign key d (origin = .dotted) path sub
        return replace k (.table origin sub) es
    | some (.tables earlier last) => do
      let last ← assign key d false path last
      return replace k (.tables earlier last) es
    | some (.leaf _) => none

inductive HeaderKind where
  | table
  | arrayItem
deriving DecidableEq, Repr

/-- Opens the table of a header in `es`, filled by `fill`. A table that was only implied before
moves to the end. -/
def openHere (kind : HeaderKind) (key : String) (fill : Entries → Option Entries) (es : Entries) :
    Option Entries :=
  match kind, lookup key es with
  | .table, none => do return es ++ [(key, .table .header (← fill []))]
  | .table, some (.table .implied sub) => do
    return remove key es ++ [(key, .table .header (← fill sub))]
  | .arrayItem, none => do return es ++ [(key, .tables [] (← fill []))]
  | .arrayItem, some (.tables earlier last) => do
    return replace key (.tables (earlier ++ [last]) (← fill [])) es
  | _, _ => none

def openTable (kind : HeaderKind) (key : String) (fill : Entries → Option Entries) :
    List String → Entries → Option Entries
  | [], es => openHere kind key fill es
  | k :: path, es =>
    match lookup k es with
    | none => do
      let sub ← openTable kind key fill path []
      return es ++ [(k, .table .implied sub)]
    | some (.table origin sub) => do
      let sub ← openTable kind key fill path sub
      return replace k (.table origin sub) es
    | some (.tables earlier last) => do
      let last ← openTable kind key fill path last
      return replace k (.tables earlier last) es
    | some (.leaf _) => none

mutual

def Node.datum : Node → Datum
  | .leaf d => d
  | .table _ es => .table (finished es)
  | .tables earlier last => .list (finishedTables earlier ++ [.table (finished last)])

def finished : List (String × Node) → List (String × Datum)
  | [] => []
  | (k, n) :: es => (k, n.datum) :: finished es

def finishedTables : List (List (String × Node)) → List Datum
  | [] => []
  | es :: rest => .table (finished es) :: finishedTables rest

end

/-- A key: the names before the last dot, and the name behind it. -/
structure Key where
  parents : List String
  name : String
deriving DecidableEq, Repr

def assignAll (pairs : List (Key × Datum)) (es : Entries) : Option Entries :=
  pairs.foldlM (fun es (k, d) => assign k.name d true k.parents es) es

end PegKit.Toml
