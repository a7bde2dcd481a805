import PegKit.Settings.Value
import PegKit.LexicalRules

/-! Reading settings into records. A reader refuses a value of another shape and says what it
expected. A record is a table with known keys; a list can stand for it and gives its fields in
order. Entries are looked at in the order of the document, so the first one at fault is reported;
fields that are missing are looked for last. -/

namespace PegKit

inductive SettingError where
  | wrongType (found : Value) (expected : String)
  | wrongValue (found : Value) (expected : String)
  | missingField (name : String)
  | unknownField (name : String) (known : List String)
  | wrongLength (length : Nat) (expected : String)
deriving Repr

def oneOf : List String → String
  | [] => "there are no fields"
  | [a] => "expected `" ++ a ++ "`"
  | [a, b] => "expected `" ++ a ++ "` or `" ++ b ++ "`"
  | names =>
    "expected one of " ++ String.intercalate ", " (names.map fun n => "`" ++ n ++ "`")

def SettingError.message : SettingError → String
  | wrongType found expected =>
    "invalid type: " ++ found.describe ++ ", expected " ++ expected
  | wrongValue found expected =>
    "invalid value: " ++ found.describe ++ ", expected " ++ expected
  | missingField name => "missing field `" ++ name ++ "`"
  | unknownField name known => "unknown field `" ++ name ++ "`, " ++ oneOf known
  | wrongLength length expected =>
    "invalid length " ++ toString length ++ ", expected " ++ expected

/-- The formats differ on a list that stands for a record and has items to spare: one refuses it,
the other ignores them. -/
inductive Surplus where
  | refused
  | ignored
deriving DecidableEq, Repr

namespace Settings

def boolean : Value → Except SettingError Bool
  | .boolean b => .ok b
  | v => .error (.wrongType v "a boolean")

def text : Value → Except SettingError String
  | .text s => .ok s
  | v => .error (.wrongType v "a string")

def path : Value → Except SettingError String
  | .text s => .ok s
  | v => .error (.wrongType v "path string")

def character : Value → Except SettingError Char
  | .text s =>
    match s.toList with
    | [c] => .ok c
    | _ => .error (.wrongValue (.text s) "a character")
  | v => .error (.wrongType v "a character")

def list (item : Value → Except SettingError α) : Value → Except SettingError (List α)
  | .list items => items.mapM item
  | v => .error (.wrongType v "a sequence")

/-- Null stands for no value. -/
def optional (reader : Value → Except SettingError α) : Value → Except SettingError (Option α)
  | .null => .ok none
  | v => some <$> reader v

/-- A field of a record: its key, how a value under the key is read, and where it is put. -/
structure Field (α : Type) where
  name : String
  Item : Type
  read : Value → Except SettingError Item
  set : α → Item → α

structure Record (α : Type) where
  name : String
  fields : List (Field α)
  start : α
  /-- Whether a key that is no field is refused. Otherwise it is left alone. -/
  strict : Bool

namespace Record

def names (d : Record α) : List String := d.fields.map Field.name

def assign (d : Record α) (r : α) (e : String × Value) : Except SettingError α :=
  match d.fields.find? (·.name == e.1) with
  | some f => f.set r <$> f.read e.2
  | none => if d.strict then .error (.unknownField e.1 d.names) else .ok r

def entries (d : Record α) : Value → Except SettingError (List (String × Value))
  | .table entries => .ok entries
  | .list items => .ok (d.names.zip items)
  | v => .error (.wrongType v ("struct " ++ d.name))

def fill (d : Record α) (v : Value) : Except SettingError α := do
  (← d.entries v).foldlM d.assign d.start

def checkSurplus (d : Record α) (surplus : Surplus) : Value → Except SettingError Unit
  | .list items =>
    if surplus = .refused ∧ d.fields.length < items.length then
      .error (.wrongLength items.length "fewer elements in array")
    else .ok ()
  | _ => .ok ()

/-- The record that a value describes, where every field has a default. -/
def ofValue (d : Record α) (surplus : Surplus) (v : Value) : Except SettingError α := do
  let r ← d.fill v
  d.checkSurplus surplus v
  .ok r

end Record

end Settings

namespace BlockComment

def draft : Settings.Record (Option String × Option String) where
  name := "BlockComment"
  fields := [⟨"open", String, Settings.text, fun b s => (some s, b.2)⟩,
    ⟨"close", String, Settings.text, fun b s => (b.1, some s)⟩]
  start := (none, none)
  strict := false

def missing (name : String) : Value → SettingError
  | .list items => .wrongLength items.length "struct BlockComment with 2 elements"
  | _ => .missingField name

-- neither text has a default, so what is missing is looked for before what is too much
def ofValue (surplus : Surplus) (v : Value) : Except SettingError BlockComment := do
  match ← draft.fill v with
  | (some opening, some closing) =>
    draft.checkSurplus surplus v
    .ok ⟨opening, closing⟩
  | (none, _) => .error (missing "open" v)
  | (_, none) => .error (missing "close" v)

end BlockComment

namespace LexicalRules

def record (surplus : Surplus) : Settings.Record LexicalRules where
  name := "LexicalRules"
  fields := [
    ⟨"line_comments", _, Settings.list Settings.text, fun r x => { r with lineComments := x }⟩,
    ⟨"block_comments", _, Settings.list (BlockComment.ofValue surplus),
      fun r x => { r with blockComments := x }⟩,
    ⟨"string_delimiters", _, Settings.list Settings.character,
      fun r x => { r with stringDelimiters := x }⟩,
    ⟨"escape", _, Settings.optional Settings.character,
      fun r x => { r with escape := x }⟩]
  start := standard
  strict := false

def ofValue (surplus : Surplus) (v : Value) : Except SettingError LexicalRules :=
  (record surplus).ofValue surplus v

end LexicalRules

end PegKit
