import PegKit.Settings.Value

/-! The values of a TOML document. There is no null among them. To settings, a date or a time is a
table with a single entry, and any other value is what it says. -/

namespace PegKit.Toml

inductive Datum where
  | boolean (b : Bool)
  | integer (n : Int)
  | float (shown : String)
  | text (s : String)
  /-- A date, a time, or both, as it is written. -/
  | moment (shown : String)
  | list (items : List Datum)
  | table (entries : List (String × Datum))
deriving Repr, Inhabited

/-- The key under which settings find a date or a time. -/
def momentKey : String := "$__toml_private_datetime"

mutual

def Datum.value : Datum → Value
  | .boolean b => .boolean b
  | .integer n => .integer n
  | .float shown => .float shown
  | .text s => .text s
  | .moment shown => .table [(momentKey, .text shown)]
  | .list items => .list (itemValues items)
  | .table entries => .table (entryValues entries)

def itemValues : List Datum → List Value
  | [] => []
  | d :: rest => d.value :: itemValues rest

def entryValues : List (String × Datum) → List (String × Value)
  | [] => []
  | (k, d) :: rest => (k, d.value) :: entryValues rest

end

theorem itemValues_eq_map (items : List Datum) : itemValues items = items.map Datum.value := by
  induction items with
  | nil => rfl
  | cons d rest ih => simp [itemValues, ih]

theorem entryValues_eq_map (entries : List (String × Datum)) :
    entryValues entries = entries.map fun e => (e.1, e.2.value) := by
  induction entries with
  | nil => rfl
  | cons e rest ih => simp [entryValues, ih]

end PegKit.Toml
