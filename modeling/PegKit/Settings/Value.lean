import PegKit.Text.Quoted

/-! Values of a settings document, whatever its format: scalars, lists, and tables with their keys
in the order of the document. -/

namespace PegKit

inductive Value where
  | null
  | boolean (b : Bool)
  | integer (n : Int)
  /-- A number with a fraction, as messages write it. -/
  | float (shown : String)
  | text (s : String)
  | list (items : List Value)
  | table (entries : List (String × Value))
deriving Repr, Inhabited

def Value.describe : Value → String
  | null => "null"
  | boolean b => "boolean `" ++ (if b then "true" else "false") ++ "`"
  | integer n => "integer `" ++ toString n ++ "`"
  | float shown => "floating point `" ++ shown ++ "`"
  | text s => "string " ++ Text.quoted s
  | list _ => "sequence"
  | table _ => "map"

end PegKit
