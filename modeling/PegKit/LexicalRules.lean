/-! The comment and string conventions of a grammar text. They are data, so that one scanner
serves every convention; an entry that could match the empty text is never used. -/

namespace PegKit

structure BlockComment where
  opening : String
  closing : String
deriving DecidableEq, Repr, Inhabited

structure LexicalRules where
  lineComments : List String
  blockComments : List BlockComment
  stringDelimiters : List Char
  escape : Option Char
deriving DecidableEq, Repr

namespace LexicalRules

/-- Number-sign comments, and strings in either quote with backslash escapes. -/
def standard : LexicalRules where
  lineComments := ["#"]
  blockComments := []
  stringDelimiters := ['"', '\'']
  escape := some '\\'

instance : Inhabited LexicalRules := ⟨standard⟩

end LexicalRules

end PegKit
