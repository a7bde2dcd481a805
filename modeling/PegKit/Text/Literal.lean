import PegKit.Text.Quoted

/-! String literals of a generated program. A raw literal holds its text unchanged between guards
of number signs, long enough that nothing in the text can close it early. A text with a carriage
return has no raw literal, so it is written with escapes. -/

namespace PegKit.Text

def isOctalDigit (c : Char) : Bool := '0' ≤ c && c ≤ '7'

/-- The inside of a literal with escapes. A null character before an octal digit is written with
two hexadecimal digits, so that no reader takes the digit for part of the escape. -/
def escapedBody : List Char → List Char
  | [] => []
  | c :: rest =>
    (if c = '\x00' && rest.head?.any isOctalDigit then ['\\', 'x', '0', '0'] else escaped c)
      ++ escapedBody rest

def escapedLiteral (s : String) : String :=
  "\"" ++ String.ofList (escapedBody s.toList) ++ "\""

def closesGuard (n : Nat) : List Char → Bool
  | [] => false
  | c :: rest => (c == '"' && (List.replicate n '#').isPrefixOf rest) || closesGuard n rest

theorem lt_length_of_closesGuard {n : Nat} {text : List Char} (h : closesGuard n text = true) :
    n < text.length := by
  induction text with
  | nil => simp [closesGuard] at h
  | cons c rest ih =>
    simp only [closesGuard, Bool.or_eq_true, Bool.and_eq_true, List.isPrefixOf_iff_prefix] at h
    rcases h with ⟨_, h⟩ | h
    · have := h.length_le
      simp at this ⊢
      omega
    · have := ih h
      simp
      omega

/-- The least length from `n` on of a guard that nothing in the text closes. -/
def leastGuard (text : List Char) (n : Nat) : Nat :=
  if closesGuard n text then leastGuard text (n + 1) else n
termination_by text.length - n
decreasing_by
  rename_i h
  have := lt_length_of_closesGuard h
  omega

def rawLiteral (s : String) : String :=
  let guard := String.ofList (List.replicate (leastGuard s.toList 1) '#')
  "r" ++ guard ++ "\"" ++ s ++ "\"" ++ guard

/-- The literal that gives back `s`, raw wherever that is possible. -/
def literal (s : String) : String :=
  if s.toList.contains '\r' then escapedLiteral s else rawLiteral s

end PegKit.Text
