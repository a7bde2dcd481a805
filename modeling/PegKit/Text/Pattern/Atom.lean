import PegKit.Text.Basic

/-! The smallest parts of regular expressions: characters, escapes, anchors. A reader takes the
characters that are left and gives what it read with the rest behind it. In a spaced pattern blanks
and comments may stand between the parts. -/

namespace PegKit.Text

/-! Blanks and comments. -/

/-- A text without the blanks and comments in front of it; the flag says whether a comment has
begun, which ends with its line. -/
def withoutSpacing : Bool → List Char → List Char
  | _, [] => []
  | true, c :: rest => withoutSpacing (c ≠ '\n') rest
  | false, c :: rest =>
    if isSpacing c then withoutSpacing false rest
    else if c = '#' then withoutSpacing true rest
    else c :: rest

theorem length_withoutSpacing_le (inComment : Bool) (text : List Char) :
    (withoutSpacing inComment text).length ≤ text.length := by
  induction text generalizing inComment with
  | nil => cases inComment <;> simp [withoutSpacing]
  | cons c rest ih =>
    cases inComment with
    | true => exact Nat.le_succ_of_le (ih _)
    | false =>
      unfold withoutSpacing
      split
      · exact Nat.le_succ_of_le (ih _)
      · split
        · exact Nat.le_succ_of_le (ih _)
        · exact Nat.le_refl _

def skip (spaced : Bool) (text : List Char) : List Char :=
  if spaced then withoutSpacing false text else text

theorem length_skip_le (spaced : Bool) (text : List Char) :
    (skip spaced text).length ≤ text.length := by
  unfold skip
  split
  · exact length_withoutSpacing_le _ _
  · exact Nat.le_refl _

/-- The character that is seen ahead. In a spaced pattern this looks past blanks and one number
sign, but not past the comment that it begins; if there is nothing else, a blank is seen. -/
def ahead (spaced : Bool) (text : List Char) : Option Char :=
  if spaced then
    let next := text.dropWhile isSpacing
    let behind := if next.head? = some '#' then next.tail.dropWhile isSpacing else next
    behind.head?.or text.head?
  else text.head?

/-! Settings. -/

structure Settings where
  on : List Char
  off : List Char
deriving DecidableEq, Repr

def Settings.state? (s : Settings) (letter : Char) : Option Bool :=
  if s.on.contains letter then some true
  else if s.off.contains letter then some false
  else none

structure Mode where
  ignoresCase : Bool
  /-- Whether the pattern is about characters, not bytes. -/
  unicode : Bool
deriving DecidableEq, Repr

namespace Mode

def standard : Mode := ⟨false, true⟩

def set (m : Mode) (s : Settings) : Mode :=
  ⟨(s.state? 'i').getD m.ignoresCase, (s.state? 'u').getD m.unicode⟩

end Mode

/-! Atoms. -/

structure Literal where
  char : Char
  asByte : Bool
deriving DecidableEq, Repr

inductive Atom where
  | literal (l : Literal)
  | anyCharacter
  | letterClass (negated : Bool)
  | anchor
  | boundary
deriving DecidableEq, Repr

/-- Whether an atom means something in a mode. No tables of characters stand behind patterns, so
letter classes, words and letters without regard to case are about bytes only, and nothing may
match a byte that is no character by itself. -/
def Atom.fits (m : Mode) : Atom → Bool
  | literal l => if m.unicode then !m.ignoresCase else !l.asByte || l.char.toNat < 128
  | anyCharacter => m.unicode
  | letterClass negated => !m.unicode && !negated
  | anchor => true
  | boundary => !m.unicode

def hexDigits? (spaced : Bool) : Nat → List Char → Option (List Char × List Char)
  | 0, text => some ([], text)
  | n + 1, text =>
    match skip spaced text with
    | [] => none
    | c :: rest =>
      if (hexDigit? c).isSome then
        (hexDigits? spaced n rest).map fun (digits, rest) => (c :: digits, rest)
      else none

def numberedLiteral? (spaced asByte : Bool) (count : Nat) (text : List Char) :
    Option (Atom × List Char) := do
  let (digits, rest) ← hexDigits? spaced count text
  return (.literal ⟨← numberedChar? digits, asByte⟩, rest)

def controls : List (Char × Char) :=
  [('a', '\x07'), ('f', '\x0c'), ('n', '\n'), ('r', '\r'), ('t', '\t'), ('v', '\x0b')]

/-- What stands behind a backslash. References to groups and properties of characters are not
taken. -/
def escape? (spaced : Bool) : List Char → Option (Atom × List Char)
  | [] => none
  | 'x' :: rest => numberedLiteral? spaced true 2 rest
  | 'u' :: rest => numberedLiteral? spaced false 4 rest
  | 'U' :: rest => numberedLiteral? spaced false 8 rest
  | c :: rest =>
    let atom? : Option Atom :=
      if ['d', 's', 'w'].contains c then some (.letterClass false)
      else if ['D', 'S', 'W'].contains c then some (.letterClass true)
      else if ['A', 'z'].contains c then some .anchor
      else if ['b', 'B', '<', '>'].contains c then some .boundary
      else
        match controls.lookup c with
        | some control => some (.literal ⟨control, false⟩)
        | none => if c.isAlphanum || 128 ≤ c.toNat then none else some (.literal ⟨c, false⟩)
    atom?.map (·, rest)

end PegKit.Text
