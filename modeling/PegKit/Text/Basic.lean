/-! Characters and texts: kinds of characters, each given by its runs in the order of the
characters, characters given by their number, and places counted in bytes. -/

namespace PegKit.Text

/-- Whether `c` lies in one of some runs, each given by its first and its last character. -/
def inRanges (ranges : List (Nat × Nat)) (c : Char) : Bool :=
  ranges.any fun (low, high) => low ≤ c.toNat && c.toNat ≤ high

-- The property White_Space of Unicode.
def spacingRanges : List (Nat × Nat) := [
  (0x9, 0xd), (0x20, 0x20), (0x85, 0x85), (0xa0, 0xa0), (0x1680, 0x1680), (0x2000, 0x200a),
  (0x2028, 0x2029), (0x202f, 0x202f), (0x205f, 0x205f), (0x3000, 0x3000)]

def isSpacing (c : Char) : Bool := inRanges spacingRanges c

def trim (text : List Char) : List Char :=
  ((text.dropWhile isSpacing).reverse.dropWhile isSpacing).reverse

def hexDigit? (c : Char) : Option Nat :=
  if '0' ≤ c && c ≤ '9' then some (c.toNat - '0'.toNat)
  else if 'a' ≤ c && c ≤ 'f' then some (c.toNat - 'a'.toNat + 10)
  else if 'A' ≤ c && c ≤ 'F' then some (c.toNat - 'A'.toNat + 10)
  else none

/-- The character with a number in hexadecimal; there is none for half of a surrogate pair. -/
def numberedChar? (digits : List Char) : Option Char := do
  let n ← digits.foldlM (fun n c => do return 16 * n + (← hexDigit? c)) 0
  if n.isValidChar then some (Char.ofNat n) else none

/-- The text before byte `n` and the text from there on. The place has to lie between two
characters, or at one of the ends. -/
def splitAtByte? : Nat → List Char → Option (List Char × List Char)
  | 0, text => some ([], text)
  | _ + 1, [] => none
  | n + 1, c :: text =>
    if c.utf8Size ≤ n + 1 then
      (splitAtByte? (n + 1 - c.utf8Size) text).map fun (before, behind) => (c :: before, behind)
    else none

def between? (start stop : Nat) (text : List Char) : Option (List Char) := do
  let (before, _) ← splitAtByte? stop text
  let (_, part) ← splitAtByte? start before
  return part

end PegKit.Text
