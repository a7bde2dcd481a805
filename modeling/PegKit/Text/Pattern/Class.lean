import PegKit.Text.Pattern.Atom

/-! Bracket classes: members side by side, classes inside, and operations between all members on
the left and all on the right. -/

namespace PegKit.Text

inductive ClassSet where
  | nothing
  | literal (l : Literal)
  | range (low high : Literal)
  | named (negated : Bool)
  | letterClass (negated : Bool)
  | nested (negated : Bool) (s : ClassSet)
  | union (members : List ClassSet)
  /-- What both sides have, or only one of them. -/
  | operation (left right : ClassSet)

namespace ClassSet

mutual

/-- How deep classes lie in each other, where unions and operations count too. -/
def depth : ClassSet → Nat
  | nested _ s => s.depth + 1
  | union members => depths members + 1
  | operation left right => max left.depth right.depth + 1
  | _ => 0

def depths : List ClassSet → Nat
  | [] => 0
  | s :: members => max s.depth (depths members)

end

/-- Whether a character may be a member: a byte has to be a character by itself. -/
def literalFits (m : Mode) (l : Literal) : Bool :=
  if m.unicode then !m.ignoresCase else l.char.toNat < 128

mutual

/-- Whether a class means something in a mode. Among bytes none is negated, since it would hold
some that are no characters. -/
def fits (m : Mode) : ClassSet → Bool
  | nothing => true
  | literal l => literalFits m l
  | range low high => literalFits m low && literalFits m high
  | named negated => if m.unicode then !m.ignoresCase else !negated
  | letterClass negated => (Atom.letterClass negated).fits m
  | nested negated s => (m.unicode || !negated) && s.fits m
  | union members => allFit m members
  | operation left right => left.fits m && right.fits m

def allFit (m : Mode) : List ClassSet → Bool
  | [] => true
  | s :: members => s.fits m && allFit m members

end

def ofAtom? : Atom → Option ClassSet
  | .literal l => some (.literal l)
  | .letterClass negated => some (.letterClass negated)
  | _ => none

end ClassSet

/-! Reading. -/

def classNames : List String :=
  ["alnum", "alpha", "ascii", "blank", "cntrl", "digit", "graph", "lower", "print", "punct",
    "space", "upper", "word", "xdigit"]

def namedClass? : List Char → Option (Bool × List Char)
  | ':' :: text =>
    let negated := text.head? = some '^'
    let text := if negated then text.tail else text
    let name := text.takeWhile (· ≠ ':')
    match text.drop name.length with
    | ':' :: ']' :: rest =>
      if classNames.contains (String.ofList name) then some (negated, rest) else none
    | _ => none
  | _ => none

def classAtom? (spaced : Bool) : List Char → Option (Atom × List Char)
  | [] => none
  | '\\' :: rest => escape? spaced rest
  | c :: rest => some (.literal ⟨c, false⟩, rest)

/-- A range, or a member by itself. A hyphen in front of another or of the end of the class makes
no range. -/
def member? (spaced : Bool) (text : List Char) : Option (ClassSet × List Char) := do
  let (low, rest) ← classAtom? spaced text
  let rest := skip spaced rest
  let alone := (ClassSet.ofAtom? low).map (·, rest)
  match rest with
  | [] => none
  | '-' :: behind =>
    if [some ']', some '-'].contains (ahead spaced behind) then alone
    else
      let (high, rest) ← classAtom? spaced (skip spaced behind)
      match low, high with
      | .literal a, .literal b => if a.char ≤ b.char then some (.range a b, rest) else none
      | _, _ => none
  | _ => alone

structure OpenClass where
  negated : Bool
  left : Option ClassSet
  members : List ClassSet

namespace OpenClass

def add (c : OpenClass) (s : ClassSet) : OpenClass := { c with members := s :: c.members }

def set (c : OpenClass) : ClassSet :=
  let right := match c.members with
    | [] => .nothing
    | [s] => s
    | members => .union members.reverse
  match c.left with
  | none => right
  | some left => .operation left right

def operate (c : OpenClass) : OpenClass := ⟨c.negated, some c.set, []⟩

def addHyphens (spaced : Bool) (c : OpenClass) (text : List Char) : OpenClass × List Char :=
  match text with
  | '-' :: rest => addHyphens spaced (c.add (.literal ⟨'-', false⟩)) (skip spaced rest)
  | text => (c, text)
termination_by text.length
decreasing_by simpa using Nat.lt_succ_of_le (length_skip_le spaced rest)

/-- What opens a class, behind its bracket: a sign of negation, and then hyphens or a closing
bracket, which are members there. -/
def start (spaced : Bool) (text : List Char) : OpenClass × List Char :=
  let text := skip spaced text
  let negated := text.head? = some '^'
  let text := if negated then skip spaced text.tail else text
  let (c, text) := addHyphens spaced ⟨negated, none, []⟩ text
  match c.members, text with
  | [], ']' :: rest => (c.add (.literal ⟨']', false⟩), skip spaced rest)
  | _, _ => (c, text)

end OpenClass

inductive ClassStep where
  | more (c : OpenClass) (outer : List OpenClass)
  | done (negated : Bool) (s : ClassSet)

def classStep? (spaced : Bool) (c : OpenClass) (outer : List OpenClass) (text : List Char) :
    Option (ClassStep × List Char) :=
  match skip spaced text with
  | [] => none
  | ']' :: rest =>
    match outer with
    | [] => some (.done c.negated c.set, rest)
    | o :: outer => some (.more (o.add (.nested c.negated c.set)) outer, rest)
  | '[' :: rest =>
    match namedClass? rest with
    | some (negated, rest) => some (.more (c.add (.named negated)) outer, rest)
    | none =>
      let (inner, rest) := OpenClass.start spaced rest
      some (.more inner (c :: outer), rest)
  | '&' :: '&' :: rest | '-' :: '-' :: rest | '~' :: '~' :: rest =>
    some (.more c.operate outer, rest)
  | text => (member? spaced text).map fun (s, rest) => (.more (c.add s) outer, rest)

def restOfClass? (spaced : Bool) (c : OpenClass) (outer : List OpenClass) (text : List Char) :
    Nat → Option ((Bool × ClassSet) × List Char)
  | 0 => none
  | bound + 1 =>
    match classStep? spaced c outer text with
    | none => none
    | some (.done negated s, rest) => some ((negated, s), rest)
    | some (.more c outer, rest) => restOfClass? spaced c outer rest bound

/-- A class, behind its bracket. Each step takes some of the text, so that there cannot be more
steps than characters. -/
def bracketClass? (spaced : Bool) (text : List Char) : Option ((Bool × ClassSet) × List Char) :=
  let (c, rest) := OpenClass.start spaced text
  restOfClass? spaced c [] rest rest.length

end PegKit.Text
