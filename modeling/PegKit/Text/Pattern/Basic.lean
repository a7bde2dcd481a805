import PegKit.Text.Pattern.Class

/-! Regular expressions as trees. A tree counts as a pattern if it is not too deep and all its
parts mean something where they stand. -/

namespace PegKit.Text

inductive Pattern where
  | empty
  | settings (s : Settings)
  | atom (a : Atom)
  | bracketClass (negated : Bool) (s : ClassSet)
  | repetition (p : Pattern)
  | group (s : Settings) (p : Pattern)
  | alternation (branches : List Pattern)
  | concatenation (parts : List Pattern)

namespace Pattern

mutual

/-- How deep the parts of a pattern lie in each other. Atoms have no depth. -/
def depth : Pattern → Nat
  | empty | settings _ | atom _ => 0
  | bracketClass _ s => s.depth + 1
  | repetition p | group _ p => p.depth + 1
  | alternation parts | concatenation parts => depths parts + 1

def depths : List Pattern → Nat
  | [] => 0
  | p :: parts => max p.depth (depths parts)

end

mutual

/-- The mode behind a pattern that stands in mode `m`, if all its parts mean something. -/
def modeBehind? (m : Mode) : Pattern → Option Mode
  | empty => some m
  | settings s => some (m.set s)
  | atom a => if a.fits m then some m else none
  | bracketClass negated s => if (ClassSet.nested negated s).fits m then some m else none
  | repetition p => modeBehind? m p
  | group s p => (modeBehind? (m.set s) p).map fun _ => m
  | alternation parts | concatenation parts => modeBehindAll? m parts

def modeBehindAll? (m : Mode) : List Pattern → Option Mode
  | [] => some m
  | p :: parts => (modeBehind? m p).bind fun m => modeBehindAll? m parts

end

def depthLimit : Nat := 250

def isSound (p : Pattern) : Bool :=
  p.depth ≤ depthLimit && (modeBehind? Mode.standard p).isSome

end Pattern

end PegKit.Text
