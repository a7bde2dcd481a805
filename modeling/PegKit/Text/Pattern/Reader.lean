import PegKit.Text.Alphanumeric
import PegKit.Text.Pattern.Basic

/-! Reading regular expressions: alternatives of parts side by side, groups with or without a name,
settings, and signs of repetition behind what they repeat. Counts in braces are not taken. -/

namespace PegKit.Text

namespace Pattern

structure Open where
  settings : Settings
  spacedAround : Bool
  /-- The branches that are complete, and the parts of the present one, the last first. -/
  branches : List Pattern
  parts : List Pattern

namespace Open

def start (s : Settings) (spacedAround : Bool) : Open := ⟨s, spacedAround, [], []⟩

def add (o : Open) (p : Pattern) : Open := { o with parts := p :: o.parts }

def branch (o : Open) : Pattern :=
  match o.parts with
  | [] => empty
  | [p] => p
  | parts => concatenation parts.reverse

def endBranch (o : Open) : Open := { o with branches := o.branch :: o.branches, parts := [] }

def pattern (o : Open) : Pattern :=
  match o.branches with
  | [] => o.branch
  | branches => alternation (branches.reverse ++ [o.branch])

def repeat? (o : Open) : Option Open :=
  match o.parts with
  | [] | empty :: _ | .settings _ :: _ => none
  | p :: parts => some { o with parts := repetition p :: parts }

end Open

structure State where
  spaced : Bool
  /-- The names of groups so far; no two are the same. -/
  names : List (List Char)
  inner : Open
  outer : List Open

namespace State

def start : State := ⟨false, [], Open.start ⟨[], []⟩ false, []⟩

def add (t : State) (p : Pattern) : State := { t with inner := t.inner.add p }

def enter (t : State) (s : Settings) : State :=
  { t with
    spaced := (s.state? 'x').getD t.spaced
    inner := Open.start s t.spaced
    outer := t.inner :: t.outer }

def leave? (t : State) : Option State :=
  match t.outer with
  | [] => none
  | o :: outer =>
    some ⟨t.inner.spacedAround, t.names, o.add (group t.inner.settings t.inner.pattern), outer⟩

def change (t : State) (s : Settings) : State :=
  { t with spaced := (s.state? 'x').getD t.spaced, inner := t.inner.add (settings s) }

end State

/-! What stands behind an opening parenthesis. -/

def isGroupName : List Char → Bool
  | [] => false
  | c :: rest =>
    (c = '_' || isAlphabetic c) &&
      rest.all fun d => d = '_' || d = '.' || d = '[' || d = ']' || isAlphanumeric d

def enterNamed? (t : State) (text : List Char) : Option (State × List Char) :=
  let name := text.takeWhile (· ≠ '>')
  match text.drop name.length with
  | _ :: rest =>
    if isGroupName name && !t.names.contains name then
      some ({ t.enter ⟨[], []⟩ with names := name :: t.names }, rest)
    else none
  | [] => none

/-- Settings, each given once. Those behind a hyphen are put off, and some have to stand there. -/
def settings? (letters : List Char) : Option Settings :=
  if letters.all (fun c => "imsUuRx-".toList.contains c) && letters.Nodup &&
      letters.getLast? ≠ some '-' then
    some ⟨letters.takeWhile (· ≠ '-'), (letters.dropWhile (· ≠ '-')).tail⟩
  else none

def parenthesis? (t : State) (text : List Char) : Option (State × List Char) :=
  match skip t.spaced text with
  | '?' :: 'P' :: '<' :: rest | '?' :: '<' :: rest => enterNamed? t rest
  | '?' :: rest => do
    let letters := rest.takeWhile fun c => c ≠ ':' && c ≠ ')'
    let s ← settings? letters
    match rest.drop letters.length with
    | ':' :: rest => some (t.enter s, rest)
    | ')' :: rest => if letters = [] then none else some (t.change s, rest)
    | _ => none
  | rest => some (t.enter ⟨[], []⟩, rest)

/-! Patterns. -/

def step? (t : State) (c : Char) (rest : List Char) : Option (State × List Char) :=
  match c with
  | '(' => parenthesis? t rest
  | ')' => t.leave?.map (·, rest)
  | '|' => some ({ t with inner := t.inner.endBranch }, rest)
  | '[' => (bracketClass? t.spaced rest).map fun ((negated, s), rest) =>
    (t.add (bracketClass negated s), rest)
  | '?' | '*' | '+' =>
    let rest := if rest.head? = some '?' then rest.tail else rest
    t.inner.repeat?.map fun o => ({ t with inner := o }, rest)
  | '{' => none
  | '\\' => (escape? t.spaced rest).map fun (a, rest) => (t.add (atom a), rest)
  | '.' => some (t.add (atom .anyCharacter), rest)
  | '^' | '$' => some (t.add (atom .anchor), rest)
  | c => some (t.add (atom (.literal ⟨c, false⟩)), rest)

/-- The pattern that a text continues; at its end no group may be open. The bound is on the number
of steps. -/
def continue? (t : State) (text : List Char) : Nat → Option Pattern
  | 0 => none
  | bound + 1 =>
    match skip t.spaced text with
    | [] => if t.outer.isEmpty then some t.inner.pattern else none
    | c :: rest => (step? t c rest).bind fun (t, rest) => continue? t rest bound

/-- The pattern that a text spells. Each step takes some of the text, up to its end. -/
def read? (text : List Char) : Option Pattern := continue? State.start text (text.length + 1)

end Pattern

def isPattern (text : List Char) : Bool := (Pattern.read? text).any Pattern.isSound

end PegKit.Text
