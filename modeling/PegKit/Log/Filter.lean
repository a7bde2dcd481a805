import PegKit.Log.Event
import PegKit.Text.Basic
import PegKit.Text.Pattern.Reader

/-! Which events of a log are shown. A filter is a list of directives, each with a threshold for
the events of some component, or with some field, or for all. Of the directives that concern an
event the most exact one decides. -/

namespace PegKit.Log

/-- A threshold for the components whose names begin with `component`, and for the events that
have the field `field`; without one of these, for all of them. -/
structure Directive where
  component : Option String
  field : Option String
  threshold : Nat
deriving DecidableEq, Repr

abbrev Filter := List Directive

inductive FilterFault where
  | malformed
  /-- A part would begin or end within a character. -/
  | severed
deriving DecidableEq, Repr

/-! Reading directives. -/

/-- The threshold that a name, in any case, or a number stands for. -/
def threshold? (text : List Char) : Option Nat :=
  let digits := if text.head? = some '+' then text.tail else text
  if digits ≠ [] && digits.all Char.isDigit then
    let n := digits.foldl (fun n c => 10 * n + (c.toNat - '0'.toNat)) 0
    if n ≤ 5 then some n else none
  else
    match String.ofList (text.map Char.toLower) with
    | "off" => some 0
    | "error" => some 1
    | "warn" => some 2
    | "info" => some 3
    | "debug" => some 4
    | "trace" => some 5
    | _ => none

def everything : Nat := Level.trace.rank

def beginsDirective (c : Char) : Bool :=
  c = '[' || c = '-' || c = ':' || c = '_' || Text.isAlphanumeric c

def isNumber (text : List Char) : Bool :=
  let unsigned (t : List Char) : List Char :=
    if t.head? = some '+' || t.head? = some '-' then t.tail else t
  let body := unsigned text
  let whole := body.takeWhile Char.isDigit
  let rest := body.drop whole.length
  let point := rest.head? = some '.'
  let places := if point then rest.tail.takeWhile Char.isDigit else []
  let rest := if point then rest.tail.drop places.length else rest
  let exponent := unsigned rest.tail
  ["inf", "infinity", "nan"].contains (String.ofList (body.map Char.toLower)) ||
    ((whole ≠ [] || places ≠ []) &&
      (rest = [] || ((rest.head? = some 'e' || rest.head? = some 'E') &&
        exponent ≠ [] && exponent.all Char.isDigit)))

/-- A condition on a field: its name, and whether it asks for a value. A value is a number or a
pattern. -/
def condition? (text : List Char) : Option (String × Bool) :=
  match text.splitOn '=' with
  | name :: value :: _ =>
    if isNumber value || Text.isPattern value then some (String.ofList name, true) else none
  | name :: [] => some (String.ofList name, false)
  | [] => none

def place (text rest : List Char) : Nat :=
  (String.ofList (Text.trim text)).utf8ByteSize - (String.ofList rest).utf8ByteSize

/-- A part of a directive. Its place is where `start` to where `stop` is left of the trimmed text,
but it is taken out of the whole text, as many bytes behind the beginning. -/
def part (text start stop : List Char) : Except FilterFault (List Char) :=
  match Text.between? (place text start) (place text stop) text with
  | some found => .ok found
  | none => .error .severed

def thresholdBehind (text start : List Char) : Except FilterFault Nat :=
  match Text.splitAtByte? (place text start) text with
  | none => .error .severed
  | some (_, []) => .ok everything
  | some (_, level) => match threshold? level with
    | some n => .ok n
    | none => .error .malformed

def braced (text inside : List Char) : Except FilterFault ((String × Bool) × List Char) :=
  match inside.dropWhile (· ≠ '\x7d') with
  | [] => .error .malformed
  | brace :: after => do
    let wanted ← part text inside (brace :: after)
    match if wanted = [] then none else condition? wanted, after with
    | some c, ']' :: rest => .ok (c, rest)
    | _, _ => .error .malformed

/-- What stands between brackets, behind the opening one, and what is left: a field, if events can
meet what is asked for. They cannot have the name of a span, and only spans are asked for the
value of a field. -/
def bracketed (text inside : List Char) : Except FilterFault (Option String × List Char) :=
  match inside.dropWhile fun c => c ≠ ']' && c ≠ '\x7b' with
  | [] => .error .malformed
  | mark :: after => do
    let span ← part text inside (mark :: after)
    if mark = ']' then return (none, after)
    let ((field, hasValue), rest) ← braced text after
    return (if span = [] && !hasValue then some field else none, rest)

def directive (text : List Char) : Except FilterFault (Option Directive) :=
  let trimmed := Text.trim text
  if !trimmed.head?.any beginsDirective then .error .malformed
  else
    match trimmed.dropWhile fun c => c ≠ '=' && c ≠ '[' with
    | [] =>
      match threshold? text with
      | some n => .ok (some ⟨none, none, n⟩)
      | none => .ok (some ⟨some (String.ofList text), none, everything⟩)
    | mark :: after => do
      let name ← part text trimmed (mark :: after)
      let component := if name = [] then none else some (String.ofList name)
      if mark = '=' then return some ⟨component, none, ← thresholdBehind text after⟩
      let (field, rest) ← bracketed text after
      let threshold ← match rest with
        | [] => .ok everything
        | '=' :: level => thresholdBehind text level
        | _ => .error .malformed
      return field.map fun name => ⟨component, some name, threshold⟩

/-! What a filter lets pass. -/

namespace Directive

def concerns (d : Directive) (e : Event) : Bool :=
  d.component.all (fun name => name.toList.isPrefixOf e.component.toList) &&
    d.field.all e.hasField

def componentRank (d : Directive) : Nat :=
  match d.component with
  | none => 0
  | some name => name.length + 1

/-- Whether `d` is at least as exact as `b` about an event that concerns both: the longer name of
a component is, then a field is, and of two fields the one that is later by name. -/
def outranks (d b : Directive) : Bool :=
  b.componentRank < d.componentRank ||
    (b.componentRank = d.componentRank &&
      match b.field, d.field with
      | none, _ => true
      | some _, none => false
      | some x, some y => x ≤ y)

end Directive

namespace Filter

def upTo (n : Nat) : Filter := [⟨none, none, n⟩]

/-- Directives with commas between. Without any, only errors pass. -/
def parse (text : String) : Except FilterFault Filter :=
  let parts := (text.toList.splitOn ',').filter (· ≠ [])
  if parts = [] then .ok (upTo Level.error.rank)
  else (parts.mapM directive).map (·.filterMap id)

def better (best : Option Directive) (d : Directive) : Option Directive :=
  match best with
  | none => some d
  | some b => if d.outranks b then some d else some b

def passes (f : Filter) (e : Event) : Bool :=
  match (f.filter (·.concerns e)).foldl better none with
  | some d => e.level.rank ≤ d.threshold
  | none => false

/-- The filter of the environment if it is well formed, and else the one that the verbosity asks
for. There is none if the environment has one that cannot be taken apart. -/
def choose? (environment : Option String) (verbosity : Nat) : Option Filter :=
  let asked := upTo ((threshold? (Level.forVerbosity verbosity).toList).getD 0)
  match environment.map parse with
  | none | some (.error .malformed) => some asked
  | some (.error .severed) => none
  | some (.ok f) => some f

end Filter

end PegKit.Log
