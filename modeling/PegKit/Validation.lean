import PegKit.Cursor
import PegKit.Diagnostic

/-! The structural check of a grammar: one pass over its tokens that keeps the open groups, the
run of closing parentheses that match nothing, and the last token that is not trivia. A rule is
defined where the definition sign follows an identifier. What can only be said at the end, groups
left open and a grammar without rules, is reported last. -/

namespace PegKit

inductive Problem where
  | strayClosings (count : Nat)
  | unclosedGroups (count : Nat)
  | missingName
  | repeatedRule (name : String)
  | unterminatedString
  | noRules
deriving DecidableEq, Repr

namespace Problem

def severity : Problem → Severity
  | repeatedRule _ | unterminatedString => .warning
  | _ => .error

def message : Problem → String
  | strayClosings 1 => "unmatched closing parenthesis"
  | strayClosings n => toString n ++ " unmatched closing parentheses"
  | unclosedGroups n =>
    "unbalanced grouping, " ++ toString n ++ " unmatched opening parentheses"
  | missingName => "rule definition is missing a name"
  | repeatedRule name => "rule `" ++ name ++ "` is defined more than once"
  | unterminatedString => "unterminated string literal"
  | noRules => "no rule definitions found"

def diagnostic (p : Problem) (span : Span) (l : Location) : Diagnostic :=
  ⟨p.severity, p.message, span, l.line, l.column⟩

def onToken (p : Problem) (t : Token) : Diagnostic :=
  p.diagnostic t.span t.location

end Problem

/-- Closing parentheses in a row with no group open: the span that covers them, and the first. -/
structure StrayRun where
  span : Span
  location : Location
  count : Nat
deriving DecidableEq, Repr

/-- The groups open at some point: where the outermost begins, and how many lie in it. -/
structure OpenGroups where
  outermost : Location
  inner : Nat
deriving DecidableEq, Repr

def OpenGroups.depth (g : OpenGroups) : Nat := g.inner + 1

structure Progress where
  diagnostics : Array Diagnostic
  ruleNames : Array String
  groups : Option OpenGroups
  stray : Option StrayRun
  /-- The last token that is not trivia. -/
  previous : Option Token
  /-- The largest end of a token. -/
  reach : Nat
deriving DecidableEq, Repr

namespace Progress

def initial : Progress := ⟨#[], #[], none, none, none, 0⟩

def report (p : Progress) (d : Diagnostic) : Progress :=
  { p with diagnostics := p.diagnostics.push d }

/-- Ends a run of stray closing parentheses and reports it. -/
def endStray (p : Progress) : Progress :=
  match p.stray with
  | none => p
  | some run =>
    { p.report ((Problem.strayClosings run.count).diagnostic run.span run.location) with
      stray := none }

def extendStray (p : Progress) (t : Token) : Progress :=
  { p with
    stray := some (match p.stray with
      | none => ⟨t.span, t.location, 1⟩
      | some run => { run with span := run.span.join t.span, count := run.count + 1 }) }

def openGroup (p : Progress) (t : Token) : Progress :=
  { p with
    groups := some (match p.groups with
      | none => ⟨t.location, 0⟩
      | some g => { g with inner := g.inner + 1 }) }

def closeGroup (p : Progress) (g : OpenGroups) : Progress :=
  { p with
    groups := match g.inner with
      | 0 => none
      | n + 1 => some { g with inner := n } }

def define (p : Progress) (arrow : Token) : Progress :=
  match p.previous with
  | some name =>
    if name.kind = .identifier then
      if p.ruleNames.contains name.text then
        p.report ((Problem.repeatedRule name.text).onToken name)
      else { p with ruleNames := p.ruleNames.push name.text }
    else p.report (Problem.missingName.onToken arrow)
  | none => p.report (Problem.missingName.onToken arrow)

def significant (p : Progress) (t : Token) : Progress :=
  match t.kind with
  | .rightParen =>
    match p.groups with
    | none => p.extendStray t
    | some g => p.endStray.closeGroup g
  | .leftParen => p.endStray.openGroup t
  | .arrow => p.endStray.define t
  | .stringLiteral =>
    if t.closed then p.endStray else p.endStray.report (Problem.unterminatedString.onToken t)
  | _ => p.endStray

/-- One token. Trivia only reaches further. -/
def visit (p : Progress) (t : Token) : Progress :=
  let q := { p with reach := max p.reach t.span.stop }
  if t.isTrivia then q
  else { q.significant t with previous := some t }

/-- What can only be said at the end. -/
def closing (p : Progress) : List Diagnostic :=
  (match p.groups with
    | none => []
    | some g =>
      [(Problem.unclosedGroups g.depth).diagnostic
        (Span.between g.outermost.offset p.reach) g.outermost]) ++
  (if p.ruleNames.isEmpty then
    [Problem.noRules.diagnostic (Span.between 0 p.reach) Location.start]
  else [])

def finish (p : Progress) : Report :=
  let q := p.endStray
  ⟨q.diagnostics.toList ++ q.closing, q.ruleNames.toList⟩

end Progress

/-- Checks any sequence of tokens, also one that no single source gives. -/
def validate (tokens : List Token) : Report :=
  (tokens.foldl Progress.visit Progress.initial).finish

def check (source : String) : Report :=
  validate (tokenize LexicalRules.standard source)

end PegKit
