import PegKit.Location

/-! What a check reports: diagnostics, each with a severity, a message and a place, and the rules
that the grammar defines. Only errors make a grammar invalid. -/

namespace PegKit

inductive Severity where
  | error
  | warning
deriving DecidableEq, Repr, Inhabited

def Severity.label : Severity → String
  | error => "error"
  | warning => "warning"

structure Diagnostic where
  severity : Severity
  message : String
  span : Span
  line : Nat
  column : Nat
deriving DecidableEq, Repr, Inhabited

namespace Diagnostic

def isError (d : Diagnostic) : Bool := d.severity == .error

/-- The diagnostic on one line: severity, line, column and message, with colons between. -/
def summary (d : Diagnostic) : String :=
  d.severity.label ++ ":" ++ toString d.line ++ ":" ++ toString d.column ++ ":" ++ d.message

end Diagnostic

structure Report where
  diagnostics : List Diagnostic
  /-- The defined rules in the order of their first definitions, each once. -/
  ruleNames : List String
deriving DecidableEq, Repr, Inhabited

namespace Report

def errors (r : Report) : List Diagnostic := r.diagnostics.filter Diagnostic.isError

def isValid (r : Report) : Bool := !r.diagnostics.any Diagnostic.isError

def defines (r : Report) (rule : String) : Bool := r.ruleNames.contains rule

end Report

end PegKit
