import PegKit.Proofs.Reach
import PegKit.Proofs.Warnings

/-! The order of the diagnostics of a source. What the check finds on its way is reported from left
to right, though not always at once: a run of stray closing parentheses waits for its end, and an
identifier for a definition sign. So the spans to look at are those of the diagnostics, of the run
that is pending and of the identifier read last. They stand apart and in order, and each token adds
one behind them or makes the last of them longer. What can only be said at the end comes last. -/

namespace PegKit

/-- Whether the check finds a problem on its way, and not when the tokens have ended. -/
def Problem.isEarly : Problem → Bool
  | strayClosings _ | missingName | repeatedRule _ | unterminatedString => true
  | unclosedGroups _ | noRules => false

namespace Diagnostic

def Reports (d : Diagnostic) (p : Problem) : Prop :=
  d.severity = p.severity ∧ d.message = p.message

def IsEarly (d : Diagnostic) : Prop := ∃ p : Problem, p.isEarly = true ∧ d.Reports p

def isOpenString (d : Diagnostic) : Bool :=
  d.severity == .warning && d.message == "unterminated string literal"

end Diagnostic

/-- Spans that hold something, stand apart from left to right and end before `bound`. -/
structure Span.InOrder (bound : Nat) (spans : List Span) : Prop where
  apart : spans.Pairwise fun s t => s.stop ≤ t.start
  solid : ∀ s ∈ spans, s.start < s.stop
  within : ∀ s ∈ spans, s.stop ≤ bound

namespace Span.InOrder
variable {a b : Nat} {r s : Span} {spans others : List Span}

theorem sublist (h : InOrder a spans) (hs : others.Sublist spans) : InOrder a others :=
  ⟨h.apart.sublist hs, fun s hm => h.solid s (hs.subset hm), fun s hm => h.within s (hs.subset hm)⟩

end Span.InOrder

def headSpan (previous : Option Token) : List Span :=
  (previous.filter (·.kind == .identifier)).toList.map Token.span

namespace Progress
variable {p : Progress} {t : Token}

/-- The spans that are reported, and behind them those that may be. -/
def spans (p : Progress) : List Span :=
  p.diagnostics.toList.map Diagnostic.span ++ p.pendingReport.map Diagnostic.span ++
    headSpan p.previous

end Progress

section early
variable {p : Progress} {d : Diagnostic}

theorem isEarly_diagnostic {problem : Problem} (h : problem.isEarly = true) (s : Span)
    (l : Location) : (problem.diagnostic s l).IsEarly :=
  ⟨problem, h, rfl, rfl⟩

theorem isEarly_of_mem_pendingReport (h : d ∈ p.pendingReport) : d.IsEarly := by
  obtain ⟨run, -, rfl⟩ := Progress.mem_pendingReport h
  exact isEarly_diagnostic rfl _ _

theorem isEarly_of_mem_ownReport {t : Token} (h : d ∈ p.ownReport t) : d.IsEarly := by
  rcases Progress.mem_ownReport h with rfl | rfl | ⟨name, -, -, rfl⟩ <;>
    exact isEarly_diagnostic rfl _ _

theorem isEarly_of_mem_foldl_visit (tokens : List Token)
    (hp : ∀ d ∈ p.diagnostics.toList, d.IsEarly) :
    ∀ d ∈ (tokens.foldl Progress.visit p).diagnostics.toList, d.IsEarly := by
  induction tokens generalizing p with
  | nil => exact hp
  | cons t tokens ih =>
    rw [List.foldl_cons]
    apply ih
    intro d hd
    rcases Progress.mem_visit_diagnostics hd with hd | hd | hd
    · exact hp d hd
    · exact isEarly_of_mem_pendingReport hd
    · exact isEarly_of_mem_ownReport hd

end early

/-- The report of a check: what it found on its way, then the groups left open, then that there are
no rules. -/
theorem finish_diagnostics_eq (p : Progress) :
    p.finish.diagnostics = p.diagnostics.toList ++ p.pendingReport ++
      (unclosedReport p).head?.toList ++ (noRulesReport p).head?.toList := by
  rw [Progress.finish, Progress.closing, Progress.endStray_eq]
  cases hg : p.groups <;> by_cases hn : p.ruleNames = #[] <;>
    simp [unclosedReport, noRulesReport, hg, hn]

end PegKit
