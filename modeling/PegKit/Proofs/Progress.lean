import Mathlib.Tactic.SplitIfs
import PegKit.Validation

/-! What one token does to the check. There are three cases: trivia only reaches further, a closing
parenthesis with no group open joins the run of such, and any other token ends that run and then
has its own effect. Every invariant of a whole pass is an induction over these cases. -/

namespace PegKit

namespace Progress

def pendingReport (p : Progress) : List Diagnostic :=
  p.stray.toList.map fun run =>
    (Problem.strayClosings run.count).diagnostic run.span run.location

/-- The name that a definition sign behind the last token adds. -/
def newName (p : Progress) : List String :=
  match p.previous with
  | some name =>
    if name.kind = .identifier ∧ name.text ∉ p.ruleNames then [name.text] else []
  | none => []

def headReport (p : Progress) (arrow : Token) : List Diagnostic :=
  match p.previous with
  | some name =>
    if name.kind = .identifier then
      if name.text ∈ p.ruleNames then [(Problem.repeatedRule name.text).onToken name] else []
    else [Problem.missingName.onToken arrow]
  | none => [Problem.missingName.onToken arrow]

/-- What a token is reported as for its own sake. -/
def ownReport (p : Progress) (t : Token) : List Diagnostic :=
  match t.kind with
  | .arrow => p.headReport t
  | .stringLiteral => if t.closed then [] else [Problem.unterminatedString.onToken t]
  | _ => []

def nextGroups (groups : Option OpenGroups) (t : Token) : Option OpenGroups :=
  match t.kind, groups with
  | .leftParen, none => some ⟨t.location, 0⟩
  | .leftParen, some g => some { g with inner := g.inner + 1 }
  | .rightParen, some ⟨l, n + 1⟩ => some ⟨l, n⟩
  | .rightParen, _ => none
  | _, _ => groups

/-- A closing parenthesis that no open group takes. -/
def Strays (p : Progress) (t : Token) : Prop := t.kind = .rightParen ∧ p.groups = none

instance (p : Progress) (t : Token) : Decidable (p.Strays t) := inferInstanceAs (Decidable (_ ∧ _))

theorem Strays.isTrivia {p : Progress} {t : Token} (h : p.Strays t) : t.isTrivia = false := by
  simp [Token.isTrivia, h.1, TokenKind.isTrivia]

theorem endStray_eq (p : Progress) :
    p.endStray = { p with
      diagnostics := p.diagnostics ++ p.pendingReport.toArray
      stray := none } := by
  cases p with
  | mk _ _ _ stray _ _ => cases stray <;> simp [endStray, pendingReport, report]

theorem define_eq (p : Progress) (arrow : Token) :
    p.define arrow = { p with
      diagnostics := p.diagnostics ++ (p.headReport arrow).toArray
      ruleNames := p.ruleNames ++ p.newName.toArray } := by
  unfold define headReport newName
  cases hp : p.previous with
  | none => simp [report, hp]
  | some name =>
    by_cases hk : name.kind = .identifier <;> by_cases hn : name.text ∈ p.ruleNames <;>
      simp [report, hp, hk, hn]

theorem visit_trivia {p : Progress} {t : Token} (h : t.isTrivia = true) :
    p.visit t = { p with reach := max p.reach t.span.stop } := by
  simp [visit, h]

theorem visit_stray {p : Progress} {t : Token} (h : p.Strays t) :
    p.visit t = { p with
      stray := (p.extendStray t).stray
      previous := some t
      reach := max p.reach t.span.stop } := by
  simp [visit, h.isTrivia, significant, h.1, h.2, extendStray]

theorem visit_other {p : Progress} {t : Token} (ht : t.isTrivia = false) (hs : ¬ p.Strays t) :
    p.visit t = {
      diagnostics := p.diagnostics ++ (p.pendingReport ++ p.ownReport t).toArray
      ruleNames := p.ruleNames ++ (if t.kind = .arrow then p.newName else []).toArray
      groups := nextGroups p.groups t
      stray := none
      previous := some t
      reach := max p.reach t.span.stop } := by
  obtain ⟨diagnostics, ruleNames, groups, stray, previous, reach⟩ := p
  simp only [visit, ht, significant, Bool.false_eq_true, if_false]
  cases hk : t.kind with
  | rightParen =>
    cases groups with
    | none => exact absurd ⟨hk, rfl⟩ hs
    | some g =>
      rcases g with ⟨l, _ | n⟩ <;>
        simp [endStray_eq, closeGroup, nextGroups, ownReport, pendingReport, hk]
  | leftParen =>
    cases groups <;> simp [endStray_eq, openGroup, nextGroups, ownReport, pendingReport, hk]
  | arrow =>
    simp [endStray_eq, define_eq, nextGroups, ownReport, pendingReport, headReport, newName, hk]
  | stringLiteral =>
    by_cases hc : t.closed = true <;>
      simp [endStray_eq, report, nextGroups, ownReport, pendingReport, hk, hc]
  | _ => simp [endStray_eq, nextGroups, ownReport, pendingReport, hk]

/-- The three cases of a visit. -/
theorem trivia_or_strays (p : Progress) (t : Token) :
    t.isTrivia = true ∨ p.Strays t ∨ t.isTrivia = false ∧ ¬ p.Strays t := by
  cases ht : t.isTrivia with
  | true => exact .inl rfl
  | false => exact .inr ((Classical.em (p.Strays t)).imp_right fun hs => ⟨rfl, hs⟩)

theorem visit_groups (p : Progress) (t : Token) :
    (p.visit t).groups = if t.isTrivia = true then p.groups else nextGroups p.groups t := by
  rcases p.trivia_or_strays t with ht | hs | ⟨ht, hs⟩
  · simp [visit_trivia ht, ht]
  · simp [visit_stray hs, hs.isTrivia, nextGroups, hs.1, hs.2]
  · simp [visit_other ht hs, ht]

theorem visit_previous (p : Progress) (t : Token) :
    (p.visit t).previous = if t.isTrivia = true then p.previous else some t := by
  rcases p.trivia_or_strays t with ht | hs | ⟨ht, hs⟩
  · simp [visit_trivia ht, ht]
  · simp [visit_stray hs, hs.isTrivia]
  · simp [visit_other ht hs, ht]

theorem visit_ruleNames (p : Progress) (t : Token) :
    (p.visit t).ruleNames =
      if t.kind = .arrow then p.ruleNames ++ p.newName.toArray else p.ruleNames := by
  rcases p.trivia_or_strays t with ht | hs | ⟨ht, hs⟩
  · have hk : t.kind ≠ .arrow := by
      intro hk
      simp [Token.isTrivia, hk, TokenKind.isTrivia] at ht
    simp [visit_trivia ht, hk]
  · simp [visit_stray hs, hs.1]
  · by_cases hk : t.kind = .arrow <;> simp [visit_other ht hs, hk]

theorem visit_reach (p : Progress) (t : Token) :
    (p.visit t).reach = max p.reach t.span.stop := by
  rcases p.trivia_or_strays t with ht | hs | ⟨ht, hs⟩
  · rw [visit_trivia ht]
  · rw [visit_stray hs]
  · rw [visit_other ht hs]

theorem ownReport_of_isTrivia {t : Token} (p : Progress) (h : t.isTrivia = true) :
    p.ownReport t = [] := by
  cases hk : t.kind <;> simp_all [ownReport, Token.isTrivia, TokenKind.isTrivia]

theorem Strays.ownReport_eq_nil {p : Progress} {t : Token} (h : p.Strays t) :
    p.ownReport t = [] := by
  simp [ownReport, h.1]

section members
variable {p : Progress} {t : Token} {d : Diagnostic}

theorem mem_pendingReport (h : d ∈ p.pendingReport) :
    ∃ run, p.stray = some run ∧
      d = (Problem.strayClosings run.count).diagnostic run.span run.location := by
  obtain ⟨run, hrun, rfl⟩ := List.mem_map.1 h
  exact ⟨run, Option.mem_toList.1 hrun, rfl⟩

theorem mem_ownReport (h : d ∈ p.ownReport t) :
    d = Problem.missingName.onToken t ∨ d = Problem.unterminatedString.onToken t ∨
      ∃ name, p.previous = some name ∧ name.kind = .identifier ∧
        d = (Problem.repeatedRule name.text).onToken name := by
  unfold ownReport at h
  split at h
  · unfold headReport at h
    split at h
    · rename_i name hname
      split_ifs at h with hk
      · exact .inr (.inr ⟨name, hname, hk, List.mem_singleton.1 h⟩)
      · cases h
      · exact .inl (List.mem_singleton.1 h)
    · exact .inl (List.mem_singleton.1 h)
  · split_ifs at h
    · cases h
    · exact .inr (.inl (List.mem_singleton.1 h))
  · cases h

theorem mem_visit_diagnostics (h : d ∈ (p.visit t).diagnostics.toList) :
    d ∈ p.diagnostics.toList ∨ d ∈ p.pendingReport ∨ d ∈ p.ownReport t := by
  rcases p.trivia_or_strays t with ht | hs | ⟨ht, hs⟩
  · rw [visit_trivia ht] at h
    exact .inl h
  · rw [visit_stray hs] at h
    exact .inl h
  · simpa only [visit_other ht hs, Array.toList_append, List.mem_append] using h

theorem mem_closing (h : d ∈ p.closing) :
    (∃ g, p.groups = some g ∧ d = (Problem.unclosedGroups g.depth).diagnostic
        (Span.between g.outermost.offset p.reach) g.outermost) ∨
      d = Problem.noRules.diagnostic (Span.between 0 p.reach) Location.start := by
  rcases List.mem_append.1 h with h | h
  · split at h
    · cases h
    · rename_i g hg
      exact .inl ⟨g, hg, List.mem_singleton.1 h⟩
  · split_ifs at h
    · exact .inr (List.mem_singleton.1 h)
    · cases h

theorem mem_finish_diagnostics (h : d ∈ p.finish.diagnostics) :
    d ∈ p.diagnostics.toList ∨ d ∈ p.pendingReport ∨ d ∈ p.closing := by
  have hclosing : p.endStray.closing = p.closing := by rw [endStray_eq, closing, closing]
  rw [finish, hclosing, endStray_eq] at h
  simpa only [Array.toList_append, List.mem_append, or_assoc] using h

end members

def ownReports (p : Progress) : List Token → List Diagnostic
  | [] => []
  | t :: rest => p.ownReport t ++ (p.visit t).ownReports rest

/-- But for the runs of stray closing parentheses, a pass reports what its tokens are reported as
for their own sake. -/
theorem foldl_visit_filter {keep : Diagnostic → Bool}
    (hs : ∀ p : Progress, p.pendingReport.filter keep = []) (p : Progress) (tokens : List Token) :
    (tokens.foldl visit p).endStray.diagnostics.toList.filter keep =
      p.diagnostics.toList.filter keep ++ (p.ownReports tokens).filter keep := by
  induction tokens generalizing p with
  | nil => simp [endStray_eq, hs, ownReports]
  | cons t tokens ih =>
    rw [List.foldl_cons, ih, ownReports, List.filter_append, ← List.append_assoc]
    congr 1
    -- only what is no trivia and strays nowhere can be reported for its own sake
    rcases p.trivia_or_strays t with ht | hs' | ⟨ht, hs'⟩
    · simp [visit_trivia ht, ownReport_of_isTrivia p ht]
    · simp [visit_stray hs', hs'.ownReport_eq_nil]
    · simp [visit_other ht hs', hs]

end Progress

end PegKit
