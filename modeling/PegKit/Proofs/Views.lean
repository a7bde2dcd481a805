import PegKit.Proofs.Progress
import Mathlib.Data.List.Forall2
import Mathlib.Data.Option.Basic
import Mathlib.Tactic.SplitIfs

/-! Two runs of the check side by side. Of a token the check uses the class, the closing flag, the
text of an identifier, and its place, which it only passes on. So tokens that agree on these are
checked alike: the same rules, and diagnostics that say the same. How much of the places has to
agree is left open: a view says what is seen of a line and a column. -/

namespace PegKit

variable {α : Type} (view : Nat → Nat → α)

def Location.seen (l : Location) : α := view l.line l.column

/-- What a diagnostic says, with what is seen of its place. -/
def Diagnostic.seen (d : Diagnostic) : Severity × String × α :=
  (d.severity, d.message, view d.line d.column)

/-- Tokens between which the check makes no difference. -/
structure Token.Alike (t u : Token) : Prop where
  kind : t.kind = u.kind
  closed : t.closed = u.closed
  name : t.kind = .identifier → t.text = u.text
  place : t.location.seen view = u.location.seen view

/-- States of the check from which it goes on alike. -/
structure Progress.Alike (p q : Progress) : Prop where
  diagnostics : p.diagnostics.toList.map (Diagnostic.seen view) =
    q.diagnostics.toList.map (Diagnostic.seen view)
  ruleNames : p.ruleNames = q.ruleNames
  groups : p.groups.map (fun g => (g.inner, g.outermost.seen view)) =
    q.groups.map fun g => (g.inner, g.outermost.seen view)
  stray : p.stray.map (fun run => (run.count, run.location.seen view)) =
    q.stray.map fun run => (run.count, run.location.seen view)
  previous : Option.Rel (Token.Alike view) p.previous q.previous

variable {view} {p q : Progress} {t u : Token}

theorem Token.Alike.isTrivia (h : t.Alike view u) : t.isTrivia = u.isTrivia := by
  rw [Token.isTrivia, Token.isTrivia, h.kind]

theorem seen_diagnostic (problem : Problem) {l m : Location} (s r : Span)
    (h : l.seen view = m.seen view) :
    (problem.diagnostic s l).seen view = (problem.diagnostic r m).seen view := by
  have hp : view l.line l.column = view m.line m.column := h
  simp [Problem.diagnostic, Diagnostic.seen, hp]

theorem seen_onToken (problem : Problem) (h : t.Alike view u) :
    (problem.onToken t).seen view = (problem.onToken u).seen view :=
  seen_diagnostic problem _ _ h.place

namespace Progress.Alike

theorem strays_iff (h : p.Alike view q) (ht : t.Alike view u) : p.Strays t ↔ q.Strays u := by
  have hg : p.groups = none ↔ q.groups = none := by
    rw [← Option.map_eq_none_iff (f := fun g : OpenGroups => (g.inner, g.outermost.seen view)),
      h.groups, Option.map_eq_none_iff]
  rw [Strays, Strays, ht.kind, hg]

theorem pendingReport (h : p.Alike view q) :
    p.pendingReport.map (Diagnostic.seen view) = q.pendingReport.map (Diagnostic.seen view) := by
  have hs := h.stray
  unfold Progress.pendingReport
  cases hp : p.stray <;> cases hq : q.stray <;> simp only [hp, hq, Option.map_some,
    Option.map_none, Option.some.injEq, Prod.mk.injEq, reduceCtorEq] at hs
  · rfl
  · rename_i run run'
    simp only [Option.toList_some, List.map_cons, List.map_nil, hs.1]
    rw [seen_diagnostic _ run.span run'.span hs.2]

theorem previous_cases (h : p.Alike view q) :
    p.previous = none ∧ q.previous = none ∨
      ∃ t u, p.previous = some t ∧ q.previous = some u ∧ t.Alike view u := by
  have hn := h.previous
  generalize p.previous = a at hn ⊢
  generalize q.previous = b at hn ⊢
  cases hn with
  | none => exact .inl ⟨rfl, rfl⟩
  | some ht => exact .inr ⟨_, _, rfl, rfl, ht⟩

theorem newName (h : p.Alike view q) : p.newName = q.newName := by
  unfold Progress.newName
  rcases h.previous_cases with ⟨hp, hq⟩ | ⟨t, u, hp, hq, ht⟩
  · rw [hp, hq]
  · rw [hp, hq]
    by_cases hk : t.kind = .identifier
    · simp [h.ruleNames, ← ht.kind, ht.name hk]
    · simp [← ht.kind, hk]

theorem headReport (h : p.Alike view q) (ht : t.Alike view u) :
    (p.headReport t).map (Diagnostic.seen view) = (q.headReport u).map (Diagnostic.seen view) := by
  unfold Progress.headReport
  rcases h.previous_cases with ⟨hp, hq⟩ | ⟨a, b, hp, hq, ha⟩
  · simp [hp, hq, seen_onToken _ ht]
  · by_cases hk : a.kind = .identifier
    · have hb : b.kind = .identifier := ha.kind ▸ hk
      by_cases hr : b.text ∈ q.ruleNames <;>
        simp [hp, hq, h.ruleNames, ha.name hk, hb, hr, seen_onToken _ ha, hk]
    · have hb : b.kind ≠ .identifier := ha.kind ▸ hk
      simp [hp, hq, hk, hb, seen_onToken _ ht]

theorem ownReport (h : p.Alike view q) (ht : t.Alike view u) :
    (p.ownReport t).map (Diagnostic.seen view) = (q.ownReport u).map (Diagnostic.seen view) := by
  unfold Progress.ownReport
  rw [← ht.kind, ← ht.closed]
  split
  · exact h.headReport ht
  · split_ifs
    · rfl
    · simp [seen_onToken _ ht]
  · rfl

theorem nextGroups {a b : Option OpenGroups} (ht : t.Alike view u)
    (h : a.map (fun g => (g.inner, g.outermost.seen view)) =
      b.map fun g => (g.inner, g.outermost.seen view)) :
    (nextGroups a t).map (fun g => (g.inner, g.outermost.seen view)) =
      (nextGroups b u).map fun g => (g.inner, g.outermost.seen view) := by
  have hp := ht.place
  have hk := ht.kind
  cases ha : a with
  | none =>
    obtain rfl : b = none := by simpa [ha] using h.symm
    cases hkt : t.kind <;> simp [Progress.nextGroups, hkt, ← hk, hp]
  | some g =>
    obtain ⟨g', rfl, hg⟩ : ∃ g', b = some g' ∧ (g'.inner, g'.outermost.seen view) =
        (g.inner, g.outermost.seen view) := by
      simpa [ha] using h.symm
    obtain ⟨l, n⟩ := g
    obtain ⟨m, k⟩ := g'
    obtain ⟨hn, hl⟩ := Prod.mk.inj hg
    simp only at hn hl
    subst hn
    cases hkt : t.kind <;> rcases k with _ | k <;> simp [Progress.nextGroups, hkt, ← hk, hl]

theorem extendStray (h : p.Alike view q) (ht : t.Alike view u) :
    (p.extendStray t).stray.map (fun run => (run.count, run.location.seen view)) =
      (q.extendStray u).stray.map fun run => (run.count, run.location.seen view) := by
  have hs := h.stray
  unfold Progress.extendStray
  cases hp : p.stray with
  | none =>
    obtain hq : q.stray = none := by simpa [hp] using hs.symm
    simp [hq, ht.place]
  | some run =>
    obtain ⟨run', hq, hn, hl⟩ : ∃ run', q.stray = some run' ∧ run'.count = run.count ∧
        run'.location.seen view = run.location.seen view := by
      simpa [hp] using hs.symm
    simp [hq, hn, hl]

theorem endStray (h : p.Alike view q) : p.endStray.Alike view q.endStray := by
  rw [endStray_eq, endStray_eq]
  refine ⟨?_, h.ruleNames, h.groups, rfl, h.previous⟩
  simp [h.diagnostics, h.pendingReport]

theorem closing (h : p.Alike view q) :
    p.closing.map (Diagnostic.seen view) = q.closing.map (Diagnostic.seen view) := by
  have hg := h.groups
  unfold Progress.closing
  rw [List.map_append, List.map_append, h.ruleNames]
  congr 1
  · cases hp : p.groups with
    | none =>
      obtain hq : q.groups = none := by simpa [hp] using hg.symm
      rw [hq]
    | some g =>
      obtain ⟨g', hq, hn, hl⟩ : ∃ g', q.groups = some g' ∧ g'.inner = g.inner ∧
          g'.outermost.seen view = g.outermost.seen view := by
        simpa [hp] using hg.symm
      rw [hq]
      simp only [OpenGroups.depth, hn, List.map_cons, List.map_nil]
      rw [seen_diagnostic _ _ _ hl]
  · split_ifs
    · rw [List.map_singleton, List.map_singleton, seen_diagnostic _ _ _ rfl]
    · rfl

end Progress.Alike

theorem Progress.Alike.visit (h : p.Alike view q) (ht : t.Alike view u) :
    (p.visit t).Alike view (q.visit u) := by
  rcases p.trivia_or_strays t with hv | hs | ⟨hv, hs⟩
  · rw [visit_trivia hv, visit_trivia (ht.isTrivia ▸ hv)]
    exact ⟨h.diagnostics, h.ruleNames, h.groups, h.stray, h.previous⟩
  · rw [visit_stray hs, visit_stray ((h.strays_iff ht).1 hs)]
    exact ⟨h.diagnostics, h.ruleNames, h.groups, h.extendStray ht, .some ht⟩
  · rw [visit_other hv hs, visit_other (ht.isTrivia ▸ hv) (mt (h.strays_iff ht).2 hs)]
    refine ⟨?_, ?_, Progress.Alike.nextGroups ht h.groups, rfl, .some ht⟩
    · simp [h.diagnostics, h.pendingReport, h.ownReport ht]
    · simp [h.ruleNames, h.newName, ht.kind]

theorem Progress.Alike.foldl_visit {tokens others : List Token} (h : p.Alike view q)
    (ht : List.Forall₂ (Token.Alike view) tokens others) :
    (tokens.foldl Progress.visit p).Alike view (others.foldl Progress.visit q) := by
  induction ht generalizing p q with
  | nil => exact h
  | cons ht _ ih => exact ih (h.visit ht)

/-- Tokens that are alike one by one are checked alike. -/
theorem validate_alike {tokens others : List Token}
    (ht : List.Forall₂ (Token.Alike view) tokens others) :
    (validate tokens).ruleNames = (validate others).ruleNames ∧
    (validate tokens).diagnostics.map (Diagnostic.seen view) =
      (validate others).diagnostics.map (Diagnostic.seen view) := by
  have hi : Progress.initial.Alike view Progress.initial := ⟨rfl, rfl, rfl, rfl, .none⟩
  have h := (hi.foldl_visit ht).endStray
  constructor
  · exact congrArg Array.toList h.ruleNames
  · rw [validate, validate, Progress.finish, Progress.finish, List.map_append, List.map_append,
      h.diagnostics, h.closing]

theorem isValid_eq_of_seen {r s : Report} (h : r.diagnostics.map (Diagnostic.seen view) =
    s.diagnostics.map (Diagnostic.seen view)) : r.isValid = s.isValid := by
  have hv : ∀ r : Report,
      r.isValid = !(r.diagnostics.map (Diagnostic.seen view)).any (·.1 == .error) := by
    intro r
    rw [List.any_map]
    rfl
  rw [hv r, hv s, h]

end PegKit
