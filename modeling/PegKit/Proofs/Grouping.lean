import PegKit.Proofs.Progress
import Mathlib.Data.List.Forall2
import Mathlib.Data.List.Infix
import Mathlib.Tactic.SplitIfs

/-! Parentheses matched on a stack. A closing one takes the opening one on top; where there is none
it is stray, and what the stack holds at the end is unclosed. The check keeps no stack, but the
place of its bottom and its height: these suffice for all that it reports about grouping. -/

namespace PegKit

/-- The tokens that carry structure: all but blanks and comments. -/
def significant (tokens : List Token) : List Token :=
  tokens.filter fun t => t.kind != .whitespace && t.kind != .comment

theorem significant_eq_filter_isTrivia (tokens : List Token) :
    significant tokens = tokens.filter fun t => !t.isTrivia := by
  refine List.filter_congr fun t _ => ?_
  cases hk : t.kind <;> simp [Token.isTrivia, TokenKind.isTrivia, hk]

/-- The stack after one more token, its top first. -/
def stackStep (stack : List Token) (t : Token) : List Token :=
  match t.kind with
  | .leftParen => t :: stack
  | .rightParen => stack.tail
  | _ => stack

/-- The opening parentheses that no closing one takes, the last one first. -/
def unclosed (tokens : List Token) : List Token := tokens.foldl stackStep []

/-- Each token, and whether it is a closing parenthesis that finds the stack empty. -/
def marked : List Token → List Token → List (Token × Bool)
  | _, [] => []
  | stack, t :: rest =>
    (t, t.kind == .rightParen && stack.isEmpty) :: marked (stackStep stack t) rest

def markedRuns (tokens : List (Token × Bool)) : List (List Token) :=
  ((tokens.splitOnP fun m => !m.2).filter fun run => !run.isEmpty).map (List.map Prod.fst)

/-- The longest runs of stray closing parentheses. -/
def strayRuns (tokens : List Token) : List (List Token) := markedRuns (marked [] tokens)

def Span.Covers (s t : Span) : Prop := s.start ≤ t.start ∧ t.stop ≤ s.stop

/-- The smallest span that covers all of `tokens`. -/
def Span.IsHull (s : Span) (tokens : List Token) : Prop :=
  (∀ t ∈ tokens, s.Covers t.span) ∧ ∀ r : Span, (∀ t ∈ tokens, r.Covers t.span) → r.Covers s

namespace Diagnostic

def isGrouping (d : Diagnostic) : Bool :=
  d.isError && d.message.contains "unmatched"

/-- The error that a run of stray closing parentheses is reported as. -/
structure IsStray (run : List Token) (d : Diagnostic) : Prop where
  severity : d.severity = .error
  message : d.message =
    if run.length = 1 then "unmatched closing parenthesis"
    else toString run.length ++ " unmatched closing parentheses"
  span : d.span.IsHull run
  place : ∃ first ∈ run.head?, d.line = first.location.line ∧ d.column = first.location.column

/-- The error that the parentheses on `stack` are reported as when `tokens` have ended. -/
structure IsUnclosed (tokens stack : List Token) (d : Diagnostic) : Prop where
  severity : d.severity = .error
  message : d.message =
    "unbalanced grouping, " ++ toString stack.length ++ " unmatched opening parentheses"
  place : ∃ outermost ∈ stack.getLast?, d.span.start = outermost.location.offset ∧
    d.line = outermost.location.line ∧ d.column = outermost.location.column
  reach : (tokens.map fun t => t.span.stop).max? = some d.span.stop

end Diagnostic

def openGroups : List Token → Option OpenGroups
  | [] => none
  | t :: rest =>
    match openGroups rest with
    | none => some ⟨t.location, 0⟩
    | some g => some { g with inner := g.inner + 1 }

def strayRun? : List Token → Option StrayRun
  | [] => none
  | t :: rest => some ⟨rest.foldl (fun s u => s.join u.span) t.span, t.location, rest.length + 1⟩

theorem openGroups_eq_none_iff {stack : List Token} : openGroups stack = none ↔ stack = [] := by
  cases stack with
  | nil => simp [openGroups]
  | cons t rest => cases h : openGroups rest <;> simp [openGroups, h]

theorem openGroups_of_getLast? {stack : List Token} {t : Token} (h : stack.getLast? = some t) :
    openGroups stack = some ⟨t.location, stack.length - 1⟩ := by
  induction stack with
  | nil => simp at h
  | cons u rest ih =>
    cases rest with
    | nil =>
      have hu : u = t := by simpa using h
      rw [← hu]
      rfl
    | cons v rest =>
      rw [List.getLast?_cons_cons] at h
      rw [openGroups, ih h]
      simp

/-- Seen through `openGroups`, the step of the check is the step of the stack. -/
theorem nextGroups_openGroups (stack : List Token) (t : Token) :
    Progress.nextGroups (openGroups stack) t = openGroups (stackStep stack t) := by
  cases hk : t.kind with
  | leftParen =>
    cases h : openGroups stack <;> simp [Progress.nextGroups, stackStep, hk, openGroups, h]
  | rightParen =>
    cases stack with
    | nil => simp [Progress.nextGroups, stackStep, hk, openGroups]
    | cons u rest =>
      cases h : openGroups rest <;> simp [Progress.nextGroups, stackStep, hk, openGroups, h]
  | _ => simp [Progress.nextGroups, stackStep, hk]

theorem strayRun?_concat {p : Progress} {run : List Token} (h : p.stray = strayRun? run)
    (t : Token) : (p.extendStray t).stray = strayRun? (run ++ [t]) := by
  cases run <;> simp [Progress.extendStray, h, strayRun?, List.foldl_append]

def strayReport (run : List Token) : List Diagnostic :=
  (strayRun? run).toList.map fun r => (Problem.strayClosings r.count).diagnostic r.span r.location

theorem pendingReport_eq {p : Progress} {run : List Token} (h : p.stray = strayRun? run) :
    p.pendingReport = strayReport run := by
  rw [Progress.pendingReport, h]
  rfl

theorem reports_markedRuns_true (run : List Token) :
    (markedRuns (run.map (·, true))).flatMap strayReport = strayReport run := by
  have h : (run.map (·, true)).splitOnP (fun m => !m.2) = [run.map (·, true)] :=
    List.splitOnP_eq_singleton (by simp)
  rw [markedRuns, h]
  cases run <;> simp [strayReport, strayRun?, Function.comp_def]

theorem reports_markedRuns_false (run : List Token) (t : Token) (rest : List (Token × Bool)) :
    (markedRuns (run.map (·, true) ++ (t, false) :: rest)).flatMap strayReport =
      strayReport run ++ (markedRuns rest).flatMap strayReport := by
  have h : (run.map (·, true) ++ (t, false) :: rest).splitOnP (fun m => !m.2) =
      run.map (·, true) :: rest.splitOnP (fun m => !m.2) :=
    List.splitOnP_append_cons_of_forall_mem (by simp) _ rfl _
  rw [markedRuns, h]
  cases run <;> simp [markedRuns, strayReport, strayRun?, Function.comp_def]

section messages

theorem message_strayClosings (n : Nat) : (Problem.strayClosings n).message =
    if n = 1 then "unmatched closing parenthesis"
    else toString n ++ " unmatched closing parentheses" := by
  unfold Problem.message
  split <;> simp_all

theorem contains_append {a b mark : String} (h : mark.toList <:+: b.toList) :
    (a ++ b).contains mark = true := by
  rw [String.contains_string_iff, String.toList_append]
  exact h.trans (List.suffix_append _ _).isInfix

theorem isGrouping_strayClosings (n : Nat) (s : Span) (l : Location) :
    ((Problem.strayClosings n).diagnostic s l).isGrouping = true := by
  have h : (Problem.strayClosings n).message.contains "unmatched" = true := by
    rw [message_strayClosings]
    split_ifs
    · rw [String.contains_string_iff]; decide
    · exact contains_append (by decide)
  simpa [Diagnostic.isGrouping, Problem.diagnostic, Diagnostic.isError, Problem.severity] using h

theorem isGrouping_unclosedGroups (n : Nat) (s : Span) (l : Location) :
    ((Problem.unclosedGroups n).diagnostic s l).isGrouping = true := by
  have h : (Problem.unclosedGroups n).message.contains "unmatched" = true :=
    contains_append (by decide)
  simpa [Diagnostic.isGrouping, Problem.diagnostic, Diagnostic.isError, Problem.severity] using h

theorem isGrouping_missingName (t : Token) :
    (Problem.missingName.onToken t).isGrouping = false := by
  have h : Problem.missingName.message.contains "unmatched" = false := by
    rw [String.contains_string_eq_false_iff]; decide
  simpa [Diagnostic.isGrouping, Problem.onToken, Problem.diagnostic] using fun _ => h

theorem isGrouping_noRules (s : Span) (l : Location) :
    (Problem.noRules.diagnostic s l).isGrouping = false := by
  have h : Problem.noRules.message.contains "unmatched" = false := by
    rw [String.contains_string_eq_false_iff]; decide
  simpa [Diagnostic.isGrouping, Problem.diagnostic] using fun _ => h

theorem isGrouping_of_mem_ownReport {p : Progress} {t : Token} {d : Diagnostic}
    (h : d ∈ p.ownReport t) : d.isGrouping = false := by
  rcases Progress.mem_ownReport h with rfl | rfl | ⟨name, -, -, rfl⟩
  · exact isGrouping_missingName t
  · rfl
  · rfl

theorem filter_isGrouping_ownReport (p : Progress) (t : Token) :
    (p.ownReport t).filter Diagnostic.isGrouping = [] := by
  rw [List.filter_eq_nil_iff]
  intro d hd
  simp [isGrouping_of_mem_ownReport hd]

theorem filter_isGrouping_strayReport (run : List Token) :
    (strayReport run).filter Diagnostic.isGrouping = strayReport run := by
  rw [List.filter_eq_self]
  intro d hd
  obtain ⟨r, -, rfl⟩ := List.mem_map.1 hd
  exact isGrouping_strayClosings _ _ _

end messages

section pass
variable {p : Progress}

theorem significant_cons_of_trivia {t : Token} {tokens : List Token} (h : t.isTrivia = true) :
    significant (t :: tokens) = significant tokens := by
  simp [significant_eq_filter_isTrivia, h]

theorem significant_cons {t : Token} {tokens : List Token} (h : t.isTrivia = false) :
    significant (t :: tokens) = t :: significant tokens := by
  simp [significant_eq_filter_isTrivia, h]

theorem foldl_visit_groups (tokens stack : List Token) (hg : p.groups = openGroups stack) :
    (tokens.foldl Progress.visit p).groups =
      openGroups ((significant tokens).foldl stackStep stack) := by
  induction tokens generalizing p stack with
  | nil => exact hg
  | cons t tokens ih =>
    rw [List.foldl_cons]
    cases ht : t.isTrivia with
    | true =>
      rw [significant_cons_of_trivia ht]
      exact ih stack (by simpa [Progress.visit_groups, ht] using hg)
    | false =>
      rw [significant_cons ht, List.foldl_cons]
      apply ih
      rw [Progress.visit_groups, hg, ← nextGroups_openGroups]
      simp [ht]

theorem foldl_visit_reach (tokens : List Token) :
    (tokens.foldl Progress.visit p).reach =
      (tokens.map fun t => t.span.stop).foldl max p.reach := by
  induction tokens generalizing p with
  | nil => rfl
  | cons t tokens ih => rw [List.foldl_cons, ih, Progress.visit_reach]; rfl

theorem marked_eq_cons {stack : List Token} (t : Token) (rest : List Token)
    (hg : p.groups = openGroups stack) :
    marked stack (t :: rest) = (t, decide (p.Strays t)) :: marked (stackStep stack t) rest := by
  have h : decide (p.Strays t) = (t.kind == .rightParen && stack.isEmpty) := by
    rw [Bool.eq_iff_iff]
    simp [Progress.Strays, hg, openGroups_eq_none_iff]
  rw [marked, h]

/-- A pass from any state of the check: the run that is pending joins the first run of the tokens
to come. -/
theorem foldl_visit_grouping (tokens stack run : List Token) (hg : p.groups = openGroups stack)
    (hr : p.stray = strayRun? run) :
    (tokens.foldl Progress.visit p).endStray.diagnostics.toList.filter Diagnostic.isGrouping =
      p.diagnostics.toList.filter Diagnostic.isGrouping ++
        (markedRuns (run.map (·, true) ++ marked stack (significant tokens))).flatMap
          strayReport := by
  induction tokens generalizing p stack run with
  | nil =>
    simp only [List.foldl_nil, Progress.endStray_eq, pendingReport_eq hr]
    rw [significant, List.filter_nil, marked, List.append_nil, reports_markedRuns_true]
    simp [filter_isGrouping_strayReport]
  | cons t tokens ih =>
    rw [List.foldl_cons]
    rcases p.trivia_or_strays t with ht | hs | ⟨ht, hs⟩
    · rw [significant_cons_of_trivia ht, Progress.visit_trivia ht]
      exact ih stack run hg hr
    · have he : stack = [] := openGroups_eq_none_iff.1 (hg ▸ hs.2)
      have hm : run.map (·, true) ++ marked stack (t :: significant tokens) =
          (run ++ [t]).map (·, true) ++ marked stack (significant tokens) := by
        rw [marked_eq_cons t _ hg, he]
        simp [hs, stackStep, hs.1]
      rw [significant_cons hs.isTrivia, hm, Progress.visit_stray hs]
      -- no report yet: the token joins the pending run, and the marked tokens do not change
      exact ih stack (run ++ [t]) hg (strayRun?_concat hr t)
    · have hg' : (p.visit t).groups = openGroups (stackStep stack t) := by
        rw [Progress.visit_groups, hg, ← nextGroups_openGroups]
        simp [ht]
      have hr' : (p.visit t).stray = strayRun? [] := by
        rw [Progress.visit_other ht hs]
        rfl
      rw [ih (stackStep stack t) [] hg' hr', significant_cons ht, marked_eq_cons t _ hg,
        decide_eq_false hs, reports_markedRuns_false, Progress.visit_other ht hs]
      simp [pendingReport_eq hr, filter_isGrouping_strayReport, filter_isGrouping_ownReport]

end pass

namespace Span

theorem Covers.trans {r s t : Span} (h : r.Covers s) (k : s.Covers t) : r.Covers t :=
  ⟨Nat.le_trans h.1 k.1, Nat.le_trans k.2 h.2⟩

theorem covers_join_iff {r s t : Span} : r.Covers (s.join t) ↔ r.Covers s ∧ r.Covers t := by
  simp only [Covers, join]
  omega

theorem join_covers_left (s t : Span) : (s.join t).Covers s := by
  simp only [Covers, join]
  omega

theorem join_covers_right (s t : Span) : (s.join t).Covers t := by
  simp only [Covers, join]
  omega

theorem isHull_concat {s : Span} {tokens : List Token} (h : s.IsHull tokens) (t : Token) :
    (s.join t.span).IsHull (tokens ++ [t]) := by
  constructor
  · intro u hu
    rcases List.mem_append.1 hu with hu | hu
    · exact (join_covers_left s _).trans (h.1 u hu)
    · rw [List.mem_singleton.1 hu]
      exact join_covers_right s _
  · intro r hr
    refine covers_join_iff.2 ⟨h.2 r fun u hu => ?_, ?_⟩
    · exact hr u (List.mem_append_left _ hu)
    · exact hr t (List.mem_append_right _ List.mem_cons_self)

theorem isHull_foldl_join (t : Token) (rest : List Token) :
    (rest.foldl (fun s u => s.join u.span) t.span).IsHull (t :: rest) := by
  induction rest using List.reverseRecOn with
  | nil => exact ⟨by simp [Covers], fun r hr => hr t List.mem_cons_self⟩
  | append_singleton rest u ih =>
    rw [List.foldl_concat, ← List.cons_append]
    exact isHull_concat ih u

end Span

theorem strayReport_cons (t : Token) (rest : List Token) :
    ∃ d, strayReport (t :: rest) = [d] ∧ d.IsStray (t :: rest) := by
  refine ⟨_, rfl, rfl, ?_, Span.isHull_foldl_join t rest, t, rfl, rfl, rfl⟩
  exact message_strayClosings _

theorem forall₂_isStray {runs : List (List Token)} (h : ∀ run ∈ runs, run ≠ []) :
    List.Forall₂ (fun run d => Diagnostic.IsStray run d) runs (runs.flatMap strayReport) := by
  induction runs with
  | nil => exact .nil
  | cons run runs ih =>
    obtain ⟨t, rest, rfl⟩ := List.exists_cons_of_ne_nil (h run List.mem_cons_self)
    obtain ⟨d, hd, hs⟩ := strayReport_cons t rest
    rw [List.flatMap_cons, hd]
    exact .cons hs (ih fun r hr => h r (List.mem_cons_of_mem _ hr))

theorem ne_nil_of_mem_strayRuns {tokens run : List Token} (h : run ∈ strayRuns tokens) :
    run ≠ [] := by
  obtain ⟨r, hr, rfl⟩ := List.mem_map.1 h
  simpa using (List.mem_filter.1 hr).2

def unclosedReport (p : Progress) : List Diagnostic :=
  p.groups.toList.map fun g =>
    (Problem.unclosedGroups g.depth).diagnostic
      (Span.between g.outermost.offset p.reach) g.outermost

theorem finish_grouping (p : Progress) :
    p.finish.diagnostics.filter Diagnostic.isGrouping =
      p.endStray.diagnostics.toList.filter Diagnostic.isGrouping ++ unclosedReport p := by
  have hn : (p.endStray.closing).filter Diagnostic.isGrouping = unclosedReport p := by
    simp only [Progress.closing, Progress.endStray_eq, unclosedReport]
    split <;> split_ifs <;> simp_all [isGrouping_unclosedGroups, isGrouping_noRules]
  rw [Progress.finish, List.filter_append, hn]

theorem mem_of_mem_foldl_stackStep {tokens stack : List Token} {t : Token}
    (h : t ∈ tokens.foldl stackStep stack) : t ∈ stack ∨ t ∈ tokens := by
  induction tokens generalizing stack with
  | nil => exact .inl h
  | cons u tokens ih =>
    rcases ih h with h | h
    · unfold stackStep at h
      split at h
      · rcases List.mem_cons.1 h with rfl | h
        · exact .inr List.mem_cons_self
        · exact .inl h
      · exact .inl (List.mem_of_mem_tail h)
      · exact .inl h
    · exact .inr (List.mem_cons_of_mem _ h)

theorem max?_stops_eq {tokens : List Token} (h : tokens ≠ []) :
    (tokens.map fun t => t.span.stop).max? =
      some (tokens.foldl Progress.visit .initial).reach := by
  obtain ⟨t, rest, rfl⟩ := List.exists_cons_of_ne_nil h
  rw [foldl_visit_reach, List.map_cons, List.max?_cons', List.foldl_cons]
  rw [show max Progress.initial.reach t.span.stop = t.span.stop from Nat.zero_max _]

theorem unclosedReport_of_unclosed_ne_nil {tokens : List Token}
    (h : unclosed (significant tokens) ≠ []) :
    ∃ d, unclosedReport (tokens.foldl Progress.visit .initial) = [d] ∧
      d.IsUnclosed tokens (unclosed (significant tokens)) := by
  obtain ⟨o, ho⟩ : ∃ o, (unclosed (significant tokens)).getLast? = some o :=
    ⟨_, List.getLast?_eq_some_getLast h⟩
  have hg : (tokens.foldl Progress.visit .initial).groups =
      some ⟨o.location, (unclosed (significant tokens)).length - 1⟩ := by
    rw [foldl_visit_groups tokens [] rfl]
    exact openGroups_of_getLast? ho
  have hmem : o ∈ tokens := by
    have hs : o ∈ significant tokens :=
      (mem_of_mem_foldl_stackStep (List.mem_of_getLast? ho)).resolve_left List.not_mem_nil
    exact (List.mem_filter.1 hs).1
  have hmax := max?_stops_eq (List.ne_nil_of_mem hmem)
  have hle : o.location.offset ≤ (tokens.foldl Progress.visit .initial).reach := by
    have := (List.max?_eq_some_iff.1 hmax).2 _ (List.mem_map_of_mem hmem)
    exact Nat.le_trans o.span.ordered this
  have hpos := List.length_pos_iff.2 h
  have hd : unclosedReport (tokens.foldl Progress.visit .initial) =
      [(Problem.unclosedGroups (unclosed (significant tokens)).length).diagnostic
        (Span.between o.location.offset (tokens.foldl Progress.visit .initial).reach)
        o.location] := by
    simp only [unclosedReport, hg, Option.toList_some, List.map_cons, List.map_nil,
      OpenGroups.depth]
    rw [Nat.sub_add_cancel hpos]
  exact ⟨_, hd, rfl, rfl, ⟨o, ho, rfl, rfl, rfl⟩,
    hmax.trans (congrArg some (Nat.max_eq_right hle).symm)⟩

theorem validate_grouping (tokens : List Token) :
    (validate tokens).diagnostics.filter Diagnostic.isGrouping =
      (strayRuns (significant tokens)).flatMap strayReport ++
        unclosedReport (tokens.foldl Progress.visit .initial) := by
  rw [validate, finish_grouping, foldl_visit_grouping tokens [] [] rfl rfl]
  rfl

theorem unclosedReport_of_unclosed_eq_nil {tokens : List Token}
    (h : unclosed (significant tokens) = []) :
    unclosedReport (tokens.foldl Progress.visit .initial) = [] := by
  have hg : (tokens.foldl Progress.visit .initial).groups = none := by
    rw [foldl_visit_groups tokens [] rfl]
    exact openGroups_eq_none_iff.2 h
  rw [unclosedReport, hg]
  rfl

/-- The errors about grouping are what a stack finds: one for each run of stray closing parentheses,
then one for all that is left open. -/
theorem grouping_errors (tokens : List Token) :
    ∃ strays : List Diagnostic,
      List.Forall₂ (fun run d => Diagnostic.IsStray run d) (strayRuns (significant tokens)) strays ∧
      (unclosed (significant tokens) = [] ∧
          (validate tokens).diagnostics.filter Diagnostic.isGrouping = strays ∨
        unclosed (significant tokens) ≠ [] ∧
          ∃ d, Diagnostic.IsUnclosed tokens (unclosed (significant tokens)) d ∧
            (validate tokens).diagnostics.filter Diagnostic.isGrouping = strays ++ [d]) := by
  refine ⟨_, forall₂_isStray fun run hr => ne_nil_of_mem_strayRuns hr, ?_⟩
  by_cases h : unclosed (significant tokens) = []
  · refine .inl ⟨h, ?_⟩
    rw [validate_grouping, unclosedReport_of_unclosed_eq_nil h, List.append_nil]
  · obtain ⟨d, hd, hu⟩ := unclosedReport_of_unclosed_ne_nil h
    exact .inr ⟨h, d, hu, by rw [validate_grouping, hd]⟩

end PegKit
