import PegKit.Proofs.RuleHeads
import Mathlib.Combinatorics.Enumerative.DyckWord

/-! What makes a grammar valid: its parentheses form a Dyck word, every definition sign stands
behind an identifier, and there is one. Nothing else counts, whatever tokens there are and in
whatever order. -/

namespace PegKit

open DyckStep

def brackets (tokens : List Token) : List DyckStep :=
  tokens.filterMap fun t =>
    match t.kind with
    | .leftParen => some U
    | .rightParen => some D
    | _ => none

theorem brackets_cons (t : Token) (tokens : List Token) :
    brackets (t :: tokens) =
      (match t.kind with
        | .leftParen => [U]
        | .rightParen => [D]
        | _ => []) ++ brackets tokens := by
  unfold brackets
  rw [List.filterMap_cons]
  cases t.kind <;> rfl

/-- The steps from a height on end at the bottom, and never go below it. -/
def Lands (height : Nat) (w : List DyckStep) : Prop :=
  (∀ i, (w.take i).count D ≤ height + (w.take i).count U) ∧ height + w.count U = w.count D

theorem lands_nil_iff {height : Nat} : Lands height [] ↔ height = 0 := by
  simp [Lands]

theorem lands_U_iff {height : Nat} {w : List DyckStep} :
    Lands height (U :: w) ↔ Lands (height + 1) w := by
  have hs : ∀ n, height + 1 + n = height + n + 1 := Nat.add_right_comm height 1
  rw [Lands, ← Nat.and_forall_add_one]
  simp [Lands, ← Nat.add_assoc, hs]

theorem lands_D_iff {height : Nat} {w : List DyckStep} :
    Lands (height + 1) (D :: w) ↔ Lands height w := by
  have hs : ∀ n, height + 1 + n = height + n + 1 := Nat.add_right_comm height 1
  rw [Lands, ← Nat.and_forall_add_one]
  simp [Lands, hs]

theorem not_lands_zero_D (w : List DyckStep) : ¬ Lands 0 (D :: w) := by
  rintro ⟨hi, -⟩
  have := hi 1
  simp at this

theorem lands_zero_iff {w : List DyckStep} : Lands 0 w ↔ ∃ word : DyckWord, word.toList = w := by
  constructor
  · rintro ⟨hi, he⟩
    refine ⟨⟨w, ?_, fun i => ?_⟩, rfl⟩
    · omega
    · have := hi i
      omega
  · rintro ⟨word, rfl⟩
    refine ⟨fun i => ?_, ?_⟩
    · have := word.count_D_le_count_U i
      omega
    · have := word.count_U_eq_count_D
      omega

theorem markedRuns_eq_nil_iff {tokens : List (Token × Bool)} :
    markedRuns tokens = [] ↔ ∀ m ∈ tokens, m.2 = false := by
  induction tokens with
  | nil => simp [markedRuns]
  | cons m rest ih =>
    cases hm : m.2 with
    | false =>
      have hr : markedRuns (m :: rest) = markedRuns rest := by
        simp [markedRuns, List.splitOnP_cons_eq_if_modifyHead, hm]
      simp [hr, ih, hm]
    | true =>
      obtain ⟨run, runs, hs⟩ :=
        List.exists_cons_of_ne_nil (List.splitOnP_ne_nil (fun m : Token × Bool => !m.2) rest)
      simp [markedRuns, List.splitOnP_cons_eq_if_modifyHead, hm, hs]

/-- From a stack on, no closing parenthesis is stray and none is left open exactly where the steps
from its height land. -/
theorem marked_balanced_iff (stack tokens : List Token) :
    (∀ m ∈ marked stack tokens, m.2 = false) ∧ tokens.foldl stackStep stack = [] ↔
      Lands stack.length (brackets tokens) := by
  induction tokens generalizing stack with
  | nil =>
    simp [marked, brackets, lands_nil_iff]
  | cons t tokens ih =>
    rw [marked, List.foldl_cons, List.forall_mem_cons, and_assoc, ih (stackStep stack t),
      brackets_cons, stackStep]
    cases hk : t.kind with
    | leftParen =>
      rw [List.singleton_append, lands_U_iff, List.length_cons]
      simp
    | rightParen =>
      rw [List.singleton_append]
      cases stack with
      -- the token is stray, and the word goes below the bottom
      | nil => simp [not_lands_zero_D]
      | cons u stack =>
        rw [List.length_cons, lands_D_iff]
        simp
    | _ => simp

theorem matched_iff (tokens : List Token) :
    strayRuns tokens = [] ∧ unclosed tokens = [] ↔
      ∃ word : DyckWord, word.toList = brackets tokens := by
  rw [strayRuns, unclosed, markedRuns_eq_nil_iff, marked_balanced_iff, List.length_nil,
    lands_zero_iff]

theorem strayReports_eq_nil_iff {tokens : List Token} :
    (strayRuns tokens).flatMap strayReport = [] ↔ strayRuns tokens = [] := by
  rw [List.flatMap_eq_nil_iff]
  constructor
  · intro h
    rw [List.eq_nil_iff_forall_not_mem]
    intro run hr
    obtain ⟨t, rest, rfl⟩ := List.exists_cons_of_ne_nil (ne_nil_of_mem_strayRuns hr)
    obtain ⟨d, hd, -⟩ := strayReport_cons t rest
    have hn := h _ hr
    rw [hd] at hn
    cases hn
  · intro h run hr
    rw [h] at hr
    cases hr

theorem unclosedReport_eq_nil_iff {tokens : List Token} :
    unclosedReport (tokens.foldl Progress.visit .initial) = [] ↔
      unclosed (significant tokens) = [] := by
  constructor
  · intro h
    by_contra hu
    obtain ⟨d, hd, -⟩ := unclosedReport_of_unclosed_ne_nil hu
    rw [hd] at h
    cases h
  · exact unclosedReport_of_unclosed_eq_nil

theorem filter_isGrouping_eq_nil_iff (tokens : List Token) :
    (validate tokens).diagnostics.filter Diagnostic.isGrouping = [] ↔
      ∃ word : DyckWord, word.toList = brackets (significant tokens) := by
  rw [validate_grouping, List.append_eq_nil_iff, strayReports_eq_nil_iff,
    unclosedReport_eq_nil_iff, matched_iff]

theorem nameless_eq_nil_iff (tokens : List Token) :
    nameless none tokens = [] ↔
      ∀ before t after, tokens = before ++ t :: after → t.kind = .arrow →
        ∃ name ∈ before.getLast?, name.kind = .identifier := by
  rw [nameless, List.map_eq_nil_iff, List.filter_eq_nil_iff]
  constructor
  · intro h before t after he hk
    have hm := h (before.getLast?, t) (mem_withPrevious_iff.2 ⟨before, after, he, by simp⟩)
    cases hl : before.getLast? with
    | none => simp [lacksName, hk, hl, definedBy?_none] at hm
    | some name =>
      refine ⟨name, rfl, ?_⟩
      by_contra hn
      simp [lacksName, hk, hl, definedBy?_of_not_identifier t hn] at hm
  · rintro h ⟨previous, t⟩ hm hl
    obtain ⟨before, after, he, hp⟩ := mem_withPrevious_iff.1 hm
    rw [Option.or_none] at hp
    have hk : t.kind = .arrow := by
      simp only [lacksName, Bool.and_eq_true, beq_iff_eq] at hl
      exact hl.1
    obtain ⟨name, hb, hn⟩ := h before t after he hk
    rw [Option.mem_def.1 hb] at hp
    simp only at hp
    rw [hp] at hl
    simp [lacksName, definedBy?_of_identifier hk hn] at hl

theorem heads_eq_nil_iff {tokens : List Token} (h : nameless none tokens = []) :
    heads none tokens = [] ↔ ∀ t ∈ tokens, t.kind ≠ .arrow := by
  rw [nameless, List.map_eq_nil_iff, List.filter_eq_nil_iff] at h
  rw [heads, List.filterMap_eq_nil_iff]
  constructor
  · intro hh t ht hk
    obtain ⟨before, after, rfl⟩ := List.mem_iff_append.1 ht
    have hm : (before.getLast?, t) ∈ withPrevious none (before ++ t :: after) :=
      mem_withPrevious_iff.2 ⟨before, after, rfl, by simp⟩
    exact h _ hm (by simp [lacksName, hk, hh _ hm])
  · intro hn m hm
    obtain ⟨before, after, rfl, -⟩ := mem_withPrevious_iff.1 hm
    have hk : m.2.kind ≠ .arrow := hn m.2 (by simp)
    rw [definedBy?, if_neg hk]

theorem filter_isOtherError_eq_nil_iff (tokens : List Token) :
    (validate tokens).diagnostics.filter Diagnostic.isOtherError = [] ↔
      nameless none (significant tokens) = [] ∧ ∃ t ∈ significant tokens, t.kind = .arrow := by
  rw [validate_otherErrors, List.append_eq_nil_iff, List.map_eq_nil_iff, and_congr_right_iff]
  intro h
  have hr : noRulesReport (tokens.foldl Progress.visit .initial) = [] ↔
      heads none (significant tokens) ≠ [] := by
    rw [noRulesReport, Ne, ← ruleNames_eq_empty_iff tokens]
    split_ifs with he
    · simp [he]
    · simp [he]
  rw [hr, Ne, heads_eq_nil_iff h]
  push Not
  rfl

theorem isValid_iff_filter (tokens : List Token) :
    (validate tokens).isValid = true ↔
      (validate tokens).diagnostics.filter Diagnostic.isGrouping = [] ∧
        (validate tokens).diagnostics.filter Diagnostic.isOtherError = [] := by
  rw [Report.isValid, Bool.not_eq_true', List.any_eq_false, List.filter_eq_nil_iff,
    List.filter_eq_nil_iff]
  constructor
  · intro h
    refine ⟨fun d hd hg => ?_, fun d hd ho => ?_⟩
    · exact h d hd (Bool.and_eq_true_iff.1 hg).1
    · exact h d hd (Bool.and_eq_true_iff.1 ho).1
  · rintro ⟨hg, ho⟩ d hd he
    by_cases hm : d.message.contains "unmatched" = true
    · exact hg d hd (by simp [Diagnostic.isGrouping, he, hm])
    · exact ho d hd (by simp [Diagnostic.isOtherError, Diagnostic.isGrouping, he, hm])

/-- A list of tokens is a valid grammar where, trivia apart, its parentheses are balanced, every
definition sign stands right behind an identifier, and there is such a sign. -/
theorem validate_isValid_iff (tokens : List Token) :
    (validate tokens).isValid = true ↔
      (∃ word : DyckWord, word.toList = brackets (significant tokens)) ∧
      (∀ before t after, significant tokens = before ++ t :: after → t.kind = .arrow →
        ∃ name ∈ before.getLast?, name.kind = .identifier) ∧
      ∃ t ∈ significant tokens, t.kind = .arrow := by
  rw [isValid_iff_filter, filter_isGrouping_eq_nil_iff, filter_isOtherError_eq_nil_iff,
    nameless_eq_nil_iff]

end PegKit
