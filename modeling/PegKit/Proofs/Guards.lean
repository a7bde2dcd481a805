import PegKit.Text.Literal
import Mathlib.Data.List.Infix
import Mathlib.Logic.Relation
import Mathlib.Order.Bounds.Defs

/-! The guards of raw literals. A guard is closed by a text that holds a double quote with as many
number signs behind it; a text that closes a guard closes every shorter one. So the search for a
guard finds the shortest that will do, and whether a length will do is seen from the text alone. No
guard closed by a text is as long as the text, so the search comes to an end, and it does so one
number sign behind the longest run that follows a quote. -/

namespace PegKit.Text

def guardMark (n : Nat) : List Char := '"' :: List.replicate n '#'

theorem length_guardMark (n : Nat) : (guardMark n).length = n + 1 := by
  rw [guardMark, List.length_cons, List.length_replicate]

theorem closesGuard_iff {n : Nat} {text : List Char} :
    closesGuard n text = true ↔ guardMark n <:+: text := by
  induction text with
  | nil => simp [closesGuard, guardMark]
  | cons c rest ih =>
    rw [closesGuard, Bool.or_eq_true, ih, List.infix_cons_iff, Bool.and_eq_true, beq_iff_eq,
      List.isPrefixOf_iff_prefix, guardMark, List.cons_prefix_cons, eq_comm]

theorem prefix_guardMark {m n : Nat} (h : m ≤ n) : guardMark m <+: guardMark n := by
  refine List.cons_prefix_cons.2 ⟨rfl, ?_⟩
  exact ⟨List.replicate (n - m) '#', by rw [List.replicate_append_replicate]; congr 1; omega⟩

theorem closesGuard_of_le {m n : Nat} {text : List Char} (h : m ≤ n)
    (hn : closesGuard n text = true) : closesGuard m text = true :=
  closesGuard_iff.2 ((prefix_guardMark h).isInfix.trans (closesGuard_iff.1 hn))

theorem le_leastGuard (text : List Char) (n : Nat) : n ≤ leastGuard text n := by
  fun_induction leastGuard text n with
  | case1 n _ ih => omega
  | case2 n _ => exact Nat.le_refl n

theorem closesGuard_leastGuard (text : List Char) (n : Nat) :
    closesGuard (leastGuard text n) text = false := by
  fun_induction leastGuard text n with
  | case1 n _ ih => exact ih
  | case2 n h => exact Bool.eq_false_iff.2 h

theorem closesGuard_of_lt_leastGuard {text : List Char} {n m : Nat} (hn : n ≤ m)
    (hm : m < leastGuard text n) : closesGuard m text = true := by
  fun_induction leastGuard text n with
  | case1 n h ih =>
    rcases Nat.eq_or_lt_of_le hn with rfl | hlt
    · exact h
    · exact ih hlt hm
  | case2 n _ => omega

theorem leastGuard_le_iff {text : List Char} {n m : Nat} (hn : n ≤ m) :
    leastGuard text n ≤ m ↔ ¬ guardMark m <:+: text := by
  rw [← closesGuard_iff, Bool.not_eq_true]
  constructor
  · intro h
    rw [Bool.eq_false_iff]
    intro hc
    exact Bool.false_ne_true ((closesGuard_leastGuard text n).symm.trans (closesGuard_of_le h hc))
  · intro h
    by_contra hlt
    have := closesGuard_of_lt_leastGuard hn (Nat.lt_of_not_le hlt)
    rw [h] at this
    exact Bool.false_ne_true this

section search

/-- A round of the search: the text closes a guard of `m` number signs, and one more is tried. -/
def Lengthens (text : List Char) (m n : Nat) : Prop := closesGuard m text = true ∧ n = m + 1

/-- Right behind some double quote of the text stand `k` number signs, and no more. -/
def IsQuoteRun (text : List Char) (k : Nat) : Prop :=
  ∃ before after, text = before ++ guardMark k ++ after ∧ after.head? ≠ some '#'

variable {text : List Char}

theorem acc_lengthens (text : List Char) (n : Nat) : Acc (fun m k => Lengthens text k m) n := by
  fun_induction leastGuard text n with
  | case1 n _ ih =>
    constructor
    rintro m ⟨-, rfl⟩
    exact ih
  | case2 n h =>
    constructor
    rintro m ⟨hclosed, -⟩
    exact absurd hclosed h

theorem not_lengthens_leastGuard (text : List Char) (n m : Nat) :
    ¬ Lengthens text (leastGuard text n) m := by
  rintro ⟨hclosed, -⟩
  rw [closesGuard_leastGuard] at hclosed
  cases hclosed

/-- The search passes through all lengths up to the one it ends with. -/
theorem lengthens_reaches_iff {n m : Nat} :
    Relation.ReflTransGen (Lengthens text) n m ↔ n ≤ m ∧ m ≤ leastGuard text n := by
  constructor
  · intro h
    induction h with
    | refl => exact ⟨le_rfl, le_leastGuard text n⟩
    | @tail b c _ hstep ih =>
      obtain ⟨hclosed, rfl⟩ := hstep
      -- a run that stood at the least guard would have ended there
      have hne : b ≠ leastGuard text n := by
        rintro rfl
        exact not_lengthens_leastGuard text n _ ⟨hclosed, rfl⟩
      omega
  · rintro ⟨hn, hm⟩
    induction m, hn using Nat.le_induction with
    | base => exact .refl
    | succ m hn ih =>
      apply (ih (by omega)).tail
      exact ⟨closesGuard_of_lt_leastGuard hn (by omega), rfl⟩

theorem isLeast_leastGuard (text : List Char) (n : Nat) :
    IsLeast {m | n ≤ m ∧ ¬ guardMark m <:+: text} (leastGuard text n) := by
  constructor
  · exact ⟨le_leastGuard text n, (leastGuard_le_iff (le_leastGuard text n)).1 le_rfl⟩
  · rintro m ⟨hn, hm⟩
    exact (leastGuard_le_iff hn).2 hm

theorem guardMark_succ (n : Nat) : guardMark (n + 1) = guardMark n ++ ['#'] := by
  rw [guardMark, List.replicate_succ', ← List.cons_append, guardMark]

theorem leastGuard_of_no_quote (h : '"' ∉ text) : leastGuard text 1 = 1 := by
  have hmark : ¬ guardMark 1 <:+: text := fun hm => h (hm.subset List.mem_cons_self)
  exact Nat.le_antisymm ((leastGuard_le_iff le_rfl).2 hmark) (le_leastGuard text 1)

theorem guardMark_infix_of_leastGuard {n : Nat} (h : '"' ∈ text)
    (hn : leastGuard text 1 = n + 1) : guardMark n <:+: text := by
  rcases Nat.eq_zero_or_pos n with rfl | hpos
  · exact (List.singleton_infix_iff _ _).2 h
  · have hlt : n < leastGuard text 1 := by omega
    exact closesGuard_iff.1 (closesGuard_of_lt_leastGuard hpos hlt)

theorem isGreatest_isQuoteRun {n : Nat} (h : '"' ∈ text) (hn : leastGuard text 1 = n + 1) :
    IsGreatest {k | IsQuoteRun text k} n := by
  have hnot : ¬ guardMark (n + 1) <:+: text := hn ▸ (isLeast_leastGuard text 1).1.2
  constructor
  · obtain ⟨before, after, hsplit⟩ := guardMark_infix_of_leastGuard h hn
    refine ⟨before, after, hsplit.symm, fun hhead => hnot ?_⟩
    -- a number sign behind the mark would make it the next longer one
    obtain ⟨rest, rfl⟩ := List.head?_eq_some_iff.1 hhead
    exact ⟨before, rest, by rw [guardMark_succ, ← hsplit]; simp⟩
  · rintro k ⟨before, after, hsplit, -⟩
    have hk : guardMark k <:+: text := ⟨before, after, hsplit.symm⟩
    by_contra hlt
    have hle : n + 1 ≤ k := by omega
    exact hnot ((prefix_guardMark hle).isInfix.trans hk)

end search

/-- The guard of a raw literal. The search for it starts with one number sign, never goes on for
ever, passes through all lengths up to that of the guard and stops there. That length is the least
from one on that nothing in the text closes; it is one for a text without a double quote, and else
one more than the longest run of number signs right behind a double quote. -/
theorem rawLiteral_guard (s : String) :
    ∃ n, rawLiteral s =
        "r" ++ String.ofList (List.replicate n '#') ++ "\"" ++ s ++ "\"" ++
          String.ofList (List.replicate n '#') ∧
      Acc (fun m k => Lengthens s.toList k m) 1 ∧
      (∀ m, Relation.ReflTransGen (Lengthens s.toList) 1 m ↔ 1 ≤ m ∧ m ≤ n) ∧
      (∀ m, ¬ Lengthens s.toList n m) ∧
      IsLeast {m | 1 ≤ m ∧ ¬ guardMark m <:+: s.toList} n ∧
      ('"' ∉ s.toList ∧ n = 1 ∨
        ∃ longest, IsGreatest {k | IsQuoteRun s.toList k} longest ∧ n = 1 + longest) := by
  refine ⟨leastGuard s.toList 1, rfl, acc_lengthens _ 1, fun m => lengthens_reaches_iff,
    not_lengthens_leastGuard _ 1, isLeast_leastGuard _ 1, ?_⟩
  by_cases hquote : '"' ∈ s.toList
  · obtain ⟨longest, hn⟩ := Nat.exists_eq_add_of_le' (le_leastGuard s.toList 1)
    exact .inr ⟨longest, isGreatest_isQuoteRun hquote hn, by omega⟩
  · exact .inl ⟨hquote, leastGuard_of_no_quote hquote⟩

/-- The quote that the text ends with touches the guard. -/
example : rawLiteral "a\"#b\"##\"" = "r###\"a\"#b\"##\"\"###" := by cbv

end PegKit.Text
