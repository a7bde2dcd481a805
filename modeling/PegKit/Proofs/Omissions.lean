import PegKit.Proofs.Grouping
import PegKit.Proofs.Reach

/-! Tokens that the check can do without. Trivia only reaches further, and how far the tokens reach
is asked for at the end alone. So trivia may be left out where some token with structure reaches as
far as any. In a source that token is the end of the input, which may be left out itself as long as
the trivia stays. -/

namespace PegKit

namespace Progress

def reaching (p : Progress) (n : Nat) : Progress := { p with reach := n }

theorem visit_reaching (p : Progress) (n : Nat) (t : Token) :
    (p.reaching n).visit t = (p.visit t).reaching (max n t.span.stop) := by
  rcases p.trivia_or_strays t with ht | hs | ⟨ht, hs⟩
  · rw [visit_trivia ht, visit_trivia ht]
    rfl
  · have hs' : (p.reaching n).Strays t := hs
    rw [visit_stray hs, visit_stray hs']
    rfl
  · have hs' : ¬ (p.reaching n).Strays t := hs
    rw [visit_other ht hs, visit_other ht hs']
    rfl

theorem foldl_visit_significant (p : Progress) (n : Nat) (tokens : List Token) :
    ∃ m, (PegKit.significant tokens).foldl visit (p.reaching n) =
      (tokens.foldl visit p).reaching m := by
  induction tokens generalizing p n with
  | nil => exact ⟨n, rfl⟩
  | cons t tokens ih =>
    rw [List.foldl_cons]
    cases ht : t.isTrivia with
    | true =>
      rw [significant_cons_of_trivia ht, visit_trivia ht]
      exact ih (p.reaching (max p.reach t.span.stop)) n
    | false =>
      rw [significant_cons ht, List.foldl_cons, visit_reaching]
      exact ih _ _

end Progress

theorem reach_eq_of_furthest {tokens : List Token} {t : Token} (ht : t ∈ tokens)
    (hmax : ∀ u ∈ tokens, u.span.stop ≤ t.span.stop) :
    (tokens.foldl Progress.visit .initial).reach = t.span.stop := by
  have hstop : (tokens.map fun u => u.span.stop).max? = some t.span.stop := by
    refine List.max?_eq_some_iff.2 ⟨List.mem_map_of_mem ht, fun n hn => ?_⟩
    obtain ⟨u, hu, rfl⟩ := List.mem_map.1 hn
    exact hmax u hu
  exact Option.some.inj ((max?_stops_eq (List.ne_nil_of_mem ht)).symm.trans hstop)

/-- Trivia has no effect where a token with structure reaches as far as any. -/
theorem validate_significant {tokens : List Token} {t : Token} (ht : t ∈ significant tokens)
    (hmax : ∀ u ∈ tokens, u.span.stop ≤ t.span.stop) :
    validate (significant tokens) = validate tokens := by
  have hsub : ∀ u ∈ significant tokens, u ∈ tokens := fun u hu => (List.mem_filter.1 hu).1
  obtain ⟨m, hm⟩ := Progress.foldl_visit_significant .initial 0 tokens
  have hm' : (significant tokens).foldl Progress.visit .initial =
      (tokens.foldl Progress.visit .initial).reaching m := hm
  -- with the trivia or without, the check comes as far as the token `t`
  have hreach : m = (tokens.foldl Progress.visit .initial).reach :=
    calc m = ((significant tokens).foldl Progress.visit .initial).reach := by rw [hm']; rfl
      _ = t.span.stop := reach_eq_of_furthest ht fun u hu => hmax u (hsub u hu)
      _ = (tokens.foldl Progress.visit .initial).reach :=
        (reach_eq_of_furthest (hsub t ht) hmax).symm
  rw [validate, validate, hm', hreach]
  rfl

theorem stop_le_of_mem_placed {l : Location} {xs : List Lexeme} {t : Token} (h : t ∈ placed l xs) :
    t.span.stop ≤ (l.advance (Lexeme.joined xs)).offset := by
  induction xs generalizing l with
  | nil => cases h
  | cons x xs ih =>
    rw [Lexeme.joined_cons, Location.advance_append]
    rcases List.mem_cons.1 h with rfl | h
    · rw [stop_located]
      exact offset_le_advance _ _
    · exact ih h

section
variable (rules : LexicalRules) (source : String)

theorem stop_le_stop_endOfInput :
    ∀ t ∈ tokenize rules source,
      t.span.stop ≤ (Token.endOfInput (Location.start.advance source.toList)).span.stop := by
  intro t ht
  have hend := stop_located .endOfInput (Location.start.advance source.toList)
  rw [tokenize_eq_concat, List.mem_append, List.mem_singleton] at ht
  rcases ht with ht | rfl
  · have hle := stop_le_of_mem_placed ht
    rw [joined_lexemes] at hle
    exact hle.trans hend.ge
  · exact Nat.le_refl _

theorem filter_ne_endOfInput_tokenize :
    ((tokenize rules source).filter fun t => t.kind != .endOfInput) =
      (tokenize rules source).dropLast := by
  have hkind : ∀ t ∈ placed .start (lexemes rules source.toList), t.kind ≠ .endOfInput :=
    fun t ht => kind_ne_endOfInput_of_mem_lexemes (lexeme_mem_of_mem_placed ht)
  rw [tokenize_eq_concat, List.dropLast_concat, List.filter_append,
    List.filter_eq_self.2 (by simpa using hkind)]
  exact List.append_nil _

/-- The tokens of a source are checked alike without the end of the input, and alike without their
trivia: the same report, with the same places. -/
theorem validate_tokenize_filter :
    validate ((tokenize rules source).filter fun t => t.kind != .endOfInput) =
      validate (tokenize rules source) ∧
    validate ((tokenize rules source).filter fun t => t.kind != .whitespace && t.kind != .comment) =
      validate (tokenize rules source) := by
  have hend : .endOfInput (Location.start.advance source.toList) ∈
      significant (tokenize rules source) := by
    rw [tokenize_eq_concat]
    exact List.mem_filter.2 ⟨List.mem_concat_self, rfl⟩
  constructor
  · rw [filter_ne_endOfInput_tokenize, validate_dropLast_tokenize]
  · exact validate_significant hend (stop_le_stop_endOfInput rules source)

end

/-- Without either, the group is reported no further than its opening. -/
example : validate (significant (tokenize .standard "( ")).dropLast ≠
    validate (tokenize .standard "( ") := by
  decide +kernel

end PegKit
