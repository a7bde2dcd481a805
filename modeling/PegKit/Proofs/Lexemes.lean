import PegKit.Cursor
import Mathlib.Tactic.SplitIfs

/-! The lexemes of a text, cut off its front one by one, and the tokens that they become once they
have a place. No lexeme looks at its place, so a source is read in two steps: cut, then put. -/

namespace PegKit

namespace Lexeme

theorem throughFirst_prefix (mark input : List Char) : throughFirst mark input <+: input := by
  induction input with
  | nil => exact List.nil_prefix
  | cons c rest ih =>
    unfold throughFirst
    split
    · rename_i h; exact List.isPrefixOf_iff_prefix.1 h
    · exact List.cons_prefix_cons.2 ⟨rfl, ih⟩

theorem literalBody_prefix (delimiter : Char) (escape : Option Char) (escaped : Bool)
    (input : List Char) : (literalBody delimiter escape escaped input).1 <+: input := by
  induction input generalizing escaped with
  | nil => exact List.nil_prefix
  | cons c rest ih =>
    unfold literalBody
    split_ifs with hb hc
    · exact List.nil_prefix
    · exact List.cons_prefix_cons.2 ⟨rfl, List.nil_prefix⟩
    · exact List.cons_prefix_cons.2 ⟨rfl, ih _⟩

theorem first_cases (rules : LexicalRules) (c : Char) (rest : List Char) :
    whitespace? (c :: rest) = some (first rules c rest) ∨
    (∃ b ∈ rules.blockComments,
      blockComment? (c :: rest) b.opening.toList b.closing.toList = some (first rules c rest)) ∨
    (∃ m ∈ rules.lineComments, lineComment? (c :: rest) m.toList = some (first rules c rest)) ∨
    stringLiteral? rules (c :: rest) = some (first rules c rest) ∨
    symbol? (c :: rest) = some (first rules c rest) ∨
    identifier? (c :: rest) = some (first rules c rest) ∨
    first rules c rest = ⟨.operator, [c], true⟩ := by
  cases h : classified? rules (c :: rest) with
  | none => simp [first, h]
  | some x =>
    have hx : first rules c rest = x := by simp [first, h]
    rw [hx]
    simp only [classified?, Option.orElse_eq_orElse, Option.orElse_eq_or,
      Option.or_eq_some_iff] at h
    rcases h with h | ⟨_, h | ⟨_, h | ⟨_, h | ⟨_, h | ⟨_, h⟩⟩⟩⟩⟩
    · exact .inl h
    · exact .inr (.inl (List.exists_of_findSome?_eq_some h))
    · exact .inr (.inr (.inl (List.exists_of_findSome?_eq_some h)))
    · exact .inr (.inr (.inr (.inl h)))
    · exact .inr (.inr (.inr (.inr (.inl h))))
    · exact .inr (.inr (.inr (.inr (.inr (.inl h)))))

/-- What a reader gives when it reads `input`: a piece off its front, not as the end of it. -/
structure ReadOff (input : List Char) (x : Lexeme) : Prop where
  cut : x.text <+: input
  kind : x.kind ≠ .endOfInput

theorem readOff_whitespace? {input : List Char} {x : Lexeme} (h : whitespace? input = some x) :
    ReadOff input x := by
  unfold whitespace? at h
  split at h
  · simp at h
  · cases h
    rename_i blanks _
    exact ⟨List.takeWhile_prefix _, by simp⟩

theorem readOff_blockComment? {input opening closing : List Char} {x : Lexeme}
    (h : blockComment? input opening closing = some x) : ReadOff input x := by
  unfold blockComment? at h
  split at h
  · rename_i hp
    cases h
    simp only [Bool.and_eq_true] at hp
    obtain ⟨r, rfl⟩ := List.isPrefixOf_iff_prefix.1 hp.2
    refine ⟨?_, by simp⟩
    simpa using throughFirst_prefix closing r
  · simp at h

theorem readOff_lineComment? {input mark : List Char} {x : Lexeme}
    (h : lineComment? input mark = some x) : ReadOff input x := by
  unfold lineComment? at h
  split at h
  · rename_i hp
    cases h
    simp only [Bool.and_eq_true] at hp
    obtain ⟨r, rfl⟩ := List.isPrefixOf_iff_prefix.1 hp.2
    refine ⟨?_, by simp⟩
    simpa using List.takeWhile_prefix _
  · simp at h

theorem readOff_stringLiteral? {rules : LexicalRules} {input : List Char} {x : Lexeme}
    (h : stringLiteral? rules input = some x) : ReadOff input x := by
  unfold stringLiteral? at h
  split at h
  · simp at h
  · split at h
    · cases h
      exact ⟨List.cons_prefix_cons.2 ⟨rfl, literalBody_prefix _ _ _ _⟩, by simp⟩
    · simp at h

theorem readOff_symbol? {input : List Char} {x : Lexeme} (h : symbol? input = some x) :
    ReadOff input x := by
  unfold symbol? at h
  split at h <;> cases h <;> exact ⟨by simp, by simp⟩

theorem readOff_identifier? {input : List Char} {x : Lexeme} (h : identifier? input = some x) :
    ReadOff input x := by
  unfold identifier? at h
  split at h
  · simp at h
  · split at h
    · cases h
      exact ⟨List.cons_prefix_cons.2 ⟨rfl, List.takeWhile_prefix _⟩, by simp⟩
    · simp at h

theorem readOff_first (rules : LexicalRules) (c : Char) (rest : List Char) :
    ReadOff (c :: rest) (first rules c rest) := by
  rcases first_cases rules c rest with h | ⟨_, _, h⟩ | ⟨_, _, h⟩ | h | h | h | h
  · exact readOff_whitespace? h
  · exact readOff_blockComment? h
  · exact readOff_lineComment? h
  · exact readOff_stringLiteral? h
  · exact readOff_symbol? h
  · exact readOff_identifier? h
  · rw [h]; exact ⟨by simp, by simp⟩

section
variable {input : List Char} {x : Lexeme}

theorem kind_of_whitespace? (h : whitespace? input = some x) : x.kind = .whitespace := by
  unfold whitespace? at h
  split at h <;> cases h
  rfl

theorem kind_of_blockComment? {opening closing : List Char}
    (h : blockComment? input opening closing = some x) : x.kind = .comment := by
  unfold blockComment? at h
  split_ifs at h
  cases h
  rfl

theorem kind_of_lineComment? {mark : List Char} (h : lineComment? input mark = some x) :
    x.kind = .comment := by
  unfold lineComment? at h
  split_ifs at h
  cases h
  rfl

theorem kind_of_stringLiteral? {rules : LexicalRules} (h : stringLiteral? rules input = some x) :
    x.kind = .stringLiteral := by
  unfold stringLiteral? at h
  split at h
  · cases h
  · split_ifs at h
    cases h
    rfl

theorem kind_of_symbol? (h : symbol? input = some x) :
    x.kind = .arrow ∨ x.kind = .leftParen ∨ x.kind = .rightParen := by
  unfold symbol? at h
  split at h <;> cases h <;> simp

end

theorem identifier?_of_kind {rules : LexicalRules} {c : Char} {rest : List Char}
    (hk : (first rules c rest).kind = .identifier) :
    identifier? (c :: rest) = some (first rules c rest) := by
  rcases first_cases rules c rest with h | ⟨_, _, h⟩ | ⟨_, _, h⟩ | h | h | h | h
  · simp [kind_of_whitespace? h] at hk
  · simp [kind_of_blockComment? h] at hk
  · simp [kind_of_lineComment? h] at hk
  · simp [kind_of_stringLiteral? h] at hk
  · rcases kind_of_symbol? h with h | h | h <;> simp [h] at hk
  · exact h
  · simp [h] at hk

theorem first_text_append_drop (rules : LexicalRules) (c : Char) (rest : List Char) :
    (first rules c rest).text ++ (c :: rest).drop (first rules c rest).text.length = c :: rest :=
  (List.prefix_iff_eq_append).1 (readOff_first rules c rest).cut

end Lexeme

/-- The lexemes of a text, in order. -/
def lexemes (rules : LexicalRules) : List Char → List Lexeme
  | [] => []
  | c :: rest =>
    Lexeme.first rules c rest ::
      lexemes rules ((c :: rest).drop (Lexeme.first rules c rest).text.length)
termination_by input => input.length
decreasing_by
  have := List.length_pos_iff.2 (Lexeme.first_text_ne_nil rules c rest)
  simp only [List.length_drop, List.length_cons]
  omega

/-- What stands behind a text does not matter to the rest of it either, where it does not matter to
the first lexeme. -/
theorem lexemes_cons_append {rules : LexicalRules} {c : Char} {rest after : List Char}
    (h : Lexeme.first rules c (rest ++ after) = Lexeme.first rules c rest) :
    lexemes rules (c :: rest ++ after) =
      Lexeme.first rules c rest ::
        lexemes rules ((c :: rest).drop (Lexeme.first rules c rest).text.length ++ after) := by
  have hcut := (Lexeme.readOff_first rules c rest).cut.length_le
  rw [List.cons_append, lexemes, h, ← List.cons_append, List.drop_append_of_le_length hcut]

def Lexeme.endOfInput : Lexeme := ⟨.endOfInput, [], true⟩

def Lexeme.joined (xs : List Lexeme) : List Char := xs.flatMap Lexeme.text

@[simp] theorem Lexeme.joined_nil : joined [] = [] := rfl

@[simp] theorem Lexeme.joined_cons (x : Lexeme) (xs : List Lexeme) :
    joined (x :: xs) = x.text ++ joined xs := rfl

@[simp] theorem Lexeme.joined_append (xs ys : List Lexeme) :
    joined (xs ++ ys) = joined xs ++ joined ys := by
  simp [joined]

theorem joined_lexemes (rules : LexicalRules) (input : List Char) :
    Lexeme.joined (lexemes rules input) = input := by
  fun_induction lexemes rules input with
  | case1 => rfl
  | case2 c rest ih => rw [Lexeme.joined_cons, ih, Lexeme.first_text_append_drop]

theorem exists_first_of_mem_lexemes {rules : LexicalRules} {input : List Char} {x : Lexeme}
    (h : x ∈ lexemes rules input) : ∃ c rest, x = Lexeme.first rules c rest := by
  fun_induction lexemes rules input with
  | case1 => simp at h
  | case2 c rest ih =>
    rcases List.mem_cons.1 h with rfl | h
    · exact ⟨c, rest, rfl⟩
    · exact ih h

theorem text_ne_nil_of_mem_lexemes {rules : LexicalRules} {input : List Char} {x : Lexeme}
    (h : x ∈ lexemes rules input) : x.text ≠ [] := by
  obtain ⟨c, rest, rfl⟩ := exists_first_of_mem_lexemes h
  exact Lexeme.first_text_ne_nil rules c rest

theorem kind_ne_endOfInput_of_mem_lexemes {rules : LexicalRules} {input : List Char} {x : Lexeme}
    (h : x ∈ lexemes rules input) : x.kind ≠ .endOfInput := by
  obtain ⟨c, rest, rfl⟩ := exists_first_of_mem_lexemes h
  exact (Lexeme.readOff_first rules c rest).kind

theorem length_lexemes_le (rules : LexicalRules) (input : List Char) :
    (lexemes rules input).length ≤ input.length := by
  fun_induction lexemes rules input with
  | case1 => exact Nat.le_refl _
  | case2 c rest ih =>
    have := List.length_pos_iff.2 (Lexeme.first_text_ne_nil rules c rest)
    simp only [List.length_drop, List.length_cons] at ih ⊢
    omega

/-- The tokens that lexemes become when the first of them stands at `l`. -/
def placed : Location → List Lexeme → List Token
  | _, [] => []
  | l, x :: xs => x.located l :: placed (l.advance x.text) xs

theorem placed_append (l : Location) (xs ys : List Lexeme) :
    placed l (xs ++ ys) = placed l xs ++ placed (l.advance (Lexeme.joined xs)) ys := by
  induction xs generalizing l with
  | nil => rfl
  | cons x xs ih => simp [placed, ih, Location.advance_append]

@[simp] theorem length_placed (l : Location) (xs : List Lexeme) :
    (placed l xs).length = xs.length := by
  induction xs generalizing l with
  | nil => rfl
  | cons x xs ih => simp [placed, ih]

def Token.lexeme (t : Token) : Lexeme := ⟨t.kind, t.text.toList, t.closed⟩

@[simp] theorem lexeme_located (x : Lexeme) (l : Location) : (x.located l).lexeme = x := by
  simp [Lexeme.located, Token.lexeme]

theorem map_lexeme_placed (l : Location) (xs : List Lexeme) :
    (placed l xs).map Token.lexeme = xs := by
  induction xs generalizing l with
  | nil => rfl
  | cons x xs ih => simp [placed, ih]

theorem lexeme_mem_of_mem_placed {l : Location} {xs : List Lexeme} {t : Token}
    (h : t ∈ placed l xs) : t.lexeme ∈ xs := by
  rw [← map_lexeme_placed l xs]
  exact List.mem_map_of_mem h

namespace Cursor

theorem next_of_nil {c : Cursor} (hf : c.finished = false) (hr : c.rest = []) :
    c.next = some (.endOfInput c.location, { c with finished := true }) := by
  simp [next, hf, hr]

theorem next_of_cons {c : Cursor} {ch : Char} {chars : List Char} (hf : c.finished = false)
    (hr : c.rest = ch :: chars) :
    c.next = some ((Lexeme.first c.rules ch chars).located c.location,
      { c with
        rest := (ch :: chars).drop (Lexeme.first c.rules ch chars).text.length
        location := c.location.advance (Lexeme.first c.rules ch chars).text }) := by
  simp [next, hf, hr]

theorem remaining_of_finished {c : Cursor} (hf : c.finished = true) : c.remaining = [] := by
  rw [remaining_eq]
  simp [next, hf]

/-- A cursor that is not finished gives the lexemes of its text from its place on, and the end. -/
theorem remaining_of_not_finished (rules : LexicalRules) (input : List Char) (l : Location) :
    (Cursor.mk rules input l false).remaining =
      placed l (lexemes rules input ++ [.endOfInput]) := by
  fun_induction lexemes rules input generalizing l with
  | case1 =>
    rw [remaining_eq, next_of_nil rfl rfl]
    simp only [remaining_of_finished, List.nil_append]
    rfl
  | case2 c rest ih =>
    rw [remaining_eq, next_of_cons rfl rfl]
    simp only [ih, placed, List.cons_append]

end Cursor

theorem tokenize_eq (rules : LexicalRules) (source : String) :
    tokenize rules source = placed .start (lexemes rules source.toList ++ [.endOfInput]) :=
  Cursor.remaining_of_not_finished rules source.toList .start

theorem tokenize_eq_concat (rules : LexicalRules) (source : String) :
    tokenize rules source =
      placed .start (lexemes rules source.toList) ++
        [.endOfInput (Location.start.advance source.toList)] := by
  rw [tokenize_eq, placed_append, joined_lexemes]
  rfl

theorem exists_tokenize_eq (rules : LexicalRules) (source : String) :
    ∃ l, tokenize rules source =
      placed .start (lexemes rules source.toList) ++ [Lexeme.endOfInput.located l] :=
  ⟨_, tokenize_eq_concat rules source⟩

/-- But for the end, the tokens of a source are its lexemes. -/
theorem map_lexeme_tokenize (rules : LexicalRules) (source : String) :
    (tokenize rules source).dropLast.map Token.lexeme = lexemes rules source.toList := by
  obtain ⟨l, hl⟩ := exists_tokenize_eq rules source
  rw [hl, List.dropLast_concat, map_lexeme_placed]

end PegKit
