import PegKit.Proofs.Comments
import PegKit.Proofs.Place

/-! A token read by itself. A reader takes a piece off the front of a text, and what stands behind
the piece can only have stopped it: the piece alone is read as the same piece. A reader that finds
nothing finds nothing in the piece of another one either. So the classes, tried in the same order,
give the same lexeme for its own text. -/

namespace PegKit

theorem literalBody_again (delimiter : Char) (escape : Option Char) (escaped : Bool)
    (input : List Char) :
    literalBody delimiter escape escaped (literalBody delimiter escape escaped input).1 =
      literalBody delimiter escape escaped input := by
  induction input generalizing escaped with
  | nil => rfl
  | cons c rest ih =>
    by_cases hb : isLineBreak c = true
    · simp [literalBody, hb]
    by_cases hd : (!escaped && escape != some c && c == delimiter) = true
    · simp [literalBody, hb, hd]
    · simp [literalBody, hb, hd, ih]

namespace Lexeme

/-- A reader that depends on no more than what it takes. -/
structure IsStable (read : List Char → Option Lexeme) : Prop where
  cut : ∀ {input x}, read input = some x → x.text <+: input
  again : ∀ {input x}, read input = some x → read x.text = some x
  nothing : ∀ {input part}, part <+: input → read input = none → read part = none

namespace IsStable

theorem none : IsStable fun _ => .none := ⟨nofun, nofun, fun _ _ => rfl⟩

theorem or {f g : List Char → Option Lexeme} (hf : IsStable f) (hg : IsStable g) :
    IsStable fun input => (f input).or (g input) where
  cut h := (Option.or_eq_some_iff.1 h).elim hf.cut fun h => hg.cut h.2
  again h := by
    rcases Option.or_eq_some_iff.1 h with h | ⟨hn, h⟩
    · rw [hf.again h, Option.some_or]
    · rw [hf.nothing (hg.cut h) hn, Option.none_or, hg.again h]
  nothing hp h := by
    obtain ⟨hn, hn'⟩ := Option.or_eq_none_iff.1 h
    rw [hf.nothing hp hn, hg.nothing hp hn', Option.or_none]

theorem findSome? {α : Type} {read : α → List Char → Option Lexeme} (entries : List α)
    (h : ∀ a ∈ entries, IsStable (read a)) :
    IsStable fun input => entries.findSome? (read · input) := by
  induction entries with
  | nil => exact none
  | cons a entries ih =>
    have hcons : (fun input => (a :: entries).findSome? (read · input)) =
        fun input => (read a input).or (entries.findSome? (read · input)) := by
      funext input
      cases hx : read a input <;> simp [hx]
    rw [hcons]
    exact (h a List.mem_cons_self).or (ih fun b hb => h b (List.mem_cons_of_mem a hb))

/-- A reader that tells from the first character whether there is something for it. -/
theorem nothing_of_head {read : List Char → Option Lexeme} (starts : Char → Bool)
    (hnil : read [] = .none) (hcons : ∀ c rest, read (c :: rest) = .none ↔ starts c = false)
    {input part : List Char} (hp : part <+: input) (h : read input = .none) :
    read part = .none := by
  cases part with
  | nil => exact hnil
  | cons c part =>
    obtain ⟨rest, rfl⟩ := hp
    exact (hcons c part).2 ((hcons c (part ++ rest)).1 h)

end IsStable

theorem whitespace?_eq (input : List Char) :
    whitespace? input =
      if input.takeWhile isBlank = [] then none
      else some ⟨.whitespace, input.takeWhile isBlank, true⟩ := by
  unfold whitespace?
  split <;> simp_all

theorem isStable_whitespace? : IsStable whitespace? where
  cut h := (readOff_whitespace? h).cut
  again h := by
    rw [whitespace?_eq] at h
    split_ifs at h with hne
    cases h
    rw [whitespace?_eq, List.takeWhile_idem, if_neg hne]
  nothing := IsStable.nothing_of_head isBlank rfl fun c rest => by
    cases hc : isBlank c <;> simp [whitespace?, hc]

theorem isStable_blockComment? (opening closing : List Char) :
    IsStable (blockComment? · opening closing) where
  cut h := (readOff_blockComment? h).cut
  again h := by
    obtain ⟨ho, hc, rest, _, rfl⟩ := blockComment?_eq_some h
    rw [blockComment?_append ho hc, throughFirst_throughFirst]
  nothing hp h := by
    rw [blockComment?_eq_none_iff] at h ⊢
    exact fun ⟨ho, hc, hp'⟩ => h ⟨ho, hc, hp'.trans hp⟩

theorem isStable_lineComment? (mark : List Char) : IsStable (lineComment? · mark) where
  cut h := (readOff_lineComment? h).cut
  again h := by
    obtain ⟨hm, rest, _, rfl⟩ := lineComment?_eq_some h
    rw [lineComment?_append hm, firstLine, firstLine, List.takeWhile_idem]
  nothing hp h := by
    rw [lineComment?_eq_none_iff] at h ⊢
    exact fun hlive => h ⟨hlive.1, hlive.2.trans hp⟩

theorem isStable_stringLiteral? (rules : LexicalRules) : IsStable (stringLiteral? rules) where
  cut h := (readOff_stringLiteral? h).cut
  again {input x} h := by
    cases input with
    | nil => cases h
    | cons c rest =>
      simp only [stringLiteral?] at h
      split_ifs at h with hc
      cases h
      simp only [stringLiteral?, hc, if_true, literalBody_again]
  nothing := IsStable.nothing_of_head (fun c => rules.stringDelimiters.contains c) rfl
    fun c rest => by simp [stringLiteral?]

theorem isStable_symbol? : IsStable symbol? where
  cut h := (readOff_symbol? h).cut
  again {input x} h := by
    unfold symbol? at h
    split at h <;> cases h <;> rfl
  nothing {input part} hp h := by
    cases part with
    | nil => rfl
    | cons c part =>
      obtain ⟨rest, rfl⟩ := hp
      rw [List.cons_append, symbol?_cons] at h
      rw [symbol?_cons]
      split_ifs at h ⊢ with h1 h2 h3 h4 <;> simp_all

theorem isStable_identifier? : IsStable identifier? where
  cut h := (readOff_identifier? h).cut
  again {input x} h := by
    cases input with
    | nil => cases h
    | cons c rest =>
      simp only [identifier?] at h
      split_ifs at h with hc
      cases h
      simp only [identifier?, hc, if_true, List.takeWhile_idem]
  nothing := IsStable.nothing_of_head isNameStart rfl fun c rest => by
    cases hc : isNameStart c <;> simp [identifier?, hc]

theorem isStable_classified? (rules : LexicalRules) : IsStable (classified? rules) := by
  have hblocks := IsStable.findSome? rules.blockComments fun b _ =>
    isStable_blockComment? b.opening.toList b.closing.toList
  have hmarks := IsStable.findSome? rules.lineComments fun mark _ =>
    isStable_lineComment? mark.toList
  have hall := isStable_whitespace?.or <| hblocks.or <| hmarks.or <|
    (isStable_stringLiteral? rules).or <| isStable_symbol?.or isStable_identifier?
  convert hall using 2 with input
  simp only [classified?, Option.orElse_eq_orElse, Option.orElse_eq_or]

/-- A lexeme stands first, and alone, in its own text. -/
theorem first_again (rules : LexicalRules) (c : Char) (rest : List Char) :
    ∃ body, (first rules c rest).text = c :: body ∧ first rules c body = first rules c rest := by
  have hstable := isStable_classified? rules
  cases h : classified? rules (c :: rest) with
  | some x =>
    have hx : first rules c rest = x := by simp [first, h]
    obtain ⟨d, body, ht⟩ := List.exists_cons_of_ne_nil (classified?_text_ne_nil h)
    obtain rfl : d = c := (List.cons_prefix_cons.1 (ht ▸ hstable.cut h)).1
    refine ⟨body, by rw [hx, ht], ?_⟩
    rw [hx, first, ← ht, hstable.again h]
    rfl
  | none =>
    have hx : first rules c rest = ⟨.operator, [c], true⟩ := by simp [first, h]
    have hone : [c] <+: c :: rest := List.cons_prefix_cons.2 ⟨rfl, List.nil_prefix⟩
    refine ⟨[], by rw [hx], ?_⟩
    rw [hx, first, hstable.nothing hone h]
    rfl

end Lexeme

theorem lexemes_text {rules : LexicalRules} {input : List Char} {x : Lexeme}
    (h : x ∈ lexemes rules input) : lexemes rules x.text = [x] := by
  obtain ⟨c, rest, rfl⟩ := exists_first_of_mem_lexemes h
  obtain ⟨body, ht, hx⟩ := Lexeme.first_again rules c rest
  rw [ht, lexemes, hx, ht, List.drop_length, lexemes]

/-- A token read by itself is one token, the same but for its place, and then the end. -/
theorem tokenize_text {rules : LexicalRules} {source : String} {t : Token}
    (ht : t ∈ tokenize rules source) (hk : t.kind ≠ .endOfInput) :
    tokenize rules t.text =
      [⟨t.kind, t.text, .start, t.closed⟩, .endOfInput (.behind t.text.toList)] := by
  rw [tokenize_eq_concat, List.mem_append, List.mem_singleton] at ht
  rcases ht with ht | rfl
  · have hself : lexemes rules t.text.toList = [t.lexeme] :=
      lexemes_text (lexeme_mem_of_mem_placed ht)
    rw [tokenize_eq_concat, hself, Location.start_advance]
    simp [placed, Lexeme.located, Token.lexeme]
  · exact absurd rfl hk

/-- Marks that run into one another: an opening one shares its end with the closing one, and one of
a line comment goes over the end of the line. -/
def LexicalRules.overlapping : LexicalRules where
  lineComments := ["(\n"]
  blockComments := [⟨"(*", "*)"⟩]
  stringDelimiters := ['"']
  escape := some '"'

theorem tokenize_text_overlapping :
    ⟨.comment, "(*)\"*)", ⟨2, 1, 2⟩, true⟩ ∈ tokenize .overlapping "é(*)\"*)(\n)\"\r" ∧
    TokenKind.comment ≠ .endOfInput ∧
    tokenize .overlapping "(*)\"*)" =
      [⟨.comment, "(*)\"*)", .start, true⟩, .endOfInput ⟨6, 1, 7⟩] ∧
    ⟨.comment, "(\n)\"", ⟨8, 1, 8⟩, true⟩ ∈ tokenize .overlapping "é(*)\"*)(\n)\"\r" ∧
    tokenize .overlapping "(\n)\"" =
      [⟨.comment, "(\n)\"", .start, true⟩, .endOfInput ⟨4, 2, 3⟩] := by
  have hblock : ⟨.comment, "(*)\"*)", ⟨2, 1, 2⟩, true⟩ ∈
      tokenize .overlapping "é(*)\"*)(\n)\"\r" := by decide +kernel
  have hline : ⟨.comment, "(\n)\"", ⟨8, 1, 8⟩, true⟩ ∈
      tokenize .overlapping "é(*)\"*)(\n)\"\r" := by decide +kernel
  have hk : TokenKind.comment ≠ .endOfInput := by decide
  exact ⟨hblock, hk, tokenize_text hblock hk, hline, tokenize_text hline hk⟩

end PegKit
