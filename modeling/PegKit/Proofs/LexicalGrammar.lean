import PegKit.Proofs.Lexemes
import PegKit.Proofs.Literals
import Mathlib

/-! The standard conventions as a grammar: what the text of each class looks like, and what may not
stand behind it. A text can be cut in one way only so that all its pieces obey, and that is how the
scanner cuts it. -/

namespace PegKit

def IsBlank (c : Char) : Prop := c = ' ' ∨ c = '\t' ∨ c = '\r' ∨ c = '\n'

def IsQuote (c : Char) : Prop := c = '"' ∨ c = '\''

def IsNameStart (c : Char) : Prop := 'A' ≤ c ∧ c ≤ 'Z' ∨ 'a' ≤ c ∧ c ≤ 'z' ∨ c = '_'

def IsNamePart (c : Char) : Prop := IsNameStart c ∨ '0' ≤ c ∧ c ≤ '9'

/-- A character that starts nothing longer, but for a less-than sign. -/
def IsOperator (c : Char) : Prop :=
  ¬ IsBlank c ∧ c ≠ '#' ∧ ¬ IsQuote c ∧ c ≠ '(' ∧ c ≠ ')' ∧ ¬ IsNameStart c

instance (c : Char) : Decidable (IsBlank c) := inferInstanceAs (Decidable (_ ∨ _))
instance (c : Char) : Decidable (IsQuote c) := inferInstanceAs (Decidable (_ ∨ _))
instance (c : Char) : Decidable (IsNameStart c) := inferInstanceAs (Decidable (_ ∨ _))

theorem isBlank_iff {c : Char} : isBlank c = true ↔ IsBlank c := by
  simp [isBlank, IsBlank, or_assoc]

theorem isNameStart_iff {c : Char} : isNameStart c = true ↔ IsNameStart c := by
  simp [isNameStart, IsNameStart, Char.isAlpha, Char.isUpper, Char.isLower, or_assoc, Char.le_def]

theorem isNamePart_iff {c : Char} : isNamePart c = true ↔ IsNamePart c := by
  simp [isNamePart, IsNamePart, IsNameStart, Char.isAlphanum, Char.isAlpha, Char.isUpper,
    Char.isLower, Char.isDigit, Char.le_def]
  tauto

namespace Lexeme

/-- The texts of each class. -/
inductive Fits : Lexeme → Prop
  | whitespace {text : List Char} (hn : text ≠ []) (ht : ∀ c ∈ text, IsBlank c) :
      Fits ⟨.whitespace, text, true⟩
  | comment {body : List Char} (hb : ∀ c ∈ body, c ≠ '\r' ∧ c ≠ '\n') :
      Fits ⟨.comment, '#' :: body, true⟩
  | closedString {q : Char} {body : List Char} (hq : IsQuote q)
      (hb : LiteralUnits q (some '\\') body) : Fits ⟨.stringLiteral, q :: (body ++ [q]), true⟩
  | openString {q : Char} {body : List Char} (hq : IsQuote q)
      (hb : LiteralUnits q (some '\\') body) : Fits ⟨.stringLiteral, q :: body, false⟩
  | danglingString {q : Char} {body : List Char} (hq : IsQuote q)
      (hb : LiteralUnits q (some '\\') body) : Fits ⟨.stringLiteral, q :: (body ++ ['\\']), false⟩
  | arrow : Fits ⟨.arrow, ['<', '-'], true⟩
  | leftParen : Fits ⟨.leftParen, ['('], true⟩
  | rightParen : Fits ⟨.rightParen, [')'], true⟩
  | identifier {c : Char} {rest : List Char} (hc : IsNameStart c) (hr : ∀ d ∈ rest, IsNamePart d) :
      Fits ⟨.identifier, c :: rest, true⟩
  | operator {c : Char} (hc : IsOperator c) : Fits ⟨.operator, [c], true⟩

/-- Whether a lexeme can end before `rest`. -/
def StopsAt (x : Lexeme) (rest : List Char) : Prop :=
  match x.kind, x.closed with
  | .whitespace, _ => ∀ c ∈ rest.head?, ¬ IsBlank c
  | .comment, _ | .stringLiteral, false => AtLineEnd rest
  | .identifier, _ => ∀ c ∈ rest.head?, ¬ IsNamePart c
  | .operator, _ => x.text = ['<'] → rest.head? ≠ some '-'
  | _, _ => True

/-- Whether a lexeme can end before the lexemes that follow: blanks before anything but blanks, any
other class before a text of the right kind. -/
def EndsBefore (x : Lexeme) (after : List Lexeme) : Prop :=
  match x.kind with
  | .whitespace => ∀ y ∈ after.head?, y.kind ≠ .whitespace
  | _ => x.StopsAt (joined after)

/-- The pieces of a text: together they are the text, each has the form of its class, and none ends
too early. -/
structure Cuts (xs : List Lexeme) (source : List Char) : Prop where
  covers : joined xs = source
  fits : ∀ x ∈ xs, x.Fits
  ends : ∀ before x after, xs = before ++ x :: after → x.EndsBefore after

theorem Fits.text_ne_nil {x : Lexeme} (h : x.Fits) : x.text ≠ [] := by
  cases h <;> simp_all

theorem IsNameStart.isOrdinary {c : Char} (h : IsNameStart c) :
    ¬ IsBlank c ∧ c ≠ '#' ∧ ¬ IsQuote c ∧ c ≠ '(' ∧ c ≠ ')' ∧ c ≠ '<' := by
  have hd : ∀ d : Char, ¬ IsNameStart d → c ≠ d := fun d hn he => hn (he ▸ h)
  simp only [IsBlank, IsQuote, not_or]
  refine ⟨⟨?_, ?_, ?_, ?_⟩, ?_, ⟨?_, ?_⟩, ?_, ?_, ?_⟩ <;> exact hd _ (by decide)

theorem Fits.kind_eq_whitespace_iff {x : Lexeme} (h : x.Fits) :
    x.kind = .whitespace ↔ ∃ c ∈ x.text.head?, IsBlank c := by
  cases h with
  | @whitespace text hn ht =>
    obtain ⟨c, rest, rfl⟩ := List.exists_cons_of_ne_nil hn
    simpa using ht c List.mem_cons_self
  | closedString hq _ | openString hq _ | danglingString hq _ =>
    rcases hq with rfl | rfl <;> simp [IsBlank]
  | identifier hc _ => simpa using (IsNameStart.isOrdinary hc).1
  | operator hc => simpa using hc.1
  | comment _ | arrow | leftParen | rightParen => simp [IsBlank]

theorem endsBefore_iff_stopsAt {x : Lexeme} {after : List Lexeme} (h : ∀ y ∈ after, y.Fits) :
    x.EndsBefore after ↔ x.StopsAt (joined after) := by
  unfold EndsBefore
  split
  · rename_i hk
    simp only [StopsAt, hk]
    cases after with
    | nil => simp
    | cons y ys =>
      have hy := h y List.mem_cons_self
      have hhead : (joined (y :: ys)).head? = y.text.head? := by
        obtain ⟨c, rest, hc⟩ := List.exists_cons_of_ne_nil hy.text_ne_nil
        simp [hc]
      rw [hhead]
      simpa using hy.kind_eq_whitespace_iff.not
  · rfl

section
variable {rest : List Char}

theorem takeWhile_append_stop {p : Char → Bool} {body : List Char} (hb : ∀ c ∈ body, p c = true)
    (hr : ∀ c ∈ rest.head?, p c = false) : (body ++ rest).takeWhile p = body := by
  rw [List.takeWhile_append_of_pos hb]
  cases rest with
  | nil => simp
  | cons c rest => simp [hr c rfl]

theorem forall_head?_dropWhile (p : Char → Bool) (input : List Char) :
    ∀ c ∈ (input.dropWhile p).head?, p c = false := by
  intro c hc
  have := List.head?_dropWhile_not p input
  rw [Option.mem_def.1 hc] at this
  exact this

theorem first_blank {c : Char} (rules : LexicalRules) (hc : IsBlank c) :
    first rules c rest = ⟨.whitespace, (c :: rest).takeWhile isBlank, true⟩ := by
  have h := isBlank_iff.2 hc
  simp [first, classified?, whitespace?, h]

theorem whitespace?_of_not_blank {c : Char} (hc : ¬ IsBlank c) :
    whitespace? (c :: rest) = none := by
  have h : isBlank c = false := by simpa [← isBlank_iff] using hc
  simp [whitespace?, h]

theorem first_standard {c : Char} (hc : ¬ IsBlank c) :
    first .standard c rest =
      ((lineComment? (c :: rest) ['#'] <|> stringLiteral? .standard (c :: rest) <|>
        symbol? (c :: rest) <|> identifier? (c :: rest)).getD ⟨.operator, [c], true⟩) := by
  have hm : ["#"].findSome? (fun mark => lineComment? (c :: rest) mark.toList) =
      lineComment? (c :: rest) ['#'] := by
    cases h : lineComment? (c :: rest) ['#'] <;> simp [h]
  simp [first, classified?, whitespace?_of_not_blank hc, LexicalRules.standard, hm]

theorem first_comment :
    first .standard '#' rest =
      ⟨.comment, '#' :: rest.takeWhile (fun c => !isLineBreak c), true⟩ := by
  rw [first_standard (by decide)]
  simp [lineComment?]

theorem first_quote {q : Char} (hq : IsQuote q) :
    first .standard q rest = ⟨.stringLiteral, q :: (literalBody q (some '\\') false rest).1,
      (literalBody q (some '\\') false rest).2⟩ := by
  rcases hq with rfl | rfl <;>
  · rw [first_standard (by decide)]
    simp [lineComment?, stringLiteral?, LexicalRules.standard]

theorem first_bare {c : Char} (hb : ¬ IsBlank c) (hn : c ≠ '#') (hq : ¬ IsQuote c) :
    first .standard c rest =
      ((symbol? (c :: rest) <|> identifier? (c :: rest)).getD ⟨.operator, [c], true⟩) := by
  rw [first_standard hb]
  simp only [IsQuote, not_or] at hq
  simp [lineComment?, stringLiteral?, LexicalRules.standard, hq, Ne.symm hn]

theorem first_symbol {c : Char} {x : Lexeme} (hb : ¬ IsBlank c) (hn : c ≠ '#') (hq : ¬ IsQuote c)
    (hx : symbol? (c :: rest) = some x) : first .standard c rest = x := by
  rw [first_bare hb hn hq, hx]
  rfl

theorem symbol?_eq_none {c : Char} (ha : c = '<' → rest.head? ≠ some '-') (hl : c ≠ '(')
    (hr : c ≠ ')') : symbol? (c :: rest) = none := by
  unfold symbol?
  split <;> simp_all

theorem first_name {c : Char} (hc : IsNameStart c) :
    first .standard c rest = ⟨.identifier, c :: rest.takeWhile isNamePart, true⟩ := by
  obtain ⟨hb, hn, hq, hl, hr, ha⟩ := IsNameStart.isOrdinary hc
  have hs : symbol? (c :: rest) = none := symbol?_eq_none (fun h => absurd h ha) hl hr
  rw [first_bare hb hn hq, hs]
  simp [identifier?, isNameStart_iff.2 hc]

theorem first_operator {c : Char} (hc : IsOperator c) (ha : c = '<' → rest.head? ≠ some '-') :
    first .standard c rest = ⟨.operator, [c], true⟩ := by
  obtain ⟨hb, hn, hq, hl, hr, hs⟩ := hc
  have hi : isNameStart c = false := by simpa [← isNameStart_iff] using hs
  rw [first_bare hb hn hq, symbol?_eq_none ha hl hr]
  simp [identifier?, hi]

/-- A lexeme of the grammar at the front of a text is the one that the scanner reads there. -/
theorem first_eq_of_fits {x : Lexeme} {c : Char} {body : List Char} (hf : x.Fits)
    (hs : x.StopsAt rest) (ht : x.text = c :: body) : first .standard c (body ++ rest) = x := by
  cases hf with
  | whitespace _ hb =>
    cases ht
    rw [first_blank _ (hb _ List.mem_cons_self), ← List.cons_append,
      takeWhile_append_stop (fun d hd => isBlank_iff.2 (hb d hd))]
    intro d hd
    have := hs d hd
    simpa [← isBlank_iff] using this
  | comment hb =>
    cases ht
    rw [first_comment, takeWhile_append_stop]
    · intro d hd
      simp [isLineBreak_eq_false_iff.2 (hb d hd)]
    · intro d hd
      simp [isLineBreak_iff.2 (hs d hd)]
  | closedString hq hb =>
    cases ht
    rw [first_quote hq, List.append_assoc, List.singleton_append, literalBody_closed hb]
    · rcases hq with rfl | rfl <;> decide
    · rcases hq with rfl | rfl <;> decide
  | openString hq hb =>
    cases ht
    rw [first_quote hq, literalBody_open hb hs]
  | danglingString hq hb =>
    cases ht
    rw [first_quote hq, List.append_assoc, List.singleton_append,
      literalBody_dangling hb rfl (by decide) hs]
  | arrow | leftParen | rightParen =>
    cases ht
    exact first_symbol (by decide) (by decide) (by decide) rfl
  | identifier hc hr =>
    cases ht
    rw [first_name hc, takeWhile_append_stop (fun d hd => isNamePart_iff.2 (hr d hd))]
    intro d hd
    have := hs d hd
    simpa [← isNamePart_iff] using this
  | operator hc =>
    cases ht
    exact first_operator hc (fun he => hs (by rw [he]))

end

theorem exists_fits (c : Char) (input : List Char) : ∃ (x : Lexeme) (body rest : List Char),
    x.text = c :: body ∧ input = body ++ rest ∧ x.Fits ∧ x.StopsAt rest := by
  -- the classes in the order in which the scanner tries them: each knows that those before fail
  by_cases hb : IsBlank c
  · refine ⟨⟨.whitespace, c :: input.takeWhile isBlank, true⟩, _, input.dropWhile isBlank, rfl,
      List.takeWhile_append_dropWhile.symm, .whitespace (by simp) ?_, ?_⟩
    · intro d hd
      rcases List.mem_cons.1 hd with rfl | hd
      · exact hb
      · exact isBlank_iff.1 (List.mem_takeWhile_imp hd)
    · intro d hd
      have := forall_head?_dropWhile _ _ d hd
      simpa [← isBlank_iff] using this
  by_cases hn : c = '#'
  · subst hn
    refine ⟨⟨.comment, _, true⟩, input.takeWhile (fun d => !isLineBreak d), _, rfl,
      List.takeWhile_append_dropWhile.symm, .comment ?_, ?_⟩
    · intro d hd
      have := List.mem_takeWhile_imp hd
      simpa [← isLineBreak_eq_false_iff] using this
    · intro d hd
      have := forall_head?_dropWhile _ _ d hd
      simpa [← isLineBreak_iff] using this
  by_cases hq : IsQuote c
  · obtain ⟨body, rest, rfl, hu, he⟩ := exists_units_append c (some '\\') input
    cases he with
    | closed rest =>
      exact ⟨⟨.stringLiteral, _, true⟩, body ++ [c], rest, rfl, by simp, .closedString hq hu,
        trivial⟩
    | line hr => exact ⟨⟨.stringLiteral, _, false⟩, body, rest, rfl, rfl, .openString hq hu, hr⟩
    | @dangling e rest he _ hr =>
      cases he
      exact ⟨⟨.stringLiteral, _, false⟩, body ++ ['\\'], rest, rfl, by simp,
        .danglingString hq hu, hr⟩
  by_cases hl : c = '('
  · exact ⟨⟨.leftParen, _, true⟩, [], input, rfl, rfl, hl ▸ .leftParen, trivial⟩
  by_cases hr : c = ')'
  · exact ⟨⟨.rightParen, _, true⟩, [], input, rfl, rfl, hr ▸ .rightParen, trivial⟩
  by_cases hs : IsNameStart c
  · refine ⟨⟨.identifier, _, true⟩, input.takeWhile isNamePart, _, rfl,
      List.takeWhile_append_dropWhile.symm, .identifier hs ?_, ?_⟩
    · intro d hd
      exact isNamePart_iff.1 (List.mem_takeWhile_imp hd)
    · intro d hd
      have := forall_head?_dropWhile _ _ d hd
      simpa [← isNamePart_iff] using this
  by_cases ha : c = '<' ∧ input.head? = some '-'
  · obtain ⟨rest, rfl⟩ := List.head?_eq_some_iff.1 ha.2
    exact ⟨⟨.arrow, _, true⟩, ['-'], rest, rfl, rfl, ha.1 ▸ .arrow, trivial⟩
  · refine ⟨⟨.operator, _, true⟩, [], input, rfl, rfl, .operator ⟨hb, hn, hq, hl, hr, hs⟩, ?_⟩
    intro ht hm
    exact ha ⟨by simpa using ht, hm⟩

theorem first_fits (c : Char) (input : List Char) :
    (first .standard c input).Fits ∧ (first .standard c input).StopsAt
      ((c :: input).drop (first .standard c input).text.length) := by
  obtain ⟨x, body, rest, ht, rfl, hf, hs⟩ := exists_fits c input
  rw [first_eq_of_fits hf hs ht]
  refine ⟨hf, ?_⟩
  rw [ht, ← List.cons_append, List.drop_left]
  exact hs

theorem cuts_cons_iff {x : Lexeme} {xs : List Lexeme} {source : List Char} :
    Cuts (x :: xs) source ↔
      ∃ rest, source = x.text ++ rest ∧ x.Fits ∧ x.StopsAt rest ∧ Cuts xs rest := by
  constructor
  · rintro ⟨hc, hf, he⟩
    have htail : ∀ y ∈ xs, y.Fits := fun y hy => hf y (List.mem_cons_of_mem _ hy)
    refine ⟨joined xs, hc.symm, hf x List.mem_cons_self,
      (endsBefore_iff_stopsAt htail).1 (he [] x xs rfl), rfl, htail, ?_⟩
    intro before y after h
    exact he (x :: before) y after (by rw [h]; rfl)
  · rintro ⟨rest, rfl, hf, hs, hc, htail, he⟩
    refine ⟨by rw [joined_cons, hc], List.forall_mem_cons.2 ⟨hf, htail⟩, ?_⟩
    intro before y after h
    cases before with
    | nil =>
      cases h
      rw [endsBefore_iff_stopsAt htail, hc]
      exact hs
    | cons z before =>
      cases h
      exact he before y after rfl

/-- The scanner's cut is the only one that the grammar allows. -/
theorem cuts_iff_lexemes {xs : List Lexeme} {source : List Char} :
    Cuts xs source ↔ lexemes .standard source = xs := by
  constructor
  · intro h
    induction xs generalizing source with
    | nil =>
      rw [← h.covers]
      simp [lexemes]
    | cons x xs ih =>
      obtain ⟨rest, rfl, hf, hs, hc⟩ := cuts_cons_iff.1 h
      obtain ⟨c, body, ht⟩ := List.exists_cons_of_ne_nil hf.text_ne_nil
      have hx := first_eq_of_fits hf hs ht
      have hd : (c :: (body ++ rest)).drop x.text.length = rest := by
        rw [ht, ← List.cons_append, List.drop_left]
      rw [ht, List.cons_append, lexemes, hx, hd, ih hc]
  · rintro rfl
    fun_induction lexemes .standard source with
    | case1 => exact ⟨rfl, by simp, by simp⟩
    | case2 c input ih =>
      exact cuts_cons_iff.2 ⟨_, (first_text_append_drop _ c input).symm, (first_fits c input).1,
        (first_fits c input).2, ih⟩

end Lexeme

/-- Under the standard rules the classes, texts and closing flags of the tokens are the one cut of
the source that the grammar allows. -/
theorem tokenize_standard_iff (source : String) (xs : List Lexeme) :
    Lexeme.Cuts xs source.toList ↔
      (tokenize .standard source).dropLast.map Token.lexeme = xs := by
  rw [map_lexeme_tokenize]
  exact Lexeme.cuts_iff_lexemes

end PegKit
