import PegKit.Proofs.Lines

/-! Where a string is closed. A literal runs from delimiter to delimiter with units between them,
and a text does not begin with two of them. The scanner closes a string exactly where the text
begins with a literal, which it takes; a string that it leaves open takes its line. A delimiter that
is the escape character itself only ever escapes, and closes nothing. -/

namespace PegKit

/-- A string literal from one delimiter to the other. -/
def IsLiteral (delimiter : Char) (escape : Option Char) (text : List Char) : Prop :=
  ∃ body, LiteralUnits delimiter escape body ∧ text = delimiter :: (body ++ [delimiter])

section
variable {delimiter : Char} {escape : Option Char} {text rest : List Char}

theorem literalBody_fst_of_open {escaped : Bool}
    (h : (literalBody delimiter escape escaped rest).2 = false) :
    (literalBody delimiter escape escaped rest).1 = firstLine rest := by
  induction rest generalizing escaped with
  | nil => rfl
  | cons c rest ih =>
    rcases lineBreak_or_not c with hc | hc
    · rw [literalBody_of_atLineEnd escaped (atLineEnd_cons hc rest), firstLine_lineBreak hc]
    · rw [firstLine_cons hc]
      simp only [literalBody, isLineBreak_eq_false_iff.2 hc, Bool.false_eq_true, if_false] at h ⊢
      split_ifs at h ⊢
      exact congrArg (c :: ·) (ih h)

theorem literalBody_snd_of_escape_delimiter (escaped : Bool) (rest : List Char) :
    (literalBody delimiter (some delimiter) escaped rest).2 = false := by
  induction rest generalizing escaped with
  | nil => rfl
  | cons c rest ih =>
    rcases lineBreak_or_not c with hc | hc
    · rw [literalBody_of_atLineEnd escaped (atLineEnd_cons hc rest)]
    · have hend : (!escaped && some delimiter != some c && c == delimiter) = false := by
        by_cases he : c = delimiter <;> simp [he]
      simp only [literalBody, isLineBreak_eq_false_iff.2 hc, hend, Bool.false_eq_true, if_false, ih]

theorem literalBody_of_isLiteral (he : escape ≠ some delimiter)
    (hd : delimiter ≠ '\r' ∧ delimiter ≠ '\n') (h : IsLiteral delimiter escape text)
    (hp : text <+: delimiter :: rest) :
    text = delimiter :: (literalBody delimiter escape false rest).1 ∧
      (literalBody delimiter escape false rest).2 = true := by
  obtain ⟨body, hu, rfl⟩ := h
  obtain ⟨after, hrest⟩ := hp
  obtain rfl : rest = body ++ delimiter :: after := by
    simpa using hrest.symm
  rw [literalBody_closed hu he hd]
  exact ⟨rfl, rfl⟩

theorem isLiteral_of_closed (he : escape ≠ some delimiter)
    (hd : delimiter ≠ '\r' ∧ delimiter ≠ '\n')
    (h : (literalBody delimiter escape false rest).2 = true) :
    IsLiteral delimiter escape (delimiter :: (literalBody delimiter escape false rest).1) := by
  obtain ⟨body, after, rfl, hu, hend⟩ := exists_units_append delimiter escape rest
  -- only a closing delimiter behind the longest run of units gives a closed string
  cases hend with
  | closed after =>
    rw [literalBody_closed hu he hd]
    exact ⟨body, hu, rfl⟩
  | line hl =>
    rw [literalBody_open hu hl] at h
    cases h
  | dangling hs hb hl =>
    rw [literalBody_dangling hu hs hb hl] at h
    cases h

end

namespace Lexeme

section
variable {rules : LexicalRules} {delimiter : Char} (hmem : delimiter ∈ rules.stringDelimiters)
include hmem

theorem stringLiteral?_of_delimiter (rest : List Char) :
    stringLiteral? rules (delimiter :: rest) =
      some ⟨.stringLiteral, delimiter :: (literalBody delimiter rules.escape false rest).1,
        (literalBody delimiter rules.escape false rest).2⟩ := by
  simp [stringLiteral?, hmem]

theorem stringLiteral?_of_open (hd : delimiter ≠ '\r' ∧ delimiter ≠ '\n') {rest : List Char}
    (h : (literalBody delimiter rules.escape false rest).2 = false) :
    stringLiteral? rules (delimiter :: rest) =
      some ⟨.stringLiteral, firstLine (delimiter :: rest), false⟩ := by
  rw [stringLiteral?_of_delimiter hmem, literalBody_fst_of_open h, h, firstLine_cons hd]

/-- A string is closed exactly as a literal with which the text begins. There is at most one; where
there is none, the string is left open and takes the line, as it always does if its delimiter is the
escape character. -/
theorem stringLiteral_closed_iff_isLiteral (hd : delimiter ≠ '\r' ∧ delimiter ≠ '\n')
    (rest : List Char) :
    (rules.escape ≠ some delimiter →
      (∀ text, stringLiteral? rules (delimiter :: rest) = some ⟨.stringLiteral, text, true⟩ ↔
        IsLiteral delimiter rules.escape text ∧ text <+: delimiter :: rest) ∧
      (∀ text other, IsLiteral delimiter rules.escape text → text <+: delimiter :: rest →
        IsLiteral delimiter rules.escape other → other <+: delimiter :: rest → text = other) ∧
      ((∀ text, IsLiteral delimiter rules.escape text → ¬ text <+: delimiter :: rest) →
        stringLiteral? rules (delimiter :: rest) =
          some ⟨.stringLiteral, firstLine (delimiter :: rest), false⟩)) ∧
    (rules.escape = some delimiter →
      stringLiteral? rules (delimiter :: rest) =
        some ⟨.stringLiteral, firstLine (delimiter :: rest), false⟩) := by
  refine ⟨fun he => ⟨fun text => ?_, ?_, fun hn => ?_⟩, fun he => ?_⟩
  · rw [stringLiteral?_of_delimiter hmem]
    constructor
    · intro h
      obtain ⟨-, rfl, hclosed⟩ := Lexeme.mk.inj (Option.some.inj h)
      exact ⟨isLiteral_of_closed he hd hclosed,
        List.cons_prefix_cons.2 ⟨rfl, literalBody_prefix _ _ _ _⟩⟩
    · rintro ⟨h, hp⟩
      obtain ⟨htext, hclosed⟩ := literalBody_of_isLiteral he hd h hp
      rw [htext, hclosed]
  · intro text other h hp h' hp'
    exact (literalBody_of_isLiteral he hd h hp).1.trans
      (literalBody_of_isLiteral he hd h' hp').1.symm
  · refine stringLiteral?_of_open hmem hd (Bool.eq_false_iff.2 fun hclosed => ?_)
    exact hn _ (isLiteral_of_closed he hd hclosed)
      (List.cons_prefix_cons.2 ⟨rfl, literalBody_prefix _ _ _ _⟩)
  · exact stringLiteral?_of_open hmem hd (he ▸ literalBody_snd_of_escape_delimiter false rest)

end

/-- Behind an escaped escape character and an escaped delimiter one closes the string; where the
line ends behind an escaped one, none does. -/
theorem stringLiteral_closed_iff_isLiteral_escapes :
    '\'' ∈ LexicalRules.standard.stringDelimiters ∧ ('\'' ≠ '\r' ∧ '\'' ≠ '\n') ∧
    LexicalRules.standard.escape ≠ some '\'' ∧
    IsLiteral '\'' (some '\\') "'\\\\\\''".toList ∧ "'\\\\\\''".toList <+: "'\\\\\\''x'".toList ∧
    stringLiteral? .standard "'\\\\\\''x'".toList =
      some ⟨.stringLiteral, "'\\\\\\''".toList, true⟩ ∧
    (∀ text, IsLiteral '\'' (some '\\') text → ¬ text <+: "'x\\'\r'".toList) ∧
    stringLiteral? .standard "'x\\'\r'".toList =
      some ⟨.stringLiteral, "'x\\'".toList, false⟩ := by
  have hmem : '\'' ∈ LexicalRules.standard.stringDelimiters := by decide
  have hd : '\'' ≠ '\r' ∧ '\'' ≠ '\n' := by decide
  have he : LexicalRules.standard.escape ≠ some '\'' := by decide
  have hu : LiteralUnits '\'' (some '\\') "\\\\\\'".toList :=
    .escaped rfl (by decide) (by decide) (.escaped rfl (by decide) (by decide) .nil)
  have hliteral : IsLiteral '\'' (some '\\') "'\\\\\\''".toList := ⟨_, hu, rfl⟩
  have hp : "'\\\\\\''".toList <+: "'\\\\\\''x'".toList := by decide
  obtain ⟨hclosed, -, -⟩ := (stringLiteral_closed_iff_isLiteral hmem hd "\\\\\\''x'".toList).1 he
  obtain ⟨hiff, -, hopen⟩ := (stringLiteral_closed_iff_isLiteral hmem hd "x\\'\r'".toList).1 he
  have hnone : ∀ text, IsLiteral '\'' (some '\\') text → ¬ text <+: "'x\\'\r'".toList := by
    intro text h hp
    have hread : (stringLiteral? .standard "'x\\'\r'".toList).map closed = some true :=
      congrArg (Option.map closed) ((hiff text).2 ⟨h, hp⟩)
    exact absurd hread (by decide)
  exact ⟨hmem, hd, he, hliteral, hp, (hclosed _).2 ⟨hliteral, hp⟩, hnone, hopen hnone⟩

end Lexeme

end PegKit
