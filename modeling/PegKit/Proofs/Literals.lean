import PegKit.Lexeme

/-! The inside of a string literal as a sequence of units. A text has one longest run of units; the
delimiter behind it closes the literal, and a line break or the end leaves it open, at most with an
escape character that has nothing to escape. The scanner finds exactly that. -/

namespace PegKit

/-- One unit after another: an escape character with what it escapes, or a character without a
meaning of its own. No unit goes over a line break. -/
inductive LiteralUnits (delimiter : Char) (escape : Option Char) : List Char → Prop
  | nil : LiteralUnits delimiter escape []
  | escaped {e c : Char} {rest : List Char} (he : escape = some e) (hb : e ≠ '\r' ∧ e ≠ '\n')
      (hc : c ≠ '\r' ∧ c ≠ '\n') (hr : LiteralUnits delimiter escape rest) :
      LiteralUnits delimiter escape (e :: c :: rest)
  | plain {c : Char} {rest : List Char} (hd : c ≠ delimiter) (he : escape ≠ some c)
      (hc : c ≠ '\r' ∧ c ≠ '\n') (hr : LiteralUnits delimiter escape rest) :
      LiteralUnits delimiter escape (c :: rest)

/-- Nothing more stands on the line. -/
def AtLineEnd (rest : List Char) : Prop := ∀ c ∈ rest.head?, c = '\r' ∨ c = '\n'

theorem isLineBreak_iff {c : Char} : isLineBreak c = true ↔ c = '\r' ∨ c = '\n' := by
  simp [isLineBreak, or_comm]

theorem isLineBreak_eq_false_iff {c : Char} : isLineBreak c = false ↔ c ≠ '\r' ∧ c ≠ '\n' := by
  simp [isLineBreak, and_comm]

section
variable {delimiter : Char} {escape : Option Char} {body rest : List Char}

theorem literalBody_escape {e : Char} (he : escape = some e) (hb : e ≠ '\r' ∧ e ≠ '\n') :
    literalBody delimiter escape false (e :: rest) =
      (e :: (literalBody delimiter escape true rest).1,
        (literalBody delimiter escape true rest).2) := by
  simp [literalBody, isLineBreak_eq_false_iff.2 hb, he]

theorem literalBody_escaped {c : Char} (hc : c ≠ '\r' ∧ c ≠ '\n') :
    literalBody delimiter escape true (c :: rest) =
      (c :: (literalBody delimiter escape false rest).1,
        (literalBody delimiter escape false rest).2) := by
  simp [literalBody, isLineBreak_eq_false_iff.2 hc]

theorem literalBody_plain {c : Char} (hd : c ≠ delimiter) (he : escape ≠ some c)
    (hc : c ≠ '\r' ∧ c ≠ '\n') :
    literalBody delimiter escape false (c :: rest) =
      (c :: (literalBody delimiter escape false rest).1,
        (literalBody delimiter escape false rest).2) := by
  have hs : (escape == some c) = false := by simpa using he
  simp [literalBody, isLineBreak_eq_false_iff.2 hc, hd, hs]

theorem literalBody_units_append (h : LiteralUnits delimiter escape body) :
    literalBody delimiter escape false (body ++ rest) =
      (body ++ (literalBody delimiter escape false rest).1,
        (literalBody delimiter escape false rest).2) := by
  induction h with
  | nil => rfl
  | escaped he hb hc _ ih =>
    rw [List.cons_append, List.cons_append, literalBody_escape he hb, literalBody_escaped hc, ih]
    rfl
  | plain hd he hc _ ih =>
    rw [List.cons_append, literalBody_plain hd he hc, ih]
    rfl

theorem literalBody_of_atLineEnd (escaped : Bool) (h : AtLineEnd rest) :
    literalBody delimiter escape escaped rest = ([], false) := by
  cases rest with
  | nil => rfl
  | cons c rest => simp [literalBody, isLineBreak_iff.2 (h c rfl)]

theorem literalBody_closed (h : LiteralUnits delimiter escape body) (he : escape ≠ some delimiter)
    (hd : delimiter ≠ '\r' ∧ delimiter ≠ '\n') :
    literalBody delimiter escape false (body ++ delimiter :: rest) =
      (body ++ [delimiter], true) := by
  rw [literalBody_units_append h]
  simp [literalBody, isLineBreak_eq_false_iff.2 hd, he]

theorem literalBody_open (h : LiteralUnits delimiter escape body) (hr : AtLineEnd rest) :
    literalBody delimiter escape false (body ++ rest) = (body, false) := by
  rw [literalBody_units_append h, literalBody_of_atLineEnd false hr, List.append_nil]

theorem literalBody_dangling {e : Char} (h : LiteralUnits delimiter escape body)
    (he : escape = some e) (hb : e ≠ '\r' ∧ e ≠ '\n') (hr : AtLineEnd rest) :
    literalBody delimiter escape false (body ++ e :: rest) = (body ++ [e], false) := by
  rw [literalBody_units_append h, literalBody_escape he hb, literalBody_of_atLineEnd true hr]

end

/-- Where the units at the front of a text can end. -/
inductive LiteralEnd (delimiter : Char) (escape : Option Char) : List Char → Prop
  | closed (rest : List Char) : LiteralEnd delimiter escape (delimiter :: rest)
  | line {rest : List Char} (hr : AtLineEnd rest) : LiteralEnd delimiter escape rest
  | dangling {e : Char} {rest : List Char} (he : escape = some e) (hb : e ≠ '\r' ∧ e ≠ '\n')
      (hr : AtLineEnd rest) : LiteralEnd delimiter escape (e :: rest)

theorem exists_units_append (delimiter : Char) (escape : Option Char) :
    ∀ input : List Char, ∃ body rest, input = body ++ rest ∧
      LiteralUnits delimiter escape body ∧ LiteralEnd delimiter escape rest
  | [] => ⟨[], [], rfl, .nil, .line (by simp [AtLineEnd])⟩
  | c :: rest => by
    by_cases hb : isLineBreak c = true
    · exact ⟨[], _, rfl, .nil, .line (by simpa [AtLineEnd] using isLineBreak_iff.1 hb)⟩
    have hc := isLineBreak_eq_false_iff.1 (Bool.eq_false_iff.2 hb)
    by_cases he : escape = some c
    · cases rest with
      | nil => exact ⟨[], _, rfl, .nil, .dangling he hc (by simp [AtLineEnd])⟩
      | cons d rest =>
        by_cases hd : isLineBreak d = true
        · have hl : AtLineEnd (d :: rest) := by simpa [AtLineEnd] using isLineBreak_iff.1 hd
          exact ⟨[], _, rfl, .nil, .dangling he hc hl⟩
        · obtain ⟨body, tail, rfl, hu, hend⟩ := exists_units_append delimiter escape rest
          have hd := isLineBreak_eq_false_iff.1 (Bool.eq_false_iff.2 hd)
          exact ⟨c :: d :: body, tail, rfl, .escaped he hc hd hu, hend⟩
    · by_cases hd : c = delimiter
      · exact ⟨[], _, rfl, .nil, hd ▸ .closed rest⟩
      · obtain ⟨body, tail, rfl, hu, hend⟩ := exists_units_append delimiter escape rest
        exact ⟨c :: body, tail, rfl, .plain hd he hc hu, hend⟩

end PegKit
