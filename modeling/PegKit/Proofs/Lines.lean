import PegKit.Proofs.LexicalGrammar

/-! A lexeme and the line on which it stands. Blanks and block comments go over line breaks; every
other lexeme ends on the line on which it begins, and does not look past that line either. So behind
the line the text may be anything. -/

namespace PegKit

/-- A text without a line break. -/
def IsLine (text : List Char) : Prop := ∀ c ∈ text, c ≠ '\r' ∧ c ≠ '\n'

/-- `text` up to its first line break. -/
def firstLine (text : List Char) : List Char := text.takeWhile fun c => !isLineBreak c

theorem isLine_firstLine (text : List Char) : IsLine (firstLine text) := by
  intro c hc
  have := List.mem_takeWhile_imp hc
  simpa [isLineBreak_eq_false_iff] using this

theorem lineBreak_or_not (c : Char) : (c = '\r' ∨ c = '\n') ∨ c ≠ '\r' ∧ c ≠ '\n' := by
  rw [← not_or]
  exact Classical.em _

theorem atLineEnd_cons {c : Char} (hc : c = '\r' ∨ c = '\n') (rest : List Char) :
    AtLineEnd (c :: rest) := by
  simpa [AtLineEnd] using hc

theorem firstLine_cons {c : Char} (hc : c ≠ '\r' ∧ c ≠ '\n') (rest : List Char) :
    firstLine (c :: rest) = c :: firstLine rest := by
  simp [firstLine, isLineBreak_eq_false_iff.2 hc]

theorem firstLine_of_atLineEnd {text : List Char} (h : AtLineEnd text) : firstLine text = [] := by
  cases text with
  | nil => rfl
  | cons c text => simp [firstLine, isLineBreak_iff.2 (h c rfl)]

theorem firstLine_lineBreak {c : Char} (hc : c = '\r' ∨ c = '\n') (rest : List Char) :
    firstLine (c :: rest) = [] :=
  firstLine_of_atLineEnd (atLineEnd_cons hc rest)

theorem firstLine_isLine_append {line : List Char} (h : IsLine line) (rest : List Char) :
    firstLine (line ++ rest) = line ++ firstLine rest :=
  List.takeWhile_append_of_pos fun c hc => by simp [isLineBreak_eq_false_iff.2 (h c hc)]

theorem takeWhile_append_of_head {p : Char → Bool} (text : List Char) {rest : List Char}
    (h : ∀ c ∈ rest.head?, p c = false) : (text ++ rest).takeWhile p = text.takeWhile p := by
  have hstop : rest.takeWhile p = [] := by
    cases rest with
    | nil => rfl
    | cons c rest => simp [h c rfl]
  rw [List.takeWhile_append, hstop, List.append_nil]
  split_ifs with hall
  · exact ((List.takeWhile_prefix p).eq_of_length hall).symm
  · rfl

theorem firstLine_append (text : List Char) {rest : List Char} (h : AtLineEnd rest) :
    firstLine (text ++ rest) = firstLine text :=
  takeWhile_append_of_head text fun c hc => by simp [isLineBreak_iff.2 (h c hc)]

theorem takeWhile_firstLine {p : Char → Bool} (hr : p '\r' = false) (hn : p '\n' = false)
    (text : List Char) : (firstLine text).takeWhile p = text.takeWhile p := by
  have hp : ∀ c, p c = true → isLineBreak c = false := by
    intro c hc
    refine isLineBreak_eq_false_iff.2 ⟨?_, ?_⟩ <;> rintro rfl
    · rw [hr] at hc; cases hc
    · rw [hn] at hc; cases hc
  rw [firstLine, List.takeWhile_takeWhile]
  congr 1
  funext c
  cases hc : p c with
  | false => simp
  | true => simp [hp c hc]

theorem prefix_firstLine_iff {mark : List Char} (hm : IsLine mark) (text : List Char) :
    mark <+: firstLine text ↔ mark <+: text := by
  constructor
  · exact fun h => h.trans (List.takeWhile_prefix _)
  · rintro ⟨rest, rfl⟩
    rw [firstLine_isLine_append hm]
    exact List.prefix_append _ _

theorem IsBlank.of_lineBreak {c : Char} (h : c = '\r' ∨ c = '\n') : IsBlank c := .inr (.inr h)

theorem not_lineBreak_of_not_blank {c : Char} (h : ¬ IsBlank c) : c ≠ '\r' ∧ c ≠ '\n' :=
  not_or.1 (mt IsBlank.of_lineBreak h)

theorem literalBody_firstLine (delimiter : Char) (escape : Option Char) (escaped : Bool)
    (rest : List Char) :
    literalBody delimiter escape escaped (firstLine rest) =
      literalBody delimiter escape escaped rest := by
  induction rest generalizing escaped with
  | nil => rfl
  | cons c rest ih =>
    rcases lineBreak_or_not c with hc | hc
    · rw [firstLine_lineBreak hc, literalBody_of_atLineEnd escaped (atLineEnd_cons hc rest)]
      rfl
    · simp only [firstLine_cons hc, literalBody, ih]

theorem findSome?_congr {α β : Type} {f g : α → Option β} {entries : List α}
    (h : ∀ a ∈ entries, f a = g a) : entries.findSome? f = entries.findSome? g := by
  induction entries with
  | nil => rfl
  | cons a entries ih =>
    rw [List.findSome?_cons, List.findSome?_cons, h a List.mem_cons_self,
      ih fun b hb => h b (List.mem_cons_of_mem a hb)]

namespace Lexeme

theorem isNamePart_of_identifier? {input : List Char} {x : Lexeme}
    (h : identifier? input = some x) : ∀ c ∈ x.text, isNamePart c = true := by
  unfold identifier? at h
  split at h
  · cases h
  · rename_i c rest
    split_ifs at h with hc
    cases h
    have hpart : isNamePart c = true := by
      simp only [isNameStart, isNamePart, Char.isAlphanum, Bool.or_eq_true] at hc ⊢
      exact hc.imp_left .inl
    exact List.forall_mem_cons.2 ⟨hpart, fun d hd => List.mem_takeWhile_imp hd⟩

/-- The classes that stay on their line, in the order in which they are tried. -/
def onLine? (rules : LexicalRules) (input : List Char) : Option Lexeme :=
  rules.lineComments.findSome? (fun mark => lineComment? input mark.toList)
    <|> stringLiteral? rules input
    <|> symbol? input
    <|> identifier? input

def openedBlock? (rules : LexicalRules) (input : List Char) : Option Lexeme :=
  rules.blockComments.findSome? fun b => blockComment? input b.opening.toList b.closing.toList

/-- Where no blank stands, a block comment comes first and then what stays on the line. -/
theorem first_of_not_blank (rules : LexicalRules) {c : Char} (hc : ¬ IsBlank c)
    (rest : List Char) :
    first rules c rest =
      ((openedBlock? rules (c :: rest)).or (onLine? rules (c :: rest))).getD
        ⟨.operator, [c], true⟩ := by
  simp only [first, classified?, whitespace?_of_not_blank hc, openedBlock?, onLine?,
    Option.orElse_eq_orElse, Option.orElse_eq_or, Option.none_or]

theorem first_cases_of_not_blank (rules : LexicalRules) {c : Char} (hc : ¬ IsBlank c)
    (rest : List Char) :
    (∃ b ∈ rules.blockComments,
      blockComment? (c :: rest) b.opening.toList b.closing.toList = some (first rules c rest)) ∨
    onLine? rules (c :: rest) = some (first rules c rest) ∨
    first rules c rest = ⟨.operator, [c], true⟩ := by
  rw [first_of_not_blank rules hc]
  cases hb : openedBlock? rules (c :: rest) with
  | some x => exact .inl (List.exists_of_findSome?_eq_some hb)
  | none =>
    cases hl : onLine? rules (c :: rest) with
    | some x => exact .inr (.inl rfl)
    | none => exact .inr (.inr rfl)

theorem lineComment?_firstLine {mark : List Char} (hm : IsLine mark) (input : List Char) :
    lineComment? (firstLine input) mark = lineComment? input mark := by
  by_cases hp : mark <+: input
  · obtain ⟨rest, rfl⟩ := hp
    rw [firstLine_isLine_append hm]
    simp [lineComment?, firstLine, List.takeWhile_takeWhile]
  · have hl : ¬ mark <+: firstLine input := mt (prefix_firstLine_iff hm input).1 hp
    simp [lineComment?, hp, hl]

theorem stringLiteral?_firstLine (rules : LexicalRules) (c : Char) (rest : List Char) :
    stringLiteral? rules (c :: firstLine rest) = stringLiteral? rules (c :: rest) := by
  simp only [stringLiteral?, literalBody_firstLine]

theorem symbol?_cons (c : Char) (rest : List Char) :
    symbol? (c :: rest) =
      if c = '<' ∧ rest.head? = some '-' then some ⟨.arrow, ['<', '-'], true⟩
      else if c = '(' then some ⟨.leftParen, ['('], true⟩
      else if c = ')' then some ⟨.rightParen, [')'], true⟩
      else none := by
  by_cases ha : c = '<' ∧ rest.head? = some '-'
  · obtain ⟨rfl, h⟩ := ha
    obtain ⟨after, rfl⟩ := List.head?_eq_some_iff.1 h
    rfl
  · unfold symbol?
    split <;> simp_all

theorem head?_firstLine_eq_hyphen_iff (rest : List Char) :
    (firstLine rest).head? = some '-' ↔ rest.head? = some '-' := by
  cases rest with
  | nil => rfl
  | cons c rest =>
    rcases lineBreak_or_not c with hc | hc
    · have hne : c ≠ '-' := by rintro rfl; simp at hc
      rw [firstLine_lineBreak hc]
      simp [hne]
    · rw [firstLine_cons hc]
      simp

theorem symbol?_firstLine (c : Char) (rest : List Char) :
    symbol? (c :: firstLine rest) = symbol? (c :: rest) := by
  simp only [symbol?_cons, head?_firstLine_eq_hyphen_iff]

theorem identifier?_firstLine (c : Char) (rest : List Char) :
    identifier? (c :: firstLine rest) = identifier? (c :: rest) := by
  simp only [identifier?, takeWhile_firstLine (p := isNamePart) rfl rfl]

section
variable {rules : LexicalRules} (hm : ∀ mark ∈ rules.lineComments, IsLine mark.toList)
  {c : Char} (hc : ¬ IsBlank c)
include hm hc

theorem onLine?_firstLine (rest : List Char) :
    onLine? rules (c :: firstLine rest) = onLine? rules (c :: rest) := by
  have hl : firstLine (c :: rest) = c :: firstLine rest :=
    firstLine_cons (not_lineBreak_of_not_blank hc) rest
  have hcomment : rules.lineComments.findSome?
      (fun mark => lineComment? (c :: firstLine rest) mark.toList) =
      rules.lineComments.findSome? (fun mark => lineComment? (c :: rest) mark.toList) := by
    refine findSome?_congr fun mark h => ?_
    rw [← hl, lineComment?_firstLine (hm mark h)]
  rw [onLine?, onLine?, hcomment, stringLiteral?_firstLine, symbol?_firstLine,
    identifier?_firstLine]

theorem isLine_of_onLine? {rest : List Char} {x : Lexeme}
    (h : onLine? rules (c :: rest) = some x) : IsLine x.text := by
  have hl : c :: firstLine rest = firstLine (c :: rest) :=
    (firstLine_cons (not_lineBreak_of_not_blank hc) rest).symm
  have hcut : ReadOff (firstLine (c :: rest)) x := by
    rw [← onLine?_firstLine hm hc, hl] at h
    simp only [onLine?, Option.orElse_eq_orElse, Option.orElse_eq_or, Option.or_eq_some_iff] at h
    rcases h with h | ⟨_, h | ⟨_, h | ⟨_, h⟩⟩⟩
    · obtain ⟨mark, _, hmark⟩ := List.exists_of_findSome?_eq_some h
      exact readOff_lineComment? hmark
    · exact readOff_stringLiteral? h
    · exact readOff_symbol? h
    · exact readOff_identifier? h
  exact fun d hd => isLine_firstLine _ d (hcut.cut.subset hd)

/-- Without block comments the line alone decides where no blank stands. -/
theorem first_append_of_atLineEnd (hb : rules.blockComments = []) (rest : List Char)
    {after : List Char} (ha : AtLineEnd after) :
    first rules c (rest ++ after) = first rules c rest := by
  have hn : ∀ input, openedBlock? rules input = none := fun input => by simp [openedBlock?, hb]
  rw [first_of_not_blank rules hc, first_of_not_blank rules hc, hn, hn,
    ← onLine?_firstLine hm hc (rest ++ after), firstLine_append rest ha, onLine?_firstLine hm hc]

end

end Lexeme

end PegKit
