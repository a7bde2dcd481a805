import PegKit.Proofs.Comments

/-! Changes of the lexical rules that no source shows. A delimiter or a mark is asked for only where
no blank stands, so one that begins with a blank is never found. Whichever line mark is found, the
comment takes what is left of the line, so the marks are a set. Block comments are tried in their
order, and one of them is passed over wherever an entry before it opens. -/

namespace PegKit

/-- A mark that is never found: it is empty, or a blank stands first in it. -/
def IsIdle (mark : String) : Prop := ∀ c ∈ mark.toList.head?, IsBlank c

/-- A block comment that is never opened. It has no closing mark, or its opening one is idle, or an
entry before it opens wherever it would. -/
def BlockComment.IsDead (before : List BlockComment) (b : BlockComment) : Prop :=
  IsIdle b.opening ∨ b.closing = "" ∨
    ∃ a ∈ before, a.opening ≠ "" ∧ a.closing ≠ "" ∧ a.opening.toList <+: b.opening.toList

namespace LexicalRules

/-- One change of the rules. Delimiters and line marks may be put in another order, repeated, and
mixed with idle ones. -/
inductive Adjusted (source : String) (rules : LexicalRules) : LexicalRules → Prop
  | delimiters (ds : List Char)
      (h : ∀ c, ¬ IsBlank c → (c ∈ ds ↔ c ∈ rules.stringDelimiters)) :
      Adjusted source rules { rules with stringDelimiters := ds }
  | marks (ms : List String) (h : ∀ mark, ¬ IsIdle mark → (mark ∈ ms ↔ mark ∈ rules.lineComments)) :
      Adjusted source rules { rules with lineComments := ms }
  | block (before after : List BlockComment) (b : BlockComment)
      (h : rules.blockComments = before ++ after) (hb : b.IsDead before) :
      Adjusted source rules { rules with blockComments := before ++ b :: after }
  | escape (e : Char) (h : rules.escape = none) (he : e ∉ source.toList) :
      Adjusted source rules { rules with escape := some e }

/-- Line comments whose marks are found on one line or not at all. -/
def HasLineMarks (rules : LexicalRules) : Prop :=
  ∀ mark ∈ rules.lineComments, ¬ IsIdle mark → IsLine mark.toList

theorem Adjusted.hasLineMarks_iff {source : String} {rules other : LexicalRules}
    (h : Adjusted source rules other) : other.HasLineMarks ↔ rules.HasLineMarks := by
  cases h with
  | marks ms h =>
    refine forall_congr' fun mark => ?_
    by_cases hi : IsIdle mark
    · simp [hi]
    · rw [h mark hi]
  | delimiters | block | escape => rfl

end LexicalRules

theorem literalBody_of_unused {e : Char} (delimiter : Char) {input : List Char} (h : e ∉ input) :
    literalBody delimiter (some e) false input = literalBody delimiter none false input := by
  induction input with
  | nil => rfl
  | cons c rest ih =>
    obtain ⟨hc, hrest⟩ := not_or.1 (mt List.mem_cons.2 h)
    have hn : (e == c) = false := beq_eq_false_iff_ne.2 hc
    simp [literalBody, hc, hn, ih hrest]

namespace Lexeme
variable {rules : LexicalRules} {c : Char}

section
variable (hc : ¬ IsBlank c) {rest : List Char}
include hc

theorem not_isIdle_of_found {mark : String} (hne : mark.toList ≠ [])
    (hp : mark.toList <+: c :: rest) : ¬ IsIdle mark := by
  obtain ⟨m, after, hmark⟩ := List.exists_cons_of_ne_nil hne
  obtain rfl : m = c := (List.cons_prefix_cons.1 (hmark ▸ hp)).1
  exact fun h => hc (h m (by rw [hmark]; rfl))

theorem findSome?_lineComment? {marks : List String}
    (hm : ∀ mark ∈ marks, ¬ IsIdle mark → IsLine mark.toList) :
    marks.findSome? (fun mark => lineComment? (c :: rest) mark.toList) =
      if ∃ mark ∈ marks, mark.toList ≠ [] ∧ mark.toList <+: c :: rest then
        some ⟨.comment, firstLine (c :: rest), true⟩
      else none := by
  split_ifs with h
  · obtain ⟨mark, hmem, hlive⟩ := h
    cases hx : marks.findSome? (fun mark => lineComment? (c :: rest) mark.toList) with
    | none =>
      exact absurd hlive (lineComment?_eq_none_iff.1 (List.findSome?_eq_none_iff.1 hx mark hmem))
    | some x =>
      -- another mark may come before this one, but the line it takes is the same
      obtain ⟨found, hfound, hx⟩ := List.exists_of_findSome?_eq_some hx
      obtain ⟨hne, behind, he, rfl⟩ := lineComment?_eq_some hx
      have hline := hm found hfound (not_isIdle_of_found hc hne ⟨behind, he.symm⟩)
      rw [he, firstLine_isLine_append hline]
  · exact List.findSome?_eq_none_iff.2 fun mark hmem =>
      lineComment?_eq_none_iff.2 fun hlive => h ⟨mark, hmem, hlive⟩

theorem findSome?_lineComment?_congr {marks others : List String}
    (hm : ∀ mark ∈ marks, ¬ IsIdle mark → IsLine mark.toList)
    (h : ∀ mark, ¬ IsIdle mark → (mark ∈ others ↔ mark ∈ marks)) :
    others.findSome? (fun mark => lineComment? (c :: rest) mark.toList) =
      marks.findSome? fun mark => lineComment? (c :: rest) mark.toList := by
  have ho : ∀ mark ∈ others, ¬ IsIdle mark → IsLine mark.toList :=
    fun mark hmem hi => hm mark ((h mark hi).1 hmem) hi
  have hsame : (∃ mark ∈ others, mark.toList ≠ [] ∧ mark.toList <+: c :: rest) ↔
      ∃ mark ∈ marks, mark.toList ≠ [] ∧ mark.toList <+: c :: rest :=
    exists_congr fun mark => and_congr_left fun ⟨hne, hp⟩ =>
      h mark (not_isIdle_of_found hc hne hp)
  simp only [findSome?_lineComment? hc ho, findSome?_lineComment? hc hm, hsame]

theorem blockComment?_of_isDead {before : List BlockComment} {b : BlockComment}
    (hb : b.IsDead before)
    (hn : before.findSome? (fun a =>
      blockComment? (c :: rest) a.opening.toList a.closing.toList) = none) :
    blockComment? (c :: rest) b.opening.toList b.closing.toList = none := by
  refine blockComment?_eq_none_iff.2 fun ⟨ho, hcl, hp⟩ => ?_
  rcases hb with hidle | hempty | ⟨a, ha, hao, hac, hshort⟩
  · exact not_isIdle_of_found hc ho hp hidle
  · exact hcl (String.toList_eq_nil_iff.2 hempty)
  · refine blockComment?_eq_none_iff.1 (List.findSome?_eq_none_iff.1 hn a ha) ⟨?_, ?_, ?_⟩
    · exact mt String.toList_eq_nil_iff.1 hao
    · exact mt String.toList_eq_nil_iff.1 hac
    · exact hshort.trans hp

theorem openedBlock?_insert {before after : List BlockComment} {b : BlockComment}
    (h : rules.blockComments = before ++ after) (hb : b.IsDead before) :
    openedBlock? { rules with blockComments := before ++ b :: after } (c :: rest) =
      openedBlock? rules (c :: rest) := by
  rw [openedBlock?, openedBlock?, h, List.findSome?_append, List.findSome?_append]
  cases hn : before.findSome? fun a =>
      blockComment? (c :: rest) a.opening.toList a.closing.toList with
  | some x => rfl
  | none => rw [List.findSome?_cons, blockComment?_of_isDead hc hb hn]

end

theorem first_adjusted {source : String} {other : LexicalRules} {rest : List Char}
    (h : rules.Adjusted source other) (hm : rules.HasLineMarks) (hs : c :: rest <:+ source.toList) :
    first other c rest = first rules c rest := by
  by_cases hc : IsBlank c
  · rw [first_blank other hc, first_blank rules hc]
  rw [first_of_not_blank other hc, first_of_not_blank rules hc]
  cases h with
  | delimiters ds h =>
    simp only [openedBlock?, onLine?, stringLiteral?, List.contains_iff_mem, h c hc]
  | marks ms h =>
    simp only [openedBlock?, onLine?, findSome?_lineComment?_congr hc hm h, stringLiteral?]
  | block before after b h hb =>
    simp only [openedBlock?_insert hc h hb, onLine?, stringLiteral?]
  | escape e h he =>
    have hrest : e ∉ rest := fun hmem => he (hs.subset (List.mem_cons_of_mem c hmem))
    simp only [openedBlock?, onLine?, stringLiteral?, h, literalBody_of_unused c hrest]

end Lexeme

theorem lexemes_congr {rules other : LexicalRules} {input : List Char}
    (h : ∀ c rest, c :: rest <:+ input → Lexeme.first other c rest = Lexeme.first rules c rest) :
    lexemes other input = lexemes rules input := by
  fun_induction lexemes rules input with
  | case1 => rw [lexemes]
  | case2 c rest ih =>
    rw [lexemes, h c rest List.suffix_rfl]
    rw [ih fun d after hs => h d after (hs.trans (List.drop_suffix _ _))]

section
variable {source : String} {rules other : LexicalRules}

theorem LexicalRules.Adjusted.lexemes_eq (h : rules.Adjusted source other)
    (hm : rules.HasLineMarks) : lexemes other source.toList = lexemes rules source.toList :=
  lexemes_congr fun _ _ hs => Lexeme.first_adjusted h hm hs

theorem LexicalRules.lexemes_eq_of_eqvGen (h : Relation.EqvGen (Adjusted source) rules other) :
    (other.HasLineMarks ↔ rules.HasLineMarks) ∧
    (rules.HasLineMarks → lexemes other source.toList = lexemes rules source.toList) := by
  -- that the marks are line marks goes both ways along a change, since it may be taken back
  induction h with
  | rel x y h => exact ⟨h.hasLineMarks_iff, h.lexemes_eq⟩
  | refl x => exact ⟨Iff.rfl, fun _ => rfl⟩
  | symm x y _ ih => exact ⟨ih.1.symm, fun hm => (ih.2 (ih.1.1 hm)).symm⟩
  | trans x y z _ _ ih₁ ih₂ =>
    exact ⟨ih₂.1.trans ih₁.1, fun hm => (ih₂.2 (ih₁.1.2 hm)).trans (ih₁.2 hm)⟩

/-- Rules that differ by any number of such changes, each made or taken back, read a source
alike. -/
theorem tokenize_adjusted (hm : ∀ mark ∈ rules.lineComments, IsLine mark.toList)
    (h : Relation.EqvGen (LexicalRules.Adjusted source) rules other) :
    tokenize other source = tokenize rules source := by
  rw [tokenize_eq, tokenize_eq,
    (LexicalRules.lexemes_eq_of_eqvGen h).2 fun mark hmem _ => hm mark hmem]

/-- A mark that goes over the end of the line is told apart from another one by their order. -/
example : tokenize { LexicalRules.standard with lineComments := ["#", "#\n"] } "#\n#" ≠
    tokenize { LexicalRules.standard with lineComments := ["#\n", "#"] } "#\n#" := by
  decide +kernel

end

def LexicalRules.tidy : LexicalRules where
  lineComments := ["#", "##"]
  blockComments := [⟨"(*", "*)"⟩]
  stringDelimiters := ['"', '\'']
  escape := some '\\'

def LexicalRules.cluttered : LexicalRules where
  lineComments := ["##", "", "\n#", "#", "##"]
  blockComments := [⟨"", "*)"⟩, ⟨"(*", "*)"⟩, ⟨"(**", ")"⟩]
  stringDelimiters := ['\'', '\n', '"', '\'']
  escape := none

/-- Delimiters, marks and blocks are changed, and the escape character is taken away. -/
theorem tokenize_adjusted_cluttered :
    (∀ mark ∈ LexicalRules.tidy.lineComments, IsLine mark.toList) ∧
    Relation.EqvGen (LexicalRules.Adjusted "(**)a'\n#'##b") .tidy .cluttered ∧
    tokenize .cluttered "(**)a'\n#'##b" =
      [⟨.comment, "(**)", ⟨0, 1, 1⟩, true⟩, ⟨.identifier, "a", ⟨4, 1, 5⟩, true⟩,
        ⟨.stringLiteral, "'", ⟨5, 1, 6⟩, false⟩, ⟨.whitespace, "\n", ⟨6, 1, 7⟩, true⟩,
        ⟨.comment, "#'##b", ⟨7, 2, 1⟩, true⟩, .endOfInput ⟨12, 2, 6⟩] := by
  have hm : ∀ mark ∈ LexicalRules.tidy.lineComments, IsLine mark.toList := by
    simp [LexicalRules.tidy, IsLine]
  have hds : LexicalRules.Adjusted "(**)a'\n#'##b" .tidy
      { LexicalRules.tidy with stringDelimiters := LexicalRules.cluttered.stringDelimiters } := by
    refine .delimiters _ fun c hc => ?_
    have hn : c ≠ '\n' := fun h => hc (.inr (.inr (.inr h)))
    simp only [LexicalRules.tidy, LexicalRules.cluttered, List.mem_cons, List.not_mem_nil, hn]
    tauto
  have hms : LexicalRules.Adjusted "(**)a'\n#'##b"
      { LexicalRules.tidy with stringDelimiters := LexicalRules.cluttered.stringDelimiters }
      { LexicalRules.cluttered with blockComments := [⟨"(*", "*)"⟩], escape := some '\\' } := by
    refine .marks _ fun mark hi => ?_
    have hempty : mark ≠ "" := fun h => hi (h ▸ nofun)
    have hn : mark ≠ "\n#" := fun h => hi (h ▸ by simp [IsIdle, IsBlank])
    simp only [LexicalRules.tidy, LexicalRules.cluttered, List.mem_cons, List.not_mem_nil, hempty,
      hn]
    tauto
  have hshadowed : LexicalRules.Adjusted "(**)a'\n#'##b"
      { LexicalRules.cluttered with blockComments := [⟨"(*", "*)"⟩], escape := some '\\' }
      { LexicalRules.cluttered with
        blockComments := [⟨"(*", "*)"⟩, ⟨"(**", ")"⟩], escape := some '\\' } :=
    .block [⟨"(*", "*)"⟩] [] ⟨"(**", ")"⟩ rfl (by simp [BlockComment.IsDead])
  have hidle : LexicalRules.Adjusted "(**)a'\n#'##b"
      { LexicalRules.cluttered with
        blockComments := [⟨"(*", "*)"⟩, ⟨"(**", ")"⟩], escape := some '\\' }
      { LexicalRules.cluttered with escape := some '\\' } :=
    .block [] [⟨"(*", "*)"⟩, ⟨"(**", ")"⟩] ⟨"", "*)"⟩ rfl (.inl (by simp [IsIdle]))
  have hescape : LexicalRules.Adjusted "(**)a'\n#'##b" .cluttered
      { LexicalRules.cluttered with escape := some '\\' } :=
    .escape '\\' rfl (by decide)
  have h : Relation.EqvGen (LexicalRules.Adjusted "(**)a'\n#'##b") .tidy .cluttered :=
    .trans _ _ _ (.rel _ _ hds) <| .trans _ _ _ (.rel _ _ hms) <|
      .trans _ _ _ (.rel _ _ hshadowed) <| .trans _ _ _ (.rel _ _ hidle) <|
      .symm _ _ (.rel _ _ hescape)
  refine ⟨hm, h, (tokenize_adjusted hm h).trans ?_⟩
  decide +kernel

end PegKit
