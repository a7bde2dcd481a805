import PegKit.Proofs.Comments
import PegKit.Proofs.Views

/-! Line ends of two characters, a carriage return and a line feed. The carriage return is a blank, it
ends a line which the line feed ends anyway, and what follows it starts on the next line. So without
it the text is cut into the same classes, and each piece begins at the same line and column. -/

namespace PegKit

/-- `text` with a line feed alone in the place of every carriage return and line feed. -/
def plainBreaks : List Char → List Char
  | '\r' :: '\n' :: rest => '\n' :: plainBreaks rest
  | c :: rest => c :: plainBreaks rest
  | [] => []

theorem plainBreaks_return {rest : List Char} (h : rest.head? = some '\n') :
    plainBreaks ('\r' :: rest) = plainBreaks rest := by
  obtain ⟨after, rfl⟩ := List.head?_eq_some_iff.1 h
  rw [plainBreaks]
  simp [plainBreaks]

theorem plainBreaks_cons {c : Char} {rest : List Char}
    (h : ¬ (c = '\r' ∧ rest.head? = some '\n')) :
    plainBreaks (c :: rest) = c :: plainBreaks rest := by
  rw [plainBreaks]
  rintro after rfl rfl
  exact h ⟨rfl, rfl⟩

theorem plainBreaks_cons_of_ne {c : Char} (h : c ≠ '\r') (rest : List Char) :
    plainBreaks (c :: rest) = c :: plainBreaks rest :=
  plainBreaks_cons fun hc => h hc.1

theorem plainBreaks_append {a b : List Char} (h : a.getLast? = some '\r' → b.head? ≠ some '\n') :
    plainBreaks (a ++ b) = plainBreaks a ++ plainBreaks b := by
  induction a with
  | nil => rfl
  | cons c a ih =>
    cases a with
    | nil =>
      have hc : ¬ (c = '\r' ∧ b.head? = some '\n') := fun hc => h (by rw [hc.1]; rfl) hc.2
      rw [List.singleton_append, plainBreaks_cons hc, plainBreaks_cons (by simp)]
      rfl
    | cons d a =>
      rw [List.getLast?_cons_cons] at h
      by_cases hc : c = '\r' ∧ d = '\n'
      · obtain ⟨rfl, rfl⟩ := hc
        rw [List.cons_append, plainBreaks_return rfl, plainBreaks_return rfl, ih h]
      · have hn : ∀ after, ¬ (c = '\r' ∧ (d :: after).head? = some '\n') := by simpa using hc
        rw [List.cons_append, List.cons_append, plainBreaks_cons (hn _), plainBreaks_cons (hn _),
          ← List.cons_append, ih h, List.cons_append]

theorem plainBreaks_of_isLine {line : List Char} (h : IsLine line) : plainBreaks line = line := by
  induction line with
  | nil => rfl
  | cons c line ih =>
    rw [plainBreaks_cons_of_ne (h c List.mem_cons_self).1,
      ih fun d hd => h d (List.mem_cons_of_mem c hd)]

theorem plainBreaks_isLine_append {line : List Char} (h : IsLine line) (rest : List Char) :
    plainBreaks (line ++ rest) = line ++ plainBreaks rest := by
  rw [plainBreaks_append, plainBreaks_of_isLine h]
  intro hr
  exact absurd rfl (h _ (List.mem_of_getLast? hr)).1

theorem firstLine_plainBreaks (text : List Char) : firstLine (plainBreaks text) = firstLine text := by
  induction text with
  | nil => rfl
  | cons c text ih =>
    by_cases h : c = '\r' ∧ text.head? = some '\n'
    · obtain ⟨rfl, h⟩ := h
      rw [plainBreaks_return h, ih, firstLine_of_atLineEnd (by simp [AtLineEnd, h]),
        firstLine_lineBreak (.inl rfl)]
    · rw [plainBreaks_cons h]
      rcases lineBreak_or_not c with hc | hc
      · rw [firstLine_lineBreak hc, firstLine_lineBreak hc]
      · rw [firstLine_cons hc, firstLine_cons hc, ih]

theorem prefix_plainBreaks_iff {mark : List Char} (hm : IsLine mark) (text : List Char) :
    mark <+: plainBreaks text ↔ mark <+: text := by
  rw [← prefix_firstLine_iff hm, firstLine_plainBreaks, prefix_firstLine_iff hm]

theorem takeWhile_isBlank_plainBreaks (text : List Char) :
    (plainBreaks text).takeWhile isBlank = plainBreaks (text.takeWhile isBlank) := by
  induction text with
  | nil => rfl
  | cons c text ih =>
    have hhead : (text.takeWhile isBlank).head? = some '\n' ↔ text.head? = some '\n' := by
      cases text with
      | nil => rfl
      | cons d text => cases hd : isBlank d <;> simp [hd]; rintro rfl; cases hd
    by_cases h : c = '\r' ∧ text.head? = some '\n'
    · obtain ⟨rfl, h⟩ := h
      rw [plainBreaks_return h, ih, List.takeWhile_cons_of_pos rfl,
        plainBreaks_return (hhead.2 h)]
    · rw [plainBreaks_cons h]
      cases hc : isBlank c with
      | false => simp [hc, plainBreaks]
      | true =>
        rw [List.takeWhile_cons_of_pos hc, List.takeWhile_cons_of_pos hc, ih,
          plainBreaks_cons (by rwa [hhead])]

section
variable {mark : List Char} {c : Char} {rest : List Char}

theorem throughFirst_plainBreaks (hne : mark ≠ []) (hm : IsLine mark) (input : List Char) :
    throughFirst mark (plainBreaks input) = plainBreaks (throughFirst mark input) := by
  induction input with
  | nil => rfl
  | cons c rest ih =>
    by_cases hp : mark <+: c :: rest
    · have hq := (prefix_plainBreaks_iff hm _).2 hp
      obtain ⟨m, after, hmark⟩ := List.exists_cons_of_ne_nil hne
      obtain rfl : m = c := (List.cons_prefix_cons.1 (hmark ▸ hp)).1
      have hc : m ≠ '\r' := (hm m (hmark ▸ List.mem_cons_self)).1
      rw [plainBreaks_cons_of_ne hc] at hq ⊢
      rw [throughFirst_of_mark hp, throughFirst_of_mark hq, plainBreaks_of_isLine hm]
    · have hq := mt (prefix_plainBreaks_iff hm _).1 hp
      rw [throughFirst_of_no_mark hp]
      by_cases h : c = '\r' ∧ rest.head? = some '\n'
      · obtain ⟨rfl, h⟩ := h
        rw [plainBreaks_return h, ih, plainBreaks_return (by rwa [head?_throughFirst hne])]
      · rw [plainBreaks_cons h] at hq ⊢
        rw [throughFirst_of_no_mark hq, ih,
          plainBreaks_cons (by rwa [head?_throughFirst hne])]

end

namespace Lexeme

def plain (x : Lexeme) : Lexeme := { x with text := plainBreaks x.text }

theorem plain_of_isLine {x : Lexeme} (h : IsLine x.text) : x.plain = x := by
  rw [plain, plainBreaks_of_isLine h]

theorem blockComment?_plainBreaks {opening closing : List Char} (ho : IsLine opening)
    (hc : IsLine closing) (input : List Char) :
    blockComment? (plainBreaks input) opening closing =
      (blockComment? input opening closing).map plain := by
  by_cases hp : opening ≠ [] ∧ closing ≠ [] ∧ opening <+: input
  · obtain ⟨hno, hnc, rest, rfl⟩ := hp
    rw [plainBreaks_isLine_append ho, blockComment?_append hno hnc, blockComment?_append hno hnc]
    simp [plain, throughFirst_plainBreaks hnc hc, plainBreaks_isLine_append ho]
  · rw [blockComment?_eq_none_iff.2 hp, Option.map_none, blockComment?_eq_none_iff,
      prefix_plainBreaks_iff ho]
    exact hp

theorem openedBlock?_plainBreaks {rules : LexicalRules}
    (hb : ∀ b ∈ rules.blockComments, IsLine b.opening.toList ∧ IsLine b.closing.toList)
    (input : List Char) :
    openedBlock? rules (plainBreaks input) = (openedBlock? rules input).map plain := by
  rw [openedBlock?, openedBlock?, List.map_findSome?]
  refine findSome?_congr fun b h => ?_
  exact blockComment?_plainBreaks (hb b h).1 (hb b h).2 input

section
variable {rules : LexicalRules} (hm : ∀ mark ∈ rules.lineComments, IsLine mark.toList)
  (hb : ∀ b ∈ rules.blockComments, IsLine b.opening.toList ∧ IsLine b.closing.toList)
include hm hb

/-- No lexeme ends between a carriage return and its line feed. -/
theorem first_not_between {c : Char} {rest after : List Char}
    (h : c :: rest = (first rules c rest).text ++ after) :
    (first rules c rest).text.getLast? = some '\r' → after.head? ≠ some '\n' := by
  by_cases hc : IsBlank c
  · have ha : after = (c :: rest).dropWhile isBlank := by
      rw [first_blank rules hc] at h
      exact List.append_cancel_left (h.symm.trans List.takeWhile_append_dropWhile.symm)
    intro _ hn
    rw [ha] at hn
    exact absurd (forall_head?_dropWhile isBlank _ _ hn) (by decide)
  · have hline : IsLine (first rules c rest).text →
        (first rules c rest).text.getLast? = some '\r' → after.head? ≠ some '\n' :=
      fun hl hr => absurd rfl (hl _ (List.mem_of_getLast? hr)).1
    rcases first_cases_of_not_blank rules hc rest with ⟨b, hmem, hx⟩ | hx | hx
    · obtain ⟨_, hne, inside, he, hx⟩ := blockComment?_eq_some hx
      rw [hx] at h ⊢
      rcases throughFirst_eq_or_suffix b.closing.toList inside with hall | hend
      -- the comment is not closed, and nothing is left behind it
      · have ha : after = [] := by
          rw [he, hall] at h
          simpa using h
        simp [ha]
      · obtain ⟨before, hbefore⟩ := hend
        intro hr
        rw [← hbefore, ← List.append_assoc, List.getLast?_append_of_ne_nil _ hne] at hr
        exact absurd rfl ((hb b hmem).2 _ (List.mem_of_getLast? hr)).1
    · exact hline (isLine_of_onLine? hm hc hx)
    · rw [hx] at hline ⊢
      exact hline fun d hd => List.mem_singleton.1 hd ▸ not_lineBreak_of_not_blank hc

theorem first_plainBreaks (c : Char) (rest : List Char) :
    ∃ d after, plainBreaks (c :: rest) = d :: after ∧
      first rules d after = (first rules c rest).plain := by
  by_cases hc : IsBlank c
  -- a blank stays a blank, be it that its carriage return goes
  · obtain ⟨d, after, hd, he⟩ : ∃ d after, IsBlank d ∧ plainBreaks (c :: rest) = d :: after := by
      by_cases h : c = '\r' ∧ rest.head? = some '\n'
      · obtain ⟨rfl, h⟩ := h
        obtain ⟨after, rfl⟩ := List.head?_eq_some_iff.1 h
        exact ⟨'\n', plainBreaks after, by decide, by simp [plainBreaks]⟩
      · exact ⟨c, _, hc, plainBreaks_cons h⟩
    refine ⟨d, after, he, ?_⟩
    rw [first_blank rules hd, first_blank rules hc, ← he, takeWhile_isBlank_plainBreaks]
    rfl
  · have hr : c ≠ '\r' := (not_lineBreak_of_not_blank hc).1
    refine ⟨c, plainBreaks rest, plainBreaks_cons_of_ne hr rest, ?_⟩
    -- all but a block comment is decided on the line, which stays as it is
    have hline : onLine? rules (c :: plainBreaks rest) = (onLine? rules (c :: rest)).map plain := by
      rw [← onLine?_firstLine hm hc, firstLine_plainBreaks, onLine?_firstLine hm hc]
      cases hx : onLine? rules (c :: rest) with
      | none => rfl
      | some x => rw [Option.map_some, plain_of_isLine (isLine_of_onLine? hm hc hx)]
    have hoperator : (⟨.operator, [c], true⟩ : Lexeme).plain = ⟨.operator, [c], true⟩ :=
      plain_of_isLine fun d hd => List.mem_singleton.1 hd ▸ not_lineBreak_of_not_blank hc
    rw [first_of_not_blank rules hc, first_of_not_blank rules hc, hline,
      ← plainBreaks_cons_of_ne hr, openedBlock?_plainBreaks hb]
    cases openedBlock? rules (c :: rest) <;> cases onLine? rules (c :: rest) <;>
      simp [hoperator]

end

end Lexeme

section
variable {rules : LexicalRules} (hm : ∀ mark ∈ rules.lineComments, IsLine mark.toList)
  (hb : ∀ b ∈ rules.blockComments, IsLine b.opening.toList ∧ IsLine b.closing.toList)
include hm hb

theorem lexemes_plainBreaks (input : List Char) :
    lexemes rules (plainBreaks input) = (lexemes rules input).map Lexeme.plain := by
  fun_induction lexemes rules input with
  | case1 => simp [plainBreaks, lexemes]
  | case2 c rest ih =>
    obtain ⟨d, after, he, hx⟩ := Lexeme.first_plainBreaks hm hb c rest
    have hcut := (Lexeme.first_text_append_drop rules c rest).symm
    have hsplit := plainBreaks_append (Lexeme.first_not_between hm hb hcut)
    rw [← hcut] at hsplit
    have hdrop : (d :: after).drop (Lexeme.first rules c rest).plain.text.length =
        plainBreaks ((c :: rest).drop (Lexeme.first rules c rest).text.length) := by
      rw [← he, hsplit]
      exact List.drop_left
    rw [he, lexemes, hx, hdrop, ih, List.map_cons]

end

theorem seen_advance_plainBreaks (text : List Char) {l m : Location}
    (h : l.seen Prod.mk = m.seen Prod.mk) :
    (l.advance text).seen Prod.mk = (m.advance (plainBreaks text)).seen Prod.mk := by
  have hstep : ∀ (c : Char) {l m : Location}, l.seen Prod.mk = m.seen Prod.mk →
      (l.step c).seen Prod.mk = (m.step c).seen Prod.mk := by
    intro c l m h
    obtain ⟨hl, hc⟩ := Prod.mk.inj h
    unfold Location.step Location.seen
    split_ifs <;> simp [hl, hc]
  fun_induction plainBreaks text generalizing l m with
  | case1 rest ih =>
    have hreturn : ((l.step '\r').step '\n').seen Prod.mk = (m.step '\n').seen Prod.mk := by
      simpa [Location.step, Location.seen] using (Prod.mk.inj h).1
    exact ih hreturn
  | case2 c rest _ ih => exact ih (hstep c h)
  | case3 => exact h

theorem plainBreaks_of_identifier {rules : LexicalRules} {input : List Char} {x : Lexeme}
    (h : x ∈ lexemes rules input) (hk : x.kind = .identifier) : plainBreaks x.text = x.text := by
  obtain ⟨c, rest, rfl⟩ := exists_first_of_mem_lexemes h
  have hname := Lexeme.isNamePart_of_identifier? (Lexeme.identifier?_of_kind hk)
  refine plainBreaks_of_isLine fun d hd => ⟨?_, ?_⟩ <;> rintro rfl <;> cases hname _ hd

theorem placed_plain_alike {xs : List Lexeme}
    (hn : ∀ x ∈ xs, x.kind = .identifier → plainBreaks x.text = x.text) {l m : Location}
    (h : l.seen Prod.mk = m.seen Prod.mk) :
    List.Forall₂ (Token.Alike Prod.mk) (placed l xs) (placed m (xs.map Lexeme.plain)) := by
  induction xs generalizing l m with
  | nil => exact .nil
  | cons x xs ih =>
    have hx : (x.located l).Alike Prod.mk (x.plain.located m) :=
      ⟨rfl, rfl, fun hk => congrArg String.ofList (hn x List.mem_cons_self hk).symm, h⟩
    exact .cons hx (ih (fun y hy => hn y (List.mem_cons_of_mem x hy))
      (seen_advance_plainBreaks x.text h))

/-- The source with plain line ends. -/
def withPlainBreaks (source : String) : String := String.ofList (plainBreaks source.toList)

/-- A source is checked alike with either line end: the same rules, and the same diagnostics at the
same lines and columns. -/
theorem validate_withPlainBreaks (rules : LexicalRules) (source : String)
    (hm : ∀ mark ∈ rules.lineComments, IsLine mark.toList)
    (hb : ∀ b ∈ rules.blockComments, IsLine b.opening.toList ∧ IsLine b.closing.toList) :
    (validate (tokenize rules (withPlainBreaks source))).ruleNames =
      (validate (tokenize rules source)).ruleNames ∧
    (validate (tokenize rules (withPlainBreaks source))).diagnostics.map
        (fun d => (d.severity, d.message, d.line, d.column)) =
      (validate (tokenize rules source)).diagnostics.map
        fun d => (d.severity, d.message, d.line, d.column) := by
  have hcut : lexemes rules (withPlainBreaks source).toList ++ [Lexeme.endOfInput] =
      (lexemes rules source.toList ++ [Lexeme.endOfInput]).map Lexeme.plain := by
    rw [withPlainBreaks, String.toList_ofList, lexemes_plainBreaks hm hb, List.map_append]
    rfl
  have hnames : ∀ x ∈ lexemes rules source.toList ++ [Lexeme.endOfInput], x.kind = .identifier →
      plainBreaks x.text = x.text := by
    intro x hx hk
    rcases List.mem_append.1 hx with hx | hx
    · exact plainBreaks_of_identifier hx hk
    · rw [List.mem_singleton.1 hx]
      rfl
  have halike : List.Forall₂ (Token.Alike Prod.mk) (tokenize rules source)
      (tokenize rules (withPlainBreaks source)) := by
    rw [tokenize_eq, tokenize_eq, hcut]
    exact placed_plain_alike hnames rfl
  obtain ⟨hrules, hseen⟩ := validate_alike halike
  exact ⟨hrules.symm, hseen.symm⟩

def LexicalRules.starred : LexicalRules where
  lineComments := ["//"]
  blockComments := [⟨"(*", "*)"⟩]
  stringDelimiters := ['"']
  escape := some '\\'

/-- Line ends in a comment, behind an escape character and behind another carriage return. -/
theorem validate_withPlainBreaks_starred :
    withPlainBreaks "(*\r\n*)a\r\n<-\"\\\r\n//)\r\n\r\r\n)(*" = "(*\n*)a\n<-\"\\\n//)\n\r\n)(*" ∧
    (∀ mark ∈ LexicalRules.starred.lineComments, IsLine mark.toList) ∧
    (∀ b ∈ LexicalRules.starred.blockComments,
      IsLine b.opening.toList ∧ IsLine b.closing.toList) ∧
    (validate (tokenize .starred "(*\n*)a\n<-\"\\\n//)\n\r\n)(*")).ruleNames = ["a"] ∧
    (validate (tokenize .starred "(*\n*)a\n<-\"\\\n//)\n\r\n)(*")).diagnostics.map
        (fun d => (d.severity, d.message, d.line, d.column)) =
      [(.warning, "unterminated string literal", 3, 3),
        (.error, "unmatched closing parenthesis", 6, 1)] := by
  have he : withPlainBreaks "(*\r\n*)a\r\n<-\"\\\r\n//)\r\n\r\r\n)(*" =
      "(*\n*)a\n<-\"\\\n//)\n\r\n)(*" := by
    decide
  have hm : ∀ mark ∈ LexicalRules.starred.lineComments, IsLine mark.toList := by
    simp [LexicalRules.starred, IsLine]
  have hb : ∀ b ∈ LexicalRules.starred.blockComments,
      IsLine b.opening.toList ∧ IsLine b.closing.toList := by
    simp [LexicalRules.starred, IsLine]
  obtain ⟨hrules, hseen⟩ := validate_withPlainBreaks .starred
    "(*\r\n*)a\r\n<-\"\\\r\n//)\r\n\r\r\n)(*" hm hb
  rw [he] at hrules hseen
  refine ⟨he, hm, hb, hrules.trans ?_, hseen.trans ?_⟩ <;> decide +kernel

end PegKit
