import PegKit.Proofs.Grouping
import PegKit.Proofs.Lines
import PegKit.Proofs.Relocation

/-! Two texts joined where a line ends. Without block comments nothing but blanks goes over the end of
a line, so the pieces of the joined text are those of the one and then those of the other: a string
or a comment that is left open in the first text has no effect on the second. Where blanks stand on
both sides they become one piece, and so it is the tokens with structure that are those of the two. -/

namespace PegKit

/-- Rules under which only blanks go over the end of a line. -/
structure LexicalRules.IsLineLocal (rules : LexicalRules) : Prop where
  noBlocks : rules.blockComments = []
  marks : ∀ mark ∈ rules.lineComments, IsLine mark.toList

theorem LexicalRules.isLineLocal_standard : standard.IsLineLocal :=
  ⟨rfl, by simp [standard, IsLine]⟩

section
variable {rules : LexicalRules} (hr : rules.IsLineLocal)
include hr

/-- The first lexeme of a text that ends a line does not change when a text without blanks at its
front is put behind it. -/
theorem first_append_of_endsLine {c : Char} {rest after : List Char}
    (he : ∀ d ∈ (c :: rest).getLast?, d = '\r' ∨ d = '\n') (ha : ∀ d ∈ after.head?, ¬ IsBlank d) :
    Lexeme.first rules c (rest ++ after) = Lexeme.first rules c rest := by
  by_cases hc : IsBlank c
  · have hstop : ∀ d ∈ after.head?, isBlank d = false := by simpa [← isBlank_iff] using ha
    rw [Lexeme.first_blank rules hc, Lexeme.first_blank rules hc, ← List.cons_append,
      takeWhile_append_of_head _ hstop]
  · -- the line goes on behind `c`, and its end is still in the first text
    obtain ⟨line, d, rfl⟩ : ∃ line d, rest = line ++ [d] := by
      refine (List.eq_nil_or_concat' rest).resolve_left ?_
      rintro rfl
      exact hc (.of_lineBreak (he c rfl))
    have hd : ∀ more, AtLineEnd (d :: more) := atLineEnd_cons (he d (by simp [List.getLast?_cons]))
    rw [List.append_assoc, List.singleton_append,
      Lexeme.first_append_of_atLineEnd hr.marks hc hr.noBlocks line (hd _),
      Lexeme.first_append_of_atLineEnd hr.marks hc hr.noBlocks line (hd _)]

theorem lexemes_append_of_endsLine {text after : List Char}
    (he : ∀ d ∈ text.getLast?, d = '\r' ∨ d = '\n') (ha : ∀ d ∈ after.head?, ¬ IsBlank d) :
    lexemes rules (text ++ after) = lexemes rules text ++ lexemes rules after := by
  fun_induction lexemes rules text with
  | case1 => rfl
  | case2 c rest ih =>
    rw [lexemes_cons_append (first_append_of_endsLine hr he ha), ih, List.cons_append]
    intro d hd
    rw [List.getLast?_drop] at hd
    split_ifs at hd
    · cases hd
    · exact he d hd

/-- The tokens of two texts, the first of which ends a line while the second starts without blanks:
those of the first but for its end, then those of the second behind it. -/
theorem tokenize_append_of_endsLine {text after : String}
    (he : ∃ d ∈ text.toList.getLast?, d = '\r' ∨ d = '\n')
    (ha : ∀ d ∈ after.toList.head?, ¬ IsBlank d) :
    tokenize rules (text ++ after) =
      (tokenize rules text).dropLast ++
        (tokenize rules after).map (Token.within (.behind text.toList)) := by
  have he : ∀ d ∈ text.toList.getLast?, d = '\r' ∨ d = '\n' := by
    obtain ⟨c, hc, hb⟩ := he
    intro d hd
    obtain rfl : c = d := Option.mem_unique hc hd
    exact hb
  obtain ⟨l, hl⟩ := exists_tokenize_eq rules text
  rw [tokenize_eq, String.toList_append, lexemes_append_of_endsLine hr he ha, List.append_assoc,
    placed_append, joined_lexemes, Location.start_advance, placed_behind, hl, List.dropLast_concat,
    tokenize_eq rules after]

end

/-- An open string before the end of a line, and a sign that would complete another before it. -/
theorem tokenize_append_of_endsLine_open :
    LexicalRules.standard.IsLineLocal ∧
    (∃ d ∈ "é\n<'(\\\r".toList.getLast?, d = '\r' ∨ d = '\n') ∧
    (∀ d ∈ "-'#\n)".toList.head?, ¬ IsBlank d) ∧
    tokenize .standard ("é\n<'(\\\r" ++ "-'#\n)") =
      [⟨.operator, "é", ⟨0, 1, 1⟩, true⟩, ⟨.whitespace, "\n", ⟨2, 1, 2⟩, true⟩,
        ⟨.operator, "<", ⟨3, 2, 1⟩, true⟩, ⟨.stringLiteral, "'(\\", ⟨4, 2, 2⟩, false⟩,
        ⟨.whitespace, "\r", ⟨7, 2, 5⟩, true⟩, ⟨.operator, "-", ⟨8, 2, 6⟩, true⟩,
        ⟨.stringLiteral, "'#", ⟨9, 2, 7⟩, false⟩, ⟨.whitespace, "\n", ⟨11, 2, 9⟩, true⟩,
        ⟨.rightParen, ")", ⟨12, 3, 1⟩, true⟩, .endOfInput ⟨13, 3, 2⟩] := by
  have he : ∃ d ∈ "é\n<'(\\\r".toList.getLast?, d = '\r' ∨ d = '\n' := ⟨'\r', by simp, .inl rfl⟩
  have ha : ∀ d ∈ "-'#\n)".toList.head?, ¬ IsBlank d := by simp [IsBlank]
  refine ⟨LexicalRules.isLineLocal_standard, he, ha, ?_⟩
  rw [tokenize_append_of_endsLine LexicalRules.isLineLocal_standard he ha]
  decide +kernel

section
variable {rules : LexicalRules}

theorem significant_append (a b : List Token) :
    significant (a ++ b) = significant a ++ significant b :=
  List.filter_append a b

theorem significant_placed_cons (l : Location) (x : Lexeme) (xs : List Lexeme) :
    significant (placed l (x :: xs)) =
      significant [x.located l] ++ significant (placed (l.advance x.text) xs) :=
  significant_append [x.located l] _

theorem significant_placed_dropWhile (l : Location) (text : List Char) :
    significant (placed l (lexemes rules text)) =
      significant (placed (l.advance (text.takeWhile isBlank))
        (lexemes rules (text.dropWhile isBlank))) := by
  cases text with
  | nil => rfl
  | cons c rest =>
    cases hc : isBlank c with
    | false => simp [hc]
    | true =>
      have hx : Lexeme.first rules c rest = _ := Lexeme.first_blank rules (isBlank_iff.1 hc)
      have hdrop := Lexeme.first_text_append_drop rules c rest
      rw [hx] at hdrop
      have hdrop := List.append_cancel_left (hdrop.trans List.takeWhile_append_dropWhile.symm)
      rw [lexemes, hx, hdrop, significant_placed_cons]
      rfl

theorem significant_placed_blanks (l : Location) {blanks : List Char}
    (hb : ∀ c ∈ blanks, IsBlank c) (text : List Char) :
    significant (placed l (lexemes rules (blanks ++ text))) =
      significant (placed (l.advance blanks) (lexemes rules text)) := by
  have hb : ∀ c ∈ blanks, isBlank c = true := fun c hc => isBlank_iff.2 (hb c hc)
  rw [significant_placed_dropWhile, List.takeWhile_append_of_pos hb,
    List.dropWhile_append_of_pos hb, Location.advance_append, ← significant_placed_dropWhile]

theorem significant_placed_append (hr : rules.IsLineLocal) {d : Char} (hd : d = '\r' ∨ d = '\n')
    (l : Location) (text after : List Char) :
    significant (placed l (lexemes rules (text ++ d :: after))) =
      significant (placed l (lexemes rules text)) ++
        significant (placed (l.advance (text ++ [d])) (lexemes rules after)) := by
  fun_induction lexemes rules text generalizing l with
  | case1 =>
    have hblank : ∀ c ∈ [d], IsBlank c := fun c hc => List.mem_singleton.1 hc ▸ .of_lineBreak hd
    exact significant_placed_blanks l hblank after
  | case2 c rest ih =>
    have hcut := Lexeme.first_text_append_drop rules c rest
    have hplace : l.advance (c :: rest ++ [d]) =
        (l.advance (Lexeme.first rules c rest).text).advance
          ((c :: rest).drop (Lexeme.first rules c rest).text.length ++ [d]) := by
      rw [← Location.advance_append, ← List.append_assoc, hcut]
    rw [significant_placed_cons, List.append_assoc, hplace, ← ih]
    by_cases hc : IsBlank c
    -- the blanks may go on behind the seam, but no token with structure is lost with them
    · have hx : Lexeme.first rules c rest = _ := Lexeme.first_blank rules hc
      have hblank : ∀ e ∈ (Lexeme.first rules c rest).text, IsBlank e := by
        rw [hx]
        exact fun e he => isBlank_iff.1 (List.mem_takeWhile_imp he)
      have htrivia : significant [(Lexeme.first rules c rest).located l] = [] := by
        rw [hx]
        rfl
      rw [← significant_placed_blanks l hblank, ← List.append_assoc, hcut, htrivia, List.nil_append]
    · have hfirst : Lexeme.first rules c (rest ++ d :: after) = Lexeme.first rules c rest :=
        Lexeme.first_append_of_atLineEnd hr.marks hc hr.noBlocks rest (atLineEnd_cons hd after)
      rw [lexemes_cons_append hfirst, significant_placed_cons]

/-- The tokens with structure of two sources with a line feed between them: those of the first but
for its end, then those of the second on the lines behind it. -/
theorem significant_tokenize_append (hr : rules.IsLineLocal) (text after : String) :
    significant (tokenize rules (text ++ "\n" ++ after)) =
      significant (tokenize rules text).dropLast ++
        significant ((tokenize rules after).map
          (Token.within (.behind (text.toList ++ ['\n'])))) := by
  obtain ⟨l, hl⟩ := exists_tokenize_eq rules text
  have hjoined : (text ++ "\n" ++ after).toList = text.toList ++ '\n' :: after.toList := by simp
  have hplace : Location.start.advance (text.toList ++ '\n' :: after.toList) =
      (Location.behind (text.toList ++ ['\n'])).advance after.toList := by
    rw [← Location.start_advance, ← Location.advance_append, List.append_assoc,
      List.singleton_append]
  rw [tokenize_eq, hjoined, placed_append, significant_append,
    significant_placed_append hr (.inr rfl), List.append_assoc, hl, List.dropLast_concat,
    tokenize_eq rules after, ← placed_behind, placed_append, significant_append, joined_lexemes,
    joined_lexemes, hplace, Location.start_advance]

end

end PegKit
