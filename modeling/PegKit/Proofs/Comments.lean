import PegKit.Proofs.Lines

/-! What a comment takes. A block comment goes through the first closing mark behind its opening
one, or to the end of the text; a line comment goes on from its mark to the next line break. Either
takes the same again when it is read from what it took. -/

namespace PegKit

section
variable {mark : List Char} {c : Char} {rest : List Char}

theorem throughFirst_of_mark (h : mark <+: c :: rest) : throughFirst mark (c :: rest) = mark := by
  rw [throughFirst, if_pos (List.isPrefixOf_iff_prefix.2 h)]

theorem throughFirst_of_no_mark (h : ¬ mark <+: c :: rest) :
    throughFirst mark (c :: rest) = c :: throughFirst mark rest := by
  rw [throughFirst, if_neg (mt List.isPrefixOf_iff_prefix.1 h)]

theorem head?_throughFirst (hne : mark ≠ []) (input : List Char) :
    (throughFirst mark input).head? = input.head? := by
  cases input with
  | nil => rfl
  | cons c rest =>
    by_cases h : mark <+: c :: rest
    · rw [throughFirst_of_mark h]
      obtain ⟨m, after, rfl⟩ := List.exists_cons_of_ne_nil hne
      rw [List.head?_cons, List.head?_cons, (List.cons_prefix_cons.1 h).1]
    · rw [throughFirst_of_no_mark h]
      rfl

/-- What goes through a mark ends with it, or there is no mark and it is everything. -/
theorem throughFirst_eq_or_suffix (mark input : List Char) :
    throughFirst mark input = input ∨ mark <:+ throughFirst mark input := by
  induction input with
  | nil => exact .inl rfl
  | cons c rest ih =>
    by_cases h : mark <+: c :: rest
    · rw [throughFirst_of_mark h]
      exact .inr List.suffix_rfl
    · rw [throughFirst_of_no_mark h]
      exact ih.imp (congrArg (c :: ·)) fun hs => hs.trans (List.suffix_cons c _)

/-- What goes through the first mark is no longer than what goes to any. -/
theorem length_throughFirst_le {before mark input : List Char} (h : before ++ mark <+: input) :
    (throughFirst mark input).length ≤ (before ++ mark).length := by
  induction input generalizing before with
  | nil => exact Nat.zero_le _
  | cons c rest ih =>
    by_cases hm : mark <+: c :: rest
    · rw [throughFirst_of_mark hm, List.length_append]
      exact Nat.le_add_left _ _
    · cases before with
      | nil => exact absurd h hm
      | cons d before =>
        rw [throughFirst_of_no_mark hm, List.cons_append, List.length_cons, List.length_cons]
        exact Nat.succ_le_succ (ih (List.cons_prefix_cons.1 h).2)

theorem suffix_throughFirst {before mark input : List Char} (h : before ++ mark <+: input) :
    mark <:+ throughFirst mark input := by
  rcases throughFirst_eq_or_suffix mark input with hall | hs
  · have hle := length_throughFirst_le h
    rw [hall] at hle ⊢
    rw [← h.eq_of_length_le hle]
    exact List.suffix_append _ _
  · exact hs

theorem throughFirst_of_forall_not_prefix {mark input : List Char}
    (h : ∀ before, ¬ before ++ mark <+: input) : throughFirst mark input = input := by
  refine (throughFirst_eq_or_suffix mark input).resolve_right ?_
  rintro ⟨before, hb⟩
  exact h before (hb ▸ Lexeme.throughFirst_prefix mark input)

theorem throughFirst_self (mark : List Char) : throughFirst mark mark = mark := by
  cases mark with
  | nil => rfl
  | cons m after => exact throughFirst_of_mark List.prefix_rfl

/-- No mark is found earlier where the text ends with the first one. -/
theorem throughFirst_throughFirst (mark input : List Char) :
    throughFirst mark (throughFirst mark input) = throughFirst mark input := by
  induction input with
  | nil => rfl
  | cons c rest ih =>
    by_cases h : mark <+: c :: rest
    · rw [throughFirst_of_mark h, throughFirst_self]
    · have hcut : c :: throughFirst mark rest <+: c :: rest :=
        List.cons_prefix_cons.2 ⟨rfl, Lexeme.throughFirst_prefix mark rest⟩
      rw [throughFirst_of_no_mark h, throughFirst_of_no_mark fun h' => h (h'.trans hcut), ih]

end

namespace Lexeme
variable {input opening closing mark : List Char} {x : Lexeme}

theorem blockComment?_append (ho : opening ≠ []) (hc : closing ≠ []) (rest : List Char) :
    blockComment? (opening ++ rest) opening closing =
      some ⟨.comment, opening ++ throughFirst closing rest, true⟩ := by
  simp [blockComment?, ho, hc]

theorem blockComment?_eq_none_iff :
    blockComment? input opening closing = none ↔
      ¬ (opening ≠ [] ∧ closing ≠ [] ∧ opening <+: input) := by
  simp only [blockComment?, ite_eq_right_iff, reduceCtorEq, imp_false, Bool.and_eq_true,
    Bool.not_eq_true', List.isEmpty_eq_false_iff, List.isPrefixOf_iff_prefix, and_assoc]

theorem blockComment?_eq_some (h : blockComment? input opening closing = some x) :
    opening ≠ [] ∧ closing ≠ [] ∧ ∃ rest, input = opening ++ rest ∧
      x = ⟨.comment, opening ++ throughFirst closing rest, true⟩ := by
  have hlive : opening ≠ [] ∧ closing ≠ [] ∧ opening <+: input := by
    by_contra hn
    rw [blockComment?_eq_none_iff.2 hn] at h
    cases h
  obtain ⟨ho, hc, rest, rfl⟩ := hlive
  rw [blockComment?_append ho hc] at h
  exact ⟨ho, hc, rest, rfl, (Option.some.inj h).symm⟩

theorem lineComment?_append (hm : mark ≠ []) (rest : List Char) :
    lineComment? (mark ++ rest) mark = some ⟨.comment, mark ++ firstLine rest, true⟩ := by
  simp [lineComment?, firstLine, hm]

theorem lineComment?_eq_none_iff :
    lineComment? input mark = none ↔ ¬ (mark ≠ [] ∧ mark <+: input) := by
  simp only [lineComment?, ite_eq_right_iff, reduceCtorEq, imp_false, Bool.and_eq_true,
    Bool.not_eq_true', List.isEmpty_eq_false_iff, List.isPrefixOf_iff_prefix]

theorem lineComment?_eq_some (h : lineComment? input mark = some x) :
    mark ≠ [] ∧ ∃ rest, input = mark ++ rest ∧
      x = ⟨.comment, mark ++ firstLine rest, true⟩ := by
  have hlive : mark ≠ [] ∧ mark <+: input := by
    by_contra hn
    rw [lineComment?_eq_none_iff.2 hn] at h
    cases h
  obtain ⟨hm, rest, rfl⟩ := hlive
  rw [lineComment?_append hm] at h
  exact ⟨hm, rest, rfl, (Option.some.inj h).symm⟩

end Lexeme

end PegKit
