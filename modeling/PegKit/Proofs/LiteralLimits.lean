import PegKit.Proofs.Opacity
import PegKit.Proofs.ScaffoldReader

/-! Which literals of a scaffold its language reads. The language bounds the guards of raw literals,
and the search for a guard is not bounded. So one kind of text is written as a literal that nothing
reads: one without a carriage return, in which a quote stands before as many number signs as the
longest guard has. Such a text can be a grammar that checks. -/

namespace PegKit

namespace Text

/-- The number signs of the longest guard that the language reads. -/
def longestGuard : Nat := 255

/-- A literal with escapes is read. A raw one is read with a guard of a length that the language
knows, if no carriage return stands in it. -/
def StringLiteral.IsAccepted (l : StringLiteral) : Prop :=
  match l.form with
  | .escaped => True
  | .raw guard => '\r' ∉ l.value ∧ 1 ≤ guard ∧ guard ≤ longestGuard

theorem isAccepted_literalForm_iff (text : List Char) :
    (StringLiteral.mk (literalForm text) text).IsAccepted ↔
      '\r' ∈ text ∨ ¬ guardMark longestGuard <:+: text := by
  have hguard : leastGuard text 1 ≤ longestGuard ↔ ¬ guardMark longestGuard <:+: text :=
    leastGuard_le_iff (by decide)
  by_cases hr : '\r' ∈ text
  · simp [StringLiteral.IsAccepted, literalForm, hr]
  · simp [StringLiteral.IsAccepted, literalForm, hr, le_leastGuard, hguard]

end Text

theorem generate_rust {d : Document} (h : (check d.source).isValid = true)
    (chosen : Option String) : Scaffold.generate d (check d.source) "rust" chosen =
      .ok ⟨.rust, entryRule (check d.source) chosen,
        rustProgram ⟨d.source, d.file, entryRule (check d.source) chosen⟩⟩ := by
  have ht : Target.find "rust" = .ok .rust := by
    rw [Target.find, show "rust" = Target.rust.id from rfl, Target.ofId?_id]
  rw [Scaffold.generate, if_pos h, ht]
  rfl

/-- The Rust scaffold of a valid grammar holds two literals. That of the entry rule is always read,
and that of the grammar is read unless its text needs a longer guard than there is. -/
theorem generate_isAccepted_iff (d : Document) (chosen : Option String)
    (h : (check d.source).isValid = true) :
    ∃ s grammar entry, Scaffold.generate d (check d.source) "rust" chosen = .ok s ∧
      readRustProgram s.text.toList = some (grammar, entry) ∧ entry.IsAccepted ∧
      (grammar.IsAccepted ↔
        '\r' ∈ d.source.toList ∨ ¬ Text.guardMark Text.longestGuard <:+: d.source.toList) := by
  refine ⟨_, _, _, generate_rust h chosen, readRustProgram_rustProgram _, trivial, ?_⟩
  exact Text.isAccepted_literalForm_iff d.source.toList

/-- A short grammar, in which a guard of three number signs is enough. -/
theorem generate_isAccepted_hashes :
    (check "a <- '\"##'").isValid = true ∧
    ∃ s grammar entry,
      Scaffold.generate ⟨"a.peg", "a <- '\"##'"⟩ (check "a <- '\"##'") "rust" none = .ok s ∧
      readRustProgram s.text.toList = some (grammar, entry) ∧ entry.IsAccepted ∧
      grammar.IsAccepted := by
  have hvalid : (check "a <- '\"##'").isValid = true := by cbv
  have hshort : ¬ Text.guardMark Text.longestGuard <:+: "a <- '\"##'".toList := by
    intro h
    have hlen := h.length_le
    rw [Text.length_guardMark] at hlen
    exact absurd hlen (by decide)
  obtain ⟨s, grammar, entry, hs, hread, hentry, hgrammar⟩ :=
    generate_isAccepted_iff ⟨"a.peg", "a <- '\"##'"⟩ none hvalid
  exact ⟨hvalid, s, grammar, entry, hs, hread, hentry, hgrammar.2 (.inr hshort)⟩

def hashRule (n : Nat) : String := "a <- '\"" ++ String.ofList (List.replicate n '#') ++ "'"

theorem toList_hashRule (n : Nat) :
    (hashRule n).toList = "a <- '\"".toList ++ (List.replicate n '#' ++ ['\'']) := by
  simp [hashRule]

theorem isValid_hashRule (n : Nat) : (check (hashRule n)).isValid = true := by
  have hcut : (tokenize .standard "a <- ''").dropLast.map Token.lexeme =
      [⟨.identifier, ['a'], true⟩, ⟨.whitespace, [' '], true⟩, ⟨.arrow, ['<', '-'], true⟩,
        ⟨.whitespace, [' '], true⟩, ⟨.stringLiteral, ['\'', '\''], true⟩] := by
    cbv
  have hinert : ∀ c ∈ '"' :: List.replicate n '#', Lexeme.IsInert '\'' c := by
    intro c hc
    rcases List.mem_cons.1 hc with rfl | hc
    · simp [Lexeme.IsInert]
    · rw [List.eq_of_mem_replicate hc]
      simp [Lexeme.IsInert]
  have hstring := @Lexeme.Redressed.closedString '\'' [] _ hinert
  have hredress : Redresses "a <- ''" (hashRule n) := by
    unfold Redresses
    rw [hcut]
    refine ⟨_, .cons (.same _) <| .cons (.same _) <| .cons (.same _) <| .cons (.same _) <|
      .cons hstring .nil, ?_⟩
    rw [toList_hashRule]
    simp
  rw [hredress.isValid_eq]
  cbv

theorem leastGuard_hashRule (n : Nat) : Text.leastGuard (hashRule n).toList 1 = n + 1 := by
  have hmark : Text.guardMark n <:+: (hashRule n).toList := by
    rw [toList_hashRule]
    exact ⟨"a <- '".toList, ['\''], by simp [Text.guardMark]⟩
  have hle : Text.leastGuard (hashRule n).toList 1 ≤ n + 1 := by
    rw [Text.leastGuard_le_iff (by omega)]
    intro h
    have := h.sublist.count_le '#'
    rw [toList_hashRule] at this
    simp [Text.guardMark] at this
  have hpos := Text.le_leastGuard (hashRule n).toList 1
  rcases Nat.eq_zero_or_pos n with rfl | hn
  · omega
  · have hlt : ¬ Text.leastGuard (hashRule n).toList 1 ≤ n := by
      rw [Text.leastGuard_le_iff hn]
      exact not_not_intro hmark
    omega

theorem literalForm_hashRule (n : Nat) :
    Text.literalForm (hashRule n).toList = .raw (n + 1) := by
  have hr : '\r' ∉ (hashRule n).toList := by
    rw [toList_hashRule]
    simp [List.mem_replicate]
  rw [Text.literalForm, if_neg hr, leastGuard_hashRule]

theorem generate_hashRule (file : String) (n : Nat) :
    ∃ s entry,
      Scaffold.generate ⟨file, hashRule n⟩ (check (hashRule n)) "rust" none = .ok s ∧
      readRustProgram s.text.toList = some (⟨.raw (n + 1), (hashRule n).toList⟩, entry) := by
  have hs := @generate_rust ⟨file, hashRule n⟩ (isValid_hashRule n) none
  have hread := readRustProgram_rustProgram
    ⟨hashRule n, file, entryRule (check (hashRule n)) none⟩
  rw [literalForm_hashRule] at hread
  exact ⟨_, _, hs, hread⟩

/-- A valid grammar whose literal needs one number sign more than the longest guard has. -/
theorem generate_not_isAccepted :
    (check (hashRule 255)).isValid = true ∧
    ∃ s grammar entry,
      Scaffold.generate ⟨"calc.npeg", hashRule 255⟩ (check (hashRule 255)) "rust" none = .ok s ∧
      readRustProgram s.text.toList = some (grammar, entry) ∧
      grammar.form = .raw 256 ∧ ¬ grammar.IsAccepted := by
  obtain ⟨s, entry, hs, hread⟩ := generate_hashRule "calc.npeg" 255
  refine ⟨isValid_hashRule 255, s, _, entry, hs, hread, rfl, ?_⟩
  rintro ⟨-, -, hle⟩
  exact absurd hle (by decide)

end PegKit
