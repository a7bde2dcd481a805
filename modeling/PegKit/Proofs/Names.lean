import PegKit.Proofs.Coverage
import PegKit.Proofs.LexicalGrammar
import PegKit.Proofs.RuleNames

/-! The names of rules. Whatever the conventions are, only one reader reads identifiers, and it
takes a letter or an underscore and what goes on from there. A rule is known by the text of an
identifier of its grammar, so its name has this form. A valid grammar has at least one rule. -/

namespace PegKit

/-- A letter or an underscore, then letters, digits and underscores. -/
def IsName (name : String) : Prop :=
  ∃ c rest, name.toList = c :: rest ∧ IsNameStart c ∧ ∀ d ∈ rest, IsNamePart d

theorem isName_of_identifier? {input : List Char} {x : Lexeme}
    (h : Lexeme.identifier? input = some x) : IsName (String.ofList x.text) := by
  unfold Lexeme.identifier? at h
  split at h
  · cases h
  · rename_i c rest
    split_ifs at h with hc
    cases h
    refine ⟨c, rest.takeWhile isNamePart, String.toList_ofList, isNameStart_iff.1 hc, ?_⟩
    intro d hd
    exact isNamePart_iff.1 (List.mem_takeWhile_imp hd)

theorem isName_of_mem_tokenize {rules : LexicalRules} {source : String} {t : Token}
    (h : t ∈ tokenize rules source) (hk : t.kind = .identifier) : IsName t.text := by
  rw [tokenize_eq] at h
  obtain ⟨x, hx, hkind, htext⟩ := mem_placed h
  rw [htext]
  rcases List.mem_append.1 hx with hx | hx
  · obtain ⟨c, rest, rfl⟩ := exists_first_of_mem_lexemes hx
    exact isName_of_identifier? (Lexeme.identifier?_of_kind (hkind.trans hk))
  · rw [List.mem_singleton.1 hx] at hkind
    exact absurd (hkind.trans hk) (by decide)

theorem mem_of_mem_heads {tokens : List Token} {t : Token} (h : t ∈ heads none tokens) :
    t ∈ tokens ∧ t.kind = .identifier := by
  obtain ⟨m, hm, hd⟩ := List.mem_filterMap.1 h
  obtain ⟨before, after, rfl, hprevious⟩ := mem_withPrevious_iff.1 hm
  unfold definedBy? at hd
  split_ifs at hd
  obtain ⟨hname, hk⟩ := Option.filter_eq_some_iff.1 hd
  rw [hname, Option.or_none] at hprevious
  refine ⟨List.mem_append_left _ (List.mem_of_getLast? hprevious.symm), ?_⟩
  simpa using hk

/-- Each rule is known by the text of an identifier. -/
theorem exists_identifier_of_mem_ruleNames {tokens : List Token} {name : String}
    (h : name ∈ (validate tokens).ruleNames) :
    ∃ t ∈ tokens, t.kind = .identifier ∧ t.text = name := by
  rw [ruleNames_validate, foldl_addName_eq_eraseDups, List.mem_eraseDups] at h
  obtain ⟨t, ht, rfl⟩ := List.mem_map.1 h
  obtain ⟨hmem, hk⟩ := mem_of_mem_heads ht
  exact ⟨t, (List.mem_filter.1 hmem).1, hk, rfl⟩

theorem isName_of_mem_ruleNames {rules : LexicalRules} {source name : String}
    (h : name ∈ (validate (tokenize rules source)).ruleNames) : IsName name := by
  obtain ⟨t, ht, hk, rfl⟩ := exists_identifier_of_mem_ruleNames h
  exact isName_of_mem_tokenize ht hk

theorem ruleNames_ne_nil_of_isValid {tokens : List Token} (h : (validate tokens).isValid = true) :
    (validate tokens).ruleNames ≠ [] := by
  intro hn
  have hreport := validate_ruleless tokens
  rw [if_pos hn, List.filter_eq_cons_iff] at hreport
  obtain ⟨before, after, hd, -⟩ := hreport
  have hmem : rulelessError tokens ∈ (validate tokens).diagnostics := by
    rw [hd]
    simp
  rw [Report.isValid, Bool.not_eq_true', List.any_eq_false] at h
  exact h _ hmem rfl

end PegKit
