import PegKit.Proofs.RuleHeads

/-! The rules that a grammar defines, and what is reported of its definition signs. Each rule is
known once, where its first definition stands. Every further definition of it is a warning, every
sign without a name is an error, and so each sign is accounted for. -/

namespace PegKit

/-- The definitions of rules that are defined before, where the rules `earlier` are. -/
def redefinitions (earlier : List String) : List Token → List Token
  | [] => []
  | head :: rest =>
    (if head.text ∈ earlier then [head] else []) ++ redefinitions (addName earlier head) rest

def redefinitionWarning (head : Token) : Diagnostic :=
  ⟨.warning, "rule `" ++ head.text ++ "` is defined more than once", head.span,
    head.location.line, head.location.column⟩

def namelessError (arrow : Token) : Diagnostic :=
  ⟨.error, "rule definition is missing a name", arrow.span, arrow.location.line,
    arrow.location.column⟩

/-- The error about a grammar without rules, which is about all of it. -/
def rulelessError (tokens : List Token) : Diagnostic :=
  ⟨.error, "no rule definitions found",
    ⟨0, (tokens.map fun t => t.span.stop).foldl max 0, Nat.zero_le _⟩, 1, 1⟩

namespace Diagnostic

def isRedefinition (d : Diagnostic) : Bool := !d.isError && d.message.startsWith "rule `"

def isNameless (d : Diagnostic) : Bool :=
  d.isError && d.message == "rule definition is missing a name"

def isRuleless (d : Diagnostic) : Bool := d.isError && d.message == "no rule definitions found"

end Diagnostic

section kinds

theorem isRedefinition_redefinitionWarning (head : Token) :
    (redefinitionWarning head).isRedefinition = true := by
  have h : (redefinitionWarning head).message.startsWith "rule `" = true := by
    rw [String.startsWith_string_iff, redefinitionWarning, String.toList_append,
      String.toList_append, List.append_assoc]
    exact List.prefix_append _ _
  rw [Diagnostic.isRedefinition, h]
  rfl

theorem isRedefinition_unterminatedString (t : Token) :
    (Problem.unterminatedString.onToken t).isRedefinition = false := by
  have h : Problem.unterminatedString.message.startsWith "rule `" = false := by
    rw [String.startsWith_string_eq_false_iff]
    decide
  simpa [Diagnostic.isRedefinition, Problem.onToken, Problem.diagnostic] using fun _ => h

theorem isRedefinition_of_isError {d : Diagnostic} (h : d.isError = true) :
    d.isRedefinition = false := by
  simp [Diagnostic.isRedefinition, h]

theorem isRedefinition_missingName (t : Token) :
    (Problem.missingName.onToken t).isRedefinition = false :=
  isRedefinition_of_isError rfl

end kinds

theorem filter_isRedefinition_ownReport (p : Progress) (t : Token) :
    (p.ownReport t).filter Diagnostic.isRedefinition =
      (redefinitions p.ruleNames.toList (definedBy? (p.previous, t)).toList).map
        redefinitionWarning := by
  by_cases hk : t.kind = .arrow
  · unfold Progress.ownReport Progress.headReport
    cases p.previous with
    | none => simp [hk, definedBy?_none, redefinitions, isRedefinition_missingName]
    | some name =>
      by_cases hn : name.kind = .identifier
      · have hw : (Problem.repeatedRule name.text).onToken name = redefinitionWarning name := rfl
        by_cases hr : name.text ∈ p.ruleNames <;>
          simp [hk, hn, hr, definedBy?_of_identifier hk hn, redefinitions, hw,
            isRedefinition_redefinitionWarning]
      · simp [hk, hn, definedBy?_of_not_identifier t hn, redefinitions,
          isRedefinition_missingName]
  · rw [definedBy?_of_ne_arrow _ hk]
    unfold Progress.ownReport
    split
    · contradiction
    · split_ifs <;> simp [redefinitions, isRedefinition_unterminatedString]
    · simp [redefinitions]

theorem redefinitions_append (earlier : List String) (a b : List Token) :
    redefinitions earlier (a ++ b) =
      redefinitions earlier a ++ redefinitions (a.foldl addName earlier) b := by
  induction a generalizing earlier with
  | nil => rfl
  | cons head a ih =>
    rw [List.cons_append, redefinitions, ih, redefinitions, List.append_assoc, List.foldl_cons]

theorem filter_isRedefinition_ownReports (p : Progress) (tokens : List Token) :
    (p.ownReports tokens).filter Diagnostic.isRedefinition =
      (redefinitions p.ruleNames.toList (heads p.previous (significant tokens))).map
        redefinitionWarning := by
  induction tokens generalizing p with
  | nil => rfl
  | cons t tokens ih =>
    rw [Progress.ownReports, List.filter_append, ih, Progress.visit_previous,
      toList_visit_ruleNames]
    cases ht : t.isTrivia with
    | true =>
      rw [Progress.ownReport_of_isTrivia p ht, significant_cons_of_trivia ht,
        definedBy?_of_ne_arrow _ (ne_arrow_of_isTrivia ht)]
      rfl
    | false =>
      rw [filter_isRedefinition_ownReport, significant_cons ht, heads_cons, redefinitions_append,
        List.map_append]
      rfl

theorem isError_of_mem_pendingReport {p : Progress} {d : Diagnostic} (h : d ∈ p.pendingReport) :
    d.isError = true := by
  obtain ⟨run, -, rfl⟩ := Progress.mem_pendingReport h
  rfl

theorem isError_of_mem_closing {p : Progress} {d : Diagnostic} (h : d ∈ p.closing) :
    d.isError = true := by
  rcases Progress.mem_closing h with ⟨g, -, rfl⟩ | rfl
  · rfl
  · rfl

theorem filter_diagnostics_eq {keep : Diagnostic → Bool}
    (hk : ∀ d, d.isError = true → keep d = false) (tokens : List Token) :
    (validate tokens).diagnostics.filter keep =
      (Progress.initial.ownReports tokens).filter keep := by
  have hpending : ∀ p : Progress, p.pendingReport.filter keep = [] := fun p =>
    List.filter_eq_nil_iff.2 fun d hd => by simp [hk d (isError_of_mem_pendingReport hd)]
  have hclosing : ∀ p : Progress, p.closing.filter keep = [] := fun p =>
    List.filter_eq_nil_iff.2 fun d hd => by simp [hk d (isError_of_mem_closing hd)]
  rw [validate, Progress.finish, List.filter_append, hclosing, List.append_nil,
    Progress.foldl_visit_filter hpending]
  rfl

theorem validate_redefinitions (tokens : List Token) :
    (validate tokens).diagnostics.filter Diagnostic.isRedefinition =
      (redefinitions [] (heads none (significant tokens))).map redefinitionWarning := by
  rw [filter_diagnostics_eq fun _ => isRedefinition_of_isError, filter_isRedefinition_ownReports]
  rfl

section otherErrors

theorem isOtherError_of_message {d : Diagnostic} (he : d.isError = true)
    (hm : d.message.contains "unmatched" = false) : d.isOtherError = true := by
  simp [Diagnostic.isOtherError, Diagnostic.isGrouping, he, hm]

theorem filter_eq_filter_isOtherError {keep : Diagnostic → Bool}
    (hk : ∀ d, keep d = true → d.isOtherError = true) (diagnostics : List Diagnostic) :
    diagnostics.filter keep = (diagnostics.filter Diagnostic.isOtherError).filter keep := by
  rw [List.filter_filter]
  refine List.filter_congr fun d _ => ?_
  cases h : keep d with
  | true => rw [hk d h, Bool.and_self]
  | false => rfl

theorem isOtherError_of_isNameless {d : Diagnostic} (h : d.isNameless = true) :
    d.isOtherError = true := by
  simp only [Diagnostic.isNameless, Bool.and_eq_true, beq_iff_eq] at h
  refine isOtherError_of_message h.1 ?_
  rw [h.2, String.contains_string_eq_false_iff]
  decide

theorem isOtherError_of_isRuleless {d : Diagnostic} (h : d.isRuleless = true) :
    d.isOtherError = true := by
  simp only [Diagnostic.isRuleless, Bool.and_eq_true, beq_iff_eq] at h
  refine isOtherError_of_message h.1 ?_
  rw [h.2, String.contains_string_eq_false_iff]
  decide

theorem ruleNames_validate (tokens : List Token) :
    (validate tokens).ruleNames = (heads none (significant tokens)).foldl addName [] := by
  rw [validate, Progress.finish, Progress.endStray_eq]
  exact foldl_visit_ruleNames .initial tokens

theorem noRulesReport_eq (tokens : List Token) :
    noRulesReport (tokens.foldl Progress.visit .initial) =
      if (validate tokens).ruleNames = [] then [rulelessError tokens] else [] := by
  have hn : (tokens.foldl Progress.visit .initial).ruleNames = #[] ↔
      (validate tokens).ruleNames = [] := by
    rw [ruleNames_validate, ← Array.toList_eq_nil_iff, foldl_visit_ruleNames]
    rfl
  have hd : Problem.noRules.diagnostic
      (Span.between 0 (tokens.foldl Progress.visit .initial).reach) .start =
        rulelessError tokens := by
    rw [foldl_visit_reach, Problem.diagnostic, rulelessError]
    simp only [Span.between, Nat.zero_max]
    rfl
  simp only [noRulesReport, hn, hd]

/-- The errors apart from grouping: each is about a definition sign, or about all of the grammar. -/
theorem validate_otherErrors_eq (tokens : List Token) :
    (validate tokens).diagnostics.filter Diagnostic.isOtherError =
      (nameless none (significant tokens)).map namelessError ++
        if (validate tokens).ruleNames = [] then [rulelessError tokens] else [] := by
  rw [validate_otherErrors, noRulesReport_eq]
  rfl

theorem validate_nameless (tokens : List Token) :
    (validate tokens).diagnostics.filter Diagnostic.isNameless =
      (nameless none (significant tokens)).map namelessError := by
  rw [filter_eq_filter_isOtherError fun _ => isOtherError_of_isNameless,
    validate_otherErrors_eq, List.filter_append]
  have hs : ∀ arrow, (namelessError arrow).isNameless = true := fun _ => rfl
  have hn : (rulelessError tokens).isNameless = false := rfl
  split_ifs <;> simp [List.filter_map, Function.comp_def, hs, hn]

theorem validate_ruleless (tokens : List Token) :
    (validate tokens).diagnostics.filter Diagnostic.isRuleless =
      if (validate tokens).ruleNames = [] then [rulelessError tokens] else [] := by
  rw [filter_eq_filter_isOtherError fun _ => isOtherError_of_isRuleless,
    validate_otherErrors_eq, List.filter_append]
  have hs : ∀ arrow, (namelessError arrow).isRuleless = false := fun _ => rfl
  have hn : (rulelessError tokens).isRuleless = true := rfl
  split_ifs <;> simp [List.filter_map, Function.comp_def, hs, hn]

end otherErrors

section names

theorem foldl_addName_eq_eraseDups (tokens : List Token) :
    tokens.foldl addName [] = (tokens.map Token.text).eraseDups := by
  induction tokens using List.reverseRecOn with
  | nil => rfl
  | append_singleton tokens t ih =>
    have hr : [t.text].removeAll (tokens.map Token.text) =
        if t.text ∈ tokens.map Token.text then [] else [t.text] := by
      by_cases h : t.text ∈ tokens.map Token.text <;>
        simp only [List.removeAll, List.filter_cons, List.filter_nil, List.elem_eq_mem, h] <;> rfl
    rw [List.foldl_concat, ih, addName, List.map_append, List.eraseDups_append, List.map_singleton,
      hr]
    simp only [List.mem_eraseDups]
    split_ifs
    · exact (List.append_nil _).symm
    · rfl

theorem length_foldl_addName (names : List String) (tokens : List Token) :
    (tokens.foldl addName names).length + (redefinitions names tokens).length =
      names.length + tokens.length := by
  induction tokens generalizing names with
  | nil => rfl
  | cons t tokens ih =>
    have hl : (addName names t).length + (if t.text ∈ names then [t] else []).length =
        names.length + 1 := by
      unfold addName
      split_ifs <;> simp
    have := ih (addName names t)
    rw [List.foldl_cons, redefinitions, List.length_append, List.length_cons]
    omega

theorem length_heads (previous : Option Token) (tokens : List Token) :
    (heads previous tokens).length + (nameless previous tokens).length =
      tokens.countP (·.kind == .arrow) := by
  induction tokens generalizing previous with
  | nil => rfl
  | cons t tokens ih =>
    have := ih (some t)
    by_cases hk : t.kind = .arrow
    · cases hd : definedBy? (previous, t) <;>
        simp [heads, nameless, withPrevious, lacksName, hk, hd] at this ⊢ <;> omega
    · simp [heads, nameless, withPrevious, lacksName, hk, definedBy?_of_ne_arrow] at this ⊢
      omega

theorem countP_arrow_significant (tokens : List Token) :
    (significant tokens).countP (·.kind == .arrow) = tokens.countP (·.kind == .arrow) := by
  rw [significant_eq_filter_isTrivia, List.countP_filter]
  refine List.countP_congr fun t _ => ?_
  have ht : t.kind = .arrow → t.isTrivia = false := by
    intro hk
    simpa using mt ne_arrow_of_isTrivia (not_not.2 hk)
  simpa using ht

end names

/-- A rule is defined by a sign behind its name. The check knows each rule once, in the order of
the first definitions; it warns of the others at the name, and calls each sign that defines nothing
an error. So the signs are as many as the rules, the warnings and these errors together. -/
theorem validate_definitions (tokens : List Token) :
    (validate tokens).ruleNames =
      ((heads none (significant tokens)).map Token.text).eraseDups ∧
    (validate tokens).diagnostics.filter Diagnostic.isRedefinition =
      (redefinitions [] (heads none (significant tokens))).map redefinitionWarning ∧
    (validate tokens).diagnostics.filter Diagnostic.isNameless =
      (nameless none (significant tokens)).map namelessError ∧
    (validate tokens).diagnostics.filter Diagnostic.isRuleless =
      (if (validate tokens).ruleNames = [] then [rulelessError tokens] else []) ∧
    tokens.countP (·.kind == .arrow) =
      (validate tokens).ruleNames.length +
        ((validate tokens).diagnostics.filter Diagnostic.isRedefinition).length +
        ((validate tokens).diagnostics.filter Diagnostic.isNameless).length := by
  refine ⟨?_, validate_redefinitions tokens, validate_nameless tokens, validate_ruleless tokens,
    ?_⟩
  · rw [ruleNames_validate, foldl_addName_eq_eraseDups]
  · have hn := length_foldl_addName [] (heads none (significant tokens))
    have ha := length_heads none (significant tokens)
    rw [ruleNames_validate, validate_redefinitions, validate_nameless, List.length_map,
      List.length_map, ← countP_arrow_significant, ← ha, hn]
    simp

end PegKit
