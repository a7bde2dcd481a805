import PegKit.Proofs.RuleNames

/-! What the check warns of. A warning is about a rule that is defined before, or about a string that
lacks its end; of these there is one for each such string, whatever stands around it. -/

namespace PegKit

def Token.isOpenString (t : Token) : Bool := t.kind == .stringLiteral && !t.closed

def openStringWarning (t : Token) : Diagnostic :=
  ⟨.warning, "unterminated string literal", t.span, t.location.line, t.location.column⟩

def Report.warnings (r : Report) : List Diagnostic :=
  r.diagnostics.filter fun d => d.severity == .warning

/-- A warning that is not about a rule. -/
def Diagnostic.isOtherWarning (d : Diagnostic) : Bool := !d.isError && !d.isRedefinition

theorem isOtherWarning_openStringWarning (t : Token) :
    (openStringWarning t).isOtherWarning = true := by
  have h : (openStringWarning t).isRedefinition = false := isRedefinition_unterminatedString t
  rw [Diagnostic.isOtherWarning, h]
  rfl

theorem isOtherWarning_of_isError {d : Diagnostic} (h : d.isError = true) :
    d.isOtherWarning = false := by
  simp [Diagnostic.isOtherWarning, h]

theorem isOtherWarning_repeatedRule (name : Token) :
    ((Problem.repeatedRule name.text).onToken name).isOtherWarning = false := by
  have h : ((Problem.repeatedRule name.text).onToken name).isRedefinition = true :=
    isRedefinition_redefinitionWarning name
  simp [Diagnostic.isOtherWarning, h]

theorem filter_isOtherWarning_ownReport (p : Progress) (t : Token) :
    (p.ownReport t).filter Diagnostic.isOtherWarning =
      if t.isOpenString = true then [openStringWarning t] else [] := by
  have hmissing : (Problem.missingName.onToken t).isOtherWarning = false :=
    isOtherWarning_of_isError rfl
  have hopen : (Problem.unterminatedString.onToken t) = openStringWarning t := rfl
  unfold Progress.ownReport Token.isOpenString
  split
  · rename_i hk
    unfold Progress.headReport
    split
    · split_ifs <;> simp_all [isOtherWarning_repeatedRule]
    · simp [hk, hmissing]
  · rename_i hk
    split_ifs <;> simp_all [isOtherWarning_openStringWarning]
  · rename_i hk
    have hk : t.kind ≠ .stringLiteral := hk
    simp [hk]

theorem filter_isOtherWarning_ownReports (p : Progress) (tokens : List Token) :
    (p.ownReports tokens).filter Diagnostic.isOtherWarning =
      (tokens.filter Token.isOpenString).map openStringWarning := by
  induction tokens generalizing p with
  | nil => rfl
  | cons t tokens ih =>
    rw [Progress.ownReports, List.filter_append, ih, filter_isOtherWarning_ownReport]
    cases ht : t.isOpenString <;> simp [ht]

theorem validate_otherWarnings (tokens : List Token) :
    (validate tokens).diagnostics.filter Diagnostic.isOtherWarning =
      (tokens.filter Token.isOpenString).map openStringWarning := by
  rw [filter_diagnostics_eq fun _ => isOtherWarning_of_isError, filter_isOtherWarning_ownReports]

/-- The warnings are as many as the definitions of rules defined before and the open strings. -/
theorem length_warnings (tokens : List Token) :
    (validate tokens).warnings.length =
      (redefinitions [] (heads none (significant tokens))).length +
        tokens.countP Token.isOpenString := by
  have hsplit : ∀ ds : List Diagnostic, (ds.filter fun d => d.severity == .warning).length =
      (ds.filter Diagnostic.isRedefinition).length +
        (ds.filter Diagnostic.isOtherWarning).length := by
    intro ds
    induction ds with
    | nil => rfl
    | cons d ds ih =>
      cases hd : d.severity with
      | error =>
        have he : d.isError = true := by rw [Diagnostic.isError, hd]; rfl
        simpa [hd, isRedefinition_of_isError he, isOtherWarning_of_isError he] using ih
      | warning =>
        have he : d.isError = false := by rw [Diagnostic.isError, hd]; rfl
        cases hr : d.isRedefinition <;> simp [hd, hr, he, Diagnostic.isOtherWarning, ih] <;> omega
  rw [Report.warnings, hsplit, validate_redefinitions, validate_otherWarnings, List.length_map,
    List.length_map, List.countP_eq_length_filter]

theorem countP_isOpenString_significant (tokens : List Token) :
    (significant tokens).countP Token.isOpenString = tokens.countP Token.isOpenString := by
  rw [significant_eq_filter_isTrivia, List.countP_filter]
  refine List.countP_congr fun t _ => ?_
  have ht : t.isOpenString = true → t.isTrivia = false := by
    intro h
    simp only [Token.isOpenString, Bool.and_eq_true, beq_iff_eq] at h
    simp [Token.isTrivia, h.1, TokenKind.isTrivia]
  simpa using ht

end PegKit
