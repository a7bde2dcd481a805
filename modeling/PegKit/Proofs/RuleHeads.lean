import PegKit.Proofs.Grouping

/-! Definition signs and what stands before them. Behind an identifier a sign defines a rule, and
behind anything else it has no name; trivia does not come between. -/

namespace PegKit

/-- Each token with the one before it; `previous` stands before the first. -/
def withPrevious : Option Token → List Token → List (Option Token × Token)
  | _, [] => []
  | previous, t :: rest => (previous, t) :: withPrevious (some t) rest

/-- The identifier whose rule a token defines, given the token before it. -/
def definedBy? (m : Option Token × Token) : Option Token :=
  if m.2.kind = .arrow then m.1.filter (·.kind == .identifier) else none

/-- Whether a token is a definition sign without a name. -/
def lacksName (m : Option Token × Token) : Bool :=
  m.2.kind == .arrow && (definedBy? m).isNone

def nameless (previous : Option Token) (tokens : List Token) : List Token :=
  ((withPrevious previous tokens).filter lacksName).map Prod.snd

theorem definedBy?_none (t : Token) : definedBy? (none, t) = none := by
  simp [definedBy?]

theorem definedBy?_of_identifier {name t : Token} (hk : t.kind = .arrow)
    (hn : name.kind = .identifier) : definedBy? (some name, t) = some name := by
  simp [definedBy?, hk, hn]

theorem definedBy?_of_not_identifier {name : Token} (t : Token) (hn : name.kind ≠ .identifier) :
    definedBy? (some name, t) = none := by
  simp [definedBy?, hn]

theorem mem_withPrevious_iff {previous : Option Token} {tokens : List Token}
    {m : Option Token × Token} :
    m ∈ withPrevious previous tokens ↔
      ∃ before after, tokens = before ++ m.2 :: after ∧ m.1 = before.getLast?.or previous := by
  induction tokens generalizing previous with
  | nil => simp [withPrevious]
  | cons t rest ih =>
    rw [withPrevious, List.mem_cons, ih]
    constructor
    · rintro (rfl | ⟨before, after, rfl, hm⟩)
      · exact ⟨[], rest, rfl, rfl⟩
      · exact ⟨t :: before, after, rfl, by cases before <;> simp_all [List.getLast?_cons]⟩
    · rintro ⟨before, after, he, hm⟩
      cases before with
      | nil =>
        cases he
        exact .inl (Prod.ext hm rfl)
      | cons u before =>
        cases he
        exact .inr ⟨before, after, rfl, by cases before <;> simp_all [List.getLast?_cons]⟩

/-- The identifiers that define rules, as often as they do. -/
def heads (previous : Option Token) (tokens : List Token) : List Token :=
  (withPrevious previous tokens).filterMap definedBy?

/-- The rules after one more definition. -/
def addName (names : List String) (head : Token) : List String :=
  if head.text ∈ names then names else names ++ [head.text]

def Diagnostic.isOtherError (d : Diagnostic) : Bool := d.isError && !d.isGrouping

theorem isOtherError_missingName (t : Token) :
    (Problem.missingName.onToken t).isOtherError = true := by
  rw [Diagnostic.isOtherError, isGrouping_missingName]
  rfl

theorem isOtherError_repeatedRule (name : String) (t : Token) :
    ((Problem.repeatedRule name).onToken t).isOtherError = false := rfl

theorem isOtherError_unterminatedString (t : Token) :
    (Problem.unterminatedString.onToken t).isOtherError = false := rfl

theorem filter_isOtherError_ownReport (p : Progress) (t : Token) :
    (p.ownReport t).filter Diagnostic.isOtherError =
      if lacksName (p.previous, t) = true then [Problem.missingName.onToken t] else [] := by
  by_cases hk : t.kind = .arrow
  · unfold Progress.ownReport Progress.headReport lacksName
    cases p.previous with
    | none => simp [hk, definedBy?_none, isOtherError_missingName]
    | some name =>
      by_cases hn : name.kind = .identifier
      · by_cases hr : name.text ∈ p.ruleNames <;>
          simp [hk, hn, hr, definedBy?_of_identifier hk hn, isOtherError_repeatedRule]
      · simp [hk, hn, definedBy?_of_not_identifier t hn, isOtherError_missingName]
  · unfold Progress.ownReport
    split
    · contradiction
    · split_ifs <;> simp_all [lacksName, isOtherError_unterminatedString]
    · simp [lacksName, hk]

theorem filter_isOtherError_pendingReport (p : Progress) :
    p.pendingReport.filter Diagnostic.isOtherError = [] := by
  rw [List.filter_eq_nil_iff]
  intro d hd
  obtain ⟨r, -, rfl⟩ := List.mem_map.1 hd
  simp [Diagnostic.isOtherError, isGrouping_strayClosings]

theorem filter_isOtherError_ownReports (p : Progress) (tokens : List Token) :
    (p.ownReports tokens).filter Diagnostic.isOtherError =
      (nameless p.previous (significant tokens)).map Problem.missingName.onToken := by
  induction tokens generalizing p with
  | nil => rfl
  | cons t tokens ih =>
    rw [Progress.ownReports, List.filter_append, ih, Progress.visit_previous]
    cases ht : t.isTrivia with
    | true => simp [significant_cons_of_trivia ht, Progress.ownReport_of_isTrivia p ht]
    | false =>
      rw [significant_cons ht, filter_isOtherError_ownReport]
      cases hl : lacksName (p.previous, t) <;> simp [nameless, withPrevious, hl]

theorem append_newName (p : Progress) {t : Token} (hk : t.kind = .arrow) :
    p.ruleNames.toList ++ p.newName =
      (definedBy? (p.previous, t)).toList.foldl addName p.ruleNames.toList := by
  unfold Progress.newName
  cases p.previous with
  | none => simp [definedBy?_none]
  | some name =>
    by_cases hn : name.kind = .identifier
    · by_cases hr : name.text ∈ p.ruleNames <;>
        simp [definedBy?_of_identifier hk hn, hn, hr, addName]
    · simp [definedBy?_of_not_identifier t hn, hn]

theorem definedBy?_of_ne_arrow {t : Token} (previous : Option Token) (h : t.kind ≠ .arrow) :
    definedBy? (previous, t) = none := by
  rw [definedBy?, if_neg h]

theorem ne_arrow_of_isTrivia {t : Token} (h : t.isTrivia = true) : t.kind ≠ .arrow := by
  intro hk
  simp [Token.isTrivia, hk, TokenKind.isTrivia] at h

theorem heads_cons (previous : Option Token) (t : Token) (rest : List Token) :
    heads previous (t :: rest) = (definedBy? (previous, t)).toList ++ heads (some t) rest := by
  rw [heads, withPrevious, List.filterMap_cons]
  cases definedBy? (previous, t) <;> rfl

theorem toList_visit_ruleNames (p : Progress) (t : Token) :
    (p.visit t).ruleNames.toList =
      (definedBy? (p.previous, t)).toList.foldl addName p.ruleNames.toList := by
  rw [Progress.visit_ruleNames]
  split_ifs with hk
  · rw [← append_newName p hk, Array.toList_append]
  · rw [definedBy?_of_ne_arrow _ hk]
    rfl

/-- A pass from any state of the check: its rules are those before, and each new one once. -/
theorem foldl_visit_ruleNames (p : Progress) (tokens : List Token) :
    (tokens.foldl Progress.visit p).ruleNames.toList =
      (heads p.previous (significant tokens)).foldl addName p.ruleNames.toList := by
  induction tokens generalizing p with
  | nil => rfl
  | cons t tokens ih =>
    rw [List.foldl_cons, ih, Progress.visit_previous, toList_visit_ruleNames]
    cases ht : t.isTrivia with
    | true =>
      rw [significant_cons_of_trivia ht, definedBy?_of_ne_arrow _ (ne_arrow_of_isTrivia ht)]
      rfl
    | false =>
      rw [significant_cons ht, heads_cons, List.foldl_append]
      rfl

def noRulesReport (p : Progress) : List Diagnostic :=
  if p.ruleNames = #[] then [Problem.noRules.diagnostic (Span.between 0 p.reach) .start] else []

theorem validate_otherErrors (tokens : List Token) :
    (validate tokens).diagnostics.filter Diagnostic.isOtherError =
      (nameless none (significant tokens)).map Problem.missingName.onToken ++
        noRulesReport (tokens.foldl Progress.visit .initial) := by
  set p := tokens.foldl Progress.visit .initial with hp
  have hn : p.endStray.closing.filter Diagnostic.isOtherError = noRulesReport p := by
    simp only [Progress.closing, Progress.endStray_eq, noRulesReport, Array.isEmpty_iff]
    split <;> split_ifs <;>
      simp [Diagnostic.isOtherError, isGrouping_unclosedGroups, isGrouping_noRules] <;> rfl
  have hs : p.endStray.diagnostics.toList.filter Diagnostic.isOtherError =
      (nameless none (significant tokens)).map Problem.missingName.onToken := by
    rw [hp, Progress.foldl_visit_filter filter_isOtherError_pendingReport,
      filter_isOtherError_ownReports]
    rfl
  rw [validate, ← hp, Progress.finish, List.filter_append, hn, hs]

theorem foldl_addName_ne_nil {names : List String} (tokens : List Token) (h : names ≠ []) :
    tokens.foldl addName names ≠ [] := by
  induction tokens generalizing names with
  | nil => exact h
  | cons t tokens ih =>
    rw [List.foldl_cons]
    apply ih
    unfold addName
    split_ifs
    · exact h
    · simp

theorem ruleNames_eq_empty_iff (tokens : List Token) :
    (tokens.foldl Progress.visit .initial).ruleNames = #[] ↔
      heads none (significant tokens) = [] := by
  rw [← Array.toList_eq_nil_iff, foldl_visit_ruleNames]
  change (heads none (significant tokens)).foldl addName [] = [] ↔ _
  cases heads none (significant tokens) with
  | nil => simp
  | cons t rest =>
    have hne : addName [] t ≠ [] := by simp [addName]
    simpa using foldl_addName_ne_nil rest hne

end PegKit
