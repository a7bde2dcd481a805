import PegKit.Proofs.DiagnosticOrder
import PegKit.Proofs.Lines
import PegKit.Proofs.Names

/-! What the messages of a check are made of. Each diagnostic reports one of the problems that there
are. All that a message takes from the grammar is the name of a rule, and that is an identifier that
was read; so a message is one field of one line, whatever the conventions of the grammar are. -/

namespace PegKit

theorem message_unclosedGroups (n : Nat) : (Problem.unclosedGroups n).message =
    "unbalanced grouping, " ++ toString n ++ " unmatched opening parentheses" := rfl

theorem message_repeatedRule (name : String) : (Problem.repeatedRule name).message =
    "rule `" ++ name ++ "` is defined more than once" := rfl

theorem eq_unclosedGroups_of_message {p : Problem} {n : Nat}
    (h : p.message = (Problem.unclosedGroups n).message) : p = .unclosedGroups n := by
  have hfront : p.message.toList.take 3 = ['u', 'n', 'b'] := by
    rw [h, message_unclosedGroups]
    simp
  cases p with
  | strayClosings m =>
    rw [message_strayClosings] at h hfront
    split_ifs at h hfront
    · exact absurd hfront (by decide)
    -- what the messages end with is of the same length
    · have hlists := congrArg String.toList h
      rw [message_unclosedGroups, String.toList_append, String.toList_append] at hlists
      exact absurd (List.append_inj_right' hlists (by decide)) (by decide)
  | unclosedGroups m =>
    have hlists := congrArg String.toList h
    simp only [message_unclosedGroups, String.toList_append, List.append_cancel_left_eq,
      List.append_cancel_right_eq] at hlists
    rw [Nat.repr_inj.1 (String.toList_inj.1 hlists)]
  | repeatedRule name =>
    rw [message_repeatedRule] at hfront
    simp at hfront
  | missingName | unterminatedString | noRules => exact absurd hfront (by decide)

/-- A text that can be a field of a line: it holds neither a colon nor a line break. -/
def IsField (text : List Char) : Prop := ':' ∉ text ∧ IsLine text

theorem all_eq_true_iff_isField (text : List Char) :
    (text.all fun c => c != ':' && !isLineBreak c) = true ↔ IsField text := by
  simp only [List.all_eq_true, Bool.and_eq_true, bne_iff_ne, Bool.not_eq_true',
    isLineBreak_eq_false_iff, forall_and, IsField, IsLine]
  exact and_congr_left fun _ => ⟨fun h hc => h _ hc rfl, fun h c hc he => h (he ▸ hc)⟩

instance (text : List Char) : Decidable (IsField text) :=
  decidable_of_iff _ (all_eq_true_iff_isField text)

section fields
variable {a b : List Char}

theorem isLine_append (ha : IsLine a) (hb : IsLine b) : IsLine (a ++ b) :=
  List.forall_mem_append.2 ⟨ha, hb⟩

theorem IsField.append (ha : IsField a) (hb : IsField b) : IsField (a ++ b) := by
  refine ⟨?_, isLine_append ha.2 hb.2⟩
  rw [List.mem_append, not_or]
  exact ⟨ha.1, hb.1⟩

theorem isField_of_forall {p : Char → Prop} (hp : ∀ c, p c → c ≠ ':' ∧ c ≠ '\r' ∧ c ≠ '\n')
    (h : ∀ c ∈ a, p c) : IsField a :=
  ⟨fun hc => (hp _ (h _ hc)).1 rfl, fun c hc => (hp c (h c hc)).2⟩

theorem isField_toString (n : Nat) : IsField (toString n).toList := by
  apply isField_of_forall (p := fun c => c.isDigit = true)
  · rintro c hc
    refine ⟨?_, ?_, ?_⟩ <;> rintro rfl <;> cases hc
  · intro c hc
    rw [Nat.toString_eq_repr, Nat.repr_eq_ofList_toDigits, String.toList_ofList] at hc
    exact Nat.isDigit_of_mem_toDigits (by decide) (by decide) hc

theorem IsName.isField {name : String} (h : IsName name) : IsField name.toList := by
  obtain ⟨c, rest, hname, hc, hrest⟩ := h
  rw [hname]
  apply isField_of_forall (p := fun d => isNamePart d = true)
  · rintro d hd
    refine ⟨?_, ?_, ?_⟩ <;> rintro rfl <;> cases hd
  · have hpart : ∀ d ∈ c :: rest, IsNamePart d := List.forall_mem_cons.2 ⟨.inl hc, hrest⟩
    exact fun d hd => isNamePart_iff.2 (hpart d hd)

theorem isField_message {p : Problem} (h : ∀ name, p = .repeatedRule name → IsField name.toList) :
    IsField p.message.toList := by
  cases p with
  | strayClosings n =>
    rw [message_strayClosings]
    split_ifs
    · decide
    · rw [String.toList_append]
      exact (isField_toString n).append (by decide)
  | unclosedGroups n =>
    have hfront : IsField "unbalanced grouping, ".toList := by decide
    rw [message_unclosedGroups, String.toList_append, String.toList_append]
    exact (hfront.append (isField_toString n)).append (by decide)
  | repeatedRule name =>
    have hfront : IsField "rule `".toList := by decide
    rw [message_repeatedRule, String.toList_append, String.toList_append]
    exact (hfront.append (h name rfl)).append (by decide)
  | missingName | unterminatedString | noRules => decide

end fields

/-- A report of a problem. If this is about a rule, an identifier among the tokens names it. -/
def Diagnostic.IsAbout (tokens : List Token) (d : Diagnostic) : Prop :=
  ∃ p : Problem, d.Reports p ∧
    ∀ name, p = .repeatedRule name → ∃ t ∈ tokens, t.kind = .identifier ∧ t.text = name

/-- A state of the check that knows only what these tokens say. -/
structure Progress.IsAbout (tokens : List Token) (p : Progress) : Prop where
  diagnostics : ∀ d ∈ p.diagnostics.toList, d.IsAbout tokens
  previous : ∀ t ∈ p.previous, t ∈ tokens

section about
variable {tokens : List Token} {p : Progress} {t : Token} {d : Diagnostic}

theorem isAbout_diagnostic (tokens : List Token) {problem : Problem} (s : Span) (l : Location)
    (h : ∀ name, problem ≠ .repeatedRule name) : (problem.diagnostic s l).IsAbout tokens :=
  ⟨problem, ⟨rfl, rfl⟩, fun name hp => absurd hp (h name)⟩

theorem isAbout_of_mem_pendingReport (h : d ∈ p.pendingReport) : d.IsAbout tokens := by
  obtain ⟨run, -, rfl⟩ := Progress.mem_pendingReport h
  exact isAbout_diagnostic tokens _ _ nofun

theorem isAbout_of_mem_closing (h : d ∈ p.closing) : d.IsAbout tokens := by
  rcases Progress.mem_closing h with ⟨g, -, rfl⟩ | rfl <;>
    exact isAbout_diagnostic tokens _ _ nofun

namespace Progress.IsAbout

theorem ownReport (h : p.IsAbout tokens) (hd : d ∈ p.ownReport t) : d.IsAbout tokens := by
  rcases mem_ownReport hd with rfl | rfl | ⟨name, hname, hk, rfl⟩
  · exact isAbout_diagnostic tokens _ _ nofun
  · exact isAbout_diagnostic tokens _ _ nofun
  · refine ⟨.repeatedRule name.text, ⟨rfl, rfl⟩, ?_⟩
    rintro _ ⟨⟩
    exact ⟨name, h.previous name hname, hk, rfl⟩

theorem visit (h : p.IsAbout tokens) (ht : t ∈ tokens) : (p.visit t).IsAbout tokens := by
  constructor
  · intro d hd
    rcases mem_visit_diagnostics hd with hd | hd | hd
    · exact h.diagnostics d hd
    · exact isAbout_of_mem_pendingReport hd
    · exact h.ownReport hd
  · rw [visit_previous]
    split_ifs
    · exact h.previous
    · rintro _ ⟨⟩
      exact ht

theorem foldl_visit {rest : List Token} (h : p.IsAbout tokens) (hrest : ∀ t ∈ rest, t ∈ tokens) :
    (rest.foldl Progress.visit p).IsAbout tokens := by
  induction rest generalizing p with
  | nil => exact h
  | cons t rest ih =>
    obtain ⟨ht, hrest⟩ := List.forall_mem_cons.1 hrest
    exact ih (h.visit ht) hrest

end Progress.IsAbout

/-- A check reports problems, and names no rule but by an identifier that it was given. -/
theorem isAbout_of_mem_validate (h : d ∈ (validate tokens).diagnostics) : d.IsAbout tokens := by
  have hinitial : Progress.initial.IsAbout tokens := ⟨nofun, nofun⟩
  have hend := hinitial.foldl_visit fun _ ht => ht
  rcases Progress.mem_finish_diagnostics h with h | h | h
  · exact hend.diagnostics d h
  · exact isAbout_of_mem_pendingReport h
  · exact isAbout_of_mem_closing h

/-- Tokens that were read, each from some source under rules of some kind. -/
def AreRead (tokens : List Token) : Prop :=
  ∀ t ∈ tokens, ∃ rules source, t ∈ tokenize rules source

theorem isField_of_mem_validate (hread : AreRead tokens)
    (h : d ∈ (validate tokens).diagnostics) : IsField d.message.toList := by
  obtain ⟨p, ⟨-, hmessage⟩, hname⟩ := isAbout_of_mem_validate h
  rw [hmessage]
  apply isField_message
  intro name hp
  obtain ⟨t, ht, hk, rfl⟩ := hname name hp
  obtain ⟨rules, source, hread⟩ := hread t ht
  exact (isName_of_mem_tokenize hread hk).isField

end about

end PegKit
