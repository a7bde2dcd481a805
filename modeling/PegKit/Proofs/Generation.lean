import PegKit.Proofs.Names
import PegKit.Session

/-! What a session generates. There are three outcomes. A document with errors is refused with all
its diagnostics, before the target is looked at; then an unknown target is refused; and in all other
cases there is a scaffold. A valid grammar defines a rule, so the entry rule is one of its own, and
neither the name for a grammar without rules nor the refusal of an unchecked grammar is ever seen.
-/

namespace PegKit

theorem isValid_iff_forall_severity {r : Report} :
    r.isValid = true ↔ ∀ d ∈ r.diagnostics, d.severity ≠ .error := by
  simp [Report.isValid, Diagnostic.isError]

theorem Target.find_eq_ok_iff {name : String} {t : Target} :
    Target.find name = .ok t ↔ t.id = name := by
  unfold Target.find
  constructor
  · intro h
    split at h
    · rename_i u hu
      cases h
      simpa using List.find?_some hu
    · cases h
  · rintro rfl
    rw [Target.ofId?_id]

theorem Target.find_of_forall_ne {name : String} (h : ∀ t : Target, t.id ≠ name) :
    Target.find name = .error (.unknownTarget name) := by
  cases hf : Target.find name with
  | ok t => exact absurd (Target.find_eq_ok_iff.1 hf) (h t)
  | error e =>
    unfold Target.find at hf
    split at hf
    · cases hf
    · cases hf
      rfl

section entry
variable {r : Report} {chosen : Option String}

theorem entryRule_of_mem {rule : String} (hc : chosen = some rule) (hr : rule ∈ r.ruleNames) :
    entryRule r chosen = rule := by
  have hd : r.defines rule = true := List.contains_iff_mem.2 hr
  simp [entryRule, hc, Option.filter, hd]

theorem entryRule_of_forall_not_mem (h : ∀ rule ∈ chosen, rule ∉ r.ruleNames) :
    entryRule r chosen = r.ruleNames.head?.getD fallbackEntry := by
  have hf : chosen.filter r.defines = none := by
    rw [Option.filter_eq_none_iff]
    intro rule hc hd
    exact h rule hc (List.contains_iff_mem.1 hd)
  rw [entryRule, hf]

/-- Where there are rules, the entry is the chosen one of them or the first. -/
theorem entryRule_cases (chosen : Option String) (h : r.ruleNames ≠ []) :
    entryRule r chosen ∈ r.ruleNames ∧
    (∀ rule ∈ chosen, rule ∈ r.ruleNames → entryRule r chosen = rule) ∧
    ((∀ rule ∈ chosen, rule ∉ r.ruleNames) → r.ruleNames.head? = some (entryRule r chosen)) := by
  obtain ⟨first, rest, hfirst⟩ := List.exists_cons_of_ne_nil h
  have hother : (∀ rule ∈ chosen, rule ∉ r.ruleNames) → entryRule r chosen = first := by
    intro hn
    rw [entryRule_of_forall_not_mem hn, hfirst]
    rfl
  refine ⟨?_, fun rule hc hr => entryRule_of_mem hc hr, fun hn => ?_⟩
  · by_cases hn : ∀ rule ∈ chosen, rule ∉ r.ruleNames
    · rw [hother hn, hfirst]
      exact List.mem_cons_self
    · push Not at hn
      obtain ⟨rule, hc, hr⟩ := hn
      rw [entryRule_of_mem hc hr]
      exact hr
  · rw [hother hn, hfirst]
    rfl

end entry

theorem scaffold_generate_of_isValid {d : Document} {r : Report} {id : String} {t : Target}
    (chosen : Option String) (hr : r.isValid = true) (ht : t.id = id) :
    Scaffold.generate d r id chosen =
      .ok ⟨t, entryRule r chosen, t.render ⟨d.source, d.file, entryRule r chosen⟩⟩ := by
  rw [Scaffold.generate, if_pos hr, Target.find_eq_ok_iff.2 ht]
  rfl

theorem scaffold_generate_of_unknown {d : Document} {r : Report} {id : String}
    (chosen : Option String) (hr : r.isValid = true) (ht : ∀ t : Target, t.id ≠ id) :
    Scaffold.generate d r id chosen = .error (.unknownTarget id) := by
  rw [Scaffold.generate, if_pos hr, Target.find_of_forall_ne ht]
  rfl

namespace Session
variable {s : Session} {d : Document}

theorem generate_of_not_isValid (target chosen : Option String)
    (h : (s.validate d).isValid = false) :
    s.generate d target chosen = .error (.invalidGrammar d.file (s.validate d).diagnostics) := by
  simp [generate, h]

theorem generate_of_scaffold {target chosen : Option String} {x : Scaffold}
    (h : (s.validate d).isValid = true)
    (hx : Scaffold.generate d (s.validate d) (target.getD s.config.defaultTarget) chosen = .ok x) :
    s.generate d target chosen = .ok x := by
  simp [generate, h, hx, Except.mapError]

theorem generate_of_scaffoldError {target chosen : Option String} {e : ScaffoldError}
    (h : (s.validate d).isValid = true)
    (he : Scaffold.generate d (s.validate d) (target.getD s.config.defaultTarget) chosen =
      .error e) : s.generate d target chosen = .error (.scaffold e) := by
  simp [generate, h, he, Except.mapError]

theorem isValid_of_generate {target chosen : Option String} {x : Scaffold}
    (h : s.generate d target chosen = .ok x) : (s.validate d).isValid = true := by
  by_contra hr
  rw [generate_of_not_isValid target chosen (Bool.eq_false_iff.2 hr)] at h
  cases h

theorem target_id_of_generate {target chosen : Option String} {x : Scaffold}
    (h : s.generate d target chosen = .ok x) :
    x.target.id = target.getD s.config.defaultTarget := by
  have hvalid := isValid_of_generate h
  by_cases ht : ∃ t : Target, t.id = target.getD s.config.defaultTarget
  · obtain ⟨t, ht⟩ := ht
    have hx := generate_of_scaffold hvalid (scaffold_generate_of_isValid chosen hvalid ht)
    obtain rfl := Except.ok.inj (h.symm.trans hx)
    exact ht
  · have hscaffold := scaffold_generate_of_unknown (d := d) chosen hvalid fun t hid => ht ⟨t, hid⟩
    rw [generate_of_scaffoldError hvalid hscaffold] at h
    cases h

end Session

/-- The outcomes of generating: the refusal of a grammar with errors, then that of an unknown
target, then a scaffold, whose entry rule is defined by the grammar and has the form of a name. -/
theorem generate_outcomes (s : Session) (d : Document) (target chosen : Option String) :
    let r := s.validate d
    let id := target.getD s.config.defaultTarget
    ((∃ x ∈ r.diagnostics, x.severity = .error) ∧
        s.generate d target chosen = .error (.invalidGrammar d.file r.diagnostics) ∨
      (∀ x ∈ r.diagnostics, x.severity ≠ .error) ∧ (∀ t : Target, t.id ≠ id) ∧
        s.generate d target chosen = .error (.scaffold (.unknownTarget id)) ∨
      (∀ x ∈ r.diagnostics, x.severity ≠ .error) ∧ ∃ t : Target, t.id = id ∧ ∃ x,
        s.generate d target chosen = .ok x ∧ Scaffold.generate d r id chosen = .ok x ∧
        x.target = t ∧ x.entry ∈ r.ruleNames ∧ IsName x.entry ∧
        (∀ rule ∈ chosen, rule ∈ r.ruleNames → x.entry = rule) ∧
        ((∀ rule ∈ chosen, rule ∉ r.ruleNames) → r.ruleNames.head? = some x.entry)) ∧
    ∀ n, s.generate d target chosen ≠ .error (.scaffold (.invalidGrammar n)) := by
  intro r id
  by_cases hr : r.isValid = true
  · have hvalid := isValid_iff_forall_severity.1 hr
    by_cases ht : ∃ t : Target, t.id = id
    · obtain ⟨t, ht⟩ := ht
      have hscaffold := scaffold_generate_of_isValid (d := d) chosen hr ht
      have hsession := Session.generate_of_scaffold hr hscaffold
      obtain ⟨hmem, hchosen, hfirst⟩ :=
        entryRule_cases chosen (ruleNames_ne_nil_of_isValid hr)
      refine ⟨.inr (.inr ⟨hvalid, t, ht, _, hsession, hscaffold, rfl, hmem, ?_, hchosen, hfirst⟩),
        fun n hn => ?_⟩
      · exact isName_of_mem_ruleNames hmem
      · rw [hsession] at hn
        cases hn
    · have ht : ∀ t : Target, t.id ≠ id := fun t h => ht ⟨t, h⟩
      have hsession :=
        Session.generate_of_scaffoldError hr (scaffold_generate_of_unknown chosen hr ht)
      refine ⟨.inr (.inl ⟨hvalid, ht, hsession⟩), fun n hn => ?_⟩
      rw [hsession] at hn
      cases hn
  · have hsession := Session.generate_of_not_isValid target chosen (Bool.eq_false_iff.2 hr)
    rw [isValid_iff_forall_severity] at hr
    push Not at hr
    refine ⟨.inl ⟨hr, hsession⟩, fun n hn => ?_⟩
    rw [hsession] at hn
    cases hn

end PegKit
