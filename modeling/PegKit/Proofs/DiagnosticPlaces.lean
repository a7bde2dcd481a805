import PegKit.Proofs.Coverage
import PegKit.Proofs.Reach

/-! Where the diagnostics of a source stand. The check holds on to places of tokens only: where a
token starts, and where one ends. A run of stray closing parentheses grows to the right, for the
check never goes back, so it starts where its first token does. What is reported at last covers
all from such a place on. -/

namespace PegKit

/-- A place of `source`: where some part at its front ends. -/
def Location.IsIn (source : List Char) (l : Location) : Prop :=
  ∃ before, before <+: source ∧ l = .behind before

structure Span.StartsAt (source : List Char) (s : Span) (l : Location) : Prop where
  place : l.IsIn source
  start : s.start = l.offset
  stop : ∃ m : Location, m.IsIn source ∧ s.stop = m.offset

/-- A diagnostic whose line and column are those at which its span starts. -/
def Diagnostic.IsIn (source : List Char) (d : Diagnostic) : Prop :=
  ∃ l : Location, d.span.StartsAt source l ∧ d.line = l.line ∧ d.column = l.column

/-- A state of the check that holds places of `source` only. -/
structure Progress.IsIn (source : List Char) (p : Progress) : Prop where
  diagnostics : ∀ d ∈ p.diagnostics.toList, d.IsIn source
  groups : ∀ g ∈ p.groups, g.outermost.IsIn source
  stray : ∀ run ∈ p.stray, run.span.StartsAt source run.location ∧ run.span.stop ≤ p.reach
  previous : ∀ t ∈ p.previous, t.span.StartsAt source t.location
  reach : ∃ m : Location, m.IsIn source ∧ p.reach = m.offset

variable {source : List Char} {p : Progress} {t : Token}

theorem Location.isIn_start (source : List Char) : start.IsIn source :=
  ⟨[], List.nil_prefix, rfl⟩

theorem diagnostic_isIn (problem : Problem) {s : Span} {l : Location}
    (h : s.StartsAt source l) : (problem.diagnostic s l).IsIn source :=
  ⟨l, h, rfl, rfl⟩

namespace Progress.IsIn

theorem pendingReport (h : p.IsIn source) : ∀ d ∈ p.pendingReport, d.IsIn source := by
  intro d hd
  obtain ⟨run, hrun, rfl⟩ := mem_pendingReport hd
  exact diagnostic_isIn _ (h.stray run hrun).1

theorem ownReport (h : p.IsIn source) (ht : t.span.StartsAt source t.location) :
    ∀ d ∈ p.ownReport t, d.IsIn source := by
  intro d hd
  rcases mem_ownReport hd with rfl | rfl | ⟨name, hname, -, rfl⟩
  · exact diagnostic_isIn _ ht
  · exact diagnostic_isIn _ ht
  · exact diagnostic_isIn _ (h.previous name hname)

theorem nextGroups {groups : Option OpenGroups} (h : ∀ g ∈ groups, g.outermost.IsIn source)
    (ht : t.location.IsIn source) : ∀ g ∈ nextGroups groups t, g.outermost.IsIn source := by
  intro g hg
  unfold Progress.nextGroups at hg
  split at hg
  · cases hg
    exact ht
  · rename_i g' _
    cases hg
    exact h g' rfl
  · rename_i l n _
    cases hg
    exact h ⟨l, n + 1⟩ rfl
  · cases hg
  · exact h g hg

theorem extendStray (h : p.IsIn source) (ht : t.span.StartsAt source t.location)
    (hle : p.reach ≤ t.location.offset) :
    ∀ run ∈ (p.extendStray t).stray, run.span.StartsAt source run.location ∧
      run.span.stop = t.span.stop := by
  intro run hrun
  cases hp : p.stray with
  | none =>
    simp only [Progress.extendStray, hp, Option.mem_some_iff] at hrun
    subst hrun
    exact ⟨ht, rfl⟩
  | some before =>
    simp only [Progress.extendStray, hp, Option.mem_some_iff] at hrun
    subst hrun
    obtain ⟨hbefore, hreach⟩ := h.stray before hp
    have horder : before.span.stop ≤ t.span.start := hreach.trans hle
    have hstop : (before.span.join t.span).stop = t.span.stop :=
      Nat.max_eq_right (horder.trans t.span.ordered)
    have hstart : (before.span.join t.span).start = before.span.start :=
      Nat.min_eq_left (before.span.ordered.trans horder)
    exact ⟨⟨hbefore.place, hstart.trans hbefore.start, hstop ▸ ht.stop⟩, hstop⟩

theorem visit (h : p.IsIn source) (ht : t.span.StartsAt source t.location)
    (hle : p.reach ≤ t.location.offset) : (p.visit t).IsIn source := by
  have hmax : max p.reach t.span.stop = t.span.stop := Nat.max_eq_right (hle.trans t.span.ordered)
  rcases p.trivia_or_strays t with hv | hs | ⟨hv, hs⟩
  · rw [visit_trivia hv, hmax]
    refine ⟨h.diagnostics, h.groups, fun run hrun => ?_, h.previous, ht.stop⟩
    obtain ⟨hstart, hstop⟩ := h.stray run hrun
    exact ⟨hstart, hstop.trans (hle.trans t.span.ordered)⟩
  · rw [visit_stray hs, hmax]
    refine ⟨h.diagnostics, h.groups, fun run hrun => ?_, fun u hu => ?_, ht.stop⟩
    · obtain ⟨hstart, hstop⟩ := h.extendStray ht hle run hrun
      exact ⟨hstart, hstop.le⟩
    · cases hu
      exact ht
  · rw [visit_other hv hs, hmax]
    refine ⟨fun d hd => ?_, nextGroups h.groups ht.place, fun run hrun => ?_, fun u hu => ?_,
      ht.stop⟩
    · simp only [Array.toList_append, List.mem_append] at hd
      rcases hd with hd | hd | hd
      · exact h.diagnostics d hd
      · exact h.pendingReport d hd
      · exact h.ownReport ht d hd
    · cases hrun
    · cases hu
      exact ht

theorem between_reach (h : p.IsIn source) {l : Location} (hl : l.IsIn source) :
    (Span.between l.offset p.reach).StartsAt source l := by
  refine ⟨hl, rfl, ?_⟩
  rcases Nat.le_total l.offset p.reach with hle | hle
  · obtain ⟨m, hm, hr⟩ := h.reach
    exact ⟨m, hm, (Nat.max_eq_right hle).trans hr⟩
  · exact ⟨l, hl, Nat.max_eq_left hle⟩

theorem closing (h : p.IsIn source) : ∀ d ∈ p.closing, d.IsIn source := by
  intro d hd
  rcases mem_closing hd with ⟨g, hg, rfl⟩ | rfl
  · exact diagnostic_isIn _ (h.between_reach (h.groups g hg))
  · exact diagnostic_isIn _ (h.between_reach (Location.isIn_start source))

theorem finish (h : p.IsIn source) : ∀ d ∈ p.finish.diagnostics, d.IsIn source := by
  intro d hd
  rcases mem_finish_diagnostics hd with hd | hd | hd
  · exact h.diagnostics d hd
  · exact h.pendingReport d hd
  · exact h.closing d hd

theorem foldl_visit_placed {before : List Char} {xs : List Lexeme}
    (hsource : source = before ++ Lexeme.joined xs) (h : p.IsIn source)
    (hreach : p.reach = (Location.behind before).offset) :
    ((placed (.behind before) xs).foldl Progress.visit p).IsIn source := by
  -- on the lexemes: the check has always come as far as the text before them
  induction xs generalizing p before with
  | nil => exact h
  | cons x xs ih =>
    have hnext : (Location.behind before).advance x.text = .behind (before ++ x.text) := by
      rw [← Location.start_advance, ← Location.start_advance, Location.advance_append]
    have hsource' : source = before ++ x.text ++ Lexeme.joined xs := by
      rw [hsource, Lexeme.joined_cons, List.append_assoc]
    have ht : (x.located (.behind before)).span.StartsAt source
        (x.located (.behind before)).location := by
      refine ⟨⟨before, ?_, rfl⟩, rfl, .behind (before ++ x.text), ⟨_, ?_, rfl⟩, ?_⟩
      · rw [hsource]
        exact List.prefix_append _ _
      · rw [hsource']
        exact List.prefix_append _ _
      · rw [stop_located, hnext]
    have hvisit : (p.visit (x.located (.behind before))).reach =
        (Location.behind (before ++ x.text)).offset := by
      rw [visit_reach, stop_located, hreach, hnext, ← hnext]
      exact Nat.max_eq_right (offset_le_advance _ x.text)
    rw [placed, List.foldl_cons, hnext]
    exact ih hsource' (h.visit ht hreach.le) hvisit

end Progress.IsIn

theorem isIn_of_mem_validate {rules : LexicalRules} {source : String} {d : Diagnostic}
    (h : d ∈ (validate (tokenize rules source)).diagnostics) : d.IsIn source.toList := by
  have hinitial : Progress.initial.IsIn source.toList := by
    refine ⟨?_, ?_, ?_, ?_, .start, Location.isIn_start _, rfl⟩ <;> intro _ h <;> cases h
  have hsource : source.toList =
      [] ++ Lexeme.joined (lexemes rules source.toList ++ [.endOfInput]) := by
    rw [Lexeme.joined_append, joined_lexemes]
    simp [Lexeme.endOfInput]
  rw [tokenize_eq] at h
  exact (hinitial.foldl_visit_placed hsource rfl).finish d h

section
variable {source : String} {l : Location} (h : l.IsIn source.toList)
include h

theorem exists_append_of_isIn :
    ∃ before after, source = before ++ after ∧ l = .behind before.toList := by
  obtain ⟨before, ⟨after, he⟩, rfl⟩ := h
  refine ⟨String.ofList before, String.ofList after, ?_, by rw [String.toList_ofList]⟩
  rw [← String.ofList_append, he, String.ofList_toList]

theorem isValid_of_isIn : String.Pos.Raw.IsValid source ⟨l.offset⟩ := by
  obtain ⟨before, after, he, rfl⟩ := exists_append_of_isIn h
  rw [String.Pos.Raw.isValid_iff_exists_append]
  refine ⟨before, after, he, ?_⟩
  simp only [Location.behind, String.ofList_toList]
  rfl

theorem offset_le_of_isIn : l.offset ≤ source.utf8ByteSize := by
  obtain ⟨before, after, rfl, rfl⟩ := exists_append_of_isIn h
  rw [String.utf8ByteSize_append, Location.behind, String.ofList_toList]
  exact Nat.le_add_right _ _

end

/-- Each diagnostic of a source marks a part of it between two characters, and says the line and the
column at which that part starts. -/
theorem diagnostics_mark_source (rules : LexicalRules) (source : String) :
    ∀ d ∈ (validate (tokenize rules source)).diagnostics,
      d.span.start ≤ d.span.stop ∧ d.span.stop ≤ source.utf8ByteSize ∧
      String.Pos.Raw.IsValid source ⟨d.span.start⟩ ∧ String.Pos.Raw.IsValid source ⟨d.span.stop⟩ ∧
      ∃ before after, source = before ++ after ∧ d.span.start = before.utf8ByteSize ∧
        d.line = 1 + before.toList.count '\n' ∧
        d.column = 1 + (lastLine before.toList).length := by
  intro d hd
  obtain ⟨l, ⟨hl, hstart, m, hm, hstop⟩, hline, hcolumn⟩ := isIn_of_mem_validate hd
  obtain ⟨before, after, he, rfl⟩ := exists_append_of_isIn hl
  refine ⟨d.span.ordered, hstop ▸ offset_le_of_isIn hm, hstart ▸ isValid_of_isIn hl,
    hstop ▸ isValid_of_isIn hm, before, after, he, ?_, hline, hcolumn⟩
  rw [hstart, Location.behind, String.ofList_toList]

/-- Stray closing parentheses with trivia between them, behind a character of two bytes. -/
theorem diagnostics_mark_source_strays :
    ⟨.error, "2 unmatched closing parentheses", ⟨3, 8, by decide⟩, 2, 1⟩ ∈
      (validate (tokenize .standard "é\n)#\n )<-")).diagnostics ∧
    3 ≤ 8 ∧ 8 ≤ "é\n)#\n )<-".utf8ByteSize ∧
    String.Pos.Raw.IsValid "é\n)#\n )<-" ⟨3⟩ ∧ String.Pos.Raw.IsValid "é\n)#\n )<-" ⟨8⟩ ∧
    ∃ before after, "é\n)#\n )<-" = before ++ after ∧ 3 = before.utf8ByteSize ∧
      2 = 1 + before.toList.count '\n' ∧ 1 = 1 + (lastLine before.toList).length := by
  have hmem : ⟨.error, "2 unmatched closing parentheses", ⟨3, 8, by decide⟩, 2, 1⟩ ∈
      (validate (tokenize .standard "é\n)#\n )<-")).diagnostics := by
    decide +kernel
  exact ⟨hmem, diagnostics_mark_source _ _ _ hmem⟩

end PegKit
