import PegKit.Proofs.Generation
import PegKit.Proofs.TreeRuns
import PegKit.Proofs.WrittenFiles

/-! The command that generates a scaffold, on any file tree. It can end in six ways, and what can be
seen of it from outside tells them apart: the status, standard output, and the one file that it may
write. -/

namespace PegKit.CommandLine

structure Loads (t : FileTree) (config : Option String) (file : String) (c : Config)
    (d : Document) : Prop where
  config : t.config config = .ok c
  document : t.document file = .ok d

theorem Loads.unique {t : FileTree} {config : Option String} {file : String} {c c' : Config}
    {d d' : Document} (h : Loads t config file c d) (h' : Loads t config file c' d') :
    c = c' ∧ d = d' := by
  have hc := h.config.symm.trans h'.config
  have hd := h.document.symm.trans h'.document
  exact ⟨Except.ok.inj hc, Except.ok.inj hd⟩

/-- The path that an output leads to: the output itself or, if that is a directory, the file in it
that has the stem of the grammar and the extension of the target. -/
def LeadsTo (t : FileTree) (output file : String) (u : Target) (path : String) : Prop :=
  (t.isDirectory output = false → path = output) ∧
  (t.isDirectory output = true →
    path = Path.join output
      (String.ofList ((Path.stem? file).getD "scaffold".toList) ++ "." ++ u.fileExtension))

theorem leadsTo_iff {t : FileTree} {output file path : String} {u : Target} :
    LeadsTo t output file u path ↔ path = scaffoldPath output file (t.isDirectory output) u := by
  cases hdirectory : t.isDirectory output <;> simp [LeadsTo, scaffoldPath, hdirectory]

/-- Why the command fails: something does not load, or the grammar is valid but its target unknown
or its scaffold not to be written where it should be. -/
def GenerateFails (t : FileTree) (config : Option String) (file : String)
    (target entry output : Option String) : Prop :=
  (∀ c d, ¬ Loads t config file c d) ∨
    ∃ c d, Loads t config file c d ∧ ((Session.new c).validate d).isValid = true ∧
      ((∀ u : Target, u.id ≠ target.getD c.defaultTarget) ∨
        ∃ x path written cause, (Session.new c).generate d target entry = .ok x ∧
          output = some path ∧ LeadsTo t path file x.target written ∧
          t.write written x.text = .error cause)

/-- The ways in which the command can end: its outcome, and the tree that it leaves. -/
inductive GenerateEnd (t : FileTree) (config : Option String) (file : String)
    (target entry output : Option String) : Outcome → FileTree → Prop
  | unloaded (e : ToolError) (log : List Log.Event) (h : ∀ c d, ¬ Loads t config file c d) :
      GenerateEnd t config file target entry output (failWith e log) t
  | invalid (c : Config) (d : Document) (log : List Log.Event) (h : Loads t config file c d)
      (hd : ((Session.new c).validate d).isValid = false) :
      GenerateEnd t config file target entry output
        (.refused (textLines (((Session.new c).validate d).diagnostics.map Diagnostic.summary)) log)
        t
  | unknownTarget (c : Config) (d : Document) (e : ToolError) (log : List Log.Event)
      (h : Loads t config file c d) (hd : ((Session.new c).validate d).isValid = true)
      (ht : ∀ u : Target, u.id ≠ target.getD c.defaultTarget) :
      GenerateEnd t config file target entry output (failWith e log) t
  | printed (c : Config) (d : Document) (x : Scaffold) (log : List Log.Event)
      (h : Loads t config file c d) (hx : (Session.new c).generate d target entry = .ok x)
      (ho : output = none) :
      GenerateEnd t config file target entry output (.ok x.text log) t
  | unwritten (c : Config) (d : Document) (x : Scaffold) (path : String) (cause : FileError)
      (text : String) (log : List Log.Event) (h : Loads t config file c d)
      (hx : (Session.new c).generate d target entry = .ok x) (ho : output = some path)
      (hw : t.write (scaffoldPath path file (t.isDirectory path) x.target) x.text = .error cause) :
      GenerateEnd t config file target entry output (.failed text log) t
  | written (c : Config) (d : Document) (x : Scaffold) (path : String) (t' : FileTree)
      (log : List Log.Event) (h : Loads t config file c d)
      (hx : (Session.new c).generate d target entry = .ok x) (ho : output = some path)
      (hw : t.write (scaffoldPath path file (t.isDirectory path) x.target) x.text = .ok t') :
      GenerateEnd t config file target entry output (.ok "" log) t'

section ends
variable {t t' : FileTree} {config : Option String} {file : String}
  {target entry output : Option String} {o : Outcome}

theorem GenerateEnd.filtered (f : Log.Filter)
    (h : GenerateEnd t config file target entry output o t') :
    GenerateEnd t config file target entry output (o.filtered f) t' := by
  cases h with
  | unloaded e log h => exact .unloaded e _ h
  | invalid c d log h hd => exact .invalid c d _ h hd
  | unknownTarget c d e log h hd ht => exact .unknownTarget c d e _ h hd ht
  | printed c d x log h hx ho => exact .printed c d x _ h hx ho
  | unwritten c d x path cause text log h hx ho hw =>
    exact .unwritten c d x path cause text _ h hx ho hw
  | written c d x path t' log h hx ho hw => exact .written c d x path _ _ h hx ho hw

theorem generateEnd_of_scaffold {c : Config} {d : Document} {x : Scaffold}
    (h : Loads t config file c d) (hx : (Session.new c).generate d target entry = .ok x) :
    GenerateEnd t config file target entry output
      (t.run (generate (Session.new c) file target entry output)).1
      (t.run (generate (Session.new c) file target entry output)).2 := by
  cases output with
  | none =>
    have hrun : ∃ log, t.run (generate (Session.new c) file target entry none) =
        (.ok x.text log, t) := by
      simp only [generate, FileTree.run_bind, FileTree.run_load, h.document, hx]
      exact ⟨_, rfl⟩
    obtain ⟨log, hrun⟩ := hrun
    rw [hrun]
    exact .printed c d x log h hx rfl
  | some path =>
    have hrun : ∃ log, t.run (generate (Session.new c) file target entry (some path)) =
        t.run (writeScaffold path file x log) := by
      simp only [generate, FileTree.run_bind, FileTree.run_load, h.document, hx]
      exact ⟨_, rfl⟩
    obtain ⟨log, hrun⟩ := hrun
    rw [hrun]
    simp only [writeScaffold, FileTree.run_bind, FileTree.run_isDirectory, FileTree.run_write]
    cases hw : t.write (scaffoldPath path file (t.isDirectory path) x.target) x.text with
    | ok t' => exact .written c d x path t' _ h hx rfl hw
    | error cause => exact .unwritten c d x path cause _ _ h hx rfl hw

theorem generateEnd_of_loads {c : Config} {d : Document} (h : Loads t config file c d) :
    GenerateEnd t config file target entry output
      (t.run (generate (Session.new c) file target entry output)).1
      (t.run (generate (Session.new c) file target entry output)).2 := by
  cases hd : ((Session.new c).validate d).isValid with
  | false =>
    have hs := Session.generate_of_not_isValid target entry hd
    simp only [generate, FileTree.run_bind, FileTree.run_load, h.document, hs, FileTree.run_pure]
    exact .invalid c d _ h hd
  | true =>
    by_cases ht : ∃ u : Target, u.id = target.getD c.defaultTarget
    · obtain ⟨u, hu⟩ := ht
      have hx := Session.generate_of_scaffold hd (scaffold_generate_of_isValid entry hd hu)
      exact generateEnd_of_scaffold h hx
    · have ht : ∀ u : Target, u.id ≠ target.getD c.defaultTarget := fun u hu => ht ⟨u, hu⟩
      have hs := Session.generate_of_scaffoldError hd (scaffold_generate_of_unknown entry hd ht)
      simp only [generate, FileTree.run_bind, FileTree.run_load, h.document, hs, FileTree.run_pure]
      exact .unknownTarget c d _ _ h hd ht

theorem generateEnd_of_request {env : Environment} {args : List String} {verbosity : Nat}
    (t : FileTree)
    (h : request env.configFile args =
      .run ⟨config, verbosity, .generate file target entry output⟩) :
    env.BreaksOff ∧ t.run (run env args) = (.brokenOff, t) ∨
      GenerateEnd t config file target entry output (t.run (run env args)).1
        (t.run (run env args)).2 := by
  rcases run_cases t h with hbroken | ⟨-, f, ⟨e, hc, hrun⟩ | ⟨c, hc, hrun⟩⟩
  · exact .inl hbroken
  · rw [hrun]
    refine .inr (.unloaded e _ fun c d hload => ?_)
    have := hload.config
    rw [hc] at this
    cases this
  · rw [hrun]
    right
    apply GenerateEnd.filtered
    change GenerateEnd t config file target entry output
      (t.run (generate (Session.new c) file target entry output)).1
      (t.run (generate (Session.new c) file target entry output)).2
    cases hd : t.document file with
    | ok d => exact generateEnd_of_loads ⟨hc, hd⟩
    | error e =>
      simp only [generate, FileTree.run_bind, FileTree.run_load, hd, FileTree.run_pure]
      refine .unloaded e _ fun c d hload => ?_
      have := hload.document
      rw [hd] at this
      cases this

theorem not_generateFails {c : Config} {d : Document} {x : Scaffold}
    (h : Loads t config file c d) (hx : (Session.new c).generate d target entry = .ok x)
    (hw : ∀ path, output = some path → ∀ cause,
      t.write (scaffoldPath path file (t.isDirectory path) x.target) x.text ≠ .error cause) :
    ¬ GenerateFails t config file target entry output := by
  rintro (hn | ⟨c', d', h', -, ht | ⟨x', path, written, cause, hx', hpath, hleads, hcause⟩⟩)
  · exact hn c d h
  · obtain ⟨rfl, rfl⟩ := h.unique h'
    exact ht x.target (Session.target_id_of_generate hx)
  · obtain ⟨rfl, rfl⟩ := h.unique h'
    obtain rfl := Except.ok.inj (hx.symm.trans hx')
    obtain rfl := leadsTo_iff.1 hleads
    exact hw path hpath cause hcause

namespace GenerateEnd
variable (h : GenerateEnd t config file target entry output o t')
include h

theorem status_cases : o.status = 0 ∨ o.status = 1 ∨ o.status = 2 := by
  cases h with
  | printed | written => exact .inl rfl
  | invalid => exact .inr (.inl rfl)
  | unloaded | unknownTarget | unwritten => exact .inr (.inr rfl)

theorem status_eq_two_iff : o.status = 2 ↔ GenerateFails t config file target entry output := by
  cases h with
  | unloaded e log h => exact iff_of_true rfl (.inl h)
  | unknownTarget c d e log h hd ht => exact iff_of_true rfl (.inr ⟨c, d, h, hd, .inl ht⟩)
  | unwritten c d x path cause text log h hx ho hw =>
    have hd := Session.isValid_of_generate hx
    exact iff_of_true rfl
      (.inr ⟨c, d, h, hd, .inr ⟨x, path, _, cause, hx, ho, leadsTo_iff.2 rfl, hw⟩⟩)
  | invalid c d log h hd =>
    refine iff_of_false nofun ?_
    rintro (hn | ⟨c', d', h', hd', -⟩)
    · exact hn c d h
    · obtain ⟨rfl, rfl⟩ := h.unique h'
      rw [hd] at hd'
      cases hd'
  | printed c d x log h hx ho =>
    refine iff_of_false nofun (not_generateFails h hx fun path hpath => ?_)
    rw [ho] at hpath
    cases hpath
  | written c d x path t' log h hx ho hw =>
    refine iff_of_false nofun (not_generateFails h hx fun path' hpath cause => ?_)
    obtain rfl := Option.some.inj (ho.symm.trans hpath)
    rw [hw]
    nofun

theorem scaffold_of_ok (ho : o.status = 0) :
    ∃ c d x, Loads t config file c d ∧ (Session.new c).generate d target entry = .ok x ∧
      (output = none → o.output = x.text ∧ t' = t) ∧
      ∀ path, output = some path → o.output = "" ∧
        t.write (scaffoldPath path file (t.isDirectory path) x.target) x.text = .ok t' := by
  cases h with
  | printed c d x log h hx hnone =>
    refine ⟨c, d, x, h, hx, fun _ => ⟨rfl, rfl⟩, fun path hpath => ?_⟩
    rw [hnone] at hpath
    cases hpath
  | written c d x path t' log h hx hpath hw =>
    refine ⟨c, d, x, h, hx, fun hnone => ?_, fun path' hpath' => ⟨rfl, ?_⟩⟩
    · rw [hnone] at hpath
      cases hpath
    · obtain rfl := Option.some.inj (hpath.symm.trans hpath')
      exact hw
  | _ => cases ho

end GenerateEnd

end ends

end PegKit.CommandLine
