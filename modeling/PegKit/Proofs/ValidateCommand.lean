import PegKit.Proofs.JsonReader
import PegKit.Proofs.ReportLines
import PegKit.Proofs.TreeRuns

/-! The command that checks grammars, on any file tree. All files are loaded before anything is said
of one of them, so the first that cannot be loaded is all that is reported. Otherwise each file is
checked on its own: what is reported of it depends on no other file, and whether all is well depends
neither on the order of the files nor on the format. -/

namespace PegKit.CommandLine

/-- What the output says of documents that were each checked alone. In text it has a line for each
diagnostic: severity, line, column and message with colons between, and if there are several
documents the name of the file in front. In structured form a reader finds one object for each
document, with its file and all that the check found. -/
def Reports (s : Session) (format : Format) (docs : List Document) (output : String) : Prop :=
  (format = .text → ∀ d, docs = [d] →
    output = String.join ((s.validate d).diagnostics.map fun x =>
      x.severity.label ++ ":" ++ toString x.line ++ ":" ++ toString x.column ++ ":" ++
        x.message ++ "\n")) ∧
  (format = .text → docs.length ≠ 1 →
    output = String.join (docs.flatMap fun d => (s.validate d).diagnostics.map fun x =>
      d.file ++ ":" ++ x.severity.label ++ ":" ++ toString x.line ++ ":" ++ toString x.column ++
        ":" ++ x.message ++ "\n")) ∧
  (format = .json →
    let reports : Json := .array (docs.map fun d => .object
      [("file", .text d.file),
        ("result", .object
          [("is_valid", .boolean (s.validate d).isValid),
            ("diagnostics", .array ((s.validate d).diagnostics.map fun x => .object
              [("severity", .text x.severity.label), ("message", .text x.message),
                ("span", .object [("start", .number x.span.start), ("end", .number x.span.stop)]),
                ("line", .number x.line), ("column", .number x.column)])),
            ("rule_names", .array ((s.validate d).ruleNames.map .text))])])
    output = reports.render 0 ++ "\n" ∧ Json.read? output = some reports)

theorem reports_reportText (s : Session) (format : Format) (docs : List Document) :
    Reports s format docs (reportText format (docs.map fun d => (d, s.validate d))) := by
  refine ⟨?_, ?_, ?_⟩
  · rintro rfl d rfl
    simp [reportText, textLines, Diagnostic.summary, Function.comp_def]
  · rintro rfl hlength
    have hseveral : (docs.map fun d => (d, s.validate d)).length ≠ 1 := by simpa using hlength
    rw [reportText_of_several hseveral]
    simp [textLines, Diagnostic.summary, List.flatMap_map, List.map_flatMap, Function.comp_def,
      String.append_assoc]
  · rintro rfl reports
    have htext : reportText .json (docs.map fun d => (d, s.validate d)) =
        reports.render 0 ++ "\n" := by
      rw [reportText, List.map_map]
      rfl
    exact ⟨htext, htext ▸ Json.read?_render reports⟩

/-- The ways in which the command can end. The tree is never changed. -/
inductive ValidateEnd (t : FileTree) (s : Session) (files : List String) (format : Format) :
    Outcome → Prop
  | unloaded (before : List String) (path : String) (after : List String) (e : ToolError)
      (log : List Log.Event) (hfiles : files = before ++ path :: after)
      (hbefore : ∀ p ∈ before, ∃ d, t.document p = .ok d) (he : t.document path = .error e) :
      ValidateEnd t s files format (failWith e log)
  | valid (docs : List Document) (log : List Log.Event)
      (hdocs : files.map t.document = docs.map .ok)
      (h : ∀ d ∈ docs, (s.validate d).isValid = true) :
      ValidateEnd t s files format
        (.ok (reportText format (docs.map fun d => (d, s.validate d))) log)
  | invalid (docs : List Document) (log : List Log.Event)
      (hdocs : files.map t.document = docs.map .ok)
      (h : ¬ ∀ d ∈ docs, (s.validate d).isValid = true) :
      ValidateEnd t s files format
        (.refused (reportText format (docs.map fun d => (d, s.validate d))) log)

section ends
variable {t : FileTree} {s : Session} {files : List String} {format : Format} {o : Outcome}

theorem ValidateEnd.filtered (f : Log.Filter) (h : ValidateEnd t s files format o) :
    ValidateEnd t s files format (o.filtered f) := by
  cases h with
  | unloaded before path after e log hfiles hbefore he =>
    exact .unloaded before path after e _ hfiles hbefore he
  | valid docs log hdocs h => exact .valid docs _ hdocs h
  | invalid docs log hdocs h => exact .invalid docs _ hdocs h

theorem validateEnd_of_documents {docs : List Document}
    (hdocs : files.map t.document = docs.map .ok) :
    ValidateEnd t s files format (checkDocuments s format docs) := by
  unfold checkDocuments
  simp only [List.all_eq_true, List.forall_mem_map]
  by_cases h : ∀ d ∈ docs, (s.validate d).isValid = true
  · rw [if_pos h]
    exact .valid docs _ hdocs h
  · rw [if_neg h]
    exact .invalid docs _ hdocs h

theorem run_validate (t : FileTree) (s : Session) (files : List String) (format : Format) :
    ValidateEnd t s files format (t.run (validate s files format)).1 ∧
      (t.run (validate s files format)).2 = t := by
  rcases FileTree.run_loadAll (t := t) files with
    ⟨docs, hdocs, hload⟩ | ⟨before, path, after, e, hfiles, hbefore, he, hload⟩
  · have hrun : t.run (validate s files format) = (checkDocuments s format docs, t) := by
      simp only [validate, FileTree.run_bind, hload, FileTree.run_pure]
    rw [hrun]
    exact ⟨validateEnd_of_documents hdocs, rfl⟩
  · have hrun : t.run (validate s files format) = (failWith e [], t) := by
      simp only [validate, FileTree.run_bind, hload, FileTree.run_pure]
    rw [hrun]
    exact ⟨.unloaded before path after e _ hfiles hbefore he, rfl⟩

theorem validateEnd_of_request {env : Environment} {args : List String} {config : Option String}
    {verbosity : Nat} {c : Config}
    (h : request env.configFile args = .run ⟨config, verbosity, .validate files format⟩)
    (hc : t.config config = .ok c) :
    (t.run (run env args)).2 = t ∧
      (env.BreaksOff ∧ (t.run (run env args)).1 = .brokenOff ∨
        ¬ env.BreaksOff ∧ ValidateEnd t (Session.new c) files format (t.run (run env args)).1) := by
  rcases run_cases t h with ⟨hb, hrun⟩ | ⟨hb, f, ⟨e, he, -⟩ | ⟨c', hc', hrun⟩⟩
  · rw [hrun]
    exact ⟨rfl, .inl ⟨hb, rfl⟩⟩
  · rw [hc] at he
    cases he
  · obtain rfl := Except.ok.inj (hc.symm.trans hc')
    rw [hrun]
    obtain ⟨hend, htree⟩ := run_validate t (Session.new c) files format
    exact ⟨htree, .inr ⟨hb, hend.filtered f⟩⟩

theorem forall_documents_iff {docs : List Document} (p : Document → Prop)
    (hdocs : files.map t.document = docs.map .ok) :
    (∀ d ∈ docs, p d) ↔ ∀ path ∈ files, ∃ d, t.document path = .ok d ∧ p d := by
  have hfiles : (∀ path ∈ files, ∃ d, t.document path = .ok d ∧ p d) ↔
      ∀ x ∈ files.map t.document, ∃ d, x = .ok d ∧ p d := by
    rw [List.forall_mem_map]
  rw [hfiles, hdocs, List.forall_mem_map]
  simp

namespace ValidateEnd
variable (h : ValidateEnd t s files format o)
include h

theorem status_eq_zero_iff :
    o.status = 0 ↔
      ∀ path ∈ files, ∃ d, t.document path = .ok d ∧ (s.validate d).isValid = true := by
  cases h with
  | unloaded before path after e log hfiles hbefore he =>
    refine iff_of_false nofun fun hall => ?_
    obtain ⟨d, hd, -⟩ := hall path (by simp [hfiles])
    rw [he] at hd
    cases hd
  | valid docs log hdocs h => exact iff_of_true rfl ((forall_documents_iff _ hdocs).1 h)
  | invalid docs log hdocs h =>
    exact iff_of_false nofun fun hall => h ((forall_documents_iff _ hdocs).2 hall)

theorem status_eq_two_iff :
    o.status = 2 ↔ ∃ path ∈ files, ∃ e, t.document path = .error e := by
  cases h with
  | unloaded before path after e log hfiles hbefore he =>
    exact iff_of_true rfl ⟨path, by simp [hfiles], e, he⟩
  | valid docs log hdocs | invalid docs log hdocs =>
    refine iff_of_false nofun ?_
    rintro ⟨path, hpath, e, he⟩
    have hloaded := (forall_documents_iff (fun _ => True) hdocs).1 (fun _ _ => trivial)
    obtain ⟨d, hd, -⟩ := hloaded path hpath
    rw [he] at hd
    cases hd

theorem status_cases : o.status = 0 ∨ o.status = 1 ∨ o.status = 2 := by
  cases h with
  | valid => exact .inl rfl
  | invalid => exact .inr (.inl rfl)
  | unloaded => exact .inr (.inr rfl)

theorem status_eq_of_perm {files' : List String} {format' : Format} {o' : Outcome}
    (h' : ValidateEnd t s files' format' o') (hp : files'.Perm files) : o'.status = o.status := by
  have hzero : o'.status = 0 ↔ o.status = 0 := by
    rw [h.status_eq_zero_iff, h'.status_eq_zero_iff]
    simp only [hp.mem_iff]
  have htwo : o'.status = 2 ↔ o.status = 2 := by
    rw [h.status_eq_two_iff, h'.status_eq_two_iff]
    simp only [hp.mem_iff]
  have := h.status_cases
  have := h'.status_cases
  omega

end ValidateEnd

end ends

/-- The command on a file tree, for all arguments that ask for it and a configuration that loads. No
file is changed. The first file that cannot be loaded makes the whole command fail with status 2: a
wrong extension is refused whatever provides the files, so without a look at them, and otherwise the
reading failed. If all files load, the status is 0 or 1 by whether each of them is valid, and the
report has what the check of each of them alone finds, in their order. The same files in another
order or for another format come to the same status. Only a run that breaks off at its filter does
none of this. -/
theorem validate_command (t : FileTree) (env : Environment) {args : List String}
    {config : Option String} {verbosity : Nat} {files : List String} {format : Format} {c : Config}
    (h : request env.configFile args = .run ⟨config, verbosity, .validate files format⟩)
    (hc : t.config config = .ok c) :
    let s := Session.new c
    let o := (t.run (run env args)).1
    (t.run (run env args)).2 = t ∧
    (∀ args' verbosity' files' format',
      request env.configFile args' = .run ⟨config, verbosity', .validate files' format'⟩ →
      files'.Perm files → (t.run (run env args')).1.status = o.status) ∧
    (env.BreaksOff ∧ o = .brokenOff ∨
      (∃ before path after, files = before ++ path :: after ∧
        (∀ p ∈ before, ∃ d, t.document p = .ok d) ∧
        (isGrammarFile path = false ∧ o.error = some (path ++ " is not an NPeg grammar file") ∧
            (∀ (m : Type → Type) [Monad m] [FileAccess m],
              Document.load (m := m) path = pure (.error (.notAGrammarFile path))) ∨
          isGrammarFile path = true ∧ ∃ cause, t.read path = .error cause ∧
            o.error = some ("failed to read " ++ path ++ ": " ++ cause.message ++ ": " ++
              cause.message)) ∧
        o.status = 2 ∧ o.output = "") ∨
      ∃ docs : List Document, files.map t.document = docs.map .ok ∧ docs.map Document.file = files ∧
        (o.status = 0 ∧ (∀ d ∈ docs, (s.validate d).isValid = true) ∨
          o.status = 1 ∧ ¬ ∀ d ∈ docs, (s.validate d).isValid = true) ∧
        o.error = none ∧
        Reports s format docs o.output) := by
  intro s o
  obtain ⟨htree, hend⟩ := validateEnd_of_request h hc
  refine ⟨htree, ?_, ?_⟩
  · intro args' verbosity' files' format' h' hp
    obtain ⟨-, hend'⟩ := validateEnd_of_request h' hc
    rcases hend with ⟨hb, hbroken⟩ | ⟨hb, hend⟩ <;> rcases hend' with ⟨hb', hbroken'⟩ | ⟨hb', hend'⟩
    · rw [hbroken']
      exact congrArg Outcome.status hbroken.symm
    · exact absurd hb hb'
    · exact absurd hb' hb
    · exact hend.status_eq_of_perm hend' hp
  · refine hend.imp_right fun hend => ?_
    obtain ⟨-, hend⟩ := hend
    change ValidateEnd t s files format o at hend
    clear_value o
    cases hend with
    | unloaded before path after e log hfiles hbefore he =>
      refine .inl ⟨before, path, after, hfiles, hbefore, ?_, rfl, rfl⟩
      rcases FileTree.document_eq_error_iff.1 he with ⟨hname, rfl⟩ | ⟨hname, cause, hread, rfl⟩
      · exact .inl ⟨hname, rfl, fun m _ _ => load_of_not_isGrammarFile hname⟩
      · exact .inr ⟨hname, cause, hread, rfl⟩
    | valid docs log hdocs hall =>
      exact .inr ⟨docs, hdocs, FileTree.map_file_of_documents hdocs, .inl ⟨rfl, hall⟩, rfl,
        reports_reportText s format docs⟩
    | invalid docs log hdocs hall =>
      exact .inr ⟨docs, hdocs, FileTree.map_file_of_documents hdocs, .inr ⟨rfl, hall⟩, rfl,
        reports_reportText s format docs⟩

/-- A valid grammar and an invalid one in both orders and formats, the invalid one alone, and a
file that is no grammar behind one that is not there. -/
theorem validate_command_swap :
    let t := (FileTree.empty.add "a.npeg" "a <-".toUTF8).add "b.npeg" "b<-)b<-".toUTF8
    let env : Environment := ⟨none, none, none⟩
    let o := (t.run (run env ["validate", "a.npeg", "b.npeg"])).1
    let swapped := (t.run (run env ["validate", "--format", "json", "b.npeg", "a.npeg"])).1
    let alone := (t.run (run env ["validate", "b.npeg"])).1
    let unloaded := (t.run (run env ["validate", "b.npeg", "c.npeg", "d.txt"])).1
    request env.configFile ["validate", "a.npeg", "b.npeg"] =
      .run ⟨none, 0, .validate ["a.npeg", "b.npeg"] .text⟩ ∧
    t.config none = .ok .standard ∧
    (t.run (run env ["validate", "a.npeg", "b.npeg"])).2 = t ∧
    o.status = 1 ∧ swapped.status = o.status ∧
    o.output =
      "b.npeg:error:1:4:unmatched closing parenthesis\n" ++
      "b.npeg:warning:1:5:rule `b` is defined more than once\n" ∧
    alone.output =
      "error:1:4:unmatched closing parenthesis\n" ++
      "warning:1:5:rule `b` is defined more than once\n" ∧
    swapped.output =
      "[\n  \x7b\n    \"file\": \"b.npeg\",\n    \"result\": \x7b" ++
      "\n      \"is_valid\": false,\n      \"diagnostics\": [\n        \x7b" ++
      "\n          \"severity\": \"error\"," ++
      "\n          \"message\": \"unmatched closing parenthesis\"," ++
      "\n          \"span\": \x7b\n            \"start\": 3,\n            \"end\": 4" ++
      "\n          \x7d,\n          \"line\": 1,\n          \"column\": 4\n        \x7d," ++
      "\n        \x7b\n          \"severity\": \"warning\"," ++
      "\n          \"message\": \"rule `b` is defined more than once\"," ++
      "\n          \"span\": \x7b\n            \"start\": 4,\n            \"end\": 5" ++
      "\n          \x7d,\n          \"line\": 1,\n          \"column\": 5\n        \x7d" ++
      "\n      ],\n      \"rule_names\": [\n        \"b\"\n      ]\n    \x7d\n  \x7d," ++
      "\n  \x7b\n    \"file\": \"a.npeg\",\n    \"result\": \x7b\n      \"is_valid\": true," ++
      "\n      \"diagnostics\": [],\n      \"rule_names\": [\n        \"a\"\n      ]" ++
      "\n    \x7d\n  \x7d\n]\n" ∧
    unloaded.status = 2 ∧ unloaded.output = "" ∧
    unloaded.error = some ("failed to read c.npeg: No such file or directory (os error 2): " ++
      "No such file or directory (os error 2)") := by
  intro t env o swapped alone unloaded
  have hrequest : request env.configFile ["validate", "a.npeg", "b.npeg"] =
      .run ⟨none, 0, .validate ["a.npeg", "b.npeg"] .text⟩ := by decide +kernel
  have hswapped : request env.configFile ["validate", "--format", "json", "b.npeg", "a.npeg"] =
      .run ⟨none, 0, .validate ["b.npeg", "a.npeg"] .json⟩ := by decide +kernel
  have hconfig : t.config none = .ok .standard := rfl
  obtain ⟨htree, hperm, -⟩ := validate_command t env hrequest hconfig
  have hstatus := hperm _ 0 _ _ hswapped (.swap ..)
  refine ⟨hrequest, hconfig, htree, ?_, hstatus, ?_, ?_, ?_, ?_, ?_, ?_⟩ <;> decide +kernel

end PegKit.CommandLine
