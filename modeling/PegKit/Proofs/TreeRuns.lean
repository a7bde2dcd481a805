import PegKit.CommandLine.Run
import PegKit.Files.Tree

/-! Runs on a file tree. Only a write changes the tree. What is read is read from the tree as it was
at the start, so the configuration, a document and a list of documents each depend on the tree
alone, and of a list the first document that cannot be loaded decides. A run that does not break off
is the command that was asked for, but for what the filter takes from its log. -/

namespace PegKit

namespace FileTree
variable {α β : Type} {t : FileTree}

/-- What a program comes to on a file tree, and the tree that it leaves. -/
def run (t : FileTree) (program : StateM FileTree α) : α × FileTree := (program.run t).run

@[simp]
theorem run_pure (a : α) : t.run (pure a) = (a, t) := rfl

@[simp]
theorem run_bind (x : StateM FileTree α) (f : α → StateM FileTree β) :
    t.run (x >>= f) = (t.run x).2.run (f (t.run x).1) := rfl

@[simp]
theorem run_read (path : String) : t.run (FileAccess.read path) = (t.read path, t) := rfl

@[simp]
theorem run_isDirectory (path : String) :
    t.run (FileAccess.isDirectory path) = (t.isDirectory path, t) := rfl

theorem run_write (path text : String) :
    t.run (FileAccess.write path text) =
      match t.write path text with
      | .ok t' => (.ok (), t')
      | .error e => (.error e, t) := by
  unfold run
  simp only [FileAccess.write, StateT.run_bind, StateT.run_get, pure_bind]
  cases t.write path text with
  | ok t' => rfl
  | error e => rfl

def document (t : FileTree) (path : String) : Except ToolError Document :=
  (t.run (Document.load path)).1

def config (t : FileTree) (path : Option String) : Except ToolError Config :=
  (t.run (CommandLine.loadConfig path)).1

end FileTree

theorem load_of_not_isGrammarFile {m : Type → Type} [Monad m] [FileAccess m] {path : String}
    (h : isGrammarFile path = false) :
    Document.load (m := m) path = pure (.error (.notAGrammarFile path)) := by
  simp [Document.load, h]

namespace FileTree
variable {t : FileTree} {path : String} {d : Document}

theorem document_of_isGrammarFile (h : isGrammarFile path = true) :
    t.document path = match t.read path with
      | .ok source => .ok ⟨path, source⟩
      | .error e => .error (.unreadable path e) := by
  simp only [document, Document.load, h, if_true, run_bind, run_read]
  cases t.read path <;> rfl

theorem document_of_not_isGrammarFile (h : isGrammarFile path = false) :
    t.document path = .error (.notAGrammarFile path) := by
  rw [document, load_of_not_isGrammarFile h, run_pure]

theorem run_load (path : String) : t.run (Document.load path) = (t.document path, t) := by
  refine Prod.ext rfl ?_
  cases h : isGrammarFile path with
  | true =>
    simp only [Document.load, h, if_true, run_bind, run_read]
    cases t.read path <;> rfl
  | false => rw [load_of_not_isGrammarFile h, run_pure]

theorem run_loadConfig (path : Option String) :
    t.run (CommandLine.loadConfig path) = (t.config path, t) := by
  refine Prod.ext rfl ?_
  cases path with
  | none => rfl
  | some path =>
    simp only [CommandLine.loadConfig, Config.load, run_bind, run_read]
    cases t.read path <;> rfl

theorem document_eq_ok_iff :
    t.document path = .ok d ↔
      isGrammarFile path = true ∧ t.read path = .ok d.source ∧ d.file = path := by
  cases h : isGrammarFile path with
  | true =>
    rw [document_of_isGrammarFile h]
    cases t.read path with
    | ok source =>
      obtain ⟨file, source'⟩ := d
      simp [eq_comm, and_comm]
    | error e => simp
  | false => simp [document_of_not_isGrammarFile h]

theorem document_eq_error_iff {e : ToolError} :
    t.document path = .error e ↔
      isGrammarFile path = false ∧ e = .notAGrammarFile path ∨
      isGrammarFile path = true ∧ ∃ cause, t.read path = .error cause ∧
        e = .unreadable path cause := by
  cases h : isGrammarFile path with
  | true =>
    rw [document_of_isGrammarFile h]
    cases t.read path <;> simp [eq_comm]
  | false => simp [document_of_not_isGrammarFile h, eq_comm]

theorem map_file_of_documents {paths : List String} {docs : List Document}
    (h : paths.map t.document = docs.map .ok) : docs.map Document.file = paths := by
  induction paths generalizing docs with
  | nil =>
    rw [List.map_nil, eq_comm, List.map_eq_nil_iff] at h
    rw [h, List.map_nil]
  | cons path paths ih =>
    cases docs with
    | nil => cases h
    | cons d docs =>
      rw [List.map_cons, List.map_cons, List.cons.injEq, document_eq_ok_iff] at h
      rw [List.map_cons, h.1.2.2, ih h.2]

/-- A list is loaded whole, or the first document that cannot be loaded is to blame. -/
theorem run_loadAll (paths : List String) :
    (∃ docs, paths.map t.document = docs.map .ok ∧
      t.run (CommandLine.loadAll paths) = (.ok docs, t)) ∨
    ∃ before path after e, paths = before ++ path :: after ∧
      (∀ p ∈ before, ∃ d, t.document p = .ok d) ∧ t.document path = .error e ∧
      t.run (CommandLine.loadAll paths) = (.error e, t) := by
  induction paths with
  | nil => exact .inl ⟨[], rfl, rfl⟩
  | cons path paths ih =>
    cases hd : t.document path with
    | error e =>
      refine .inr ⟨[], path, paths, e, rfl, by simp, hd, ?_⟩
      simp only [CommandLine.loadAll, run_bind, run_load, hd, run_pure]
    | ok d =>
      -- the rest is loaded from the same tree, which a look at the first file leaves as it is
      rcases ih with ⟨docs, hdocs, hrun⟩ | ⟨before, failing, after, e, rfl, hbefore, he, hrun⟩
      · refine .inl ⟨d :: docs, by rw [List.map_cons, hd, hdocs, List.map_cons], ?_⟩
        simp only [CommandLine.loadAll, run_bind, run_load, hd, hrun, run_pure]
      · refine .inr ⟨path :: before, failing, after, e, rfl, ?_, he, ?_⟩
        · intro p hp
          rcases List.mem_cons.1 hp with rfl | hp
          · exact ⟨d, hd⟩
          · exact hbefore p hp
        · simp only [CommandLine.loadAll, run_bind, run_load, hd, hrun, run_pure]

end FileTree

namespace CommandLine

/-- The environment has a filter that cannot be taken apart. A run breaks off at it. -/
def Environment.BreaksOff (env : Environment) : Prop :=
  ∃ text ∈ env.logFilter, Log.Filter.parse text = .error .severed

theorem choose?_eq_none_iff {env : Environment} {verbosity : Nat} :
    Log.Filter.choose? env.logFilter verbosity = none ↔ env.BreaksOff := by
  unfold Log.Filter.choose? Environment.BreaksOff
  cases env.logFilter with
  | none => simp
  | some text =>
    cases hp : Log.Filter.parse text with
    | ok f => simp [hp]
    | error fault => cases fault <;> simp [hp]

/-- A run that does not break off fails with its configuration, or does what the command asks. -/
theorem run_cases {env : Environment} {args : List String} {i : Invocation} (t : FileTree)
    (h : request env.configFile args = .run i) :
    env.BreaksOff ∧ t.run (run env args) = (.brokenOff, t) ∨
    ¬ env.BreaksOff ∧ ∃ f : Log.Filter,
      (∃ e, t.config i.config = .error e ∧
        t.run (run env args) = ((failWith e []).filtered f, t)) ∨
      ∃ c, t.config i.config = .ok c ∧
        t.run (run env args) = ((t.run (runCommand env.home c i.command)).1.filtered f,
          (t.run (runCommand env.home c i.command)).2) := by
  have hrun : run (m := StateM FileTree) env args = runInvocation env i := by simp [run, h]
  rw [hrun, runInvocation]
  cases hf : Log.Filter.choose? env.logFilter i.verbosity with
  | none => exact .inl ⟨choose?_eq_none_iff.1 hf, rfl⟩
  | some f =>
    refine .inr ⟨fun hb => ?_, f, ?_⟩
    · rw [choose?_eq_none_iff.2 hb] at hf
      cases hf
    · simp only [FileTree.run_bind, FileTree.run_loadConfig]
      cases hc : t.config i.config with
      | error e => exact .inl ⟨e, rfl, rfl⟩
      | ok c => exact .inr ⟨c, rfl, rfl⟩

end CommandLine

end PegKit
