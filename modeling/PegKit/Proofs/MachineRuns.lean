import PegKit.Files.Machine
import PegKit.Proofs.TreeRuns

/-! Runs on a machine. A device shows only where something is written or looked for, so without
devices a machine does with its tree what the tree does alone, and a command that only reads does
so even among devices. What is proved of commands on file trees holds there too. -/

namespace PegKit

namespace Machine
variable {α β : Type} {m : Machine} {devices : List (List String × Device)}

def run (m : Machine) (program : StateM Machine α) : α × Machine := (program.run m).run

/-- On each machine with these devices, `p` does what `q` does on its tree, and nothing else. -/
def Simulates (devices : List (List String × Device)) (p : StateM Machine α)
    (q : StateM FileTree α) : Prop :=
  ∀ m : Machine, m.devices = devices →
    m.run p = ((m.tree.run q).1, { m with tree := (m.tree.run q).2 })

theorem device?_of_no_devices (h : m.devices = []) (path : String) : m.device? path = none := by
  rw [device?, h]
  cases m.tree.locate path <;> rfl

namespace Simulates

protected theorem pure (a : α) : Simulates devices (pure a) (pure a) := fun _ _ => rfl

protected theorem bind {p : StateM Machine α} {q : StateM FileTree α} {f : α → StateM Machine β}
    {g : α → StateM FileTree β} (h : Simulates devices p q)
    (hf : ∀ a, Simulates devices (f a) (g a)) : Simulates devices (p >>= f) (q >>= g) := by
  intro m hm
  have hrun : m.run (p >>= f) = (m.run p).2.run (f (m.run p).1) := rfl
  rw [hrun, h m hm, FileTree.run_bind]
  exact hf _ _ hm

/-! Access to files. -/

theorem read (path : String) :
    Simulates devices (FileAccess.read path) (FileAccess.read path) := fun _ _ => rfl

theorem isDirectory (path : String) :
    Simulates devices (FileAccess.isDirectory path) (FileAccess.isDirectory path) := fun _ _ => rfl

theorem isFile (path : String) :
    Simulates [] (FileAccess.isFile path) (FileAccess.isFile path) := by
  intro m hm
  have hfile : m.isFile path = m.tree.isFile path := by
    simp [Machine.isFile, device?_of_no_devices hm]
  exact Prod.ext hfile rfl

theorem write (path text : String) :
    Simulates [] (FileAccess.write path text) (FileAccess.write path text) := by
  intro m hm
  have hwrite : m.write path text = (m.tree.write path text).map fun t => { m with tree := t } := by
    simp [Machine.write, device?_of_no_devices hm]
  rw [FileTree.run_write]
  unfold run
  simp only [FileAccess.write, StateT.run_bind, StateT.run_get, pure_bind, hwrite]
  cases m.tree.write path text with
  | ok t => rfl
  | error e => rfl

/-! Programs, each from its parts. -/

theorem load (path : String) : Simulates devices (Document.load path) (Document.load path) := by
  unfold Document.load
  split
  · refine (read path).bind fun r => ?_
    cases r <;> exact .pure _
  · exact .pure _

theorem loadAll (paths : List String) :
    Simulates devices (CommandLine.loadAll paths) (CommandLine.loadAll paths) := by
  induction paths with
  | nil => exact .pure _
  | cons path paths ih =>
    refine (load path).bind fun r => ?_
    cases r with
    | error e => exact .pure _
    | ok d =>
      refine ih.bind fun r => ?_
      cases r <;> exact .pure _

theorem loadConfig (path : Option String) :
    Simulates devices (CommandLine.loadConfig path) (CommandLine.loadConfig path) := by
  cases path with
  | none => exact .pure _
  | some path =>
    refine (read path).bind fun r => ?_
    cases r <;> exact .pure _

theorem validate (s : Session) (files : List String) (format : CommandLine.Format) :
    Simulates devices (CommandLine.validate s files format)
      (CommandLine.validate s files format) := by
  refine (loadAll files).bind fun r => ?_
  cases r <;> exact .pure _

theorem tokens (s : Session) (file : String) :
    Simulates devices (CommandLine.tokens s file) (CommandLine.tokens s file) := by
  refine (load file).bind fun r => ?_
  cases r <;> exact .pure _

theorem writeScaffold (output grammar : String) (x : Scaffold) (log : List Log.Event) :
    Simulates [] (CommandLine.writeScaffold output grammar x log)
      (CommandLine.writeScaffold output grammar x log) := by
  refine (isDirectory output).bind fun d => (write _ _).bind fun r => ?_
  cases r <;> exact .pure _

theorem generate (s : Session) (file : String) (target entry output : Option String)
    (h : devices = [] ∨ output = none) :
    Simulates devices (CommandLine.generate s file target entry output)
      (CommandLine.generate s file target entry output) := by
  refine (load file).bind fun r => ?_
  cases r with
  | error e => exact .pure _
  | ok d =>
    dsimp only
    split
    · exact .pure _
    · exact .pure _
    · exact .pure _
    -- only here is a file written
    · rcases h with rfl | h
      · exact writeScaffold _ _ _ _
      · cases h

theorem inquireAll (home : Option String) (providers : List Provider) :
    Simulates [] (PegKit.inquireAll FileAccess.isFile home providers)
      (PegKit.inquireAll FileAccess.isFile home providers) := by
  induction providers with
  | nil => exact .pure _
  | cons p providers ih =>
    have hasked : Simulates [] (inquire FileAccess.isFile home p)
        (inquire FileAccess.isFile home p) := by
      unfold inquire
      cases p.probe? home with
      | none => exact .pure _
      | some path => exact (isFile path).bind fun _ => .pure _
    refine hasked.bind fun q => ?_
    cases q.resolved with
    | some path => exact .pure _
    | none => exact ih.bind fun _ => .pure _

theorem start (home : Option String) (c : Config) :
    Simulates [] (Session.start FileAccess.isFile home c)
      (Session.start FileAccess.isFile home c) := by
  unfold Session.start
  split
  · exact ((inquireAll home _).bind fun _ => .pure _).bind fun _ => .pure _
  · exact .pure _

theorem locateServer (home : Option String) (c : Config) :
    Simulates [] (CommandLine.locateServer home c) (CommandLine.locateServer home c) := by
  refine (start home _).bind fun r => ?_
  obtain ⟨s, l⟩ := r
  dsimp only
  cases s.server <;> exact .pure _

end Simulates

end Machine

namespace CommandLine

/-- Whether a command neither writes a file nor looks for one. -/
def Command.onlyReads : Command → Bool
  | validate .. | tokens .. | generate _ _ _ none => true
  | generate _ _ _ (some _) | locateServer => false

section
variable {devices : List (List String × Device)}
open Machine (Simulates)

theorem simulates_runCommand (home : Option String) (c : Config) {command : Command}
    (h : devices = [] ∨ command.onlyReads = true) :
    Simulates devices (runCommand home c command) (runCommand home c command) := by
  cases command with
  | validate files format => exact .validate _ files format
  | generate file target entry output =>
    refine .generate _ file target entry output (h.imp_right fun h => ?_)
    cases output with
    | none => rfl
    | some path => cases h
  | tokens file => exact .tokens _ file
  | locateServer =>
    obtain rfl := h.resolve_right nofun
    exact .locateServer home c

theorem simulates_runInvocation (env : Environment) {i : Invocation}
    (h : devices = [] ∨ i.command.onlyReads = true) :
    Simulates devices (runInvocation env i) (runInvocation env i) := by
  unfold runInvocation
  cases Log.Filter.choose? env.logFilter i.verbosity with
  | none => exact .pure _
  | some f =>
    refine (Simulates.loadConfig i.config).bind fun r => ?_
    cases r with
    | error e => exact .pure _
    | ok c => exact (simulates_runCommand env.home c h).bind fun _ => .pure _

/-- A run on a machine that has no devices, or of a command that only reads, is the run on its tree:
the outcome is the same, the tree changes in the same way, and nothing else changes. -/
theorem run_machine (m : Machine) (env : Environment) (args : List String)
    (h : m.devices = [] ∨
      ∀ i, request env.configFile args = .run i → i.command.onlyReads = true) :
    m.run (run env args) =
      ((m.tree.run (run env args)).1, { m with tree := (m.tree.run (run env args)).2 }) := by
  have hrun : Machine.Simulates m.devices (run env args) (run env args) := by
    unfold run
    cases hrequest : request env.configFile args with
    | run i => exact simulates_runInvocation env (h.imp_right fun h => h i hrequest)
    | version | help | misuse => exact .pure _
  exact hrun m rfl

theorem run_ofTree (t : FileTree) (env : Environment) (args : List String) :
    (Machine.ofTree t []).run (run env args) =
      ((t.run (run env args)).1, Machine.ofTree (t.run (run env args)).2 []) :=
  run_machine (.ofTree t []) env args (.inl rfl)

end

end CommandLine

end PegKit
