import PegKit.Files.Tree

/-! What the tools meet on a machine: a file tree with devices at some places. A device takes what
is written to it without keeping it, and nothing is ever read from it. It is neither a file nor a
directory. -/

namespace PegKit

inductive Device where
  | null
  | full
  | standardInput
  /-- Prints what is written to it. -/
  | standardOutput
deriving DecidableEq, Repr

structure Machine where
  /-- A device has an empty file at its place. -/
  tree : FileTree
  devices : List (List String × Device)
  printed : String

namespace Machine

def ofTree (t : FileTree) (devices : List (List String × Device)) : Machine :=
  ⟨devices.foldl (fun t d => t.put d.1 (.file ByteArray.empty)) t, devices, ""⟩

def device? (m : Machine) (path : String) : Option Device :=
  match m.tree.locate path with
  | .ok place => m.devices.lookup place
  | .error _ => none

def isFile (m : Machine) (path : String) : Bool :=
  (m.device? path).isNone && m.tree.isFile path

def write (m : Machine) (path text : String) : Except FileError Machine :=
  match m.device? path with
  | some .full => .error .noSpace
  | some .standardOutput => .ok { m with printed := m.printed ++ text }
  | some .null | some .standardInput => .ok m
  | none => (m.tree.write path text).map fun t => { m with tree := t }

instance : FileAccess (StateM Machine) where
  read path := do return (← get).tree.read path
  write path text := do
    match (← get).write path text with
    | .ok m => set m; return .ok ()
    | .error e => return .error e
  isFile path := do return (← get).isFile path
  isDirectory path := do return (← get).tree.isDirectory path

end Machine

end PegKit
