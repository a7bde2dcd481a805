import PegKit.Files.Access
import PegKit.Files.Path

/-! A file system as a value: files and directories below a root, one of which is the working
directory. A write that fails leaves the tree as it was. -/

namespace PegKit

inductive Entry where
  | file (content : ByteArray)
  | directory

instance : DecidableEq Entry
  | .file a, .file b =>
    match ByteArray.instDecidableEq a b with
    | .isTrue h => .isTrue (congrArg Entry.file h)
    | .isFalse h => .isFalse fun he => h (Entry.file.inj he)
  | .file _, .directory => .isFalse nofun
  | .directory, .file _ => .isFalse nofun
  | .directory, .directory => .isTrue rfl

/-- Each entry stands under the names that lead to it from the root, which itself has none. -/
structure FileTree where
  entries : List (List String × Entry)
  here : List String

namespace FileTree

def empty : FileTree := ⟨[], []⟩

def find? (t : FileTree) (place : List String) : Option Entry :=
  if place = [] then some .directory
  else (t.entries.find? (·.1 == place)).map (·.2)

def put (t : FileTree) (place : List String) (e : Entry) : FileTree :=
  if (t.find? place).isSome then
    { t with entries := t.entries.map fun x => if x.1 == place then (place, e) else x }
  else { t with entries := t.entries ++ [(place, e)] }

/-- The tree with directories wherever `place` needs them, from `above` on. -/
def withDirectories (above : List String) : List String → FileTree → FileTree
  | [], t => t
  | name :: names, t =>
    let place := above ++ [name]
    withDirectories place names (if (t.find? place).isSome then t else t.put place .directory)

/-- The longest name of one entry, and the longest path, in bytes. -/
def nameLimit : Nat := 255

def pathLimit : Nat := 4095

def origin (t : FileTree) (path : String) : List String :=
  if Path.isAbsolute path then [] else t.here

def parts (path : String) : Except FileError (List String) :=
  if path.toList.contains '\x00' then .error .nullInName
  else if path.isEmpty then .error .notFound
  else if pathLimit < path.utf8ByteSize then .error .nameTooLong
  else .ok ((Path.segments path.toList).map String.ofList)

/-- Follows the parts of a path from the directory `above`. What is followed further has to be a
directory, and a slash at the end asks for one. Above the root there is the root. -/
def follow (t : FileTree) : List String → List String → Except FileError (List String)
  | above, [] => .ok above
  | above, name :: rest =>
    if name = "" || name = "." then t.follow above rest
    else if name = ".." then t.follow above.dropLast rest
    else if nameLimit < name.utf8ByteSize then .error .nameTooLong
    else
      match t.find? (above ++ [name]) with
      | none => .error .notFound
      | some .directory => t.follow (above ++ [name]) rest
      | some (.file _) => if rest = [] then .ok (above ++ [name]) else .error .notDirectory

def locate (t : FileTree) (path : String) : Except FileError (List String) := do
  t.follow (t.origin path) (← parts path)

def isFile (t : FileTree) (path : String) : Bool :=
  match t.locate path with
  | .ok place => match t.find? place with
    | some (.file _) => true
    | _ => false
  | .error _ => false

def isDirectory (t : FileTree) (path : String) : Bool :=
  match t.locate path with
  | .ok place => t.find? place = some .directory
  | .error _ => false

def read (t : FileTree) (path : String) : Except FileError String := do
  match t.find? (← t.locate path) with
  | some (.file content) =>
    match String.fromUTF8? content with
    | some s => .ok s
    | none => .error .notUtf8
  | some .directory => .error .isDirectory
  | none => .error .notFound

/-- The place where a file would be written: its directory has to exist, and a path that can only
name a directory is refused. -/
def destination (t : FileTree) (path : String) : Except FileError (List String) := do
  let names ← parts path
  let trimmed := (names.reverse.dropWhile (· = "")).reverse
  match trimmed.getLast? with
  | none => .error .isDirectory
  | some name =>
    let above ← t.follow (t.origin path) (trimmed.dropLast ++ [""])
    if name = "." || name = ".." || trimmed.length < names.length then .error .isDirectory
    else if nameLimit < name.utf8ByteSize then .error .nameTooLong
    else if t.find? (above ++ [name]) = some .directory then .error .isDirectory
    else .ok (above ++ [name])

def write (t : FileTree) (path text : String) : Except FileError FileTree := do
  return t.put (← t.destination path) (.file text.toUTF8)

/-- The tree with a file or, by a slash at the end of its name, a directory. The name leads on from
the working directory. -/
def add (t : FileTree) (name : String) (content : ByteArray) : FileTree :=
  let names := (Path.segments name.toList).map String.ofList
  let t' := withDirectories t.here names.dropLast t
  if names.getLast? = some "" then t' else t'.put (t.here ++ names) (.file content)

instance : FileAccess (StateM FileTree) where
  read path := do return (← get).read path
  write path text := do
    match (← get).write path text with
    | .ok t => set t; return .ok ()
    | .error e => return .error e
  isFile path := do return (← get).isFile path
  isDirectory path := do return (← get).isDirectory path

end FileTree

end PegKit
