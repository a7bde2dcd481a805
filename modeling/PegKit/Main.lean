import PegKit.CommandLine.Run

/-! The program: its files are those of the operating system, and its outcome goes to standard
output, standard error and the exit status. -/

namespace PegKit

/-- The cause of a failure that the operating system reports. -/
def FileError.ofSystem : IO.Error → FileError
  | .noFileOrDirectory .. => .notFound
  | .inappropriateType _ code _ => if code = 21 then .isDirectory else .notDirectory
  | .resourceExhausted _ 28 _ => .noSpace
  | .permissionDenied .. => .other "Permission denied (os error 13)"
  | .invalidArgument _ code details =>
    if details.toLower.endsWith "name too long" then .nameTooLong
    else .other (toString (IO.Error.invalidArgument none code details))
  | e => .other (toString e)

def readText (path : String) : IO (Except FileError String) := do
  if path.toList.contains '\x00' then return .error .nullInName
  try
    match String.fromUTF8? (← IO.FS.readBinFile path) with
    | some s => return .ok s
    | none => return .error .notUtf8
  catch e => return .error (.ofSystem e)

def writeText (path text : String) : IO (Except FileError Unit) := do
  if path.toList.contains '\x00' then return .error .nullInName
  try
    IO.FS.withFile path .write fun h => do
      h.putStr text
      h.flush
    return .ok ()
  catch e => return .error (.ofSystem e)

def canOpen (path : String) : IO Bool := do
  if path.isEmpty || path.toList.contains '\x00' then return false
  try
    let _ ← IO.FS.Handle.mk path .read
    return true
  catch _ => return false

/-- A directory is what has a place for a dot in it. -/
instance : FileAccess IO where
  read := readText
  write := writeText
  isFile path := do return (← canOpen path) && !(← canOpen (path ++ "/."))
  isDirectory path := do return !path.isEmpty && (← canOpen (path ++ "/."))

def execute (args : List String) : IO UInt32 := do
  let home ← IO.getEnv "HOME"
  let env : CommandLine.Environment :=
    ⟨← IO.getEnv "NPEG_CONFIG", ← IO.getEnv "RUST_LOG", home.filter (· ≠ "")⟩
  let o ← CommandLine.run env args
  for e in o.log do
    IO.eprintln e.line
  IO.print o.output
  match o.error with
  | some text => IO.eprintln ("error: " ++ text)
  | none => pure ()
  return o.status.toUInt32

end PegKit

def main (args : List String) : IO UInt32 := PegKit.execute args
