/-! Paths as text: parts with slashes between them. Empty parts and single dots do not count, two
dots mean the directory above, and the extension of a name is what follows its last dot, unless
that dot stands at the front. -/

namespace PegKit.Path

def segments (path : List Char) : List (List Char) := path.splitOn '/'

def counts (part : List Char) : Bool := part ≠ [] && part ≠ ['.']

/-- The last part that counts, unless it leads upwards. -/
def fileName? (path : String) : Option (List Char) :=
  ((segments path.toList).filter counts).getLast?.filter (· ≠ ['.', '.'])

/-- A file name cut at its last dot: the stem, and the extension if there is one. -/
def splitName (name : List Char) : List Char × Option (List Char) :=
  let back := name.reverse
  let extension := (back.takeWhile (· ≠ '.')).reverse
  match (back.dropWhile (· ≠ '.')).reverse.dropLast with
  | [] => (name, none)
  | stem => (stem, some extension)

def stem? (path : String) : Option (List Char) :=
  (fileName? path).map fun name => (splitName name).1

def extension? (path : String) : Option (List Char) :=
  (fileName? path).bind fun name => (splitName name).2

def isAbsolute (path : String) : Bool := path.toList.head? = some '/'

def join (base p : String) : String :=
  if isAbsolute p then p
  else if base.toList = [] || base.toList.getLast? = some '/' then base ++ p
  else base ++ "/" ++ p

end PegKit.Path
