import PegKit.Config
import PegKit.Files.Path

/-! Finding the language server. Providers are asked in order, and the first that gives a path
ends the search, so later ones are never looked at. A configured path is taken as it is; the
others only if something is found there. -/

namespace PegKit

inductive Provider where
  | configured (path : String)
  | fixed (path : String)
  | homeRelative (path : String)
deriving DecidableEq, Repr

namespace Provider

/-- The path to look at, if this provider has to look. -/
def probe? (home : Option String) : Provider → Option String
  | configured _ => none
  | fixed path => some path
  | homeRelative path => home.map fun h => Path.join h path

def resolve (home : Option String) (present : Bool) : Provider → Option String
  | configured path => some path
  | p => if present then p.probe? home else none

end Provider

structure Inquiry where
  provider : Provider
  probed : Option String
  resolved : Option String
deriving DecidableEq, Repr

/-- A search: all that was asked, in order. Only the last answer can be a path. -/
structure Lookup where
  inquiries : List Inquiry
deriving DecidableEq, Repr

namespace Lookup

def found (l : Lookup) : Option String := l.inquiries.findSome? Inquiry.resolved

def probed (l : Lookup) : List String := l.inquiries.filterMap Inquiry.probed

end Lookup

def inquire [Monad m] (isPresent : String → m Bool) (home : Option String) (p : Provider) :
    m Inquiry := do
  match p.probe? home with
  | none => return ⟨p, none, p.resolve home false⟩
  | some path => return ⟨p, some path, p.resolve home (← isPresent path)⟩

def inquireAll [Monad m] (isPresent : String → m Bool) (home : Option String) :
    List Provider → m (List Inquiry)
  | [] => return []
  | p :: ps => do
    let q ← inquire isPresent home p
    match q.resolved with
    | some _ => return [q]
    | none => return q :: (← inquireAll isPresent home ps)

namespace Provider

def locate [Monad m] (isPresent : String → m Bool) (home : Option String)
    (providers : List Provider) : m Lookup := do
  return ⟨← inquireAll isPresent home providers⟩

def serverBinary : String := "npeg-lsp"

def standard : List Provider :=
  [.fixed (Path.join "/usr/local/bin" serverBinary), .fixed (Path.join "/usr/bin" serverBinary),
    .homeRelative (Path.join ".local/bin" serverBinary)]

/-- The configured path, and then the configured candidates, or the usual places if there are
none. -/
def ofSettings (s : ServerSettings) : List Provider :=
  (s.path.map .configured).toList ++
    (if s.candidates.isEmpty then standard else s.candidates.map .fixed)

end Provider

end PegKit
