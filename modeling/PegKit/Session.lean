import PegKit.Discovery
import PegKit.Files.Access
import PegKit.Scaffold
import PegKit.Validation

/-! Work on grammar documents under one configuration. A session is a value: a configuration, and
the language server if one was looked for and found. A missing server is no error. -/

namespace PegKit

inductive Transport where
  | stdio
deriving DecidableEq, Repr

structure ServerCommand where
  program : String
  transport : Transport
deriving DecidableEq, Repr

structure Session where
  config : Config
  server : Option ServerCommand
deriving DecidableEq, Repr

inductive ToolError where
  | unreadable (path : String) (cause : FileError)
  | notAGrammarFile (path : String)
  | config (e : ConfigError)
  | invalidGrammar (file : String) (diagnostics : List Diagnostic)
  | scaffold (e : ScaffoldError)
deriving Repr

def ToolError.message : ToolError → String
  | unreadable path cause => "failed to read " ++ path ++ ": " ++ cause.message
  | notAGrammarFile path => path ++ " is not an NPeg grammar file"
  | config .malformed => "invalid configuration"
  | config (.unfit e) => "invalid configuration: " ++ e.message
  | invalidGrammar file _ => file ++ " is not a valid grammar"
  | scaffold e => e.message

/-- Whether a path names a grammar file, by its extension in any case. -/
def isGrammarFile (path : String) : Bool :=
  (Path.extension? path).any fun e => e.map Char.toLower == "npeg".toList

/-- Reads a grammar. Its path becomes its file identifier. -/
def Document.load [Monad m] [FileAccess m] (path : String) : m (Except ToolError Document) := do
  if isGrammarFile path then
    match ← FileAccess.read path with
    | .ok source => return .ok ⟨path, source⟩
    | .error e => return .error (.unreadable path e)
  else return .error (.notAGrammarFile path)

def Config.load [Monad m] [FileAccess m] (path : String) : m (Except ToolError Config) := do
  match ← FileAccess.read path with
  | .ok source => return (Config.parse source).mapError .config
  | .error e => return .error (.unreadable path e)

namespace Session

def new (c : Config) : Session := ⟨c, none⟩

def ofLookup (c : Config) (l : Lookup) : Session :=
  ⟨c, l.found.map fun program => ⟨program, .stdio⟩⟩

/-- A session that looks for a server if the configuration asks for one, and that search. -/
def start [Monad m] (isPresent : String → m Bool) (home : Option String) (c : Config) :
    m (Session × Option Lookup) := do
  if c.server.enable then
    let l ← Provider.locate isPresent home (Provider.ofSettings c.server)
    return (ofLookup c l, some l)
  else return (new c, none)

def tokens (s : Session) (d : Document) : List Token := tokenize s.config.lexical d.source

def validate (s : Session) (d : Document) : Report := PegKit.validate (s.tokens d)

/-- The scaffold of a document in the given target, or else the configured one. -/
def generate (s : Session) (d : Document) (target chosen : Option String) :
    Except ToolError Scaffold :=
  let r := s.validate d
  if r.isValid then
    (Scaffold.generate d r (target.getD s.config.defaultTarget) chosen).mapError .scaffold
  else .error (.invalidGrammar d.file r.diagnostics)

end Session

end PegKit
