import PegKit.CommandLine.Arguments
import PegKit.Json
import PegKit.Log
import PegKit.Log.Filter

/-! Running the program. A run reads files, may write one, and comes to an outcome: an exit
status, the text for standard output, an error, and a log. The status is 0 on success, 1 if a
grammar is invalid or no server was found, and 2 for any other failure, which has an error and no
output. A run that breaks off before it does anything has status 101. -/

namespace PegKit.CommandLine

structure Environment where
  configFile : Option String
  logFilter : Option String
  home : Option String
deriving DecidableEq, Repr

structure Outcome where
  status : Nat
  output : String
  error : Option String
  log : List Log.Event
deriving DecidableEq, Repr

namespace Outcome

def ok (output : String) (log : List Log.Event) : Outcome := ⟨0, output, none, log⟩

def refused (output : String) (log : List Log.Event) : Outcome := ⟨1, output, none, log⟩

def failed (error : String) (log : List Log.Event) : Outcome := ⟨2, "", some error, log⟩

def brokenOff : Outcome := ⟨101, "", none, []⟩

end Outcome

/-- An error with its cause, as the program prints it. -/
def errorText : ToolError → String
  | .unreadable path cause =>
    (ToolError.unreadable path cause).message ++ ": " ++ cause.message
  | .config _ => "invalid configuration"
  | e => e.message

def failWith (e : ToolError) (log : List Log.Event) : Outcome := .failed (errorText e) log

def textLines (lines : List String) : String :=
  String.join (lines.map (· ++ "\n"))

def diagnosticJson (d : Diagnostic) : Json :=
  .object
    [("severity", .text d.severity.label), ("message", .text d.message),
      ("span", .object [("start", .number d.span.start), ("end", .number d.span.stop)]),
      ("line", .number d.line), ("column", .number d.column)]

def reportJson (r : Report) : Json :=
  .object
    [("is_valid", .boolean r.isValid), ("diagnostics", .array (r.diagnostics.map diagnosticJson)),
      ("rule_names", .array (r.ruleNames.map .text))]

def tokenJson (t : Token) : Json :=
  .object
    [("kind", .text t.kind.code), ("text", .text t.text),
      ("position", .number t.location.offset), ("line", .number t.location.line),
      ("column", .number t.location.column)]

def jsonText (j : Json) : String := j.render 0 ++ "\n"

def loadAll [Monad m] [FileAccess m] : List String → m (Except ToolError (List Document))
  | [] => return .ok []
  | path :: paths => do
    match ← Document.load path with
    | .error e => return .error e
    | .ok d =>
      match ← loadAll paths with
      | .error e => return .error e
      | .ok ds => return .ok (d :: ds)

/-- The output of a check: one report for each document, or the diagnostics line by line, each
behind the name of its file if there are several. -/
def reportText (format : Format) (checked : List (Document × Report)) : String :=
  match format with
  | .json =>
    jsonText (.array (checked.map fun (d, r) =>
      .object [("file", .text d.file), ("result", reportJson r)]))
  | .text =>
    match checked with
    | [(_, r)] => textLines (r.diagnostics.map Diagnostic.summary)
    | _ =>
      textLines (checked.flatMap fun (d, r) =>
        r.diagnostics.map fun x => d.file ++ ":" ++ x.summary)

def validatedFile (d : Document) (r : Report) : Log.Event :=
  ⟨.info, "npeg", "validated grammar",
    [("file", d.file), ("valid", toString r.isValid), ("rules", toString r.ruleNames.length)]⟩

def checkDocuments (s : Session) (format : Format) (docs : List Document) : Outcome :=
  let checked := docs.map fun d => (d, s.validate d)
  let log := checked.map (fun (_, r) => Log.validated r) ++
    checked.map fun (d, r) => validatedFile d r
  if checked.all fun (_, r) => r.isValid then .ok (reportText format checked) log
  else .refused (reportText format checked) log

def validate [Monad m] [FileAccess m] (s : Session) (files : List String) (format : Format) :
    m Outcome := do
  match ← loadAll files with
  | .error e => return failWith e []
  | .ok docs => return checkDocuments s format docs

/-- The path that a scaffold is written to: in a directory, a file named for the grammar with the
extension of the target. -/
def scaffoldPath (output grammar : String) (isDirectory : Bool) (t : Target) : String :=
  if isDirectory then
    let stem := (Path.stem? grammar).getD "scaffold".toList
    Path.join output (String.ofList stem ++ "." ++ t.fileExtension)
  else output

def wroteScaffold (path : String) (x : Scaffold) : Log.Event :=
  ⟨.info, "npeg", "wrote scaffold",
    [("path", path), ("target", x.target.id), ("entry", x.entry)]⟩

def writeScaffold [Monad m] [FileAccess m] (output grammar : String) (x : Scaffold)
    (log : List Log.Event) : m Outcome := do
  let path := scaffoldPath output grammar (← FileAccess.isDirectory output) x.target
  match ← FileAccess.write path x.text with
  | .ok () => return .ok "" (log ++ [wroteScaffold path x])
  | .error e => return .failed ("failed to write " ++ path ++ ": " ++ e.message) log

def generate [Monad m] [FileAccess m] (s : Session) (file : String)
    (target entry output : Option String) : m Outcome := do
  match ← Document.load file with
  | .error e => return failWith e []
  | .ok d =>
    let result := s.generate d target entry
    let log := Log.generation d (s.validate d) entry result
    match result, output with
    | .error (.invalidGrammar _ diagnostics), _ =>
      return .refused (textLines (diagnostics.map Diagnostic.summary)) log
    | .error e, _ => return failWith e log
    | .ok x, none => return .ok x.text log
    | .ok x, some path => writeScaffold path file x log

def tokens [Monad m] [FileAccess m] (s : Session) (file : String) : m Outcome := do
  match ← Document.load file with
  | .error e => return failWith e []
  | .ok d => return .ok (jsonText (.array ((s.tokens d).map tokenJson))) []

/-- Looks for the server even where the configuration leaves it disabled. -/
def locateServer [Monad m] [FileAccess m] (home : Option String) (c : Config) : m Outcome := do
  let (s, l) ← Session.start FileAccess.isFile home
    { c with server := { c.server with enable := true } }
  let log := (l.map Log.lookedUp).getD []
  match s.server with
  | some server => return .ok (server.program ++ "\n") log
  | none => return .refused "" log

def loadConfig [Monad m] [FileAccess m] : Option String → m (Except ToolError Config)
  | none => return .ok Config.standard
  | some path => Config.load path

def runCommand [Monad m] [FileAccess m] (home : Option String) (c : Config) :
    Command → m Outcome
  | .validate files format => validate (Session.new c) files format
  | .generate file target entry output => generate (Session.new c) file target entry output
  | .tokens file => tokens (Session.new c) file
  | .locateServer => locateServer home c

def Outcome.filtered (f : Log.Filter) (o : Outcome) : Outcome :=
  { o with log := o.log.filter f.passes }

def runInvocation [Monad m] [FileAccess m] (env : Environment) (i : Invocation) :
    m Outcome := do
  match Log.Filter.choose? env.logFilter i.verbosity with
  | none => return .brokenOff
  | some f =>
    let o ← match ← loadConfig i.config with
      | .error e => pure (failWith e [])
      | .ok c => runCommand env.home c i.command
    return o.filtered f

def versionText : String := "npeg 0.1.0\n"

def run [Monad m] [FileAccess m] (env : Environment) (args : List String) : m Outcome :=
  match request env.configFile args with
  | .run i => runInvocation env i
  | .version => return .ok versionText []
  | .help => return .ok "" []
  | .misuse => return ⟨2, "", none, []⟩

end PegKit.CommandLine
