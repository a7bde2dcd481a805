/-! The arguments of the program. Options may stand before the command or behind it, in long form
or as letters that can be run together; a value follows its option, after an equals sign or as the
next argument. Arguments are taken one by one, and the first one at fault ends the reading. -/

namespace PegKit.CommandLine

inductive Opt where
  | config
  | verbose
  | format
  | target
  | entry
  | output
  | help
  | version
deriving DecidableEq, Repr

structure OptSpec where
  opt : Opt
  long : String
  short : Option Char
  takesValue : Bool
deriving DecidableEq, Repr

inductive Format where
  | text
  | json
deriving DecidableEq, Repr

inductive CommandName where
  | validate
  | generate
  | tokens
  | locateServer
deriving DecidableEq, Repr

def CommandName.ofWord? : String → Option CommandName
  | "validate" => some .validate
  | "generate" => some .generate
  | "tokens" => some .tokens
  | "locate-server" => some .locateServer
  | _ => none

inductive Command where
  | validate (files : List String) (format : Format)
  | generate (file : String) (target entry output : Option String)
  | tokens (file : String)
  | locateServer
deriving DecidableEq, Repr

structure Invocation where
  config : Option String
  verbosity : Nat
  command : Command
deriving DecidableEq, Repr

inductive Request where
  | run (i : Invocation)
  | help
  | version
  | misuse
deriving DecidableEq, Repr

def sharedOptions : List OptSpec :=
  [⟨.config, "config", none, true⟩, ⟨.verbose, "verbose", some 'v', false⟩,
    ⟨.help, "help", some 'h', false⟩]

def topOptions : List OptSpec := ⟨.version, "version", some 'V', false⟩ :: sharedOptions

def optionsOf : CommandName → List OptSpec
  | .validate => ⟨.format, "format", none, true⟩ :: sharedOptions
  | .generate =>
    [⟨.target, "target", some 't', true⟩, ⟨.entry, "entry", some 'e', true⟩,
      ⟨.output, "output", some 'o', true⟩] ++ sharedOptions
  | .tokens | .locateServer => sharedOptions

inductive Item where
  | flag (opt : Opt)
  | setting (opt : Opt) (value : String)
  | word (s : String)
  | unreadable
deriving DecidableEq, Repr

/-- Letters run together: flags, and at the end perhaps an option with its value, which may be the
next argument. The last component says whether the next argument is still needed. -/
def letters (specs : List OptSpec) : List Char → List Item × Option Opt
  | [] => ([], none)
  | c :: rest =>
    match specs.find? (·.short == some c) with
    | none => ([.unreadable], none)
    | some spec =>
      if spec.takesValue then
        match rest with
        | [] => ([], some spec.opt)
        | '=' :: value => ([.setting spec.opt (String.ofList value)], none)
        | value => ([.setting spec.opt (String.ofList value)], none)
      else
        let (items, needed) := letters specs rest
        (.flag spec.opt :: items, needed)

def longForm (specs : List OptSpec) (text : List Char) : List Item × Option Opt :=
  let name := text.takeWhile (· ≠ '=')
  match specs.find? (·.long.toList == name), text.drop name.length with
  | none, _ => ([.unreadable], none)
  | some spec, [] =>
    if spec.takesValue then ([], some spec.opt) else ([.flag spec.opt], none)
  | some spec, _ :: value =>
    if spec.takesValue then ([.setting spec.opt (String.ofList value)], none)
    else ([.unreadable], none)

def canBeValue (arg : String) : Bool := arg = "-" || arg.toList.head? ≠ some '-'

/-- Reads arguments in order, up to the first word if `upToWord` says so. The rest begins with that
word. -/
def items (specs : List OptSpec) (upToWord : Bool) : List String → List Item × List String
  | [] => ([], [])
  | arg :: rest =>
    let read : Option (List Item × Option Opt) :=
      match arg.toList with
      | ['-', '-'] => none
      | '-' :: '-' :: text => some (longForm specs text)
      | '-' :: c :: text => some (letters specs (c :: text))
      | _ => none
    match read with
    | some (before, none) =>
      let (behind, left) := items specs upToWord rest
      (before ++ behind, left)
    | some (before, some opt) =>
      match rest with
      | [] => (before ++ [.unreadable], [])
      | value :: rest =>
        if canBeValue value then
          let (behind, left) := items specs upToWord rest
          (before ++ .setting opt value :: behind, left)
        else (before ++ [.unreadable], [])
    | none =>
      if arg = "--" then
        if upToWord then (if rest.isEmpty then [] else [.unreadable], [])
        else (rest.map .word, [])
      else if upToWord then ([], arg :: rest)
      else
        let (behind, left) := items specs upToWord rest
        (.word arg :: behind, left)

structure Given where
  settings : List (Opt × String)
  verbosity : Nat
  words : List String
deriving DecidableEq, Repr

namespace Given

def none : Given := ⟨[], 0, []⟩

def setting? (g : Given) (opt : Opt) : Option String :=
  (g.settings.find? (·.1 == opt)).map (·.2)

end Given

def formatOf? : String → Option Format
  | "text" => some .text
  | "json" => some .json
  | _ => none

/-- Whether an option can have this value: paths are not empty, and a format is a known one. -/
def admits (opt : Opt) (value : String) : Bool :=
  match opt with
  | .config | .output => !value.isEmpty
  | .format => (formatOf? value).isSome
  | _ => true

def take (wordLimit : Option Nat) (g : Given) : Item → Except Request Given
  | .flag .help => .error .help
  | .flag .version => .error .version
  | .flag _ => .ok { g with verbosity := g.verbosity + 1 }
  | .setting opt value =>
    if admits opt value && (g.setting? opt).isNone then
      .ok { g with settings := g.settings ++ [(opt, value)] }
    else .error .misuse
  | .word s =>
    if s.isEmpty || wordLimit.any (· ≤ g.words.length) then .error .misuse
    else .ok { g with words := g.words ++ [s] }
  | .unreadable => .error .misuse

def wordLimit : CommandName → Option Nat
  | .validate => none
  | .generate | .tokens => some 1
  | .locateServer => some 0

def commandOf (g : Given) : CommandName → Option Command
  | .validate =>
    if g.words.isEmpty then none
    else some (.validate g.words (((g.setting? .format).bind formatOf?).getD .text))
  | .generate =>
    g.words.head?.map fun file =>
      .generate file (g.setting? .target) (g.setting? .entry) (g.setting? .output)
  | .tokens => g.words.head?.map .tokens
  | .locateServer => some .locateServer

def helpOn : List String → Request
  | [] => .help
  | [name] => if name = "help" || (CommandName.ofWord? name).isSome then .help else .misuse
  | _ => .misuse

/-- The arguments behind the name of a command. An option that can stand on both sides counts
where it stands last, and the environment comes after both. -/
def afterName (environment : Option String) (top : Given) (name : CommandName)
    (args : List String) : Except Request Request := do
  let g ← (items (optionsOf name) false args).1.foldlM (take (wordLimit name)) Given.none
  let given := (g.setting? .config, top.setting? .config)
  if environment = some "" && (given.1.isNone || given.2.isNone) then
    .error .misuse
  else
    match commandOf g name with
    | some command =>
      return .run
        { config := (given.1 <|> given.2) <|> environment
          verbosity := if g.verbosity = 0 then top.verbosity else g.verbosity
          command }
    | none => .error .misuse

/-- Reads the arguments; `environment` is a configuration file named there. -/
def request (environment : Option String) (args : List String) : Request :=
  let result : Except Request Request := do
    let (before, rest) := items topOptions true args
    let top ← before.foldlM (take (some 0)) Given.none
    match rest with
    | [] => .error .misuse
    | word :: rest =>
      if word = "help" then return helpOn rest
      else
        match CommandName.ofWord? word with
        | some name => afterName environment top name rest
        | none => .error .misuse
  match result with
  | .ok r => r
  | .error r => r

end PegKit.CommandLine
