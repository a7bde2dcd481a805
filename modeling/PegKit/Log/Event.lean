/-! What a log holds. An event has a level, a message and fields, and belongs to a component. -/

namespace PegKit.Log

inductive Level where
  | error
  | warn
  | info
  | debug
  | trace
deriving DecidableEq, Repr

namespace Level

def label : Level → String
  | error => "ERROR"
  | warn => "WARN"
  | info => "INFO"
  | debug => "DEBUG"
  | trace => "TRACE"

def rank : Level → Nat
  | error => 1
  | warn => 2
  | info => 3
  | debug => 4
  | trace => 5

/-- The name of the threshold that so many requests for more output ask for. -/
def forVerbosity : Nat → String
  | 0 => "warn"
  | 1 => "info"
  | 2 => "debug"
  | _ => "trace"

end Level

structure Event where
  level : Level
  component : String
  message : String
  fields : List (String × String)
deriving DecidableEq, Repr

namespace Event

def line (e : Event) : String :=
  e.level.label ++ " " ++ e.message ++
    String.join (e.fields.map fun (name, value) => " " ++ name ++ "=" ++ value)

/-- Whether the event has a field of some name; its message is one too. -/
def hasField (e : Event) (name : String) : Bool :=
  name == "message" || e.fields.any (·.1 == name)

end Event

end PegKit.Log
