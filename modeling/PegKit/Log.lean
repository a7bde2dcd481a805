import PegKit.Log.Event
import PegKit.Session
import PegKit.Text.Quoted

/-! What the tools log. -/

namespace PegKit.Log

def validated (r : Report) : Event :=
  ⟨.debug, "grammar::validate", "validated grammar",
    [("rules", toString r.ruleNames.length), ("diagnostics", toString r.diagnostics.length),
      ("valid", toString r.isValid)]⟩

def entryIgnored (rule : String) : Event :=
  ⟨.warn, "scaffold", "requested entry rule is not defined, ignoring",
    [("rule", Text.quoted rule)]⟩

def generated (file : String) (s : Scaffold) : Event :=
  ⟨.debug, "scaffold", "generated scaffold",
    [("file", file), ("target", s.target.id), ("entry", Text.quoted s.entry),
      ("bytes", toString s.text.utf8ByteSize)]⟩

def shownOption : Option String → String
  | none => "None"
  | some path => "Some(" ++ Text.quoted path ++ ")"

def shownProvider : Provider → String
  | .configured path => "Configured(" ++ Text.quoted path ++ ")"
  | .fixed path => "Fixed(" ++ Text.quoted path ++ ")"
  | .homeRelative path => "HomeRelative(" ++ Text.quoted path ++ ")"

def inquired (q : Inquiry) : Event :=
  ⟨.trace, "host::discovery", "checked server candidate",
    [("provider", shownProvider q.provider), ("resolved", shownOption q.resolved)]⟩

def lookedUp (l : Lookup) : List Event :=
  l.inquiries.map inquired ++
    [⟨.debug, "host::discovery", "language server lookup finished",
      [("found", shownOption l.found)]⟩,
    match l.found with
    | some path => ⟨.info, "host::session", "using language server", [("server", path)]⟩
    | none =>
      ⟨.warn, "host::session", "language server not found, some features may not work", []⟩]

/-- The events of making a scaffold, up to where it failed. -/
def generation (d : Document) (r : Report) (chosen : Option String)
    (result : Except ToolError Scaffold) : List Event :=
  validated r ::
    match result with
    | .ok s =>
      (chosen.filter fun rule => !r.defines rule).toList.map entryIgnored ++ [generated d.file s]
    | .error _ => []

end PegKit.Log
