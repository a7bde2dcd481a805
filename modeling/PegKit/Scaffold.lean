import PegKit.Scaffold.Template
import PegKit.Diagnostic

/-! Scaffolds from checked grammars. A grammar with errors gives none, whatever the target. The
entry rule is the chosen one if the grammar defines it, and else the first one that it defines. -/

namespace PegKit

/-- A grammar text and the name it is known by. -/
structure Document where
  file : String
  source : String
deriving DecidableEq, Repr

structure Scaffold where
  target : Target
  entry : String
  text : String
deriving DecidableEq, Repr

inductive ScaffoldError where
  | invalidGrammar (errors : Nat)
  | unknownTarget (requested : String)
deriving DecidableEq, Repr

def ScaffoldError.message : ScaffoldError → String
  | invalidGrammar n =>
    "cannot generate a scaffold from an invalid grammar (" ++ toString n ++
      " error(s) reported)"
  | unknownTarget name =>
    "unknown target language `" ++ name ++ "`, supported targets: " ++ Target.supported

def Target.find (name : String) : Except ScaffoldError Target :=
  match ofId? name with
  | some t => .ok t
  | none => .error (.unknownTarget name)

/-- The entry rule of a grammar that defines no rule. -/
def fallbackEntry : String := "doc"

def entryRule (r : Report) (chosen : Option String) : String :=
  match chosen.filter r.defines with
  | some rule => rule
  | none => r.ruleNames.head?.getD fallbackEntry

/-- The scaffold of a document whose check gave the report `r`. -/
def Scaffold.generate (d : Document) (r : Report) (target : String) (chosen : Option String) :
    Except ScaffoldError Scaffold :=
  if r.isValid then do
    let t ← Target.find target
    let entry := entryRule r chosen
    .ok ⟨t, entry, t.render ⟨d.source, d.file, entry⟩⟩
  else .error (.invalidGrammar r.errors.length)

end PegKit
