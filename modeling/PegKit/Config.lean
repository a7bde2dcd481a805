import PegKit.Settings.Decode
import PegKit.Toml.Document

/-! The configuration of the tools: the language server, the comment and string conventions, and
the target of scaffolds. Every part has a default, so an empty document is a configuration. A key
that no table knows is refused, except among the conventions. -/

namespace PegKit

structure ServerSettings where
  enable : Bool
  /-- A server to be used as it is, without looking whether it exists. -/
  path : Option String
  /-- Where to look, in this order, instead of the usual places. -/
  candidates : List String
deriving DecidableEq, Repr

structure Config where
  server : ServerSettings
  lexical : LexicalRules
  defaultTarget : String
deriving DecidableEq, Repr

inductive ConfigError where
  | malformed
  | unfit (e : SettingError)
deriving Repr

namespace ServerSettings

def standard : ServerSettings := ⟨false, none, []⟩

def record : Settings.Record ServerSettings where
  name := "LanguageServerConfig"
  fields := [⟨"enable", _, Settings.boolean, fun s x => { s with enable := x }⟩,
    ⟨"path", _, Settings.optional Settings.path, fun s x => { s with path := x }⟩,
    ⟨"candidates", _, Settings.list Settings.path, fun s x => { s with candidates := x }⟩]
  start := standard
  strict := true

def ofValue (v : Value) : Except SettingError ServerSettings := record.ofValue .ignored v

end ServerSettings

namespace Config

def standard : Config := ⟨ServerSettings.standard, LexicalRules.standard, "nim"⟩

instance : Inhabited Config := ⟨standard⟩

def targetRecord : Settings.Record String where
  name := "GenerateConfig"
  fields := [⟨"default_target", _, Settings.text, fun _ x => x⟩]
  start := standard.defaultTarget
  strict := true

def targetOfValue (v : Value) : Except SettingError String := targetRecord.ofValue .ignored v

def record : Settings.Record Config where
  name := "HostConfig"
  fields := [⟨"language_server", _, ServerSettings.ofValue, fun c x => { c with server := x }⟩,
    ⟨"lexical", _, LexicalRules.ofValue .ignored, fun c x => { c with lexical := x }⟩,
    ⟨"generate", _, targetOfValue, fun c x => { c with defaultTarget := x }⟩]
  start := standard
  strict := true

def ofEntries (entries : List (String × Value)) : Except SettingError Config :=
  entries.foldlM record.assign record.start

def parse (source : String) : Except ConfigError Config :=
  match Toml.parse source with
  | none => .error .malformed
  | some entries => (ofEntries (Toml.entryValues entries)).mapError .unfit

end Config

end PegKit
