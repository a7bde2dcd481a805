import Mathlib.Data.List.Pairwise
import PegKit.Config
import PegKit.Proofs.RecordEntries

/-! Records by their fields. Where the fields of a record lie apart, entries with different keys
never disturb one another, and every key has a default that only an entry with this key replaces.
So it is for each record of the configuration. -/

namespace PegKit

namespace Settings.Record
variable {α : Type} {d : Record α} {r : α} {e : String × Value} {key : String}
  {reset : String → α → α}

/-- The fields of a record lie apart, and each holds what it was given last. -/
structure IsSound (d : Record α) : Prop where
  apart : d.fields.Pairwise fun f g => ∀ r a b, f.set (g.set r b) a = g.set (f.set r a) b
  overwrites : ∀ f ∈ d.fields, ∀ r a b, f.set (f.set r a) b = f.set r b

/-- `reset` puts back what the record is at the start, field by field. -/
structure IsReset (d : Record α) (reset : String → α → α) : Prop where
  field : ∀ f ∈ d.fields, ∃ x, (∀ r, reset f.name r = f.set r x) ∧ f.set d.start x = d.start
  other : ∀ key ∉ d.names, ∀ r, reset key r = r

theorem assign_cases (d : Record α) (e : String × Value) :
    (∃ f ∈ d.fields, f.name = e.1 ∧ ∀ r, d.assign r e = f.set r <$> f.read e.2) ∨
      e.1 ∉ d.names ∧
        ∀ r, d.assign r e = if d.strict then .error (.unknownField e.1 d.names) else .ok r := by
  cases hf : d.fields.find? (·.name == e.1) with
  | some f =>
    have hname : f.name = e.1 := by simpa using List.find?_some hf
    exact .inl ⟨f, List.mem_of_find?_eq_some hf, hname, fun r => by rw [assign, hf]⟩
  | none =>
    have hnames : e.1 ∉ d.names := by simpa [names] using hf
    exact .inr ⟨hnames, fun r => by rw [assign, hf]⟩

theorem assign_of_not_mem (h : e.1 ∉ d.names) (r : α) :
    d.assign r e = if d.strict then .error (.unknownField e.1 d.names) else .ok r := by
  rcases d.assign_cases e with ⟨f, hf, hname, -⟩ | ⟨-, hassign⟩
  · exact absurd (hname ▸ List.mem_map_of_mem hf) h
  · exact hassign r

/-- A key that is no field is left alone wherever it is not refused. -/
theorem ignores_of_assign {s : α} (h : e.1 ∉ d.names) (hs : d.assign r e = .ok s) :
    s = r ∧ ∀ r, d.assign r e = .ok r := by
  cases hstrict : d.strict with
  | true => simp [assign_of_not_mem h, hstrict] at hs
  | false => simp_all [assign_of_not_mem h]

theorem IsSound.set_comm (h : d.IsSound) {f g : Field α} (hf : f ∈ d.fields) (hg : g ∈ d.fields)
    (hne : f.name ≠ g.name) (r : α) (a : f.Item) (b : g.Item) :
    f.set (g.set r b) a = g.set (f.set r a) b := by
  have hsymm : Std.Symm fun f g : Field α => ∀ r a b, f.set (g.set r b) a = g.set (f.set r a) b :=
    ⟨fun f g hfg r a b => (hfg r b a).symm⟩
  exact h.apart.forall hf hg (fun hfg => hne (hfg ▸ rfl)) r a b

theorem IsSound.orderFree (h : d.IsSound) : OrderFree d.assign := by
  intro e e' hne r
  rcases d.assign_cases e with ⟨f, hf, hname, hassign⟩ | ⟨-, hassign⟩ <;>
    rcases d.assign_cases e' with ⟨g, hg, hname', hassign'⟩ | ⟨-, hassign'⟩
  · have hcomm := h.set_comm hf hg (by rwa [hname, hname'])
    simp only [hassign, hassign', toOption_map]
    cases (f.read e.2).toOption <;> cases (g.read e'.2).toOption <;> simp [hcomm]
  all_goals cases hs : d.strict <;> simp [hassign, hassign', hs]

theorem IsSound.resets (h : d.IsSound) (hreset : d.IsReset reset) : Resets d.assign reset where
  same {e r s} hs := by
    rcases d.assign_cases e with ⟨f, hf, hname, hassign⟩ | ⟨hnames, -⟩
    · obtain ⟨x, hx, -⟩ := hreset.field f hf
      rw [hassign, map_eq_ok_iff] at hs
      obtain ⟨a, -, rfl⟩ := hs
      rw [← hname, hx, hx, h.overwrites f hf]
    · rw [(ignores_of_assign hnames hs).1]
  other {key e r s} hs hne := by
    rcases d.assign_cases e with ⟨f, hf, hname, hassign⟩ | ⟨hnames, -⟩
    · rw [hassign, map_eq_ok_iff] at hs ⊢
      obtain ⟨a, ha, rfl⟩ := hs
      refine ⟨a, ha, ?_⟩
      by_cases hkey : key ∈ d.names
      · obtain ⟨g, hg, rfl⟩ := List.mem_map.1 hkey
        obtain ⟨x, hx, -⟩ := hreset.field g hg
        rw [hx, hx, h.set_comm hf hg (by rwa [hname])]
      · rw [hreset.other key hkey, hreset.other key hkey]
    · obtain ⟨rfl, hignores⟩ := ignores_of_assign hnames hs
      exact hignores _

theorem IsReset.reset_start (h : d.IsReset reset) (key : String) :
    reset key d.start = d.start := by
  by_cases hkey : key ∈ d.names
  · obtain ⟨f, hf, rfl⟩ := List.mem_map.1 hkey
    obtain ⟨x, hx, hstart⟩ := h.field f hf
    rw [hx, hstart]
  · exact h.other key hkey _

end Settings.Record

open Settings

namespace BlockComment

def fields : List String := ["open", "close"]

theorem isSound_draft : draft.IsSound where
  apart := by simp [draft]
  overwrites := by simp [draft]

end BlockComment

namespace LexicalRules

def fields : List String := ["line_comments", "block_comments", "string_delimiters", "escape"]

/-- The rules with the default under a key. A key that is not a field has nothing under it. -/
def reset : String → LexicalRules → LexicalRules
  | "line_comments", r => { r with lineComments := standard.lineComments }
  | "block_comments", r => { r with blockComments := standard.blockComments }
  | "string_delimiters", r => { r with stringDelimiters := standard.stringDelimiters }
  | "escape", r => { r with escape := standard.escape }
  | _, r => r

variable {surplus : Surplus}

theorem isSound_record : (record surplus).IsSound where
  apart := by simp [record]
  overwrites := by simp [record]

theorem isReset_record : (record surplus).IsReset reset where
  field := by
    simp only [record, List.forall_mem_cons]
    exact ⟨⟨_, fun _ => rfl, rfl⟩, ⟨_, fun _ => rfl, rfl⟩, ⟨_, fun _ => rfl, rfl⟩,
      ⟨_, fun _ => rfl, rfl⟩, by simp⟩
  other key h r := by
    fun_cases reset key r
    all_goals simp_all [Settings.Record.names, record]

end LexicalRules

namespace ServerSettings

def fields : List String := ["enable", "path", "candidates"]

def reset : String → ServerSettings → ServerSettings
  | "enable", s => { s with enable := standard.enable }
  | "path", s => { s with path := standard.path }
  | "candidates", s => { s with candidates := standard.candidates }
  | _, s => s

theorem isSound_record : record.IsSound where
  apart := by simp [record]
  overwrites := by simp [record]

theorem isReset_record : record.IsReset reset where
  field := by
    simp only [record, List.forall_mem_cons]
    exact ⟨⟨_, fun _ => rfl, rfl⟩, ⟨_, fun _ => rfl, rfl⟩, ⟨_, fun _ => rfl, rfl⟩, by simp⟩
  other key h s := by
    fun_cases reset key s
    all_goals simp_all [Settings.Record.names, record]

end ServerSettings

namespace Config

def generateFields : List String := ["default_target"]

def resetTarget : String → String → String
  | "default_target", _ => standard.defaultTarget
  | _, t => t

theorem isSound_targetRecord : targetRecord.IsSound where
  apart := by simp [targetRecord]
  overwrites := by simp [targetRecord]

theorem isReset_targetRecord : targetRecord.IsReset resetTarget where
  field := by
    simp only [targetRecord, List.forall_mem_cons]
    exact ⟨⟨_, fun _ => rfl, rfl⟩, by simp⟩
  other key h t := by
    fun_cases resetTarget key t
    all_goals simp_all [Settings.Record.names, targetRecord]

def fields : List String := ["language_server", "lexical", "generate"]

def reset : String → Config → Config
  | "language_server", c => { c with server := standard.server }
  | "lexical", c => { c with lexical := standard.lexical }
  | "generate", c => { c with defaultTarget := standard.defaultTarget }
  | _, c => c

theorem assign_lexical (c : Config) (v : Value) : record.assign c ("lexical", v) =
    (fun r => { c with lexical := r }) <$> LexicalRules.ofValue .ignored v := rfl

theorem isSound_record : record.IsSound where
  apart := by simp [record]
  overwrites := by simp [record]

theorem isReset_record : record.IsReset reset where
  field := by
    simp only [record, List.forall_mem_cons]
    exact ⟨⟨_, fun _ => rfl, rfl⟩, ⟨_, fun _ => rfl, rfl⟩, ⟨_, fun _ => rfl, rfl⟩, by simp⟩
  other key h c := by
    fun_cases reset key c
    all_goals simp_all [Settings.Record.names, record]

end Config

end PegKit
