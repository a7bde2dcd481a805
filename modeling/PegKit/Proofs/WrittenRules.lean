import PegKit.Proofs.KeyOrder
import PegKit.Proofs.TomlWriter
import PegKit.Config

/-! Comment and string conventions in a configuration. There is a document for all that have an
escape character; none turns the escape off, as TOML has no null and a key that is left out stands
for its default. -/

namespace PegKit

open Toml Settings

namespace Settings

theorem list_map {α β : Type} {item : Value → Except SettingError β} {f : α → Datum} {g : α → β}
    (h : ∀ a, item (f a).value = .ok (g a)) (as : List α) :
    list item (Datum.list (as.map f)).value = .ok (as.map g) := by
  rw [Datum.value, list, itemValues_eq_map, List.map_map]
  induction as with
  | nil => rfl
  | cons a as ih =>
    rw [List.map_cons, List.mapM_cons, Function.comp_apply, h, ih]
    rfl

/-- Every entry of a record in a document has a value from the document. -/
theorem exists_value_of_mem_entries {α : Type} {r : Record α} {d : Datum}
    {es : List (String × Value)} (h : r.entries d.value = .ok es) :
    ∀ e ∈ es, ∃ d : Datum, e.2 = d.value := by
  cases d with
  | list items =>
    cases h
    intro e he
    obtain ⟨-, hitem⟩ := List.of_mem_zip he
    rw [itemValues_eq_map] at hitem
    obtain ⟨d, -, hd⟩ := List.mem_map.mp hitem
    exact ⟨d, hd.symm⟩
  | table es =>
    cases h
    rw [entryValues_eq_map]
    intro e he
    obtain ⟨e, -, rfl⟩ := List.mem_map.mp he
    exact ⟨e.2, rfl⟩
  | moment shown =>
    cases h
    simp only [List.forall_mem_singleton]
    exact ⟨.text shown, rfl⟩
  | boolean | integer | float | text => cases h

end Settings

namespace BlockComment

def rows (b : BlockComment) : List Row :=
  [⟨"open", stringText b.opening, .text b.opening⟩,
   ⟨"close", stringText b.closing, .text b.closing⟩]

theorem ofValue_rows (b : BlockComment) :
    ofValue .ignored (Datum.table (b.rows.map Row.entry)).value = .ok b := rfl

theorem isBareName_of_mem_fields : ∀ name ∈ fields, IsBareName name := by
  simp only [fields, List.forall_mem_cons]
  exact ⟨⟨by decide, by decide⟩, ⟨by decide, by decide⟩, by simp⟩

theorem isSound_rows (depth : Nat) (b : BlockComment) :
    ∀ row ∈ b.rows, row.IsSound (Toml.value depth) := by
  simp only [rows, List.forall_mem_cons]
  exact ⟨⟨isBareName_of_mem_fields _ (by simp [fields]), writes_string _ _⟩,
    ⟨isBareName_of_mem_fields _ (by simp [fields]), writes_string _ _⟩, by simp⟩

end BlockComment

namespace LexicalRules

def rows (r : LexicalRules) (escape : Char) : List Row :=
  [⟨"line_comments", arrayText (r.lineComments.map stringText), .list (r.lineComments.map .text)⟩,
   ⟨"block_comments", arrayText (r.blockComments.map fun b => inlineTableText b.rows),
      .list (r.blockComments.map fun b => .table (b.rows.map Row.entry))⟩,
   ⟨"string_delimiters", arrayText (r.stringDelimiters.map fun c => stringText (String.singleton c)),
      .list (r.stringDelimiters.map fun c => .text (String.singleton c))⟩,
   ⟨"escape", stringText (String.singleton escape), .text (String.singleton escape)⟩]

theorem isBareName_of_mem_fields : ∀ name ∈ fields, IsBareName name := by
  simp only [fields, List.forall_mem_cons]
  exact ⟨⟨by decide, by decide⟩, ⟨by decide, by decide⟩, ⟨by decide, by decide⟩,
    ⟨by decide, by decide⟩, by simp⟩

theorem isSound_rows (r : LexicalRules) (escape : Char) :
    ∀ row ∈ r.rows escape, row.IsSound (Toml.value (nestingLimit - 1)) := by
  have hbare := isBareName_of_mem_fields
  change ∀ row ∈ r.rows escape, row.IsSound (Toml.value (77 + 1 + 1))
  simp only [rows, List.forall_mem_cons]
  refine ⟨⟨hbare _ (by simp [fields]), writes_array fun s _ => writes_string _ s⟩,
    ⟨hbare _ (by simp [fields]), writes_array fun b _ => ?_⟩,
    ⟨hbare _ (by simp [fields]), writes_array fun c _ => writes_string _ _⟩,
    ⟨hbare _ (by simp [fields]), writes_string _ _⟩, by simp⟩
  exact writes_inlineTable (b.isSound_rows 77) (by simp [BlockComment.rows])
    (by simp [BlockComment.rows])

theorem character_singleton (c : Char) :
    character (Datum.text (String.singleton c)).value = .ok c := by
  simp [Datum.value, character]

theorem ofValue_rows (r : LexicalRules) (escape : Char) :
    ofValue .ignored (Datum.table ((r.rows escape).map Row.entry)).value =
      .ok { r with escape := some escape } := by
  have hlines : list text (Datum.list (r.lineComments.map .text)).value = .ok r.lineComments := by
    simpa using list_map (f := Datum.text) (g := id) (fun _ => by rfl) r.lineComments
  have hblocks := list_map BlockComment.ofValue_rows r.blockComments
  have hdelimiters := list_map character_singleton r.stringDelimiters
  have hescape := character_singleton escape
  rw [List.map_id'] at hblocks hdelimiters
  have hgiven : optional character (Datum.text (String.singleton escape)).value =
      .ok (some escape) := by
    simp [optional_value, hescape]
  rw [← toOption_eq_some_iff, ofValue, Record.toOption_ofValue, Record.toOption_fill]
  simp only [rows, Row.entry, List.map_cons, List.map_nil]
  rw [Datum.value]
  simp [Record.entries, entryValues, Record.assign, record, hlines, hblocks, hdelimiters, hgiven]

theorem escape_isSome_of_assign {r s : LexicalRules} {e : String × Value} {d : Datum}
    (hd : e.2 = d.value) (h : (record .ignored).assign r e = .ok s) (hr : r.escape.isSome) :
    s.escape.isSome := by
  rcases (record .ignored).assign_cases e with ⟨f, hf, -, hassign⟩ | ⟨hnames, -⟩
  · rw [hassign, hd, map_eq_ok_iff] at h
    obtain ⟨x, hx, rfl⟩ := h
    simp only [record, List.mem_cons, List.not_mem_nil, or_false] at hf
    rcases hf with rfl | rfl | rfl | rfl
    case inr.inr.inr =>
      -- the one field that sets the escape: there is no null in a document
      replace hx := (optional_value character d).symm.trans hx
      rw [map_eq_ok_iff] at hx
      obtain ⟨c, -, rfl⟩ := hx
      rfl
    all_goals exact hr
  · rwa [(Record.ignores_of_assign hnames h).1]

theorem escape_isSome_of_ofValue {d : Datum} {r : LexicalRules}
    (h : ofValue .ignored d.value = .ok r) : r.escape.isSome := by
  rw [← toOption_eq_some_iff, ofValue, Record.toOption_ofValue, Record.toOption_fill] at h
  obtain ⟨es, hes, hfilled⟩ := Option.bind_eq_some_iff.mp h
  have hvalues := exists_value_of_mem_entries (toOption_eq_some_iff.mp hes)
  refine filled_invariant (·.escape.isSome) rfl (fun e he r s hstep hr => ?_) hfilled
  obtain ⟨d, hd⟩ := hvalues e he
  exact escape_isSome_of_assign hd hstep hr

end LexicalRules

namespace Config

/-- A document with one table, for these rules with this escape character. -/
def lexicalText (r : LexicalRules) (escape : Char) : String :=
  String.ofList (sectionText "lexical" (r.rows escape))

theorem parse_lexicalText (r : LexicalRules) (escape : Char) :
    Toml.parse (lexicalText r escape) =
      some [("lexical", .table ((r.rows escape).map Row.entry))] := by
  have hbare : IsBareName "lexical" := ⟨by decide, by decide⟩
  exact parse_sectionText hbare (r.isSound_rows escape) (by simp [LexicalRules.rows])

theorem config_lexicalText (r : LexicalRules) (escape : Char) :
    parse (lexicalText r escape) =
      .ok { standard with lexical := { r with escape := some escape } } := by
  rw [parse, parse_lexicalText]
  simp only [ofEntries, entryValues, List.foldlM_cons, assign_lexical, LexicalRules.ofValue_rows]
  rfl

theorem escape_isSome_of_assign {c c' : Config} {e : String × Value} {d : Datum}
    (hd : e.2 = d.value) (h : record.assign c e = .ok c') (hc : c.lexical.escape.isSome) :
    c'.lexical.escape.isSome := by
  rcases record.assign_cases e with ⟨f, hf, -, hassign⟩ | ⟨hnames, -⟩
  · rw [hassign, hd, map_eq_ok_iff] at h
    obtain ⟨x, hx, rfl⟩ := h
    simp only [record, List.mem_cons, List.not_mem_nil, or_false] at hf
    rcases hf with rfl | rfl | rfl
    case inr.inl => exact LexicalRules.escape_isSome_of_ofValue hx
    all_goals exact hc
  · rwa [(Record.ignores_of_assign hnames h).1]

theorem escape_isSome_of_parse {source : String} {c : Config} (h : parse source = .ok c) :
    c.lexical.escape.isSome := by
  cases hes : Toml.parse source with
  | none => simp [parse, hes] at h
  | some es =>
    rw [← toOption_eq_some_iff, toOption_parse hes] at h
    refine filled_invariant (·.lexical.escape.isSome) rfl (fun e he c c' hstep hc => ?_) h
    rw [entryValues_eq_map] at he
    obtain ⟨⟨key, d⟩, -, rfl⟩ := List.mem_map.mp he
    exact escape_isSome_of_assign rfl hstep hc

/-- The conventions that documents can give are those with an escape character: every accepted
document has one, and for all others there is a document with a single table that gives them. -/
theorem lexical_configurable :
    (∀ source c, parse source = .ok c → c.lexical.escape.isSome) ∧
      ∀ r : LexicalRules, r.escape.isSome → ∃ source entries,
        Toml.parse source = some [("lexical", .table entries)] ∧
          parse source = .ok { standard with lexical := r } := by
  refine ⟨fun source c => escape_isSome_of_parse, fun r hr => ?_⟩
  obtain ⟨escape, hescape⟩ := Option.isSome_iff_exists.mp hr
  refine ⟨lexicalText r escape, _, parse_lexicalText r escape, ?_⟩
  rw [config_lexicalText, ← hescape]

/-- The standard conventions without an escape are not among them. -/
theorem not_exists_parse_standard_unescaped :
    ¬ ∃ source c, parse source = .ok c ∧
      c.lexical = { LexicalRules.standard with escape := none } := by
  rintro ⟨source, c, hc, hlexical⟩
  have hescape := escape_isSome_of_parse hc
  rw [hlexical] at hescape
  cases hescape

end Config

end PegKit
