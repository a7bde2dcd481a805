import PegKit.Proofs.DistinctKeys
import PegKit.Proofs.RecordFields

/-! The order of the keys in a table. Two values that differ only in it are read alike: both are
refused, or both are accepted with the same result. -/

namespace PegKit

open Toml

namespace Toml

/-- The same value, up to the order of the entries in each of its tables. -/
inductive Reordered : Datum → Datum → Prop where
  | refl (d : Datum) : Reordered d d
  | list {ds ds' : List Datum} (hitems : List.Forall₂ Reordered ds ds') :
      Reordered (.list ds) (.list ds')
  | table {es fs gs : List (String × Datum)} (hkeys : es.map Prod.fst = fs.map Prod.fst)
      (hvalues : List.Forall₂ Reordered (es.map Prod.snd) (fs.map Prod.snd)) (hperm : fs.Perm gs) :
      Reordered (.table es) (.table gs)

end Toml

namespace Settings

variable {α : Type}

/-- The order of keys does not matter to a reader. -/
def Respects (reader : Value → Except SettingError α) : Prop :=
  ∀ {d d' : Datum}, d.HasDistinctKeys → Reordered d d' →
    (reader d'.value).toOption = (reader d.value).toOption

theorem respects_boolean : Respects boolean := by
  intro d d' _ h
  cases h <;> rfl

theorem respects_text : Respects text := by
  intro d d' _ h
  cases h <;> rfl

theorem respects_path : Respects path := by
  intro d d' _ h
  cases h <;> rfl

theorem respects_character : Respects character := by
  intro d d' _ h
  cases h <;> rfl

theorem optional_value (reader : Value → Except SettingError α) (d : Datum) :
    optional reader d.value = some <$> reader d.value := by
  cases d <;> rfl

theorem respects_optional {reader : Value → Except SettingError α} (h : Respects reader) :
    Respects (optional reader) := by
  intro d d' hd hsame
  simp only [optional_value, toOption_map, h hd hsame]

theorem respects_list {item : Value → Except SettingError α} (h : Respects item) :
    Respects (list item) := by
  intro d d' hd hsame
  cases hsame with
  | refl => rfl
  | table => rfl
  | list hitems =>
    cases hd with | list hds =>
    simp only [Datum.value, list, itemValues_eq_map]
    induction hitems with
    | nil => rfl
    | cons hfirst _ ih =>
      simp only [List.forall_mem_cons] at hds
      simp only [List.map_cons, List.mapM_cons, toOption_bind, toOption_pure, h hds.1 hfirst,
        ih hds.2]

/-- The order of keys inside a value does not matter to what an entry with this value does. -/
def RespectsEach (assign : α → String × Value → Except SettingError α) : Prop :=
  ∀ key r, Respects fun v => assign r (key, v)

section

variable {assign : α → String × Value → Except SettingError α}

theorem filled_zip (heach : RespectsEach assign) (keys : List String) {ds ds' : List Datum}
    (hds : ∀ d ∈ ds, d.HasDistinctKeys) (hitems : List.Forall₂ Reordered ds ds') (r : α) :
    filled assign r (keys.zip (itemValues ds')) = filled assign r (keys.zip (itemValues ds)) := by
  induction hitems generalizing keys r with
  | nil => rfl
  | cons hfirst _ ih =>
    cases keys with
    | nil => rfl
    | cons key keys =>
      simp only [List.forall_mem_cons] at hds
      simp only [itemValues, List.zip_cons_cons, filled_cons, heach key r hds.1 hfirst,
        ih keys hds.2]

theorem entryValues_eq_zip (es : List (String × Datum)) :
    entryValues es = (es.map Prod.fst).zip (itemValues (es.map Prod.snd)) := by
  induction es with
  | nil => rfl
  | cons e es ih => simp [entryValues, itemValues, ih]

theorem keys_entryValues (es : List (String × Datum)) :
    (entryValues es).map Prod.fst = es.map Prod.fst := by
  simp [entryValues_eq_map, Function.comp_def]

theorem filled_reordered (hfree : OrderFree assign) (heach : RespectsEach assign)
    {es gs : List (String × Datum)} (hes : (Datum.table es).HasDistinctKeys)
    (h : Reordered (.table es) (.table gs)) (r : α) :
    filled assign r (entryValues gs) = filled assign r (entryValues es) := by
  cases hes with | table hnodup hvalues' =>
  cases h with
  | refl => rfl
  | @table es fs gs hkeys hvalues hperm =>
    -- first `fs` for `es`, place by place with the same keys, then the permutation
    have hperm' : (entryValues fs).Perm (entryValues gs) := by
      simpa only [entryValues_eq_map] using hperm.map _
    have hnodup' : ((entryValues fs).map Prod.fst).Nodup := by
      rwa [keys_entryValues, ← hkeys]
    have hds : ∀ d ∈ es.map Prod.snd, d.HasDistinctKeys := by
      simpa using fun d key h => hvalues' (key, d) h
    rw [filled_perm hfree hperm' hnodup', entryValues_eq_zip fs, entryValues_eq_zip es, ← hkeys]
    exact filled_zip heach _ hds hvalues r

end

namespace Record
variable {d : Record α}

theorem respectsEach (h : ∀ f ∈ d.fields, Respects f.read) : RespectsEach d.assign := by
  intro key r x x' hx hsame
  have hread : ∀ f ∈ d.fields, (f.read x'.value).toOption = (f.read x.value).toOption :=
    fun f hf => h f hf hx hsame
  simp only [assign]
  split
  · next f hf => simp [hread f (List.mem_of_find?_eq_some hf)]
  · rfl

theorem toOption_fill (v : Value) :
    (d.fill v).toOption = (d.entries v).toOption.bind (filled d.assign d.start) := by
  simp only [fill, toOption_bind]
  rfl

theorem respects_fill (hd : d.IsSound) (h : ∀ f ∈ d.fields, Respects f.read) : Respects d.fill := by
  intro x x' hx hsame
  rw [toOption_fill, toOption_fill]
  cases hsame with
  | refl => rfl
  | list hitems =>
    cases hx with | list hds =>
    exact filled_zip (respectsEach h) d.names hds hitems d.start
  | table hkeys hvalues hperm =>
    exact filled_reordered hd.orderFree (respectsEach h) hx (.table hkeys hvalues hperm) d.start

theorem checkSurplus_ignored (v : Value) : d.checkSurplus .ignored v = .ok () := by
  cases v <;> simp [checkSurplus]

theorem toOption_ofValue (v : Value) : (d.ofValue .ignored v).toOption = (d.fill v).toOption := by
  simp only [ofValue, checkSurplus_ignored, toOption_bind, toOption_ok, Option.bind_some,
    Option.bind_fun_some]

theorem respects_ofValue (hd : d.IsSound) (h : ∀ f ∈ d.fields, Respects f.read) :
    Respects (d.ofValue .ignored) := by
  intro x x' hx hsame
  rw [toOption_ofValue, toOption_ofValue, respects_fill hd h hx hsame]

end Record

end Settings

open Settings

namespace BlockComment

/-- Both texts, if both were given. -/
def both (b : Option String × Option String) : Option BlockComment :=
  b.1.bind fun opening => b.2.map fun closing => ⟨opening, closing⟩

theorem toOption_ofValue (v : Value) :
    (ofValue .ignored v).toOption = (draft.fill v).toOption.bind both := by
  simp only [ofValue, Record.checkSurplus_ignored, toOption_bind]
  cases (draft.fill v).toOption with
  | none => rfl
  | some b => rcases b with ⟨_ | _, _ | _⟩ <;> rfl

theorem respects : Respects (ofValue .ignored) := by
  intro d d' hd hsame
  have hread : ∀ f ∈ draft.fields, Respects f.read := by simp [draft, respects_text]
  rw [toOption_ofValue, toOption_ofValue, Record.respects_fill isSound_draft hread hd hsame]

end BlockComment

namespace LexicalRules

theorem respects : Respects (ofValue .ignored) := by
  refine Record.respects_ofValue isSound_record ?_
  simp [record, respects_list, respects_optional, respects_text, respects_character,
    BlockComment.respects]

end LexicalRules

namespace ServerSettings

theorem respects : Respects ofValue := by
  refine Record.respects_ofValue isSound_record ?_
  simp [record, respects_list, respects_optional, respects_boolean, respects_path]

end ServerSettings

namespace Config

theorem respects_targetOfValue : Respects targetOfValue := by
  refine Record.respects_ofValue isSound_targetRecord ?_
  simp [targetRecord, respects_text]

theorem respectsEach : RespectsEach record.assign := by
  refine Record.respectsEach ?_
  simp [record, ServerSettings.respects, LexicalRules.respects, respects_targetOfValue]

theorem toOption_parse {source : String} {es : List (String × Datum)}
    (h : Toml.parse source = some es) :
    (parse source).toOption = filled record.assign standard (entryValues es) := by
  simp only [parse, h, filled, ofEntries]
  change _ = ((entryValues es).foldlM record.assign record.start).toOption
  cases (entryValues es).foldlM record.assign record.start <;> rfl

end Config

end PegKit
