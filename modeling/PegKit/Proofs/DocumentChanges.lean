import Mathlib
import PegKit.Proofs.KeyOrder

/-! Documents that differ by one change, and what the change does to the configuration: the order
of keys does nothing, a key that no table knows is fatal or ignored, depending on the table, and a
key that is taken out gives its field the default. -/

namespace PegKit

open Toml Settings

namespace Toml

abbrev Table := List (String × Datum)

/-- `es'` is `es` with one more entry, under this key. -/
def OneMore (key : String) (es es' : Table) : Prop :=
  ∃ before d after, es = before ++ after ∧ es' = before ++ (key, d) :: after

/-- Between other entries the table `ts` stands under a key. An empty table may be left out. -/
inductive TableAt (key : String) (before after : Table) : Table → Table → Prop where
  | present (ts : Table) : TableAt key before after ts (before ++ (key, .table ts) :: after)
  | absent (h : key ∉ (before ++ after).map Prod.fst) :
      TableAt key before after [] (before ++ after)

def Within (key : String) (change : Table → Table → Prop) (es es' : Table) : Prop :=
  ∃ before after ts ts', TableAt key before after ts es ∧ TableAt key before after ts' es' ∧
    change ts ts'

def AtKey (key : String) (change : Datum → Datum → Prop) (es es' : Table) : Prop :=
  ∃ before d d' after, es = before ++ (key, d) :: after ∧ es' = before ++ (key, d') :: after ∧
    change d d'

def ItemTable (change : Table → Table → Prop) (d d' : Datum) : Prop :=
  ∃ before ts ts' after, d = .list (before ++ .table ts :: after) ∧
    d' = .list (before ++ .table ts' :: after) ∧ change ts ts'

/-- Only one table of a block comment differs. The conventions around it may be a list. -/
inductive InBlockComment (change : Table → Table → Prop) : Datum → Datum → Prop where
  | ofTable {ts ts' : Table} (h : AtKey "block_comments" (ItemTable change) ts ts') :
      InBlockComment change (.table ts) (.table ts')
  | ofList {d d' : Datum} (lines : Datum) (others : List Datum) (h : ItemTable change d d') :
      InBlockComment change (.list (lines :: d :: others)) (.list (lines :: d' :: others))

theorem entryValues_append (es fs : Table) :
    entryValues (es ++ fs) = entryValues es ++ entryValues fs := by
  simp [entryValues_eq_map]

variable {key : String} {before after ts es : Table}

theorem TableAt.nodup_table (h : TableAt key before after ts es)
    (hes : (Datum.table es).HasDistinctKeys) : (ts.map Prod.fst).Nodup := by
  cases h with
  | absent => exact List.nodup_nil
  | present =>
    cases hes with | table _ hvalues =>
    have hts := hvalues (key, .table ts) (by simp)
    cases hts with | table hnodup _ => exact hnodup

theorem TableAt.nodup_present (h : TableAt key before after ts es)
    (hes : (Datum.table es).HasDistinctKeys) :
    ((before ++ (key, .table ts) :: after).map Prod.fst).Nodup := by
  cases hes with | table hnodup _ =>
  cases h with
  | present => exact hnodup
  | absent hkey =>
    rw [List.map_append, List.map_cons, List.nodup_middle, List.nodup_cons, ← List.map_append]
    exact ⟨hkey, hnodup⟩

end Toml

namespace Settings

variable {α : Type} {d : Record α} {reset : String → α → α} {r s : α} {key : String}
  {ts ts' : Table}

theorem filled_of_oneMore_ignored {assign : α → String × Value → Except SettingError α}
    (h : ∀ r v, assign r (key, v) = .ok r) (hone : OneMore key ts ts') :
    filled assign r (entryValues ts') = filled assign r (entryValues ts) := by
  obtain ⟨before, d, after, rfl, rfl⟩ := hone
  simp only [entryValues_append, entryValues]
  exact filled_insert_ignored (h · _)

theorem filled_of_oneMore_refused {assign : α → String × Value → Except SettingError α}
    (h : ∀ r v, (assign r (key, v)).toOption = none) (hone : OneMore key ts ts') :
    filled assign r (entryValues ts') = none := by
  obtain ⟨before, d, after, rfl, rfl⟩ := hone
  simp only [entryValues_append, entryValues]
  exact filled_insert_refused (h · _)

theorem filled_of_oneLess (hd : d.IsSound) (hreset : d.IsReset reset)
    (hnodup : (ts.map Prod.fst).Nodup) (hone : OneMore key ts' ts)
    (h : filled d.assign d.start (entryValues ts) = some s) :
    filled d.assign d.start (entryValues ts') = some (reset key s) := by
  obtain ⟨before, x, after, rfl, rfl⟩ := hone
  rw [← keys_entryValues] at hnodup
  simp only [entryValues_append, entryValues] at hnodup h ⊢
  exact filled_remove hd.orderFree (hd.resets hreset) (hreset.reset_start key) hnodup h

namespace Record

theorem assign_of_ignored (hkey : key ∉ d.names) (hstrict : d.strict = false) (r : α) (v : Value) :
    d.assign r (key, v) = .ok r := by
  simp [assign_of_not_mem (e := (key, v)) hkey, hstrict]

theorem assign_of_refused (hkey : key ∉ d.names) (hstrict : d.strict = true) (r : α) (v : Value) :
    (d.assign r (key, v)).toOption = none := by
  simp [assign_of_not_mem (e := (key, v)) hkey, hstrict]

theorem toOption_fill_table (vs : List (String × Value)) :
    (d.fill (.table vs)).toOption = filled d.assign d.start vs := by
  rw [toOption_fill]
  rfl

theorem fill_of_oneMore_ignored (hkey : key ∉ d.names) (hstrict : d.strict = false)
    (hone : OneMore key ts ts') :
    (d.fill (.table (entryValues ts'))).toOption = (d.fill (.table (entryValues ts))).toOption := by
  rw [toOption_fill_table, toOption_fill_table]
  exact filled_of_oneMore_ignored (assign_of_ignored hkey hstrict) hone

theorem ofValue_of_oneMore_refused (hkey : key ∉ d.names) (hstrict : d.strict = true)
    (hone : OneMore key ts ts') :
    (d.ofValue .ignored (.table (entryValues ts'))).toOption = none := by
  rw [toOption_ofValue, toOption_fill_table]
  exact filled_of_oneMore_refused (assign_of_refused hkey hstrict) hone

theorem ofValue_of_oneLess (hd : d.IsSound) (hreset : d.IsReset reset)
    (hnodup : (ts.map Prod.fst).Nodup) (hone : OneMore key ts' ts)
    (h : d.ofValue .ignored (.table (entryValues ts)) = .ok s) :
    d.ofValue .ignored (.table (entryValues ts')) = .ok (reset key s) := by
  rw [← toOption_eq_some_iff, toOption_ofValue, toOption_fill_table] at h ⊢
  exact filled_of_oneLess hd hreset hnodup hone h

end Record

theorem list_of_itemTable {change : Table → Table → Prop}
    {item : Value → Except SettingError α} {d d' : Datum} (h : ItemTable change d d')
    (hitem : ∀ {ts ts'}, change ts ts' →
      (item (.table (entryValues ts'))).toOption = (item (.table (entryValues ts))).toOption) :
    (list item d'.value).toOption = (list item d.value).toOption := by
  obtain ⟨before, ts, ts', after, rfl, rfl, hchange⟩ := h
  simp only [Datum.value, list, itemValues_eq_map, List.map_append, List.map_cons, List.mapM_append,
    List.mapM_cons, toOption_bind, toOption_pure, hitem hchange]

end Settings

namespace BlockComment

theorem ofValue_of_oneMore {key : String} {bs bs' : Table} (hkey : key ∉ fields)
    (hone : OneMore key bs bs') :
    (ofValue .ignored (.table (entryValues bs'))).toOption =
      (ofValue .ignored (.table (entryValues bs))).toOption := by
  rw [toOption_ofValue, toOption_ofValue, Record.fill_of_oneMore_ignored hkey rfl hone]

end BlockComment

namespace LexicalRules

theorem ofValue_of_oneMore {key : String} {ts ts' : Table} (hkey : key ∉ fields)
    (hone : OneMore key ts ts') :
    (ofValue .ignored (.table (entryValues ts'))).toOption =
      (ofValue .ignored (.table (entryValues ts))).toOption := by
  rw [ofValue, ofValue, Record.toOption_ofValue, Record.toOption_ofValue,
    Record.fill_of_oneMore_ignored hkey rfl hone]

theorem ofValue_of_inBlockComment {key : String} {d d' : Datum}
    (hkey : key ∉ BlockComment.fields) (h : InBlockComment (OneMore key) d d') :
    (ofValue .ignored d'.value).toOption = (ofValue .ignored d.value).toOption := by
  have hsame {d d' : Datum} (h : ItemTable (OneMore key) d d') (r : LexicalRules) :
      ((record .ignored).assign r ("block_comments", d'.value)).toOption =
        ((record .ignored).assign r ("block_comments", d.value)).toOption := by
    have hlist := list_of_itemTable h fun hone => BlockComment.ofValue_of_oneMore hkey hone
    simp [Record.assign, record, hlist]
  rw [ofValue, ofValue, Record.toOption_ofValue, Record.toOption_ofValue, Record.toOption_fill,
    Record.toOption_fill]
  cases h with
  | ofTable h =>
    obtain ⟨before, d, d', after, rfl, rfl, h⟩ := h
    simp only [Datum.value, Record.entries, toOption_ok, Option.bind_some, entryValues_append,
      entryValues]
    exact filled_same (hsame h)
  | @ofList d d' lines others h =>
    have hnames : (record .ignored).names =
        "line_comments" :: "block_comments" :: ["string_delimiters", "escape"] := rfl
    simp only [Datum.value, itemValues, Record.entries, hnames, List.zip_cons_cons, toOption_ok,
      Option.bind_some, filled_cons, hsame h]

end LexicalRules

namespace Config

variable {source source' key : String} {es es' ts ts' before after : Table} {c : Config}

theorem parse_of_toOption_eq_none (h : Toml.parse source = some es)
    (hnone : (parse source).toOption = none) : ∃ e, parse source = .error (.unfit e) := by
  simp only [parse, h] at hnone ⊢
  cases hread : ofEntries (entryValues es) with
  | error e => exact ⟨e, rfl⟩
  | ok c => simp [hread, Except.mapError] at hnone

theorem assign_empty_table (hkey : key ∈ fields) (c : Config) :
    record.assign c (key, .table []) = .ok (c.reset key) := by
  simp only [fields, List.mem_cons, List.not_mem_nil, or_false] at hkey
  rcases hkey with rfl | rfl | rfl <;> rfl

theorem filled_tableAt (hkey : key ∈ fields) (h : TableAt key before after ts es)
    (hes : (Datum.table es).HasDistinctKeys) :
    filled record.assign standard (entryValues es) =
      filled record.assign standard
        (entryValues before ++ (key, .table (entryValues ts)) :: entryValues after) := by
  have hnodup := h.nodup_present hes
  rw [← keys_entryValues] at hnodup
  cases h with
  | present => rw [entryValues_append]; rfl
  | absent =>
    simp only [entryValues_append, entryValues, Datum.value] at hnodup ⊢
    exact (filled_insert_default isSound_record.orderFree (isSound_record.resets isReset_record)
      (isReset_record.reset_start key) hnodup (assign_empty_table hkey)).symm

section

variable {change : Table → Table → Prop}

theorem filled_within_same (hkey : key ∈ fields) (h : Within key change es es')
    (hes : (Datum.table es).HasDistinctKeys) (hes' : (Datum.table es').HasDistinctKeys)
    (hsame : ∀ {ts ts'}, change ts ts' → ∀ c,
      (record.assign c (key, .table (entryValues ts'))).toOption =
        (record.assign c (key, .table (entryValues ts))).toOption) :
    filled record.assign standard (entryValues es') =
      filled record.assign standard (entryValues es) := by
  obtain ⟨before, after, ts, ts', hts, hts', hchange⟩ := h
  rw [filled_tableAt hkey hts hes, filled_tableAt hkey hts' hes']
  exact filled_same (hsame hchange)

theorem filled_within_refused (hkey : key ∈ fields) (h : Within key change es es')
    (hes' : (Datum.table es').HasDistinctKeys)
    (hrefused : ∀ {ts ts'}, change ts ts' → ∀ c,
      (record.assign c (key, .table (entryValues ts'))).toOption = none) :
    filled record.assign standard (entryValues es') = none := by
  obtain ⟨before, after, ts, ts', -, hts', hchange⟩ := h
  rw [filled_tableAt hkey hts' hes']
  exact filled_insert_refused (hrefused hchange)

theorem filled_within_changed (f : Config → Config) (hkey : key ∈ fields)
    (h : Within key change es' es) (hes : (Datum.table es).HasDistinctKeys)
    (hes' : (Datum.table es').HasDistinctKeys)
    (hchanged : ∀ {ts ts'}, change ts' ts → (ts.map Prod.fst).Nodup → ∀ c c',
      record.assign c (key, .table (entryValues ts)) = .ok c' →
        record.assign c (key, .table (entryValues ts')) = .ok (f c'))
    (hc : filled record.assign standard (entryValues es) = some c) :
    filled record.assign standard (entryValues es') = some (f c) := by
  obtain ⟨before, after, ts', ts, hts', hts, hchange⟩ := h
  rw [filled_tableAt hkey hts hes] at hc
  rw [filled_tableAt hkey hts' hes']
  have hnodup := hts.nodup_present hes
  rw [← keys_entryValues, entryValues_append] at hnodup
  exact filled_replace isSound_record.orderFree hnodup hc (hchanged hchange (hts.nodup_table hes))

end

section

variable {α : Type} {d : Record α} {reset : String → α → α} {set : Config → α → Config}
  {k : String}

theorem filled_within_oneMore (hstrict : d.strict = true) (hk : k ∉ d.names) (hkey : key ∈ fields)
    (hassign : ∀ c v, record.assign c (key, v) = set c <$> d.ofValue .ignored v)
    (h : Within key (OneMore k) es es') (hes' : (Datum.table es').HasDistinctKeys) :
    filled record.assign standard (entryValues es') = none := by
  refine filled_within_refused hkey h hes' fun hone c => ?_
  rw [hassign, toOption_map, Record.ofValue_of_oneMore_refused hk hstrict hone, Option.map_none]

theorem filled_within_oneLess {f : Config → Config} (hd : d.IsSound) (hreset : d.IsReset reset)
    (hkey : key ∈ fields)
    (hassign : ∀ c v, record.assign c (key, v) = set c <$> d.ofValue .ignored v)
    (hf : ∀ c x, f (set c x) = set c (reset k x)) (h : Within key (OneMore k) es' es)
    (hes : (Datum.table es).HasDistinctKeys) (hes' : (Datum.table es').HasDistinctKeys)
    (hc : filled record.assign standard (entryValues es) = some c) :
    filled record.assign standard (entryValues es') = some (f c) := by
  refine filled_within_changed f hkey h hes hes' (fun hone hnodup c c' hread => ?_) hc
  rw [hassign, map_eq_ok_iff] at hread ⊢
  obtain ⟨x, hx, rfl⟩ := hread
  exact ⟨reset k x, Record.ofValue_of_oneLess hd hreset hnodup hone hx, (hf c x).symm⟩

end

/-- What a change of a document does to its configuration. The order of the keys in any of its
tables does nothing, nor does a key among the conventions or in a block comment that is no field
there. Any other key that is no field is fatal. A key that is taken out gives its field the default
and leaves the others as they are. -/
theorem parse_of_changed (h : Toml.parse source = some es) (h' : Toml.parse source' = some es') :
    (Reordered (.table es) (.table es') → (parse source').toOption = (parse source).toOption) ∧
    (∀ key ∉ LexicalRules.fields, Within "lexical" (OneMore key) es es' →
      (parse source').toOption = (parse source).toOption) ∧
    (∀ key ∉ BlockComment.fields, AtKey "lexical" (InBlockComment (OneMore key)) es es' →
      (parse source').toOption = (parse source).toOption) ∧
    (∀ key ∉ fields, OneMore key es es' → ∃ e, parse source' = .error (.unfit e)) ∧
    (∀ key ∉ ServerSettings.fields, Within "language_server" (OneMore key) es es' →
      ∃ e, parse source' = .error (.unfit e)) ∧
    (∀ key ∉ generateFields, Within "generate" (OneMore key) es es' →
      ∃ e, parse source' = .error (.unfit e)) ∧
    ∀ c, parse source = .ok c → ∀ key,
      (OneMore key es' es → parse source' = .ok (c.reset key)) ∧
      (Within "language_server" (OneMore key) es' es →
        parse source' = .ok { c with server := c.server.reset key }) ∧
      (Within "lexical" (OneMore key) es' es →
        parse source' = .ok { c with lexical := c.lexical.reset key }) ∧
      (Within "generate" (OneMore key) es' es →
        parse source' = .ok { c with defaultTarget := resetTarget key c.defaultTarget }) := by
  have hes := hasDistinctKeys_parse h
  have hes' := hasDistinctKeys_parse h'
  have hnodup : (es.map Prod.fst).Nodup := by cases hes; assumption
  rw [toOption_parse h, toOption_parse h']
  -- each part reads the two tables; `filled` does not depend on where in them an entry stands
  refine ⟨?order, ?conventions, ?blockComment, ?top, ?server, ?generate, ?less⟩
  case order =>
    exact fun hsame => filled_reordered isSound_record.orderFree respectsEach hes hsame standard
  case conventions =>
    intro key hkey hwithin
    refine filled_within_same (by decide) hwithin hes hes' fun hone c => ?_
    rw [assign_lexical, assign_lexical, toOption_map, toOption_map,
      LexicalRules.ofValue_of_oneMore hkey hone]
  case blockComment =>
    rintro key hkey ⟨before, d, d', after, rfl, rfl, hd⟩
    simp only [entryValues_append, entryValues]
    refine filled_same fun c => ?_
    rw [assign_lexical, assign_lexical, toOption_map, toOption_map,
      LexicalRules.ofValue_of_inBlockComment hkey hd]
  case top =>
    intro key hkey hone
    refine parse_of_toOption_eq_none h' ?_
    rw [toOption_parse h']
    exact filled_of_oneMore_refused (Record.assign_of_refused hkey rfl) hone
  case server =>
    intro key hkey hwithin
    refine parse_of_toOption_eq_none h' ?_
    rw [toOption_parse h']
    exact filled_within_oneMore (d := ServerSettings.record) rfl hkey (by decide)
      (fun _ _ => rfl) hwithin hes'
  case generate =>
    intro key hkey hwithin
    refine parse_of_toOption_eq_none h' ?_
    rw [toOption_parse h']
    exact filled_within_oneMore (d := targetRecord) rfl hkey (by decide) (fun _ _ => rfl)
      hwithin hes'
  case less =>
    intro c hc key
    rw [← toOption_eq_some_iff, toOption_parse h] at hc
    simp only [← toOption_eq_some_iff (x := parse source'), toOption_parse h']
    refine ⟨fun hone => ?_, fun hwithin => ?_, fun hwithin => ?_, fun hwithin => ?_⟩
    · exact filled_of_oneLess isSound_record isReset_record hnodup hone hc
    · exact filled_within_oneLess (f := fun c => { c with server := c.server.reset key })
        ServerSettings.isSound_record ServerSettings.isReset_record (by decide) (fun _ _ => rfl)
        (fun _ _ => rfl) hwithin hes hes' hc
    · exact filled_within_oneLess (f := fun c => { c with lexical := c.lexical.reset key })
        LexicalRules.isSound_record LexicalRules.isReset_record (by decide) (fun _ _ => rfl)
        (fun _ _ => rfl) hwithin hes hes' hc
    · exact filled_within_oneLess
        (f := fun c => { c with defaultTarget := resetTarget key c.defaultTarget })
        isSound_targetRecord isReset_targetRecord (by decide) (fun _ _ => rfl)
        (fun _ _ => rfl) hwithin hes hes' hc

/-- A target and an escape: in the other order, with a key more among the conventions, with a key
more beside the target, and without the escape. -/
theorem parse_of_changed_escape :
    (parse "[lexical]\nescape='!'\n[generate]\ndefault_target='c'\n").toOption =
      (parse "generate.default_target='c'\n[lexical]\nescape='!'\n").toOption ∧
    (parse "generate.default_target='c'\n[lexical]\nescape='!'\nn=true\n").toOption =
      (parse "generate.default_target='c'\n[lexical]\nescape='!'\n").toOption ∧
    (∃ e, parse "generate.default_target='c'\ngenerate.n=true\n[lexical]\nescape='!'\n" =
      .error (.unfit e)) ∧
    parse "generate.default_target='c'\n[lexical]\n" =
      .ok { standard with defaultTarget := "c" } := by
  let target : String × Datum := ("generate", .table [("default_target", .text "c")])
  let escape : String × Datum := ("lexical", .table [("escape", .text "!")])
  have hfirst : Toml.parse "generate.default_target='c'\n[lexical]\nescape='!'\n" =
      some [target, escape] := by cbv
  have hswapped : Toml.parse "[lexical]\nescape='!'\n[generate]\ndefault_target='c'\n" =
      some [escape, target] := by cbv
  have hignored : Toml.parse "generate.default_target='c'\n[lexical]\nescape='!'\nn=true\n" =
      some [target, ("lexical", .table [("escape", .text "!"), ("n", .boolean true)])] := by cbv
  have hrefused :
      Toml.parse "generate.default_target='c'\ngenerate.n=true\n[lexical]\nescape='!'\n" =
        some [("generate", .table [("default_target", .text "c"), ("n", .boolean true)]),
          escape] := by
    cbv
  have hless : Toml.parse "generate.default_target='c'\n[lexical]\n" =
      some [target, ("lexical", .table [])] := by cbv
  have haccepted : parse "generate.default_target='c'\n[lexical]\nescape='!'\n" =
      .ok { standard with
            lexical := { LexicalRules.standard with escape := some '!' }
            defaultTarget := "c" } := by
    cbv
  refine ⟨(parse_of_changed hfirst hswapped).1 ?order,
    (parse_of_changed hfirst hignored).2.1 "n" (by decide) ?ignored,
    (parse_of_changed hfirst hrefused).2.2.2.2.2.1 "n" (by decide) ?refused,
    ((parse_of_changed hfirst hless).2.2.2.2.2.2 _ haccepted "escape").2.2.1 ?less⟩
  case order =>
    exact .table rfl (.cons (.refl _) (.cons (.refl _) .nil)) (.swap escape target [])
  case ignored =>
    exact ⟨[target], [], _, _, .present _, .present _, [("escape", .text "!")], _, [], rfl, rfl⟩
  case refused =>
    exact ⟨[], [escape], _, _, .present _, .present _, [("default_target", .text "c")], _, [],
      rfl, rfl⟩
  case less =>
    exact ⟨[target], [], _, _, .present _, .present _, [], .text "!", [], rfl, rfl⟩

end Config

end PegKit
