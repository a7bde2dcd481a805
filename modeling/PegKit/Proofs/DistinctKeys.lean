import Mathlib.Data.List.Nodup
import PegKit.Toml.Document

/-! No table of a document has two entries with one key. What keeps it so is that a key is set only
where `lookup` does not find it, and that a table which is opened again keeps its place. -/

namespace PegKit.Toml

/-- No table in a value has two entries with one key. -/
inductive Datum.HasDistinctKeys : Datum → Prop where
  | boolean (b : Bool) : HasDistinctKeys (.boolean b)
  | integer (n : Int) : HasDistinctKeys (.integer n)
  | float (shown : String) : HasDistinctKeys (.float shown)
  | text (s : String) : HasDistinctKeys (.text s)
  | moment (shown : String) : HasDistinctKeys (.moment shown)
  | list {items : List Datum} (hinside : ∀ d ∈ items, d.HasDistinctKeys) :
      HasDistinctKeys (.list items)
  | table {entries : List (String × Datum)} (hdistinct : (entries.map Prod.fst).Nodup)
      (hinside : ∀ e ∈ entries, e.2.HasDistinctKeys) : HasDistinctKeys (.table entries)

/-- The same of a node: of its value, or of every table in it. -/
inductive Node.HasDistinctKeys : Node → Prop where
  | leaf {d : Datum} (hvalue : d.HasDistinctKeys) : HasDistinctKeys (.leaf d)
  | table {origin : Origin} {entries : Entries} (hdistinct : (entries.map Prod.fst).Nodup)
      (hinside : ∀ e ∈ entries, e.2.HasDistinctKeys) : HasDistinctKeys (.table origin entries)
  | tables {earlier : List Entries} {last : Entries}
      (hdistinct : ∀ t ∈ earlier ++ [last], (t.map Prod.fst).Nodup)
      (hinside : ∀ t ∈ earlier ++ [last], ∀ e ∈ t, e.2.HasDistinctKeys) :
      HasDistinctKeys (.tables earlier last)

/-- A table under construction, with distinct keys in it and in everything below. -/
structure WellKeyed (es : Entries) : Prop where
  distinct : (es.map Prod.fst).Nodup
  inside : ∀ e ∈ es, e.2.HasDistinctKeys

theorem Node.hasDistinctKeys_table_iff {origin : Origin} {es : Entries} :
    (Node.table origin es).HasDistinctKeys ↔ WellKeyed es := by
  constructor
  · intro h
    cases h with | table hdistinct hinside => exact ⟨hdistinct, hinside⟩
  · exact fun hw => .table hw.distinct hw.inside

theorem Node.hasDistinctKeys_tables_iff {earlier : List Entries} {last : Entries} :
    (Node.tables earlier last).HasDistinctKeys ↔ (∀ t ∈ earlier, WellKeyed t) ∧ WellKeyed last := by
  constructor
  · intro h
    cases h with | tables hdistinct hinside =>
    exact ⟨fun t ht => ⟨hdistinct t (by simp [ht]), hinside t (by simp [ht])⟩,
      ⟨hdistinct last (by simp), hinside last (by simp)⟩⟩
  · rintro ⟨heach, hfinal⟩
    have hall : ∀ t ∈ earlier ++ [last], WellKeyed t := by
      simp only [List.mem_append, List.mem_singleton]
      rintro t (ht | rfl)
      · exact heach t ht
      · exact hfinal
    exact .tables (fun t ht => (hall t ht).distinct) fun t ht => (hall t ht).inside

section

variable {key : String} {n : Node} {es es' : Entries} {d : Datum}

theorem bind_pure_eq_some_iff {α β : Type} {x : Option α} {f : α → β} {b : β} :
    (do return f (← x)) = some b ↔ ∃ a, x = some a ∧ f a = b := by
  cases x <;> simp

theorem lookup_eq_none_iff : lookup key es = none ↔ key ∉ es.map Prod.fst := by
  simp [lookup, List.find?_eq_none]
  grind

theorem mem_of_lookup (h : lookup key es = some n) : (key, n) ∈ es := by
  simp only [lookup, Option.map_eq_some_iff] at h
  obtain ⟨e, hfound, rfl⟩ := h
  have hsame := List.find?_some hfound
  simp only [beq_iff_eq] at hsame
  exact hsame ▸ List.mem_of_find?_eq_some hfound

namespace WellKeyed

theorem nil : WellKeyed [] := ⟨List.nodup_nil, by simp⟩

theorem of_lookup (hw : WellKeyed es) (h : lookup key es = some n) : n.HasDistinctKeys :=
  hw.inside (key, n) (mem_of_lookup h)

theorem append (hw : WellKeyed es) (hnew : lookup key es = none) (h : n.HasDistinctKeys) :
    WellKeyed (es ++ [(key, n)]) := by
  rw [lookup_eq_none_iff] at hnew
  refine ⟨?_, ?_⟩
  · rw [List.map_append, List.nodup_append]
    refine ⟨hw.distinct, List.nodup_singleton _, ?_⟩
    rintro a ha b hb rfl
    simp only [List.map_cons, List.map_nil, List.mem_singleton] at hb
    exact hnew (hb ▸ ha)
  · simpa [or_imp, forall_and, h] using hw.inside

theorem replace (hw : WellKeyed es) (h : n.HasDistinctKeys) : WellKeyed (replace key n es) := by
  refine ⟨?_, ?_⟩
  · have hkeys : (Toml.replace key n es).map Prod.fst = es.map Prod.fst := by
      simp only [Toml.replace, List.map_map]
      refine List.map_congr_left fun e _ => ?_
      by_cases hsame : e.1 = key <;> simp [hsame]
    rw [hkeys]
    exact hw.distinct
  · intro e he
    obtain ⟨f, hf, rfl⟩ := List.mem_map.mp he
    split
    · exact h
    · exact hw.inside f hf

theorem remove (hw : WellKeyed es) : WellKeyed (remove key es) :=
  ⟨hw.distinct.sublist (List.filter_sublist.map _),
    fun e he => hw.inside e (List.mem_of_mem_filter he)⟩

end WellKeyed

theorem lookup_remove : lookup key (remove key es) = none := by
  simp [lookup_eq_none_iff, remove]

theorem wellKeyed_assign {open? : Bool} {path : List String} (hvalue : d.HasDistinctKeys)
    (hw : WellKeyed es) (h : assign key d open? path es = some es') : WellKeyed es' := by
  -- along the path: the table below is new, or one that `lookup` found and that is well keyed
  fun_induction assign key d open? path es generalizing es' with
  | case1 open? es hnew =>
    cases h
    simp only [Bool.and_eq_true, Option.isNone_iff_eq_none] at hnew
    exact hw.append hnew.2 (.leaf hvalue)
  | case2 => cases h
  | case3 _ k path es habsent ih =>
    obtain ⟨sub, hbelow, rfl⟩ := bind_pure_eq_some_iff.mp h
    exact hw.append habsent (Node.hasDistinctKeys_table_iff.mpr (ih .nil hbelow))
  | case4 => cases h
  | case5 _ k path es origin sub hfound _ ih =>
    obtain ⟨sub', hbelow, rfl⟩ := bind_pure_eq_some_iff.mp h
    have hw' := Node.hasDistinctKeys_table_iff.mp (hw.of_lookup hfound)
    exact hw.replace (Node.hasDistinctKeys_table_iff.mpr (ih hw' hbelow))
  | case6 _ k path es earlier last hfound ih =>
    obtain ⟨last', hbelow, rfl⟩ := bind_pure_eq_some_iff.mp h
    have hw' := Node.hasDistinctKeys_tables_iff.mp (hw.of_lookup hfound)
    exact hw.replace (Node.hasDistinctKeys_tables_iff.mpr ⟨hw'.1, ih hw'.2 hbelow⟩)
  | case7 => cases h

theorem wellKeyed_assignAll {pairs : List (Key × Datum)}
    (hvalues : ∀ p ∈ pairs, p.2.HasDistinctKeys) (hw : WellKeyed es)
    (h : assignAll pairs es = some es') : WellKeyed es' := by
  induction pairs generalizing es with
  | nil => cases h; exact hw
  | cons p pairs ih =>
    simp only [List.forall_mem_cons] at hvalues
    simp only [assignAll, List.foldlM_cons, Option.bind_eq_bind, Option.bind_eq_some_iff] at h
    obtain ⟨es₁, hfirst, hrest⟩ := h
    exact ih hvalues.2 (wellKeyed_assign hvalues.1 hw hfirst) hrest

variable {kind : HeaderKind} {fill : Entries → Option Entries}

theorem wellKeyed_openHere (hkeeps : ∀ {es es'}, WellKeyed es → fill es = some es' → WellKeyed es')
    (hw : WellKeyed es) (h : openHere kind key fill es = some es') : WellKeyed es' := by
  revert h
  fun_cases openHere kind key fill es with
  | case1 habsent =>
    intro h
    obtain ⟨sub, hfilled, rfl⟩ := bind_pure_eq_some_iff.mp h
    exact hw.append habsent (Node.hasDistinctKeys_table_iff.mpr (hkeeps .nil hfilled))
  | case2 sub hfound =>
    intro h
    obtain ⟨sub', hfilled, rfl⟩ := bind_pure_eq_some_iff.mp h
    have hw' := Node.hasDistinctKeys_table_iff.mp (hw.of_lookup hfound)
    exact hw.remove.append lookup_remove (Node.hasDistinctKeys_table_iff.mpr (hkeeps hw' hfilled))
  | case3 habsent =>
    intro h
    obtain ⟨last, hfilled, rfl⟩ := bind_pure_eq_some_iff.mp h
    refine hw.append habsent (Node.hasDistinctKeys_tables_iff.mpr ⟨by simp, hkeeps .nil hfilled⟩)
  | case4 earlier last hfound =>
    intro h
    obtain ⟨last', hfilled, rfl⟩ := bind_pure_eq_some_iff.mp h
    obtain ⟨hbefore, hfinal⟩ := Node.hasDistinctKeys_tables_iff.mp (hw.of_lookup hfound)
    refine hw.replace (Node.hasDistinctKeys_tables_iff.mpr ⟨?_, hkeeps .nil hfilled⟩)
    simpa [or_imp, forall_and, hfinal] using hbefore
  | case5 => exact nofun

theorem wellKeyed_openTable {path : List String}
    (hkeeps : ∀ {es es'}, WellKeyed es → fill es = some es' → WellKeyed es')
    (hw : WellKeyed es) (h : openTable kind key fill path es = some es') : WellKeyed es' := by
  fun_induction openTable kind key fill path es generalizing es' with
  | case1 es => exact wellKeyed_openHere hkeeps hw h
  | case2 k path es habsent ih =>
    obtain ⟨sub, hbelow, rfl⟩ := bind_pure_eq_some_iff.mp h
    exact hw.append habsent (Node.hasDistinctKeys_table_iff.mpr (ih .nil hbelow))
  | case3 k path es origin sub hfound ih =>
    obtain ⟨sub', hbelow, rfl⟩ := bind_pure_eq_some_iff.mp h
    have hw' := Node.hasDistinctKeys_table_iff.mp (hw.of_lookup hfound)
    exact hw.replace (Node.hasDistinctKeys_table_iff.mpr (ih hw' hbelow))
  | case4 k path es earlier last hfound ih =>
    obtain ⟨last', hbelow, rfl⟩ := bind_pure_eq_some_iff.mp h
    have hw' := Node.hasDistinctKeys_tables_iff.mp (hw.of_lookup hfound)
    exact hw.replace (Node.hasDistinctKeys_tables_iff.mpr ⟨hw'.1, ih hw'.2 hbelow⟩)
  | case5 => cases h

end

theorem finished_eq_map (es : Entries) : finished es = es.map fun e => (e.1, e.2.datum) := by
  induction es with
  | nil => rfl
  | cons e es ih => simp [finished, ih]

theorem finishedTables_eq_map (ts : List Entries) :
    finishedTables ts = ts.map fun t => .table (finished t) := by
  induction ts with
  | nil => rfl
  | cons t ts ih => simp [finishedTables, ih]

theorem hasDistinctKeys_finished {es : Entries} (hdistinct : (es.map Prod.fst).Nodup)
    (hinside : ∀ e ∈ es, e.2.datum.HasDistinctKeys) :
    (Datum.table (finished es)).HasDistinctKeys := by
  rw [finished_eq_map]
  refine .table ?_ ?_
  · simpa [Function.comp_def] using hdistinct
  · intro e he
    obtain ⟨f, hf, rfl⟩ := List.mem_map.mp he
    exact hinside f hf

theorem Node.HasDistinctKeys.datum {n : Node} (h : n.HasDistinctKeys) :
    n.datum.HasDistinctKeys := by
  induction h with
  | leaf hvalue => exact hvalue
  | table hdistinct _ ih => exact hasDistinctKeys_finished hdistinct ih
  | @tables earlier last hdistinct _ ih =>
    have hsame : finishedTables earlier ++ [.table (finished last)] =
        (earlier ++ [last]).map fun t => .table (finished t) := by
      simp [finishedTables_eq_map]
    rw [Node.datum, hsame]
    refine .list fun d hd => ?_
    obtain ⟨t, ht, rfl⟩ := List.mem_map.mp hd
    exact hasDistinctKeys_finished (hdistinct t ht) (ih t ht)

theorem WellKeyed.finished {es : Entries} (hw : WellKeyed es) :
    (Datum.table (finished es)).HasDistinctKeys :=
  hasDistinctKeys_finished hw.distinct fun e he => (hw.inside e he).datum

/-! Readers. What has to be shown of a value is shown where it is put together: scalars have no
tables, lists and inline tables are made of values that were read with less depth. -/

/-- Whatever the reader reads has a property. -/
def Gives {α : Type} (P : α → Prop) (reader : Reader α) : Prop :=
  ∀ cs a rest, reader cs = some (a, rest) → P a

theorem Gives.orElse {α : Type} {P : α → Prop} {first second : Reader α} (h : Gives P first)
    (h' : Gives P second) : Gives P fun cs => first cs <|> second cs := by
  intro cs a rest hread
  cases hfound : first cs with
  | some x => exact h cs a rest (hfound.trans (by simpa [hfound] using hread))
  | none => exact h' cs a rest (by simpa [hfound] using hread)

theorem gives_momentDatum : Gives Datum.HasDistinctKeys momentDatum := by
  intro cs d rest h
  obtain ⟨rest', _, hsame⟩ := bind_pure_eq_some_iff.mp h
  cases hsame
  exact .moment _

theorem hasDistinctKeys_of_floatOf {x : Decimal} {d : Datum} (h : floatOf x = some d) :
    d.HasDistinctKeys := by
  unfold floatOf at h
  split at h
  · cases h
  · cases h; exact .float _

theorem hasDistinctKeys_of_integerOf {negative : Bool} {n : Nat} {d : Datum}
    (h : integerOf negative n = some d) : d.HasDistinctKeys := by
  unfold integerOf at h
  repeat' split at h
  all_goals cases h
  all_goals exact .integer _

theorem gives_special : Gives Datum.HasDistinctKeys special := by
  intro cs d rest h
  unfold special at h
  dsimp only at h
  repeat' split at h
  all_goals cases h
  all_goals exact .float _

theorem gives_plainFloat : Gives Datum.HasDistinctKeys plainFloat := by
  intro cs d rest h
  obtain ⟨⟨whole, cs'⟩, _, h⟩ := Option.bind_eq_some_iff.mp h
  dsimp only at h
  split at h
  · obtain ⟨d', hfloat, hsame⟩ := bind_pure_eq_some_iff.mp h
    cases hsame
    exact hasDistinctKeys_of_floatOf hfloat
  · obtain ⟨⟨e, cs''⟩, _, h⟩ := Option.bind_eq_some_iff.mp h
    obtain ⟨d', hfloat, hsame⟩ := bind_pure_eq_some_iff.mp h
    cases hsame
    exact hasDistinctKeys_of_floatOf hfloat

theorem gives_based (base : Nat) (isDigit : Char → Bool) :
    Gives Datum.HasDistinctKeys (integer.based base isDigit) := by
  intro cs d rest h
  obtain ⟨⟨ds, cs'⟩, _, h⟩ := Option.bind_eq_some_iff.mp h
  obtain ⟨d', hinteger, hsame⟩ := bind_pure_eq_some_iff.mp h
  cases hsame
  exact hasDistinctKeys_of_integerOf hinteger

theorem gives_integer : Gives Datum.HasDistinctKeys integer := by
  intro cs d rest h
  unfold integer at h
  split at h
  · exact gives_based _ _ _ _ _ h
  · exact gives_based _ _ _ _ _ h
  · exact gives_based _ _ _ _ _ h
  · obtain ⟨⟨ds, cs'⟩, _, h⟩ := Option.bind_eq_some_iff.mp h
    obtain ⟨d', hinteger, hsame⟩ := bind_pure_eq_some_iff.mp h
    cases hsame
    exact hasDistinctKeys_of_integerOf hinteger

theorem gives_scalar : Gives Datum.HasDistinctKeys scalar := by
  intro cs d rest h
  unfold scalar at h
  split at h
  · cases h
  split at h
  · obtain ⟨⟨s, rest'⟩, _, hsame⟩ := bind_pure_eq_some_iff.mp h
    cases hsame
    exact .text _
  split at h
  · obtain ⟨rest', _, hsame⟩ := bind_pure_eq_some_iff.mp h
    cases hsame
    exact .boolean _
  split at h
  · obtain ⟨rest', _, hsame⟩ := bind_pure_eq_some_iff.mp h
    cases hsame
    exact .boolean _
  split at h
  · have hnumbers := gives_plainFloat.orElse gives_special
    exact gives_momentDatum.orElse (hnumbers.orElse gives_integer) _ d rest h
  · exact gives_special _ d rest h

section

variable {value : Reader Datum}

theorem gives_items (h : Gives Datum.HasDistinctKeys value) (fuel : Nat) :
    Gives (∀ d ∈ ·, d.HasDistinctKeys) (items value fuel) := by
  intro cs ds rest hread
  fun_induction items value fuel cs generalizing ds rest with
  | case1 => cases hread
  | case2 => cases hread; simp
  | case3 fuel cs _ ih =>
    obtain ⟨⟨d, cs'⟩, hfirst, hread⟩ := Option.bind_eq_some_iff.mp hread
    dsimp only at hread
    split at hread
    · obtain ⟨⟨ds', rest'⟩, hothers, hsame⟩ := bind_pure_eq_some_iff.mp hread
      cases hsame
      simpa [h _ _ _ hfirst] using ih _ _ _ hothers
    · cases hread
      simpa using h _ _ _ hfirst
    · cases hread

theorem gives_pair (h : Gives Datum.HasDistinctKeys value) :
    Gives (·.2.HasDistinctKeys) (pair value) := by
  intro cs p rest hread
  obtain ⟨⟨k, cs₁⟩, _, hread⟩ := Option.bind_eq_some_iff.mp hread
  obtain ⟨cs₂, _, hread⟩ := Option.bind_eq_some_iff.mp hread
  obtain ⟨⟨d, cs₃⟩, hfound, hsame⟩ := bind_pure_eq_some_iff.mp hread
  cases hsame
  exact h _ _ _ hfound

theorem gives_pairs (h : Gives Datum.HasDistinctKeys value) (fuel : Nat) :
    Gives (∀ p ∈ ·, p.2.HasDistinctKeys) (pairs value fuel) := by
  intro cs ps rest hread
  fun_induction pairs value fuel cs generalizing ps rest with
  | case1 => cases hread
  | case2 fuel cs ih =>
    obtain ⟨⟨p, cs'⟩, hfirst, hread⟩ := Option.bind_eq_some_iff.mp hread
    have hfirst' := gives_pair h _ _ _ hfirst
    dsimp only at hread
    split at hread
    · obtain ⟨⟨ps', rest'⟩, hothers, hsame⟩ := bind_pure_eq_some_iff.mp hread
      cases hsame
      simpa [hfirst'] using ih _ _ _ hothers
    · cases hread
      simpa using hfirst'
    · cases hread

theorem gives_inlineTable (h : Gives Datum.HasDistinctKeys value) :
    Gives Datum.HasDistinctKeys (inlineTable value) := by
  intro cs d rest hread
  unfold inlineTable at hread
  split at hread
  · cases hread
    exact .table List.nodup_nil (by simp)
  · obtain ⟨⟨ps, rest'⟩, hfound, hread⟩ := Option.bind_eq_some_iff.mp hread
    obtain ⟨es, hassigned, hsame⟩ := bind_pure_eq_some_iff.mp hread
    cases hsame
    exact (wellKeyed_assignAll (gives_pairs h _ _ _ _ hfound) .nil hassigned).finished

end

theorem gives_value (depth : Nat) : Gives Datum.HasDistinctKeys (value depth) := by
  induction depth with
  | zero =>
    intro cs d rest hread
    cases cs with
    | nil => cases hread
    | cons c cs => exact gives_scalar _ _ _ hread
  | succ depth ih =>
    intro cs d rest hread
    cases cs with
    | nil => cases hread
    | cons c cs =>
      simp only [value] at hread
      split at hread
      · obtain ⟨⟨ds, rest'⟩, hfound, hsame⟩ := Option.map_eq_some_iff.mp hread
        cases hsame
        exact .list (gives_items ih _ _ _ _ hfound)
      split at hread
      · exact gives_inlineTable ih _ _ _ hread
      · exact gives_scalar _ _ _ hread

/-- The values that a statement assigns. -/
def Statement.HasDistinctKeys : Statement → Prop
  | .header _ _ => True
  | .assignment _ d => d.HasDistinctKeys

theorem gives_header : Gives Statement.HasDistinctKeys header := by
  intro cs s rest hread
  unfold header at hread
  split at hread
  · obtain ⟨⟨k, cs₁⟩, _, hread⟩ := Option.bind_eq_some_iff.mp hread
    obtain ⟨cs₂, _, hsame⟩ := bind_pure_eq_some_iff.mp hread
    cases hsame
    trivial
  · obtain ⟨⟨k, cs₁⟩, _, hread⟩ := Option.bind_eq_some_iff.mp hread
    obtain ⟨cs₂, _, hsame⟩ := bind_pure_eq_some_iff.mp hread
    cases hsame
    trivial
  · cases hread

theorem gives_statement : Gives Statement.HasDistinctKeys statement := by
  intro cs s rest hread
  unfold statement at hread
  split at hread
  · exact gives_header _ _ _ hread
  · obtain ⟨⟨⟨k, d⟩, cs'⟩, hfound, hsame⟩ := Option.map_eq_some_iff.mp hread
    cases hsame
    exact gives_pair (gives_value _) _ _ _ hfound

theorem hasDistinctKeys_of_mem_statements {fuel : Nat} {cs : List Char} {ss : List Statement}
    (h : statements fuel cs = some ss) : ∀ s ∈ ss, s.HasDistinctKeys := by
  induction fuel generalizing cs ss with
  | zero => cases h
  | succ fuel ih =>
    unfold statements at h
    split at h
    · cases h; simp
    · exact ih h
    · exact ih h
    · obtain ⟨rest, _, h⟩ := Option.bind_eq_some_iff.mp h
      exact ih h
    · obtain ⟨⟨s, rest⟩, hfirst, h⟩ := Option.bind_eq_some_iff.mp h
      obtain ⟨rest', _, h⟩ := Option.bind_eq_some_iff.mp h
      obtain ⟨ss', hothers, rfl⟩ := bind_pure_eq_some_iff.mp h
      exact List.forall_mem_cons.mpr ⟨gives_statement _ _ _ hfirst, ih hothers⟩

theorem hasDistinctKeys_section? {ss : List Statement} (h : ∀ s ∈ ss, s.HasDistinctKeys) :
    (∀ p ∈ (section? ss).1, p.2.HasDistinctKeys) ∧ ∀ s ∈ (section? ss).2, s.HasDistinctKeys := by
  fun_induction section? ss with
  | case1 k d rest ps rest' hbody ih =>
    rw [hbody] at ih
    simp only [List.forall_mem_cons] at h ⊢
    exact ⟨⟨h.1, (ih h.2).1⟩, (ih h.2).2⟩
  | case2 rest => exact ⟨by simp, h⟩

theorem wellKeyed_openAll {ss : List Statement} {es es' : Entries}
    (hvalues : ∀ s ∈ ss, s.HasDistinctKeys) (hw : WellKeyed es) (h : openAll ss es = some es') :
    WellKeyed es' := by
  fun_induction openAll ss es with
  | case1 => cases h; exact hw
  | case2 es kind k rest hbody ih =>
    obtain ⟨es₁, hopened, h⟩ := Option.bind_eq_some_iff.mp h
    obtain ⟨hinside, hbehind⟩ := hasDistinctKeys_section? (List.forall_mem_cons.mp hvalues).2
    have hw₁ := wellKeyed_openTable (fun hw => wellKeyed_assignAll hinside hw) hw hopened
    exact ih es₁ hbehind hw₁ h
  | case3 => cases h

/-- A document has no table with two entries under one key. -/
theorem hasDistinctKeys_parse {source : String} {es : List (String × Datum)}
    (h : parse source = some es) : (Datum.table es).HasDistinctKeys := by
  obtain ⟨ss, hread, h⟩ := Option.bind_eq_some_iff.mp h
  obtain ⟨es₁, htop, h⟩ := Option.bind_eq_some_iff.mp h
  obtain ⟨es₂, hopened, rfl⟩ := bind_pure_eq_some_iff.mp h
  obtain ⟨hinside, hbehind⟩ := hasDistinctKeys_section? (hasDistinctKeys_of_mem_statements hread)
  exact (wellKeyed_openAll hbehind (wellKeyed_assignAll hinside .nil htop) hopened).finished

end PegKit.Toml
