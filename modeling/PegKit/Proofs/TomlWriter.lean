import Mathlib.Data.List.Nodup
import PegKit.Proofs.LiteralReader
import PegKit.Proofs.DistinctKeys

/-! Writing TOML: strings, arrays, inline tables, and a document with one table. Whatever is written
is read back as it was, in front of anything that cannot belong to it. -/

namespace PegKit.Toml

def eightDigits (c : Char) : List Char :=
  List.replicate (8 - (Nat.toDigits 16 c.toNat).length) '0' ++ Nat.toDigits 16 c.toNat

/-- Every character is written by its number, so that none is a case of its own. -/
def stringText (s : String) : List Char :=
  '"' :: (s.toList.flatMap (fun c => '\\' :: 'U' :: eightDigits c) ++ ['"'])

/-- An array, with a comma behind every item. -/
def arrayText (items : List (List Char)) : List Char :=
  '[' :: (items.flatMap (· ++ [',']) ++ [']'])

/-- An entry of a table: its key, its value, and how the value is written. -/
structure Row where
  name : String
  written : List Char
  datum : Datum

namespace Row

def text (row : Row) : List Char := row.name.toList ++ '=' :: row.written

def entry (row : Row) : String × Datum := (row.name, row.datum)

def assignment (row : Row) : Key × Datum := (⟨[], row.name⟩, row.datum)

end Row

def inlineTableText (rows : List Row) : List Char :=
  '\x7b' :: ([','].intercalate (rows.map Row.text) ++ ['\x7d'])

/-- A document with one table, under its header. -/
def sectionText (name : String) (rows : List Row) : List Char :=
  '[' :: (name.toList ++ ']' :: '\n' :: rows.flatMap (·.text ++ ['\n']))

theorem numberedChar?_eightDigits (c : Char) : Text.numberedChar? (eightDigits c) = some c :=
  Text.numberedChar?_zeros _ c

theorem length_eightDigits (c : Char) : (eightDigits c).length = 8 := by
  have := Text.length_toDigits_le c
  simp [eightDigits]
  omega

theorem basicString_eightDigits (c : Char) (rest : List Char) :
    basicString ('\\' :: 'U' :: (eightDigits c ++ rest)) = before c (basicString rest) := by
  -- the reader asks for eight characters one by one, whatever they are
  have hnumber := numberedChar?_eightDigits c
  have hlength := length_eightDigits c
  generalize eightDigits c = digits at hnumber hlength
  match digits, hlength with
  | [a, b, c', d, e, f, g, h], _ => simp [basicString, hnumber]

theorem basicString_stringText (s rest : List Char) :
    basicString (s.flatMap (fun c => '\\' :: 'U' :: eightDigits c) ++ '"' :: rest) =
      some (s, rest) := by
  induction s with
  | nil => rfl
  | cons c s ih =>
    rw [List.flatMap_cons, List.append_assoc, List.cons_append, List.cons_append,
      basicString_eightDigits, ih, before]

/-- What is written in `w` is read as `d` in front of any character that is not a quote. -/
structure Writes (value : Reader Datum) (w : List Char) (d : Datum) : Prop where
  head : ∃ c cs, w = c :: cs ∧ (c = '"' ∨ c = '[' ∨ c = '\x7b')
  reads : ∀ {c : Char} (rest : List Char), c ≠ '"' → value (w ++ c :: rest) = some (d, c :: rest)

theorem anyString_of_basic {cs : List Char} (h : ∀ rest, cs ≠ '"' :: '"' :: rest) :
    anyString ('"' :: cs) = basicString cs := by
  rw [anyString]
  rintro rest rfl
  exact h rest rfl

theorem anyString_stringText (s : String) {c : Char} (h : c ≠ '"') (rest : List Char) :
    anyString (stringText s ++ c :: rest) = some (s.toList, c :: rest) := by
  rw [stringText, List.cons_append, List.append_assoc, List.singleton_append, anyString_of_basic,
    basicString_stringText]
  -- an empty string is two quotes, and a third one would open a string over several lines
  intro rest'
  cases s.toList with
  | nil => simp [h]
  | cons d ds => simp

theorem scalar_quote (cs : List Char) :
    scalar ('"' :: cs) =
      (anyString ('"' :: cs)).map fun (s, rest) => (.text (String.ofList s), rest) := by
  simp only [scalar, decide_true, Bool.true_or, if_true]
  cases anyString ('"' :: cs) <;> rfl

theorem value_quote (depth : Nat) (cs : List Char) :
    value depth ('"' :: cs) = scalar ('"' :: cs) := by
  cases depth with
  | zero => rfl
  | succ depth => rw [value, if_neg (by decide), if_neg (by decide)]

theorem writes_string (depth : Nat) (s : String) :
    Writes (value depth) (stringText s) (.text s) where
  head := ⟨'"', _, rfl, .inl rfl⟩
  reads {c} rest h := by
    have htext := anyString_stringText s h rest
    rw [stringText, List.cons_append] at htext ⊢
    rw [value_quote, scalar_quote, htext]
    simp

section

variable {value : Reader Datum} {w : List Char} {d : Datum}

theorem Writes.skipSpaces_append (h : Writes value w d) (rest : List Char) :
    skipSpaces (w ++ rest) = w ++ rest := by
  obtain ⟨c, cs, rfl, rfl | rfl | rfl⟩ := h.head <;> simp [skipSpaces, isSpace]

theorem Writes.skipLayout_append (h : Writes value w d) (rest : List Char) :
    skipLayout false (w ++ rest) = w ++ rest := by
  obtain ⟨c, cs, rfl, rfl | rfl | rfl⟩ := h.head <;> simp [skipLayout, isSpace]

theorem Writes.append_ne_bracket (h : Writes value w d) (rest cs : List Char) :
    w ++ rest ≠ ']' :: cs := by
  obtain ⟨c, cs, rfl, rfl | rfl | rfl⟩ := h.head <;> simp

end

theorem items_of_comma {value : Reader Datum} {fuel : Nat} {cs rest : List Char} {d : Datum}
    (hlayout : skipLayout false cs = cs) (hbefore : ∀ rest, cs ≠ ']' :: rest)
    (hread : value cs = some (d, ',' :: rest)) :
    items value (fuel + 1) cs = (items value fuel rest).map fun (ds, rest) => (d :: ds, rest) := by
  rw [items, hlayout]
  simp only [hread, Option.bind_eq_bind, Option.bind_some]
  have hcomma : skipLayout false (',' :: rest) = ',' :: rest := by simp [skipLayout, isSpace]
  rw [hcomma]
  change ((items value fuel rest).bind fun x => some (d :: x.1, x.2)) = _
  cases items value fuel rest <;> rfl

section

variable {α : Type} {as : List α} {w : α → List Char} {f : α → Datum}

theorem items_arrayText {value : Reader Datum} (h : ∀ a ∈ as, Writes value (w a) (f a))
    (rest : List Char) {fuel : Nat} (henough : as.length < fuel) :
    items value fuel ((as.map w).flatMap (· ++ [',']) ++ ']' :: rest) = some (as.map f, rest) := by
  induction as generalizing fuel with
  | nil =>
    cases fuel with
    | zero => simp at henough
    | succ fuel => simp [items, skipLayout, isSpace]
  | cons a as ih =>
    cases fuel with
    | zero => simp at henough
    | succ fuel =>
      simp only [List.forall_mem_cons, List.length_cons] at h henough
      rw [List.map_cons, List.flatMap_cons, List.append_assoc, List.append_assoc,
        List.singleton_append, items_of_comma (h.1.skipLayout_append _)
          (fun _ => h.1.append_ne_bracket _ _) (h.1.reads _ (by decide)), ih h.2 (by omega)]
      rfl

theorem length_le_length_flatMap {f : α → List Char} (h : ∀ a, f a ≠ []) (as : List α) :
    as.length ≤ (as.flatMap f).length := by
  induction as with
  | nil => simp
  | cons a as ih =>
    have := List.length_pos_iff.mpr (h a)
    simp only [List.length_cons, List.flatMap_cons, List.length_append]
    omega

theorem writes_array {depth : Nat} (h : ∀ a ∈ as, Writes (value depth) (w a) (f a)) :
    Writes (value (depth + 1)) (arrayText (as.map w)) (.list (as.map f)) where
  head := ⟨'[', _, rfl, .inr (.inl rfl)⟩
  reads {c} rest _ := by
    have henough :
        as.length < ((as.map w).flatMap (· ++ [',']) ++ ']' :: c :: rest).length + 1 := by
      have := length_le_length_flatMap (f := fun w : List Char => w ++ [',']) (by simp) (as.map w)
      simp only [List.length_map, List.length_append] at this ⊢
      omega
    rw [arrayText, List.cons_append, List.append_assoc, List.singleton_append, value, if_pos rfl,
      items_arrayText h _ henough]
    rfl

end

/-- A name that needs no quotes. -/
structure IsBareName (name : String) : Prop where
  ne_empty : name.toList ≠ []
  plain : name.toList.all isBareKeyChar = true

section

variable {name : String}

theorem IsBareName.head (h : IsBareName name) :
    ∃ c cs, name.toList = c :: cs ∧ isBareKeyChar c = true := by
  obtain ⟨c, cs, hsame⟩ := List.exists_cons_of_ne_nil h.ne_empty
  exact ⟨c, cs, hsame, List.all_eq_true.mp h.plain c (by simp [hsame])⟩

theorem ne_of_isBareKeyChar {c d : Char} (h : isBareKeyChar c = true)
    (h' : isBareKeyChar d = false) : c ≠ d := by
  rintro rfl
  rw [h] at h'
  cases h'

theorem keyName_bare (h : IsBareName name) {stop : Char} (hstops : isBareKeyChar stop = false)
    (rest : List Char) : keyName (name.toList ++ stop :: rest) = some (name, stop :: rest) := by
  have htaken : (name.toList ++ stop :: rest).takeWhile isBareKeyChar = name.toList := by
    rw [List.takeWhile_append_of_pos (List.all_eq_true.mp h.plain),
      List.takeWhile_cons_of_neg (by simp [hstops]), List.append_nil]
  obtain ⟨c, cs, hsame, hbare⟩ := h.head
  have hspelled : String.ofList (c :: cs) = name := by rw [← hsame, String.ofList_toList]
  rw [hsame, List.cons_append] at htaken ⊢
  rw [keyName]
  · rw [htaken]
    simp [hspelled]
  · exact fun _ hquote => ne_of_isBareKeyChar hbare (by decide) (List.cons.inj hquote).1
  · exact fun _ hquote => ne_of_isBareKeyChar hbare (by decide) (List.cons.inj hquote).1

theorem skipSpaces_of_isBareKeyChar {c : Char} (h : isBareKeyChar c = true) (cs : List Char) :
    skipSpaces (c :: cs) = c :: cs := by
  have hspace := ne_of_isBareKeyChar (d := ' ') h (by decide)
  have htab := ne_of_isBareKeyChar (d := '\t') h (by decide)
  simp [skipSpaces, isSpace, hspace, htab]

theorem skipSpaces_bare (h : IsBareName name) (rest : List Char) :
    skipSpaces (name.toList ++ rest) = name.toList ++ rest := by
  obtain ⟨c, cs, hsame, hbare⟩ := h.head
  rw [hsame, List.cons_append, skipSpaces_of_isBareKeyChar hbare]

theorem key_bare (h : IsBareName name) {stop : Char} (hstops : stop = '=' ∨ stop = ']')
    (rest : List Char) : key (name.toList ++ stop :: rest) = some (⟨[], name⟩, stop :: rest) := by
  have hbare : isBareKeyChar stop = false := by rcases hstops with rfl | rfl <;> decide
  have hname := keyName_bare h hbare rest
  have hnames : dottedNames (nestingLimit - 1) (name.toList ++ stop :: rest) =
      some ([name], stop :: rest) := by
    change dottedNames (78 + 1) (name.toList ++ stop :: rest) = _
    rw [dottedNames, skipSpaces_bare h, hname]
    rcases hstops with rfl | rfl <;> rfl
  rw [key, hnames]
  rfl

end

/-- A row that a document can hold: the key needs no quotes, and the value is read back. -/
structure Row.IsSound (value : Reader Datum) (row : Row) : Prop where
  bare : IsBareName row.name
  writes : Writes value row.written row.datum

section

variable {value : Reader Datum} {row : Row} {rows : List Row}

theorem pair_text (h : row.IsSound value) {stop : Char}
    (hstops : stop = ',' ∨ stop = '\x7d' ∨ stop = '\n') (rest : List Char) :
    pair value (row.text ++ stop :: rest) = some (row.assignment, stop :: rest) := by
  have hquote : stop ≠ '"' := by rcases hstops with rfl | rfl | rfl <;> decide
  have hblank : skipSpaces (stop :: rest) = stop :: rest := by
    rcases hstops with rfl | rfl | rfl <;> simp [skipSpaces, isSpace]
  have hkey := key_bare h.bare (.inl rfl) (row.written ++ stop :: rest)
  rw [Row.text, List.append_assoc, List.cons_append, pair]
  simp [hkey, exactly, h.writes.skipSpaces_append, h.writes.reads rest hquote, hblank,
    Row.assignment]

theorem pairs_text (h : ∀ row ∈ rows, row.IsSound value) (hrows : rows ≠ []) (rest : List Char)
    {fuel : Nat} (henough : rows.length ≤ fuel) :
    pairs value fuel ([','].intercalate (rows.map Row.text) ++ '\x7d' :: rest) =
      some (rows.map Row.assignment, rest) := by
  induction rows generalizing fuel with
  | nil => exact absurd rfl hrows
  | cons row rows ih =>
    obtain ⟨fuel, rfl⟩ : ∃ n, fuel = n + 1 := Nat.exists_eq_succ_of_ne_zero (by
      rintro rfl
      simp at henough)
    simp only [List.forall_mem_cons, List.length_cons, Nat.add_le_add_iff_right] at h henough
    cases rows with
    | nil =>
      have hread := pair_text h.1 (.inr (.inl rfl)) rest
      simp [pairs, hread]
    | cons next rows =>
      have hothers := ih h.2 (by simp) henough
      have hread := pair_text h.1 (.inl rfl)
        ([','].intercalate ((next :: rows).map Row.text) ++ '\x7d' :: rest)
      rw [List.map_cons, List.map_cons, List.intercalate_cons_cons, List.append_assoc,
        List.append_assoc, List.singleton_append, ← List.map_cons, pairs]
      simp only [hread, hothers, Option.bind_eq_bind, Option.bind_some]
      rfl

theorem assignAll_rows {es : Entries} (hdistinct : (es.map Prod.fst ++ rows.map Row.name).Nodup) :
    assignAll (rows.map Row.assignment) es =
      some (es ++ rows.map fun row => (row.name, .leaf row.datum)) := by
  induction rows generalizing es with
  | nil => simp [assignAll]
  | cons row rows ih =>
    have hnew : lookup row.name es = none := by
      rw [lookup_eq_none_iff]
      exact fun hfound => (List.nodup_append.mp hdistinct).2.2 _ hfound _ (by simp) rfl
    have hset : assign row.name row.datum true [] es =
        some (es ++ [(row.name, .leaf row.datum)]) := by
      simp [assign, hnew]
    have hothers := @ih (es ++ [(row.name, .leaf row.datum)]) (by simpa using hdistinct)
    simp only [assignAll, List.map_cons, List.foldlM_cons, Row.assignment] at hothers ⊢
    simp [hset, hothers]

theorem finished_rows :
    finished (rows.map fun row => (row.name, .leaf row.datum)) = rows.map Row.entry := by
  simp [finished_eq_map, Function.comp_def, Row.entry, Node.datum]

theorem Row.IsSound.head (h : row.IsSound value) (rest : List Char) :
    ∃ c cs, row.text ++ rest = c :: cs ∧ isBareKeyChar c = true := by
  obtain ⟨c, cs, hsame, hbare⟩ := h.bare.head
  exact ⟨c, cs ++ '=' :: row.written ++ rest, by simp [Row.text, hsame], hbare⟩

theorem Row.length_text_pos (row : Row) : 0 < row.text.length := by
  simp [Row.text]

theorem length_le_length_intercalate (rows : List Row) :
    rows.length ≤ ([','].intercalate (rows.map Row.text)).length := by
  induction rows with
  | nil => simp
  | cons row rows ih =>
    have := row.length_text_pos
    cases rows with
    | nil => simpa using Nat.succ_le_of_lt this
    | cons next rows =>
      rw [List.map_cons, List.map_cons, List.intercalate_cons_cons, ← List.map_cons]
      simp only [List.length_append, List.length_cons, List.length_nil] at ih ⊢
      omega

theorem intercalate_text_head (h : ∀ row ∈ rows, row.IsSound value) (hrows : rows ≠ [])
    (rest : List Char) : ∃ c cs,
      [','].intercalate (rows.map Row.text) ++ rest = c :: cs ∧ isBareKeyChar c = true := by
  cases rows with
  | nil => exact absurd rfl hrows
  | cons row rows =>
    simp only [List.forall_mem_cons] at h
    cases rows with
    | nil => simpa using h.1.head rest
    | cons next rows =>
      rw [List.map_cons, List.map_cons, List.intercalate_cons_cons, List.append_assoc,
        List.append_assoc]
      exact h.1.head _

theorem inlineTable_of_rows {cs : List Char} (hblank : skipSpaces cs = cs)
    (hrows : ∀ rest, cs ≠ '\x7d' :: rest) : inlineTable value cs = do
      let (ps, rest) ← pairs value cs.length cs
      let es ← assignAll ps []
      return (.table (finished es), rest) := by
  rw [inlineTable, hblank]
  split
  · exact absurd rfl (hrows _)
  · rfl

theorem writes_inlineTable {depth : Nat} (h : ∀ row ∈ rows, row.IsSound (Toml.value depth))
    (hrows : rows ≠ []) (hdistinct : (rows.map Row.name).Nodup) :
    Writes (Toml.value (depth + 1)) (inlineTableText rows) (.table (rows.map Row.entry)) where
  head := ⟨'\x7b', _, rfl, .inr (.inr rfl)⟩
  reads {c} rest _ := by
    have henough : rows.length ≤
        ([','].intercalate (rows.map Row.text) ++ '\x7d' :: c :: rest).length := by
      have := length_le_length_intercalate rows
      rw [List.length_append]
      omega
    have hread := pairs_text h hrows (c :: rest) henough
    have hset := @assignAll_rows rows [] (by simpa using hdistinct)
    obtain ⟨a, as, hsame, hbare⟩ := intercalate_text_head h hrows ('\x7d' :: c :: rest)
    rw [inlineTableText, List.cons_append, List.append_assoc, List.singleton_append, Toml.value,
      if_neg (by decide), if_pos rfl, inlineTable_of_rows, hread]
    · simp [hset, finished_rows]
    · rw [hsame, skipSpaces_of_isBareKeyChar hbare]
    · intro rest' hclose
      rw [hsame] at hclose
      exact ne_of_isBareKeyChar hbare (by decide) (List.cons.inj hclose).1

theorem statement_text (h : row.IsSound (Toml.value (nestingLimit - 1))) (rest : List Char) :
    statement (row.text ++ '\n' :: rest) =
      some (.assignment ⟨[], row.name⟩ row.datum, '\n' :: rest) := by
  have hread := pair_text h (.inr (.inr rfl)) rest
  obtain ⟨c, cs, hsame, hbare⟩ := h.head ('\n' :: rest)
  rw [hsame] at hread ⊢
  rw [statement, hread]
  · rfl
  · exact fun _ hbracket => ne_of_isBareKeyChar hbare (by decide) (List.cons.inj hbracket).1

theorem statements_of_statement {c : Char} {cs rest : List Char} {s : Statement} {fuel : Nat}
    (hstart : c = '[' ∨ isBareKeyChar c = true)
    (hread : statement (c :: cs) = some (s, '\n' :: rest)) :
    statements (fuel + 1) (c :: cs) = (statements fuel rest).map (s :: ·) := by
  have hne {d : Char} (h : d ≠ '[') (h' : isBareKeyChar d = false) : c ≠ d := by
    rcases hstart with rfl | hbare
    · exact h.symm
    · exact ne_of_isBareKeyChar hbare h'
  have hblank : skipSpaces (c :: cs) = c :: cs := by
    simp [skipSpaces, isSpace, hne (d := ' ') (by decide) (by decide),
      hne (d := '\t') (by decide) (by decide)]
  have hlineEnd : lineEnd? ('\n' :: rest) = some rest := rfl
  rw [statements, hblank]
  split
  case h_1 hsame => cases hsame
  case h_2 hsame => exact absurd (List.cons.inj hsame).1 (hne (by decide) (by decide))
  case h_3 hsame => exact absurd (List.cons.inj hsame).1 (hne (by decide) (by decide))
  case h_4 hsame => exact absurd (List.cons.inj hsame).1 (hne (by decide) (by decide))
  case h_5 =>
    simp only [hread, hlineEnd, Option.bind_eq_bind, Option.bind_some]
    cases statements fuel rest <;> rfl

theorem statements_rows (h : ∀ row ∈ rows, row.IsSound (Toml.value (nestingLimit - 1)))
    {fuel : Nat} (henough : rows.length < fuel) :
    statements fuel (rows.flatMap (·.text ++ ['\n'])) =
      some (rows.map fun row => .assignment ⟨[], row.name⟩ row.datum) := by
  induction rows generalizing fuel with
  | nil =>
    cases fuel with
    | zero => simp at henough
    | succ fuel => rfl
  | cons row rows ih =>
    cases fuel with
    | zero => simp at henough
    | succ fuel =>
      simp only [List.forall_mem_cons, List.length_cons, Nat.add_lt_add_iff_right] at h henough
      have hread := statement_text h.1 (rows.flatMap (·.text ++ ['\n']))
      obtain ⟨c, cs, hsame, hbare⟩ := h.1.head ('\n' :: rows.flatMap (·.text ++ ['\n']))
      rw [List.flatMap_cons, List.append_assoc, List.singleton_append]
      rw [hsame] at hread ⊢
      rw [statements_of_statement (.inr hbare) hread, ih h.2 henough]
      rfl

theorem header_text {name : String} (h : IsBareName name) (rest : List Char) :
    statement ('[' :: (name.toList ++ ']' :: '\n' :: rest)) =
      some (.header .table ⟨[], name⟩, '\n' :: rest) := by
  have hread := key_bare h (.inr rfl) ('\n' :: rest)
  rw [statement, header]
  · simp [hread, exactly]
  · intro cs hsame
    obtain ⟨c, cs', hspelled, hbare⟩ := h.head
    rw [hspelled, List.cons_append] at hsame
    exact ne_of_isBareKeyChar hbare (by decide) (List.cons.inj hsame).1

theorem section?_rows : section? (rows.map fun row => .assignment ⟨[], row.name⟩ row.datum) =
    (rows.map Row.assignment, []) := by
  induction rows with
  | nil => rfl
  | cons row rows ih => simp [section?, ih, Row.assignment]

theorem parse_of_toList {source : String} {cs : List Char} (h : source.toList = '[' :: cs) :
    parse source = do
      let ss ← statements (('[' :: cs).length + 1) ('[' :: cs)
      let es ← assignAll (section? ss).1 []
      let es ← openAll (section? ss).2 es
      return finished es := by
  simp only [parse, h]
  rfl

/-- What a document with one table says. -/
theorem parse_sectionText {name : String} (hbare : IsBareName name)
    (h : ∀ row ∈ rows, row.IsSound (Toml.value (nestingLimit - 1)))
    (hdistinct : (rows.map Row.name).Nodup) :
    parse (String.ofList (sectionText name rows)) =
      some [(name, .table (rows.map Row.entry))] := by
  have henough : rows.length < (sectionText name rows).length := by
    have := length_le_length_flatMap (f := fun row : Row => row.text ++ ['\n']) (by simp) rows
    simp only [sectionText, List.length_cons, List.length_append]
    omega
  have hheader := header_text hbare (rows.flatMap (·.text ++ ['\n']))
  have hrest := statements_rows h henough
  have hread : statements ((sectionText name rows).length + 1) (sectionText name rows) =
      some (.header .table ⟨[], name⟩ ::
        rows.map fun row => .assignment ⟨[], row.name⟩ row.datum) := by
    rw [sectionText, statements_of_statement (.inl rfl) hheader, ← sectionText, hrest]
    rfl
  have hset := @assignAll_rows rows [] (by simpa using hdistinct)
  have hopened : openAll (.header .table ⟨[], name⟩ ::
      rows.map fun row => .assignment ⟨[], row.name⟩ row.datum) [] =
      some [(name, .table .header (rows.map fun row => (row.name, .leaf row.datum)))] := by
    rw [openAll, section?_rows]
    simp [openTable, openHere, lookup, hset, openAll]
  have hstarted : (String.ofList (sectionText name rows)).toList = sectionText name rows :=
    String.toList_ofList
  rw [sectionText] at hstarted hread
  rw [sectionText, parse_of_toList hstarted, hread]
  simp [section?, assignAll, hopened, finished, Node.datum, finished_rows]

end

end PegKit.Toml
