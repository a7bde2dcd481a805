import PegKit.Proofs.Guards
import PegKit.Text.Basic
import Mathlib.Tactic.SplitIfs
import Mathlib.Tactic.IntervalCases

/-! String literals read back. A literal with escapes ends at the first quote that is no part of an
escape, and a raw one at the first quote that its guard follows; no literal holds a bare carriage
return. What a text is written as reads back to it, and the reader stops right behind it. -/

namespace PegKit.Text

/-- How a literal is written: with escapes, or raw with so many number signs around it. -/
inductive LiteralForm where
  | escaped
  | raw (guard : Nat)
deriving DecidableEq, Repr

structure StringLiteral where
  form : LiteralForm
  value : List Char
deriving DecidableEq, Repr

/-- A character by its number, from one to six hexadecimal digits in braces. Underscores may stand
behind a digit. -/
def readBraced (text : List Char) : Option (List Char × List Char) :=
  let digits := text.takeWhile (· != '\x7d')
  let number := digits.filter (· != '_')
  match text.dropWhile (· != '\x7d') with
  | [] => none
  | _ :: rest =>
    if digits.head? = some '_' ∨ number = [] ∨ 6 < number.length then none
    else (numberedChar? number).map fun c => ([c], rest)

def escapeLetters : List (Char × Char) :=
  [('n', '\n'), ('r', '\r'), ('t', '\t'), ('0', '\x00'), ('\\', '\\'), ('\'', '\''), ('"', '"')]

/-- The blanks that a line break with a backslash before it takes with it. -/
def isIndent (c : Char) : Bool := c == ' ' || c == '\t' || c == '\n' || c == '\r'

def readLongEscape : Char → List Char → Option (List Char × List Char)
  | '\n', rest => some ([], rest.dropWhile isIndent)
  | 'x', high :: low :: rest =>
    if '0' ≤ high ∧ high ≤ '7' then (numberedChar? [high, low]).map fun c => ([c], rest)
    else none
  | 'u', '\x7b' :: rest => readBraced rest
  | _, _ => none

def readEscape : List Char → Option (List Char × List Char)
  | [] => none
  | c :: rest =>
    match escapeLetters.lookup c with
    | some d => some ([d], rest)
    | none => readLongEscape c rest

theorem length_readBraced_le {text part rest : List Char}
    (h : readBraced text = some (part, rest)) : rest.length ≤ text.length := by
  unfold readBraced at h
  split at h
  · cases h
  · rename_i hd
    simp only at h
    split_ifs at h
    obtain ⟨c, -, he⟩ := Option.map_eq_some_iff.1 h
    cases he
    have := (List.dropWhile_suffix (l := text) (· != '\x7d')).length_le
    rw [hd, List.length_cons] at this
    omega

theorem length_readLongEscape_le {c : Char} {text part rest : List Char}
    (h : readLongEscape c text = some (part, rest)) : rest.length ≤ text.length := by
  unfold readLongEscape at h
  split at h
  · cases h
    exact (List.dropWhile_suffix isIndent).length_le
  · split_ifs at h
    obtain ⟨d, -, he⟩ := Option.map_eq_some_iff.1 h
    cases he
    simp only [List.length_cons]
    omega
  · have := length_readBraced_le h
    rw [List.length_cons]
    omega
  · cases h

theorem length_readEscape_le {text part rest : List Char}
    (h : readEscape text = some (part, rest)) : rest.length ≤ text.length := by
  cases text with
  | nil => cases h
  | cons c text =>
    rw [List.length_cons]
    rw [readEscape] at h
    split at h
    · cases h
      omega
    · have := length_readLongEscape_le h
      omega

/-- The value of a literal with escapes, read behind its opening quote, and what follows it. -/
def readQuoted : List Char → Option (List Char × List Char)
  | [] => none
  | c :: text =>
    if c = '"' then some ([], text)
    else if c = '\\' then
      match _h : readEscape text with
      | none => none
      | some (part, behind) =>
        (readQuoted behind).map fun (value, rest) => (part ++ value, rest)
    else if c = '\r' then none
    else (readQuoted text).map fun (value, rest) => (c :: value, rest)
termination_by text => text.length
decreasing_by
  · have := length_readEscape_le _h
    simp only [List.length_cons]
    omega
  · simp

/-- The value of a raw literal, read behind its opening quote, and what follows it. -/
def readRaw (guard : List Char) : List Char → Option (List Char × List Char)
  | [] => none
  | c :: text =>
    if c = '"' ∧ guard <+: text then some ([], text.drop guard.length)
    else if c = '\r' then none
    else (readRaw guard text).map fun (value, rest) => (c :: value, rest)

def readLiteral : List Char → Option (StringLiteral × List Char)
  | '"' :: text => (readQuoted text).map fun (value, rest) => (⟨.escaped, value⟩, rest)
  | 'r' :: text =>
    let guard := text.takeWhile (· == '#')
    match text.dropWhile (· == '#') with
    | '"' :: body =>
      (readRaw guard body).map fun (value, rest) => (⟨.raw guard.length, value⟩, rest)
    | _ => none
  | _ => none

section hexadecimal

theorem hexDigit?_digitChar : ∀ d < 16, hexDigit? (Nat.digitChar d) = some d := by decide

theorem foldlM_hexDigit?_toDigits (n : Nat) :
    (Nat.toDigits 16 n).foldlM (fun n c => do return 16 * n + (← hexDigit? c)) 0 = some n := by
  induction n using Nat.strong_induction_on with
  | _ n ih =>
    rcases Nat.lt_or_ge n 16 with h | h
    · rw [Nat.toDigits_of_lt_base h]
      simp [hexDigit?_digitChar n h]
    · rw [Nat.toDigits_of_base_le (by decide) h, List.foldlM_append, ih (n / 16) (by omega)]
      have hd := hexDigit?_digitChar (n % 16) (by omega)
      have hn : 16 * (n / 16) + n % 16 = n := Nat.div_add_mod n 16
      simp [hd, hn]

theorem isSome_hexDigit?_of_mem_toDigits {n : Nat} {c : Char} (h : c ∈ Nat.toDigits 16 n) :
    (hexDigit? c).isSome = true := by
  induction n using Nat.strong_induction_on with
  | _ n ih =>
    rcases Nat.lt_or_ge n 16 with hn | hn
    · rw [Nat.toDigits_of_lt_base hn, List.mem_singleton] at h
      rw [h, hexDigit?_digitChar n hn]
      rfl
    · rw [Nat.toDigits_of_base_le (by decide) hn, List.mem_append, List.mem_singleton] at h
      rcases h with h | rfl
      · exact ih (n / 16) (by omega) h
      · rw [hexDigit?_digitChar _ (by omega)]
        rfl

theorem numberedChar?_toDigits (c : Char) : numberedChar? (Nat.toDigits 16 c.toNat) = some c := by
  have hv : c.toNat.isValidChar := c.valid
  rw [numberedChar?, foldlM_hexDigit?_toDigits]
  simp [hv, Char.ofNat_toNat]

theorem numberedChar?_zeros (k : Nat) (c : Char) :
    numberedChar? (List.replicate k '0' ++ Nat.toDigits 16 c.toNat) = some c := by
  have hzero : hexDigit? '0' = some 0 := by decide
  have hzeros : (List.replicate k '0' ++ Nat.toDigits 16 c.toNat).foldlM
      (fun n c => do return 16 * n + (← hexDigit? c)) 0 =
      (Nat.toDigits 16 c.toNat).foldlM (fun n c => do return 16 * n + (← hexDigit? c)) 0 := by
    induction k with
    | zero => rfl
    | succ k ih => simpa [List.replicate_succ, hzero] using ih
  rw [← numberedChar?_toDigits c, numberedChar?, numberedChar?, hzeros]

theorem length_toDigits_le (c : Char) : (Nat.toDigits 16 c.toNat).length ≤ 6 := by
  rw [Nat.length_toDigits_le_iff (by decide) (by decide)]
  have hv : c.toNat.isValidChar := c.valid
  rcases hv with h | ⟨-, h⟩
  · omega
  · omega

end hexadecimal

section quoted
variable {text : List Char}

theorem readBraced_toDigits (c : Char) :
    readBraced (Nat.toDigits 16 c.toNat ++ '\x7d' :: text) = some ([c], text) := by
  have hne : ∀ d : Char, (hexDigit? d).isSome = false → ∀ e ∈ Nat.toDigits 16 c.toNat, e ≠ d := by
    rintro d hd e he rfl
    rw [isSome_hexDigit?_of_mem_toDigits he] at hd
    cases hd
  have hb : ∀ d ∈ Nat.toDigits 16 c.toNat, (d != '\x7d') = true := by
    simpa using hne '\x7d' (by decide)
  have hu : ∀ d ∈ Nat.toDigits 16 c.toNat, d ≠ '_' := hne '_' (by decide)
  have ht : (Nat.toDigits 16 c.toNat ++ '\x7d' :: text).takeWhile (· != '\x7d') =
      Nat.toDigits 16 c.toNat := by
    rw [List.takeWhile_append_of_pos hb]
    simp
  have hd : (Nat.toDigits 16 c.toNat ++ '\x7d' :: text).dropWhile (· != '\x7d') =
      '\x7d' :: text := by
    rw [List.dropWhile_append_of_pos hb]
    simp
  have hf : (Nat.toDigits 16 c.toNat).filter (· != '_') = Nat.toDigits 16 c.toNat := by
    rw [List.filter_eq_self]
    simpa using hu
  have hh : (Nat.toDigits 16 c.toNat).head? ≠ some '_' := fun h => hu _ (List.mem_of_head? h) rfl
  have hl := length_toDigits_le c
  rw [readBraced, ht, hd, hf, numberedChar?_toDigits]
  simp [hh, Nat.toDigits_ne_nil, hl]

theorem readQuoted_quote : readQuoted ('"' :: text) = some ([], text) := by
  rw [readQuoted, if_pos rfl]

theorem readQuoted_plain {c : Char} (hq : c ≠ '"') (hb : c ≠ '\\') (hr : c ≠ '\r') :
    readQuoted (c :: text) = (readQuoted text).map fun (value, rest) => (c :: value, rest) := by
  rw [readQuoted, if_neg hq, if_neg hb, if_neg hr]

theorem readQuoted_escape {part behind : List Char} (h : readEscape text = some (part, behind)) :
    readQuoted ('\\' :: text) =
      (readQuoted behind).map fun (value, rest) => (part ++ value, rest) := by
  rw [readQuoted, if_neg (by decide), if_pos rfl]
  split
  · rename_i hn
    rw [h] at hn
    cases hn
  · rename_i hs
    rw [h] at hs
    cases hs
    rfl

theorem readQuoted_letter {c letter : Char} (h : escapeLetters.lookup letter = some c) :
    readQuoted ('\\' :: letter :: text) =
      (readQuoted text).map fun (value, rest) => (c :: value, rest) := by
  have hr : readEscape (letter :: text) = some ([c], text) := by rw [readEscape, h]
  exact readQuoted_escape hr

theorem readQuoted_escaped (c : Char) :
    readQuoted (escaped c ++ text) =
      (readQuoted text).map fun (value, rest) => (c :: value, rest) := by
  unfold escaped
  split_ifs with h0 ht hr hn hq hb hs
  · subst h0; exact readQuoted_letter rfl
  · subst ht; exact readQuoted_letter rfl
  · subst hr; exact readQuoted_letter rfl
  · subst hn; exact readQuoted_letter rfl
  · subst hq; exact readQuoted_letter rfl
  · subst hb; exact readQuoted_letter rfl
  · have hr : readEscape ('u' :: '\x7b' :: (Nat.toDigits 16 c.toNat ++ '\x7d' :: text)) =
        some ([c], text) := readBraced_toDigits c
    simpa [numbered] using readQuoted_escape hr
  · exact readQuoted_plain hq hb hr

theorem readQuoted_escapedBody (value : List Char) :
    readQuoted (escapedBody value ++ '"' :: text) = some (value, text) := by
  induction value with
  | nil => exact readQuoted_quote
  | cons c value ih =>
    rw [escapedBody, List.append_assoc]
    split_ifs with h
    · rw [Bool.and_eq_true, decide_eq_true_eq] at h
      have hr : readEscape ('x' :: '0' :: '0' :: (escapedBody value ++ '"' :: text)) =
          some (['\x00'], escapedBody value ++ '"' :: text) := rfl
      have hq := readQuoted_escape hr
      rw [ih] at hq
      rw [h.1]
      exact hq
    · rw [readQuoted_escaped, ih]
      rfl

end quoted

section raw
variable {value text : List Char} {n : Nat}

/-- Where a text does not close a guard, the quote behind it does not help it to. -/
theorem replicate_prefix_of_append (h : List.replicate n '#' <+: value ++ '"' :: text) :
    List.replicate n '#' <+: value := by
  induction n generalizing value with
  | zero => exact List.nil_prefix
  | succ n ih =>
    rw [List.replicate_succ] at h ⊢
    cases value with
    | nil => exact absurd (List.cons_prefix_cons.1 h).1 (by decide)
    | cons c value =>
      rw [List.cons_append] at h
      obtain ⟨hc, hp⟩ := List.cons_prefix_cons.1 h
      exact List.cons_prefix_cons.2 ⟨hc, ih hp⟩

theorem readRaw_append (hc : closesGuard n value = false) (hr : '\r' ∉ value) :
    readRaw (List.replicate n '#') (value ++ '"' :: (List.replicate n '#' ++ text)) =
      some (value, text) := by
  induction value with
  | nil =>
    rw [List.nil_append, readRaw, if_pos ⟨rfl, List.prefix_append _ _⟩, List.drop_left]
  | cons c value ih =>
    rw [closesGuard, Bool.or_eq_false_iff] at hc
    rw [List.mem_cons, not_or] at hr
    have hq : ¬ (c = '"' ∧ List.replicate n '#' <+:
        value ++ '"' :: (List.replicate n '#' ++ text)) := by
      rintro ⟨rfl, hp⟩
      have := List.isPrefixOf_iff_prefix.2 (replicate_prefix_of_append hp)
      simp [this] at hc
    rw [List.cons_append, readRaw, if_neg hq, if_neg (Ne.symm hr.1), ih hc.2 hr.2]
    rfl

end raw

theorem readLiteral_escapedLiteral (s : String) (text : List Char) :
    readLiteral ((escapedLiteral s).toList ++ text) = some (⟨.escaped, s.toList⟩, text) := by
  have hl : (escapedLiteral s).toList ++ text =
      '"' :: (escapedBody s.toList ++ '"' :: text) := by
    simp [escapedLiteral]
  rw [hl, readLiteral, readQuoted_escapedBody]
  rfl

theorem readLiteral_rawLiteral {s : String} (hr : '\r' ∉ s.toList) (text : List Char) :
    readLiteral ((rawLiteral s).toList ++ text) =
      some (⟨.raw (leastGuard s.toList 1), s.toList⟩, text) := by
  set n := leastGuard s.toList 1 with hn
  have hl : (rawLiteral s).toList ++ text = 'r' :: (List.replicate n '#' ++
      '"' :: (s.toList ++ '"' :: (List.replicate n '#' ++ text))) := by
    simp [rawLiteral, ← hn]
  have hg : ∀ rest : List Char,
      (List.replicate n '#' ++ '"' :: rest).takeWhile (· == '#') = List.replicate n '#' := by
    intro rest
    rw [List.takeWhile_append_of_pos (by simp)]
    simp
  have hd : ∀ rest : List Char,
      (List.replicate n '#' ++ '"' :: rest).dropWhile (· == '#') = '"' :: rest := by
    intro rest
    rw [List.dropWhile_append_of_pos (by simp)]
    simp
  have hb : readRaw (List.replicate n '#') (s.toList ++ '"' :: (List.replicate n '#' ++ text)) =
      some (s.toList, text) := readRaw_append (closesGuard_leastGuard s.toList 1) hr
  rw [hl, readLiteral, hg, hd]
  simp [hb]

def literalForm (text : List Char) : LiteralForm :=
  if '\r' ∈ text then .escaped else .raw (leastGuard text 1)

/-- What a text is written as reads back to the text, up to where the literal ends. -/
theorem readLiteral_literal (s : String) (text : List Char) :
    readLiteral ((literal s).toList ++ text) = some (⟨literalForm s.toList, s.toList⟩, text) := by
  unfold literal literalForm
  simp only [List.contains_iff_mem]
  split_ifs with h
  · exact readLiteral_escapedLiteral s text
  · exact readLiteral_rawLiteral h text

end PegKit.Text
