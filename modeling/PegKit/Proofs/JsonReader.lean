import PegKit.Json
import PegKit.Proofs.LiteralReader
import Mathlib.Data.List.Forall2

/-! Structured output read back. The reader knows nothing of how the output is laid out: blanks may
stand around every part, and a string may hold any escape. What is printed for a value is read as
this value, so two values are never printed alike. -/

namespace PegKit.Json

/-- A reader takes something from the front of a text and gives it with what is left. -/
abbrev Reader (α : Type) := List Char → Option (α × List Char)

def isBlank (c : Char) : Bool := c == ' ' || c == '\t' || c == '\n' || c == '\r'

def skipBlanks (cs : List Char) : List Char := cs.dropWhile isBlank

def escapes : List (Char × Char) :=
  [('"', '"'), ('\\', '\\'), ('/', '/'), ('b', '\x08'), ('f', '\x0c'), ('n', '\n'), ('r', '\r'),
    ('t', '\t')]

def readText : Reader (List Char)
  | '"' :: rest => some ([], rest)
  | '\\' :: 'u' :: a :: b :: c :: d :: rest => do
    let e ← Text.numberedChar? [a, b, c, d]
    let (s, rest) ← readText rest
    return (e :: s, rest)
  | '\\' :: e :: rest => do
    let c ← escapes.lookup e
    let (s, rest) ← readText rest
    return (c :: s, rest)
  | c :: rest =>
    if c.toNat < 32 then none
    else do
      let (s, rest) ← readText rest
      return (c :: s, rest)
  | [] => none

def readScalar : Reader Json
  | 't' :: 'r' :: 'u' :: 'e' :: rest => some (.boolean true, rest)
  | 'f' :: 'a' :: 'l' :: 's' :: 'e' :: rest => some (.boolean false, rest)
  | cs =>
    let digits := cs.takeWhile Char.isDigit
    if digits = [] then none
    else some (.number (Nat.ofDigitChars 10 digits 0), cs.drop digits.length)

section
variable {α : Type}

/-- Parts with commas between them, up to the closing mark, at least one and at most so many. -/
def readParts (closing : Char) (part : Reader α) : Nat → Reader (List α)
  | 0, _ => none
  | n + 1, cs => do
    let (a, rest) ← part cs
    match skipBlanks rest with
    | [] => none
    | c :: rest =>
      if c = ',' then do
        let (as, rest) ← readParts closing part n rest
        return (a :: as, rest)
      else if c = closing then return ([a], rest)
      else none

def readBlock (closing : Char) (part : Reader α) : Reader (List α) := fun cs =>
  match skipBlanks cs with
  | [] => none
  | c :: rest => if c = closing then some ([], rest) else readParts closing part cs.length cs

end

def readField (value : Reader Json) : Reader (String × Json) := fun cs =>
  match skipBlanks cs with
  | '"' :: rest => do
    let (name, rest) ← readText rest
    match skipBlanks rest with
    | ':' :: rest => do
      let (j, rest) ← value rest
      return ((String.ofList name, j), rest)
    | _ => none
  | _ => none

/-- A value with at most so many others around one that lies in it. -/
def readValue : Nat → Reader Json
  | 0, _ => none
  | depth + 1, cs =>
    match skipBlanks cs with
    | '"' :: rest => (readText rest).map fun (s, rest) => (.text (String.ofList s), rest)
    | '[' :: rest => (readBlock ']' (readValue depth) rest).map fun (js, rest) => (.array js, rest)
    | '\x7b' :: rest =>
      (readBlock '\x7d' (readField (readValue depth)) rest).map fun (fs, rest) => (.object fs, rest)
    | rest => readScalar rest

def read? (text : String) : Option Json :=
  match readValue (text.length + 1) text.toList with
  | some (j, rest) => if skipBlanks rest = [] then some j else none
  | none => none

/-! What the printer writes is read. -/

theorem skipBlanks_cons {c : Char} (hc : isBlank c = false) (rest : List Char) :
    skipBlanks (c :: rest) = c :: rest := by
  rw [skipBlanks, List.dropWhile_cons_of_neg (by simp [hc])]

theorem skipBlanks_append {blanks : List Char} (h : ∀ c ∈ blanks, isBlank c = true)
    {c : Char} (hc : isBlank c = false) (rest : List Char) :
    skipBlanks (blanks ++ c :: rest) = c :: rest := by
  rw [skipBlanks, List.dropWhile_append_of_pos h]
  exact skipBlanks_cons hc rest

section text
variable {rest : List Char}

theorem readText_plain {c : Char} (hq : c ≠ '"') (hb : c ≠ '\\') (hc : ¬ c.toNat < 32) :
    readText (c :: rest) = (readText rest).map fun (s, rest) => (c :: s, rest) := by
  rw [readText]
  · rw [if_neg hc]
    cases readText rest <;> rfl
  · exact hq
  · exact fun _ _ _ _ _ he => absurd he hb
  · exact fun _ _ he => absurd he hb

theorem readText_letter {e c : Char} (he : escapes.lookup e = some c) (hu : e ≠ 'u') :
    readText ('\\' :: e :: rest) = (readText rest).map fun (s, rest) => (c :: s, rest) := by
  rw [readText]
  · rw [he]
    cases readText rest <;> rfl
  · rintro - - - - - rfl
    exact absurd rfl hu

theorem readText_hex4 {c : Char} (hc : c.toNat < 32) :
    readText ('\\' :: 'u' :: (hex4 c.toNat ++ rest)) =
      (readText rest).map fun (s, rest) => (c :: s, rest) := by
  -- the reader asks for four characters one by one, whatever they are
  have hnumber : Text.numberedChar? (hex4 c.toNat) = some c := Text.numberedChar?_zeros _ c
  have hlength : (hex4 c.toNat).length = 4 := by
    have hle : (Nat.toDigits 16 c.toNat).length ≤ 4 := by
      rw [Nat.length_toDigits_le_iff (by decide) (by decide)]
      omega
    simp only [hex4, List.length_append, List.length_replicate]
    omega
  generalize hex4 c.toNat = digits at hnumber hlength
  match digits, hlength with
  | [a, b, d, e], _ =>
    change readText ('\\' :: 'u' :: a :: b :: d :: e :: rest) = _
    rw [readText, hnumber]
    cases readText rest <;> rfl

theorem readText_escaped (c : Char) :
    readText (escaped c ++ rest) = (readText rest).map fun (s, rest) => (c :: s, rest) := by
  unfold escaped
  split_ifs with hq hb h8 hf hn hr ht hc
  · subst hq; exact readText_letter rfl (by decide)
  · subst hb; exact readText_letter rfl (by decide)
  · subst h8; exact readText_letter rfl (by decide)
  · subst hf; exact readText_letter rfl (by decide)
  · subst hn; exact readText_letter rfl (by decide)
  · subst hr; exact readText_letter rfl (by decide)
  · subst ht; exact readText_letter rfl (by decide)
  · simpa using readText_hex4 hc
  · exact readText_plain hq hb hc

theorem readText_flatMap_escaped (s : List Char) :
    readText (s.flatMap escaped ++ '"' :: rest) = some (s, rest) := by
  induction s with
  | nil => rfl
  | cons c s ih => rw [List.flatMap_cons, List.append_assoc, readText_escaped, ih]; rfl

end text

/-- What cannot be taken for more of a number. -/
def EndsPart (rest : List Char) : Prop := ∀ c ∈ rest.head?, c.isDigit = false

theorem endsPart_append {blanks rest : List Char} (h : ∀ c ∈ blanks, isBlank c = true)
    (hrest : EndsPart rest) : EndsPart (blanks ++ rest) := by
  cases blanks with
  | nil => exact hrest
  | cons c blanks =>
    rintro d hd
    obtain rfl : c = d := by simpa using hd
    have hc := h c List.mem_cons_self
    simp only [isBlank, Bool.or_eq_true, beq_iff_eq] at hc
    rcases hc with ((rfl | rfl) | rfl) | rfl <;> rfl

/-- The text `w` is read as `a` behind blanks and in front of what ends a part, and no reader takes
its first character for a blank or for the end of a block. -/
structure Reads {α : Type} (part : Reader α) (w : List Char) (a : α) : Prop where
  head : ∃ c cs, w = c :: cs ∧ isBlank c = false ∧ c ≠ ']' ∧ c ≠ '\x7d'
  read : ∀ blanks rest : List Char, (∀ c ∈ blanks, isBlank c = true) → EndsPart rest →
    part (blanks ++ (w ++ rest)) = some (a, rest)

theorem isBlank_of_mem_newline (depth : Nat) : ∀ c ∈ (newline depth).toList, isBlank c = true := by
  intro c hc
  simp only [newline, String.toList_append, String.toList_ofList, List.mem_append,
    List.mem_replicate] at hc
  rcases hc with hc | ⟨-, rfl⟩
  · obtain rfl : c = '\n' := by simpa using hc
    rfl
  · rfl

section intercalate
variable {w : List Char}

theorem exists_intercalate_cons (sep w : List Char) (ws : List (List Char)) :
    ∃ behind, sep.intercalate (w :: ws) = w ++ behind := by
  cases ws with
  | nil => exact ⟨[], by simp⟩
  | cons u ws => exact ⟨_, by rw [List.intercalate_cons_cons, List.append_assoc]⟩

theorem length_le_length_intercalate (sep : List Char) {ws : List (List Char)} (h : w ∈ ws) :
    w.length ≤ (sep.intercalate ws).length := by
  induction ws with
  | nil => cases h
  | cons v ws ih =>
    cases ws with
    | nil => simp_all
    | cons u ws =>
      rw [List.intercalate_cons_cons, List.length_append, List.length_append]
      rcases List.mem_cons.1 h with rfl | h
      · omega
      · have := ih h
        omega

theorem length_le_length_intercalate_succ (c : Char) (sep : List Char) (ws : List (List Char)) :
    ws.length ≤ ((c :: sep).intercalate ws).length + 1 := by
  induction ws with
  | nil => simp
  | cons v ws ih =>
    cases ws with
    | nil => simp
    | cons u ws =>
      rw [List.intercalate_cons_cons, List.length_append, List.length_append]
      simp only [List.length_cons] at ih ⊢
      omega

end intercalate

section block
variable {α : Type} {part : Reader α} {closing : Char}

theorem readParts_intercalate {b e : List Char} {ws : List (List Char)} {as : List α} {n : Nat}
    (h : List.Forall₂ (Reads part) ws as) (hws : ws ≠ []) (hn : ws.length ≤ n)
    (hb : ∀ c ∈ b, isBlank c = true) (he : ∀ c ∈ e, isBlank c = true)
    (hclosing : closing = ']' ∨ closing = '\x7d') (rest : List Char) :
    readParts closing part n (b ++ ((',' :: b).intercalate ws ++ (e ++ closing :: rest))) =
      some (as, rest) := by
  induction h generalizing n with
  | nil => exact absurd rfl hws
  | @cons w a ws as hw hrest ih =>
    obtain ⟨n, rfl⟩ : ∃ k, n = k + 1 := ⟨n - 1, by simp at hn; omega⟩
    cases hrest with
    | nil =>
      have hend : EndsPart (e ++ closing :: rest) := by
        refine endsPart_append he ?_
        rcases hclosing with rfl | rfl <;> rintro _ ⟨⟩ <;> rfl
      have hskip : skipBlanks (e ++ closing :: rest) = closing :: rest := by
        refine skipBlanks_append he ?_ rest
        rcases hclosing with rfl | rfl <;> rfl
      have hcomma : closing ≠ ',' := by rcases hclosing with rfl | rfl <;> decide
      rw [List.intercalate_singleton, readParts, hw.read _ _ hb hend]
      simp [hskip, hcomma]
    | @cons w' a' ws as hw' hrest =>
      have hothers := ih (by simp) (by simpa using hn)
      rw [List.intercalate_cons_cons, List.append_assoc, List.append_assoc, List.cons_append,
        readParts, hw.read _ _ hb (by rintro _ ⟨⟩; rfl)]
      simp [skipBlanks_cons, isBlank, hothers]

def inside (closing : Char) (depth : Nat) (parts : List String) : List Char :=
  if parts = [] then [closing]
  else
    (newline (depth + 1)).toList ++
      ((',' :: (newline (depth + 1)).toList).intercalate (parts.map String.toList) ++
        ((newline depth).toList ++ [closing]))

theorem toList_block {opening ending : String} {o : Char} (ho : opening.toList = [o])
    (hending : ending.toList = [closing]) (depth : Nat) (parts : List String) :
    (block opening ending depth parts).toList = o :: inside closing depth parts := by
  unfold block inside
  by_cases h : parts = []
  · simp [h, ho, hending]
  · simp [h, ho, hending, String.toList_intercalate]

theorem length_lt_length_block (opening ending : String) (depth : Nat) {parts : List String}
    {w : String} (h : w ∈ parts) :
    w.toList.length < (block opening ending depth parts).toList.length := by
  have hne : parts ≠ [] := List.ne_nil_of_mem h
  have hle := length_le_length_intercalate ("," ++ newline (depth + 1)).toList
    (List.mem_map_of_mem (f := String.toList) h)
  have hpos : 0 < (newline (depth + 1)).toList.length := by simp [newline]
  simp only [block, List.isEmpty_iff, hne, if_false, String.toList_append, List.length_append,
    String.toList_intercalate] at hle ⊢
  omega

theorem inside_cons (depth : Nat) (w : String) (parts : List String) :
    inside closing depth (w :: parts) =
      (newline (depth + 1)).toList ++
        ((',' :: (newline (depth + 1)).toList).intercalate ((w :: parts).map String.toList) ++
          ((newline depth).toList ++ [closing])) := by
  simp [inside]

theorem length_le_length_inside (depth : Nat) (parts : List String) :
    parts.length ≤ (inside closing depth parts).length := by
  cases parts with
  | nil => exact Nat.zero_le _
  | cons w parts =>
    have hle := length_le_length_intercalate_succ ',' (newline (depth + 1)).toList
      ((w :: parts).map String.toList)
    rw [List.length_map] at hle
    rw [inside_cons, List.length_append, List.length_append, List.length_append,
      List.length_singleton]
    omega

theorem readBlock_inside {depth : Nat} {parts : List String} {as : List α} {rest : List Char}
    (h : List.Forall₂ (fun w a => Reads part w.toList a) parts as)
    (hclosing : closing = ']' ∨ closing = '\x7d') :
    readBlock closing part (inside closing depth parts ++ rest) = some (as, rest) := by
  have hws : List.Forall₂ (Reads part) (parts.map String.toList) as := List.forall₂_map_left_iff.2 h
  cases h with
  | nil =>
    have hblank : isBlank closing = false := by rcases hclosing with rfl | rfl <;> rfl
    simp [inside, readBlock, skipBlanks_cons hblank]
  | @cons w a parts as hw hrest =>
    obtain ⟨c, cs, hcs, hc, hbracket, hbrace⟩ := hw.head
    have hne : c ≠ closing := by rcases hclosing with rfl | rfl <;> assumption
    set separator := ',' :: (newline (depth + 1)).toList with hseparator
    have htext : inside closing depth (w :: parts) ++ rest =
        (newline (depth + 1)).toList ++ (separator.intercalate ((w :: parts).map String.toList) ++
          ((newline depth).toList ++ closing :: rest)) := by
      simp [inside_cons, hseparator]
    obtain ⟨behind, hbehind⟩ :=
      exists_intercalate_cons separator w.toList (parts.map String.toList)
    have hskip : skipBlanks (inside closing depth (w :: parts) ++ rest) =
        c :: (cs ++ behind ++ ((newline depth).toList ++ closing :: rest)) := by
      rw [htext, List.map_cons, hbehind, hcs]
      exact skipBlanks_append (isBlank_of_mem_newline _) hc _
    -- the reader takes no more parts than there are characters, which is enough for these
    have hcount : ((w :: parts).map String.toList).length ≤
        (inside closing depth (w :: parts) ++ rest).length := by
      rw [List.length_map, List.length_append]
      exact Nat.le_add_right_of_le (length_le_length_inside depth (w :: parts))
    have hread := readParts_intercalate hws (by simp) hcount (isBlank_of_mem_newline (depth + 1))
      (isBlank_of_mem_newline depth) hclosing rest
    rw [readBlock, hskip]
    simp only [hne, if_false]
    rw [← hread, ← htext]

end block

theorem reads_of_skipped {depth : Nat} {c : Char} {cs : List Char} {j : Json}
    (hc : isBlank c = false) (hbracket : c ≠ ']') (hbrace : c ≠ '\x7d')
    (h : ∀ rest, EndsPart rest → readValue (depth + 1) (c :: (cs ++ rest)) = some (j, rest)) :
    Reads (readValue (depth + 1)) (c :: cs) j where
  head := ⟨c, cs, rfl, hc, hbracket, hbrace⟩
  read blanks rest hblanks hrest := by
    have hread := h rest hrest
    rw [readValue, skipBlanks_cons hc] at hread
    rw [List.cons_append, readValue, skipBlanks_append hblanks hc, hread]

theorem toList_quoted (s : String) :
    (quoted s).toList = '"' :: (s.toList.flatMap escaped ++ ['"']) := by
  simp [quoted]

section values
variable {depth : Nat}

theorem reads_text (s : String) : Reads (readValue (depth + 1)) (quoted s).toList (.text s) := by
  rw [toList_quoted]
  refine reads_of_skipped rfl (by decide) (by decide) fun rest _ => ?_
  rw [readValue, skipBlanks_cons rfl, List.append_assoc, List.singleton_append]
  simp [readText_flatMap_escaped]

theorem reads_boolean (b : Bool) :
    Reads (readValue (depth + 1)) (if b then "true" else "false").toList (.boolean b) := by
  have htrue : "true".toList = ['t', 'r', 'u', 'e'] := by decide
  have hfalse : "false".toList = ['f', 'a', 'l', 's', 'e'] := by decide
  cases b with
  | true =>
    rw [if_pos rfl, htrue]
    exact reads_of_skipped rfl (by decide) (by decide) fun _ _ => rfl
  | false =>
    rw [if_neg (by decide), hfalse]
    exact reads_of_skipped rfl (by decide) (by decide) fun _ _ => rfl

theorem readScalar_of_isDigit {c : Char} (hc : c.isDigit = true) (cs : List Char) :
    readScalar (c :: cs) =
      some (.number (Nat.ofDigitChars 10 ((c :: cs).takeWhile Char.isDigit) 0),
        (c :: cs).drop ((c :: cs).takeWhile Char.isDigit).length) := by
  rw [readScalar]
  · simp [hc]
  · rintro - ⟨⟩
    cases hc
  · rintro - ⟨⟩
    cases hc

theorem readScalar_digits (n : Nat) {rest : List Char} (hrest : EndsPart rest) :
    readScalar (Nat.toDigits 10 n ++ rest) = some (.number n, rest) := by
  have hdigits : ∀ c ∈ Nat.toDigits 10 n, c.isDigit = true := fun c hc =>
    Nat.isDigit_of_mem_toDigits (by decide) (by decide) hc
  have htake : (Nat.toDigits 10 n ++ rest).takeWhile Char.isDigit = Nat.toDigits 10 n := by
    rw [List.takeWhile_append_of_pos hdigits]
    cases rest with
    | nil => simp
    | cons c rest => simp [hrest c rfl]
  obtain ⟨c, cs, hcs⟩ := List.exists_cons_of_ne_nil (Nat.toDigits_ne_nil (b := 10) (n := n))
  have hread := readScalar_of_isDigit (hdigits c (by simp [hcs])) (cs ++ rest)
  rw [← List.cons_append, ← hcs, htake, Nat.ofDigitChars_ten_toDigits, List.drop_left] at hread
  exact hread

theorem reads_number (n : Nat) : Reads (readValue (depth + 1)) (toString n).toList (.number n) := by
  have hdigits : (toString n).toList = Nat.toDigits 10 n := by
    rw [Nat.toString_eq_repr, Nat.repr_eq_ofList_toDigits, String.toList_ofList]
  obtain ⟨c, cs, hcs⟩ := List.exists_cons_of_ne_nil (Nat.toDigits_ne_nil (b := 10) (n := n))
  have hc : c.isDigit = true :=
    Nat.isDigit_of_mem_toDigits (by decide) (by decide) (hcs ▸ List.mem_cons_self)
  have hne : ∀ d : Char, d.isDigit = false → c ≠ d := by
    rintro d hd rfl
    rw [hc] at hd
    cases hd
  have hblank : isBlank c = false := by
    simp [isBlank, hne ' ' rfl, hne '\t' rfl, hne '\n' rfl, hne '\r' rfl]
  rw [hdigits, hcs]
  refine reads_of_skipped hblank (hne _ rfl) (hne _ rfl) fun rest hrest => ?_
  have hread := readScalar_digits n hrest
  rw [hcs, List.cons_append] at hread
  rw [readValue, skipBlanks_cons hblank, ← hread]
  split
  case h_1 he => exact absurd (List.cons.inj he).1 (hne _ rfl)
  case h_2 he => exact absurd (List.cons.inj he).1 (hne _ rfl)
  case h_3 he => exact absurd (List.cons.inj he).1 (hne _ rfl)
  case h_4 => rfl

theorem reads_array {parts : List String} {js : List Json} (indent : Nat)
    (h : List.Forall₂ (fun w j => Reads (readValue depth) w.toList j) parts js) :
    Reads (readValue (depth + 1)) (block "[" "]" indent parts).toList (.array js) := by
  have hmarks : "[".toList = ['['] ∧ "]".toList = [']'] := by decide
  rw [toList_block hmarks.1 hmarks.2]
  refine reads_of_skipped rfl (by decide) (by decide) fun rest _ => ?_
  rw [readValue, skipBlanks_cons rfl]
  simp [readBlock_inside h (.inl rfl)]

theorem reads_field {w : List Char} {j : Json} (name : String) (h : Reads (readValue depth) w j) :
    Reads (readField (readValue depth)) ((quoted name).toList ++ (": ".toList ++ w)) (name, j) where
  head := ⟨'"', _, by rw [toList_quoted]; rfl, rfl, by decide, by decide⟩
  read blanks rest hblanks hrest := by
    have hcolon : ": ".toList = [':', ' '] := by decide
    have htext : (quoted name).toList ++ (": ".toList ++ w) ++ rest =
        '"' :: (name.toList.flatMap escaped ++ '"' :: ':' :: ([' '] ++ (w ++ rest))) := by
      simp [toList_quoted, hcolon]
    have hvalue : readValue depth (' ' :: (w ++ rest)) = some (j, rest) :=
      h.read [' '] rest (by simp [isBlank]) hrest
    rw [htext, readField, skipBlanks_append hblanks rfl]
    simp only [readText_flatMap_escaped, Option.bind_eq_bind, Option.bind_some]
    rw [skipBlanks_cons rfl]
    simp [hvalue]

theorem reads_object {parts : List String} {fields : List (String × Json)} (indent : Nat)
    (h : List.Forall₂ (fun w f => Reads (readField (readValue depth)) w.toList f) parts fields) :
    Reads (readValue (depth + 1)) (block "\x7b" "\x7d" indent parts).toList (.object fields) := by
  have hmarks : "\x7b".toList = ['\x7b'] ∧ "\x7d".toList = ['\x7d'] := by decide
  rw [toList_block hmarks.1 hmarks.2]
  refine reads_of_skipped rfl (by decide) (by decide) fun rest _ => ?_
  rw [readValue, skipBlanks_cons rfl]
  simp [readBlock_inside h (.inr rfl)]

end values

mutual

/-- What is printed for a value is read as this value, whatever stands around it. -/
theorem reads_render : ∀ (j : Json) (indent depth : Nat),
    (j.render indent).toList.length < depth → Reads (readValue depth) (j.render indent).toList j
  | _, _, 0, h => absurd h (Nat.not_lt_zero _)
  | .boolean b, indent, depth + 1, _ => reads_boolean b
  | .number n, indent, depth + 1, _ => reads_number n
  | .text s, indent, depth + 1, _ => reads_text s
  | .array items, indent, depth + 1, h => by
    refine reads_array indent (reads_renderItems items (indent + 1) depth fun w hw => ?_)
    exact Nat.lt_of_lt_of_le (length_lt_length_block _ _ indent hw) (Nat.le_of_lt_succ h)
  | .object fields, indent, depth + 1, h => by
    refine reads_object indent (reads_renderFields fields (indent + 1) depth fun w hw => ?_)
    exact Nat.lt_of_lt_of_le (length_lt_length_block _ _ indent hw) (Nat.le_of_lt_succ h)

theorem reads_renderItems : ∀ (items : List Json) (indent depth : Nat),
    (∀ w ∈ renderItems indent items, w.toList.length < depth) →
    List.Forall₂ (fun w j => Reads (readValue depth) w.toList j) (renderItems indent items) items
  | [], _, _, _ => .nil
  | j :: items, indent, depth, h => by
    rw [renderItems, List.forall_mem_cons] at h
    exact .cons (reads_render j indent depth h.1) (reads_renderItems items indent depth h.2)

theorem reads_renderFields : ∀ (fields : List (String × Json)) (indent depth : Nat),
    (∀ w ∈ renderFields indent fields, w.toList.length < depth) →
    List.Forall₂ (fun w f => Reads (readField (readValue depth)) w.toList f)
      (renderFields indent fields) fields
  | [], _, _, _ => .nil
  | (name, j) :: fields, indent, depth, h => by
    rw [renderFields, List.forall_mem_cons] at h
    refine .cons ?_ (reads_renderFields fields indent depth h.2)
    have hj : (j.render indent).toList.length < depth := by
      have := h.1
      simp only [String.toList_append, List.length_append] at this
      omega
    have hfield := reads_field name (reads_render j indent depth hj)
    simpa using hfield

end

/-- The printed value with a line break behind it. -/
theorem read?_render (j : Json) : read? (j.render 0 ++ "\n") = some j := by
  have htext : (j.render 0 ++ "\n").toList = (j.render 0).toList ++ ['\n'] := by simp
  have hlength : (j.render 0).toList.length < (j.render 0 ++ "\n").length + 1 := by
    rw [← String.length_toList, htext, List.length_append]
    omega
  have hread := (reads_render j 0 _ hlength).read [] ['\n'] (by simp) (by rintro _ ⟨⟩; rfl)
  rw [List.nil_append] at hread
  rw [read?, htext, hread]
  rfl

end PegKit.Json
