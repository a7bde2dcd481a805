import PegKit.Lexeme

/-! Reading a source token by token. A cursor is a value: copying it and reading on never affects
another one. It gives every token of its text, then one token for the end of the input, then
nothing. -/

namespace PegKit

structure Cursor where
  rules : LexicalRules
  rest : List Char
  location : Location
  finished : Bool
deriving DecidableEq, Repr

def Lexeme.located (x : Lexeme) (l : Location) : Token :=
  ⟨x.kind, String.ofList x.text, l, x.closed⟩

def Token.endOfInput (l : Location) : Token :=
  ⟨.endOfInput, "", l, true⟩

namespace Cursor

def ofSource (rules : LexicalRules) (source : String) : Cursor :=
  ⟨rules, source.toList, .start, false⟩

/-- The next token and the cursor behind it. -/
def next (c : Cursor) : Option (Token × Cursor) :=
  if c.finished then none
  else
    match c.rest with
    | [] => some (.endOfInput c.location, { c with finished := true })
    | ch :: chars =>
      let x := Lexeme.first c.rules ch chars
      some (x.located c.location,
        { c with
          rest := (ch :: chars).drop x.text.length
          location := c.location.advance x.text })

/-- What reading uses up: the text, and the end of the input. -/
def pending (c : Cursor) : Nat :=
  if c.finished then 0 else c.rest.length + 1

theorem pending_next {c d : Cursor} {t : Token} (h : c.next = some (t, d)) :
    d.pending < c.pending := by
  unfold next at h
  split at h
  · simp at h
  · rename_i hf
    split at h <;> cases h
    · simp [pending, hf]
    · rename_i ch chars hr
      have := List.length_pos_iff.2 (Lexeme.first_text_ne_nil c.rules ch chars)
      simp only [pending, hf, hr, List.length_drop, List.length_cons]
      simp
      omega

def collect (c : Cursor) (before : Array Token) : Array Token :=
  match _h : c.next with
  | none => before
  | some (t, d) => d.collect (before.push t)
termination_by c.pending
decreasing_by exact pending_next _h

/-- The tokens that `c` has yet to give. -/
def remaining (c : Cursor) : List Token :=
  (c.collect #[]).toList

theorem collect_toList (c : Cursor) (before : Array Token) :
    (c.collect before).toList = before.toList ++ c.remaining := by
  suffices h : ∀ n (c : Cursor), c.pending ≤ n → ∀ before : Array Token,
      (c.collect before).toList = before.toList ++ (c.collect #[]).toList from
    h c.pending c (Nat.le_refl _) before
  intro n
  induction n with
  | zero =>
    intro c hc before
    have hn : c.next = none := by
      cases h : c.next with
      | none => rfl
      | some p => have := pending_next h; omega
    rw [collect, collect]
    split <;> simp_all
  | succ n ih =>
    intro c hc before
    rw [collect, collect]
    split
    · simp
    · rename_i t d h
      have := pending_next h
      rw [ih d (by omega), ih d (by omega) (#[].push t)]
      simp

theorem remaining_eq (c : Cursor) :
    c.remaining = match c.next with
      | none => []
      | some (t, d) => t :: d.remaining := by
  rw [remaining, collect]
  split
  · simp_all
  · rename_i t d h
    rw [collect_toList]
    simp [h]

/-- Reads past up to `n` tokens; the number says how many there were. -/
def skip : Nat → Cursor → Nat × Cursor
  | 0, c => (0, c)
  | n + 1, c =>
    match c.next with
    | none => (0, c)
    | some (_, d) =>
      let (k, e) := skip n d
      (k + 1, e)

def find (kind : TokenKind) (c : Cursor) : Option Token × Cursor :=
  match _h : c.next with
  | none => (none, c)
  | some (t, d) => if t.kind = kind then (some t, d) else d.find kind
termination_by c.pending
decreasing_by exact pending_next _h

def exhausted (c : Cursor) : Cursor :=
  { c with rest := [], location := c.location.advance c.rest, finished := true }

end Cursor

/-- All tokens of a source, the end of the input included. -/
def tokenize (rules : LexicalRules) (source : String) : List Token :=
  (Cursor.ofSource rules source).remaining

end PegKit
