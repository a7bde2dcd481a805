import PegKit.Proofs.Coverage
import PegKit.Proofs.Relocation

/-! Cursors that are moved on and copied in any order. A cursor is a value, so nothing that is done
to one has an effect on another: each goes on behind the tokens that it has given, and before it the
cursors that it was copied from. What it gives from there on are the tokens that its text has by
itself, put where the cursor stands. -/

namespace PegKit

/-- What is done to one of several readers, which are numbered in the order in which they came. -/
inductive Call where
  | next (reader : Nat)
  | copy (reader : Nat)

namespace Call
variable {α β : Type}

def apply (step : α → α) (values : List α) : Call → List α
  | next i => values.modify i step
  | copy i => values ++ values[i]?.toList

def run (step : α → α) (start : α) (calls : List Call) : List α :=
  calls.foldl (apply step) [start]

section
variable {R : α → β → Prop} {f : α → α} {g : β → β} {as : List α} {bs : List β}

theorem forall₂_modify (hstep : ∀ a b, R a b → R (f a) (g b)) (h : List.Forall₂ R as bs) (i : Nat) :
    List.Forall₂ R (as.modify i f) (bs.modify i g) := by
  induction h generalizing i with
  | nil => simp
  | cons hab hrest ih =>
    cases i with
    | zero => exact .cons (hstep _ _ hab) hrest
    | succ i => exact .cons hab (ih i)

theorem forall₂_getElem? (h : List.Forall₂ R as bs) (i : Nat) :
    List.Forall₂ R as[i]?.toList bs[i]?.toList := by
  induction h generalizing i with
  | nil => simp
  | cons hab _ ih =>
    cases i with
    | zero => exact .cons hab .nil
    | succ i => exact ih i

/-- What holds between two values holds after the same call, if a step on both sides keeps it. -/
theorem forall₂_apply (hstep : ∀ a b, R a b → R (f a) (g b)) (h : List.Forall₂ R as bs)
    (call : Call) : List.Forall₂ R (apply f as call) (apply g bs call) := by
  cases call with
  | next i => exact forall₂_modify hstep h i
  | copy i => exact List.rel_append h (forall₂_getElem? h i)

theorem forall₂_run (hstep : ∀ a b, R a b → R (f a) (g b)) {a : α} {b : β} (h : R a b)
    (calls : List Call) : List.Forall₂ R (run f a calls) (run g b calls) := by
  induction calls using List.reverseRecOn with
  | nil => exact .cons h .nil
  | append_singleton calls call ih =>
    rw [run, run, List.foldl_concat, List.foldl_concat]
    exact forall₂_apply hstep ih call

end

end Call

/-- A cursor with the tokens that it, or the cursors it was copied from, gave so far. -/
structure Reading where
  cursor : Cursor
  taken : List Token
deriving DecidableEq, Repr

namespace Reading

def ofSource (rules : LexicalRules) (source : String) : Reading := ⟨.ofSource rules source, []⟩

def next (r : Reading) : Reading :=
  match r.cursor.next with
  | none => r
  | some (t, d) => ⟨d, r.taken ++ [t]⟩

theorem cursor_next (r : Reading) : r.next.cursor = r.cursor.moved := by
  cases h : r.cursor.next <;> simp [next, Cursor.moved, h]

theorem taken_next (r : Reading) : r.next.taken = r.taken ++ r.cursor.remaining.head?.toList := by
  rw [Cursor.remaining_eq]
  cases h : r.cursor.next <;> simp [next, h]

end Reading

def readings (rules : LexicalRules) (source : String) (calls : List Call) : List Reading :=
  Call.run Reading.next (.ofSource rules source) calls

/-- How often each reader was moved on: those that it was copied from up to the copy, then
itself. -/
def ownCalls (calls : List Call) : List Nat := Call.run (· + 1) 0 calls

namespace Cursor

def IsPlaced (c : Cursor) : Prop := ∃ before, c.location = .behind before

theorem next_keeps {c d : Cursor} {t : Token} (h : c.next = some (t, d)) :
    d.rules = c.rules ∧ ∃ text, d.location = c.location.advance text := by
  unfold next at h
  split at h
  · cases h
  · split at h <;> cases h
    · exact ⟨rfl, [], rfl⟩
    · exact ⟨rfl, _, rfl⟩

theorem moved_rules (c : Cursor) : c.moved.rules = c.rules := by
  unfold moved
  split
  · rfl
  · rename_i h
    exact (next_keeps h).1

theorem IsPlaced.moved {c : Cursor} (h : c.IsPlaced) : c.moved.IsPlaced := by
  unfold Cursor.moved
  split
  · exact h
  · rename_i hnext
    obtain ⟨before, hb⟩ := h
    obtain ⟨_, text, hl⟩ := next_keeps hnext
    refine ⟨before ++ text, ?_⟩
    rw [hl, hb, ← Location.start_advance, ← Location.start_advance, Location.advance_append]

theorem IsPlaced.remaining_eq {c : Cursor} (h : c.IsPlaced) (hf : c.finished = false) :
    c.remaining = (tokenize c.rules (String.ofList c.rest)).map (Token.within c.location) := by
  obtain ⟨rules, rest, l, finished⟩ := c
  obtain ⟨before, rfl⟩ : ∃ before, l = .behind before := h
  obtain rfl : finished = false := hf
  rw [remaining_of_not_finished, placed_behind, tokenize_eq, String.toList_ofList]

end Cursor

structure Reading.IsBehind (rules : LexicalRules) (source : String) (n : Nat) (r : Reading) :
    Prop where
  taken : r.taken = (tokenize rules source).take n
  remaining : r.cursor.remaining = (tokenize rules source).drop n
  rules : r.cursor.rules = rules
  placed : r.cursor.IsPlaced

namespace Reading.IsBehind
variable {rules : LexicalRules} {source : String} {n : Nat} {r : Reading}

theorem ofSource (rules : LexicalRules) (source : String) :
    (Reading.ofSource rules source).IsBehind rules source 0 :=
  ⟨rfl, rfl, rfl, [], rfl⟩

theorem next (h : r.IsBehind rules source n) : r.next.IsBehind rules source (n + 1) where
  taken := by rw [taken_next, h.taken, h.remaining, List.head?_drop, ← List.take_add_one]
  remaining := by rw [cursor_next, Cursor.remaining_moved, h.remaining, List.tail_drop]
  rules := by rw [cursor_next, Cursor.moved_rules, h.rules]
  placed := by rw [cursor_next]; exact h.placed.moved

end Reading.IsBehind

/-- Each of several readers has taken as many tokens as it was moved on in its own line, whatever
was done to the others, and the rest of the tokens is what it has yet to give. As long as it has not
come to the end, these are the tokens of the rest of the text by itself, put where it stands. -/
theorem readings_independent (rules : LexicalRules) (source : String) (calls : List Call) :
    List.Forall₂
      (fun n r =>
        r.taken = (tokenize rules source).take n ∧
        r.cursor.remaining = (tokenize rules source).drop n ∧
        (r.cursor.finished = false →
          r.cursor.remaining =
            (tokenize rules (String.ofList r.cursor.rest)).map (Token.within r.cursor.location)))
      (ownCalls calls) (readings rules source calls) := by
  have hrun := Call.forall₂_run (R := Reading.IsBehind rules source) (f := (· + 1))
    (fun _ _ h => h.next) (.ofSource rules source) calls
  refine hrun.imp fun n r h => ⟨h.taken, h.remaining, fun hf => ?_⟩
  rw [h.placed.remaining_eq hf, h.rules]

/-- A copy of a copy, behind blanks that end a line. -/
theorem readings_independent_copies :
    ownCalls [.next 0, .copy 0, .next 0, .next 0, .copy 1, .next 2] = [3, 1, 2] ∧
    ∃ r s t, readings .standard "é\n <-" [.next 0, .copy 0, .next 0, .next 0, .copy 1, .next 2] =
        [r, s, t] ∧
      r.cursor.remaining = [.endOfInput ⟨6, 2, 4⟩] ∧
      s.taken = [⟨.operator, "é", ⟨0, 1, 1⟩, true⟩] ∧
      t.cursor.rest = ['<', '-'] ∧ t.cursor.location = ⟨4, 2, 2⟩ ∧ t.cursor.finished = false ∧
      t.cursor.remaining = (tokenize .standard "<-").map (Token.within ⟨4, 2, 2⟩) := by
  have hown : ownCalls [.next 0, .copy 0, .next 0, .next 0, .copy 1, .next 2] = [3, 1, 2] := by
    decide
  have h := readings_independent .standard "é\n <-"
    [.next 0, .copy 0, .next 0, .next 0, .copy 1, .next 2]
  have hlast : ((readings .standard "é\n <-"
      [.next 0, .copy 0, .next 0, .next 0, .copy 1, .next 2]).map (·.cursor)).getLast? =
      some ⟨.standard, ['<', '-'], ⟨4, 2, 2⟩, false⟩ := by
    decide +kernel
  rw [hown] at h
  obtain ⟨r, _, ⟨_, hr, _⟩, h₁, he⟩ := List.forall₂_cons_left_iff.1 h
  obtain ⟨s, _, ⟨hs, _, _⟩, h₂, rfl⟩ := List.forall₂_cons_left_iff.1 h₁
  obtain ⟨t, _, ⟨_, _, ht⟩, h₃, rfl⟩ := List.forall₂_cons_left_iff.1 h₂
  obtain rfl := List.forall₂_nil_left_iff.1 h₃
  rw [he] at hlast
  obtain ht' : t.cursor = ⟨.standard, ['<', '-'], ⟨4, 2, 2⟩, false⟩ := by simpa using hlast
  refine ⟨hown, r, s, t, he, hr.trans (by decide +kernel), hs.trans (by decide +kernel), ?_⟩
  rw [ht'] at ht ⊢
  exact ⟨rfl, rfl, rfl, ht rfl⟩

end PegKit
