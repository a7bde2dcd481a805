import PegKit.Proofs.Lexemes
import PegKit.Proofs.Place

/-! A text as a part of a longer one. A place in it becomes a place in the longer text when the bytes
and the lines before are added; the columns before count on its first line only. Its lexemes become
the same tokens, each at the place that its own becomes. -/

namespace PegKit

/-- The place `m` of a text that starts at `l` in a longer one. -/
def Location.within (l m : Location) : Location where
  offset := m.offset + l.offset
  line := m.line + (l.line - 1)
  column := if m.line = 1 then m.column + (l.column - 1) else m.column

/-- The token of a text that starts at `l` in a longer one. -/
def Token.within (l : Location) (t : Token) : Token := { t with location := l.within t.location }

namespace Location

theorem within_start {l : Location} (hl : 1 ≤ l.line) (hc : 1 ≤ l.column) : l.within start = l := by
  obtain ⟨offset, line, column⟩ := l
  simp only [within, start, if_true, mk.injEq] at hl hc ⊢
  omega

theorem line_le_step (m : Location) (c : Char) : m.line ≤ (m.step c).line := by
  unfold step
  split_ifs
  · exact Nat.le_succ m.line
  · exact Nat.le_refl m.line

theorem step_within (l : Location) {m : Location} (hm : 1 ≤ m.line) (c : Char) :
    (l.within m).step c = l.within (m.step c) := by
  have hadd : ∀ a b d : Nat, a + b + d = a + d + b := Nat.add_right_comm
  by_cases hc : c = '\n'
  · have hnot : m.line ≠ 0 := by omega
    simp [step, within, hc, hnot, hadd m.offset, hadd m.line]
  · by_cases hfirst : m.line = 1
    · simp [step, within, hc, hfirst, hadd m.offset, hadd m.column]
    · simp [step, within, hc, hfirst, hadd m.offset]

theorem advance_within (l : Location) {m : Location} (hm : 1 ≤ m.line) (text : List Char) :
    (l.within m).advance text = l.within (m.advance text) := by
  induction text generalizing m with
  | nil => rfl
  | cons c text ih =>
    rw [advance_cons, advance_cons, step_within l hm, ih (hm.trans (line_le_step m c))]

theorem line_le_advance (m : Location) (text : List Char) : m.line ≤ (m.advance text).line := by
  induction text generalizing m with
  | nil => exact Nat.le_refl m.line
  | cons c text ih => exact (line_le_step m c).trans (ih (m.step c))

theorem behind_within_start (text : List Char) : (behind text).within start = behind text :=
  within_start (Nat.le_add_right 1 _) (Nat.le_add_right 1 _)

end Location

theorem placed_within (l : Location) {m : Location} (hm : 1 ≤ m.line) (xs : List Lexeme) :
    placed (l.within m) xs = (placed m xs).map (Token.within l) := by
  induction xs generalizing m with
  | nil => rfl
  | cons x xs ih =>
    have hnext : 1 ≤ (m.advance x.text).line := hm.trans (m.line_le_advance x.text)
    rw [placed, placed, Location.advance_within l hm, ih hnext, List.map_cons]
    rfl

theorem placed_behind (text : List Char) (xs : List Lexeme) :
    placed (.behind text) xs = (placed .start xs).map (Token.within (.behind text)) := by
  rw [← placed_within _ (Nat.le_refl 1), Location.behind_within_start]

end PegKit
