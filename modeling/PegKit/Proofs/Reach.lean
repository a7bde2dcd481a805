import PegKit.Proofs.Lexemes
import PegKit.Proofs.Place
import PegKit.Proofs.Progress

/-! How far the check has come in a source. Its tokens follow on one another without a gap, so the
largest end of a token is where the next one starts. The end of the input reaches no further, and to
leave it out changes nothing. -/

namespace PegKit

theorem stop_located (x : Lexeme) (l : Location) :
    (x.located l).span.stop = (l.advance x.text).offset := by
  rw [Location.advance_offset]
  rfl

theorem offset_le_advance (l : Location) (text : List Char) :
    l.offset ≤ (l.advance text).offset := by
  rw [Location.advance_offset]
  exact Nat.le_add_right _ _

/-- After tokens that follow on one another the check has come to where they end. -/
theorem foldl_visit_placed_reach {p : Progress} {l : Location} (h : p.reach = l.offset)
    (xs : List Lexeme) :
    ((placed l xs).foldl Progress.visit p).reach = (l.advance (Lexeme.joined xs)).offset := by
  induction xs generalizing p l with
  | nil => exact h
  | cons x xs ih =>
    have hvisit : (p.visit (x.located l)).reach = (l.advance x.text).offset := by
      rw [Progress.visit_reach, stop_located, h]
      exact Nat.max_eq_right (offset_le_advance l x.text)
    rw [placed, List.foldl_cons, ih hvisit, Lexeme.joined_cons, Location.advance_append]

/-- The end of the input closes a run of stray closing parentheses, as the end of the check does. -/
theorem finish_visit_endOfInput {p : Progress} {t : Token} (hk : t.kind = .endOfInput)
    (hr : t.span.stop ≤ p.reach) : (p.visit t).finish = p.finish := by
  have ht : t.isTrivia = false := by rw [Token.isTrivia, hk]; rfl
  have hs : ¬ p.Strays t := by simp [Progress.Strays, hk]
  rw [Progress.visit_other ht hs]
  simp [Progress.finish, Progress.endStray_eq, Progress.closing, Progress.pendingReport,
    Progress.ownReport, Progress.nextGroups, hk, Nat.max_eq_left hr]

theorem validate_dropLast_tokenize (rules : LexicalRules) (source : String) :
    validate (tokenize rules source).dropLast = validate (tokenize rules source) := by
  have hreach := foldl_visit_placed_reach (p := .initial) (l := .start) rfl
    (lexemes rules source.toList)
  rw [tokenize_eq, placed_append, placed, placed, List.dropLast_concat, validate, validate,
    List.foldl_append]
  have hend : ∀ l, (Lexeme.endOfInput.located l).span.stop = l.offset := stop_located .endOfInput
  exact (finish_visit_endOfInput rfl ((hend _).trans hreach.symm).le).symm

end PegKit
