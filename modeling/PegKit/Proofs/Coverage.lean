import PegKit.Proofs.Lexemes
import PegKit.Proofs.Place
import Mathlib

/-! Reading a source to its end, whatever the rules say. The calls of `next` give the tokens of the
source and then nothing more; the tokens end with the end of the input and cover the source; each
stands where the text before it ends. -/

namespace PegKit

namespace Cursor

/-- The cursor as a call of `next` leaves it: itself once there is nothing left. -/
def moved (c : Cursor) : Cursor :=
  match c.next with
  | none => c
  | some (_, d) => d

def answer (c : Cursor) : Nat → Option Token
  | 0 => c.next.map Prod.fst
  | n + 1 => c.moved.answer n

theorem remaining_moved (c : Cursor) : c.moved.remaining = c.remaining.tail := by
  rw [remaining_eq c]
  unfold moved
  cases h : c.next with
  | none => simp [remaining_eq c, h]
  | some p => rfl

theorem answer_eq (c : Cursor) (n : Nat) : c.answer n = c.remaining[n]? := by
  induction n generalizing c with
  | zero =>
    rw [remaining_eq]
    cases h : c.next <;> simp [answer, h]
  | succ n ih => rw [answer, ih, remaining_moved, List.getElem?_tail]

end Cursor

theorem join_text_placed (l : Location) (xs : List Lexeme) :
    String.join ((placed l xs).map Token.text) = String.ofList (Lexeme.joined xs) := by
  induction xs generalizing l with
  | nil => simp [placed]
  | cons x xs ih => simp [placed, ih, Lexeme.located]

theorem join_text_tokenize (rules : LexicalRules) (source : String) :
    String.join ((tokenize rules source).map Token.text) = source := by
  rw [tokenize_eq, join_text_placed, Lexeme.joined_append, joined_lexemes]
  simp [Lexeme.endOfInput]

theorem location_of_placed_eq {l : Location} {xs : List Lexeme} {before after : List Token}
    {t : Token} (h : placed l xs = before ++ t :: after) :
    t.location = l.advance (String.join (before.map Token.text)).toList := by
  induction before generalizing l xs with
  | nil =>
    cases xs with
    | nil => simp [placed] at h
    | cons x xs =>
      simp only [placed, List.nil_append, List.cons.injEq] at h
      simp [← h.1, Lexeme.located]
  | cons s before ih =>
    cases xs with
    | nil => simp [placed] at h
    | cons x xs =>
      simp only [placed, List.cons_append, List.cons.injEq] at h
      rw [ih h.2, ← h.1]
      simp [Lexeme.located, Location.advance_append]

theorem mem_placed {l : Location} {xs : List Lexeme} {t : Token} (h : t ∈ placed l xs) :
    ∃ x ∈ xs, x.kind = t.kind ∧ t.text = String.ofList x.text := by
  induction xs generalizing l with
  | nil => simp [placed] at h
  | cons x xs ih =>
    rcases List.mem_cons.1 h with rfl | h
    · exact ⟨x, List.mem_cons_self, rfl, rfl⟩
    · obtain ⟨y, hy, hk⟩ := ih h
      exact ⟨y, List.mem_cons_of_mem _ hy, hk⟩

theorem location_of_tokenize_eq {rules : LexicalRules} {source : String}
    {before after : List Token} {t : Token} (h : tokenize rules source = before ++ t :: after) :
    t.location = Location.behind (String.join (before.map Token.text)).toList := by
  rw [tokenize_eq] at h
  rw [location_of_placed_eq h, Location.start_advance]

/-- The texts before a token are a part of the source, so it starts between two characters. -/
theorem offset_isValid_of_tokenize_eq {rules : LexicalRules} {source : String}
    {before after : List Token} {t : Token} (h : tokenize rules source = before ++ t :: after) :
    String.Pos.Raw.IsValid source ⟨t.location.offset⟩ := by
  rw [String.Pos.Raw.isValid_iff_exists_append]
  refine ⟨String.join (before.map Token.text), String.join ((t :: after).map Token.text), ?_, ?_⟩
  · rw [← String.join_append, ← List.map_append, ← h, join_text_tokenize]
  · rw [location_of_tokenize_eq h]
    simp only [Location.behind, String.ofList_toList]
    rfl

/-- Any source under any rules, also rules that could match nothing or everything: reading it ends,
and its tokens are the source cut into pieces that know their place. -/
theorem tokenize_covers (rules : LexicalRules) (source : String) :
    (∀ n, (Cursor.ofSource rules source).answer n = (tokenize rules source)[n]?) ∧
    (tokenize rules source).length ≤ source.length + 1 ∧
    (∃ body last, tokenize rules source = body ++ [last] ∧
      last.kind = .endOfInput ∧ last.text = "" ∧
      ∀ t ∈ body, t.kind ≠ .endOfInput ∧ t.text ≠ "") ∧
    String.join ((tokenize rules source).map Token.text) = source ∧
    ∀ before t after, tokenize rules source = before ++ t :: after →
      let seen := String.join (before.map Token.text)
      t.location.offset = seen.utf8ByteSize ∧
      String.Pos.Raw.IsValid source ⟨t.location.offset⟩ ∧
      t.location.line = 1 + seen.toList.count '\n' ∧
      t.location.column = 1 + (lastLine seen.toList).length := by
  refine ⟨fun n => Cursor.answer_eq _ n, ?_, ?_, join_text_tokenize rules source, ?_⟩
  · have hl := length_lexemes_le rules source.toList
    rw [String.length_toList] at hl
    simpa [tokenize_eq] using hl
  · obtain ⟨l, hl⟩ := exists_tokenize_eq rules source
    refine ⟨_, _, hl, rfl, rfl, ?_⟩
    intro t ht
    obtain ⟨x, hx, hk, he⟩ := mem_placed ht
    constructor
    · rw [← hk]
      exact kind_ne_endOfInput_of_mem_lexemes hx
    · rw [he]
      simpa using text_ne_nil_of_mem_lexemes hx
  · intro before t after h
    have hl := location_of_tokenize_eq h
    refine ⟨?_, offset_isValid_of_tokenize_eq h, by rw [hl]; rfl, by rw [hl]; rfl⟩
    rw [hl, Location.behind, String.ofList_toList]

/-- Rules that invite a standstill: marks without text, a blank and a letter as string delimiters,
and one of these as the escape. -/
def LexicalRules.crooked : LexicalRules where
  lineComments := ["", "é"]
  blockComments := [⟨"", "x"⟩, ⟨"/", ""⟩]
  stringDelimiters := [' ', 'x']
  escape := some 'x'

theorem tokenize_covers_crooked :
    tokenize .crooked "/ \néx\nxx" =
      [⟨.operator, "/", ⟨0, 1, 1⟩, true⟩, ⟨.whitespace, " \n", ⟨1, 1, 2⟩, true⟩,
        ⟨.comment, "éx", ⟨3, 2, 1⟩, true⟩, ⟨.whitespace, "\n", ⟨6, 2, 3⟩, true⟩] ++
      ⟨.stringLiteral, "xx", ⟨7, 3, 1⟩, false⟩ :: [.endOfInput ⟨9, 3, 3⟩] ∧
    (7 = (String.join ["/", " \n", "éx", "\n"]).utf8ByteSize ∧
      String.Pos.Raw.IsValid "/ \néx\nxx" ⟨7⟩ ∧
      3 = 1 + (String.join ["/", " \n", "éx", "\n"]).toList.count '\n' ∧
      1 = 1 + (lastLine (String.join ["/", " \n", "éx", "\n"]).toList).length) := by
  have h : tokenize .crooked "/ \néx\nxx" =
      [⟨.operator, "/", ⟨0, 1, 1⟩, true⟩, ⟨.whitespace, " \n", ⟨1, 1, 2⟩, true⟩,
        ⟨.comment, "éx", ⟨3, 2, 1⟩, true⟩, ⟨.whitespace, "\n", ⟨6, 2, 3⟩, true⟩] ++
      ⟨.stringLiteral, "xx", ⟨7, 3, 1⟩, false⟩ :: [.endOfInput ⟨9, 3, 3⟩] := by
    cbv
  exact ⟨h, (tokenize_covers .crooked "/ \néx\nxx").2.2.2.2 _ _ _ h⟩

end PegKit
