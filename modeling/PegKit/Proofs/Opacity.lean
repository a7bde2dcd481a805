import PegKit.Proofs.LexicalGrammar
import PegKit.Proofs.Views

/-! What lies inside a comment, inside a string or between the tokens carries no structure. A text
in which such parts are replaced is cut at the same places, into pieces of the same classes, and
checked alike: no bracket, sign or quote that stands inside a piece is ever seen from outside. -/

namespace PegKit

/-- A text whose first character ends the line before it. -/
def StartsLine (text : List Char) : Prop := ∃ c ∈ text.head?, c = '\r' ∨ c = '\n'

theorem AtLineEnd.startsLine {text : List Char} {c : Char} (h : AtLineEnd text)
    (hc : c ∈ text.head?) : StartsLine text :=
  ⟨c, hc, h c hc⟩

theorem StartsLine.atLineEnd {text : List Char} (h : StartsLine text) : AtLineEnd text := by
  obtain ⟨c, hc, hb⟩ := h
  intro d hd
  obtain rfl : c = d := Option.mem_unique hc hd
  exact hb

theorem IsBlank.not_isNamePart {c : Char} (h : IsBlank c) : ¬ IsNamePart c := by
  rcases h with rfl | rfl | rfl | rfl <;> unfold IsNamePart <;> decide

theorem IsBlank.ne_hyphen {c : Char} (h : IsBlank c) : c ≠ '-' := by
  rintro rfl
  exact absurd h (by decide)

namespace Lexeme

/-- A character without a meaning in a string between quotes `q`. -/
def IsInert (q c : Char) : Prop := c ≠ '\r' ∧ c ≠ '\n' ∧ c ≠ q ∧ c ≠ '\\'

/-- What a piece may be replaced by. A comment gets another text and a string another inside, both
on one line, and blanks become other blanks, which still end a line where those before did. -/
inductive Redressed : Lexeme → Lexeme → Prop
  | same (x : Lexeme) : Redressed x x
  | comment {body other : List Char} (ho : ∀ c ∈ other, c ≠ '\r' ∧ c ≠ '\n') :
      Redressed ⟨.comment, '#' :: body, true⟩ ⟨.comment, '#' :: other, true⟩
  | closedString {q : Char} {body other : List Char} (ho : ∀ c ∈ other, IsInert q c) :
      Redressed ⟨.stringLiteral, q :: (body ++ [q]), true⟩
        ⟨.stringLiteral, q :: (other ++ [q]), true⟩
  | openString {q : Char} {body other : List Char} (ho : ∀ c ∈ other, IsInert q c) :
      Redressed ⟨.stringLiteral, q :: body, false⟩ ⟨.stringLiteral, q :: other, false⟩
  | whitespace {text other : List Char} (hn : other ≠ []) (ho : ∀ c ∈ other, IsBlank c)
      (hl : StartsLine text → StartsLine other) :
      Redressed ⟨.whitespace, text, true⟩ ⟨.whitespace, other, true⟩

/-- Beginnings of texts that are alike to the piece before them: the same character, or blanks that
end its line if need be. -/
def SameStart (a b : List Char) : Prop :=
  a.head? = b.head? ∨
    ∃ c ∈ a.head?, ∃ d ∈ b.head?, IsBlank c ∧ IsBlank d ∧ (StartsLine a → StartsLine b)

theorem literalUnits_of_inert {q : Char} {body : List Char} (h : ∀ c ∈ body, IsInert q c) :
    LiteralUnits q (some '\\') body := by
  induction body with
  | nil => exact .nil
  | cons c body ih =>
    obtain ⟨hr, hn, hq, he⟩ := h c List.mem_cons_self
    refine .plain hq ?_ ⟨hr, hn⟩ (ih fun d hd => h d (List.mem_cons_of_mem c hd))
    rintro ⟨rfl⟩
    exact he rfl

theorem Fits.isQuote {x : Lexeme} (h : x.Fits) (hk : x.kind = .stringLiteral) :
    ∃ q ∈ x.text.head?, IsQuote q := by
  cases h with
  | closedString hq _ | openString hq _ | danglingString hq _ => exact ⟨_, rfl, hq⟩
  | _ => cases hk

namespace Redressed
variable {x y : Lexeme}

theorem kind_eq (h : x.Redressed y) : x.kind = y.kind := by
  cases h <;> rfl

theorem closed_eq (h : x.Redressed y) : x.closed = y.closed := by
  cases h <;> rfl

theorem text_eq (h : x.Redressed y) (hk : x.kind = .identifier) : x.text = y.text := by
  cases h with
  | same => rfl
  | _ => cases hk

theorem fits (h : x.Redressed y) (hx : x.Fits) : y.Fits := by
  cases h with
  | same => exact hx
  | comment ho => exact .comment ho
  | closedString ho =>
    obtain ⟨q, hq, hi⟩ := hx.isQuote rfl
    cases hq
    exact .closedString hi (literalUnits_of_inert ho)
  | openString ho =>
    obtain ⟨q, hq, hi⟩ := hx.isQuote rfl
    cases hq
    exact .openString hi (literalUnits_of_inert ho)
  | whitespace hn ho _ => exact .whitespace hn ho

theorem stopsAt (h : x.Redressed y) {rest : List Char} (hx : x.StopsAt rest) : y.StopsAt rest := by
  cases h <;> exact hx

theorem sameStart (h : x.Redressed y) (hx : x.Fits) : SameStart x.text y.text := by
  cases h with
  | whitespace hn ho hl =>
    obtain ⟨c, hc, hb⟩ := hx.kind_eq_whitespace_iff.1 rfl
    obtain ⟨d, rest, rfl⟩ := List.exists_cons_of_ne_nil hn
    exact .inr ⟨c, hc, d, rfl, hb, ho d List.mem_cons_self, hl⟩
  | _ => exact .inl rfl

end Redressed

namespace SameStart
variable {a b : List Char}

theorem stopsAt {x : Lexeme} (h : SameStart a b) (hx : x.StopsAt a) : x.StopsAt b := by
  rcases h with he | ⟨c, hc, d, hd, hbc, hbd, hl⟩
  · unfold StopsAt AtLineEnd at hx ⊢
    rwa [← he]
  · have hline : AtLineEnd a → AtLineEnd b := fun h => (hl (h.startsLine hc)).atLineEnd
    unfold StopsAt at hx ⊢
    split at hx
    · exact absurd hbc (hx c hc)
    · exact hline hx
    · exact hline hx
    · intro e he
      obtain rfl : d = e := Option.mem_unique hd he
      exact hbd.not_isNamePart
    · intro _ hn
      exact hbd.ne_hyphen (Option.mem_unique hd hn)
    · trivial

theorem append (h : SameStart a b) (ha : a ≠ []) (hb : b ≠ []) (rest after : List Char) :
    SameStart (a ++ rest) (b ++ after) := by
  obtain ⟨c, a, rfl⟩ := List.exists_cons_of_ne_nil ha
  obtain ⟨d, b, rfl⟩ := List.exists_cons_of_ne_nil hb
  exact h

end SameStart

theorem sameStart_joined {xs ys : List Lexeme} (h : List.Forall₂ Redressed xs ys)
    (hx : ∀ x ∈ xs, x.Fits) : SameStart (joined xs) (joined ys) := by
  cases h with
  | nil => exact .inl rfl
  | cons h _ =>
    have hf := hx _ List.mem_cons_self
    exact (h.sameStart hf).append hf.text_ne_nil (h.fits hf).text_ne_nil _ _

theorem Cuts.redressed {xs ys : List Lexeme} {source : List Char} (h : Cuts xs source)
    (hr : List.Forall₂ Redressed xs ys) : Cuts ys (joined ys) := by
  induction hr generalizing source with
  | nil => exact ⟨rfl, by simp, by simp⟩
  | @cons x y xs ys hxy hrest ih =>
    obtain ⟨rest, rfl, hf, hs, hc⟩ := cuts_cons_iff.1 h
    have hstart : SameStart rest (joined ys) := hc.covers ▸ sameStart_joined hrest hc.fits
    exact cuts_cons_iff.2
      ⟨joined ys, rfl, hxy.fits hf, hstart.stopsAt (hxy.stopsAt hs), ih hc⟩

theorem Redressed.located_alike {x y : Lexeme} (h : x.Redressed y) (l m : Location) :
    (x.located l).Alike (fun _ _ => ()) (y.located m) where
  kind := h.kind_eq
  closed := h.closed_eq
  name hk := congrArg String.ofList (h.text_eq hk)
  place := rfl

end Lexeme

theorem placed_alike {xs ys : List Lexeme} (h : List.Forall₂ Lexeme.Redressed xs ys)
    (l m : Location) : List.Forall₂ (Token.Alike fun _ _ => ()) (placed l xs) (placed m ys) := by
  induction h generalizing l m with
  | nil => exact .nil
  | cons h _ ih => exact .cons (h.located_alike l m) (ih _ _)

/-- A source in which any of the tokens are replaced. -/
def Redresses (source other : String) : Prop :=
  ∃ ys, List.Forall₂ Lexeme.Redressed
      ((tokenize .standard source).dropLast.map Token.lexeme) ys ∧
    other.toList = Lexeme.joined ys

variable {source other : String}

theorem Redresses.alike (h : Redresses source other) :
    List.Forall₂ (Token.Alike fun _ _ => ()) (tokenize .standard source)
      (tokenize .standard other) := by
  obtain ⟨ys, hr, ho⟩ := h
  rw [map_lexeme_tokenize] at hr
  have hcut : Lexeme.Cuts (lexemes .standard source.toList) source.toList :=
    Lexeme.cuts_iff_lexemes.2 rfl
  -- the new pieces are a cut of the new text, and a text has only one
  have hys : lexemes .standard other.toList = ys := by
    rw [ho]
    exact Lexeme.cuts_iff_lexemes.1 (hcut.redressed hr)
  rw [tokenize_eq, tokenize_eq, hys]
  have hend : List.Forall₂ Lexeme.Redressed [Lexeme.endOfInput] [Lexeme.endOfInput] :=
    .cons (.same _) .nil
  exact placed_alike (List.rel_append hr hend) .start .start

theorem Redresses.isValid_eq (h : Redresses source other) :
    (check other).isValid = (check source).isValid :=
  (isValid_eq_of_seen (validate_alike h.alike).2).symm

theorem map_kind_closed_of_alike {α : Type} {view : Nat → Nat → α} {tokens others : List Token}
    (h : List.Forall₂ (Token.Alike view) tokens others) :
    tokens.map (fun t => (t.kind, t.closed)) = others.map fun t => (t.kind, t.closed) := by
  induction h with
  | nil => rfl
  | cons h _ ih => rw [List.map_cons, List.map_cons, h.kind, h.closed, ih]

/-- After any number of replacements the tokens have the same classes and closing flags, and the
check gives the same verdict, the same rules and diagnostics that say the same. -/
theorem check_of_redresses (h : Relation.ReflTransGen Redresses source other) :
    (tokenize .standard other).map (fun t => (t.kind, t.closed)) =
      (tokenize .standard source).map (fun t => (t.kind, t.closed)) ∧
    (check other).isValid = (check source).isValid ∧
    (check other).ruleNames = (check source).ruleNames ∧
    (check other).diagnostics.map (fun d => (d.severity, d.message)) =
      (check source).diagnostics.map fun d => (d.severity, d.message) := by
  induction h with
  | refl => exact ⟨rfl, rfl, rfl, rfl⟩
  | tail _ hstep ih =>
    obtain ⟨hkinds, hvalid, hnames, hsays⟩ := ih
    have halike := hstep.alike
    obtain ⟨hnames', hseen⟩ := validate_alike halike
    refine ⟨?_, ?_, ?_, ?_⟩
    · exact (map_kind_closed_of_alike halike).symm.trans hkinds
    · exact hstep.isValid_eq.trans hvalid
    · exact hnames'.symm.trans hnames
    · have hs := congrArg (List.map fun s : Severity × String × Unit => (s.1, s.2.1)) hseen
      simp only [List.map_map] at hs
      exact hs.symm.trans hsays

/-- Signs go into a string and a comment, and a line break goes between the name and its sign. -/
theorem check_of_redresses_signs :
    Relation.ReflTransGen Redresses "a <-'('#x" "a\r\n<-'<-)#'#\"(" ∧
    (tokenize .standard "a\r\n<-'<-)#'#\"(").map (fun t => (t.kind, t.closed)) =
      [(.identifier, true), (.whitespace, true), (.arrow, true), (.stringLiteral, true),
        (.comment, true), (.endOfInput, true)] ∧
    (check "a\r\n<-'<-)#'#\"(").isValid = true ∧
    (check "a\r\n<-'<-)#'#\"(").ruleNames = ["a"] ∧
    (check "a\r\n<-'<-)#'#\"(").diagnostics.map (fun d => (d.severity, d.message)) = [] := by
  have hcut : (tokenize .standard "a <-'('#x").dropLast.map Token.lexeme =
      [⟨.identifier, ['a'], true⟩, ⟨.whitespace, [' '], true⟩, ⟨.arrow, ['<', '-'], true⟩,
        ⟨.stringLiteral, ['\'', '(', '\''], true⟩, ⟨.comment, ['#', 'x'], true⟩] := by
    cbv
  have hblank : (⟨.whitespace, [' '], true⟩ : Lexeme).Redressed
      ⟨.whitespace, ['\r', '\n'], true⟩ :=
    .whitespace (by simp) (by simp [IsBlank]) (by simp [StartsLine])
  have hstring : (⟨.stringLiteral, ['\'', '(', '\''], true⟩ : Lexeme).Redressed
      ⟨.stringLiteral, ['\'', '<', '-', ')', '#', '\''], true⟩ :=
    @Lexeme.Redressed.closedString '\'' ['('] ['<', '-', ')', '#'] (by simp [Lexeme.IsInert])
  have hcomment : (⟨.comment, ['#', 'x'], true⟩ : Lexeme).Redressed
      ⟨.comment, ['#', '"', '('], true⟩ :=
    .comment (by simp)
  have hredress : Redresses "a <-'('#x" "a\r\n<-'<-)#'#\"(" := by
    unfold Redresses
    rw [hcut]
    exact ⟨_, .cons (.same _) <| .cons hblank <| .cons (.same _) <| .cons hstring <|
      .cons hcomment .nil, by cbv⟩
  have hrun := Relation.ReflTransGen.single hredress
  obtain ⟨hkinds, hvalid, hnames, hsays⟩ := check_of_redresses hrun
  refine ⟨hrun, hkinds.trans ?_, hvalid.trans ?_, hnames.trans ?_, hsays.trans ?_⟩ <;> cbv

end PegKit
