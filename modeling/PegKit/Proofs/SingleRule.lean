import PegKit.Proofs.Composition
import PegKit.Proofs.Names
import PegKit.Proofs.Opacity

/-! A grammar of one rule: a name, trivia, the definition sign and a body. Cuts of two texts make up
a cut of the joined text where the last piece of the first can end before the second, so the pieces
of such a grammar are those of its parts. The sign defines the name, and nothing in the body does;
where the parentheses of the body match, all that can be reported are its open strings. -/

namespace PegKit

namespace Lexeme
variable {xs ys : List Lexeme} {a b : List Char}

theorem Cuts.append (ha : Cuts xs a) (hb : Cuts ys b) (hseam : ∀ x ∈ xs.getLast?, x.StopsAt b) :
    Cuts (xs ++ ys) (a ++ b) := by
  induction xs generalizing a with
  | nil =>
    rw [← ha.covers]
    exact hb
  | cons x xs ih =>
    obtain ⟨rest, rfl, hf, hs, hrest⟩ := cuts_cons_iff.1 ha
    have htail : Cuts (xs ++ ys) (rest ++ b) :=
      ih hrest fun y hy => hseam y (by rw [List.getLast?_cons, Option.mem_def.1 hy]; rfl)
    refine cuts_cons_iff.2 ⟨rest ++ b, List.append_assoc .., hf, ?_, htail⟩
    cases rest with
    | nil =>
      have hxs : lexemes .standard [] = xs := cuts_iff_lexemes.1 hrest
      rw [lexemes] at hxs
      exact hseam x (by rw [← hxs]; rfl)
    | cons c rest => exact SameStart.stopsAt (.inl rfl) hs

theorem cuts_lexemes (text : List Char) : Cuts (lexemes .standard text) text :=
  cuts_iff_lexemes.2 rfl

theorem Fits.head?_of_isTrivia {x : Lexeme} (h : x.Fits) (hk : x.kind.isTrivia = true) :
    ∀ c ∈ x.text.head?, IsBlank c ∨ c = '#' := by
  cases h with
  | whitespace _ ht => exact fun c hc => .inl (ht c (List.mem_of_head? hc))
  | comment _ =>
    rintro c hc
    cases hc
    exact .inr rfl
  | _ => cases hk

theorem Fits.isLine_of_comment {x : Lexeme} (h : x.Fits) (hk : x.kind = .comment) :
    IsLine x.text := by
  cases h with
  | comment hb =>
    intro c hc
    rcases List.mem_cons.1 hc with rfl | hc
    · decide
    · exact hb c hc
  | _ => cases hk

end Lexeme

/-- Trivia that can stand before anything: a comment does not end it. -/
structure IsFiller (text : String) : Prop where
  trivia : ∀ t ∈ (tokenize .standard text).dropLast, t.isTrivia = true
  ends : (∃ t ∈ tokenize .standard text, t.kind = .comment) →
    ∃ c ∈ text.toList.getLast?, c = '\r' ∨ c = '\n'

section
variable {name filler : String} (hn : IsName name) (hf : IsFiller filler)

include hf in
theorem isTrivia_of_mem_filler {x : Lexeme} (hx : x ∈ lexemes .standard filler.toList) :
    x.kind.isTrivia = true := by
  rw [← map_lexeme_tokenize] at hx
  obtain ⟨t, ht, rfl⟩ := List.mem_map.1 hx
  exact hf.trivia t ht

include hf in
/-- The last piece of a filler is no comment, since the filler would have to end its line. -/
theorem kind_of_getLast?_filler {x : Lexeme}
    (hx : (lexemes .standard filler.toList).getLast? = some x) : x.kind = .whitespace := by
  have hmem := List.mem_of_getLast? hx
  have hfit := (Lexeme.cuts_lexemes filler.toList).fits x hmem
  have hkind := isTrivia_of_mem_filler hf hmem
  cases hk : x.kind with
  | whitespace => rfl
  | comment =>
    -- a comment at the end would have to end its line, and holds no line break
    have htoken : ∃ t ∈ tokenize .standard filler, t.kind = .comment := by
      rw [← map_lexeme_tokenize] at hmem
      obtain ⟨t, ht, rfl⟩ := List.mem_map.1 hmem
      exact ⟨t, List.mem_of_mem_dropLast ht, hk⟩
    obtain ⟨c, hc, hbreak⟩ := hf.ends htoken
    have hlast : filler.toList.getLast? = x.text.getLast? := by
      rw [← joined_lexemes .standard filler.toList, ← List.dropLast_append_getLast? x hx,
        Lexeme.joined_append, Lexeme.joined_cons, Lexeme.joined_nil, List.append_nil,
        List.getLast?_append_of_ne_nil _ hfit.text_ne_nil]
    have hline := hfit.isLine_of_comment hk c (List.mem_of_getLast? (hlast ▸ hc))
    rcases hbreak with rfl | rfl
    · exact absurd rfl hline.1
    · exact absurd rfl hline.2
  | _ => rw [hk] at hkind; cases hkind

include hf in
theorem stopsAt_of_getLast?_filler {c : Char} (hc : ¬ IsBlank c) (rest : List Char) :
    ∀ x ∈ (lexemes .standard filler.toList).getLast?, x.StopsAt (c :: rest) := by
  intro x hx
  have hk := kind_of_getLast?_filler hf hx
  simpa [Lexeme.StopsAt, hk] using hc

include hf in
theorem not_isNamePart_of_filler (rest : List Char) :
    ∀ c ∈ (filler.toList ++ '<' :: rest).head?, ¬ IsNamePart c := by
  cases hfiller : filler.toList with
  | nil =>
    rintro c hc
    cases hc
    unfold IsNamePart
    decide
  | cons d tail =>
    rintro c hc
    cases hc
    have hmem : Lexeme.first .standard d tail ∈ lexemes .standard filler.toList := by
      rw [hfiller, lexemes]
      exact List.mem_cons_self
    obtain ⟨e, text, ht⟩ := List.exists_cons_of_ne_nil (Lexeme.first_text_ne_nil .standard d tail)
    obtain rfl : e = d :=
      (List.cons_prefix_cons.1 (ht ▸ (Lexeme.readOff_first .standard d tail).cut)).1
    rcases (Lexeme.first_fits e tail).1.head?_of_isTrivia (isTrivia_of_mem_filler hf hmem) e
      (by rw [ht]; rfl) with hb | rfl
    · exact hb.not_isNamePart
    · unfold IsNamePart
      decide

include hn hf in
theorem lexemes_rule (body : String) :
    lexemes .standard (name ++ filler ++ "<-" ++ body).toList =
      ⟨.identifier, name.toList, true⟩ :: (lexemes .standard filler.toList ++
        ⟨.arrow, ['<', '-'], true⟩ :: lexemes .standard body.toList) := by
  obtain ⟨c, rest, hname, hc, hrest⟩ := hn
  have harrow : Lexeme.Cuts (⟨.arrow, ['<', '-'], true⟩ :: lexemes .standard body.toList)
      ('<' :: '-' :: body.toList) :=
    Lexeme.cuts_cons_iff.2 ⟨body.toList, rfl, .arrow, trivial, Lexeme.cuts_lexemes _⟩
  have hfiller := (Lexeme.cuts_lexemes filler.toList).append harrow
    (stopsAt_of_getLast?_filler hf (by decide) _)
  have hjoined : (name ++ filler ++ "<-" ++ body).toList =
      name.toList ++ (filler.toList ++ '<' :: '-' :: body.toList) := by
    simp
  rw [hjoined]
  refine Lexeme.cuts_iff_lexemes.1 (Lexeme.cuts_cons_iff.2 ⟨_, rfl, ?_, ?_, hfiller⟩)
  · rw [hname]
    exact .identifier hc hrest
  · exact not_isNamePart_of_filler hf _

end

theorem tokenize_rule {name filler : String} (hn : IsName name) (hf : IsFiller filler)
    (body : String) :
    ∃ trivia l, (∀ t ∈ trivia, t.isTrivia = true) ∧
      tokenize .standard (name ++ filler ++ "<-" ++ body) =
        ⟨.identifier, name, .start, true⟩ :: (trivia ++ ⟨.arrow, "<-", l, true⟩ ::
          (tokenize .standard body).map
            (Token.within (.behind (name ++ filler ++ "<-").toList))) := by
  refine ⟨placed (.behind name.toList) (lexemes .standard filler.toList),
    .behind (name ++ filler).toList, fun t ht => ?_, ?_⟩
  · exact isTrivia_of_mem_filler hf (lexeme_mem_of_mem_placed ht)
  · rw [tokenize_eq, lexemes_rule hn hf, tokenize_eq .standard body, ← placed_behind]
    simp only [List.cons_append, List.append_assoc, placed, placed_append, joined_lexemes,
      Lexeme.located, String.ofList_toList, ← Location.start_advance, String.toList_append,
      Location.advance_append]
    rfl

section report
variable {tokens back : List Token} {name arrow : Token}

theorem heads_of_forall_ne_arrow (h : ∀ t ∈ tokens, t.kind ≠ .arrow) (previous : Option Token) :
    heads previous tokens = [] ∧ nameless previous tokens = [] := by
  have hmem : ∀ m ∈ withPrevious previous tokens, m.2.kind ≠ .arrow := by
    intro m hm
    obtain ⟨before, after, rfl, -⟩ := mem_withPrevious_iff.1 hm
    exact h m.2 (by simp)
  constructor
  · exact List.filterMap_eq_nil_iff.2 fun m hm => definedBy?_of_ne_arrow m.1 (hmem m hm)
  · rw [nameless, List.map_eq_nil_iff, List.filter_eq_nil_iff]
    exact fun m hm => by simp [lacksName, hmem m hm]

theorem diagnostics_of_isValid (hv : (validate tokens).isValid = true)
    (hr : redefinitions [] (heads none (significant tokens)) = []) :
    (validate tokens).diagnostics =
      (tokens.filter Token.isOpenString).map openStringWarning := by
  rw [← validate_otherWarnings, eq_comm, List.filter_eq_self]
  intro d hd
  have herror : d.isError = false := by
    rw [Report.isValid, Bool.not_eq_true', List.any_eq_false] at hv
    simpa using hv d hd
  have hrule : d.isRedefinition = false := by
    have hnone := validate_redefinitions tokens
    rw [hr, List.map_nil, List.filter_eq_nil_iff] at hnone
    simpa using hnone d hd
  simp [Diagnostic.isOtherWarning, herror, hrule]

theorem validate_single_rule (h : significant tokens = name :: arrow :: back)
    (hn : name.kind = .identifier) (ha : arrow.kind = .arrow)
    (hb : ∀ t ∈ back, t.kind ≠ .arrow) (hd : ∃ word : DyckWord, word.toList = brackets back) :
    (validate tokens).isValid = true ∧ (validate tokens).ruleNames = [name.text] ∧
    (validate tokens).diagnostics =
      (tokens.filter Token.isOpenString).map openStringWarning := by
  obtain ⟨hheads, hnameless⟩ := heads_of_forall_ne_arrow hb (some arrow)
  have hname : definedBy? (none, name) = none := definedBy?_none name
  have hdefined : definedBy? (some name, arrow) = some name := definedBy?_of_identifier ha hn
  have hone : heads none (significant tokens) = [name] := by
    rw [h, heads_cons, heads_cons, hname, hdefined, hheads]
    rfl
  have hvalid : (validate tokens).isValid = true := by
    rw [isValid_iff_isGrammar, h]
    refine ⟨?_, ?_, arrow, by simp, ha⟩
    · simpa [brackets_cons, hn, ha] using hd
    · have hlacks : lacksName (none, name) = false := by simp [lacksName, hn]
      have hlacks' : lacksName (some name, arrow) = false := by simp [lacksName, hdefined]
      simpa [nameless, withPrevious, hlacks, hlacks'] using hnameless
  refine ⟨hvalid, ?_, diagnostics_of_isValid hvalid ?_⟩
  · rw [ruleNames_validate, hone]
    rfl
  · rw [hone]
    rfl

end report

theorem brackets_significant (tokens : List Token) :
    brackets (significant tokens) = brackets tokens := by
  induction tokens with
  | nil => rfl
  | cons t tokens ih =>
    cases ht : t.isTrivia with
    | true =>
      rw [significant_cons_of_trivia ht, ih, brackets_cons]
      cases hk : t.kind <;> simp_all [Token.isTrivia, TokenKind.isTrivia]
    | false => rw [significant_cons ht, brackets_cons, brackets_cons, ih]

theorem brackets_map_within (l : Location) (tokens : List Token) :
    brackets (tokens.map (Token.within l)) = brackets tokens :=
  List.filterMap_map ..

/-- A text with no comment mark, quote, parenthesis or definition sign anywhere. -/
def IsPlain (text : String) : Prop :=
  (∀ c ∈ text.toList, c ≠ '#' ∧ ¬ IsQuote c ∧ c ≠ '(' ∧ c ≠ ')') ∧ ¬ ['<', '-'] <:+: text.toList

section plain
variable {text : String} (h : IsPlain text)
include h

theorem kind_of_mem_lexemes_plain {x : Lexeme} (hx : x ∈ lexemes .standard text.toList) :
    x.kind ≠ .arrow ∧ x.kind ≠ .leftParen ∧ x.kind ≠ .rightParen ∧ x.kind ≠ .stringLiteral := by
  have hpart : x.text <:+: text.toList := by
    obtain ⟨before, after, he⟩ := List.append_of_mem hx
    rw [← joined_lexemes .standard text.toList, he, Lexeme.joined_append, Lexeme.joined_cons,
      ← List.append_assoc]
    exact List.infix_append _ _ _
  have hchar : ∀ c ∈ x.text, c ≠ '#' ∧ ¬ IsQuote c ∧ c ≠ '(' ∧ c ≠ ')' :=
    fun c hc => h.1 c (hpart.subset hc)
  cases (Lexeme.cuts_lexemes text.toList).fits x hx with
  | arrow => exact absurd hpart h.2
  | leftParen => exact absurd rfl (hchar '(' List.mem_cons_self).2.2.1
  | rightParen => exact absurd rfl (hchar ')' List.mem_cons_self).2.2.2
  | closedString hq _ | openString hq _ | danglingString hq _ =>
    exact absurd hq (hchar _ List.mem_cons_self).2.1
  | _ => exact ⟨nofun, nofun, nofun, nofun⟩

theorem kind_of_mem_tokenize_plain {t : Token} (ht : t ∈ tokenize .standard text) :
    t.kind ≠ .arrow ∧ t.kind ≠ .leftParen ∧ t.kind ≠ .rightParen ∧ t.kind ≠ .stringLiteral := by
  rw [tokenize_eq_concat, List.mem_append, List.mem_singleton] at ht
  rcases ht with ht | rfl
  · exact kind_of_mem_lexemes_plain h (lexeme_mem_of_mem_placed ht)
  · exact ⟨nofun, nofun, nofun, nofun⟩

theorem brackets_tokenize_plain : brackets (tokenize .standard text) = [] := by
  refine List.filterMap_eq_nil_iff.2 fun t ht => ?_
  obtain ⟨-, hl, hr, -⟩ := kind_of_mem_tokenize_plain h ht
  split <;> simp_all

theorem filter_isOpenString_tokenize_plain :
    (tokenize .standard text).filter Token.isOpenString = [] := by
  refine List.filter_eq_nil_iff.2 fun t ht => ?_
  obtain ⟨-, -, -, hs⟩ := kind_of_mem_tokenize_plain h ht
  simp [Token.isOpenString, hs]

end plain

theorem check_rule_body {name filler body : String} (hn : IsName name) (hf : IsFiller filler)
    (hb : ∀ t ∈ tokenize .standard body, t.kind ≠ .arrow)
    (hd : ∃ word : DyckWord, word.toList = brackets (tokenize .standard body)) :
    (check (name ++ filler ++ "<-" ++ body)).isValid = true ∧
    (check (name ++ filler ++ "<-" ++ body)).ruleNames = [name] ∧
    (check (name ++ filler ++ "<-" ++ body)).diagnostics =
      ((tokenize .standard body).filter Token.isOpenString).map fun t =>
        openStringWarning (t.within (.behind (name ++ filler ++ "<-").toList)) := by
  obtain ⟨trivia, l, htrivia, htokens⟩ := tokenize_rule hn hf body
  set place : Location := .behind (name ++ filler ++ "<-").toList with hplace
  have hnone : significant trivia = [] := by
    rw [significant_eq_filter_isTrivia]
    exact List.filter_eq_nil_iff.2 fun t ht => by simp [htrivia t ht]
  have hsignificant : significant (tokenize .standard (name ++ filler ++ "<-" ++ body)) =
      ⟨.identifier, name, .start, true⟩ :: ⟨.arrow, "<-", l, true⟩ ::
        significant ((tokenize .standard body).map (Token.within place)) := by
    rw [htokens, significant_cons rfl, significant_append, hnone, significant_cons rfl,
      List.nil_append]
  have hback : ∀ t ∈ significant ((tokenize .standard body).map (Token.within place)),
      t.kind ≠ .arrow := by
    intro t ht
    obtain ⟨u, hu, rfl⟩ := List.mem_map.1 (List.mem_filter.1 ht).1
    exact hb u hu
  have hbalanced : ∃ word : DyckWord, word.toList =
      brackets (significant ((tokenize .standard body).map (Token.within place))) := by
    rwa [brackets_significant, brackets_map_within]
  obtain ⟨hvalid, hnames, hreport⟩ :=
    validate_single_rule hsignificant rfl rfl hback hbalanced
  refine ⟨hvalid, hnames, hreport.trans ?_⟩
  -- trivia is never an open string, so all warnings are about the body
  have hopen : trivia.filter Token.isOpenString = [] := by
    refine List.filter_eq_nil_iff.2 fun t ht => ?_
    have hk := htrivia t ht
    cases hkind : t.kind <;> simp_all [Token.isOpenString, Token.isTrivia, TokenKind.isTrivia]
  have hmoved : Token.isOpenString ∘ Token.within place = Token.isOpenString := rfl
  rw [htokens, List.filter_cons_of_neg (by simp [Token.isOpenString]), List.filter_append, hopen,
    List.filter_cons_of_neg (by simp [Token.isOpenString]), List.filter_map, hmoved,
    List.nil_append, List.map_map]
  rfl

/-- A name, a filler, the definition sign and a body that is balanced and has no sign of its own: a
valid grammar of one rule. It is warned of each open string of the body, and of nothing else; a
plain body has none. -/
theorem check_rule {name filler : String} (hn : IsName name) (hf : IsFiller filler) :
    (∀ body, (∀ t ∈ tokenize .standard body, t.kind ≠ .arrow) →
      (∃ word : DyckWord, word.toList = brackets (tokenize .standard body)) →
      (check (name ++ filler ++ "<-" ++ body)).isValid = true ∧
      (check (name ++ filler ++ "<-" ++ body)).ruleNames = [name] ∧
      (check (name ++ filler ++ "<-" ++ body)).diagnostics =
        ((tokenize .standard body).filter Token.isOpenString).map fun t =>
          openStringWarning (t.within (.behind (name ++ filler ++ "<-").toList))) ∧
    ∀ body, IsPlain body →
      (check (name ++ filler ++ "<-" ++ body)).isValid = true ∧
      (check (name ++ filler ++ "<-" ++ body)).ruleNames = [name] ∧
      (check (name ++ filler ++ "<-" ++ body)).diagnostics = [] := by
  refine ⟨fun body hb hd => check_rule_body hn hf hb hd, fun body h => ?_⟩
  have hb := fun t ht => (kind_of_mem_tokenize_plain (t := t) h ht).1
  have hd : ∃ word : DyckWord, word.toList = brackets (tokenize .standard body) :=
    ⟨0, (brackets_tokenize_plain h).symm⟩
  obtain ⟨hvalid, hnames, hreport⟩ := check_rule_body hn hf hb hd
  rw [filter_isOpenString_tokenize_plain h] at hreport
  exact ⟨hvalid, hnames, hreport⟩

/-- A comment ends its line before the sign; the body goes on with a hyphen and ends in an open
string. -/
theorem check_rule_commented :
    IsName "_a1" ∧ IsFiller "\t#<-'\r" ∧
    (∀ t ∈ tokenize .standard "-(b)'(\n", t.kind ≠ .arrow) ∧
    (∃ word : DyckWord, word.toList = brackets (tokenize .standard "-(b)'(\n")) ∧
    (check "_a1\t#<-'\r<--(b)'(\n").isValid = true ∧
    (check "_a1\t#<-'\r<--(b)'(\n").ruleNames = ["_a1"] ∧
    (check "_a1\t#<-'\r<--(b)'(\n").diagnostics =
      [⟨.warning, "unterminated string literal", ⟨15, 17, by decide⟩, 1, 16⟩] ∧
    IsPlain "<b -" ∧ (check "_a1\t#<-'\r<-<b -").diagnostics = [] := by
  have hn : IsName "_a1" := ⟨'_', ['a', '1'], rfl, by decide, by simp [IsNamePart, IsNameStart]⟩
  have hf : IsFiller "\t#<-'\r" :=
    ⟨by decide +kernel, fun _ => ⟨'\r', by decide, .inl rfl⟩⟩
  have hb : ∀ t ∈ tokenize .standard "-(b)'(\n", t.kind ≠ .arrow := by decide +kernel
  have hd : ∃ word : DyckWord, word.toList = brackets (tokenize .standard "-(b)'(\n") :=
    ⟨DyckWord.nest 0, by decide +kernel⟩
  have hp : IsPlain "<b -" := ⟨by simp [IsQuote], by decide⟩
  obtain ⟨hbody, hplain⟩ := check_rule hn hf
  obtain ⟨hvalid, hnames, hreport⟩ := hbody _ hb hd
  refine ⟨hn, hf, hb, hd, hvalid, hnames, hreport.trans ?_, hp, (hplain _ hp).2.2⟩
  decide +kernel

end PegKit
