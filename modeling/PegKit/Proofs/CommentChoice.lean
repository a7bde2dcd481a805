import PegKit.Proofs.Comments
import PegKit.Proofs.Coverage

/-! Which comment a place opens, and where it ends. Of the block comments the first entry that opens
decides, and where none does, the first line mark. A block comment is the shortest text from its
opening mark to a closing one behind it; marks that overlap do not close each other. -/

namespace PegKit

def BlockComment.Opens (b : BlockComment) (input : List Char) : Prop :=
  b.opening ≠ "" ∧ b.closing ≠ "" ∧ b.opening.toList <+: input

/-- A text from an opening mark to a closing one, with no character in both. -/
def BlockComment.Encloses (b : BlockComment) (text : List Char) : Prop :=
  ∃ inside, text = b.opening.toList ++ inside ++ b.closing.toList

/-- The shortest comment of an entry where `input` stands. -/
structure BlockComment.IsShortest (b : BlockComment) (input text : List Char) : Prop where
  front : text <+: input
  encloses : b.Encloses text
  least : ∀ other, other <+: input → b.Encloses other → text.length ≤ other.length

def MarksLine (mark : String) (input : List Char) : Prop :=
  mark ≠ "" ∧ mark.toList <+: input

instance (b : BlockComment) (input : List Char) : Decidable (b.Opens input) :=
  inferInstanceAs (Decidable (_ ∧ _))

instance (mark : String) (input : List Char) : Decidable (MarksLine mark input) :=
  inferInstanceAs (Decidable (_ ∧ _))

def coveredText (tokens : List Token) : List Char := Lexeme.joined (tokens.map Token.lexeme)

theorem findSome?_eq_bind_find? {α β : Type} {p : α → Bool} {f : α → Option β}
    (hf : ∀ a, f a = none ↔ p a = false) (entries : List α) :
    entries.findSome? f = (entries.find? p).bind f := by
  induction entries with
  | nil => rfl
  | cons a entries ih =>
    cases hp : p a with
    | false => rw [List.findSome?_cons, (hf a).2 hp, List.find?_cons, hp, ih]
    | true =>
      cases hx : f a with
      | none => simp [(hf a).1 hx] at hp
      | some x => rw [List.findSome?_cons, hx, List.find?_cons, hp, Option.bind_some, hx]

namespace Lexeme
variable {rules : LexicalRules} {input : List Char} {b : BlockComment} {mark : String}

theorem openedBlock?_eq_bind_find? :
    openedBlock? rules input = (rules.blockComments.find? (·.Opens input)).bind fun b =>
      blockComment? input b.opening.toList b.closing.toList :=
  findSome?_eq_bind_find? (fun b => by
    rw [blockComment?_eq_none_iff, decide_eq_false_iff_not, BlockComment.Opens]
    simp only [Ne, String.toList_eq_nil_iff]) _

theorem findSome?_lineComment?_eq_bind_find? :
    rules.lineComments.findSome? (fun mark => lineComment? input mark.toList) =
      (rules.lineComments.find? (MarksLine · input)).bind fun mark =>
        lineComment? input mark.toList :=
  findSome?_eq_bind_find? (fun mark => by
    rw [lineComment?_eq_none_iff, decide_eq_false_iff_not, MarksLine]
    simp only [Ne, String.toList_eq_nil_iff]) _

theorem openedBlock?_of_find? (h : rules.blockComments.find? (·.Opens input) = some b) :
    ∃ rest, input = b.opening.toList ++ rest ∧ openedBlock? rules input =
      some ⟨.comment, b.opening.toList ++ throughFirst b.closing.toList rest, true⟩ := by
  obtain ⟨ho, hc, rest, he⟩ : b.Opens input := by simpa using List.find?_some h
  have ho := mt String.toList_eq_nil_iff.1 ho
  have hc := mt String.toList_eq_nil_iff.1 hc
  refine ⟨rest, he.symm, ?_⟩
  rw [openedBlock?_eq_bind_find?, h, Option.bind_some, ← he, blockComment?_append ho hc]

theorem onLine?_of_find? (h : rules.lineComments.find? (MarksLine · input) = some mark) :
    ∃ rest, input = mark.toList ++ rest ∧
      onLine? rules input = some ⟨.comment, mark.toList ++ firstLine rest, true⟩ := by
  obtain ⟨hm, rest, he⟩ : MarksLine mark input := by simpa using List.find?_some h
  have hm := mt String.toList_eq_nil_iff.1 hm
  refine ⟨rest, he.symm, ?_⟩
  rw [onLine?, findSome?_lineComment?_eq_bind_find?, h, Option.bind_some, ← he,
    lineComment?_append hm]
  rfl

end Lexeme

section boundary
variable {rules : LexicalRules} {source : String} {before after : List Token} {t : Token}

theorem lexemes_joined_of_append {input : List Char} {xs ys : List Lexeme}
    (h : lexemes rules input = xs ++ ys) : lexemes rules (Lexeme.joined ys) = ys := by
  induction xs generalizing input with
  | nil => rw [← List.nil_append ys, ← h, joined_lexemes]
  | cons x xs ih =>
    cases input with
    | nil => simp [lexemes] at h
    | cons c rest =>
      rw [lexemes] at h
      exact ih (List.cons.inj h).2

theorem coveredText_tokenize (rules : LexicalRules) (source : String) :
    coveredText (tokenize rules source) = source.toList := by
  rw [tokenize_eq_concat, coveredText, List.map_append, map_lexeme_placed, Lexeme.joined_append,
    joined_lexemes]
  exact List.append_nil _

theorem coveredText_of_tokenize_eq (h : tokenize rules source = before ++ t :: after)
    {input : List Char} (hi : source.toList = coveredText before ++ input) :
    coveredText (t :: after) = input := by
  have hall := coveredText_tokenize rules source
  rw [h, hi, coveredText, List.map_append, Lexeme.joined_append] at hall
  exact List.append_cancel_left hall

theorem exists_body_of_tokenize_eq (h : tokenize rules source = before ++ t :: after) :
    ∃ body, t :: after = body ++ [.endOfInput (.behind source.toList)] ∧
      body.map Token.lexeme = lexemes rules (coveredText (t :: after)) := by
  have hlast : (t :: after).getLast? = some (.endOfInput (.behind source.toList)) := by
    have hall := congrArg List.getLast? h
    rw [tokenize_eq_concat, List.getLast?_concat, List.getLast?_append_of_ne_nil _
      (List.cons_ne_nil t after), Location.start_advance] at hall
    exact hall.symm
  have hbody : lexemes rules source.toList =
      before.map Token.lexeme ++ (t :: after).dropLast.map Token.lexeme := by
    rw [← map_lexeme_tokenize, h, List.dropLast_append_of_ne_nil (List.cons_ne_nil t after),
      List.map_append]
  have hsplit := List.dropLast_append_getLast? _ hlast
  refine ⟨_, hsplit.symm, (lexemes_joined_of_append hbody).symm.trans ?_⟩
  rw [coveredText, ← hsplit, List.map_append, Lexeme.joined_append, List.dropLast_concat]
  exact congrArg (lexemes rules) (List.append_nil _).symm

theorem lexeme_eq_first_of_tokenize_eq (h : tokenize rules source = before ++ t :: after)
    {c : Char} {rest : List Char} (hrest : coveredText (t :: after) = c :: rest) :
    t.lexeme = Lexeme.first rules c rest ∧
      (t.text.toList = c :: rest → after = [.endOfInput (.behind source.toList)]) := by
  obtain ⟨body, hsplit, hbody⟩ := exists_body_of_tokenize_eq h
  rw [hrest, lexemes] at hbody
  obtain ⟨u, body, rfl⟩ := List.exists_cons_of_ne_nil (show body ≠ [] by rintro rfl; cases hbody)
  obtain ⟨rfl, hafter⟩ : t = u ∧ after = body ++ [.endOfInput (.behind source.toList)] :=
    by simpa using hsplit
  obtain ⟨ht, hbody⟩ := List.cons.inj hbody
  refine ⟨ht, fun hall => ?_⟩
  have htext : (Lexeme.first rules c rest).text = c :: rest := by rw [← ht, ← hall]; rfl
  rw [htext, List.drop_length, lexemes, List.map_eq_nil_iff] at hbody
  rw [hafter, hbody, List.nil_append]

end boundary

/-- What an entry takes is the shortest comment that there is, or all if there is none. -/
theorem isShortest_or_eq (b : BlockComment) (rest : List Char) :
    b.IsShortest (b.opening.toList ++ rest)
        (b.opening.toList ++ throughFirst b.closing.toList rest) ∨
      (∀ text, text <+: b.opening.toList ++ rest → ¬ b.Encloses text) ∧
        throughFirst b.closing.toList rest = rest := by
  have hinside : ∀ inside, b.opening.toList ++ inside ++ b.closing.toList <+:
      b.opening.toList ++ rest ↔ inside ++ b.closing.toList <+: rest := by
    intro inside
    rw [List.append_assoc, List.prefix_append_right_inj]
  by_cases hmark : ∃ inside, inside ++ b.closing.toList <+: rest
  · obtain ⟨inside, hp⟩ := hmark
    refine .inl ⟨?_, ?_, ?_⟩
    · exact (List.prefix_append_right_inj _).2 (Lexeme.throughFirst_prefix _ rest)
    · obtain ⟨found, hf⟩ := suffix_throughFirst hp
      exact ⟨found, by rw [List.append_assoc, hf]⟩
    · rintro _ hother ⟨other, rfl⟩
      have hle := length_throughFirst_le ((hinside other).1 hother)
      simp only [List.append_assoc, List.length_append] at hle ⊢
      omega
  · refine .inr ⟨?_, throughFirst_of_forall_not_prefix (not_exists.1 hmark)⟩
    rintro _ hp ⟨inside, rfl⟩
    exact hmark ⟨inside, (hinside inside).1 hp⟩

/-- A place between tokens where no blank stands. The first block comment that opens there decides,
and takes the shortest comment or, where it is never closed, all the rest; if none opens, the first
line mark takes the line. -/
theorem comment_of_tokenize_eq {rules : LexicalRules} {source : String} {before after : List Token}
    {t : Token} {input : List Char} (h : tokenize rules source = before ++ t :: after)
    (hi : source.toList = coveredText before ++ input) (hc : ∃ c ∈ input.head?, ¬ IsBlank c) :
    (∀ b ∈ rules.blockComments.find? (·.Opens input),
      t.kind = .comment ∧
      (b.IsShortest input t.text.toList ∨
        (∀ text, text <+: input → ¬ b.Encloses text) ∧
          t.text.toList = input ∧ after = [.endOfInput (.behind source.toList)])) ∧
    (rules.blockComments.find? (·.Opens input) = none →
      ∀ mark ∈ rules.lineComments.find? (MarksLine · input),
        t.kind = .comment ∧
        ∃ line rest, input = mark.toList ++ line ++ rest ∧ IsLine line ∧ AtLineEnd rest ∧
          t.text.toList = mark.toList ++ line) := by
  obtain ⟨c, hhead, hblank⟩ := hc
  obtain ⟨tail, rfl⟩ := List.head?_eq_some_iff.1 hhead
  obtain ⟨ht, hend⟩ := lexeme_eq_first_of_tokenize_eq h (coveredText_of_tokenize_eq h hi)
  have hfirst := Lexeme.first_of_not_blank rules hblank tail
  rw [← ht] at hfirst
  refine ⟨fun b hb => ?_, fun hnone mark hmark => ?_⟩
  · obtain ⟨rest, hrest, ho⟩ := Lexeme.openedBlock?_of_find? hb
    rw [ho, Option.some_or, Option.getD_some] at hfirst
    obtain ⟨hkind, htext, -⟩ := Lexeme.mk.inj hfirst
    -- an entry that is never closed takes the rest, so the end of the input comes next
    refine ⟨hkind, ?_⟩
    rw [htext, hrest]
    refine (isShortest_or_eq b rest).imp_right fun ⟨hopen, hall⟩ => ⟨hopen, by rw [hall], hend ?_⟩
    rw [htext, hall, hrest]
  · obtain ⟨rest, hrest, hl⟩ := Lexeme.onLine?_of_find? hmark
    rw [Lexeme.openedBlock?_eq_bind_find?, hnone, Option.bind_none, Option.none_or, hl,
      Option.getD_some] at hfirst
    obtain ⟨hkind, htext, -⟩ := Lexeme.mk.inj hfirst
    refine ⟨hkind, firstLine rest, rest.dropWhile fun c => !isLineBreak c, ?_,
      isLine_firstLine rest, ?_, htext⟩
    · rw [hrest, List.append_assoc, firstLine, List.takeWhile_append_dropWhile]
    · intro d hd
      exact isLineBreak_iff.1 (by simpa using Lexeme.forall_head?_dropWhile _ _ d hd)

def LexicalRules.slashes : LexicalRules where
  lineComments := ["", "/", "/-"]
  blockComments := [⟨"", "/"⟩, ⟨"/*", "*/"⟩, ⟨"/*/", "b"⟩]
  stringDelimiters := ['/']
  escape := none

/-- A closing mark that begins in the opening one does not count, and of two entries and of two line
marks the first decides. -/
theorem comment_of_tokenize_eq_overlapping :
    tokenize .slashes "/*/*/b" =
      [] ++ ⟨.comment, "/*/*/", .start, true⟩ ::
        [⟨.identifier, "b", ⟨5, 1, 6⟩, true⟩, .endOfInput ⟨6, 1, 7⟩] ∧
    "/*/*/b".toList = coveredText [] ++ "/*/*/b".toList ∧
    (∃ c ∈ "/*/*/b".toList.head?, ¬ IsBlank c) ∧
    LexicalRules.slashes.blockComments.find? (·.Opens "/*/*/b".toList) = some ⟨"/*", "*/"⟩ ∧
    BlockComment.IsShortest ⟨"/*", "*/"⟩ "/*/*/b".toList "/*/*/".toList ∧
    tokenize .slashes "a/-/\rb" =
      [⟨.identifier, "a", .start, true⟩] ++ ⟨.comment, "/-/", ⟨1, 1, 2⟩, true⟩ ::
        [⟨.whitespace, "\r", ⟨4, 1, 5⟩, true⟩, ⟨.identifier, "b", ⟨5, 1, 6⟩, true⟩,
          .endOfInput ⟨6, 1, 7⟩] ∧
    "a/-/\rb".toList = coveredText [⟨.identifier, "a", .start, true⟩] ++ "/-/\rb".toList ∧
    (∃ c ∈ "/-/\rb".toList.head?, ¬ IsBlank c) ∧
    LexicalRules.slashes.blockComments.find? (·.Opens "/-/\rb".toList) = none ∧
    LexicalRules.slashes.lineComments.find? (MarksLine · "/-/\rb".toList) = some "/" ∧
    ∃ line rest, "/-/\rb".toList = "/".toList ++ line ++ rest ∧ IsLine line ∧ AtLineEnd rest ∧
      "/-/".toList = "/".toList ++ line := by
  have hblock : tokenize .slashes "/*/*/b" =
      [] ++ ⟨.comment, "/*/*/", .start, true⟩ ::
        [⟨.identifier, "b", ⟨5, 1, 6⟩, true⟩, .endOfInput ⟨6, 1, 7⟩] := by
    decide +kernel
  have hopens : LexicalRules.slashes.blockComments.find? (·.Opens "/*/*/b".toList) =
      some ⟨"/*", "*/"⟩ := by
    decide +kernel
  have hline : tokenize .slashes "a/-/\rb" =
      [⟨.identifier, "a", .start, true⟩] ++ ⟨.comment, "/-/", ⟨1, 1, 2⟩, true⟩ ::
        [⟨.whitespace, "\r", ⟨4, 1, 5⟩, true⟩, ⟨.identifier, "b", ⟨5, 1, 6⟩, true⟩,
          .endOfInput ⟨6, 1, 7⟩] := by
    decide +kernel
  have hnone : LexicalRules.slashes.blockComments.find? (·.Opens "/-/\rb".toList) = none := by
    decide +kernel
  have hmarks : LexicalRules.slashes.lineComments.find? (MarksLine · "/-/\rb".toList) =
      some "/" := by
    decide +kernel
  have hleft : "a/-/\rb".toList =
      coveredText [⟨.identifier, "a", .start, true⟩] ++ "/-/\rb".toList := by
    decide +kernel
  have hb : ∃ c ∈ "/*/*/b".toList.head?, ¬ IsBlank c := ⟨'/', rfl, by decide⟩
  have hl : ∃ c ∈ "/-/\rb".toList.head?, ¬ IsBlank c := ⟨'/', rfl, by decide⟩
  obtain ⟨-, hshortest⟩ := (comment_of_tokenize_eq hblock rfl hb).1 _ hopens
  obtain ⟨-, hmarked⟩ := (comment_of_tokenize_eq hline hleft hl).2 hnone _ hmarks
  refine ⟨hblock, rfl, hb, hopens, hshortest.resolve_right ?_, hline, hleft, hl, hnone, hmarks,
    hmarked⟩
  rintro ⟨-, hall, -⟩
  exact absurd hall (by decide)

end PegKit
