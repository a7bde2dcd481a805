import PegKit.Proofs.Messages
import PegKit.Proofs.Omissions
import PegKit.Proofs.Seams
import PegKit.Proofs.Views

/-! Closing what a grammar leaves open. Closing parentheses on a line of their own are read as
such, however the text before them ends. Each takes a group off the stack as long as there is one,
and what they close is not reported; the others stray together, for while a group is open no run of
stray ones is pending. So the number of groups that is reported is the number of parentheses that is
missing. -/

namespace PegKit

namespace Progress
variable {p : Progress}

/-- Where a group is open, no run of stray closing parentheses is pending. -/
def IsApart (p : Progress) : Prop := p.groups = none ∨ p.stray = none

theorem IsApart.visit (h : p.IsApart) (t : Token) : (p.visit t).IsApart := by
  rcases p.trivia_or_strays t with ht | hs | ⟨ht, hs⟩
  · rw [visit_trivia ht]
    exact h
  · rw [visit_stray hs]
    exact .inl hs.2
  · rw [visit_other ht hs]
    exact .inr rfl

theorem IsApart.foldl_visit (h : p.IsApart) (tokens : List Token) :
    (tokens.foldl Progress.visit p).IsApart := by
  induction tokens generalizing p with
  | nil => exact h
  | cons t tokens ih => exact ih (h.visit t)

theorem visit_closing_of_open {stack : List Token} {t u : Token} (hk : t.kind = .rightParen)
    (hg : p.groups = openGroups (u :: stack)) (hs : p.stray = strayRun? []) :
    (p.visit t).diagnostics = p.diagnostics ∧ (p.visit t).ruleNames = p.ruleNames ∧
      (p.visit t).groups = openGroups stack ∧ (p.visit t).stray = strayRun? [] := by
  have ht : t.isTrivia = false := by simp [Token.isTrivia, hk, TokenKind.isTrivia]
  have hother : ¬ p.Strays t := fun h => by
    simpa using openGroups_eq_none_iff.1 (hg.symm.trans h.2)
  have hgroups : nextGroups p.groups t = openGroups stack := by
    rw [hg]
    simpa [stackStep, hk] using nextGroups_openGroups (u :: stack) t
  have hpending : p.pendingReport = [] := pendingReport_eq hs
  rw [visit_other ht hother]
  refine ⟨?_, ?_, hgroups, rfl⟩ <;> simp [hpending, ownReport, hk]

theorem visit_closing_of_none_open {run : List Token} {t : Token} (hk : t.kind = .rightParen)
    (hg : p.groups = openGroups []) (hs : p.stray = strayRun? run) :
    (p.visit t).diagnostics = p.diagnostics ∧ (p.visit t).ruleNames = p.ruleNames ∧
      (p.visit t).groups = openGroups [] ∧ (p.visit t).stray = strayRun? (run ++ [t]) := by
  rw [visit_stray ⟨hk, hg⟩]
  exact ⟨rfl, rfl, hg, strayRun?_concat hs t⟩

/-- Closing parentheses take the stack down and report nothing; those that find it empty join the
pending run. -/
theorem foldl_visit_closings {stack run closings : List Token}
    (hk : ∀ t ∈ closings, t.kind = .rightParen) (hg : p.groups = openGroups stack)
    (hs : p.stray = strayRun? run) (hrun : stack ≠ [] → run = []) :
    (closings.foldl visit p).diagnostics = p.diagnostics ∧
    (closings.foldl visit p).ruleNames = p.ruleNames ∧
    (closings.foldl visit p).groups = openGroups (stack.drop closings.length) ∧
    (closings.foldl visit p).stray = strayRun? (run ++ closings.drop stack.length) := by
  -- on the parentheses: each takes a group, and once there is none it joins the run
  induction closings generalizing p stack run with
  | nil => simp [hg, hs]
  | cons t closings ih =>
    obtain ⟨hkt, hk⟩ := List.forall_mem_cons.1 hk
    rw [List.foldl_cons]
    cases stack with
    | nil =>
      obtain ⟨hd, hn, hgroups, hstray⟩ := visit_closing_of_none_open hkt hg hs
      have h := ih hk hgroups hstray fun hne => absurd rfl hne
      rw [hd, hn] at h
      simpa using h
    | cons u stack =>
      obtain rfl : run = [] := hrun (List.cons_ne_nil u stack)
      obtain ⟨hd, hn, hgroups, hstray⟩ := visit_closing_of_open hkt hg hs
      have h := ih hk hgroups hstray fun _ => rfl
      rw [hd, hn] at h
      simpa using h

theorem ruleNames_finish (p : Progress) : p.finish.ruleNames = p.ruleNames.toList := by
  rw [finish, endStray_eq]

theorem finish_reaching {α : Type} (view : Nat → Nat → α) (p : Progress) (n : Nat) :
    (p.reaching n).finish.ruleNames = p.finish.ruleNames ∧
    (p.reaching n).finish.diagnostics.map (Diagnostic.seen view) =
      p.finish.diagnostics.map (Diagnostic.seen view) := by
  have halike : (p.reaching n).Alike view p := by
    refine ⟨rfl, rfl, rfl, rfl, ?_⟩
    change Option.Rel (Token.Alike view) p.previous p.previous
    cases p.previous with
    | none => exact .none
    | some t => exact .some ⟨rfl, rfl, fun _ => rfl, rfl⟩
  constructor
  · rw [ruleNames_finish, ruleNames_finish]
    rfl
  · rw [finish, finish, List.map_append, List.map_append, halike.endStray.diagnostics,
      halike.endStray.closing]

end Progress

theorem check_eq_finish (source : String) :
    check source =
      ((placed .start (lexemes .standard source.toList)).foldl Progress.visit .initial).finish := by
  obtain ⟨l, hl⟩ := exists_tokenize_eq .standard source
  rw [check, ← validate_dropLast_tokenize, hl, List.dropLast_concat]
  rfl

section closings

def closings (k : Nat) : String := String.ofList (List.replicate k ')')

def Lexeme.closing : Lexeme := ⟨.rightParen, [')'], true⟩

theorem lexemes_closings (k : Nat) :
    lexemes .standard (List.replicate k ')') = List.replicate k .closing := by
  induction k with
  | zero => rw [List.replicate_zero, lexemes, List.replicate_zero]
  | succ k ih =>
    have hfirst : Lexeme.first .standard ')' (List.replicate k ')') = .closing :=
      Lexeme.first_symbol (by decide) (by decide) (by decide) rfl
    rw [List.replicate_succ, lexemes, hfirst, List.replicate_succ, ← ih]
    rfl

theorem joined_replicate_closing (k : Nat) :
    Lexeme.joined (List.replicate k .closing) = List.replicate k ')' := by
  rw [← lexemes_closings, joined_lexemes]

theorem kind_of_mem_placed_closing {l : Location} {k : Nat} {t : Token}
    (h : t ∈ placed l (List.replicate k .closing)) : t.kind = .rightParen := by
  have hx := List.eq_of_mem_replicate (lexeme_mem_of_mem_placed h)
  exact congrArg Lexeme.kind hx

theorem advance_closings (l : Location) (k : Nat) :
    (l.advance (List.replicate k ')')).line = l.line ∧
      (l.advance (List.replicate k ')')).column = l.column + k := by
  induction k generalizing l with
  | zero => exact ⟨rfl, rfl⟩
  | succ k ih =>
    obtain ⟨hline, hcolumn⟩ := ih (l.step ')')
    rw [List.replicate_succ, Location.advance_cons, hline, hcolumn]
    simp [Location.step, Nat.add_comm k, Nat.add_assoc]

theorem behind_concat_lineFeed (text : List Char) :
    (Location.behind (text ++ ['\n'])).line = 2 + text.count '\n' ∧
      (Location.behind (text ++ ['\n'])).column = 1 := by
  rw [Location.behind_concat]
  refine ⟨?_, rfl⟩
  change 1 + text.count '\n' + 1 = 2 + text.count '\n'
  omega

/-- A pass over a source with closing parentheses on a new line goes on from the pass over the
source, but for how far it comes. -/
theorem exists_foldl_visit_closings (s : String) (k : Nat) :
    ∃ m n, ((placed .start (lexemes .standard (s ++ "\n" ++ closings k).toList)).foldl
        Progress.visit .initial).reaching m =
      (placed (.behind (s.toList ++ ['\n'])) (List.replicate k .closing)).foldl Progress.visit
        (((placed .start (lexemes .standard s.toList)).foldl
          Progress.visit .initial).reaching n) := by
  have hjoined : (s ++ "\n" ++ closings k).toList =
      s.toList ++ '\n' :: List.replicate k ')' := by
    simp [closings]
  have hall : significant (placed (.behind (s.toList ++ ['\n'])) (List.replicate k .closing)) =
      placed (.behind (s.toList ++ ['\n'])) (List.replicate k .closing) :=
    List.filter_eq_self.2 fun t ht => by
      simp [kind_of_mem_placed_closing ht]
  obtain ⟨n, hn⟩ := Progress.foldl_visit_significant .initial 0
    (placed .start (lexemes .standard s.toList))
  obtain ⟨m, hm⟩ := Progress.foldl_visit_significant .initial 0
    (placed .start (lexemes .standard (s ++ "\n" ++ closings k).toList))
  refine ⟨m, n, ?_⟩
  rw [← hm, ← hn, hjoined, significant_placed_append LexicalRules.isLineLocal_standard (.inr rfl),
    lexemes_closings, Location.start_advance, List.foldl_append, hall]

end closings

/-- What is said of `n` groups left open behind `k` closing parentheses: the groups that are still
open, at the place of the outermost, or the parentheses that stray, at the place of the first. -/
def saidOfClosings (n k : Nat) (outermost stray : Nat × Nat) :
    List (Severity × String × (Nat × Nat)) :=
  if k < n then
    [(.error, "unbalanced grouping, " ++ toString (n - k) ++ " unmatched opening parentheses",
      outermost)]
  else if k = n then []
  else
    [(.error,
      if k - n = 1 then "unmatched closing parenthesis"
      else toString (k - n) ++ " unmatched closing parentheses", stray)]

theorem saidOfClosings_of_more (n j : Nat) (outermost stray : Nat × Nat) :
    saidOfClosings n (n + (j + 1)) outermost stray =
      [(.error,
        if j + 1 = 1 then "unmatched closing parenthesis"
        else toString (j + 1) ++ " unmatched closing parentheses", stray)] := by
  rw [saidOfClosings, if_neg (by omega), if_neg (by omega), Nat.add_sub_cancel_left]

theorem map_seen_unclosedReport {p : Progress} {stack : List Token} {t : Token}
    (hg : p.groups = openGroups stack) (ht : stack.getLast? = some t) :
    (unclosedReport p).map (Diagnostic.seen Prod.mk) =
      [(.error, "unbalanced grouping, " ++ toString stack.length ++
        " unmatched opening parentheses", (t.location.line, t.location.column))] := by
  have hpos : stack.length ≠ 0 := by
    rintro hz
    rw [List.length_eq_zero_iff.1 hz] at ht
    cases ht
  rw [openGroups_of_getLast? ht] at hg
  simp only [unclosedReport, hg, Option.toList_some, List.map_cons, List.map_nil,
    OpenGroups.depth, Nat.sub_add_cancel (Nat.one_le_iff_ne_zero.2 hpos)]
  rfl

theorem map_seen_strayReport (t : Token) (rest : List Token) :
    (strayReport (t :: rest)).map (Diagnostic.seen Prod.mk) =
      [(.error,
        if (t :: rest).length = 1 then "unmatched closing parenthesis"
        else toString (t :: rest).length ++ " unmatched closing parentheses",
        (t.location.line, t.location.column))] := by
  rw [← message_strayClosings]
  rfl

theorem drop_placed_closings (l : Location) (n j : Nat) :
    (placed l (List.replicate (n + j) .closing)).drop n =
      placed (l.advance (List.replicate n ')')) (List.replicate j .closing) := by
  rw [← List.replicate_append_replicate, placed_append, joined_replicate_closing,
    List.drop_left' (by rw [length_placed, List.length_replicate])]

theorem map_seen_closings {p : Progress} {stack : List Token} {t : Token} (l : Location) (k : Nat)
    (hg : p.groups = openGroups (stack.drop k)) (ht : stack.getLast? = some t) :
    (strayReport ((placed l (List.replicate k .closing)).drop stack.length) ++
        unclosedReport p).map (Diagnostic.seen Prod.mk) =
      saidOfClosings stack.length k (t.location.line, t.location.column)
        (l.line, l.column + stack.length) := by
  have hfew : k ≤ stack.length →
      (placed l (List.replicate k .closing)).drop stack.length = [] := by
    intro hle
    rw [List.drop_eq_nil_iff, length_placed, List.length_replicate]
    exact hle
  rw [List.map_append]
  -- fewer than are open, just as many, or more
  rcases Nat.lt_trichotomy k stack.length with hk | hk | hk
  · have hlast : (stack.drop k).getLast? = some t := by
      rw [List.getLast?_drop, if_neg (Nat.not_le.2 hk), ht]
    rw [hfew hk.le, map_seen_unclosedReport hg hlast, List.length_drop, saidOfClosings, if_pos hk]
    rfl
  · rw [List.drop_eq_nil_of_le hk.ge] at hg
    rw [hfew hk.le, unclosedReport, hg, saidOfClosings, if_neg hk.not_lt, if_pos hk]
    rfl
  · obtain ⟨j, rfl⟩ := Nat.exists_eq_add_of_lt hk
    obtain ⟨hline, hcolumn⟩ := advance_closings l stack.length
    rw [List.drop_eq_nil_of_le hk.le] at hg
    rw [Nat.add_assoc, saidOfClosings_of_more, drop_placed_closings, List.replicate_succ, placed,
      map_seen_strayReport, unclosedReport, hg, List.length_cons, length_placed,
      List.length_replicate]
    simp only [Lexeme.located, hline, hcolumn]
    rfl

theorem finish_diagnostics_eq_append (p : Progress) :
    p.finish.diagnostics =
      p.diagnostics.toList ++ p.pendingReport ++ unclosedReport p ++ noRulesReport p := by
  have hu : (unclosedReport p).head?.toList = unclosedReport p := by
    unfold unclosedReport
    cases p.groups <;> rfl
  have hn : (noRulesReport p).head?.toList = noRulesReport p := by
    unfold noRulesReport
    split_ifs <;> rfl
  rw [finish_diagnostics_eq, hu, hn]

theorem reports_of_mem_noRulesReport {p : Progress} {d : Diagnostic} (h : d ∈ noRulesReport p) :
    d.Reports .noRules := by
  unfold noRulesReport at h
  split_ifs at h
  · rw [List.mem_singleton.1 h]
    exact ⟨rfl, rfl⟩
  · cases h

theorem stray_eq_none_of_mem_finish {p : Progress} {d : Diagnostic} {n : Nat} (hp : p.IsApart)
    (hearly : ∀ e ∈ p.diagnostics.toList, e.IsEarly) (hd : d ∈ p.finish.diagnostics)
    (hn : d.message = (Problem.unclosedGroups n).message) :
    p.stray = none ∧ unclosedReport p = [d] := by
  have hother : ∀ problem : Problem, d.Reports problem → problem = .unclosedGroups n :=
    fun problem h => eq_unclosedGroups_of_message (h.2.symm.trans hn)
  have hnot : ¬ d.IsEarly := by
    rintro ⟨problem, he, h⟩
    rw [hother problem h] at he
    cases he
  rw [finish_diagnostics_eq_append, List.mem_append, List.mem_append, List.mem_append] at hd
  rcases hd with ((hd | hd) | hd) | hd
  · exact absurd (hearly d hd) hnot
  · exact absurd (isEarly_of_mem_pendingReport hd) hnot
  · obtain ⟨g, hg, rfl⟩ := List.mem_map.1 hd
    have hg := Option.mem_toList.1 hg
    refine ⟨hp.resolve_left (by rw [hg]; exact Option.some_ne_none g), ?_⟩
    rw [unclosedReport, hg]
    rfl
  · cases hother .noRules (reports_of_mem_noRulesReport hd)

theorem map_seen_noRulesReport {p q : Progress} (h : q.ruleNames = p.ruleNames) :
    (noRulesReport q).map (Diagnostic.seen Prod.mk) =
      (noRulesReport p).map (Diagnostic.seen Prod.mk) := by
  unfold noRulesReport
  rw [h]
  split_ifs <;> rfl

theorem finish_foldl_visit_closings {p : Progress} {stack : List Token} {t : Token}
    (hg : p.groups = openGroups stack) (hs : p.stray = none) (ht : stack.getLast? = some t)
    (l : Location) (k : Nat) :
    ((placed l (List.replicate k .closing)).foldl Progress.visit p).finish.ruleNames =
      p.finish.ruleNames ∧
    ((placed l (List.replicate k .closing)).foldl Progress.visit p).finish.diagnostics.map
        (Diagnostic.seen Prod.mk) =
      p.diagnostics.toList.map (Diagnostic.seen Prod.mk) ++
        saidOfClosings stack.length k (t.location.line, t.location.column)
          (l.line, l.column + stack.length) ++
        (noRulesReport p).map (Diagnostic.seen Prod.mk) := by
  have hrun : p.stray = strayRun? [] := hs
  obtain ⟨hfound, hnames, hgroups, hstray⟩ := Progress.foldl_visit_closings
    (fun u hu => kind_of_mem_placed_closing (l := l) (k := k) hu) hg hrun fun _ => rfl
  rw [length_placed, List.length_replicate] at hgroups
  constructor
  · rw [Progress.ruleNames_finish, Progress.ruleNames_finish, hnames]
  · rw [finish_diagnostics_eq_append, pendingReport_eq hstray, hfound, List.nil_append,
      List.append_assoc p.diagnostics.toList, List.map_append, List.map_append,
      map_seen_closings l k hgroups ht, map_seen_noRulesReport hnames]

/-- The number of groups that are reported as left open is the number of closing parentheses that is
missing. Fewer of them, on a line of their own, leave the others open, just as many are the repair,
and of more the rest strays; nothing else of what is said changes. -/
theorem check_append_closings {s : String} {d : Diagnostic} {n : Nat}
    (hd : d ∈ (check s).diagnostics)
    (hn : d.message = "unbalanced grouping, " ++ toString n ++ " unmatched opening parentheses")
    (k : Nat) :
    (check (s ++ "\n" ++ closings k)).ruleNames = (check s).ruleNames ∧
    ∃ found ruleless, (check s).diagnostics = found ++ d :: ruleless ∧
      (∀ e ∈ found, e.IsEarly) ∧ (∀ e ∈ ruleless, e.Reports .noRules) ∧
      (check (s ++ "\n" ++ closings k)).diagnostics.map (Diagnostic.seen Prod.mk) =
        found.map (Diagnostic.seen Prod.mk) ++
          saidOfClosings n k (d.line, d.column) (2 + s.toList.count '\n', 1 + n) ++
          ruleless.map (Diagnostic.seen Prod.mk) := by
  set p := (placed .start (lexemes .standard s.toList)).foldl Progress.visit .initial with hp
  have hcheck : check s = p.finish := check_eq_finish s
  have hearly : ∀ e ∈ p.diagnostics.toList, e.IsEarly :=
    isEarly_of_mem_foldl_visit _ fun e he => by cases he
  have hapart : p.IsApart := Progress.IsApart.foldl_visit (.inl rfl) _
  rw [hcheck] at hd
  obtain ⟨hstray, hreport⟩ := stray_eq_none_of_mem_finish hapart hearly hd hn
  -- the groups that are open are those of a stack of tokens
  obtain ⟨stack, hstack⟩ : ∃ stack, p.groups = openGroups stack :=
    ⟨_, foldl_visit_groups _ [] rfl⟩
  obtain ⟨t, ht⟩ : ∃ t, stack.getLast? = some t := by
    refine Option.ne_none_iff_exists'.1 fun hnone => ?_
    rw [List.getLast?_eq_none_iff.1 hnone] at hstack
    rw [unclosedReport, hstack] at hreport
    cases hreport
  have hseen := map_seen_unclosedReport hstack ht
  rw [hreport, List.map_singleton, List.singleton_inj] at hseen
  have hplace : (d.line, d.column) = (t.location.line, t.location.column) :=
    congrArg (fun x => x.2.2) hseen
  have hmessage : d.message = (Problem.unclosedGroups stack.length).message :=
    congrArg (fun x => x.2.1) hseen
  obtain rfl : stack.length = n :=
    Problem.unclosedGroups.inj (eq_unclosedGroups_of_message (hmessage.symm.trans hn))
  -- how far the tokens reach is the one difference between the two passes up to the seam
  obtain ⟨m, reach, hpass⟩ := exists_foldl_visit_closings s k
  rw [← hp] at hpass
  obtain ⟨hnames, hsaid⟩ := finish_foldl_visit_closings (p := p.reaching reach) hstack hstray ht
    (.behind (s.toList ++ ['\n'])) k
  rw [← hpass, (Progress.finish_reaching Prod.mk _ m).1, ← check_eq_finish] at hnames
  rw [← hpass, (Progress.finish_reaching Prod.mk _ m).2, ← check_eq_finish] at hsaid
  obtain ⟨hline, hcolumn⟩ := behind_concat_lineFeed s.toList
  rw [hline, hcolumn, ← hplace] at hsaid
  refine ⟨?_, p.diagnostics.toList, noRulesReport p, ?_, hearly,
    fun e he => reports_of_mem_noRulesReport he, ?_⟩
  · rw [hnames, (Progress.finish_reaching Prod.mk p reach).1, hcheck]
  · rw [hcheck, finish_diagnostics_eq_append, Progress.pendingReport, hstray, hreport]
    simp
  · rw [hsaid, map_seen_noRulesReport (p := p) (q := p.reaching reach) rfl]
    rfl

/-- A parenthesis strays before the two groups that are left open, and an open string is the last of
the source. -/
theorem check_append_closings_openString :
    (check ")\n(a<-(b)('x").diagnostics.map (Diagnostic.seen Prod.mk) =
      [(.error, "unmatched closing parenthesis", (1, 1)),
        (.warning, "unterminated string literal", (2, 9)),
        (.error, "unbalanced grouping, 2 unmatched opening parentheses", (2, 1))] ∧
    (check ")\n(a<-(b)('x\n)").diagnostics.map (Diagnostic.seen Prod.mk) =
      [(.error, "unmatched closing parenthesis", (1, 1)),
        (.warning, "unterminated string literal", (2, 9)),
        (.error, "unbalanced grouping, 1 unmatched opening parentheses", (2, 1))] ∧
    (check ")\n(a<-(b)('x\n))").diagnostics.map (Diagnostic.seen Prod.mk) =
      [(.error, "unmatched closing parenthesis", (1, 1)),
        (.warning, "unterminated string literal", (2, 9))] ∧
    (check ")\n(a<-(b)('x\n))))").diagnostics.map (Diagnostic.seen Prod.mk) =
      [(.error, "unmatched closing parenthesis", (1, 1)),
        (.warning, "unterminated string literal", (2, 9)),
        (.error, "2 unmatched closing parentheses", (3, 3))] := by
  have hreport : (check ")\n(a<-(b)('x").diagnostics =
      [⟨.error, "unmatched closing parenthesis", ⟨0, 1, by decide⟩, 1, 1⟩,
        ⟨.warning, "unterminated string literal", ⟨10, 12, by decide⟩, 2, 9⟩,
        ⟨.error, "unbalanced grouping, 2 unmatched opening parentheses", ⟨2, 12, by decide⟩,
          2, 1⟩] := by
    decide +kernel
  have hall : ∀ k, (check (")\n(a<-(b)('x" ++ "\n" ++ closings k)).diagnostics.map
      (Diagnostic.seen Prod.mk) =
        [(.error, "unmatched closing parenthesis", (1, 1)),
          (.warning, "unterminated string literal", (2, 9))] ++
          saidOfClosings 2 k (2, 1) (3, 3) := by
    intro k
    have hd := hreport ▸ List.mem_cons_of_mem _ (List.mem_cons_of_mem _ List.mem_cons_self)
    obtain ⟨-, found, ruleless, hsplit, -, -, hsaid⟩ := check_append_closings (n := 2) hd rfl k
    rw [hreport] at hsplit
    rw [hsaid]
    rcases found with _ | ⟨a, _ | ⟨b, _ | ⟨c, rest⟩⟩⟩ <;> simp at hsplit
    obtain ⟨rfl, rfl, rfl⟩ := hsplit
    have hline : 2 + ")\n(a<-(b)('x".toList.count '\n' = 3 := by decide +kernel
    rw [hline, List.map_nil, List.append_nil]
    rfl
  refine ⟨by rw [hreport]; rfl, (hall 1).trans ?_, (hall 2).trans ?_, (hall 4).trans ?_⟩
  all_goals rfl

end PegKit
