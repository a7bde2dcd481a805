import Mathlib.Tactic.SplitIfs
import PegKit.Session

/-! The name at the end of a path. It stands behind the last slash that has a name behind it;
slashes and single dots may follow it. The stem and the extension of a name are cut at the same dot,
so a name is its stem, a dot and its extension, and a path to a grammar file has a stem. -/

namespace PegKit.Path

/-- What may follow a name in a path without counting: slashes and single dots. -/
inductive IsTail : List Char → Prop
  | nil : IsTail []
  | slash {tail : List Char} (h : IsTail tail) : IsTail ('/' :: tail)
  | dot {tail : List Char} (h : IsTail tail) : IsTail ('/' :: '.' :: tail)

/-- A name that an entry of a directory can have. -/
structure IsFileName (name : List Char) : Prop where
  ne_nil : name ≠ []
  ne_dot : name ≠ ['.']
  ne_dots : name ≠ ['.', '.']
  no_slash : '/' ∉ name

/-- The path leads at last to the entry `name`. -/
def EndsIn (name : List Char) (path : String) : Prop :=
  IsFileName name ∧ ∃ before tail, path.toList = before ++ name ++ tail ∧
    (before = [] ∨ ∃ above, before = above ++ ['/']) ∧ IsTail tail

/-- The path leads to a grammar file whose name has this stem, by its extension in any case. -/
def EndsInGrammar (stem : List Char) (path : String) : Prop :=
  stem ≠ [] ∧ ∃ extension, extension.map Char.toLower = "npeg".toList ∧
    EndsIn (stem ++ '.' :: extension) path

section segments
variable {a b name tail : List Char}

theorem segments_append_slash : segments (a ++ '/' :: b) = segments a ++ segments b := by
  rw [segments, segments, segments, List.splitOn_append_cons_self]

theorem segments_of_no_slash (h : '/' ∉ name) : segments name = [name] := by
  rw [segments, List.splitOn_eq_singleton h]

theorem intercalate_segments (path : List Char) : ['/'].intercalate (segments path) = path := by
  rw [segments, List.intercalate_splitOn]

theorem no_slash_of_mem_segments (h : name ∈ segments a) : '/' ∉ name := by
  rw [segments] at h
  induction a generalizing name with
  | nil => simp_all
  | cons c rest ih =>
    rw [List.splitOn_cons_eq_if_modifyHead] at h
    split at h
    · rcases List.mem_cons.1 h with rfl | h
      · simp
      · exact ih h
    · next hc =>
      have hslash : '/' ≠ c := fun he => hc (beq_iff_eq.2 he.symm)
      cases hrest : rest.splitOn '/' with
      | nil => simp [hrest] at h
      | cons part behind =>
        rw [hrest] at ih h
        rcases List.mem_cons.1 h with rfl | h
        · simp [hslash, ih List.mem_cons_self]
        · exact ih (List.mem_cons_of_mem part h)

theorem segments_append_tail (hname : '/' ∉ name) (h : IsTail tail) :
    ∃ behind, segments (name ++ tail) = name :: behind ∧ ∀ part ∈ behind, counts part = false := by
  induction h generalizing name with
  | nil => exact ⟨[], by rw [List.append_nil, segments_of_no_slash hname], by simp⟩
  | slash h ih =>
    have hempty : '/' ∉ ([] : List Char) := by simp
    obtain ⟨behind, hsegments, hbehind⟩ := ih hempty
    refine ⟨[] :: behind, ?_, List.forall_mem_cons.2 ⟨rfl, hbehind⟩⟩
    rw [List.nil_append] at hsegments
    rw [segments_append_slash, segments_of_no_slash hname, hsegments]
    rfl
  | dot h ih =>
    have hdot : '/' ∉ ['.'] := by simp
    obtain ⟨behind, hsegments, hbehind⟩ := ih hdot
    refine ⟨['.'] :: behind, ?_, List.forall_mem_cons.2 ⟨rfl, hbehind⟩⟩
    rw [List.singleton_append] at hsegments
    rw [segments_append_slash, segments_of_no_slash hname, hsegments]
    rfl

theorem intercalate_cons (parts : List (List Char)) :
    ['/'].intercalate (name :: parts) = name ++ parts.flatMap ('/' :: ·) := by
  induction parts generalizing name with
  | nil => simp
  | cons part parts ih =>
    rw [List.intercalate_cons_cons, ih, List.flatMap_cons]
    simp

theorem counts_eq_false_iff : counts name = false ↔ name = [] ∨ name = ['.'] := by
  simp [counts, Classical.or_iff_not_imp_left]

theorem isTail_flatMap {behind : List (List Char)} (h : ∀ part ∈ behind, counts part = false) :
    IsTail (behind.flatMap ('/' :: ·)) := by
  induction behind with
  | nil => exact .nil
  | cons part behind ih =>
    obtain ⟨hpart, hbehind⟩ := List.forall_mem_cons.1 h
    rw [List.flatMap_cons]
    rcases counts_eq_false_iff.1 hpart with rfl | rfl
    · exact .slash (ih hbehind)
    · exact .dot (ih hbehind)

end segments

section fileName
variable {path : String} {name : List Char}

theorem segments_of_endsIn (h : EndsIn name path) :
    ∃ above behind, segments path.toList = above ++ name :: behind ∧
      ∀ part ∈ behind, counts part = false := by
  obtain ⟨hname, before, tail, hpath, hbefore, htail⟩ := h
  obtain ⟨behind, hsegments, hbehind⟩ := segments_append_tail hname.no_slash htail
  rw [hpath, List.append_assoc]
  rcases hbefore with rfl | ⟨above, rfl⟩
  · exact ⟨[], behind, hsegments, hbehind⟩
  · rw [List.append_assoc, List.singleton_append, segments_append_slash, hsegments]
    exact ⟨_, behind, rfl, hbehind⟩

theorem fileName?_of_endsIn (h : EndsIn name path) : fileName? path = some name := by
  obtain ⟨above, behind, hsegments, hbehind⟩ := segments_of_endsIn h
  have hcounts : counts name = true := by simp [counts, h.1.ne_nil, h.1.ne_dot]
  have hnone : behind.filter counts = [] := by simpa using hbehind
  rw [fileName?, hsegments, List.filter_append, List.filter_cons_of_pos hcounts, hnone,
    List.getLast?_concat]
  simp [h.1.ne_dots]

theorem endsIn_of_fileName? (h : fileName? path = some name) : EndsIn name path := by
  obtain ⟨hlast, hdots⟩ := Option.filter_eq_some_iff.1 h
  obtain ⟨counted, hcounted⟩ := List.getLast?_eq_some_iff.1 hlast
  obtain ⟨before, rest, hsegments, -, hrest⟩ := List.filter_eq_append_iff.1 hcounted
  obtain ⟨between, behind, rfl, -, hcounts, hbehind⟩ := List.filter_eq_cons_iff.1 hrest
  rw [← List.append_assoc] at hsegments
  have hname : IsFileName name := by
    have hne : name ≠ [] ∧ name ≠ ['.'] := by simpa [counts] using hcounts
    have hslash : '/' ∉ name := no_slash_of_mem_segments (a := path.toList) (by simp [hsegments])
    exact ⟨hne.1, hne.2, by simpa using hdots, hslash⟩
  have htail : IsTail (behind.flatMap ('/' :: ·)) := isTail_flatMap (by simpa using hbehind)
  have hpath := intercalate_segments path.toList
  rw [hsegments] at hpath
  cases habove : before ++ between with
  | nil =>
    rw [habove, List.nil_append, intercalate_cons] at hpath
    exact ⟨hname, [], _, hpath.symm, .inl rfl, htail⟩
  | cons part parts =>
    rw [habove, List.cons_append, intercalate_cons, List.flatMap_append, List.flatMap_cons] at hpath
    exact ⟨hname, part ++ parts.flatMap ('/' :: ·) ++ ['/'], _, by simp [← hpath], .inr ⟨_, rfl⟩,
      htail⟩

end fileName

section split
variable {name stem extension : List Char}

theorem splitName_of_no_dot (h : '.' ∉ name) : splitName name = (name, none) := by
  have hplain : ∀ c ∈ name.reverse, decide (c ≠ '.') = true := by
    intro c hc
    rw [List.mem_reverse] at hc
    exact decide_eq_true fun e => h (e ▸ hc)
  have hdrop : name.reverse.dropWhile (· ≠ '.') = [] := by
    rw [← List.append_nil name.reverse, List.dropWhile_append_of_pos hplain]
    rfl
  simp only [splitName, hdrop]
  rfl

theorem splitName_append (h : '.' ∉ extension) :
    splitName (stem ++ '.' :: extension) =
      if stem = [] then ('.' :: extension, none) else (stem, some extension) := by
  have hplain : ∀ c ∈ extension.reverse, decide (c ≠ '.') = true := by
    intro c hc
    rw [List.mem_reverse] at hc
    exact decide_eq_true fun e => h (e ▸ hc)
  have hback : (stem ++ '.' :: extension).reverse = extension.reverse ++ '.' :: stem.reverse := by
    simp
  have hdot : decide ('.' ≠ '.') = false := by decide
  have htake : (stem ++ '.' :: extension).reverse.takeWhile (· ≠ '.') = extension.reverse := by
    rw [hback, List.takeWhile_append_of_pos hplain, List.takeWhile_cons, hdot]
    simp
  have hdrop : (stem ++ '.' :: extension).reverse.dropWhile (· ≠ '.') = '.' :: stem.reverse := by
    rw [hback, List.dropWhile_append_of_pos hplain, List.dropWhile_cons, hdot]
    simp
  have hfront : ('.' :: stem.reverse).reverse.dropLast = stem := by simp
  simp only [splitName, htake, hdrop, hfront, List.reverse_reverse]
  cases stem with
  | nil => rfl
  | cons c stem => rfl

theorem eq_append_of_splitName (h : splitName name = (stem, some extension)) :
    name = stem ++ '.' :: extension ∧ stem ≠ [] := by
  by_cases hdot : '.' ∈ name.reverse
  · obtain ⟨after, front, hsplit, hafter⟩ := List.eq_append_cons_of_mem hdot
    have hname : name = front.reverse ++ '.' :: after.reverse := by
      rw [← List.reverse_reverse name, hsplit]
      simp
    rw [hname, splitName_append (by simpa using hafter)] at h
    split_ifs at h with hfront
    · cases h
    · obtain ⟨rfl, hextension⟩ := Prod.mk.inj h
      obtain rfl := Option.some.inj hextension
      exact ⟨hname, hfront⟩
  · rw [splitName_of_no_dot (by simpa using hdot)] at h
    cases h

end split

section join
variable {output : String} {name : List Char}

theorem toList_join (hname : IsFileName name) (hne : output.toList ≠ []) :
    (join output (String.ofList name)).toList =
      if output.toList.getLast? = some '/' then output.toList ++ name
      else output.toList ++ '/' :: name := by
  have hrelative : isAbsolute (String.ofList name) = false := by
    simpa [isAbsolute] using fun h => hname.no_slash (List.mem_of_head? h)
  split_ifs with hslash
  · simp [join, hrelative, hslash]
  · simp [join, hrelative, hslash, hne]

theorem endsIn_join (hname : IsFileName name) :
    EndsIn name (join output (String.ofList name)) := by
  refine ⟨hname, ?_⟩
  by_cases hne : output.toList = []
  · have hjoin : (join output (String.ofList name)).toList = name := by
      rw [join, hne]
      split_ifs with habsolute hempty
      · simp
      · simp [hne]
      · simp at hempty
    exact ⟨[], [], by simp [hjoin], .inl rfl, .nil⟩
  rw [toList_join hname hne]
  split_ifs with hslash
  · obtain ⟨above, habove⟩ := List.getLast?_eq_some_iff.1 hslash
    exact ⟨output.toList, [], by simp, .inr ⟨above, habove⟩, .nil⟩
  · exact ⟨output.toList ++ ['/'], [], by simp, .inr ⟨_, rfl⟩, .nil⟩

end join

section grammar
variable {path : String} {stem : List Char}

theorem no_dot_of_toLower {extension : List Char}
    (h : extension.map Char.toLower = "npeg".toList) : '.' ∉ extension ∧ '/' ∉ extension := by
  have hlower : ∀ c ∈ extension, c.toLower ∈ "npeg".toList := fun c hc =>
    h ▸ List.mem_map_of_mem hc
  exact ⟨fun hc => absurd (hlower _ hc) (by decide), fun hc => absurd (hlower _ hc) (by decide)⟩

theorem stem?_of_endsInGrammar (h : EndsInGrammar stem path) : stem? path = some stem := by
  obtain ⟨hstem, extension, hext, hends⟩ := h
  rw [stem?, fileName?_of_endsIn hends, Option.map_some,
    splitName_append (no_dot_of_toLower hext).1, if_neg hstem]

theorem isGrammarFile_iff : isGrammarFile path = true ↔ ∃ stem, EndsInGrammar stem path := by
  rw [isGrammarFile, extension?]
  constructor
  · intro h
    obtain ⟨extension, hext, hlower⟩ := (Option.any_eq_true _ _).1 h
    obtain ⟨name, hname, hsplit⟩ := Option.bind_eq_some_iff.1 hext
    obtain ⟨hcut, hstem⟩ := eq_append_of_splitName (Prod.ext rfl hsplit)
    exact ⟨_, hstem, extension, by simpa using hlower,
      endsIn_of_fileName? (hname.trans (congrArg some hcut))⟩
  · rintro ⟨stem, hstem, extension, hext, hends⟩
    rw [fileName?_of_endsIn hends, Option.bind_some, splitName_append (no_dot_of_toLower hext).1,
      if_neg hstem]
    simpa using hext

end grammar

end PegKit.Path
