import Mathlib.Data.List.DropRight
import PegKit.Files.Tree

/-! What a write does to a file tree. The text stands at one place, to which the path leads from
then on, and every other place keeps what it held. A place where something can be written is never
that of a directory, so all the ways to it stay open. -/

namespace PegKit

theorem fromUTF8?_toUTF8 (s : String) : String.fromUTF8? s.toUTF8 = some s :=
  dif_pos s.isValidUTF8

namespace FileTree
variable {t t' : FileTree} {place other : List String} {e : Entry}

/-! Looking up what was put. -/

theorem find?_of_ne_nil (h : place ≠ []) :
    t.find? place = (t.entries.find? (·.1 == place)).map (·.2) :=
  if_neg h

theorem find?_entries_map (entries : List (List String × Entry)) (other : List String) :
    (entries.map fun x => if x.1 == place then (place, e) else x).find? (·.1 == other) =
      (entries.find? (·.1 == other)).map fun x => if x.1 == place then (place, e) else x := by
  have hkeys : (fun x : List String × Entry => x.1 == other) ∘
      (fun x => if x.1 == place then (place, e) else x) = fun x => x.1 == other := by
    funext x
    by_cases h : x.1 = place <;> simp [h]
  rw [List.find?_map, hkeys]

theorem find?_put_self (h : place ≠ []) : (t.put place e).find? place = some e := by
  rw [find?_of_ne_nil h]
  unfold put
  split_ifs with hf
  · obtain ⟨old, hold⟩ := Option.isSome_iff_exists.1 hf
    rw [find?_of_ne_nil h, Option.map_eq_some_iff] at hold
    obtain ⟨x, hx, -⟩ := hold
    have hkey : x.1 = place := by simpa using List.find?_some hx
    rw [find?_entries_map, hx]
    simp [hkey]
  · have hnone : t.entries.find? (·.1 == place) = none := by
      rw [find?_of_ne_nil h, Option.isSome_map] at hf
      exact Option.not_isSome_iff_eq_none.1 hf
    simp [List.find?_append, hnone]

theorem find?_put_of_ne (h : other ≠ place) : (t.put place e).find? other = t.find? other := by
  by_cases ho : other = []
  · simp [find?, ho]
  rw [find?_of_ne_nil ho, find?_of_ne_nil ho]
  unfold put
  split_ifs with hf
  · rw [find?_entries_map]
    cases hx : t.entries.find? (·.1 == other) with
    | none => rfl
    | some x =>
      have hkey : x.1 = other := by simpa using List.find?_some hx
      have hne : ¬ x.1 = place := by rwa [hkey]
      simp [hne]
  · simp [List.find?_append, Ne.symm h]

theorem put_here : (t.put place e).here = t.here := by
  unfold put
  split_ifs <;> rfl

theorem origin_put (path : String) : (t.put place e).origin path = t.origin path := by
  rw [origin, origin, put_here]

/-! Following a path. -/

/-- A part of a path that leads to an entry of a directory, where the entry is. -/
structure IsEntryName (name : String) : Prop where
  ne_empty : name ≠ ""
  ne_dot : name ≠ "."
  ne_dots : name ≠ ".."
  fits : name.utf8ByteSize ≤ nameLimit

section follow
variable {above dir names rest : List String} {name : String}

theorem follow_entry (h : IsEntryName name) :
    t.follow above (name :: rest) =
      match t.find? (above ++ [name]) with
      | none => .error .notFound
      | some .directory => t.follow (above ++ [name]) rest
      | some (.file _) => if rest = [] then .ok (above ++ [name]) else .error .notDirectory := by
  have hstay : ¬ (decide (name = "") || decide (name = ".")) = true := by
    simp [h.ne_empty, h.ne_dot]
  have hshort : ¬ nameLimit < name.utf8ByteSize := Nat.not_lt.2 h.fits
  rw [follow]
  exact (if_neg hstay).trans ((if_neg h.ne_dots).trans (if_neg hshort))

/-- A part of a path stays, goes up, or leads on to a directory or at last to a file. -/
theorem follow_cons_eq_ok (h : t.follow above (name :: rest) = .ok place) :
    (name = "" ∨ name = ".") ∧ t.follow above rest = .ok place ∨
      name = ".." ∧ t.follow above.dropLast rest = .ok place ∨
      IsEntryName name ∧ (t.find? (above ++ [name]) = some .directory ∧
          t.follow (above ++ [name]) rest = .ok place ∨
        rest = [] ∧ ∃ content, t.find? (above ++ [name]) = some (.file content)) := by
  by_cases hstay : name = "" ∨ name = "."
  · rw [follow, if_pos (by simpa using hstay)] at h
    exact .inl ⟨hstay, h⟩
  by_cases hup : name = ".."
  · rw [follow, if_neg (by simpa using hstay), if_pos hup] at h
    exact .inr (.inl ⟨hup, h⟩)
  by_cases hlong : nameLimit < name.utf8ByteSize
  · rw [follow, if_neg (by simpa using hstay), if_neg hup, if_pos hlong] at h
    cases h
  rw [not_or] at hstay
  have hname : IsEntryName name := ⟨hstay.1, hstay.2, hup, by omega⟩
  rw [follow_entry hname] at h
  refine .inr (.inr ⟨hname, ?_⟩)
  split at h
  · cases h
  · rename_i hdir
    exact .inl ⟨hdir, h⟩
  · rename_i content hfile
    split_ifs at h with hrest
    exact .inr ⟨hrest, content, hfile⟩

theorem follow_concat (hname : IsEntryName name)
    (hdirs : ∀ q, t.find? q = some .directory → t'.find? q = some .directory)
    {content : ByteArray} (hfile : t'.find? (dir ++ [name]) = some (.file content))
    (h : t.follow above (names ++ [""]) = .ok dir) :
    t'.follow above (names ++ [name]) = .ok (dir ++ [name]) := by
  induction names generalizing above with
  | nil =>
    have habove : above = dir := by simpa [follow] using h
    rw [List.nil_append, follow_entry hname, habove, hfile]
    rfl
  | cons part names ih =>
    rw [List.cons_append] at h ⊢
    rcases follow_cons_eq_ok h with ⟨hp, h⟩ | ⟨rfl, h⟩ | ⟨hp, ⟨hd, h⟩ | ⟨hrest, -⟩⟩
    · rw [follow, if_pos (by simpa using hp)]
      exact ih h
    · rw [follow, if_neg (by decide), if_pos rfl]
      exact ih h
    · rw [follow_entry hp, hdirs _ hd]
      exact ih h
    · simp at hrest

end follow

theorem not_of_getLast?_rdropWhile {p : String → Bool} {names : List String} {name : String}
    (h : (names.rdropWhile p).getLast? = some name) : ¬ p name := by
  have hne : names.rdropWhile p ≠ [] := by
    intro hnil
    simp [hnil] at h
  rw [List.getLast?_eq_getLast_of_ne_nil hne] at h
  rw [← Option.some.inj h]
  exact List.rdropWhile_last_not p names hne

/-- Where something can be written: at an entry of a directory to which the parts before lead, and
which is no directory itself. -/
theorem destination_eq_ok {path : String} (h : t.destination path = .ok place) :
    ∃ names name dir, parts path = .ok (names ++ [name]) ∧ IsEntryName name ∧
      t.follow (t.origin path) (names ++ [""]) = .ok dir ∧ place = dir ++ [name] ∧
      t.find? place ≠ some .directory := by
  unfold destination at h
  cases hparts : parts path with
  | error e => simp [hparts, bind, Except.bind] at h
  | ok names =>
    simp only [hparts, bind, Except.bind] at h
    generalize htrimmed : (names.reverse.dropWhile (· = "")).reverse = trimmed at h
    cases hlast : trimmed.getLast? with
    | none => simp [hlast] at h
    | some name =>
      simp only [hlast] at h
      cases hdir : t.follow (t.origin path) (trimmed.dropLast ++ [""]) with
      | error e => simp [hdir] at h
      | ok dir =>
        simp only [hdir] at h
        split_ifs at h with hdots hlong hplace
        simp only [Bool.or_eq_true, decide_eq_true_eq, not_or, not_lt] at hdots hlong
        obtain rfl : dir ++ [name] = place := by simpa using h
        -- no slash at the end was cut off, or the path would name a directory
        have hbefore : trimmed <+: names := htrimmed ▸ List.rdropWhile_prefix _ names
        have hwhole : trimmed = names :=
          hbefore.eq_of_length (le_antisymm hbefore.length_le hdots.2)
        have hsplit : trimmed.dropLast ++ [name] = trimmed :=
          List.dropLast_append_getLast? name hlast
        have hempty : name ≠ "" := by
          subst htrimmed
          simpa using not_of_getLast?_rdropWhile hlast
        exact ⟨trimmed.dropLast, name, dir, by rw [hsplit, hwhole],
          ⟨hempty, hdots.1.1, hdots.1.2, hlong⟩, hdir, rfl, hplace⟩

/-- A file that was written holds the text, and nothing else has changed. -/
theorem read_of_write {path text : String} (h : t.write path text = .ok t') :
    t'.read path = .ok text ∧ ∃ place, t.destination path = .ok place ∧
      t'.locate path = .ok place ∧ t'.find? place = some (.file text.toUTF8) ∧
      ∀ other, other ≠ place → t'.find? other = t.find? other := by
  cases hplace : t.destination path with
  | error e => simp [write, hplace, bind, Except.bind] at h
  | ok place =>
    obtain rfl : t.put place (.file text.toUTF8) = t' := by
      simpa [write, hplace, bind, Except.bind, pure, Except.pure] using h
    obtain ⟨names, name, dir, hparts, hname, hdir, rfl, hfree⟩ := destination_eq_ok hplace
    have hfile : (t.put (dir ++ [name]) (.file text.toUTF8)).find? (dir ++ [name]) =
        some (.file text.toUTF8) := find?_put_self (by simp)
    have hlocate : (t.put (dir ++ [name]) (.file text.toUTF8)).locate path =
        .ok (dir ++ [name]) := by
      simp only [locate, hparts, origin_put, bind, Except.bind]
      apply follow_concat hname _ hfile hdir
      intro q hq
      have hne : q ≠ dir ++ [name] := by
        rintro rfl
        exact hfree hq
      rw [find?_put_of_ne hne]
      exact hq
    refine ⟨?_, _, rfl, hlocate, hfile, fun other hne => find?_put_of_ne hne⟩
    simp only [read, hlocate, bind, Except.bind, hfile, fromUTF8?_toUTF8]

end FileTree

end PegKit
