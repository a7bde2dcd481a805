import PegKit.Proofs.FileNames
import PegKit.Proofs.WrittenFiles

/-! Files in a directory. A name joined to a path to a directory is written right in that directory,
unless the path grows too long or a directory of that name is there. A file keeps its place and its
text when another one is written. -/

namespace PegKit.FileTree
variable {t : FileTree} {path : String} {place other above names before behind : List String}
  {name text : String}

theorem parts_eq_ok_iff :
    parts path = .ok names ↔ '\x00' ∉ path.toList ∧ path.toList ≠ [] ∧
      path.utf8ByteSize ≤ pathLimit ∧ names = (Path.segments path.toList).map String.ofList := by
  have hempty : path.isEmpty = true ↔ path.toList = [] := by simp
  unfold parts
  split_ifs with h₁ h₂ h₃
  · simp only [List.contains_iff_mem] at h₁
    simp [h₁]
  · simp [hempty.1 h₂]
  · simp [Nat.not_le.2 h₃]
  · simp only [List.contains_iff_mem] at h₁
    simp [h₁, mt hempty.2 h₂, Nat.not_lt.1 h₃, eq_comm]

theorem parts_of_long (hnull : '\x00' ∉ path.toList) (hne : path.toList ≠ [])
    (hlong : pathLimit < path.utf8ByteSize) : parts path = .error .nameTooLong := by
  have hempty : ¬ path.isEmpty = true := by simpa using hne
  have hfree : ¬ path.toList.contains '\x00' = true := by simpa using hnull
  rw [parts, if_neg hfree, if_neg hempty, if_pos hlong]

theorem locate_eq_ok_iff :
    t.locate path = .ok place ↔
      ∃ names, parts path = .ok names ∧ t.follow (t.origin path) names = .ok place := by
  unfold locate
  cases parts path with
  | error e => simp [bind, Except.bind]
  | ok names => simp [bind, Except.bind]

theorem exists_locate_of_read (h : t.read path = .ok text) : ∃ place, t.locate path = .ok place := by
  cases hplace : t.locate path with
  | ok place => exact ⟨place, rfl⟩
  | error e => simp [read, hplace, bind, Except.bind] at h

theorem isDirectory_iff :
    t.isDirectory path = true ↔ ∃ dir, t.locate path = .ok dir ∧ t.find? dir = some .directory := by
  unfold isDirectory
  cases t.locate path with
  | error e => simp
  | ok dir => simp

theorem write_eq_ok_iff {t' : FileTree} :
    t.write path text = .ok t' ↔
      ∃ place, t.destination path = .ok place ∧ t' = t.put place (.file text.toUTF8) := by
  unfold write
  cases t.destination path with
  | error e => simp [bind, Except.bind]
  | ok place => simp [bind, Except.bind, pure, Except.pure, eq_comm]

section follow

theorem follow_append_empty (hplace : t.find? place = some .directory)
    (h : t.follow above names = .ok place) : t.follow above (names ++ [""]) = .ok place := by
  induction names generalizing above with
  | nil => exact h
  | cons part names ih =>
    rw [List.cons_append]
    rcases follow_cons_eq_ok h with ⟨hp, hrest⟩ | ⟨rfl, hrest⟩ | ⟨hp, ⟨hd, hrest⟩ | ⟨rfl, _, hfile⟩⟩
    · rw [follow, if_pos (by simpa using hp)]
      exact ih hrest
    · rw [follow, if_neg (by decide), if_pos rfl]
      exact ih hrest
    · rw [follow_entry hp, hd]
      exact ih hrest
    · rw [follow_entry hp, hfile] at h
      obtain rfl : above ++ [part] = place := by simpa using h
      rw [hfile] at hplace
      cases hplace

theorem follow_of_stays (hnames : ∀ part ∈ names, part = "" ∨ part = ".") :
    t.follow above names = .ok above := by
  induction names with
  | nil => rfl
  | cons part names ih =>
    obtain ⟨hpart, hnames⟩ := List.forall_mem_cons.1 hnames
    rw [follow, if_pos (by simpa using hpart), ih hnames]

theorem eq_concat_of_follow (hname : name ≠ "" ∧ name ≠ "." ∧ name ≠ "..")
    (hbehind : ∀ part ∈ behind, part = "" ∨ part = ".")
    (h : t.follow above (before ++ name :: behind) = .ok place) :
    name.utf8ByteSize ≤ nameLimit ∧ ∃ dir, place = dir ++ [name] := by
  induction before generalizing above with
  | nil =>
    rcases follow_cons_eq_ok h with ⟨hp | hp, -⟩ | ⟨hp, -⟩ | ⟨hp, ⟨-, hrest⟩ | ⟨rfl, _, hfile⟩⟩
    · exact absurd hp hname.1
    · exact absurd hp hname.2.1
    · exact absurd hp hname.2.2
    · rw [follow_of_stays hbehind] at hrest
      exact ⟨hp.fits, above, by simpa using hrest.symm⟩
    · rw [List.nil_append, follow_entry hp, hfile] at h
      exact ⟨hp.fits, above, by simpa using h.symm⟩
  | cons part before ih =>
    rcases follow_cons_eq_ok h with ⟨-, hrest⟩ | ⟨-, hrest⟩ | ⟨-, ⟨-, hrest⟩ | ⟨hrest, -⟩⟩
    · exact ih hrest
    · exact ih hrest
    · exact ih hrest
    · simp at hrest

/-- Where a path leads depends on the directories on its way and on the entry at its end. -/
theorem follow_of_frame {t' : FileTree}
    (hdirs : ∀ q, t.find? q = some .directory → t'.find? q = some .directory)
    (hplace : t'.find? place = t.find? place) (h : t.follow above names = .ok place) :
    t'.follow above names = .ok place := by
  induction names generalizing above with
  | nil => exact h
  | cons part names ih =>
    rcases follow_cons_eq_ok h with ⟨hp, hrest⟩ | ⟨rfl, hrest⟩ | ⟨hp, ⟨hd, hrest⟩ | ⟨rfl, _, hfile⟩⟩
    · rw [follow, if_pos (by simpa using hp)]
      exact ih hrest
    · rw [follow, if_neg (by decide), if_pos rfl]
      exact ih hrest
    · rw [follow_entry hp, hdirs _ hd]
      exact ih hrest
    · rw [follow_entry hp, hfile] at h
      obtain rfl : above ++ [part] = place := by simpa using h
      rw [follow_entry hp, hplace, hfile]
      rfl

end follow

theorem read_put_of_ne {e : Entry} (hfree : t.find? place ≠ some .directory)
    (hother : t.locate path = .ok other) (hne : other ≠ place) :
    (t.put place e).read path = t.read path := by
  obtain ⟨names, hparts, hfollow⟩ := locate_eq_ok_iff.1 hother
  have hlocate : (t.put place e).locate path = .ok other := by
    refine locate_eq_ok_iff.2 ⟨names, hparts, ?_⟩
    rw [origin_put]
    refine follow_of_frame (fun q hq => ?_) (find?_put_of_ne hne) hfollow
    have hq' : q ≠ place := fun e => hfree (e ▸ hq)
    rw [find?_put_of_ne hq', hq]
  simp only [read, hlocate, hother, bind, Except.bind, find?_put_of_ne hne]

theorem isEntryName_of_isFileName {name : List Char} (h : Path.IsFileName name)
    (hfits : (String.ofList name).utf8ByteSize ≤ nameLimit) : IsEntryName (String.ofList name) where
  ne_empty := by simpa [← String.toList_inj] using h.ne_nil
  ne_dot := by simpa [← String.toList_inj] using h.ne_dot
  ne_dots := by simpa [← String.toList_inj] using h.ne_dots
  fits := hfits

/-- The place of a path to an existing entry ends in the name that the path ends in. -/
theorem eq_concat_of_locate {name : List Char} (hname : Path.EndsIn name path)
    (h : t.locate path = .ok place) :
    (String.ofList name).utf8ByteSize ≤ nameLimit ∧ ∃ dir, place = dir ++ [String.ofList name] := by
  obtain ⟨names, hparts, hfollow⟩ := locate_eq_ok_iff.1 h
  obtain ⟨-, -, -, rfl⟩ := parts_eq_ok_iff.1 hparts
  obtain ⟨above, behind, hsegments, hbehind⟩ := Path.segments_of_endsIn hname
  rw [hsegments, List.map_append, List.map_cons] at hfollow
  refine eq_concat_of_follow ?_ ?_ hfollow
  · simpa [← String.toList_inj] using ⟨hname.1.ne_nil, hname.1.ne_dot, hname.1.ne_dots⟩
  · intro part hpart
    obtain ⟨part, hmem, rfl⟩ := List.mem_map.1 hpart
    rcases Path.counts_eq_false_iff.1 (hbehind part hmem) with rfl | rfl
    · exact .inl rfl
    · exact .inr rfl

theorem destination_of_parts {dir : List String} (hparts : parts path = .ok (names ++ [name]))
    (hname : IsEntryName name) (hdir : t.follow (t.origin path) (names ++ [""]) = .ok dir) :
    t.destination path =
      if t.find? (dir ++ [name]) = some .directory then .error .isDirectory
      else .ok (dir ++ [name]) := by
  have htrimmed : ((names ++ [name]).reverse.dropWhile (· = "")).reverse = names ++ [name] := by
    simp [hname.ne_empty]
  have hshort : ¬ nameLimit < name.utf8ByteSize := Nat.not_lt.2 hname.fits
  simp only [destination, hparts, bind, Except.bind, htrimmed, List.getLast?_concat,
    List.dropLast_concat, hdir]
  simp [hname.ne_dot, hname.ne_dots, hshort]

section join
variable {output : String} {name : List Char}

theorem origin_join (hname : Path.IsFileName name) (hne : output.toList ≠ []) :
    t.origin (Path.join output (String.ofList name)) = t.origin output := by
  rw [origin, origin, Path.isAbsolute, Path.isAbsolute, Path.toList_join hname hne]
  cases houtput : output.toList with
  | nil => exact absurd houtput hne
  | cons c rest => split_ifs <;> simp_all

theorem null_notMem_join (hname : Path.IsFileName name) (hnull : '\x00' ∉ name)
    (hnull' : '\x00' ∉ output.toList) (hne : output.toList ≠ []) :
    '\x00' ∉ (Path.join output (String.ofList name)).toList ∧
      (Path.join output (String.ofList name)).toList ≠ [] := by
  rw [Path.toList_join hname hne]
  split_ifs
  · simp [hnull, hnull', hne]
  · simp [hnull, hnull', hne]

theorem parts_join (hname : Path.IsFileName name) (hnull : '\x00' ∉ name)
    (h : parts output = .ok names)
    (hfits : (Path.join output (String.ofList name)).utf8ByteSize ≤ pathLimit) :
    ∃ lead, parts (Path.join output (String.ofList name)) = .ok (lead ++ [String.ofList name]) ∧
      (names = lead ∨ names = lead ++ [""]) := by
  obtain ⟨hnull', hne, -, rfl⟩ := parts_eq_ok_iff.1 h
  have hjoin := Path.toList_join hname hne
  obtain ⟨hfree, hsome⟩ := null_notMem_join hname hnull hnull' hne
  by_cases hslash : output.toList.getLast? = some '/'
  · obtain ⟨above, habove⟩ := List.getLast?_eq_some_iff.1 hslash
    refine ⟨(Path.segments above).map String.ofList,
      parts_eq_ok_iff.2 ⟨hfree, hsome, hfits, ?_⟩, .inr ?_⟩
    · rw [hjoin, if_pos hslash, habove, List.append_assoc, List.singleton_append,
        Path.segments_append_slash, Path.segments_of_no_slash hname.no_slash]
      simp
    · have hempty : Path.segments [] = [[]] := rfl
      rw [habove, Path.segments_append_slash, hempty]
      simp
  · refine ⟨_, parts_eq_ok_iff.2 ⟨hfree, hsome, hfits, ?_⟩, .inl rfl⟩
    rw [hjoin, if_neg hslash, Path.segments_append_slash,
      Path.segments_of_no_slash hname.no_slash]
    simp

/-- A name joined to a path to a directory is written in that directory. -/
theorem destination_join {dir : List String} (hname : Path.IsFileName name) (hnull : '\x00' ∉ name)
    (hshort : (String.ofList name).utf8ByteSize ≤ nameLimit) (hdir : t.locate output = .ok dir)
    (hdirectory : t.find? dir = some .directory) :
    t.destination (Path.join output (String.ofList name)) =
      if pathLimit < (Path.join output (String.ofList name)).utf8ByteSize then .error .nameTooLong
      else if t.find? (dir ++ [String.ofList name]) = some .directory then .error .isDirectory
      else .ok (dir ++ [String.ofList name]) := by
  obtain ⟨names, hparts, hfollow⟩ := locate_eq_ok_iff.1 hdir
  obtain ⟨hnull', hne, -, -⟩ := parts_eq_ok_iff.1 hparts
  have hentry := isEntryName_of_isFileName hname hshort
  by_cases hlong : pathLimit < (Path.join output (String.ofList name)).utf8ByteSize
  · obtain ⟨hfree, hsome⟩ := null_notMem_join hname hnull hnull' hne
    rw [if_pos hlong, destination, parts_of_long hfree hsome hlong]
    rfl
  obtain ⟨lead, hlead, hnames⟩ := parts_join hname hnull hparts (Nat.not_lt.1 hlong)
  rw [if_neg hlong]
  refine destination_of_parts hlead hentry ?_
  rw [origin_join hname hne]
  rcases hnames with rfl | rfl
  · exact follow_append_empty hdirectory hfollow
  · exact hfollow

end join

end PegKit.FileTree
