import PegKit.Proofs.Destinations
import PegKit.Proofs.GenerateCommand

/-! The file that a scaffold is written to in a directory. It has the stem of the grammar's name and
the extension of the target, so the name tells the two apart, and no name of a grammar ends so: a
scaffold never takes the place of its grammar, whatever the directory is. -/

namespace PegKit.CommandLine

/-- The name of a scaffold's file, by the stem of the grammar's name. -/
def scaffoldName (stem : List Char) (u : Target) : List Char :=
  stem ++ '.' :: u.fileExtension.toList

section names
variable {stem stem' extension : List Char} {u u' : Target}

theorem splitName_scaffoldName (h : stem ≠ []) :
    Path.splitName (scaffoldName stem u) = (stem, some u.fileExtension.toList) := by
  have hdot : '.' ∉ u.fileExtension.toList := by cases u <;> decide
  rw [scaffoldName, Path.splitName_append hdot, if_neg h]

theorem scaffoldName_inj (h : stem ≠ []) (h' : stem' ≠ []) :
    scaffoldName stem u = scaffoldName stem' u' ↔ stem = stem' ∧ u = u' := by
  constructor
  · intro he
    have hsplit := congrArg Path.splitName he
    rw [splitName_scaffoldName h, splitName_scaffoldName h', Prod.mk.injEq, Option.some.injEq]
      at hsplit
    refine ⟨hsplit.1, ?_⟩
    cases u <;> cases u' <;> first | rfl | exact absurd hsplit.2 (by decide)
  · rintro ⟨rfl, rfl⟩
    rfl

/-- No name of a grammar is that of a scaffold. -/
theorem scaffoldName_ne (h : stem ≠ []) (hext : extension.map Char.toLower = "npeg".toList) :
    stem' ++ '.' :: extension ≠ scaffoldName stem u := by
  intro he
  have hsplit := congrArg Path.splitName he
  rw [splitName_scaffoldName h, Path.splitName_append (Path.no_dot_of_toLower hext).1] at hsplit
  split_ifs at hsplit
  · cases hsplit
  · rw [Prod.mk.injEq, Option.some.injEq] at hsplit
    rw [hsplit.2] at hext
    cases u <;> exact absurd hext (by decide)

end names

section paths
variable {stem : List Char} {file output : String} {u : Target}

theorem isFileName_scaffoldName (h : Path.EndsInGrammar stem file) :
    Path.IsFileName (scaffoldName stem u) := by
  obtain ⟨hstem, extension, -, hends⟩ := h
  have hslash : '/' ∉ stem := fun hmem => hends.1.no_slash (List.mem_append_left _ hmem)
  have hlong : 3 ≤ (scaffoldName stem u).length := by
    cases u <;> simp [scaffoldName, Target.fileExtension]
  refine ⟨?_, ?_, ?_, ?_⟩
  · intro he
    simp [he] at hlong
  · intro he
    simp [he] at hlong
  · intro he
    simp [he] at hlong
  · cases u <;> simp [scaffoldName, Target.fileExtension, hslash]

theorem scaffoldPath_of_endsInGrammar (h : Path.EndsInGrammar stem file) :
    scaffoldPath output file true u = Path.join output (String.ofList (scaffoldName stem u)) := by
  have hname : String.ofList stem ++ "." ++ u.fileExtension =
      String.ofList (scaffoldName stem u) := by
    simp [← String.toList_inj, scaffoldName]
  rw [scaffoldPath, if_pos rfl, Path.stem?_of_endsInGrammar h, ← hname]
  rfl

theorem not_endsIn_scaffoldName (h : Path.EndsInGrammar stem file) :
    ¬ Path.EndsIn (scaffoldName stem u) file := by
  obtain ⟨hstem, extension, hext, hends⟩ := h
  intro hscaffold
  have hname := (Path.fileName?_of_endsIn hends).symm.trans (Path.fileName?_of_endsIn hscaffold)
  exact scaffoldName_ne hstem hext (Option.some.inj hname)

theorem length_le_utf8ByteSize (text : List Char) :
    text.length ≤ (String.ofList text).utf8ByteSize := by
  induction text with
  | nil => exact Nat.zero_le _
  | cons c text ih =>
    have := c.utf8Size_pos
    rw [String.utf8ByteSize_ofList] at ih ⊢
    simp only [List.length_cons, String.utf8Len_cons]
    omega

theorem scaffoldName_fits {t : FileTree} {place : List String} (h : Path.EndsInGrammar stem file)
    (hplace : t.locate file = .ok place) :
    '\x00' ∉ scaffoldName stem u ∧
      (String.ofList (scaffoldName stem u)).utf8ByteSize ≤ FileTree.nameLimit := by
  obtain ⟨hstem, extension, hext, hends⟩ := h
  obtain ⟨hfits, -⟩ := FileTree.eq_concat_of_locate hends hplace
  obtain ⟨names, hparts, -⟩ := FileTree.locate_eq_ok_iff.1 hplace
  obtain ⟨hnull, -⟩ := FileTree.parts_eq_ok_iff.1 hparts
  obtain ⟨-, before, tail, hfile, -⟩ := hends
  have hstemnull : '\x00' ∉ stem := by
    rw [hfile] at hnull
    simp only [List.mem_append, not_or] at hnull
    exact hnull.1.2.1
  have hlength : extension.length = 4 := by simpa using congrArg List.length hext
  have hlong := length_le_utf8ByteSize ('.' :: extension)
  rw [String.ofList_append, String.utf8ByteSize_append] at hfits
  rw [scaffoldName, String.ofList_append, String.utf8ByteSize_append]
  rw [List.length_cons, hlength] at hlong
  have hshort : (String.ofList ('.' :: u.fileExtension.toList)).utf8ByteSize ≤ 4 := by
    cases u <;> decide
  refine ⟨?_, by omega⟩
  cases u <;> simp [Target.fileExtension, hstemnull]

end paths

section runs
variable {t t' : FileTree} {config : Option String} {file path : String}
  {target entry : Option String} {c : Config} {d : Document} {x : Scaffold} {o : Outcome}

theorem GenerateEnd.write_cases (h : GenerateEnd t config file target entry (some path) o t')
    (hload : Loads t config file c d) (hx : (Session.new c).generate d target entry = .ok x) :
    o.status = 0 ∧
        t.write (scaffoldPath path file (t.isDirectory path) x.target) x.text = .ok t' ∨
      o.status = 2 ∧ t' = t ∧ ∃ cause,
        t.write (scaffoldPath path file (t.isDirectory path) x.target) x.text = .error cause := by
  cases h with
  | unloaded e log h => exact absurd hload (h c d)
  | invalid c' d' log h hd =>
    obtain ⟨rfl, rfl⟩ := hload.unique h
    rw [Session.isValid_of_generate hx] at hd
    cases hd
  | unknownTarget c' d' e log h hd ht =>
    obtain ⟨rfl, rfl⟩ := hload.unique h
    exact absurd (Session.target_id_of_generate hx) (ht x.target)
  | printed c' d' x' log h hx' ho => cases ho
  | unwritten c' d' x' path' cause text log h hx' ho hw =>
    obtain ⟨rfl, rfl⟩ := hload.unique h
    obtain rfl := Except.ok.inj (hx.symm.trans hx')
    obtain rfl := Option.some.inj ho
    exact .inr ⟨rfl, rfl, cause, hw⟩
  | written c' d' x' path' t'' log h hx' ho hw =>
    obtain ⟨rfl, rfl⟩ := hload.unique h
    obtain rfl := Except.ok.inj (hx.symm.trans hx')
    obtain rfl := Option.some.inj ho
    exact .inl ⟨rfl, hw⟩

theorem destination_scaffoldPath {stem : List Char} {dir : List String} {u : Target}
    (hfile : Path.EndsInGrammar stem file) (hload : Loads t config file c d)
    (hdir : t.locate path = .ok dir) (hdirectory : t.find? dir = some .directory) :
    t.destination (scaffoldPath path file true u) =
      let name := String.ofList (scaffoldName stem u)
      if FileTree.pathLimit < (Path.join path name).utf8ByteSize then .error .nameTooLong
      else if t.find? (dir ++ [name]) = some .directory then .error .isDirectory
      else .ok (dir ++ [name]) := by
  obtain ⟨-, hread, -⟩ := FileTree.document_eq_ok_iff.1 hload.document
  obtain ⟨place, hplace⟩ := FileTree.exists_locate_of_read hread
  obtain ⟨hnull, hfits⟩ := scaffoldName_fits (u := u) hfile hplace
  rw [scaffoldPath_of_endsInGrammar hfile]
  exact FileTree.destination_join (isFileName_scaffoldName hfile) hnull hfits hdir hdirectory

theorem read_of_write_scaffold {stem : List Char} {dir : List String} {u : Target} {text : String}
    (hfile : Path.EndsInGrammar stem file) (hload : Loads t config file c d)
    (hdestination : t.destination path = .ok (dir ++ [String.ofList (scaffoldName stem u)]))
    (hwrite : t.write path text = .ok t') : t'.read file = .ok d.source := by
  obtain ⟨-, hread, -⟩ := FileTree.document_eq_ok_iff.1 hload.document
  obtain ⟨place, hplace⟩ := FileTree.exists_locate_of_read hread
  obtain ⟨place', hplace', rfl⟩ := FileTree.write_eq_ok_iff.1 hwrite
  obtain rfl := Except.ok.inj (hdestination.symm.trans hplace')
  obtain ⟨-, -, -, -, -, -, -, hfree⟩ := FileTree.destination_eq_ok hdestination
  rw [FileTree.read_put_of_ne hfree hplace, hread]
  rintro rfl
  obtain ⟨hstem, extension, hext, hends⟩ := hfile
  obtain ⟨-, above, habove⟩ := FileTree.eq_concat_of_locate hends hplace
  have hname : stem ++ '.' :: extension = scaffoldName stem u := by
    simpa [← String.toList_inj] using (List.append_inj' habove rfl).2.symm
  exact scaffoldName_ne hstem hext hname

/-- A scaffold that is made for a directory is in it afterwards, and nothing else has changed,
unless its path is too long or a directory of its name is there. -/
theorem GenerateEnd.placed_cases {stem : List Char} {dir : List String}
    (h : GenerateEnd t config file target entry (some path) o t')
    (hfile : Path.EndsInGrammar stem file) (hload : Loads t config file c d)
    (hx : (Session.new c).generate d target entry = .ok x) (hdir : t.locate path = .ok dir)
    (hdirectory : t.isDirectory path = true) (hfind : t.find? dir = some .directory) :
    let name := String.ofList (scaffoldName stem x.target)
    o.status = 0 ∧ (Path.join path name).utf8ByteSize ≤ FileTree.pathLimit ∧
        t.find? (dir ++ [name]) ≠ some .directory ∧ t'.read (Path.join path name) = .ok x.text ∧
        t'.find? (dir ++ [name]) = some (.file x.text.toUTF8) ∧
        (∀ other, other ≠ dir ++ [name] → t'.find? other = t.find? other) ∧
        t'.read file = .ok d.source ∨
      o.status = 2 ∧ t' = t ∧
        (FileTree.pathLimit < (Path.join path name).utf8ByteSize ∨
          t.find? (dir ++ [name]) = some .directory) := by
  intro name
  have hdestination := destination_scaffoldPath (u := x.target) hfile hload hdir hfind
  have hwrite := h.write_cases hload hx
  rw [hdirectory, scaffoldPath_of_endsInGrammar hfile] at hwrite
  rw [scaffoldPath_of_endsInGrammar hfile] at hdestination
  simp only at hdestination
  rcases hwrite with ⟨hstatus, hwrite⟩ | ⟨hstatus, htree, cause, hwrite⟩
  · obtain ⟨hread, place, hplace, -, hfound, hframe⟩ := FileTree.read_of_write hwrite
    have hplace' := hdestination.symm.trans hplace
    split_ifs at hplace' with hlong hbusy
    obtain rfl := Except.ok.inj hplace'
    exact .inl ⟨hstatus, Nat.not_lt.1 hlong, hbusy, hread, hfound, hframe,
      read_of_write_scaffold hfile hload hplace hwrite⟩
  · refine .inr ⟨hstatus, htree, ?_⟩
    -- a write to a free place is never refused
    by_contra hfree
    rw [not_or] at hfree
    have hplace := hdestination.trans ((if_neg hfree.1).trans (if_neg hfree.2))
    have hwritten : t.write (Path.join path name) x.text =
        .ok (t.put (dir ++ [name]) (.file x.text.toUTF8)) :=
      FileTree.write_eq_ok_iff.2 ⟨_, hplace, rfl⟩
    rw [hwritten] at hwrite
    cases hwrite

end runs

/-- The command with a directory as its output, for all arguments that ask for it. The grammars
accepted are those whose name is a stem, a dot and `npeg` in any case, and the scaffold of one is
named by that stem and its target. So the name is never the grammar's own, and it tells both
apart. The file is written right in the directory, unless its path is too long or a directory of
that name is there, and then nothing changes; the grammar is read as before in any case. -/
theorem generate_into_directory (t : FileTree) (env : Environment) {args : List String}
    {config : Option String} {verbosity : Nat} {file output : String} {target entry : Option String}
    (h : request env.configFile args =
      .run ⟨config, verbosity, .generate file target entry (some output)⟩)
    (hdirectory : t.isDirectory output = true) :
    (isGrammarFile file = true ↔ ∃ stem, Path.EndsInGrammar stem file) ∧
    ∀ stem, Path.EndsInGrammar stem file →
      (∀ u, scaffoldPath output file true u =
          Path.join output (String.ofList (scaffoldName stem u)) ∧
        Path.EndsIn (scaffoldName stem u) (scaffoldPath output file true u) ∧
        ¬ Path.EndsIn (scaffoldName stem u) file) ∧
      (∀ output' file' stem' u u', Path.EndsInGrammar stem' file' →
        (Path.fileName? (scaffoldPath output file true u) =
            Path.fileName? (scaffoldPath output' file' true u') ↔ stem = stem' ∧ u = u')) ∧
      ∀ c d x, ¬ env.BreaksOff → Loads t config file c d →
        (Session.new c).generate d target entry = .ok x →
        let o := (t.run (run env args)).1
        let t' := (t.run (run env args)).2
        let name := String.ofList (scaffoldName stem x.target)
        let path := Path.join output name
        x.target.id = target.getD c.defaultTarget ∧ ∃ dir, t.locate output = .ok dir ∧
          (o.status = 0 ∧ path.utf8ByteSize ≤ FileTree.pathLimit ∧
              t.find? (dir ++ [name]) ≠ some .directory ∧ t'.read path = .ok x.text ∧
              t'.find? (dir ++ [name]) = some (.file x.text.toUTF8) ∧
              (∀ other, other ≠ dir ++ [name] → t'.find? other = t.find? other) ∧
              t'.read file = .ok d.source ∨
            o.status = 2 ∧ t' = t ∧
              (FileTree.pathLimit < path.utf8ByteSize ∨
                t.find? (dir ++ [name]) = some .directory)) := by
  refine ⟨Path.isGrammarFile_iff, fun stem hfile => ⟨fun u => ?_, ?_, ?_⟩⟩
  · rw [scaffoldPath_of_endsInGrammar hfile]
    exact ⟨rfl, Path.endsIn_join (isFileName_scaffoldName hfile), not_endsIn_scaffoldName hfile⟩
  · intro output' file' stem' u u' hfile'
    rw [scaffoldPath_of_endsInGrammar hfile, scaffoldPath_of_endsInGrammar hfile',
      Path.fileName?_of_endsIn (Path.endsIn_join (isFileName_scaffoldName hfile)),
      Path.fileName?_of_endsIn (Path.endsIn_join (isFileName_scaffoldName hfile')),
      Option.some.injEq, scaffoldName_inj hfile.1 hfile'.1]
  · intro c d x hsound hload hx o t' name path
    obtain ⟨dir, hdir, hfind⟩ := FileTree.isDirectory_iff.1 hdirectory
    have hend := (generateEnd_of_request t h).resolve_left fun hb => hsound hb.1
    exact ⟨Session.target_id_of_generate hx, dir, hdir,
      hend.placed_cases hfile hload hx hdir hdirectory hfind⟩

/-- A grammar whose stem is a dot, in its own directory. -/
theorem generate_into_directory_dots :
    let t := FileTree.empty.add "g/..nPeG" "a <-".toUTF8
    let env : Environment := ⟨none, none, none⟩
    let args := ["generate", "-t", "rust", "-o", "g/", "g/./..nPeG"]
    let t' := (t.run (run env args)).2
    request env.configFile args =
      .run ⟨none, 0, .generate "g/./..nPeG" (some "rust") none (some "g/")⟩ ∧
    t.isDirectory "g/" = true ∧ Path.EndsInGrammar ['.'] "g/./..nPeG" ∧
    (∃ x : Scaffold, t'.find? ["g", "..rs"] = some (.file x.text.toUTF8)) ∧
    t'.read "g/./..nPeG" = t.read "g/./..nPeG" := by
  intro t env args t'
  have hrequest : request env.configFile args =
      .run ⟨none, 0, .generate "g/./..nPeG" (some "rust") none (some "g/")⟩ := by decide +kernel
  have hdirectory : t.isDirectory "g/" = true := by decide +kernel
  have hdir : t.locate "g/" = .ok ["g"] := by decide +kernel
  have hzero : (t.run (run env args)).1.status = 0 := by decide +kernel
  have hsound : ¬ env.BreaksOff := by
    rintro ⟨text, htext, -⟩
    cases htext
  have hfile : Path.EndsInGrammar ['.'] "g/./..nPeG" :=
    ⟨by decide, "nPeG".toList, by decide, ⟨by decide, by decide, by decide, by decide⟩,
      "g/./".toList, [], by decide, .inr ⟨"g/.".toList, by decide⟩, .nil⟩
  have hend := (generateEnd_of_request t hrequest).resolve_left fun hb => hsound hb.1
  obtain ⟨c, d, x, hload, hx, -⟩ := hend.scaffold_of_ok hzero
  obtain ⟨-, hread, -⟩ := FileTree.document_eq_ok_iff.1 hload.document
  obtain ⟨-, -, hrun⟩ := (generate_into_directory t env hrequest hdirectory).2 _ hfile
  obtain ⟨hid, dir, hdir', hrest⟩ := hrun c d x hsound hload hx
  rcases hrest with ⟨-, -, -, -, hfound, -, hkept⟩ | ⟨htwo, -⟩
  · obtain rfl := Except.ok.inj (hdir.symm.trans hdir')
    refine ⟨hrequest, hdirectory, hfile, ⟨x, ?_⟩, hkept.trans hread.symm⟩
    have hrust : x.target = .rust := by
      cases hu : x.target with
      | rust => rfl
      | nim =>
        have hnim : Target.nim.id = "rust" := hu ▸ hid
        exact absurd hnim (by decide)
    rw [hrust] at hfound
    exact hfound
  · rw [hzero] at htwo
    cases htwo

end PegKit.CommandLine
