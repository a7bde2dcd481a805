import PegKit.Session

/-! What a search for the server asks of its probe. A probe that notes each path it is asked about
tells two searches apart that come to the same path. The providers consulted are those up to the
first that gives its path, and the probe is asked about their places in that order, but not about
a configured one. -/

namespace PegKit

/-- A probe that answers as `present` does and notes what it was asked. -/
def noting (present : String → Bool) (path : String) : StateM (List String) Bool := do
  modify (· ++ [path])
  return present path

/-- What a program comes to with such a probe, and the notes behind those that were there before. -/
def noted {α : Type} (asked : List String) (program : StateM (List String) α) :
    α × List String :=
  (program.run asked).run

section noted
variable {α β : Type} {asked : List String}

@[simp]
theorem noted_pure (a : α) : noted asked (pure a) = (a, asked) := rfl

@[simp]
theorem noted_bind (x : StateM (List String) α) (f : α → StateM (List String) β) :
    noted asked (x >>= f) = noted (noted asked x).2 (f (noted asked x).1) := rfl

@[simp]
theorem noted_map (f : α → β) (x : StateM (List String) α) :
    noted asked (f <$> x) = (f (noted asked x).1, (noted asked x).2) := rfl

@[simp]
theorem noted_noting (present : String → Bool) (path : String) :
    noted asked (noting present path) = (present path, asked ++ [path]) := rfl

end noted

namespace Provider

def place (home : String) : Provider → String
  | configured path => path
  | fixed path => path
  | homeRelative path => Path.join home path

def isConfigured : Provider → Bool
  | configured _ => true
  | _ => false

/-- A configured provider gives its path in any case, any other one if something is there. -/
def gives (present : String → Bool) (home : String) (p : Provider) : Bool :=
  p.isConfigured || present (p.place home)

/-- The providers up to the first that gives its path, and that one. -/
def consulted (present : String → Bool) (home : String) (providers : List Provider) :
    List Provider :=
  providers.takeWhile (!gives present home ·) ++ (providers.find? (gives present home)).toList

def lookedAt (home : String) (providers : List Provider) : List String :=
  (providers.filter (!·.isConfigured)).map (place home)

def inquiry (present : String → Bool) (home : String) (p : Provider) : Inquiry :=
  ⟨p, p.probe? (some home), if p.gives present home then some (p.place home) else none⟩

section inquiries
variable {present : String → Bool} {home : String} {asked : List String}

theorem noted_inquire (p : Provider) :
    noted asked (inquire (noting present) (some home) p) =
      (inquiry present home p, asked ++ lookedAt home [p]) := by
  cases p with
  | configured path =>
    simp [inquire, inquiry, probe?, resolve, gives, isConfigured, place, lookedAt]
  | fixed path =>
    cases h : present path <;>
      simp [inquire, inquiry, probe?, resolve, gives, isConfigured, place, lookedAt, h]
  | homeRelative path =>
    cases h : present (Path.join home path) <;>
      simp [inquire, inquiry, probe?, resolve, gives, isConfigured, place, lookedAt, h]

theorem consulted_cons_of_gives {p : Provider} {providers : List Provider}
    (h : p.gives present home = true) : consulted present home (p :: providers) = [p] := by
  simp [consulted, h]

theorem consulted_cons_of_not_gives {p : Provider} {providers : List Provider}
    (h : p.gives present home = false) :
    consulted present home (p :: providers) = p :: consulted present home providers := by
  simp [consulted, h]

theorem lookedAt_cons (p : Provider) (providers : List Provider) :
    lookedAt home (p :: providers) = lookedAt home [p] ++ lookedAt home providers := by
  rw [lookedAt, lookedAt, lookedAt, ← List.map_append, ← List.filter_append, List.singleton_append]

/-- Just the providers consulted are asked, and just their places are looked at. -/
theorem noted_inquireAll (providers : List Provider) :
    noted asked (inquireAll (noting present) (some home) providers) =
      ((consulted present home providers).map (inquiry present home),
        asked ++ lookedAt home (consulted present home providers)) := by
  induction providers generalizing asked with
  | nil => simp [inquireAll, consulted, lookedAt]
  | cons p providers ih =>
    simp only [inquireAll, noted_bind, noted_inquire]
    cases hp : p.gives present home with
    | true => simp [inquiry, hp, consulted_cons_of_gives hp]
    | false =>
      have hnone : (inquiry present home p).resolved = none := by simp [inquiry, hp]
      rw [hnone, consulted_cons_of_not_gives hp, lookedAt_cons p (consulted present home providers)]
      simp [ih]

theorem findSome?_resolved_consulted (providers : List Provider) :
    ((consulted present home providers).map (inquiry present home)).findSome? Inquiry.resolved =
      (providers.find? (gives present home)).map (place home) := by
  induction providers with
  | nil => rfl
  | cons p providers ih =>
    cases hp : p.gives present home with
    | true => simp [consulted_cons_of_gives hp, inquiry, hp]
    | false =>
      rw [consulted_cons_of_not_gives hp, List.map_cons, List.findSome?_cons, ih]
      simp [inquiry, hp]

theorem filterMap_probed_inquiry (providers : List Provider) :
    (providers.map (inquiry present home)).filterMap Inquiry.probed = lookedAt home providers := by
  induction providers with
  | nil => rfl
  | cons p providers ih =>
    rw [List.map_cons, lookedAt_cons, ← ih]
    cases p <;> rfl

end inquiries

def search (present : String → Bool) (home : String) (providers : List Provider) :
    Lookup × List String :=
  noted [] (locate (noting present) (some home) providers)

section search
variable {present : String → Bool} {home : String}

theorem search_eq (providers : List Provider) :
    search present home providers =
      (⟨(consulted present home providers).map (inquiry present home)⟩,
        lookedAt home (consulted present home providers)) := by
  simp [search, locate, noted_inquireAll]

theorem found_search (providers : List Provider) :
    (search present home providers).1.found =
      (providers.find? (gives present home)).map (place home) := by
  rw [search_eq]
  exact findSome?_resolved_consulted providers

theorem asked_search (providers : List Provider) :
    (search present home providers).2 = lookedAt home (consulted present home providers) := by
  rw [search_eq]

theorem probed_search (providers : List Provider) :
    (search present home providers).1.probed = (search present home providers).2 := by
  rw [search_eq]
  exact filterMap_probed_inquiry _

end search

def places (home : String) (s : ServerSettings) : List String :=
  if s.candidates = [] then
    ["/usr/local/bin/npeg-lsp", "/usr/bin/npeg-lsp", Path.join home ".local/bin/npeg-lsp"]
  else s.candidates

section settings
variable {present : String → Bool} {home : String} {s : ServerSettings}

theorem search_ofSettings_of_path {path : String} (h : s.path = some path) :
    (search present home (ofSettings s)).1.found = some path ∧
      (search present home (ofSettings s)).2 = [] := by
  have hfirst : ∃ providers, ofSettings s = configured path :: providers := by
    rw [ofSettings, h]
    exact ⟨_, rfl⟩
  obtain ⟨providers, hfirst⟩ := hfirst
  have hgives : (configured path).gives present home = true := rfl
  rw [found_search, asked_search, hfirst, consulted_cons_of_gives hgives,
    List.find?_cons_of_pos hgives]
  exact ⟨rfl, rfl⟩

theorem map_place_standard :
    standard.map (place home) =
      ["/usr/local/bin/npeg-lsp", "/usr/bin/npeg-lsp", Path.join home ".local/bin/npeg-lsp"] := by
  have hlocal : Path.join "/usr/local/bin" serverBinary = "/usr/local/bin/npeg-lsp" := by decide
  have husr : Path.join "/usr/bin" serverBinary = "/usr/bin/npeg-lsp" := by decide
  have hhome : Path.join ".local/bin" serverBinary = ".local/bin/npeg-lsp" := by decide
  simp [standard, place, hlocal, husr, hhome]

theorem ofSettings_of_path_eq_none (home : String) (h : s.path = none) :
    (∀ p ∈ ofSettings s, p.isConfigured = false) ∧
      (ofSettings s).map (place home) = places home s := by
  rw [ofSettings, h, places]
  cases hc : s.candidates with
  | nil => exact ⟨by decide, map_place_standard⟩
  | cons path paths =>
    refine ⟨?_, ?_⟩
    · simp [isConfigured]
    · simp [place, Function.comp_def]

theorem find?_map_place {providers : List Provider}
    (h : ∀ p ∈ providers, p.isConfigured = false) :
    (providers.find? (gives present home)).map (place home) =
        (providers.map (place home)).find? present ∧
      lookedAt home (consulted present home providers) =
        (providers.map (place home)).takeWhile (!present ·) ++
          ((providers.map (place home)).find? present).toList := by
  induction providers with
  | nil => exact ⟨rfl, rfl⟩
  | cons p providers ih =>
    obtain ⟨hp, hrest⟩ := List.forall_mem_cons.1 h
    have hgives : p.gives present home = present (p.place home) := by simp [gives, hp]
    have hplace : lookedAt home [p] = [p.place home] := by simp [lookedAt, hp]
    cases hpresent : present (p.place home) with
    | true =>
      rw [hpresent] at hgives
      rw [consulted_cons_of_gives hgives, hplace]
      simp [hgives, hpresent]
    | false =>
      rw [hpresent] at hgives
      rw [consulted_cons_of_not_gives hgives, lookedAt_cons, hplace, (ih hrest).2]
      simp [hgives, hpresent, (ih hrest).1]

end settings

/-- With a probe that notes what it is asked: a search gives the path of the first provider that is
configured or has something at its place, and looks at the places of the others consulted, in
order. By settings, a configured path is taken without looking, and otherwise the candidates, or
the usual places if there are none, are looked at up to the first with something there. A session
looks for a server only where its configuration asks for one, and has the one found. -/
theorem search_consulted (present : String → Bool) (home : String) :
    (∀ providers, (search present home providers).1.found =
          (providers.find? (gives present home)).map (place home) ∧
        (search present home providers).2 = lookedAt home (consulted present home providers) ∧
        (search present home providers).1.probed = (search present home providers).2) ∧
      (∀ s : ServerSettings,
        (∀ path, s.path = some path →
          (search present home (ofSettings s)).1.found = some path ∧
            (search present home (ofSettings s)).2 = []) ∧
        (s.path = none →
          (search present home (ofSettings s)).1.found = (places home s).find? present ∧
            (search present home (ofSettings s)).2 =
              (places home s).takeWhile (!present ·) ++
                ((places home s).find? present).toList)) ∧
      ∀ c : Config,
        let l := (search present home (ofSettings c.server)).1
        noted [] (Session.start (noting present) (some home) c) =
          if c.server.enable then
            ((⟨c, l.found.map fun program => ⟨program, .stdio⟩⟩, some l),
              (search present home (ofSettings c.server)).2)
          else ((⟨c, none⟩, none), []) := by
  refine ⟨fun providers => ⟨found_search providers, asked_search providers, probed_search providers⟩,
    fun s => ⟨fun path h => search_ofSettings_of_path h, fun h => ?_⟩, fun c => ?_⟩
  · obtain ⟨hlook, hplaces⟩ := ofSettings_of_path_eq_none home h
    rw [found_search, asked_search, ← hplaces]
    exact find?_map_place hlook
  · cases h : c.server.enable with
    | true => simp [Session.start, h, search, Session.ofLookup]
    | false => simp [Session.start, h, Session.new]

end Provider

end PegKit
