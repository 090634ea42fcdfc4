import CodeAtlas.Proofs.Scan.Search

/-!
# Where the files of a scan lie

A scan follows links, and it tests the patterns on the names by which it came to a directory.  By
these names every file that it returns lies below the root and in no ignored directory.  Where the
file really lies is another matter: a link may lead out of the root, into an ignored directory, or
past the beginning of a pattern with a slash (`strayingDirectory_strays`).  What does hold of the
real path is that nothing but links can lead astray (`ofRoot_confined`).

`Scan.Meets` says by which names the scan comes to which locations.  All files of a scan were met
(`visit_sound`, by induction on the depth), and what a scan meets is where the last link led to, or
the root, extended by the names since then (`Meets.induction_links`).
-/

namespace CodeAtlas

namespace Scan

/-- By the names `below` a scan comes from the root to a location: from directory to directory
through entries that are there, and into no directory that is ignored. -/
inductive Meets (fs : FileSystem) (settings : ScanSettings) (root : Path) :
    List String → Location → Prop
  | root {start : Location} (hroot : fs.locate root = .ok start) : Meets fs settings root [] start
  | step {above : List String} {d l : Location} {name : String} {e : Entry}
      (habove : Meets fs settings root above d) (he : fs.entry? (d ++ [name]) = some e)
      (hlocate : fs.locate (pathBelow root (above ++ [name])) = .ok l)
      (hclear : fs.HasDirectory l → ¬ settings.Ignored (above ++ [name])) :
      Meets fs settings root (above ++ [name]) l

/-- By the names `via` one comes to a link, which leads to a location. -/
def LinksTo (fs : FileSystem) (root : Path) (via : List String) (l : Location) : Prop :=
  ∃ above d name target, via = above ++ [name] ∧ fs.locate (pathBelow root above) = .ok d ∧
    fs.entry? (d ++ [name]) = some (.link target) ∧ fs.locate (pathBelow root via) = .ok l

/-- A location lies below `start`, and none of the directories between them is ignored, nor is the
location itself if there is a directory. -/
def Inside (fs : FileSystem) (settings : ScanSettings) (start l : Location) : Prop :=
  ∃ names, l = start ++ names ∧ ∀ dir, dir <+: names → dir ≠ [] →
    fs.HasDirectory (start ++ dir) → ¬ settings.Ignored dir

/-- All files of a scan were met, and they are looked for. -/
def Sound (fs : FileSystem) (settings : ScanSettings) (root : Path) (s : Scan) : Prop :=
  ∀ p ∈ s.files, ∃ below name l content, p = pathBelow root below ∧ below.getLast? = some name ∧
    Meets fs settings root below l ∧ fs.entry? l = some (.file content) ∧
    settings.Selects name content

variable {fs : FileSystem} {settings : ScanSettings} {root : Path} {below above : List String}
  {start d l : Location} {name : String} {s : Scan}

/-! ### What a scan meets -/

theorem Meets.locate_eq (h : Meets fs settings root below l) :
    fs.locate (pathBelow root below) = .ok l := by
  cases h with
  | root hroot => rwa [pathBelow_nil]
  | step _ _ hlocate _ => exact hlocate

theorem Meets.exists_root (h : Meets fs settings root below l) :
    ∃ start, fs.locate root = .ok start := by
  induction h with
  | root hroot => exact ⟨_, hroot⟩
  | step _ _ _ _ ih => exact ih

/-- No directory by which the scan came is ignored. -/
theorem Meets.not_ignored (h : Meets fs settings root below l) {dir : List String}
    (hdir : dir <+: below) (hne : dir ≠ []) (hend : dir = below → fs.HasDirectory l) :
    ¬ settings.Ignored dir := by
  induction h with
  | root hroot => exact absurd (List.prefix_nil.mp hdir) hne
  | step habove he hlocate hclear ih =>
    rcases List.prefix_concat_iff.mp hdir with rfl | hdir
    · exact hclear (hend rfl)
    · refine ih hdir fun _ => ?_
      obtain ⟨cs, hd, -⟩ := FileSystem.exists_directory_of_entry?_concat he
      exact ⟨cs, hd⟩

/-- An entry that is no link leads to itself. -/
theorem linksTo_or_eq (hproper : fs.IsProper) (hd : fs.locate (pathBelow root above) = .ok d)
    {e : Entry} (he : fs.entry? (d ++ [name]) = some e)
    (hl : fs.locate (pathBelow root (above ++ [name])) = .ok l) :
    LinksTo fs root (above ++ [name]) l ∨ l = d ++ [name] := by
  have hself : e.isNoLink = true → l = d ++ [name] := by
    intro hnolink
    rw [pathBelow_concat, FileSystem.locate_below_of_entry hproper hd he hnolink] at hl
    exact (Except.ok.inj hl).symm
  cases e with
  | file content => exact Or.inr (hself rfl)
  | directory cs => exact Or.inr (hself rfl)
  | special => exact Or.inr (hself rfl)
  | link target => exact Or.inl ⟨above, d, name, target, rfl, hd, he, hl⟩

/-- What holds of the root and of the ends of links, and is kept when a directory is entered by its
own name, holds of all that is met. -/
theorem Meets.induction_links (hproper : fs.IsProper) {P : List String → Location → Prop}
    (h : Meets fs settings root below l) (hroot : fs.locate root = .ok start)
    (hstart : P [] start)
    (hlink : ∀ via t, via <+: below → LinksTo fs root via t → P via t)
    (hstep : ∀ above d name, P above d → fs.HasDirectory d →
      (fs.HasDirectory (d ++ [name]) → ¬ settings.Ignored (above ++ [name])) →
      P (above ++ [name]) (d ++ [name])) :
    P below l := by
  induction h with
  | root hroot' =>
    obtain rfl := Except.ok.inj (hroot.symm.trans hroot')
    exact hstart
  | step habove he hlocate hclear ih =>
    -- The last entry is a link, of which `P` holds anyway, or it is where its name says.
    rcases linksTo_or_eq hproper habove.locate_eq he hlocate with hlinks | rfl
    · exact hlink _ _ (List.prefix_refl _) hlinks
    · obtain ⟨cs, hd, -⟩ := FileSystem.exists_directory_of_entry?_concat he
      refine hstep _ _ _ (ih fun via t hvia => ?_) ⟨cs, hd⟩ hclear
      exact hlink via t (hvia.trans (List.prefix_append _ _))

/-! ### A scan returns what it met -/

/-- A search that is handed the names of directories that were met keeps to what was met. -/
def KeepsSound (fs : FileSystem) (settings : ScanSettings) (root : Path)
    (enter : List String → Scan → Scan) : Prop :=
  ∀ below s, (∀ d, fs.locate (pathBelow root below) = .ok d → fs.HasDirectory d →
    Meets fs settings root below d) → Sound fs settings root s →
    Sound fs settings root (enter below s)

variable {refusals : Refusals} {enter : List String → Scan → Scan}

/-- A file that was met can be added. -/
theorem Sound.addFile (hs : Sound fs settings root s) {content : ByteArray}
    (hmeets : Meets fs settings root (below ++ [name]) l)
    (hl : fs.entry? l = some (.file content)) :
    Sound fs settings root
      (s.addFile refusals settings (pathBelow root (below ++ [name])) name content.size) := by
  rcases addFile_cases refusals settings (pathBelow root (below ++ [name])) name content.size s
    with ⟨err, -, hfile⟩ | ⟨haccepts, hfile⟩ | ⟨-, hfile⟩
  · rw [hfile]
    exact hs
  · rw [hfile]
    intro p hp
    rcases List.mem_append.mp hp with hp | hp
    · exact hs p hp
    · exact ⟨below ++ [name], name, l, content, List.mem_singleton.mp hp, by simp, hmeets, hl,
        ScanSettings.accepts_iff.mp haccepts⟩
  · rwa [hfile]

theorem visitEntry_sound (hproper : fs.IsProper) (henter : KeepsSound fs settings root enter)
    (hbelow : Meets fs settings root below d) {e : Entry}
    (he : fs.entry? (d ++ [name]) = some e) (hs : Sound fs settings root s) :
    Sound fs settings root (visitEntry fs refusals settings root enter below s (name, e)) := by
  simp only [visitEntry]
  split
  case h_1 cs hdirectory =>
    -- This is the only place where patterns are tested, and it is the names that are tested.
    by_cases hignores : settings.ignores (below ++ [name]) = true
    · rwa [if_pos hignores]
    · rw [if_neg hignores]
      refine henter _ s (fun l hl _ => .step hbelow he hl fun _ => ?_) hs
      exact fun hignored => hignores (ScanSettings.ignores_iff.mpr hignored)
  case h_2 content hfile =>
    obtain ⟨l, hlocate, hl⟩ := exists_of_target_eq_some hproper hbelow.locate_eq he hfile
    refine hs.addFile (.step hbelow he hlocate ?_) hl
    rintro ⟨cs, hcs⟩
    rw [hl] at hcs
    cases hcs
  case h_3 => exact hs
  case h_4 => exact hs

theorem KeepsSound.search (hproper : fs.IsProper) (henter : KeepsSound fs settings root enter) :
    KeepsSound fs settings root (search fs refusals settings root enter) := by
  intro below s hbelow hs
  cases hlocate : fs.locate (pathBelow root below) with
  | error err =>
    rw [Scan.search, hlocate]
    exact hs
  | ok d =>
    by_cases hvisited : d ∈ s.visited
    · rwa [search_of_visited hlocate hvisited]
    · cases hlist : refusals.list fs (pathBelow root below) with
      | error err =>
        rw [search_of_unlisted hlocate hvisited hlist]
        exact hs
      | ok children =>
        obtain ⟨cs, hd, rfl⟩ := exists_directory_of_list_eq_ok hlocate hlist
        have hmeets := hbelow d hlocate ⟨cs, hd⟩
        rw [search_of_listed hlocate hvisited hlist]
        -- The entries are searched one after the other.
        refine List.foldlRecOn (motive := Sound fs settings root) _ _ ?_ ?_
        · exact hs
        · rintro t ht ⟨name, e⟩ hchild
          refine visitEntry_sound hproper henter hmeets ?_ ht
          rw [FileSystem.entry?_concat hd]
          exact Entry.find?_of_mem (hproper.names hd).1 (FileSystem.mem_inOrder.mp hchild)

theorem visit_sound (hproper : fs.IsProper) (refusals : Refusals) (settings : ScanSettings)
    (root : Path) (depth : Nat) :
    KeepsSound fs settings root (visit fs refusals settings root depth) := by
  induction depth with
  | zero => exact fun _ _ _ hs => hs
  | succ depth ih => exact ih.search hproper

theorem sound_ofRoot (hproper : fs.IsProper) (refusals : Refusals) (settings : ScanSettings)
    (root : Path) : Sound fs settings root (ofRoot fs settings root refusals) := by
  refine visit_sound hproper refusals settings root _ [] Scan.start (fun d hd _ => ?_) ?_
  · rw [pathBelow_nil] at hd
    exact .root hd
  · intro p hp
    cases hp

/-! ### Real paths -/

theorem inside_self (fs : FileSystem) (settings : ScanSettings) (start : Location) :
    Inside fs settings start start :=
  ⟨[], (List.append_nil start).symm, fun _ hdir hne => absurd (List.prefix_nil.mp hdir) hne⟩

theorem not_inside_of_ignored {names dir : List String} (hignored : settings.Ignored dir)
    (hdir : dir <+: names) (hne : dir ≠ []) (hdirectory : fs.HasDirectory (start ++ dir)) :
    ¬ Inside fs settings start (start ++ names) := by
  rintro ⟨names', hnames, hclear⟩
  obtain rfl := List.append_cancel_left hnames
  exact hclear dir hdir hne hdirectory hignored

/-- If patterns have no slashes, a directory that is entered by its own name is ignored exactly if
the name is. -/
theorem Inside.concat (hplain : settings.HasPlainPatterns) (h : Inside fs settings start d)
    (hd : fs.HasDirectory d)
    (hclear : fs.HasDirectory (d ++ [name]) → ¬ settings.Ignored (above ++ [name])) :
    Inside fs settings start (d ++ [name]) := by
  obtain ⟨names, rfl, hnames⟩ := h
  refine ⟨names ++ [name], List.append_assoc _ _ _, fun dir hdir hne hdirectory => ?_⟩
  rcases List.prefix_concat_iff.mp hdir with rfl | hdir
  · rw [← List.append_assoc] at hdirectory
    rw [ScanSettings.ignored_iff_hidden hplain hne]
    rintro ⟨hidden, hmem, hhides⟩
    rcases List.mem_append.mp hmem with hmem | hmem
    · have hnonempty : names ≠ [] := List.ne_nil_of_mem hmem
      refine hnames names (List.prefix_refl _) hnonempty hd ?_
      exact (ScanSettings.ignored_iff_hidden hplain hnonempty).mpr ⟨hidden, hmem, hhides⟩
    · rw [List.mem_singleton.mp hmem] at hhides
      refine hclear hdirectory ?_
      exact (ScanSettings.ignored_iff_hidden hplain (by simp)).mpr ⟨name, by simp, hhides⟩
  · exact hnames dir hdir hne hdirectory

/-- Every file that a scan returns has the path of the root, extended by names, and none of the
directories on the way by these names is ignored.  Its real path lies below that of the root if the
links on the way lead there.  If there are no links on the way, the real path of the file is that of
the root, extended by the same names.  And if no pattern has a slash, no directory on the way along
the real path is ignored, provided that each link on the way leads to a place of which that is
true. -/
theorem ofRoot_confined (settings : ScanSettings) (refusals : Refusals) (hproper : fs.IsProper)
    {root p : Path} (hp : p ∈ (ofRoot fs settings root refusals).files) :
    ∃ start below name l content, fs.locate root = .ok start ∧ p = pathBelow root below ∧
      below.getLast? = some name ∧ fs.locate p = .ok l ∧ fs.entry? l = some (.file content) ∧
      settings.Selects name content ∧
      (∀ dir, dir <+: below → dir ≠ [] → dir ≠ below → ¬ settings.Ignored dir) ∧
      ((∀ via t, via <+: below → LinksTo fs root via t → start <+: t) → start <+: l) ∧
      ((∀ via t, via <+: below → ¬ LinksTo fs root via t) →
        l = start ++ below ∧ Inside fs settings start l) ∧
      (settings.HasPlainPatterns →
        (∀ via t, via <+: below → LinksTo fs root via t → Inside fs settings start t) →
        Inside fs settings start l) := by
  obtain ⟨below, name, l, content, rfl, hname, hmeets, hl, hselects⟩ :=
    sound_ofRoot hproper refusals settings root p hp
  obtain ⟨start, hroot⟩ := hmeets.exists_root
  refine ⟨start, below, name, l, content, hroot, rfl, hname, hmeets.locate_eq, hl, hselects,
    ?_, ?_, ?_, ?_⟩
  · intro dir hdir hne hbefore
    exact hmeets.not_ignored hdir hne fun hend => absurd hend hbefore
  · intro hlinks
    refine hmeets.induction_links hproper hroot (P := fun _ t => start <+: t)
      (List.prefix_refl _) hlinks ?_
    intro above d name hd _ _
    exact hd.trans (List.prefix_append _ _)
  · intro hnolinks
    have heq : l = start ++ below := by
      refine hmeets.induction_links hproper hroot (P := fun below t => t = start ++ below)
        (List.append_nil _).symm ?_ ?_
      · intro via t hvia hlinks
        exact absurd hlinks (hnolinks via t hvia)
      · rintro above d name rfl _ _
        exact List.append_assoc _ _ _
    refine ⟨heq, below, heq, fun dir hdir hne hdirectory => ?_⟩
    refine hmeets.not_ignored hdir hne fun hend => ?_
    rwa [heq, ← hend]
  · intro hplain hlinks
    refine hmeets.induction_links hproper hroot (P := fun _ t => Inside fs settings start t)
      (inside_self fs settings start) hlinks ?_
    intro above d name hinside hd hclear
    exact hinside.concat hplain hd hclear

/-- The entries of a directory with three links.  One leads to a file outside of it, and one into a
directory that is ignored.  The third is another name for a directory, so that the path of what is
ignored there reads differently. -/
def strayingTree : List (String × Entry) :=
  [("a.js", .link "../outside.js"), ("alias", .link "core"),
    ("core", .directory [("gen", .directory [("c.js", .file ⟨#[]⟩)])]),
    ("lib", .link "node_modules/x"),
    ("node_modules", .directory [("x", .directory [("b.js", .file ⟨#[]⟩)])])]

/-- A file and a directory with links. -/
def strayingDirectory : FileSystem :=
  ⟨.directory [("outside.js", .file ⟨#[]⟩), ("repo", .directory strayingTree)], []⟩

/-- Packages are left out, and one directory that is given by its path. -/
def strayingSettings : ScanSettings :=
  { ScanSettings.standard with ignorePatterns := ["node_modules", "core/gen"] }

theorem isProper_strayingDirectory : strayingDirectory.IsProper := by decide +kernel

theorem locate_strayingDirectory : strayingDirectory.locate ⟨1, ["repo"]⟩ = .ok ["repo"] := by
  decide +kernel

theorem files_strayingDirectory :
    (ofRoot strayingDirectory strayingSettings ⟨1, ["repo"]⟩).files
      = [⟨1, ["repo", "a.js"]⟩, ⟨1, ["repo", "alias", "gen", "c.js"]⟩,
        ⟨1, ["repo", "lib", "b.js"]⟩] := by
  have horder : FileSystem.inOrder strayingTree = strayingTree :=
    List.mergeSort_of_pairwise (by decide +kernel)
  rw [ofRoot, visit, search_of_listed locate_strayingDirectory List.not_mem_nil
    (list_eq_ok locate_strayingDirectory rfl rfl), horder]
  decide +kernel

/-- What is found through the third link lies below the root, for that link leads there. -/
theorem ofRoot_confined_alias :
    strayingDirectory.IsProper ∧
      ⟨1, ["repo", "alias", "gen", "c.js"]⟩
        ∈ (ofRoot strayingDirectory strayingSettings ⟨1, ["repo"]⟩).files ∧
      ∃ l, strayingDirectory.locate ⟨1, ["repo", "alias", "gen", "c.js"]⟩ = .ok l ∧
        ["repo"] <+: l ∧ ¬ strayingSettings.Ignored ["alias", "gen"] := by
  have hmem : ⟨1, ["repo", "alias", "gen", "c.js"]⟩
      ∈ (ofRoot strayingDirectory strayingSettings ⟨1, ["repo"]⟩).files := by
    rw [files_strayingDirectory]
    exact List.mem_cons_of_mem _ List.mem_cons_self
  obtain ⟨start, below, name, l, content, hroot, hpath, -, hl, -, -, hclear, hlinks, -, -⟩ :=
    ofRoot_confined strayingSettings .none isProper_strayingDirectory hmem
  obtain rfl : ["repo"] = start := Except.ok.inj (locate_strayingDirectory.symm.trans hroot)
  obtain rfl : ["alias", "gen", "c.js"] = below := by simpa [pathBelow] using hpath
  refine ⟨isProper_strayingDirectory, hmem, l, hl, hlinks ?_,
    hclear _ (by simp) (by simp) (by simp)⟩
  rintro via t hvia ⟨-, -, -, -, -, -, -, ht⟩
  have hends : ∀ via ∈ ["alias", "gen", "c.js"].inits,
      (strayingDirectory.locate (pathBelow ⟨1, ["repo"]⟩ via)).toOption.all
        (["repo"].isPrefixOf ·) = true := by decide +kernel
  have hend := hends via ((List.mem_inits _ _).mpr hvia)
  rw [ht] at hend
  exact List.isPrefixOf_iff_prefix.mp hend

/-- None of the files that are found lies inside: the first lies outside of the root, and the real
paths of the others lead through directories that are ignored. -/
theorem strayingDirectory_strays :
    strayingDirectory.IsProper ∧
      strayingDirectory.locate ⟨1, ["repo"]⟩ = .ok ["repo"] ∧
      (ofRoot strayingDirectory strayingSettings ⟨1, ["repo"]⟩).files
        = [⟨1, ["repo", "a.js"]⟩, ⟨1, ["repo", "alias", "gen", "c.js"]⟩,
          ⟨1, ["repo", "lib", "b.js"]⟩] ∧
      ∀ p ∈ (ofRoot strayingDirectory strayingSettings ⟨1, ["repo"]⟩).files,
        ∃ l, strayingDirectory.locate p = .ok l ∧
          ¬ Inside strayingDirectory strayingSettings ["repo"] l := by
  refine ⟨isProper_strayingDirectory, locate_strayingDirectory, files_strayingDirectory, ?_⟩
  rw [files_strayingDirectory, List.forall_mem_cons, List.forall_mem_cons,
    List.forall_mem_singleton]
  refine ⟨⟨["outside.js"], by decide +kernel, ?_⟩,
    ⟨["repo", "core", "gen", "c.js"], by decide +kernel, ?_⟩,
    ⟨["repo", "node_modules", "x", "b.js"], by decide +kernel, ?_⟩⟩
  · rintro ⟨names, hnames, -⟩
    simp at hnames
  · have hignored : strayingSettings.Ignored ["core", "gen"] :=
      ScanSettings.ignores_iff.mp (by decide +kernel)
    have hdir : ["core", "gen"] <+: ["core", "gen", "c.js"] := List.prefix_append _ _
    exact not_inside_of_ignored hignored hdir (by simp) ⟨_, rfl⟩
  · have hignored : strayingSettings.Ignored ["node_modules"] :=
      ScanSettings.ignores_iff.mp (by decide +kernel)
    have hdir : ["node_modules"] <+: ["node_modules", "x", "b.js"] := List.prefix_append _ _
    exact not_inside_of_ignored hignored hdir (by simp) ⟨_, rfl⟩

end Scan

end CodeAtlas
