import CodeAtlas.Proofs.Scan.Search

/-!
# Scanning a tree without links

In a tree without links every directory is searched by its own name, so that none is met twice.  A
search of such a tree adds the wanted files (`Scan.Wanted`) in the order of the names on the way to
them, and nothing else (`visit_collects`, by induction on the depth of the tree).  The files that a
scan of the tree returns are therefore known exactly (`ofRoot_exact`).
-/

namespace CodeAtlas

namespace Scan

variable {fs : FileSystem} {settings : ScanSettings} {root : Path} {below : List String}

/-! ### Wanted files -/

/-- From an entry, itself reached by the names `below`, the names `rest` lead to a file that is
looked for, and none of the directories in between is ignored. -/
def Wanted (settings : ScanSettings) (below : List String) (e : Entry) (rest : List String) :
    Prop :=
  ∃ name content, (below ++ rest).getLast? = some name ∧ e.at? rest = some (.file content) ∧
    settings.Selects name content ∧
    ∀ dir, dir <+: rest → dir ≠ [] → dir ≠ rest → ¬ settings.Ignored (below ++ dir)

/-- If an entry is a directory, it is not ignored. -/
def Admitted (settings : ScanSettings) (below : List String) (e : Entry) : Prop :=
  e.isDirectory = true → ¬ settings.Ignored below

theorem not_wanted_nil {cs : List (String × Entry)} :
    ¬ Wanted settings below (.directory cs) [] := by
  rintro ⟨name, content, -, hfile, -⟩
  cases hfile

theorem not_wanted_special {rest : List String} : ¬ Wanted settings below .special rest := by
  rintro ⟨name, content, -, hfile, -⟩
  cases rest with
  | nil => cases hfile
  | cons next rest => cases hfile

theorem wanted_file_iff {name : String} {content : ByteArray} {rest : List String} :
    Wanted settings (below ++ [name]) (.file content) rest
      ↔ rest = [] ∧ settings.Selects name content := by
  constructor
  · rintro ⟨last, found, hlast, hfile, hselects, -⟩
    cases rest with
    | nil =>
      obtain rfl : name = last := by simpa using hlast
      cases hfile
      exact ⟨rfl, hselects⟩
    | cons next rest => cases hfile
  · rintro ⟨rfl, hselects⟩
    refine ⟨name, content, by simp, rfl, hselects, ?_⟩
    intro dir hdir hne
    exact absurd (List.prefix_nil.mp hdir) hne

/-- A file in a directory is wanted if it is wanted in the child on the way to it. -/
theorem wanted_cons_iff {cs : List (String × Entry)} {name : String} {rest : List String} :
    Wanted settings below (.directory cs) (name :: rest) ↔
      ∃ e, Entry.find? name cs = some e ∧ Admitted settings (below ++ [name]) e ∧
        Wanted settings (below ++ [name]) e rest := by
  constructor
  · rintro ⟨last, content, hlast, hfile, hselects, hdirs⟩
    rw [Entry.at?_cons, Option.bind_eq_some_iff] at hfile
    obtain ⟨e, he, hfile⟩ := hfile
    refine ⟨e, he, ?_, last, content, by simpa using hlast, hfile, hselects, ?_⟩
    · intro hdirectory
      have hrest : [name] ≠ name :: rest := by
        intro hnil
        obtain rfl : rest = [] := by simpa using hnil.symm
        obtain rfl : e = .file content := Option.some.inj hfile
        cases hdirectory
      exact hdirs [name] (by simp) (List.cons_ne_nil _ _) hrest
    · intro dir hdir _ hrest
      have hignored := hdirs (name :: dir) (by simpa using hdir) (List.cons_ne_nil _ _)
        (by simpa using hrest)
      rwa [List.append_cons] at hignored
  · rintro ⟨e, he, hadmitted, last, content, hlast, hfile, hselects, hdirs⟩
    refine ⟨last, content, by simpa using hlast, ?_, hselects, ?_⟩
    · rw [Entry.at?_cons, Option.bind_eq_some_iff]
      exact ⟨e, he, hfile⟩
    · intro dir hdir hne hrest
      obtain ⟨dir, rfl⟩ : ∃ dir', dir = name :: dir' := by
        cases dir with
        | nil => exact absurd rfl hne
        | cons first dir => exact ⟨dir, by rw [(List.cons_prefix_cons.mp hdir).1]⟩
      have hdir' : dir <+: rest := (List.cons_prefix_cons.mp hdir).2
      have hrest' : dir ≠ rest := fun h => hrest (by rw [h])
      by_cases hnil : dir = []
      · subst hnil
        apply hadmitted
        -- Something lies behind the child, so it is a directory.
        cases rest with
        | nil => exact absurd rfl hrest'
        | cons next rest =>
          cases e with
          | directory kids => rfl
          | file content => cases hfile
          | link target => cases hfile
          | special => cases hfile
      · have hignored := hdirs dir hdir' hnil hrest'
        rwa [List.append_assoc, List.singleton_append] at hignored

/-- The wanted files of a directory are those of its children. -/
theorem wanted_directory_iff {cs : List (String × Entry)} (hnodup : (cs.map (·.1)).Nodup)
    {rest : List String} :
    Wanted settings below (.directory cs) rest ↔
      ∃ child ∈ FileSystem.inOrder cs, ∃ behind, rest = child.1 :: behind ∧
        Admitted settings (below ++ [child.1]) child.2 ∧
        Wanted settings (below ++ [child.1]) child.2 behind := by
  cases rest with
  | nil => simp [not_wanted_nil]
  | cons name rest =>
    rw [wanted_cons_iff]
    constructor
    · rintro ⟨e, he, hwanted⟩
      exact ⟨(name, e), FileSystem.mem_inOrder.mpr (Entry.mem_of_find? he), rest, rfl, hwanted⟩
    · rintro ⟨⟨name', e⟩, hchild, behind, hbehind, hwanted⟩
      cases hbehind
      exact ⟨e, Entry.find?_of_mem hnodup (FileSystem.mem_inOrder.mp hchild), hwanted⟩

/-! ### Collecting files -/

/-- From `s` to `t` the files behind `below` with a property are added in order.  The tree that is
searched for them lies at location `d`. -/
structure Collects (root : Path) (below : List String) (d : Location) (P : List String → Prop)
    (s t : Scan) : Prop where
  files : ∃ found : List (List String), found.Pairwise (· < ·) ∧ (∀ rest, rest ∈ found ↔ P rest) ∧
    t.files = s.files ++ found.map fun rest => pathBelow root (below ++ rest)
  warnings : t.warnings = s.warnings
  visited : ∀ v ∈ t.visited, v ∈ s.visited ∨ d <+: v

variable {d : Location} {s : Scan}

theorem Collects.none {P : List String → Prop} (h : ∀ rest, ¬ P rest) :
    Collects root below d P s s :=
  ⟨⟨[], List.Pairwise.nil, by simpa using h, by simp⟩, rfl, fun _ hv => Or.inl hv⟩

theorem Collects.congr {P Q : List String → Prop} {t : Scan} (h : Collects root below d P s t)
    (hPQ : ∀ rest, Q rest ↔ P rest) : Collects root below d Q s t := by
  obtain ⟨⟨found, hfound, hmem, hfiles⟩, hwarnings, hvisited⟩ := h
  have hmem' : ∀ rest, rest ∈ found ↔ Q rest := fun rest => (hmem rest).trans (hPQ rest).symm
  exact ⟨⟨found, hfound, hmem', hfiles⟩, hwarnings, hvisited⟩

/-- The directory that is searched belongs to the tree. -/
theorem Collects.of_reach {P : List String → Prop} {t : Scan}
    (h : Collects root below d P (s.reach d) t) : Collects root below d P s t := by
  refine ⟨h.files, h.warnings, fun v hv => ?_⟩
  rcases h.visited v hv with hv | hv
  · rcases List.mem_cons.mp hv with rfl | hv
    · exact Or.inr (List.prefix_refl _)
    · exact Or.inl hv
  · exact Or.inr hv

/-- Children with different names, in order, are searched one after the other. -/
theorem collects_foldl {visitChild : Scan → String × Entry → Scan}
    {P : String × Entry → List String → Prop} {kids : List (String × Entry)}
    (hkids : kids.Pairwise fun a b => a.1 < b.1)
    (hchild : ∀ child ∈ kids, ∀ s : Scan, (∀ v ∈ s.visited, ¬ d ++ [child.1] <+: v) →
      Collects root (below ++ [child.1]) (d ++ [child.1]) (P child) s (visitChild s child))
    (hnew : ∀ child ∈ kids, ∀ v ∈ s.visited, ¬ d ++ [child.1] <+: v) :
    Collects root below d (fun rest => ∃ child ∈ kids, ∃ behind, rest = child.1 :: behind ∧
      P child behind) s (kids.foldl visitChild s) := by
  induction kids generalizing s with
  | nil => exact Collects.none (by simp)
  | cons first kids ih =>
    rw [List.pairwise_cons] at hkids
    obtain ⟨⟨found, hfound, hmem, hfiles⟩, hwarnings, hvisited⟩ :=
      hchild first List.mem_cons_self s (hnew first List.mem_cons_self)
    -- What was searched in the first child lies in none of the others.
    have hnew' : ∀ child ∈ kids, ∀ v ∈ (visitChild s first).visited, ¬ d ++ [child.1] <+: v := by
      intro child hkid v hv
      rcases hvisited v hv with hv | ⟨behind, rfl⟩
      · exact hnew child (List.mem_cons_of_mem _ hkid) v hv
      · intro hbehind
        rw [List.append_assoc, List.prefix_append_right_inj, List.singleton_append,
          List.cons_prefix_cons] at hbehind
        exact (hkids.1 child hkid).ne hbehind.1.symm
    obtain ⟨⟨more, hmore, hmem', hfiles'⟩, hwarnings', hvisited'⟩ :=
      ih hkids.2 (fun child hkid => hchild child (List.mem_cons_of_mem _ hkid)) hnew'
    refine ⟨⟨found.map (first.1 :: ·) ++ more, ?_, ?_, ?_⟩, ?_, ?_⟩
    · -- The names of the children decide between files of different children.
      rw [List.pairwise_append, List.pairwise_map]
      refine ⟨hfound.imp fun h => List.cons_lt_cons_iff.mpr (Or.inr ⟨rfl, h⟩), hmore, ?_⟩
      intro a ha b hb
      obtain ⟨rest, -, rfl⟩ := List.mem_map.mp ha
      obtain ⟨child, hkid, behind, rfl, -⟩ := (hmem' b).mp hb
      exact List.cons_lt_cons_iff.mpr (Or.inl (hkids.1 child hkid))
    · intro rest
      rw [List.mem_append, List.exists_mem_cons_iff, hmem', List.mem_map]
      refine or_congr_left ?_
      constructor
      · rintro ⟨behind, hbehind, rfl⟩
        exact ⟨behind, rfl, (hmem behind).mp hbehind⟩
      · rintro ⟨behind, rfl, hbehind⟩
        exact ⟨behind, (hmem behind).mpr hbehind, rfl⟩
    · rw [List.foldl_cons, hfiles', hfiles, List.map_append, List.map_map, List.append_assoc]
      simp [Function.comp_def]
    · rw [List.foldl_cons, hwarnings', hwarnings]
    · intro v hv
      rw [List.foldl_cons] at hv
      rcases hvisited' v hv with hv | hv
      · exact (hvisited v hv).imp_right fun h => (List.prefix_append d _).trans h
      · exact Or.inr hv

/-! ### Searching the tree -/

/-- What searching one entry adds, if entering it adds the files wanted in it. -/
theorem visitEntry_collects {enter : List String → Scan → Scan} {child : String × Entry}
    (hnolink : child.2.isNoLink = true)
    (henter : child.2.isDirectory = true → Collects root (below ++ [child.1]) (d ++ [child.1])
      (Wanted settings (below ++ [child.1]) child.2) s (enter (below ++ [child.1]) s)) :
    Collects root (below ++ [child.1]) (d ++ [child.1])
      (fun rest => Admitted settings (below ++ [child.1]) child.2 ∧
        Wanted settings (below ++ [child.1]) child.2 rest)
      s (visitEntry fs .none settings root enter below s child) := by
  obtain ⟨name, e⟩ := child
  cases e with
  | link target => cases hnolink
  | special => exact Collects.none fun rest hrest => not_wanted_special hrest.2
  | file content =>
    have hadmitted : Admitted settings (below ++ [name]) (.file content) := by
      intro hdirectory
      cases hdirectory
    simp only [visitEntry, target]
    rcases addFile_cases .none settings (pathBelow root (below ++ [name])) name content.size s with
      ⟨err, hrefused, -⟩ | ⟨haccepts, hfile⟩ | ⟨haccepts, hfile⟩
    · cases hrefused
    · have hselects := ScanSettings.accepts_iff.mp haccepts
      rw [hfile]
      refine ⟨⟨[[]], List.pairwise_singleton _ _, ?_, by simp⟩, rfl, fun _ hv => Or.inl hv⟩
      intro rest
      simp [hadmitted, wanted_file_iff, hselects]
    · have hselects : ¬ settings.Selects name content := by
        rw [← ScanSettings.accepts_iff, haccepts]
        exact Bool.false_ne_true
      rw [hfile]
      refine Collects.none fun rest => ?_
      simp [wanted_file_iff, hselects]
  | directory kids =>
    by_cases hignores : settings.ignores (below ++ [name]) = true
    · simp only [visitEntry, target, hignores, if_true]
      refine Collects.none fun rest hrest => ?_
      exact hrest.1 rfl (ScanSettings.ignores_iff.mp hignores)
    · have hadmitted : Admitted settings (below ++ [name]) (.directory kids) :=
        fun _ h => hignores (ScanSettings.ignores_iff.mpr h)
      simp only [visitEntry, target, hignores, hadmitted, true_and]
      exact henter rfl

/-- Searching a directory without links below it adds the files wanted in it. -/
theorem visit_collects (hproper : fs.IsProper) {depth : Nat} {cs : List (String × Entry)}
    (hlocate : fs.locate (pathBelow root below) = .ok d)
    (hd : fs.entry? d = some (.directory cs))
    (hnolink : (Entry.directory cs).all Entry.isNoLink = true)
    (hdepth : (Entry.directory cs).directoryCount ≤ depth) (hnew : ∀ v ∈ s.visited, ¬ d <+: v) :
    Collects root below d (Wanted settings below (.directory cs)) s
      (visit fs .none settings root depth below s) := by
  induction depth generalizing below d cs s with
  | zero =>
    rw [Entry.directoryCount] at hdepth
    omega
  | succ depth ih =>
    obtain ⟨hnodup, hnames⟩ := hproper.names hd
    rw [Entry.directoryCount] at hdepth
    rw [Entry.all, Bool.and_eq_true] at hnolink
    rw [visit, search_of_listed hlocate (fun h => hnew d h (List.prefix_refl d))
      (list_eq_ok hlocate hd rfl)]
    refine Collects.congr (Collects.of_reach ?_) fun rest => wanted_directory_iff hnodup
    apply collects_foldl (FileSystem.pairwise_lt_inOrder hnodup)
    · rintro ⟨name, e⟩ hchild s hnew
      rw [FileSystem.mem_inOrder] at hchild
      have hall : e.all Entry.isNoLink = true := Entry.all_of_mem hnolink.2 hchild
      refine visitEntry_collects (Entry.all_self hall) fun hdirectory => ?_
      cases e with
      | file content => cases hdirectory
      | link target => cases hdirectory
      | special => cases hdirectory
      | directory kids =>
        have hentry : fs.entry? (d ++ [name]) = some (.directory kids) := by
          rw [FileSystem.entry?_concat hd, Entry.find?_of_mem hnodup hchild]
        have hcount : (Entry.directory kids).directoryCount ≤ depth :=
          Nat.le_trans (Entry.directoryCount_le_of_mem hchild) (Nat.le_of_succ_le_succ hdepth)
        refine ih ?_ hentry hall hcount hnew
        rw [pathBelow_concat]
        exact FileSystem.locate_below_of_entry hproper hlocate hentry rfl
    · -- The directory itself counts as searched now, but it lies in none of its children.
      intro child _ v hv hbehind
      rcases List.mem_cons.mp hv with rfl | hv
      · have hlength := hbehind.length_le
        simp at hlength
      · exact hnew v hv ((List.prefix_append d _).trans hbehind)

/-- A scan of a tree without links returns the files of the tree that are looked for and not below
an ignored directory, each of them once and in the order of the names in their paths.  Nothing is
left out with a warning. -/
theorem ofRoot_exact (settings : ScanSettings) (hproper : fs.IsProper) {start : Location}
    {tree : List (String × Entry)} (hroot : fs.locate root = .ok start)
    (htree : fs.entry? start = some (.directory tree))
    (hnolink : (Entry.directory tree).all Entry.isNoLink = true) :
    (ofRoot fs settings root).files.Pairwise (fun p q => p.parts < q.parts) ∧
    (ofRoot fs settings root).files.Nodup ∧ (ofRoot fs settings root).warnings = [] ∧
    ∀ p, p ∈ (ofRoot fs settings root).files ↔
      ∃ below name content, p = pathBelow root below ∧ below.getLast? = some name ∧
        fs.entry? (start ++ below) = some (.file content) ∧ settings.Selects name content ∧
        ∀ dir, dir <+: below → dir ≠ [] → dir ≠ below → ¬ settings.Ignored dir := by
  have hdepth : (Entry.directory tree).directoryCount ≤ fs.root.directoryCount + 1 :=
    Nat.le_succ_of_le (Entry.directoryCount_le_of_at? htree)
  have hlocate : fs.locate (pathBelow root []) = .ok start := by
    rwa [pathBelow_nil]
  have hcollects : Collects root [] start (Wanted settings [] (.directory tree)) Scan.start
      (ofRoot fs settings root) :=
    visit_collects hproper hlocate htree hnolink hdepth (by simp [Scan.start])
  obtain ⟨⟨found, hfound, hmem, hfiles⟩, hwarnings, -⟩ := hcollects
  have hsorted : (ofRoot fs settings root).files.Pairwise fun p q => p.parts < q.parts := by
    rw [hfiles, Scan.start, List.nil_append, List.pairwise_map]
    exact hfound.imp fun h => List.append_left_lt h
  refine ⟨hsorted, ?_, hwarnings, ?_⟩
  · refine hsorted.imp fun {p q} h hpq => ?_
    rw [hpq] at h
    exact List.lt_irrefl _ h
  · intro p
    rw [hfiles, Scan.start, List.nil_append, List.mem_map]
    constructor
    · rintro ⟨below, hbelow, rfl⟩
      obtain ⟨name, content, hname, hfile, hselects, hdirs⟩ := (hmem below).mp hbelow
      refine ⟨below, name, content, rfl, hname, ?_, hselects, hdirs⟩
      rw [FileSystem.entry?_append, htree]
      exact hfile
    · rintro ⟨below, name, content, rfl, hname, hfile, hselects, hdirs⟩
      rw [FileSystem.entry?_append, htree] at hfile
      exact ⟨below, (hmem below).mpr ⟨name, content, hname, hfile, hselects, hdirs⟩, rfl⟩

/-- A directory with files of one name below a directory that is ignored and below one that is not.
-/
def layeredDirectory : FileSystem :=
  ⟨.directory [("repo", .directory [
    ("dist", .directory [("a.js", .file ⟨#[]⟩)]), ("src", .directory [("a.js", .file ⟨#[]⟩)])])],
    []⟩

theorem ofRoot_exact_layered :
    layeredDirectory.IsProper ∧ layeredDirectory.locate ⟨1, ["repo"]⟩ = .ok ["repo"] ∧
      let files := (ofRoot layeredDirectory .standard ⟨1, ["repo"]⟩).files
      files.Pairwise (fun p q => p.parts < q.parts) ∧ ⟨1, ["repo", "src", "a.js"]⟩ ∈ files ∧
        ⟨1, ["repo", "dist", "a.js"]⟩ ∉ files := by
  have hproper : layeredDirectory.IsProper := by decide +kernel
  have hroot : layeredDirectory.locate ⟨1, ["repo"]⟩ = .ok ["repo"] := by decide +kernel
  obtain ⟨hsorted, -, -, hmem⟩ := ofRoot_exact .standard hproper hroot rfl (by decide +kernel)
  refine ⟨hproper, hroot, hsorted, ?_, ?_⟩
  · have hselects : ScanSettings.standard.Selects "a.js" ⟨#[]⟩ :=
      ScanSettings.accepts_iff.mp (by decide +kernel)
    refine (hmem _).mpr ⟨["src", "a.js"], "a.js", ⟨#[]⟩, rfl, rfl, rfl, hselects, ?_⟩
    have hdirs : ∀ dir ∈ ["src", "a.js"].inits, dir ≠ [] → dir ≠ ["src", "a.js"] →
        ScanSettings.standard.ignores dir = false := by decide +kernel
    intro dir hdir hne hfile
    rw [← ScanSettings.ignores_iff, hdirs dir ((List.mem_inits _ _).mpr hdir) hne hfile]
    exact Bool.false_ne_true
  · intro hdist
    obtain ⟨below, name, content, hpath, -, -, -, hdirs⟩ := (hmem _).mp hdist
    obtain rfl : ["dist", "a.js"] = below := by simpa [pathBelow] using hpath
    exact hdirs ["dist"] (by simp) (by simp) (by simp)
      (ScanSettings.ignores_iff.mp (by decide +kernel))

end Scan

end CodeAtlas
