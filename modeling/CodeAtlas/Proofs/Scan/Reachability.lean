import CodeAtlas.Proofs.Scan.Search
import Mathlib.Data.List.Nodup
import Mathlib.Logic.Function.Iterate

/-!
# Scanning along links

With links a directory can be reached in several ways, and by ways of any length.  A scan searches
it once, from where it met it first, so that it comes to an end; the way by which it came may lead
over so many links that an entry behind one more cannot be examined any longer, and whatever way it
is, the operating system may refuse it for its length, for want of a permission or otherwise.  A
warning says so (`Scan.Refused`), and with these exceptions the search is complete
(`ofRoot_complete`).

The proof carries an invariant through the search (`Scan.Consistent`).  Its parameter `todo` holds
the entries of directories that are being searched, but were not looked at so far; every other entry
of a directory that counts as searched has been settled.  At the end nothing is left to do, and what
can be reached has been searched, by induction on the chain of entries that leads there.
-/

namespace CodeAtlas

/-- The entry that a path names: the directory in which it lies, and its name. -/
def FileSystem.entryOf (fs : FileSystem) (p : Path) : Except FileError Location × String :=
  (fs.locate ⟨p.slashes, p.parts.dropLast⟩, p.name)

namespace Scan

/-- The scan came to a directory by a way on which the directory cannot be listed, or the entry of
the name cannot be examined, and there is a warning that says so. -/
def Refused (fs : FileSystem) (refusals : Refusals) (root : Path) (s : Scan) (d : Location)
    (name : String) : Prop :=
  ∃ below err, fs.locate (pathBelow root below) = .ok d ∧
    (refusals.list fs (pathBelow root below) = .error err ∧
        .unlisted (pathBelow root below) err ∈ s.warnings ∨
      refusals.lookUp fs (pathBelow root (below ++ [name])) = .error err ∧
        .unexamined (pathBelow root (below ++ [name])) err ∈ s.warnings)

/-- A directory is reached from another through a chain of entries, be they directories or links,
with names that contain no pattern.  Entries that are barred are not used. -/
inductive Reaches (fs : FileSystem) (settings : ScanSettings) (barred : Location → String → Prop)
    (start : Location) : Location → Prop
  | start : Reaches fs settings barred start start
  | step {d l : Location} {name : String} (hd : Reaches fs settings barred start d)
      (hleads : fs.Leads d name l) (hl : fs.HasDirectory l) (hname : ¬ settings.Hides name)
      (hfree : ¬ barred d name) : Reaches fs settings barred start l

/-- An entry of a directory has been dealt with. -/
def Settled (fs : FileSystem) (refusals : Refusals) (settings : ScanSettings) (root : Path)
    (s : Scan) (d : Location) (name : String) : Prop :=
  Refused fs refusals root s d name ∨ ∀ l, fs.Leads d name l →
    (fs.HasDirectory l → settings.Hides name ∨ l ∈ s.visited) ∧
    ∀ content, fs.entry? l = some (.file content) → settings.Selects name content →
      (.ok d, name) ∈ s.files.map fs.entryOf

/-- Directories were searched once each, and except for the entries in `todo`, which are entries of
such directories, theirs were dealt with. -/
structure Consistent (fs : FileSystem) (refusals : Refusals) (settings : ScanSettings)
    (root : Path) (todo : Location → String → Prop) (s : Scan) : Prop where
  visited_nodup : s.visited.Nodup
  visited_directory : ∀ d ∈ s.visited, fs.HasDirectory d
  todo_visited : ∀ d name, todo d name → d ∈ s.visited
  files_nodup : (s.files.map fs.entryOf).Nodup
  files_done : ∀ x ∈ s.files.map fs.entryOf, ∃ d ∈ s.visited, ∃ name, x = (.ok d, name) ∧
    ¬ todo d name
  settled : ∀ d ∈ s.visited, ∀ name, ¬ todo d name → Settled fs refusals settings root s d name

variable {fs : FileSystem} {refusals : Refusals} {settings : ScanSettings} {root : Path}
  {below : List String} {s t : Scan} {d : Location} {name : String}
  {todo : Location → String → Prop}

theorem entryOf_pathBelow_concat (hlocate : fs.locate (pathBelow root below) = .ok d) :
    fs.entryOf (pathBelow root (below ++ [name])) = (.ok d, name) := by
  rw [pathBelow_concat, FileSystem.entryOf, List.dropLast_concat]
  simp [hlocate, Path.name]

/-! ### Keeping the invariant -/

/-- What has been dealt with stays so. -/
theorem Settled.mono (h : Settled fs refusals settings root s d name)
    (hvisited : s.visited ⊆ t.visited) (hfiles : s.files ⊆ t.files)
    (hwarnings : s.warnings ⊆ t.warnings) : Settled fs refusals settings root t d name := by
  rcases h with ⟨below, err, hlocate, hrefused⟩ | h
  · refine Or.inl ⟨below, err, hlocate, ?_⟩
    exact hrefused.imp (fun h => ⟨h.1, hwarnings h.2⟩) fun h => ⟨h.1, hwarnings h.2⟩
  · refine Or.inr fun l hl => ⟨fun hdirectory => ?_, fun content hfile hselects => ?_⟩
    · exact ((h l hl).1 hdirectory).imp_right fun hmem => hvisited hmem
    · exact List.map_subset _ hfiles ((h l hl).2 content hfile hselects)

/-- There is more to do: the entries of the given names in a directory. -/
def pending (todo : Location → String → Prop) (d : Location) (names : List String) :
    Location → String → Prop :=
  fun e name => todo e name ∨ (e = d ∧ name ∈ names)

theorem pending_nil (todo : Location → String → Prop) (d : Location) :
    pending todo d [] = todo := by
  funext e name
  simp [pending]

theorem pending_of_cons {rest : List String} {e : Location} {other : String}
    (h : pending todo d rest e other) : pending todo d (name :: rest) e other :=
  h.imp_right fun h => ⟨h.1, List.mem_cons_of_mem _ h.2⟩

theorem consistent_start (fs : FileSystem) (refusals : Refusals) (settings : ScanSettings)
    (root : Path) : Consistent fs refusals settings root (fun _ _ => False) start :=
  ⟨List.nodup_nil, by simp [start], fun _ _ h => h.elim, List.nodup_nil, by simp [start],
    by simp [start]⟩

theorem Consistent.warn (h : Consistent fs refusals settings root todo s) (w : ScanWarning) :
    Consistent fs refusals settings root todo (s.warn w) :=
  { h with
    settled := fun d hd name hdone => (h.settled d hd name hdone).mono (List.Subset.refl _)
      (List.Subset.refl _) (List.subset_append_left _ _) }

/-- A directory counts as searched, and there are its entries to do. -/
theorem Consistent.reach (h : Consistent fs refusals settings root todo s) (hnew : d ∉ s.visited)
    {cs : List (String × Entry)} (hd : fs.entry? d = some (.directory cs)) :
    Consistent fs refusals settings root (pending todo d ((FileSystem.inOrder cs).map (·.1)))
      (s.reach d) where
  visited_nodup := List.nodup_cons.mpr ⟨hnew, h.visited_nodup⟩
  visited_directory e he := by
    rcases List.mem_cons.mp he with rfl | he
    · exact ⟨cs, hd⟩
    · exact h.visited_directory e he
  todo_visited e name htodo := by
    rcases htodo with htodo | ⟨rfl, -⟩
    · exact List.mem_cons_of_mem _ (h.todo_visited e name htodo)
    · exact List.mem_cons_self
  files_nodup := h.files_nodup
  files_done x hx := by
    obtain ⟨e, he, name, rfl, hdone⟩ := h.files_done x hx
    refine ⟨e, List.mem_cons_of_mem _ he, name, rfl, ?_⟩
    rintro (htodo | ⟨rfl, -⟩)
    · exact hdone htodo
    · exact hnew he
  settled e he name hdone := by
    rcases List.mem_cons.mp he with rfl | he
    · -- A name that is not to do is none of the directory's.
      refine Or.inr fun l hl => absurd (Or.inr ⟨rfl, ?_⟩) hdone
      obtain ⟨⟨child, hchild⟩, -⟩ := hl
      rw [FileSystem.entry?_concat hd] at hchild
      have hmem := FileSystem.mem_inOrder.mpr (Entry.mem_of_find? hchild)
      exact List.mem_map_of_mem (f := (·.1)) hmem
    · exact (h.settled e he name fun htodo => hdone (Or.inl htodo)).mono
        (List.subset_cons_self _ _) (List.Subset.refl _) (List.Subset.refl _)

/-- When the first entry to do has been dealt with, so have all entries but the rest of those. -/
theorem settled_of_cons {rest : List String}
    (h : ∀ e ∈ s.visited, ∀ other, ¬ pending todo d (name :: rest) e other →
      Settled fs refusals settings root s e other)
    (hsettled : Settled fs refusals settings root s d name) {e : Location} (he : e ∈ s.visited)
    {other : String} (hdone : ¬ pending todo d rest e other) :
    Settled fs refusals settings root s e other := by
  by_cases hsame : e = d ∧ other = name
  · obtain ⟨rfl, rfl⟩ := hsame
    exact hsettled
  · refine h e he other ?_
    rintro (htodo | ⟨rfl, hmem⟩)
    · exact hdone (Or.inl htodo)
    · rcases List.mem_cons.mp hmem with rfl | hmem
      · exact hsame ⟨rfl, rfl⟩
      · exact hdone (Or.inr ⟨rfl, hmem⟩)

/-- An entry that has been dealt with is not to do any longer. -/
theorem Consistent.settle {rest : List String}
    (h : Consistent fs refusals settings root (pending todo d (name :: rest)) s)
    (hsettled : Settled fs refusals settings root s d name) :
    Consistent fs refusals settings root (pending todo d rest) s :=
  { h with
    todo_visited := fun e other htodo => h.todo_visited e other (pending_of_cons htodo)
    files_done := fun x hx => by
      obtain ⟨e, he, other, rfl, hdone⟩ := h.files_done x hx
      exact ⟨e, he, other, rfl, fun htodo => hdone (pending_of_cons htodo)⟩
    settled := fun _ he _ hdone => settled_of_cons h.settled hsettled he hdone }

/-- A file is found that was to do. -/
theorem Consistent.add {rest : List String} {p : Path}
    (h : Consistent fs refusals settings root (pending todo d (name :: rest)) s)
    (hp : fs.entryOf p = (.ok d, name)) (hdone : ¬ pending todo d rest d name)
    (hsettled : Settled fs refusals settings root { s with files := s.files ++ [p] } d name) :
    Consistent fs refusals settings root (pending todo d rest)
      { s with files := s.files ++ [p] } := by
  have hpending : pending todo d (name :: rest) d name := Or.inr ⟨rfl, List.mem_cons_self⟩
  have hfresh : (.ok d, name) ∉ s.files.map fs.entryOf := by
    intro hmem
    obtain ⟨e, -, other, hsame, hother⟩ := h.files_done _ hmem
    obtain ⟨hd, rfl⟩ := Prod.mk.inj hsame
    obtain rfl := Except.ok.inj hd
    exact hother hpending
  have hentries : (s.files ++ [p]).map fs.entryOf = s.files.map fs.entryOf ++ [(.ok d, name)] := by
    rw [List.map_append, List.map_singleton, hp]
  refine ⟨h.visited_nodup, h.visited_directory, ?_, ?_, ?_, ?_⟩
  · exact fun e other htodo => h.todo_visited e other (pending_of_cons htodo)
  · rw [hentries, ← List.concat_eq_append]
    exact List.Nodup.concat hfresh h.files_nodup
  · intro x hx
    rw [hentries] at hx
    rcases List.mem_append.mp hx with hx | hx
    · obtain ⟨e, he, other, rfl, hother⟩ := h.files_done x hx
      exact ⟨e, he, other, rfl, fun htodo => hother (pending_of_cons htodo)⟩
    · obtain rfl := List.mem_singleton.mp hx
      exact ⟨d, h.todo_visited d name hpending, name, rfl, hdone⟩
  · intro e he other hother
    refine settled_of_cons (fun e he other hother => ?_) hsettled he hother
    exact (h.settled e he other hother).mono (List.Subset.refl _) (List.subset_append_left _ _)
      (List.Subset.refl _)

/-- All entries that are left to do in a directory may be dealt with at once. -/
theorem Consistent.settle_all {names : List String}
    (h : Consistent fs refusals settings root (pending todo d names) s)
    (hsettled : ∀ name ∈ names, Settled fs refusals settings root s d name) :
    Consistent fs refusals settings root todo s := by
  induction names with
  | nil => rwa [pending_nil] at h
  | cons name rest ih =>
    rw [List.forall_mem_cons] at hsettled
    exact ih (h.settle hsettled.1) hsettled.2

/-! ### Searching -/

/-- From `s` two searches come to the same state `t`.  The invariant holds there, and no directory
has been forgotten. -/
structure Advances (fs : FileSystem) (refusals : Refusals) (settings : ScanSettings) (root : Path)
    (todo : Location → String → Prop) (s t t' : Scan) : Prop where
  same : t' = t
  consistent : Consistent fs refusals settings root todo t
  visited : s.visited ⊆ t.visited

/-- As long as fewer than `n` directories were not searched, `enter` searches the directory that it
is handed, and `other` does the same. -/
def Explores (fs : FileSystem) (refusals : Refusals) (settings : ScanSettings) (root : Path)
    (n : Nat) (enter other : List String → Scan → Scan) : Prop :=
  ∀ (todo : Location → String → Prop) (below : List String) (s : Scan) (d : Location),
    fs.locate (pathBelow root below) = .ok d → fs.HasDirectory d →
    (∀ name ∈ below, ¬ settings.Hides name) → Consistent fs refusals settings root todo s →
    fs.root.directoryCount < s.visited.length + n →
    Advances fs refusals settings root todo s (enter below s) (other below s) ∧
      d ∈ (enter below s).visited

variable {enter other : List String → Scan → Scan} {n : Nat} {cs : List (String × Entry)}
  {l : Location} {e : Entry} {rest : List String}

/-- From a directory to which the scan came, an entry leads where its path leads. -/
theorem eq_of_leads (hproper : fs.IsProper) (hlocate : fs.locate (pathBelow root below) = .ok d)
    (hend : fs.locate (pathBelow root (below ++ [name])) = .ok l) {l' : Location}
    (hl : fs.Leads d name l') : l' = l := by
  have hcases := FileSystem.locate_of_leads hproper hlocate hl
  rw [← pathBelow_concat, hend] at hcases
  rcases hcases with h | h
  · exact (Except.ok.inj h).symm
  · cases h

/-- An entry whose path leads nowhere leads nowhere itself. -/
theorem entry?_of_leads (hproper : fs.IsProper)
    (hlocate : fs.locate (pathBelow root below) = .ok d)
    (hend : fs.lookUp (pathBelow root (below ++ [name])) = .error .notFound)
    (hl : fs.Leads d name l) : fs.entry? l = none := by
  have hcases := FileSystem.locate_of_leads hproper hlocate hl
  rw [← pathBelow_concat] at hcases
  unfold FileSystem.lookUp at hend
  rcases hcases with h | h
  · rw [h] at hend
    cases hentry : fs.entry? l with
    | none => rfl
    | some e => simp [hentry] at hend
  · rw [h] at hend
    cases hend

/-- What is known of the end of an entry's path is known of the end of the entry. -/
theorem settled_of_end (hproper : fs.IsProper) (hlocate : fs.locate (pathBelow root below) = .ok d)
    (hend : fs.locate (pathBelow root (below ++ [name])) = .ok l)
    (hdirectory : fs.HasDirectory l → settings.Hides name ∨ l ∈ s.visited)
    (hfile : ∀ content, fs.entry? l = some (.file content) → settings.Selects name content →
      (.ok d, name) ∈ s.files.map fs.entryOf) :
    Settled fs refusals settings root s d name := by
  refine Or.inr fun l' hl' => ?_
  obtain rfl := eq_of_leads hproper hlocate hend hl'
  exact ⟨hdirectory, hfile⟩

/-- An entry at whose end there is neither a directory nor a file needs nothing. -/
theorem settled_of_neither (h : ∀ l, fs.Leads d name l → ¬ fs.HasDirectory l ∧
    ∀ content, fs.entry? l ≠ some (.file content)) :
    Settled fs refusals settings root s d name := by
  refine Or.inr fun l hl => ?_
  obtain ⟨hnodirectory, hnofile⟩ := h l hl
  exact ⟨fun hdirectory => absurd hdirectory hnodirectory,
    fun content hfile => absurd hfile (hnofile content)⟩

/-- An entry that cannot be examined is dealt with by a warning. -/
theorem settled_of_unexamined {err : FileError}
    (hlocate : fs.locate (pathBelow root below) = .ok d)
    (hlookUp : refusals.lookUp fs (pathBelow root (below ++ [name])) = .error err) :
    Settled fs refusals settings root
      (s.warn (.unexamined (pathBelow root (below ++ [name])) err)) d name :=
  Or.inl ⟨below, err, hlocate,
    Or.inr ⟨hlookUp, List.mem_append_right _ (List.mem_singleton_self _)⟩⟩

/-- The entries of a directory that cannot be listed are dealt with by a warning. -/
theorem settled_of_unlisted {err : FileError}
    (hlocate : fs.locate (pathBelow root below) = .ok d)
    (hlist : refusals.list fs (pathBelow root below) = .error err) (name : String) :
    Settled fs refusals settings root (s.warn (.unlisted (pathBelow root below) err)) d name :=
  Or.inl ⟨below, err, hlocate,
    Or.inl ⟨hlist, List.mem_append_right _ (List.mem_singleton_self _)⟩⟩

/-- A file is dealt with by adding it if it is looked for. -/
theorem addFile_advances (hproper : fs.IsProper)
    (hlocate : fs.locate (pathBelow root below) = .ok d)
    (hend : fs.locate (pathBelow root (below ++ [name])) = .ok l) {content : ByteArray}
    (hl : fs.entry? l = some (.file content)) (hdone : ¬ pending todo d rest d name)
    (hs : Consistent fs refusals settings root (pending todo d (name :: rest)) s) :
    Advances fs refusals settings root (pending todo d rest) s
      (s.addFile refusals settings (pathBelow root (below ++ [name])) name content.size)
      (s.addFile refusals settings (pathBelow root (below ++ [name])) name content.size) := by
  have hnodirectory : ¬ fs.HasDirectory l := by
    simp [FileSystem.HasDirectory, hl]
  rcases addFile_cases refusals settings (pathBelow root (below ++ [name])) name content.size s
    with ⟨err, hrefused, hfile⟩ | ⟨-, hfile⟩ | ⟨haccepts, hfile⟩
  · rw [hfile]
    refine ⟨rfl, (hs.warn _).settle (settled_of_unexamined hlocate ?_), List.Subset.refl _⟩
    rw [Refusals.lookUp, hrefused]
  · rw [hfile]
    refine ⟨rfl, hs.add (entryOf_pathBelow_concat hlocate) hdone ?_, List.Subset.refl _⟩
    refine settled_of_end hproper hlocate hend (fun h => absurd h hnodirectory) ?_
    intro _ _ _
    rw [List.map_append, List.map_singleton, entryOf_pathBelow_concat hlocate]
    exact List.mem_append_right _ (List.mem_singleton_self _)
  · rw [hfile]
    refine ⟨rfl, hs.settle ?_, List.Subset.refl _⟩
    refine settled_of_end hproper hlocate hend (fun h => absurd h hnodirectory) ?_
    intro content' hcontent' hselects
    rw [hl] at hcontent'
    cases hcontent'
    rw [← ScanSettings.accepts_iff, haccepts] at hselects
    cases hselects

/-- A directory is dealt with by entering it unless it is ignored. -/
theorem enter_advances (hproper : fs.IsProper) (hplain : settings.HasPlainPatterns)
    (henter : Explores fs refusals settings root n enter other)
    (hlocate : fs.locate (pathBelow root below) = .ok d)
    (hclear : ∀ name ∈ below, ¬ settings.Hides name)
    (hend : fs.locate (pathBelow root (below ++ [name])) = .ok l)
    (hl : fs.entry? l = some (.directory cs))
    (hs : Consistent fs refusals settings root (pending todo d (name :: rest)) s)
    (hcount : fs.root.directoryCount < s.visited.length + n) :
    Advances fs refusals settings root (pending todo d rest) s
      (if settings.ignores (below ++ [name]) then s else enter (below ++ [name]) s)
      (if settings.ignores (below ++ [name]) then s else other (below ++ [name]) s) := by
  have hnofile : ∀ content, fs.entry? l ≠ some (.file content) := by
    simp [hl]
  have hignored : settings.ignores (below ++ [name]) = true ↔
      ∃ hidden ∈ below ++ [name], settings.Hides hidden := by
    rw [ScanSettings.ignores_iff]
    exact ScanSettings.ignored_iff_hidden hplain (by simp)
  by_cases hignores : settings.ignores (below ++ [name]) = true
  · simp only [hignores, if_true]
    refine ⟨rfl, hs.settle ?_, List.Subset.refl _⟩
    refine settled_of_end hproper hlocate hend (fun _ => Or.inl ?_)
      fun content hfile => absurd hfile (hnofile content)
    obtain ⟨hidden, hmem, hhides⟩ := hignored.mp hignores
    rcases List.mem_append.mp hmem with hmem | hmem
    · exact absurd hhides (hclear hidden hmem)
    · rwa [List.mem_singleton.mp hmem] at hhides
  · have hclear' : ∀ hidden ∈ below ++ [name], ¬ settings.Hides hidden :=
      fun hidden hmem hhides => hignores (hignored.mpr ⟨hidden, hmem, hhides⟩)
    obtain ⟨⟨hsame, ht, hsubset⟩, hmem⟩ := henter _ _ s l hend ⟨cs, hl⟩ hclear' hs hcount
    simp only [hignores]
    refine ⟨hsame, ht.settle ?_, hsubset⟩
    exact settled_of_end hproper hlocate hend (fun _ => Or.inr hmem)
      fun content hfile => absurd hfile (hnofile content)

/-- Searching one entry deals with it. -/
theorem visitEntry_advances (hproper : fs.IsProper) (hplain : settings.HasPlainPatterns)
    (henter : Explores fs refusals settings root n enter other)
    (hlocate : fs.locate (pathBelow root below) = .ok d)
    (hclear : ∀ name ∈ below, ¬ settings.Hides name) (he : fs.entry? (d ++ [name]) = some e)
    (hdone : ¬ pending todo d rest d name)
    (hs : Consistent fs refusals settings root (pending todo d (name :: rest)) s)
    (hcount : fs.root.directoryCount < s.visited.length + n) :
    Advances fs refusals settings root (pending todo d rest) s
      (visitEntry fs refusals settings root enter below s (name, e))
      (visitEntry fs refusals settings root other below s (name, e)) := by
  cases htarget : target fs refusals (pathBelow root (below ++ [name])) e with
  | error err =>
    have hlookUp := lookUp_of_target_eq_error htarget
    simp only [visitEntry, htarget]
    exact ⟨rfl, (hs.warn _).settle (settled_of_unexamined hlocate hlookUp), List.Subset.refl _⟩
  | ok found? =>
    cases found? with
    | none =>
      have hmissing := lookUp_of_target_eq_none htarget
      simp only [visitEntry, htarget]
      refine ⟨rfl, hs.settle (settled_of_neither fun l hl => ?_), List.Subset.refl _⟩
      have hnone := entry?_of_leads hproper hlocate hmissing hl
      simp [FileSystem.HasDirectory, hnone]
    | some found =>
      obtain ⟨l, hend, hl⟩ := exists_of_target_eq_some hproper hlocate he htarget
      have hneither : (∀ cs, found ≠ .directory cs) → (∀ content, found ≠ .file content) →
          Settled fs refusals settings root s d name := by
        intro hnodirectory hnofile
        refine settled_of_neither fun l' hl' => ?_
        obtain rfl := eq_of_leads hproper hlocate hend hl'
        simp [FileSystem.HasDirectory, hl, hnodirectory, hnofile]
      simp only [visitEntry, htarget]
      cases found with
      | directory cs =>
        exact enter_advances hproper hplain henter hlocate hclear hend hl hs hcount
      | file content => exact addFile_advances hproper hlocate hend hl hdone hs
      | link target =>
        exact ⟨rfl, hs.settle (hneither nofun nofun), List.Subset.refl _⟩
      | special => exact ⟨rfl, hs.settle (hneither nofun nofun), List.Subset.refl _⟩

/-- Searching the entries of a directory one after the other deals with all of them. -/
theorem foldl_advances (hproper : fs.IsProper) (hplain : settings.HasPlainPatterns)
    (henter : Explores fs refusals settings root n enter other)
    (hlocate : fs.locate (pathBelow root below) = .ok d)
    (hclear : ∀ name ∈ below, ¬ settings.Hides name) (htodo : ∀ name, ¬ todo d name)
    {kids : List (String × Entry)}
    (hkids : ∀ child ∈ kids, fs.entry? (d ++ [child.1]) = some child.2)
    (hnodup : (kids.map (·.1)).Nodup)
    (hs : Consistent fs refusals settings root (pending todo d (kids.map (·.1))) s)
    (hcount : fs.root.directoryCount < s.visited.length + n) :
    Advances fs refusals settings root todo s
      (kids.foldl (visitEntry fs refusals settings root enter below) s)
      (kids.foldl (visitEntry fs refusals settings root other below) s) := by
  induction kids generalizing s with
  | nil =>
    rw [List.map_nil, pending_nil] at hs
    exact ⟨rfl, hs, List.Subset.refl _⟩
  | cons child kids ih =>
    obtain ⟨name, e⟩ := child
    rw [List.map_cons, List.nodup_cons] at hnodup
    have hdone : ¬ pending todo d (kids.map (·.1)) d name := by
      rintro (h | ⟨-, h⟩)
      · exact htodo name h
      · exact hnodup.1 h
    have hentry : fs.entry? (d ++ [name]) = some e := hkids (name, e) List.mem_cons_self
    obtain ⟨hsame, ht, hsubset⟩ := visitEntry_advances hproper hplain henter hlocate hclear hentry
      hdone hs hcount
    -- Directories found on the way leave fewer for the rest.
    have hlength : s.visited.length
        ≤ (visitEntry fs refusals settings root enter below s (name, e)).visited.length :=
      (hs.visited_nodup.subperm hsubset).length_le
    obtain ⟨hsame', ht', hsubset'⟩ := ih (fun child h => hkids child (List.mem_cons_of_mem _ h))
      hnodup.2 ht (by omega)
    rw [List.foldl_cons, List.foldl_cons, hsame]
    exact ⟨hsame', ht', List.Subset.trans hsubset hsubset'⟩

/-- A directory more can be searched if the others can be. -/
theorem Explores.search (hproper : fs.IsProper) (hplain : settings.HasPlainPatterns)
    (henter : Explores fs refusals settings root n enter other) :
    Explores fs refusals settings root (n + 1) (search fs refusals settings root enter)
      (search fs refusals settings root other) := by
  rintro todo below s d hlocate hdirectory hclear hs hcount
  by_cases hvisited : d ∈ s.visited
  · rw [search_of_visited hlocate hvisited, search_of_visited hlocate hvisited]
    exact ⟨⟨rfl, hs, List.Subset.refl _⟩, hvisited⟩
  · cases hlist : refusals.list fs (pathBelow root below) with
    | error err =>
      rw [search_of_unlisted hlocate hvisited hlist, search_of_unlisted hlocate hvisited hlist]
      obtain ⟨cs, hd⟩ := hdirectory
      refine ⟨⟨rfl, ?_, List.subset_cons_self _ _⟩, List.mem_cons_self⟩
      exact ((hs.reach hvisited hd).warn _).settle_all fun name _ =>
        settled_of_unlisted hlocate hlist name
    | ok children =>
      obtain ⟨cs, hd, rfl⟩ := exists_directory_of_list_eq_ok hlocate hlist
      rw [search_of_listed hlocate hvisited hlist, search_of_listed hlocate hvisited hlist]
      obtain ⟨hnames, -⟩ := hproper.names hd
      have hkids : ∀ child ∈ FileSystem.inOrder cs, fs.entry? (d ++ [child.1]) = some child.2 := by
        intro child hchild
        rw [FileSystem.entry?_concat hd]
        exact Entry.find?_of_mem hnames (FileSystem.mem_inOrder.mp hchild)
      have hnodup : ((FileSystem.inOrder cs).map (·.1)).Nodup :=
        List.pairwise_map.mpr ((FileSystem.pairwise_lt_inOrder hnames).imp fun h => h.ne)
      have hcount' : fs.root.directoryCount < (s.reach d).visited.length + n := by
        rw [reach, List.length_cons]
        omega
      obtain ⟨hsame, ht, hsubset⟩ := foldl_advances hproper hplain henter hlocate hclear
        (fun name htodo => hvisited (hs.todo_visited d name htodo)) hkids hnodup
        (hs.reach hvisited hd) hcount'
      exact ⟨⟨hsame, ht, List.Subset.trans (List.subset_cons_self _ _) hsubset⟩,
        hsubset List.mem_cons_self⟩

/-- When nothing is left to do, what can be reached was searched. -/
theorem Reaches.visited {start d : Location}
    (h : Reaches fs settings (Refused fs refusals root s) start d)
    (hs : Consistent fs refusals settings root (fun _ _ => False) s) (hstart : start ∈ s.visited) :
    d ∈ s.visited := by
  induction h with
  | start => exact hstart
  | step _ hleads hl hname hfree ih =>
    rcases hs.settled _ ih _ id with hrefused | hsettled
    · exact absurd hrefused hfree
    · exact ((hsettled _ hleads).1 hl).resolve_left hname

end Scan

end CodeAtlas
