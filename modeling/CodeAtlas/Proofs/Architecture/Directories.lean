import CodeAtlas.Proofs.Architecture.Links
import CodeAtlas.Proofs.Path.Components

/-!
# Components and directories

A component is meant to be a directory, and it is one but for a collision of names: the files at the
root are in the component `root`, and so are those of a directory of this name
(`nameOf_eq_nameOf_iff`).  Everything else follows from it.  Two files are in one component if they
lie in one directory or in two that collide, and an import that leads from one of them to the other
is seen in the relationships exactly if they are not (`ofFiles_groups_by_directory`).  An import
between directories that collide is lost (`collidingDirectories_merge`).
-/

namespace CodeAtlas

namespace Component

open PathText

/-- One of the directories is the root, the other has the name of the component of the root. -/
def Collide (directory directory' : String) : Prop :=
  (directory = "" ∧ directory' = rootName) ∨ (directory = rootName ∧ directory' = "")

/-- The name of a component tells directories apart that do not collide. -/
theorem nameOf_eq_nameOf_iff {p q : String} :
    nameOf p = nameOf q ↔ dirname p = dirname q ∨ Collide (dirname p) (dirname q) := by
  have hroot : rootName ≠ "" := by decide
  rw [nameOf, nameOf, Collide]
  -- The name is the directory itself, unless the directory is the root.
  by_cases hp : dirname p = "" <;> by_cases hq : dirname q = ""
  · simp [hp, hq]
  · simp [hp, hq, Ne.symm hq, Ne.symm hroot, eq_comm]
  · simp [hp, hq, hroot]
  · simp [hp, hq]

/-- Directories that are given by names are told apart by the texts of their paths. -/
theorem dirname_eq_dirname_iff {p q : String} {d d' : List String} (hp : LiesIn p d)
    (hq : LiesIn q d') : dirname p = dirname q ↔ d = d' := by
  rw [dirname_of_liesIn hp, dirname_of_liesIn hq, ofComponents_inj hp.isPlain hq.isPlain]

/-- It is the root and the one directory with the name of its component that collide. -/
theorem collide_dirname_iff {p q : String} {d d' : List String} (hp : LiesIn p d)
    (hq : LiesIn q d') :
    Collide (dirname p) (dirname q) ↔
      (d = [] ∧ d' = [rootName]) ∨ (d = [rootName] ∧ d' = []) := by
  have hroot : ∀ name ∈ [rootName], IsPlain name := by
    simp [IsPlain, rootName]
  have hempty : ∀ {names : List String}, (∀ name ∈ names, IsPlain name) →
      (ofComponents names = "" ↔ names = []) := by
    intro names h
    rw [← ofComponents_nil, ofComponents_inj h (by simp)]
  have hnamed : ∀ {names : List String}, (∀ name ∈ names, IsPlain name) →
      (ofComponents names = rootName ↔ names = [rootName]) := by
    intro names h
    have heq := ofComponents_inj h hroot
    rwa [ofComponents_singleton] at heq
  rw [Collide, dirname_of_liesIn hp, dirname_of_liesIn hq, hempty hp.isPlain, hempty hq.isPlain,
    hnamed hp.isPlain, hnamed hq.isPlain]

end Component

namespace Architecture

open PathText Component

/-- Two files are in one component. -/
def Together (a : Architecture) (p q : String) : Prop :=
  ∃ c ∈ a.components, p ∈ c.files ∧ q ∈ c.files

/-- There is a relationship for imports from the component of the one file to that of the other. -/
def ShowsImport (a : Architecture) (p q : String) : Prop :=
  ∃ c ∈ a.components, ∃ d ∈ a.components, p ∈ c.files ∧ q ∈ d.files ∧
    ∃ r ∈ a.relationships, occurrenceOf r = ⟨c.name, d.name, .importing⟩

section Grouping

variable {detectors : List Detector} {files : List FileRecord} {f g : FileRecord}

theorem together_iff_nameOf (hf : f ∈ files) (hg : g ∈ files) :
    Together (ofFiles detectors files) f.path g.path ↔ nameOf f.path = nameOf g.path := by
  constructor
  · rintro ⟨c, hc, hfc, hgc⟩
    rw [(mem_files_iff hc hf).mp hfc, (mem_files_iff hc hg).mp hgc]
  · intro hname
    obtain ⟨c, hc, hcf⟩ := exists_component_of_mem detectors hf
    exact ⟨c, hc, (mem_files_iff hc hf).mpr hcf.symm,
      (mem_files_iff hc hg).mpr (hname.symm.trans hcf.symm)⟩

/-- An import is shown unless it stays within a component. -/
theorem showsImport_iff_nameOf (hf : f ∈ files) (hg : g ∈ files) {i : ImportRecord}
    (hi : i ∈ f.imports)
    (hleads : (Resolver.ofPaths (files.map (·.path))).resolve? i.module (some f.path)
      = some g.path) :
    ShowsImport (ofFiles detectors files) f.path g.path ↔ nameOf f.path ≠ nameOf g.path := by
  constructor
  · rintro ⟨c, hc, d, hd, hfc, hgd, hlink⟩
    rw [(mem_files_iff hc hf).mp hfc, (mem_files_iff hd hg).mp hgd]
    exact (exists_mem_relationships_iff.mp hlink).1
  · intro hne
    obtain ⟨c, hc, hcf⟩ := exists_component_of_mem detectors hf
    obtain ⟨d, hd, hdg⟩ := exists_component_of_mem detectors hg
    refine ⟨c, hc, d, hd, (mem_files_iff hc hf).mpr hcf.symm,
      (mem_files_iff hd hg).mpr hdg.symm, ?_⟩
    rw [hcf, hdg]
    exact exists_mem_relationships_iff.mpr
      ⟨hne, f, hf, .importing i hi ⟨rfl, g.path, hleads, rfl⟩⟩

end Grouping

/-- Two files are in one component if they lie in the same directory, or one at the root and the
other in the directory that has the name of its component.  An import that leads from the one to the
other is shown by a relationship exactly if they are not.  For paths made of names the same
directory has the same names on the way to it. -/
theorem ofFiles_groups_by_directory (detectors : List Detector) (files : List FileRecord)
    {f g : FileRecord} (hf : f ∈ files) (hg : g ∈ files) :
    let a := ofFiles detectors files
    let d := dirname f.path
    let d' := dirname g.path
    (Together a f.path g.path ↔ d = d' ∨ Collide d d') ∧
    (∀ i ∈ f.imports,
      (Resolver.ofPaths (files.map (·.path))).resolve? i.module (some f.path) = some g.path →
      (ShowsImport a f.path g.path ↔ ¬ (d = d' ∨ Collide d d'))) ∧
    ∀ ns ns', LiesIn f.path ns → LiesIn g.path ns' →
      (d = d' ↔ ns = ns') ∧
      (Collide d d' ↔ (ns = [] ∧ ns' = [rootName]) ∨ (ns = [rootName] ∧ ns' = [])) := by
  intro a d d'
  refine ⟨?_, fun i hi hleads => ?_, fun ns ns' hns hns' => ?_⟩
  · rw [together_iff_nameOf hf hg, nameOf_eq_nameOf_iff]
  · rw [showsImport_iff_nameOf hf hg hi hleads, Ne, nameOf_eq_nameOf_iff]
  · exact ⟨dirname_eq_dirname_iff hns hns', collide_dirname_iff hns hns'⟩

/-- A file that imports another one: both lie in directories named `root`, but only the second of
them is a directory at the root. -/
def namesakes : List FileRecord :=
  [{ (default : FileRecord) with
      path := "lib/root/b.js", imports := [⟨"../../root/a", ["a"], 1, false⟩] },
    { (default : FileRecord) with path := "root/a.js" }]

theorem resolve?_namesakes :
    (Resolver.ofPaths (namesakes.map (·.path))).resolve? "../../root/a" (some "lib/root/b.js")
      = some "root/a.js" := by
  have hpaths : Resolver.ofPaths (namesakes.map (·.path)) = ⟨["lib/root/b.js", "root/a.js"]⟩ :=
    Resolver.ofPaths_of_pairwise (by decide +kernel)
  rw [hpaths]
  decide +kernel

/-- Namesakes are two components, and the import that leads from one to the other is shown. -/
theorem ofFiles_groups_by_directory_namesakes :
    namesakes[0] ∈ namesakes ∧ namesakes[1] ∈ namesakes ∧
    ¬ Together (ofFiles Detector.standard namesakes) "lib/root/b.js" "root/a.js" ∧
    ShowsImport (ofFiles Detector.standard namesakes) "lib/root/b.js" "root/a.js" := by
  have hfirst : namesakes[0] ∈ namesakes := List.getElem_mem _
  have hsecond : namesakes[1] ∈ namesakes := List.getElem_mem _
  obtain ⟨htogether, hshows, hnames⟩ :=
    ofFiles_groups_by_directory Detector.standard namesakes hfirst hsecond
  have hb : LiesIn "lib/root/b.js" ["lib", "root"] := ⟨"b.js", by decide +kernel, by decide +kernel⟩
  have ha : LiesIn "root/a.js" ["root"] := ⟨"a.js", by decide +kernel, by decide +kernel⟩
  obtain ⟨hsame, hcollide⟩ := hnames _ _ hb ha
  have hapart : ¬ (dirname "lib/root/b.js" = dirname "root/a.js" ∨
      Collide (dirname "lib/root/b.js") (dirname "root/a.js")) := by
    rw [not_or]
    exact ⟨mt hsame.mp (by decide), mt hcollide.mp (by decide)⟩
  refine ⟨hfirst, hsecond, mt htogether.mp hapart, ?_⟩
  exact (hshows _ (List.mem_singleton_self _) resolve?_namesakes).mpr hapart

/-- A file at the root that imports a file of the directory `root`. -/
def collidingDirectories : List FileRecord :=
  [{ (default : FileRecord) with
      path := "index.js", imports := [⟨"./root/a", ["a"], 1, false⟩] },
    { (default : FileRecord) with path := "root/a.js" }]

/-- Directories that collide are one component, and the import from one to the other is lost. -/
theorem collidingDirectories_merge :
    let a := ofFiles Detector.standard collidingDirectories
    LiesIn "index.js" [] ∧ LiesIn "root/a.js" ["root"] ∧
    (Resolver.ofPaths (collidingDirectories.map (·.path))).resolve? "./root/a" (some "index.js")
      = some "root/a.js" ∧
    Together a "index.js" "root/a.js" ∧ a.relationships = [] := by
  have hpaths : Resolver.ofPaths (collidingDirectories.map (·.path))
      = ⟨["index.js", "root/a.js"]⟩ :=
    Resolver.ofPaths_of_pairwise (by decide +kernel)
  have hindex : collidingDirectories[0] ∈ collidingDirectories := List.getElem_mem _
  have hother : collidingDirectories[1] ∈ collidingDirectories := List.getElem_mem _
  have hname : ∀ f ∈ collidingDirectories, nameOf f.path = rootName := by decide +kernel
  refine ⟨⟨"index.js", by decide +kernel, by decide +kernel⟩,
    ⟨"a.js", by decide +kernel, by decide +kernel⟩, ?_, ?_, ?_⟩
  · rw [hpaths]
    decide +kernel
  · exact (together_iff_nameOf hindex hother).mpr ((hname _ hindex).trans (hname _ hother).symm)
  · -- A relationship would join two components, but there is one.
    refine List.eq_nil_iff_forall_not_mem.mpr fun r hr => ?_
    obtain ⟨hsource, htarget, hne⟩ := endpoints_of_mem_relationships hr
    rw [map_name_components, mem_componentNames] at hsource htarget
    obtain ⟨f, hf, hsource⟩ := hsource
    obtain ⟨g, hg, htarget⟩ := htarget
    rw [← hsource, ← htarget, hname f (mem_sortFiles.mp hf), hname g (mem_sortFiles.mp hg)] at hne
    exact hne rfl

end Architecture

end CodeAtlas
