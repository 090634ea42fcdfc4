import CodeAtlas.Insight.Basic
import CodeAtlas.Proofs.Architecture.Graph
import CodeAtlas.Proofs.Architecture.Links

/-!
# Nothing dangles

What the result of an analysis refers to is there.  The names in relationships and among dependents
are those of components, and dependents repeat what the relationships say; the paths in components,
patterns and insights are those of files of the repository (`references_ofFiles`).
-/

namespace CodeAtlas

variable {files : List FileRecord}

namespace Detector

theorem pathsOf_subset (test : FileRecord → Bool) (files : List FileRecord) :
    pathsOf test files ⊆ files.map (·.path) :=
  List.map_subset _ List.filter_sublist.subset

/-- A practice is found in files of the repository. -/
theorem files_subset_of_detect {detector : Detector} {pattern : Pattern}
    (h : detector.detect files = some pattern) : pattern.files ⊆ files.map (·.path) := by
  cases detector with
  | hooks =>
    rw [detect] at h
    split_ifs at h
    obtain rfl := Option.some.inj h
    exact pathsOf_subset _ _
  | context =>
    rw [detect] at h
    split_ifs at h
    obtain rfl := Option.some.inj h
    intro p hp
    rcases List.mem_append.mp (mem_mergeSort_eraseDups.mp hp) with hp | hp
    · exact pathsOf_subset _ _ hp
    · exact pathsOf_subset _ _ hp

end Detector

namespace Architecture

/-- The paths that an architecture refers to. -/
def filePaths (a : Architecture) : List String :=
  a.components.flatMap (·.files) ++ a.patterns.flatMap (·.files)

theorem filePaths_ofFiles_subset (detectors : List Detector) (files : List FileRecord) :
    (ofFiles detectors files).filePaths ⊆ files.map (·.path) := by
  intro p hp
  rcases List.mem_append.mp hp with hp | hp
  · exact (perm_files_components detectors files).subset hp
  · obtain ⟨pattern, hpattern, hp⟩ := List.mem_flatMap.mp hp
    obtain ⟨detector, -, hdetect⟩ := List.mem_filterMap.mp hpattern
    have hsorted := Detector.files_subset_of_detect hdetect hp
    exact ((perm_sortFiles files).map _).subset hsorted

/-- The dependents of a component are the sources of the relationships that lead to it. -/
theorem mem_dependents_iff {detectors : List Detector} {c : Component} {other : String}
    (h : c ∈ (ofFiles detectors files).components) :
    other ∈ c.dependents ↔
      ∃ r ∈ (ofFiles detectors files).relationships, r.source = other ∧ r.target = c.name := by
  rw [(exists_of_mem_components h).2]
  exact ComponentGraph.mem_dependents_ofArchitecture

theorem pairwise_lt_dependents {detectors : List Detector} {c : Component}
    (h : c ∈ (ofFiles detectors files).components) : c.dependents.Pairwise (· < ·) := by
  rw [(exists_of_mem_components h).2]
  exact ComponentGraph.pairwise_dependents _ _

/-- What is the name of a component is the name of one component. -/
theorem count_name_eq_one {detectors : List Detector} {name : String}
    (h : name ∈ (ofFiles detectors files).components.map (·.name)) :
    ((ofFiles detectors files).components.map (·.name)).count name = 1 :=
  List.count_eq_one_of_mem (nodup_map_name_components detectors files) h

end Architecture

namespace Insights

/-- The paths that insights refer to. -/
def filePaths (i : Insights) : List String :=
  i.hotspots.map (·.path) ++ i.highComplexityFiles.map (·.path) ++ i.entryPoints.map (·.path)
    ++ i.criticalPaths.flatMap (·.files) ++ i.learningPath.modules.flatMap (·.files)

theorem take_ranked_subset (rank : FileRecord → Int) (n : Nat) (files : List FileRecord) :
    (ranked rank files).take n ⊆ files :=
  List.Subset.trans (List.take_subset _ _) fun _ h => List.mem_mergeSort.mp h

/-- Files that stand out among those that pass a test are files of the repository. -/
theorem map_path_take_ranked_subset (rank : FileRecord → Int) (n : Nat) (test : FileRecord → Bool)
    (files : List FileRecord) :
    ((ranked rank (files.filter test)).take n).map (·.path) ⊆ files.map (·.path) :=
  List.map_subset _ (List.Subset.trans (take_ranked_subset _ _ _) List.filter_sublist.subset)

theorem hotspotsOf_subset (files : List FileRecord) :
    (hotspotsOf files).map (·.path) ⊆ files.map (·.path) := by
  rw [hotspotsOf, List.map_map]
  exact map_path_take_ranked_subset _ _ _ _

theorem highComplexityFilesOf_subset (threshold : Int) (files : List FileRecord) :
    (highComplexityFilesOf threshold files).map (·.path) ⊆ files.map (·.path) := by
  rw [highComplexityFilesOf, List.map_map]
  exact map_path_take_ranked_subset _ _ _ _

theorem entryPointsOf_subset (files : List FileRecord) :
    (entryPointsOf files).map (·.path) ⊆ files.map (·.path) := by
  rw [entryPointsOf, List.map_map]
  exact List.map_subset _ List.filter_sublist.subset

theorem criticalPathsOf_subset (files : List FileRecord) :
    (criticalPathsOf files).flatMap (·.files) ⊆ files.map (·.path) := by
  rw [criticalPathsOf, List.flatMap_map]
  intro p hp
  obtain ⟨f, hf, hp⟩ := List.mem_flatMap.mp hp
  obtain rfl := List.mem_singleton.mp hp
  exact List.mem_map_of_mem (take_ranked_subset _ _ _ hf)

/-- The steps on the way to learn the code lead through files of components and complex files. -/
theorem learningModules_subset {a : Architecture}
    (h : a.components.flatMap (·.files) ⊆ files.map (·.path)) :
    (learningModules files a).flatMap (·.files) ⊆ files.map (·.path) := by
  intro p hp
  rw [learningModules, List.flatMap_cons, List.mem_append] at hp
  rcases hp with hp | hp
  · obtain ⟨c, hc, hhead⟩ := List.mem_filterMap.mp hp
    exact h (List.mem_flatMap.mpr ⟨c, hc, List.mem_of_head? hhead⟩)
  · split_ifs at hp with hcore
    · exact absurd hp List.not_mem_nil
    · rw [List.flatMap_singleton] at hp
      exact List.map_subset _ List.filter_sublist.subset (List.mem_of_mem_take hp)

theorem filePaths_ofFiles_subset (threshold : Int) (metrics : Metrics) {a : Architecture}
    (h : a.components.flatMap (·.files) ⊆ files.map (·.path)) :
    (ofFiles threshold files a metrics).filePaths ⊆ files.map (·.path) := by
  rw [ofFiles]
  split_ifs with hempty
  · exact List.nil_subset _
  · simp only [filePaths, List.append_subset]
    refine ⟨⟨⟨⟨?_, ?_⟩, ?_⟩, ?_⟩, ?_⟩
    · exact hotspotsOf_subset files
    · exact highComplexityFilesOf_subset threshold files
    · exact entryPointsOf_subset files
    · exact criticalPathsOf_subset files
    · exact learningModules_subset h

end Insights

/-- Relationships join components, and each name that they use is that of one component.  So is that
of every dependent, and the dependents of a component are the sources of the relationships that lead
to it, in order, each once, and without the component itself.  Every path in the architecture and in
the insights is that of a file. -/
theorem references_ofFiles (detectors : List Detector) (files : List FileRecord) (threshold : Int)
    (metrics : Metrics) :
    let a := Architecture.ofFiles detectors files
    let names := a.components.map (·.name)
    (∀ r ∈ a.relationships, names.count r.source = 1 ∧ names.count r.target = 1) ∧
    (∀ c ∈ a.components,
      (∀ n ∈ c.dependents, names.count n = 1) ∧
      (∀ n, n ∈ c.dependents ↔ ∃ r ∈ a.relationships, r.source = n ∧ r.target = c.name) ∧
      c.dependents.Pairwise (· < ·) ∧ c.name ∉ c.dependents) ∧
    a.filePaths ++ (Insights.ofFiles threshold files a metrics).filePaths ⊆ files.map (·.path) := by
  intro a names
  refine ⟨fun r hr => ?_, fun c hc => ?_, ?_⟩
  · obtain ⟨hsource, htarget, -⟩ := Architecture.endpoints_of_mem_relationships hr
    exact ⟨Architecture.count_name_eq_one hsource, Architecture.count_name_eq_one htarget⟩
  · refine ⟨fun n hn => ?_, fun n => Architecture.mem_dependents_iff hc,
      Architecture.pairwise_lt_dependents hc, fun hself => ?_⟩
    · obtain ⟨r, hr, rfl, -⟩ := (Architecture.mem_dependents_iff hc).mp hn
      exact Architecture.count_name_eq_one (Architecture.endpoints_of_mem_relationships hr).1
    · obtain ⟨r, hr, hsource, htarget⟩ := (Architecture.mem_dependents_iff hc).mp hself
      exact (Architecture.endpoints_of_mem_relationships hr).2.2 (hsource.trans htarget.symm)
  · have hpaths := Architecture.filePaths_ofFiles_subset detectors files
    have hcomponents : a.components.flatMap (·.files) ⊆ files.map (·.path) :=
      (Architecture.perm_files_components detectors files).subset
    exact List.append_subset_of_subset_of_subset hpaths
      (Insights.filePaths_ofFiles_subset threshold metrics hcomponents)

end CodeAtlas
