import CodeAtlas.Proofs.Architecture.Members
import Mathlib.Algebra.BigOperators.Group.List.Basic

/-!
# Components are a partition of the files

The components of an architecture have different names and share out the files: every file, and with
it its complexity and its dependencies, is found in the component of its directory and nowhere else,
and the layers share out the components in the same way (`ofFiles_partitions`).
-/

namespace CodeAtlas.Architecture

/-! ### The components of an architecture -/

section Components

variable (detectors : List Detector) (files : List FileRecord)

/-- The relationships between the components of files in any order. -/
def linksOf : List Relationship :=
  relationshipsOf (Resolver.ofPaths ((sortFiles files).map (·.path))) (sortFiles files)

/-- The graph of the components of files in any order. -/
def graphOf : ComponentGraph :=
  ComponentGraph.ofArchitecture (componentsOf detectors (sortFiles files)) (linksOf files)

/-- The component of a name. -/
def partOf (name : String) : Component :=
  { component detectors name (filesOf name (sortFiles files)) with
    dependents := (graphOf detectors files).dependents name }

theorem components_ofFiles :
    (ofFiles detectors files).components
      = (componentNames (sortFiles files)).map (partOf detectors files) := by
  rw [ofFiles]
  dsimp only
  rw [componentsOf, List.map_map]
  rfl

theorem map_name_components :
    (ofFiles detectors files).components.map (·.name) = componentNames (sortFiles files) := by
  rw [components_ofFiles, List.map_map]
  exact List.map_id _

theorem nodup_map_name_components :
    ((ofFiles detectors files).components.map (·.name)).Nodup := by
  rw [map_name_components]
  exact nodup_componentNames _

end Components

variable {detectors : List Detector} {files : List FileRecord} {c : Component}

/-- A component is the one of its name, and it has files. -/
theorem exists_of_mem_components (h : c ∈ (ofFiles detectors files).components) :
    c.name ∈ componentNames (sortFiles files) ∧ c = partOf detectors files c.name := by
  rw [components_ofFiles] at h
  obtain ⟨name, hname, rfl⟩ := List.mem_map.mp h
  exact ⟨hname, rfl⟩

theorem mem_files_partOf {name p : String} :
    p ∈ (partOf detectors files name).files
      ↔ ∃ f ∈ files, Component.nameOf f.path = name ∧ f.path = p := by
  show p ∈ (filesOf name (sortFiles files)).map (·.path) ↔ _
  simp only [List.mem_map, mem_filesOf, mem_sortFiles, and_assoc]

theorem mem_dependencies_partOf {name d : String} :
    d ∈ (partOf detectors files name).dependencies
      ↔ ∃ f ∈ files, Component.nameOf f.path = name ∧ d ∈ f.dependencies := by
  show d ∈ ((filesOf name (sortFiles files)).flatMap (·.dependencies)).eraseDups ↔ _
  simp only [List.mem_eraseDups, List.mem_flatMap, mem_filesOf, mem_sortFiles, and_assoc]

/-- A component has the files whose directory gives it its name. -/
theorem perm_filesOf_sortFiles (name : String) (files : List FileRecord) :
    (filesOf name (sortFiles files)).Perm
      (files.filter fun f => Component.nameOf f.path = name) := by
  have hfilter : (files.filter fun f => Component.nameOf f.path = name) = filesOf name files :=
    List.filter_congr fun f _ => (beq_eq_decide _ _).symm
  rw [hfilter]
  exact (perm_sortFiles files).filter _

theorem pairwise_files_partOf (name : String) :
    (partOf detectors files name).files.Pairwise (· ≤ ·) :=
  List.pairwise_map.mpr ((pairwise_le_sortFiles files).filter _)

/-- Of two components the first has a file that comes before all files of the second. -/
theorem pairwise_components (detectors : List Detector) (files : List FileRecord) :
    (ofFiles detectors files).components.Pairwise fun c d =>
      ∃ p ∈ c.files, ∀ q ∈ d.files, p < q := by
  rw [components_ofFiles, List.pairwise_map]
  refine (pairwise_componentNames (pairwise_le_sortFiles files)).imp ?_
  rintro n m ⟨f, hf, hlt⟩
  refine ⟨f.path, List.mem_map_of_mem hf, fun q hq => ?_⟩
  obtain ⟨g, hg, rfl⟩ := List.mem_map.mp hq
  exact hlt g hg

/-- The components have the files of the repository. -/
theorem perm_files_components (detectors : List Detector) (files : List FileRecord) :
    ((ofFiles detectors files).components.flatMap (·.files)).Perm (files.map (·.path)) := by
  have hfiles : (ofFiles detectors files).components.flatMap (·.files)
      = ((componentNames (sortFiles files)).flatMap
          (filesOf · (sortFiles files))).map (·.path) := by
    rw [components_ofFiles, List.flatMap_map, List.map_flatMap]
    rfl
  rw [hfiles]
  exact ((perm_flatMap_filesOf _).trans (perm_sortFiles files)).map _

/-! ### Sums -/

theorem integerSum_perm {ns ms : List Int} (h : ns.Perm ms) : integerSum ns = integerSum ms :=
  h.sum_eq

/-- The sum over all files is the sum over the components of the sums over their files. -/
theorem integerSum_componentNames (value : FileRecord → Int) (files : List FileRecord) :
    integerSum ((componentNames files).map fun n => integerSum ((filesOf n files).map value))
      = integerSum (files.map value) := by
  calc integerSum ((componentNames files).map fun n => integerSum ((filesOf n files).map value))
    _ = (((componentNames files).map fun n => (filesOf n files).map value).map List.sum).sum := by
      rw [List.map_map]
      rfl
    _ = integerSum (((componentNames files).flatMap (filesOf · files)).map value) := by
      rw [← List.sum_flatten, List.map_flatMap, List.flatMap_def]
      rfl
    _ = integerSum (files.map value) := integerSum_perm ((perm_flatMap_filesOf files).map value)

/-! ### Layers -/

/-- No component is guessed to be a utility, which is a type without a layer. -/
theorem ofPaths_ne_utility (paths : List String) : ComponentType.ofPaths paths ≠ .utility := by
  rw [ComponentType.ofPaths]
  split
  case h_1 words type hfind =>
    have hmem := List.mem_of_find?_eq_some hfind
    have htypes : ∀ rule ∈ ComponentType.markers, rule.2 ≠ .utility := by decide
    exact htypes _ hmem
  case h_2 => decide

/-- Every other type has one layer. -/
theorem countP_layerRules {type : ComponentType} (h : type ≠ .utility) :
    layerRules.countP (fun rule => rule.2.1.contains type) = 1 := by
  cases type with
  | utility => exact absurd rfl h
  | component => rfl
  | service => rfl
  | page => rfl
  | api => rfl

/-- Layers without components are left out, but they have no components to lose. -/
theorem flatMap_components_layersOf (components : List Component) :
    (layersOf components).flatMap (·.components)
      = layerRules.flatMap fun rule =>
          (components.filter (rule.2.1.contains ·.type)).map (·.name) := by
  rw [layersOf]
  generalize layerRules = rules
  induction rules with
  | nil => rfl
  | cons rule rules ih =>
    obtain ⟨name, types, responsibility⟩ := rule
    rw [List.filterMap_cons, List.flatMap_cons]
    by_cases hempty : ((components.filter (types.contains ·.type)).map (·.name)).isEmpty = true
    · simp only [hempty, if_true]
      rw [ih, List.isEmpty_iff.mp hempty, List.nil_append]
    · simp only [hempty]
      rw [if_neg Bool.false_ne_true, List.flatMap_cons, ih]

theorem perm_layersOf {components : List Component} (h : ∀ c ∈ components, c.type ≠ .utility) :
    ((layersOf components).flatMap (·.components)).Perm (components.map (·.name)) := by
  have hperm : (layerRules.flatMap fun rule =>
      components.filter (rule.2.1.contains ·.type)).Perm components :=
    perm_flatMap_filter fun c hc => countP_layerRules (h c hc)
  rw [flatMap_components_layersOf, ← List.map_flatMap]
  exact hperm.map _

/-! ### The partition -/

/-- Components have different names.  Together their files are the files of the repository.  Each
has some, in order, namely those whose directory gives it its name; its complexity is the sum of
theirs, and its dependencies are theirs, each once.  Components come in the order of their least
files, their complexities add up to those of the files, and every component is in one layer. -/
theorem ofFiles_partitions (detectors : List Detector) (files : List FileRecord) :
    let a := ofFiles detectors files
    (a.components.map (·.name)).Nodup ∧
    (a.components.flatMap (·.files)).Perm (files.map (·.path)) ∧
    (∀ c ∈ a.components, c.files ≠ [] ∧ c.files.Pairwise (· ≤ ·) ∧
      c.files.Perm ((files.filter fun f => Component.nameOf f.path = c.name).map (·.path)) ∧
      c.complexity = integerSum ((files.filter fun f => Component.nameOf f.path = c.name).map
        (·.complexity.cyclomatic)) ∧
      c.dependencies.Nodup ∧
      ∀ d, d ∈ c.dependencies ↔
        ∃ f ∈ files, Component.nameOf f.path = c.name ∧ d ∈ f.dependencies) ∧
    a.components.Pairwise (fun c d => ∃ p ∈ c.files, ∀ q ∈ d.files, p < q) ∧
    integerSum (a.components.map (·.complexity))
      = integerSum (files.map (·.complexity.cyclomatic)) ∧
    (a.layers.flatMap (·.components)).Perm (a.components.map (·.name)) := by
  intro a
  refine ⟨nodup_map_name_components detectors files, perm_files_components detectors files, ?_,
    pairwise_components detectors files, ?_, ?_⟩
  · intro c hc
    obtain ⟨hname, hpart⟩ := exists_of_mem_components hc
    have hmembers := perm_filesOf_sortFiles c.name files
    rw [hpart]
    refine ⟨?_, pairwise_files_partOf c.name, hmembers.map _, integerSum_perm (hmembers.map _),
      nodup_eraseDups _, fun d => mem_dependencies_partOf⟩
    exact mt List.map_eq_nil_iff.mp (filesOf_ne_nil hname)
  · have htotal := integerSum_componentNames (·.complexity.cyclomatic) (sortFiles files)
    rw [integerSum_perm ((perm_sortFiles files).map _)] at htotal
    rw [← htotal, components_ofFiles, List.map_map]
    rfl
  · refine perm_layersOf fun c hc => ?_
    obtain ⟨-, hpart⟩ := exists_of_mem_components hc
    rw [hpart]
    exact ofPaths_ne_utility _

end CodeAtlas.Architecture
