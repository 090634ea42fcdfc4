import CodeAtlas.Proofs.Architecture.Relationships
import CodeAtlas.Proofs.Architecture.Partition

/-!
# The order of the files does not matter

Files are put in order before anything is made of them, so that files with different paths have one
architecture, however they are handed over (`ofFiles_independent_of_order`).  This holds for
detectors of any kind, not only for those that come with the library: `ofFilesWith` is the
architecture for detectors that are given by what they find, and the detectors of the library are
among them (`ofFiles_eq_ofFilesWith`).
-/

namespace CodeAtlas

/-- A detector of any kind: the labels of a component with the given files, and the practice that is
found in the files of a repository. -/
structure CustomDetector where
  tags : List FileRecord → List String
  detect : List FileRecord → Option Pattern

/-- A detector by what it finds. -/
def Detector.toCustom (d : Detector) : CustomDetector :=
  ⟨fun files => d.tags files, fun files => d.detect files⟩

namespace Architecture

/-- The architecture of a repository with the given files, for detectors of any kind.  They are shown
the files in order, and each adds its labels and its practice to those of the detectors before it. -/
def ofFilesWith (detectors : List CustomDetector) (files : List FileRecord) : Architecture :=
  let plain := ofFiles [] files
  { plain with
    components := plain.components.map fun c =>
      { c with patterns := detectors.flatMap (·.tags (filesOf c.name (sortFiles files))) }
    patterns := detectors.filterMap (·.detect (sortFiles files)) }

/-! ### Detectors only label -/

section Labels

variable (detectors : List Detector) (files : List FileRecord)

/-- The graph is made of the names and types of components, which no detector changes. -/
theorem graphOf_eq_graphOf_nil : graphOf detectors files = graphOf [] files := by
  unfold graphOf ComponentGraph.ofArchitecture componentsOf
  rw [List.foldl_map, List.foldl_map]
  rfl

theorem partOf_eq_partOf_nil (name : String) :
    partOf detectors files name =
      { partOf [] files name with
        patterns := detectors.flatMap (Detector.tags (filesOf name (sortFiles files))) } := by
  unfold partOf
  rw [graphOf_eq_graphOf_nil]
  rfl

/-- Layers are made of the names and types of components. -/
theorem layersOf_map (parts : List Component) (change : Component → Component)
    (hname : ∀ c, (change c).name = c.name) (htype : ∀ c, (change c).type = c.type) :
    layersOf (parts.map change) = layersOf parts := by
  unfold layersOf
  simp only [List.filter_map, List.map_map, Function.comp_def, htype, hname]

/-- The detectors of the library are detectors like any other. -/
theorem ofFiles_eq_ofFilesWith :
    ofFiles detectors files = ofFilesWith (detectors.map Detector.toCustom) files := by
  have hparts : (ofFiles detectors files).components
      = (ofFilesWith (detectors.map Detector.toCustom) files).components := by
    rw [components_ofFiles]
    show _ = (ofFiles [] files).components.map _
    rw [components_ofFiles, List.map_map]
    refine List.map_congr_left fun name _ => ?_
    rw [partOf_eq_partOf_nil, Function.comp_apply, List.flatMap_map]
    rfl
  have hlayers : (ofFiles detectors files).layers = (ofFiles [] files).layers := by
    show layersOf (ofFiles detectors files).components = layersOf (ofFiles [] files).components
    rw [hparts]
    exact layersOf_map (ofFiles [] files).components _ (fun _ => rfl) fun _ => rfl
  have hpatterns : (ofFiles detectors files).patterns
      = (ofFilesWith (detectors.map Detector.toCustom) files).patterns := by
    show detectors.filterMap _ = (detectors.map Detector.toCustom).filterMap _
    rw [List.filterMap_map]
    rfl
  calc ofFiles detectors files
    _ = ⟨(ofFiles detectors files).components, (ofFiles [] files).relationships,
          (ofFiles detectors files).layers, (ofFiles detectors files).patterns⟩ := rfl
    _ = ofFilesWith (detectors.map Detector.toCustom) files := by
      rw [hparts, hlayers, hpatterns]
      rfl

end Labels

/-! ### Independence of the order -/

/-- Files with different paths have the same architecture in whatever order they are given: the same
components, relationships, layers and practices in the same order, and the same lists in each of
them.  This is so for the detectors of the library and for all others. -/
theorem ofFiles_independent_of_order {files files' : List FileRecord}
    (hperm : files.Perm files') (hpaths : (files.map (·.path)).Nodup) :
    (∀ detectors : List Detector, ofFiles detectors files = ofFiles detectors files') ∧
    ∀ detectors : List CustomDetector, ofFilesWith detectors files = ofFilesWith detectors files' := by
  have hsorted : sortFiles files = sortFiles files' := sortFiles_congr hperm hpaths
  have hplain : ∀ detectors : List Detector, ofFiles detectors files = ofFiles detectors files' := by
    intro detectors
    unfold ofFiles
    rw [hsorted]
  refine ⟨hplain, fun detectors => ?_⟩
  unfold ofFilesWith
  rw [hplain, hsorted]

/-- Two files that are given in the wrong order. -/
theorem ofFiles_independent_of_order_reverse :
    twoComponents.reverse ≠ twoComponents ∧
    twoComponents.reverse.Perm twoComponents ∧
    ((twoComponents.reverse).map (·.path)).Nodup ∧
    ofFiles Detector.standard twoComponents.reverse = ofFiles Detector.standard twoComponents := by
  have hne : twoComponents.reverse ≠ twoComponents := by
    intro h
    exact absurd (congrArg (List.map (·.path)) h) (by decide)
  have hperm : twoComponents.reverse.Perm twoComponents := List.reverse_perm _
  have hpaths : (twoComponents.reverse.map (·.path)).Nodup := by decide
  exact ⟨hne, hperm, hpaths, (ofFiles_independent_of_order hperm hpaths).1 Detector.standard⟩

end Architecture

end CodeAtlas
