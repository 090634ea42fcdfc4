import CodeAtlas.Proofs.Architecture.Partition
import CodeAtlas.Proofs.Architecture.Relationships

/-!
# Why components are linked

A relationship of an architecture has its reason in some file (`LinkedBy`), and every such reason
between two components has its relationship (`exists_mem_relationships_iff`).  A reason leads to a
file of the repository, so that relationships join components of the architecture
(`endpoints_of_mem_relationships`).
-/

namespace CodeAtlas.Architecture

/-- A file gives a reason for a relationship of the kind from `s` to `t`. -/
inductive LinkedBy (resolver : Resolver) (s t : String) (f : FileRecord) :
    RelationshipKind → Prop where
  | importing (i : ImportRecord) (mem : i ∈ f.imports) (joins : ImportJoins resolver s t f i) :
    LinkedBy resolver s t f .importing
  | extending (c : ClassRecord) (mem : c ∈ f.classes) (joins : ClassJoins resolver s t f c) :
    LinkedBy resolver s t f .extending

section Reasons

variable {resolver : Resolver} {s t : String} {f : FileRecord} {kind : RelationshipKind}

theorem LinkedBy.nameOf_path (h : LinkedBy resolver s t f kind) : Component.nameOf f.path = s := by
  cases h with
  | importing i mem joins => exact joins.1
  | extending c mem joins => exact joins.1

theorem SuperclassPath.mem_paths {name p : String} (h : SuperclassPath resolver f name p) :
    p ∈ resolver.paths := by
  cases h with
  | bound before i after split first binds leads => exact Resolver.mem_of_resolve?_eq_some leads
  | unbound free leads => exact Resolver.mem_of_resolve?_eq_some leads

/-- A reason leads to a path that the resolver knows. -/
theorem LinkedBy.exists_mem_paths (h : LinkedBy resolver s t f kind) :
    ∃ p ∈ resolver.paths, Component.nameOf p = t := by
  cases h with
  | importing i mem joins =>
    obtain ⟨-, p, hleads, ht⟩ := joins
    exact ⟨p, Resolver.mem_of_resolve?_eq_some hleads, ht⟩
  | extending c mem joins =>
    obtain ⟨-, name, -, -, -, p, hpath, ht⟩ := joins
    exact ⟨p, hpath.mem_paths, ht⟩

theorem mem_occurrencesIn_iff :
    ⟨s, t, kind⟩ ∈ occurrencesIn resolver f ↔ s ≠ t ∧ LinkedBy resolver s t f kind := by
  rw [occurrencesIn_eq, List.mem_append, List.mem_filterMap, List.mem_filterMap]
  simp only [importOccurrence?_eq_some_iff, classOccurrence?_eq_some_iff]
  constructor
  · rintro (⟨i, hi, hst, rfl, hjoins⟩ | ⟨c, hc, hst, rfl, hjoins⟩)
    · exact ⟨hst, .importing i hi hjoins⟩
    · exact ⟨hst, .extending c hc hjoins⟩
  · rintro ⟨hst, ⟨i, hi, hjoins⟩ | ⟨c, hc, hjoins⟩⟩
    · exact Or.inl ⟨i, hi, hst, rfl, hjoins⟩
    · exact Or.inr ⟨c, hc, hst, rfl, hjoins⟩

/-- There is a relationship wherever there is an occurrence of one. -/
theorem exists_mem_relationshipsOf_iff {files : List FileRecord} {o : Occurrence} :
    (∃ r ∈ relationshipsOf resolver files, occurrenceOf r = o)
      ↔ ∃ f ∈ files, o ∈ occurrencesIn resolver f := by
  rw [← List.mem_map, ← List.mem_flatMap]
  exact (tallies_foldl_count _ Tallies.nil).mem_iff o

end Reasons

/-! ### The relationships of an architecture -/

section Relationships

variable {detectors : List Detector} {files : List FileRecord} {s t : String}
  {kind : RelationshipKind} {r : Relationship}

/-- Imports are resolved in the same way, whatever the order of the files. -/
theorem ofPaths_sortFiles (files : List FileRecord) :
    Resolver.ofPaths ((sortFiles files).map (·.path)) = Resolver.ofPaths (files.map (·.path)) :=
  Resolver.ofPaths_congr fun _ => ((perm_sortFiles files).map _).mem_iff

theorem relationships_ofFiles : (ofFiles detectors files).relationships = linksOf files := rfl

/-- Two components are linked if a file gives a reason. -/
theorem exists_mem_relationships_iff :
    (∃ r ∈ (ofFiles detectors files).relationships, occurrenceOf r = ⟨s, t, kind⟩)
      ↔ s ≠ t ∧ ∃ f ∈ files, LinkedBy (Resolver.ofPaths (files.map (·.path))) s t f kind := by
  rw [relationships_ofFiles, linksOf, ofPaths_sortFiles, exists_mem_relationshipsOf_iff]
  simp only [mem_sortFiles, mem_occurrencesIn_iff]
  constructor
  · rintro ⟨f, hf, hst, hlinked⟩
    exact ⟨hst, f, hf, hlinked⟩
  · rintro ⟨hst, f, hf, hlinked⟩
    exact ⟨f, hf, hst, hlinked⟩

/-- A relationship joins two components of the architecture. -/
theorem endpoints_of_mem_relationships (h : r ∈ (ofFiles detectors files).relationships) :
    r.source ∈ (ofFiles detectors files).components.map (·.name) ∧
      r.target ∈ (ofFiles detectors files).components.map (·.name) ∧ r.source ≠ r.target := by
  obtain ⟨hne, f, hf, hlinked⟩ := exists_mem_relationships_iff.mp ⟨r, h, rfl⟩
  obtain ⟨p, hp, ht⟩ := hlinked.exists_mem_paths
  obtain ⟨g, hg, rfl⟩ := List.mem_map.mp (Resolver.mem_paths_ofPaths.mp hp)
  rw [map_name_components, mem_componentNames, mem_componentNames]
  exact ⟨⟨f, mem_sortFiles.mpr hf, hlinked.nameOf_path⟩, ⟨g, mem_sortFiles.mpr hg, ht⟩, hne⟩

end Relationships

/-! ### Where a file is found -/

section Components

variable {detectors : List Detector} {files : List FileRecord} {c : Component}

/-- A file is in the components that have its name, and in no others. -/
theorem mem_files_iff (h : c ∈ (ofFiles detectors files).components) {f : FileRecord}
    (hf : f ∈ files) : f.path ∈ c.files ↔ Component.nameOf f.path = c.name := by
  rw [(exists_of_mem_components h).2, mem_files_partOf]
  constructor
  · rintro ⟨g, -, hname, hpath⟩
    rw [← hpath]
    exact hname
  · exact fun hname => ⟨f, hf, hname, rfl⟩

theorem exists_component_of_mem (detectors : List Detector) {f : FileRecord} (hf : f ∈ files) :
    ∃ c ∈ (ofFiles detectors files).components, c.name = Component.nameOf f.path := by
  have hname : Component.nameOf f.path ∈ (ofFiles detectors files).components.map (·.name) := by
    rw [map_name_components]
    exact mem_componentNames.mpr ⟨f, mem_sortFiles.mpr hf, rfl⟩
  exact List.mem_map.mp hname

end Components

end CodeAtlas.Architecture
