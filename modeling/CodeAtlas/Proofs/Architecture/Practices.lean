import CodeAtlas.Proofs.Architecture.Partition

/-!
# Labels of components and practices of the repository

A detector looks at the files twice: component by component, to label the components, and at all of
them together, to report the practice.  Both times it looks for the same signs (`Detector.signs`): a
component has a label exactly if one of its files has the sign (`mem_patterns_partOf_iff`), and a
practice is reported exactly if each of its signs is found somewhere (`detect_eq_none_iff`).  Since
every file lies in one component, the labels of the components tell which practices are reported,
and where the files of a practice lie (`ofFiles_practices_agree`).
-/

namespace CodeAtlas

namespace Detector

/-! ### Signs -/

/-- The labels that a detector gives, each with what a file must have for it. -/
def signs : Detector → List (String × (FileRecord → Bool))
  | hooks => [("React Hooks", hasHook)]
  | context => [("Context Pattern", hasNameWith "Context"),
      ("Provider Pattern", hasNameWith "Provider")]

/-- The name of the practice that a detector reports. -/
def practice : Detector → String
  | hooks => "React Hooks Pattern"
  | context => "Context Provider Pattern"

variable {files : List FileRecord} {d : Detector} {p : Pattern}

/-- A label stands for the same sign wherever it is given. -/
theorem sign_unique {d d' : Detector} {label : String} {test test' : FileRecord → Bool}
    (h : (label, test) ∈ d.signs) (h' : (label, test') ∈ d'.signs) : test = test' := by
  cases d <;> cases d' <;> grind [signs]

/-- Labels are given in the order of the signs. -/
theorem tags_eq (files : List FileRecord) (d : Detector) :
    tags files d = (d.signs.filter fun s => files.any s.2).map (·.1) := by
  cases d with
  | hooks => cases h : files.any hasHook <;> simp [tags, signs, h]
  | context =>
    cases hc : files.any (hasNameWith "Context") <;>
      cases hp : files.any (hasNameWith "Provider") <;> simp [tags, signs, hc, hp]

theorem mem_tags_iff {label : String} :
    label ∈ tags files d ↔ ∃ test, (label, test) ∈ d.signs ∧ ∃ f ∈ files, test f = true := by
  simp only [tags_eq, List.mem_map, List.mem_filter, List.any_eq_true]
  constructor
  · rintro ⟨⟨_, test⟩, ⟨hsign, hfile⟩, rfl⟩
    exact ⟨test, hsign, hfile⟩
  · rintro ⟨test, hsign, hfile⟩
    exact ⟨(label, test), ⟨hsign, hfile⟩, rfl⟩

theorem mem_pathsOf {test : FileRecord → Bool} {path : String} :
    path ∈ pathsOf test files ↔ ∃ f ∈ files, f.path = path ∧ test f = true := by
  simp only [pathsOf, List.mem_map, List.mem_filter, and_assoc, and_comm (a := test _ = true)]

theorem isEmpty_pathsOf_iff {test : FileRecord → Bool} :
    (pathsOf test files).isEmpty = true ↔ ¬∃ f ∈ files, test f = true := by
  rw [pathsOf, List.isEmpty_iff, List.map_eq_nil_iff, List.filter_eq_nil_iff]
  push Not
  rfl

/-- A practice is not reported exactly if one of its signs is missing. -/
theorem detect_eq_none_iff :
    detect files d = none ↔ ∃ s ∈ d.signs, ¬∃ f ∈ files, s.2 f = true := by
  cases d with
  | hooks =>
    simp only [detect, signs, ite_eq_left_iff, reduceCtorEq, imp_false, not_not,
      isEmpty_pathsOf_iff, List.mem_singleton, exists_eq_left]
  | context =>
    simp only [detect, signs, ite_eq_left_iff, reduceCtorEq, imp_false, not_not, Bool.or_eq_true,
      isEmpty_pathsOf_iff, List.mem_cons, List.not_mem_nil, or_false, exists_eq_or_imp,
      exists_eq_left]

/-- A practice that is reported has the name of its detector, and the files that have one of its
signs. -/
theorem of_detect_eq_some (h : detect files d = some p) :
    p.name = d.practice ∧
      ∀ path, path ∈ p.files ↔ ∃ f ∈ files, f.path = path ∧ ∃ s ∈ d.signs, s.2 f = true := by
  cases d with
  | hooks =>
    simp only [detect] at h
    split_ifs at h
    obtain rfl := Option.some.inj h
    refine ⟨rfl, fun path => ?_⟩
    simp only [mem_pathsOf, signs, List.mem_singleton, exists_eq_left]
  | context =>
    simp only [detect] at h
    split_ifs at h
    obtain rfl := Option.some.inj h
    refine ⟨rfl, fun path => ?_⟩
    simp only [mem_mergeSort_eraseDups, List.mem_append, mem_pathsOf, signs, List.mem_cons,
      List.not_mem_nil, or_false, exists_eq_or_imp, exists_eq_left]
    constructor
    · rintro (⟨f, hf, hpath, hsign⟩ | ⟨f, hf, hpath, hsign⟩)
      · exact ⟨f, hf, hpath, Or.inl hsign⟩
      · exact ⟨f, hf, hpath, Or.inr hsign⟩
    · rintro ⟨f, hf, hpath, hsign | hsign⟩
      · exact Or.inl ⟨f, hf, hpath, hsign⟩
      · exact Or.inr ⟨f, hf, hpath, hsign⟩

theorem practice_injective {d d' : Detector} (h : d.practice = d'.practice) : d = d' := by
  cases d <;> cases d' <;> simp_all [practice]

end Detector

namespace Architecture

open Detector

variable {detectors : List Detector} {files : List FileRecord} {d : Detector} {label : String}
  {test : FileRecord → Bool}

/-! ### Labels of components -/

/-- A component has a label exactly if a file of its directory has the sign. -/
theorem mem_patterns_partOf_iff (hd : d ∈ detectors) (hsign : (label, test) ∈ d.signs)
    {name : String} :
    label ∈ (partOf detectors files name).patterns
      ↔ ∃ f ∈ files, Component.nameOf f.path = name ∧ test f = true := by
  show label ∈ detectors.flatMap (tags (filesOf name (sortFiles files))) ↔ _
  simp only [List.mem_flatMap, mem_tags_iff, mem_filesOf, mem_sortFiles, and_assoc]
  constructor
  · rintro ⟨d', -, test', hsign', hfile⟩
    rwa [sign_unique hsign hsign']
  · exact fun hfile => ⟨d, hd, test, hsign, hfile⟩

/-- Some component has a label exactly if some file has the sign. -/
theorem exists_labelled_iff (hd : d ∈ detectors) (hsign : (label, test) ∈ d.signs) :
    (∃ c ∈ (ofFiles detectors files).components, label ∈ c.patterns)
      ↔ ∃ f ∈ files, test f = true := by
  rw [components_ofFiles]
  simp only [List.mem_map, exists_exists_and_eq_and, mem_patterns_partOf_iff hd hsign]
  constructor
  · rintro ⟨name, -, f, hf, -, htest⟩
    exact ⟨f, hf, htest⟩
  · rintro ⟨f, hf, htest⟩
    have hname : Component.nameOf f.path ∈ componentNames (sortFiles files) :=
      mem_componentNames.mpr ⟨f, mem_sortFiles.mpr hf, rfl⟩
    exact ⟨_, hname, f, hf, rfl, htest⟩

/-! ### Practices of the repository -/

theorem mem_patterns_iff {p : Pattern} :
    p ∈ (ofFiles detectors files).patterns
      ↔ ∃ d ∈ detectors, detect (sortFiles files) d = some p :=
  List.mem_filterMap

/-- A practice is reported exactly if each label of its detector is that of some component. -/
theorem exists_practice_iff (hd : d ∈ detectors) :
    (∃ p ∈ (ofFiles detectors files).patterns, p.name = d.practice)
      ↔ ∀ s ∈ d.signs, ∃ c ∈ (ofFiles detectors files).components, s.1 ∈ c.patterns := by
  have hreported : (∃ p ∈ (ofFiles detectors files).patterns, p.name = d.practice)
      ↔ detect (sortFiles files) d ≠ none := by
    rw [Option.ne_none_iff_exists']
    constructor
    · rintro ⟨p, hp, hname⟩
      obtain ⟨d', -, hdetect⟩ := mem_patterns_iff.mp hp
      -- no other detector reports a practice of this name
      obtain rfl := practice_injective (hname.symm.trans (of_detect_eq_some hdetect).1)
      exact ⟨p, hdetect⟩
    · rintro ⟨p, hdetect⟩
      exact ⟨p, mem_patterns_iff.mpr ⟨d, hd, hdetect⟩, (of_detect_eq_some hdetect).1⟩
  rw [hreported, Ne, detect_eq_none_iff]
  push Not
  refine forall₂_congr fun s hs => ?_
  simp only [exists_labelled_iff hd hs, mem_sortFiles]

/-- The components in which files of a practice lie are those that have a label of its detector. -/
theorem exists_mem_files_iff {p : Pattern} (hd : d ∈ detectors)
    (hp : detect (sortFiles files) d = some p) {c : Component}
    (hc : c ∈ (ofFiles detectors files).components) :
    (∃ path ∈ c.files, path ∈ p.files) ↔ ∃ s ∈ d.signs, s.1 ∈ c.patterns := by
  obtain ⟨-, hpart⟩ := exists_of_mem_components hc
  obtain ⟨-, hfiles⟩ := of_detect_eq_some hp
  rw [hpart]
  simp only [mem_files_partOf, hfiles, mem_sortFiles]
  constructor
  · rintro ⟨path, ⟨f, -, hname, rfl⟩, g, hg, hpath, s, hs, htest⟩
    -- the two records have one path, and so they are of one component
    exact ⟨s, hs, (mem_patterns_partOf_iff hd hs).mpr ⟨g, hg, hpath ▸ hname, htest⟩⟩
  · rintro ⟨s, hs, hlabel⟩
    obtain ⟨f, hf, hname, htest⟩ := (mem_patterns_partOf_iff hd hs).mp hlabel
    exact ⟨f.path, ⟨f, hf, hname, rfl⟩, f, hf, rfl, s, hs, htest⟩

/-- **The labels of components and the practices of the repository agree.**  Hooks are reported
exactly if some component has the label for them, and contexts with providers exactly if some
component has the label for contexts and some component, the same or another, has that for
providers.  The components in which files of a reported practice lie are those with a label for
it. -/
theorem ofFiles_practices_agree (files : List FileRecord) :
    let a := ofFiles Detector.standard files
    ((∃ p ∈ a.patterns, p.name = "React Hooks Pattern")
      ↔ ∃ c ∈ a.components, "React Hooks" ∈ c.patterns) ∧
    ((∃ p ∈ a.patterns, p.name = "Context Provider Pattern")
      ↔ (∃ c ∈ a.components, "Context Pattern" ∈ c.patterns) ∧
        ∃ c ∈ a.components, "Provider Pattern" ∈ c.patterns) ∧
    ∀ p ∈ a.patterns,
      (p.name = "React Hooks Pattern" ∧ ∀ c ∈ a.components,
        ((∃ path ∈ c.files, path ∈ p.files) ↔ "React Hooks" ∈ c.patterns)) ∨
      (p.name = "Context Provider Pattern" ∧ ∀ c ∈ a.components,
        ((∃ path ∈ c.files, path ∈ p.files)
          ↔ "Context Pattern" ∈ c.patterns ∨ "Provider Pattern" ∈ c.patterns)) := by
  intro a
  have hhooks : hooks ∈ Detector.standard := List.mem_cons_self
  have hcontext : context ∈ Detector.standard := List.mem_cons_of_mem _ List.mem_cons_self
  refine ⟨?_, ?_, fun p hp => ?_⟩
  · have h := @exists_practice_iff _ files _ hhooks
    rwa [signs, List.forall_mem_singleton] at h
  · have h := @exists_practice_iff _ files _ hcontext
    rwa [signs, List.forall_mem_cons, List.forall_mem_singleton] at h
  · obtain ⟨d, hd, hdetect⟩ := mem_patterns_iff.mp hp
    have hname := (of_detect_eq_some hdetect).1
    cases d with
    | hooks =>
      refine Or.inl ⟨hname, fun c hc => ?_⟩
      have h := exists_mem_files_iff hd hdetect hc
      simpa only [signs, List.mem_singleton, exists_eq_left] using h
    | context =>
      refine Or.inr ⟨hname, fun c hc => ?_⟩
      have h := exists_mem_files_iff hd hdetect hc
      simpa only [signs, List.mem_cons, List.not_mem_nil, or_false, exists_eq_or_imp,
        exists_eq_left] using h

end Architecture

end CodeAtlas
