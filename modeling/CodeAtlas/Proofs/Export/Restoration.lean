import CodeAtlas.Proofs.Export.Decoding

/-!
# Exported analyses can be restored

The JSON of an analysis determines the analysis (`Analysis.withSortedSets_eq`): every field of every
record is in it.  Two things are not told apart.  The names in a set may have been found in any
order, so sets are put in order before analyses are compared; and a moment is determined by its text
only if its fields are in range.  With that the text of an analysis determines it too, in whatever
layout it is written (`Analysis.withSortedSets_eq_of_toJsonText_eq`).
-/

namespace CodeAtlas

namespace Json

/-! ### Parts of records -/

/-- The elements of a set of names in order, each once. -/
def sortedSet (names : List String) : List String := names.eraseDups.mergeSort (· ≤ ·)

theorem strings_inj {ss ts : List String} : strings ss = strings ts ↔ ss = ts := by
  unfold strings
  rw [arr.injEq, List.map_inj_right fun _ _ => str.inj]

theorem nameSet_inj {names names' : List String} :
    nameSet names = nameSet names' ↔ sortedSet names = sortedSet names' :=
  strings_inj

theorem orNull_str_inj {s t : Option String} : orNull str s = orNull str t ↔ s = t := by
  cases s <;> cases t <;> simp [orNull]

theorem orNull_int_inj {m n : Option Int} : orNull int m = orNull int n ↔ m = n := by
  cases m <;> cases n <;> simp [orNull]

theorem map_eq_of_map_eq {α β γ : Type} {f : α → β} {g : α → γ}
    (h : ∀ x y, f x = f y → g x = g y) {xs ys : List α} (heq : xs.map f = ys.map f) :
    xs.map g = ys.map g := by
  induction xs generalizing ys with
  | nil =>
    cases ys with
    | nil => rfl
    | cons y ys => cases heq
  | cons x xs ih =>
    cases ys with
    | nil => cases heq
    | cons y ys =>
      obtain ⟨hhead, htail⟩ := List.cons.inj heq
      rw [List.map_cons, List.map_cons, h x y hhead, ih htail]

/-- Lists of records that are determined by their JSON are determined by theirs. -/
theorem arr_map_inj {α : Type} {f : α → Json} (h : ∀ x y, f x = f y → x = y) {xs ys : List α} :
    arr (xs.map f) = arr (ys.map f) ↔ xs = ys := by
  rw [arr.injEq, List.map_inj_right h]

end Json

open Json

/-! ### Words -/

theorem Visibility.name_inj {v w : Visibility} : v.name = w.name ↔ v = w := by
  cases v <;> cases w <;> decide

theorem MethodKind.name_inj {k l : MethodKind} : k.name = l.name ↔ k = l := by
  cases k <;> cases l <;> decide

theorem ExportKind.name_inj {k l : ExportKind} : k.name = l.name ↔ k = l := by
  cases k <;> cases l <;> decide

theorem ComponentType.name_inj {s t : ComponentType} : s.name = t.name ↔ s = t := by
  cases s <;> cases t <;> decide

theorem RelationshipKind.name_inj {k l : RelationshipKind} : k.name = l.name ↔ k = l := by
  cases k <;> cases l <;> decide

/-! ### Files -/

/-- The function with its sets in order. -/
def FunctionRecord.withSortedSets (f : FunctionRecord) : FunctionRecord :=
  { f with calls := sortedSet f.calls, calledBy := sortedSet f.calledBy }

/-- The method with its sets in order. -/
def MethodRecord.withSortedSets (m : MethodRecord) : MethodRecord :=
  { m with toFunctionRecord := m.toFunctionRecord.withSortedSets }

/-- The class with the sets of its methods in order. -/
def ClassRecord.withSortedSets (c : ClassRecord) : ClassRecord :=
  { c with methods := c.methods.map (·.withSortedSets) }

/-- The file with the sets of its functions and methods in order. -/
def FileRecord.withSortedSets (f : FileRecord) : FileRecord :=
  { f with
    functions := f.functions.map (·.withSortedSets)
    classes := f.classes.map (·.withSortedSets) }

theorem FunctionRecord.withSortedSets_eq_of_members {f g : FunctionRecord}
    (h : f.members = g.members) : f.withSortedSets = g.withSortedSets := by
  simp only [members, List.cons.injEq, Prod.mk.injEq, str.injEq, int.injEq, Json.bool.injEq,
    strings_inj, nameSet_inj, true_and, and_true] at h
  cases f
  cases g
  simp_all [withSortedSets]

theorem FunctionRecord.withSortedSets_eq {f g : FunctionRecord} (h : f.toJson = g.toJson) :
    f.withSortedSets = g.withSortedSets :=
  withSortedSets_eq_of_members (obj.inj h)

theorem MethodRecord.withSortedSets_eq {m n : MethodRecord} (h : m.toJson = n.toJson) :
    m.withSortedSets = n.withSortedSets := by
  have hlength : m.toFunctionRecord.members.length = n.toFunctionRecord.members.length := rfl
  obtain ⟨hmembers, hrest⟩ := List.append_inj (obj.inj h) hlength
  have hfunction := FunctionRecord.withSortedSets_eq_of_members hmembers
  simp only [List.cons.injEq, Prod.mk.injEq, str.injEq, Json.bool.injEq, Visibility.name_inj,
    MethodKind.name_inj, true_and, and_true] at hrest
  cases m
  cases n
  simp_all [withSortedSets]

theorem PropertyRecord.toJson_inj (p q : PropertyRecord) (h : p.toJson = q.toJson) : p = q := by
  simp only [toJson, obj.injEq, List.cons.injEq, Prod.mk.injEq, str.injEq, int.injEq,
    Json.bool.injEq, Visibility.name_inj, true_and, and_true] at h
  cases p
  cases q
  simp_all

theorem ClassRecord.withSortedSets_eq {c d : ClassRecord} (h : c.toJson = d.toJson) :
    c.withSortedSets = d.withSortedSets := by
  simp only [toJson, obj.injEq, List.cons.injEq, Prod.mk.injEq, str.injEq, int.injEq,
    strings_inj, orNull_str_inj, arr_map_inj PropertyRecord.toJson_inj, true_and, and_true] at h
  obtain ⟨hname, hline, hend, hmethods, hproperties, hsuper, hinterfaces, hcomplexity⟩ := h
  have hmethods' := map_eq_of_map_eq (fun _ _ => MethodRecord.withSortedSets_eq) (arr.inj hmethods)
  cases c
  cases d
  simp_all [withSortedSets]

theorem ImportRecord.toJson_inj (i j : ImportRecord) (h : i.toJson = j.toJson) : i = j := by
  simp only [toJson, obj.injEq, List.cons.injEq, Prod.mk.injEq, str.injEq, int.injEq,
    Json.bool.injEq, strings_inj, true_and, and_true] at h
  cases i
  cases j
  simp_all

theorem ExportRecord.toJson_inj (e f : ExportRecord) (h : e.toJson = f.toJson) : e = f := by
  simp only [toJson, obj.injEq, List.cons.injEq, Prod.mk.injEq, str.injEq, int.injEq,
    ExportKind.name_inj, true_and, and_true] at h
  cases e
  cases f
  simp_all

theorem ComplexityRecord.toJson_inj (c d : ComplexityRecord) (h : c.toJson = d.toJson) : c = d := by
  simp only [toJson, obj.injEq, List.cons.injEq, Prod.mk.injEq, int.injEq, float.injEq, true_and,
    and_true] at h
  cases c
  cases d
  simp_all

theorem FileRecord.withSortedSets_eq {f g : FileRecord} (h : f.toJson = g.toJson) :
    f.withSortedSets = g.withSortedSets := by
  simp only [toJson, obj.injEq, List.cons.injEq, Prod.mk.injEq, str.injEq, int.injEq,
    strings_inj, orNull_int_inj, arr_map_inj ImportRecord.toJson_inj,
    arr_map_inj ExportRecord.toJson_inj, true_and, and_true] at h
  obtain ⟨hpath, hlanguage, hsize, hlines, hfunctions, hclasses, himports, hexports, hcomplexity,
    hdependencies, hcommits⟩ := h
  have hfunctions' :=
    map_eq_of_map_eq (fun _ _ => FunctionRecord.withSortedSets_eq) (arr.inj hfunctions)
  have hclasses' := map_eq_of_map_eq (fun _ _ => ClassRecord.withSortedSets_eq) (arr.inj hclasses)
  have hcomplexity' := ComplexityRecord.toJson_inj _ _ hcomplexity
  cases f
  cases g
  simp_all [withSortedSets]

/-! ### Architectures -/

theorem Component.toJson_inj (c d : Component) (h : c.toJson = d.toJson) : c = d := by
  simp only [toJson, obj.injEq, List.cons.injEq, Prod.mk.injEq, str.injEq, int.injEq,
    strings_inj, ComponentType.name_inj, true_and, and_true] at h
  cases c
  cases d
  simp_all

theorem Relationship.toJson_inj (r s : Relationship) (h : r.toJson = s.toJson) : r = s := by
  simp only [toJson, obj.injEq, List.cons.injEq, Prod.mk.injEq, str.injEq, int.injEq, float.injEq,
    RelationshipKind.name_inj, true_and, and_true] at h
  cases r
  cases s
  simp_all

theorem Layer.toJson_inj (l m : Layer) (h : l.toJson = m.toJson) : l = m := by
  simp only [toJson, obj.injEq, List.cons.injEq, Prod.mk.injEq, str.injEq, strings_inj, true_and,
    and_true] at h
  cases l
  cases m
  simp_all

theorem Pattern.toJson_inj (p q : Pattern) (h : p.toJson = q.toJson) : p = q := by
  simp only [toJson, obj.injEq, List.cons.injEq, Prod.mk.injEq, str.injEq, float.injEq,
    strings_inj, true_and, and_true] at h
  cases p
  cases q
  simp_all

theorem Architecture.toJson_inj (a b : Architecture) (h : a.toJson = b.toJson) : a = b := by
  simp only [toJson, obj.injEq, List.cons.injEq, Prod.mk.injEq, arr_map_inj Component.toJson_inj,
    arr_map_inj Relationship.toJson_inj, arr_map_inj Layer.toJson_inj,
    arr_map_inj Pattern.toJson_inj, true_and, and_true] at h
  cases a
  cases b
  simp_all

/-! ### Metrics and insights -/

theorem Metrics.toJson_inj (m n : Metrics) (h : m.toJson = n.toJson) : m = n := by
  simp only [toJson, obj.injEq, List.cons.injEq, Prod.mk.injEq, int.injEq, float.injEq, true_and,
    and_true] at h
  obtain ⟨hfiles, hlines, hlanguages, haverage, hmax, hindex, hdebt⟩ := h
  have hlanguages' : m.languages = n.languages := by
    refine (List.map_inj_right fun x y hxy => ?_).mp hlanguages
    obtain ⟨hname, hcount⟩ := Prod.mk.inj hxy
    exact Prod.ext hname (int.inj hcount)
  cases m
  cases n
  simp_all

theorem Hotspot.toJson_inj (h k : Hotspot) (heq : h.toJson = k.toJson) : h = k := by
  simp only [toJson, obj.injEq, List.cons.injEq, Prod.mk.injEq, str.injEq, int.injEq, true_and,
    and_true] at heq
  cases h
  cases k
  simp_all

theorem ComplexFile.toJson_inj (f g : ComplexFile) (h : f.toJson = g.toJson) : f = g := by
  simp only [toJson, obj.injEq, List.cons.injEq, Prod.mk.injEq, str.injEq, int.injEq, true_and,
    and_true] at h
  cases f
  cases g
  simp_all

theorem EntryPoint.toJson_inj (e f : EntryPoint) (h : e.toJson = f.toJson) : e = f := by
  simp only [toJson, obj.injEq, List.cons.injEq, Prod.mk.injEq, str.injEq, Json.bool.injEq,
    strings_inj, true_and, and_true] at h
  cases e
  cases f
  simp_all

theorem CriticalPath.toJson_inj (p q : CriticalPath) (h : p.toJson = q.toJson) : p = q := by
  simp only [toJson, obj.injEq, List.cons.injEq, Prod.mk.injEq, str.injEq, int.injEq, strings_inj,
    true_and, and_true] at h
  cases p
  cases q
  simp_all

theorem LearningModule.toJson_inj (m n : LearningModule) (h : m.toJson = n.toJson) : m = n := by
  simp only [toJson, obj.injEq, List.cons.injEq, Prod.mk.injEq, str.injEq, int.injEq, strings_inj,
    true_and, and_true] at h
  cases m
  cases n
  simp_all

theorem LearningPath.toJson_inj (p q : LearningPath) (h : p.toJson = q.toJson) : p = q := by
  simp only [toJson, obj.injEq, List.cons.injEq, Prod.mk.injEq, str.injEq, int.injEq, strings_inj,
    arr_map_inj LearningModule.toJson_inj, true_and, and_true] at h
  cases p
  cases q
  simp_all

theorem Insights.toJson_inj (i j : Insights) (h : i.toJson = j.toJson) : i = j := by
  simp only [toJson, obj.injEq, List.cons.injEq, Prod.mk.injEq, str.injEq, strings_inj,
    arr_map_inj Hotspot.toJson_inj, arr_map_inj ComplexFile.toJson_inj,
    arr_map_inj EntryPoint.toJson_inj, arr_map_inj CriticalPath.toJson_inj, true_and,
    and_true] at h
  have hpath := LearningPath.toJson_inj i.learningPath j.learningPath (by simp_all)
  cases i
  cases j
  simp_all

/-! ### Analyses -/

namespace Analysis

/-- The analysis with all sets in order. -/
def withSortedSets (a : Analysis) : Analysis :=
  { a with files := a.files.map (·.withSortedSets) }

/-- Analyses of the same JSON are the same, sets in order, if their moments are. -/
theorem withSortedSets_eq {a b : Analysis} (h : a.toJson = b.toJson)
    (htimestamp : a.timestamp.toText = b.timestamp.toText → a.timestamp = b.timestamp) :
    a.withSortedSets = b.withSortedSets := by
  simp only [toJson, findings, List.cons_append, List.nil_append, obj.injEq, List.cons.injEq,
    Prod.mk.injEq, str.injEq, true_and, and_true] at h
  obtain ⟨hrepository, hfiles, harchitecture, hmetrics, hinsights, hmoment⟩ := h
  have hfiles' := map_eq_of_map_eq (fun _ _ => FileRecord.withSortedSets_eq) (arr.inj hfiles)
  have harchitecture' := Architecture.toJson_inj _ _ harchitecture
  have hmetrics' := Metrics.toJson_inj _ _ hmetrics
  have hinsights' := Insights.toJson_inj _ _ hinsights
  have hmoment' := htimestamp hmoment
  cases a
  cases b
  simp_all [withSortedSets]

/-- Analyses of the same text are the same, sets in order. -/
theorem withSortedSets_eq_of_toJsonText_eq {a b : Analysis} {indent other : Option Nat}
    (ha : ∀ x ∈ a.floats, ∃ y, x = .finite y) (hb : ∀ x ∈ b.floats, ∃ y, x = .finite y)
    (hatime : a.timestamp.IsInRange) (hbtime : b.timestamp.IsInRange)
    (h : a.toJsonText indent = b.toJsonText other) : a.withSortedSets = b.withSortedSets := by
  have hjson : a.toJson = b.toJson := by
    have hparse := Json.parse?_render indent (isFinite_toJson ha)
    have hparse' := Json.parse?_render other (isFinite_toJson hb)
    rw [← toJsonText] at hparse hparse'
    rw [h, hparse'] at hparse
    exact (Option.some.inj hparse).symm
  refine withSortedSets_eq hjson fun htext => ?_
  have hiso := Timestamp.isoText_toText hatime
  have hiso' := Timestamp.isoText_toText hbtime
  exact hiso.eq_of_eq hiso' (congrArg String.toList htext)

end Analysis

end CodeAtlas
