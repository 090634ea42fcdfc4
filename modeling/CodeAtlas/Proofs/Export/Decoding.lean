import CodeAtlas.Export.Analysis
import CodeAtlas.Proofs.Json.Ascii
import CodeAtlas.Proofs.SortedTexts
import CodeAtlas.Proofs.Timestamp

/-!
# Exported analyses are decoded again

The text of an analysis is a text of JSON, in every layout, and what it stands for is the analysis
as JSON: `Analysis.toJsonText_faithful`.  There is such a text as long as the numbers of the
analysis are finite (`Analysis.isFinite_toJson`); no object in it names a field twice, so a decoder
that keeps one member of each name keeps them all (`Analysis.hasDistinctKeys_toJson`).

Names that form a set are written in order, each once, whatever the order in which they were found
(`Json.listsSet_nameSet`).
-/

namespace CodeAtlas

namespace Json

/-! ### Places in a value -/

/-- A step into a value: to a field of an object or to an item of an array. -/
inductive Step where
  | field (key : String)
  | item (i : Nat)

/-- The value at the end of a way into a value. -/
def follow? : List Step → Json → Option Json
  | [], v => some v
  | .field key :: path, v => (v.get? key).bind (follow? path)
  | .item i :: path, arr items => items[i]?.bind (follow? path)
  | .item _ :: _, _ => none

/-- The keys of an object are different. -/
def HasDistinctKeys : Json → Prop
  | obj members => (members.map Prod.fst).Nodup
  | _ => True

/-- The value lists the elements of a set of names in order, each once. -/
def ListsSet (v : Json) (names : List String) : Prop :=
  ∃ xs, v = strings xs ∧ xs.Pairwise (· < ·) ∧ ∀ x, x ∈ xs ↔ x ∈ names

theorem listsSet_nameSet (names : List String) : (nameSet names).ListsSet names :=
  ⟨_, rfl, pairwise_lt_mergeSort_eraseDups names, fun _ => mem_mergeSort_eraseDups⟩

/-! ### What holds everywhere in a value -/

/-- A statement that can fail only for floating-point numbers and for objects that name a field
twice. -/
structure IsStructural (p : Json → Prop) : Prop where
  null : p null
  bool (b : Bool) : p (bool b)
  int (n : Int) : p (int n)
  str (s : String) : p (str s)
  arr (items : List Json) : p (arr items)
  obj (members : List (String × Json)) (h : (members.map Prod.fst).Nodup) : p (obj members)

theorem isStructural_isFinite : IsStructural IsFinite :=
  ⟨trivial, fun _ => trivial, fun _ => trivial, fun _ => trivial, fun _ => trivial,
    fun _ _ => trivial⟩

theorem isStructural_hasDistinctKeys : IsStructural HasDistinctKeys :=
  ⟨trivial, fun _ => trivial, fun _ => trivial, fun _ => trivial, fun _ => trivial,
    fun _ h => h⟩

section Everywhere

variable {p : Json → Prop}

theorem everywhere_of_isScalar {v : Json} (harr : ∀ items, v ≠ arr items)
    (hobj : ∀ members, v ≠ obj members) : Everywhere p v ↔ p v := by
  refine ⟨fun h => h v .self, fun h w hw => ?_⟩
  cases hw with
  | self => exact h
  | item => exact absurd rfl (harr _)
  | member => exact absurd rfl (hobj _)

theorem everywhere_float (x : Double) : Everywhere p (float x) ↔ p (float x) :=
  everywhere_of_isScalar (fun _ => Json.noConfusion) fun _ => Json.noConfusion

variable (hp : IsStructural p)
include hp

namespace IsStructural

theorem everywhere_bool (b : Bool) : Everywhere p (.bool b) :=
  (everywhere_of_isScalar (fun _ => Json.noConfusion) fun _ => Json.noConfusion).mpr (hp.bool b)

theorem everywhere_int (n : Int) : Everywhere p (.int n) :=
  (everywhere_of_isScalar (fun _ => Json.noConfusion) fun _ => Json.noConfusion).mpr (hp.int n)

theorem everywhere_str (s : String) : Everywhere p (.str s) :=
  (everywhere_of_isScalar (fun _ => Json.noConfusion) fun _ => Json.noConfusion).mpr (hp.str s)

theorem everywhere_arr {items : List Json} (h : ∀ v ∈ items, Everywhere p v) :
    Everywhere p (.arr items) :=
  Json.everywhere_arr.mpr ⟨hp.arr items, h⟩

theorem everywhere_map {α : Type} {f : α → Json} {xs : List α} (h : ∀ x ∈ xs, Everywhere p (f x)) :
    Everywhere p (.arr (xs.map f)) := by
  refine hp.everywhere_arr fun v hv => ?_
  obtain ⟨x, hx, rfl⟩ := List.mem_map.mp hv
  exact h x hx

theorem everywhere_strings (ss : List String) : Everywhere p (strings ss) :=
  hp.everywhere_map fun s _ => hp.everywhere_str s

theorem everywhere_nameSet (names : List String) : Everywhere p (nameSet names) :=
  hp.everywhere_strings _

theorem everywhere_orNull {α : Type} {f : α → Json} (h : ∀ x, Everywhere p (f x)) (x : Option α) :
    Everywhere p (orNull f x) := by
  cases x with
  | none =>
    exact (everywhere_of_isScalar (fun _ => Json.noConfusion) fun _ => Json.noConfusion).mpr hp.null
  | some x => exact h x

theorem everywhere_obj {members : List (String × Json)} (hkeys : (members.map Prod.fst).Nodup)
    (h : ∀ m ∈ members, Everywhere p m.2) : Everywhere p (.obj members) :=
  Json.everywhere_obj.mpr ⟨hp.obj members hkeys, h⟩

/-! ### Records -/

theorem everywhere_functionRecord (f : FunctionRecord) : Everywhere p f.toJson := by
  refine hp.everywhere_obj (by simp [FunctionRecord.members]) ?_
  simp [FunctionRecord.members, hp.everywhere_str, hp.everywhere_int, hp.everywhere_bool,
    hp.everywhere_strings, hp.everywhere_nameSet]

theorem everywhere_methodRecord (m : MethodRecord) : Everywhere p m.toJson := by
  refine hp.everywhere_obj (by simp [FunctionRecord.members]) ?_
  simp [FunctionRecord.members, hp.everywhere_str, hp.everywhere_int, hp.everywhere_bool,
    hp.everywhere_strings, hp.everywhere_nameSet]

theorem everywhere_propertyRecord (q : PropertyRecord) : Everywhere p q.toJson := by
  refine hp.everywhere_obj (by simp) ?_
  simp [hp.everywhere_str, hp.everywhere_int, hp.everywhere_bool]

theorem everywhere_classRecord (c : ClassRecord) : Everywhere p c.toJson := by
  refine hp.everywhere_obj (by simp) ?_
  simp [hp.everywhere_str, hp.everywhere_int, hp.everywhere_strings, hp.everywhere_orNull,
    hp.everywhere_map, hp.everywhere_methodRecord, hp.everywhere_propertyRecord]

theorem everywhere_importRecord (i : ImportRecord) : Everywhere p i.toJson := by
  refine hp.everywhere_obj (by simp) ?_
  simp [hp.everywhere_str, hp.everywhere_int, hp.everywhere_bool, hp.everywhere_strings]

theorem everywhere_exportRecord (e : ExportRecord) : Everywhere p e.toJson := by
  refine hp.everywhere_obj (by simp) ?_
  simp [hp.everywhere_str, hp.everywhere_int]

theorem everywhere_complexityRecord {c : ComplexityRecord} (h : p (.float c.maintainability)) :
    Everywhere p c.toJson := by
  refine hp.everywhere_obj (by simp) ?_
  simp [hp.everywhere_int, everywhere_float, h]

theorem everywhere_fileRecord {f : FileRecord} (h : p (.float f.complexity.maintainability)) :
    Everywhere p f.toJson := by
  refine hp.everywhere_obj (by simp) ?_
  simp [hp.everywhere_str, hp.everywhere_int, hp.everywhere_strings, hp.everywhere_orNull,
    hp.everywhere_map, hp.everywhere_functionRecord, hp.everywhere_classRecord,
    hp.everywhere_importRecord, hp.everywhere_exportRecord, hp.everywhere_complexityRecord h]

theorem everywhere_component (c : Component) : Everywhere p c.toJson := by
  refine hp.everywhere_obj (by simp) ?_
  simp [hp.everywhere_str, hp.everywhere_int, hp.everywhere_strings]

theorem everywhere_relationship {r : Relationship} (h : p (.float r.strength)) :
    Everywhere p r.toJson := by
  refine hp.everywhere_obj (by simp) ?_
  simp [hp.everywhere_str, hp.everywhere_int, everywhere_float, h]

theorem everywhere_layer (l : Layer) : Everywhere p l.toJson := by
  refine hp.everywhere_obj (by simp) ?_
  simp [hp.everywhere_str, hp.everywhere_strings]

theorem everywhere_pattern {q : Pattern} (h : p (.float q.confidence)) :
    Everywhere p q.toJson := by
  refine hp.everywhere_obj (by simp) ?_
  simp [hp.everywhere_str, hp.everywhere_strings, everywhere_float, h]

theorem everywhere_architecture {a : Architecture}
    (hstrength : ∀ r ∈ a.relationships, p (.float r.strength))
    (hconfidence : ∀ q ∈ a.patterns, p (.float q.confidence)) : Everywhere p a.toJson := by
  have hrelationships : Everywhere p (.arr (a.relationships.map (·.toJson))) :=
    hp.everywhere_map fun r hr => hp.everywhere_relationship (hstrength r hr)
  have hpatterns : Everywhere p (.arr (a.patterns.map (·.toJson))) :=
    hp.everywhere_map fun q hq => hp.everywhere_pattern (hconfidence q hq)
  refine hp.everywhere_obj (by simp) ?_
  simp [hp.everywhere_map, hp.everywhere_component, hp.everywhere_layer, hrelationships, hpatterns]

theorem everywhere_metrics {m : Metrics}
    (hlanguages : p (.obj (m.languages.map fun (name, n) => (name, .int n))))
    (haverage : p (.float m.averageComplexity)) (hindex : p (.float m.maintainabilityIndex))
    (hdebt : p (.float m.technicalDebt)) : Everywhere p m.toJson := by
  have hmembers : Everywhere p (.obj (m.languages.map fun (name, n) => (name, .int n))) := by
    refine Json.everywhere_obj.mpr ⟨hlanguages, fun q hq => ?_⟩
    obtain ⟨⟨name, n⟩, -, rfl⟩ := List.mem_map.mp hq
    exact hp.everywhere_int n
  refine hp.everywhere_obj (by simp) ?_
  simp [hp.everywhere_int, everywhere_float, hmembers, haverage, hindex, hdebt]

theorem everywhere_learningPath (q : LearningPath) : Everywhere p q.toJson := by
  have hmodules : ∀ m : LearningModule, Everywhere p m.toJson := by
    intro m
    refine hp.everywhere_obj (by simp) ?_
    simp [hp.everywhere_str, hp.everywhere_int, hp.everywhere_strings]
  refine hp.everywhere_obj (by simp) ?_
  simp [hp.everywhere_str, hp.everywhere_int, hp.everywhere_strings, hp.everywhere_map, hmodules]

theorem everywhere_insights (i : Insights) : Everywhere p i.toJson := by
  have hhotspot : ∀ h : Hotspot, Everywhere p h.toJson := by
    intro h
    refine hp.everywhere_obj (by simp) ?_
    simp [hp.everywhere_str, hp.everywhere_int]
  have hcomplex : ∀ f : ComplexFile, Everywhere p f.toJson := by
    intro f
    refine hp.everywhere_obj (by simp) ?_
    simp [hp.everywhere_str, hp.everywhere_int]
  have hentry : ∀ e : EntryPoint, Everywhere p e.toJson := by
    intro e
    refine hp.everywhere_obj (by simp) ?_
    simp [hp.everywhere_str, hp.everywhere_bool, hp.everywhere_strings]
  have hcritical : ∀ q : CriticalPath, Everywhere p q.toJson := by
    intro q
    refine hp.everywhere_obj (by simp) ?_
    simp [hp.everywhere_str, hp.everywhere_int, hp.everywhere_strings]
  refine hp.everywhere_obj (by simp) ?_
  simp [hp.everywhere_str, hp.everywhere_strings, hp.everywhere_map, hhotspot, hcomplex, hentry,
    hcritical, hp.everywhere_learningPath]

end IsStructural

end Everywhere

end Json

namespace Analysis

/-- The floating-point numbers in an analysis. -/
def floats (a : Analysis) : List Double :=
  a.files.map (·.complexity.maintainability) ++ a.architecture.relationships.map (·.strength)
    ++ a.architecture.patterns.map (·.confidence)
    ++ [a.metrics.averageComplexity, a.metrics.maintainabilityIndex, a.metrics.technicalDebt]

theorem everywhere_toJson {p : Json → Prop} (hp : Json.IsStructural p) {a : Analysis}
    (hfloats : ∀ x ∈ a.floats, p (.float x))
    (hlanguages : p (.obj (a.metrics.languages.map fun (name, n) => (name, .int n)))) :
    a.toJson.Everywhere p := by
  simp only [floats, List.mem_append, or_imp, forall_and, List.forall_mem_map] at hfloats
  obtain ⟨⟨⟨hfiles, hstrength⟩, hconfidence⟩, hmetrics⟩ := hfloats
  have hfiles' : Json.Everywhere p (.arr (a.files.map (·.toJson))) :=
    hp.everywhere_map fun f hf => hp.everywhere_fileRecord (hfiles f hf)
  have hmetrics' : Json.Everywhere p a.metrics.toJson :=
    hp.everywhere_metrics hlanguages (hmetrics _ (by simp)) (hmetrics _ (by simp))
      (hmetrics _ (by simp))
  refine hp.everywhere_obj (by simp [findings]) ?_
  simp [findings, hp.everywhere_str, hfiles', hp.everywhere_architecture hstrength hconfidence,
    hmetrics', hp.everywhere_insights]

/-- With finite numbers in an analysis all numbers in its text are finite. -/
theorem isFinite_toJson {a : Analysis} (h : ∀ x ∈ a.floats, ∃ y, x = .finite y) :
    a.toJson.Everywhere Json.IsFinite :=
  everywhere_toJson Json.isStructural_isFinite h trivial

/-- No object names a field twice. -/
theorem hasDistinctKeys_toJson {a : Analysis} (h : (a.metrics.languages.map Prod.fst).Nodup) :
    a.toJson.Everywhere Json.HasDistinctKeys := by
  refine everywhere_toJson Json.isStructural_hasDistinctKeys (fun x hx => trivial) ?_
  show ((a.metrics.languages.map fun (name, n) => (name, Json.int n)).map Prod.fst).Nodup
  rw [List.map_map]
  exact h

/-! ### Sets -/

/-- Where the functions and the methods of an analysis stand. -/
inductive FunctionAt (a : Analysis) : List Json.Step → FunctionRecord → Prop where
  | function {i j : Nat} {file : FileRecord} {f : FunctionRecord} (hfile : a.files[i]? = some file)
      (hf : file.functions[j]? = some f) :
      FunctionAt a [.field "files", .item i, .field "functions", .item j] f
  | method {i k j : Nat} {file : FileRecord} {c : ClassRecord} {m : MethodRecord}
      (hfile : a.files[i]? = some file) (hc : file.classes[k]? = some c)
      (hm : c.methods[j]? = some m) :
      FunctionAt a [.field "files", .item i, .field "classes", .item k, .field "methods", .item j]
        m.toFunctionRecord

theorem get?_files (a : Analysis) :
    a.toJson.get? "files" = some (.arr (a.files.map (·.toJson))) := by
  simp [toJson, findings, Json.get?]

theorem get?_timestamp (a : Analysis) :
    a.toJson.get? "timestamp" = some (.str a.timestamp.toText) := by
  simp [toJson, findings, Json.get?]

theorem get?_functions (f : FileRecord) :
    f.toJson.get? "functions" = some (.arr (f.functions.map (·.toJson))) := by
  simp [FileRecord.toJson, Json.get?]

theorem get?_classes (f : FileRecord) :
    f.toJson.get? "classes" = some (.arr (f.classes.map (·.toJson))) := by
  simp [FileRecord.toJson, Json.get?]

theorem get?_methods (c : ClassRecord) :
    c.toJson.get? "methods" = some (.arr (c.methods.map (·.toJson))) := by
  simp [ClassRecord.toJson, Json.get?]

theorem get?_sets_function (f : FunctionRecord) :
    f.toJson.get? "calls" = some (.nameSet f.calls) ∧
      f.toJson.get? "called_by" = some (.nameSet f.calledBy) := by
  simp [FunctionRecord.toJson, FunctionRecord.members, Json.get?]

theorem get?_sets_method (m : MethodRecord) :
    m.toJson.get? "calls" = some (.nameSet m.calls) ∧
      m.toJson.get? "called_by" = some (.nameSet m.calledBy) := by
  simp [MethodRecord.toJson, FunctionRecord.members, Json.get?]

theorem follow?_function {a : Analysis} {path : List Json.Step} {f : FunctionRecord}
    (h : a.FunctionAt path f) :
    a.toJson.follow? (path ++ [.field "calls"]) = some (.nameSet f.calls) ∧
      a.toJson.follow? (path ++ [.field "called_by"]) = some (.nameSet f.calledBy) := by
  cases h with
  | @function i j file f hfile hf =>
    simp [Json.follow?, get?_files, get?_functions, hfile, hf, get?_sets_function f]
  | @method i k j file c m hfile hc hm =>
    simp [Json.follow?, get?_files, get?_classes, get?_methods, hfile, hc, hm, get?_sets_method m]

/-- The text of an analysis is a text of JSON in characters of ASCII, and what it stands for is the
analysis as JSON, with sets in order and the moment in the international format; so it stands for
the same in every layout. -/
theorem toJsonText_faithful (a : Analysis) (hfinite : ∀ x ∈ a.floats, ∃ y, x = .finite y)
    (indent : Option Nat) :
    Json.IsText (a.toJsonText indent) a.toJson ∧
    (∀ v, Json.IsText (a.toJsonText indent) v → v = a.toJson) ∧
    Json.parse? (a.toJsonText indent) = some a.toJson ∧
    Json.IsAscii (a.toJsonText indent).toList ∧
    ((a.metrics.languages.map Prod.fst).Nodup → a.toJson.Everywhere Json.HasDistinctKeys) ∧
    (∀ path f, a.FunctionAt path f →
      (∃ v, a.toJson.follow? (path ++ [.field "calls"]) = some v ∧ v.ListsSet f.calls) ∧
      ∃ v, a.toJson.follow? (path ++ [.field "called_by"]) = some v ∧ v.ListsSet f.calledBy) ∧
    (∃ s, a.toJson.follow? [.field "timestamp"] = some (.str s) ∧ s = a.timestamp.toText ∧
      (a.timestamp.IsInRange → a.timestamp.IsoText s.toList)) ∧
    ∀ other, Json.parse? (a.toJsonText other) = Json.parse? (a.toJsonText indent) := by
  have hnumbers := isFinite_toJson hfinite
  have htext : ∀ indent, Json.IsText (a.toJsonText indent) a.toJson :=
    fun indent => Json.isText_render indent hnumbers
  have hparse : ∀ indent, Json.parse? (a.toJsonText indent) = some a.toJson :=
    fun indent => Json.parse?_render indent hnumbers
  have hascii : Json.IsAscii (a.toJsonText indent).toList := by
    rw [toJsonText, Json.render, String.toList_ofList]
    exact Json.isAscii_chars indent hnumbers 0
  have hmoment : a.toJson.follow? [.field "timestamp"] = some (.str a.timestamp.toText) := by
    rw [Json.follow?, get?_timestamp]
    rfl
  refine ⟨htext indent, fun v hv => hv.unique (htext indent), hparse indent, hascii,
    hasDistinctKeys_toJson, fun path f hf => ?_,
    ⟨_, hmoment, rfl, Timestamp.isoText_toText⟩, fun other => by rw [hparse, hparse]⟩
  obtain ⟨hcalls, hcalledBy⟩ := follow?_function hf
  exact ⟨⟨_, hcalls, Json.listsSet_nameSet _⟩, ⟨_, hcalledBy, Json.listsSet_nameSet _⟩⟩

/-- A name of quotes, a letter and a symbol beyond ASCII, a set with a name found twice, empty lists
and a number that no binary fraction meets. -/
theorem toJsonText_faithful_quotedName :
    let tenth : Double := .finite ⟨false, 0x1999999999999A, 1018, by decide, by decide,
      .inr (by decide)⟩
    let f : FunctionRecord := ⟨"\"é😀\"", 1, 2, [], 1, ["b", "a", "b"], [], true⟩
    let file : FileRecord :=
      ⟨"src/a.js", "javascript", 0, 1, [f], [], [], [], ⟨1, 0, tenth⟩, [], none⟩
    let a : Analysis := ⟨"atlas", [file], ⟨[], [], [], []⟩,
      ⟨1, 1, [("javascript", 1)], tenth, 1, tenth, tenth⟩, .empty,
      ⟨2024, 2, 29, 23, 59, 7, 50, some (-330)⟩⟩
    (∀ x ∈ a.floats, ∃ y, x = .finite y) ∧
    Json.IsText (a.toJsonText (some 0)) a.toJson ∧
    Json.parse? (a.toJsonText none) = Json.parse? (a.toJsonText (some 0)) ∧
    (∃ v, a.toJson.follow? [.field "files", .item 0, .field "functions", .item 0, .field "calls"]
      = some v ∧ v.ListsSet ["b", "a", "b"]) ∧
    a.timestamp.toText = "2024-02-29T23:59:07.000050-05:30" := by
  intro tenth f file a
  have hfinite : ∀ x ∈ a.floats, ∃ y, x = .finite y := by
    have hfloats : a.floats = List.replicate 4 tenth := rfl
    intro x hx
    rw [hfloats] at hx
    exact ⟨_, List.eq_of_mem_replicate hx⟩
  obtain ⟨htext, -, -, -, -, hsets, -, hsame⟩ := toJsonText_faithful a hfinite (some 0)
  have hf : a.FunctionAt [.field "files", .item 0, .field "functions", .item 0] f :=
    .function rfl rfl
  exact ⟨hfinite, htext, hsame none, (hsets _ f hf).1, by decide⟩

end Analysis

end CodeAtlas
