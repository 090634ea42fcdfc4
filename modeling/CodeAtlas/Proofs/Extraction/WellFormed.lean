import CodeAtlas.Proofs.Complexity.FileScore
import CodeAtlas.Proofs.SortedTexts
import CodeAtlas.Proofs.Syntax.Spans

/-!
# Well-formed records

The record of a tree with nested spans is well formed (`FileRecord.wellFormed_ofTree`): everything
that it lists lies in the file, members lie in their classes, what is found in the order of the
document is listed by lines, and the complexities add up.  What is recorded for a node has the lines
of the node, so all this is read off the places where the document walk comes to nodes.
-/

namespace CodeAtlas

open CodeAtlas.Syntax

/-- The lines from the first to the last one are lines of a file. -/
def LinesLieIn (lines first last : Int) : Prop := 1 ≤ first ∧ first ≤ last ∧ last ≤ lines

/-- What holds of the record of a class in a file with the given number of lines. -/
structure ClassRecord.WellFormed (lines : Int) (c : ClassRecord) : Prop where
  lines_lie : LinesLieIn lines c.line c.endLine
  method_lines_lie : ∀ m ∈ c.methods, LinesLieIn lines m.line m.endLine
  method_starts : ∀ m ∈ c.methods, c.line ≤ m.line ∧ m.line ≤ c.endLine
  property_starts : ∀ p ∈ c.properties, c.line ≤ p.line ∧ p.line ≤ c.endLine
  method_complexity : ∀ m ∈ c.methods, 1 ≤ m.complexity
  complexity_eq : c.complexity = integerSum (c.methods.map (·.complexity))

/-- What holds of the record of a file. -/
structure FileRecord.WellFormed (file : FileRecord) : Prop where
  function_lines_lie : ∀ f ∈ file.functions, LinesLieIn file.lines f.line f.endLine
  function_complexity : ∀ f ∈ file.functions, 1 ≤ f.complexity
  classes : ∀ c ∈ file.classes, c.WellFormed file.lines
  functions_inOrder : file.functions.Pairwise fun f g => f.line ≤ g.line
  classes_inOrder : file.classes.Pairwise fun c d => c.line ≤ d.line
  imports_inOrder : file.imports.Pairwise fun i j => i.line ≤ j.line
  cyclomatic_eq : file.complexity.cyclomatic = max 1 (integerSum (file.functions.map (·.complexity))
    + integerSum (file.classes.map (·.complexity)))
  cognitive_eq : file.complexity.cognitive = file.complexity.cyclomatic
  dependencies_nodup : file.dependencies.Nodup
  mem_dependencies : ∀ m, m ∈ file.dependencies ↔ ∃ i ∈ file.imports, i.module = m
  dependencies_inOrder : file.dependencies.Pairwise fun m n =>
    (file.imports.map (·.module)).idxOf m < (file.imports.map (·.module)).idxOf n

namespace Extraction

open CodeAtlas.Syntax.Node

/-! ### What is recorded for a node -/

theorem one_le_complexity (n : Node) : (1 : Int) ≤ n.complexity := by
  rw [complexity_eq]
  omega

theorem exists_of_mem_functionsAt {s : Site} {f : FunctionRecord} (h : f ∈ functionsAt s) :
    ∃ name, f = functionRecord s.node name := by
  unfold functionsAt at h
  cases hname : callableName? s with
  | none => simp [hname] at h
  | some name => exact ⟨name, by simpa [hname] using h⟩

theorem eq_of_mem_classesAt {s : Site} {c : ClassRecord} (h : c ∈ classesAt s) :
    c = classRecord s.node := by
  unfold classesAt at h
  split_ifs at h
  · exact List.mem_singleton.mp h
  · exact absurd h List.not_mem_nil

theorem line_of_mem_importsAt {s : Site} {i : ImportRecord} (h : i ∈ importsAt s) :
    i.line = s.node.line := by
  unfold importsAt at h
  split_ifs at h
  · exact absurd h List.not_mem_nil
  · cases hsource : s.node.child? .source with
    | none => simp [hsource] at h
    | some source =>
      rw [hsource] at h
      rw [List.mem_singleton.mp h]

/-- What is recorded in the order of the document walk, with the lines of the nodes, is listed by
lines. -/
theorem pairwise_line_flatMap {α : Type} {recordsAt : Site → List α} {line : α → Int}
    (hline : ∀ s, ∀ x ∈ recordsAt s, line x = s.node.line) {root : Node} (h : root.Nests) :
    (root.sites.flatMap recordsAt).Pairwise fun x y => line x ≤ line y := by
  refine List.pairwise_flatMap.mpr ⟨fun s _ => ?_, h.pairwise_sites.imp fun {s t} hle => ?_⟩
  · refine List.pairwise_of_forall_mem_list fun x hx y hy => ?_
    rw [hline s x hx, hline s y hy]
  · intro x hx y hy
    rw [hline s x hx, hline t y hy, Node.line, Node.line]
    omega

/-! ### Lines -/

/-- The lines of a node that lies in a tree are lines of the file. -/
theorem linesLieIn_of_liesWithin {n root : Node} (hn : n.Nests) (h : n.LiesWithin root) :
    LinesLieIn root.endLine n.line n.endLine := by
  have hspan : n.firstRow ≤ n.lastRow := hn.self.1
  have hlast : n.lastRow ≤ root.lastRow := h.2
  unfold LinesLieIn Node.line Node.endLine
  omega

/-- A node that lies in another begins on one of the lines of that. -/
theorem line_of_liesWithin {n outer : Node} (hn : n.Nests) (h : n.LiesWithin outer) :
    (outer.line : Int) ≤ n.line ∧ (n.line : Int) ≤ outer.endLine := by
  have hspan : n.firstRow ≤ n.lastRow := hn.self.1
  obtain ⟨hfirst, hlast⟩ := h
  unfold Node.line Node.endLine
  omega

theorem members_nest {class_ m : Node} (h : class_.Nests) (hm : m ∈ members class_) :
    m.Nests ∧ m.LiesWithin class_ := by
  unfold members at hm
  cases hbody : class_.child? .body with
  | none => simp [hbody] at hm
  | some body =>
    have hbodymem : body ∈ class_.children := List.mem_of_find?_eq_some hbody
    have hmem : m ∈ body.children := by
      rw [hbody] at hm
      exact List.mem_of_mem_filter hm
    have hnests : body.Nests := h.child hbodymem
    exact ⟨hnests.child hmem, (hnests.self.2.1 m hmem).trans (h.self.2.1 body hbodymem)⟩

theorem wellFormed_classRecord {class_ root : Node} (h : class_.Nests)
    (hroot : class_.LiesWithin root) : (classRecord class_).WellFormed root.endLine := by
  have hmethods : ∀ m ∈ (classRecord class_).methods, ∃ n ∈ members class_, m = methodRecord n := by
    intro m hm
    obtain ⟨n, hn, rfl⟩ := List.mem_map.mp hm
    exact ⟨n, List.mem_of_mem_filter hn, rfl⟩
  have hproperties : ∀ p ∈ (classRecord class_).properties,
      ∃ n ∈ members class_, p = propertyRecord n := by
    intro p hp
    obtain ⟨n, hn, rfl⟩ := List.mem_map.mp hp
    exact ⟨n, List.mem_of_mem_filter hn, rfl⟩
  refine ⟨linesLieIn_of_liesWithin h hroot, fun m hm => ?_, fun m hm => ?_, fun p hp => ?_,
    fun m hm => ?_, rfl⟩
  · obtain ⟨n, hn, rfl⟩ := hmethods m hm
    obtain ⟨hnests, hwithin⟩ := members_nest h hn
    exact linesLieIn_of_liesWithin hnests (hwithin.trans hroot)
  · obtain ⟨n, hn, rfl⟩ := hmethods m hm
    obtain ⟨hnests, hwithin⟩ := members_nest h hn
    exact line_of_liesWithin hnests hwithin
  · obtain ⟨n, hn, rfl⟩ := hproperties p hp
    obtain ⟨hnests, hwithin⟩ := members_nest h hn
    exact line_of_liesWithin hnests hwithin
  · obtain ⟨n, hn, rfl⟩ := hmethods m hm
    exact one_le_complexity n

end Extraction

namespace FileRecord

open Extraction

theorem ofTree_eq_ok_iff {path language : String} {size : Nat} {root : Node} {file : FileRecord} :
    ofTree path language size root = .ok file ↔
      ∃ c, Score.fileComplexity ((Findings.ofTree root).functions.map (·.complexity))
          ((Findings.ofTree root).classes.map (·.complexity)) root.endLine = .ok c ∧
        file = ⟨path, language, size, root.endLine, (Findings.ofTree root).functions,
          (Findings.ofTree root).classes, (Findings.ofTree root).imports,
          (Findings.ofTree root).exports, c,
          distinct ((Findings.ofTree root).imports.map (·.module)), none⟩ := by
  unfold ofTree
  exact bind_pure_eq_ok_iff

/-- A tree has a record unless the number of its lines or nodes is too large. -/
theorem exists_ofTree_eq_ok {path language : String} {size : Nat} {root : Node}
    (hlines : (Binary64.ofInt? root.endLine).isSome = true)
    (hsize : (Binary64.ofInt? root.size).isSome = true) :
    ∃ file, ofTree path language size root = .ok file := by
  have hpos : 1 ≤ root.size := by
    rw [Node.size_eq]
    omega
  have hle := sum_complexity_le_size root
  have hcyclomatic : (Binary64.ofInt?
      (max 1 (integerSum ((Findings.ofTree root).functions.map (·.complexity))
        + integerSum ((Findings.ofTree root).classes.map (·.complexity))))).isSome = true := by
    generalize integerSum ((Findings.ofTree root).functions.map (·.complexity))
      + integerSum ((Findings.ofTree root).classes.map (·.complexity)) = total at hle ⊢
    obtain ⟨n, hn⟩ := Int.eq_ofNat_of_zero_le (show 0 ≤ max 1 total by omega)
    rw [hn]
    exact Binary64.isSome_ofInt?_of_le (by omega) hsize
  obtain ⟨c, hc⟩ := Score.exists_fileComplexity_eq_ok hcyclomatic hlines
  exact ⟨_, ofTree_eq_ok_iff.mpr ⟨c, hc, rfl⟩⟩

/-- **Records are well formed.**  If the spans of a tree nest, then its record is well formed.  There
is a record unless the number of lines or that of the nodes is too large for a floating-point number.
-/
theorem wellFormed_ofTree (path language : String) (size : Nat) {root : Node} (h : root.Nests) :
    (∀ file, ofTree path language size root = .ok file → file.WellFormed) ∧
    ((Binary64.ofInt? root.endLine).isSome = true → (Binary64.ofInt? root.size).isSome = true →
      ∃ file, ofTree path language size root = .ok file) := by
  constructor
  · intro file hfile
    obtain ⟨c, hc, rfl⟩ := ofTree_eq_ok_iff.mp hfile
    obtain ⟨m, -, rfl⟩ := Score.fileComplexity_eq_ok_iff.mp hc
    have hfunctions : ∀ f ∈ (Findings.ofTree root).functions,
        ∃ s ∈ root.sites, ∃ name, f = functionRecord s.node name := by
      intro f hf
      obtain ⟨s, hs, hf⟩ := List.mem_flatMap.mp hf
      exact ⟨s, hs, exists_of_mem_functionsAt hf⟩
    refine
      { function_lines_lie := fun f hf => ?_
        function_complexity := fun f hf => ?_
        classes := fun c hc => ?_
        functions_inOrder := pairwise_line_flatMap (fun s f hf => ?_) h
        classes_inOrder := pairwise_line_flatMap (fun s c hc => ?_) h
        imports_inOrder := pairwise_line_flatMap (fun s i hi => line_of_mem_importsAt hi) h
        cyclomatic_eq := rfl
        cognitive_eq := rfl
        dependencies_nodup := nodup_eraseDups _
        mem_dependencies := fun m => ?_
        dependencies_inOrder := pairwise_idxOf_eraseDups _ }
    · obtain ⟨s, hs, name, rfl⟩ := hfunctions f hf
      obtain ⟨hnests, hwithin⟩ := h.of_mem_sites hs
      exact linesLieIn_of_liesWithin hnests hwithin
    · obtain ⟨s, hs, name, rfl⟩ := hfunctions f hf
      exact one_le_complexity s.node
    · obtain ⟨s, hs, hc⟩ := List.mem_flatMap.mp hc
      rw [eq_of_mem_classesAt hc]
      obtain ⟨hnests, hwithin⟩ := h.of_mem_sites hs
      exact wellFormed_classRecord hnests hwithin
    · obtain ⟨name, rfl⟩ := exists_of_mem_functionsAt hf
      rfl
    · rw [eq_of_mem_classesAt hc]
      rfl
    · show m ∈ distinct _ ↔ _
      rw [distinct, List.mem_eraseDups, List.mem_map]
  · exact exists_ofTree_eq_ok

/-- A file with an import on its first line, a class with a method and a field on the next six, and a
function on the last two. -/
def shapes : Node :=
  nodeOf .program none 0 8 "" [
    nodeOf .importStatement none 0 0 "" [nodeOf .string (some .source) 0 0 "'./base'" []],
    nodeOf .classDeclaration none 1 6 "" [
      nodeOf .identifier (some .name) 1 1 "Shape" [],
      nodeOf .classBody (some .body) 1 6 "" [
        nodeOf .methodDefinition none 2 4 "" [
          nodeOf .propertyIdentifier (some .name) 2 2 "area" [],
          nodeOf .statementBlock (some .body) 2 4 "" [nodeOf .ifStatement none 3 3 "" []]],
        nodeOf .fieldDefinition none 5 5 "" [
          nodeOf .propertyIdentifier (some .property) 5 5 "sides" []]]],
    nodeOf .functionDeclaration none 7 8 "" [
      nodeOf .identifier (some .name) 7 7 "draw" [],
      nodeOf .statementBlock (some .body) 7 8 "" []]]
where
  nodeOf (rule : Rule) (field : Option Field) (firstRow lastRow : Nat) (text : String)
      (children : List Node) : Node :=
    ⟨.rule rule, field, firstRow, lastRow, text, false, false, children⟩

/-- The file has a well-formed record, in which the method counts for the class. -/
theorem wellFormed_ofTree_shapes : shapes.Nests ∧
    ∃ file, ofTree "shapes.js" "js" 0 shapes = .ok file ∧ file.WellFormed ∧
      file.functions.map (·.line) = [8] ∧ file.classes.map (·.complexity) = [2] ∧
      file.dependencies = ["./base"] := by
  have hnests : shapes.Nests := by decide +kernel
  obtain ⟨hrecord, hexists⟩ := wellFormed_ofTree "shapes.js" "js" 0 hnests
  obtain ⟨file, hfile⟩ := hexists (by decide +kernel) (by decide +kernel)
  have hwellFormed := hrecord file hfile
  obtain ⟨c, -, rfl⟩ := ofTree_eq_ok_iff.mp hfile
  refine ⟨hnests, _, hfile, hwellFormed, ?_, ?_, ?_⟩
  · show (Findings.ofTree shapes).functions.map (·.line) = [8]
    decide +kernel
  · show (Findings.ofTree shapes).classes.map (·.complexity) = [2]
    decide +kernel
  · show distinct ((Findings.ofTree shapes).imports.map (·.module)) = ["./base"]
    decide +kernel

end FileRecord

end CodeAtlas
