import CodeAtlas.Proofs.Extraction.Recorded

/-!
# Exports lead to what is recorded

An export statement and the declaration that it gives away are two nodes of the tree, and the walk
records the export at the one and the function or class at the other.  `GivesAway` ties the two
sites together.  An export of a function or class comes from a declaration that is given away
(`mem_exportsAt_cases`); the walk comes from the statement to the declaration, so that is recorded
too (`functionRecord_mem`, `classRecord_mem`).  Both records have the name and the line of the
declaration, wherever the statement stands (`exports_recorded`).
-/

namespace CodeAtlas.Extraction

open CodeAtlas.Syntax CodeAtlas.Syntax.Node

/-- The site is an export statement that gives away the declaration, which has the name. -/
structure GivesAway (s : Site) (declaration name : Node) : Prop where
  isStatement : s.node.isRule .exportStatement = true
  declaration_eq : s.node.child? .declaration = some declaration
  name_eq : declaration.child? .name = some name

/-- The export of a declaration under its name. -/
def exportOf (declaration name : Node) (kind : ExportKind) : ExportRecord :=
  ⟨name.text, declaration.line, kind⟩

variable {root d n : Node} {s : Site} {e : ExportRecord}

/-! ### What is behind an export -/

/-- Functions and classes are exported under their names, and everything else as a binding. -/
theorem mem_declaredExports_cases (he : e ∈ declaredExports d) :
    (∃ n, d.child? .name = some n ∧
      (d.isAmong declaredRules = true ∧ e = exportOf d n .function ∨
        d.isAmong declaredClassRules = true ∧ e = exportOf d n .classType)) ∨
    e.kind = .binding := by
  have hnamed : ∀ kind, e ∈ ((d.child? .name).map (exportOf d · kind)).toList →
      ∃ n, d.child? .name = some n ∧ e = exportOf d n kind := by
    intro kind hmem
    obtain ⟨n, hn, heq⟩ := Option.map_eq_some_iff.mp (Option.mem_toList.mp hmem)
    exact ⟨n, hn, heq.symm⟩
  unfold declaredExports at he
  dsimp only at he
  split_ifs at he with hfunction hclass htype hvariable
  · obtain ⟨n, hn, heq⟩ := hnamed _ he
    exact Or.inl ⟨n, hn, Or.inl ⟨hfunction, heq⟩⟩
  · obtain ⟨n, hn, heq⟩ := hnamed _ he
    exact Or.inl ⟨n, hn, Or.inr ⟨hclass, heq⟩⟩
  · obtain ⟨n, -, rfl⟩ := hnamed _ he
    exact Or.inr rfl
  · obtain ⟨declarator, -, hfound⟩ := List.mem_filterMap.mp he
    split at hfound
    · split_ifs at hfound
      obtain rfl := Option.some.inj hfound
      exact Or.inr rfl
    · exact nomatch hfound
  · exact absurd he List.not_mem_nil

/-- An export is one by default, one of a binding, or that of a declaration that is given away. -/
theorem mem_exportsAt_cases (he : e ∈ exportsAt s) :
    e.kind = .byDefault ∨ e.kind = .binding ∨
    ∃ d n, GivesAway s d n ∧
      (d.isAmong declaredRules = true ∧ e = exportOf d n .function ∨
        d.isAmong declaredClassRules = true ∧ e = exportOf d n .classType) := by
  unfold exportsAt at he
  dsimp only at he
  split_ifs at he with hstatement hdefault
  · exact absurd he List.not_mem_nil
  · -- whatever is exported by default, it is one export
    refine Or.inl ?_
    split at he
    · rw [List.mem_singleton.mp he]
    · rw [List.mem_singleton.mp he]
  · refine Or.inr ?_
    rw [Bool.not_eq_true', Bool.not_eq_false] at hstatement
    cases hdeclaration : s.node.child? .declaration with
    | some d =>
      rw [hdeclaration] at he
      rcases mem_declaredExports_cases he with ⟨n, hn, h⟩ | h
      · exact Or.inr ⟨d, n, ⟨hstatement, hdeclaration, hn⟩, h⟩
      · exact Or.inl h
    | none =>
      rw [hdeclaration] at he
      dsimp only at he
      split at he
      · obtain ⟨entry, -, hfound⟩ := List.mem_filterMap.mp he
        obtain ⟨name, -, rfl⟩ := Option.map_eq_some_iff.mp hfound
        exact Or.inl rfl
      · exact absurd he List.not_mem_nil

theorem not_isAmong_declaredRules (hd : d.isAmong declaredClassRules = true) :
    ¬d.isAmong declaredRules = true := by
  have hdisjoint : ∀ r ∈ declaredClassRules, r ∉ declaredRules := by decide
  obtain ⟨r, hr, hkind⟩ := isAmong_iff.mp hd
  intro h
  obtain ⟨r', hr', hkind'⟩ := isAmong_iff.mp h
  obtain rfl := Kind.rule.inj (hkind.symm.trans hkind')
  exact hdisjoint r hr hr'

namespace GivesAway

/-- A declaration that is given away is all that its statement exports. -/
theorem exportsAt_eq (h : GivesAway s d n) {kind : ExportKind}
    (hkind : declaredExports d = [exportOf d n kind]) :
    exportsAt s = [exportOf d n (if s.node.hasToken "default" then .byDefault else kind)] := by
  unfold exportsAt
  rw [h.isStatement, h.declaration_eq]
  show (if s.node.hasToken "default" = true then
      [⟨((d.child? .name).map (·.text)).getD "default", d.line, .byDefault⟩]
    else declaredExports d) = _
  rw [h.name_eq, hkind]
  split_ifs <;> rfl

theorem declaredExports_function (h : GivesAway s d n) (hd : d.isAmong declaredRules = true) :
    declaredExports d = [exportOf d n .function] := by
  unfold declaredExports
  rw [if_pos hd, h.name_eq]
  rfl

theorem declaredExports_class (h : GivesAway s d n) (hd : d.isAmong declaredClassRules = true) :
    declaredExports d = [exportOf d n .classType] := by
  unfold declaredExports
  rw [if_neg (not_isAmong_declaredRules hd), if_pos hd, h.name_eq]
  rfl

end GivesAway

/-! ### What is recorded of a declaration -/

/-- The walk comes from an export statement to the declaration that it gives away. -/
theorem GivesAway.mem_sites (h : GivesAway s d n) (hs : s ∈ root.sites) (hnamed : d.named = true) :
    ⟨some s.node, d⟩ ∈ root.sites :=
  mem_sites_child hs (List.mem_of_find?_eq_some h.declaration_eq) hnamed

theorem named_of_isAmong {rules : List Rule} (h : d.isAmong rules = true) : d.named = true := by
  obtain ⟨r, -, hkind⟩ := isAmong_iff.mp h
  rw [Node.named, hkind]
  rfl

theorem functionRecord_mem (hs : s ∈ root.sites) (h : GivesAway s d n)
    (hd : d.isAmong declaredRules = true) :
    functionRecord d n.text ∈ (Findings.ofTree root).functions := by
  refine List.mem_flatMap.mpr ⟨_, h.mem_sites hs (named_of_isAmong hd), ?_⟩
  have hname : callableName? ⟨some s.node, d⟩ = some n.text := by
    unfold callableName?
    dsimp only
    rw [if_pos hd, h.name_eq]
    rfl
  rw [functionsAt, hname]
  exact List.mem_singleton.mpr rfl

theorem classRecord_mem (hs : s ∈ root.sites) (h : GivesAway s d n)
    (hd : d.isAmong declaredClassRules = true) :
    classRecord d ∈ (Findings.ofTree root).classes ∧ (classRecord d).name = n.text := by
  constructor
  · refine List.mem_flatMap.mpr ⟨_, h.mem_sites hs (named_of_isAmong hd), ?_⟩
    have hrecords : recordsClass ⟨some s.node, d⟩ = true := by
      rw [recordsClass, hd, Bool.true_or]
    rw [classesAt, if_pos hrecords]
    exact List.mem_singleton.mpr rfl
  · show ((d.child? .name).map (·.text)).getD anonymousName = n.text
    rw [h.name_eq]
    rfl

/-! ### Exports and records -/

/-- There is a recorded function of the name that begins on the line. -/
def RecordsFunction (found : Findings) (name : String) (line : Int) : Prop :=
  ∃ f ∈ found.functions, f.name = name ∧ f.line = line

/-- There is a recorded class of the name that begins on the line. -/
def RecordsClass (found : Findings) (name : String) (line : Int) : Prop :=
  ∃ c ∈ found.classes, c.name = name ∧ c.line = line

theorem recordsFunction_of_givesAway (hs : s ∈ root.sites) (h : GivesAway s d n)
    (hd : d.isAmong declaredRules = true) :
    RecordsFunction (Findings.ofTree root) n.text d.line :=
  ⟨_, functionRecord_mem hs h hd, rfl, rfl⟩

theorem recordsClass_of_givesAway (hs : s ∈ root.sites) (h : GivesAway s d n)
    (hd : d.isAmong declaredClassRules = true) :
    RecordsClass (Findings.ofTree root) n.text d.line := by
  obtain ⟨hmem, hname⟩ := classRecord_mem hs h hd
  exact ⟨_, hmem, hname, rfl⟩

/-- **Exports lead to what is recorded.**  For every export of a function there is a recorded
function of its name and line, and for every export of a class a recorded class.  And if an export
statement gives away a function or class declaration with a name, by default or not, then it exports
that name, with the line of the declaration, and nothing else; and there is a recorded function or
class of that name and line. -/
theorem exports_recorded (root : Node) :
    (∀ e ∈ (Findings.ofTree root).exports,
      (e.kind = .function → RecordsFunction (Findings.ofTree root) e.name e.line) ∧
      (e.kind = .classType → RecordsClass (Findings.ofTree root) e.name e.line)) ∧
    ∀ s ∈ root.sites, ∀ d n, GivesAway s d n →
      (d.isAmong declaredRules = true →
        exportsAt s
          = [⟨n.text, d.line, if s.node.hasToken "default" then .byDefault else .function⟩] ∧
        RecordsFunction (Findings.ofTree root) n.text d.line) ∧
      (d.isAmong declaredClassRules = true →
        exportsAt s
          = [⟨n.text, d.line, if s.node.hasToken "default" then .byDefault else .classType⟩] ∧
        RecordsClass (Findings.ofTree root) n.text d.line) := by
  constructor
  · intro e he
    obtain ⟨s, hs, he⟩ := List.mem_flatMap.mp he
    rcases mem_exportsAt_cases he with hkind | hkind | ⟨d, n, h, ⟨hd, rfl⟩ | ⟨hd, rfl⟩⟩
    · rw [hkind]
      exact ⟨ExportKind.noConfusion, ExportKind.noConfusion⟩
    · rw [hkind]
      exact ⟨ExportKind.noConfusion, ExportKind.noConfusion⟩
    · exact ⟨fun _ => recordsFunction_of_givesAway hs h hd, ExportKind.noConfusion⟩
    · exact ⟨ExportKind.noConfusion, fun _ => recordsClass_of_givesAway hs h hd⟩
  · intro s hs d n h
    constructor
    · intro hd
      exact ⟨h.exportsAt_eq (h.declaredExports_function hd), recordsFunction_of_givesAway hs h hd⟩
    · intro hd
      exact ⟨h.exportsAt_eq (h.declaredExports_class hd), recordsClass_of_givesAway hs h hd⟩

/-- A module in which a namespace gives a function away, and which itself gives away a class by
default. -/
def nestedExport : Node :=
  nodeOf .program none 0 "" [
    nodeOf .internalModule none 0 "" [
      nodeOf .statementBlock (some .body) 0 "" [
        nodeOf .exportStatement none 1 "" [
          nodeOf .functionDeclaration (some .declaration) 1 "" [
            nodeOf .identifier (some .name) 1 "draw" []]]]],
    defaultStatement]
where
  nodeOf (rule : Rule) (field : Option Field) (row : Nat) (text : String) (children : List Node) :
      Node :=
    ⟨.rule rule, field, row, row, text, false, false, children⟩
  shapeName : Node := nodeOf .typeIdentifier (some .name) 4 "Shape" []
  shapeClass : Node := nodeOf .classDeclaration (some .declaration) 4 "" [shapeName]
  defaultStatement : Node :=
    nodeOf .exportStatement none 3 "" [
      ⟨.token "default", none, 3, 3, "default", false, false, []⟩, shapeClass]

/-- The function is recorded although its export is nested, and the class with the line on which it
begins itself. -/
theorem exports_recorded_nested :
    (Findings.ofTree nestedExport).exports = [⟨"draw", 2, .function⟩, ⟨"Shape", 5, .byDefault⟩] ∧
    RecordsFunction (Findings.ofTree nestedExport) "draw" 2 ∧
    RecordsClass (Findings.ofTree nestedExport) "Shape" 5 := by
  have hexports : (Findings.ofTree nestedExport).exports
      = [⟨"draw", 2, .function⟩, ⟨"Shape", 5, .byDefault⟩] := by
    decide +kernel
  obtain ⟨hkinds, hgivenAway⟩ := exports_recorded nestedExport
  have hsite : ⟨some nestedExport, nestedExport.defaultStatement⟩ ∈ nestedExport.sites := by
    have hroot : ⟨none, nestedExport⟩ ∈ nestedExport.sites := by
      rw [sites_eq_preorder]
      exact mem_preorder_self rfl none
    exact mem_sites_child hroot (List.mem_cons_of_mem _ List.mem_cons_self) rfl
  have hgiven : GivesAway ⟨some nestedExport, nestedExport.defaultStatement⟩ nestedExport.shapeClass
      nestedExport.shapeName := ⟨rfl, rfl, rfl⟩
  refine ⟨hexports, ?_, ?_⟩
  · have hmem : ⟨"draw", 2, .function⟩ ∈ (Findings.ofTree nestedExport).exports := by
      rw [hexports]
      exact List.mem_cons_self
    exact (hkinds _ hmem).1 rfl
  · exact ((hgivenAway _ hsite _ _ hgiven).2 rfl).2

end CodeAtlas.Extraction
