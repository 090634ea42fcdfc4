import CodeAtlas.Proofs.Extraction.DocumentOrder

/-!
# Outlines

The outline of what has been found in a tree leaves out where it has been found: it keeps the names,
the parameters and the complexities of the functions, and the complexities of the classes.  The
complexity of a file depends on its outline only (`cyclomatic_eq`).

What is recorded at a site depends on little of the parent: the name of the variable that this may
declare, and whether it is an export default statement (`SamePlace`).
-/

namespace CodeAtlas.Extraction

open CodeAtlas.Syntax CodeAtlas.Syntax.Node

/-! ### Kinds of nodes -/

variable {n n' : Node} {rules rules' : List Rule}

theorem isAmong_congr (h : n.kind = n'.kind) (rules : List Rule) :
    n.isAmong rules = n'.isAmong rules := by
  rw [isAmong, isAmong, h]

theorem isRule_congr (h : n.kind = n'.kind) (r : Rule) : n.isRule r = n'.isRule r := by
  rw [isRule, isRule, h]

theorem isRule_eq_isAmong (n : Node) (r : Rule) : n.isRule r = n.isAmong [r] := by
  rw [Bool.eq_iff_iff, isRule_iff, isAmong_iff]
  simp

theorem isAmong_of_kind {r : Rule} (h : n.kind = .rule r) (hr : r ∈ rules) :
    n.isAmong rules = true := isAmong_iff.mpr ⟨r, hr, h⟩

theorem isAmong_mono (hsub : rules ⊆ rules') (h : n.isAmong rules = true) :
    n.isAmong rules' = true := by
  obtain ⟨r, hr, hk⟩ := isAmong_iff.mp h
  exact isAmong_of_kind hk (hsub hr)

theorem isAmong_eq_false (h : n.isAmong rules = true) (hdisjoint : ∀ r ∈ rules, r ∉ rules') :
    n.isAmong rules' = false := by
  rw [Bool.eq_false_iff]
  intro h'
  obtain ⟨r, hr, hk⟩ := isAmong_iff.mp h
  obtain ⟨r', hr', hk'⟩ := isAmong_iff.mp h'
  obtain rfl := Kind.rule.inj (hk.symm.trans hk')
  exact hdisjoint r hr hr'

theorem named_of_kind {r : Rule} (h : n.kind = .rule r) : n.named = true := by
  rw [named, h]
  rfl

theorem isScope_of_kind {r : Rule} (h : n.kind = .rule r) (hr : r ∉ scopeRules) :
    n.isScope = false :=
  isAmong_eq_false (isAmong_of_kind h (List.mem_singleton_self r)) fun s hs => by
    rwa [List.mem_singleton.mp hs]

/-! ### What is read of a parent -/

/-- The node is an export default statement. -/
def exportsByDefault (n : Node) : Bool := n.isRule .exportStatement && n.hasToken "default"

/-- The name of the variable that a node declares, if it is a plain one. -/
def declaredName? (n : Node) : Option String := do
  guard (n.isRule .variableDeclarator)
  let name ← n.child? .name
  guard (name.isRule .identifier && name.text != "")
  return name.text

theorem boundName?_eq (s : Site) : boundName? s
    = if s.node.field = some .value then s.parent.bind declaredName? else none := by
  unfold boundName? declaredName?
  cases s.parent with
  | none => simp
  | some p => by_cases hvalue : s.node.field = some .value <;> simp [hvalue]

theorem isDefaultExport_eq (s : Site) : isDefaultExport s = s.parent.any exportsByDefault := rfl

/-- Nothing is read of a node that neither declares a variable nor exports. -/
structure IsNeutral (n : Node) : Prop where
  declaredName_eq : declaredName? n = none
  exports_eq : exportsByDefault n = false

theorem isNeutral_of_isAmong (hn : n.isAmong rules = true)
    (hrules : ∀ r ∈ rules, r ≠ .variableDeclarator ∧ r ≠ .exportStatement) : IsNeutral n := by
  obtain ⟨r, hr, hk⟩ := isAmong_iff.mp hn
  obtain ⟨hdeclarator, hstatement⟩ := hrules r hr
  constructor
  · simp [declaredName?, isRule, hk, hdeclarator, guard, failure]
  · simp [exportsByDefault, isRule, hk, hstatement]

theorem isNeutral_of_kind {r : Rule} (hn : n.kind = .rule r)
    (hr : r ≠ .variableDeclarator ∧ r ≠ .exportStatement) : IsNeutral n :=
  isNeutral_of_isAmong (isAmong_of_kind hn (List.mem_singleton_self r)) fun s hs => by
    rwa [List.mem_singleton.mp hs]

/-- The places of two nodes do not tell them apart: the field that a node fills matters only if the
parent declares a variable, and the kind of the node only if the parent exports by default. -/
structure SamePlace (s s' : Site) : Prop where
  declaredName_eq : s.parent.bind declaredName? = s'.parent.bind declaredName?
  exported_eq : s.parent.any exportsByDefault = s'.parent.any exportsByDefault
  field_eq : s.node.field = s'.node.field ∨ s.parent.bind declaredName? = none
  kind_eq : s.node.kind = s'.node.kind ∨ s.parent.any exportsByDefault = false

theorem IsNeutral.samePlace {p p' : Node} (h : IsNeutral p) (h' : IsNeutral p') (n n' : Node) :
    SamePlace ⟨some p, n⟩ ⟨some p', n'⟩ where
  declaredName_eq := h.declaredName_eq.trans h'.declaredName_eq.symm
  exported_eq := h.exports_eq.trans h'.exports_eq.symm
  field_eq := Or.inr h.declaredName_eq
  kind_eq := Or.inr h.exports_eq

theorem SamePlace.isDefaultExport_eq {s s' : Site} (h : SamePlace s s') :
    isDefaultExport s = isDefaultExport s' := h.exported_eq

theorem SamePlace.boundName?_eq {s s' : Site} (h : SamePlace s s') :
    boundName? s = boundName? s' := by
  rw [Extraction.boundName?_eq, Extraction.boundName?_eq, ← h.declaredName_eq]
  rcases h.field_eq with hfield | hnone
  · rw [hfield]
  · rw [hnone, ite_self, ite_self]

/-! ### Classes -/

/-- The complexities of the methods among the named children of a node. -/
def methodScores (n : Node) : List Int :=
  (n.namedChildren.filter (·.isRule .methodDefinition)).map fun m => (m.complexity : Int)

theorem complexity_classRecord (c : Node) : (classRecord c).complexity
    = integerSum (((c.child? .body).map methodScores).getD []) := by
  have hscores : (classRecord c).complexity
      = integerSum ((((members c).filter (·.isRule .methodDefinition)).map methodRecord).map
        (·.complexity)) := rfl
  rw [hscores, members, List.map_map]
  cases c.child? .body <;> rfl

theorem isAmong_of_recordsClass {s : Site} (h : recordsClass s = true) :
    s.node.isAmong (declaredClassRules ++ [.classExpression]) = true := by
  rcases Bool.or_eq_true_iff.mp h with h | h
  · exact isAmong_mono (List.subset_append_left _ _) h
  · exact isAmong_of_kind (isRule_iff.mp (Bool.and_eq_true_iff.mp h).1) (by decide)

/-! ### Outlines -/

/-- What has been found, without the places: the names, parameters and complexities of the functions
and the complexities of the classes. -/
structure Outline where
  functions : List (String × List String × Int)
  classes : List Int
deriving DecidableEq

namespace Outline

/-- The outline of findings. -/
def of (found : Findings) : Outline :=
  ⟨found.functions.map fun f => (f.name, f.parameters, f.complexity),
    found.classes.map (·.complexity)⟩

/-- The outline of what is found in the part of a tree at a node with the given parent. -/
def ofPart (parent : Option Node) (n : Node) : Outline := of (Findings.ofPart ⟨parent, n⟩)

/-- Outlines one after the other. -/
def concat (os : List Outline) : Outline := ⟨os.flatMap (·.functions), os.flatMap (·.classes)⟩

/-- The complexity of a file whose findings have the outline. -/
def cyclomatic (o : Outline) : Int :=
  max 1 (integerSum (o.functions.map fun f => f.2.2) + integerSum o.classes)

theorem concat_cons (o : Outline) (os : List Outline) :
    concat (o :: os) = concat [o, concat os] := by
  simp [concat]

theorem concat_nil_cons (os : List Outline) : concat (concat [] :: os) = concat os := rfl

theorem concat_singleton (o : Outline) : concat [o] = o := by
  simp [concat]

theorem of_append (a b : Findings) : of (a ++ b) = concat [of a, of b] := by
  rw [Findings.append_eq]
  simp [of, concat]

theorem of_concat (fs : List Findings) : of (Findings.concat fs) = concat (fs.map of) := by
  rw [of, concat, Findings.concat, List.flatMap_map, List.flatMap_map, List.map_flatMap,
    List.map_flatMap]
  rfl

theorem ofPart_of_unnamed (h : n.named = false) (p : Option Node) : ofPart p n = concat [] := by
  rw [ofPart, Findings.ofPart_eq, if_neg (by rw [h]; exact Bool.false_ne_true)]
  rfl

/-- What has the outline of nothing may be left out. -/
theorem concat_map_filter {f : Node → Outline} {test : Node → Bool} {cs : List Node}
    (h : ∀ c ∈ cs, test c = false → f c = concat []) :
    concat (cs.map f) = concat ((cs.filter test).map f) := by
  induction cs with
  | nil => rfl
  | cons c cs ih =>
    have hrest := ih fun d hd => h d (List.mem_cons_of_mem c hd)
    rw [List.map_cons, List.filter_cons]
    split_ifs with htest
    · rw [List.map_cons, concat_cons, hrest, ← concat_cons]
    · rw [h c List.mem_cons_self (Bool.eq_false_of_not_eq_true htest), concat_nil_cons, hrest]

/-- The outline of a part of a tree is that of its first node and of the parts at the named children
of the node. -/
theorem ofPart_eq (h : n.named = true) (p : Option Node) : ofPart p n
    = concat [of (Findings.atSite ⟨p, n⟩), concat (n.namedChildren.map (ofPart (some n)))] := by
  rw [namedChildren, ← concat_map_filter fun c _ hc => ofPart_of_unnamed hc (some n), ofPart,
    Findings.ofPart_eq, if_pos h, of_append, of_concat, Site.below, List.map_map, List.map_map]
  rfl

/-- Nothing is recorded at a node that is no scope. -/
theorem of_atSite {s : Site} (h : s.node.isScope = false) :
    of (Findings.atSite s) = concat [] := by
  have hfunctions : functionsAt s = [] := by
    cases hname : callableName? s with
    | none => rw [functionsAt, hname]; rfl
    | some name =>
      have htrue := (isScope_of_callableName? (Option.isSome_of_mem hname)).1
      rw [h] at htrue
      exact absurd htrue Bool.false_ne_true
  -- classes are scopes too, whether they are declared or exported by default
  have hclasses : classesAt s = [] := by
    rw [classesAt, if_neg fun hclass => ?_]
    have htrue : s.node.isScope = true :=
      isAmong_mono (by decide) (isAmong_of_recordsClass hclass)
    rw [h] at htrue
    exact Bool.false_ne_true htrue
  rw [of, Findings.atSite, hfunctions, hclasses]
  rfl

end Outline

end CodeAtlas.Extraction
