import CodeAtlas.Extraction
import CodeAtlas.Proofs.Complexity.NearestScope

/-!
# Where the recorded functions, classes and methods are

`recordedFunctions`, `recordedClasses` and `recordedMethods` list the positions of what is recorded
of a tree, in the order of the records.  Functions and methods together are the callables; none of
them is recorded twice (`nodup_recordedCallables`), each has a score of its own
(`isScope_of_mem_recordedCallables`), and the complexities that are recorded are theirs
(`recordedComplexities_eq`).
-/

namespace CodeAtlas.Extraction

open CodeAtlas.Syntax CodeAtlas.Syntax.Node

theorem isAmong_iff {n : Node} {rules : List Rule} :
    n.isAmong rules = true ↔ ∃ r ∈ rules, n.kind = .rule r := by
  unfold isAmong
  cases n.kind with
  | token s => simp
  | rule r => simp

theorem isRule_iff {n : Node} {r : Rule} : n.isRule r = true ↔ n.kind = .rule r := by
  rw [isRule, beq_iff_eq]

/-- The complexity of the node at a position. -/
def complexityAt (root : Node) (p : Position) : Nat := ((root.at? p).map complexity).getD 0

theorem complexityAt_of_at? {root n : Node} {p : Position} (h : root.at? p = some n) :
    complexityAt root p = n.complexity := by
  rw [complexityAt, h, Option.map_some, Option.getD_some]

/-- What is recorded at most once for each element of a list is recorded for those that pass the
test. -/
theorem flatMap_eq_map_filter {α β : Type} {f : α → List β} {keep : α → Bool} {g : α → β}
    {xs : List α} (h : ∀ x ∈ xs, f x = if keep x then [g x] else []) :
    xs.flatMap f = (xs.filter keep).map g := by
  induction xs with
  | nil => rfl
  | cons x xs ih =>
    rw [List.flatMap_cons, h x List.mem_cons_self,
      ih fun y hy => h y (List.mem_cons_of_mem x hy), List.filter_cons]
    split_ifs <;> rfl

/-! ### Functions and classes -/

/-- The positions of the functions that are recorded. -/
def recordedFunctions (root : Node) : List Position :=
  root.visited.filter fun p => (callableName? (root.siteAt p)).isSome

/-- The positions of the classes that are recorded. -/
def recordedClasses (root : Node) : List Position :=
  root.visited.filter fun p => recordsClass (root.siteAt p)

/-- The walk comes to positions of the tree only. -/
theorem at?_of_mem_visited {root : Node} {p : Position} (hp : p ∈ root.visited) :
    root.at? p = some (root.siteAt p).node := by
  unfold visited at hp
  split_ifs at hp
  · obtain ⟨m, hm⟩ := (mem_reach.mp hp).at?_isSome
    rw [hm, siteAt, siteFrom_node hm]
  · exact absurd hp List.not_mem_nil

theorem nodup_visited (root : Node) : root.visited.Nodup := by
  unfold visited
  split_ifs
  · exact nodup_reach root
  · exact List.nodup_nil

/-- The scores of the functions, in the order of their positions. -/
theorem complexity_functions (root : Node) :
    (Findings.ofTree root).functions.map (·.complexity)
      = (recordedFunctions root).map fun p => (complexityAt root p : Int) := by
  have hfunctions : (Findings.ofTree root).functions = root.sites.flatMap functionsAt := rfl
  rw [hfunctions, sites_eq_map_visited, List.flatMap_map, List.map_flatMap, recordedFunctions]
  refine flatMap_eq_map_filter fun p hp => ?_
  rw [functionsAt, complexityAt_of_at? (at?_of_mem_visited hp)]
  cases callableName? (root.siteAt p) with
  | none => rfl
  | some name => rfl

/-- The classes are those at their positions. -/
theorem classes_eq (root : Node) :
    (Findings.ofTree root).classes
      = (recordedClasses root).map fun p => classRecord (root.siteAt p).node := by
  have hclasses : (Findings.ofTree root).classes = root.sites.flatMap classesAt := rfl
  rw [hclasses, sites_eq_map_visited, List.flatMap_map, recordedClasses]
  exact flatMap_eq_map_filter fun p _ => rfl

/-- A function that is recorded is a scope, and it is no method. -/
theorem isScope_of_callableName? {s : Site} (h : (callableName? s).isSome = true) :
    s.node.isScope = true ∧ s.node.isRule .methodDefinition = false := by
  have hrules : ∀ r ∈ declaredRules ++ expressionRules ++ [.arrowFunction],
      r ∈ scopeRules ∧ r ≠ .methodDefinition := by decide
  have hkind : ∃ r ∈ declaredRules ++ expressionRules ++ [.arrowFunction],
      s.node.kind = .rule r := by
    unfold callableName? at h
    dsimp only at h
    by_cases hdeclared : s.node.isAmong declaredRules = true
    · obtain ⟨r, hr, hk⟩ := isAmong_iff.mp hdeclared
      exact ⟨r, by simp [hr], hk⟩
    by_cases hexpression : s.node.isAmong expressionRules = true
    · obtain ⟨r, hr, hk⟩ := isAmong_iff.mp hexpression
      exact ⟨r, by simp [hr], hk⟩
    by_cases harrow : s.node.isRule .arrowFunction = true
    · exact ⟨.arrowFunction, by simp, isRule_iff.mp harrow⟩
    rw [if_neg hdeclared, if_neg hexpression, if_neg harrow] at h
    exact absurd h (by simp)
  obtain ⟨r, hr, hk⟩ := hkind
  obtain ⟨hscope, hmethod⟩ := hrules r hr
  refine ⟨isAmong_iff.mpr ⟨r, hscope, hk⟩, ?_⟩
  rw [isRule, hk]
  simpa using hmethod

/-! ### Methods -/

/-- The positions below a class of the methods that are recorded with it. -/
def methodsBelow (class_ : Node) : List Position :=
  match class_.body? with
  | none => []
  | some (body, b) =>
    (body.children.zipIdx.filter fun x => x.1.isRule .methodDefinition && x.1.named).map
      fun x => [b, x.2]

/-- The positions of the methods that are recorded. -/
def recordedMethods (root : Node) : List Position :=
  (recordedClasses root).flatMap fun p => (methodsBelow (root.siteAt p).node).map (p ++ ·)

theorem mem_methodsBelow {class_ : Node} {q : Position} (h : q ∈ methodsBelow class_) :
    ∃ m b i, class_.at? q = some m ∧ m.isRule .methodDefinition = true ∧ q = [b, i] := by
  unfold methodsBelow at h
  cases hbody : class_.body? with
  | none => simp [hbody] at h
  | some x =>
    obtain ⟨body, b⟩ := x
    rw [hbody] at h
    obtain ⟨⟨m, i⟩, hm, rfl⟩ := List.mem_map.mp h
    obtain ⟨hchild, htest⟩ := List.mem_filter.mp hm
    refine ⟨m, b, i, ?_, (Bool.and_eq_true_iff.mp htest).1, rfl⟩
    rw [← List.singleton_append, at?_append, at?_body hbody, Option.bind_some, at?_cons,
      List.mem_zipIdx_iff_getElem?.mp hchild]
    rfl

theorem nodup_methodsBelow (class_ : Node) : (methodsBelow class_).Nodup := by
  unfold methodsBelow
  cases class_.body? with
  | none => exact List.nodup_nil
  | some x =>
    have hinj : Function.Injective fun i : Nat => [x.2, i] := fun i j h => by simpa using h
    have hidx := (nodup_indices x.1.children).map hinj
    rw [List.map_map] at hidx
    exact hidx.sublist (List.filter_sublist.map _)

/-- The scores of the methods of a class, in the order of the positions of the methods. -/
theorem complexity_methods (class_ : Node) :
    (classRecord class_).methods.map (·.complexity)
      = (methodsBelow class_).map fun q => (complexityAt class_ q : Int) := by
  have hmethods : (classRecord class_).methods
      = ((members class_).filter (·.isRule .methodDefinition)).map methodRecord := rfl
  rw [hmethods, members, child?_body, methodsBelow]
  cases hbody : class_.body? with
  | none => rfl
  | some x =>
    obtain ⟨body, b⟩ := x
    dsimp only [Option.map_some, Option.getD_some]
    rw [List.map_map, namedChildren, List.filter_filter, List.map_map]
    conv_lhs => rw [← List.zipIdx_map_fst 0 body.children, List.filter_map, List.map_map]
    refine List.map_congr_left fun y hy => ?_
    have hchild := List.mem_zipIdx_iff_getElem?.mp (List.mem_of_mem_filter hy)
    have hat : class_.at? [b, y.2] = some y.1 := by
      rw [← List.singleton_append, at?_append, at?_body hbody, Option.bind_some, at?_cons, hchild]
      rfl
    rw [Function.comp, Function.comp, Function.comp, complexityAt, hat]
    rfl

/-! ### Callables -/

/-- The positions of the functions and methods that are recorded. -/
def recordedCallables (root : Node) : List Position :=
  recordedFunctions root ++ recordedMethods root

/-- The complexities of the functions and of the methods of the classes in findings. -/
def recordedComplexities (found : Findings) : List Int :=
  found.functions.map (·.complexity) ++ (found.classes.flatMap (·.methods)).map (·.complexity)

theorem mem_recordedMethods {root : Node} {p : Position} (h : p ∈ recordedMethods root) :
    ∃ m, root.at? p = some m ∧ m.isRule .methodDefinition = true := by
  obtain ⟨q, hq, hp⟩ := List.mem_flatMap.mp h
  obtain ⟨r, hr, rfl⟩ := List.mem_map.mp hp
  obtain ⟨m, -, -, hm, hmethod, -⟩ := mem_methodsBelow hr
  refine ⟨m, ?_, hmethod⟩
  rw [at?_append, at?_of_mem_visited (List.mem_of_mem_filter hq), Option.bind_some, hm]

/-- A callable that is recorded has a score of its own. -/
theorem isScope_of_mem_recordedCallables {root : Node} {p : Position}
    (h : p ∈ recordedCallables root) : ∃ m, root.at? p = some m ∧ m.isScope = true := by
  rcases List.mem_append.mp h with h | h
  · obtain ⟨hvisited, hname⟩ := List.mem_filter.mp h
    exact ⟨_, at?_of_mem_visited hvisited, (isScope_of_callableName? hname).1⟩
  · obtain ⟨m, hm, hmethod⟩ := mem_recordedMethods h
    exact ⟨m, hm, isAmong_iff.mpr ⟨.methodDefinition, by decide, isRule_iff.mp hmethod⟩⟩

theorem nodup_recordedMethods (root : Node) : (recordedMethods root).Nodup := by
  refine List.nodup_flatMap.mpr ⟨fun p _ => ?_, ?_⟩
  · exact (nodup_methodsBelow _).map fun q q' => List.append_cancel_left
  · -- a method lies two steps below its class, so methods at one position have one class
    refine ((nodup_visited root).filter _).imp fun {p p'} hne d hd hd' => hne ?_
    obtain ⟨q, hq, rfl⟩ := List.mem_map.mp hd
    obtain ⟨q', hq', heq⟩ := List.mem_map.mp hd'
    obtain ⟨-, b, i, -, -, rfl⟩ := mem_methodsBelow hq
    obtain ⟨-, b', i', -, -, rfl⟩ := mem_methodsBelow hq'
    exact (List.append_inj_left' heq rfl).symm

/-- No callable is recorded twice. -/
theorem nodup_recordedCallables (root : Node) : (recordedCallables root).Nodup := by
  refine List.nodup_append.mpr ⟨(nodup_visited root).filter _, nodup_recordedMethods root, ?_⟩
  intro p hp q hq hpq
  obtain ⟨hvisited, hname⟩ := List.mem_filter.mp hp
  obtain ⟨m, hm, hmethod⟩ := mem_recordedMethods (hpq ▸ hq)
  rw [at?_of_mem_visited hvisited] at hm
  rw [← Option.some.inj hm, (isScope_of_callableName? hname).2] at hmethod
  exact Bool.noConfusion hmethod

/-- The complexities that are recorded of a tree are those of the nodes at the positions of the
callables, in the same order. -/
theorem recordedComplexities_eq (root : Node) :
    recordedComplexities (Findings.ofTree root)
      = (recordedCallables root).map fun p => (complexityAt root p : Int) := by
  rw [recordedComplexities, recordedCallables, List.map_append, complexity_functions, classes_eq,
    List.flatMap_map, List.map_flatMap, recordedMethods, List.map_flatMap]
  refine congrArg _ (List.flatMap_congr fun p hp => ?_)
  rw [complexity_methods, List.map_map]
  refine List.map_congr_left fun q _ => ?_
  rw [Function.comp, complexityAt, complexityAt, at?_append,
    at?_of_mem_visited (List.mem_of_mem_filter hp), Option.bind_some]

end CodeAtlas.Extraction
