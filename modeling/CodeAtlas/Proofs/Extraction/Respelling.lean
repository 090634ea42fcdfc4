import CodeAtlas.Proofs.Extraction.Outline
import Mathlib.Data.List.Forall2

/-!
# Callables in another spelling

`Respelled` relates a tree to those in which unnamed function expressions have become arrow
functions with the same parameters and the same body.  The list of a single parameter may lose its
parentheses and a body that returns a value may become this value; everything else may move to other
lines, but keeps its kind, its field and its names.

What the spelling does not change of a node, by cases on the relation: the tests of kinds that treat
callables alike, the decision points, the complexity and the names of the parameters.
-/

namespace CodeAtlas.Syntax.Node

/-- The tree with another node at a position. -/
def replace : Node → Position → Node → Node
  | _, [], m => m
  | n, i :: p, m =>
    match n.children[i]? with
    | some c => { n with children := n.children.set i (c.replace p m) }
    | none => n

theorem replace_cons {n c : Node} {i : Nat} (h : n.children[i]? = some c) (p : Position)
    (m : Node) :
    n.replace (i :: p) m = { n with children := n.children.set i (c.replace p m) } := by
  rw [replace, h]

end CodeAtlas.Syntax.Node

namespace CodeAtlas.Extraction

open CodeAtlas.Syntax CodeAtlas.Syntax.Node

/-! ### The two spellings -/

/-- Besides tokens, the node consists of one child. -/
structure Wraps (n c : Node) : Prop where
  namedChildren_eq : n.namedChildren = [c]
  tokens : ∀ t ∈ n.children, t.named = false → t.field = none ∧ t.children = []

/-- The node is a plain name that reads as given. -/
structure IsName (n : Node) (text : String) : Prop where
  rule : n.kind = .rule .identifier
  leaf : n.children = []
  text_eq : n.text = text

/-- The parameters in parentheses are the one name that stands without them. -/
structure ListsOnly (parameters single : Node) : Prop where
  rule : parameters.kind = .rule .formalParameters
  single_isName : IsName single single.text
  parameter : ∃ p, Wraps parameters p ∧ (IsName p single.text ∨
    p.kind = .rule .requiredParameter ∧ ∃ n, Wraps p n ∧ n.field = some .pattern ∧
      IsName n single.text)

/-- The block does nothing but return the value. -/
structure Returns (block value : Node) : Prop where
  block_rule : block.kind = .rule .statementBlock
  statement : ∃ r, Wraps block r ∧ r.kind = .rule .returnStatement ∧ Wraps r value

/-- The parts of a callable: its parameters, its body and what else rules have built. -/
structure HasParts (n : Node) (before : List Node) (parameters : Node) (between : List Node)
    (body : Node) (after : List Node) : Prop where
  namedChildren_eq : n.namedChildren = before ++ parameters :: (between ++ body :: after)
  body_field : body.field = some .body
  others : ∀ c ∈ before ++ between ++ after, c.field = none
  noMethods : ∀ c ∈ n.namedChildren, c.isRule .methodDefinition = false
  tokens : ∀ c ∈ n.children, c.named = false → c.field = none

mutual
/-- The trees are alike, but unnamed functions of the first one may be arrow functions in the second
one.  What is exported by default is of one kind in both. -/
inductive Respelled : Node → Node → Prop
  | node {n n' : Node} (kind_eq : n.kind = n'.kind)
      (text_eq : n.kind = .rule .identifier → n.text = n'.text)
      (exported : exportsByDefault n = true → n.children.map (·.kind) = n'.children.map (·.kind))
      (children : List.Forall₂ SameChild n.children n'.children) : Respelled n n'
  | arrow {f a : Node} {before between after before' between' after' : List Node}
      {parameters body parameters' body' : Node}
      (function : f.isAmong expressionRules = true) (arrow : a.kind = .rule .arrowFunction)
      (field : f.field ≠ some .parameters)
      (parts : HasParts f before parameters between body after)
      (parts' : HasParts a before' parameters' between' body' after')
      (sameBefore : List.Forall₂ Respelled before before')
      (sameParameters : SameParameters parameters parameters')
      (sameBetween : List.Forall₂ Respelled between between')
      (sameBody : SameBody body body')
      (sameAfter : List.Forall₂ Respelled after after') : Respelled f a

/-- Children that play the same part and, where a name is read off them, read the same. -/
inductive SameChild : Node → Node → Prop
  | mk {c c' : Node} (field_eq : c.field = c'.field)
      (text_eq : c.field = some .name ∨ c.field = some .parameter → c.text = c'.text)
      (same : Respelled c c') : SameChild c c'

/-- The parameters are listed alike, or the only one of a function stands without parentheses in
the arrow function. -/
inductive SameParameters : Node → Node → Prop
  | list {p p' : Node} (field : p.field = some .parameters) (field' : p'.field = some .parameters)
      (same : Respelled p p') : SameParameters p p'
  | single {p p' : Node} (field : p.field = some .parameters) (field' : p'.field = some .parameter)
      (only : ListsOnly p p') : SameParameters p p'

/-- The bodies are alike, or the value that the one of the function returns is that of the arrow
function. -/
inductive SameBody : Node → Node → Prop
  | block {b b' : Node} (same : Respelled b b') : SameBody b b'
  | value {b e e' : Node} (returns : Returns b e) (same : Respelled e e') : SameBody b e'
end

/-- A tree is one of its respellings. -/
theorem Respelled.refl (n : Node) : Respelled n n := by
  induction n using children_induction with
  | step n ih =>
  exact .node rfl (fun _ => rfl) (fun _ => rfl)
    (List.forall₂_same.mpr fun c hc => .mk rfl (fun _ => rfl) (ih c hc))

theorem SameChild.refl (c : Node) : SameChild c c := .mk rfl (fun _ => rfl) (Respelled.refl c)

/-! ### Kinds -/

/-- The rules of the callables that may be spelled otherwise. -/
def respelledRules : List Rule := expressionRules ++ [.arrowFunction]

theorem expressionRules_subset : expressionRules ⊆ respelledRules := List.subset_append_left _ _

variable {n n' : Node}

theorem Respelled.kind_cases (h : Respelled n n') : n.kind = n'.kind ∨
    ∃ r ∈ respelledRules, ∃ r' ∈ respelledRules, n.kind = .rule r ∧ n'.kind = .rule r' := by
  cases h with
  | node hkind => exact Or.inl hkind
  | arrow hfunction harrow =>
    obtain ⟨r, hr, hkind⟩ := isAmong_iff.mp hfunction
    exact Or.inr ⟨r, expressionRules_subset hr, .arrowFunction, by decide, hkind, harrow⟩

/-- A test of kinds that does not tell the spellings apart holds of both nodes or of none. -/
theorem Respelled.test_eq (h : Respelled n n') (test : Kind → Bool) (htest : ∀ r ∈ respelledRules,
    ∀ r' ∈ respelledRules, test (.rule r) = test (.rule r')) : test n.kind = test n'.kind := by
  rcases h.kind_cases with hkind | ⟨r, hr, r', hr', hkind, hkind'⟩
  · rw [hkind]
  · rw [hkind, hkind', htest r hr r' hr']

theorem Respelled.named_eq (h : Respelled n n') : n.named = n'.named :=
  h.test_eq Kind.named fun _ _ _ _ => rfl

theorem Respelled.isToken_eq (h : Respelled n n') (s : String) : n.isToken s = n'.isToken s :=
  h.test_eq (· == .token s) fun _ _ _ _ => rfl

theorem Respelled.isAmong_eq (h : Respelled n n') {rules : List Rule}
    (hrules : ∀ r ∈ respelledRules, ∀ r' ∈ respelledRules, rules.contains r = rules.contains r') :
    n.isAmong rules = n'.isAmong rules := by
  rcases h.kind_cases with hkind | ⟨r, hr, r', hr', hkind, hkind'⟩
  · exact isAmong_congr hkind rules
  · rw [isAmong, isAmong, hkind, hkind']
    exact hrules r hr r' hr'

theorem Respelled.isRule_eq (h : Respelled n n') {r : Rule} (hr : r ∉ respelledRules) :
    n.isRule r = n'.isRule r := by
  have hne : ∀ s ∈ respelledRules, [r].contains s = false := fun s hs => by
    rw [List.contains_eq_mem, decide_eq_false_iff_not, List.mem_singleton]
    rintro rfl
    exact hr hs
  rw [isRule_eq_isAmong, isRule_eq_isAmong,
    h.isAmong_eq fun s hs s' hs' => (hne s hs).trans (hne s' hs').symm]

theorem Respelled.isScope_eq (h : Respelled n n') : n.isScope = n'.isScope :=
  h.isAmong_eq (by decide)

/-! ### Children -/

theorem SameChild.field_eq {c c' : Node} : SameChild c c' → c.field = c'.field
  | mk hfield _ _ => hfield

theorem SameChild.text_eq {c c' : Node} :
    SameChild c c' → c.field = some .name ∨ c.field = some .parameter → c.text = c'.text
  | mk _ htext _ => htext

theorem SameChild.same {c c' : Node} : SameChild c c' → Respelled c c'
  | mk _ _ hsame => hsame

theorem find?_field_cases {cs cs' : List Node} (h : List.Forall₂ SameChild cs cs') (f : Field) :
    (cs.find? (·.field == some f) = none ∧ cs'.find? (·.field == some f) = none) ∨
      ∃ c c', cs.find? (·.field == some f) = some c ∧ cs'.find? (·.field == some f) = some c' ∧
        SameChild c c' := by
  induction h with
  | nil => exact Or.inl ⟨rfl, rfl⟩
  | @cons c c' cs cs' hc _ ih =>
    rw [List.find?_cons, List.find?_cons, ← hc.field_eq]
    cases c.field == some f with
    | true => exact Or.inr ⟨c, c', rfl, rfl, hc⟩
    | false => exact ih

/-- A field is filled by children that are alike, or not at all. -/
theorem child?_cases (h : List.Forall₂ SameChild n.children n'.children) (f : Field) :
    (n.child? f = none ∧ n'.child? f = none) ∨
      ∃ c c', n.child? f = some c ∧ n'.child? f = some c' ∧ SameChild c c' :=
  find?_field_cases h f

theorem mem_of_child? {f : Field} {c : Node} (h : n.child? f = some c) :
    c ∈ n.children ∧ c.field = some f := by
  refine ⟨List.mem_of_find?_eq_some h, ?_⟩
  simpa using List.find?_some h

/-- What is the same of each two elements of two lists is the same of the lists. -/
theorem map_eq_map_of_forall₂ {α : Type} {R : Node → Node → Prop} {f g : Node → α}
    {cs cs' : List Node} (h : List.Forall₂ R cs cs')
    (heq : ∀ c ∈ cs, ∀ c', R c c' → f c = g c') : cs.map f = cs'.map g := by
  rw [← List.forall₂_eq_eq_eq, List.forall₂_map_left_iff, List.forall₂_map_right_iff]
  have hmem := (List.forall₂_and_left cs cs').mpr ⟨fun _ hc => hc, h⟩
  exact hmem.imp fun c c' hc => heq c hc.1 c' hc.2

theorem forall₂_filter {R : Node → Node → Prop} {cs cs' : List Node} (h : List.Forall₂ R cs cs')
    {test : Node → Bool} (htest : ∀ {c c'}, R c c' → test c = test c') :
    List.Forall₂ R (cs.filter test) (cs'.filter test) :=
  List.rel_filter (fun _ _ hc => Bool.eq_iff_iff.mp (htest hc)) h

theorem forall₂_namedChildren (h : List.Forall₂ SameChild n.children n'.children) :
    List.Forall₂ SameChild n.namedChildren n'.namedChildren :=
  forall₂_filter h fun hc => hc.same.named_eq

/-! ### Decision points -/

theorem isLogical_eq (hkind : n.kind = n'.kind)
    (hchildren : List.Forall₂ SameChild n.children n'.children) : n.isLogical = n'.isLogical := by
  rw [isLogical, isLogical, isRule_congr hkind]
  rcases child?_cases hchildren .operator with ⟨hn, hn'⟩ | ⟨c, c', hn, hn', hc⟩
  · rw [hn, hn']
  · rw [hn, hn', Option.any_some, Option.any_some, hc.same.isToken_eq, hc.same.isToken_eq]

/-- Outside scopes, both trees have as many decision points. -/
theorem Respelled.decisions_eq (h : Respelled n n') (hscope : n.isScope = false) :
    n.decisions = n'.decisions := by
  induction n using children_induction generalizing n' with
  | step n ih =>
  cases h with
  | arrow hfunction =>
    rw [isScope, isAmong_mono (by decide) hfunction] at hscope
    exact absurd hscope Bool.true_eq_false_eq_False
  | node hkind _ _ hchildren =>
    have hdecision : n.isDecision = n'.isDecision := by
      rw [isDecision, isDecision, isLogical_eq hkind hchildren, isAmong_congr hkind]
    rw [Node.decisions_eq, Node.decisions_eq, hdecision]
    refine congrArg (_ + List.sum ·) (map_eq_map_of_forall₂ hchildren fun c hc c' hcc' => ?_)
    rw [← hcc'.same.isScope_eq]
    split_ifs with hinner
    · rfl
    · exact ih c hc hcc'.same (Bool.eq_false_of_not_eq_true hinner)

/-- What adds nothing for tokens adds up over the named children. -/
theorem sum_map_children {g : Node → Nat} (hg : ∀ t ∈ n.children, t.named = false → g t = 0) :
    (n.children.map g).sum = (n.namedChildren.map g).sum := by
  rw [namedChildren]
  generalize n.children = cs at hg ⊢
  induction cs with
  | nil => rfl
  | cons c cs ih =>
    have hrest := ih fun t ht => hg t (List.mem_cons_of_mem c ht)
    rw [List.map_cons, List.sum_cons, hrest, List.filter_cons]
    split_ifs with hnamed
    · rw [List.map_cons, List.sum_cons]
    · rw [hg c List.mem_cons_self (Bool.eq_false_of_not_eq_true hnamed), Nat.zero_add]

theorem decisions_token {t : Node} (hnamed : t.named = false) (hleaf : t.children = []) :
    t.decisions = 0 := by
  have hdecision : t.isDecision = false := by
    unfold isDecision isLogical isRule isAmong
    unfold named at hnamed
    cases hkind : t.kind with
    | token s => rfl
    | rule r =>
      rw [hkind] at hnamed
      exact absurd hnamed Bool.true_eq_false_eq_False
  rw [Node.decisions_eq, hdecision, hleaf]
  rfl

theorem Wraps.decisions_eq {c : Node} (h : Wraps n c) : n.decisions
    = (if n.isDecision then 1 else 0) + if c.isScope then 0 else c.decisions := by
  rw [Node.decisions_eq, sum_map_children fun t ht hnamed => ?_, h.namedChildren_eq,
    List.map_singleton, List.sum_singleton]
  split_ifs
  · rfl
  · exact decisions_token hnamed (h.tokens t ht hnamed).2

/-- The decision points of a body count unless it has a score of its own. -/
def bodyComplexity (body : Node) : Nat := if body.isScope then 1 else 1 + body.decisions

theorem complexity_of_body {body : Node} (h : n.child? .body = some body) :
    n.complexity = bodyComplexity body := by
  rw [complexity, h, bodyComplexity]

theorem Respelled.bodyComplexity_eq (h : Respelled n n') :
    bodyComplexity n = bodyComplexity n' := by
  rw [bodyComplexity, bodyComplexity, ← h.isScope_eq]
  split_ifs with hscope
  · rfl
  · rw [h.decisions_eq (Bool.eq_false_of_not_eq_true hscope)]

/-- Returning a value is as complex as the value. -/
theorem Returns.bodyComplexity_eq {b e : Node} (h : Returns b e) :
    bodyComplexity b = bodyComplexity e := by
  obtain ⟨hblock, r, hr, hreturn, he⟩ := h
  have hplain : ∀ {m : Node} {s : Rule}, m.kind = .rule s →
      s ∉ scopeRules ∧ s ∉ decisionRules ∧ s ≠ .binaryExpression →
      m.isScope = false ∧ m.isDecision = false := by
    rintro m s hm ⟨hscope, hdecision, hbinary⟩
    simp [isScope, isDecision, isLogical, isAmong, isRule, hm, hscope, hdecision, hbinary]
  obtain ⟨hscope, hdecision⟩ := hplain hblock (by decide)
  obtain ⟨hscope', hdecision'⟩ := hplain hreturn (by decide)
  rw [bodyComplexity, bodyComplexity, hscope, hr.decisions_eq, hdecision, hscope',
    he.decisions_eq, hdecision']
  simp only [Bool.false_eq_true, if_false, Nat.zero_add]
  split_ifs <;> rfl

theorem SameBody.bodyComplexity_eq {b b' : Node} (h : SameBody b b') :
    bodyComplexity b = bodyComplexity b' := by
  cases h with
  | block hsame => exact hsame.bodyComplexity_eq
  | value hreturns hsame => rw [hreturns.bodyComplexity_eq, hsame.bodyComplexity_eq]

/-! ### The parts of a callable -/

theorem child?_eq_find?_namedChildren
    (htokens : ∀ t ∈ n.children, t.named = false → t.field = none) (f : Field) :
    n.child? f = n.namedChildren.find? (·.field == some f) := by
  rw [child?, namedChildren]
  generalize n.children = cs at htokens ⊢
  induction cs with
  | nil => rfl
  | cons c cs ih =>
    have hrest := ih fun t ht => htokens t (List.mem_cons_of_mem c ht)
    rw [List.find?_cons, List.filter_cons, hrest]
    split_ifs with hnamed
    · rw [List.find?_cons]
    · rw [htokens c List.mem_cons_self (Bool.eq_false_of_not_eq_true hnamed)]
      rfl

namespace HasParts

variable {before between after : List Node} {parameters body : Node}

theorem child?_eq (h : HasParts n before parameters between body after) (f : Field) :
    n.child? f = if parameters.field = some f then some parameters
      else if f = .body then some body else none := by
  have hnone : ∀ cs : List Node, cs ⊆ before ++ between ++ after →
      cs.find? (·.field == some f) = none := fun cs hcs =>
    List.find?_eq_none.mpr fun c hc => by rw [h.others c (hcs hc)]; exact Bool.false_ne_true
  rw [child?_eq_find?_namedChildren h.tokens, h.namedChildren_eq, List.find?_append,
    hnone before (by simp), Option.none_or, List.find?_cons, List.find?_append,
    hnone between (by simp), Option.none_or, List.find?_cons, hnone after (by simp), h.body_field]
  by_cases hparameters : parameters.field = some f
  · rw [if_pos hparameters, beq_iff_eq.mpr hparameters]
  · rw [if_neg hparameters, beq_eq_false_iff_ne.mpr hparameters]
    by_cases hbody : f = .body
    · rw [if_pos hbody, hbody, beq_self_eq_true]
    · rw [if_neg hbody, beq_eq_false_iff_ne.mpr fun h => hbody (Option.some.inj h).symm]

end HasParts

theorem SameParameters.field_eq {p p' : Node} (h : SameParameters p p') :
    p.field = some .parameters := by
  cases h <;> assumption

/-- Both trees are equally complex as callables. -/
theorem Respelled.complexity_eq (h : Respelled n n') : n.complexity = n'.complexity := by
  cases h with
  | node _ _ _ hchildren =>
    rcases child?_cases hchildren .body with ⟨hn, hn'⟩ | ⟨b, b', hn, hn', hb⟩
    · rw [complexity, complexity, hn, hn']
    · rw [complexity_of_body hn, complexity_of_body hn', hb.same.bodyComplexity_eq]
  | @arrow _ _ _ _ _ _ _ _ parameters body parameters' body' _ _ _ hparts hparts' _ hparameters _
      hbody _ =>
    have hn : n.child? .body = some body := by
      rw [hparts.child?_eq, hparameters.field_eq]
      rfl
    -- the parameters of the arrow function fill one of two fields, neither of which is its body's
    have hn' : n'.child? .body = some body' := by
      rw [hparts'.child?_eq]
      cases hparameters with
      | list _ hfield _ => rw [hfield]; rfl
      | single _ hfield _ => rw [hfield]; rfl
    rw [complexity_of_body hn, complexity_of_body hn', hbody.bodyComplexity_eq]

/-! ### Parameters -/

/-- The name that the node is, if it is one. -/
def plainName? (n : Node) : Option String := if n.isRule .identifier then some n.text else none

/-- What is written of a parameter besides its type. -/
def innerParameter (parameter : Node) : Node :=
  if parameter.isAmong [.requiredParameter, .optionalParameter] then
    (parameter.child? .pattern).getD parameter
  else parameter

theorem parameterName_eq (p : Node) : parameterName p = ((plainName? (innerParameter p)).or
    (if (innerParameter p).isRule .assignmentPattern then
      ((innerParameter p).child? .left).bind plainName?
    else if (innerParameter p).isRule .restPattern then
      (innerParameter p).namedChildren.head?.bind plainName?
    else none)).getD "param" := by
  unfold parameterName
  extract_lets inner plain found
  have hfound : found = (plain inner).or
      (if inner.isRule .assignmentPattern then (inner.child? .left).bind plain
      else if inner.isRule .restPattern then inner.namedChildren.head?.bind plain
      else none) := by
    unfold found
    cases plain inner <;> rfl
  exact congrArg (Option.getD · "param") hfound

theorem Respelled.plainName?_eq (h : Respelled n n') : plainName? n = plainName? n' := by
  rw [plainName?, plainName?, ← h.isRule_eq (by decide)]
  split_ifs with hname
  · cases h with
    | node _ htext => rw [htext (isRule_iff.mp hname)]
    | arrow hfunction =>
      rw [isRule_eq_isAmong, isAmong_eq_false hfunction (by decide)] at hname
      exact absurd hname Bool.false_ne_true
  · rfl

/-- A node whose rule is not that of a callable has alike children. -/
theorem Respelled.forall₂_children (h : Respelled n n') (hn : n.isAmong respelledRules = false) :
    List.Forall₂ SameChild n.children n'.children := by
  cases h with
  | node _ _ _ hchildren => exact hchildren
  | arrow hfunction =>
    rw [isAmong_mono expressionRules_subset hfunction] at hn
    exact absurd hn Bool.true_eq_false_eq_False

theorem Respelled.innerParameter (h : Respelled n n') :
    Respelled (innerParameter n) (innerParameter n') := by
  unfold Extraction.innerParameter
  rw [← h.isAmong_eq (by decide)]
  split_ifs with hparameter
  · have hchildren := h.forall₂_children (isAmong_eq_false hparameter (by decide))
    rcases child?_cases hchildren .pattern with ⟨hc, hc'⟩ | ⟨c, c', hc, hc', hsame⟩
    · rw [hc, hc']
      exact h
    · rw [hc, hc']
      exact hsame.same
  · exact h

theorem Respelled.parameterName_eq (h : Respelled n n') : parameterName n = parameterName n' := by
  have hinner := h.innerParameter
  rw [Extraction.parameterName_eq, Extraction.parameterName_eq, hinner.plainName?_eq,
    ← hinner.isRule_eq (by decide), ← hinner.isRule_eq (by decide)]
  refine congrArg (Option.getD · "param") (congrArg _ ?_)
  split_ifs with hdefault hrest
  · rw [isRule_eq_isAmong] at hdefault
    have hchildren := hinner.forall₂_children (isAmong_eq_false hdefault (by decide))
    rcases child?_cases hchildren .left with ⟨hc, hc'⟩ | ⟨c, c', hc, hc', hsame⟩
    · rw [hc, hc']
    · rw [hc, hc']
      exact hsame.same.plainName?_eq
  · rw [isRule_eq_isAmong] at hrest
    have hchildren := hinner.forall₂_children (isAmong_eq_false hrest (by decide))
    have hnamed := forall₂_namedChildren hchildren
    generalize (Extraction.innerParameter n).namedChildren = cs,
      (Extraction.innerParameter n').namedChildren = cs' at hnamed ⊢
    cases hnamed with
    | nil => rfl
    | cons hsame _ => exact hsame.same.plainName?_eq
  · rfl

/-- The names of the parameters in a list of them. -/
def listedNames (list : Node) : List String :=
  (list.namedChildren.filter (!·.isRule .comment)).map parameterName

theorem Respelled.listedNames_eq (h : Respelled n n') (hfield : n.field = some .parameters) :
    listedNames n = listedNames n' := by
  cases h with
  | arrow _ _ hplace => exact absurd hfield hplace
  | node _ _ _ hchildren =>
    have hcomment : Rule.comment ∉ respelledRules := by decide
    have hlisted := forall₂_filter (forall₂_namedChildren hchildren)
      fun hc => congrArg not (hc.same.isRule_eq hcomment)
    exact map_eq_map_of_forall₂ hlisted fun c _ c' hc => hc.same.parameterName_eq

theorem IsName.parameterName_eq {text : String} (h : IsName n text) : parameterName n = text := by
  have hrule : n.isRule .identifier = true := isRule_iff.mpr h.rule
  have hinner : innerParameter n = n := by
    rw [innerParameter, if_neg]
    simp [isAmong, h.rule]
  rw [Extraction.parameterName_eq, hinner, plainName?, if_pos hrule, Option.some_or,
    Option.getD_some, h.text_eq]

theorem Wraps.child?_eq {c : Node} {f : Field} (h : Wraps n c) (hfield : c.field = some f) :
    n.child? f = some c := by
  rw [child?_eq_find?_namedChildren fun t ht hnamed => (h.tokens t ht hnamed).1,
    h.namedChildren_eq, List.find?_cons, beq_iff_eq.mpr hfield]

theorem ListsOnly.listedNames_eq {p x : Node} (h : ListsOnly p x) : listedNames p = [x.text] := by
  obtain ⟨-, -, c, hc, hname⟩ := h
  have hparameter : c.isRule .comment = false ∧ parameterName c = x.text := by
    rcases hname with hname | ⟨hrequired, m, hm, hfield, hname⟩
    · exact ⟨by rw [isRule, hname.rule]; rfl, hname.parameterName_eq⟩
    · refine ⟨by rw [isRule, hrequired]; rfl, ?_⟩
      have hinner : innerParameter c = innerParameter m := by
        rw [innerParameter, if_pos (by simp [isAmong, hrequired]), hm.child?_eq hfield,
          innerParameter, if_neg (by simp [isAmong, hname.rule]), Option.getD_some]
      rw [Extraction.parameterName_eq, hinner, ← Extraction.parameterName_eq,
        hname.parameterName_eq]
  rw [listedNames, hc.namedChildren_eq, List.filter_singleton, hparameter.1]
  exact congrArg (fun name => [name]) hparameter.2

/-- Both callables have the same parameters. -/
theorem Respelled.parameterNames_eq (h : Respelled n n') :
    parameterNames n = parameterNames n' := by
  unfold parameterNames
  cases h with
  | node _ _ _ hchildren =>
    rcases child?_cases hchildren .parameter with ⟨hn, hn'⟩ | ⟨c, c', hn, hn', hc⟩
    · rw [hn, hn']
      rcases child?_cases hchildren .parameters with ⟨hn, hn'⟩ | ⟨c, c', hn, hn', hc⟩
      · rw [hn, hn']
      · rw [hn, hn']
        exact hc.same.listedNames_eq (mem_of_child? hn).2
    · rw [hn, hn']
      exact congrArg (fun text => [text]) (hc.text_eq (Or.inr (mem_of_child? hn).2))
  | arrow _ _ _ hparts hparts' _ hparameters =>
    rw [hparts.child?_eq, hparts'.child?_eq, hparts.child?_eq, hparts'.child?_eq]
    cases hparameters with
    | list hfield hfield' hsame =>
      rw [hfield, hfield']
      exact hsame.listedNames_eq hfield
    | single hfield hfield' honly =>
      rw [hfield, hfield']
      exact honly.listedNames_eq

/-! ### Replacing one node -/

theorem forall₂_set {R : Node → Node → Prop} (hrefl : ∀ c, R c c) {cs : List Node} {i : Nat}
    {c c' : Node} (hc : cs[i]? = some c) (h : R c c') : List.Forall₂ R cs (cs.set i c') := by
  induction cs generalizing i with
  | nil => cases hc
  | cons d cs ih =>
    cases i with
    | zero =>
      obtain rfl := Option.some.inj hc
      exact .cons h (List.forall₂_same.mpr fun c _ => hrefl c)
    | succ i => exact .cons (hrefl d) (ih hc)

theorem Respelled.replaceFrom {f a : Node} (h : Respelled f a) (hfield : f.field = a.field)
    (hname : f.field ≠ some .name ∧ f.field ≠ some .parameter) {p : Position} :
    ∀ {parent : Option Node} {n : Node}, n.at? p = some f →
      (siteFrom parent n p).parent.any exportsByDefault = false →
      Respelled n (n.replace p a) := by
  induction p with
  | nil =>
    intro parent n hn _
    obtain rfl := Option.some.inj hn
    exact h
  | cons i p ih =>
    intro parent n hn hparent
    rw [at?_cons] at hn
    obtain ⟨c, hc, hf⟩ := Option.bind_eq_some_iff.mp hn
    rw [siteFrom_cons hc] at hparent
    -- only the callable itself changes its kind; a node above it keeps all but its children
    have hchild : SameChild c (c.replace p a) ∧
        (exportsByDefault n = true → c.kind = (c.replace p a).kind) := by
      have hsame := ih hf hparent
      cases p with
      | nil =>
        obtain rfl := Option.some.inj hf
        refine ⟨.mk hfield (fun hread => ?_) hsame, fun hexports => ?_⟩
        · exact absurd hread (not_or.mpr hname)
        · exact absurd (hexports.symm.trans hparent) Bool.true_eq_false_eq_False
      | cons j p =>
        obtain ⟨d, hd, -⟩ := Option.bind_eq_some_iff.mp hf
        rw [replace_cons hd] at hsame ⊢
        exact ⟨.mk rfl (fun _ => rfl) hsame, fun _ => rfl⟩
    rw [replace_cons hc]
    refine .node rfl (fun _ => rfl) (fun hexports => ?_) (forall₂_set SameChild.refl hc hchild.1)
    have hkinds : List.Forall₂ (fun d d' : Node => d.kind = d'.kind) n.children
        (n.children.set i (c.replace p a)) :=
      forall₂_set (R := fun d d' => d.kind = d'.kind) (fun _ => rfl) hc (hchild.2 hexports)
    exact map_eq_map_of_forall₂ hkinds fun _ _ _ hkind => hkind

/-- A tree is respelled by putting a callable that is otherwise spelled in the place of another,
unless its parent exports by default. -/
theorem Respelled.replace {f a root : Node} {p : Position} (h : Respelled f a)
    (hfield : f.field = a.field) (hname : f.field ≠ some .name ∧ f.field ≠ some .parameter)
    (hroot : root.at? p = some f)
    (hparent : (root.siteAt p).parent.any exportsByDefault = false) :
    Respelled root (root.replace p a) := h.replaceFrom hfield hname hroot hparent

end CodeAtlas.Extraction
