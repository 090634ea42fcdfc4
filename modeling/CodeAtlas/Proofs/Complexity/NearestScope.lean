import CodeAtlas.Complexity.Decision
import CodeAtlas.Proofs.Syntax.Position
import Mathlib.Algebra.Order.Ring.Nat
import Mathlib.Data.List.Infix

/-!
# The decision points that a callable is charged with

The complexity of a callable is one more than the number of positions that `counted` lists, at which
its count adds one (`complexity_eq`).  Seen from the root of the tree these are `contributions`, and
they are the decision points in the body of the callable that have it for their nearest scope
(`mem_contributions`).  As there is at most one nearest scope (`IsNearestScope.unique`), no decision
point is charged to two callables.
-/

namespace CodeAtlas.Syntax.Node

/-- The node at a position of a tree passes a test. -/
def holdsAt (root : Node) (test : Node → Bool) (p : Position) : Bool := (root.at? p).any test

theorem holdsAt_iff {root : Node} {test : Node → Bool} {p : Position} :
    root.holdsAt test p = true ↔ ∃ n, root.at? p = some n ∧ test n = true :=
  Option.any_eq_true ..

theorem holdsAt_append {root n : Node} {p : Position} (h : root.at? p = some n)
    (test : Node → Bool) (q : Position) : root.holdsAt test (p ++ q) = n.holdsAt test q := by
  rw [holdsAt, at?_append, h, Option.bind_some, holdsAt]

/-! ### The count for a callable -/

theorem decisionsAmong_eq (cs : List Node) :
    decisionsAmong cs = (cs.map fun c => if c.isScope then 0 else c.decisions).sum := by
  induction cs with
  | nil => rfl
  | cons c cs ih => rw [decisionsAmong, ih, List.map_cons, List.sum_cons]

theorem decisions_eq (n : Node) :
    n.decisions = (if n.isDecision then 1 else 0)
      + (n.children.map fun c => if c.isScope then 0 else c.decisions).sum := by
  rw [← decisionsAmong_eq]
  cases n
  rfl

/-- The test of the nodes that the count for a callable enters. -/
def isInner (n : Node) : Bool := !n.isScope

/-- The count is the number of decision points that are come to without entering a scope. -/
theorem countP_reach (n : Node) :
    (reach isInner n).countP (n.holdsAt isDecision) = n.decisions := by
  induction n using children_induction with
  | step n ih =>
  have hchildren : (n.children.map fun c => if c.isScope then 0 else c.decisions)
      = n.children.zipIdx.map fun x => if x.1.isScope then 0 else x.1.decisions := by
    conv_lhs => rw [← List.zipIdx_map_fst 0 n.children, List.map_map]
    rfl
  rw [reach_eq, List.countP_cons, List.countP_flatMap, decisions_eq, hchildren, Nat.add_comm]
  refine congrArg₂ _ rfl (congrArg List.sum (List.map_congr_left fun x hx => ?_))
  have hchild : n.at? [x.2] = some x.1 := by
    rw [at?_cons, List.mem_zipIdx_iff_getElem?.mp hx]
    rfl
  rw [Function.comp, isInner]
  by_cases hscope : x.1.isScope = true
  · simp [hscope]
  · rw [if_pos (by simpa using hscope), if_neg hscope, List.countP_map,
      ← ih x.1 (List.fst_mem_of_mem_zipIdx hx)]
    refine List.countP_congr fun q _ => ?_
    rw [Function.comp, ← List.singleton_append, holdsAt_append hchild]

/-- The child that is the body of a node, with its index. -/
def body? (n : Node) : Option (Node × Nat) := n.children.zipIdx.find? (·.1.field == some .body)

theorem child?_body (n : Node) : n.child? .body = n.body?.map Prod.fst := by
  rw [child?, body?]
  conv_lhs => rw [← List.zipIdx_map_fst 0 n.children, List.find?_map]
  rfl

theorem at?_body {n body : Node} {b : Nat} (h : n.body? = some (body, b)) :
    n.at? [b] = some body := by
  rw [at?_cons, List.mem_zipIdx_iff_getElem?.mp (List.mem_of_find?_eq_some h)]
  rfl

/-- The positions below a callable at which the count of its complexity adds one. -/
def counted (n : Node) : List Position :=
  match n.body? with
  | none => []
  | some (body, b) =>
    if body.isScope then []
    else ((reach isInner body).filter (body.holdsAt isDecision)).map (b :: ·)

/-- The complexity is one more than the number of positions counted. -/
theorem complexity_eq (n : Node) : n.complexity = 1 + n.counted.length := by
  rw [complexity, counted, child?_body]
  cases n.body? with
  | none => rfl
  | some x =>
    dsimp only [Option.map_some]
    split_ifs
    · rfl
    · rw [List.length_map, ← List.countP_eq_length_filter, countP_reach]

theorem nodup_counted (n : Node) : n.counted.Nodup := by
  unfold counted
  cases n.body? with
  | none => exact List.nodup_nil
  | some x =>
    dsimp only
    split_ifs
    · exact List.nodup_nil
    · exact ((nodup_reach x.1).filter _).map fun p q h => (List.cons.inj h).2

theorem mem_counted {n : Node} {d : Position} :
    d ∈ n.counted ↔ ∃ body b q, n.body? = some (body, b) ∧ b :: q = d ∧
      body.isScope = false ∧ Enters isInner body q ∧ body.holdsAt isDecision q = true := by
  unfold counted
  cases n.body? with
  | none => simp
  | some x =>
    obtain ⟨body, b⟩ := x
    dsimp only
    constructor
    · intro h
      split_ifs at h with hscope
      · exact absurd h List.not_mem_nil
      · obtain ⟨q, hq, rfl⟩ := List.mem_map.mp h
        obtain ⟨hreach, hdecision⟩ := List.mem_filter.mp hq
        exact ⟨body, b, q, rfl, rfl, Bool.eq_false_iff.mpr hscope, mem_reach.mp hreach, hdecision⟩
    · rintro ⟨body', b', q, heq, rfl, hscope, hreach, hdecision⟩
      obtain ⟨rfl, rfl⟩ := Prod.mk.inj (Option.some.inj heq)
      rw [if_neg (Bool.eq_false_iff.mp hscope)]
      exact List.mem_map_of_mem (List.mem_filter.mpr ⟨mem_reach.mpr hreach, hdecision⟩)

/-! ### The nearest scope -/

/-- A decision point is not a scope. -/
theorem isScope_eq_false_of_isDecision {n : Node} (h : n.isDecision = true) :
    n.isScope = false := by
  have hrules : ∀ r ∈ decisionRules, r ∉ scopeRules := by decide
  have hjoin : Rule.binaryExpression ∉ scopeRules := by decide
  rw [isDecision, Bool.or_eq_true] at h
  cases hkind : n.kind with
  | token s => simp [isScope, isAmong, hkind]
  | rule r =>
    rw [isScope, isAmong, hkind]
    rcases h with h | h
    · rw [isAmong, hkind] at h
      simpa using hrules r (List.contains_iff_mem.mp h)
    · rw [isLogical, Bool.and_eq_true, isRule, hkind, beq_iff_eq, Kind.rule.injEq] at h
      rw [h.1]
      simpa using hjoin

/-- `p` is the position of the innermost scope around the node at `d`. -/
structure IsNearestScope (root : Node) (p d : Position) : Prop where
  encloses : p <+: d
  ne : p ≠ d
  scope : root.holdsAt isScope p = true
  nearest : ∀ q, p <+: q → q <+: d → q ≠ p → q ≠ d → root.holdsAt isScope q = false

/-- There is at most one nearest scope. -/
theorem IsNearestScope.unique {root : Node} {p q d : Position} (hp : IsNearestScope root p d)
    (hq : IsNearestScope root q d) : p = q := by
  by_contra hne
  rcases List.prefix_or_prefix_of_prefix hp.encloses hq.encloses with h | h
  · have := hp.nearest q h hq.encloses (Ne.symm hne) hq.ne
    rw [hq.scope] at this
    exact Bool.noConfusion this
  · have := hq.nearest p h hp.encloses hne hp.ne
    rw [hp.scope] at this
    exact Bool.noConfusion this

/-- The position `d` lies in the body of the node at `p`. -/
def InBody (root : Node) (p d : Position) : Prop :=
  ∃ n body b, root.at? p = some n ∧ n.body? = some (body, b) ∧ p ++ [b] <+: d

/-- The positions in a tree at which the count for the callable at `p` adds one. -/
def contributions (root : Node) (p : Position) : List Position :=
  ((root.at? p).map fun n => n.counted.map (p ++ ·)).getD []

theorem contributions_eq {root n : Node} {p : Position} (h : root.at? p = some n) :
    contributions root p = n.counted.map (p ++ ·) := by
  rw [contributions, h, Option.map_some, Option.getD_some]

theorem nodup_contributions (root : Node) (p : Position) : (contributions root p).Nodup := by
  cases h : root.at? p with
  | none => rw [contributions, h]; exact List.nodup_nil
  | some n =>
    rw [contributions_eq h]
    exact n.nodup_counted.map fun q q' => List.append_cancel_left

/-- A position is come to without entering a scope if there is none on the way to it. -/
theorem isInner_and_enters_iff {n m : Node} {q : Position} (hq : n.at? q = some m) :
    n.isScope = false ∧ Enters isInner n q ↔ ∀ r, r <+: q → n.holdsAt isScope r = false := by
  rw [enters_iff]
  constructor
  · rintro ⟨hn, -, hway⟩ r hr
    rw [Bool.eq_false_iff]
    intro hscope
    obtain ⟨k, hk, hk'⟩ := holdsAt_iff.mp hscope
    by_cases hnil : r = []
    · subst hnil
      obtain rfl := Option.some.inj hk
      rw [hn] at hk'
      exact Bool.noConfusion hk'
    · have := hway r k hnil hr hk
      rw [isInner, hk'] at this
      exact Bool.noConfusion this
  · intro hway
    refine ⟨hway [] List.nil_prefix, ⟨m, hq⟩, fun r k _ hr hk => ?_⟩
    have := hway r hr
    rw [holdsAt, hk, Option.any_some] at this
    rw [isInner, this]
    rfl

/-- The count for a scope adds one exactly at the decision points in its body of which it is the
nearest scope. -/
theorem mem_contributions {root n : Node} {p d : Position} (hn : root.at? p = some n)
    (hscope : n.isScope = true) :
    d ∈ contributions root p
      ↔ root.holdsAt isDecision d = true ∧ IsNearestScope root p d ∧ InBody root p d := by
  have hbelow : ∀ {body b}, n.body? = some (body, b) → ∀ test r,
      root.holdsAt test (p ++ b :: r) = body.holdsAt test r := by
    intro body b hbody test r
    rw [holdsAt_append hn, ← List.singleton_append, holdsAt_append (at?_body hbody)]
  rw [contributions_eq hn, List.mem_map]
  constructor
  · rintro ⟨d', hd', rfl⟩
    obtain ⟨body, b, q, hbody, rfl, hinner, henters, hdecision⟩ := mem_counted.mp hd'
    obtain ⟨m, hm, -⟩ := holdsAt_iff.mp hdecision
    have hway := (isInner_and_enters_iff hm).mp ⟨hinner, henters⟩
    refine ⟨(hbelow hbody _ q).trans hdecision,
      ⟨List.prefix_append .., by simp, holdsAt_iff.mpr ⟨n, hn, hscope⟩, ?_⟩,
      ⟨n, body, b, hn, hbody, by simp⟩⟩
    -- a position between `p` and the decision point lies on the way to it from the body
    rintro r ⟨r', rfl⟩ hr hne -
    cases r' with
    | nil => exact absurd (List.append_nil p) hne
    | cons c r' =>
      obtain ⟨rfl, hr'⟩ := List.cons_prefix_cons.mp ((List.prefix_append_right_inj p).mp hr)
      rw [hbelow hbody]
      exact hway r' hr'
  · rintro ⟨hdecision, hnearest, ⟨n', body, b, hn', hbody, q, rfl⟩⟩
    obtain rfl := Option.some.inj (hn.symm.trans hn')
    rw [List.append_assoc, List.singleton_append] at hdecision hnearest ⊢
    rw [hbelow hbody] at hdecision
    obtain ⟨m, hm, hmd⟩ := holdsAt_iff.mp hdecision
    -- there is no scope in between, and the decision point is none itself
    have hway : ∀ r, r <+: q → body.holdsAt isScope r = false := by
      intro r hr
      by_cases hrq : r = q
      · rw [hrq, holdsAt, hm, Option.any_some]
        exact isScope_eq_false_of_isDecision hmd
      · rw [← hbelow hbody]
        refine hnearest.nearest _ (List.prefix_append ..) ?_ (by simp) (by simpa using hrq)
        exact (List.prefix_append_right_inj p).mpr (List.cons_prefix_cons.mpr ⟨rfl, hr⟩)
    obtain ⟨hinner, henters⟩ := (isInner_and_enters_iff hm).mpr hway
    exact ⟨b :: q, mem_counted.mpr ⟨body, b, q, hbody, rfl, hinner, henters, hdecision⟩, rfl⟩

end CodeAtlas.Syntax.Node
