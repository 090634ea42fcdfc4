import CodeAtlas.Syntax.Walk
import Mathlib.Data.List.Nodup

/-!
# Positions in a syntax tree

Nodes of one tree may be equal, so a node is told apart by its position: the way to it from the
root, as the list of the indices of the children on it.  `reach enter n` lists the positions below
`n` that are come to by entering only the children that pass a test; `mem_reach` says which these
are, and `nodup_reach` that none is come to twice.

Both walks of a tree are of this kind.  The document walk enters the named nodes: its sites are the
sites at the positions of `visited` (`sites_eq_map_visited`), each of which it comes to once.
-/

namespace CodeAtlas.Syntax

/-- The way from the root of a tree to a node, as the indices of the children on it. -/
abbrev Position := List Nat

namespace Node

theorem size_le_sizeAll {c : Node} : ∀ {ns : List Node}, c ∈ ns → c.size ≤ sizeAll ns := by
  intro ns
  induction ns with
  | nil => intro hc; exact absurd hc List.not_mem_nil
  | cons m ns ih =>
    intro hc
    rw [sizeAll]
    rcases List.mem_cons.mp hc with rfl | hc
    · omega
    · have := ih hc
      omega

/-- A statement holds of every tree if it holds of a node as soon as it holds of its children. -/
theorem children_induction {motive : Node → Prop}
    (step : ∀ n : Node, (∀ c ∈ n.children, motive c) → motive n) (n : Node) : motive n := by
  induction hn : n.size using Nat.strongRecOn generalizing n with
  | _ size ih =>
  refine step n fun c hc => ih c.size ?_ c rfl
  have hle := size_le_sizeAll hc
  have hsize := size_eq n
  omega

/-- The node at a position. -/
def at? : Node → Position → Option Node
  | n, [] => some n
  | n, i :: p => n.children[i]?.bind fun c => c.at? p

theorem at?_cons (n : Node) (i : Nat) (p : Position) :
    n.at? (i :: p) = n.children[i]?.bind fun c => c.at? p := rfl

theorem at?_append (p q : Position) : ∀ n : Node,
    n.at? (p ++ q) = (n.at? p).bind fun m => m.at? q := by
  induction p with
  | nil => intro n; rfl
  | cons i p ih =>
    intro n
    rw [List.cons_append, at?_cons, at?_cons]
    cases n.children[i]? with
    | none => rfl
    | some c => exact ih c

/-! ### Entering some of the children -/

mutual
/-- The positions below a node that are come to by entering the children that pass the test. -/
def reach (enter : Node → Bool) : Node → List Position
  | ⟨_, _, _, _, _, _, _, children⟩ => [] :: reachAmong enter 0 children

/-- The positions come to among children of which the first has the index `i`. -/
def reachAmong (enter : Node → Bool) : Nat → List Node → List Position
  | _, [] => []
  | i, c :: cs =>
    (if enter c then (reach enter c).map (i :: ·) else []) ++ reachAmong enter (i + 1) cs
end

variable {enter : Node → Bool}

theorem reachAmong_eq (children : List Node) : ∀ i : Nat,
    reachAmong enter i children = (children.zipIdx i).flatMap fun x =>
      if enter x.1 then (reach enter x.1).map (x.2 :: ·) else [] := by
  induction children with
  | nil => intro i; rfl
  | cons c cs ih =>
    intro i
    rw [reachAmong, ih, List.zipIdx_cons, List.flatMap_cons]

theorem reach_eq (n : Node) :
    reach enter n = [] :: n.children.zipIdx.flatMap fun x =>
      if enter x.1 then (reach enter x.1).map (x.2 :: ·) else [] := by
  rw [← reachAmong_eq]
  cases n
  rfl

/-- The position lies in the tree, and every node on the way to it, the first one excepted, passes
the test. -/
def Enters (enter : Node → Bool) : Node → Position → Prop
  | _, [] => True
  | n, i :: p => ∃ c, n.children[i]? = some c ∧ enter c = true ∧ Enters enter c p

theorem mem_reach {p : Position} : ∀ {n : Node}, p ∈ reach enter n ↔ Enters enter n p := by
  induction p with
  | nil => intro n; rw [reach_eq]; simp [Enters]
  | cons i p ih =>
    intro n
    rw [reach_eq, List.mem_cons, List.mem_flatMap, Enters]
    constructor
    · rintro (h | ⟨⟨c, j⟩, hc, hp⟩)
      · exact absurd h (List.cons_ne_nil i p)
      · split_ifs at hp with henter
        · obtain ⟨q, hq, hcons⟩ := List.mem_map.mp hp
          obtain ⟨rfl, rfl⟩ := List.cons.inj hcons
          exact ⟨c, List.mem_zipIdx_iff_getElem?.mp hc, henter, ih.mp hq⟩
        · exact absurd hp List.not_mem_nil
    · rintro ⟨c, hc, henter, hp⟩
      refine Or.inr ⟨(c, i), List.mem_zipIdx_iff_getElem?.mpr hc, ?_⟩
      rw [if_pos henter]
      exact List.mem_map_of_mem (ih.mpr hp)

theorem nodup_indices (cs : List Node) : (cs.zipIdx.map Prod.snd).Nodup := by
  rw [List.zipIdx_map_snd]
  exact List.nodup_range'

/-- No position is come to twice. -/
theorem nodup_reach (n : Node) : (reach enter n).Nodup := by
  induction n using children_induction with
  | step n ih =>
  rw [reach_eq, List.nodup_cons, List.mem_flatMap, List.nodup_flatMap]
  refine ⟨?_, ?_, ?_⟩
  · rintro ⟨x, -, hx⟩
    split_ifs at hx
    · obtain ⟨q, -, hq⟩ := List.mem_map.mp hx
      exact List.cons_ne_nil _ _ hq
    · exact List.not_mem_nil hx
  · intro x hx
    split_ifs
    · exact (ih x.1 (List.fst_mem_of_mem_zipIdx hx)).map fun p q h => (List.cons.inj h).2
    · exact List.nodup_nil
  · -- positions below different children begin with different indices
    have hidx := nodup_indices n.children
    rw [List.Nodup, List.pairwise_map] at hidx
    refine hidx.imp fun {x y} hne p hpx hpy => ?_
    dsimp only at hpx hpy
    split_ifs at hpx hpy
    · obtain ⟨q, -, rfl⟩ := List.mem_map.mp hpx
      obtain ⟨q', -, hq'⟩ := List.mem_map.mp hpy
      exact hne (List.cons.inj hq').1.symm
    all_goals exact absurd ‹p ∈ []› List.not_mem_nil

theorem Enters.at?_isSome {p : Position} :
    ∀ {n : Node}, Enters enter n p → ∃ m, n.at? p = some m := by
  induction p with
  | nil => exact fun _ => ⟨_, rfl⟩
  | cons i p ih =>
    rintro n ⟨c, hc, -, hp⟩
    rw [at?_cons, hc]
    exact ih hp

/-- The nodes on the way to a position that is come to pass the test. -/
theorem enters_iff {p : Position} : ∀ {n : Node}, Enters enter n p ↔
    (∃ m, n.at? p = some m) ∧
      ∀ q m, q ≠ [] → q <+: p → n.at? q = some m → enter m = true := by
  induction p with
  | nil =>
    intro n
    refine ⟨fun _ => ⟨⟨n, rfl⟩, fun q m hq hqp => ?_⟩, fun _ => trivial⟩
    exact absurd (List.prefix_nil.mp hqp) hq
  | cons i p ih =>
    intro n
    constructor
    · rintro ⟨c, hc, henter, hp⟩
      obtain ⟨hsome, hway⟩ := ih.mp hp
      refine ⟨by rw [at?_cons, hc]; exact hsome, fun q m hq hqp hm => ?_⟩
      cases q with
      | nil => exact absurd rfl hq
      | cons j q =>
        obtain ⟨rfl, hqp'⟩ := List.cons_prefix_cons.mp hqp
        rw [at?_cons, hc, Option.bind_some] at hm
        by_cases hnil : q = []
        · subst hnil
          obtain rfl := Option.some.inj hm
          exact henter
        · exact hway q m hnil hqp' hm
    · rintro ⟨⟨m, hm⟩, hway⟩
      rw [at?_cons] at hm
      obtain ⟨c, hc, hm⟩ := Option.bind_eq_some_iff.mp hm
      have hstep : ∀ q, n.at? (i :: q) = c.at? q := fun q => by rw [at?_cons, hc, Option.bind_some]
      refine ⟨c, hc, ?_, ih.mpr ⟨⟨m, hm⟩, fun q m' hq hqp hm' => ?_⟩⟩
      · exact hway [i] c (List.cons_ne_nil i []) (by simp) (hstep [])
      · exact hway (i :: q) m' (List.cons_ne_nil i q) (List.cons_prefix_cons.mpr ⟨rfl, hqp⟩)
          ((hstep q).trans hm')

/-- All positions of a tree. -/
def positions (root : Node) : List Position := reach (fun _ => true) root

theorem mem_positions {root : Node} {p : Position} :
    p ∈ root.positions ↔ ∃ n, root.at? p = some n := by
  rw [positions, mem_reach, enters_iff]
  exact ⟨fun h => h.1, fun h => ⟨h, fun _ _ _ _ _ => rfl⟩⟩

theorem length_reachAmong_eq_sizeAll {cs : List Node}
    (h : ∀ c ∈ cs, (reach (fun _ => true) c).length = c.size) :
    ∀ i : Nat, (reachAmong (fun _ => true) i cs).length = sizeAll cs := by
  induction cs with
  | nil => exact fun _ => rfl
  | cons c cs ih =>
    intro i
    rw [reachAmong, if_pos rfl, List.length_append, List.length_map, h c List.mem_cons_self,
      ih (fun d hd => h d (List.mem_cons_of_mem c hd)), sizeAll]

/-- There are as many positions as nodes. -/
theorem length_positions (root : Node) : root.positions.length = root.size := by
  unfold positions
  induction root using children_induction with
  | step n ih =>
  rw [size_eq, ← length_reachAmong_eq_sizeAll ih 0]
  cases n
  rfl

/-! ### The document walk -/

theorem preorderAll_eq (parent : Node) (ns : List Node) :
    preorderAll parent ns = ns.flatMap (preorder (some parent)) := by
  induction ns with
  | nil => rfl
  | cons n ns ih => rw [preorderAll, ih, List.flatMap_cons]

theorem preorder_eq (parent : Option Node) (n : Node) :
    preorder parent n
      = if n.named then ⟨parent, n⟩ :: n.children.flatMap (preorder (some n)) else [] := by
  rw [← preorderAll_eq]
  cases n
  rfl

theorem mem_preorder_self {n : Node} (h : n.named = true) (parent : Option Node) :
    ⟨parent, n⟩ ∈ preorder parent n := by
  rw [preorder_eq, if_pos h]
  exact List.mem_cons_self

/-- The walk comes from a node to each of its named children. -/
theorem mem_preorder_child {root : Node} {parent : Option Node} {s : Site}
    (hs : s ∈ preorder parent root) {c : Node} (hc : c ∈ s.node.children)
    (hnamed : c.named = true) : ⟨some s.node, c⟩ ∈ preorder parent root := by
  induction root using children_induction generalizing parent with
  | step n ih =>
  rw [preorder_eq] at hs ⊢
  split_ifs at hs ⊢
  · apply List.mem_cons_of_mem
    rcases List.mem_cons.mp hs with rfl | hs
    · exact List.mem_flatMap.mpr ⟨c, hc, mem_preorder_self hnamed (some n)⟩
    · obtain ⟨d, hd, hs⟩ := List.mem_flatMap.mp hs
      exact List.mem_flatMap.mpr ⟨d, hd, ih d hd hs⟩
  · exact absurd hs List.not_mem_nil

end Node

/-- The walk with a list of waiting sites goes through the tree of each of them in turn. -/
theorem Site.walk_eq (waiting : List Site) :
    walk waiting = waiting.flatMap fun s => s.node.preorder s.parent := by
  fun_induction walk waiting with
  | case1 => rfl
  | case2 s waiting hnamed ih =>
    rw [ih, List.flatMap_append, List.flatMap_cons, Node.preorder_eq s.parent, if_pos hnamed,
      Site.below, List.flatMap_map]
    rfl
  | case3 s waiting hnamed ih =>
    rw [ih, List.flatMap_cons, Node.preorder_eq s.parent, if_neg hnamed, List.nil_append]

namespace Node

/-- The walk with a list of waiting sites is the walk by recursion on the tree. -/
theorem sites_eq_preorder (root : Node) : root.sites = root.preorder none := by
  rw [sites, Site.walk_eq, List.flatMap_singleton]

theorem mem_sites_child {root : Node} {s : Site} (hs : s ∈ root.sites) {c : Node}
    (hc : c ∈ s.node.children) (hnamed : c.named = true) : ⟨some s.node, c⟩ ∈ root.sites := by
  rw [sites_eq_preorder] at hs ⊢
  exact mem_preorder_child hs hc hnamed

/-- The site at a position below a node with the given parent. -/
def siteFrom (parent : Option Node) : Node → Position → Site
  | n, [] => ⟨parent, n⟩
  | n, i :: p =>
    match n.children[i]? with
    | some c => siteFrom (some n) c p
    | none => default

/-- The site at a position of a tree. -/
def siteAt (root : Node) (p : Position) : Site := siteFrom none root p

/-- The positions that the document walk of a tree comes to. -/
def visited (root : Node) : List Position := if root.named then reach named root else []

theorem siteFrom_cons {parent : Option Node} {n c : Node} {i : Nat} (h : n.children[i]? = some c)
    (p : Position) : siteFrom parent n (i :: p) = siteFrom (some n) c p := by
  rw [siteFrom, h]

theorem siteFrom_node {p : Position} : ∀ {parent : Option Node} {n m : Node}, n.at? p = some m →
    (siteFrom parent n p).node = m := by
  induction p with
  | nil => intro parent n m h; exact Option.some.inj h
  | cons i p ih =>
    intro parent n m h
    rw [at?_cons] at h
    obtain ⟨c, hc, hm⟩ := Option.bind_eq_some_iff.mp h
    rw [siteFrom_cons hc]
    exact ih hm

theorem preorder_eq_map (n : Node) : ∀ parent : Option Node,
    preorder parent n = n.visited.map (siteFrom parent n) := by
  induction n using children_induction with
  | step n ih =>
  intro parent
  rw [preorder_eq, visited]
  split_ifs
  · rw [reach_eq, List.map_cons, List.map_flatMap, siteFrom]
    refine congrArg _ ?_
    conv_lhs => rw [← List.zipIdx_map_fst 0 n.children]
    rw [List.flatMap_map]
    refine List.flatMap_congr fun x hx => ?_
    have hchild : n.children[x.2]? = some x.1 := List.mem_zipIdx_iff_getElem?.mp hx
    rw [ih x.1 (List.fst_mem_of_mem_zipIdx hx), visited]
    split_ifs
    · rw [List.map_map]
      exact List.map_congr_left fun p _ => (siteFrom_cons hchild p).symm
    · rfl
  · rfl

/-- The sites of a tree are those at the positions that are visited. -/
theorem sites_eq_map_visited (root : Node) : root.sites = root.visited.map root.siteAt := by
  rw [sites_eq_preorder, preorder_eq_map]
  rfl

end Node

end CodeAtlas.Syntax
