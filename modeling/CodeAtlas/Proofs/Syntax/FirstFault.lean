import CodeAtlas.Proofs.Extraction.DocumentOrder

/-!
# The first fault of a syntax tree

A tree may have several faults, and two of them may be equal nodes, so a fault is told apart by its
position.  `positions` lists all positions in document order; the first of them with a fault is the
least one (`firstFaultPosition_eq_some_iff`), and the node there is what the exhaustive search by
recursion on the tree finds (`firstFaultExhaustive_eq`).

The search that passes over unmarked parts keeps the waiting nodes on a stack: a turn of it takes
the last one, ends if that is a fault, and else puts the children of a marked node on the stack in
reverse.  `FaultSearch.turn` is one turn, at positions.  If every node is marked exactly when there
is a fault at it or below it, what a turn drops has no fault, and so no turn changes the first fault
of what waits (`first_turn`); that no turn changes what `firstFaultFrom` finds among the waiting
nodes holds of any tree (`node_turn`).  Hence both searches find the same node, and there is one if
the root is marked (`firstFault_exact`).
-/

namespace CodeAtlas.Syntax

namespace Node

/-! ### Faults and their positions -/

/-- There is a fault at the position. -/
def isFaultAt (root : Node) (p : Position) : Bool := (root.at? p).any isFault

/-- There is a node marked faulty at the position. -/
def isMarkedAt (root : Node) (p : Position) : Bool := (root.at? p).any (·.faulty)

/-- The node or one below it is a fault. -/
def HasFault (n : Node) : Prop := ∃ p m, n.at? p = some m ∧ m.isFault = true

/-- The first position in document order at which there is a fault. -/
def firstFaultPosition (root : Node) : Option Position := root.positions.find? root.isFaultAt

/-- The nodes of a tree in document order. -/
def nodes (root : Node) : List Node := root.positions.filterMap root.at?

variable {root n : Node} {p : Position}

theorem isFaultAt_of_at? (hp : root.at? p = some n) : root.isFaultAt p = n.isFault := by
  rw [isFaultAt, hp, Option.any_some]

theorem isMarkedAt_of_at? (hp : root.at? p = some n) : root.isMarkedAt p = n.faulty := by
  rw [isMarkedAt, hp, Option.any_some]

theorem isFaultAt_append (hp : root.at? p = some n) (q : Position) :
    root.isFaultAt (p ++ q) = n.isFaultAt q := by
  rw [isFaultAt, at?_append, hp, Option.bind_some, isFaultAt]

theorem isFaultAt_iff : root.isFaultAt p = true ↔ ∃ n, root.at? p = some n ∧ n.isFault = true := by
  rw [isFaultAt, Option.any_eq_true]

theorem hasFault_iff_exists_isFaultAt : root.HasFault ↔ ∃ p, root.isFaultAt p = true :=
  exists_congr fun _ => isFaultAt_iff.symm

theorem mem_positions_of_isFaultAt (h : root.isFaultAt p = true) : p ∈ root.positions := by
  obtain ⟨n, hn, -⟩ := isFaultAt_iff.mp h
  exact mem_positions.mpr ⟨n, hn⟩

theorem firstFaultPosition_eq_none_iff : root.firstFaultPosition = none ↔ ¬ root.HasFault := by
  rw [firstFaultPosition, List.find?_eq_none, hasFault_iff_exists_isFaultAt, not_exists]
  exact ⟨fun h p hp => h p (mem_positions_of_isFaultAt hp) hp, fun h p _ => h p⟩

theorem firstFaultPosition_spec (h : root.firstFaultPosition = some p) :
    root.isFaultAt p = true ∧ ∀ q < p, root.isFaultAt q = false := by
  obtain ⟨hfault, before, after, hsplit, hbefore⟩ := List.find?_eq_some_iff_append.mp h
  have hordered : (before ++ p :: after).Pairwise (· < ·) := hsplit ▸ pairwise_reach root
  refine ⟨hfault, fun q hlt => Bool.eq_false_of_not_eq_true fun hq => ?_⟩
  have hmem := mem_positions_of_isFaultAt hq
  rw [hsplit] at hmem
  rcases List.mem_append.mp hmem with hmem | hmem
  · have hnone := hbefore q hmem
    rw [hq] at hnone
    exact absurd hnone (by decide)
  · -- from `p` on the positions are not less than `p`
    obtain ⟨-, hfrom, -⟩ := List.pairwise_append.mp hordered
    rcases List.mem_cons.mp hmem with rfl | hmem
    · exact List.lt_irrefl _ hlt
    · exact List.lt_asymm hlt ((List.pairwise_cons.mp hfrom).1 q hmem)

/-- The first position with a fault is the least one. -/
theorem firstFaultPosition_eq_some_iff : root.firstFaultPosition = some p ↔
    root.isFaultAt p = true ∧ ∀ q < p, root.isFaultAt q = false := by
  refine ⟨firstFaultPosition_spec, fun ⟨hfault, hleast⟩ => ?_⟩
  cases hfirst : root.firstFaultPosition with
  | none =>
    exact absurd (hasFault_iff_exists_isFaultAt.mpr ⟨p, hfault⟩)
      (firstFaultPosition_eq_none_iff.mp hfirst)
  | some q =>
    obtain ⟨hfault', hleast'⟩ := firstFaultPosition_spec hfirst
    have hle : ¬ q < p := fun hlt => by simp [hleast q hlt] at hfault'
    have hge : ¬ p < q := fun hlt => by simp [hleast' p hlt] at hfault
    rw [List.le_antisymm hge hle]

/-! ### The exhaustive search -/

theorem nodes_eq (n : Node) : n.nodes = n :: n.children.flatMap nodes := by
  have hself : n.at? [] = some n := rfl
  rw [nodes, positions, reach_eq, List.filterMap_cons_some hself, List.filterMap_flatMap]
  refine congrArg _ ?_
  conv_rhs => rw [← List.zipIdx_map_fst 0 n.children]
  rw [List.flatMap_map]
  refine List.flatMap_congr fun x hx => ?_
  have hchild : n.children[x.2]? = some x.1 := List.mem_zipIdx_iff_getElem?.mp hx
  rw [if_pos rfl, List.filterMap_map, nodes, positions]
  refine List.filterMap_congr fun q _ => ?_
  rw [Function.comp, at?_cons, hchild, Option.bind_some]

theorem firstFaultAmong_eq {ns : List Node}
    (h : ∀ c ∈ ns, c.firstFaultExhaustive = c.nodes.find? isFault) :
    firstFaultAmong ns = (ns.flatMap nodes).find? isFault := by
  induction ns with
  | nil => rfl
  | cons c ns ih =>
    rw [firstFaultAmong, h c List.mem_cons_self, ih fun d hd => h d (List.mem_cons_of_mem c hd),
      List.flatMap_cons, List.find?_append]

/-- The search by recursion on the tree goes through the nodes in document order. -/
theorem firstFaultExhaustive_eq (n : Node) : n.firstFaultExhaustive = n.nodes.find? isFault := by
  induction n using children_induction with
  | step n ih =>
  have hrec : n.firstFaultExhaustive
      = if n.isFault then some n else firstFaultAmong n.children := by
    cases n
    rfl
  rw [hrec, firstFaultAmong_eq ih, nodes_eq, List.find?_cons]
  cases n.isFault <;> rfl

theorem firstFaultExhaustive_eq_bind (root : Node) :
    root.firstFaultExhaustive = root.firstFaultPosition.bind root.at? := by
  rw [firstFaultExhaustive_eq, nodes, List.find?_filterMap]
  rfl

/-! ### Marks that are true -/

theorem forall_at?_iff {motive : Node → Prop} : (∀ p m, n.at? p = some m → motive m) ↔
    motive n ∧ ∀ c ∈ n.children, ∀ p m, c.at? p = some m → motive m := by
  constructor
  · intro h
    refine ⟨h [] n rfl, fun c hc p m hm => ?_⟩
    obtain ⟨i, hi⟩ := List.mem_iff_getElem?.mp hc
    refine h (i :: p) m ?_
    rw [at?_cons, hi, Option.bind_some, hm]
  · rintro ⟨hself, hbelow⟩ (_ | ⟨i, p⟩) m hm
    · obtain rfl := Option.some.inj hm
      exact hself
    · rw [at?_cons] at hm
      obtain ⟨c, hc, hm⟩ := Option.bind_eq_some_iff.mp hm
      exact hbelow c (List.mem_of_getElem? hc) p m hm

theorem not_hasFault_iff :
    ¬ n.HasFault ↔ ∀ p m, n.at? p = some m → ¬ m.isFault = true := by
  simp only [HasFault, not_exists, not_and]

theorem hasFault_iff : n.HasFault ↔ n.isFault = true ∨ ∃ c ∈ n.children, c.HasFault := by
  rw [← not_iff_not, not_hasFault_iff, forall_at?_iff, not_or, not_exists]
  refine and_congr_right fun _ => forall_congr' fun c => ?_
  rw [not_and, not_hasFault_iff]

theorem allFaultsMarked_iff {ns : List Node} :
    AllFaultsMarked ns ↔ ∀ c ∈ ns, c.FaultsMarked := by
  induction ns with
  | nil => simp [AllFaultsMarked]
  | cons c ns ih => simp [AllFaultsMarked, ih]

theorem faultsMarked_iff_children : n.FaultsMarked ↔
    n.faulty = (n.isFault || n.children.any (·.faulty)) ∧ ∀ c ∈ n.children, c.FaultsMarked := by
  rw [← allFaultsMarked_iff]
  cases n
  rfl

/-- The marks of a tree may be checked node by node, against the marks of the children. -/
theorem faultsMarked_iff (n : Node) : n.FaultsMarked ↔
    ∀ p m, n.at? p = some m → (m.faulty = true ↔ m.HasFault) := by
  induction n using children_induction with
  | step n ih =>
  rw [faultsMarked_iff_children, forall_at?_iff]
  have hchildren : (∀ c ∈ n.children, c.FaultsMarked) ↔ ∀ c ∈ n.children, ∀ p m,
      c.at? p = some m → (m.faulty = true ↔ m.HasFault) :=
    forall₂_congr ih
  rw [hchildren]
  refine and_congr_left fun hbelow => ?_
  have hmarks : (∃ c ∈ n.children, c.faulty = true) ↔ ∃ c ∈ n.children, c.HasFault :=
    exists_congr fun c => and_congr_right fun hc => hbelow c hc [] c rfl
  rw [Bool.eq_iff_iff, Bool.or_eq_true, List.any_eq_true, hmarks, hasFault_iff]

/-! ### Positions below a position -/

/-- The positions at and below a position, in document order. -/
def positionsFrom (root : Node) (p : Position) : List Position :=
  (root.siteAt p).node.positions.map (p ++ ·)

theorem positionsFrom_root (root : Node) : root.positionsFrom [] = root.positions :=
  List.map_id _

theorem positionsFrom_eq (hp : root.at? p = some n) :
    root.positionsFrom p = p :: (root.childPositions p).flatMap root.positionsFrom := by
  rw [positionsFrom, node_siteAt hp, positions, map_reach_eq hp]
  rfl

/-- The first fault at or below a position is the first fault of the part of the tree there. -/
theorem find?_positionsFrom (hp : root.at? p = some n) :
    (root.positionsFrom p).find? root.isFaultAt = n.firstFaultPosition.map (p ++ ·) := by
  have hbelow : root.isFaultAt ∘ (p ++ ·) = n.isFaultAt := funext (isFaultAt_append hp)
  rw [positionsFrom, node_siteAt hp, List.find?_map, hbelow, firstFaultPosition]

theorem filterMap_childPositions (hp : root.at? p = some n) :
    (root.childPositions p).filterMap root.at? = n.children := by
  rw [childPositions, node_siteAt hp, range_length_eq, List.filterMap_map, List.filterMap_map]
  conv_rhs => rw [← List.zipIdx_map_fst 0 n.children, ← List.filterMap_eq_map]
  refine List.filterMap_congr fun x hx => ?_
  have hchild : n.children[x.2]? = some x.1 := List.mem_zipIdx_iff_getElem?.mp hx
  simp only [Function.comp, at?_append, hp, Option.bind_some, at?_cons, hchild]
  rfl

end Node

/-! ### The search with a stack -/

/-- The state of the search: the positions that wait on the stack, of which the last is taken next;
or what has been found, when the search has ended. -/
inductive FaultSearch where
  | searching (stack : List Position)
  | ended (found : Option Position)

namespace FaultSearch

open CodeAtlas.Extraction (Visit.weight Visit.weight_append Visit.weight_reverse
  Visit.weight_childPositions Visit.weight_concat)
open Node

/-- The whole tree is to be searched. -/
def start : FaultSearch := searching [[]]

/-- One turn of the search: a fault ends it, a marked node gives way to its children, which are put
on the stack in reverse, and an unmarked one is dropped.  With nothing on the stack there is no
fault to be found. -/
def turn (root : Node) : FaultSearch → FaultSearch
  | ended found => ended found
  | searching stack =>
    match stack.getLast? with
    | none => ended none
    | some p =>
      if root.isFaultAt p then ended (some p)
      else if root.isMarkedAt p then searching (stack.dropLast ++ (root.childPositions p).reverse)
      else searching stack.dropLast

/-- There are nodes at the positions that wait. -/
def IsSound (root : Node) : FaultSearch → Prop
  | searching stack => ∀ p ∈ stack, ∃ n, root.at? p = some n
  | ended _ => True

/-- The search has ended. -/
def HasEnded (s : FaultSearch) : Prop := ∃ found, s = ended found

/-- The first fault of what waits, all of it, the last part first; or what has been found. -/
def first (root : Node) : FaultSearch → Option Position
  | searching stack => (stack.reverse.flatMap root.positionsFrom).find? root.isFaultAt
  | ended found => found

/-- What `firstFaultFrom` finds among the waiting nodes; or the node that has been found. -/
def node (root : Node) : FaultSearch → Option Node
  | searching stack => firstFaultFrom (stack.reverse.filterMap root.at?)
  | ended found => found.bind root.at?

/-- A bound on the number of turns that are left. -/
def turnsLeft (root : Node) : FaultSearch → Nat
  | searching stack => Visit.weight root stack + 1
  | ended _ => 0

variable {root n : Node} {stack : List Position} {p : Position}

theorem turn_nil : turn root (searching []) = ended none := rfl

theorem turn_concat (hp : root.at? p = some n) : turn root (searching (stack ++ [p]))
    = if n.isFault then ended (some p)
      else if n.faulty then searching (stack ++ (root.childPositions p).reverse)
      else searching stack := by
  simp only [turn, List.getLast?_concat, List.dropLast_concat, isFaultAt_of_at? hp,
    isMarkedAt_of_at? hp]

theorem IsSound.cases {s : FaultSearch} (hsound : s.IsSound root) :
    s.HasEnded ∨ s = searching [] ∨ ∃ stack p n, s = searching (stack ++ [p]) ∧
      IsSound root (searching stack) ∧ root.at? p = some n := by
  obtain ⟨stack⟩ | ⟨found⟩ := s
  · rcases List.eq_nil_or_concat' stack with rfl | ⟨stack, p, rfl⟩
    · exact Or.inr (Or.inl rfl)
    · obtain ⟨n, hp⟩ := hsound p (by simp)
      exact Or.inr (Or.inr ⟨stack, p, n, rfl, fun q hq => hsound q (by simp [hq]), hp⟩)
  · exact Or.inl ⟨found, rfl⟩

theorem IsSound.turn {s : FaultSearch} (hsound : s.IsSound root) :
    (turn root s).IsSound root := by
  obtain ⟨found, rfl⟩ | rfl | ⟨stack, p, n, rfl, hrest, hp⟩ := hsound.cases
  · trivial
  · trivial
  rw [turn_concat hp]
  split_ifs
  · trivial
  · intro q hq
    rcases List.mem_append.mp hq with hq | hq
    · exact hrest q hq
    · obtain ⟨c, -, hc⟩ := at?_childPositions hp (List.mem_reverse.mp hq)
      exact ⟨c, hc⟩
  · exact hrest

theorem turnsLeft_turn_lt {s : FaultSearch} (hsound : s.IsSound root) (hended : ¬ s.HasEnded) :
    turnsLeft root (turn root s) < turnsLeft root s := by
  obtain h | rfl | ⟨stack, p, n, rfl, -, hp⟩ := hsound.cases
  · exact absurd h hended
  · exact Nat.succ_pos _
  have hweight := Visit.weight_concat stack hp
  have hbelow := Visit.weight_childPositions hp
  rw [turn_concat hp]
  split_ifs <;> simp only [turnsLeft, hweight, Visit.weight_append, Visit.weight_reverse] <;> omega

/-- A turn of the search is a step of `firstFaultFrom`. -/
theorem node_turn {s : FaultSearch} (hsound : s.IsSound root) :
    (turn root s).node root = s.node root := by
  obtain ⟨found, rfl⟩ | rfl | ⟨stack, p, n, rfl, -, hp⟩ := hsound.cases
  · rfl
  · simp [turn_nil, node, firstFaultFrom]
  have hwaiting : (stack ++ [p]).reverse.filterMap root.at?
      = n :: stack.reverse.filterMap root.at? := by
    rw [List.reverse_concat, List.filterMap_cons_some hp]
  rw [turn_concat hp]
  simp only [node, hwaiting]
  rw [firstFaultFrom]
  split_ifs
  · exact hp
  · -- the children wait in reverse, so they are next and in order
    simp only [List.reverse_append, List.reverse_reverse, List.filterMap_append,
      filterMap_childPositions hp]
  · rfl

/-- Where the marks are true, a turn does not change the first fault of what waits. -/
theorem first_turn (hmarks : root.FaultsMarked) {s : FaultSearch} (hsound : s.IsSound root) :
    (turn root s).first root = s.first root := by
  obtain ⟨found, rfl⟩ | rfl | ⟨stack, p, n, rfl, -, hp⟩ := hsound.cases
  · rfl
  · rfl
  have hfault := isFaultAt_of_at? hp
  have hwaiting : (stack ++ [p]).reverse.flatMap root.positionsFrom
      = root.positionsFrom p ++ stack.reverse.flatMap root.positionsFrom := by
    rw [List.reverse_concat, List.flatMap_cons]
  rw [turn_concat hp]
  simp only [first, hwaiting]
  split_ifs with hn hmarked
  · rw [positionsFrom_eq hp, List.cons_append, List.find?_cons_of_pos (hfault.trans hn)]
  · have hpass : ¬ root.isFaultAt p = true := by rwa [hfault]
    rw [positionsFrom_eq hp, List.cons_append, List.find?_cons_of_neg hpass]
    simp only [List.reverse_append, List.reverse_reverse, List.flatMap_append]
  · -- the part that is dropped has no fault, by its mark
    have hnone : n.firstFaultPosition = none :=
      firstFaultPosition_eq_none_iff.mpr (mt ((faultsMarked_iff root).mp hmarks p n hp).mpr hmarked)
    rw [List.find?_append, find?_positionsFrom hp, hnone, Option.map_none, Option.none_or]

/-- What the states of a search of a tree have in common. -/
structure Consistent (root : Node) (s : FaultSearch) : Prop where
  sound : s.IsSound root
  node_eq : s.node root = root.firstFault
  first_eq : s.first root = root.firstFaultPosition

theorem consistent_start (root : Node) : start.Consistent root where
  sound := by simp [IsSound, start, at?]
  node_eq := rfl
  first_eq := by simp [first, start, positionsFrom_root, firstFaultPosition]

theorem Consistent.turn (hmarks : root.FaultsMarked) {s : FaultSearch} (h : s.Consistent root) :
    (turn root s).Consistent root where
  sound := h.sound.turn
  node_eq := (node_turn h.sound).trans h.node_eq
  first_eq := (first_turn hmarks h.sound).trans h.first_eq

/-- Where the marks are true, the search ends with the first fault of the tree, and `firstFault`
finds the node there. -/
theorem exists_turns (hmarks : root.FaultsMarked) :
    ∃ k ≤ root.size + 1, (FaultSearch.turn root)^[k] start = ended root.firstFaultPosition ∧
      root.firstFault = root.firstFaultPosition.bind root.at? := by
  have hturns : turnsLeft root start = root.size + 1 := by
    simp [turnsLeft, start, Visit.weight, siteAt, siteFrom]
  obtain ⟨k, hk, hconsistent, found, hfound⟩ := exists_iterate_over (FaultSearch.turn root)
    (turnsLeft root) (Consistent root) HasEnded
    (fun s hs hended => ⟨hs.turn hmarks, turnsLeft_turn_lt hs.sound hended⟩) (consistent_start root)
  rw [hfound] at hconsistent
  obtain rfl : found = root.firstFaultPosition := hconsistent.first_eq
  exact ⟨k, hturns ▸ hk, hfound, hconsistent.node_eq.symm⟩

end FaultSearch

namespace Node

/-- In a tree whose nodes are marked faulty exactly when there is a fault at them or below them, the
search with a stack that passes over unmarked parts ends, within one turn more than the tree has
nodes, with the first fault in document order, which has the least position of all faults.  So
`firstFault` finds the same node as the exhaustive search, and if the root is marked it finds one,
whose line is the line that is given for a text that has been read as this tree. -/
theorem firstFault_exact (root : Node)
    (hmarks : ∀ p n, root.at? p = some n → (n.faulty = true ↔ n.HasFault)) :
    (∃ k ≤ root.size + 1,
      (FaultSearch.turn root)^[k] FaultSearch.start = .ended root.firstFaultPosition) ∧
    (∀ p, root.firstFaultPosition = some p ↔
      root.isFaultAt p = true ∧ ∀ q < p, root.isFaultAt q = false) ∧
    root.firstFault = root.firstFaultPosition.bind root.at? ∧
    root.firstFault = root.firstFaultExhaustive ∧
    (root.faulty = true → ∃ n, root.firstFault = some n ∧ n.isFault = true ∧
      ∀ dialect path language text, Grammar.parse dialect text = root →
        FileRecord.ofSource dialect path language text
          = .error (.syntaxError path (some n.line) dialect)) := by
  obtain ⟨k, hk, hrun, hfirst⟩ := FaultSearch.exists_turns ((faultsMarked_iff root).mpr hmarks)
  refine ⟨⟨k, hk, hrun⟩, fun p => firstFaultPosition_eq_some_iff, hfirst,
    hfirst.trans (firstFaultExhaustive_eq_bind root).symm, fun hfaulty => ?_⟩
  have hfault : root.HasFault := (hmarks [] root rfl).mp hfaulty
  have hsome : root.firstFaultPosition ≠ none := fun hnone =>
    firstFaultPosition_eq_none_iff.mp hnone hfault
  obtain ⟨p, hp⟩ := Option.ne_none_iff_exists'.mp hsome
  obtain ⟨n, hn, hisFault⟩ := isFaultAt_iff.mp (firstFaultPosition_spec hp).1
  have hfound : root.firstFault = some n := by rw [hfirst, hp, Option.bind_some, hn]
  refine ⟨n, hfound, hisFault, fun dialect path language text htree => ?_⟩
  simp only [FileRecord.ofSource, htree, hfaulty, hfound, if_true, Option.map_some]

/-- A program with a block that is not closed before its fourth line ends, and with two more faults
on its last line. -/
def unclosedBlock : Node :=
  part .program 0 4 true [
    part .expressionStatement 0 0 false [part .identifier 0 0 false []],
    part .ifStatement 1 3 true [
      part .parenthesizedExpression 1 1 false [],
      part .statementBlock 1 3 true [
        part .returnStatement 2 2 false [],
        ⟨.token "\x7d", none, 3, 3, "", true, true, []⟩]],
    part .error 4 4 true [part .error 4 4 true []]]
where
  part (rule : Rule) (firstRow lastRow : Nat) (faulty : Bool) (children : List Node) : Node :=
    ⟨.rule rule, none, firstRow, lastRow, "", false, faulty, children⟩

/-- What is read from a text with a bracket on its second line that nothing opens. -/
def strayBracket : Node := Grammar.parse .javascript "a;\n)"

theorem faultsMarked_strayBracket : strayBracket.FaultsMarked := by
  have htree : strayBracket = ⟨.rule .program, none, 0, 1, "a;\n)", false, true, [
      ⟨.rule .expressionStatement, none, 0, 0, "a;", false, false, [
        ⟨.rule .identifier, none, 0, 0, "a", false, false, []⟩,
        ⟨.token ";", none, 0, 0, ";", false, false, []⟩]⟩,
      ⟨.rule .error, none, 1, 1, "", false, true, []⟩]⟩ := rfl
  simp [htree, FaultsMarked, AllFaultsMarked, isFault, isRule]

/-- Of the faults of a tree the missing end of the block is found, before those on the last line;
and a text is refused for the stray bracket on its second line. -/
theorem firstFault_exact_unclosedBlock :
    ((∀ p n, unclosedBlock.at? p = some n → (n.faulty = true ↔ n.HasFault)) ∧
      unclosedBlock.faulty = true ∧
      [[1, 1, 1], [2], [2, 0]].all unclosedBlock.isFaultAt = true ∧
      unclosedBlock.firstFaultPosition = some [1, 1, 1] ∧
      unclosedBlock.firstFault.map (·.line) = some 4) ∧
    (∀ p n, strayBracket.at? p = some n → (n.faulty = true ↔ n.HasFault)) ∧
      FileRecord.ofSource .javascript "a.js" "js" "a;\n)"
        = .error (.syntaxError "a.js" (some 2) .javascript) := by
  have hmarks := (faultsMarked_iff unclosedBlock).mp
    (by simp [FaultsMarked, AllFaultsMarked, unclosedBlock, unclosedBlock.part, isFault, isRule])
  have hposition : unclosedBlock.firstFaultPosition = some [1, 1, 1] := by decide +kernel
  obtain ⟨-, -, hfound, -⟩ := firstFault_exact unclosedBlock hmarks
  refine ⟨⟨hmarks, rfl, by decide +kernel, hposition, ?_⟩, ?_⟩
  · rw [hfound, hposition]
    rfl
  have hmarks' := (faultsMarked_iff strayBracket).mp faultsMarked_strayBracket
  obtain ⟨n, hn, -, hrefused⟩ := (firstFault_exact strayBracket hmarks').2.2.2.2 rfl
  have hline : strayBracket.firstFault.map (·.line) = some 2 := by decide +kernel
  refine ⟨hmarks', ?_⟩
  rw [hn, Option.map_some, Option.some_inj] at hline
  rw [hrefused .javascript "a.js" "js" "a;\n)" rfl, hline]

end Node

end CodeAtlas.Syntax
