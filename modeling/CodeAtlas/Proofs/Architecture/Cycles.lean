import CodeAtlas.Proofs.Architecture.Graph
import CodeAtlas.Proofs.SortedTexts
import Mathlib.Data.Finset.Max
import Mathlib.Data.List.Cycle
import Mathlib.Data.Set.Card

/-!
# The search for cycles

A cycle of a graph has no first node, so it is a `Cycle`: a list up to rotation.  Every elementary
cycle can be written in one way from its least name on (`beginsAtLeast_fromLeast`, `eq_of_coe_eq`).
What lists each cycle of at most six nodes once, from whichever node on, enumerates them
(`Enumerates`), and `elementaryCycles` does (`enumerates_elementaryCycles`).

The search goes on from a path, node by node.  `Completes` says which lists of nodes lead on from a
path and back to the start, and the induction is on the number of nodes that may still be added
(`mem_cyclesThrough`).
-/

namespace CodeAtlas.ComponentGraph

/-! ### Elementary cycles -/

/-- From each node of the cycle an edge leads to the next one, and no node occurs twice.  A loop is
a cycle of one node. -/
structure IsElementary (g : ComponentGraph) (c : Cycle String) : Prop where
  ne_nil : c ≠ Cycle.nil
  nodup : c.Nodup
  chain : c.Chain fun a b => (a, b) ∈ g.joined

/-- The elementary cycles of at most six nodes. -/
def shortCycles (g : ComponentGraph) : Set (Cycle String) := {c | g.IsElementary c ∧ c.length ≤ 6}

/-- Only the pairs of nodes that are joined matter to the cycles. -/
theorem shortCycles_congr {g other : ComponentGraph}
    (h : ∀ pair, pair ∈ g.joined ↔ pair ∈ other.joined) : g.shortCycles = other.shortCycles := by
  have helementary : ∀ {g other : ComponentGraph} {c : Cycle String},
      (∀ pair, pair ∈ g.joined ↔ pair ∈ other.joined) → g.IsElementary c → other.IsElementary c :=
    fun h hc => ⟨hc.ne_nil, hc.nodup, hc.chain.imp fun a b => (h (a, b)).mp⟩
  ext c
  exact and_congr_left' ⟨helementary h, helementary fun pair => (h pair).symm⟩

/-- The list has a first name, and no name in it is less. -/
def BeginsAtLeast (names : List String) : Prop := ∃ a ∈ names.head?, ∀ b ∈ names, a ≤ b

/-- Two rotations of a list are the two ways to put its two parts together. -/
theorem exists_append_of_isRotated {α : Type} {xs ys : List α} (h : xs.IsRotated ys) :
    ∃ u v, xs = u ++ v ∧ ys = v ++ u := by
  obtain ⟨n, hn, hrotate⟩ := List.isRotated_iff_mod.mp h
  refine ⟨xs.take n, xs.drop n, (List.take_append_drop n xs).symm, ?_⟩
  rw [← hrotate, List.rotate_eq_drop_append_take hn]

/-- A cycle that passes no node twice is written from its least name on in one way only. -/
theorem eq_of_coe_eq {xs ys : List String} (hnodup : xs.Nodup) (hx : BeginsAtLeast xs)
    (hy : BeginsAtLeast ys) (h : (xs : Cycle String) = ys) : xs = ys := by
  have hrotated : xs.IsRotated ys := Cycle.coe_eq_coe.mp h
  obtain ⟨a, ha, hleast⟩ := hx
  obtain ⟨b, hb, hleast'⟩ := hy
  have hab : a = b := by
    apply le_antisymm
    · exact hleast b (hrotated.mem_iff.mpr (List.mem_of_mem_head? hb))
    · exact hleast' a (hrotated.mem_iff.mp (List.mem_of_mem_head? ha))
  obtain ⟨u, v, rfl, rfl⟩ := exists_append_of_isRotated hrotated
  cases u with
  | nil => rw [List.nil_append, List.append_nil]
  | cons x u =>
    cases v with
    | nil => rw [List.nil_append, List.append_nil]
    | cons y v =>
      -- The two heads are in both parts of a list without repetition.
      rw [List.cons_append, List.head?_cons, Option.mem_some_iff] at ha hb
      have hxy : x = y := ha.trans (hab.trans hb.symm)
      exact absurd hxy ((List.nodup_append.mp hnodup).2.2 x List.mem_cons_self y List.mem_cons_self)

theorem isRotated_fromLeast (names : List String) : (fromLeast names).IsRotated names := by
  rw [fromLeast]
  generalize names.findIdx (fun name => names.all fun other => name ≤ other) = start
  have h : (names.drop start ++ names.take start).IsRotated
      (names.take start ++ names.drop start) := List.isRotated_append
  rwa [List.take_append_drop] at h

/-- Written from its least name on, a cycle stays the same. -/
theorem coe_fromLeast (names : List String) : (fromLeast names : Cycle String) = names :=
  Cycle.coe_eq_coe.mpr (isRotated_fromLeast names)

theorem beginsAtLeast_fromLeast {names : List String} (h : names ≠ []) :
    BeginsAtLeast (fromLeast names) := by
  -- A list has a least name, so there is a place for the rotation to begin at.
  obtain ⟨a, ha, hleast⟩ :=
    names.toFinset.exists_min_image id ((List.toFinset_nonempty_iff names).mpr h)
  simp only [List.mem_toFinset, id] at ha hleast
  have hstart : names.findIdx (fun name => names.all fun other => name ≤ other) < names.length :=
    List.findIdx_lt_length_of_exists
      ⟨a, ha, List.all_eq_true.mpr fun b hb => decide_eq_true (hleast b hb)⟩
  have hfirst := List.all_eq_true.mp (List.findIdx_getElem (w := hstart))
  refine ⟨names[names.findIdx fun name => names.all fun other => name ≤ other], ?_, fun b hb => ?_⟩
  · rw [fromLeast, List.drop_eq_getElem_cons hstart]
    rfl
  · exact of_decide_eq_true (hfirst b ((isRotated_fromLeast names).mem_iff.mp hb))

/-! ### The search from one node -/

/-- `rest` leads on from a path, whose last node comes first, and back to `start`: along edges, over
different nodes that are greater than `start` and not in the path. -/
structure Completes (g : ComponentGraph) (start : String) (path rest : List String) : Prop where
  chain : (path.headD start :: (rest ++ [start])).IsChain fun a b => (a, b) ∈ g.joined
  greater : ∀ n ∈ rest, start < n
  fresh : ∀ n ∈ rest, n ∉ path
  nodup : rest.Nodup

variable {g : ComponentGraph} {start : String}

/-- A path is closed by an edge from its last node. -/
theorem completes_nil {path : List String} :
    Completes g start path [] ↔ (path.headD start, start) ∈ g.joined := by
  constructor
  · intro h
    exact List.isChain_pair.mp h.chain
  · intro h
    exact ⟨List.isChain_pair.mpr h, fun _ hn => absurd hn List.not_mem_nil,
      fun _ hn => absurd hn List.not_mem_nil, List.nodup_nil⟩

/-- What completes a path completes the path that is longer by its first node. -/
theorem completes_cons {path rest : List String} {n : String} :
    Completes g start path (n :: rest)
      ↔ (path.headD start, n) ∈ g.joined ∧ start < n ∧ n ∉ path ∧
        Completes g start (n :: path) rest := by
  constructor
  · intro h
    obtain ⟨hedge, hchain⟩ := List.isChain_cons_cons.mp h.chain
    obtain ⟨hn, hnodup⟩ := List.nodup_cons.mp h.nodup
    refine ⟨hedge, h.greater n List.mem_cons_self, h.fresh n List.mem_cons_self, hchain, ?_, ?_,
      hnodup⟩
    · exact fun m hm => h.greater m (List.mem_cons_of_mem n hm)
    · intro m hm hpath
      rcases List.mem_cons.mp hpath with rfl | hpath
      · exact hn hm
      · exact h.fresh m (List.mem_cons_of_mem n hm) hpath
  · rintro ⟨hedge, hgreater, hfresh, h⟩
    refine ⟨List.isChain_cons_cons.mpr ⟨hedge, h.chain⟩, ?_, ?_, ?_⟩
    · exact List.forall_mem_cons.mpr ⟨hgreater, h.greater⟩
    · exact List.forall_mem_cons.mpr
        ⟨hfresh, fun m hm hpath => h.fresh m hm (List.mem_cons_of_mem n hpath)⟩
    · exact List.nodup_cons.mpr ⟨fun hn => h.fresh n hn List.mem_cons_self, h.nodup⟩

theorem mem_sortedNames_successors {a b : String} :
    b ∈ sortedNames (g.successors a) ↔ (a, b) ∈ g.joined := by
  rw [sortedNames, mem_mergeSort_eraseDups, mem_successors]

/-- The nodes by which a path is continued. -/
def continuations (g : ComponentGraph) (start : String) (path : List String) : List String :=
  (sortedNames (g.successors (path.headD start))).filter fun n => start < n && !path.contains n

theorem mem_continuations {path : List String} {n : String} :
    n ∈ g.continuations start path
      ↔ (path.headD start, n) ∈ g.joined ∧ start < n ∧ n ∉ path := by
  rw [continuations, List.mem_filter, mem_sortedNames_successors, Bool.and_eq_true,
    decide_eq_true_eq, Bool.not_eq_true', ← Bool.not_eq_true, List.contains_iff_mem]

theorem nodup_continuations (path : List String) : (g.continuations start path).Nodup := by
  have hsorted := pairwise_lt_mergeSort_eraseDups (g.successors (path.headD start))
  exact (hsorted.imp fun h => h.ne).filter _

/-- The path alone, if an edge leads back from its last node. -/
def closed (g : ComponentGraph) (start : String) (path : List String) : List (List String) :=
  if (sortedNames (g.successors (path.headD start))).contains start then [path.reverse] else []

theorem mem_closed {path c : List String} :
    c ∈ g.closed start path ↔ (path.headD start, start) ∈ g.joined ∧ c = path.reverse := by
  rw [closed, ← mem_sortedNames_successors]
  by_cases h : start ∈ sortedNames (g.successors (path.headD start))
  · rw [if_pos (List.contains_iff_mem.mpr h), List.mem_singleton, and_iff_right h]
  · rw [if_neg (fun hc => h (List.contains_iff_mem.mp hc))]
    exact ⟨fun hc => absurd hc List.not_mem_nil, fun hc => absurd hc.1 h⟩

theorem cyclesThrough_zero (path : List String) :
    g.cyclesThrough start 0 path = g.closed start path := by
  rw [cyclesThrough, closed]

theorem cyclesThrough_succ (fuel : Nat) (path : List String) :
    g.cyclesThrough start (fuel + 1) path
      = g.closed start path ++ (g.continuations start path).flatMap fun n =>
          g.cyclesThrough start fuel (n :: path) := by
  rw [cyclesThrough, closed, continuations]

private theorem reverse_cons_append {α : Type} (x : α) (xs ys : List α) :
    (x :: xs).reverse ++ ys = xs.reverse ++ x :: ys := by
  rw [List.reverse_cons, List.append_assoc, List.singleton_append]

/-- The search goes through the cycles that begin with the path and complete it with nodes that are
not too many. -/
theorem mem_cyclesThrough {fuel : Nat} {path c : List String} :
    c ∈ g.cyclesThrough start fuel path
      ↔ ∃ rest, rest.length ≤ fuel ∧ Completes g start path rest ∧ c = path.reverse ++ rest := by
  -- One node more to add is one node less to complete the longer path with.
  induction fuel generalizing path with
  | zero =>
    rw [cyclesThrough_zero, mem_closed, ← completes_nil]
    constructor
    · rintro ⟨h, rfl⟩
      exact ⟨[], Nat.le_refl 0, h, (List.append_nil _).symm⟩
    · rintro ⟨rest, hlen, h, rfl⟩
      obtain rfl := List.eq_nil_of_length_eq_zero (Nat.le_zero.mp hlen)
      exact ⟨h, List.append_nil _⟩
  | succ fuel ih =>
    rw [cyclesThrough_succ, List.mem_append, List.mem_flatMap, mem_closed, ← completes_nil]
    constructor
    · rintro (⟨h, rfl⟩ | ⟨n, hn, hc⟩)
      · exact ⟨[], Nat.zero_le _, h, (List.append_nil _).symm⟩
      · obtain ⟨hedge, hgreater, hfresh⟩ := mem_continuations.mp hn
        obtain ⟨rest, hlen, h, rfl⟩ := ih.mp hc
        have hcompletes := completes_cons.mpr ⟨hedge, hgreater, hfresh, h⟩
        exact ⟨n :: rest, Nat.succ_le_succ hlen, hcompletes, reverse_cons_append n path rest⟩
    · rintro ⟨rest, hlen, h, rfl⟩
      cases rest with
      | nil => exact Or.inl ⟨h, List.append_nil _⟩
      | cons n rest =>
        obtain ⟨hedge, hgreater, hfresh, hrest⟩ := completes_cons.mp h
        refine Or.inr ⟨n, mem_continuations.mpr ⟨hedge, hgreater, hfresh⟩, ih.mpr ?_⟩
        exact ⟨rest, Nat.le_of_succ_le_succ hlen, hrest, (reverse_cons_append n path rest).symm⟩

/-- No cycle is gone through twice. -/
theorem nodup_cyclesThrough (fuel : Nat) (path : List String) :
    (g.cyclesThrough start fuel path).Nodup := by
  have hclosed : ∀ path, (g.closed start path).Nodup := by
    intro path
    rw [closed]
    split
    · exact List.nodup_singleton _
    · exact List.nodup_nil
  induction fuel generalizing path with
  | zero =>
    rw [cyclesThrough_zero]
    exact hclosed path
  | succ fuel ih =>
    -- A cycle that goes on by `n` has `n` right after the path.
    have hnext : ∀ {n c}, c ∈ g.cyclesThrough start fuel (n :: path) →
        ∃ rest, c = path.reverse ++ n :: rest := by
      intro n c hc
      obtain ⟨rest, -, -, rfl⟩ := mem_cyclesThrough.mp hc
      exact ⟨rest, reverse_cons_append n path rest⟩
    rw [cyclesThrough_succ]
    refine List.nodup_append'.mpr ⟨hclosed path, List.nodup_flatMap.mpr ⟨fun n _ => ih _, ?_⟩, ?_⟩
    · refine (nodup_continuations path).imp fun {n m} hne c hn hm => ?_
      obtain ⟨rest, rfl⟩ := hnext hn
      obtain ⟨rest', heq⟩ := hnext hm
      exact hne (List.cons.inj (List.append_cancel_left heq)).1
    · intro c hc hflat
      obtain ⟨n, -, hn⟩ := List.mem_flatMap.mp hflat
      obtain ⟨rest, rfl⟩ := hnext hn
      have hnil := List.append_right_eq_self.mp (mem_closed.mp hc).2
      exact List.cons_ne_nil n rest hnil

/-! ### The search from every node -/

/-- What completes a single node makes an elementary cycle with it that begins at its least name. -/
theorem completes_singleton_iff {rest : List String} :
    Completes g start [start] rest
      ↔ g.IsElementary (start :: rest : List String) ∧ BeginsAtLeast (start :: rest) := by
  constructor
  · intro h
    refine ⟨⟨?_, ?_, h.chain⟩, start, rfl, ?_⟩
    · rw [Ne, Cycle.coe_eq_nil]
      exact List.cons_ne_nil start rest
    · rw [Cycle.nodup_coe_iff, List.nodup_cons]
      exact ⟨fun hmem => lt_irrefl start (h.greater start hmem), h.nodup⟩
    · exact List.forall_mem_cons.mpr ⟨le_refl start, fun b hb => (h.greater b hb).le⟩
  · rintro ⟨h, a, ha, hleast⟩
    obtain rfl : start = a := Option.some.inj ha
    obtain ⟨hstart, hnodup⟩ := List.nodup_cons.mp (Cycle.nodup_coe_iff.mp h.nodup)
    have hne : ∀ n ∈ rest, n ≠ start := fun n hn heq => hstart (heq ▸ hn)
    refine ⟨h.chain, fun n hn => ?_, fun n hn hmem => ?_, hnodup⟩
    · exact lt_of_le_of_ne (hleast n (List.mem_cons_of_mem start hn)) (hne n hn).symm
    · exact hne n hn (List.mem_singleton.mp hmem)

/-- The search finds the elementary cycles of at most six nodes, each from its least name on. -/
theorem mem_elementaryCycles (hg : WellFormed g) {names : List String} :
    names ∈ g.elementaryCycles ↔ (names : Cycle String) ∈ g.shortCycles ∧ BeginsAtLeast names := by
  rw [elementaryCycles, List.mem_flatMap]
  constructor
  · rintro ⟨start, -, h⟩
    obtain ⟨rest, hlen, hcompletes, rfl⟩ := mem_cyclesThrough.mp h
    obtain ⟨helementary, hleast⟩ := completes_singleton_iff.mp hcompletes
    exact ⟨⟨helementary, Nat.succ_le_succ hlen⟩, hleast⟩
  · rintro ⟨⟨helementary, hlen⟩, hleast⟩
    cases names with
    | nil => exact absurd rfl helementary.ne_nil
    | cons start rest =>
      have hcompletes := completes_singleton_iff.mpr ⟨helementary, hleast⟩
      refine ⟨start, ?_, mem_cyclesThrough.mpr ⟨rest, Nat.le_of_succ_le_succ hlen, hcompletes, rfl⟩⟩
      -- An edge leads from every node of a cycle, so all of them are nodes of the graph.
      cases rest with
      | nil => exact (hg.mem_names (List.isChain_pair.mp hcompletes.chain)).1
      | cons n rest => exact (hg.mem_names (completes_cons.mp hcompletes).1).1

theorem nodup_elementaryCycles (hg : WellFormed g) : g.elementaryCycles.Nodup := by
  rw [elementaryCycles, List.nodup_flatMap]
  refine ⟨fun start _ => nodup_cyclesThrough _ _, hg.nodup_names.imp fun {a b} hne c ha hb => ?_⟩
  obtain ⟨rest, -, -, rfl⟩ := mem_cyclesThrough.mp ha
  obtain ⟨rest', -, -, heq⟩ := mem_cyclesThrough.mp hb
  exact hne (List.cons.inj heq).1

/-! ### Enumerations -/

/-- The lists stand for the elementary cycles of at most six nodes, each once.  A cycle may be
written from any of its nodes on. -/
structure Enumerates (g : ComponentGraph) (found : List (List String)) : Prop where
  mem_iff : ∀ c, c ∈ found.map Cycle.ofList ↔ c ∈ g.shortCycles
  nodup : (found.map Cycle.ofList).Nodup

/-- The search finds each of the short cycles once. -/
theorem enumerates_elementaryCycles (hg : WellFormed g) : Enumerates g g.elementaryCycles := by
  constructor
  · intro c
    rw [List.mem_map]
    constructor
    · rintro ⟨names, hnames, rfl⟩
      exact ((mem_elementaryCycles hg).mp hnames).1
    · intro hc
      induction c using Quotient.inductionOn' with
      | h names =>
      have hne : names ≠ [] := fun hnil => hc.1.ne_nil (by rw [hnil]; rfl)
      have hcycle : (fromLeast names : Cycle String) = names := coe_fromLeast names
      refine ⟨fromLeast names, (mem_elementaryCycles hg).mpr ⟨?_, ?_⟩, hcycle⟩
      · rw [hcycle]
        exact hc
      · exact beginsAtLeast_fromLeast hne
  · refine (nodup_elementaryCycles hg).map_on fun xs hx ys hy heq => ?_
    obtain ⟨⟨helementary, -⟩, hleast⟩ := (mem_elementaryCycles hg).mp hx
    obtain ⟨-, hleast'⟩ := (mem_elementaryCycles hg).mp hy
    exact eq_of_coe_eq (Cycle.nodup_coe_iff.mp helementary.nodup) hleast hleast' heq

/-- An enumeration is as long as there are short cycles. -/
theorem Enumerates.encard_shortCycles {found : List (List String)} (h : Enumerates g found) :
    g.shortCycles.encard = found.length := by
  have hset : g.shortCycles = ((found.map Cycle.ofList).toFinset : Set (Cycle String)) := by
    ext c
    rw [Finset.mem_coe, List.mem_toFinset, h.mem_iff]
  rw [hset, Set.encard_coe_eq_coe_finsetCard, List.toFinset_card_of_nodup h.nodup,
    List.length_map]

end CodeAtlas.ComponentGraph
