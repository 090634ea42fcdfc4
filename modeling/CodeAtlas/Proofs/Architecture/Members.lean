import CodeAtlas.Architecture.Grouping
import CodeAtlas.Proofs.SortedTexts
import Mathlib.Data.List.Perm.Basic

/-!
# The members of components

The files of a repository are put in the order of their paths, and then dealt out to components by
the directories in which they lie.  Every file comes to one component (`perm_flatMap_filesOf`), and
because components are named in the order in which they first occur, each of them begins with a file
that comes before all files of the later ones (`pairwise_componentNames`).
-/

namespace CodeAtlas

theorem flatMap_filter_singleton {κ α : Type} (test : κ → α → Bool) (keys : List κ) (x : α) :
    (keys.flatMap fun k => [x].filter (test k)) = List.replicate (keys.countP (test · x)) x := by
  induction keys with
  | nil => rfl
  | cons k keys ih =>
    rw [List.flatMap_cons, ih, List.countP_cons]
    by_cases hk : test k x = true
    · rw [List.filter_cons_of_pos hk, if_pos hk, List.replicate_succ]
      rfl
    · rw [List.filter_cons_of_neg hk, if_neg hk]
      rfl

/-- When each element passes the test of exactly one key, elements that are dealt out to the keys
are all there, each once. -/
theorem perm_flatMap_filter {κ α : Type} {test : κ → α → Bool} {keys : List κ} {xs : List α}
    (h : ∀ x ∈ xs, keys.countP (test · x) = 1) :
    (keys.flatMap fun k => xs.filter (test k)).Perm xs := by
  -- The first element goes to its key, and the rest is dealt out around it.
  induction xs with
  | nil => simp
  | cons x xs ih =>
    have hx : (keys.flatMap fun k => [x].filter (test k)) = [x] := by
      rw [flatMap_filter_singleton, h x List.mem_cons_self, List.replicate_one]
    have hxs := ih fun y hy => h y (List.mem_cons_of_mem _ hy)
    have hsplit : ∀ k, (x :: xs).filter (test k) = [x].filter (test k) ++ xs.filter (test k) :=
      fun k => List.filter_append [x] xs
    calc (keys.flatMap fun k => (x :: xs).filter (test k))
      _ = keys.flatMap fun k => [x].filter (test k) ++ xs.filter (test k) := by simp only [hsplit]
      _ |>.Perm ((keys.flatMap fun k => [x].filter (test k))
            ++ keys.flatMap fun k => xs.filter (test k)) :=
        (List.flatMap_append_perm keys _ _).symm
      _ |>.Perm (x :: xs) := by
        rw [hx]
        exact hxs.cons x

namespace Architecture

/-! ### Files in order -/

theorem perm_sortFiles (files : List FileRecord) : (sortFiles files).Perm files :=
  List.mergeSort_perm _ _

theorem mem_sortFiles {files : List FileRecord} {f : FileRecord} :
    f ∈ sortFiles files ↔ f ∈ files :=
  List.mem_mergeSort

theorem pairwise_le_sortFiles (records : List FileRecord) :
    (sortFiles records).Pairwise (fun a b => a.path ≤ b.path) :=
  pairwise_key_le_mergeSort (fun _ _ => decide_eq_true_iff) records

/-- Records with different paths are put in strictly ascending order. -/
theorem pairwise_lt_sortFiles {records : List FileRecord} (h : (records.map (·.path)).Nodup) :
    (sortFiles records).Pairwise (fun a b => a.path < b.path) :=
  pairwise_key_lt_mergeSort (fun _ _ => decide_eq_true_iff) h

/-- Records with different paths are put in the same order wherever they come from. -/
theorem sortFiles_congr {records records' : List FileRecord} (hperm : records.Perm records')
    (h : (records.map (·.path)).Nodup) :
    sortFiles records = sortFiles records' := by
  have h' : (records'.map (·.path)).Nodup := (hperm.map _).nodup_iff.mp h
  have hsorted : (sortFiles records).Perm (sortFiles records') :=
    ((perm_sortFiles records).trans hperm).trans (perm_sortFiles records').symm
  refine hsorted.eq_of_pairwise ?_ (pairwise_lt_sortFiles h) (pairwise_lt_sortFiles h')
  intro a b _ _ hab hba
  exact absurd (hab.trans hba) (lt_irrefl _)

/-! ### Dealing out files -/

variable {files : List FileRecord} {name : String}

theorem mem_componentNames :
    name ∈ componentNames files ↔ ∃ f ∈ files, Component.nameOf f.path = name := by
  rw [componentNames, List.mem_eraseDups, List.mem_map]

theorem nodup_componentNames (files : List FileRecord) : (componentNames files).Nodup :=
  nodup_eraseDups _

theorem mem_filesOf {f : FileRecord} :
    f ∈ filesOf name files ↔ f ∈ files ∧ Component.nameOf f.path = name := by
  rw [filesOf, List.mem_filter, beq_iff_eq]

theorem filesOf_ne_nil (h : name ∈ componentNames files) : filesOf name files ≠ [] := by
  obtain ⟨f, hf, hname⟩ := mem_componentNames.mp h
  exact List.ne_nil_of_mem (mem_filesOf.mpr ⟨hf, hname⟩)

/-- Every file comes to one component. -/
theorem perm_flatMap_filesOf (files : List FileRecord) :
    ((componentNames files).flatMap (filesOf · files)).Perm files := by
  refine perm_flatMap_filter fun f hf => ?_
  have hmem : Component.nameOf f.path ∈ componentNames files := mem_componentNames.mpr ⟨f, hf, rfl⟩
  rw [← List.count_eq_one_of_mem (nodup_componentNames files) hmem, List.count_eq_countP]
  refine List.countP_congr fun n _ => ?_
  rw [beq_iff_eq, beq_iff_eq, eq_comm]

/-- The first file decides on the first component, and the files of other directories on the rest.
-/
theorem componentNames_cons (f : FileRecord) (files : List FileRecord) :
    componentNames (f :: files) = Component.nameOf f.path :: componentNames
      (files.filter fun g => !Component.nameOf g.path == Component.nameOf f.path) := by
  rw [componentNames, componentNames, List.map_cons, List.eraseDups_cons, List.filter_map,
    Function.comp_def]

/-- The files of the first file's component can be left out when another component is dealt with. -/
theorem filesOf_cons_of_ne {f : FileRecord} (h : name ≠ Component.nameOf f.path) :
    filesOf name (f :: files) = filesOf name
      (files.filter fun g => !Component.nameOf g.path == Component.nameOf f.path) := by
  rw [filesOf, filesOf, List.filter_filter, List.filter_cons_of_neg]
  · refine List.filter_congr fun g _ => ?_
    by_cases hg : Component.nameOf g.path = name
    · simp [hg, h]
    · simp [hg]
  · simpa using fun hf => h hf.symm

/-- Components are named in the order of their first files. -/
theorem pairwise_componentNames (hsorted : files.Pairwise fun f g => f.path ≤ g.path) :
    (componentNames files).Pairwise fun n m =>
      ∃ f ∈ filesOf n files, ∀ g ∈ filesOf m files, f.path < g.path := by
  -- The names after the first are those of the files that the first component leaves over, so the
  -- induction is on the number of files.
  induction hlength : files.length using Nat.strong_induction_on generalizing files with
  | _ length ih =>
  cases files with
  | nil => exact List.Pairwise.nil
  | cons f files =>
    obtain ⟨hfirst, hrest⟩ := List.pairwise_cons.mp hsorted
    set others := files.filter fun g => !Component.nameOf g.path == Component.nameOf f.path
    have hne : ∀ {m}, m ∈ componentNames others → m ≠ Component.nameOf f.path := by
      intro m hm
      obtain ⟨g, hg, rfl⟩ := mem_componentNames.mp hm
      simpa using (List.mem_filter.mp hg).2
    rw [componentNames_cons, List.pairwise_cons]
    constructor
    · intro m hm
      refine ⟨f, mem_filesOf.mpr ⟨List.mem_cons_self, rfl⟩, fun g hg => ?_⟩
      obtain ⟨hgmem, hgname⟩ := mem_filesOf.mp hg
      -- A file of another component has another path, even if it is not greater by the order.
      have hpath : f.path ≠ g.path := by
        intro h
        rw [← hgname, ← h] at hm
        exact hne hm rfl
      rcases List.mem_cons.mp hgmem with heq | hgmem
      · exact absurd (congrArg FileRecord.path heq.symm) hpath
      · exact lt_of_le_of_ne (hfirst g hgmem) hpath
    · have hlt : others.length < length := by
        rw [← hlength, List.length_cons]
        exact Nat.lt_succ_of_le (List.length_filter_le _ _)
      refine List.Pairwise.imp_of_mem ?_ (ih _ hlt (hrest.filter _) rfl)
      intro n m hn hm h
      rwa [filesOf_cons_of_ne (hne hn), filesOf_cons_of_ne (hne hm)]

end Architecture

end CodeAtlas
