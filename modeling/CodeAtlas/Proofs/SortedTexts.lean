import Mathlib.Data.List.Induction
import Mathlib.Data.List.Sort
import Mathlib.Data.String.Basic

/-!
# Texts in order, each once

A list without its repetitions has each element once, in the order in which they first occur
(`nodup_eraseDups`, `pairwise_idxOf_eraseDups`).  What is put in order by a key is ascending in it
(`pairwise_key_le_mergeSort`), strictly if no key comes twice (`pairwise_key_lt_mergeSort`).

File paths and names are handed out as `xs.eraseDups.mergeSort (· ≤ ·)`.  Such a list is strictly
ascending (`pairwise_lt_mergeSort_eraseDups`) and has the elements of `xs`
(`mem_mergeSort_eraseDups`).  A strictly ascending list is determined by its elements, so a part of
a collection of texts is put in order by leaving the other texts out
(`mergeSort_eraseDups_eq_filter`).
-/

namespace CodeAtlas

/-- A last element is kept unless it occurs before. -/
theorem eraseDups_concat {α : Type} [BEq α] [LawfulBEq α] (xs : List α) (last : α) :
    (xs ++ [last]).eraseDups = if last ∈ xs then xs.eraseDups else xs.eraseDups ++ [last] := by
  rw [List.eraseDups_append]
  by_cases hlast : last ∈ xs
  · simp [List.removeAll, hlast]
  · simp [List.removeAll, hlast, List.eraseDups_cons]

/-- Elements are kept in the order in which they first occur. -/
theorem pairwise_idxOf_eraseDups {α : Type} [BEq α] [LawfulBEq α] (xs : List α) :
    xs.eraseDups.Pairwise fun x y => xs.idxOf x < xs.idxOf y := by
  induction xs using List.reverseRecOn with
  | nil => exact List.Pairwise.nil
  | append_singleton xs last ih =>
    have hkept : xs.eraseDups.Pairwise fun x y =>
        (xs ++ [last]).idxOf x < (xs ++ [last]).idxOf y := by
      refine ih.imp_of_mem fun hx hy h => ?_
      rwa [List.idxOf_append_of_mem (List.mem_eraseDups.mp hx),
        List.idxOf_append_of_mem (List.mem_eraseDups.mp hy)]
    rw [eraseDups_concat]
    split_ifs with hlast
    · exact hkept
    · rw [List.pairwise_append]
      refine ⟨hkept, List.pairwise_singleton _ _, fun x hx y hy => ?_⟩
      obtain rfl := List.mem_singleton.mp hy
      have hmem : x ∈ xs := List.mem_eraseDups.mp hx
      have hlt : xs.idxOf x < xs.length := List.idxOf_lt_length_iff.mpr hmem
      rw [List.idxOf_append_of_mem hmem, List.idxOf_append_of_notMem hlast]
      omega

/-- Each element is kept at its first place only. -/
theorem nodup_eraseDups {α : Type} [BEq α] [LawfulBEq α] (xs : List α) : xs.eraseDups.Nodup := by
  refine (pairwise_idxOf_eraseDups xs).imp fun {x y} hlt heq => ?_
  rw [heq] at hlt
  exact absurd hlt (lt_irrefl _)

section Keys

variable {α κ : Type} [LinearOrder κ] {le : α → α → Bool} {key : α → κ}

/-- What is put in order by a key is ascending in it. -/
theorem pairwise_key_le_mergeSort (h : ∀ a b, le a b = true ↔ key a ≤ key b) (xs : List α) :
    (xs.mergeSort le).Pairwise fun a b => key a ≤ key b := by
  have hsorted : (xs.mergeSort le).Pairwise fun a b => le a b = true := by
    apply List.pairwise_mergeSort
    · intro a b c hab hbc
      rw [h] at hab hbc ⊢
      exact hab.trans hbc
    · intro a b
      rw [Bool.or_eq_true, h, h]
      exact le_total _ _
  exact hsorted.imp fun {a b} hab => (h a b).mp hab

/-- What is put in order by a key that is different everywhere is strictly ascending in it. -/
theorem pairwise_key_lt_mergeSort (h : ∀ a b, le a b = true ↔ key a ≤ key b) {xs : List α}
    (hnodup : (xs.map key).Nodup) : (xs.mergeSort le).Pairwise fun a b => key a < key b := by
  have hne : (xs.mergeSort le).Pairwise fun a b => key a ≠ key b :=
    List.pairwise_map.mp (((List.mergeSort_perm xs le).map key).nodup_iff.mpr hnodup)
  exact ((pairwise_key_le_mergeSort h xs).and hne).imp fun hab => lt_of_le_of_ne hab.1 hab.2

end Keys

theorem mem_mergeSort_eraseDups {xs : List String} {x : String} :
    x ∈ xs.eraseDups.mergeSort (· ≤ ·) ↔ x ∈ xs := by
  rw [List.mem_mergeSort, List.mem_eraseDups]

theorem pairwise_lt_mergeSort_eraseDups (xs : List String) :
    (xs.eraseDups.mergeSort (· ≤ ·)).Pairwise (· < ·) := by
  have hnodup : (xs.eraseDups.map id).Nodup := by
    rw [List.map_id]
    exact nodup_eraseDups xs
  exact pairwise_key_lt_mergeSort (fun _ _ => decide_eq_true_iff) hnodup

/-- A part of a collection is put in order by leaving the rest out of the whole. -/
theorem mergeSort_eraseDups_eq_filter {xs part : List String} (hsub : part ⊆ xs) :
    part.eraseDups.mergeSort (· ≤ ·)
      = (xs.eraseDups.mergeSort (· ≤ ·)).filter (part.contains ·) := by
  apply (pairwise_lt_mergeSort_eraseDups part).eq_of_mem_iff
    ((pairwise_lt_mergeSort_eraseDups xs).filter _)
  intro x
  rw [mem_mergeSort_eraseDups, List.mem_filter, mem_mergeSort_eraseDups, List.contains_iff_mem]
  exact ⟨fun hx => ⟨hsub hx, hx⟩, fun hx => hx.2⟩

end CodeAtlas
