import CodeAtlas.Proofs.Store.Clock
import Mathlib.Data.List.Dedup
import Mathlib.Data.List.DropRight
import Mathlib.Data.List.Perm.Subperm

/-!
# The history of a store

A store does not remember what was done with it; its `history` does.  A step of a history touches
the key that it puts or finds.  `touchedSince` lists the other keys that were touched since a key
was last, and `standing` is what was put last under a key, unless the key was dropped on request
since.  These two are what the entries of a store are compared with.
-/

namespace CodeAtlas.Store

variable {α τ : Type}

/-- A step of a history: an operation, when it was performed and what it found. -/
structure Step (α τ : Type) where
  time : τ
  operation : Operation α
  found : Option α

/-- The steps of a run. -/
def history [Clock τ] (ops : List (τ × Operation α)) (s : Store α τ) : List (Step α τ) :=
  List.zipWith (fun op found => ⟨op.1, op.2, found⟩) ops (run ops s).1

/-- The key that is put or found. -/
def Step.touched? (step : Step α τ) : Option String :=
  match step.operation, step.found with
  | .put key _, _ => some key
  | .get key, some _ => some key
  | _, _ => none

/-- The other keys that were put or found since the given key was last, each once. -/
def touchedSince (key : String) (steps : List (Step α τ)) : List String :=
  ((steps.rtakeWhile (·.touched? != some key)).filterMap Step.touched?).dedup

/-- What stands under a key after a step, if it was `before` that. -/
def standingAfter (key : String) (before : Option (StoreEntry α τ)) (step : Step α τ) :
    Option (StoreEntry α τ) :=
  match step.operation with
  | .put k value => if k = key then some ⟨key, step.time, value⟩ else before
  | .get _ => before
  | .invalidate k => if k = key then none else before
  | .clear => none

/-- What was put last under a key, and when, if the key was not dropped on request since. -/
def standing (key : String) (steps : List (Step α τ)) : Option (StoreEntry α τ) :=
  steps.foldl (standingAfter key) none

/-! ### One step more -/

theorem standing_concat (key : String) (steps : List (Step α τ)) (step : Step α τ) :
    standing key (steps ++ [step]) = standingAfter key (standing key steps) step := by
  rw [standing, List.foldl_concat, standing]

theorem nodup_touchedSince (key : String) (steps : List (Step α τ)) :
    (touchedSince key steps).Nodup := List.nodup_dedup _

/-- A key is not among those that were touched since it was. -/
theorem ne_of_mem_touchedSince {key other : String} {steps : List (Step α τ)}
    (h : other ∈ touchedSince key steps) : key ≠ other := by
  rintro rfl
  obtain ⟨step, hstep, htouched⟩ := List.mem_filterMap.mp (List.mem_dedup.mp h)
  have hne := List.mem_rtakeWhile_imp hstep
  rw [htouched, bne_self_eq_false] at hne
  exact Bool.noConfusion hne

/-- A step that does not touch the key counts with those before it. -/
theorem touchedSince_concat {key : String} {steps : List (Step α τ)} {step : Step α τ}
    (hstep : step.touched? ≠ some key) :
    touchedSince key (steps ++ [step])
      = ((steps.rtakeWhile (·.touched? != some key)).filterMap Step.touched?
          ++ step.touched?.toList).dedup := by
  have hwhile := List.rtakeWhile_concat_pos (fun st : Step α τ => st.touched? != some key) steps
    step (bne_iff_ne.mpr hstep)
  rw [touchedSince, hwhile, List.filterMap_append]
  cases htouched : step.touched? <;> simp [htouched]

theorem mem_touchedSince_concat {key other : String} {steps : List (Step α τ)} {step : Step α τ}
    (hstep : step.touched? ≠ some key) :
    other ∈ touchedSince key (steps ++ [step])
      ↔ other ∈ touchedSince key steps ∨ step.touched? = some other := by
  rw [touchedSince_concat hstep, touchedSince, List.mem_dedup, List.mem_dedup, List.mem_append,
    Option.mem_toList]

theorem touchedSince_concat_of_none {key : String} {steps : List (Step α τ)} {step : Step α τ}
    (hstep : step.touched? = none) :
    touchedSince key (steps ++ [step]) = touchedSince key steps := by
  have hne : step.touched? ≠ some key := fun h => Option.some_ne_none key (h.symm.trans hstep)
  rw [touchedSince_concat hne, hstep, Option.toList_none, List.append_nil, touchedSince]

theorem length_touchedSince_le_concat {key : String} {steps : List (Step α τ)} {step : Step α τ}
    (hstep : step.touched? ≠ some key) :
    (touchedSince key steps).length ≤ (touchedSince key (steps ++ [step])).length := by
  have hsub : touchedSince key steps ⊆ touchedSince key (steps ++ [step]) :=
    fun _ h => (mem_touchedSince_concat hstep).mpr (Or.inl h)
  exact (List.subperm_of_subset (nodup_touchedSince key steps) hsub).length_le

section Run

variable [Clock τ]

theorem run_cons (now : τ) (op : Operation α) (rest : List (τ × Operation α)) (s : Store α τ) :
    run ((now, op) :: rest) s
      = ((s.perform now op).1 :: (run rest (s.perform now op).2).1,
        (run rest (s.perform now op).2).2) := rfl

theorem run_concat (ops : List (τ × Operation α)) (now : τ) (op : Operation α) (s : Store α τ) :
    run (ops ++ [(now, op)]) s
      = ((run ops s).1 ++ [((run ops s).2.perform now op).1],
        ((run ops s).2.perform now op).2) := by
  induction ops generalizing s with
  | nil => rfl
  | cons first rest ih =>
    rw [List.cons_append, run_cons, run_cons, ih]
    rfl

theorem length_run (ops : List (τ × Operation α)) (s : Store α τ) :
    (run ops s).1.length = ops.length := by
  induction ops generalizing s with
  | nil => rfl
  | cons first rest ih => exact congrArg Nat.succ (ih _)

theorem history_concat (ops : List (τ × Operation α)) (now : τ) (op : Operation α)
    (s : Store α τ) :
    history (ops ++ [(now, op)]) s
      = history ops s ++ [⟨now, op, ((run ops s).2.perform now op).1⟩] := by
  rw [history, run_concat, List.zipWith_append (length_run ops s).symm]
  rfl

theorem map_time_history (ops : List (τ × Operation α)) (s : Store α τ) :
    (history ops s).map Step.time = ops.map Prod.fst := by
  induction ops using List.reverseRecOn with
  | nil => rfl
  | append_singleton ops op ih =>
    rw [history_concat, List.map_append, List.map_append, ih]
    rfl

/-- The steps of a run are no later than a moment that its operations are no later than. -/
theorem time_le_of_mem_history [LE τ] {ops : List (τ × Operation α)} {s : Store α τ} {now : τ}
    (h : ∀ op ∈ ops, op.1 ≤ now) {step : Step α τ} (hstep : step ∈ history ops s) :
    step.time ≤ now := by
  have htime : step.time ∈ ops.map Prod.fst := by
    rw [← map_time_history ops s]
    exact List.mem_map_of_mem hstep
  obtain ⟨op, hop, heq⟩ := List.mem_map.mp htime
  rw [← heq]
  exact h op hop

end Run

end CodeAtlas.Store
