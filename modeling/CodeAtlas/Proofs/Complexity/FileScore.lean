import CodeAtlas.Proofs.Complexity.Attribution
import CodeAtlas.Proofs.Number.Rounding

/-!
# The score of a file

The complexity of a file is the sum of those of its functions and classes, but at least one.  The
score is computed unless a number is too large for a floating-point number
(`Score.exists_fileComplexity_eq_ok`); and the complexity is never larger than the tree
(`Extraction.sum_complexity_le_size`), because callables and decision points are different nodes.
-/

namespace CodeAtlas

/-- What is made of a result is there exactly if the result is. -/
theorem bind_pure_eq_ok_iff {ε α β : Type} {result : Except ε α} {f : α → β} {y : β} :
    (result >>= fun x => pure (f x)) = .ok y ↔ ∃ x, result = .ok x ∧ y = f x := by
  cases result with
  | error e =>
    constructor
    · intro h
      exact nomatch h
    · rintro ⟨x, hx, -⟩
      exact nomatch hx
  | ok x =>
    constructor
    · intro h
      exact ⟨x, rfl, (Except.ok.inj h).symm⟩
    · rintro ⟨x', hx, rfl⟩
      obtain rfl := Except.ok.inj hx
      rfl

namespace Binary64

/-- A natural number that is not above one with a nearest finite number has one too. -/
theorem isSome_ofInt?_of_le {m n : Nat} (h : m ≤ n) (hn : (ofInt? n).isSome = true) :
    (ofInt? m).isSome = true := by
  obtain ⟨y, hy⟩ := Option.isSome_iff_exists.mp hn
  have hlt : nearest (n * stepsPerOne) 1 < limit := by
    rcases roundRatio_spec ((n : Int) < 0) n 1 with ⟨x, -, -, hx⟩ | ⟨hnone, -⟩
    · rw [← hx]
      exact magnitude_lt x
    · rw [ofInt?, Int.natAbs_natCast, hnone] at hy
      exact absurd hy (by simp)
  rcases roundRatio_spec ((m : Int) < 0) m 1 with ⟨x, hx, -, -⟩ | ⟨-, hlimit⟩
  · rw [ofInt?, Int.natAbs_natCast, hx]
    rfl
  · have hle : nearest (m * stepsPerOne) 1 ≤ nearest (n * stepsPerOne) 1 :=
      nearest_mono 1 (Nat.mul_le_mul_right _ h)
    exact absurd (hlimit.trans hle) hlt.not_ge

end Binary64

namespace Score

theorem exists_number_eq_ok {n : Int} (h : (Binary64.ofInt? n).isSome = true) :
    ∃ x, number n = .ok x := by
  obtain ⟨x, hx⟩ := Option.isSome_iff_exists.mp h
  exact ⟨.finite x, by rw [number, hx, Option.elim_some]⟩

theorem exists_maintainability_eq_ok {cyclomatic lines : Int}
    (hcyclomatic : (Binary64.ofInt? cyclomatic).isSome = true)
    (hlines : (Binary64.ofInt? lines).isSome = true) :
    ∃ m, maintainability cyclomatic lines = .ok m := by
  obtain ⟨c, hc⟩ := exists_number_eq_ok hcyclomatic
  obtain ⟨l, hl⟩ := exists_number_eq_ok hlines
  unfold maintainability
  rw [hc, hl]
  split_ifs
  · exact ⟨best, rfl⟩
  · exact ⟨best, rfl⟩
  · exact ⟨index c.toFloat l.toFloat, rfl⟩

theorem fileComplexity_eq_ok_iff {functions classes : List Int} {lines : Int}
    {c : ComplexityRecord} : fileComplexity functions classes lines = .ok c ↔
      ∃ m, maintainability (max 1 (integerSum functions + integerSum classes)) lines = .ok m ∧
        c = ⟨max 1 (integerSum functions + integerSum classes),
          max 1 (integerSum functions + integerSum classes), m⟩ := by
  unfold fileComplexity
  exact bind_pure_eq_ok_iff

theorem exists_fileComplexity_eq_ok {functions classes : List Int} {lines : Int}
    (hcyclomatic :
      (Binary64.ofInt? (max 1 (integerSum functions + integerSum classes))).isSome = true)
    (hlines : (Binary64.ofInt? lines).isSome = true) :
    ∃ c, fileComplexity functions classes lines = .ok c := by
  obtain ⟨m, hm⟩ := exists_maintainability_eq_ok hcyclomatic hlines
  exact ⟨_, fileComplexity_eq_ok_iff.mpr ⟨m, hm, rfl⟩⟩

end Score

namespace Extraction

open CodeAtlas.Syntax CodeAtlas.Syntax.Node

/-- The callables and decision points of a tree are different nodes. -/
theorem length_recordedCallables_add_le (root : Node) :
    (recordedCallables root).length + (decisionPositions root).length ≤ root.size := by
  have hdisjoint : (recordedCallables root ++ decisionPositions root).Nodup := by
    refine List.nodup_append.mpr
      ⟨nodup_recordedCallables root, (nodup_reach root).filter _, ?_⟩
    rintro p hp _ hd rfl
    obtain ⟨n, hn, hscope⟩ := isScope_of_mem_recordedCallables hp
    obtain ⟨m, hm, hdecision⟩ := holdsAt_iff.mp (List.mem_filter.mp hd).2
    -- the node at a common position would be a scope and a decision point
    obtain rfl := Option.some.inj (hn.symm.trans hm)
    rw [isScope_eq_false_of_isDecision hdecision] at hscope
    exact Bool.noConfusion hscope
  have hsub : recordedCallables root ++ decisionPositions root ⊆ root.positions := by
    intro p hp
    rcases List.mem_append.mp hp with hp | hp
    · obtain ⟨n, hn, -⟩ := isScope_of_mem_recordedCallables hp
      exact mem_positions.mpr ⟨n, hn⟩
    · exact List.mem_of_mem_filter hp
  rw [← List.length_append, ← length_positions]
  exact (List.subperm_of_subset hdisjoint hsub).length_le

/-- What the functions and classes of a file add up to is the sum for its callables. -/
theorem sum_complexity_eq (root : Node) :
    integerSum ((Findings.ofTree root).functions.map (·.complexity))
        + integerSum ((Findings.ofTree root).classes.map (·.complexity))
      = (recordedComplexities (Findings.ofTree root)).sum := by
  have hclass : (Findings.ofTree root).classes.map (·.complexity)
      = ((Findings.ofTree root).classes.map fun c => c.methods.map (·.complexity)).map
          List.sum := by
    rw [classes_eq, List.map_map, List.map_map, List.map_map]
    rfl
  calc integerSum ((Findings.ofTree root).functions.map (·.complexity))
        + integerSum ((Findings.ofTree root).classes.map (·.complexity))
      = ((Findings.ofTree root).functions.map (·.complexity)).sum
        + (((Findings.ofTree root).classes.map fun c => c.methods.map (·.complexity)).map
            List.sum).sum := by
        rw [hclass]
        rfl
    _ = (recordedComplexities (Findings.ofTree root)).sum := by
        rw [← List.sum_flatten, ← List.sum_append, recordedComplexities, List.map_flatMap,
          List.flatMap_def]

/-- The complexity of the functions and classes of a file is not larger than the tree. -/
theorem sum_complexity_le_size (root : Node) :
    integerSum ((Findings.ofTree root).functions.map (·.complexity))
      + integerSum ((Findings.ofTree root).classes.map (·.complexity)) ≤ root.size := by
  have hscores : ((recordedCallables root).map fun p => complexityAt root p)
      = (recordedCallables root).map fun p => 1 + (contributions root p).length :=
    List.map_congr_left fun p hp => complexityAt_eq hp
  have hcounted : ((recordedCallables root).map fun p => complexityAt root p).sum ≤ root.size := by
    rw [hscores, List.sum_map_add, List.map_const', List.sum_replicate_nat, Nat.mul_one]
    have hcontributions := length_contributions_le root
    have hsize := length_recordedCallables_add_le root
    omega
  have hcast : ((recordedCallables root).map fun p => (complexityAt root p : Int)).sum
      = (((recordedCallables root).map fun p => complexityAt root p).sum : Nat) := by
    rw [Nat.cast_list_sum, List.map_map]
    rfl
  rw [sum_complexity_eq, recordedComplexities_eq, hcast]
  exact_mod_cast hcounted

end Extraction

end CodeAtlas
