import CodeAtlas.Architecture.Grouping
import CodeAtlas.Proofs.Resolution.Search

/-!
# The relationships are an exact tally

`relationshipsOf` has one relationship for each source, target and kind that occurs, and its weight
is the number of occurrences (`relationshipsOf_exact`).  An occurrence is an import that resolves to
a file of another component, or a class whose superclass is declared in one; `ImportJoins` and
`ClassJoins` say so of a single import and a single class.

The proof has two halves.  `Tallies seen found` is the invariant of the loop that counts: `found` is
the tally of the occurrences `seen` so far (`Tallies.count`, `tallies_foldl_count`).  And how often
an occurrence is seen is the number of imports or classes that join its components
(`count_occurrences_importing`, `count_occurrences_extending`).
-/

namespace CodeAtlas.Architecture

/-! ### What the relationships are compared with -/

/-- Every file together with each of its items. -/
def pairsOf {β : Type} (items : FileRecord → List β) (files : List FileRecord) :
    List (FileRecord × β) :=
  files.flatMap fun f => (items f).map (Prod.mk f)

/-- The import leads from a file of the component `s` to a file of the component `t`. -/
def ImportJoins (resolver : Resolver) (s t : String) (f : FileRecord) (i : ImportRecord) : Prop :=
  Component.nameOf f.path = s ∧
    ∃ p, resolver.resolve? i.module (some f.path) = some p ∧ Component.nameOf p = t

/-- `p` is the file of the superclass `name` of a class in `f`: the first import that binds the name
leads to it, or no import binds the name and the name itself stands for it. -/
inductive SuperclassPath (resolver : Resolver) (f : FileRecord) (name p : String) : Prop where
  | bound (before : List ImportRecord) (i : ImportRecord) (after : List ImportRecord)
      (split : f.imports = before ++ i :: after) (first : ∀ j ∈ before, name ∉ j.names)
      (binds : name ∈ i.names) (leads : resolver.resolve? i.module (some f.path) = some p)
  | unbound (free : ∀ i ∈ f.imports, name ∉ i.names)
      (leads : resolver.resolve? name (some f.path) = some p)

/-- The class lies in a file of the component `s`, and its superclass, which no class of the same
file is named, in a file of the component `t`. -/
def ClassJoins (resolver : Resolver) (s t : String) (f : FileRecord) (c : ClassRecord) : Prop :=
  Component.nameOf f.path = s ∧
    ∃ name, c.superclass = some name ∧ name ≠ "" ∧ (∀ d ∈ f.classes, d.name ≠ name) ∧
      ∃ p, SuperclassPath resolver f name p ∧ Component.nameOf p = t

/-- What identifies a relationship: its source, target and kind. -/
def occurrenceOf (r : Relationship) : Occurrence := ⟨r.source, r.target, r.kind⟩

/-- The weight of the relationship of a kind from `s` to `t`, or zero if there is none. -/
def weightBetween (links : List Relationship) (s t : String) (kind : RelationshipKind) : Int :=
  ((links.find? (standsFor · ⟨s, t, kind⟩)).map (·.weight)).getD 0

/-! ### The counting loop -/

theorem standsFor_iff {r : Relationship} {o : Occurrence} :
    standsFor r o = true ↔ occurrenceOf r = o := by
  obtain ⟨s, t, k⟩ := o
  simp [standsFor, occurrenceOf, and_assoc]

/-- `found` is the tally of the occurrences `seen`: there is one relationship for each of them, with
the strength of its kind and their number for its weight. -/
structure Tallies (seen : List Occurrence) (found : List Relationship) : Prop where
  nodup : (found.map occurrenceOf).Nodup
  mem_iff : ∀ o, o ∈ found.map occurrenceOf ↔ o ∈ seen
  weight_eq : ∀ r ∈ found, r.weight = seen.count (occurrenceOf r)
  strength_eq : ∀ r ∈ found, r.strength = r.kind.strength

private theorem count_concat_self (seen : List Occurrence) (o : Occurrence) :
    (seen ++ [o]).count o = seen.count o + 1 := by
  rw [List.count_append, List.count_singleton_self]

private theorem count_concat_of_ne {seen : List Occurrence} {o o' : Occurrence} (h : o ≠ o') :
    (seen ++ [o]).count o' = seen.count o' := by
  rw [List.count_append, List.count_singleton, if_neg (by simpa using h), Nat.add_zero]

theorem Tallies.nil : Tallies [] [] :=
  ⟨List.nodup_nil, fun _ => Iff.rfl, fun _ h => absurd h List.not_mem_nil,
    fun _ h => absurd h List.not_mem_nil⟩

/-- An occurrence that has been seen raises the weight of its relationship. -/
theorem Tallies.raise {seen : List Occurrence} {found : List Relationship}
    (h : Tallies seen found) {o : Occurrence} (ho : o ∈ seen) :
    Tallies (seen ++ [o])
      (found.map fun r => if standsFor r o then { r with weight := r.weight + 1 } else r) := by
  -- Only a weight changes, so the relationships stand for the same occurrences.
  have hkeys : (found.map fun r =>
      if standsFor r o then { r with weight := r.weight + 1 } else r).map occurrenceOf
        = found.map occurrenceOf := by
    rw [List.map_map]
    refine List.map_congr_left fun r _ => ?_
    rw [Function.comp]
    split_ifs <;> rfl
  refine ⟨hkeys ▸ h.nodup, fun o' => ?_, fun r' hr' => ?_, fun r' hr' => ?_⟩
  · rw [hkeys, h.mem_iff, List.mem_append, List.mem_singleton]
    exact ⟨Or.inl, fun h' => h'.elim id fun heq => heq ▸ ho⟩
  · obtain ⟨r, hr, rfl⟩ := List.mem_map.mp hr'
    split_ifs with hs
    · have hkey := standsFor_iff.mp hs
      show r.weight + 1 = ((seen ++ [o]).count (occurrenceOf r) : Int)
      rw [hkey, count_concat_self, h.weight_eq r hr, hkey]
      push_cast
      rfl
    · have hkey : o ≠ occurrenceOf r := fun heq => hs (standsFor_iff.mpr heq.symm)
      rw [count_concat_of_ne hkey, h.weight_eq r hr]
  · obtain ⟨r, hr, rfl⟩ := List.mem_map.mp hr'
    split_ifs
    · exact h.strength_eq r hr
    · exact h.strength_eq r hr

/-- An occurrence that has not been seen gets a relationship of its own. -/
theorem Tallies.add {seen : List Occurrence} {found : List Relationship}
    (h : Tallies seen found) {o : Occurrence} (ho : o ∉ seen) :
    Tallies (seen ++ [o]) (found ++ [⟨o.source, o.target, o.kind, o.kind.strength, 1⟩]) := by
  have hnew : o ∉ found.map occurrenceOf := fun hmem => ho ((h.mem_iff o).mp hmem)
  refine ⟨?_, fun o' => ?_, fun r hr => ?_, fun r hr => ?_⟩
  · rw [List.map_append, List.nodup_append]
    refine ⟨h.nodup, List.nodup_singleton _, fun a ha b hb hab => hnew ?_⟩
    have hbo : b = o := List.mem_singleton.mp hb
    exact hbo ▸ hab ▸ ha
  · rw [List.map_append, List.mem_append, List.mem_append, h.mem_iff]
    rfl
  · rcases List.mem_append.mp hr with hr | hr
    · have hne : o ≠ occurrenceOf r := fun heq => hnew (heq ▸ List.mem_map_of_mem hr)
      rw [count_concat_of_ne hne, h.weight_eq r hr]
    · rw [List.mem_singleton.mp hr]
      show (1 : Int) = ((seen ++ [o]).count o : Int)
      rw [count_concat_self, List.count_eq_zero_of_not_mem ho]
      rfl
  · rcases List.mem_append.mp hr with hr | hr
    · exact h.strength_eq r hr
    · rw [List.mem_singleton.mp hr]

/-- One more occurrence keeps the tally. -/
theorem Tallies.count {seen : List Occurrence} {found : List Relationship}
    (h : Tallies seen found) (o : Occurrence) :
    Tallies (seen ++ [o]) (Architecture.count found o) := by
  have hany : found.any (standsFor · o) = true ↔ o ∈ seen := by
    rw [← h.mem_iff o, List.any_eq_true, List.mem_map]
    exact exists_congr fun r => and_congr_right fun _ => standsFor_iff
  unfold Architecture.count
  split_ifs with hstands
  · exact h.raise (hany.mp hstands)
  · exact h.add (mt hany.mpr hstands)

/-- The loop tallies all occurrences. -/
theorem tallies_foldl_count (os : List Occurrence) :
    ∀ {seen : List Occurrence} {found : List Relationship}, Tallies seen found →
      Tallies (seen ++ os) (os.foldl Architecture.count found) := by
  induction os with
  | nil => intro seen found h; rwa [List.append_nil]
  | cons o os ih =>
    intro seen found h
    rw [List.foldl_cons, ← List.singleton_append, ← List.append_assoc]
    exact ih (h.count o)

/-- In a tally the weight between two components is the number of occurrences. -/
theorem Tallies.weightBetween_eq {seen : List Occurrence} {found : List Relationship}
    (h : Tallies seen found) (s t : String) (kind : RelationshipKind) :
    weightBetween found s t kind = seen.count ⟨s, t, kind⟩ := by
  unfold weightBetween
  cases hfind : found.find? (standsFor · ⟨s, t, kind⟩) with
  | none =>
    have hnot : (⟨s, t, kind⟩ : Occurrence) ∉ seen := by
      rw [← h.mem_iff]
      intro hmem
      obtain ⟨r, hr, hkey⟩ := List.mem_map.mp hmem
      exact List.find?_eq_none.mp hfind r hr (standsFor_iff.mpr hkey)
    rw [List.count_eq_zero_of_not_mem hnot]
    rfl
  | some r =>
    have hkey : occurrenceOf r = ⟨s, t, kind⟩ :=
      standsFor_iff.mp (List.find?_some (p := (standsFor · ⟨s, t, kind⟩)) hfind)
    rw [← hkey]
    exact h.weight_eq r (List.mem_of_find?_eq_some hfind)

/-! ### How often an occurrence is seen -/

section Occurrences

variable {resolver : Resolver} {s t : String} {f : FileRecord}

theorem occurrence?_eq_some_iff {kind kind' : RelationshipKind} {p : String} :
    occurrence? f kind' p = some ⟨s, t, kind⟩
      ↔ s ≠ t ∧ kind' = kind ∧ Component.nameOf f.path = s ∧ Component.nameOf p = t := by
  unfold occurrence?
  dsimp only
  split_ifs with hsame
  · constructor
    · exact fun h => absurd h (by simp)
    · rintro ⟨hst, -, hs, ht⟩
      exact absurd (hs.symm.trans (hsame.symm.trans ht)) hst
  · rw [Option.some.injEq, Occurrence.mk.injEq]
    constructor
    · rintro ⟨rfl, rfl, rfl⟩
      exact ⟨fun h => hsame h.symm, rfl, rfl, rfl⟩
    · rintro ⟨-, rfl, rfl, rfl⟩
      exact ⟨rfl, rfl, rfl⟩

/-- The search for the superclass finds the path that `SuperclassPath` describes. -/
theorem superclassFile?_eq_some_iff {name p : String} :
    superclassFile? resolver f name = some p ↔ SuperclassPath resolver f name p := by
  unfold superclassFile?
  cases hfind : f.imports.find? (·.names.contains name) with
  | none =>
    have hfree : ∀ i ∈ f.imports, name ∉ i.names := by
      simpa using List.find?_eq_none.mp hfind
    constructor
    · exact SuperclassPath.unbound hfree
    · rintro (⟨before, i, after, hsplit, -, hbinds, -⟩ | ⟨-, hleads⟩)
      · exact absurd hbinds (hfree i (by simp [hsplit]))
      · exact hleads
  | some i =>
    obtain ⟨hbinds, before, after, hsplit, hfirst⟩ := List.find?_eq_some_iff_append.mp hfind
    have hbinds : name ∈ i.names := by simpa using hbinds
    have hfirst : ∀ j ∈ before, name ∉ j.names := by simpa using hfirst
    constructor
    · exact SuperclassPath.bound before i after hsplit hfirst hbinds
    · rintro (⟨before', i', after', hsplit', hfirst', hbinds', hleads⟩ | ⟨hfree, -⟩)
      · -- there is one first import that binds the name
        have hfind' : f.imports.find? (·.names.contains name) = some i' :=
          List.find?_eq_some_iff_append.mpr
            ⟨by simpa using hbinds', before', after', hsplit', by simpa using hfirst'⟩
        obtain rfl := Option.some.inj (hfind.symm.trans hfind')
        exact hleads
      · exact absurd hbinds (hfree i (by simp [hsplit]))

/-- The occurrence for an import, if there is one. -/
def importOccurrence? (resolver : Resolver) (f : FileRecord) (i : ImportRecord) :
    Option Occurrence :=
  (resolver.resolve? i.module (some f.path)).bind (occurrence? f .importing)

/-- The occurrence for a class, if there is one. -/
def classOccurrence? (resolver : Resolver) (f : FileRecord) (c : ClassRecord) :
    Option Occurrence :=
  c.superclass.bind fun name =>
    if name != "" && !(f.classes.map (·.name)).contains name then
      (superclassFile? resolver f name).bind (occurrence? f .extending)
    else none

theorem occurrencesIn_eq (resolver : Resolver) (f : FileRecord) :
    occurrencesIn resolver f = f.imports.filterMap (importOccurrence? resolver f)
      ++ f.classes.filterMap (classOccurrence? resolver f) := by
  unfold occurrencesIn foreignSuperclasses
  rw [List.filterMap_filter, List.filterMap_filterMap]
  rfl

theorem importOccurrence?_eq_some_iff {kind : RelationshipKind} {i : ImportRecord} :
    importOccurrence? resolver f i = some ⟨s, t, kind⟩
      ↔ s ≠ t ∧ kind = .importing ∧ ImportJoins resolver s t f i := by
  unfold importOccurrence? ImportJoins
  simp only [Option.bind_eq_some_iff, occurrence?_eq_some_iff]
  constructor
  · rintro ⟨p, hp, hst, rfl, hs, ht⟩
    exact ⟨hst, rfl, hs, p, hp, ht⟩
  · rintro ⟨hst, rfl, hs, p, hp, ht⟩
    exact ⟨p, hp, hst, rfl, hs, ht⟩

theorem classOccurrence?_eq_some_iff {kind : RelationshipKind} {c : ClassRecord} :
    classOccurrence? resolver f c = some ⟨s, t, kind⟩
      ↔ s ≠ t ∧ kind = .extending ∧ ClassJoins resolver s t f c := by
  have hforeign : ∀ name, (name != "" && !(f.classes.map (·.name)).contains name) = true
      ↔ name ≠ "" ∧ ∀ d ∈ f.classes, d.name ≠ name := by
    intro name
    simp
  unfold classOccurrence? ClassJoins
  simp only [Option.bind_eq_some_iff, Option.ite_none_right_eq_some, hforeign,
    occurrence?_eq_some_iff, superclassFile?_eq_some_iff]
  constructor
  · rintro ⟨name, hname, ⟨hne, hown⟩, p, hp, hst, rfl, hs, ht⟩
    exact ⟨hst, rfl, hs, name, hname, hne, hown, p, hp, ht⟩
  · rintro ⟨hst, rfl, hs, name, hname, hne, hown, p, hp, ht⟩
    exact ⟨name, hname, ⟨hne, hown⟩, p, hp, hst, rfl, hs, ht⟩

instance {i : ImportRecord} : Decidable (ImportJoins resolver s t f i) :=
  decidable_of_iff (Component.nameOf f.path = s ∧
      (resolver.resolve? i.module (some f.path)).any (Component.nameOf · == t) = true) <| by
    simp [ImportJoins, Option.any_eq_true]

instance {c : ClassRecord} : Decidable (ClassJoins resolver s t f c) :=
  decidable_of_iff (Component.nameOf f.path = s ∧
      c.superclass.any (fun name => name != "" && f.classes.all (·.name != name) &&
        (superclassFile? resolver f name).any (Component.nameOf · == t)) = true) <| by
    simp [ClassJoins, Option.any_eq_true, superclassFile?_eq_some_iff, and_assoc]

end Occurrences

/-- Every occurrence comes from an import or a class. -/
theorem count_occurrences (resolver : Resolver) (files : List FileRecord) (o : Occurrence) :
    (files.flatMap (occurrencesIn resolver)).count o
      = (pairsOf (·.imports) files).countP (fun p => importOccurrence? resolver p.1 p.2 == some o)
        + (pairsOf (·.classes) files).countP
            (fun p => classOccurrence? resolver p.1 p.2 == some o) := by
  induction files with
  | nil => rfl
  | cons f files ih =>
    unfold pairsOf at ih ⊢
    rw [List.flatMap_cons, List.count_append, ih, occurrencesIn_eq, List.count_append,
      List.count_filterMap, List.count_filterMap, List.flatMap_cons, List.countP_append,
      List.countP_map, List.flatMap_cons, List.countP_append, List.countP_map]
    simp only [Function.comp_def]
    omega

/-- The imports from one component to another are seen as often as there are any. -/
theorem count_occurrences_importing (resolver : Resolver) (files : List FileRecord)
    {s t : String} (hst : s ≠ t) :
    (files.flatMap (occurrencesIn resolver)).count ⟨s, t, .importing⟩
      = (pairsOf (·.imports) files).countP (fun p => ImportJoins resolver s t p.1 p.2) := by
  have hclass : (pairsOf (·.classes) files).countP
      (fun p => classOccurrence? resolver p.1 p.2 == some ⟨s, t, .importing⟩) = 0 := by
    rw [List.countP_eq_zero]
    intro p _
    rw [beq_iff_eq, classOccurrence?_eq_some_iff]
    simp
  rw [count_occurrences, hclass, Nat.add_zero]
  refine List.countP_congr fun p _ => ?_
  rw [beq_iff_eq, importOccurrence?_eq_some_iff, decide_eq_true_eq]
  exact ⟨fun h => h.2.2, fun h => ⟨hst, rfl, h⟩⟩

/-- The classes that extend from one component into another are seen as often as there are any. -/
theorem count_occurrences_extending (resolver : Resolver) (files : List FileRecord)
    {s t : String} (hst : s ≠ t) :
    (files.flatMap (occurrencesIn resolver)).count ⟨s, t, .extending⟩
      = (pairsOf (·.classes) files).countP (fun p => ClassJoins resolver s t p.1 p.2) := by
  have himport : (pairsOf (·.imports) files).countP
      (fun p => importOccurrence? resolver p.1 p.2 == some ⟨s, t, .extending⟩) = 0 := by
    rw [List.countP_eq_zero]
    intro p _
    rw [beq_iff_eq, importOccurrence?_eq_some_iff]
    simp
  rw [count_occurrences, himport, Nat.zero_add]
  refine List.countP_congr fun p _ => ?_
  rw [beq_iff_eq, classOccurrence?_eq_some_iff, decide_eq_true_eq]
  exact ⟨fun h => h.2.2, fun h => ⟨hst, rfl, h⟩⟩

/-- No occurrence stays within a component. -/
theorem source_ne_target_of_mem {resolver : Resolver} {files : List FileRecord} {o : Occurrence}
    (h : o ∈ files.flatMap (occurrencesIn resolver)) : o.source ≠ o.target := by
  obtain ⟨f, -, ho⟩ := List.mem_flatMap.mp h
  rw [occurrencesIn_eq, List.mem_append, List.mem_filterMap, List.mem_filterMap] at ho
  rcases ho with ⟨i, -, hi⟩ | ⟨c, -, hc⟩
  · exact (importOccurrence?_eq_some_iff.mp hi).1
  · exact (classOccurrence?_eq_some_iff.mp hc).1

/-! ### Exactness -/

/-- **The relationships are exact.**  Over the paths of the files themselves, no two relationships
have the same source, target and kind, none leads back to its own component, and each has the
strength of its kind.  Between two components the weight of the imports is the number of imports
that lead from one to the other, and the weight of the extensions the number of classes whose
superclass does; where that number is zero there is no relationship, and where it is not there is
one. -/
theorem relationshipsOf_exact (files : List FileRecord) :
    let resolver := Resolver.ofPaths (files.map (·.path))
    let links := relationshipsOf resolver files
    (links.map occurrenceOf).Nodup ∧
    (∀ r ∈ links, r.source ≠ r.target ∧ r.strength = r.kind.strength) ∧
    ∀ s t : String, s ≠ t →
      weightBetween links s t .importing
        = (pairsOf (·.imports) files).countP (fun p => ImportJoins resolver s t p.1 p.2) ∧
      ((∃ r ∈ links, occurrenceOf r = ⟨s, t, .importing⟩) ↔
        (pairsOf (·.imports) files).countP (fun p => ImportJoins resolver s t p.1 p.2) ≠ 0) ∧
      weightBetween links s t .extending
        = (pairsOf (·.classes) files).countP (fun p => ClassJoins resolver s t p.1 p.2) ∧
      ((∃ r ∈ links, occurrenceOf r = ⟨s, t, .extending⟩) ↔
        (pairsOf (·.classes) files).countP (fun p => ClassJoins resolver s t p.1 p.2) ≠ 0) := by
  intro resolver links
  have htally : Tallies (files.flatMap (occurrencesIn resolver)) links :=
    tallies_foldl_count _ Tallies.nil
  have hpresent : ∀ o, (∃ r ∈ links, occurrenceOf r = o) ↔
      (files.flatMap (occurrencesIn resolver)).count o ≠ 0 := by
    intro o
    rw [← List.mem_map, htally.mem_iff, ← List.count_pos_iff, Nat.pos_iff_ne_zero]
  refine ⟨htally.nodup, fun r hr => ⟨?_, htally.strength_eq r hr⟩, fun s t hst => ?_⟩
  · have hmem := (htally.mem_iff (occurrenceOf r)).mp (List.mem_map_of_mem hr)
    exact source_ne_target_of_mem hmem
  · rw [htally.weightBetween_eq, htally.weightBetween_eq, hpresent, hpresent,
      count_occurrences_importing resolver files hst,
      count_occurrences_extending resolver files hst]
    exact ⟨rfl, Iff.rfl, rfl, Iff.rfl⟩

/-- Two files in two directories.  Of the first, both imports lead to the second, and of its classes
one extends what the first import binds and the other its neighbour. -/
def twoComponents : List FileRecord :=
  [{ (default : FileRecord) with
      path := "api/users.js"
      imports := [⟨"../lib/base", ["Base"], 1, true⟩, ⟨"../lib/base", [], 2, false⟩]
      classes :=
        [{ (default : ClassRecord) with name := "Users", superclass := some "Base" },
          { (default : ClassRecord) with name := "Admins", superclass := some "Users" }] },
    { (default : FileRecord) with path := "lib/base.js" }]

theorem relationshipsOf_exact_twoComponents :
    let links := relationshipsOf (Resolver.ofPaths (twoComponents.map (·.path))) twoComponents
    "api" ≠ "lib" ∧ weightBetween links "api" "lib" .importing = 2 ∧
      weightBetween links "api" "lib" .extending = 1 := by
  have hne : "api" ≠ "lib" := by decide
  have hpaths : Resolver.ofPaths (twoComponents.map (·.path))
      = ⟨["api/users.js", "lib/base.js"]⟩ :=
    Resolver.ofPaths_of_pairwise (by decide +kernel)
  obtain ⟨himports, -, hextends, -⟩ :=
    (relationshipsOf_exact twoComponents).2.2 "api" "lib" hne
  refine ⟨hne, himports.trans ?_, hextends.trans ?_⟩
  · rw [hpaths]; decide +kernel
  · rw [hpaths]; decide +kernel

end CodeAtlas.Architecture
