import CodeAtlas.Proofs.Path.Components

/-!
# Walks between directories

A walk goes from a directory up to one that it lies in, and from there down by names.  It is written
as a relative path, with `..` for every step up (`walk`).  Seen from the directory and normalized
that is the path of the place where the walk ends (`normalize_join_walk`): each `..` takes away one
of the names that the directory contributes, and no other.
-/

namespace CodeAtlas.PathText

/-- A name that names something: it is not empty, has no slash and is neither `.` nor `..`. -/
def IsName (name : String) : Prop := IsPlain name ∧ name ≠ "." ∧ name ≠ ".."

instance : DecidablePred IsName :=
  fun name => inferInstanceAs (Decidable (IsPlain name ∧ name ≠ "." ∧ name ≠ ".."))

/-- The path is made of names. -/
def IsNamed (path : String) : Prop := ∀ name ∈ components path, IsName name

instance : DecidablePred IsNamed :=
  fun path => inferInstanceAs (Decidable (∀ name ∈ components path, IsName name))

theorem IsNamed.liesIn {path : String} (h : IsNamed path) :
    LiesIn path (components path).dropLast :=
  liesIn_dropLast_components fun hempty => (h "" hempty).1.1 rfl

theorem IsNamed.isName_of_mem_dropLast {path name : String} (h : IsNamed path)
    (hname : name ∈ (components path).dropLast) : IsName name :=
  h name (List.dropLast_subset _ hname)

theorem isNamed_ofComponents {names : List String} (hne : names ≠ [])
    (h : ∀ n ∈ names, IsName n) : IsNamed (ofComponents names) := by
  intro name hname
  rw [components_ofComponents hne fun n hn => (h n hn).1.2] at hname
  exact h name hname

theorem IsNamed.ne_empty {path : String} (h : IsNamed path) : path ≠ "" := by
  rintro rfl
  exact absurd h (by decide)

theorem IsNamed.ne_point {path : String} (h : IsNamed path) : path ≠ "." := by
  rintro rfl
  exact absurd h (by decide)

/-- The steps of a walk: some up, or a point if there are none, and then down by the names. -/
def steps (up : Nat) (down : List String) : List String :=
  if up = 0 then "." :: down else List.replicate up ".." ++ down

/-- The relative path that goes up some steps and then down by the names. -/
def walk (up : Nat) (down : List String) : String := ofComponents (steps up down)

theorem steps_ne_nil (up : Nat) (down : List String) : steps up down ≠ [] := by
  unfold steps
  split_ifs with hup
  · exact List.cons_ne_nil _ _
  · simp [hup]

theorem mem_steps {up : Nat} {down : List String} {step : String} (h : step ∈ steps up down) :
    step = "." ∨ step = ".." ∨ step ∈ down := by
  unfold steps at h
  split_ifs at h
  · rcases List.mem_cons.mp h with h | h
    · exact Or.inl h
    · exact Or.inr (Or.inr h)
  · rcases List.mem_append.mp h with h | h
    · exact Or.inr (Or.inl (List.eq_of_mem_replicate h))
    · exact Or.inr (Or.inr h)

theorem isPlain_of_mem_steps {up : Nat} {down : List String} (hdown : ∀ n ∈ down, IsName n) :
    ∀ step ∈ steps up down, IsPlain step := by
  intro step hstep
  rcases mem_steps hstep with rfl | rfl | hmem
  · decide
  · decide
  · exact (hdown step hmem).1

/-! ### Collapsing -/

/-- One step of collapsing components: an empty one and `.` are left out, `..` takes away the last
name that is kept. -/
def collapseStep (rooted : Bool) (kept : List String) (part : String) : List String :=
  if part = "" || part = "." then kept
  else if part != ".." then kept ++ [part]
  else match kept.getLast? with
    | none => if rooted then [] else [".."]
    | some last => if last = ".." then kept ++ [part] else kept.dropLast

theorem collapse_eq_foldl (rooted : Bool) (parts : List String) :
    collapse rooted parts = parts.foldl (collapseStep rooted) [] := rfl

section Collapsing

variable {rooted : Bool} {kept names : List String} {name : String}

theorem collapseStep_name (h : IsName name) : collapseStep rooted kept name = kept ++ [name] := by
  obtain ⟨hplain, hdot, hdots⟩ := h
  simp [collapseStep, hplain.1, hdot, hdots]

theorem collapseStep_up (h : IsName name) : collapseStep rooted (kept ++ [name]) ".." = kept := by
  simp [collapseStep, h.2.2]

theorem foldl_collapseStep_names (h : ∀ n ∈ names, IsName n) :
    names.foldl (collapseStep rooted) kept = kept ++ names := by
  induction names generalizing kept with
  | nil => rw [List.foldl_nil, List.append_nil]
  | cons name names ih =>
    rw [List.foldl_cons, collapseStep_name (h name List.mem_cons_self),
      ih fun n hn => h n (List.mem_cons_of_mem _ hn), List.append_assoc, List.singleton_append]

/-- As many steps up as there are names at the end take these names away. -/
theorem foldl_collapseStep_up (h : ∀ n ∈ names, IsName n) :
    (List.replicate names.length "..").foldl (collapseStep rooted) (kept ++ names) = kept := by
  -- The last name is the first to go.
  induction names using List.reverseRecOn with
  | nil => rw [List.length_nil, List.replicate_zero, List.foldl_nil, List.append_nil]
  | append_singleton names last ih =>
    rw [List.length_append, List.length_singleton, List.replicate_succ, List.foldl_cons,
      ← List.append_assoc, collapseStep_up (h last (by simp))]
    exact ih fun n hn => h n (List.mem_append_left _ hn)

/-- The steps of a walk, behind the names of the directory from which it starts, collapse to the
names of the place where it ends. -/
theorem collapse_steps {base up down : List String} (hup : ∀ n ∈ base ++ up, IsName n)
    (hdown : ∀ n ∈ down, IsName n) :
    collapse rooted (base ++ up ++ steps up.length down) = base ++ down := by
  have hsteps : (steps up.length down).foldl (collapseStep rooted) (base ++ up)
      = down.foldl (collapseStep rooted) base := by
    unfold steps
    split_ifs with hstay
    · rw [List.length_eq_zero_iff.mp hstay, List.append_nil]
      rfl
    · rw [List.foldl_append, foldl_collapseStep_up fun n hn => hup n (List.mem_append_right _ hn)]
  rw [collapse_eq_foldl, List.foldl_append, foldl_collapseStep_names hup, List.nil_append, hsteps,
    foldl_collapseStep_names hdown]

end Collapsing

/-! ### Joining -/

theorem ofComponents_append {names rest : List String} (hnames : names ≠ []) (hrest : rest ≠ []) :
    ofComponents (names ++ rest) = ofComponents names ++ "/" ++ ofComponents rest := by
  obtain ⟨next, rest, rfl⟩ := List.exists_cons_of_ne_nil hrest
  induction names with
  | nil => exact absurd rfl hnames
  | cons first names ih =>
    rw [← String.toList_inj]
    cases names with
    | nil =>
      rw [List.singleton_append, toList_ofComponents_cons_cons, ofComponents_singleton]
      simp
    | cons second names =>
      have hih := congrArg String.toList (ih (List.cons_ne_nil _ _))
      rw [List.cons_append, List.cons_append, toList_ofComponents_cons_cons, ← List.cons_append, hih]
      simp [toList_ofComponents_cons_cons]

theorem exists_toList_ofComponents_cons (first : String) (rest : List String) :
    ∃ tail, (ofComponents (first :: rest)).toList = first.toList ++ tail := by
  cases rest with
  | nil => exact ⟨[], by rw [ofComponents_singleton, List.append_nil]⟩
  | cons next rest => exact ⟨_, toList_ofComponents_cons_cons first next rest⟩

section Plain

variable {directory parts : List String} (hparts : ∀ n ∈ parts, IsPlain n) (hne : parts ≠ [])
include hparts hne

theorem exists_toList_ofComponents_eq_cons :
    ∃ c cs, (ofComponents parts).toList = c :: cs ∧ c ≠ '/' := by
  obtain ⟨first, rest, rfl⟩ := List.exists_cons_of_ne_nil hne
  obtain ⟨hempty, hslash⟩ := hparts first List.mem_cons_self
  obtain ⟨c, cs, hfirst⟩ : ∃ c cs, first.toList = c :: cs :=
    List.exists_cons_of_ne_nil (mt String.toList_eq_nil_iff.mp hempty)
  have hc : c ≠ '/' := by
    rintro rfl
    exact hslash (by simp [hfirst])
  obtain ⟨tail, htail⟩ := exists_toList_ofComponents_cons first rest
  exact ⟨c, cs ++ tail, by rw [htail, hfirst, List.cons_append], hc⟩

theorem beginsWith_slash_ofComponents : Text.beginsWith "/" (ofComponents parts) = false := by
  obtain ⟨c, cs, hpath, hc⟩ := exists_toList_ofComponents_eq_cons hparts hne
  rw [Text.beginsWith, hpath, Bool.eq_false_iff]
  intro hslash
  have hprefix : ['/'] <+: c :: cs := List.isPrefixOf_iff_prefix.mp hslash
  exact hc (List.cons_prefix_cons.mp hprefix).1.symm

theorem endsWith_slash_ofComponents : Text.endsWith "/" (ofComponents parts) = false := by
  obtain ⟨init, c, hpath, hc⟩ := exists_toList_ofComponents_eq_concat hne hparts
  rw [Text.endsWith, hpath, Bool.eq_false_iff]
  intro hslash
  obtain ⟨before, hbefore⟩ := List.isSuffixOf_iff_suffix.mp hslash
  exact hc (List.cons.inj (List.append_inj_right' hbefore rfl)).1.symm

theorem leadingSlashes_ofComponents : leadingSlashes (ofComponents parts) = 0 := by
  obtain ⟨c, cs, hpath, hc⟩ := exists_toList_ofComponents_eq_cons hparts hne
  rw [leadingSlashes, hpath]
  split <;> simp_all

/-- A relative path seen from a directory has the components of both. -/
theorem join_ofComponents (hdirectory : ∀ n ∈ directory, IsPlain n) :
    join (ofComponents directory) (ofComponents parts) = ofComponents (directory ++ parts) := by
  rw [join, beginsWith_slash_ofComponents hparts hne, if_neg Bool.false_ne_true]
  by_cases hroot : directory = []
  · subst hroot
    rw [ofComponents_nil, List.nil_append]
    simp
  · have hnonempty : (ofComponents directory).isEmpty = false := by
      simpa using ofComponents_ne_empty hroot hdirectory
    rw [hnonempty, endsWith_slash_ofComponents hdirectory hroot, ofComponents_append hroot hne]
    rfl

theorem normalize_ofComponents :
    normalize (ofComponents parts) =
      if ofComponents (collapse false parts) = "" then "."
      else ofComponents (collapse false parts) := by
  rw [normalize, leadingSlashes_ofComponents hparts hne,
    components_ofComponents hne fun n hn => (hparts n hn).2]
  simp

end Plain

/-! ### The end of a walk -/

/-- A walk that is seen from its start leads to its end. -/
theorem normalize_join_walk {base up down : List String} (hup : ∀ n ∈ base ++ up, IsName n)
    (hdown : ∀ n ∈ down, IsName n) :
    normalize (join (ofComponents (base ++ up)) (walk up.length down))
      = if base ++ down = [] then "." else ofComponents (base ++ down) := by
  have hsteps : ∀ step ∈ steps up.length down, IsPlain step := isPlain_of_mem_steps hdown
  have hstart : ∀ n ∈ base ++ up, IsPlain n := fun n hn => (hup n hn).1
  have hall : ∀ n ∈ base ++ up ++ steps up.length down, IsPlain n := by
    intro n hn
    rcases List.mem_append.mp hn with hn | hn
    · exact hstart n hn
    · exact hsteps n hn
  have hend : ∀ n ∈ base ++ down, IsPlain n := by
    intro n hn
    rcases List.mem_append.mp hn with hn | hn
    · exact hstart n (List.mem_append_left _ hn)
    · exact (hdown n hn).1
  rw [walk, join_ofComponents hsteps (steps_ne_nil _ _) hstart,
    normalize_ofComponents hall (List.append_ne_nil_of_right_ne_nil _ (steps_ne_nil _ _)),
    collapse_steps hup hdown]
  by_cases hroot : base ++ down = []
  · rw [hroot, if_pos rfl, if_pos ofComponents_nil]
  · rw [if_neg hroot, if_neg (ofComponents_ne_empty hroot hend)]

end CodeAtlas.PathText
