import CodeAtlas.Proofs.FileSystem.Creation

/-!
# Removing directories

Removing an entry takes away what lies at its location and below it and keeps everything else
(`at?_remove_cases`).  So something that is made at a free place and removed again leaves no trace
(`remove_put`).

`FileSystem.Keeps` says that everything in one file system is in another: files and links are the
same, and directories are directories still.  A path that leads to something leads to the same
place in the other (`Keeps.place_found`), and a path that leads to a free place leads to a directory
that has been made there (`Keeps.place_missing`).  The last name of a path is looked up in the
directory that the names before it lead to (`place_concat`).
-/

namespace CodeAtlas

namespace Entry

/-! ### Names that are set and left out -/

theorem set_set (name : String) (e e' : Entry) (cs : List (String × Entry)) :
    set name e' (set name e cs) = set name e' cs := by
  induction cs with
  | nil => simp [set]
  | cons first rest ih =>
    obtain ⟨n, old⟩ := first
    by_cases hn : n = name
    · simp [set, hn]
    · rw [set, if_neg hn, set, if_neg hn, ih, set, if_neg hn]

theorem set_of_find? {name : String} {e : Entry} {cs : List (String × Entry)}
    (h : find? name cs = some e) : set name e cs = cs := by
  induction cs with
  | nil => cases h
  | cons first rest ih =>
    obtain ⟨n, old⟩ := first
    by_cases hn : n = name
    · obtain rfl : old = e := by simpa [find?, hn] using h
      rw [set, if_pos hn, hn]
    · have hrest : find? name rest = some e := by simpa [find?, hn] using h
      rw [set, if_neg hn, ih hrest]

theorem filter_set {name : String} (e : Entry) {cs : List (String × Entry)}
    (h : find? name cs = none) : (set name e cs).filter (·.1 != name) = cs := by
  induction cs with
  | nil => simp [set]
  | cons first rest ih =>
    obtain ⟨n, old⟩ := first
    by_cases hn : n = name
    · simp [find?, hn] at h
    · have hrest : find? name rest = none := by simpa [find?, hn] using h
      rw [set, if_neg hn, List.filter_cons_of_pos (by simpa using hn), ih hrest]

theorem find?_filter (name other : String) (cs : List (String × Entry)) :
    find? other (cs.filter (·.1 != name)) = if name = other then none else find? other cs := by
  induction cs with
  | nil => simp [find?]
  | cons first rest ih =>
    obtain ⟨n, old⟩ := first
    by_cases hn : n = name
    · rw [List.filter_cons_of_neg (by simp [hn]), ih]
      split_ifs with hname
      · rfl
      · have hne : ¬ n = other := fun h => hname (hn.symm.trans h)
        simp [find?, hne]
    · rw [List.filter_cons_of_pos (by simpa using hn)]
      by_cases hother : n = other
      · have hne : ¬ name = other := fun h => hn (hother.trans h.symm)
        simp [find?, hother, hne]
      · have hstep : ∀ xs, find? other ((n, old) :: xs) = find? other xs := by
          intro xs
          simp [find?, hother]
        rw [hstep, hstep, ih]

/-! ### Removing -/

theorem remove_singleton (name : String) (e : Entry) :
    remove [name] e = directory (e.children.filter (·.1 != name)) := rfl

theorem remove_cons_concat (n : String) (here : Location) (name : String) (e : Entry) :
    remove (n :: (here ++ [name])) e = match find? n e.children with
      | some old => directory (set n (remove (here ++ [name]) old) e.children)
      | none => e := by
  cases here with
  | nil => rfl
  | cons first rest => rfl

/-- What is put at a location replaces what was put there before. -/
theorem put_put (new old : Entry) (l : Location) (e : Entry) :
    put new l (put old l e) = put new l e := by
  induction l generalizing e with
  | nil => rfl
  | cons n rest ih =>
    simp only [put, children, find?_set, if_pos, Option.getD_some, set_set, ih]

section Remove

variable {here : Location} {name : String} {e new : Entry} {cs : List (String × Entry)}

/-- What is put at a free place and removed again leaves no trace. -/
theorem remove_put (hdir : at? here e = some (directory cs)) (hfree : find? name cs = none) :
    remove (here ++ [name]) (put new (here ++ [name]) e) = e := by
  induction here generalizing e with
  | nil =>
    obtain rfl : e = directory cs := Option.some.inj hdir
    rw [List.nil_append, remove_singleton]
    simp only [put, children]
    rw [filter_set _ hfree]
  | cons n here ih =>
    rw [at?_cons, Option.bind_eq_some_iff] at hdir
    obtain ⟨child, hchild, hrest⟩ := hdir
    obtain ⟨kids, rfl⟩ := exists_eq_directory hchild
    rw [children] at hchild
    rw [List.cons_append, remove_cons_concat]
    simp only [put, children, find?_set, if_pos, hchild, Option.getD_some]
    rw [ih hrest, set_set, set_of_find? hchild]

/-- What is at a location when something is removed: nothing if it lay there or below, a directory
as before, or just what was there before. -/
theorem at?_remove_cases (hdir : at? here e = some (directory cs)) (l : Location) :
    (here ++ [name] <+: l ∧ at? l (remove (here ++ [name]) e) = none) ∨
    (∃ kids kids', at? l e = some (directory kids) ∧
      at? l (remove (here ++ [name]) e) = some (directory kids')) ∨
    at? l (remove (here ++ [name]) e) = at? l e := by
  induction here generalizing e l with
  | nil =>
    obtain rfl : e = directory cs := Option.some.inj hdir
    cases l with
    | nil => exact Or.inr (Or.inl ⟨cs, _, rfl, rfl⟩)
    | cons first rest =>
      rw [List.nil_append, remove_singleton, at?_cons, at?_cons, children, children, find?_filter]
      split_ifs with hfirst
      · exact Or.inl ⟨by simp [hfirst], rfl⟩
      · exact Or.inr (Or.inr rfl)
  | cons n here ih =>
    rw [at?_cons, Option.bind_eq_some_iff] at hdir
    obtain ⟨child, hchild, hrest⟩ := hdir
    obtain ⟨kids, rfl⟩ := exists_eq_directory hchild
    rw [children] at hchild
    rw [List.cons_append, remove_cons_concat, children, hchild]
    cases l with
    | nil => exact Or.inr (Or.inl ⟨kids, _, rfl, rfl⟩)
    | cons first rest =>
      simp only [at?_cons, children, find?_set]
      split_ifs with hfirst
      · subst hfirst
        rw [hchild, List.cons_prefix_cons]
        rcases ih hrest rest with ⟨hbelow, hnone⟩ | hdirs | hsame
        · exact Or.inl ⟨⟨rfl, hbelow⟩, hnone⟩
        · exact Or.inr (Or.inl hdirs)
        · exact Or.inr (Or.inr hsame)
      · exact Or.inr (Or.inr rfl)

/-- What was removed is gone. -/
theorem at?_remove_self (hdir : at? here e = some (directory cs)) :
    at? (here ++ [name]) (remove (here ++ [name]) e) = none := by
  induction here generalizing e with
  | nil =>
    obtain rfl : e = directory cs := Option.some.inj hdir
    rw [List.nil_append, remove_singleton, at?_cons, children, find?_filter, if_pos rfl]
    rfl
  | cons n here ih =>
    rw [at?_cons, Option.bind_eq_some_iff] at hdir
    obtain ⟨child, hchild, hrest⟩ := hdir
    rw [List.cons_append, remove_cons_concat, hchild]
    simp only [at?_cons, children, find?_set, if_pos, Option.bind_some]
    exact ih hrest

end Remove

end Entry

namespace FileSystem

variable {fs fs' fs'' : FileSystem}

/-! ### What is kept -/

/-- Everything in the first file system is in the second: directories are directories still, and all
else is the same. -/
structure Keeps (fs fs' : FileSystem) : Prop where
  here_eq : fs'.here = fs.here
  kept : ∀ l e, fs.entry? l = some e → Entry.Kept (some e) (fs'.entry? l)

theorem Keeps.refl (fs : FileSystem) : Keeps fs fs :=
  ⟨rfl, fun _ _ he => he ▸ .refl _⟩

theorem Keeps.isSome (h : Keeps fs fs') {l : Location} {e : Entry} (he : fs.entry? l = some e) :
    ∃ e', fs'.entry? l = some e' := by
  have hkept := h.kept l e he
  generalize fs'.entry? l = after at hkept
  cases hkept with
  | ofFile content => exact ⟨_, rfl⟩
  | ofLink target => exact ⟨_, rfl⟩
  | ofSpecial => exact ⟨_, rfl⟩
  | ofDirectory cs cs' => exact ⟨_, rfl⟩

theorem Keeps.trans (h : Keeps fs fs') (h' : Keeps fs' fs'') : Keeps fs fs'' where
  here_eq := h'.here_eq.trans h.here_eq
  kept l e he := by
    obtain ⟨e', he'⟩ := h.isSome he
    have hfirst := h.kept l e he
    rw [he'] at hfirst
    exact hfirst.trans (h'.kept l e' he')

theorem Keeps.entry?_eq_none (h : Keeps fs fs') {l : Location} (hl : fs'.entry? l = none) :
    fs.entry? l = none := by
  cases he : fs.entry? l with
  | none => rfl
  | some e =>
    obtain ⟨e', he'⟩ := h.isSome he
    rw [hl] at he'
    cases he'

theorem Keeps.hasDirectory (h : Keeps fs fs') {l : Location} (hl : fs.HasDirectory l) :
    fs'.HasDirectory l := by
  obtain ⟨cs, hcs⟩ := hl
  exact (h.kept l _ hcs).exists_directory

/-- Whatever is made at a free place, everything that was there before is kept. -/
theorem keeps_setAt {l : Location} (h : fs.IsFree l) (new : Entry) : Keeps fs (fs.setAt new l) := by
  obtain ⟨here, name, cs, rfl, hcs, hfree⟩ := h
  refine ⟨rfl, fun m e he => ?_⟩
  rcases @Entry.at?_put_cases here name fs.root new cs hcs hfree m with
    ⟨rest, -, hnone, -⟩ | ⟨kids, kids', hkids, hkids'⟩ | hsame
  · exact absurd (he.symm.trans hnone) (Option.some_ne_none e)
  · obtain rfl : e = .directory kids := Option.some.inj (he.symm.trans hkids)
    have hafter : FileSystem.entry? (fs.setAt new (here ++ [name])) m
        = some (.directory kids') := hkids'
    rw [hafter]
    exact .ofDirectory kids kids'
  · have hafter : FileSystem.entry? (fs.setAt new (here ++ [name])) m = some e := hsame.trans he
    rw [hafter]
    exact .refl _

theorem setAt_setAt (new old : Entry) (l : Location) :
    FileSystem.setAt (fs.setAt old l) new l = fs.setAt new l := by
  unfold setAt
  rw [Entry.put_put]

/-! ### Paths that lead where they led -/

/-- A name that leads on or to a link does so still. -/
theorem Keeps.turn (h : Keeps fs fs') (here : Location) (name : String) :
    (∃ e, fs.turn here name = .off e) ∨ fs.turn here name = .free ∨
      fs'.turn here name = fs.turn here name := by
  by_cases hdir : fs.HasDirectory here
  · obtain ⟨cs, hcs⟩ := hdir
    obtain ⟨cs', hcs'⟩ := h.hasDirectory ⟨cs, hcs⟩
    have hkept := h.kept (here ++ [name])
    rw [turn_of_directory hcs, turn_of_directory hcs']
    generalize fs.entry? (here ++ [name]) = before at hkept ⊢
    generalize fs'.entry? (here ++ [name]) = after at hkept ⊢
    split_ifs
    · exact Or.inr (Or.inr rfl)
    · exact Or.inr (Or.inr rfl)
    · exact Or.inl ⟨.nameTooLong, rfl⟩
    · cases before with
      | none => exact Or.inr (Or.inl rfl)
      | some e =>
        cases hkept e rfl with
        | ofFile content => exact Or.inr (Or.inr rfl)
        | ofLink target => exact Or.inr (Or.inr rfl)
        | ofSpecial => exact Or.inr (Or.inr rfl)
        | ofDirectory kids kids' => exact Or.inr (Or.inr rfl)
  · refine Or.inl ⟨.notDirectory, ?_⟩
    unfold FileSystem.turn
    split
    · rename_i cs hcs
      exact absurd ⟨cs, hcs⟩ hdir
    · rfl

theorem Keeps.step_found (h : Keeps fs fs') {keepLast : Bool}
    {follow follow' : Location → List String → Except FileError Place}
    (hfollow : ∀ there parts l, follow there parts = .ok (.found l) →
      follow' there parts = .ok (.found l)) {here l : Location} {names : List String}
    (hstep : fs.step keepLast follow here names = .ok (.found l)) :
    fs'.step keepLast follow' here names = .ok (.found l) := by
  induction names generalizing here with
  | nil => exact hstep
  | cons name rest ih =>
    rw [step_eq_turn] at hstep ⊢
    rcases h.turn here name with ⟨e, hoff⟩ | hfree | hsame
    · rw [hoff] at hstep
      cases hstep
    · rw [hfree] at hstep
      dsimp only at hstep
      split_ifs at hstep
      cases hstep
    · rw [hsame]
      cases hturn : fs.turn here name with
      | on there =>
        rw [hturn] at hstep
        exact ih hstep
      | via base target =>
        rw [hturn] at hstep
        dsimp only at hstep ⊢
        split_ifs at hstep ⊢
        · exact hstep
        · exact hfollow _ _ _ hstep
      | off e =>
        rw [hturn] at hstep
        cases hstep
      | free =>
        rw [hturn] at hstep
        dsimp only at hstep
        split_ifs at hstep
        cases hstep

theorem Keeps.walk_found (h : Keeps fs fs') {keepLast : Bool} {links : Nat} {here l : Location}
    {names : List String} (hwalk : fs.walk keepLast links here names = .ok (.found l)) :
    fs'.walk keepLast links here names = .ok (.found l) := by
  induction links generalizing here l names with
  | zero =>
    refine h.step_found ?_ hwalk
    intro _ _ _ herror
    cases herror
  | succ links ih =>
    refine h.step_found ?_ hwalk
    intro _ _ _ hthere
    exact ih hthere

theorem Keeps.place_found (h : Keeps fs fs') {keepLast : Bool} {p : Path} {l : Location}
    (hp : fs.place keepLast p = .ok (.found l)) : fs'.place keepLast p = .ok (.found l) := by
  unfold FileSystem.place at hp ⊢
  rw [h.here_eq]
  split_ifs at hp ⊢
  · exact h.walk_found hp
  · exact h.walk_found hp

/-- A name that was free leads to the directory that has been made there. -/
theorem Keeps.turn_free (h : Keeps fs fs') {here : Location} {name : String}
    (hturn : fs.turn here name = .free) (hdir : fs'.HasDirectory (here ++ [name])) :
    fs'.turn here name = .on (here ++ [name]) := by
  obtain ⟨cs, hcs, -⟩ := turn_eq_free hturn
  obtain ⟨cs', hcs'⟩ := h.hasDirectory ⟨cs, hcs⟩
  obtain ⟨kids, hkids⟩ := hdir
  rw [turn_of_directory hcs] at hturn
  rw [turn_of_directory hcs', hkids]
  split_ifs at hturn ⊢
  rfl

theorem Keeps.step_missing (h : Keeps fs fs') {keepLast : Bool}
    {follow follow' : Location → List String → Except FileError Place} {l : Location}
    (hdir : fs'.HasDirectory l)
    (hfollow : ∀ there parts, follow there parts = .ok (.missing l) →
      follow' there parts = .ok (.found l)) {here : Location} {names : List String}
    (hstep : fs.step keepLast follow here names = .ok (.missing l)) :
    fs'.step keepLast follow' here names = .ok (.found l) := by
  induction names generalizing here with
  | nil => cases hstep
  | cons name rest ih =>
    rw [step_eq_turn] at hstep ⊢
    rcases h.turn here name with ⟨e, hoff⟩ | hfree | hsame
    · rw [hoff] at hstep
      cases hstep
    · rw [hfree] at hstep
      dsimp only at hstep
      split_ifs at hstep with hlast
      obtain rfl : here ++ [name] = l := Place.missing.inj (Except.ok.inj hstep)
      rw [h.turn_free hfree hdir, List.isEmpty_iff.mp hlast]
      rfl
    · rw [hsame]
      cases hturn : fs.turn here name with
      | on there =>
        rw [hturn] at hstep
        exact ih hstep
      | via base target =>
        rw [hturn] at hstep
        dsimp only at hstep ⊢
        split_ifs at hstep ⊢
        · cases hstep
        · exact hfollow _ _ hstep
      | off e =>
        rw [hturn] at hstep
        cases hstep
      | free =>
        rw [hturn] at hstep
        dsimp only at hstep
        split_ifs at hstep with hlast
        obtain rfl : here ++ [name] = l := Place.missing.inj (Except.ok.inj hstep)
        have hon := h.turn_free hturn hdir
        rw [hsame, hturn] at hon
        cases hon

theorem Keeps.walk_missing (h : Keeps fs fs') {keepLast : Bool} {links : Nat} {here l : Location}
    {names : List String} (hdir : fs'.HasDirectory l)
    (hwalk : fs.walk keepLast links here names = .ok (.missing l)) :
    fs'.walk keepLast links here names = .ok (.found l) := by
  induction links generalizing here names with
  | zero =>
    refine h.step_missing hdir ?_ hwalk
    intro _ _ herror
    cases herror
  | succ links ih => exact h.step_missing hdir (fun _ _ hthere => ih hthere) hwalk

/-- A path that led to a free place leads to the directory that has been made there. -/
theorem Keeps.place_missing (h : Keeps fs fs') {keepLast : Bool} {p : Path} {l : Location}
    (hp : fs.place keepLast p = .ok (.missing l)) (hdir : fs'.HasDirectory l) :
    fs'.place keepLast p = .ok (.found l) := by
  unfold FileSystem.place at hp ⊢
  rw [h.here_eq]
  split_ifs at hp ⊢
  · exact h.walk_missing hdir hp
  · exact h.walk_missing hdir hp

/-! ### Free places -/

theorem isFree_of_step {keepLast : Bool}
    {follow : Location → List String → Except FileError Place} {l : Location}
    (hfollow : ∀ there parts, follow there parts = .ok (.missing l) → fs.IsFree l)
    {here : Location} {names : List String}
    (h : fs.step keepLast follow here names = .ok (.missing l)) : fs.IsFree l := by
  induction names generalizing here with
  | nil => cases h
  | cons name rest ih =>
    rw [step_eq_turn] at h
    cases hturn : fs.turn here name with
    | on there =>
      rw [hturn] at h
      exact ih h
    | via base target =>
      rw [hturn] at h
      dsimp only at h
      split_ifs at h
      · cases h
      · exact hfollow _ _ h
    | off e =>
      rw [hturn] at h
      cases h
    | free =>
      rw [hturn] at h
      dsimp only at h
      split_ifs at h
      obtain rfl : here ++ [name] = l := Place.missing.inj (Except.ok.inj h)
      obtain ⟨cs, hcs, hfind⟩ := turn_eq_free hturn
      exact ⟨here, name, cs, rfl, hcs, hfind⟩

/-- A path that leads to no entry leads to a free place. -/
theorem isFree_of_place {keepLast : Bool} {p : Path} {l : Location}
    (h : fs.place keepLast p = .ok (.missing l)) : fs.IsFree l := by
  have hwalk : ∀ links here names,
      fs.walk keepLast links here names = .ok (.missing l) → fs.IsFree l := by
    intro links
    induction links with
    | zero =>
      intro here names hzero
      exact isFree_of_step (fun _ _ herror => by cases herror) hzero
    | succ links ih =>
      intro here names hsucc
      exact isFree_of_step ih hsucc
  unfold FileSystem.place at h
  split_ifs at h
  · exact hwalk _ _ _ h
  · exact hwalk _ _ _ h

theorem IsFree.entry?_eq_none {l : Location} (h : fs.IsFree l) : fs.entry? l = none := by
  obtain ⟨here, name, cs, rfl, hcs, hfind⟩ := h
  rw [entry?_concat hcs, hfind]

/-- The file system without what lies at a location. -/
def without (fs : FileSystem) (l : Location) : FileSystem := { fs with root := fs.root.remove l }

/-- What is made at a free place and removed again leaves no trace. -/
theorem without_setAt {l : Location} (h : fs.IsFree l) (new : Entry) :
    FileSystem.without (fs.setAt new l) l = fs := by
  obtain ⟨here, name, cs, rfl, hcs, hfind⟩ := h
  have hroot : (Entry.put new (here ++ [name]) fs.root).remove (here ++ [name]) = fs.root :=
    Entry.remove_put hcs hfind
  unfold without setAt
  dsimp only
  rw [hroot]

/-! ### The last name of a path -/

/-- What the last name of a path leads to from a location. -/
def lastPlace (fs : FileSystem) (here : Location) (name : String) : Except FileError Place :=
  match fs.turn here name with
  | .on there => .ok (.found there)
  | .via _ _ => .ok (.found (here ++ [name]))
  | .off e => .error e
  | .free => .ok (.missing (here ++ [name]))

/-- If this holds of the targets of links, then of all ways: what a last name leads to is looked up
where the names before it lead to. -/
theorem step_concat {follow follow' : Location → List String → Except FileError Place}
    {name : String} {place : Place}
    (hfollow : ∀ there parts, follow there (parts ++ [name]) = .ok place ↔
      ∃ d, follow' there parts = .ok (.found d) ∧ fs.lastPlace d name = .ok place)
    (here : Location) (names : List String) :
    fs.step true follow here (names ++ [name]) = .ok place ↔
      ∃ d, fs.step false follow' here names = .ok (.found d) ∧ fs.lastPlace d name = .ok place := by
  induction names generalizing here with
  | nil =>
    have hlast : fs.step true follow here [name] = fs.lastPlace here name := by
      rw [step_eq_turn, lastPlace]
      cases fs.turn here name <;> rfl
    rw [List.nil_append, hlast]
    constructor
    · intro h
      exact ⟨here, rfl, h⟩
    · rintro ⟨d, hd, h⟩
      obtain rfl : here = d := Place.found.inj (Except.ok.inj hd)
      exact h
  | cons first rest ih =>
    have hne : (rest ++ [name]).isEmpty = false := by cases rest <;> rfl
    rw [List.cons_append, step_eq_turn, step_eq_turn]
    cases fs.turn here first with
    | on there => exact ih there
    | via base target =>
      dsimp only
      rw [hne, Bool.false_and, Bool.and_false, if_neg Bool.false_ne_true,
        if_neg Bool.false_ne_true, ← List.append_assoc]
      exact hfollow base (target ++ rest)
    | off e => simp
    | free =>
      dsimp only
      rw [hne, if_neg Bool.false_ne_true]
      constructor
      · intro h
        cases h
      · rintro ⟨d, hd, -⟩
        split_ifs at hd
        cases hd

theorem walk_concat {links : Nat} {here : Location} {names : List String} {name : String}
    {place : Place} :
    fs.walk true links here (names ++ [name]) = .ok place ↔
      ∃ d, fs.walk false links here names = .ok (.found d) ∧ fs.lastPlace d name = .ok place := by
  induction links generalizing here names with
  | zero =>
    refine step_concat (fun _ _ => ?_) here names
    simp
  | succ links ih => exact step_concat (fun _ _ => ih) here names

/-- The last name of a path is looked up in the directory that the names before it lead to. -/
theorem place_concat {p : Path} {name : String} {place : Place} :
    fs.place true ⟨p.slashes, p.parts ++ [name]⟩ = .ok place ↔
      name.toList.contains '\x00' = false ∧
        ∃ d, fs.place false p = .ok (.found d) ∧ fs.lastPlace d name = .ok place := by
  have habsolute : Path.isAbsolute ⟨p.slashes, p.parts ++ [name]⟩ = p.isAbsolute := rfl
  unfold FileSystem.place
  rw [habsolute, List.any_append, List.any_cons, List.any_nil, Bool.or_false]
  cases p.parts.any (·.toList.contains '\x00') with
  | true =>
    rw [Bool.true_or, if_pos rfl, if_pos rfl]
    simp
  | false =>
    cases name.toList.contains '\x00' with
    | true =>
      rw [Bool.or_true, if_pos rfl]
      simp
    | false =>
      rw [Bool.or_false, if_neg Bool.false_ne_true, if_neg Bool.false_ne_true, walk_concat]
      exact ⟨fun h => ⟨rfl, h⟩, fun h => h.2⟩

/-- A name is free if its directory is there and has no entry of that name, provided that it could
be free anywhere. -/
theorem turn_eq_free_of {here : Location} {name : String} (hturn : fs.turn here name = .free)
    (hdir : fs'.HasDirectory here) (hnone : fs'.entry? (here ++ [name]) = none) :
    fs'.turn here name = .free := by
  obtain ⟨cs, hcs, -⟩ := turn_eq_free hturn
  obtain ⟨cs', hcs'⟩ := hdir
  rw [turn_of_directory hcs] at hturn
  rw [turn_of_directory hcs', hnone]
  split_ifs at hturn ⊢
  rfl

theorem lastPlace_eq_missing {here l : Location} {name : String} :
    fs.lastPlace here name = .ok (.missing l) ↔ fs.turn here name = .free ∧ l = here ++ [name] := by
  unfold lastPlace
  cases fs.turn here name with
  | on there => simp
  | via base target => simp
  | off e => simp
  | free =>
    constructor
    · intro h
      exact ⟨rfl, (Place.missing.inj (Except.ok.inj h)).symm⟩
    · rintro ⟨-, rfl⟩
      rfl

/-- What it means that a path leads to a free place. -/
theorem place_concat_missing {p : Path} {name : String} {l : Location} :
    fs.place true ⟨p.slashes, p.parts ++ [name]⟩ = .ok (.missing l) ↔
      name.toList.contains '\x00' = false ∧
        ∃ d, fs.place false p = .ok (.found d) ∧ fs.turn d name = .free ∧ l = d ++ [name] := by
  rw [place_concat]
  simp only [lastPlace_eq_missing]

/-- A path that led to a free place leads there still if nothing has been made there. -/
theorem Keeps.place_missing_of_none (h : Keeps fs fs') {p : Path} {name : String} {l : Location}
    (hp : fs.place true ⟨p.slashes, p.parts ++ [name]⟩ = .ok (.missing l))
    (hnone : fs'.entry? l = none) :
    fs'.place true ⟨p.slashes, p.parts ++ [name]⟩ = .ok (.missing l) := by
  obtain ⟨hnull, d, hd, hturn, rfl⟩ := place_concat_missing.mp hp
  obtain ⟨cs, hcs, -⟩ := turn_eq_free hturn
  have hdir : fs'.HasDirectory d := h.hasDirectory ⟨cs, hcs⟩
  exact place_concat_missing.mpr
    ⟨hnull, d, h.place_found hd, turn_eq_free_of hturn hdir hnone, rfl⟩

theorem lookUp_eq_notFound {p : Path} {l : Location} (h : fs.place true p = .ok (.missing l)) :
    fs.lookUp p = .error .notFound := by
  simp only [lookUp, locate, FileSystem.place_missing h]

/-! ### Making and removing directories -/

theorem keeps_makeDirectory {p : Path} (h : fs.makeDirectory p = .ok fs') : Keeps fs fs' := by
  unfold makeDirectory at h
  split at h
  · rename_i l hplace
    obtain rfl := Except.ok.inj h
    exact keeps_setAt (isFree_of_place hplace) _
  · cases h
  · cases h

theorem keeps_ensureDirectory {p : Path} (h : fs.ensureDirectory p = .ok fs') : Keeps fs fs' := by
  unfold ensureDirectory at h
  split at h
  · split at h
    · obtain rfl := Except.ok.inj h
      exact .refl fs
    · cases h
  · exact keeps_makeDirectory h

theorem keeps_ensureFrom {p : Path} {names : List String} (h : fs.ensureFrom p names = .ok fs') :
    Keeps fs fs' := by
  induction names generalizing fs p with
  | nil =>
    obtain rfl := Except.ok.inj h
    exact .refl fs
  | cons name rest ih =>
    rw [ensureFrom] at h
    split at h
    · rename_i made hmade
      exact (keeps_ensureDirectory hmade).trans (ih h)
    · cases h
    · cases h

theorem keeps_makeFrom (fs : FileSystem) (p : Path) (names : List String) :
    Keeps fs (fs.makeFrom p names) := by
  induction names generalizing fs p with
  | nil => exact .refl fs
  | cons name rest ih =>
    rw [makeFrom]
    split
    · rename_i made hmade
      exact (keeps_ensureDirectory hmade).trans (ih made _)
    · exact .refl fs

section Without

variable {here : Location} {name : String}

theorem removeDirectory_eq {p : Path} {l : Location} (hplace : fs.place true p = .ok (.found l))
    (hdir : fs.HasDirectory l) : fs.removeDirectory p = fs.without l := by
  obtain ⟨cs, hcs⟩ := hdir
  simp only [removeDirectory, hplace, hcs, Option.any_some, Entry.isDirectory, if_pos, without]

/-- Nothing is left at the location or below it. -/
theorem entry?_without (hdir : fs.HasDirectory here) (rest : Location) :
    FileSystem.entry? (fs.without (here ++ [name])) (here ++ [name] ++ rest) = none := by
  obtain ⟨cs, hcs⟩ := hdir
  have hgone : FileSystem.entry? (fs.without (here ++ [name])) (here ++ [name]) = none :=
    Entry.at?_remove_self hcs
  rw [entry?_append, hgone]
  rfl

/-- Elsewhere files and links are the same, and directories are directories still. -/
theorem kept_without (hdir : fs.HasDirectory here) {m : Location}
    (hm : ¬ here ++ [name] <+: m) :
    Entry.Kept (fs.entry? m) (FileSystem.entry? (fs.without (here ++ [name])) m) := by
  obtain ⟨cs, hcs⟩ := hdir
  have hcases : (here ++ [name] <+: m ∧ _) ∨ _ := Entry.at?_remove_cases hcs m
  rcases hcases with
    ⟨hbelow, -⟩ | ⟨kids, kids', hkids, hkids'⟩ | hsame
  · exact absurd hbelow hm
  · have hbefore : fs.entry? m = some (.directory kids) := hkids
    have hafter : FileSystem.entry? (fs.without (here ++ [name])) m
        = some (.directory kids') := hkids'
    rw [hbefore, hafter]
    exact .ofDirectory kids kids'
  · have hafter : FileSystem.entry? (fs.without (here ++ [name])) m = fs.entry? m := hsame
    rw [hafter]
    exact .refl _

/-- What was there before something was made is there still when that is removed. -/
theorem Keeps.without (h : Keeps fs fs') (hdir : fs'.HasDirectory here)
    (hnone : fs.entry? (here ++ [name]) = none) : Keeps fs (fs'.without (here ++ [name])) := by
  refine ⟨h.here_eq, fun m e he => ?_⟩
  have hm : ¬ here ++ [name] <+: m := by
    rintro ⟨rest, rfl⟩
    rw [entry?_append, hnone] at he
    cases he
  exact (h.kept m e he).trans (kept_without hdir hm)

end Without

end FileSystem

end CodeAtlas
