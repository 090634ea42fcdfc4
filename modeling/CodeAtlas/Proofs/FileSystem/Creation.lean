import CodeAtlas.Proofs.FileSystem.Following

/-!
# Making files and directories

A file or directory that is made takes a place that was free, so everything that was there before
stays, and no link is added (`extends_setAt`).  In a file system that has grown in this way
(`FileSystem.Extends`) paths lead where they led before (`Extends.place_found`), and one that led to
a free place leads there still if something has been made at it (`Extends.place_missing`).  So
making directories again that have been made changes nothing (`ensureDirectories_spec`), and a path
is resolved in the same way before and after (`Extends.resolve_eq`).
-/

namespace CodeAtlas

namespace Entry

/-! ### Entries that are put into a tree -/

theorem find?_set (name : String) (e : Entry) (cs : List (String × Entry)) (other : String) :
    find? other (set name e cs) = if name = other then some e else find? other cs := by
  have hcons : ∀ n (x : Entry) xs,
      find? other ((n, x) :: xs) = if n = other then some x else find? other xs := by
    intro n x xs
    by_cases hn : n = other
    · simp [find?, hn]
    · simp [find?, hn]
  induction cs with
  | nil => exact hcons name e []
  | cons first rest ih =>
    obtain ⟨n, old⟩ := first
    rw [set]
    split_ifs with hn hname hname
    · rw [hcons, if_pos hname]
    · rw [hcons, hcons, if_neg hname, if_neg (hn ▸ hname)]
    · rw [hcons, ih, if_pos hname, if_neg (fun h => hn (h.trans hname.symm))]
    · rw [hcons, hcons, ih, if_neg hname]

theorem linkCountAmong_set (name : String) (e : Entry) (cs : List (String × Entry)) :
    linkCountAmong (set name e cs) + ((find? name cs).map linkCount).getD 0
      = linkCountAmong cs + linkCount e := by
  induction cs with
  | nil => simp [set, find?, linkCountAmong]
  | cons first rest ih =>
    obtain ⟨n, old⟩ := first
    by_cases hn : n = name
    · simp [set, find?, linkCountAmong, hn]
      omega
    · have hfind : find? name ((n, old) :: rest) = find? name rest := by simp [find?, hn]
      rw [set, if_neg hn, hfind, linkCountAmong, linkCountAmong]
      omega

theorem linkCount_le_of_mem {cs : List (String × Entry)} {child : String × Entry}
    (h : child ∈ cs) : child.2.linkCount ≤ linkCountAmong cs := by
  induction cs with
  | nil => cases h
  | cons first rest ih =>
    rw [linkCountAmong]
    rcases List.mem_cons.mp h with rfl | h
    · exact Nat.le_add_right _ _
    · exact Nat.le_add_left_of_le (ih h)

theorem linkCount_le_of_at? {l : Location} {e found : Entry} (h : at? l e = some found) :
    found.linkCount ≤ e.linkCount := by
  induction l generalizing e with
  | nil =>
    obtain rfl : e = found := Option.some.inj h
    exact Nat.le_refl _
  | cons name rest ih =>
    rw [at?_cons, Option.bind_eq_some_iff] at h
    obtain ⟨child, hchild, hrest⟩ := h
    obtain ⟨cs, rfl⟩ := exists_eq_directory hchild
    exact Nat.le_trans (ih hrest) (linkCount_le_of_mem (mem_of_find? hchild))

/-- What is at a place before and after something without links is made somewhere: directories stay
directories, all else is kept, and at a free place there is no link. -/
inductive Kept : Option Entry → Option Entry → Prop
  | ofFile (content : ByteArray) : Kept (some (file content)) (some (file content))
  | ofLink (target : String) : Kept (some (link target)) (some (link target))
  | ofSpecial : Kept (some special) (some special)
  | ofDirectory (cs cs' : List (String × Entry)) :
      Kept (some (directory cs)) (some (directory cs'))
  | ofFree (after : Option Entry) (h : ∀ target, after ≠ some (link target)) : Kept none after

theorem Kept.refl (e : Option Entry) : Kept e e := by
  cases e with
  | none => exact ofFree none fun _ h => by cases h
  | some e =>
    cases e with
    | file content => exact ofFile content
    | link target => exact ofLink target
    | special => exact ofSpecial
    | directory cs => exact ofDirectory cs cs

theorem Kept.eq_link_iff {before after : Option Entry} (h : Kept before after) (target : String) :
    after = some (link target) ↔ before = some (link target) := by
  cases h with
  | ofFile content => exact Iff.rfl
  | ofLink target' => exact Iff.rfl
  | ofSpecial => exact Iff.rfl
  | ofDirectory cs cs' => simp
  | ofFree after hnolink => simp [hnolink target]

theorem Kept.exists_directory {after : Option Entry} {cs : List (String × Entry)}
    (h : Kept (some (directory cs)) after) : ∃ cs', after = some (directory cs') := by
  cases h with
  | ofDirectory _ cs' => exact ⟨cs', rfl⟩

theorem Kept.trans {before between after : Option Entry} (h : Kept before between)
    (h' : Kept between after) : Kept before after := by
  cases h with
  | ofFile content => exact h'
  | ofLink target => exact h'
  | ofSpecial => exact h'
  | ofDirectory cs cs' =>
    cases h' with
    | ofDirectory _ cs'' => exact ofDirectory cs cs''
  | ofFree between hnolink =>
    exact ofFree after fun target hafter => hnolink target ((h'.eq_link_iff target).mp hafter)

section Put

variable {here : Location} {name : String} {e new : Entry} {cs : List (String × Entry)}

theorem at?_put (hdir : at? here e = some (directory cs)) :
    at? (here ++ [name]) (put new (here ++ [name]) e) = some new := by
  induction here generalizing e with
  | nil => simp [put, at?, children, find?_set]
  | cons first rest ih =>
    rw [at?_cons, Option.bind_eq_some_iff] at hdir
    obtain ⟨child, hchild, hrest⟩ := hdir
    rw [List.cons_append, put, at?_cons, children, find?_set, if_pos rfl, hchild]
    exact ih hrest

/-- What is at a location when something is put at a free place: part of that, a directory as
before, or just what was there before. -/
theorem at?_put_cases (hdir : at? here e = some (directory cs)) (hfree : find? name cs = none)
    (l : Location) :
    (∃ rest, l = here ++ name :: rest ∧ at? l e = none ∧
      at? l (put new (here ++ [name]) e) = at? rest new) ∨
    (∃ kids kids', at? l e = some (directory kids) ∧
      at? l (put new (here ++ [name]) e) = some (directory kids')) ∨
    at? l (put new (here ++ [name]) e) = at? l e := by
  induction here generalizing e l with
  | nil =>
    obtain rfl : e = directory cs := Option.some.inj hdir
    cases l with
    | nil => exact Or.inr (Or.inl ⟨cs, _, rfl, rfl⟩)
    | cons first rest =>
      rw [List.nil_append, put, at?_cons, at?_cons, children, children, find?_set]
      split_ifs with hfirst
      · subst hfirst
        rw [hfree]
        exact Or.inl ⟨rest, rfl, rfl, rfl⟩
      · exact Or.inr (Or.inr rfl)
  | cons n here ih =>
    rw [at?_cons, Option.bind_eq_some_iff] at hdir
    obtain ⟨child, hchild, hrest⟩ := hdir
    obtain ⟨kids, rfl⟩ := exists_eq_directory hchild
    cases l with
    | nil => exact Or.inr (Or.inl ⟨kids, _, rfl, rfl⟩)
    | cons first rest =>
      rw [List.cons_append, put, at?_cons, at?_cons, children, children, find?_set]
      rw [children] at hchild
      split_ifs with hfirst
      · subst hfirst
        rw [hchild]
        rcases ih hrest rest with ⟨below, rfl, hnone, hnew⟩ | hdirs | hsame
        · exact Or.inl ⟨below, rfl, hnone, hnew⟩
        · exact Or.inr (Or.inl hdirs)
        · exact Or.inr (Or.inr hsame)
      · exact Or.inr (Or.inr rfl)

/-- Putting something without links at a free place keeps everything. -/
theorem kept_put (hdir : at? here e = some (directory cs)) (hfree : find? name cs = none)
    (hnew : new.linkCount = 0) (l : Location) :
    Kept (at? l e) (at? l (put new (here ++ [name]) e)) := by
  rcases @at?_put_cases here name e new cs hdir hfree l with
    ⟨rest, -, hnone, hrest⟩ | ⟨kids, kids', hkids, hkids'⟩ | hsame
  · rw [hnone, hrest]
    refine .ofFree _ fun target hlink => ?_
    have hle := linkCount_le_of_at? hlink
    rw [hnew] at hle
    exact absurd hle (by simp [linkCount])
  · rw [hkids, hkids']
    exact .ofDirectory kids kids'
  · rw [hsame]
    exact .refl _

theorem linkCount_put (hdir : at? here e = some (directory cs)) (hfree : find? name cs = none)
    (hnew : new.linkCount = 0) : (put new (here ++ [name]) e).linkCount = e.linkCount := by
  induction here generalizing e with
  | nil =>
    obtain rfl : e = directory cs := Option.some.inj hdir
    have hset := linkCountAmong_set name new cs
    rw [hfree, hnew] at hset
    exact hset
  | cons n here ih =>
    rw [at?_cons, Option.bind_eq_some_iff] at hdir
    obtain ⟨child, hchild, hrest⟩ := hdir
    obtain ⟨kids, rfl⟩ := exists_eq_directory hchild
    rw [children] at hchild
    have hset := linkCountAmong_set n (put new (here ++ [name]) child) kids
    rw [hchild, ih hrest] at hset
    rw [List.cons_append, put, children, hchild, linkCount, linkCount]
    exact Nat.add_right_cancel hset

end Put

end Entry

namespace FileSystem

variable {fs fs' fs'' : FileSystem}

/-! ### One name on the way -/

/-- What one name of a path does: the way goes on from a location, or at the target of a link, or it
cannot go on, or the directory has no such name. -/
inductive Turn where
  | on (there : Location)
  | via (base : Location) (target : List String)
  | off (e : FileError)
  | free

/-- What a name does at a location. -/
def turn (fs : FileSystem) (here : Location) (name : String) : Turn :=
  match fs.entry? here with
  | some (.directory children) =>
    if name = "" || name = "." then .on here
    else if name = ".." then .on here.dropLast
    else if maxNameBytes < name.utf8ByteSize then .off .nameTooLong
    else match Entry.find? name children with
      | none => .free
      | some (.link target) =>
        .via (if Text.beginsWith "/" target then [] else here) (PathText.components target)
      | some _ => .on (here ++ [name])
  | _ => .off .notDirectory

theorem step_eq_turn (fs : FileSystem) (keepLast : Bool)
    (follow : Location → List String → Except FileError Place) (here : Location) (name : String)
    (rest : List String) :
    fs.step keepLast follow here (name :: rest) = match fs.turn here name with
      | .on there => fs.step keepLast follow there rest
      | .via base target =>
        if rest.isEmpty && keepLast then .ok (.found (here ++ [name]))
        else follow base (target ++ rest)
      | .off e => .error e
      | .free => if rest.isEmpty then .ok (.missing (here ++ [name])) else .error .notFound := by
  cases hhere : fs.entry? here with
  | none => simp only [step, turn, hhere]
  | some found =>
    cases found with
    | file content => simp only [step, turn, hhere]
    | link target => simp only [step, turn, hhere]
    | special => simp only [step, turn, hhere]
    | directory cs =>
      by_cases hsame : name = "" ∨ name = "."
      · simp [step, turn, hhere, hsame]
      · by_cases hup : name = ".."
        · simp [step, turn, hhere, hup]
        · by_cases hlong : maxNameBytes < name.utf8ByteSize
          · simp [step, turn, hhere, hsame, hup, hlong]
          · cases hname : Entry.find? name cs with
            | none => simp [step, turn, hhere, hsame, hup, hlong, hname]
            | some child =>
              cases child with
              | file content => simp [step, turn, hhere, hsame, hup, hlong, hname]
              | directory cs' => simp [step, turn, hhere, hsame, hup, hlong, hname]
              | special => simp [step, turn, hhere, hsame, hup, hlong, hname]
              | link target => simp [step, turn, hhere, hsame, hup, hlong, hname]

/-- What it means that a name is free. -/
theorem turn_eq_free {here : Location} {name : String} (h : fs.turn here name = .free) :
    ∃ cs, fs.entry? here = some (.directory cs) ∧ Entry.find? name cs = none := by
  unfold turn at h
  split at h
  · rename_i cs hcs
    split_ifs at h
    split at h
    · rename_i hfind
      exact ⟨cs, hcs, hfind⟩
    · cases h
    · cases h
  · cases h

/-! ### Where ways end -/

/-- The name of a location is free in the directory above it. -/
def IsFree (fs : FileSystem) (l : Location) : Prop :=
  ∃ here name cs, l = here ++ [name] ∧ fs.entry? here = some (.directory cs) ∧
    Entry.find? name cs = none

/-- What a way from an entry may end with: at an entry, at a free place, or with an error other than
that there is something already. -/
def EndsWell (fs : FileSystem) : Except FileError Place → Prop
  | .ok (.found l) => (fs.entry? l).isSome = true
  | .ok (.missing l) => fs.IsFree l
  | .error e => e ≠ .alreadyExists

theorem isSome_entry?_dropLast {l : Location} (h : (fs.entry? l).isSome = true) :
    (fs.entry? l.dropLast).isSome = true := by
  rcases List.eq_nil_or_concat l with rfl | ⟨init, last, rfl⟩
  · exact h
  · obtain ⟨e, he⟩ := Option.isSome_iff_exists.mp h
    rw [List.concat_eq_append] at he
    obtain ⟨cs, hcs, -⟩ := exists_directory_of_entry?_concat he
    rw [List.concat_eq_append, List.dropLast_concat, hcs]
    rfl

/-- A name that leads on leads to something. -/
theorem isSome_entry?_of_turn_on {here there : Location} {name : String}
    (hhere : (fs.entry? here).isSome = true) (h : fs.turn here name = .on there) :
    (fs.entry? there).isSome = true := by
  unfold turn at h
  split at h
  · rename_i cs hcs
    split_ifs at h
    · obtain rfl := Turn.on.inj h
      exact hhere
    · obtain rfl := Turn.on.inj h
      exact isSome_entry?_dropLast hhere
    · split at h
      · cases h
      · cases h
      · rename_i child _ hfind
        obtain rfl := Turn.on.inj h
        rw [entry?_concat hcs, hfind]
        rfl
  · cases h

/-- A link is followed from the root or from the directory in which it is. -/
theorem isSome_entry?_of_turn_via {here base : Location} {name : String} {target : List String}
    (hhere : (fs.entry? here).isSome = true) (h : fs.turn here name = .via base target) :
    (fs.entry? base).isSome = true ∧ (fs.entry? (here ++ [name])).isSome = true := by
  unfold turn at h
  split at h
  · rename_i cs hcs
    split_ifs at h
    split at h
    · cases h
    · rename_i text hfind
      obtain ⟨rfl, -⟩ := Turn.via.inj h
      constructor
      · split_ifs
        · rfl
        · exact hhere
      · rw [entry?_concat hcs, hfind]
        rfl
    · cases h
  · cases h

theorem ne_alreadyExists_of_turn_off {here : Location} {name : String} {e : FileError}
    (h : fs.turn here name = .off e) : e ≠ .alreadyExists := by
  unfold turn at h
  grind

theorem endsWell_step {keepLast : Bool} {follow : Location → List String → Except FileError Place}
    (hfollow : ∀ there parts, (fs.entry? there).isSome = true → fs.EndsWell (follow there parts))
    {here : Location} (hhere : (fs.entry? here).isSome = true) (names : List String) :
    fs.EndsWell (fs.step keepLast follow here names) := by
  induction names generalizing here with
  | nil => exact hhere
  | cons name rest ih =>
    rw [step_eq_turn]
    cases hturn : fs.turn here name with
    | on there => exact ih (isSome_entry?_of_turn_on hhere hturn)
    | via base target =>
      obtain ⟨hbase, hlink⟩ := isSome_entry?_of_turn_via hhere hturn
      dsimp only
      split_ifs
      · exact hlink
      · exact hfollow base _ hbase
    | off e => exact ne_alreadyExists_of_turn_off hturn
    | free =>
      obtain ⟨cs, hcs, hfind⟩ := turn_eq_free hturn
      dsimp only
      split_ifs
      · exact ⟨here, name, cs, rfl, hcs, hfind⟩
      · exact FileError.noConfusion

theorem endsWell_walk {keepLast : Bool} (links : Nat) {here : Location}
    (hhere : (fs.entry? here).isSome = true) (names : List String) :
    fs.EndsWell (fs.walk keepLast links here names) := by
  induction links generalizing here names with
  | zero =>
    refine endsWell_step ?_ hhere names
    intro _ _ _ herror
    cases herror
  | succ links ih => exact endsWell_step (fun _ parts hthere => ih hthere parts) hhere names

/-- From the root there is always a way that ends well. -/
theorem endsWell_place {p : Path} (hp : p.isAbsolute = true) (keepLast : Bool) :
    fs.EndsWell (fs.place keepLast p) := by
  unfold place
  split_ifs
  · exact FileError.noConfusion
  · exact endsWell_walk maxLinks rfl p.parts

/-! ### Links at the end -/

/-- Where nothing is there is no link, so it does not matter if a link at the end is followed. -/
theorem step_missing {follow follow' : Location → List String → Except FileError Place}
    (hfollow : ∀ there parts l, follow there parts = .ok (.missing l) →
      follow' there parts = .ok (.missing l)) {here l : Location} {names : List String}
    (h : fs.step true follow here names = .ok (.missing l)) :
    fs.step false follow' here names = .ok (.missing l) := by
  induction names generalizing here with
  | nil => cases h
  | cons name rest ih =>
    rw [step_eq_turn] at h ⊢
    cases hturn : fs.turn here name with
    | on there =>
      rw [hturn] at h
      exact ih h
    | via base target =>
      rw [hturn] at h
      dsimp only at h ⊢
      rw [Bool.and_false, if_neg Bool.false_ne_true]
      split_ifs at h
      · cases h
      · exact hfollow _ _ _ h
    | off e =>
      rw [hturn] at h
      cases h
    | free =>
      rw [hturn] at h
      exact h

theorem walk_missing {links : Nat} {here l : Location} {names : List String}
    (h : fs.walk true links here names = .ok (.missing l)) :
    fs.walk false links here names = .ok (.missing l) := by
  induction links generalizing here l names with
  | zero =>
    refine step_missing ?_ h
    intro _ _ _ herror
    cases herror
  | succ links ih =>
    refine step_missing ?_ h
    intro _ _ _ hthere
    exact ih hthere

theorem place_missing {p : Path} {l : Location} (h : fs.place true p = .ok (.missing l)) :
    fs.place false p = .ok (.missing l) := by
  unfold place at h ⊢
  by_cases hnull : p.parts.any (·.toList.contains '\x00') = true
  · rw [if_pos hnull] at h
    cases h
  · rw [if_neg hnull] at h ⊢
    exact walk_missing h

/-! ### File systems that grow -/

/-- The second file system is the first after files and directories have been made at free places.
-/
structure Extends (fs fs' : FileSystem) : Prop where
  here_eq : fs'.here = fs.here
  kept : ∀ l, Entry.Kept (fs.entry? l) (fs'.entry? l)
  linkCount_eq : fs'.root.linkCount = fs.root.linkCount

theorem Extends.refl (fs : FileSystem) : Extends fs fs := ⟨rfl, fun _ => .refl _, rfl⟩

theorem Extends.trans (h : Extends fs fs') (h' : Extends fs' fs'') : Extends fs fs'' where
  here_eq := h'.here_eq.trans h.here_eq
  kept l := (h.kept l).trans (h'.kept l)
  linkCount_eq := h'.linkCount_eq.trans h.linkCount_eq

/-- Making something without links at a free place only adds to a file system. -/
theorem extends_setAt {l : Location} {new : Entry} (h : fs.IsFree l) (hnew : new.linkCount = 0) :
    Extends fs (fs.setAt new l) := by
  obtain ⟨here, name, cs, rfl, hcs, hfree⟩ := h
  exact ⟨rfl, Entry.kept_put hcs hfree hnew, Entry.linkCount_put hcs hfree hnew⟩

theorem entry?_setAt {l : Location} {new : Entry} (h : fs.IsFree l) :
    FileSystem.entry? (fs.setAt new l) l = some new := by
  obtain ⟨here, name, cs, rfl, hcs, -⟩ := h
  exact Entry.at?_put hcs

theorem Extends.directory (h : Extends fs fs') {l : Location} {cs : List (String × Entry)}
    (hl : fs.entry? l = some (.directory cs)) : ∃ cs', fs'.entry? l = some (.directory cs') := by
  have hkept := h.kept l
  rw [hl] at hkept
  exact hkept.exists_directory

/-- What a name does, by what there is at the location and below it. -/
theorem turn_of_directory {here : Location} {cs : List (String × Entry)}
    (hhere : fs.entry? here = some (.directory cs)) (name : String) :
    fs.turn here name =
      if name = "" || name = "." then .on here
      else if name = ".." then .on here.dropLast
      else if maxNameBytes < name.utf8ByteSize then .off .nameTooLong
      else match fs.entry? (here ++ [name]) with
        | none => .free
        | some (.link target) =>
          .via (if Text.beginsWith "/" target then [] else here) (PathText.components target)
        | some _ => .on (here ++ [name]) := by
  rw [turn, hhere, entry?_concat hhere]

/-- A name does what it did before, unless it was free. -/
theorem Extends.turn (h : Extends fs fs') (here : Location) (name : String) :
    (∃ e, fs.turn here name = .off e) ∨
    (fs.turn here name ≠ .free ∧ fs'.turn here name = fs.turn here name) ∨
    (fs.turn here name = .free ∧ ∀ e, fs'.entry? (here ++ [name]) = some e →
      fs'.turn here name = .on (here ++ [name])) := by
  by_cases hdir : ∃ cs, fs.entry? here = some (.directory cs)
  · obtain ⟨cs, hcs⟩ := hdir
    obtain ⟨cs', hcs'⟩ := h.directory hcs
    have hkept := h.kept (here ++ [name])
    rw [turn_of_directory hcs, turn_of_directory hcs']
    generalize fs.entry? (here ++ [name]) = before at hkept ⊢
    generalize fs'.entry? (here ++ [name]) = after at hkept ⊢
    split_ifs
    · exact Or.inr (Or.inl ⟨Turn.noConfusion, rfl⟩)
    · exact Or.inr (Or.inl ⟨Turn.noConfusion, rfl⟩)
    · exact Or.inl ⟨.nameTooLong, rfl⟩
    · cases hkept with
      | ofFile content => exact Or.inr (Or.inl ⟨Turn.noConfusion, rfl⟩)
      | ofLink target => exact Or.inr (Or.inl ⟨Turn.noConfusion, rfl⟩)
      | ofSpecial => exact Or.inr (Or.inl ⟨Turn.noConfusion, rfl⟩)
      | ofDirectory kids kids' => exact Or.inr (Or.inl ⟨Turn.noConfusion, rfl⟩)
      | ofFree after hnolink =>
        refine Or.inr (Or.inr ⟨rfl, fun e he => ?_⟩)
        subst he
        cases e with
        | file content => rfl
        | directory kids => rfl
        | special => rfl
        | link target => exact absurd rfl (hnolink target)
  · refine Or.inl ⟨.notDirectory, ?_⟩
    unfold FileSystem.turn
    split
    · rename_i cs hcs
      exact absurd ⟨cs, hcs⟩ hdir
    · rfl

/-- Where a way ended at an entry it still does, and where it ended at a free place it ends at what
has been made there. -/
def Persists (fs' : FileSystem) (before after : Except FileError Place) : Prop :=
  (∀ l, before = .ok (.found l) → after = .ok (.found l)) ∧
  ∀ l e, before = .ok (.missing l) → fs'.entry? l = some e → after = .ok (.found l)

theorem persists_error (e : FileError) (after : Except FileError Place) :
    fs'.Persists (.error e) after :=
  ⟨fun _ hl => (by cases hl), fun _ _ hl => (by cases hl)⟩

theorem persists_found (l : Location) : fs'.Persists (.ok (.found l)) (.ok (.found l)) :=
  ⟨fun _ hl => hl, fun _ _ hl => (by cases hl)⟩

theorem Extends.step (h : Extends fs fs') {keepLast : Bool}
    {follow follow' : Location → List String → Except FileError Place}
    (hfollow : ∀ there parts, fs'.Persists (follow there parts) (follow' there parts))
    (here : Location) (names : List String) :
    fs'.Persists (fs.step keepLast follow here names) (fs'.step keepLast follow' here names) := by
  induction names generalizing here with
  | nil => exact persists_found here
  | cons name rest ih =>
    rw [step_eq_turn, step_eq_turn]
    rcases h.turn here name with ⟨e, hoff⟩ | ⟨hne, hsame⟩ | ⟨hfree, hmade⟩
    · rw [hoff]
      exact persists_error e _
    · rw [hsame]
      cases hturn : fs.turn here name with
      | on there => exact ih there
      | via base target =>
        dsimp only
        split_ifs
        · exact persists_found _
        · exact hfollow _ _
      | off e => exact persists_error e _
      | free => exact absurd hturn hne
    · -- A way that was free can only have ended there, at the last name.
      rw [hfree]
      cases rest with
      | nil =>
        refine ⟨fun _ hl => (by cases hl), fun l e hl he => ?_⟩
        obtain rfl : here ++ [name] = l := Place.missing.inj (Except.ok.inj hl)
        rw [hmade e he]
        rfl
      | cons second rest => exact persists_error .notFound _

theorem Extends.walk (h : Extends fs fs') (keepLast : Bool) (links : Nat) (here : Location)
    (names : List String) :
    fs'.Persists (fs.walk keepLast links here names) (fs'.walk keepLast links here names) := by
  induction links generalizing here names with
  | zero => exact h.step (fun _ _ => persists_error .tooManyLinks _) here names
  | succ links ih => exact h.step ih here names

theorem Extends.place (h : Extends fs fs') (keepLast : Bool) (p : Path) :
    fs'.Persists (fs.place keepLast p) (fs'.place keepLast p) := by
  unfold FileSystem.place
  rw [h.here_eq]
  split_ifs
  · exact persists_error .nullCharacter _
  · exact h.walk keepLast maxLinks _ p.parts
  · exact h.walk keepLast maxLinks _ p.parts

/-- A path that led to an entry leads there still. -/
theorem Extends.place_found (h : Extends fs fs') {keepLast : Bool} {p : Path} {l : Location}
    (hp : fs.place keepLast p = .ok (.found l)) : fs'.place keepLast p = .ok (.found l) :=
  (h.place keepLast p).1 l hp

/-- A path that led to a free place leads to what has been made there. -/
theorem Extends.place_missing (h : Extends fs fs') {keepLast : Bool} {p : Path} {l : Location}
    {e : Entry} (hp : fs.place keepLast p = .ok (.missing l)) (he : fs'.entry? l = some e) :
    fs'.place keepLast p = .ok (.found l) :=
  (h.place keepLast p).2 l e hp he

theorem Extends.resolveStep_eq (h : Extends fs fs')
    (follow : Location → List String → Option Location) :
    fs'.resolveStep follow = fs.resolveStep follow := by
  funext here name
  have hkept := h.kept (here ++ [name])
  unfold resolveStep
  generalize fs.entry? (here ++ [name]) = before at hkept ⊢
  generalize fs'.entry? (here ++ [name]) = after at hkept ⊢
  cases hkept with
  | ofFile content => rfl
  | ofLink target => rfl
  | ofSpecial => rfl
  | ofDirectory kids kids' => rfl
  | ofFree after hnolink =>
    cases after with
    | none => rfl
    | some e =>
      cases e with
      | file content => rfl
      | directory kids => rfl
      | special => rfl
      | link target => exact absurd rfl (hnolink target)

theorem Extends.resolveFrom_eq (h : Extends fs fs') (links : Nat) :
    fs'.resolveFrom links = fs.resolveFrom links := by
  induction links with
  | zero => rw [resolveFrom, resolveFrom, h.resolveStep_eq]
  | succ links ih => rw [resolveFrom, resolveFrom, h.resolveStep_eq, ih]

/-- How a path is resolved depends on the links only. -/
theorem Extends.resolve_eq (h : Extends fs fs') (p : Path) : fs'.resolve p = fs.resolve p := by
  rw [resolve, resolve, h.linkCount_eq, h.here_eq, h.resolveFrom_eq]

/-! ### Making directories -/

theorem lookUp_eq_ok {p : Path} {e : Entry} :
    fs.lookUp p = .ok e ↔ ∃ l, fs.place false p = .ok (.found l) ∧ fs.entry? l = some e := by
  unfold lookUp locate
  cases fs.place false p with
  | error err => simp
  | ok place =>
    cases place with
    | missing l => simp
    | found l =>
      cases he : fs.entry? l with
      | none => simp [he]
      | some found => simp [he]

/-- What is a directory stays one. -/
theorem Extends.lookUp_directory (h : Extends fs fs') {p : Path} {cs : List (String × Entry)}
    (hp : fs.lookUp p = .ok (.directory cs)) : ∃ cs', fs'.lookUp p = .ok (.directory cs') := by
  obtain ⟨l, hplace, hl⟩ := lookUp_eq_ok.mp hp
  obtain ⟨cs', hcs'⟩ := h.directory hl
  exact ⟨cs', lookUp_eq_ok.mpr ⟨l, h.place_found hplace, hcs'⟩⟩

theorem ensureDirectory_of_place {p : Path} {l : Location} {cs : List (String × Entry)}
    (hplace : fs.place true p = .ok (.found l)) (hlook : fs.lookUp p = .ok (.directory cs)) :
    fs.ensureDirectory p = .ok fs := by
  simp only [ensureDirectory, makeDirectory, hplace, hlook]

/-- The ways in which a directory is made sure of: it was missing and is made, or it is there. -/
theorem ensureDirectory_eq_ok {p : Path} (hp : p.isAbsolute = true)
    (h : fs.ensureDirectory p = .ok fs') :
    (∃ l, fs.place true p = .ok (.missing l) ∧ fs' = fs.setAt .emptyDirectory l) ∨
    (∃ l cs, fs.place true p = .ok (.found l) ∧ fs.lookUp p = .ok (.directory cs) ∧ fs' = fs) := by
  have hends : fs.EndsWell (fs.place true p) := endsWell_place hp true
  unfold ensureDirectory makeDirectory at h
  cases hplace : fs.place true p with
  | error e =>
    rw [hplace] at hends h
    dsimp only at h
    split at h
    · rename_i he
      exact absurd (Except.error.inj he) hends
    · cases h
  | ok place =>
    rw [hplace] at h
    cases place with
    | missing l => exact Or.inl ⟨l, rfl, (Except.ok.inj h).symm⟩
    | found l =>
      dsimp only at h
      split at h
      · rename_i cs hlook
        exact Or.inr ⟨l, cs, rfl, hlook, (Except.ok.inj h).symm⟩
      · cases h

/-- A directory that is made is there, and making it again changes nothing, whatever else has been
made. -/
theorem ensureDirectory_spec {p : Path} (hp : p.isAbsolute = true)
    (h : fs.ensureDirectory p = .ok fs') :
    Extends fs fs' ∧ ∀ later, Extends fs' later → later.ensureDirectory p = .ok later := by
  rcases ensureDirectory_eq_ok hp h with ⟨l, hplace, rfl⟩ | ⟨l, cs, hplace, hlook, rfl⟩
  · have hfree : fs.EndsWell (fs.place true p) := endsWell_place hp true
    rw [hplace] at hfree
    have hext : Extends fs (fs.setAt .emptyDirectory l) := extends_setAt hfree rfl
    refine ⟨hext, fun later hlater => ?_⟩
    obtain ⟨cs, hcs⟩ := hlater.directory (entry?_setAt hfree)
    have hall := hext.trans hlater
    exact ensureDirectory_of_place (hall.place_missing hplace hcs)
      (lookUp_eq_ok.mpr ⟨l, hall.place_missing (place_missing hplace) hcs, hcs⟩)
  · refine ⟨.refl _, fun later hlater => ?_⟩
    obtain ⟨cs', hcs'⟩ := hlater.lookUp_directory hlook
    exact ensureDirectory_of_place (hlater.place_found hplace) hcs'

/-- Directories along names that are made are there, and making them again changes nothing. -/
theorem ensureFrom_spec {p : Path} (hp : p.isAbsolute = true) {names : List String}
    (h : fs.ensureFrom p names = .ok fs') :
    Extends fs fs' ∧ ∀ later, Extends fs' later → later.ensureFrom p names = .ok later := by
  induction names generalizing fs p with
  | nil =>
    obtain rfl : fs = fs' := Except.ok.inj h
    exact ⟨.refl _, fun _ _ => rfl⟩
  | cons name rest ih =>
    rw [ensureFrom] at h
    split at h
    · rename_i made hmade
      obtain ⟨hext, hagain⟩ := @ensureDirectory_spec _ _ ⟨p.slashes, p.parts ++ [name]⟩ hp hmade
      obtain ⟨hrest, hrestAgain⟩ := @ih _ ⟨p.slashes, p.parts ++ [name]⟩ hp h
      refine ⟨hext.trans hrest, fun later hlater => ?_⟩
      rw [ensureFrom, hagain later (hrest.trans hlater)]
      exact hrestAgain later hlater
    · cases h
    · cases h

/-- A directory and those above it, when they are made, are there, and making them again changes
nothing. -/
theorem ensureDirectories_spec {p : Path} (hp : p.isAbsolute = true)
    (h : fs.ensureDirectories p = .ok fs') :
    Extends fs fs' ∧ ∀ later, Extends fs' later → later.ensureDirectories p = .ok later :=
  @ensureFrom_spec _ _ { p with parts := [] } hp _ h

/-! ### Making a file -/

/-- A file that is written where there was nothing is there then. -/
theorem write_spec {p : Path} (hp : p.isAbsolute = true) (hmissing : fs.read p = .error .notFound)
    {content : ByteArray} (h : fs.write p content = .ok fs') :
    Extends fs fs' ∧ fs'.read p = .ok content := by
  have hends : fs.EndsWell (fs.place false p) := endsWell_place hp false
  unfold write at h
  split at h
  · rename_i l hplace
    obtain rfl : fs.setAt (.file content) l = fs' := Except.ok.inj h
    rw [hplace] at hends
    have hext : Extends fs (fs.setAt (.file content) l) := extends_setAt hends rfl
    have hfile : FileSystem.entry? (fs.setAt (.file content) l) l = some (.file content) :=
      entry?_setAt hends
    refine ⟨hext, ?_⟩
    rw [read, lookUp_eq_ok.mpr ⟨l, hext.place_missing hplace hfile, hfile⟩]
  · rename_i l hplace
    rw [hplace] at hends
    obtain ⟨e, he⟩ := Option.isSome_iff_exists.mp hends
    rw [read, lookUp_eq_ok.mpr ⟨l, hplace, he⟩] at hmissing
    cases e with
    | file old => cases hmissing
    | directory cs => cases hmissing
    | link target => cases hmissing
    | special => cases hmissing
  · cases h

end FileSystem

end CodeAtlas
