import CodeAtlas.Proofs.FileSystem.Tree

/-!
# Following paths

In a tree in which every directory has proper and different names (`FileSystem.IsProper`), a path is
followed one name after the other: what lies behind a path that was followed is looked up from where
that path ended, with at most as many links left as before (`walk_append`).  Fewer links never lead
elsewhere, they only may be too few (`walk_mono`), and along real directories none are needed
(`walk_location`).  So a path into a directory leads to the same place as the real path of the
directory would, unless it leads over too many links (`locate_below`).
-/

namespace CodeAtlas

namespace FileSystem

variable {fs : FileSystem}

/-! ### One name -/

/-- What one name does on the way: the way goes on from a location, or at the target of a link, or
it ends with an error that links have no part in, or at a name that is missing. -/
theorem step_cons (fs : FileSystem) (here : Location) (name : String) :
    (∃ there, ∀ follow rest, fs.step false follow here (name :: rest)
      = fs.step false follow there rest) ∨
    (∃ there parts, ∀ follow rest, fs.step false follow here (name :: rest)
      = follow there (parts ++ rest)) ∨
    (∃ e, e ≠ .tooManyLinks ∧ ∀ follow rest, fs.step false follow here (name :: rest) = .error e) ∨
    ∃ missing, ∀ follow rest, fs.step false follow here (name :: rest)
      = if rest.isEmpty then .ok (.missing missing) else .error .notFound := by
  cases hhere : fs.entry? here with
  | none => exact Or.inr (Or.inr (Or.inl ⟨.notDirectory, by decide, by simp [step, hhere]⟩))
  | some found =>
    cases found with
    | file content =>
      exact Or.inr (Or.inr (Or.inl ⟨.notDirectory, by decide, by simp [step, hhere]⟩))
    | link target =>
      exact Or.inr (Or.inr (Or.inl ⟨.notDirectory, by decide, by simp [step, hhere]⟩))
    | special => exact Or.inr (Or.inr (Or.inl ⟨.notDirectory, by decide, by simp [step, hhere]⟩))
    | directory cs =>
      by_cases hsame : name = "" ∨ name = "."
      · exact Or.inl ⟨here, by simp [step, hhere, hsame]⟩
      · by_cases hup : name = ".."
        · exact Or.inl ⟨here.dropLast, by simp [step, hhere, hup]⟩
        · by_cases hlong : maxNameBytes < name.utf8ByteSize
          · refine Or.inr (Or.inr (Or.inl ⟨.nameTooLong, by decide, ?_⟩))
            simp [step, hhere, hsame, hup, hlong]
          · cases hname : Entry.find? name cs with
            | none =>
              refine Or.inr (Or.inr (Or.inr ⟨here ++ [name], ?_⟩))
              simp [step, hhere, hsame, hup, hlong, hname]
            | some child =>
              cases child with
              | file content =>
                exact Or.inl ⟨here ++ [name], by simp [step, hhere, hsame, hup, hlong, hname]⟩
              | directory cs' =>
                exact Or.inl ⟨here ++ [name], by simp [step, hhere, hsame, hup, hlong, hname]⟩
              | special =>
                exact Or.inl ⟨here ++ [name], by simp [step, hhere, hsame, hup, hlong, hname]⟩
              | link target =>
                refine Or.inr (Or.inl ⟨if Text.beginsWith "/" target then [] else here,
                  PathText.components target, ?_⟩)
                simp [step, hhere, hsame, hup, hlong, hname]

/-- A name of a directory leads to the entry of that name if this is no link. -/
theorem step_enter {here : Location} {cs : List (String × Entry)} {name : String} {e : Entry}
    (hhere : fs.entry? here = some (.directory cs)) (hname : isName name = true)
    (hfind : Entry.find? name cs = some e) (he : e.isNoLink = true) (keepLast : Bool)
    (follow : Location → List String → Except FileError Place) (rest : List String) :
    fs.step keepLast follow here (name :: rest)
      = fs.step keepLast follow (here ++ [name]) rest := by
  simp only [isName, Bool.and_eq_true, bne_iff_ne, decide_eq_true_eq] at hname
  obtain ⟨⟨⟨⟨⟨hempty, hdot⟩, hup⟩, -⟩, -⟩, hlength⟩ := hname
  have hshort : ¬ maxNameBytes < name.utf8ByteSize := Nat.not_lt.mpr hlength
  cases e with
  | file content => simp [step, hhere, hempty, hdot, hup, hshort, hfind]
  | directory cs' => simp [step, hhere, hempty, hdot, hup, hshort, hfind]
  | special => simp [step, hhere, hempty, hdot, hup, hshort, hfind]
  | link target => cases he

/-! ### Many names -/

/-- What becomes of the target of a link when one more than the given number of links was left, or
none at all. -/
def followLink (fs : FileSystem) : Nat → Location → List String → Except FileError Place
  | 0 => fun _ _ => .error .tooManyLinks
  | links + 1 => fs.walk false links

theorem walk_eq (fs : FileSystem) (links : Nat) :
    fs.walk false links = fs.step false (followLink fs links) := by
  cases links <;> rfl

/-- If this holds of the targets of links, then of all ways: behind names that can be followed, the
way goes on from their end with the links that are left. -/
theorem step_append {links : Nat}
    (htargets : ∀ {there parts l}, followLink fs links there parts = .ok (.found l) →
      ∃ left ≤ links, ∀ rest, followLink fs links there (parts ++ rest) = fs.walk false left l rest)
    {here l : Location} {names : List String}
    (h : fs.step false (followLink fs links) here names = .ok (.found l)) :
    ∃ left ≤ links, ∀ rest,
      fs.step false (followLink fs links) here (names ++ rest) = fs.walk false left l rest := by
  induction names generalizing here with
  | nil =>
    obtain rfl : here = l := Place.found.inj (Except.ok.inj h)
    refine ⟨links, Nat.le_refl links, fun rest => ?_⟩
    rw [List.nil_append, walk_eq]
  | cons name names ih =>
    rcases step_cons fs here name with ⟨there, hthere⟩ | ⟨there, parts, hthere⟩ | ⟨e, -, he⟩ |
      ⟨missing, hmissing⟩
    · rw [hthere] at h
      obtain ⟨left, hleft, hrest⟩ := ih h
      refine ⟨left, hleft, fun rest => ?_⟩
      rw [List.cons_append, hthere, hrest]
    · rw [hthere] at h
      obtain ⟨left, hleft, hrest⟩ := htargets h
      refine ⟨left, hleft, fun rest => ?_⟩
      rw [List.cons_append, hthere, ← List.append_assoc, hrest]
    · rw [he] at h
      cases h
    · rw [hmissing] at h
      split at h
      · cases h
      · cases h

/-- Behind names that can be followed, the way goes on from their end with the links that are left.
-/
theorem walk_append {links : Nat} {here l : Location} {names : List String}
    (h : fs.walk false links here names = .ok (.found l)) :
    ∃ left ≤ links, ∀ rest,
      fs.walk false links here (names ++ rest) = fs.walk false left l rest := by
  induction links generalizing here l names with
  | zero =>
    rw [walk_eq] at h ⊢
    refine step_append ?_ h
    intro there parts l hl
    cases hl
  | succ links ih =>
    rw [walk_eq] at h ⊢
    refine step_append ?_ h
    intro there parts l hl
    obtain ⟨left, hleft, hrest⟩ := ih hl
    exact ⟨left, Nat.le_succ_of_le hleft, hrest⟩

theorem step_congr {follow follow' : Location → List String → Except FileError Place}
    (hfollow : ∀ there parts, follow there parts ≠ .error .tooManyLinks →
      follow' there parts = follow there parts) {here : Location} {names : List String}
    (h : fs.step false follow here names ≠ .error .tooManyLinks) :
    fs.step false follow' here names = fs.step false follow here names := by
  induction names generalizing here with
  | nil => rfl
  | cons name names ih =>
    rcases step_cons fs here name with ⟨there, hthere⟩ | ⟨there, parts, hthere⟩ | ⟨e, -, he⟩ |
      ⟨missing, hmissing⟩
    · rw [hthere] at h ⊢
      rw [hthere]
      exact ih h
    · rw [hthere] at h ⊢
      rw [hthere]
      exact hfollow _ _ h
    · rw [he, he]
    · rw [hmissing, hmissing]

/-- With more links the way leads to the same place, unless there were too few of them. -/
theorem walk_mono {few many : Nat} (hle : few ≤ many) {here : Location} {names : List String}
    (h : fs.walk false few here names ≠ .error .tooManyLinks) :
    fs.walk false many here names = fs.walk false few here names := by
  induction few generalizing many here names with
  | zero =>
    rw [walk_eq] at h
    rw [walk_eq, walk_eq]
    refine step_congr ?_ h
    intro there parts hne
    exact absurd rfl hne
  | succ few ih =>
    obtain ⟨more, rfl⟩ : ∃ more, many = more + 1 := ⟨many - 1, by omega⟩
    rw [walk_eq] at h
    rw [walk_eq, walk_eq]
    refine step_congr ?_ h
    intro there parts hne
    exact ih (by omega) hne

/-- Along real directories no link is followed. -/
theorem walk_location (hproper : fs.IsProper) {l m : Location} {e : Entry}
    (h : fs.entry? (l ++ m) = some e) (he : e.isNoLink = true) (links : Nat)
    (rest : List String) :
    fs.walk false links l (m ++ rest) = fs.walk false links (l ++ m) rest := by
  induction m generalizing l with
  | nil => rw [List.nil_append, List.append_nil]
  | cons name m ih =>
    have hsplit : l ++ name :: m = (l ++ [name]) ++ m := by simp
    rw [hsplit] at h ⊢
    rw [← ih h, List.cons_append, walk_eq]
    have hfirst := h
    rw [entry?_append, Option.bind_eq_some_iff] at hfirst
    obtain ⟨first, hfirst, hm⟩ := hfirst
    -- Only the last entry could be a link, because the others have entries themselves.
    have hnolink : first.isNoLink = true := by
      cases m with
      | nil =>
        obtain rfl : first = e := Option.some.inj hm
        exact he
      | cons second m =>
        rw [Entry.at?_cons, Option.bind_eq_some_iff] at hm
        obtain ⟨child, hchild, -⟩ := hm
        obtain ⟨cs, rfl⟩ := Entry.exists_eq_directory hchild
        rfl
    obtain ⟨cs, hcs, hfind⟩ := exists_directory_of_entry?_concat hfirst
    exact step_enter hcs ((hproper.names hcs).2 _ (Entry.mem_of_find? hfind)) hfind hnolink _ _ _

/-! ### Locations of paths -/

/-- The location at which a way ends, if there is something. -/
def locationOf : Except FileError Place → Except FileError Location
  | .ok (.found l) => .ok l
  | .ok (.missing _) => .error .notFound
  | .error e => .error e

/-- The location from which a path is followed. -/
def base (fs : FileSystem) (p : Path) : Location := if p.isAbsolute then [] else fs.here

/-- A path with a character of code zero leads nowhere. -/
def hasNull (parts : List String) : Bool := parts.any (·.toList.contains '\x00')

theorem locate_eq (fs : FileSystem) (p : Path) :
    fs.locate p = if hasNull p.parts then .error .nullCharacter
      else locationOf (fs.walk false maxLinks (fs.base p) p.parts) := by
  unfold locate place base hasNull
  by_cases hnull : p.parts.any (·.toList.contains '\x00') = true
  · rw [if_pos hnull, if_pos hnull]
  · rw [if_neg hnull, if_neg hnull]
    rfl

/-- What it means that a path leads to a location. -/
theorem locate_eq_ok {p : Path} {l : Location} :
    fs.locate p = .ok l ↔ hasNull p.parts = false ∧
      fs.walk false maxLinks (fs.base p) p.parts = .ok (.found l) := by
  rw [locate_eq]
  cases hasNull p.parts with
  | true => simp
  | false =>
    cases fs.walk false maxLinks (fs.base p) p.parts with
    | error e => simp [locationOf]
    | ok place => cases place <;> simp [locationOf]

theorem hasNull_eq_false {names : List String} (h : ∀ name ∈ names, isName name = true) :
    hasNull names = false := by
  rw [hasNull, List.any_eq_false]
  intro name hname
  have hproper := h name hname
  simp only [isName, Bool.and_eq_true, Bool.not_eq_true'] at hproper
  simp only [hproper.1.2, Bool.false_eq_true, not_false_eq_true]

/-- A path that leads to a directory may be extended by a name. -/
theorem locate_concat {p : Path} {d : Location} (hp : fs.locate p = .ok d) {name : String}
    (hname : isName name = true) :
    ∃ left ≤ maxLinks, fs.locate ⟨p.slashes, p.parts ++ [name]⟩
      = locationOf (fs.walk false left d [name]) := by
  obtain ⟨hnull, hwalk⟩ := locate_eq_ok.mp hp
  have hnull' : hasNull (p.parts ++ [name]) = false := by
    have hlast : hasNull [name] = false := hasNull_eq_false (by simpa using hname)
    rw [hasNull] at hnull hlast ⊢
    rw [List.any_append, hnull, hlast, Bool.false_or]
  obtain ⟨left, hleft, hrest⟩ := walk_append hwalk
  refine ⟨left, hleft, ?_⟩
  rw [locate_eq, hnull', if_neg Bool.false_ne_true]
  exact congrArg locationOf (hrest [name])

/-- The path of a location leads along it. -/
theorem locate_pathOf_append (hproper : fs.IsProper) {l : Location} {e : Entry}
    (hl : fs.entry? l = some e) (he : e.isNoLink = true) {rest : List String}
    (hrest : ∀ name ∈ rest, isName name = true) :
    fs.locate (pathOf (l ++ rest)) = locationOf (fs.walk false maxLinks l rest) := by
  have hnull : hasNull (l ++ rest) = false := by
    apply hasNull_eq_false
    intro name hname
    rcases List.mem_append.mp hname with hname | hname
    · exact hproper.isName_of_mem hl hname
    · exact hrest name hname
  rw [locate_eq, pathOf, hnull, if_neg Bool.false_ne_true]
  exact congrArg locationOf (walk_location (l := []) hproper hl he maxLinks rest)

/-- A path into a directory leads where the real path leads, or over too many links. -/
theorem locate_below (hproper : fs.IsProper) {p : Path} {d : Location} {cs : List (String × Entry)}
    (hp : fs.locate p = .ok d) (hd : fs.entry? d = some (.directory cs)) {name : String}
    (hname : isName name = true) :
    fs.locate ⟨p.slashes, p.parts ++ [name]⟩ = fs.locate (pathOf (d ++ [name])) ∨
      fs.locate ⟨p.slashes, p.parts ++ [name]⟩ = .error .tooManyLinks := by
  obtain ⟨left, hleft, hlocate⟩ := locate_concat hp hname
  rw [hlocate, locate_pathOf_append hproper hd rfl (by simpa using hname)]
  by_cases hfew : fs.walk false left d [name] = .error .tooManyLinks
  · exact Or.inr (congrArg locationOf hfew)
  · exact Or.inl (congrArg locationOf (walk_mono hleft hfew).symm)

/-- A path into a directory leads to an entry that is no link. -/
theorem locate_below_of_entry (hproper : fs.IsProper) {p : Path} {d : Location} {name : String}
    {e : Entry} (hp : fs.locate p = .ok d) (he : fs.entry? (d ++ [name]) = some e)
    (hnolink : e.isNoLink = true) :
    fs.locate ⟨p.slashes, p.parts ++ [name]⟩ = .ok (d ++ [name]) := by
  have hname : isName name = true := hproper.isName_of_mem he (by simp)
  obtain ⟨left, -, hlocate⟩ := locate_concat hp hname
  have hwalk := walk_location hproper he hnolink left []
  rw [List.append_nil] at hwalk
  rw [hlocate, hwalk, walk_eq]
  rfl

/-! ### Where entries lead -/

/-- The entry of a name in a directory leads to a location: the entry itself lies there, or it is a
link and its target does. -/
def Leads (fs : FileSystem) (d : Location) (name : String) (l : Location) : Prop :=
  (∃ e, fs.entry? (d ++ [name]) = some e) ∧ fs.locate (pathOf (d ++ [name])) = .ok l

/-- A path by way of an entry leads where the entry leads, or over too many links. -/
theorem locate_of_leads (hproper : fs.IsProper) {p : Path} {d l : Location} {name : String}
    (hp : fs.locate p = .ok d) (h : fs.Leads d name l) :
    fs.locate ⟨p.slashes, p.parts ++ [name]⟩ = .ok l ∨
      fs.locate ⟨p.slashes, p.parts ++ [name]⟩ = .error .tooManyLinks := by
  obtain ⟨⟨e, he⟩, hlocate⟩ := h
  obtain ⟨cs, hd, -⟩ := exists_directory_of_entry?_concat he
  have hname : isName name = true := hproper.isName_of_mem he (by simp)
  rw [← hlocate]
  exact locate_below hproper hp hd hname

end FileSystem

end CodeAtlas
