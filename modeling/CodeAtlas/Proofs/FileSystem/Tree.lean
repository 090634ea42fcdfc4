import CodeAtlas.FileSystem.Basic
import Mathlib.Data.List.Induction
import Mathlib.Data.List.Perm.Subperm

/-!
# Trees of entries

Properties that hold of everything in a tree (`Entry.all`), the entries at locations, and the
locations of directories: there are as many as the tree has directories
(`FileSystem.length_le_directoryCount`).  In a proper file system (`FileSystem.IsProper`) every
directory has different names, and none that has a meaning of its own.
-/

namespace CodeAtlas

namespace Entry

/-- An entry is no link. -/
def isNoLink : Entry → Bool
  | link _ => false
  | _ => true

/-! ### Properties of a whole tree -/

mutual
/-- A property holds of an entry and of everything below it. -/
def all (p : Entry → Bool) : Entry → Bool
  | directory cs => p (directory cs) && allAmong p cs
  | e => p e

/-- A property holds of all entries of a list and of everything below them. -/
def allAmong (p : Entry → Bool) : List (String × Entry) → Bool
  | [] => true
  | (_, e) :: rest => all p e && allAmong p rest
end

variable {p : Entry → Bool}

theorem all_self {e : Entry} (h : e.all p = true) : p e = true := by
  cases e with
  | directory cs =>
    rw [all, Bool.and_eq_true] at h
    exact h.1
  | file content => exact h
  | link target => exact h
  | special => exact h

theorem all_of_mem {cs : List (String × Entry)} (h : allAmong p cs = true) {child : String × Entry}
    (hchild : child ∈ cs) : child.2.all p = true := by
  induction cs with
  | nil => cases hchild
  | cons first rest ih =>
    obtain ⟨name, e⟩ := first
    rw [allAmong, Bool.and_eq_true] at h
    rcases List.mem_cons.mp hchild with rfl | hchild
    · exact h.1
    · exact ih h.2 hchild

theorem mem_of_find? {name : String} {e : Entry} {cs : List (String × Entry)}
    (h : find? name cs = some e) : (name, e) ∈ cs := by
  unfold find? at h
  obtain ⟨child, hchild, rfl⟩ := Option.map_eq_some_iff.mp h
  obtain rfl : child.1 = name := by simpa using List.find?_some hchild
  exact List.mem_of_find?_eq_some hchild

/-- A directory has one entry of each name if its names are different. -/
theorem find?_of_mem {name : String} {e : Entry} {cs : List (String × Entry)}
    (hnodup : (cs.map (·.1)).Nodup) (h : (name, e) ∈ cs) : find? name cs = some e := by
  induction cs with
  | nil => cases h
  | cons first rest ih =>
    rw [List.map_cons, List.nodup_cons] at hnodup
    rcases List.mem_cons.mp h with rfl | h
    · simp [find?]
    · have hne : first.1 ≠ name := by
        rintro rfl
        exact hnodup.1 (List.mem_map_of_mem (f := (·.1)) h)
      have hrest := ih hnodup.2 h
      unfold find? at hrest ⊢
      rw [List.find?_cons_of_neg (by simpa using hne), hrest]

/-! ### Entries at locations -/

theorem at?_cons (name : String) (rest : Location) (e : Entry) :
    at? (name :: rest) e = (find? name e.children).bind (at? rest) := rfl

/-- What has children is a directory. -/
theorem exists_eq_directory {e child : Entry} {name : String}
    (h : find? name e.children = some child) : ∃ cs, e = directory cs := by
  cases e with
  | directory cs => exact ⟨cs, rfl⟩
  | file content => cases h
  | link target => cases h
  | special => cases h

theorem at?_append (l m : Location) (e : Entry) : at? (l ++ m) e = (at? l e).bind (at? m) := by
  induction l generalizing e with
  | nil => rfl
  | cons name rest ih =>
    rw [List.cons_append, at?_cons, at?_cons]
    cases find? name e.children with
    | none => rfl
    | some child => exact ih child

theorem all_of_at? {l : Location} {e found : Entry} (h : e.all p = true)
    (hfound : at? l e = some found) : found.all p = true := by
  induction l generalizing e with
  | nil =>
    obtain rfl : e = found := Option.some.inj hfound
    exact h
  | cons name rest ih =>
    rw [at?_cons, Option.bind_eq_some_iff] at hfound
    obtain ⟨child, hchild, hrest⟩ := hfound
    obtain ⟨cs, rfl⟩ := exists_eq_directory hchild
    rw [all, Bool.and_eq_true] at h
    exact ih (all_of_mem h.2 (mem_of_find? hchild)) hrest

/-! ### Directories -/

theorem directoryCount_le_of_mem {cs : List (String × Entry)} {child : String × Entry}
    (h : child ∈ cs) : child.2.directoryCount ≤ directoryCountAmong cs := by
  induction cs with
  | nil => cases h
  | cons first rest ih =>
    rw [directoryCountAmong]
    rcases List.mem_cons.mp h with rfl | h
    · exact Nat.le_add_right _ _
    · exact Nat.le_add_left_of_le (ih h)

theorem directoryCount_le_of_at? {l : Location} {e found : Entry} (h : at? l e = some found) :
    found.directoryCount ≤ e.directoryCount := by
  induction l generalizing e with
  | nil =>
    obtain rfl : e = found := Option.some.inj h
    exact Nat.le_refl _
  | cons name rest ih =>
    rw [at?_cons, Option.bind_eq_some_iff] at h
    obtain ⟨child, hchild, hrest⟩ := h
    obtain ⟨cs, rfl⟩ := exists_eq_directory hchild
    have hle := directoryCount_le_of_mem (mem_of_find? hchild)
    rw [directoryCount]
    exact Nat.le_succ_of_le (Nat.le_trans (ih hrest) hle)

mutual
/-- The locations of the directories in a tree. -/
def directoryLocations : Entry → List Location
  | directory cs => [] :: directoryLocationsAmong cs
  | _ => []

/-- The locations of the directories in a list of trees. -/
def directoryLocationsAmong : List (String × Entry) → List Location
  | [] => []
  | (name, e) :: rest => (directoryLocations e).map (name :: ·) ++ directoryLocationsAmong rest
end

mutual
theorem length_directoryLocations : ∀ e : Entry, e.directoryLocations.length = e.directoryCount
  | file _ => rfl
  | link _ => rfl
  | special => rfl
  | directory cs => by
    rw [directoryLocations, directoryCount, List.length_cons, length_directoryLocationsAmong cs]

theorem length_directoryLocationsAmong :
    ∀ cs : List (String × Entry), (directoryLocationsAmong cs).length = directoryCountAmong cs
  | [] => rfl
  | (_, e) :: rest => by
    rw [directoryLocationsAmong, directoryCountAmong, List.length_append, List.length_map,
      length_directoryLocations e, length_directoryLocationsAmong rest]
end

end Entry

namespace FileSystem

/-- There is a directory at a location. -/
def HasDirectory (fs : FileSystem) (l : Location) : Prop :=
  ∃ children, fs.entry? l = some (.directory children)

/-- A name that an entry of a directory may have. -/
def isName (name : String) : Bool :=
  name != "" && name != "." && name != ".." && !name.toList.contains '/' &&
    !name.toList.contains '\x00' && name.utf8ByteSize ≤ maxNameBytes

/-- The names in a directory are proper and different. -/
def hasProperNames : Entry → Bool
  | .directory cs => decide (cs.map (·.1)).Nodup && cs.all fun child => isName child.1
  | _ => true

/-- The names in every directory are proper and different. -/
def IsProper (fs : FileSystem) : Prop := fs.root.all hasProperNames = true

instance (fs : FileSystem) : Decidable fs.IsProper :=
  inferInstanceAs (Decidable (fs.root.all hasProperNames = true))

variable {fs : FileSystem}

theorem IsProper.names (h : fs.IsProper) {l : Location} {cs : List (String × Entry)}
    (hl : fs.entry? l = some (.directory cs)) :
    (cs.map (·.1)).Nodup ∧ ∀ child ∈ cs, isName child.1 = true := by
  have hself := Entry.all_self (Entry.all_of_at? h hl)
  rw [hasProperNames, Bool.and_eq_true, decide_eq_true_eq, List.all_eq_true] at hself
  exact hself

theorem entry?_append (l m : Location) :
    fs.entry? (l ++ m) = (fs.entry? l).bind (Entry.at? m) :=
  Entry.at?_append l m fs.root

/-- What has an entry of some name is a directory. -/
theorem exists_directory_of_entry?_concat {l : Location} {name : String} {e : Entry}
    (h : fs.entry? (l ++ [name]) = some e) :
    ∃ cs, fs.entry? l = some (.directory cs) ∧ Entry.find? name cs = some e := by
  rw [entry?_append, Option.bind_eq_some_iff] at h
  obtain ⟨found, hfound, hname⟩ := h
  rw [Entry.at?_cons, Option.bind_eq_some_iff] at hname
  obtain ⟨child, hchild, hself⟩ := hname
  obtain rfl : child = e := Option.some.inj hself
  obtain ⟨cs, rfl⟩ := Entry.exists_eq_directory hchild
  exact ⟨cs, hfound, hchild⟩

theorem entry?_concat {l : Location} {cs : List (String × Entry)}
    (h : fs.entry? l = some (.directory cs)) (name : String) :
    fs.entry? (l ++ [name]) = Entry.find? name cs := by
  rw [entry?_append, h, Option.bind_some, Entry.at?_cons, Entry.children]
  cases Entry.find? name cs <;> rfl

theorem IsProper.isName_of_mem (h : fs.IsProper) {l : Location} {e : Entry}
    (hl : fs.entry? l = some e) {name : String} (hname : name ∈ l) : isName name = true := by
  induction l using List.reverseRecOn generalizing e with
  | nil => cases hname
  | append_singleton rest last ih =>
    obtain ⟨cs, hrest, hlast⟩ := exists_directory_of_entry?_concat hl
    rcases List.mem_append.mp hname with hname | hname
    · exact ih hrest hname
    · obtain rfl := List.mem_singleton.mp hname
      exact (h.names hrest).2 _ (Entry.mem_of_find? hlast)

end FileSystem

end CodeAtlas
