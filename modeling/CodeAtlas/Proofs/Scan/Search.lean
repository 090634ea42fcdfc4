import CodeAtlas.Proofs.FileSystem.Following
import CodeAtlas.Proofs.Scan.Patterns
import CodeAtlas.Proofs.SortedTexts

/-!
# Searching one directory

What `Scan.search` does with a directory, in terms of where its path leads: nothing if it leads to a
directory that was searched before, and otherwise one entry after the other, in the order of their
names, unless the directory cannot be listed.  What an entry turns out to be is what lies at the end
of its path (`exists_of_target_eq_some`), if it can be examined (`lookUp_of_target_eq_error`).
-/

namespace CodeAtlas

namespace FileSystem

variable {fs : FileSystem}

/-- The children of a directory in the order of their names. -/
def inOrder (children : List (String × Entry)) : List (String × Entry) :=
  children.mergeSort fun a b => a.1 ≤ b.1

theorem mem_inOrder {children : List (String × Entry)} {child : String × Entry} :
    child ∈ inOrder children ↔ child ∈ children :=
  List.mem_mergeSort

theorem pairwise_lt_inOrder {children : List (String × Entry)}
    (hnodup : (children.map (·.1)).Nodup) : (inOrder children).Pairwise fun a b => a.1 < b.1 :=
  pairwise_key_lt_mergeSort (fun _ _ => decide_eq_true_iff) hnodup

theorem list_of_locate {p : Path} {d : Location} {children : List (String × Entry)}
    (hp : fs.locate p = .ok d) (hd : fs.entry? d = some (.directory children)) :
    fs.list p = .ok (inOrder children) := by
  rw [list, lookUp, hp]
  simp only [hd, inOrder]

theorem exists_of_lookUp_eq_ok {p : Path} {e : Entry} (h : fs.lookUp p = .ok e) :
    ∃ l, fs.locate p = .ok l ∧ fs.entry? l = some e := by
  unfold lookUp at h
  split at h
  · rename_i l hlocate
    split at h
    · rename_i he
      exact ⟨l, hlocate, he.trans (congrArg some (Except.ok.inj h))⟩
    · cases h
  · cases h

end FileSystem

namespace Scan

variable {fs : FileSystem} {refusals : Refusals} {settings : ScanSettings} {root : Path}
  {enter : List String → Scan → Scan} {below : List String} {s : Scan}

@[simp]
theorem pathBelow_nil (root : Path) : pathBelow root [] = root := by
  rw [pathBelow, List.append_nil]

theorem pathBelow_concat (root : Path) (below : List String) (name : String) :
    pathBelow root (below ++ [name])
      = ⟨(pathBelow root below).slashes, (pathBelow root below).parts ++ [name]⟩ := by
  rw [pathBelow, pathBelow, List.append_assoc]

/-- The directory at a location counts as searched. -/
def reach (s : Scan) (d : Location) : Scan := { s with visited := d :: s.visited }

/-- A directory that was searched before is left alone. -/
theorem search_of_visited {d : Location} (hlocate : fs.locate (pathBelow root below) = .ok d)
    (hvisited : d ∈ s.visited) : search fs refusals settings root enter below s = s := by
  have hcontains : s.visited.contains d = true := List.contains_iff_mem.mpr hvisited
  rw [search, hlocate]
  simp only [hcontains, if_true]

/-- A directory that was not searched before is searched entry by entry. -/
theorem search_of_listed {d : Location} {children : List (String × Entry)}
    (hlocate : fs.locate (pathBelow root below) = .ok d) (hnew : d ∉ s.visited)
    (hlist : refusals.list fs (pathBelow root below) = .ok children) :
    search fs refusals settings root enter below s
      = children.foldl (visitEntry fs refusals settings root enter below) (s.reach d) := by
  have hcontains : s.visited.contains d = false := by
    simpa using hnew
  rw [search, hlocate]
  simp only [hcontains, hlist, Bool.false_eq_true, if_false]
  rfl

/-- A directory that cannot be listed counts as searched all the same. -/
theorem search_of_unlisted {d : Location} {err : FileError}
    (hlocate : fs.locate (pathBelow root below) = .ok d) (hnew : d ∉ s.visited)
    (hlist : refusals.list fs (pathBelow root below) = .error err) :
    search fs refusals settings root enter below s
      = (s.reach d).warn (.unlisted (pathBelow root below) err) := by
  have hcontains : s.visited.contains d = false := by
    simpa using hnew
  rw [search, hlocate]
  simp only [hcontains, hlist, Bool.false_eq_true, if_false]
  rfl

/-- What can be listed is a directory, and its children are listed in order. -/
theorem exists_directory_of_list_eq_ok {p : Path} {d : Location}
    {children : List (String × Entry)} (hp : fs.locate p = .ok d)
    (h : refusals.list fs p = .ok children) :
    ∃ cs, fs.entry? d = some (.directory cs) ∧ children = FileSystem.inOrder cs := by
  unfold Refusals.list at h
  split at h
  · cases h
  · unfold FileSystem.list at h
    split at h
    · rename_i cs hlookUp
      obtain ⟨l, hl, hcs⟩ := FileSystem.exists_of_lookUp_eq_ok hlookUp
      obtain rfl : d = l := Except.ok.inj (hp.symm.trans hl)
      exact ⟨cs, hcs, (Except.ok.inj h).symm⟩
    · cases h
    · cases h

/-- A directory that nobody refuses to list can be listed. -/
theorem list_eq_ok {p : Path} {d : Location} {cs : List (String × Entry)}
    (hp : fs.locate p = .ok d) (hd : fs.entry? d = some (.directory cs))
    (hlisting : refusals.listing p = none) :
    refusals.list fs p = .ok (FileSystem.inOrder cs) := by
  rw [Refusals.list, hlisting, FileSystem.list_of_locate hp hd]

/-! ### What an entry turns out to be -/

theorem target_of_isNoLink {p : Path} {e : Entry} (h : e.isNoLink = true) :
    target fs refusals p e = .ok (some e) := by
  cases e with
  | link t => cases h
  | file content => rfl
  | directory cs => rfl
  | special => rfl

/-- An entry that is found lies at the end of the path. -/
theorem exists_of_target_eq_some (hproper : fs.IsProper) {d : Location} {name : String}
    {e found : Entry} (hlocate : fs.locate (pathBelow root below) = .ok d)
    (he : fs.entry? (d ++ [name]) = some e)
    (h : target fs refusals (pathBelow root (below ++ [name])) e = .ok (some found)) :
    ∃ l, fs.locate (pathBelow root (below ++ [name])) = .ok l ∧ fs.entry? l = some found := by
  by_cases hnolink : e.isNoLink = true
  · rw [target_of_isNoLink hnolink] at h
    obtain rfl : e = found := Option.some.inj (Except.ok.inj h)
    refine ⟨d ++ [name], ?_, he⟩
    rw [pathBelow_concat]
    exact FileSystem.locate_below_of_entry hproper hlocate he hnolink
  · cases e with
    | link t =>
      rw [target] at h
      split at h
      · rename_i e hlookUp
        obtain rfl : e = found := Option.some.inj (Except.ok.inj h)
        unfold Refusals.lookUp at hlookUp
        split at hlookUp
        · cases hlookUp
        · exact FileSystem.exists_of_lookUp_eq_ok hlookUp
      · cases h
      · cases h
    | file content => exact absurd rfl hnolink
    | directory cs => exact absurd rfl hnolink
    | special => exact absurd rfl hnolink

/-- An entry that is not found is a link that leads nowhere. -/
theorem lookUp_of_target_eq_none {p : Path} {e : Entry}
    (h : target fs refusals p e = .ok none) : fs.lookUp p = .error .notFound := by
  unfold target at h
  split at h
  · split at h
    · cases h
    · rename_i hlookUp
      unfold Refusals.lookUp at hlookUp
      split at hlookUp
      · rename_i err hrefused
        obtain rfl := Except.error.inj hlookUp
        exact absurd hrefused (refusals.examining_ne_notFound p)
      · exact hlookUp
    · cases h
  · cases h

/-- An entry that cannot be told is a link that cannot be examined. -/
theorem lookUp_of_target_eq_error {p : Path} {e : Entry} {err : FileError}
    (h : target fs refusals p e = .error err) : refusals.lookUp fs p = .error err := by
  unfold target at h
  split at h
  · split at h
    · cases h
    · cases h
    · rename_i hlookUp
      rw [hlookUp, Except.error.inj h]
  · cases h

/-- A file is refused, or it is added if it is looked for, or nothing happens if it is not. -/
theorem addFile_cases (refusals : Refusals) (settings : ScanSettings) (p : Path) (name : String)
    (size : Nat) (s : Scan) :
    (∃ err, refusals.examining p = some err ∧
      s.addFile refusals settings p name size = s.warn (.unexamined p err)) ∨
    (settings.accepts name size = true ∧
      s.addFile refusals settings p name size = { s with files := s.files ++ [p] }) ∨
    (settings.accepts name size = false ∧ s.addFile refusals settings p name size = s) := by
  unfold addFile
  cases hadmits : settings.admits name with
  | false => exact Or.inr (Or.inr ⟨by simp [ScanSettings.accepts, hadmits], rfl⟩)
  | true =>
    cases hexamining : refusals.examining p with
    | some err => exact Or.inl ⟨err, rfl, by simp⟩
    | none =>
      cases haccepts : settings.accepts name size with
      | false => exact Or.inr (Or.inr ⟨rfl, by simp⟩)
      | true => exact Or.inr (Or.inl ⟨rfl, by simp⟩)

end Scan

end CodeAtlas
