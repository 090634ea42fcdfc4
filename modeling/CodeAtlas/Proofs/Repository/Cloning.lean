import CodeAtlas.Proofs.FileSystem.Removal
import CodeAtlas.Repository.Checkout

/-!
# Cloning into a new directory

A fetch makes sure of the directory for checkouts, makes a new directory in it and clones into that.
If it fails before, nothing is removed; if cloning fails, it depends on the failure what becomes of
the new directory (`fetch_cases`).  A failure that makes the repository unavailable is reported as
one of the fetch, and the directory is removed again, with all that was written into it.  Any other
failure is passed on as it is, and the directory stays (`fetch_of_failed_clone`).
-/

namespace CodeAtlas

namespace GitFetcher

open FileSystem

variable {g : GitFetcher} {fs ready made : FileSystem} {identifier ending : String}
  {target systemRoot : Path} {result : CloneResult} {l : Location}

theorem keeps_prepare (g : GitFetcher) (fs : FileSystem) : Keeps fs (g.prepare fs).2 := by
  unfold prepare
  split
  · exact .refl fs
  · split
    · rename_i made hmade
      exact keeps_ensureFrom hmade
    · exact keeps_makeFrom fs _ _

theorem exists_file_of_prepare {e : Failure} (h : g.prepare fs = (some e, ready)) :
    ∃ error path, e = .file error path := by
  unfold prepare at h
  split at h
  · cases h
  · split at h
    · cases h
    · exact ⟨_, _, (Option.some.inj (congrArg Prod.fst h)).symm⟩

/-! ### The new directory -/

theorem makeDirectory_eq_ok {p : Path} :
    fs.makeDirectory p = .ok made ↔
      ∃ l, fs.place true p = .ok (.missing l) ∧ made = fs.setAt .emptyDirectory l := by
  unfold makeDirectory
  cases fs.place true p with
  | error e => simp
  | ok place =>
    cases place with
    | found l => simp
    | missing l => simp [eq_comm]

section Made

variable (hplace : ready.place true target = .ok (.missing l))

include hplace

theorem hasDirectory_setAt (files : List (String × Entry)) :
    (ready.setAt (.directory files) l).HasDirectory l :=
  ⟨files, entry?_setAt (isFree_of_place hplace)⟩

/-- A path leads to the directory that is made at it, whether or not a link at its end would be
followed. -/
theorem place_setAt (files : List (String × Entry)) :
    FileSystem.place (ready.setAt (.directory files) l) true target = .ok (.found l) ∧
      FileSystem.place (ready.setAt (.directory files) l) false target = .ok (.found l) := by
  have hkeeps := keeps_setAt (isFree_of_place hplace) (.directory files)
  have hdir := hasDirectory_setAt hplace files
  exact ⟨hkeeps.place_missing hplace hdir,
    hkeeps.place_missing (FileSystem.place_missing hplace) hdir⟩

theorem lookUp_setAt (files : List (String × Entry)) :
    FileSystem.lookUp (ready.setAt (.directory files) l) target = .ok (.directory files) :=
  lookUp_eq_ok.mpr
    ⟨l, (place_setAt hplace files).2, entry?_setAt (isFree_of_place hplace)⟩

theorem fillDirectory_setAt (files : List (String × Entry)) :
    FileSystem.fillDirectory (ready.setAt .emptyDirectory l) target files
      = ready.setAt (.directory files) l := by
  have hfree := isFree_of_place hplace
  have hlocate : FileSystem.locate (ready.setAt .emptyDirectory l) target = .ok l := by
    unfold locate
    rw [Entry.emptyDirectory, (place_setAt hplace []).2]
  have hentry : FileSystem.entry? (ready.setAt .emptyDirectory l) l = some .emptyDirectory :=
    entry?_setAt hfree
  rw [Entry.emptyDirectory] at hlocate hentry
  rw [Entry.emptyDirectory, fillDirectory, hlocate]
  dsimp only
  rw [hentry]
  exact setAt_setAt _ _ l

/-- A directory that is made and given back leaves no trace. -/
theorem release_setAt (files : List (String × Entry)) :
    release target (ready.setAt (.directory files) l) = ready := by
  unfold release
  rw [lookUp_setAt hplace files]
  dsimp only
  rw [removeDirectory_eq (place_setAt hplace files).1 (hasDirectory_setAt hplace files)]
  exact without_setAt (isFree_of_place hplace) _

/-- What cloning into a new directory comes to. -/
theorem cloneInto_setAt (g : GitFetcher) (identifier : String) (result : CloneResult) :
    g.cloneInto identifier target result (ready.setAt .emptyDirectory l) =
      match result.failure? with
      | none => (.ok target, ready.setAt (.directory result.files) l)
      | some cause =>
        if isUnavailability cause then
          (.error (.fetch identifier (g.redact (Text.strip cause.message)) (some cause)), ready)
        else (.error cause, ready.setAt (.directory result.files) l) := by
  unfold cloneInto
  rw [fillDirectory_setAt hplace]
  cases result.failure? with
  | none => rfl
  | some cause =>
    dsimp only
    unfold afterFailure
    split_ifs
    · rw [release_setAt hplace]
    · rfl

end Made

/-! ### Fetching -/

theorem fetch_of_made (hready : g.prepare fs = (none, ready))
    (hplace : ready.place true (g.target identifier ending systemRoot) = .ok (.missing l)) :
    g.fetch identifier ending result fs systemRoot =
      let found := g.cloneInto identifier (g.target identifier ending systemRoot) result
        (ready.setAt .emptyDirectory l)
      (found.1, found.2, result.calls (.clone (g.cloneUrl identifier) g.depth?)) := by
  have hmade := makeDirectory_eq_ok.mpr ⟨l, hplace, rfl⟩
  simp only [fetch, hready, hmade]

/-- The ways in which a fetch ends: it fails before there is a new directory, or the repository is
cloned into one, or that fails, and then the directory is removed or stays. -/
theorem fetch_cases (g : GitFetcher) (identifier ending : String) (result : CloneResult)
    (fs : FileSystem) (systemRoot : Path) :
    (∃ e path fs', g.fetch identifier ending result fs systemRoot = (.error (.file e path), fs', [])
      ∧ Keeps fs fs') ∨
    ∃ ready l, Keeps fs ready ∧
      ready.place true (g.target identifier ending systemRoot) = .ok (.missing l) ∧
      g.fetch identifier ending result fs systemRoot =
        let found := g.cloneInto identifier (g.target identifier ending systemRoot) result
          (ready.setAt .emptyDirectory l)
        (found.1, found.2, result.calls (.clone (g.cloneUrl identifier) g.depth?)) := by
  have hkeeps := keeps_prepare g fs
  cases hready : g.prepare fs with
  | mk failure? ready =>
    rw [hready] at hkeeps
    cases failure? with
    | some e =>
      obtain ⟨error, path, rfl⟩ := exists_file_of_prepare hready
      refine Or.inl ⟨error, path, ready, ?_, hkeeps⟩
      simp only [fetch, hready]
    | none =>
      cases hmake : ready.makeDirectory (g.target identifier ending systemRoot) with
      | error e =>
        refine Or.inl ⟨e, (g.target identifier ending systemRoot).toText, ready, ?_, hkeeps⟩
        simp only [fetch, hready, hmake]
      | ok made =>
        obtain ⟨l, hplace, -⟩ := makeDirectory_eq_ok.mp hmake
        exact Or.inr ⟨ready, l, hkeeps, hplace, fetch_of_made hready hplace⟩

end GitFetcher

end CodeAtlas
