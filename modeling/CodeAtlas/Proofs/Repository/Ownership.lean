import CodeAtlas.Proofs.Path.Components
import CodeAtlas.Proofs.Repository.Cloning
import CodeAtlas.Proofs.Scan.Patterns
import Mathlib.Data.List.TakeWhile

/-!
# Which directories are removed

A fetcher that serves local directories and clones remote repositories remembers the checkouts that
it has cloned and not been given back (`mem_owned_iff`).  Each of them is a directory of its own
name in the directory for checkouts, which was free before (`Houses`), so that removing one of them
takes nothing from another, nor from anything that was there before them (`Sound`).

`release_removes_owned` is the main result: whatever was fetched and given back before, a directory
that is given back is removed if it is such a checkout and left alone otherwise, and nothing else
is ever removed.
-/

namespace CodeAtlas

namespace Repository

/-! ### Names of remote repositories -/

theorem slash_not_mem_basename (p : String) : '/' ∉ (PathText.basename p).toList := by
  unfold PathText.basename PathText.splitLast
  dsimp only
  rw [String.toList_ofList, List.mem_reverse]
  intro h
  have hne := List.mem_takeWhile_imp h
  exact absurd rfl (of_decide_eq_true hne)

/-- A text with something other than slashes in it has something behind its last slash, slashes at
its end aside. -/
theorem basename_dropTrailing_ne_empty {p : String} {c : Char} (hc : c ∈ p.toList) (hne : c ≠ '/') :
    PathText.basename (Text.dropTrailing '/' p) ≠ "" := by
  intro hempty
  have hlist := congrArg String.toList hempty
  unfold PathText.basename PathText.splitLast Text.dropTrailing at hlist
  dsimp only at hlist
  rw [String.toList_ofList, String.toList_ofList, List.reverse_reverse] at hlist
  have hhead := List.head?_dropWhile_not (· = '/') p.toList.reverse
  cases hkept : p.toList.reverse.dropWhile (· = '/') with
  | nil =>
    have hall := List.dropWhile_eq_nil_iff.mp hkept c (List.mem_reverse.mpr hc)
    exact hne (of_decide_eq_true hall)
  | cons d rest =>
    rw [hkept] at hlist hhead
    have hd : d ≠ '/' := of_decide_eq_false (by simpa using hhead)
    rw [List.takeWhile_cons_of_pos (by simpa using hd)] at hlist
    simp at hlist

theorem mem_of_dropEnd? {tail cs kept : List Char} (h : dropEnd? tail cs = some kept) {c : Char}
    (hc : c ∈ kept) : c ∈ cs := by
  unfold dropEnd? at h
  split_ifs at h
  obtain rfl := Option.some.inj h
  exact List.mem_of_mem_take hc

/-- The name of a remote repository is a single name. -/
theorem slash_not_mem_nameOf {identifier : String} (h : isRemote identifier = true) :
    '/' ∉ (nameOf identifier).toList := by
  have hother : ∃ c ∈ identifier.toList, c ≠ '/' := by
    rw [isRemote, Bool.or_eq_true] at h
    rcases h with h | h
    · have hinfix := Text.occursInChars_iff.mp h
      exact ⟨':', hinfix.subset (by decide), by decide⟩
    · have hprefix := List.isPrefixOf_iff_prefix.mp h
      exact ⟨'g', hprefix.subset (by decide), by decide⟩
  obtain ⟨c, hc, hne⟩ := hother
  have hname := basename_dropTrailing_ne_empty hc hne
  have hslash := slash_not_mem_basename (Text.dropTrailing '/' identifier)
  unfold nameOf
  dsimp only
  rw [if_neg (by simpa using hname), String.toList_ofList]
  intro hmem
  apply hslash
  cases hfirst : dropEnd? ".git".toList
      (PathText.basename (Text.dropTrailing '/' identifier)).toList with
  | some kept =>
    rw [hfirst] at hmem
    exact mem_of_dropEnd? hfirst hmem
  | none =>
    rw [hfirst, Option.none_or] at hmem
    cases hsecond : dropEnd? ".git\n".toList
        (PathText.basename (Text.dropTrailing '/' identifier)).toList with
    | some kept =>
      rw [hsecond] at hmem
      exact mem_of_dropEnd? hsecond hmem
    | none =>
      rw [hsecond] at hmem
      exact hmem

end Repository

namespace GitFetcher

/-- The name of the new directory for a repository. -/
def checkoutName (identifier ending : String) : String :=
  "navvi-" ++ Repository.nameOf identifier ++ "-" ++ ending

/-- The checkouts of remote repositories have names of their own in the directory for checkouts. -/
theorem target_eq (g : GitFetcher) (systemRoot : Path) {identifier ending : String}
    (hremote : Repository.isRemote identifier = true) (hending : '/' ∉ ending.toList) :
    g.target identifier ending systemRoot
      = ⟨(g.parent systemRoot).slashes,
        (g.parent systemRoot).parts ++ [checkoutName identifier ending]⟩ := by
  have hchars : (checkoutName identifier ending).toList = "navvi-".toList
      ++ (Repository.nameOf identifier).toList ++ "-".toList ++ ending.toList := by
    simp [checkoutName]
  have hslash : '/' ∉ (checkoutName identifier ending).toList := by
    rw [hchars]
    simp [Repository.slash_not_mem_nameOf hremote, hending]
  have hfirst : ∃ rest, (checkoutName identifier ending).toList = 'n' :: 'a' :: rest := by
    rw [hchars]
    exact ⟨_, rfl⟩
  obtain ⟨rest, hrest⟩ := hfirst
  have hslashes : PathText.leadingSlashes (checkoutName identifier ending) = 0 := by
    unfold PathText.leadingSlashes
    rw [hrest]
    rfl
  have hcomponents : PathText.components (checkoutName identifier ending)
      = [checkoutName identifier ending] := by
    rw [PathText.components, PathText.splitOn_of_not_mem hslash, List.map_singleton,
      String.ofList_toList]
  have hne : ∀ s : String, s.toList.length < 2 → checkoutName identifier ending ≠ s := by
    rintro s hs rfl
    rw [hrest, List.length_cons, List.length_cons] at hs
    omega
  have hpath : Path.ofText (checkoutName identifier ending)
      = ⟨0, [checkoutName identifier ending]⟩ := by
    rw [Path.ofText, hslashes, hcomponents]
    simp [hne "" (by decide), hne "." (by decide)]
  unfold target
  rw [← checkoutName, hpath]
  rfl

end GitFetcher

namespace Checkouts

open FileSystem

/-! ### Calls -/

/-- A call of a fetcher; `ending` and `result` are what the name of a new checkout ends with and
what becomes of the attempt to clone, where there is one. -/
inductive Call where
  | fetch (identifier ending : String) (result : CloneResult)
  | release (p : Path)

/-- What a new checkout would be called ends in the same name as it begins. -/
def Call.IsPlain : Call → Prop
  | fetch _ ending _ => '/' ∉ ending.toList
  | release _ => True

/-- What a call came to. -/
inductive Event where
  /-- A remote repository was cloned. -/
  | cloned (p : Path)
  /-- A local directory was found. -/
  | found (p : Path)
  /-- A fetch failed. -/
  | failed (cause : Failure)
  /-- A directory was given back. -/
  | released (p : Path)

/-- What the checkouts are after some calls, and what the calls came to. -/
structure History where
  checkouts : Checkouts
  events : List Event

/-- What a fetch came to. -/
def eventOf (identifier : String) : Except Failure Path → Event
  | .ok p => if Repository.isRemote identifier then .cloned p else .found p
  | .error cause => .failed cause

/-- One call more. -/
def History.next (git : GitFetcher) (home systemRoot : Path) (h : History) : Call → History
  | .fetch identifier ending result =>
    let outcome := (Fetcher.either git).fetch home identifier ending result h.checkouts systemRoot
    ⟨outcome.2.1, h.events ++ [eventOf identifier outcome.1]⟩
  | .release p => ⟨(Fetcher.either git).release p h.checkouts, h.events ++ [.released p]⟩

/-- What calls lead to when nothing has been cloned before. -/
def afterCalls (git : GitFetcher) (home systemRoot : Path) (fs : FileSystem) (calls : List Call) :
    History :=
  calls.foldl (History.next git home systemRoot) ⟨⟨fs, []⟩, []⟩

/-- The path is that of a checkout that was cloned and has not been given back since. -/
def IsOut (p : Path) (events : List Event) : Prop :=
  ∃ before after, events = before ++ .cloned p :: after ∧ .released p ∉ after

variable {git : GitFetcher} {home systemRoot p : Path} {fs fs' core : FileSystem}
  {identifier ending : String} {result : CloneResult} {c : Checkouts}

theorem isOut_concat (p : Path) (events : List Event) (e : Event) :
    IsOut p (events ++ [e]) ↔ e = .cloned p ∨ (e ≠ .released p ∧ IsOut p events) := by
  constructor
  · rintro ⟨before, after, heq, hnone⟩
    rcases List.eq_nil_or_concat after with rfl | ⟨init, last, rfl⟩
    · obtain ⟨-, hlast⟩ := List.append_inj' heq rfl
      exact Or.inl (List.singleton_inj.mp hlast)
    · rw [List.concat_eq_append] at heq hnone
      have hsplit : events ++ [e] = (before ++ .cloned p :: init) ++ [last] := by simpa using heq
      obtain ⟨rfl, hlast⟩ := List.append_inj' hsplit rfl
      obtain rfl := List.singleton_inj.mp hlast
      refine Or.inr ⟨fun h => hnone (by simp [h]), before, init, rfl, fun h => hnone (by simp [h])⟩
  · rintro (rfl | ⟨hne, before, after, rfl, hnone⟩)
    · exact ⟨events, [], rfl, by simp⟩
    · refine ⟨before, after ++ [e], by simp, fun h => ?_⟩
      rcases List.mem_append.mp h with h | h
      · exact hnone h
      · exact hne (List.mem_singleton.mp h).symm

/-! ### What one call does -/

/-- A local directory is found where it is, and a remote repository is cloned and remembered. -/
theorem fetch_either (git : GitFetcher) (home : Path) (identifier ending : String)
    (result : CloneResult) (c : Checkouts) (systemRoot : Path) :
    let outcome := (Fetcher.either git).fetch home identifier ending result c systemRoot
    if Repository.isRemote identifier then
      let found := git.fetch identifier ending result c.fileSystem systemRoot
      outcome.1 = found.1 ∧ outcome.2.1.fileSystem = found.2.1 ∧
        outcome.2.1.owned = (match found.1 with | .ok p => p :: c.owned | .error _ => c.owned)
    else outcome.2.1 = c := by
  intro outcome
  have houtcome : outcome = (Fetcher.either git).fetch home identifier ending result c systemRoot :=
    rfl
  unfold Fetcher.fetch at houtcome
  dsimp only at houtcome
  split_ifs with hremote
  · rw [if_pos hremote] at houtcome
    intro found
    cases hfound : found.1 with
    | ok p =>
      have hfound' : (git.fetch identifier ending result c.fileSystem systemRoot).1 = .ok p :=
        hfound
      rw [hfound'] at houtcome
      rw [houtcome]
      exact ⟨rfl, rfl, rfl⟩
    | error e =>
      have hfound' : (git.fetch identifier ending result c.fileSystem systemRoot).1 = .error e :=
        hfound
      rw [hfound'] at houtcome
      rw [houtcome]
      exact ⟨rfl, rfl, rfl⟩
  · rw [if_neg hremote] at houtcome
    rw [houtcome]

theorem release_either (git : GitFetcher) (p : Path) (c : Checkouts) :
    (Fetcher.either git).release p c =
      if p ∈ c.owned then ⟨GitFetcher.release p c.fileSystem, c.owned.filter (· != p)⟩ else c := by
  unfold Fetcher.release
  simp only [List.contains_iff_mem]

/-- The checkouts that are remembered are those that are out. -/
theorem mem_owned_iff (git : GitFetcher) (home systemRoot : Path) (fs : FileSystem)
    (calls : List Call) (p : Path) :
    p ∈ (afterCalls git home systemRoot fs calls).checkouts.owned ↔
      IsOut p (afterCalls git home systemRoot fs calls).events := by
  induction calls using List.reverseRecOn with
  | nil =>
    constructor
    · intro h
      cases h
    · rintro ⟨before, after, heq, -⟩
      simp [afterCalls] at heq
  | append_singleton init call ih =>
    rw [afterCalls, List.foldl_concat, ← afterCalls]
    generalize afterCalls git home systemRoot fs init = h at ih ⊢
    cases call with
    | fetch identifier ending result =>
      have hcall := fetch_either git home identifier ending result h.checkouts systemRoot
      unfold History.next
      dsimp only at hcall ⊢
      rw [isOut_concat, ← ih]
      split_ifs at hcall with hremote
      · obtain ⟨hfound, -, howned⟩ := hcall
        rw [howned, hfound]
        cases (git.fetch identifier ending result h.checkouts.fileSystem systemRoot).1 with
        | ok q => simp [eventOf, hremote, eq_comm]
        | error e => simp [eventOf]
      · rw [hcall]
        cases ((Fetcher.either git).fetch home identifier ending result h.checkouts
          systemRoot).1 with
        | ok q => simp [eventOf, hremote]
        | error e => simp [eventOf]
    | release q =>
      unfold History.next
      dsimp only
      rw [isOut_concat, ← ih, release_either]
      split_ifs with hq
      · rw [List.mem_filter, bne_iff_ne]
        constructor
        · rintro ⟨hp, hne⟩
          exact Or.inr ⟨fun heq => hne (Event.released.inj heq).symm, hp⟩
        · rintro (heq | ⟨hne, hp⟩)
          · cases heq
          · exact ⟨hp, fun heq => hne (congrArg Event.released heq.symm)⟩
      · constructor
        · intro hp
          refine Or.inr ⟨fun heq => hq ?_, hp⟩
          obtain rfl : q = p := Event.released.inj heq
          exact hp
        · rintro (heq | ⟨-, hp⟩)
          · cases heq
          · exact hp

/-! ### Where checkouts are -/

/-- The path is that of a directory in the directory for checkouts, which is at `d`; in `core` there
was nothing of its name. -/
def Houses (core fs : FileSystem) (parent : Path) (d : Location) (p : Path) : Prop :=
  ∃ name, p = ⟨parent.slashes, parent.parts ++ [name]⟩ ∧
    core.place true p = .ok (.missing (d ++ [name])) ∧ fs.HasDirectory (d ++ [name])

/-- The checkouts that are remembered are in the directory for checkouts, and apart from them
everything that was there before them is there still. -/
def Sound (parent : Path) (c : Checkouts) : Prop :=
  ∃ core d, Keeps core c.fileSystem ∧ ∀ p ∈ c.owned, Houses core c.fileSystem parent d p

section Houses

variable {parent q : Path} {d : Location}

theorem Houses.mono (h : Houses core fs parent d p) (hkeeps : Keeps fs fs') :
    Houses core fs' parent d p := by
  obtain ⟨name, hp, hplace, hdir⟩ := h
  exact ⟨name, hp, hplace, hkeeps.hasDirectory hdir⟩

/-- The directory for checkouts was there before them. -/
theorem Houses.parent_spec (h : Houses core fs parent d p) :
    core.place false parent = .ok (.found d) ∧ core.HasDirectory d := by
  obtain ⟨name, rfl, hplace, -⟩ := h
  obtain ⟨-, d', hparent, hturn, heq⟩ := place_concat_missing.mp hplace
  obtain rfl : d = d' := List.append_cancel_right heq
  obtain ⟨cs, hcs, -⟩ := turn_eq_free hturn
  exact ⟨hparent, cs, hcs⟩

/-- What becomes of a checkout that is given back: it is gone, and what was there before the
checkouts is there still. -/
theorem Houses.release_spec (h : Houses core fs parent d p) (hkeeps : Keeps core fs) :
    ∃ name, p = ⟨parent.slashes, parent.parts ++ [name]⟩ ∧ fs.HasDirectory d ∧
      fs.place true p = .ok (.found (d ++ [name])) ∧ fs.HasDirectory (d ++ [name]) ∧
      GitFetcher.release p fs = fs.without (d ++ [name]) ∧
      Keeps core (fs.without (d ++ [name])) ∧
      FileSystem.lookUp (fs.without (d ++ [name])) p = .error .notFound := by
  have hd := hkeeps.hasDirectory h.parent_spec.2
  obtain ⟨name, rfl, hplace, hdir⟩ := h
  have hfound := hkeeps.place_missing hplace hdir
  have hfollowed := hkeeps.place_missing (FileSystem.place_missing hplace) hdir
  obtain ⟨cs, hcs⟩ := hdir
  have hlook : fs.lookUp ⟨parent.slashes, parent.parts ++ [name]⟩ = .ok (.directory cs) :=
    lookUp_eq_ok.mpr ⟨d ++ [name], hfollowed, hcs⟩
  have hrelease : GitFetcher.release ⟨parent.slashes, parent.parts ++ [name]⟩ fs
      = fs.without (d ++ [name]) := by
    unfold GitFetcher.release
    rw [hlook]
    exact removeDirectory_eq hfound ⟨cs, hcs⟩
  have hfree := IsFree.entry?_eq_none (isFree_of_place hplace)
  have hkept : Keeps core (fs.without (d ++ [name])) := hkeeps.without hd hfree
  have hgone : FileSystem.entry? (fs.without (d ++ [name])) (d ++ [name]) = none := by
    have hnone : FileSystem.entry? (fs.without (d ++ [name])) (d ++ [name] ++ []) = none :=
      entry?_without hd []
    rwa [List.append_nil] at hnone
  exact ⟨name, rfl, hd, hfound, ⟨cs, hcs⟩, hrelease, hkept,
    lookUp_eq_notFound (hkept.place_missing_of_none hplace hgone)⟩

/-- Removing one checkout leaves the others. -/
theorem Houses.without (h : Houses core fs parent d q) (hd : fs.HasDirectory d) {name : String}
    (hne : q ≠ ⟨parent.slashes, parent.parts ++ [name]⟩) :
    Houses core (fs.without (d ++ [name])) parent d q := by
  obtain ⟨other, rfl, hplace, kids, hkids⟩ := h
  have hother : other ≠ name := fun heq => hne (by rw [heq])
  have hprefix : ¬ d ++ [name] <+: d ++ [other] := by
    rw [List.prefix_append_right_inj, List.cons_prefix_cons]
    rintro ⟨heq, -⟩
    exact hother heq.symm
  have hkept := kept_without hd hprefix
  rw [hkids] at hkept
  exact ⟨other, rfl, hplace, hkept.exists_directory⟩

theorem Sound.release (h : Sound parent c) (git : GitFetcher) (p : Path) :
    Sound parent ((Fetcher.either git).release p c) := by
  rw [release_either]
  split_ifs with hp
  · obtain ⟨core, d, hkeeps, hhouses⟩ := h
    obtain ⟨name, hname, hd, -, -, hrelease, hkept, -⟩ := (hhouses p hp).release_spec hkeeps
    refine ⟨core, d, ?_, fun q hq => ?_⟩
    · rw [hrelease]
      exact hkept
    · obtain ⟨hmem, hne⟩ := List.mem_filter.mp hq
      rw [bne_iff_ne, hname] at hne
      rw [hrelease]
      exact (hhouses q hmem).without hd hne
  · exact h

theorem Sound.mono (h : Sound parent c) (hkeeps : Keeps c.fileSystem fs') :
    Sound parent ⟨fs', c.owned⟩ := by
  obtain ⟨core, d, hcore, hhouses⟩ := h
  exact ⟨core, d, hcore.trans hkeeps, fun p hp => (hhouses p hp).mono hkeeps⟩

/-- A new checkout is in the same directory as those that there are, and apart from them. -/
theorem Sound.add {ready : FileSystem} {name : String} {l : Location} (h : Sound parent c)
    (hready : Keeps c.fileSystem ready)
    (hplace : ready.place true ⟨parent.slashes, parent.parts ++ [name]⟩ = .ok (.missing l))
    (files : List (String × Entry)) :
    Sound parent ⟨ready.setAt (.directory files) l,
      ⟨parent.slashes, parent.parts ++ [name]⟩ :: c.owned⟩ := by
  have hmade := keeps_setAt (isFree_of_place hplace) (.directory files)
  have hdir := GitFetcher.hasDirectory_setAt hplace files
  have hnone := IsFree.entry?_eq_none (isFree_of_place hplace)
  obtain ⟨hnull, d', hparent', hturn, rfl⟩ := place_concat_missing.mp hplace
  cases howned : c.owned with
  | nil =>
    -- Nothing is remembered, so everything that there is counts as what was there before.
    refine ⟨ready, d', hmade, fun q hq => ?_⟩
    obtain rfl := List.mem_singleton.mp hq
    exact ⟨name, rfl, hplace, hdir⟩
  | cons first rest =>
    obtain ⟨core, d, hcore, hhouses⟩ := h
    have hfirst : first ∈ c.owned := by rw [howned]; exact List.mem_cons_self
    obtain ⟨hparent, hd⟩ := (hhouses first hfirst).parent_spec
    have hcoreReady := hcore.trans hready
    obtain rfl : d' = d := by
      have hsame := hparent'.symm.trans (hcoreReady.place_found hparent)
      exact Place.found.inj (Except.ok.inj hsame)
    have hfree := turn_eq_free_of hturn hd (hcoreReady.entry?_eq_none hnone)
    refine ⟨core, d', hcoreReady.trans hmade, fun q hq => ?_⟩
    rcases List.mem_cons.mp hq with rfl | hq
    · exact ⟨name, rfl, place_concat_missing.mpr ⟨hnull, d', hparent, hfree, rfl⟩, hdir⟩
    · rw [← howned] at hq
      exact (hhouses q hq).mono (hready.trans hmade)

end Houses

/-- The ways in which a remote repository is fetched: nothing is returned, and everything that was
there is there still, or the new checkout is returned. -/
theorem fetch_remote_cases (git : GitFetcher) (identifier ending : String) (result : CloneResult)
    (fs : FileSystem) (systemRoot : Path) :
    let found := git.fetch identifier ending result fs systemRoot
    (∃ e, found.1 = .error e ∧ Keeps fs found.2.1) ∨
    ∃ ready l, Keeps fs ready ∧
      ready.place true (git.target identifier ending systemRoot) = .ok (.missing l) ∧
      found.1 = .ok (git.target identifier ending systemRoot) ∧
      found.2.1 = ready.setAt (.directory result.files) l := by
  intro found
  rcases GitFetcher.fetch_cases git identifier ending result fs systemRoot with
    ⟨e, path, fs', hfound, hkeeps⟩ | ⟨ready, l, hkeeps, hplace, hfound⟩
  · have hfound' : found = _ := hfound
    rw [hfound']
    exact Or.inl ⟨_, rfl, hkeeps⟩
  · have hfound' : found = _ := hfound
    have hmade := hkeeps.trans (keeps_setAt (isFree_of_place hplace) (.directory result.files))
    rw [GitFetcher.cloneInto_setAt hplace] at hfound'
    rw [hfound']
    cases result.failure? with
    | none => exact Or.inr ⟨ready, l, hkeeps, hplace, rfl, rfl⟩
    | some cause =>
      dsimp only
      split_ifs
      · exact Or.inl ⟨_, rfl, hkeeps⟩
      · exact Or.inl ⟨_, rfl, hmade⟩

theorem keeps_fetch_either (git : GitFetcher) (home : Path) (identifier ending : String)
    (result : CloneResult) (c : Checkouts) (systemRoot : Path) :
    Keeps c.fileSystem
      ((Fetcher.either git).fetch home identifier ending result c systemRoot).2.1.fileSystem := by
  have hcall := fetch_either git home identifier ending result c systemRoot
  dsimp only at hcall
  split_ifs at hcall with hremote
  · obtain ⟨-, hfs, -⟩ := hcall
    rw [hfs]
    rcases fetch_remote_cases git identifier ending result c.fileSystem systemRoot with
      ⟨e, -, hkeeps⟩ | ⟨ready, l, hkeeps, hplace, -, hmade⟩
    · exact hkeeps
    · rw [hmade]
      exact hkeeps.trans (keeps_setAt (isFree_of_place hplace) _)
  · rw [hcall]
    exact .refl _

theorem Sound.fetch (h : Sound (git.parent systemRoot) c) (home : Path) (identifier : String)
    (hending : '/' ∉ ending.toList) (result : CloneResult) :
    Sound (git.parent systemRoot)
      ((Fetcher.either git).fetch home identifier ending result c systemRoot).2.1 := by
  have hcall := fetch_either git home identifier ending result c systemRoot
  dsimp only at hcall
  generalize (Fetcher.either git).fetch home identifier ending result c systemRoot = outcome
    at hcall ⊢
  split_ifs at hcall with hremote
  · obtain ⟨-, hfs, howned⟩ := hcall
    have hafter : outcome.2.1 = ⟨outcome.2.1.fileSystem, outcome.2.1.owned⟩ := rfl
    rcases fetch_remote_cases git identifier ending result c.fileSystem systemRoot with
      ⟨e, herror, hkeeps⟩ | ⟨ready, l, hkeeps, hplace, hok, hmade⟩
    · rw [herror] at howned
      rw [hafter, howned, hfs]
      exact h.mono hkeeps
    · rw [hok] at howned
      rw [hafter, howned, hfs, hmade]
      rw [git.target_eq systemRoot hremote hending] at hplace ⊢
      exact h.add hkeeps hplace result.files
  · rw [hcall]
    exact h

theorem sound_afterCalls (git : GitFetcher) (home systemRoot : Path) (fs : FileSystem)
    {calls : List Call} (hcalls : ∀ call ∈ calls, call.IsPlain) :
    Sound (git.parent systemRoot) (afterCalls git home systemRoot fs calls).checkouts := by
  induction calls using List.reverseRecOn with
  | nil =>
    refine ⟨fs, [], .refl fs, fun p hp => ?_⟩
    cases hp
  | append_singleton init call ih =>
    have hinit := ih fun other hother => hcalls other (List.mem_append_left _ hother)
    rw [afterCalls, List.foldl_concat, ← afterCalls]
    cases call with
    | fetch identifier ending result =>
      exact hinit.fetch home identifier (hcalls (.fetch identifier ending result) (by simp)) result
    | release p => exact hinit.release git p

/-- **Only checkouts are removed, and only once**: after any calls, a directory that is given back
is left alone, as is everything else, unless it is a checkout that was cloned and not given back
since.  Such a checkout is there and is removed with all that lies below it; everything elsewhere
stays.  And no fetch removes anything. -/
theorem release_removes_owned (git : GitFetcher) (home systemRoot : Path) (fs : FileSystem)
    {calls : List Call} (hcalls : ∀ call ∈ calls, call.IsPlain) (p : Path) :
    let history := afterCalls git home systemRoot fs calls
    let before := history.checkouts.fileSystem
    let after := ((Fetcher.either git).release p history.checkouts).fileSystem
    (¬ IsOut p history.events → after = before) ∧
    (IsOut p history.events → ∃ l,
      before.place true p = .ok (.found l) ∧ before.HasDirectory l ∧
      after.lookUp p = .error .notFound ∧ (∀ rest, after.entry? (l ++ rest) = none) ∧
      ∀ m, ¬ l <+: m → Entry.Kept (before.entry? m) (after.entry? m)) ∧
    ∀ identifier ending result, before.Keeps
      ((Fetcher.either git).fetch home identifier ending result history.checkouts
        systemRoot).2.1.fileSystem := by
  intro history before after
  have howned := mem_owned_iff git home systemRoot fs calls p
  have hafter : after = ((Fetcher.either git).release p history.checkouts).fileSystem := rfl
  rw [release_either] at hafter
  refine ⟨fun hout => ?_, fun hout => ?_, fun identifier ending result => ?_⟩
  · rw [hafter, if_neg (fun hp => hout (howned.mp hp))]
  · rw [if_pos (howned.mpr hout)] at hafter
    obtain ⟨core, d, hkeeps, hhouses⟩ := sound_afterCalls git home systemRoot fs hcalls
    obtain ⟨name, -, hd, hfound, hdir, hrelease, -, hgone⟩ :=
      (hhouses p (howned.mpr hout)).release_spec hkeeps
    have hwithout : after = before.without (d ++ [name]) := hafter.trans hrelease
    rw [hwithout]
    exact ⟨d ++ [name], hfound, hdir, hgone, entry?_without hd, fun m hm => kept_without hd hm⟩
  · exact keeps_fetch_either git home identifier ending result history.checkouts systemRoot

/-- One repository is cloned, a local directory is found and given back, and another clone fails:
the checkout is out, and when it is given back it is gone and the local directory stays. -/
theorem release_removes_owned_amongOthers :
    let git : GitFetcher := ⟨none, none, none⟩
    let fs : FileSystem := ⟨.directory [("home", .emptyDirectory), ("tmp", .emptyDirectory)], []⟩
    let checkout : Path := ⟨1, ["tmp", "navvi-tool-01"]⟩
    let calls : List Call := [
      .fetch "git@h:o/tool.git" "01" (.cloned [("a.js", .link "b.js")] none),
      .fetch "/home" "" (.failed (.general "")), .release ⟨1, ["home"]⟩,
      .fetch "git@h:o/tool.git" "02" (.failed (.foreign "GitError" "gone"))]
    let history := afterCalls git ⟨1, ["home"]⟩ GitFetcher.standardTempRoot fs calls
    let after := ((Fetcher.either git).release checkout history.checkouts).fileSystem
    (∀ call ∈ calls, call.IsPlain) ∧ IsOut checkout history.events ∧
    after.lookUp checkout = .error .notFound ∧
    ((Fetcher.either git).release ⟨1, ["home"]⟩ history.checkouts).fileSystem
      = history.checkouts.fileSystem := by
  intro git fs checkout calls history after
  have hplain : ∀ call ∈ calls, call.IsPlain := by
    simp [calls, Call.IsPlain]
  have howned : history.checkouts.owned = [checkout] := by decide +kernel
  have hout : IsOut checkout history.events := by
    rw [← mem_owned_iff git ⟨1, ["home"]⟩ GitFetcher.standardTempRoot fs calls checkout]
    show checkout ∈ history.checkouts.owned
    rw [howned]
    exact List.mem_cons_self
  have hnot : ¬ IsOut ⟨1, ["home"]⟩ history.events := by
    rw [← mem_owned_iff git ⟨1, ["home"]⟩ GitFetcher.standardTempRoot fs calls ⟨1, ["home"]⟩]
    show ⟨1, ["home"]⟩ ∉ history.checkouts.owned
    rw [howned]
    decide
  obtain ⟨-, hremoved, -⟩ :=
    release_removes_owned git ⟨1, ["home"]⟩ GitFetcher.standardTempRoot fs hplain checkout
  obtain ⟨l, -, -, hgone, -⟩ := hremoved hout
  obtain ⟨hkept, -⟩ :=
    release_removes_owned git ⟨1, ["home"]⟩ GitFetcher.standardTempRoot fs hplain ⟨1, ["home"]⟩
  exact ⟨hplain, hout, hgone, hkept hnot⟩

end Checkouts

end CodeAtlas
