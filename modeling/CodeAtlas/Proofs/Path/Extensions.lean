import CodeAtlas.Proofs.Path.Components
import CodeAtlas.Resolution
import Mathlib.Data.List.TakeWhile

/-!
# Extensions in paths

The extension of a path is that of the name behind its last slash: to take it away leaves the
directory of the path as it is (`dirname_stripExtension`) and shortens the name
(`basename_stripExtension`).  Only an extension of a dialect is taken away (`HasExtension`), and of
a name that has one something is left (`toList_eq_of_hasExtension`).
-/

namespace CodeAtlas

namespace PathText

/-! ### Names and what is before them -/

theorem exists_last_place {α : Type} {x : α} {xs : List α} (h : x ∈ xs) :
    ∃ before after, xs = before ++ x :: after ∧ x ∉ after := by
  obtain ⟨after, before, hxs, hafter⟩ := List.eq_append_cons_of_mem (List.mem_reverse.mpr h)
  refine ⟨before.reverse, after.reverse, ?_, fun hx => hafter (List.mem_reverse.mp hx)⟩
  rw [← List.reverse_inj, hxs]
  simp

theorem splitLast_spec (p : String) :
    p.toList = (splitLast p).1 ++ (splitLast p).2 ∧ '/' ∉ (splitLast p).2 ∧
      ((splitLast p).1 = [] ∨ ∃ init, (splitLast p).1 = init ++ ['/']) := by
  by_cases hslash : '/' ∈ p.toList
  · obtain ⟨init, tail, hp, htail⟩ := exists_last_place hslash
    have hcut : p.toList = (init ++ ['/']) ++ tail := by
      rw [hp, List.append_assoc, List.singleton_append]
    rw [splitLast_eq hcut htail (Or.inr ⟨init, rfl⟩)]
    exact ⟨hcut, htail, Or.inr ⟨init, rfl⟩⟩
  · rw [splitLast_eq (List.nil_append p.toList).symm hslash (Or.inl rfl)]
    exact ⟨rfl, hslash, Or.inl rfl⟩

/-- What stands before the extension of a name, and the extension with its point. -/
def nameParts (tail : List Char) : List Char × List Char :=
  let points := tail.takeWhile (· = '.')
  let name := tail.drop points.length
  let ext := (name.reverse.takeWhile (· ≠ '.')).reverse
  if ext.length = name.length then (tail, [])
  else (points ++ name.take (name.length - ext.length - 1), '.' :: ext)

/-- A name has no extension, or it is cut at a point with something in front of it. -/
theorem nameParts_cases (tail : List Char) :
    nameParts tail = (tail, []) ∨ ∃ stem ext, stem ≠ [] ∧ tail = stem ++ '.' :: ext ∧
      nameParts tail = (stem, '.' :: ext) := by
  obtain ⟨points, name, htail, hpoints, hname⟩ : ∃ points name, tail = points ++ name ∧
      tail.takeWhile (· = '.') = points ∧ name.head? ≠ some '.' := by
    refine ⟨_, tail.dropWhile (· = '.'), List.takeWhile_append_dropWhile.symm, rfl, fun h => ?_⟩
    have hhead := List.head?_dropWhile_not (· = '.') tail
    rw [h] at hhead
    simp at hhead
  have hdrop : tail.drop points.length = name := by rw [htail, List.drop_left]
  unfold nameParts
  dsimp only
  rw [hpoints, hdrop]
  by_cases hpoint : '.' ∈ name
  · obtain ⟨kept, ext, rfl, hext⟩ := exists_last_place hpoint
    have hreverse : (kept ++ '.' :: ext).reverse.takeWhile (· ≠ '.') = ext.reverse := by
      rw [List.reverse_append, List.reverse_cons, List.append_assoc, List.takeWhile_append_of_pos]
      · simp
      · intro c hc
        rw [List.mem_reverse] at hc
        exact decide_eq_true (ne_of_mem_of_not_mem hc hext)
    have hlength : (kept ++ '.' :: ext).length - ext.length - 1 = kept.length := by
      rw [List.length_append, List.length_cons]
      omega
    have hshorter : ext.length ≠ (kept ++ '.' :: ext).length := by
      rw [List.length_append, List.length_cons]
      omega
    rw [hreverse, List.reverse_reverse, if_neg hshorter, hlength, List.take_left]
    refine Or.inr ⟨points ++ kept, ext, fun hnil => ?_, ?_, rfl⟩
    · obtain ⟨-, rfl⟩ := List.append_eq_nil_iff.mp hnil
      exact hname rfl
    · rw [htail, List.append_assoc]
  · have hall : name.reverse.takeWhile (· ≠ '.') = name.reverse := by
      rw [List.takeWhile_eq_self_iff]
      exact fun c hc => decide_eq_true (ne_of_mem_of_not_mem (List.mem_reverse.mp hc) hpoint)
    rw [hall, List.reverse_reverse, if_pos rfl]
    exact Or.inl rfl

theorem splitExtension_eq (p : String) :
    splitExtension p = (String.ofList ((splitLast p).1 ++ (nameParts (splitLast p).2).1),
      String.ofList (nameParts (splitLast p).2).2) := by
  have hp : p = String.ofList ((splitLast p).1 ++ (splitLast p).2) := by
    rw [← (splitLast_spec p).1, String.ofList_toList]
  unfold splitExtension nameParts
  dsimp only
  split_ifs
  · rw [← hp]
  · rw [List.append_assoc]

end PathText

open PathText

/-! ### Paths without their extensions -/

/-- The name of the path ends in the extension of a dialect. -/
def HasExtension (p : String) : Prop :=
  Text.lower (splitExtension p).2 ∈ Dialect.supportedExtensions

instance : DecidablePred HasExtension :=
  fun _ => inferInstanceAs (Decidable (_ ∈ Dialect.supportedExtensions))

theorem stripExtension_eq (p : String) :
    stripExtension p = if HasExtension p then (splitExtension p).1 else p := by
  -- The pair is made opaque, because unification would otherwise compute it.
  by_cases h : HasExtension p
  · rw [if_pos h, stripExtension]
    rw [HasExtension] at h
    generalize splitExtension p = parts at h ⊢
    exact if_pos (List.contains_iff_mem.mpr h)
  · rw [if_neg h, stripExtension]
    rw [HasExtension] at h
    generalize splitExtension p = parts at h ⊢
    exact if_neg (mt List.contains_iff_mem.mp h)

theorem stripExtension_eq_self {p : String} (h : ¬ HasExtension p) : stripExtension p = p := by
  rw [stripExtension_eq, if_neg h]

/-- To take the extension of a dialect away from a path is to cut its name at a point with something
in front of it. -/
theorem splitLast_stripExtension {p : String} (h : HasExtension p) :
    ∃ name ext, name ≠ [] ∧ (splitLast p).2 = name ++ '.' :: ext ∧
      nameParts (splitLast p).2 = (name, '.' :: ext) ∧
      splitLast (stripExtension p) = ((splitLast p).1, name) := by
  obtain ⟨-, htail, hhead⟩ := splitLast_spec p
  rcases nameParts_cases (splitLast p).2 with hparts | ⟨name, ext, hne, hname, hparts⟩
  · have hempty : Text.lower "" ∉ Dialect.supportedExtensions := by decide
    refine absurd h ?_
    rw [HasExtension, splitExtension_eq, hparts]
    exact hempty
  · refine ⟨name, ext, hne, hname, hparts, ?_⟩
    have hslash : '/' ∉ name := fun hmem => htail (hname ▸ List.mem_append_left _ hmem)
    refine splitLast_eq ?_ hslash hhead
    rw [stripExtension_eq, if_pos h, splitExtension_eq, hparts, String.toList_ofList]

theorem toList_eq_of_hasExtension {p : String} (h : HasExtension p) :
    ∃ ext, p.toList = (stripExtension p).toList ++ '.' :: ext := by
  obtain ⟨name, ext, -, hname, -, hsplit⟩ := splitLast_stripExtension h
  have hp := (splitLast_spec p).1
  have hstem := (splitLast_spec (stripExtension p)).1
  rw [hsplit] at hstem
  exact ⟨ext, by rw [hp, hstem, hname, List.append_assoc]⟩

theorem hasExtension_iff {p : String} : HasExtension p ↔ stripExtension p ≠ p := by
  refine ⟨fun h heq => ?_, fun h => by_contra fun hno => h (stripExtension_eq_self hno)⟩
  obtain ⟨ext, hp⟩ := toList_eq_of_hasExtension h
  have hlength := congrArg List.length hp
  rw [heq, List.length_append, List.length_cons] at hlength
  omega

theorem exists_toList_stripExtension_eq_concat {p : String} (h : HasExtension p) :
    ∃ init c, (stripExtension p).toList = init ++ [c] ∧ c ≠ '/' := by
  obtain ⟨name, ext, hne, hname, -, hsplit⟩ := splitLast_stripExtension h
  have hslash := (splitLast_spec (stripExtension p)).2.1
  have hstem := (splitLast_spec (stripExtension p)).1
  rw [hsplit] at hslash hstem
  obtain ⟨before, c, rfl⟩ := (List.eq_nil_or_concat' name).resolve_left hne
  refine ⟨(splitLast p).1 ++ before, c, by rw [hstem, List.append_assoc], ?_⟩
  rintro rfl
  exact hslash (List.mem_append_right _ (List.mem_singleton_self _))

theorem splitLast_fst_stripExtension (p : String) :
    (splitLast (stripExtension p)).1 = (splitLast p).1 := by
  by_cases h : HasExtension p
  · obtain ⟨name, ext, -, -, -, hsplit⟩ := splitLast_stripExtension h
    rw [hsplit]
  · rw [stripExtension_eq_self h]

theorem dirname_stripExtension (p : String) : dirname (stripExtension p) = dirname p := by
  rw [dirname, dirname, splitLast_fst_stripExtension]

theorem splitLast_basename (p : String) : splitLast (basename p) = ([], (splitLast p).2) :=
  splitLast_eq (String.toList_ofList ..) (splitLast_spec p).2.1 (Or.inl rfl)

theorem hasExtension_basename {p : String} : HasExtension (basename p) ↔ HasExtension p := by
  rw [HasExtension, HasExtension, splitExtension_eq, splitExtension_eq p, splitLast_basename]

theorem basename_stripExtension (p : String) :
    basename (stripExtension p) = stripExtension (basename p) := by
  by_cases h : HasExtension p
  · obtain ⟨name, ext, -, -, hparts, hsplit⟩ := splitLast_stripExtension h
    rw [basename, hsplit, stripExtension_eq, if_pos (hasExtension_basename.mpr h),
      splitExtension_eq, splitLast_basename, hparts, List.nil_append]
  · rw [stripExtension_eq_self h, stripExtension_eq_self (mt hasExtension_basename.mp h)]

/-! ### Directories -/

/-- A text that ends in a slash is cut before the slashes at its end. -/
theorem exists_eq_dropWhile_append (before : List Char) :
    ∃ slashes, before ++ ['/'] =
      ((before ++ ['/']).reverse.dropWhile (· = '/')).reverse ++ '/' :: slashes := by
  have hcut : before ++ ['/'] = ((before ++ ['/']).reverse.dropWhile (· = '/')).reverse
      ++ ((before ++ ['/']).reverse.takeWhile (· = '/')).reverse := by
    rw [← List.reverse_append, List.takeWhile_append_dropWhile, List.reverse_reverse]
  cases hslashes : ((before ++ ['/']).reverse.takeWhile (· = '/')).reverse with
  | nil => simp at hslashes
  | cons c slashes =>
    have hc : c ∈ (before ++ ['/']).reverse.takeWhile (· = '/') := by
      rw [← List.mem_reverse, hslashes]
      exact List.mem_cons_self
    obtain rfl : c = '/' := by simpa using List.mem_takeWhile_imp hc
    exact ⟨slashes, hslashes ▸ hcut⟩

/-- A directory that is more than slashes stands at the beginning of the paths in it, with a slash
behind it. -/
theorem toList_eq_of_dirname {p d : String} (h : dirname p = d)
    (hd : ∃ init c, d.toList = init ++ [c] ∧ c ≠ '/') :
    ∃ rest, p.toList = d.toList ++ '/' :: rest := by
  obtain ⟨init, c, hlast, hc⟩ := hd
  obtain ⟨hp, -, hhead⟩ := splitLast_spec p
  subst h
  rw [dirname] at hlast ⊢
  rcases hhead with hnil | ⟨before, hbefore⟩
  · rw [hnil] at hlast
    simp at hlast
  · obtain ⟨slashes, hslashes⟩ := exists_eq_dropWhile_append before
    rw [hbefore] at hp hlast ⊢
    split_ifs at hlast ⊢
    · -- a directory of nothing but slashes ends in one
      rw [String.toList_ofList] at hlast
      exact absurd (List.append_inj_right' hlast rfl) (by simpa using Ne.symm hc)
    · refine ⟨slashes ++ (splitLast p).2, ?_⟩
      rw [String.toList_ofList, hp]
      conv_lhs => rw [hslashes]
      rw [List.append_assoc, List.cons_append]

end CodeAtlas
