import CodeAtlas.Path
import Mathlib.Data.List.Induction
import Mathlib.Data.List.Infix
import Mathlib.Data.String.Basic

/-!
# Names in paths

Names without slashes that are joined by slashes can be told apart again
(`components_ofComponents`), so that there is one list of names for a path
(`ofComponents_inj`).  A path that lies in a directory (`PathText.LiesIn`) is cut at its last
slash into the path of the directory and a name (`dirname_of_liesIn`).
-/

namespace CodeAtlas.PathText

/-- A name as it stands between the slashes of a path. -/
def IsPlain (name : String) : Prop := name ≠ "" ∧ '/' ∉ name.toList

instance : DecidablePred IsPlain :=
  fun name => inferInstanceAs (Decidable (name ≠ "" ∧ '/' ∉ name.toList))

/-- The path is that of an entry of the directory with the given names on the way to it. -/
def LiesIn (path : String) (directory : List String) : Prop :=
  ∃ name, path = ofComponents (directory ++ [name]) ∧ ∀ n ∈ directory ++ [name], IsPlain n

theorem LiesIn.isPlain {path : String} {directory : List String} (h : LiesIn path directory) :
    ∀ name ∈ directory, IsPlain name := by
  obtain ⟨name, -, hplain⟩ := h
  exact fun n hn => hplain n (List.mem_append_left _ hn)

/-! ### Joining names -/

theorem ofComponents_nil : ofComponents [] = "" := rfl

theorem ofComponents_singleton (name : String) : ofComponents [name] = name := by
  rw [← String.toList_inj, ofComponents, String.toList_intercalate]
  simp [List.intercalate]

theorem toList_ofComponents_cons_cons (name next : String) (names : List String) :
    (ofComponents (name :: next :: names)).toList
      = name.toList ++ '/' :: (ofComponents (next :: names)).toList := by
  simp [ofComponents, String.toList_intercalate, List.intercalate]

theorem toList_ofComponents_concat {names : List String} (hne : names ≠ []) (name : String) :
    (ofComponents (names ++ [name])).toList
      = (ofComponents names).toList ++ '/' :: name.toList := by
  induction names with
  | nil => exact absurd rfl hne
  | cons first names ih =>
    cases names with
    | nil =>
      rw [List.singleton_append, toList_ofComponents_cons_cons, ofComponents_singleton,
        ofComponents_singleton]
    | cons next names =>
      rw [List.cons_append, List.cons_append, toList_ofComponents_cons_cons,
        toList_ofComponents_cons_cons, ← List.cons_append, ih (List.cons_ne_nil _ _),
        List.append_assoc, List.cons_append]

/-! ### Taking paths apart -/

theorem splitOn_of_not_mem {sep : Char} {part : List Char} (h : sep ∉ part) :
    splitOn sep part = [part] := by
  induction part with
  | nil => rfl
  | cons c part ih =>
    rw [List.mem_cons, not_or] at h
    rw [splitOn, if_neg (Ne.symm h.1), ih h.2]

theorem splitOn_append_cons {sep : Char} {part : List Char} (h : sep ∉ part) (rest : List Char) :
    splitOn sep (part ++ sep :: rest) = part :: splitOn sep rest := by
  induction part with
  | nil => rw [List.nil_append, splitOn, if_pos rfl]
  | cons c part ih =>
    rw [List.mem_cons, not_or] at h
    rw [List.cons_append, splitOn, if_neg (Ne.symm h.1), ih h.2]

/-- Names without slashes are the components of the path that they make. -/
theorem components_ofComponents {names : List String} (hne : names ≠ [])
    (h : ∀ name ∈ names, '/' ∉ name.toList) : components (ofComponents names) = names := by
  have hsplit : splitOn '/' (ofComponents names).toList = names.map String.toList := by
    induction names with
    | nil => exact absurd rfl hne
    | cons name names ih =>
      have hname := h name List.mem_cons_self
      cases names with
      | nil =>
        rw [ofComponents_singleton]
        exact splitOn_of_not_mem hname
      | cons next names =>
        rw [toList_ofComponents_cons_cons, splitOn_append_cons hname,
          ih (List.cons_ne_nil _ _) fun n hn => h n (List.mem_cons_of_mem _ hn)]
        rfl
  rw [components, hsplit, List.map_map]
  simp [Function.comp_def]

theorem ofComponents_ne_empty {names : List String} (hne : names ≠ [])
    (h : ∀ name ∈ names, IsPlain name) : ofComponents names ≠ "" := by
  intro hempty
  have hnames := components_ofComponents hne fun n hn => (h n hn).2
  rw [hempty] at hnames
  have hmem : "" ∈ names := hnames ▸ List.mem_singleton_self _
  exact (h "" hmem).1 rfl

/-- There is one list of names for a path. -/
theorem ofComponents_inj {names names' : List String} (h : ∀ name ∈ names, IsPlain name)
    (h' : ∀ name ∈ names', IsPlain name) :
    ofComponents names = ofComponents names' ↔ names = names' := by
  refine ⟨fun heq => ?_, congrArg ofComponents⟩
  by_cases hne : names = []
  · by_cases hne' : names' = []
    · rw [hne, hne']
    · rw [hne] at heq
      exact absurd heq.symm (ofComponents_ne_empty hne' h')
  · by_cases hne' : names' = []
    · rw [hne'] at heq
      exact absurd heq (ofComponents_ne_empty hne h)
    · rw [← components_ofComponents hne fun n hn => (h n hn).2,
        ← components_ofComponents hne' fun n hn => (h' n hn).2, heq]

theorem splitOn_ne_nil (sep : Char) (cs : List Char) : splitOn sep cs ≠ [] := by
  cases cs with
  | nil => exact List.cons_ne_nil _ _
  | cons c rest =>
    rw [splitOn]
    split_ifs
    · exact List.cons_ne_nil _ _
    · split <;> exact List.cons_ne_nil _ _

theorem not_mem_of_mem_splitOn {sep : Char} {cs part : List Char} (h : part ∈ splitOn sep cs) :
    sep ∉ part := by
  induction cs generalizing part with
  | nil =>
    obtain rfl := List.mem_singleton.mp h
    exact List.not_mem_nil
  | cons c rest ih =>
    rw [splitOn] at h
    split_ifs at h with hc
    · rcases List.mem_cons.mp h with rfl | h
      · exact List.not_mem_nil
      · exact ih h
    · cases hsplit : splitOn sep rest with
      | nil => exact absurd hsplit (splitOn_ne_nil sep rest)
      | cons first parts =>
        rw [hsplit] at h
        rcases List.mem_cons.mp h with rfl | h
        · rw [List.mem_cons, not_or]
          exact ⟨Ne.symm hc, ih (hsplit ▸ List.mem_cons_self)⟩
        · exact ih (hsplit ▸ List.mem_cons_of_mem _ h)

/-- The parts of a text with the separator between them are the text again. -/
theorem intercalate_splitOn (sep : Char) (cs : List Char) :
    [sep].intercalate (splitOn sep cs) = cs := by
  induction cs with
  | nil => rfl
  | cons c rest ih =>
    rw [splitOn]
    cases hsplit : splitOn sep rest with
    | nil => exact absurd hsplit (splitOn_ne_nil sep rest)
    | cons first parts =>
      rw [hsplit] at ih
      split_ifs with hc
      · rw [← ih, hc]
        simp [List.intercalate]
      · rw [← ih]
        cases parts with
        | nil => simp [List.intercalate]
        | cons next parts => simp [List.intercalate]

theorem components_ne_nil (p : String) : components p ≠ [] :=
  mt List.map_eq_nil_iff.mp (splitOn_ne_nil _ _)

/-- The components of a path make the path. -/
theorem ofComponents_components (p : String) : ofComponents (components p) = p := by
  rw [← String.toList_inj, ofComponents, String.toList_intercalate, components, List.map_map]
  simpa [Function.comp_def] using intercalate_splitOn '/' p.toList

theorem isPlain_of_mem_components {p name : String} (h : name ∈ components p) (hne : name ≠ "") :
    IsPlain name := by
  obtain ⟨part, hpart, rfl⟩ := List.mem_map.mp h
  refine ⟨hne, ?_⟩
  rw [String.toList_ofList]
  exact not_mem_of_mem_splitOn hpart

/-- A path without empty components lies in the directory that all but the last of them make. -/
theorem liesIn_dropLast_components {p : String} (h : "" ∉ components p) :
    LiesIn p (components p).dropLast := by
  have hcut := List.dropLast_concat_getLast (components_ne_nil p)
  refine ⟨(components p).getLast (components_ne_nil p), ?_, ?_⟩
  · rw [hcut, ofComponents_components]
  · rw [hcut]
    exact fun n hn => isPlain_of_mem_components hn (ne_of_mem_of_not_mem hn h)

/-! ### The last slash -/

/-- A text is cut behind its last slash, or at its beginning if there is none. -/
theorem splitLast_eq {p : String} {head tail : List Char} (hp : p.toList = head ++ tail)
    (htail : '/' ∉ tail) (hhead : head = [] ∨ ∃ init, head = init ++ ['/']) :
    splitLast p = (head, tail) := by
  have hrest : head.reverse.takeWhile (· ≠ '/') = [] := by
    rcases hhead with rfl | ⟨init, rfl⟩
    · rfl
    · rw [List.reverse_concat, List.takeWhile_cons_of_neg (by simp)]
  have htake : p.toList.reverse.takeWhile (· ≠ '/') = tail.reverse := by
    rw [hp, List.reverse_append, List.takeWhile_append_of_pos, hrest, List.append_nil]
    intro c hc
    rw [List.mem_reverse] at hc
    rw [decide_eq_true_eq]
    rintro rfl
    exact htail hc
  have hlength : p.length - tail.length = head.length := by
    rw [← String.length_toList, hp, List.length_append, Nat.add_sub_cancel]
  rw [splitLast, htake, List.reverse_reverse, hlength, hp, List.take_left]

/-- A path of plain names does not end in a slash. -/
theorem exists_toList_ofComponents_eq_concat {names : List String} (hne : names ≠ [])
    (h : ∀ name ∈ names, IsPlain name) :
    ∃ init c, (ofComponents names).toList = init ++ [c] ∧ c ≠ '/' := by
  obtain ⟨before, name, rfl⟩ := (List.eq_nil_or_concat' names).resolve_left hne
  obtain ⟨hempty, hslash⟩ := h name (by simp)
  obtain ⟨init, c, hname⟩ : ∃ init c, name.toList = init ++ [c] := by
    refine (List.eq_nil_or_concat' name.toList).resolve_left fun hnil => hempty ?_
    exact String.toList_eq_nil_iff.mp hnil
  have hc : c ≠ '/' := by
    rintro rfl
    exact hslash (by simp [hname])
  by_cases hbefore : before = []
  · subst hbefore
    exact ⟨init, c, by rw [List.nil_append, ofComponents_singleton, hname], hc⟩
  · refine ⟨(ofComponents before).toList ++ '/' :: init, c, ?_, hc⟩
    rw [toList_ofComponents_concat hbefore, hname, List.append_assoc, List.cons_append]

/-- The directory of a path is what stands before its last slash. -/
theorem dirname_of_liesIn {path : String} {directory : List String} (h : LiesIn path directory) :
    dirname path = ofComponents directory := by
  obtain ⟨name, rfl, hplain⟩ := h
  have hname : IsPlain name := hplain name (by simp)
  by_cases hroot : directory = []
  · subst hroot
    have hsplit : splitLast (ofComponents ([] ++ [name])) = ([], name.toList) := by
      refine splitLast_eq ?_ hname.2 (Or.inl rfl)
      rw [List.nil_append, ofComponents_singleton, List.nil_append]
    rw [dirname, hsplit]
    rfl
  · obtain ⟨init, c, hlast, hc⟩ := exists_toList_ofComponents_eq_concat hroot
      fun n hn => hplain n (List.mem_append_left _ hn)
    have hsplit : splitLast (ofComponents (directory ++ [name]))
        = ((ofComponents directory).toList ++ ['/'], name.toList) := by
      refine splitLast_eq ?_ hname.2 (Or.inr ⟨_, rfl⟩)
      rw [toList_ofComponents_concat hroot, List.append_assoc, List.singleton_append]
    -- Only the slash that was cut at is dropped.
    have htrimmed : (((ofComponents directory).toList ++ ['/']).reverse.dropWhile
        (· = '/')).reverse = (ofComponents directory).toList := by
      rw [hlast, List.reverse_concat, List.dropWhile_cons_of_pos (by simp), List.reverse_concat,
        List.dropWhile_cons_of_neg (by simpa using hc), List.reverse_cons, List.reverse_reverse]
    have hnonempty : (ofComponents directory).toList.isEmpty = false := by
      rw [hlast]
      simp
    rw [dirname, hsplit]
    dsimp only
    rw [htrimmed, hnonempty, if_neg Bool.false_ne_true, String.ofList_toList]

/-- What is before the name of a path is its directory with a slash, unless that is the root. -/
theorem splitLast_fst_of_liesIn {path : String} {directory : List String}
    (h : LiesIn path directory) :
    (splitLast path).1
      = if directory = [] then [] else (ofComponents directory).toList ++ ['/'] := by
  obtain ⟨name, rfl, hplain⟩ := h
  have hname : '/' ∉ name.toList := (hplain name (by simp)).2
  split_ifs with hroot
  · subst hroot
    rw [List.nil_append, ofComponents_singleton]
    exact congrArg Prod.fst (splitLast_eq (List.nil_append _).symm hname (Or.inl rfl))
  · have hpath : (ofComponents (directory ++ [name])).toList
        = ((ofComponents directory).toList ++ ['/']) ++ name.toList := by
      rw [toList_ofComponents_concat hroot, List.append_assoc, List.singleton_append]
    exact congrArg Prod.fst (splitLast_eq hpath hname (Or.inr ⟨_, rfl⟩))

end CodeAtlas.PathText
