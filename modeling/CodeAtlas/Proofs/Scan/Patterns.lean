import CodeAtlas.Proofs.Path.Components
import CodeAtlas.Scan

/-!
# What a scan leaves out

A directory is ignored because of its name or because a pattern occurs in its path
(`ScanSettings.Ignored`).  A pattern without a slash occurs in a path exactly if it occurs in one of
its names (`ignored_iff_hidden`), so that for such patterns a directory is ignored because of the
names on the way to it, whichever way that is.
-/

namespace CodeAtlas

namespace Text

theorem occursInChars_iff {needle xs : List Char} :
    occursInChars needle xs = true ↔ needle <:+: xs := by
  induction xs with
  | nil => rw [occursInChars, List.isEmpty_iff, List.infix_nil]
  | cons c rest ih =>
    rw [occursInChars, Bool.or_eq_true, List.isPrefixOf_iff_prefix, ih, List.infix_cons_iff]

/-- What begins a text, but lacks the separator, begins the part before the separator. -/
theorem prefix_append_cons_iff {sep : Char} {needle : List Char} (hsep : sep ∉ needle)
    (before after : List Char) : needle <+: before ++ sep :: after ↔ needle <+: before := by
  induction before generalizing needle with
  | nil =>
    cases needle with
    | nil => simp
    | cons c needle =>
      have hne : c ≠ sep := fun h => hsep (by simp [h])
      simp [List.cons_prefix_cons, hne]
  | cons first before ih =>
    cases needle with
    | nil => simp
    | cons c needle =>
      rw [List.cons_append, List.cons_prefix_cons, List.cons_prefix_cons,
        ih fun h => hsep (List.mem_cons_of_mem _ h)]

/-- What occurs in a text, but lacks the separator, occurs before or behind the separator. -/
theorem infix_append_cons_iff {sep : Char} {needle : List Char} (hsep : sep ∉ needle)
    (before after : List Char) :
    needle <:+: before ++ sep :: after ↔ needle <:+: before ∨ needle <:+: after := by
  induction before with
  | nil =>
    have hbegin := prefix_append_cons_iff hsep [] after
    rw [List.nil_append] at hbegin ⊢
    rw [List.infix_cons_iff, hbegin, List.prefix_nil, List.infix_nil]
  | cons first before ih =>
    have hbegin := prefix_append_cons_iff hsep (first :: before) after
    rw [List.cons_append] at hbegin ⊢
    rw [List.infix_cons_iff, hbegin, ih, List.infix_cons_iff, or_assoc]

end Text

namespace PathText

/-- What lacks a slash occurs in a path if it occurs in one of its names. -/
theorem infix_ofComponents_iff {needle : List Char} (hslash : '/' ∉ needle) {names : List String}
    (hne : names ≠ []) :
    needle <:+: (ofComponents names).toList ↔ ∃ name ∈ names, needle <:+: name.toList := by
  induction names with
  | nil => exact absurd rfl hne
  | cons name names ih =>
    cases names with
    | nil => simp [ofComponents_singleton]
    | cons next names =>
      rw [toList_ofComponents_cons_cons, Text.infix_append_cons_iff hslash,
        ih (List.cons_ne_nil _ _)]
      exact (List.exists_mem_cons_iff (needle <:+: ·.toList) name (next :: names)).symm

end PathText

namespace ScanSettings

variable {settings : ScanSettings}

/-- A directory is left out: its name is a pattern, or a pattern occurs in its path from the root
on. -/
def Ignored (settings : ScanSettings) (below : List String) : Prop :=
  ∃ pattern ∈ settings.ignorePatterns, below.getLast? = some pattern ∨
    pattern.toList <:+: (PathText.ofComponents below).toList

theorem ignores_iff {below : List String} :
    settings.ignores below = true ↔ settings.Ignored below := by
  simp [ignores, Ignored, Text.occursIn, Text.occursInChars_iff]

/-- No pattern has a slash. -/
def HasPlainPatterns (settings : ScanSettings) : Prop :=
  ∀ pattern ∈ settings.ignorePatterns, '/' ∉ pattern.toList

/-- A pattern occurs in a name. -/
def Hides (settings : ScanSettings) (name : String) : Prop :=
  ∃ pattern ∈ settings.ignorePatterns, pattern.toList <:+: name.toList

/-- Patterns without slashes are looked for in each name. -/
theorem ignored_iff_hidden (hplain : settings.HasPlainPatterns) {below : List String}
    (hne : below ≠ []) : settings.Ignored below ↔ ∃ name ∈ below, settings.Hides name := by
  constructor
  · rintro ⟨pattern, hpattern, hlast | hinfix⟩
    · exact ⟨pattern, List.mem_of_getLast? hlast, pattern, hpattern, List.infix_refl _⟩
    · rw [PathText.infix_ofComponents_iff (hplain pattern hpattern) hne] at hinfix
      obtain ⟨name, hname, hinfix⟩ := hinfix
      exact ⟨name, hname, pattern, hpattern, hinfix⟩
  · rintro ⟨name, hname, pattern, hpattern, hinfix⟩
    refine ⟨pattern, hpattern, Or.inr ?_⟩
    rw [PathText.infix_ofComponents_iff (hplain pattern hpattern) hne]
    exact ⟨name, hname, hinfix⟩

/-- The file of a name is looked for: it has one of the extensions, in letters of any case, and is
not too large. -/
def Selects (settings : ScanSettings) (name : String) (content : ByteArray) : Prop :=
  Text.lower (Path.suffixOf name) ∈ settings.extensions ∧
    (content.size : Int) ≤ settings.maxFileSize

theorem accepts_iff {name : String} {content : ByteArray} :
    settings.accepts name content.size = true ↔ settings.Selects name content := by
  simp [accepts, admits, Selects]

end ScanSettings

end CodeAtlas
