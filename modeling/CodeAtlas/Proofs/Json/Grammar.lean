import CodeAtlas.Json.Parser
import Mathlib.Data.List.TakeDrop
import Mathlib.Data.List.TakeWhile
import Mathlib.Data.String.Basic
import Mathlib.Tactic.SplitIfs

/-!
# The grammar of JSON

`Json.Denotes text value` says that the grammar of JSON derives a text, and for which value it
stands.  The text is as the grammar has it: blanks may stand around every mark, a number has no
zeros before its first digit, a character of a string is itself, a short escape, an escaped unit or
an escaped pair of units.  `Json.IsText text value` allows blanks around the whole.

Whatever the grammar derives is read as the value for which it stands (`parse?_of_isText`), so a
text stands for one value at most (`IsText.unique`).
-/

namespace CodeAtlas.Json

/-! ### The grammar -/

/-- The characters that may stand between the marks of a text. -/
def IsBlank (c : Char) : Prop := c = ' ' ∨ c = '\t' ∨ c = '\n' ∨ c = '\r'

instance (c : Char) : Decidable (IsBlank c) := inferInstanceAs (Decidable (_ ∨ _ ∨ _ ∨ _))

/-- A text of such characters alone. -/
def Blank (s : List Char) : Prop := ∀ c ∈ s, IsBlank c

/-- A text of decimal digits, at least one. -/
def IsDigits (s : List Char) : Prop := s ≠ [] ∧ ∀ c ∈ s, c.isDigit = true

/-- A zero alone, or digits of which the first is not zero. -/
def IsWhole (s : List Char) : Prop := s = ['0'] ∨ IsDigits s ∧ s.head? ≠ some '0'

/-- A fraction and its digits. -/
inductive SpellsFraction : List Char → List Char → Prop where
  | absent : SpellsFraction [] []
  | present {ds : List Char} (h : IsDigits ds) : SpellsFraction ('.' :: ds) ds

/-- The sign of an exponent. -/
inductive SpellsSign : List Char → Bool → Prop where
  | absent : SpellsSign [] false
  | plus : SpellsSign ['+'] false
  | minus : SpellsSign ['-'] true

/-- An exponent and its value. -/
inductive SpellsExponent : List Char → Option Int → Prop where
  | absent : SpellsExponent [] none
  | present {mark : Char} {sign ds : List Char} {negative : Bool}
      (hmark : mark = 'e' ∨ mark = 'E') (hsign : SpellsSign sign negative) (hds : IsDigits ds) :
      SpellsExponent (mark :: sign ++ ds)
        (some (if negative then -(natural ds : Int) else natural ds))

/-- A number behind its sign.  With neither a fraction nor an exponent it is an integer, otherwise
the floating-point number nearest to the decimal. -/
inductive SpellsNumber (negative : Bool) : List Char → Json → Prop where
  | integer {ds : List Char} (hds : IsWhole ds) :
      SpellsNumber negative ds (int (if negative then -(natural ds : Int) else natural ds))
  | decimal {ds s fs t : List Char} {e : Option Int} (hds : IsWhole ds) (hs : SpellsFraction s fs)
      (ht : SpellsExponent t e) (hsome : fs ≠ [] ∨ e ≠ none) :
      SpellsNumber negative (ds ++ s ++ t)
        (float (Double.ofDecimal negative (natural (ds ++ fs)) (e.getD 0 - fs.length)))

/-- The escape of the unit with the given digits. -/
def unitText (x y z w : Char) : List Char := ['\\', 'u', x, y, z, w]

/-- A piece of a string that stands for one character. -/
inductive SpellsChar : List Char → Char → Prop where
  | plain {c : Char} (hle : ' ' ≤ c) (hquote : c ≠ '"') (hslash : c ≠ '\\') : SpellsChar [c] c
  | short {letter c : Char} (h : shortEscape? letter = some c) : SpellsChar ['\\', letter] c
  | unit {x y z w c : Char} (h : unit? x y z w = some c.toNat) : SpellsChar (unitText x y z w) c
  | pair {x y z w x' y' z' w' c : Char} {high low : Nat} (hhigh : unit? x y z w = some high)
      (hlow : unit? x' y' z' w' = some low) (hhigh_mem : 0xd800 ≤ high ∧ high < 0xdc00)
      (hlow_mem : 0xdc00 ≤ low ∧ low < 0xe000)
      (hc : c.toNat = 0x10000 + (high - 0xd800) * 0x400 + (low - 0xdc00)) :
      SpellsChar (unitText x y z w ++ unitText x' y' z' w') c

/-- What stands between the quotes of a string, and its characters. -/
inductive Spells : List Char → List Char → Prop where
  | nil : Spells [] []
  | cons {t ts cs : List Char} {c : Char} (h : SpellsChar t c) (hs : Spells ts cs) :
      Spells (t ++ ts) (c :: cs)

mutual

/-- A text and the value for which it stands. -/
inductive Denotes : List Char → Json → Prop where
  | null : Denotes ['n', 'u', 'l', 'l'] null
  | true : Denotes ['t', 'r', 'u', 'e'] (bool true)
  | false : Denotes ['f', 'a', 'l', 's', 'e'] (bool false)
  | number {t : List Char} {v : Json} (h : SpellsNumber false t v) : Denotes t v
  | negative {t : List Char} {v : Json} (h : SpellsNumber true t v) : Denotes ('-' :: t) v
  | string {t : List Char} {s : String} (h : Spells t s.toList) :
      Denotes ('"' :: t ++ ['"']) (str s)
  | emptyArray {b : List Char} (h : Blank b) : Denotes ('[' :: b ++ [']']) (arr [])
  | array {t : List Char} {vs : List Json} (h : DenotesItems t vs) :
      Denotes ('[' :: t ++ [']']) (arr vs)
  | emptyObject {b : List Char} (h : Blank b) : Denotes ('{' :: b ++ ['}']) (obj [])
  | object {t : List Char} {ms : List (String × Json)} (h : DenotesMembers t ms) :
      Denotes ('{' :: t ++ ['}']) (obj ms)

/-- The items of an array with commas between them. -/
inductive DenotesItems : List Char → List Json → Prop where
  | last {a t b : List Char} {v : Json} (ha : Blank a) (h : Denotes t v) (hb : Blank b) :
      DenotesItems (a ++ t ++ b) [v]
  | cons {a t b ts : List Char} {v : Json} {vs : List Json} (ha : Blank a) (h : Denotes t v)
      (hb : Blank b) (hs : DenotesItems ts vs) : DenotesItems (a ++ t ++ b ++ ',' :: ts) (v :: vs)

/-- The members of an object with commas between them. -/
inductive DenotesMembers : List Char → List (String × Json) → Prop where
  | last {a k b c t d : List Char} {key : String} {v : Json} (ha : Blank a)
      (hk : Spells k key.toList) (hb : Blank b) (hc : Blank c) (h : Denotes t v) (hd : Blank d) :
      DenotesMembers (a ++ '"' :: k ++ '"' :: b ++ ':' :: c ++ t ++ d) [(key, v)]
  | cons {a k b c t d ts : List Char} {key : String} {v : Json} {ms : List (String × Json)}
      (ha : Blank a) (hk : Spells k key.toList) (hb : Blank b) (hc : Blank c) (h : Denotes t v)
      (hd : Blank d) (hs : DenotesMembers ts ms) :
      DenotesMembers (a ++ '"' :: k ++ '"' :: b ++ ':' :: c ++ t ++ d ++ ',' :: ts) ((key, v) :: ms)

end

/-- The whole of a text stands for a value, blanks around it aside. -/
def IsText (text : String) (v : Json) : Prop :=
  ∃ a t b, text.toList = a ++ t ++ b ∧ Blank a ∧ Denotes t v ∧ Blank b

/-! ### Blanks -/

theorem skipBlanks_blank_append {a : List Char} (ha : Blank a) (s : List Char) :
    skipBlanks (a ++ s) = skipBlanks s := by
  unfold skipBlanks
  apply List.dropWhile_append_of_pos
  intro c hc
  rcases ha c hc with rfl | rfl | rfl | rfl <;> rfl

theorem skipBlanks_cons {c : Char} (h : ¬ IsBlank c) (s : List Char) :
    skipBlanks (c :: s) = c :: s := by
  unfold skipBlanks
  apply List.dropWhile_cons_of_neg
  simpa [IsBlank, or_assoc] using h

/-! ### Numbers -/

/-- What stands behind digits does not go on with them. -/
def NoDigit (s : List Char) : Prop := ∀ c ∈ s.head?, c.isDigit = false

/-- What stands behind a number does not go on with it. -/
def Ends (s : List Char) : Prop :=
  ∀ c ∈ s.head?, c.isDigit = false ∧ c ≠ '.' ∧ c ≠ 'e' ∧ c ≠ 'E'

theorem Ends.noDigit {s : List Char} (h : Ends s) : NoDigit s := fun c hc => (h c hc).1

theorem ends_cons {c : Char} (hdigit : c.isDigit = false) (hc : c ≠ '.' ∧ c ≠ 'e' ∧ c ≠ 'E')
    (s : List Char) : Ends (c :: s) := by
  intro d hd
  obtain rfl := Option.some.inj hd
  exact ⟨hdigit, hc⟩

theorem digits_append {ds rest : List Char} (hds : ∀ c ∈ ds, c.isDigit = true)
    (hrest : NoDigit rest) : digits (ds ++ rest) = (ds, rest) := by
  unfold digits
  rw [List.span_eq_takeWhile_dropWhile, List.takeWhile_append_of_pos hds,
    List.dropWhile_append_of_pos hds]
  cases rest with
  | nil => rw [List.takeWhile_nil, List.dropWhile_nil, List.append_nil]
  | cons c rest =>
    have hc : ¬ c.isDigit = true := by
      rw [hrest c rfl]
      exact Bool.false_ne_true
    rw [List.takeWhile_cons_of_neg hc, List.dropWhile_cons_of_neg hc, List.append_nil]

theorem fraction_append {s fs rest : List Char} (hs : SpellsFraction s fs) (hdigit : NoDigit rest)
    (hpoint : rest.head? ≠ some '.') : fraction (s ++ rest) = (fs, rest) := by
  cases hs with
  | absent =>
    rw [List.nil_append]
    unfold fraction
    split
    · exact absurd rfl hpoint
    · rfl
  | present h =>
    obtain ⟨d, ds, rfl⟩ := List.exists_cons_of_ne_nil h.1
    have hread := digits_append h.2 hdigit
    rw [List.cons_append] at hread
    simp only [fraction, List.cons_append, hread]

theorem head_ne_of_isDigit {d c : Char} (hd : d.isDigit = true) (hc : c.isDigit = false) :
    d ≠ c := by
  rintro rfl
  rw [hc] at hd
  exact Bool.false_ne_true hd

theorem exponent_append {t rest : List Char} {e : Option Int} (ht : SpellsExponent t e)
    (hrest : Ends rest) : exponent (t ++ rest) = (e, rest) := by
  cases ht with
  | absent =>
    rw [List.nil_append]
    unfold exponent
    split
    · rename_i c rest
      obtain ⟨-, -, he, hE⟩ := hrest c rfl
      simp [he, hE]
    · rfl
  | @present mark sign ds negative hmark hsign hds =>
    have hread := digits_append hds.2 hrest.noDigit
    obtain ⟨d, ds, rfl⟩ := List.exists_cons_of_ne_nil hds.1
    have hd : d.isDigit = true := hds.2 d List.mem_cons_self
    have hminus : d ≠ '-' := head_ne_of_isDigit hd rfl
    have hplus : d ≠ '+' := head_ne_of_isDigit hd rfl
    have hmark' : (decide (mark = 'e') || decide (mark = 'E')) = true := by
      rcases hmark with rfl | rfl <;> rfl
    cases hsign <;> simp_all [exponent]

/-- The digits before the point are read first, then a fraction, then an exponent. -/
theorem number?_whole (negative : Bool) {ds s fs t : List Char} {e : Option Int} {rest : List Char}
    (hds : IsWhole ds) (hs : NoDigit s) (hfraction : fraction s = (fs, t))
    (hexponent : exponent t = (e, rest)) :
    number? negative (ds ++ s) =
      if fs.isEmpty && e.isNone then
        some (int (if negative then -(natural ds : Int) else natural ds), rest)
      else
        some (float (Double.ofDecimal negative (natural (ds ++ fs)) (e.getD 0 - fs.length)),
          rest) := by
  unfold number?
  rcases hds with rfl | ⟨hds, hzero⟩
  · simp only [List.cons_append, List.nil_append, hfraction, hexponent]
  · obtain ⟨d, ds, rfl⟩ := List.exists_cons_of_ne_nil hds.1
    -- This decides the match on the first digit.
    have hne : ∀ rest, d :: ds ++ s = '0' :: rest → False := by
      intro rest heq
      exact hzero (congrArg some (List.cons.inj heq).1)
    simp only [digits_append hds.2 hs, hfraction, hexponent]

theorem noDigit_fraction_exponent {s fs t rest : List Char} {e : Option Int}
    (hs : SpellsFraction s fs) (ht : SpellsExponent t e) (hrest : Ends rest) :
    NoDigit (s ++ (t ++ rest)) ∧ NoDigit (t ++ rest) ∧ (t ++ rest).head? ≠ some '.' := by
  have hbehind : NoDigit (t ++ rest) ∧ (t ++ rest).head? ≠ some '.' := by
    cases ht with
    | absent => exact ⟨hrest.noDigit, fun h => (hrest '.' h).2.1 rfl⟩
    | present hmark =>
      rcases hmark with rfl | rfl
      · exact ⟨by rintro c ⟨⟩; rfl, by rintro ⟨⟩⟩
      · exact ⟨by rintro c ⟨⟩; rfl, by rintro ⟨⟩⟩
  refine ⟨?_, hbehind⟩
  cases hs with
  | absent => exact hbehind.1
  | present => rintro c ⟨⟩; rfl

theorem number?_append {negative : Bool} {t rest : List Char} {v : Json}
    (h : SpellsNumber negative t v) (hrest : Ends rest) :
    number? negative (t ++ rest) = some (v, rest) := by
  cases h with
  | integer hds =>
    have hfraction : fraction rest = ([], rest) :=
      fraction_append .absent hrest.noDigit fun h => (hrest '.' h).2.1 rfl
    have hexponent : exponent rest = (none, rest) := exponent_append .absent hrest
    exact number?_whole negative hds hrest.noDigit hfraction hexponent
  | @decimal ds s fs t e hds hs ht hsome =>
    obtain ⟨hfraction, hexponent, hpoint⟩ := noDigit_fraction_exponent hs ht hrest
    rw [List.append_assoc, List.append_assoc,
      number?_whole negative hds hfraction (fraction_append hs hexponent hpoint)
        (exponent_append ht hrest)]
    rw [if_neg]
    rw [Bool.and_eq_true, List.isEmpty_iff, Option.isNone_iff_eq_none]
    rintro ⟨rfl, rfl⟩
    simp at hsome

/-! ### Strings -/

/-- No character has the number of one half of a pair. -/
theorem toNat_lt_or_le (c : Char) : c.toNat < 0xd800 ∨ 0xe000 ≤ c.toNat ∧ c.toNat < 0x110000 := by
  have hvalid : c.toNat < 0xd800 ∨ 0xdfff < c.toNat ∧ c.toNat < 0x110000 := c.valid
  omega

theorem joinPieces_unit (c : Char) (ps : List Piece) :
    joinPieces (.unit c.toNat :: ps) = c :: joinPieces ps := by
  have hvalid := toNat_lt_or_le c
  have hhigh : ¬ (0xd800 ≤ c.toNat ∧ c.toNat < 0xdc00) := by omega
  match ps with
  | [] => simp [joinPieces]
  | .char d :: ps => simp [joinPieces]
  | .unit low :: ps => rw [joinPieces, if_neg (by simp; omega), Char.ofNat_toNat]

theorem pieces?_spellsChar {t rest rest' : List Char} {c : Char} {ps : List Piece}
    (h : SpellsChar t c) (hrest : pieces? rest = some (ps, rest')) :
    ∃ qs, pieces? (t ++ rest) = some (qs, rest') ∧ joinPieces qs = c :: joinPieces ps := by
  cases h with
  | plain hle hquote hslash =>
    refine ⟨.char c :: ps, ?_, rfl⟩
    have hlt : ¬ c < ' ' := not_lt.mpr hle
    simp [pieces?, hslash, hlt, hrest, consPiece]
  | @short letter c h =>
    refine ⟨.char c :: ps, ?_, rfl⟩
    have hu : letter ≠ 'u' := by
      rintro rfl
      exact nomatch h
    simp [pieces?, hu, h, hrest, consPiece]
  | unit h =>
    refine ⟨.unit c.toNat :: ps, ?_, joinPieces_unit c ps⟩
    simp [pieces?, unitText, h, hrest, consPiece]
  | @pair x y z w x' y' z' w' c high low hhigh hlow hhigh_mem hlow_mem hc =>
    refine ⟨.unit high :: .unit low :: ps, ?_, ?_⟩
    · simp [pieces?, unitText, hhigh, hlow, hrest, consPiece]
    · rw [joinPieces, if_pos (by simpa using ⟨⟨hhigh_mem, hlow_mem.1⟩, hlow_mem.2⟩), ← hc,
        Char.ofNat_toNat]

theorem pieces?_spells {t cs : List Char} (h : Spells t cs) (rest : List Char) :
    ∃ ps, pieces? (t ++ '"' :: rest) = some (ps, rest) ∧ joinPieces ps = cs := by
  induction h with
  | nil => exact ⟨[], by rw [List.nil_append, pieces?], rfl⟩
  | @cons t ts cs c h hs ih =>
    obtain ⟨ps, hps, hjoin⟩ := ih
    obtain ⟨qs, hqs, hjoin'⟩ := pieces?_spellsChar h hps
    exact ⟨qs, by rw [List.append_assoc, hqs], by rw [hjoin', hjoin]⟩

theorem string?_append {t : List Char} {s : String} (h : Spells t s.toList) (rest : List Char) :
    string? (t ++ '"' :: rest) = some (s, rest) := by
  obtain ⟨ps, hps, hjoin⟩ := pieces?_spells h rest
  rw [string?, hps, ← String.ofList_toList (s := s), ← hjoin]
  rfl

/-! ### Values without parts -/

/-- A digit begins no other kind of value than a number. -/
theorem scalar?_digit {d : Char} (hd : d.isDigit = true) (s : List Char) :
    scalar? (d :: s) = number? false (d :: s) := by
  unfold scalar?
  split
  case h_9 => rfl
  all_goals
    rename_i heq
    obtain ⟨rfl, -⟩ := List.cons.inj heq
    exact nomatch hd

theorem SpellsNumber.exists_cons {negative : Bool} {t : List Char} {v : Json}
    (h : SpellsNumber negative t v) : ∃ d s, t = d :: s ∧ d.isDigit = true := by
  have hwhole : ∀ {ds}, IsWhole ds → ∃ d s, ds = d :: s ∧ d.isDigit = true := by
    rintro ds (rfl | ⟨hds, -⟩)
    · exact ⟨'0', [], rfl, rfl⟩
    · obtain ⟨d, s, rfl⟩ := List.exists_cons_of_ne_nil hds.1
      exact ⟨d, s, rfl, hds.2 d List.mem_cons_self⟩
  cases h with
  | integer hds => exact hwhole hds
  | decimal hds =>
    obtain ⟨d, s, rfl, hd⟩ := hwhole hds
    exact ⟨d, _, rfl, hd⟩

theorem scalar?_minus_digit {d : Char} (hd : d.isDigit = true) (s : List Char) :
    scalar? ('-' :: d :: s) = number? true (d :: s) := by
  have hd' : d ≠ 'I' := head_ne_of_isDigit hd rfl
  simp [scalar?, hd']

/-! ### Arrays and objects -/

/-- The character with which a value begins ends neither blanks nor an array. -/
def Begins (c : Char) : Prop := ¬ IsBlank c ∧ c ≠ ']'

instance (c : Char) : Decidable (Begins c) :=
  inferInstanceAs (Decidable (_ ∧ _))

theorem begins_digit {d : Char} (hd : d.isDigit = true) : Begins d := by
  refine ⟨?_, head_ne_of_isDigit hd rfl⟩
  rintro (rfl | rfl | rfl | rfl) <;> exact nomatch hd

theorem Denotes.exists_cons {t : List Char} {v : Json} (h : Denotes t v) :
    ∃ c s, t = c :: s ∧ Begins c := by
  cases h with
  | number h =>
    obtain ⟨d, s, rfl, hd⟩ := h.exists_cons
    exact ⟨d, s, rfl, begins_digit hd⟩
  | null | true | false | negative | string | emptyArray | array | emptyObject | object =>
    exact ⟨_, _, rfl, by decide⟩

/-- Blanks before a value are skipped, and nothing else. -/
theorem skipBlanks_denotes {a t : List Char} {v : Json} (ha : Blank a) (h : Denotes t v)
    (rest : List Char) : skipBlanks (a ++ (t ++ rest)) = t ++ rest := by
  obtain ⟨c, s, rfl, hc⟩ := h.exists_cons
  rw [skipBlanks_blank_append ha, List.cons_append, skipBlanks_cons hc.1]

theorem skipBlanks_mark {a : List Char} {c : Char} (ha : Blank a) (hc : ¬ IsBlank c)
    (rest : List Char) : skipBlanks (a ++ c :: rest) = c :: rest := by
  rw [skipBlanks_blank_append ha, skipBlanks_cons hc]

theorem Ends.blank_append {b rest : List Char} (hrest : Ends rest) (hb : Blank b) :
    Ends (b ++ rest) := by
  cases b with
  | nil => exact hrest
  | cons d b =>
    rcases hb d List.mem_cons_self with rfl | rfl | rfl | rfl <;> exact ends_cons rfl (by decide) _

theorem value?_scalar {c : Char} (harray : c ≠ '[') (hobject : c ≠ '{') (fuel : Nat)
    (s : List Char) : value? (fuel + 1) (c :: s) = scalar? (c :: s) := by
  simp [value?, harray, hobject]

theorem value?_array {c : Char} {s t : List Char} (hskip : skipBlanks t = c :: s) (hc : c ≠ ']')
    (fuel : Nat) : value? (fuel + 1) ('[' :: t) = items? fuel [] (c :: s) := by
  simp [value?, hskip, hc]

theorem value?_object {c : Char} {s t : List Char} (hskip : skipBlanks t = c :: s) (hc : c ≠ '}')
    (fuel : Nat) : value? (fuel + 1) ('{' :: t) = members? fuel [] (c :: s) := by
  simp [value?, hskip, hc]

theorem items?_last {fuel : Nat} {found : List Json} {s r rest : List Char} {v : Json}
    (hvalue : value? fuel s = some (v, r)) (hskip : skipBlanks r = ']' :: rest) :
    items? (fuel + 1) found s = some (arr (found.reverse ++ [v]), rest) := by
  simp [items?, hvalue, hskip]

theorem items?_comma {fuel : Nat} {found : List Json} {s r rest : List Char} {v : Json}
    (hvalue : value? fuel s = some (v, r)) (hskip : skipBlanks r = ',' :: rest) :
    items? (fuel + 1) found s = items? fuel (v :: found) (skipBlanks rest) := by
  simp [items?, hvalue, hskip]

section Members

variable {fuel : Nat} {found : List (String × Json)} {k s r rest : List Char} {key : String}
  {v : Json}

theorem members?_last (hkey : string? k = some (key, s)) {t : List Char}
    (hcolon : skipBlanks s = ':' :: t) (hvalue : value? fuel (skipBlanks t) = some (v, r))
    (hskip : skipBlanks r = '}' :: rest) :
    members? (fuel + 1) found ('"' :: k) = some (obj (found.reverse ++ [(key, v)]), rest) := by
  simp [members?, hkey, hcolon, hvalue, hskip]

theorem members?_comma (hkey : string? k = some (key, s)) {t : List Char}
    (hcolon : skipBlanks s = ':' :: t) (hvalue : value? fuel (skipBlanks t) = some (v, r))
    (hskip : skipBlanks r = ',' :: rest) :
    members? (fuel + 1) found ('"' :: k)
      = members? fuel ((key, v) :: found) (skipBlanks rest) := by
  simp [members?, hkey, hcolon, hvalue, hskip]

end Members

theorem DenotesItems.exists_append {t : List Char} {vs : List Json} (h : DenotesItems t vs) :
    ∃ a c s, t = a ++ c :: s ∧ Blank a ∧ Begins c := by
  cases h with
  | @last a _ b _ ha h | @cons a _ b _ _ _ ha h =>
    obtain ⟨c, s, rfl, hc⟩ := h.exists_cons
    exact ⟨a, c, _, by simp only [List.append_assoc, List.cons_append]; rfl, ha, hc⟩

theorem DenotesMembers.exists_append {t : List Char} {ms : List (String × Json)}
    (h : DenotesMembers t ms) : ∃ a s, t = a ++ '"' :: s ∧ Blank a := by
  cases h with
  | @last a _ _ _ _ _ _ _ ha | @cons a _ _ _ _ _ _ _ _ _ ha =>
    exact ⟨a, _, by simp only [List.append_assoc, List.cons_append]; rfl, ha⟩

/-- The words for values without parts. -/
theorem word?_append (w : String) (v : Json) (rest : List Char) :
    word? w v (w.toList ++ rest) = some (v, rest) := by
  rw [word?, if_pos, ← String.length_toList, List.drop_left]
  simp

mutual

/-- A value is read, given fuel for each of its characters. -/
theorem value?_of_denotes {t : List Char} {v : Json} (h : Denotes t v) {rest : List Char}
    (hrest : Ends rest) {fuel : Nat} (hfuel : t.length < fuel) :
    value? fuel (t ++ rest) = some (v, rest) := by
  obtain ⟨fuel, rfl⟩ : ∃ n, fuel = n + 1 := ⟨fuel - 1, by omega⟩
  cases h with
  | null =>
    rw [List.cons_append, value?_scalar (by decide) (by decide)]
    exact word?_append "null" null rest
  | true =>
    rw [List.cons_append, value?_scalar (by decide) (by decide)]
    exact word?_append "true" (bool true) rest
  | false =>
    rw [List.cons_append, value?_scalar (by decide) (by decide)]
    exact word?_append "false" (bool false) rest
  | number h =>
    obtain ⟨d, s, rfl, hd⟩ := h.exists_cons
    rw [List.cons_append, value?_scalar (head_ne_of_isDigit hd rfl) (head_ne_of_isDigit hd rfl),
      scalar?_digit hd]
    exact number?_append h hrest
  | negative h =>
    obtain ⟨d, s, rfl, hd⟩ := h.exists_cons
    rw [List.cons_append, value?_scalar (by decide) (by decide), List.cons_append,
      scalar?_minus_digit hd]
    exact number?_append h hrest
  | string h =>
    rw [List.append_assoc, List.cons_append, value?_scalar (by decide) (by decide), scalar?,
      List.singleton_append, string?_append h rest]
    rfl
  | emptyArray h =>
    rw [List.append_assoc, List.cons_append, value?, List.singleton_append,
      skipBlanks_mark h (by decide)]
    rfl
  | @array t vs h =>
    obtain ⟨a, c, s, hcons, ha, hc⟩ := h.exists_append
    have hskip : skipBlanks (t ++ ']' :: rest) = c :: (s ++ ']' :: rest) := by
      rw [hcons, List.append_assoc, List.cons_append, skipBlanks_mark ha hc.1]
    rw [List.length_append, List.length_cons, List.length_singleton] at hfuel
    rw [List.append_assoc, List.cons_append, List.singleton_append, value?_array hskip hc.2,
      ← hskip, items?_of_denotesItems h (by omega)]
    rfl
  | emptyObject h =>
    rw [List.append_assoc, List.cons_append, value?, List.singleton_append,
      skipBlanks_mark h (by decide)]
    rfl
  | @object t ms h =>
    obtain ⟨a, s, hcons, ha⟩ := h.exists_append
    have hskip : skipBlanks (t ++ '}' :: rest) = '"' :: (s ++ '}' :: rest) := by
      rw [hcons, List.append_assoc, List.cons_append, skipBlanks_mark ha (by decide)]
    rw [List.length_append, List.length_cons, List.length_singleton] at hfuel
    rw [List.append_assoc, List.cons_append, List.singleton_append,
      value?_object hskip (by decide), ← hskip, members?_of_denotesMembers h (by omega)]
    rfl

/-- The items of an array are read up to its closing bracket. -/
theorem items?_of_denotesItems {t : List Char} {vs : List Json} (h : DenotesItems t vs)
    {rest : List Char} {fuel : Nat} {found : List Json} (hfuel : t.length + 1 < fuel) :
    items? fuel found (skipBlanks (t ++ ']' :: rest)) = some (arr (found.reverse ++ vs), rest) := by
  obtain ⟨fuel, rfl⟩ : ∃ n, fuel = n + 1 := ⟨fuel - 1, by omega⟩
  cases h with
  | @last a t b v ha h hb =>
    simp only [List.length_append] at hfuel
    simp only [List.append_assoc, skipBlanks_denotes ha h]
    have hends : Ends (b ++ ']' :: rest) := (ends_cons rfl (by decide) rest).blank_append hb
    exact items?_last (value?_of_denotes h hends (by omega)) (skipBlanks_mark hb (by decide) rest)
  | @cons a t b ts v vs ha h hb hs =>
    simp only [List.length_append, List.length_cons] at hfuel
    simp only [List.append_assoc, List.cons_append, skipBlanks_denotes ha h]
    have hends : Ends (b ++ ',' :: (ts ++ ']' :: rest)) :=
      (ends_cons rfl (by decide) _).blank_append hb
    rw [items?_comma (value?_of_denotes h hends (by omega)) (skipBlanks_mark hb (by decide) _),
      items?_of_denotesItems hs (by omega), List.reverse_cons, List.append_assoc]
    rfl

/-- The members of an object are read up to its closing brace. -/
theorem members?_of_denotesMembers {t : List Char} {ms : List (String × Json)}
    (h : DenotesMembers t ms) {rest : List Char} {fuel : Nat} {found : List (String × Json)}
    (hfuel : t.length + 1 < fuel) :
    members? fuel found (skipBlanks (t ++ '}' :: rest))
      = some (obj (found.reverse ++ ms), rest) := by
  obtain ⟨fuel, rfl⟩ : ∃ n, fuel = n + 1 := ⟨fuel - 1, by omega⟩
  cases h with
  | @last a k b c t d key v ha hk hb hc h hd =>
    simp only [List.length_append, List.length_cons] at hfuel
    simp only [List.append_assoc, List.cons_append]
    have hends : Ends (d ++ '}' :: rest) := (ends_cons rfl (by decide) rest).blank_append hd
    have hvalue : value? fuel (skipBlanks (c ++ (t ++ (d ++ '}' :: rest))))
        = some (v, d ++ '}' :: rest) := by
      rw [skipBlanks_denotes hc h]
      exact value?_of_denotes h hends (by omega)
    rw [skipBlanks_mark ha (by decide)]
    exact members?_last (string?_append hk _) (skipBlanks_mark hb (by decide) _) hvalue
      (skipBlanks_mark hd (by decide) rest)
  | @cons a k b c t d ts key v ms ha hk hb hc h hd hs =>
    simp only [List.length_append, List.length_cons] at hfuel
    simp only [List.append_assoc, List.cons_append]
    have hends : Ends (d ++ ',' :: (ts ++ '}' :: rest)) :=
      (ends_cons rfl (by decide) _).blank_append hd
    have hvalue : value? fuel (skipBlanks (c ++ (t ++ (d ++ ',' :: (ts ++ '}' :: rest)))))
        = some (v, d ++ ',' :: (ts ++ '}' :: rest)) := by
      rw [skipBlanks_denotes hc h]
      exact value?_of_denotes h hends (by omega)
    rw [skipBlanks_mark ha (by decide),
      members?_comma (string?_append hk _) (skipBlanks_mark hb (by decide) _) hvalue
        (skipBlanks_mark hd (by decide) _),
      members?_of_denotesMembers hs (by omega), List.reverse_cons, List.append_assoc]
    rfl

end

/-- Whatever the grammar derives is read as the value for which it stands. -/
theorem parse?_of_isText {text : String} {v : Json} (h : IsText text v) :
    parse? text = some v := by
  obtain ⟨a, t, b, htext, ha, ht, hb⟩ := h
  have hskip : skipBlanks text.toList = t ++ b := by
    rw [htext, List.append_assoc, skipBlanks_denotes ha ht]
  have hends : Ends b := by
    rw [← List.append_nil b]
    exact Ends.blank_append (fun c hc => nomatch hc) hb
  have hblank : skipBlanks b = [] := by
    rw [← List.append_nil b, skipBlanks_blank_append hb]
    rfl
  unfold parse?
  dsimp only
  rw [hskip, value?_of_denotes ht hends (by rw [List.length_append]; omega)]
  simp [hblank]

/-- A text stands for one value at most. -/
theorem IsText.unique {text : String} {v w : Json} (hv : IsText text v) (hw : IsText text w) :
    v = w :=
  Option.some.inj ((parse?_of_isText hv).symm.trans (parse?_of_isText hw))

end CodeAtlas.Json
