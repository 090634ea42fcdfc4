import CodeAtlas.Proofs.Json.Printing

/-!
# Printed values are ASCII

Whatever is printed for a value consists of characters of ASCII alone (`Json.isAscii_chars`): all
others are escaped (`Json.isAscii_escapeChar`), and numbers, words and marks have none.
-/

namespace CodeAtlas.Json

/-- A text of characters of ASCII alone. -/
def IsAscii (s : List Char) : Prop := ∀ c ∈ s, c.toNat < 0x80

instance (s : List Char) : Decidable (IsAscii s) :=
  List.decidableBAll (fun c : Char => c.toNat < 0x80) s

theorem IsAscii.append {s t : List Char} (hs : IsAscii s) (ht : IsAscii t) : IsAscii (s ++ t) :=
  fun c hc => (List.mem_append.mp hc).elim (hs c) (ht c)

theorem IsAscii.cons {c : Char} {s : List Char} (hc : c.toNat < 0x80) (hs : IsAscii s) :
    IsAscii (c :: s) := by
  intro d hd
  rcases List.mem_cons.mp hd with rfl | hd
  · exact hc
  · exact hs d hd

/-! ### Numbers -/

theorem isAscii_of_isDigit {s : List Char} (h : ∀ c ∈ s, c.isDigit = true) : IsAscii s := by
  intro c hc
  have hdigit := h c hc
  simp only [Char.isDigit, Bool.and_eq_true, decide_eq_true_eq] at hdigit
  have hle : c.toNat ≤ 57 := hdigit.2
  omega

theorem IsWhole.isAscii {s : List Char} (h : IsWhole s) : IsAscii s := by
  rcases h with rfl | ⟨h, -⟩
  · decide
  · exact isAscii_of_isDigit h.2

theorem SpellsNumber.isAscii {negative : Bool} {t : List Char} {v : Json}
    (h : SpellsNumber negative t v) : IsAscii t := by
  cases h with
  | integer hds => exact hds.isAscii
  | decimal hds hs ht =>
    refine (hds.isAscii.append ?_).append ?_
    · cases hs with
      | absent => decide
      | present h => exact .cons (by decide) (isAscii_of_isDigit h.2)
    · cases ht with
      | absent => decide
      | present hmark hsign hds =>
        refine .append (.cons ?_ ?_) (isAscii_of_isDigit hds.2)
        · rcases hmark with rfl | rfl <;> decide
        · cases hsign <;> decide

theorem isAscii_integer (n : Int) : IsAscii (integer n) := by
  have hwhole := (isWhole_toDigits n.natAbs).isAscii
  unfold integer
  split_ifs
  · exact .cons (by decide) hwhole
  · exact hwhole

theorem isAscii_shortestText (x : Binary64) :
    IsAscii (Decimal.shortestText (.finite x)).toList := by
  obtain ⟨text, htext, hnumber⟩ := exists_text_shortestText x
  rw [htext, String.toList_append]
  refine .append ?_ hnumber.isAscii
  split_ifs <;> decide

/-! ### Strings -/

theorem toNat_hexDigit_lt : ∀ n < 16, (hexDigit n).toNat < 0x80 := by decide

theorem isAscii_escapeUnit (n : Nat) : IsAscii (escapeUnit n) := by
  have hdigit : ∀ m, (hexDigit (m % 16)).toNat < 0x80 :=
    fun m => toNat_hexDigit_lt _ (Nat.mod_lt m (by decide))
  unfold escapeUnit hexUnit
  exact .cons (by decide) <| .cons (by decide) <| .cons (hdigit _) <| .cons (hdigit _) <|
    .cons (hdigit _) <| .cons (hdigit _) (by decide)

theorem isAscii_escapeChar (c : Char) : IsAscii (escapeChar c) := by
  unfold escapeChar
  split_ifs with hquote hslash hn hr ht hb hf hplain
  all_goals try decide
  · rw [Bool.and_eq_true, decide_eq_true_eq, decide_eq_true_eq] at hplain
    have hle : c.toNat ≤ 126 := hplain.2
    exact .cons (by omega) (by decide)
  · exact isAscii_escapeUnit _
  · exact (isAscii_escapeUnit _).append (isAscii_escapeUnit _)

theorem isAscii_quote (s : List Char) : IsAscii (quote s) := by
  refine .append (.cons (by decide) fun c hc => ?_) (by decide)
  obtain ⟨d, -, hd⟩ := List.mem_flatMap.mp hc
  exact isAscii_escapeChar d c hd

/-! ### Values -/

theorem Blank.isAscii {b : List Char} (h : Blank b) : IsAscii b := by
  intro c hc
  rcases h c hc with rfl | rfl | rfl | rfl <;> decide

theorem isAscii_separator (indent : Option Nat) (depth : Nat) :
    IsAscii (separator indent depth) := by
  obtain ⟨a, ha, hblank⟩ := exists_separator indent depth
  rw [ha]
  exact .cons (by decide) hblank.isAscii

theorem isAscii_itemChars {indent : Option Nat} {depth : Nat} {items : List Json}
    (h : ∀ v ∈ items, IsAscii (chars indent depth v)) : IsAscii (itemChars indent depth items) := by
  induction items with
  | nil => rw [itemChars]; decide
  | cons item items ih =>
    rw [itemChars]
    exact ((isAscii_separator indent depth).append (h item List.mem_cons_self)).append
      (ih fun v hv => h v (List.mem_cons_of_mem item hv))

theorem isAscii_memberChars {indent : Option Nat} {depth : Nat} {members : List (String × Json)}
    (h : ∀ m ∈ members, IsAscii (chars indent depth m.2)) :
    IsAscii (memberChars indent depth members) := by
  induction members with
  | nil => rw [memberChars]; decide
  | cons m members ih =>
    rw [memberChars]
    have hkey := ((isAscii_separator indent depth).append (isAscii_quote m.1.toList)).append
      (show IsAscii [':', ' '] by decide)
    exact (hkey.append (h m List.mem_cons_self)).append
      (ih fun m' hm' => h m' (List.mem_cons_of_mem m hm'))

/-- Values are written in characters of ASCII alone. -/
theorem isAscii_chars (indent : Option Nat) {v : Json} (h : v.Everywhere IsFinite) (depth : Nat) :
    IsAscii (chars indent depth v) := by
  have hbreak : ∀ depth, IsAscii (lineBreak indent depth) :=
    fun depth => (blank_lineBreak indent depth).isAscii
  induction v using Json.induction generalizing depth with
  | null => rw [chars]; decide
  | bool b =>
    rw [chars]
    cases b <;> decide
  | int n => exact isAscii_integer n
  | float x =>
    obtain ⟨y, rfl⟩ := h _ .self
    exact isAscii_shortestText y
  | str s => exact isAscii_quote s.toList
  | arr items ih =>
    have hfinite := (everywhere_arr.mp h).2
    have hchars : ∀ v ∈ items, IsAscii (chars indent (depth + 1) v) :=
      fun v hv => ih v hv (hfinite v hv) (depth + 1)
    cases items with
    | nil => rw [chars]; decide
    | cons item items =>
      rw [chars]
      refine .append (.append (.append (.append (.cons (by decide) (hbreak _)) ?_) ?_) (hbreak _))
        (by decide)
      · exact hchars item List.mem_cons_self
      · exact isAscii_itemChars fun v hv => hchars v (List.mem_cons_of_mem item hv)
  | obj members ih =>
    have hfinite := (everywhere_obj.mp h).2
    have hchars : ∀ m ∈ members, IsAscii (chars indent (depth + 1) m.2) :=
      fun m hm => ih m hm (hfinite m hm) (depth + 1)
    cases members with
    | nil => rw [chars]; decide
    | cons m members =>
      rw [chars]
      have hkey := ((IsAscii.cons (show '{'.toNat < 0x80 by decide) (hbreak (depth + 1))).append
        (isAscii_quote m.1.toList)).append (show IsAscii [':', ' '] by decide)
      refine .append (.append (.append (hkey.append ?_) ?_) (hbreak _)) (by decide)
      · exact hchars m List.mem_cons_self
      · exact isAscii_memberChars fun m' hm' => hchars m' (List.mem_cons_of_mem m hm')

end CodeAtlas.Json
