import CodeAtlas.Console.Markup
import Mathlib.Data.List.Infix
import Mathlib.Data.List.TakeWhile

/-!
# Texts that are shown as they are

A text for the console says what is shown and how: tags and names of emoji in it are not shown, a
backslash before a bracket is taken away, and some control characters are left out.  A text without
any of these is shown as it is (`Markup.plain_of_isInert`).  For a text without colons, in which no
emoji can be named, this is the only case (`Markup.plain_eq_self_iff`): a tag is always lost.
-/

namespace CodeAtlas

namespace Text

/-! ### Replacing -/

variable {needle by_ cs : List Char}

theorem replaceChars_eq_self (h : ¬ needle <:+: cs) : replaceChars needle by_ 0 cs = cs := by
  induction cs with
  | nil => rfl
  | cons c rest ih =>
    rw [List.infix_cons_iff, not_or] at h
    have hhere : ¬ needle.isPrefixOf (c :: rest) = true := by
      rw [List.isPrefixOf_iff_prefix]
      exact h.1
    rw [replaceChars, if_neg hhere, ih h.2]

theorem mem_replaceChars {skip : Nat} {c : Char} (h : c ∈ replaceChars needle by_ skip cs) :
    c ∈ by_ ∨ c ∈ cs := by
  induction cs generalizing skip with
  | nil => cases skip <;> cases h
  | cons d rest ih =>
    cases skip with
    | succ skip => exact (ih h).imp_right (List.mem_cons_of_mem d)
    | zero =>
      rw [replaceChars] at h
      split_ifs at h
      · rcases List.mem_append.mp h with hby | hrest
        · exact Or.inl hby
        · exact (ih hrest).imp_right (List.mem_cons_of_mem d)
      · rcases List.mem_cons.mp h with rfl | hrest
        · exact Or.inr List.mem_cons_self
        · exact (ih hrest).imp_right (List.mem_cons_of_mem d)

/-- Replacing by something no longer makes no text longer. -/
theorem length_replaceChars_le (hle : by_.length ≤ needle.length) (hne : needle ≠ []) (skip : Nat) :
    (replaceChars needle by_ skip cs).length ≤ cs.length - skip := by
  have hpos : 0 < needle.length := List.length_pos_iff.mpr hne
  induction cs generalizing skip with
  | nil => simp [replaceChars]
  | cons c rest ih =>
    cases skip with
    | succ skip =>
      rw [replaceChars, List.length_cons, Nat.add_sub_add_right]
      exact ih skip
    | zero =>
      rw [replaceChars]
      split_ifs with hprefix
      · have hfits := (List.isPrefixOf_iff_prefix.mp hprefix).length_le
        have hrest := ih (needle.length - 1)
        rw [List.length_cons] at hfits ⊢
        rw [List.length_append]
        omega
      · have hrest := ih 0
        rw [List.length_cons, List.length_cons]
        omega

theorem length_replaceChars_lt (hlt : by_.length < needle.length) (h : needle <:+: cs) :
    (replaceChars needle by_ 0 cs).length < cs.length := by
  have hne : needle ≠ [] := List.length_pos_iff.mp (Nat.zero_lt_of_lt hlt)
  induction cs with
  | nil => exact absurd (List.infix_nil.mp h) hne
  | cons c rest ih =>
    rw [replaceChars]
    split_ifs with hprefix
    · have hfits := (List.isPrefixOf_iff_prefix.mp hprefix).length_le
      have hrest := @length_replaceChars_le needle by_ rest hlt.le hne (needle.length - 1)
      rw [List.length_cons] at hfits ⊢
      rw [List.length_append]
      omega
    · rw [List.infix_cons_iff, ← List.isPrefixOf_iff_prefix] at h
      have hrest := ih (h.resolve_left hprefix)
      rw [List.length_cons, List.length_cons]
      omega

/-- What ends the longest beginning that satisfies a condition comes next. -/
theorem takeWhile_append_of_head? {p : Char → Bool} {cs : List Char} {c : Char}
    (h : (cs.drop (cs.takeWhile p).length).head? = some c) :
    ∃ after, cs = cs.takeWhile p ++ c :: after := by
  obtain ⟨after, hafter⟩ := List.head?_eq_some_iff.mp h
  have hsplit := List.prefix_iff_eq_append.mp (List.takeWhile_prefix (l := cs) p)
  exact ⟨after, by rw [← hafter, hsplit]⟩

/-- What a character ends that is not in the last part of a text has its end before that part. -/
theorem exists_append_of_not_mem {before after cs tail : List Char} {c : Char}
    (h : before ++ c :: after = cs ++ tail) (hc : c ∉ tail) : ∃ rest, cs = before ++ c :: rest := by
  rcases List.append_eq_append_iff.mp h with ⟨rest, rfl, hrest⟩ | ⟨rest, -, rfl⟩
  · cases rest with
    | nil =>
      rw [List.nil_append] at hrest
      exact absurd (hrest ▸ List.mem_cons_self) hc
    | cons d rest =>
      obtain ⟨rfl, -⟩ := List.cons.inj hrest
      exact ⟨rest, rfl⟩
  · exact absurd (List.mem_append_right rest List.mem_cons_self) hc

end Text

namespace Console

open CodeAtlas.Text

namespace Emoji

/-! ### Names of emoji -/

/-- What stands between the colons with which a text begins, if it could name an emoji. -/
def code? : List Char → Option (List Char)
  | ':' :: rest =>
    let code := rest.takeWhile fun d => !isBlank d && d != ':'
    if (rest.drop code.length).head? == some ':' then some code else none
  | _ => none

/-- What a code is: a colon, characters other than blanks and colons, and a colon. -/
theorem code?_eq_some_iff {s code : List Char} :
    code? s = some code ↔ ∃ rest, s = ':' :: (code ++ ':' :: rest) ∧
      ∀ d ∈ code, isBlank d = false ∧ d ≠ ':' := by
  constructor
  · intro h
    unfold code? at h
    split at h
    · rename_i rest
      dsimp only at h
      split_ifs at h with hcolon
      obtain rfl := Option.some.inj h
      obtain ⟨after, hafter⟩ := takeWhile_append_of_head? (beq_iff_eq.mp hcolon)
      refine ⟨after, ?_, fun d hd => ?_⟩
      · rw [← hafter]
      · have hinner := List.mem_takeWhile_imp hd
        simpa using hinner
    · cases h
  · rintro ⟨rest, rfl, hcode⟩
    have hinner : (code ++ ':' :: rest).takeWhile (fun d => !isBlank d && d != ':') = code := by
      rw [List.takeWhile_append_of_pos]
      · simp
      · intro d hd
        simpa using hcode d hd
    simp [code?, hinner]

theorem code?_cons_of_ne {c : Char} (h : c ≠ ':') (rest : List Char) :
    code? (c :: rest) = none := by
  cases hcode : code? (c :: rest) with
  | none => rfl
  | some code =>
    obtain ⟨after, heq, -⟩ := code?_eq_some_iff.mp hcode
    exact absurd (List.cons.inj heq).1 h

/-- No emoji is named in the text, of those that `emoji` has for codes. -/
def NamesNone (emoji : List Char → Option (List Char)) (cs : List Char) : Prop :=
  ∀ s ∈ cs.tails, (code? s).bind emoji = none

instance (emoji : List Char → Option (List Char)) (cs : List Char) :
    Decidable (NamesNone emoji cs) :=
  inferInstanceAs (Decidable (∀ s ∈ cs.tails, (code? s).bind emoji = none))

theorem namesNone_iff {emoji : List Char → Option (List Char)} {cs : List Char} :
    NamesNone emoji cs ↔ ∀ s, s <:+ cs → (code? s).bind emoji = none :=
  forall_congr' fun s => by rw [List.mem_tails]

variable {emoji : List Char → Option (List Char)}

theorem NamesNone.of_suffix {cs s : List Char} (h : NamesNone emoji cs) (hs : s <:+ cs) :
    NamesNone emoji s :=
  namesNone_iff.mpr fun t ht => namesNone_iff.mp h t (ht.trans hs)

theorem NamesNone.cons {c : Char} {cs : List Char} (h : NamesNone emoji cs) (hcolon : c ≠ ':') :
    NamesNone emoji (c :: cs) := by
  rw [namesNone_iff] at h ⊢
  intro s hs
  rcases List.suffix_cons_iff.mp hs with rfl | hs
  · rw [code?_cons_of_ne hcolon, Option.bind_none]
  · exact h s hs

/-- A name is not begun before a text without colons and ended in it. -/
theorem NamesNone.append {cs tail : List Char} (h : NamesNone emoji cs) (hcolon : ':' ∉ tail) :
    NamesNone emoji (cs ++ tail) := by
  rw [namesNone_iff] at h ⊢
  rintro s ⟨before, hbefore⟩
  cases hcode : code? s with
  | none => rfl
  | some code =>
    -- The colons of a code are both in `cs`, so the code is.
    obtain ⟨rest, rfl, hinner⟩ := code?_eq_some_iff.mp hcode
    have htext : (before ++ ':' :: code) ++ ':' :: rest = cs ++ tail := by simpa using hbefore
    obtain ⟨u, rfl⟩ := exists_append_of_not_mem htext hcolon
    have hnone := h (':' :: (code ++ ':' :: u)) ⟨before, by simp⟩
    rwa [code?_eq_some_iff.mpr ⟨u, rfl, hinner⟩] at hnone

theorem namesNone_of_not_mem {cs : List Char} (h : ':' ∉ cs) : NamesNone emoji cs := by
  have hnil : NamesNone emoji [] := namesNone_iff.mpr fun s hs => by rw [List.suffix_nil.mp hs]; rfl
  exact hnil.append h

/-- What is done at one place of the text. -/
theorem replaceFrom_zero_cons (c : Char) (rest : List Char) :
    replaceFrom 0 (c :: rest) = match code? (c :: rest) with
      | some code => (match ofCode? code with
          | some emoji => emoji
          | none => ':' :: (code ++ [':'])) ++ replaceFrom (code.length + 1) rest
      | none => c :: replaceFrom 0 rest := by
  by_cases hc : c = ':'
  · subst hc
    rw [replaceFrom, code?, decide_eq_true (rfl : ':' = ':'), Bool.true_and]
    by_cases hcolon : ((rest.drop (rest.takeWhile fun d => !isBlank d && d != ':').length).head?
        == some ':') = true
    · cases hcode : ofCode? (rest.takeWhile fun d => !isBlank d && d != ':') with
      | none => simp only [if_pos hcolon, hcode]
      | some emoji => simp only [if_pos hcolon, hcode]
    · simp only [if_neg hcolon]
  · rw [replaceFrom, code?_cons_of_ne hc]
    simp only [hc, decide_false, Bool.false_and, Bool.false_eq_true, if_false]

theorem replaceFrom_eq_drop {cs : List Char} (h : NamesNone ofCode? cs) (skip : Nat) :
    replaceFrom skip cs = cs.drop skip := by
  induction cs generalizing skip with
  | nil => cases skip <;> rfl
  | cons c rest ih =>
    have hrest : NamesNone ofCode? rest := h.of_suffix (List.suffix_cons c rest)
    cases skip with
    | succ skip => exact ih hrest skip
    | zero =>
      rw [replaceFrom_zero_cons]
      cases hcode : code? (c :: rest) with
      | none => exact congrArg (c :: ·) (ih hrest 0)
      | some code =>
        have hnone := h (c :: rest) ((List.mem_tails _ _).mpr (List.suffix_refl _))
        rw [hcode, Option.bind_some] at hnone
        obtain ⟨after, heq, -⟩ := code?_eq_some_iff.mp hcode
        obtain ⟨rfl, rfl⟩ := List.cons.inj heq
        dsimp only
        rw [hnone, ih hrest]
        simp

/-- A text in which no emoji is named stays as it is. -/
theorem replace_eq_self {cs : List Char} (h : NamesNone ofCode? cs) : replace cs = cs :=
  replaceFrom_eq_drop h 0

end Emoji

namespace Markup

/-! ### Tags -/

/-- At no place of the text there is a tag. -/
def HasNoTag (cs : List Char) : Prop := ∀ s ∈ cs.tails, tag? s = none

instance (cs : List Char) : Decidable (HasNoTag cs) :=
  inferInstanceAs (Decidable (∀ s ∈ cs.tails, tag? s = none))

theorem hasNoTag_iff {cs : List Char} : HasNoTag cs ↔ ∀ s, s <:+ cs → tag? s = none :=
  forall_congr' fun s => by rw [List.mem_tails]

/-- What a tag is: a bracket, a character that may begin a tag, no brackets, and a closing bracket.
-/
theorem tag?_eq_some_iff {s inner : List Char} :
    tag? s = some inner ↔ ∃ c mid rest, inner = c :: mid ∧ s = '[' :: c :: (mid ++ ']' :: rest) ∧
      opensTag c = true ∧ ∀ d ∈ mid, d ≠ ']' ∧ d ≠ '[' := by
  constructor
  · intro h
    unfold tag? at h
    split at h
    · rename_i c rest
      dsimp only at h
      split_ifs at h with htag
      rw [Bool.and_eq_true, beq_iff_eq] at htag
      obtain ⟨after, hafter⟩ := takeWhile_append_of_head? htag.2
      refine ⟨c, _, after, (Option.some.inj h).symm, ?_, htag.1, fun d hd => ?_⟩
      · rw [← hafter]
      · have hinner := List.mem_takeWhile_imp hd
        simpa using hinner
    · cases h
  · rintro ⟨c, mid, rest, rfl, rfl, hc, hmid⟩
    have hinner : (mid ++ ']' :: rest).takeWhile (fun d => d != ']' && d != '[') = mid := by
      rw [List.takeWhile_append_of_pos]
      · simp
      · intro d hd
        simpa using hmid d hd
    simp [tag?, hinner, hc]

theorem tag?_cons_of_ne {c : Char} (h : c ≠ '[') (rest : List Char) : tag? (c :: rest) = none := by
  cases htag : tag? (c :: rest) with
  | none => rfl
  | some inner =>
    obtain ⟨d, mid, after, -, heq, -⟩ := tag?_eq_some_iff.mp htag
    exact absurd (List.cons.inj heq).1 h

/-- A tag is not begun before a text without closing brackets and ended in it. -/
theorem HasNoTag.append {cs tail : List Char} (h : HasNoTag cs) (hclose : ']' ∉ tail) :
    HasNoTag (cs ++ tail) := by
  rw [hasNoTag_iff] at h ⊢
  rintro s ⟨before, hbefore⟩
  cases htag : tag? s with
  | none => rfl
  | some inner =>
    obtain ⟨c, mid, rest, rfl, rfl, hc, hmid⟩ := tag?_eq_some_iff.mp htag
    -- The text from the tag on begins in `cs`, so its bracket is closed there.
    have htext : (before ++ '[' :: c :: mid) ++ ']' :: rest = cs ++ tail := by simpa using hbefore
    obtain ⟨u, rfl⟩ := exists_append_of_not_mem htext hclose
    have hnone := h ('[' :: c :: (mid ++ ']' :: u)) ⟨before, by simp⟩
    rw [tag?_eq_some_iff.mpr ⟨c, mid, u, rfl, rfl, hc, hmid⟩] at hnone
    cases hnone

theorem HasNoTag.cons {c : Char} {cs : List Char} (h : HasNoTag cs) (hopen : c ≠ '[') :
    HasNoTag (c :: cs) := by
  rw [hasNoTag_iff] at h ⊢
  intro s hs
  rcases List.suffix_cons_iff.mp hs with rfl | hs
  · exact tag?_cons_of_ne hopen cs
  · exact h s hs

theorem hasNoTag_of_not_mem {cs : List Char} (hopen : '[' ∉ cs) : HasNoTag cs := by
  induction cs with
  | nil => decide
  | cons c rest ih =>
    rw [List.mem_cons, not_or] at hopen
    exact (ih hopen.2).cons (Ne.symm hopen.1)

/-- A text without tags is one part. -/
theorem partsFrom_of_hasNoTag {cs : List Char} (h : HasNoTag cs) (before : List Char)
    (position : Nat) : partsFrom before position 0 cs = textPart (before ++ cs) := by
  induction cs generalizing before position with
  | nil => rw [partsFrom, List.append_nil]
  | cons c rest ih =>
    rw [hasNoTag_iff] at h
    have hnone := h _ (List.drop_suffix ((c :: rest).takeWhile (· = '\\')).length (c :: rest))
    have hrest : HasNoTag rest :=
      hasNoTag_iff.mpr fun s hs => h s (hs.trans (List.suffix_cons c rest))
    rw [partsFrom]
    dsimp only
    rw [hnone]
    dsimp only
    rw [ih hrest, List.append_assoc, List.singleton_append]

/-! ### Texts without markup -/

/-- Nothing in the text says how it is shown: there are no tags, no backslashes before brackets, no
names of the given emoji, and no control characters that are left out. -/
structure IsInert (emoji : List Char → Option (List Char)) (cs : List Char) : Prop where
  hasNoTag : HasNoTag cs
  noEscape : ¬ ['\\', '['] <:+: cs
  namesNone : Emoji.NamesNone emoji cs
  isShown : ∀ c ∈ cs, isShown c = true

instance (emoji : List Char → Option (List Char)) (cs : List Char) : Decidable (IsInert emoji cs) :=
  decidable_of_iff (HasNoTag cs ∧ ¬ ['\\', '['] <:+: cs ∧ Emoji.NamesNone emoji cs ∧
      cs.all Markup.isShown = true)
    ⟨fun ⟨htag, hescape, hnone, hshown⟩ => ⟨htag, hescape, hnone, List.all_eq_true.mp hshown⟩,
      fun ⟨htag, hescape, hnone, hshown⟩ => ⟨htag, hescape, hnone, List.all_eq_true.mpr hshown⟩⟩

/-- The character has no part in markup. -/
def isOrdinary (c : Char) : Bool := c != '[' && c != ']' && c != ':' && isShown c

theorem isOrdinary_iff {c : Char} :
    isOrdinary c = true ↔ c ≠ '[' ∧ c ≠ ']' ∧ c ≠ ':' ∧ isShown c = true := by
  simp [isOrdinary, and_assoc]

/-- None of the characters has a part in markup. -/
def IsOrdinary (cs : List Char) : Prop := ∀ c ∈ cs, isOrdinary c = true

instance (cs : List Char) : Decidable (IsOrdinary cs) :=
  decidable_of_iff (cs.all isOrdinary = true) List.all_eq_true

section Ordinary

variable {emoji : List Char → Option (List Char)} {cs tail : List Char}

/-- Ordinary characters behind a text without markup make none. -/
theorem IsInert.append (h : IsInert emoji cs) (htail : IsOrdinary tail) :
    IsInert emoji (cs ++ tail) := by
  have hclose : ']' ∉ tail := fun hmem => (isOrdinary_iff.mp (htail _ hmem)).2.1 rfl
  have hcolon : ':' ∉ tail := fun hmem => (isOrdinary_iff.mp (htail _ hmem)).2.2.1 rfl
  refine ⟨h.hasNoTag.append hclose, ?_, h.namesNone.append hcolon, fun c hc => ?_⟩
  · rintro ⟨before, after, hsplit⟩
    have htext : (before ++ ['\\']) ++ '[' :: after = cs ++ tail := by simpa using hsplit
    have hopen : '[' ∉ tail := fun hmem => (isOrdinary_iff.mp (htail _ hmem)).1 rfl
    obtain ⟨rest, rfl⟩ := exists_append_of_not_mem htext hopen
    exact h.noEscape ⟨before, rest, by simp⟩
  · rcases List.mem_append.mp hc with hc | hc
    · exact h.isShown c hc
    · exact (isOrdinary_iff.mp (htail c hc)).2.2.2

theorem isInert_nil : IsInert emoji [] :=
  ⟨by decide, by decide, Emoji.namesNone_of_not_mem List.not_mem_nil,
    fun c hc => absurd hc List.not_mem_nil⟩

theorem IsOrdinary.isInert (h : IsOrdinary cs) : IsInert emoji cs := isInert_nil.append h

theorem IsInert.cons {c : Char} (h : IsInert emoji cs) (hc : isOrdinary c = true)
    (hslash : c ≠ '\\') : IsInert emoji (c :: cs) := by
  obtain ⟨hopen, -, hcolon, hshown⟩ := isOrdinary_iff.mp hc
  refine ⟨h.hasNoTag.cons hopen, ?_, h.namesNone.cons hcolon, ?_⟩
  · rw [List.infix_cons_iff, not_or]
    exact ⟨fun hprefix => hslash (List.cons_prefix_cons.mp hprefix).1.symm, h.noEscape⟩
  · exact List.forall_mem_cons.mpr ⟨hshown, h.isShown⟩

end Ordinary

/-- A text without markup that has neither opening brackets nor backslashes, so that a tag behind it
is one. -/
structure IsBare (emoji : List Char → Option (List Char)) (cs : List Char) : Prop
    extends IsInert emoji cs where
  noBracket : '[' ∉ cs
  noBackslash : '\\' ∉ cs

instance (emoji : List Char → Option (List Char)) (cs : List Char) : Decidable (IsBare emoji cs) :=
  decidable_of_iff (IsInert emoji cs ∧ '[' ∉ cs ∧ '\\' ∉ cs)
    ⟨fun ⟨hinert, hopen, hescape⟩ => ⟨hinert, hopen, hescape⟩,
      fun ⟨hinert, hopen, hescape⟩ => ⟨hinert, hopen, hescape⟩⟩

/-- A text with no code between colons is bare whatever emoji there are. -/
theorem IsBare.of_no_code {emoji : List Char → Option (List Char)} {cs : List Char}
    (h : IsBare (fun _ => some []) cs) : IsBare emoji cs := by
  have hnone : Emoji.NamesNone emoji cs := by
    intro s hs
    have hcode := h.namesNone s hs
    cases hs : Emoji.code? s with
    | none => rfl
    | some code =>
      rw [hs] at hcode
      cases hcode
  exact ⟨⟨h.hasNoTag, h.noEscape, hnone, h.isShown⟩, h.noBracket, h.noBackslash⟩

theorem IsInert.shown_eq {cs : List Char} (h : IsInert Emoji.ofCode? cs) : shown cs = cs := by
  rw [shown, replaceChars_eq_self h.noEscape, Emoji.replace_eq_self h.namesNone,
    List.filter_eq_self.mpr h.isShown]

/-- Without tags, a text is shown in one piece. -/
theorem plain_of_hasNoTag {text : String} (h : HasNoTag text.toList) :
    plain text = .ok (shown text.toList) := by
  unfold plain
  split_ifs with hopen
  · have hparts : parts text.toList = [.text text.toList] := by
      rw [parts, partsFrom_of_hasNoTag h, List.nil_append, textPart, if_neg]
      intro hempty
      rw [List.isEmpty_iff.mp hempty] at hopen
      cases hopen
    rw [hparts, render, render]
    exact congrArg Except.ok (List.append_nil _)
  · have hescape : ¬ ['\\', '['] <:+: text.toList := fun hescape =>
      hopen (List.contains_iff_mem.mpr (hescape.subset (by decide)))
    rw [shown, replaceChars_eq_self hescape]

/-- A text without markup is shown as it is. -/
theorem plain_of_isInert {text : String} (h : IsInert Emoji.ofCode? text.toList) :
    plain text = .ok text.toList := by
  rw [plain_of_hasNoTag h.hasNoTag, h.shown_eq]

/-! ### Texts with markup -/

/-- How many characters of parts are text. -/
def textLength : List Part → Nat
  | [] => 0
  | .text cs :: rest => cs.length + textLength rest
  | .tag _ _ :: rest => textLength rest

/-- No part is text with a colon. -/
def HasNoColon (ps : List Part) : Prop := ∀ cs, .text cs ∈ ps → ':' ∉ cs

theorem textLength_append (ps qs : List Part) :
    textLength (ps ++ qs) = textLength ps + textLength qs := by
  induction ps with
  | nil => simp [textLength]
  | cons p ps ih =>
    cases p with
    | text cs => rw [List.cons_append, textLength, textLength, ih, Nat.add_assoc]
    | tag position inner => rw [List.cons_append, textLength, textLength, ih]

theorem hasNoColon_append {ps qs : List Part} :
    HasNoColon (ps ++ qs) ↔ HasNoColon ps ∧ HasNoColon qs := by
  simp only [HasNoColon, List.mem_append, or_imp, forall_and]

theorem hasNoColon_cons {p : Part} {ps : List Part} :
    HasNoColon (p :: ps) ↔ (∀ cs, .text cs = p → ':' ∉ cs) ∧ HasNoColon ps := by
  simp only [HasNoColon, List.mem_cons, or_imp, forall_and]

theorem textLength_textPart (cs : List Char) : textLength (textPart cs) = cs.length := by
  unfold textPart
  split_ifs with hempty
  · rw [List.isEmpty_iff.mp hempty]
    rfl
  · rfl

theorem hasNoColon_textPart {cs : List Char} (h : ':' ∉ cs) : HasNoColon (textPart cs) := by
  unfold textPart
  intro ds hds
  split_ifs at hds
  · cases hds
  · obtain rfl := Part.text.inj (List.mem_singleton.mp hds)
    exact h

/-- A tag that is found behind backslashes is a part of its own, or becomes text. -/
structure FindsTag (c : Char) (rest : List Char) (position slashes : Nat) (inner : List Char)
    (found : Part) : Prop where
  split : ∃ after, c :: rest = List.replicate slashes '\\' ++ '[' :: (inner ++ ']' :: after)
  found_eq : found = .tag (position + slashes) inner ∨
    0 < slashes ∧ found = .text ('[' :: inner ++ [']'])

/-- What is done at one place of the text: there is no tag, or one behind some backslashes. -/
theorem partsFrom_cons (before : List Char) (position : Nat) (c : Char) (rest : List Char) :
    (tag? (c :: rest) = none ∧ partsFrom before position 0 (c :: rest)
      = partsFrom (before ++ [c]) (position + 1) 0 rest) ∨
    ∃ slashes inner found, FindsTag c rest position slashes inner found ∧
      partsFrom before position 0 (c :: rest)
        = textPart before ++ (textPart (List.replicate (slashes / 2) '\\')
          ++ found :: partsFrom [] (position + 1) (slashes + inner.length + 1) rest) := by
  have hprefix := List.takeWhile_prefix (l := c :: rest) (· = '\\')
  have hslashes := List.eq_replicate_of_mem (a := '\\')
    (l := (c :: rest).takeWhile (· = '\\')) fun d hd => by simpa using List.mem_takeWhile_imp hd
  have hsplit := List.prefix_iff_eq_append.mp hprefix
  rw [partsFrom]
  generalize ((c :: rest).takeWhile (· = '\\')).length = slashes at hslashes hsplit ⊢
  rw [hslashes] at hsplit
  dsimp only
  cases htag : tag? ((c :: rest).drop slashes) with
  | none =>
    -- Behind backslashes the text begins with one of them, and before none with the bracket itself.
    refine Or.inl ⟨?_, rfl⟩
    by_cases hc : c = '['
    · cases slashes with
      | zero => exact htag
      | succ slashes =>
        rw [List.replicate_succ, List.cons_append, hc] at hsplit
        cases (List.cons.inj hsplit).1
    · exact tag?_cons_of_ne hc rest
  | some inner =>
    obtain ⟨d, mid, after, rfl, hafter, -⟩ := tag?_eq_some_iff.mp htag
    refine Or.inr ⟨slashes, d :: mid,
      if slashes % 2 = 0 then .tag (position + slashes) (d :: mid)
      else .text ('[' :: (d :: mid) ++ [']']), ⟨⟨after, ?_⟩, ?_⟩, List.append_assoc _ _ _⟩
    · rw [← hsplit, hafter]
      rfl
    · split_ifs with heven
      · exact Or.inl rfl
      · exact Or.inr ⟨by omega, rfl⟩

/-- What is done at a tag makes the text shorter: of the tag itself nothing remains, or the
backslash that makes it text is taken away. -/
theorem FindsTag.bound {c : Char} {rest before inner : List Char} {position slashes : Nat}
    {found : Part} (h : FindsTag c rest position slashes inner found) (hcs : ':' ∉ c :: rest)
    (hbefore : ':' ∉ before) {ps : List Part} (hps : HasNoColon ps)
    (hlength : textLength ps ≤ rest.length - (slashes + inner.length + 1)) :
    HasNoColon (textPart before ++ (textPart (List.replicate (slashes / 2) '\\') ++ found :: ps)) ∧
      textLength (textPart before ++ (textPart (List.replicate (slashes / 2) '\\') ++ found :: ps))
        < before.length + (c :: rest).length := by
  obtain ⟨⟨after, hsplit⟩, hfound⟩ := h
  have hsize := congrArg List.length hsplit
  rw [List.length_append, List.length_cons, List.length_cons, List.length_replicate,
    List.length_append, List.length_cons] at hsize
  have hbackslashes : ':' ∉ List.replicate (slashes / 2) '\\' := by
    intro hmem
    cases List.eq_of_mem_replicate hmem
  rw [hasNoColon_append, hasNoColon_append, hasNoColon_cons, textLength_append, textLength_append,
    textLength_textPart, textLength_textPart, List.length_replicate, List.length_cons]
  rcases hfound with rfl | ⟨hpos, rfl⟩
  · refine ⟨⟨hasNoColon_textPart hbefore, hasNoColon_textPart hbackslashes, ?_, hps⟩, ?_⟩
    · rintro ds hds
      cases hds
    · rw [textLength]
      omega
  · refine ⟨⟨hasNoColon_textPart hbefore, hasNoColon_textPart hbackslashes, ?_, hps⟩, ?_⟩
    · rintro ds hds
      obtain rfl := Part.text.inj hds
      rw [hsplit] at hcs
      simp only [List.mem_append, List.mem_cons, not_or] at hcs
      simp [hcs.2.2.1]
    · rw [textLength, List.length_append, List.length_cons, List.length_singleton]
      omega

/-- Text without colons remains without them, and does not become longer. -/
theorem partsFrom_bound {cs before : List Char} (hcs : ':' ∉ cs) (hbefore : ':' ∉ before)
    (position skip : Nat) :
    HasNoColon (partsFrom before position skip cs) ∧
      textLength (partsFrom before position skip cs) ≤ before.length + (cs.length - skip) := by
  induction cs generalizing before position skip with
  | nil =>
    have hnil : partsFrom before position skip [] = textPart before := by cases skip <;> rfl
    rw [hnil, textLength_textPart]
    exact ⟨hasNoColon_textPart hbefore, Nat.le_add_right _ _⟩
  | cons c rest ih =>
    have hrest : ':' ∉ rest := fun hmem => hcs (List.mem_cons_of_mem c hmem)
    cases skip with
    | succ skip =>
      rw [partsFrom, List.length_cons, Nat.add_sub_add_right]
      exact ih hrest hbefore _ _
    | zero =>
      rcases partsFrom_cons before position c rest with ⟨-, heq⟩ |
        ⟨slashes, inner, found, hfinds, heq⟩
      · have hmore : ':' ∉ before ++ [c] := by
          simp only [List.mem_cons, not_or] at hcs
          simp [hbefore, hcs.1]
        have hbound := ih hrest hmore (position + 1) 0
        rw [List.length_append, List.length_singleton] at hbound
        rw [heq, List.length_cons]
        exact ⟨hbound.1, by omega⟩
      · obtain ⟨hnone, hlength⟩ := @ih [] hrest List.not_mem_nil (position + 1)
          (slashes + inner.length + 1)
        rw [List.length_nil, Nat.zero_add] at hlength
        have hbound := hfinds.bound hcs hbefore hnone hlength
        rw [heq]
        exact ⟨hbound.1, hbound.2.le⟩

/-- A tag is not text. -/
theorem textLength_partsFrom_lt {cs before : List Char} (hcs : ':' ∉ cs) (hbefore : ':' ∉ before)
    (h : ¬ HasNoTag cs) (position : Nat) :
    textLength (partsFrom before position 0 cs) < before.length + cs.length := by
  induction cs generalizing before position with
  | nil => exact absurd (by decide) h
  | cons c rest ih =>
    have hrest : ':' ∉ rest := fun hmem => hcs (List.mem_cons_of_mem c hmem)
    rcases partsFrom_cons before position c rest with ⟨hnone, heq⟩ |
      ⟨slashes, inner, found, hfinds, heq⟩
    · have hmore : ':' ∉ before ++ [c] := by
        simp only [List.mem_cons, not_or] at hcs
        simp [hbefore, hcs.1]
      have htag : ¬ HasNoTag rest := by
        intro hrestTag
        refine h (hasNoTag_iff.mpr fun s hs => ?_)
        rcases List.suffix_cons_iff.mp hs with rfl | hs
        · exact hnone
        · exact hasNoTag_iff.mp hrestTag s hs
      have hbound := ih hrest hmore htag (position + 1)
      rw [List.length_append, List.length_singleton] at hbound
      rw [heq, List.length_cons]
      omega
    · obtain ⟨hcolons, hlength⟩ := @partsFrom_bound rest [] hrest List.not_mem_nil (position + 1)
        (slashes + inner.length + 1)
      rw [List.length_nil, Nat.zero_add] at hlength
      rw [heq]
      exact (hfinds.bound hcs hbefore hcolons hlength).2

theorem shown_eq_filter {cs : List Char} (h : ':' ∉ cs) :
    shown cs = (replaceChars ['\\', '['] ['['] 0 cs).filter isShown := by
  have hreplaced : ':' ∉ replaceChars ['\\', '['] ['['] 0 cs := fun hmem =>
    (mem_replaceChars hmem).elim (by decide) h
  rw [shown, Emoji.replace_eq_self (Emoji.namesNone_of_not_mem hreplaced)]

theorem length_shown_le {cs : List Char} (h : ':' ∉ cs) : (shown cs).length ≤ cs.length := by
  rw [shown_eq_filter h]
  exact (List.length_filter_le _ _).trans
    (length_replaceChars_le (by decide) (List.cons_ne_nil _ _) 0)

/-- A tag itself is not shown. -/
theorem render_tag_eq_ok {begun : List String} {position : Nat} {inner out : List Char}
    {ps : List Part} (h : render begun (.tag position inner :: ps) = .ok out) :
    ∃ begun', render begun' ps = .ok out := by
  rw [render] at h
  split at h
  · dsimp only at h
    split_ifs at h
    · exact ⟨_, h⟩
    · exact ⟨_, h⟩
  · exact ⟨_, h⟩

theorem length_render_le {begun : List String} {ps : List Part} {out : List Char}
    (h : HasNoColon ps) (hrender : render begun ps = .ok out) : out.length ≤ textLength ps := by
  induction ps generalizing begun out with
  | nil =>
    obtain rfl := Except.ok.inj hrender
    exact Nat.le_refl _
  | cons p ps ih =>
    rw [hasNoColon_cons] at h
    cases p with
    | text cs =>
      rw [render] at hrender
      cases hrest : render begun ps with
      | error fault => rw [hrest] at hrender; cases hrender
      | ok more =>
        rw [hrest] at hrender
        obtain rfl := Except.ok.inj hrender
        rw [List.length_append, textLength]
        exact Nat.add_le_add (length_shown_le (h.1 cs rfl)) (ih h.2 hrest)
    | tag position inner =>
      rw [textLength]
      obtain ⟨begun', hrest⟩ := render_tag_eq_ok hrender
      exact ih h.2 hrest

/-- A text without colons that is shown as it is has no tag. -/
theorem hasNoTag_of_plain_eq {text : String} (h : ':' ∉ text.toList)
    (hplain : plain text = .ok text.toList) : HasNoTag text.toList := by
  by_contra htag
  have hopen : '[' ∈ text.toList := by
    by_contra hopen
    exact htag (hasNoTag_of_not_mem hopen)
  rw [plain, if_pos (List.contains_iff_mem.mpr hopen)] at hplain
  have hcolons := (partsFrom_bound h (List.not_mem_nil (a := ':')) 0 0).1
  have hshown := length_render_le hcolons hplain
  have hlost := textLength_partsFrom_lt h (List.not_mem_nil (a := ':')) htag 0
  rw [List.length_nil, Nat.zero_add] at hlost
  exact absurd hshown (Nat.not_le_of_lt hlost)

/-- A text without colons is shown as it is only if it has no markup. -/
theorem plain_eq_self_iff {text : String} (h : ':' ∉ text.toList) :
    plain text = .ok text.toList ↔ IsInert Emoji.ofCode? text.toList := by
  refine ⟨fun hplain => ?_, plain_of_isInert⟩
  have htag := hasNoTag_of_plain_eq h hplain
  -- Now only brackets could lose their backslashes, and control characters be left out.
  rw [plain_of_hasNoTag htag, shown_eq_filter h] at hplain
  have hsame := Except.ok.inj hplain
  have hescape : ¬ ['\\', '['] <:+: text.toList := by
    intro hescape
    have hshorter := @length_replaceChars_lt _ ['['] _ (by decide) hescape
    have hkept := List.length_filter_le isShown (replaceChars ['\\', '['] ['['] 0 text.toList)
    rw [hsame] at hkept
    omega
  rw [replaceChars_eq_self hescape] at hsame
  exact ⟨htag, hescape, Emoji.namesNone_of_not_mem h, List.filter_eq_self.mp hsame⟩

/-! ### Styles that begin and end -/

/-- A tag with the given text between its brackets. -/
def tag (inner : List Char) : List Char := '[' :: (inner ++ [']'])

theorem partsFrom_append_of_skip (before : List Char) (position : Nat) (dropped rest : List Char) :
    partsFrom before position dropped.length (dropped ++ rest)
      = partsFrom before (position + dropped.length) 0 rest := by
  induction dropped generalizing position with
  | nil => rfl
  | cons c dropped ih =>
    rw [List.length_cons, List.cons_append, partsFrom, ih, Nat.add_right_comm, Nat.add_assoc]

/-- Text before a tag. -/
theorem partsFrom_text {cs : List Char} (hopen : '[' ∉ cs) (hescape : '\\' ∉ cs)
    (before : List Char) (position : Nat) (rest : List Char) :
    partsFrom before position 0 (cs ++ rest)
      = partsFrom (before ++ cs) (position + cs.length) 0 rest := by
  induction cs generalizing before position with
  | nil => rw [List.append_nil, List.nil_append, List.length_nil, Nat.add_zero]
  | cons c cs ih =>
    rw [List.mem_cons, not_or] at hopen hescape
    have hslashes : (c :: (cs ++ rest)).takeWhile (· = '\\') = [] :=
      List.takeWhile_cons_of_neg (by simpa using Ne.symm hescape.1)
    have hnone := tag?_cons_of_ne (Ne.symm hopen.1) (cs ++ rest)
    rw [List.cons_append, partsFrom, hslashes]
    dsimp only [List.length_nil]
    rw [List.drop_zero, hnone]
    dsimp only
    rw [ih hopen.2 hescape.2, List.append_assoc, List.singleton_append, List.length_cons,
      Nat.add_assoc, Nat.add_comm 1]

/-- A tag. -/
theorem partsFrom_tag {inner : List Char} (htag : ∀ rest, tag? (tag inner ++ rest) = some inner)
    (before : List Char) (position : Nat) (rest : List Char) :
    partsFrom before position 0 (tag inner ++ rest)
      = textPart before ++
          .tag position inner :: partsFrom [] (position + inner.length + 2) 0 rest := by
  have hspelt : tag inner ++ rest = '[' :: (inner ++ ']' :: rest) := by simp [tag]
  have htag := htag rest
  rw [hspelt] at htag ⊢
  have hslashes : ('[' :: (inner ++ ']' :: rest)).takeWhile (· = '\\') = [] :=
    List.takeWhile_cons_of_neg (by decide)
  have hskip := partsFrom_append_of_skip [] (position + 1) (inner ++ [']']) rest
  rw [List.append_assoc, List.singleton_append, List.length_append] at hskip
  rw [partsFrom, hslashes]
  dsimp only [List.length_nil]
  rw [List.drop_zero, htag]
  dsimp only
  have hposition : position + 1 + (inner.length + 1) = position + inner.length + 2 := by omega
  rw [List.length_singleton, hposition] at hskip
  rw [Nat.zero_add, hskip]
  simp [textPart]

theorem render_textPart (begun : List String) (cs : List Char) (rest : List Part) :
    render begun (textPart cs ++ rest) = (render begun rest).map (shown cs ++ ·) := by
  unfold textPart
  split_ifs with hempty
  · rw [List.isEmpty_iff.mp hempty, List.nil_append]
    cases render begun rest <;> rfl
  · rw [List.singleton_append, render]

theorem render_textPart_nil (begun : List String) (cs : List Char) :
    render begun (textPart cs) = .ok (shown cs) := by
  have h := render_textPart begun cs []
  rw [List.append_nil, render] at h
  rw [h]
  exact congrArg Except.ok (List.append_nil _)

section Words

variable {name : List Char}

/-- The character is one of the letters from a to z. -/
def isSmallLetter (c : Char) : Bool := 'a' ≤ c && c ≤ 'z'

/-- A word of small letters, such as styles are named with. -/
structure IsWord (name : List Char) : Prop where
  ne_nil : name ≠ []
  isLetter : ∀ c ∈ name, isSmallLetter c = true

instance (name : List Char) : Decidable (IsWord name) :=
  decidable_of_iff (name ≠ [] ∧ name.all isSmallLetter = true)
    ⟨fun ⟨hne, hletter⟩ => ⟨hne, List.all_eq_true.mp hletter⟩,
      fun ⟨hne, hletter⟩ => ⟨hne, List.all_eq_true.mpr hletter⟩⟩

/-- The code of a small letter. -/
theorem IsWord.toNat_mem (h : IsWord name) {c : Char} (hc : c ∈ name) :
    97 ≤ c.toNat ∧ c.toNat ≤ 122 := by
  have hletter := h.isLetter c hc
  rw [isSmallLetter, Bool.and_eq_true, decide_eq_true_eq, decide_eq_true_eq] at hletter
  exact hletter

theorem IsWord.ne (h : IsWord name) {c d : Char} (hc : c ∈ name)
    (hd : d.toNat < 97 ∨ 122 < d.toNat) : c ≠ d := by
  rintro rfl
  have hcode := h.toNat_mem hc
  omega

/-- The letters of a word do not end the tag that it is in. -/
theorem IsWord.isInTag (h : IsWord name) : ∀ d ∈ name, d ≠ ']' ∧ d ≠ '[' :=
  fun _ hd => ⟨h.ne hd (by decide), h.ne hd (by decide)⟩

theorem IsWord.tag?_begin (h : IsWord name) (rest : List Char) :
    tag? (tag name ++ rest) = some name := by
  cases name with
  | nil => exact absurd rfl h.ne_nil
  | cons c name =>
    have hletter := h.isLetter c List.mem_cons_self
    rw [isSmallLetter] at hletter
    refine tag?_eq_some_iff.mpr ⟨c, name, rest, rfl, by simp [tag], ?_, fun d hd => ?_⟩
    · rw [opensTag, hletter, Bool.true_or, Bool.true_or, Bool.true_or]
    · exact h.isInTag d (List.mem_cons_of_mem c hd)

theorem IsWord.tag?_end (h : IsWord name) (rest : List Char) :
    tag? (tag ('/' :: name) ++ rest) = some ('/' :: name) :=
  tag?_eq_some_iff.mpr ⟨'/', name, rest, rfl, by simp [tag], rfl, h.isInTag⟩

theorem IsWord.nameIn_eq (h : IsWord name) : nameIn name = name := by
  rw [nameIn, List.takeWhile_eq_self_iff]
  exact fun c hc => bne_iff_ne.mpr (h.ne hc (by decide))

theorem IsWord.strip_eq (h : IsWord name) :
    Text.strip (String.ofList name) = String.ofList name := by
  have hblank : ∀ c ∈ name, isBlank c = false := by
    intro c hc
    have hcode := h.toNat_mem hc
    simp only [isBlank, Bool.or_eq_false_iff, Bool.and_eq_false_iff, decide_eq_false_iff_not]
    omega
  have hdrop : ∀ cs : List Char, (∀ c ∈ cs, isBlank c = false) → cs.dropWhile isBlank = cs := by
    intro cs hcs
    cases cs with
    | nil => rfl
    | cons c rest => exact List.dropWhile_cons_of_neg (by simp [hcs c List.mem_cons_self])
  rw [strip, String.toList_ofList, stripChars, hdrop name hblank, dropTrailingBlanks,
    hdrop name.reverse fun c hc => hblank c (List.mem_reverse.mp hc), List.reverse_reverse]

/-- A tag begins a style. -/
theorem IsWord.render_begin (h : IsWord name) (begun : List String) (position : Nat)
    (rest : List Part) :
    render begun (.tag position name :: rest)
      = render (Style.canonical (String.ofList name) :: begun) rest := by
  conv_lhs => rw [render, h.nameIn_eq]
  split
  · exact absurd rfl (h.ne List.mem_cons_self (Or.inl (by decide)))
  · rfl

/-- A tag ends a style that has begun, or else is a fault. -/
theorem IsWord.render_end (h : IsWord name) (begun : List String) (position : Nat)
    (rest : List Part) :
    render begun (.tag position ('/' :: name) :: rest)
      = if begun.contains (Style.canonical (String.ofList name)) then
          render (begun.erase (Style.canonical (String.ofList name))) rest
        else .error (.unmatched (String.ofList (tag ('/' :: name))) position) := by
  have hname : nameIn ('/' :: name) = '/' :: name := by
    rw [nameIn, List.takeWhile_cons_of_pos (by decide)]
    exact congrArg ('/' :: ·) h.nameIn_eq
  have hne : ¬ (String.ofList name).isEmpty = true := by simpa using h.ne_nil
  have htag : "[" ++ String.ofList ('/' :: name) ++ "]" = String.ofList (tag ('/' :: name)) := by
    rw [← String.toList_inj]
    simp [tag]
  rw [render, hname]
  simp only [h.strip_eq, if_neg hne, htag]

variable {text : String} {before cs tail : List Char}

/-- The parts of a text with a tag after text without brackets and backslashes. -/
theorem parts_tag (hopen : '[' ∉ before) (hescape : '\\' ∉ before) {inner : List Char}
    (htag : ∀ rest, tag? (tag inner ++ rest) = some inner) (rest : List Char) :
    parts (before ++ (tag inner ++ rest))
      = textPart before ++ .tag before.length inner ::
          partsFrom [] (before.length + inner.length + 2) 0 rest := by
  rw [parts, partsFrom_text hopen hescape, partsFrom_tag htag, List.nil_append, Nat.zero_add]

theorem plain_of_mem (h : '[' ∈ text.toList) : plain text = render [] (parts text.toList) := by
  rw [plain, if_pos (List.contains_iff_mem.mpr h)]

/-- A style that begins is not shown, even if it does not end. -/
theorem plain_begun (hname : IsWord name) (hopen : '[' ∉ before) (hescape : '\\' ∉ before)
    (htail : HasNoTag tail) (htext : text.toList = before ++ (tag name ++ tail)) :
    plain text = .ok (shown before ++ shown tail) := by
  rw [plain_of_mem (by simp [htext, tag]), htext, parts_tag hopen hescape hname.tag?_begin,
    partsFrom_of_hasNoTag htail, List.nil_append, render_textPart, hname.render_begin,
    render_textPart_nil]
  rfl

/-- The end of a style that has not begun is a fault. -/
theorem plain_unmatched (hname : IsWord name) (hopen : '[' ∉ before) (hescape : '\\' ∉ before)
    (htext : text.toList = before ++ (tag ('/' :: name) ++ tail)) :
    plain text = .error (.unmatched (String.ofList (tag ('/' :: name))) before.length) := by
  rw [plain_of_mem (by simp [htext, tag]), htext, parts_tag hopen hescape hname.tag?_end,
    render_textPart, hname.render_end]
  rfl

/-- A style that begins and ends is not shown. -/
theorem plain_styled (hname : IsWord name) (hopen : '[' ∉ cs) (hescape : '\\' ∉ cs)
    (htail : HasNoTag tail)
    (htext : text.toList = tag name ++ (cs ++ (tag ('/' :: name) ++ tail))) :
    plain text = .ok (shown cs ++ shown tail) := by
  have hcanon : [Style.canonical (String.ofList name)].contains
      (Style.canonical (String.ofList name)) = true := by simp
  rw [plain_of_mem (by simp [htext, tag]), htext, parts, partsFrom_tag hname.tag?_begin,
    partsFrom_text hopen hescape, partsFrom_tag hname.tag?_end, partsFrom_of_hasNoTag htail,
    List.nil_append, List.nil_append, render_textPart, hname.render_begin, render_textPart,
    hname.render_end, if_pos hcanon, render_textPart_nil]
  rfl

end Words

end Markup

end Console

end CodeAtlas
