import CodeAtlas.Proofs.Console.Markup
import CodeAtlas.Proofs.Repository.Cloning
import CodeAtlas.Proofs.Scan.Patterns

/-!
# No token in messages

Replacing a word in a text cuts the text at the word, from left to right, into gaps in none of which
the word occurs, and joins the gaps by what the word is replaced by (`Text.exists_gaps`).  If that
has no character of the word, then the word cannot occur across it either, so that it does not
occur in the result at all (`Text.not_infix_intercalate`).  That is why a failure to clone can be
reported without the access token (`GitFetcher.fetch_conceals_token`).
-/

namespace CodeAtlas

namespace Text

variable {needle by_ : List Char}

/-! ### Gaps -/

theorem replaceChars_skip (skip : Nat) (cs : List Char) :
    replaceChars needle by_ skip cs = replaceChars needle by_ 0 (cs.drop skip) := by
  induction skip generalizing cs with
  | zero => rw [List.drop_zero]
  | succ skip ih =>
    cases cs with
    | nil => rfl
    | cons c rest =>
      rw [replaceChars, List.drop_succ_cons]
      exact ih rest

/-- A word at the beginning of a text is replaced, and then what follows it. -/
theorem replaceChars_append (hne : needle ≠ []) (rest : List Char) :
    replaceChars needle by_ 0 (needle ++ rest) = by_ ++ replaceChars needle by_ 0 rest := by
  cases needle with
  | nil => exact absurd rfl hne
  | cons c needle =>
    have hprefix : (c :: needle).isPrefixOf (c :: (needle ++ rest)) = true :=
      List.isPrefixOf_iff_prefix.mpr ⟨rest, rfl⟩
    rw [List.cons_append, replaceChars, if_pos hprefix, replaceChars_skip]
    simp

theorem cons_intercalate (sep : List Char) (c : Char) (first : List Char)
    (gaps : List (List Char)) :
    sep.intercalate ((c :: first) :: gaps) = c :: sep.intercalate (first :: gaps) := by
  cases gaps with
  | nil => simp [List.intercalate]
  | cons next gaps =>
    rw [List.intercalate_cons_cons, List.intercalate_cons_cons]
    rfl

theorem prefix_intercalate (sep first : List Char) (gaps : List (List Char)) :
    first <+: sep.intercalate (first :: gaps) := by
  cases gaps with
  | nil => simp [List.intercalate]
  | cons next gaps =>
    rw [List.intercalate_cons_cons, List.append_assoc]
    exact List.prefix_append _ _

/-- A text is cut at a word into gaps without the word, which are joined by what the word is replaced
by. -/
theorem exists_gaps (by_ : List Char) (hne : needle ≠ []) (cs : List Char) :
    ∃ gaps, gaps ≠ [] ∧ cs = needle.intercalate gaps ∧
      replaceChars needle by_ 0 cs = by_.intercalate gaps ∧ ∀ gap ∈ gaps, ¬ needle <:+: gap := by
  induction hn : cs.length using Nat.strong_induction_on generalizing cs with
  | _ n ih =>
    by_cases hprefix : needle <+: cs
    · -- The word is at the beginning: the first gap is empty.
      obtain ⟨rest, rfl⟩ := hprefix
      have hshorter : rest.length < n := by
        have hpos := List.length_pos_iff.mpr hne
        rw [List.length_append] at hn
        omega
      obtain ⟨gaps, hgaps, hrest, hreplaced, hclean⟩ := ih rest.length hshorter rest rfl
      refine ⟨[] :: gaps, List.cons_ne_nil _ _, ?_, ?_, fun gap hgap => ?_⟩
      · rw [List.intercalate_cons_of_ne_nil hgaps, ← hrest, List.nil_append]
      · rw [replaceChars_append hne, hreplaced, List.intercalate_cons_of_ne_nil hgaps,
          List.nil_append]
      · rcases List.mem_cons.mp hgap with rfl | hgap
        · rwa [List.infix_nil]
        · exact hclean gap hgap
    · cases cs with
      | nil =>
        refine ⟨[[]], List.cons_ne_nil _ _, rfl, rfl, fun gap hgap => ?_⟩
        obtain rfl := List.mem_singleton.mp hgap
        rwa [List.infix_nil]
      | cons c rest =>
        -- The first character belongs to the first gap of the rest.
        have hshorter : rest.length < n := by
          rw [List.length_cons] at hn
          omega
        have hhere : ¬ needle.isPrefixOf (c :: rest) = true := by
          rwa [List.isPrefixOf_iff_prefix]
        obtain ⟨gaps, hgaps, hrest, hreplaced, hclean⟩ := ih rest.length hshorter rest rfl
        obtain ⟨first, gaps, rfl⟩ := List.exists_cons_of_ne_nil hgaps
        have htext : c :: rest = needle.intercalate ((c :: first) :: gaps) := by
          rw [cons_intercalate, ← hrest]
        refine ⟨(c :: first) :: gaps, List.cons_ne_nil _ _, htext, ?_, fun gap hgap => ?_⟩
        · rw [replaceChars, if_neg hhere, hreplaced, cons_intercalate]
        · rcases List.mem_cons.mp hgap with rfl | hgap
          · have hbegin : ¬ needle <+: c :: first := by
              intro h
              apply hprefix
              rw [htext]
              exact h.trans (prefix_intercalate needle (c :: first) gaps)
            rw [List.infix_cons_iff, not_or]
            exact ⟨hbegin, hclean first List.mem_cons_self⟩
          · exact hclean gap (List.mem_cons_of_mem _ hgap)

/-! ### No word across gaps -/

theorem infix_of_infix_append (hne : needle ≠ []) (hnone : ∀ c ∈ by_, c ∉ needle)
    {rest : List Char} (h : needle <:+: by_ ++ rest) : needle <:+: rest := by
  induction by_ with
  | nil => exact h
  | cons c by_ ih =>
    have hsplit := infix_append_cons_iff (hnone c List.mem_cons_self) [] (by_ ++ rest)
    rw [List.nil_append] at hsplit
    rw [List.cons_append, hsplit, List.infix_nil] at h
    exact ih (fun d hd => hnone d (List.mem_cons_of_mem _ hd)) (h.resolve_left hne)

/-- A word that occurs in none of the gaps does not occur in what they are joined to, if what stands
between them has no character of the word. -/
theorem not_infix_intercalate (hne : needle ≠ []) (hby : by_ ≠ []) (hnone : ∀ c ∈ by_, c ∉ needle)
    {gaps : List (List Char)} (hgaps : ∀ gap ∈ gaps, ¬ needle <:+: gap) :
    ¬ needle <:+: by_.intercalate gaps := by
  induction gaps with
  | nil => exact fun h => hne (List.infix_nil.mp h)
  | cons first gaps ih =>
    have hfirst := hgaps first List.mem_cons_self
    cases gaps with
    | nil => simpa [List.intercalate] using hfirst
    | cons next gaps =>
      intro h
      rw [List.intercalate_cons_cons, List.append_assoc] at h
      cases by_ with
      | nil => exact hby rfl
      | cons c by_ =>
        have hc := hnone c List.mem_cons_self
        rw [List.cons_append, infix_append_cons_iff hc] at h
        have hrest := infix_of_infix_append hne (fun d hd => hnone d (List.mem_cons_of_mem _ hd))
          (h.resolve_left hfirst)
        exact ih (fun gap hgap => hgaps gap (List.mem_cons_of_mem _ hgap)) hrest

end Text

namespace GitFetcher

variable {g : GitFetcher} {token : String} {result : CloneResult}

theorem token?_eq (htoken : g.token = some token) (hne : token ≠ "") : g.token? = some token := by
  simp [token?, htoken, hne]

/-- **The token is not in the reason**: if a clone fails in a way that makes the repository
unavailable, and there was a directory for it, the fetch fails with a reason in which a token without
stars does not occur.  The reason is the wording of the failure, cut at the token and joined by
stars. -/
theorem fetch_conceals_token (htoken : g.token = some token) (hne : token ≠ "")
    (hstar : '*' ∉ token.toList) (identifier ending : String) {cause : Failure}
    (hcause : result.failure? = some cause) (hkind : isUnavailability cause = true)
    (fs : FileSystem) (systemRoot : Path) :
    let found := (g.fetch identifier ending result fs systemRoot).1
    (∃ e path, found = .error (.file e path)) ∨
    ∃ reason gaps, found = .error (.fetch identifier reason (some cause)) ∧
      (Text.strip cause.message).toList = token.toList.intercalate gaps ∧
      reason.toList = mask.toList.intercalate gaps ∧ ¬ token.toList <:+: reason.toList := by
  intro found
  rcases fetch_cases g identifier ending result fs systemRoot with
    ⟨e, path, fs', hfound, -⟩ | ⟨ready, l, -, hplace, hfound⟩
  · exact Or.inl ⟨e, path, congrArg Prod.fst hfound⟩
  · rw [cloneInto_setAt hplace, hcause] at hfound
    simp only [hkind, if_true] at hfound
    have hchars : token.toList ≠ [] := by simpa using hne
    obtain ⟨gaps, -, htext, hreplaced, hclean⟩ :=
      Text.exists_gaps mask.toList hchars (Text.strip cause.message).toList
    have hreason : (g.redact (Text.strip cause.message)).toList = mask.toList.intercalate gaps := by
      unfold redact Text.replace
      rw [token?_eq htoken hne]
      dsimp only
      rw [String.toList_ofList, hreplaced]
    have hmask : ∀ c ∈ mask.toList, c ∉ token.toList := by
      intro c hc
      obtain rfl : c = '*' := by simpa [mask] using hc
      exact hstar
    refine Or.inr ⟨_, gaps, congrArg Prod.fst hfound, htext, hreason, ?_⟩
    rw [hreason]
    exact Text.not_infix_intercalate hchars (by decide) hmask hclean

/-- A token that overlaps itself, several times and without a gap: what is left of it is not the
token. -/
theorem fetch_conceals_token_overlapping :
    let g : GitFetcher := ⟨none, some "aba", none⟩
    let cause : Failure := .foreign "GitCommandError" " ababa abaaba\n"
    let fs : FileSystem := ⟨.directory [("tmp", .emptyDirectory)], []⟩
    let reason := "***ba ******"
    g.token = some "aba" ∧ "aba" ≠ "" ∧ '*' ∉ "aba".toList ∧ isUnavailability cause = true ∧
    (g.fetch "git@h:o/tool.git" "01" (.failed cause) fs).1
      = .error (.fetch "git@h:o/tool.git" reason (some cause)) ∧
    ¬ "aba".toList <:+: reason.toList := by
  intro g cause fs reason
  have hstar : '*' ∉ "aba".toList := by decide
  have hkind : isUnavailability cause = true := by decide +kernel
  have hreason : g.redact (Text.strip cause.message) = reason := by decide +kernel
  have hplace : fs.place true (g.target "git@h:o/tool.git" "01" standardTempRoot)
      = .ok (.missing ["tmp", "navvi-tool-01"]) := by
    have htarget : g.target "git@h:o/tool.git" "01" standardTempRoot
        = ⟨1, ["tmp", "navvi-tool-01"]⟩ := by decide +kernel
    rw [htarget]
    rfl
  have hfound : (g.fetch "git@h:o/tool.git" "01" (.failed cause) fs).1
      = .error (.fetch "git@h:o/tool.git" reason (some cause)) := by
    have hready : g.prepare fs = (none, fs) := rfl
    rw [fetch_of_made hready hplace, cloneInto_setAt hplace]
    simp only [CloneResult.failure?, hkind, if_true, hreason]
  refine ⟨rfl, by decide, hstar, hkind, hfound, ?_⟩
  have htoken : g.token = some "aba" := rfl
  have hcause : (CloneResult.failed cause).failure? = some cause := rfl
  rcases fetch_conceals_token htoken (by decide) hstar
    "git@h:o/tool.git" "01" hcause hkind fs standardTempRoot with
    ⟨e, path, hfile⟩ | ⟨found, gaps, hfetch, -, -, hclean⟩
  · rw [hfound] at hfile
    cases hfile
  · rw [hfound] at hfetch
    obtain ⟨-, rfl, -⟩ := Failure.fetch.inj (Except.error.inj hfetch)
    exact hclean

end GitFetcher

end CodeAtlas
