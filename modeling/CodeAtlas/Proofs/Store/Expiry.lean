import CodeAtlas.Proofs.Store.Recency

/-!
# Entries that are too old

A store drops an entry that is too old only when it is asked for it; `runExpiring` drops all of them
before each operation.  Both find the same, except where a put *crowds out*: the store is full, its
first entry is not too old and is dropped, and an entry that is too old is kept in its place.  A run
in which no put crowds out finds what it finds with expiry, and as soon as a put crowds out, some
key tells the two apart (`run_eq_runExpiring`).  A put can crowd out (`exists_crowding_out`),
because an entry that is found is put last but becomes no younger.

The invariant is that the two stores agree on what is not too old, at every later moment.  One
operation keeps it (`perform_expire`), because what is too old plays no part in what is found and in
what is put last.
-/

namespace CodeAtlas.Store

variable {α τ : Type} [Clock τ]

/-- There is no room for one more entry, the first one is not too old, and another one is. -/
def crowds (timeToLive : Option τ) (capacity : Nat) (now : τ) :
    List (StoreEntry α τ) → Bool
  | [] => false
  | e :: rest =>
    capacity ≤ (e :: rest).length
      && (!isExpired timeToLive now e && rest.any (isExpired timeToLive now))

/-- A put drops an entry that is not too old and keeps one that is. -/
def crowdsOut (now : τ) (op : Operation α) (s : Store α τ) : Bool :=
  match op with
  | .put key _ => crowds s.timeToLive s.capacity now (without key s.entries)
  | _ => false

/-- An operation of a run crowds out. -/
def everCrowdsOut : List (τ × Operation α) → Store α τ → Bool
  | [], _ => false
  | (now, op) :: rest, s => crowdsOut now op s || everCrowdsOut rest (s.perform now op).2

theorem everCrowdsOut_concat (ops : List (τ × Operation α)) (now : τ) (op : Operation α)
    (s : Store α τ) :
    everCrowdsOut (ops ++ [(now, op)]) s
      = (everCrowdsOut ops s || crowdsOut now op (run ops s).2) := by
  induction ops generalizing s with
  | nil => exact Bool.or_false _
  | cons first rest ih =>
    rw [List.cons_append, everCrowdsOut, everCrowdsOut, ih, Bool.or_assoc, run_cons]

/-! ### What is not too old -/

/-- The entries that are not too old. -/
def living (timeToLive : Option τ) (now : τ) (entries : List (StoreEntry α τ)) :
    List (StoreEntry α τ) :=
  entries.filter (!isExpired timeToLive now ·)

theorem expire_eq (now : τ) (s : Store α τ) :
    s.expire now = { s with entries := living s.timeToLive now s.entries } := rfl

theorem mem_living {timeToLive : Option τ} {now : τ} {entries : List (StoreEntry α τ)}
    {e : StoreEntry α τ} :
    e ∈ living timeToLive now entries ↔ e ∈ entries ∧ isExpired timeToLive now e = false := by
  rw [living, List.mem_filter, Bool.not_eq_true']

theorem living_append (timeToLive : Option τ) (now : τ) (xs ys : List (StoreEntry α τ)) :
    living timeToLive now (xs ++ ys) = living timeToLive now xs ++ living timeToLive now ys :=
  List.filter_append ..

theorem without_living (timeToLive : Option τ) (now : τ) (key : String)
    (entries : List (StoreEntry α τ)) :
    without key (living timeToLive now entries) = living timeToLive now (without key entries) := by
  rw [without, without, living, living, List.filter_filter, List.filter_filter]
  exact List.filter_congr fun _ _ => Bool.and_comm _ _

theorem length_living_le (timeToLive : Option τ) (now : τ) (entries : List (StoreEntry α τ)) :
    (living timeToLive now entries).length ≤ entries.length := List.length_filter_le _ _

/-- What is not too old later is not too old before. -/
theorem living_living [LE τ] [LawfulClock τ] {now later : τ} (hle : now ≤ later)
    (timeToLive : Option τ) (entries : List (StoreEntry α τ)) :
    living timeToLive later (living timeToLive now entries) = living timeToLive later entries := by
  rw [living, living, List.filter_filter]
  refine List.filter_congr fun e _ => ?_
  cases hnow : isExpired timeToLive now e with
  | false => exact Bool.and_true _
  | true =>
    rw [isExpired_of_le hle hnow]
    rfl

theorem keys_expire_sublist (now : τ) (s : Store α τ) : (s.expire now).keys.Sublist s.keys :=
  List.filter_sublist.map _

/-! ### One operation -/

theorem entry?_expire {s : Store α τ} (hnodup : s.keys.Nodup) (now : τ) {key : String}
    {found : Option (StoreEntry α τ)} (h : s.entry? key = found) :
    entry? (s.expire now) key = found.filter (!isExpired s.timeToLive now ·) := by
  have hnodup' := hnodup.sublist (keys_expire_sublist now s)
  rw [← h]
  refine Option.ext fun e => ?_
  rw [entry?_eq_some_iff hnodup', Option.filter_eq_some_iff, entry?_eq_some_iff hnodup,
    Bool.not_eq_true', and_right_comm]
  exact and_congr_left' mem_living

section Perform

variable [LE τ] [LawfulClock τ] {s : Store α τ} {now later : τ}

theorem expire_expire (hle : now ≤ later) (s : Store α τ) :
    (s.expire now).expire later = s.expire later := by
  rw [expire_eq, expire_eq, expire_eq, living_living hle]

theorem get_expire (hnodup : s.keys.Nodup) (key : String) :
    ((s.expire now).get now key).1 = (s.get now key).1 ∧
      ∀ later, now ≤ later →
        ((s.expire now).get now key).2.expire later = (s.get now key).2.expire later := by
  unfold Store.get
  cases hentry : s.entry? key with
  | none =>
    rw [entry?_expire hnodup now hentry]
    exact ⟨rfl, fun later hle => expire_expire hle s⟩
  | some e =>
    rw [entry?_expire hnodup now hentry]
    obtain ⟨hmem, rfl⟩ := mem_of_entry?_eq_some hentry
    by_cases hexpired : isExpired s.timeToLive now e = true
    · simp only [Option.filter_some, hexpired, Bool.not_true, Bool.false_eq_true, if_false, if_true]
      refine ⟨trivial, fun later hle => ?_⟩
      -- What is dropped is too old at every later moment.
      have hsame : living s.timeToLive later (without e.key s.entries)
          = living s.timeToLive later s.entries := by
        rw [← without_living, without, List.filter_eq_self]
        intro e' he'
        obtain ⟨hmem', hlive⟩ := mem_living.mp he'
        refine bne_iff_ne.mpr fun hkey => ?_
        rw [List.inj_on_of_nodup_map hnodup hmem' hmem hkey, isExpired_of_le hle hexpired] at hlive
        exact Bool.noConfusion hlive
      rw [expire_expire hle, expire_eq, expire_eq, hsame]
    · have hlive : isExpired (s.expire now).timeToLive now e = false :=
        Bool.not_eq_true _ ▸ hexpired
      simp only [Option.filter_some, hexpired, Bool.not_false, if_true, hlive, Bool.false_eq_true,
        if_false]
      refine ⟨trivial, fun later hle => ?_⟩
      rw [expire_eq, expire_eq, expire_eq]
      dsimp only
      rw [living_append, living_append, without_living, living_living hle]

/-- Put last, an entry hides whether those too old were dropped first, unless it crowds out. -/
theorem living_latest_concat {timeToLive : Option τ} {capacity : Nat}
    {others : List (StoreEntry α τ)} (hlen : others.length ≤ capacity) (x : StoreEntry α τ)
    (hcrowd : crowds timeToLive capacity now others = false) (hle : now ≤ later) :
    living timeToLive later (latest capacity (living timeToLive now others ++ [x]))
      = living timeToLive later (latest capacity (others ++ [x])) := by
  cases others with
  | nil => rfl
  | cons e rest =>
    rcases hlen.lt_or_eq with hroom | hfull
    · have hroom' := (length_living_le timeToLive now (e :: rest)).trans_lt hroom
      rw [latest_concat_of_room hroom, latest_concat_of_room hroom', living_append,
        living_append, living_living hle]
    · rw [latest_concat_of_full hfull]
      rw [crowds, decide_eq_true hfull.ge, Bool.true_and] at hcrowd
      cases hexpired : isExpired timeToLive now e with
      | true =>
        -- The entry that is dropped is too old.
        have hrest : living timeToLive now (e :: rest) = living timeToLive now rest :=
          List.filter_cons_of_neg (by simp [hexpired])
        have hroom : (living timeToLive now rest).length < capacity :=
          (length_living_le timeToLive now rest).trans_lt (Nat.lt_of_succ_le hlen)
        rw [hrest, latest_concat_of_room hroom, living_append, living_append, living_living hle]
      | false =>
        -- The entry that is dropped is not too old, and so no entry is.
        rw [hexpired, Bool.not_false, Bool.true_and, List.any_eq_false] at hcrowd
        have hall : living timeToLive now (e :: rest) = e :: rest := by
          refine List.filter_eq_self.mpr fun e' he' => ?_
          rcases List.mem_cons.mp he' with rfl | he'
          · simp [hexpired]
          · simpa using hcrowd e' he'
        rw [hall, latest_concat_of_full hfull]

theorem put_expire (hroom : s.entries.length ≤ s.capacity) {key : String} {value : α}
    (hcrowd : crowdsOut now (.put key value) s = false) (hle : now ≤ later) :
    ((s.expire now).put now key value).expire later = (s.put now key value).expire later := by
  have hlen : (without key s.entries).length ≤ s.capacity :=
    (List.length_filter_le _ _).trans hroom
  have hsame := living_latest_concat hlen ⟨key, now, value⟩ hcrowd hle
  rw [expire_eq now, expire_eq later, expire_eq later]
  dsimp only [put]
  rw [without_living, hsame]

theorem invalidate_expire (hle : now ≤ later) (key : String) (s : Store α τ) :
    ((s.expire now).invalidate key).expire later = (s.invalidate key).expire later := by
  rw [expire_eq, expire_eq, expire_eq]
  dsimp only [invalidate]
  rw [without_living, living_living hle]

/-- What is too old plays no part in an operation that does not crowd out. -/
theorem perform_expire (hnodup : s.keys.Nodup) (hroom : s.entries.length ≤ s.capacity)
    {op : Operation α} (hcrowd : crowdsOut now op s = false) :
    ((s.expire now).perform now op).1 = (s.perform now op).1 ∧
      ∀ later, now ≤ later →
        ((s.expire now).perform now op).2.expire later = (s.perform now op).2.expire later := by
  cases op with
  | put key value => exact ⟨rfl, fun later hle => put_expire hroom hcrowd hle⟩
  | get key => exact get_expire hnodup key
  | invalidate key => exact ⟨rfl, fun later hle => invalidate_expire hle key s⟩
  | clear => exact ⟨rfl, fun later _ => rfl⟩

end Perform

/-! ### An operation that crowds out -/

theorem exists_of_crowds {timeToLive : Option τ} {capacity : Nat} {now : τ}
    {others : List (StoreEntry α τ)} (h : crowds timeToLive capacity now others = true) :
    ∃ e rest, others = e :: rest ∧ capacity ≤ rest.length + 1 ∧
      isExpired timeToLive now e = false ∧ ∃ e' ∈ rest, isExpired timeToLive now e' = true := by
  cases others with
  | nil => exact absurd h Bool.false_ne_true
  | cons e rest =>
    rw [crowds, Bool.and_eq_true, Bool.and_eq_true, decide_eq_true_iff, Bool.not_eq_true',
      List.any_eq_true] at h
    exact ⟨e, rest, rfl, h⟩

/-- A put into a full store drops the first entry. -/
theorem get_put_of_full {s : Store α τ} (hnodup : s.keys.Nodup) {key : String}
    {e : StoreEntry α τ} {rest : List (StoreEntry α τ)}
    (hothers : without key s.entries = e :: rest) (hfull : rest.length + 1 = s.capacity) (now : τ) (value : α) :
    ((s.put now key value).get now e.key).1 = none := by
  have he : e ∈ without key s.entries := hothers ▸ List.mem_cons_self
  have hkeys : ((e :: rest).map (·.key)).Nodup :=
    hothers ▸ hnodup.sublist (List.filter_sublist.map _)
  refine Option.eq_none_iff_forall_ne_some.mpr fun v hv => ?_
  obtain ⟨e', hmem, hkey, -⟩ := (get_eq_some_iff (nodup_keys_put hnodup now key value)).mp hv
  rw [put, hothers, latest_concat_of_full hfull] at hmem
  rcases List.mem_append.mp hmem with hmem | hmem
  · exact (List.nodup_cons.mp hkeys).1 (List.mem_map.mpr ⟨e', hmem, hkey⟩)
  · rw [List.mem_singleton.mp hmem] at hkey
    exact (mem_without.mp he).2 hkey.symm

/-- A put into a store that has dropped what is too old, and so has room, drops no other entry. -/
theorem get_put_expire {s : Store α τ} (hnodup : s.keys.Nodup) {now : τ} {key : String}
    {e e' : StoreEntry α τ} (he : e ∈ without key s.entries)
    (hlive : isExpired s.timeToLive now e = false) (he' : e' ∈ without key s.entries)
    (hexpired : isExpired s.timeToLive now e' = true)
    (hroom : (without key s.entries).length ≤ s.capacity) (value : α) :
    ((((s.expire now).put now key value).expire now).get now e.key).1 = some e.value := by
  have hnodup' := nodup_keys_put (hnodup.sublist (keys_expire_sublist now s)) now key value
  have hlt : (living s.timeToLive now (without key s.entries)).length < s.capacity := by
    have hless : (living s.timeToLive now (without key s.entries)).length
        < (without key s.entries).length :=
      List.length_filter_lt_length_iff_exists.mpr ⟨e', he', by simp [hexpired]⟩
    exact hless.trans_le hroom
  refine (get_eq_some_iff (hnodup'.sublist (keys_expire_sublist now _))).mpr
    ⟨e, mem_living.mpr ⟨?_, hlive⟩, rfl, hlive, rfl⟩
  rw [expire_eq, put, without_living, latest_concat_of_room hlt]
  exact List.mem_append_left _ (mem_living.mpr ⟨he, hlive⟩)

/-- What a put that crowds out drops is found after it if what is too old is dropped before. -/
theorem exists_get_ne_of_crowdsOut {s : Store α τ} (hnodup : s.keys.Nodup)
    (hroom : s.entries.length ≤ s.capacity) {now : τ} {op : Operation α}
    (hcrowd : crowdsOut now op s = true) :
    ∃ other, ((s.perform now op).2.get now other).1
      ≠ ((((s.expire now).perform now op).2.expire now).get now other).1 := by
  cases op with
  | put key value =>
    obtain ⟨e, rest, hothers, hfull, hlive, e', he', hexpired⟩ := exists_of_crowds hcrowd
    have hlen : (without key s.entries).length ≤ s.capacity :=
      (List.length_filter_le _ _).trans hroom
    have hrest : rest.length + 1 = s.capacity := by
      rw [hothers, List.length_cons] at hlen
      omega
    have hlost := get_put_of_full hnodup hothers hrest now value
    have hfound := get_put_expire hnodup (hothers ▸ List.mem_cons_self) hlive
      (hothers ▸ List.mem_cons_of_mem e he') hexpired hlen value
    refine ⟨e.key, fun heq => ?_⟩
    exact Option.some_ne_none e.value (hfound.symm.trans (heq.symm.trans hlost))
  | _ => exact absurd hcrowd Bool.false_ne_true

/-! ### Runs -/

theorem runExpiring_cons (now : τ) (op : Operation α) (rest : List (τ × Operation α))
    (s : Store α τ) :
    runExpiring ((now, op) :: rest) s
      = (((s.expire now).perform now op).1
          :: (runExpiring rest ((s.expire now).perform now op).2).1,
        (runExpiring rest ((s.expire now).perform now op).2).2) := rfl

theorem runExpiring_concat (ops : List (τ × Operation α)) (now : τ) (op : Operation α)
    (s : Store α τ) :
    runExpiring (ops ++ [(now, op)]) s
      = ((runExpiring ops s).1 ++ [(((runExpiring ops s).2.expire now).perform now op).1],
        (((runExpiring ops s).2.expire now).perform now op).2) := by
  induction ops generalizing s with
  | nil => rfl
  | cons first rest ih =>
    rw [List.cons_append, runExpiring_cons, runExpiring_cons, ih]
    rfl

section Run

variable [LE τ] [LawfulClock τ]

/-- If no operation crowds out, the two stores find the same, and agree later on. -/
theorem run_agrees {s : Store α τ} (hempty : s.entries = []) {ops : List (τ × Operation α)}
    (htimes : (ops.map Prod.fst).Pairwise (· ≤ ·)) (hcrowd : everCrowdsOut ops s = false) :
    (runExpiring ops s).1 = (run ops s).1 ∧
      ∀ later, (∀ op ∈ ops, op.1 ≤ later) →
        (runExpiring ops s).2.expire later = (run ops s).2.expire later := by
  induction ops using List.reverseRecOn with
  | nil => exact ⟨rfl, fun _ _ => rfl⟩
  | append_singleton ops op ih =>
    obtain ⟨now, op⟩ := op
    rw [everCrowdsOut_concat, Bool.or_eq_false_iff] at hcrowd
    rw [List.map_append, List.map_singleton, List.pairwise_append] at htimes
    obtain ⟨hbefore, -, hnow⟩ := htimes
    obtain ⟨hfound, hlater⟩ := ih hbefore hcrowd.1
    have hfollows := follows_run ops hempty
    obtain ⟨hsame, hsame'⟩ := perform_expire hfollows.nodup_keys hfollows.size_le hcrowd.2
    have hstate : (runExpiring ops s).2.expire now = (run ops s).2.expire now :=
      hlater now fun op' hop' =>
        hnow op'.1 (List.mem_map_of_mem hop') now (List.mem_singleton_self _)
    rw [runExpiring_concat, run_concat, hstate, hfound, hsame]
    refine ⟨rfl, fun later hle => ?_⟩
    exact hsame' later (hle (now, op) (List.mem_append_right _ (List.mem_singleton_self _)))

/-- **What is too old is treated as missing unless an operation crowds out.**  Let operations be
performed on an empty store while time does not go back, and let none crowd out.  They find what
they find if whatever is too old is dropped before each.  If the next operation crowds out, then
some key, asked for right after it, tells the two apart. -/
theorem run_eq_runExpiring {s : Store α τ} (hempty : s.entries = [])
    {ops : List (τ × Operation α)} (htimes : (ops.map Prod.fst).Pairwise (· ≤ ·))
    (hcrowd : everCrowdsOut ops s = false) :
    (run ops s).1 = (runExpiring ops s).1 ∧
      ∀ now op, (∀ earlier ∈ ops, earlier.1 ≤ now) → crowdsOut now op (run ops s).2 = true →
        ∃ other, (run (ops ++ [(now, op)] ++ [(now, .get other)]) s).1
          ≠ (runExpiring (ops ++ [(now, op)] ++ [(now, .get other)]) s).1 := by
  obtain ⟨hfound, hlater⟩ := run_agrees hempty htimes hcrowd
  refine ⟨hfound.symm, fun now op hnow hcrowds => ?_⟩
  have hfollows := follows_run ops hempty
  obtain ⟨other, hother⟩ := exists_get_ne_of_crowdsOut hfollows.nodup_keys hfollows.size_le hcrowds
  refine ⟨other, fun heq => hother ?_⟩
  rw [run_concat, run_concat, runExpiring_concat, runExpiring_concat, hlater now hnow] at heq
  exact List.singleton_inj.mp (List.append_inj_right' heq rfl)

/-- Two values are put, and the one that was put first is found. -/
def olderFoundLast : List (Double × Operation String) :=
  [(.ofInt 0, .put "a" "first"), (.ofInt 8, .put "b" "second"), (.ofInt 9, .get "a")]

/-- What was found last may be kept after it is too old, in the place of what is not. -/
theorem run_eq_runExpiring_olderFoundLast :
    ∃ s : Store String Double, create 2 (some (.ofInt 10)) = .ok s ∧ s.entries = [] ∧
      (olderFoundLast.map Prod.fst).Pairwise (· ≤ ·) ∧ everCrowdsOut olderFoundLast s = false ∧
      (runExpiring olderFoundLast s).1 = [none, none, some "first"] ∧
      ∃ other, (run (olderFoundLast ++ [(.ofInt 15, .put "c" "third")]
          ++ [(.ofInt 15, .get other)]) s).1
        ≠ (runExpiring (olderFoundLast ++ [(.ofInt 15, .put "c" "third")]
          ++ [(.ofInt 15, .get other)]) s).1 := by
  have htimes : (olderFoundLast.map Prod.fst).Pairwise (· ≤ ·) := by decide +kernel
  have hcrowd : everCrowdsOut olderFoundLast
      (⟨2, some (.ofInt 10), [], by decide⟩ : Store String Double) = false := by
    decide +kernel
  obtain ⟨hsame, hnext⟩ := run_eq_runExpiring rfl htimes hcrowd
  refine ⟨⟨2, some (.ofInt 10), [], by decide⟩, rfl, rfl, htimes, hcrowd, ?_, ?_⟩
  · rw [← hsame]
    decide +kernel
  · exact hnext (.ofInt 15) (.put "c" "third") (by decide +kernel) (by decide +kernel)

/-- An entry that is too old takes the place of one that is not: of two entries that last ten
seconds, `b` was put seven seconds ago and is lost, because `a`, which was put fifteen seconds ago,
was found since. -/
theorem exists_crowding_out :
    ∃ s : Store String Double, create 2 (some (.ofInt 10)) = .ok s ∧
      ([.ofInt 0, .ofInt 8, .ofInt 9, .ofInt 15, .ofInt 15] : List Double).Pairwise (· ≤ ·) ∧
      (run [(.ofInt 0, .put "a" "first"), (.ofInt 8, .put "b" "second"), (.ofInt 9, .get "a"),
        (.ofInt 15, .put "c" "third"), (.ofInt 15, .get "b")] s).1
          = [none, none, some "first", none, none] ∧
      (runExpiring [(.ofInt 0, .put "a" "first"), (.ofInt 8, .put "b" "second"),
        (.ofInt 9, .get "a"), (.ofInt 15, .put "c" "third"), (.ofInt 15, .get "b")] s).1
          = [none, none, some "first", none, some "second"] :=
  ⟨⟨2, some (.ofInt 10), [], by decide⟩, rfl, by decide +kernel, by decide +kernel,
    by decide +kernel⟩

end Run

end CodeAtlas.Store
