import CodeAtlas.Proofs.Store.History

/-!
# What a bounded store keeps

A store that was empty at first holds its keys in the order in which they were last put or found,
and finds under a key what was put last, unless that is too old, was dropped on request, or had to
make room for other keys (`run_exact`).  It has to make room only if as many other keys as it can
keep were put or found since.

`Follows steps s` is the invariant: the entries of `s` are those that the history `steps` leaves.
An operation either moves an entry to the end (`Follows.touch`) or keeps a part of the entries
(`Follows.drop`).  That an entry is not dropped for want of room is `mem_latest`: the entries behind
it belong to keys that were touched since.
-/

namespace CodeAtlas.Store

variable {α τ : Type}

/-! ### Entries -/

theorem create_eq_ok {capacity : Int} (h : 1 ≤ capacity) (timeToLive : Option τ) :
    create (α := α) capacity timeToLive
      = .ok ⟨capacity.toNat, timeToLive, [], Int.lt_toNat.mpr h⟩ := by
  rw [create, dif_pos]

theorem mem_without {key : String} {entries : List (StoreEntry α τ)} {e : StoreEntry α τ} :
    e ∈ without key entries ↔ e ∈ entries ∧ e.key ≠ key := by
  rw [without, List.mem_filter, bne_iff_ne]

theorem mem_of_entry?_eq_some {s : Store α τ} {key : String} {e : StoreEntry α τ}
    (h : s.entry? key = some e) : e ∈ s.entries ∧ e.key = key := by
  unfold entry? at h
  have hkey := List.find?_some h
  exact ⟨List.mem_of_find?_eq_some h, beq_iff_eq.mp hkey⟩

theorem entry?_eq_some_iff {s : Store α τ} (hnodup : s.keys.Nodup) {key : String}
    {e : StoreEntry α τ} : s.entry? key = some e ↔ e ∈ s.entries ∧ e.key = key := by
  refine ⟨mem_of_entry?_eq_some, ?_⟩
  rintro ⟨hmem, rfl⟩
  cases hfind : s.entry? e.key with
  | none => exact absurd (beq_self_eq_true e.key) (List.find?_eq_none.mp hfind e hmem)
  | some e' =>
    obtain ⟨hmem', hkey⟩ := mem_of_entry?_eq_some hfind
    rw [List.inj_on_of_nodup_map hnodup hmem' hmem hkey]

/-- A store finds the value of an entry that is not too old. -/
theorem get_eq_some_iff [Clock τ] {s : Store α τ} (hnodup : s.keys.Nodup) {now : τ} {key : String}
    {v : α} :
    (s.get now key).1 = some v
      ↔ ∃ e ∈ s.entries, e.key = key ∧ isExpired s.timeToLive now e = false ∧ e.value = v := by
  unfold Store.get
  constructor
  · intro hfound
    cases hentry : s.entry? key with
    | none =>
      rw [hentry] at hfound
      exact absurd hfound (Option.some_ne_none v).symm
    | some e =>
      rw [hentry] at hfound
      obtain ⟨hmem, hkey⟩ := mem_of_entry?_eq_some hentry
      dsimp only at hfound
      split_ifs at hfound with hexpired
      exact ⟨e, hmem, hkey, Bool.not_eq_true _ ▸ hexpired, Option.some.inj hfound⟩
  · rintro ⟨e, hmem, hkey, hlive, rfl⟩
    rw [(entry?_eq_some_iff hnodup).mpr ⟨hmem, hkey⟩]
    simp [hlive]

theorem length_latest_le (capacity : Nat) (entries : List (StoreEntry α τ)) :
    (latest capacity entries).length ≤ capacity := by
  rw [latest, List.length_drop]
  omega

theorem latest_sublist (capacity : Nat) (entries : List (StoreEntry α τ)) :
    (latest capacity entries).Sublist entries := List.drop_sublist _ _

theorem latest_eq_self {capacity : Nat} {entries : List (StoreEntry α τ)}
    (h : entries.length ≤ capacity) : latest capacity entries = entries := by
  rw [latest, Nat.sub_eq_zero_of_le h, List.drop_zero]

theorem latest_concat_of_full {capacity : Nat} {e x : StoreEntry α τ}
    {rest : List (StoreEntry α τ)} (h : rest.length + 1 = capacity) :
    latest capacity (e :: rest ++ [x]) = rest ++ [x] := by
  have hdrop : (e :: rest ++ [x]).length - capacity = 1 := by
    rw [List.length_append, List.length_cons, List.length_singleton]
    omega
  rw [latest, hdrop]
  rfl

theorem latest_concat_of_room {capacity : Nat} {x : StoreEntry α τ}
    {entries : List (StoreEntry α τ)} (h : entries.length < capacity) :
    latest capacity (entries ++ [x]) = entries ++ [x] := by
  refine latest_eq_self ?_
  rw [List.length_append, List.length_singleton]
  exact h

theorem nodup_keys_put {s : Store α τ} (h : s.keys.Nodup) (now : τ) (key : String) (value : α) :
    (s.put now key value).keys.Nodup := by
  have hsub : ((s.put now key value).keys).Sublist
      ((without key s.entries ++ [(⟨key, now, value⟩ : StoreEntry α τ)]).map (·.key)) :=
    (latest_sublist _ _).map _
  refine List.Nodup.sublist hsub ?_
  rw [List.map_append, List.map_singleton, List.nodup_append_comm]
  refine List.nodup_cons.mpr ⟨fun hmem => ?_, h.sublist (List.filter_sublist.map _)⟩
  obtain ⟨e, he, hkey⟩ := List.mem_map.mp hmem
  exact (mem_without.mp he).2 hkey

/-- What stands under a key has this key. -/
theorem key_of_standing {key : String} {steps : List (Step α τ)} {e : StoreEntry α τ}
    (h : standing key steps = some e) : e.key = key := by
  induction steps using List.reverseRecOn generalizing e with
  | nil => exact absurd h (Option.some_ne_none e).symm
  | append_singleton steps step ih =>
    rw [standing_concat] at h
    unfold standingAfter at h
    split at h
    · split_ifs at h
      · rw [← Option.some.inj h]
      · exact ih h
    · exact ih h
    · split_ifs at h
      exact ih h
    · exact absurd h (Option.some_ne_none e).symm

/-- Of entries in the order of a history, those of keys since which few others were touched are
among the latest. -/
theorem mem_latest {steps : List (Step α τ)} {capacity : Nat} {entries : List (StoreEntry α τ)}
    (horder : (entries.map (·.key)).Pairwise fun a b => b ∈ touchedSince a steps)
    {e : StoreEntry α τ} (he : e ∈ entries)
    (hfew : (touchedSince e.key steps).length < capacity) : e ∈ latest capacity entries := by
  obtain ⟨before, behind, rfl⟩ := List.append_of_mem he
  rw [List.map_append, List.map_cons] at horder
  obtain ⟨hbehind, hrest⟩ := List.pairwise_cons.mp (List.pairwise_append.mp horder).2.1
  have hnodup : (behind.map (·.key)).Nodup := hrest.imp ne_of_mem_touchedSince
  have hlen : (behind.map (·.key)).length ≤ (touchedSince e.key steps).length :=
    (List.subperm_of_subset hnodup hbehind).length_le
  rw [List.length_map] at hlen
  -- There is room for the entry and for those behind it.
  have hdrop : (before ++ e :: behind).length - capacity ≤ before.length := by
    rw [List.length_append, List.length_cons]
    omega
  rw [latest, List.drop_append_of_le_length hdrop]
  exact List.mem_append_right _ List.mem_cons_self

/-! ### The invariant -/

section Step

variable [Clock τ] [LE τ] {steps : List (Step α τ)} {s : Store α τ} {step : Step α τ}

/-- The entries of the store are in the order of a history, hold what stands under their keys, and
are all of it that is neither too old nor had to make room. -/
structure Follows (steps : List (Step α τ)) (s : Store α τ) : Prop where
  size_le : s.entries.length ≤ s.capacity
  inOrder : s.keys.Pairwise fun a b => b ∈ touchedSince a steps
  standing_eq : ∀ e ∈ s.entries, standing e.key steps = some e
  kept : ∀ {now : τ} {key : String} {e : StoreEntry α τ}, (∀ step ∈ steps, step.time ≤ now) →
    standing key steps = some e → isExpired s.timeToLive now e = false →
    (touchedSince key steps).length < s.capacity → e ∈ s.entries

theorem Follows.nodup_keys (h : Follows steps s) : s.keys.Nodup :=
  h.inOrder.imp ne_of_mem_touchedSince

theorem Follows.empty {s : Store α τ} (h : s.entries = []) : Follows [] s := by
  refine ⟨?_, ?_, ?_, ?_⟩
  · rw [h]
    exact Nat.zero_le _
  · rw [keys, h]
    exact List.Pairwise.nil
  · intro e he
    rw [h] at he
    exact absurd he List.not_mem_nil
  · intro now key e _ hstanding
    exact absurd hstanding (Option.some_ne_none e).symm

/-- The order is kept when the entry of the key that is touched is put last. -/
theorem Follows.inOrder_touch (h : Follows steps s) {e : StoreEntry α τ}
    (hstep : step.touched? = some e.key) :
    ((without e.key s.entries ++ [e]).map (·.key)).Pairwise
      fun a b => b ∈ touchedSince a (steps ++ [step]) := by
  have hsub : ((without e.key s.entries).map (·.key)).Sublist s.keys := List.filter_sublist.map _
  have hne : ∀ a ∈ (without e.key s.entries).map (·.key), step.touched? ≠ some a := by
    intro a ha heq
    obtain ⟨e', he', rfl⟩ := List.mem_map.mp ha
    exact (mem_without.mp he').2 (Option.some.inj (heq.symm.trans hstep))
  rw [List.map_append, List.map_singleton, List.pairwise_append]
  refine ⟨?_, List.pairwise_singleton _ _, ?_⟩
  · refine (h.inOrder.sublist hsub).imp_of_mem fun {a b} ha _ hb => ?_
    exact (mem_touchedSince_concat (hne a ha)).mpr (Or.inl hb)
  · intro a ha b hb
    rw [List.mem_singleton.mp hb]
    exact (mem_touchedSince_concat (hne a ha)).mpr (Or.inr hstep)

/-- An entry is put last, and the first ones are dropped if they are too many. -/
theorem Follows.touch (h : Follows steps s) {e : StoreEntry α τ}
    (hstep : step.touched? = some e.key) (he : standing e.key (steps ++ [step]) = some e)
    (hother : ∀ key ≠ e.key, standing key (steps ++ [step]) = standing key steps) :
    Follows (steps ++ [step])
      { s with entries := latest s.capacity (without e.key s.entries ++ [e]) } := by
  have horder := h.inOrder_touch hstep
  refine ⟨length_latest_le _ _, ?_, ?_, ?_⟩
  · exact horder.sublist ((latest_sublist _ _).map _)
  · intro e' he'
    rcases List.mem_append.mp ((latest_sublist _ _).subset he') with he' | he'
    · obtain ⟨hmem, hne⟩ := mem_without.mp he'
      rw [hother _ hne]
      exact h.standing_eq e' hmem
    · rw [List.mem_singleton.mp he']
      exact he
  · intro now key e' htimes hstanding hlive hfew
    have hkey := key_of_standing hstanding
    refine mem_latest horder ?_ (hkey ▸ hfew)
    by_cases heq : key = e.key
    · rw [heq, he] at hstanding
      rw [Option.some.inj hstanding]
      exact List.mem_append_right _ (List.mem_singleton_self _)
    · rw [hother key heq] at hstanding
      have hne : step.touched? ≠ some key := fun htouched =>
        heq (Option.some.inj (htouched.symm.trans hstep))
      have hmem := h.kept (fun st hst => htimes st (List.mem_append_left _ hst)) hstanding hlive
        ((length_touchedSince_le_concat hne).trans_lt hfew)
      exact List.mem_append_left _ (mem_without.mpr ⟨hmem, hkey ▸ heq⟩)

/-- A part of the entries is kept, and what is not kept is too old or does not stand any more. -/
theorem Follows.drop (h : Follows steps s) {rest : List (StoreEntry α τ)}
    (hstep : step.touched? = none) (hsub : rest.Sublist s.entries)
    (hrest : ∀ e ∈ rest, standing e.key (steps ++ [step]) = standing e.key steps)
    (hkept : ∀ {now : τ} {key : String} {e : StoreEntry α τ}, step.time ≤ now →
      standing key (steps ++ [step]) = some e → isExpired s.timeToLive now e = false →
      standing key steps = some e ∧ (e ∈ s.entries → e ∈ rest)) :
    Follows (steps ++ [step]) { s with entries := rest } := by
  refine ⟨hsub.length_le.trans h.size_le, ?_, ?_, ?_⟩
  · refine (h.inOrder.sublist (hsub.map _)).imp fun {a b} hb => ?_
    rwa [touchedSince_concat_of_none hstep]
  · intro e he
    rw [hrest e he]
    exact h.standing_eq e (hsub.subset he)
  · intro now key e htimes hstanding hlive hfew
    rw [touchedSince_concat_of_none hstep] at hfew
    have htime : step.time ≤ now :=
      htimes step (List.mem_append_right _ (List.mem_singleton_self _))
    obtain ⟨hstanding', hmem⟩ := hkept htime hstanding hlive
    exact hmem (h.kept (fun st hst => htimes st (List.mem_append_left _ hst)) hstanding' hlive hfew)

end Step

/-! ### Operations -/

section Operation

variable [Clock τ] [LE τ] {steps : List (Step α τ)} {s : Store α τ}

theorem Follows.put (h : Follows steps s) (now : τ) (key : String) (value : α) :
    Follows (steps ++ [⟨now, .put key value, none⟩]) (s.put now key value) := by
  refine h.touch (e := ⟨key, now, value⟩) rfl ?_ fun k hk => ?_
  · rw [standing_concat]
    exact if_pos rfl
  · rw [standing_concat]
    exact if_neg (Ne.symm hk)

theorem Follows.get [LawfulClock τ] (h : Follows steps s) (now : τ) (key : String) :
    Follows (steps ++ [⟨now, .get key, (s.get now key).1⟩]) (s.get now key).2 := by
  have hstanding : ∀ k found, standing k (steps ++ [⟨now, .get key, found⟩]) = standing k steps :=
    fun k found => standing_concat k steps _
  unfold Store.get
  cases hentry : s.entry? key with
  | none =>
    refine h.drop rfl (List.Sublist.refl _) (fun e _ => hstanding e.key none) ?_
    intro later k e _ hk _
    exact ⟨(hstanding k none).symm.trans hk, id⟩
  | some e =>
    obtain ⟨hmem, rfl⟩ := mem_of_entry?_eq_some hentry
    dsimp only
    by_cases hexpired : isExpired s.timeToLive now e = true
    · rw [if_pos hexpired]
      refine h.drop rfl List.filter_sublist (fun e' _ => hstanding e'.key none) ?_
      intro later k e' hlater hk hlive
      rw [hstanding] at hk
      refine ⟨hk, fun hmem' => mem_without.mpr ⟨hmem', fun heq => ?_⟩⟩
      -- The entry that is dropped is too old at every later moment.
      have hsame : e' = e := by
        have he' := h.standing_eq e' hmem'
        rw [heq, h.standing_eq e hmem] at he'
        exact (Option.some.inj he').symm
      rw [hsame, isExpired_of_le hlater hexpired] at hlive
      exact Bool.noConfusion hlive
    · rw [if_neg hexpired]
      have htouch : Follows (steps ++ [⟨now, .get e.key, some e.value⟩])
          { s with entries := latest s.capacity (without e.key s.entries ++ [e]) } :=
        h.touch rfl ((hstanding e.key _).trans (h.standing_eq e hmem)) fun k _ => hstanding k _
      have hroom : (without e.key s.entries ++ [e]).length ≤ s.capacity := by
        have hlt : (without e.key s.entries).length < s.entries.length :=
          List.length_filter_lt_length_iff_exists.mpr ⟨e, hmem, by simp⟩
        rw [List.length_append, List.length_singleton]
        exact hlt.trans_le h.size_le
      rwa [latest_eq_self hroom] at htouch

theorem Follows.invalidate (h : Follows steps s) (now : τ) (key : String) :
    Follows (steps ++ [⟨now, .invalidate key, none⟩]) (s.invalidate key) := by
  have hother : ∀ k ≠ key,
      standing k (steps ++ [⟨now, .invalidate key, none⟩]) = standing k steps :=
    fun k hk => (standing_concat k steps _).trans (if_neg (Ne.symm hk))
  refine h.drop rfl List.filter_sublist (fun e he => hother e.key (mem_without.mp he).2) ?_
  intro later k e _ hk _
  have hne : k ≠ key := by
    rintro rfl
    have hnone : standing k (steps ++ [⟨now, .invalidate k, none⟩]) = none :=
      (standing_concat k steps _).trans (if_pos rfl)
    exact Option.some_ne_none e (hk.symm.trans hnone)
  rw [hother k hne] at hk
  exact ⟨hk, fun hmem => mem_without.mpr ⟨hmem, key_of_standing hk ▸ hne⟩⟩

theorem Follows.clear (h : Follows steps s) (now : τ) :
    Follows (steps ++ [⟨now, .clear, none⟩]) s.clear := by
  refine h.drop rfl (List.nil_sublist _) (fun e he => absurd he List.not_mem_nil) ?_
  intro later k e _ hk _
  rw [standing_concat] at hk
  exact absurd hk (Option.some_ne_none e).symm

theorem Follows.perform [LawfulClock τ] (h : Follows steps s) (now : τ) (op : Operation α) :
    Follows (steps ++ [⟨now, op, (s.perform now op).1⟩]) (s.perform now op).2 := by
  cases op with
  | put key value => exact h.put now key value
  | get key => exact h.get now key
  | invalidate key => exact h.invalidate now key
  | clear => exact h.clear now

end Operation

/-! ### Runs -/

section Run

variable [Clock τ]

/-- An operation changes neither how much a store can keep nor for how long. -/
theorem perform_settings (now : τ) (op : Operation α) (s : Store α τ) :
    (s.perform now op).2.capacity = s.capacity ∧
      (s.perform now op).2.timeToLive = s.timeToLive := by
  cases op with
  | get key =>
    rw [perform, Store.get]
    split
    · exact ⟨rfl, rfl⟩
    · split_ifs <;> exact ⟨rfl, rfl⟩
  | _ => exact ⟨rfl, rfl⟩

theorem run_settings (ops : List (τ × Operation α)) (s : Store α τ) :
    (run ops s).2.capacity = s.capacity ∧ (run ops s).2.timeToLive = s.timeToLive := by
  induction ops generalizing s with
  | nil => exact ⟨rfl, rfl⟩
  | cons op ops ih =>
    obtain ⟨hcapacity, htimeToLive⟩ := ih (s.perform op.1 op.2).2
    obtain ⟨hcapacity', htimeToLive'⟩ := perform_settings op.1 op.2 s
    exact ⟨hcapacity.trans hcapacity', htimeToLive.trans htimeToLive'⟩

variable [LE τ] [LawfulClock τ]

/-- A store that was empty at first follows its history. -/
theorem follows_run (ops : List (τ × Operation α)) {s : Store α τ} (h : s.entries = []) :
    Follows (history ops s) (run ops s).2 := by
  induction ops using List.reverseRecOn with
  | nil => exact Follows.empty h
  | append_singleton ops op ih =>
    obtain ⟨now, op⟩ := op
    rw [history_concat, run_concat]
    exact ih.perform now op

/-- **What a store keeps.**  Let a store be created that can keep at least one entry, and let
operations be performed on it.  Then its keys are different, no more than it can keep, all of them
stand, and each was put or found since those before it were last.  It finds under a key only what
was put last, was not dropped on request since, and is not older than the time to live; and it does
find this, unless time has gone back, if fewer other keys than it can keep were put or found since
the key was. -/
theorem run_exact {capacity : Int} (hcapacity : 1 ≤ capacity) (timeToLive : Option τ)
    (ops : List (τ × Operation α)) :
    ∃ empty : Store α τ, create capacity timeToLive = .ok empty ∧
      ((run ops empty).2.keys.Nodup ∧
        ((run ops empty).2.size : Int) ≤ capacity ∧
        (∀ key ∈ (run ops empty).2.keys, (standing key (history ops empty)).isSome) ∧
        (run ops empty).2.keys.Pairwise fun a b => b ∈ touchedSince a (history ops empty)) ∧
      ∀ now key,
        (∀ v, ((run ops empty).2.get now key).1 = some v →
          ∃ e, standing key (history ops empty) = some e ∧ e.value = v ∧
            ∀ span ∈ timeToLive, Clock.exceeds e.storedAt now span = false) ∧
        (∀ e, standing key (history ops empty) = some e →
          (∀ span ∈ timeToLive, Clock.exceeds e.storedAt now span = false) →
          (∀ op ∈ ops, op.1 ≤ now) →
          ((touchedSince key (history ops empty)).length : Int) < capacity →
          ((run ops empty).2.get now key).1 = some e.value) := by
  refine ⟨_, create_eq_ok hcapacity timeToLive, ?_⟩
  generalize hempty : (⟨capacity.toNat, timeToLive, [], Int.lt_toNat.mpr hcapacity⟩ : Store α τ)
    = empty
  have hfollows := follows_run ops (s := empty) (by rw [← hempty])
  obtain ⟨hroom, hlife⟩ := run_settings ops empty
  have hcap : (empty.capacity : Int) = capacity := by
    rw [← hempty]
    exact Int.toNat_of_nonneg (by omega)
  have hlife : (run ops empty).2.timeToLive = timeToLive := by rw [hlife, ← hempty]
  refine ⟨⟨hfollows.nodup_keys, ?_, ?_, hfollows.inOrder⟩, fun now key => ⟨?_, ?_⟩⟩
  · have hsize := hfollows.size_le
    rw [size]
    omega
  · intro key hkey
    obtain ⟨e, he, rfl⟩ := List.mem_map.mp hkey
    rw [hfollows.standing_eq e he]
    rfl
  · intro v hv
    obtain ⟨e, he, rfl, hlive, rfl⟩ := (get_eq_some_iff hfollows.nodup_keys).mp hv
    rw [hlife] at hlive
    exact ⟨e, hfollows.standing_eq e he, rfl, isExpired_eq_false_iff.mp hlive⟩
  · intro e hstanding hlive htimes hfew
    rw [← isExpired_eq_false_iff, ← hlife] at hlive
    have hmem := hfollows.kept (fun step hstep => time_le_of_mem_history htimes hstep) hstanding
      hlive (by omega)
    exact (get_eq_some_iff hfollows.nodup_keys).mpr ⟨e, hmem, key_of_standing hstanding, hlive, rfl⟩

/-- What is found is put last, but becomes no younger. -/
theorem run_exact_hit_keeps_age :
    (1 : Int) ≤ 2 ∧
    ∃ s : Store String Double, create 2 (some (.ofInt 10)) = .ok s ∧
      ((run [(.ofInt 0, .put "a" "first"), (.ofInt 8, .put "b" "second"), (.ofInt 9, .get "a"),
        (.ofInt 10, .put "c" "third")] s).2.get (.ofInt 10) "a").1 = some "first" ∧
      ((run [(.ofInt 0, .put "a" "first"), (.ofInt 8, .put "b" "second"), (.ofInt 9, .get "a"),
        (.ofInt 10, .put "c" "third")] s).2.get (.ofInt 11) "a").1 = none := by
  have htwo : (1 : Int) ≤ 2 := by decide
  obtain ⟨s, hs, -, hget⟩ := run_exact htwo (some (Double.ofInt 10))
    [(.ofInt 0, .put "a" "first"), (.ofInt 8, .put "b" "second"), (.ofInt 9, .get "a"),
      (.ofInt 10, .put "c" "third")]
  obtain rfl : ⟨2, some (.ofInt 10), [], by decide⟩ = s := Except.ok.inj hs
  refine ⟨htwo, _, hs, ?_, by decide +kernel⟩
  exact (hget (.ofInt 10) "a").2 ⟨"a", .ofInt 0, "first"⟩ (by decide +kernel) (by decide +kernel)
    (by decide +kernel) (by decide +kernel)

end Run

end CodeAtlas.Store
