import CodeAtlas.Proofs.Engine.Safety
import CodeAtlas.Proofs.Number.Rounding
import Mathlib.Tactic.FieldSimp
import Mathlib.Tactic.Linarith
import Mathlib.Tactic.Positivity

/-!
# The progress that a run makes known

However a run ends, its events are the first of a protocol that is known beforehand: the run enters
its stages in order, and in the second one it reports every file that the scan found, be it analysed
or left out (`analyze_follows_protocol`).  The percentages of the events ascend from 0 to 100, and
only the last event of a complete run says 100.

The percentages are compared as exact numbers (`Percent.value?`).  There is none for a part of
nothing, so the theorem also says that no file is reported if none was found.
-/

namespace CodeAtlas

/-- The exact number of a percentage; none for a part of nothing, and none for a number that is not
finite. -/
def Percent.value? : Percent → Option ℚ
  | exactly (.finite x) => some (x.scaled / Binary64.stepsPerOne)
  | exactly _ => none
  | share base span part whole =>
    if whole = 0 then none else some (base + span * part / whole)

theorem Percent.value?_share (base span part : Nat) {whole : Nat} (h : whole ≠ 0) :
    (share base span part whole).value? = some (base + span * part / whole : ℚ) :=
  if_neg h

theorem Percent.value?_ofNat {n : Nat} (h : n < 2 ^ 53) : (ofNat n).value? = some (n : ℚ) := by
  obtain ⟨x, hx, hscaled⟩ := Binary64.roundRatio_natural h
  have hsign : decide ((n : Int) < 0) = false := decide_eq_false (by omega)
  have hfinite : Double.ofInt n = .finite x := by
    unfold Double.ofInt Double.ofRatio
    rw [hsign, Int.natAbs_natCast, hx]
    rfl
  have hsteps : (Binary64.stepsPerOne : ℚ) ≠ 0 := by
    exact_mod_cast Binary64.stepsPerOne_pos.ne'
  unfold ofNat
  rw [hfinite, value?, hscaled]
  push_cast
  rw [mul_div_cancel_right₀ _ hsteps]

namespace Engine

/-! ### Ascending percentages -/

/-- The percentages of events are numbers from `low` to `high`, and ascend. -/
def Ascends (low high : ℚ) (events : List ProgressEvent) : Prop :=
  ∃ values : List ℚ, events.map (·.percent.value?) = values.map some ∧ values.Pairwise (· ≤ ·) ∧
    ∀ v ∈ values, low ≤ v ∧ v ≤ high

theorem ascends_nil (low high : ℚ) : Ascends low high [] :=
  ⟨[], rfl, List.Pairwise.nil, by simp⟩

theorem Ascends.append {low a b high : ℚ} {xs ys : List ProgressEvent} (hxs : Ascends low a xs)
    (hys : Ascends b high ys) (hlow : low ≤ b) (hab : a ≤ b) (hhigh : a ≤ high) :
    Ascends low high (xs ++ ys) := by
  obtain ⟨us, hus, huspairs, husbounds⟩ := hxs
  obtain ⟨vs, hvs, hvspairs, hvsbounds⟩ := hys
  refine ⟨us ++ vs, ?_, ?_, ?_⟩
  · rw [List.map_append, List.map_append, hus, hvs]
  · rw [List.pairwise_append]
    refine ⟨huspairs, hvspairs, ?_⟩
    intro u hu v hv
    exact ((husbounds u hu).2.trans hab).trans (hvsbounds v hv).1
  · intro v hv
    rcases List.mem_append.mp hv with hv | hv
    · exact ⟨(husbounds v hv).1, (husbounds v hv).2.trans hhigh⟩
    · exact ⟨hlow.trans (hvsbounds v hv).1, (hvsbounds v hv).2⟩

theorem Ascends.of_isPrefixOf {low high : ℚ} {xs ys : List ProgressEvent}
    (hys : Ascends low high ys) (h : xs <+: ys) : Ascends low high xs := by
  obtain ⟨values, hvalues, hpairs, hbounds⟩ := hys
  refine ⟨values.take xs.length, ?_, ?_, ?_⟩
  · rw [List.map_take, ← hvalues, ← List.map_take, ← List.prefix_iff_eq_take.mp h]
  · exact hpairs.sublist (List.take_sublist _ _)
  · intro v hv
    exact hbounds v (List.mem_of_mem_take hv)

theorem Ascends.value?_le {low high : ℚ} {events : List ProgressEvent}
    (h : Ascends low high events) {e : ProgressEvent} (he : e ∈ events) :
    ∃ v, e.percent.value? = some v ∧ v ≤ high := by
  obtain ⟨values, hvalues, -, hbounds⟩ := h
  have hmem : e.percent.value? ∈ values.map some := by
    rw [← hvalues]
    exact List.mem_map_of_mem he
  obtain ⟨v, hv, hsome⟩ := List.mem_map.mp hmem
  exact ⟨v, hsome.symm, (hbounds v hv).2⟩

theorem ascends_entering (stage : Stage) {percent : Nat} (h : percent < 2 ^ 53)
    (message : String) : Ascends percent percent [entering stage percent message] := by
  refine ⟨[(percent : ℚ)], ?_, by simp, by simp⟩
  simp [entering, Percent.value?_ofNat h]

/-- The percentages of reported files ascend from that of the files reported before to 70. -/
theorem ascends_finishings {total done : Nat} (files : List Path)
    (h : done + files.length ≤ total) :
    Ascends (10 + 60 * done / total) 70 (finishings total done files) := by
  induction files generalizing done with
  | nil => exact ascends_nil _ _
  | cons file rest ih =>
    rw [List.length_cons] at h
    have htotal : total ≠ 0 := by omega
    have hpos : (0 : ℚ) < total := by
      exact_mod_cast Nat.pos_of_ne_zero htotal
    have hdone : (done : ℚ) + 1 ≤ total := by
      have hle : done + 1 ≤ total := by omega
      exact_mod_cast hle
    have hstep : (60 : ℚ) * done / total ≤ 60 * (done + 1) / total := by
      gcongr
      linarith
    have hlast : (60 : ℚ) * (done + 1) / total ≤ 60 := by
      rw [div_le_iff₀ hpos]
      linarith
    have hfirst : Ascends (10 + 60 * done / total) (10 + 60 * (done + 1) / total)
        [finishing total (done + 1) file] := by
      refine ⟨[10 + 60 * (done + 1) / total], ?_, by simp, ?_⟩
      · simp [finishing, Percent.value?_share 10 60 (done + 1) htotal]
      · simp [hstep]
    have hrest := @ih (done + 1) (by omega)
    push_cast at hrest
    exact hfirst.append hrest (by linarith) le_rfl (by linarith)

/-! ### The protocol -/

variable {c : Collaborators} {options : RunOptions} {identifier : String}

theorem finished_perm (options : RunOptions)
    (hcompletion : ∀ files, (c.completion files).Perm files) (files : List Path) :
    (finished c options files).Perm files := by
  unfold finished
  split
  · exact hcompletion files
  · exact List.Perm.refl files

/-- The percentages of the protocol up to the event of drawing conclusions. -/
theorem ascends_concluding (hcompletion : ∀ files, (c.completion files).Perm files) :
    Ascends 0 90 (protocolOfGrouping c options identifier ++
      [entering .generating 90 "Generating insights"]) := by
  have hlength : 0 + (finished c options (found c identifier)).length
      ≤ (found c identifier).length := by
    rw [(finished_perm options hcompletion _).length_eq, Nat.zero_add]
  have hcloning : Ascends 0 0 [firstEvent identifier] :=
    mod_cast ascends_entering .cloning (show 0 < 2 ^ 53 by decide) ("Fetching " ++ identifier)
  have hparsing := ascends_entering .parsing (show 10 < 2 ^ 53 by decide) "Scanning source files"
  have hfiles := ascends_finishings (finished c options (found c identifier)) hlength
  have hanalyzing := ascends_entering .analyzing (show 70 < 2 ^ 53 by decide)
    "Grouping components and computing metrics"
  have hgenerating := ascends_entering .generating (show 90 < 2 ^ 53 by decide)
    "Generating insights"
  push_cast at hparsing hfiles hanalyzing hgenerating
  rw [mul_zero, zero_div, add_zero] at hfiles
  have hopening : Ascends 0 10 (openingEvents identifier) :=
    hcloning.append hparsing (by norm_num) (by norm_num) (by norm_num)
  have hanalyzed : Ascends 0 70 (protocolOfFiles c options identifier) :=
    hopening.append hfiles (by norm_num) (by norm_num) (by norm_num)
  have hgrouped : Ascends 0 70 (protocolOfGrouping c options identifier) :=
    hanalyzed.append hanalyzing (by norm_num) (by norm_num) (by norm_num)
  exact hgrouped.append hgenerating (by norm_num) (by norm_num) (by norm_num)

theorem stage_of_mem_finishings {total done : Nat} {files : List Path} {e : ProgressEvent}
    (he : e ∈ finishings total done files) : e.stage = some .parsing := by
  induction files generalizing done with
  | nil => simp [finishings] at he
  | cons file rest ih =>
    rcases List.mem_cons.mp he with rfl | he
    · rfl
    · exact ih he

/-- An event of the protocol says 100 if it is that of being complete, and only then. -/
theorem value?_eq_hundred_iff (hcompletion : ∀ files, (c.completion files).Perm files)
    {e : ProgressEvent} (he : e ∈ protocol c options identifier) :
    e.percent.value? = some 100 ↔ e.stage = some .complete := by
  have hhundred : (Percent.ofNat 100).value? = some 100 :=
    Percent.value?_ofNat (show 100 < 2 ^ 53 by decide)
  rcases List.mem_append.mp he with he | he
  · obtain ⟨v, hv, hle⟩ := (ascends_concluding hcompletion).value?_le he
    have hvalue : e.percent.value? ≠ some 100 := by
      rw [hv, Ne, Option.some.injEq]
      intro h
      rw [h] at hle
      norm_num at hle
    have hstage : e.stage ≠ some .complete := by
      simp only [protocolOfGrouping, protocolOfFiles, openingEvents, List.mem_append,
        List.mem_cons, List.not_mem_nil, or_false] at he
      rcases he with ((((rfl | rfl) | he) | rfl) | rfl)
      · show some Stage.cloning ≠ some Stage.complete
        decide
      · decide
      · rw [stage_of_mem_finishings he]
        decide
      · decide
      · decide
    exact iff_of_false hvalue hstage
  · obtain rfl := List.mem_singleton.mp he
    exact iff_of_true hhundred rfl

/-- The events of a run that ends with an analysis are the protocol, and those of any other run are
the first of it. -/
theorem events_analyze (c : Collaborators) (options : RunOptions) (identifier : String) :
    (analyze c options identifier).2.tracker.events <+: protocol c options identifier ∧
      ∀ a, (analyze c options identifier).1 = .completed a →
        (analyze c options identifier).2.tracker.events = protocol c options identifier := by
  rw [tracker_analyze]
  rcases hrun : (course c options identifier).run .start with ⟨e | a, s⟩
  · obtain ⟨events, -, hevents, hs⟩ := course_error hrun
    dsimp only
    rw [hs.events_eq]
    refine ⟨hevents, ?_⟩
    intro a ha
    exact absurd ha ((not_completed_of_error hrun).1 a)
  · obtain ⟨-, hs, -⟩ := course_ok hrun
    dsimp only
    rw [hs.events_eq]
    exact ⟨List.prefix_refl _, fun _ _ => rfl⟩

/-- **The progress of a run.**  Let side-by-side analysis finish every file once, in some order.
The events of a run are the first of this sequence, and all of it if the run ends with an analysis:
cloning, parsing, one report for each file that was found, analyzing, generating and complete.
Files are reported in the order of the scan unless they are analysed side by side.  The percentages
are exact numbers from 0 to 100 that ascend, and an event says 100 if and only if it is that of
being complete. -/
theorem analyze_follows_protocol (c : Collaborators) (options : RunOptions) (identifier : String)
    (hcompletion : ∀ files, (c.completion files).Perm files) :
    ∃ outcome s, analyze c options identifier = (outcome, s) ∧
      ∃ (order : List Path) (values : List ℚ),
        order.Perm (found c identifier) ∧
        (inParallel options order.length = false → order = found c identifier) ∧
        (let sequence :=
          [entering .cloning 0 ("Fetching " ++ identifier),
            entering .parsing 10 "Scanning source files"]
          ++ finishings order.length 0 order
          ++ [entering .analyzing 70 "Grouping components and computing metrics",
            entering .generating 90 "Generating insights",
            entering .complete 100 "Analysis complete"]
        s.tracker.events <+: sequence ∧ ∀ a, outcome = .completed a → s.tracker.events = sequence) ∧
        s.tracker.events.map (·.percent.value?) = values.map some ∧
        values.Pairwise (· ≤ ·) ∧
        (∀ v ∈ values, 0 ≤ v ∧ v ≤ 100) ∧
        ∀ e ∈ s.tracker.events, e.percent.value? = some 100 ↔ e.stage = some .complete := by
  obtain ⟨hbegins, hcompleted⟩ := events_analyze c options identifier
  have hperm := finished_perm options hcompletion (found c identifier)
  have hlength := hperm.length_eq
  have hcomplete := ascends_entering .complete (show 100 < 2 ^ 53 by decide) "Analysis complete"
  push_cast at hcomplete
  have hascends : Ascends 0 100 (protocol c options identifier) :=
    (ascends_concluding hcompletion).append hcomplete (by norm_num) (by norm_num) (by norm_num)
  obtain ⟨values, hvalues, hpairs, hbounds⟩ := hascends.of_isPrefixOf hbegins
  refine ⟨_, _, rfl, finished c options (found c identifier), values, hperm, ?_, ?_, hvalues,
    hpairs, hbounds, ?_⟩
  · intro hsequential
    rw [hlength] at hsequential
    rw [finished, hsequential]
    rfl
  · have hsequence : protocol c options identifier
        = [entering .cloning 0 ("Fetching " ++ identifier),
            entering .parsing 10 "Scanning source files"]
          ++ finishings (finished c options (found c identifier)).length 0
            (finished c options (found c identifier))
          ++ [entering .analyzing 70 "Grouping components and computing metrics",
            entering .generating 90 "Generating insights",
            entering .complete 100 "Analysis complete"] := by
      rw [hlength]
      simp [protocol, protocolOfGrouping, protocolOfFiles, openingEvents, firstEvent]
    rw [← hsequence]
    exact ⟨hbegins, hcompleted⟩
  · intro e he
    exact value?_eq_hundred_iff hcompletion (hbegins.subset he)

/-- Collaborators that find two files, of which one cannot be read, and finish the second first. -/
def finishingInReverse : Collaborators where
  fetch _ := .ok ⟨1, ["repo"]⟩
  scan root := .ok { Scan.start with files := [root.join ⟨0, ["a.js"]⟩, root.join ⟨0, ["b.js"]⟩] }
  analyzeFile file _ :=
    if file.name = "a.js" then .error (.fileRead file.toText "Permission denied")
    else .ok (some default)
  completion := List.reverse
  history := none
  group _ := .ok default
  measure _ := .ok default
  conclude _ _ _ := .ok default
  receive _ := .ok ()
  isCancelled _ := false
  now := default

/-- Both files are reported, also the one that is left out. -/
theorem analyze_follows_protocol_reverse :
    (∀ files, (finishingInReverse.completion files).Perm files) ∧
      ∃ outcome s, analyze finishingInReverse ⟨4, false, true⟩ "repo" = (outcome, s) ∧
        ∃ (order : List Path) (values : List ℚ),
          order.Perm [⟨1, ["repo", "a.js"]⟩, ⟨1, ["repo", "b.js"]⟩] ∧
          s.tracker.events.length = 7 ∧
          s.tracker.events.map (·.percent.value?) = values.map some ∧
          values.Pairwise (· ≤ ·) := by
  have hcompletion : ∀ files, (finishingInReverse.completion files).Perm files :=
    List.reverse_perm
  obtain ⟨outcome, s, hrun, order, values, hperm, -, -, hvalues, hpairs, -, -⟩ :=
    analyze_follows_protocol finishingInReverse ⟨4, false, true⟩ "repo" hcompletion
  refine ⟨hcompletion, outcome, s, hrun, order, values, hperm, ?_, hvalues, hpairs⟩
  have hs : (analyze finishingInReverse ⟨4, false, true⟩ "repo").2.tracker.events.length = 7 := rfl
  rw [hrun] at hs
  exact hs

end Engine

end CodeAtlas
