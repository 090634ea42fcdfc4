import CodeAtlas.Proofs.Engine.Safety

/-!
# Giving a run up

A run looks whether to give up before it fetches, after that, before each file, before its files are
grouped and after they are measured.  So it does not come to its end if it is to be given up from
one of its events on, up to that of grouping (`analyze_heeds`).  After the event of drawing
conclusions it does not look any more, and completes (`exists_unheeded`).
-/

namespace CodeAtlas

namespace Engine

variable {c : Collaborators} {options : RunOptions} {identifier : String} {s : RunState}

/-- An event of the protocol that is not of drawing conclusions or of being complete comes before
these. -/
theorem lt_length_protocolOfGrouping {n : Nat} {e : ProgressEvent}
    (he : (protocol c options identifier)[n]? = some e) (hgenerating : e.stage ≠ some .generating)
    (hcomplete : e.stage ≠ some .complete) :
    n < (protocolOfGrouping c options identifier).length := by
  refine Nat.lt_of_not_le fun hle => ?_
  rw [protocol, List.append_assoc, List.getElem?_append_right hle] at he
  rcases List.mem_cons.mp (List.mem_of_getElem? he) with rfl | he
  · exact hgenerating rfl
  · rw [List.mem_singleton.mp he] at hcomplete
    exact hcomplete rfl

/-- **A run heeds that it is to be given up.**  If it is to be given up as soon as it has had some
event, other than those of drawing conclusions and of being complete, then it does not come to an
analysis and puts nothing into the store. -/
theorem analyze_heeds {n : Nat} {e : ProgressEvent}
    (hevent : (analyze c options identifier).2.tracker.events[n]? = some e)
    (hgenerating : e.stage ≠ some .generating) (hcomplete : e.stage ≠ some .complete)
    (hcancelled : ∀ s : RunState,
      (analyze c options identifier).2.tracker.events.take (n + 1) <+: s.tracker.events →
        c.isCancelled s = true) :
    (∀ a, (analyze c options identifier).1 ≠ .completed a) ∧
      (analyze c options identifier).2.stored = [] := by
  rcases hrun : (course c options identifier).run .start with ⟨e | a, s⟩
  · exact not_completed_of_error hrun
  · exfalso
    obtain ⟨-, hs, u, hu, hpolled⟩ := course_ok hrun
    rw [tracker_analyze, hrun, hs.events_eq] at hevent hcancelled
    have hlt := lt_length_protocolOfGrouping hevent hgenerating hcomplete
    have htake : (protocol c options identifier).take (n + 1) <+: u.tracker.events := by
      rw [hu, protocol, List.append_assoc, List.take_append_of_le_length hlt]
      exact List.take_prefix _ _
    exact Bool.noConfusion (hpolled.symm.trans (hcancelled u htake))

/-- Collaborators that find an empty repository, for a run that is to be given up as soon as it has
entered a stage. -/
def givenUpFrom (stage : Stage) : Collaborators where
  fetch _ := .ok default
  scan _ := .ok default
  analyzeFile _ _ := .ok none
  completion := id
  history := none
  group _ := .ok default
  measure _ := .ok default
  conclude _ _ _ := .ok default
  receive _ := .ok ()
  isCancelled s := s.tracker.events.any (·.stage == some stage)
  now := default

/-- A run of these collaborators that keeps its result. -/
def runGivenUpFrom (stage : Stage) : Outcome × RunState :=
  analyze (givenUpFrom stage) ⟨1, false, true⟩ "repo"

theorem isCancelled_givenUpFrom {stage : Stage} {events : List ProgressEvent} {n : Nat}
    {e : ProgressEvent} (he : events[n]? = some e) (hstage : e.stage = some stage) {s : RunState}
    (h : events <+: s.tracker.events) : (givenUpFrom stage).isCancelled s = true :=
  List.any_eq_true.mpr
    ⟨e, h.subset (List.mem_of_getElem? he), hstage ▸ beq_self_eq_true (some stage)⟩

/-- A run that is to be given up when its files are about to be grouped. -/
theorem analyze_heeds_grouping :
    ∃ e, (runGivenUpFrom .analyzing).2.tracker.events[2]? = some e ∧ e.stage = some .analyzing ∧
      (∀ s : RunState, (runGivenUpFrom .analyzing).2.tracker.events.take 3 <+: s.tracker.events →
        (givenUpFrom .analyzing).isCancelled s = true) ∧
      (∀ a, (runGivenUpFrom .analyzing).1 ≠ .completed a) ∧
      (runGivenUpFrom .analyzing).2.stored = [] := by
  have hevent : (runGivenUpFrom .analyzing).2.tracker.events[2]?
      = some (entering .analyzing 70 "Grouping components and computing metrics") := rfl
  have hcancelled : ∀ s : RunState,
      (runGivenUpFrom .analyzing).2.tracker.events.take 3 <+: s.tracker.events →
        (givenUpFrom .analyzing).isCancelled s = true := by
    intro s hs
    have htake : ((runGivenUpFrom .analyzing).2.tracker.events.take 3)[2]?
        = some (entering .analyzing 70 "Grouping components and computing metrics") := rfl
    exact isCancelled_givenUpFrom htake rfl hs
  exact ⟨_, hevent, rfl, hcancelled, analyze_heeds hevent (by decide) (by decide) hcancelled⟩

/-- A run that is to be given up as soon as it has had the event of drawing conclusions, and
completes nevertheless. -/
theorem exists_unheeded :
    ∃ a s, runGivenUpFrom .generating = (.completed a, s) ∧ s.stored = [("repo", a)] ∧
      ∃ e, s.tracker.events[3]? = some e ∧ e.stage = some .generating ∧
        ∀ t : RunState, s.tracker.events.take 4 <+: t.tracker.events →
          (givenUpFrom .generating).isCancelled t = true := by
  refine ⟨_, _, rfl, rfl, _, rfl, rfl, fun t ht => ?_⟩
  have htake : ((runGivenUpFrom .generating).2.tracker.events.take 4)[3]?
      = some (entering .generating 90 "Generating insights") := rfl
  exact isCancelled_givenUpFrom htake rfl ht

end Engine

end CodeAtlas
