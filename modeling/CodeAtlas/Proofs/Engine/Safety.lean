import CodeAtlas.Proofs.Engine.Course

/-!
# How a run ends

Whatever its collaborators do, a run ends in one of three ways: with an analysis, given up, or
failed in the stage that it entered last.  It gives its checkout back once, if it had one, and puts
only a complete analysis into the store (`analyze_safe`).

All of this follows from where its course leaves it (`triple_course`): nothing has been given back
or put into the store by then, and the stage entered last can be told from the events.
-/

namespace CodeAtlas

theorem RunState.released_release (s : RunState) :
    s.release.released = s.released ++ s.checkout.toList := by
  unfold RunState.release
  cases s.checkout with
  | none => exact (List.append_nil _).symm
  | some root => rfl

theorem RunState.stored_release (s : RunState) : s.release.stored = s.stored := by
  unfold RunState.release
  split <;> rfl

theorem RunState.tracker_release (s : RunState) : s.release.tracker = s.tracker := by
  unfold RunState.release
  split <;> rfl

namespace Engine

open RunStep

variable {c : Collaborators} {options : RunOptions} {identifier : String} {s : RunState}

theorem Underway.released_release {checkout : Option Path} {events : List ProgressEvent}
    (h : Underway checkout events s) : s.release.released = checkout.toList := by
  rw [RunState.released_release, h.released_eq, h.checkout_eq, List.nil_append]

theorem Underway.stored_release {checkout : Option Path} {events : List ProgressEvent}
    (h : Underway checkout events s) : s.release.stored = [] :=
  (RunState.stored_release s).trans h.stored_eq

/-- A run that has had an event has entered a stage, the one in which it would fail. -/
theorem Stopped.stage_eq (h : Stopped c options identifier s) :
    (entered s.tracker.events).getLast?.map Stage.name = some s.stage.name := by
  obtain ⟨events, hne, hbegins, hs⟩ := h
  have hentered : entered events ≠ [] := by
    obtain ⟨first, rest, rfl⟩ := List.exists_cons_of_ne_nil hne
    obtain ⟨more, hmore⟩ := hbegins
    obtain rfl : first = firstEvent identifier := (List.cons.inj hmore).1
    exact List.cons_ne_nil _ _
  have hcurrent := hs.current_eq
  rw [List.getLast?_eq_some_getLast hentered] at hcurrent
  rw [hs.events_eq, RunState.stage, hcurrent, List.getLast?_eq_some_getLast hentered]
  rfl

theorem course_ok {a : Analysis} (h : (course c options identifier).run .start = (.ok a, s)) :
    a.repository = identifier ∧ Finished c options identifier s := by
  have hcourse := triple_course c options identifier .start rfl
  rwa [h] at hcourse

theorem course_error {e : Failure}
    (h : (course c options identifier).run .start = (.error e, s)) :
    Stopped c options identifier s := by
  have hcourse := triple_course c options identifier .start rfl
  rwa [h] at hcourse

/-- A run that comes to its end gives its checkout back and puts its analysis into the store. -/
theorem analyze_of_ok {a : Analysis} (h : (course c options identifier).run .start = (.ok a, s)) :
    analyze c options identifier
      = (.completed a, if options.keepsResult then s.release.put identifier a else s.release) := by
  rw [analyze, h]

theorem analyze_of_cancelled {m : String}
    (h : (course c options identifier).run .start = (.error (.cancelled m), s)) :
    analyze c options identifier = (.cancelled m, s.release) := by
  rw [analyze, h]

theorem analyze_of_error {e : Failure}
    (h : (course c options identifier).run .start = (.error e, s)) (he : ∀ m, e ≠ .cancelled m) :
    ∃ message, analyze c options identifier
      = (.failed ⟨identifier, s.stage.name, e⟩, (s.notice .error message).release) := by
  rw [analyze, h]
  cases e with
  | cancelled m => exact absurd rfl (he m)
  | _ => exact ⟨_, rfl⟩

theorem not_completed_of_error {e : Failure}
    (h : (course c options identifier).run .start = (.error e, s)) :
    (∀ a, (analyze c options identifier).1 ≠ .completed a) ∧
      (analyze c options identifier).2.stored = [] := by
  obtain ⟨events, -, -, hs⟩ := course_error h
  by_cases he : ∃ m, e = .cancelled m
  · obtain ⟨m, rfl⟩ := he
    rw [analyze_of_cancelled h]
    exact ⟨fun a => Outcome.noConfusion, hs.stored_release⟩
  · obtain ⟨message, hanalyze⟩ := analyze_of_error h (not_exists.mp he)
    rw [hanalyze]
    exact ⟨fun a => Outcome.noConfusion, (hs.notice .error message).stored_release⟩

/-- What comes after the course of a run is no event. -/
theorem tracker_analyze (c : Collaborators) (options : RunOptions) (identifier : String) :
    (analyze c options identifier).2.tracker
      = ((course c options identifier).run .start).2.tracker := by
  rcases hrun : (course c options identifier).run .start with ⟨e | a, s⟩
  · by_cases he : ∃ m, e = .cancelled m
    · obtain ⟨m, rfl⟩ := he
      rw [analyze_of_cancelled hrun]
      exact RunState.tracker_release s
    · obtain ⟨message, hanalyze⟩ := analyze_of_error hrun (not_exists.mp he)
      rw [hanalyze]
      exact RunState.tracker_release _
  · rw [analyze_of_ok hrun]
    dsimp only
    split
    · exact RunState.tracker_release s
    · exact RunState.tracker_release s

/-- **The safety of a run.**  However its collaborators behave, a run gives back what it fetched,
once, and nothing else.  It completes an analysis, which is all that it puts into the store; or it
is given up; or it fails in the stage that was entered last, for another reason than being given up;
and in the last two cases it leaves the store alone. -/
theorem analyze_safe (c : Collaborators) (options : RunOptions) (identifier : String) :
    ∃ outcome s, analyze c options identifier = (outcome, s) ∧
      s.released = (fetched? c identifier).toList ∧
      match outcome with
      | .completed a =>
        a.repository = identifier ∧
          s.stored = if options.keepsResult then [(identifier, a)] else []
      | .cancelled _ => s.stored = []
      | .failed f =>
        f.repository = identifier ∧
          (entered s.tracker.events).getLast?.map Stage.name = some f.stage ∧
          (∀ m, f.cause ≠ .cancelled m) ∧ s.stored = [] := by
  rcases hrun : (course c options identifier).run .start with ⟨e | a, s⟩
  · have hstopped := course_error hrun
    obtain ⟨events, -, -, hs⟩ := id hstopped
    by_cases he : ∃ m, e = .cancelled m
    · obtain ⟨m, rfl⟩ := he
      exact ⟨_, _, analyze_of_cancelled hrun, hs.released_release, hs.stored_release⟩
    · have hother : ∀ m, e ≠ .cancelled m := not_exists.mp he
      obtain ⟨message, hanalyze⟩ := analyze_of_error hrun hother
      have hnoticed := hs.notice .error message
      refine ⟨_, _, hanalyze, hnoticed.released_release, rfl, ?_, hother, hnoticed.stored_release⟩
      rw [RunState.tracker_release]
      exact hstopped.stage_eq
  · obtain ⟨hrepository, hs, -⟩ := course_ok hrun
    refine ⟨_, _, analyze_of_ok hrun, ?_, hrepository, ?_⟩
    · split
      · exact hs.released_release
      · exact hs.released_release
    · split
      · exact congrArg (· ++ [(identifier, a)]) hs.stored_release
      · exact hs.stored_release

end Engine

end CodeAtlas
