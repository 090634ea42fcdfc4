import CodeAtlas.Engine.Basic

/-!
# Steps of a run

A step of a run succeeds or fails, and leaves a state behind in either case.  `RunStep.Triple` says
what is known of that state; its rules follow how steps are put together.

What each step of the engine does is said in terms of `Engine.Underway`: which events there have
been, which stage was entered last by them, which checkout is in use, and that nothing was given
back and nothing put into the store yet.  Only entering a stage and reporting a file add an event,
and the event is there even if it cannot be delivered.
-/

namespace CodeAtlas

namespace RunStep

variable {α β : Type} {P P' : RunState → Prop} {Q : α → RunState → Prop} {F : RunState → Prop}

/-- Started in a state of which `before` holds, the step leaves one of which `after` holds if it
succeeds, and one of which `failing` holds if it fails. -/
def Triple (before : RunState → Prop) (m : RunStep α) (after : α → RunState → Prop)
    (failing : RunState → Prop) : Prop :=
  ∀ s, before s →
    match m.run s with
    | (.ok a, t) => after a t
    | (.error _, t) => failing t

theorem run_bind (m : RunStep α) (f : α → RunStep β) (s : RunState) :
    (m >>= f).run s =
      match m.run s with
      | (.ok a, t) => (f a).run t
      | (.error e, t) => (.error e, t) := by
  change (ExceptT.bindCont f (m.run s).1) (m.run s).2 = _
  rcases m.run s with ⟨_ | _, t⟩ <;> rfl

theorem run_get (s : RunState) : (get : RunStep RunState).run s = (.ok s, s) := rfl

theorem run_update (f : RunState → RunState) (s : RunState) :
    (update f).run s = (.ok (), f s) := rfl

theorem run_ofResult (r : Except Failure α) (s : RunState) : (ofResult r).run s = (r, s) := by
  cases r <;> rfl

theorem Triple.bind {R : β → RunState → Prop} {m : RunStep α} {f : α → RunStep β}
    (hm : Triple P m Q F) (hf : ∀ a, Triple (Q a) (f a) R F) : Triple P (m >>= f) R F := by
  intro s hs
  have hm := hm s hs
  rw [run_bind]
  rcases hrun : m.run s with ⟨_ | a, t⟩
  · rw [hrun] at hm
    exact hm
  · rw [hrun] at hm
    exact hf a t hm

theorem Triple.pure {a : α} (h : ∀ s, P s → Q a s) : Triple P (Pure.pure a) Q F := h

theorem Triple.throw {e : Failure} (h : ∀ s, P s → F s) : Triple P (throw e) Q F := h

theorem Triple.update {f : RunState → RunState} {Q : Unit → RunState → Prop}
    (h : ∀ s, P s → Q () (f s)) : Triple P (update f) Q F := h

/-- What is known is also known if more is. -/
theorem Triple.before {m : RunStep α} (h : Triple P m Q F) (hP : ∀ s, P' s → P s) :
    Triple P' m Q F := fun s hs => h s (hP s hs)

/-- What is known of more than the state may be had first. -/
theorem Triple.given {p : Prop} {m : RunStep α} (h : p → Triple P m Q F) :
    Triple (fun s => P s ∧ p) m Q F := fun s hs => h hs.2 s hs.1

theorem Triple.ofResult {r : Except Failure α} (hF : ∀ s, P s → F s) :
    Triple P (ofResult r) (fun a s => P s ∧ r = .ok a) F := by
  cases r with
  | ok a => exact Triple.pure fun s hs => ⟨hs, rfl⟩
  | error e => exact Triple.throw hF

/-- A step that keeps what is known may be taken for every element of a list. -/
theorem Triple.forM {f : β → RunStep PUnit} (h : ∀ x, Triple P (f x) (fun _ => P) F) (xs : List β) :
    Triple P (xs.forM f) (fun _ => P) F := by
  induction xs with
  | nil => exact Triple.pure fun _ hs => hs
  | cons x xs ih => exact Triple.bind (h x) fun _ => ih

end RunStep

namespace Engine

open RunStep

/-! ### Events -/

/-- The event of entering a stage. -/
def entering (stage : Stage) (percent : Nat) (message : String) : ProgressEvent :=
  ⟨some stage, .ofNat percent, message, none⟩

/-- The event of having analysed a file, when this makes `done` files of `total`. -/
def finishing (total done : Nat) (file : Path) : ProgressEvent :=
  ⟨some .parsing, .share 10 60 done total,
    "Analyzed " ++ toString done ++ "/" ++ toString total ++ " files", some file.toText⟩

/-- The stages that were entered; an event that concerns a file is not of entering a stage. -/
def entered (events : List ProgressEvent) : List Stage :=
  (events.filter (·.file.isNone)).filterMap (·.stage)

theorem entered_append (xs ys : List ProgressEvent) :
    entered (xs ++ ys) = entered xs ++ entered ys := by
  rw [entered, List.filter_append, List.filterMap_append, ← entered, ← entered]

theorem getLast?_entered_entering (events : List ProgressEvent) (stage : Stage) (percent : Nat)
    (message : String) :
    (entered (events ++ [entering stage percent message])).getLast? = some stage := by
  rw [entered_append]
  exact List.getLast?_concat

theorem entered_finishing (events : List ProgressEvent) (total done : Nat) (file : Path) :
    entered (events ++ [finishing total done file]) = entered events := by
  rw [entered_append]
  exact List.append_nil _

/-! ### The state of a run that goes on -/

/-- A run that has had the given events and uses the given checkout; nothing was given back and
nothing put into the store yet. -/
structure Underway (checkout : Option Path) (events : List ProgressEvent) (s : RunState) :
    Prop where
  current_eq : s.tracker.current = (entered events).getLast?
  events_eq : s.tracker.events = events
  checkout_eq : s.checkout = checkout
  released_eq : s.released = []
  stored_eq : s.stored = []

/-- The state when a stage has been entered. -/
def enter (s : RunState) (stage : Stage) (percent : Nat) (message : String) : RunState :=
  { s with tracker := ⟨some stage, s.tracker.events ++ [entering stage percent message]⟩ }

variable {c : Collaborators} {checkout : Option Path} {events : List ProgressEvent}
  {F : RunState → Prop} {s : RunState}

theorem Underway.enter (h : Underway checkout events s) (stage : Stage) (percent : Nat)
    (message : String) :
    Underway checkout (events ++ [entering stage percent message])
      (enter s stage percent message) where
  current_eq := (getLast?_entered_entering events stage percent message).symm
  events_eq := congrArg (· ++ [entering stage percent message]) h.events_eq
  checkout_eq := h.checkout_eq
  released_eq := h.released_eq
  stored_eq := h.stored_eq

theorem Underway.notice (h : Underway checkout events s) (severity : Severity) (message : String) :
    Underway checkout events (s.notice severity message) :=
  ⟨h.current_eq, h.events_eq, h.checkout_eq, h.released_eq, h.stored_eq⟩

/-! ### Its steps -/

theorem run_deliver (s : RunState) : (deliver c).run s = (c.receive s, s) := by
  rw [deliver, run_bind, run_get]
  exact run_ofResult _ s

/-- A stage that is the next one is entered before anybody is told. -/
theorem run_advance {stage : Stage} (h : Stage.next? s.tracker.current = some stage)
    (percent : Nat) (message : String) :
    (advance c stage percent message).run s
      = (c.receive (enter s stage percent message), enter s stage percent message) := by
  have htracker : s.tracker.advance stage.name (.ofNat percent) message
      = .ok ⟨some stage, s.tracker.events ++ [entering stage percent message]⟩ := by
    unfold StageTracker.advance
    rw [h]
    exact if_pos rfl
  rw [advance, run_bind, run_get]
  dsimp only
  rw [run_bind, htracker, run_ofResult]
  dsimp only
  rw [run_bind, run_update]
  exact run_deliver _

/-- Looking whether to give up leaves a trace that nothing but the collaborators can see. -/
theorem run_poll (s : RunState) :
    (poll c).run s
      = (if c.isCancelled s then .error (.cancelled cancelledMessage) else .ok (),
        { s with polls := s.polls + 1 }) := by
  rw [poll, run_bind, run_get]
  dsimp only
  rw [run_bind, run_update]
  dsimp only
  split <;> rfl

theorem triple_advance {stage : Stage} {percent : Nat} {message : String}
    (hnext : Stage.next? (entered events).getLast? = some stage)
    (hF : ∀ s, Underway checkout (events ++ [entering stage percent message]) s → F s) :
    Triple (Underway checkout events) (advance c stage percent message)
      (fun _ => Underway checkout (events ++ [entering stage percent message])) F := by
  intro s hs
  have henter := hs.enter stage percent message
  rw [run_advance (hs.current_eq ▸ hnext)]
  cases c.receive (enter s stage percent message) with
  | ok _ => exact henter
  | error e => exact hF _ henter

theorem triple_report {total done : Nat} {file : Path}
    (hparsing : (entered events).getLast? = some .parsing)
    (hF : ∀ s, Underway checkout (events ++ [finishing total done file]) s → F s) :
    Triple (Underway checkout events)
      (report c (.share 10 60 done total)
        ("Analyzed " ++ toString done ++ "/" ++ toString total ++ " files") file)
      (fun _ => Underway checkout (events ++ [finishing total done file])) F := by
  refine Triple.bind (Q := fun _ => Underway checkout (events ++ [finishing total done file])) ?_
    fun _ => ?_
  · refine Triple.update fun s hs => ⟨?_, ?_, hs.checkout_eq, hs.released_eq, hs.stored_eq⟩
    · rw [entered_finishing]
      exact hs.current_eq
    · show s.tracker.events ++ [_] = _
      rw [hs.events_eq, hs.current_eq, hparsing]
      rfl
  · intro s hs
    rw [run_deliver]
    cases c.receive s with
    | ok _ => exact hs
    | error e => exact hF s hs

/-- A run that has looked goes on only if it was not to be given up. -/
theorem triple_poll (hF : ∀ s, Underway checkout events s → F s) :
    Triple (Underway checkout events) (poll c)
      (fun _ s => Underway checkout events s ∧
        ∃ u, Underway checkout events u ∧ c.isCancelled u = false) F := by
  intro s hs
  have hpolled : Underway checkout events { s with polls := s.polls + 1 } :=
    ⟨hs.current_eq, hs.events_eq, hs.checkout_eq, hs.released_eq, hs.stored_eq⟩
  rw [run_poll]
  cases hcancelled : c.isCancelled s with
  | true => exact hF _ hpolled
  | false => exact ⟨hpolled, s, hs, hcancelled⟩

theorem triple_warn (message : String) :
    Triple (Underway checkout events) (warn message) (fun _ => Underway checkout events) F :=
  Triple.update fun _ hs => hs.notice .warning message

theorem triple_aggregated {α : Type} {P : RunState → Prop} (activity : String)
    (r : Except Failure α) (hF : ∀ s, P s → F s) :
    Triple P (aggregated activity r) (fun a s => P s ∧ r = .ok a) F := by
  cases r with
  | ok a => exact Triple.pure fun s hs => ⟨hs, rfl⟩
  | error e => exact Triple.throw hF

end Engine

end CodeAtlas
