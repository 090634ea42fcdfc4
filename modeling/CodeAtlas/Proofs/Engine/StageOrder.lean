import CodeAtlas.Progress
import Mathlib.Data.List.Induction
import Mathlib.Data.List.Infix

/-!
# The order of the stages

A tracker is called again and again, to enter a stage, by any word, or to report a step.  Whatever
the calls are, the stages that were entered are the first of all stages, in their order, and the
tracker stands at the last of them (`StageTracker.Stands`).  This is kept by every call
(`Stands.perform`), since the stage that may be entered next is the one behind those entered
(`Stands.next?_eq`); so it holds after every sequence of calls (`stands_run`), and with it is said
which calls succeed (`StageTracker.run_follows_stages`).
-/

namespace CodeAtlas.StageTracker

/-- A call of a tracker. -/
inductive Call where
  | advance (stage : String) (percent : Percent) (message : String)
  | report (percent : Percent) (message : String) (file : Option String)
deriving DecidableEq, Inhabited

/-- The event of a call when the tracker stands at the stage. -/
def Call.event : Call → Option Stage → ProgressEvent
  | .advance _ percent message, stage => ⟨stage, percent, message, none⟩
  | .report percent message file, stage => ⟨stage, percent, message, file⟩

/-- Makes a call: its outcome, and the tracker that it leaves. -/
def perform (t : StageTracker) : Call → Except Failure Unit × StageTracker
  | .advance stage percent message =>
    match t.advance stage percent message with
    | .ok moved => (.ok (), moved)
    | .error e => (.error e, t)
  | .report percent message file => (.ok (), t.report percent message file)

/-- The word for the stage that a call enters, if it is one to enter a stage and succeeds. -/
def enteredBy (t : StageTracker) : Call → Option String
  | .advance stage percent message =>
    match t.advance stage percent message with
    | .ok _ => some stage
    | .error _ => none
  | .report _ _ _ => none

/-- The words for the stages that calls enter. -/
def entered (t : StageTracker) : List Call → List String
  | [] => []
  | call :: calls => (t.enteredBy call).toList ++ entered (t.perform call).2 calls

/-- The tracker that calls leave. -/
def run (t : StageTracker) (calls : List Call) : StageTracker :=
  calls.foldl (fun t call => (t.perform call).2) t

/-- The words for the stages in order. -/
def stageWords : List String := Stage.all.map Stage.name

/-- The stages that were entered are the first ones, and the tracker stands at the last of them. -/
def Stands (t : StageTracker) (words : List String) : Prop :=
  words <+: stageWords ∧ t.current.map Stage.name = words.getLast?

variable {t : StageTracker} {words : List String}

theorem run_concat (calls : List Call) (call : Call) :
    t.run (calls ++ [call]) = ((t.run calls).perform call).2 := by
  rw [run, List.foldl_append, List.foldl_cons, List.foldl_nil, ← run]

theorem entered_concat (calls : List Call) (call : Call) :
    t.entered (calls ++ [call]) = t.entered calls ++ ((t.run calls).enteredBy call).toList := by
  induction calls generalizing t with
  | nil => simp [entered, run]
  | cons first calls ih =>
    rw [List.cons_append, entered, entered, ih, List.append_assoc]
    rfl

/-! ### One call -/

/-- What a call to enter a stage does: it enters the next one, or it is refused. -/
theorem perform_advance (t : StageTracker) (stage : String) (percent : Percent)
    (message : String) :
    (∃ s, Stage.next? t.current = some s ∧ s.name = stage ∧
      t.perform (.advance stage percent message)
        = (.ok (), ⟨some s, t.events ++ [⟨some s, percent, message, none⟩]⟩) ∧
      t.enteredBy (.advance stage percent message) = some stage) ∨
    ((Stage.next? t.current).map Stage.name ≠ some stage ∧
      t.perform (.advance stage percent message)
        = (.error (.stageOrder t.currentName stage), t) ∧
      t.enteredBy (.advance stage percent message) = none) := by
  rw [perform, enteredBy, advance]
  cases hnext : Stage.next? t.current with
  | none => exact Or.inr ⟨by simp, rfl, rfl⟩
  | some s =>
    by_cases hname : s.name = stage
    · refine Or.inl ⟨s, rfl, hname, ?_⟩
      dsimp only
      rw [if_pos hname]
      exact ⟨rfl, rfl⟩
    · refine Or.inr ⟨fun h => hname (Option.some.inj h), ?_⟩
      dsimp only
      rw [if_neg hname]
      exact ⟨rfl, rfl⟩

theorem mem_stages (current : Option Stage) : current ∈ none :: Stage.all.map some := by
  cases current with
  | none => decide
  | some s => cases s <;> decide

/-- The stage that may be entered is the one behind those that were entered. -/
theorem Stands.next?_eq (h : t.Stands words) :
    (Stage.next? t.current).map Stage.name = stageWords[words.length]? := by
  -- the stage at which the tracker stands tells how many were entered
  have htable : ∀ k ≤ stageWords.length, ∀ current ∈ none :: Stage.all.map some,
      current.map Stage.name = (stageWords.take k).getLast? →
        (Stage.next? current).map Stage.name = stageWords[k]? := by decide
  obtain ⟨hfirst, hcurrent⟩ := h
  refine htable words.length hfirst.length_le t.current (mem_stages _) ?_
  rw [hcurrent, ← List.prefix_iff_eq_take.mp hfirst]

/-- Every call keeps the tracker at the last of the first stages. -/
theorem Stands.perform (h : t.Stands words) (call : Call) :
    (t.perform call).2.Stands (words ++ (t.enteredBy call).toList) := by
  cases call with
  | report percent message file =>
    rw [enteredBy, Option.toList_none, List.append_nil]
    exact h
  | advance stage percent message =>
    rcases t.perform_advance stage percent message with
      ⟨s, hnext, hname, hperform, hentered⟩ | ⟨-, hperform, hentered⟩
    · have hword : stageWords[words.length]? = some stage := by
        rw [← h.next?_eq, hnext, Option.map_some, hname]
      have htake : stageWords.take (words.length + 1) = words ++ [stage] := by
        rw [List.take_add_one, hword, ← List.prefix_iff_eq_take.mp h.1, Option.toList_some]
      rw [hperform, hentered, Option.toList_some]
      refine ⟨?_, ?_⟩
      · rw [← htake]
        exact List.take_prefix _ _
      · rw [List.getLast?_concat, Option.map_some, hname]
    · rw [hperform, hentered, Option.toList_none, List.append_nil]
      exact h

/-! ### All calls -/

theorem stands_run (calls : List Call) : (start.run calls).Stands (start.entered calls) := by
  induction calls using List.reverseRecOn with
  | nil => exact ⟨List.nil_prefix, rfl⟩
  | append_singleton calls call ih =>
    rw [run_concat, entered_concat]
    exact ih.perform call

/-- How a tracker answers its next call when the stages of the words have been entered. -/
structure FollowsStages (t : StageTracker) (words : List String) : Prop where
  /-- The stages that were entered are the first of all stages, in order. -/
  inOrder : words <+: stageWords
  /-- The tracker stands at the last of them. -/
  current_eq : t.current.map Stage.name = words.getLast?
  /-- A stage is entered exactly if it is the next one. -/
  accepts_iff : ∀ stage percent message,
    (t.perform (.advance stage percent message)).1 = .ok () ↔
      stageWords[words.length]? = some stage
  /-- The tracker stands at the stage that it has entered. -/
  enters : ∀ stage percent message, (t.perform (.advance stage percent message)).1 = .ok () →
    (t.perform (.advance stage percent message)).2.current.map Stage.name = some stage
  /-- Every other stage is refused, by the word for the one at which the tracker stands. -/
  refusal : ∀ stage percent message e,
    (t.perform (.advance stage percent message)).1 = .error e →
      e = .stageOrder t.currentName stage
  /-- A report succeeds and keeps the stage. -/
  reports : ∀ percent message file, (t.perform (.report percent message file)).1 = .ok () ∧
    (t.perform (.report percent message file)).2.current = t.current
  /-- A call that succeeds adds one event, with the stage at which the tracker stands then. -/
  emits : ∀ call, (t.perform call).1 = .ok () →
    (t.perform call).2.events = t.events ++ [call.event (t.perform call).2.current]
  /-- A call that fails changes nothing. -/
  keeps : ∀ call e, (t.perform call).1 = .error e →
    (t.perform call).2.current = t.current ∧ (t.perform call).2.events = t.events
  /-- Nothing is entered behind the last stage. -/
  ends : Stage.name .complete ∈ words → ∀ stage percent message,
    (t.perform (.advance stage percent message)).1 ≠ .ok ()

/-- No stage comes behind the last one. -/
theorem Stands.getElem?_of_complete (h : t.Stands words)
    (hcomplete : Stage.name .complete ∈ words) : stageWords[words.length]? = none := by
  have htable : ∀ k ≤ stageWords.length, Stage.name .complete ∈ stageWords.take k →
      stageWords[k]? = none := by decide
  refine htable words.length h.1.length_le ?_
  rwa [← List.prefix_iff_eq_take.mp h.1]

theorem Stands.followsStages (h : t.Stands words) : t.FollowsStages words where
  inOrder := h.1
  current_eq := h.2
  accepts_iff stage percent message := by
    rw [← h.next?_eq]
    rcases t.perform_advance stage percent message with
      ⟨s, hnext, hname, hperform, -⟩ | ⟨hother, hperform, -⟩
    · rw [hperform, hnext, Option.map_some, hname]
      exact ⟨fun _ => rfl, fun _ => rfl⟩
    · rw [hperform]
      exact ⟨fun hok => (nomatch hok), fun hnext => absurd hnext hother⟩
  enters stage percent message hok := by
    rcases t.perform_advance stage percent message with
      ⟨s, -, hname, hperform, -⟩ | ⟨-, hperform, -⟩
    · rw [hperform, Option.map_some, hname]
    · rw [hperform] at hok
      cases hok
  refusal stage percent message e he := by
    rcases t.perform_advance stage percent message with ⟨s, -, -, hperform, -⟩ | ⟨-, hperform, -⟩
    · rw [hperform] at he
      cases he
    · rw [hperform] at he
      exact (Except.error.inj he).symm
  reports percent message file := ⟨rfl, rfl⟩
  emits call hok := by
    cases call with
    | report percent message file => rfl
    | advance stage percent message =>
      rcases t.perform_advance stage percent message with
        ⟨s, -, -, hperform, -⟩ | ⟨-, hperform, -⟩
      · rw [hperform]
        rfl
      · rw [hperform] at hok
        cases hok
  keeps call e he := by
    cases call with
    | report percent message file => exact nomatch he
    | advance stage percent message =>
      rcases t.perform_advance stage percent message with
        ⟨s, -, -, hperform, -⟩ | ⟨-, hperform, -⟩
      · rw [hperform] at he
        cases he
      · rw [hperform]
        exact ⟨rfl, rfl⟩
  ends hcomplete stage percent message hok := by
    have hnone := h.getElem?_of_complete hcomplete
    rw [← h.next?_eq] at hnone
    rcases t.perform_advance stage percent message with
      ⟨s, hnext, -, -, -⟩ | ⟨-, hperform, -⟩
    · rw [hnext] at hnone
      exact absurd hnone (by simp)
    · rw [hperform] at hok
      cases hok

/-- **The tracker follows the order of the stages.**  Whatever calls a new tracker has had, it
answers the next one as `FollowsStages` says: only the stage behind those that were entered can be
entered, a refusal changes nothing, everything else adds one event, and the last stage is the
last. -/
theorem run_follows_stages (calls : List Call) :
    (start.run calls).FollowsStages (start.entered calls) :=
  (stands_run calls).followsStages

end CodeAtlas.StageTracker
