import CodeAtlas.Failure

/-!
# Progress

An analysis runs through five stages in order and enters each of them once.  Entering a stage and
every step within one is an event.
-/

namespace CodeAtlas

/-- A stage of an analysis. -/
inductive Stage where
  | cloning
  | parsing
  | analyzing
  | generating
  | complete
deriving DecidableEq, Inhabited

namespace Stage

/-- The stages in order. -/
def all : List Stage := [cloning, parsing, analyzing, generating, complete]

/-- The word for a stage. -/
def name : Stage → String
  | cloning => "cloning"
  | parsing => "parsing"
  | analyzing => "analyzing"
  | generating => "generating"
  | complete => "complete"

/-- The stage that a word stands for. -/
def ofName? (word : String) : Option Stage := all.find? (·.name == word)

/-- The stage after a stage, or the first one. -/
def next? : Option Stage → Option Stage
  | none => some cloning
  | some cloning => some parsing
  | some parsing => some analyzing
  | some analyzing => some generating
  | some generating => some complete
  | some complete => none

end Stage

/-- How much of an analysis is done, in hundredths. -/
inductive Percent where
  /-- A given number. -/
  | exactly (x : Double)
  /-- A part of a span that begins at a base: `base + span · part / whole`. -/
  | share (base span part whole : Nat)
deriving DecidableEq, Inhabited

namespace Percent

/-- A whole number. -/
def ofNat (n : Nat) : Percent := exactly (Double.ofInt n)

/-- The nearest floating-point number; the part of the span is rounded before the base is added. -/
def toDouble : Percent → Double
  | exactly x => x
  | share base span part whole =>
    (Double.ofInt base).add (Double.ofRatio false (span * part) whole)

end Percent

/-- An event in the course of an analysis. -/
structure ProgressEvent where
  stage : Option Stage
  percent : Percent
  message : String
  file : Option String
deriving DecidableEq, Inhabited

/-- How far an analysis has come, with the events so far, the latest last. -/
structure StageTracker where
  current : Option Stage
  events : List ProgressEvent
deriving DecidableEq, Inhabited

namespace StageTracker

/-- No stage has been entered. -/
def start : StageTracker := ⟨none, []⟩

/-- The word for the stage entered last. -/
def currentName (t : StageTracker) : String :=
  match t.current with
  | none => "start"
  | some s => s.name

/-- Enters a stage, which has to be the next one. -/
def advance (t : StageTracker) (stage : String) (percent : Percent) (message : String) :
    Except Failure StageTracker :=
  match Stage.next? t.current with
  | some s =>
    if s.name = stage then .ok ⟨some s, t.events ++ [⟨some s, percent, message, none⟩]⟩
    else .error (.stageOrder t.currentName stage)
  | none => .error (.stageOrder t.currentName stage)

/-- Reports a step within the current stage. -/
def report (t : StageTracker) (percent : Percent) (message : String) (file : Option String) :
    StageTracker :=
  { t with events := t.events ++ [⟨t.current, percent, message, file⟩] }

end StageTracker

end CodeAtlas
