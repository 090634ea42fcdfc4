import CodeAtlas.Proofs.Engine.Step

/-!
# The course of a run

What happens in a run that nothing stops is known beforehand, up to what the collaborators find:
`protocol` lists its events.  A run that is stopped has had the first of them (`triple_course`).
-/

namespace CodeAtlas

namespace Engine

open RunStep

/-- The events of analysing files, of which `done` have been analysed before. -/
def finishings (total : Nat) : Nat → List Path → List ProgressEvent
  | _, [] => []
  | done, file :: rest => finishing total (done + 1) file :: finishings total (done + 1) rest

theorem entered_finishings (total done : Nat) (files : List Path) :
    entered (finishings total done files) = [] := by
  induction files generalizing done with
  | nil => rfl
  | cons file rest ih => exact ih (done + 1)

section Files

variable {c : Collaborators} {checkout : Option Path} {events : List ProgressEvent}
  {F : RunState → Prop}

theorem triple_analyzeOne (root file : Path) :
    Triple (Underway checkout events) (analyzeOne c root file)
      (fun _ => Underway checkout events) F := by
  unfold analyzeOne
  cases c.analyzeFile file root with
  | ok found => exact Triple.pure fun _ hs => hs
  | error e => exact Triple.bind (triple_warn _) fun _ => Triple.pure fun _ hs => hs

theorem triple_analyzeEach (root : Path) (total done : Nat) (files : List Path)
    (hparsing : (entered events).getLast? = some .parsing)
    (hF : ∀ reached, events <+: reached → reached <+: events ++ finishings total done files →
      ∀ s, Underway checkout reached s → F s) :
    Triple (Underway checkout events) (analyzeEach c root total done files)
      (fun _ => Underway checkout (events ++ finishings total done files)) F := by
  induction files generalizing done events with
  | nil =>
    rw [analyzeEach, finishings, List.append_nil]
    exact Triple.pure fun _ hs => hs
  | cons file rest ih =>
    have hmore : events ++ finishings total done (file :: rest)
        = events ++ [finishing total (done + 1) file] ++ finishings total (done + 1) rest := by
      rw [List.append_assoc]
      rfl
    rw [analyzeEach]
    refine Triple.bind (triple_poll (hF events (List.prefix_refl _) (List.prefix_append _ _)))
      fun _ => ?_
    refine Triple.before ?_ fun s hs => hs.1
    refine Triple.bind (triple_analyzeOne root file) fun found => ?_
    rw [hmore] at hF ⊢
    refine Triple.bind (triple_report hparsing
      (hF _ (List.prefix_append _ _) (List.prefix_append _ _))) fun _ => ?_
    refine Triple.bind (ih (done + 1) ((entered_finishing ..).symm ▸ hparsing) ?_) fun _ => ?_
    · exact fun reached hfrom => hF reached ((List.prefix_append _ _).trans hfrom)
    · exact Triple.pure fun _ hs => hs

theorem triple_analyzeFiles (options : RunOptions) (root : Path) (files : List Path)
    (hparsing : (entered events).getLast? = some .parsing)
    (hF : ∀ reached, events <+: reached →
      reached <+: events ++ finishings files.length 0 (finished c options files) →
      ∀ s, Underway checkout reached s → F s) :
    Triple (Underway checkout events) (analyzeFiles c options root files)
      (fun _ => Underway checkout
        (events ++ finishings files.length 0 (finished c options files))) F := by
  unfold analyzeFiles
  refine Triple.bind (triple_analyzeEach root files.length 0 _ hparsing hF) fun found => ?_
  dsimp only
  split
  · exact Triple.bind (triple_warn _) fun _ => Triple.pure fun _ hs => hs
  · exact Triple.pure fun _ hs => hs

theorem triple_applyHistory (options : RunOptions) (root : Path) (files : List FileRecord) :
    Triple (Underway checkout events) (applyHistory c options root files)
      (fun _ => Underway checkout events) F := by
  unfold applyHistory
  split
  · exact Triple.pure fun _ hs => hs
  · split
    · exact Triple.pure fun _ hs => hs
    · split
      · exact Triple.pure fun _ hs => hs
      · exact Triple.bind (triple_warn _) fun _ => Triple.pure fun _ hs => hs

end Files

/-! ### The whole course -/

/-- The event with which a run begins. -/
def firstEvent (identifier : String) : ProgressEvent :=
  entering .cloning 0 ("Fetching " ++ identifier)

/-- The events up to the scan of the checkout. -/
def openingEvents (identifier : String) : List ProgressEvent :=
  [firstEvent identifier, entering .parsing 10 "Scanning source files"]

/-- The state in which a run asks for the checkout, if it comes to that. -/
def asking (identifier : String) : RunState :=
  enter .start .cloning 0 ("Fetching " ++ identifier)

/-- The checkout that a run has: there is none if the first event cannot be delivered, the run is
given up after it, or the repository cannot be had. -/
def fetched? (c : Collaborators) (identifier : String) : Option Path :=
  match c.receive (asking identifier) with
  | .error _ => none
  | .ok _ =>
    if c.isCancelled (asking identifier) then none else (c.fetch identifier).toOption

/-- The files that are found in the checkout. -/
def found (c : Collaborators) (identifier : String) : List Path :=
  match (fetched? c identifier).map c.scan with
  | some (.ok scan) => scan.files
  | _ => []

/-- The events up to the analysis of the files. -/
def protocolOfFiles (c : Collaborators) (options : RunOptions) (identifier : String) :
    List ProgressEvent :=
  openingEvents identifier
    ++ finishings (found c identifier).length 0 (finished c options (found c identifier))

/-- The events up to the grouping and measuring of the files. -/
def protocolOfGrouping (c : Collaborators) (options : RunOptions) (identifier : String) :
    List ProgressEvent :=
  protocolOfFiles c options identifier
    ++ [entering .analyzing 70 "Grouping components and computing metrics"]

/-- The events of a run that nothing stops. -/
def protocol (c : Collaborators) (options : RunOptions) (identifier : String) :
    List ProgressEvent :=
  protocolOfGrouping c options identifier
    ++ [entering .generating 90 "Generating insights"]
    ++ [entering .complete 100 "Analysis complete"]

variable (c : Collaborators) (options : RunOptions) (identifier : String)

theorem getLast?_entered_protocolOfFiles :
    (entered (protocolOfFiles c options identifier)).getLast? = some .parsing := by
  rw [protocolOfFiles, entered_append, entered_finishings, List.append_nil]
  rfl

/-- The run has been stopped after some of the events of the protocol. -/
def Stopped (s : RunState) : Prop :=
  ∃ events, events ≠ [] ∧ events <+: protocol c options identifier ∧
    Underway (fetched? c identifier) events s

/-- The run has come to its end, and was not to be given up before its insights were drawn. -/
def Finished (s : RunState) : Prop :=
  Underway (fetched? c identifier) (protocol c options identifier) s ∧
    ∃ u, u.tracker.events = protocolOfGrouping c options identifier ∧ c.isCancelled u = false

theorem underway_asking : Underway none [firstEvent identifier] (asking identifier) := by
  have hstart : Underway none [] .start := ⟨rfl, rfl, rfl, rfl, rfl⟩
  exact hstart.enter .cloning 0 ("Fetching " ++ identifier)

theorem firstEvent_prefix_protocol : [firstEvent identifier] <+: protocol c options identifier :=
  List.prefix_append _ _

theorem openingEvents_prefix_protocol :
    openingEvents identifier <+: protocol c options identifier :=
  List.prefix_append _ _

theorem protocolOfGrouping_prefix_protocol :
    protocolOfGrouping c options identifier <+: protocol c options identifier := by
  rw [protocol, List.append_assoc]
  exact List.prefix_append _ _

theorem protocolOfFiles_prefix_protocol :
    protocolOfFiles c options identifier <+: protocol c options identifier :=
  (List.prefix_append _ _).trans (protocolOfGrouping_prefix_protocol c options identifier)

variable {c options identifier}

theorem stopped_of_underway {checkout : Option Path} {events : List ProgressEvent}
    (hcheckout : fetched? c identifier = checkout) (hne : events ≠ [])
    (hevents : events <+: protocol c options identifier) (s : RunState)
    (hs : Underway checkout events s) : Stopped c options identifier s :=
  ⟨events, hne, hevents, hcheckout ▸ hs⟩

theorem stopped_of_firstEvent {checkout : Option Path}
    (hcheckout : fetched? c identifier = checkout) {s : RunState}
    (hs : Underway checkout [firstEvent identifier] s) :
    Stopped c options identifier s :=
  stopped_of_underway hcheckout (List.cons_ne_nil _ _)
    (firstEvent_prefix_protocol c options identifier) s hs

/-- The first event is delivered, or there is no checkout. -/
theorem triple_begin :
    Triple (· = .start) (advance c .cloning 0 ("Fetching " ++ identifier))
      (fun _ s => s = asking identifier ∧ c.receive (asking identifier) = .ok ())
      (Stopped c options identifier) := by
  rintro s rfl
  rw [run_advance rfl, ← asking]
  cases hreceive : c.receive (asking identifier) with
  | ok _ => exact ⟨rfl, rfl⟩
  | error e =>
    have hfetched : fetched? c identifier = none := by rw [fetched?, hreceive]
    exact stopped_of_firstEvent hfetched (underway_asking identifier)

/-- The run is not given up after its first event, or there is no checkout. -/
theorem triple_firstPoll (hreceive : c.receive (asking identifier) = .ok ()) :
    Triple (· = asking identifier) (poll c)
      (fun _ s => Underway none [firstEvent identifier] s ∧
        fetched? c identifier = (c.fetch identifier).toOption)
      (Stopped c options identifier) := by
  rintro s rfl
  have hpolled : Underway none [firstEvent identifier]
      { asking identifier with polls := (asking identifier).polls + 1 } :=
    ⟨rfl, rfl, rfl, rfl, rfl⟩
  rw [run_poll]
  cases hcancelled : c.isCancelled (asking identifier) with
  | true =>
    have hfetched : fetched? c identifier = none := by
      rw [fetched?, hreceive]
      exact if_pos hcancelled
    exact stopped_of_firstEvent hfetched hpolled
  | false =>
    refine ⟨hpolled, ?_⟩
    rw [fetched?, hreceive]
    exact if_neg (hcancelled ▸ Bool.false_ne_true)

/-- The repository can be had, or there is no checkout. -/
theorem triple_fetch (hfetched : fetched? c identifier = (c.fetch identifier).toOption) :
    Triple (Underway none [firstEvent identifier]) (ofResult (c.fetch identifier))
      (fun root s => Underway none [firstEvent identifier] s ∧ fetched? c identifier = some root)
      (Stopped c options identifier) := by
  intro s hs
  rw [run_ofResult]
  cases hfetch : c.fetch identifier with
  | ok root => exact ⟨hs, by rw [hfetched, hfetch]; rfl⟩
  | error e =>
    have hnone : fetched? c identifier = none := by rw [hfetched, hfetch]; rfl
    exact stopped_of_firstEvent hnone hs

/-- **The course of a run.**  A run that is not stopped has had all events of the protocol, and one
that is stopped has had some of the first. -/
theorem triple_course (c : Collaborators) (options : RunOptions) (identifier : String) :
    Triple (· = .start) (course c options identifier)
      (fun a s => a.repository = identifier ∧ Finished c options identifier s)
      (Stopped c options identifier) := by
  unfold course
  refine Triple.bind triple_begin fun _ => Triple.given fun hreceive => ?_
  refine Triple.bind (triple_firstPoll hreceive) fun _ => Triple.given fun hfetched => ?_
  refine Triple.bind (triple_fetch hfetched) fun root => Triple.given fun hroot => ?_
  refine Triple.bind (Q := fun _ => Underway (some root) [firstEvent identifier])
    (Triple.update fun s hs => ⟨hs.current_eq, hs.events_eq, rfl, hs.released_eq, hs.stored_eq⟩)
    fun _ => ?_
  -- From here on the checkout is known, and so is where a failure leaves the run.
  have hstop {events : List ProgressEvent} (hne : events ≠ [])
      (hevents : events <+: protocol c options identifier) :
      ∀ s, Underway (some root) events s → Stopped c options identifier s :=
    stopped_of_underway hroot hne hevents
  refine Triple.bind (triple_poll fun s hs => stopped_of_firstEvent hroot hs) fun _ =>
    Triple.given fun _ => ?_
  have hscanning : ∀ s, Underway (some root) (openingEvents identifier) s →
      Stopped c options identifier s :=
    hstop (List.cons_ne_nil _ _) (openingEvents_prefix_protocol c options identifier)
  refine Triple.bind (triple_advance rfl hscanning) fun _ => ?_
  refine Triple.bind (Triple.ofResult hscanning) fun scan => Triple.given fun hscan => ?_
  refine Triple.bind (Triple.forM (fun w => triple_warn _) _) fun _ => ?_
  have hfound : found c identifier = scan.files := by
    rw [found, hroot, Option.map_some, hscan]
  -- A run may be stopped at any of its files.
  refine Triple.bind (triple_analyzeFiles options root scan.files rfl ?_) fun files => ?_
  · intro events hfrom hto
    rw [← hfound] at hto
    refine hstop ?_ (hto.trans (protocolOfFiles_prefix_protocol c options identifier))
    rintro rfl
    exact List.cons_ne_nil _ _ (List.prefix_nil.mp hfrom)
  rw [← hfound]
  change Triple (Underway (some root) (protocolOfFiles c options identifier)) _ _ _
  have hanalyzed := hstop (List.cons_ne_nil _ _)
    (protocolOfFiles_prefix_protocol c options identifier)
  refine Triple.bind (triple_applyHistory options root files) fun files => ?_
  refine Triple.bind (triple_poll hanalyzed) fun _ => Triple.given fun _ => ?_
  have hgrouping := hstop (List.concat_ne_nil _ _)
    (protocolOfGrouping_prefix_protocol c options identifier)
  refine Triple.bind (triple_advance ?_ hgrouping) fun _ => ?_
  · rw [getLast?_entered_protocolOfFiles]
    rfl
  refine Triple.bind (triple_aggregated _ _ hgrouping) fun architecture => Triple.given fun _ => ?_
  refine Triple.bind (triple_aggregated _ _ hgrouping) fun metrics => Triple.given fun _ => ?_
  -- This is the last time that the run looks whether to give up.
  refine Triple.bind (triple_poll hgrouping) fun _ => Triple.given fun ⟨u, hu, hpolled⟩ => ?_
  have hconcluding := hstop (List.concat_ne_nil _ _) (List.prefix_append _ _)
  refine Triple.bind (triple_advance ?_ hconcluding) fun _ => ?_
  · rw [getLast?_entered_entering]
    rfl
  refine Triple.bind (triple_aggregated _ _ hconcluding) fun insights => Triple.given fun _ => ?_
  have hcompleting := hstop (List.concat_ne_nil _ _) (List.prefix_refl _)
  refine Triple.bind (triple_advance ?_ hcompleting) fun _ => Triple.pure fun s hs => ?_
  · rw [getLast?_entered_entering]
    rfl
  exact ⟨rfl, hroot ▸ hs, u, hu.events_eq, hpolled⟩

end Engine

end CodeAtlas
