import CodeAtlas.Engine.Standard
import CodeAtlas.Proofs.Architecture.Members
import CodeAtlas.Proofs.Engine.Progress

/-!
# Files that cannot be analysed leave no trace

The records of the analysed files are put in the order of their paths.  If no two files have the
same path in the repository, it does not matter in which order they were finished, nor how many were
analysed side by side, and a file that cannot be analysed is simply missing
(`analyze_isolates_failures`).  A run that is completed is an analysis of these records, with their
commit counts (`IsAnalysisOf`).

Two runs of which one finds only the files that can be analysed are compared step by step
(`Agrees`): from states in which the same stage was entered last, both come to the same value or to
the same failure, unless somebody interferes with them.
-/

namespace CodeAtlas

namespace Engine

open Architecture (pairwise_lt_sortFiles sortFiles_congr)
open RunStep

/-! ### The records of files -/

/-- The record of a file, if its analysis comes to one. -/
def record? (c : Collaborators) (root file : Path) : Option FileRecord :=
  match c.analyzeFile file root with
  | .ok found => found
  | .error _ => none

theorem analyzeFile_of_record? {c : Collaborators} {root file : Path} {r : FileRecord}
    (h : record? c root file = some r) : c.analyzeFile file root = .ok (some r) := by
  unfold record? at h
  cases hanalyzed : c.analyzeFile file root with
  | error e =>
    rw [hanalyzed] at h
    cases h
  | ok found =>
    rw [hanalyzed] at h
    exact congrArg Except.ok h

/-- At some time a run is to be given up, or an event cannot be delivered. -/
def Interferes (c : Collaborators) : Prop :=
  ∃ s, c.isCancelled s = true ∨ ∃ e, c.receive s = .error e

/-- The files have different paths in the repository, and each record has that of its file. -/
structure DistinctPaths (c : Collaborators) (here : List String) (root : Path)
    (files : List Path) : Prop where
  nodup : (files.map (Path.inRepository here · root)).Nodup
  path_eq : ∀ file ∈ files, ∀ r, record? c root file = some r →
    r.path = Path.inRepository here file root

section Records

variable {c : Collaborators} {here : List String} {root : Path} {files : List Path}

theorem DistinctPaths.paths_sublist (h : DistinctPaths c here root files) :
    ((files.filterMap (record? c root)).map (·.path)).Sublist
      (files.map (Path.inRepository here · root)) := by
  obtain ⟨-, hpath⟩ := h
  induction files with
  | nil => exact List.Sublist.slnil
  | cons file rest ih =>
    have hrest := ih fun f hf => hpath f (List.mem_cons_of_mem _ hf)
    rw [List.filterMap_cons, List.map_cons]
    cases hrecord : record? c root file with
    | none => exact hrest.cons _
    | some r =>
      have hr : r.path = Path.inRepository here file root :=
        hpath file List.mem_cons_self r hrecord
      dsimp only
      rw [List.map_cons, hr]
      exact hrest.cons_cons _

theorem DistinctPaths.nodup_paths (h : DistinctPaths c here root files) :
    ((files.filterMap (record? c root)).map (·.path)).Nodup :=
  h.nodup.sublist h.paths_sublist

end Records

/-! ### Analysing files -/

section Files

variable {c : Collaborators} {current : Option Stage}

theorem triple_poll_current :
    Triple (fun s => s.tracker.current = current) (poll c)
      (fun _ s => s.tracker.current = current) (fun _ => Interferes c) := by
  intro s hs
  rw [run_poll]
  cases hcancelled : c.isCancelled s with
  | true => exact ⟨s, Or.inl hcancelled⟩
  | false => exact hs

theorem triple_report_current (percent : Percent) (message : String) (file : Path) :
    Triple (fun s => s.tracker.current = current) (report c percent message file)
      (fun _ s => s.tracker.current = current) (fun _ => Interferes c) := by
  refine Triple.bind (Triple.update (Q := fun _ s => s.tracker.current = current)
    fun s hs => hs) fun _ => ?_
  intro s hs
  rw [run_deliver]
  cases hreceive : c.receive s with
  | ok _ => exact hs
  | error e => exact ⟨s, Or.inr ⟨e, hreceive⟩⟩

theorem triple_warn_current (message : String) {F : RunState → Prop} :
    Triple (fun s => s.tracker.current = current) (warn message)
      (fun _ s => s.tracker.current = current) F :=
  Triple.update fun _ hs => hs

theorem triple_analyzeOne_record (root file : Path) {F : RunState → Prop} :
    Triple (fun s => s.tracker.current = current) (analyzeOne c root file)
      (fun found s => s.tracker.current = current ∧ found = record? c root file) F := by
  unfold analyzeOne record?
  cases c.analyzeFile file root with
  | ok found => exact Triple.pure fun s hs => ⟨hs, rfl⟩
  | error e =>
    exact Triple.bind (triple_warn_current _) fun _ => Triple.pure fun s hs => ⟨hs, rfl⟩

/-- Files that are analysed one after the other give their records in that order. -/
theorem triple_analyzeEach_records (root : Path) (total done : Nat) (files : List Path) :
    Triple (fun s => s.tracker.current = current) (analyzeEach c root total done files)
      (fun found s => s.tracker.current = current ∧ found = files.filterMap (record? c root))
      (fun _ => Interferes c) := by
  induction files generalizing done with
  | nil => exact Triple.pure fun s hs => ⟨hs, rfl⟩
  | cons file rest ih =>
    rw [analyzeEach]
    refine Triple.bind triple_poll_current fun _ => ?_
    refine Triple.bind (triple_analyzeOne_record root file) fun found =>
      Triple.given fun hfound => ?_
    refine Triple.bind (triple_report_current _ _ _) fun _ => ?_
    refine Triple.bind (ih (done + 1)) fun others => Triple.given fun hothers => ?_
    refine Triple.pure fun s hs => ⟨hs, ?_⟩
    rw [hothers, hfound, List.filterMap_cons]
    cases record? c root file with
    | none => rfl
    | some r => rfl

/-- However files are analysed, their records are put in the same order. -/
theorem triple_analyzeFiles_records {here : List String} {root : Path} {files : List Path}
    (options : RunOptions) (hcompletion : ∀ files, (c.completion files).Perm files)
    (h : DistinctPaths c here root files) :
    Triple (fun s => s.tracker.current = current) (analyzeFiles c options root files)
      (fun found s => s.tracker.current = current ∧
        found = Architecture.sortFiles (files.filterMap (record? c root)))
      (fun _ => Interferes c) := by
  have hsort : Architecture.sortFiles ((finished c options files).filterMap (record? c root))
      = Architecture.sortFiles (files.filterMap (record? c root)) := by
    have hperm := (finished_perm options hcompletion files).filterMap (record? c root)
    exact (sortFiles_congr hperm.symm h.nodup_paths).symm
  unfold analyzeFiles
  refine Triple.bind (triple_analyzeEach_records root files.length 0 _) fun found =>
    Triple.given fun hfound => ?_
  dsimp only
  split
  · refine Triple.bind (triple_warn_current _) fun _ => Triple.pure fun s hs => ⟨hs, ?_⟩
    rw [hfound, hsort]
  · refine Triple.pure fun s hs => ⟨hs, ?_⟩
    rw [hfound, hsort]

end Files

/-! ### Comparing two runs -/

/-- Started in states in which the same stage was entered last, the two steps come to the same value
or to the same failure, and leave such states.  If `interference` holds, one of them may fail
otherwise, but they never come to different values. -/
def Agrees {α : Type} (interference : Prop) (m m' : RunStep α) : Prop :=
  ∀ s s', s.tracker.current = s'.tracker.current →
    (m.run s).1 = (m'.run s').1 ∧ (m.run s).2.tracker.current = (m'.run s').2.tracker.current ∨
      interference ∧ ((∃ e, (m.run s).1 = .error e) ∨ ∃ e, (m'.run s').1 = .error e)

section Agreement

variable {α β : Type} {I : Prop}

theorem run_bind_of_error {m : RunStep α} {f : α → RunStep β} {s : RunState} {e : Failure}
    (h : (m.run s).1 = .error e) : ((m >>= f).run s).1 = .error e := by
  rw [run_bind]
  rcases hrun : m.run s with ⟨x, t⟩
  rw [hrun] at h
  obtain rfl : x = .error e := h
  rfl

theorem Agrees.bind {m m' : RunStep α} {f f' : α → RunStep β} (hm : Agrees I m m')
    (hf : ∀ a, Agrees I (f a) (f' a)) : Agrees I (m >>= f) (m' >>= f') := by
  intro s s' hs
  rcases hm s s' hs with ⟨hresult, hcurrent⟩ | ⟨hI, ⟨e, he⟩ | ⟨e, he⟩⟩
  · rw [run_bind, run_bind]
    generalize m.run s = r at hresult hcurrent ⊢
    generalize m'.run s' = r' at hresult hcurrent ⊢
    obtain ⟨x, t⟩ := r
    obtain ⟨x', t'⟩ := r'
    obtain rfl : x = x' := hresult
    cases x with
    | error e => exact Or.inl ⟨rfl, hcurrent⟩
    | ok a => exact hf a t t' hcurrent
  · exact Or.inr ⟨hI, Or.inl ⟨e, run_bind_of_error he⟩⟩
  · exact Or.inr ⟨hI, Or.inr ⟨e, run_bind_of_error he⟩⟩

theorem agrees_ofResult (r : Except Failure α) : Agrees I (ofResult r) (ofResult r) := by
  intro s s' hs
  rw [run_ofResult, run_ofResult]
  exact Or.inl ⟨rfl, hs⟩

/-- What two runs have had elsewhere may differ if they go on alike. -/
theorem agrees_bind_ofResult {γ γ' : Type} {r : Except Failure γ} {r' : Except Failure γ'} {x : γ}
    {x' : γ'} {f : γ → RunStep α} {f' : γ' → RunStep α} (hr : r = .ok x) (hr' : r' = .ok x')
    (h : Agrees I (f x) (f' x')) : Agrees I (ofResult r >>= f) (ofResult r' >>= f') := by
  intro s s' hs
  rw [run_bind, run_bind, run_ofResult, run_ofResult, hr, hr']
  exact h s s' hs

theorem agrees_pure (a : α) : Agrees I (pure a) (pure a) := agrees_ofResult (.ok a)

theorem agrees_aggregated (activity : String) (r : Except Failure α) :
    Agrees I (aggregated activity r) (aggregated activity r) := by
  cases r with
  | ok a => exact agrees_pure a
  | error e => exact agrees_ofResult (.error (.aggregation activity e))

/-- Changes that leave the stage alone. -/
theorem agrees_update {f f' : RunState → RunState}
    (hf : ∀ s, (f s).tracker.current = s.tracker.current)
    (hf' : ∀ s, (f' s).tracker.current = s.tracker.current) :
    Agrees I (update f) (update f') := by
  intro s s' hs
  rw [run_update, run_update]
  refine Or.inl ⟨rfl, ?_⟩
  rw [hf, hf', hs]

theorem agrees_warn (message message' : String) : Agrees I (warn message) (warn message') :=
  agrees_update (fun _ => rfl) (fun _ => rfl)

theorem agrees_forM {γ : Type} {f : γ → RunStep PUnit} (hf : ∀ x, Agrees I (f x) (f x))
    (xs : List γ) : Agrees I (xs.forM f) (xs.forM f) := by
  induction xs with
  | nil => exact agrees_pure _
  | cons x xs ih => exact (hf x).bind fun _ => ih

/-- Steps that come to the same value in every stage, unless somebody interferes. -/
theorem agrees_of_triple {m m' : RunStep α} {a : α}
    (hm : ∀ current, Triple (fun s => s.tracker.current = current) m
      (fun b s => s.tracker.current = current ∧ b = a) (fun _ => I))
    (hm' : ∀ current, Triple (fun s => s.tracker.current = current) m'
      (fun b s => s.tracker.current = current ∧ b = a) (fun _ => I)) : Agrees I m m' := by
  intro s s' hs
  have h := hm s.tracker.current s rfl
  have h' := hm' s'.tracker.current s' rfl
  rcases hrun : m.run s with ⟨e | b, t⟩
  · rw [hrun] at h
    exact Or.inr ⟨h, Or.inl ⟨e, rfl⟩⟩
  · rcases hrun' : m'.run s' with ⟨e' | b', t'⟩
    · rw [hrun'] at h'
      exact Or.inr ⟨h', Or.inr ⟨e', rfl⟩⟩
    · rw [hrun] at h
      rw [hrun'] at h'
      obtain ⟨ht, rfl⟩ := h
      obtain ⟨ht', rfl⟩ := h'
      refine Or.inl ⟨rfl, ?_⟩
      dsimp only
      rw [ht, ht', hs]

variable {c : Collaborators}

theorem agrees_deliver : Agrees (Interferes c) (deliver c) (deliver c) := by
  intro s s' hs
  rw [run_deliver, run_deliver]
  cases hreceive : c.receive s with
  | error e => exact Or.inr ⟨⟨s, Or.inr ⟨e, hreceive⟩⟩, Or.inl ⟨e, rfl⟩⟩
  | ok _ =>
    cases hreceive' : c.receive s' with
    | error e' => exact Or.inr ⟨⟨s', Or.inr ⟨e', hreceive'⟩⟩, Or.inr ⟨e', rfl⟩⟩
    | ok _ => exact Or.inl ⟨rfl, hs⟩

theorem agrees_poll : Agrees (Interferes c) (poll c) (poll c) := by
  intro s s' hs
  rw [run_poll, run_poll]
  cases hcancelled : c.isCancelled s with
  | true => exact Or.inr ⟨⟨s, Or.inl hcancelled⟩, Or.inl ⟨_, rfl⟩⟩
  | false =>
    cases hcancelled' : c.isCancelled s' with
    | true => exact Or.inr ⟨⟨s', Or.inl hcancelled'⟩, Or.inr ⟨_, rfl⟩⟩
    | false => exact Or.inl ⟨rfl, hs⟩

/-- Whether a stage may be entered depends on the stage before it alone. -/
theorem advance_congr {t t' : StageTracker} (h : t.current = t'.current) (stage : String)
    (percent : Percent) (message : String) :
    (∃ u u', t.advance stage percent message = .ok u ∧ t'.advance stage percent message = .ok u' ∧
      u.current = u'.current) ∨
      ∃ e, t.advance stage percent message = .error e ∧
        t'.advance stage percent message = .error e := by
  unfold StageTracker.advance StageTracker.currentName
  rw [← h]
  split
  · split
    · exact Or.inl ⟨_, _, rfl, rfl, rfl⟩
    · exact Or.inr ⟨_, rfl, rfl⟩
  · exact Or.inr ⟨_, rfl, rfl⟩

theorem run_advance_eq (stage : Stage) (percent : Nat) (message : String) (s : RunState) :
    (advance c stage percent message).run s =
      match s.tracker.advance stage.name (.ofNat percent) message with
      | .ok tracker => (deliver c).run { s with tracker }
      | .error e => (.error e, s) := by
  rw [advance, run_bind, run_get]
  dsimp only
  rw [run_bind, run_ofResult]
  cases s.tracker.advance stage.name (.ofNat percent) message with
  | error e => rfl
  | ok tracker =>
    dsimp only
    rw [run_bind, run_update]

theorem agrees_advance (stage : Stage) (percent : Nat) (message : String) :
    Agrees (Interferes c) (advance c stage percent message) (advance c stage percent message) := by
  intro s s' hs
  rw [run_advance_eq, run_advance_eq]
  rcases advance_congr hs stage.name (.ofNat percent) message with
    ⟨u, u', hu, hu', hcurrent⟩ | ⟨e, he, he'⟩
  · rw [hu, hu']
    exact agrees_deliver _ _ hcurrent
  · rw [he, he']
    exact Or.inl ⟨rfl, hs⟩

theorem agrees_applyHistory {options options' : RunOptions}
    (h : options'.usesHistory = options.usesHistory) (root : Path) (files : List FileRecord) :
    Agrees I (applyHistory c options root files) (applyHistory c options' root files) := by
  unfold applyHistory
  rw [h]
  cases c.history with
  | none => exact agrees_pure files
  | some history =>
    cases options.usesHistory with
    | false => exact agrees_pure files
    | true =>
      dsimp only
      cases history root with
      | ok counts => exact agrees_pure _
      | error e => exact (agrees_warn _ _).bind fun _ => agrees_pure files

end Agreement

/-! ### Leaving out what cannot be analysed -/

/-- The same collaborators, except that the scan finds the given files and that files which are
analysed side by side are finished in the given order. -/
def finding (c : Collaborators) (scan : Scan) (completion : List Path → List Path) :
    Collaborators :=
  { c with scan := fun _ => .ok scan, completion }

/-- The files that come to a record. -/
def analyzable (c : Collaborators) (root : Path) (files : List Path) : List Path :=
  files.filter fun file => (record? c root file).isSome

theorem filterMap_analyzable (c : Collaborators) (root : Path) (files : List Path) :
    (analyzable c root files).filterMap (record? c root) = files.filterMap (record? c root) := by
  unfold analyzable
  induction files with
  | nil => rfl
  | cons file rest ih =>
    rw [List.filter_cons]
    cases hrecord : record? c root file with
    | none => simp [hrecord, ih]
    | some r => simp [hrecord, ih]

theorem DistinctPaths.analyzable {c : Collaborators} {here : List String} {root : Path}
    {files : List Path} (h : DistinctPaths c here root files) :
    DistinctPaths c here root (analyzable c root files) where
  nodup := h.nodup.sublist (List.filter_sublist.map _)
  path_eq file hfile := h.path_eq file (List.mem_of_mem_filter hfile)

theorem triple_analyzeFiles_finding {c : Collaborators} {current : Option Stage}
    {here : List String} {root : Path} {files : List Path} (scan : Scan)
    {completion : List Path → List Path} (hcompletion : ∀ files, (completion files).Perm files)
    (options : RunOptions) (h : DistinctPaths c here root files) :
    Triple (fun s => s.tracker.current = current)
      (analyzeFiles (finding c scan completion) options root files)
      (fun found s => s.tracker.current = current ∧
        found = Architecture.sortFiles (files.filterMap (record? c root)))
      (fun _ => Interferes c) :=
  triple_analyzeFiles_records (c := finding c scan completion) options hcompletion
    ⟨h.nodup, h.path_eq⟩

/-- A run that finds only the files that can be analysed agrees with one that finds all. -/
theorem agrees_course {c : Collaborators} {options options' : RunOptions} {identifier : String}
    {here : List String} {root : Path} {scan : Scan}
    {completion completion' : List Path → List Path}
    (hfetch : c.fetch identifier = .ok root) (hpaths : DistinctPaths c here root scan.files)
    (hcompletion : ∀ files, (completion files).Perm files)
    (hcompletion' : ∀ files, (completion' files).Perm files)
    (hhistory : options'.usesHistory = options.usesHistory) :
    Agrees (Interferes c) (course (finding c scan completion) options identifier)
      (course (finding c { scan with files := analyzable c root scan.files } completion') options'
        identifier) := by
  set found := analyzable c root scan.files with hfound
  have hfiles : Agrees (Interferes c)
      (analyzeFiles (finding c scan completion) options root scan.files)
      (analyzeFiles (finding c { scan with files := found } completion') options' root found) := by
    refine agrees_of_triple (fun _ => triple_analyzeFiles_finding scan hcompletion options hpaths)
      fun _ => ?_
    rw [← filterMap_analyzable]
    exact triple_analyzeFiles_finding _ hcompletion' options' hpaths.analyzable
  unfold course
  refine (agrees_advance _ _ _).bind fun _ => ?_
  refine agrees_poll.bind fun _ => ?_
  refine agrees_bind_ofResult hfetch hfetch ?_
  refine Agrees.bind (agrees_update ?_ ?_) fun _ => ?_
  · exact fun _ => rfl
  · exact fun _ => rfl
  refine agrees_poll.bind fun _ => ?_
  refine (agrees_advance _ _ _).bind fun _ => ?_
  refine agrees_bind_ofResult rfl rfl ?_
  refine (agrees_forM (fun w => agrees_warn _ _) _).bind fun _ => ?_
  refine hfiles.bind fun files => ?_
  refine (agrees_applyHistory hhistory root files).bind fun files => ?_
  refine agrees_poll.bind fun _ => ?_
  refine (agrees_advance _ _ _).bind fun _ => ?_
  refine (agrees_aggregated _ _).bind fun architecture => ?_
  refine (agrees_aggregated _ _).bind fun metrics => ?_
  refine agrees_poll.bind fun _ => ?_
  refine (agrees_advance _ _ _).bind fun _ => ?_
  refine (agrees_aggregated _ _).bind fun insights => ?_
  refine (agrees_advance _ _ _).bind fun _ => ?_
  exact agrees_pure _

/-! ### What a completed run is an analysis of -/

/-- The records with their commit counts, if these are wanted and can be had. -/
def counted (c : Collaborators) (options : RunOptions) (root : Path) (files : List FileRecord) :
    List FileRecord :=
  match c.history with
  | none => files
  | some history =>
    if !options.usesHistory then files
    else match history root with
      | .ok counts => withCounts counts files
      | .error _ => files

/-- Files are grouped and measured, and conclusions are drawn from them and from what that came to.
-/
structure IsAnalysisOf (c : Collaborators) (identifier : String) (files : List FileRecord)
    (a : Analysis) : Prop where
  repository_eq : a.repository = identifier
  files_eq : a.files = files
  grouped : c.group files = .ok a.architecture
  measured : c.measure files = .ok a.metrics
  concluded : c.conclude files a.architecture a.metrics = .ok a.insights
  timestamp_eq : a.timestamp = c.now

/-- What comes of a step need not be known for what comes of those behind it. -/
theorem triple_skip {α β : Type} {m : RunStep α} {f : α → RunStep β} {Q : β → RunState → Prop}
    (h : ∀ a, Triple (fun _ => True) (f a) Q fun _ => True) :
    Triple (fun _ => True) (m >>= f) Q fun _ => True := by
  refine Triple.bind (Q := fun _ _ => True) (fun s _ => ?_) h
  rcases m.run s with ⟨_ | _, t⟩
  · trivial
  · trivial

theorem triple_applyHistory_counted (c : Collaborators) (options : RunOptions) (root : Path)
    (files : List FileRecord) :
    Triple (fun _ => True) (applyHistory c options root files)
      (fun found _ => True ∧ found = counted c options root files) fun _ => True := by
  unfold applyHistory counted
  cases c.history with
  | none => exact Triple.pure fun _ _ => ⟨trivial, rfl⟩
  | some history =>
    cases options.usesHistory with
    | false => exact Triple.pure fun _ _ => ⟨trivial, rfl⟩
    | true =>
      dsimp only
      cases history root with
      | ok counts => exact Triple.pure fun _ _ => ⟨trivial, rfl⟩
      | error e =>
        exact triple_skip fun _ => Triple.pure fun _ _ => ⟨trivial, rfl⟩

/-- The course of a run comes to an analysis of the records of the files that can be analysed. -/
theorem triple_course_analysis {c : Collaborators} {options : RunOptions} {identifier : String}
    {here : List String} {root : Path} {scan : Scan} {completion : List Path → List Path}
    (hfetch : c.fetch identifier = .ok root) (hpaths : DistinctPaths c here root scan.files)
    (hcompletion : ∀ files, (completion files).Perm files) :
    Triple (fun _ => True) (course (finding c scan completion) options identifier)
      (fun a _ => IsAnalysisOf c identifier (counted c options root
        (Architecture.sortFiles (scan.files.filterMap (record? c root)))) a) fun _ => True := by
  have hfiles : Triple (fun _ => True)
      (analyzeFiles (finding c scan completion) options root scan.files)
      (fun found _ => True ∧
        found = Architecture.sortFiles (scan.files.filterMap (record? c root))) fun _ => True := by
    intro s _
    have htriple := triple_analyzeFiles_finding scan hcompletion options hpaths s rfl
    rcases hrun : (analyzeFiles (finding c scan completion) options root scan.files).run s
      with ⟨e | found, t⟩
    · trivial
    · rw [hrun] at htriple
      exact ⟨trivial, htriple.2⟩
  have hkeep : ∀ _ : RunState, True → True := fun _ h => h
  unfold course
  refine triple_skip fun _ => ?_
  refine triple_skip fun _ => ?_
  refine Triple.bind (Triple.ofResult hkeep) fun found => Triple.given fun hfound => ?_
  obtain rfl : root = found := Except.ok.inj (hfetch.symm.trans hfound)
  refine triple_skip fun _ => ?_
  refine triple_skip fun _ => ?_
  refine triple_skip fun _ => ?_
  refine Triple.bind (Triple.ofResult hkeep) fun found => Triple.given fun hfound => ?_
  obtain rfl : scan = found := Except.ok.inj hfound
  refine triple_skip fun _ => ?_
  refine Triple.bind hfiles fun files => Triple.given fun hrecords => ?_
  subst hrecords
  refine Triple.bind (triple_applyHistory_counted _ options root _) fun files =>
    Triple.given fun hcounted => ?_
  refine triple_skip fun _ => ?_
  refine triple_skip fun _ => ?_
  refine Triple.bind (triple_aggregated _ _ hkeep) fun architecture =>
    Triple.given fun hgroup => ?_
  refine Triple.bind (triple_aggregated _ _ hkeep) fun metrics => Triple.given fun hmeasure => ?_
  refine triple_skip fun _ => ?_
  refine triple_skip fun _ => ?_
  refine Triple.bind (triple_aggregated _ _ hkeep) fun insights =>
    Triple.given fun hconclude => ?_
  refine triple_skip fun _ => ?_
  refine Triple.pure fun _ _ => ?_
  subst hcounted
  exact ⟨rfl, rfl, hgroup, hmeasure, hconclude, rfl⟩

/-- How a run ends whose course came to a value or a failure in a stage. -/
def outcomeOf (identifier : String) : Except Failure Analysis → Stage → Outcome
  | .ok a, _ => .completed a
  | .error (.cancelled m), _ => .cancelled m
  | .error e, stage => .failed ⟨identifier, stage.name, e⟩

theorem outcome_analyze (c : Collaborators) (options : RunOptions) (identifier : String) :
    (analyze c options identifier).1
      = outcomeOf identifier ((course c options identifier).run .start).1
          ((course c options identifier).run .start).2.stage := by
  unfold analyze
  rcases (course c options identifier).run .start with ⟨e | a, s⟩
  · cases e <;> rfl
  · rfl

theorem course_of_completed {c : Collaborators} {options : RunOptions} {identifier : String}
    {a : Analysis} (h : (analyze c options identifier).1 = .completed a) :
    ((course c options identifier).run .start).1 = .ok a := by
  rw [outcome_analyze] at h
  cases hresult : ((course c options identifier).run .start).1 with
  | error e =>
    rw [hresult] at h
    cases e <;> exact Outcome.noConfusion h
  | ok b =>
    rw [hresult] at h
    rw [Outcome.completed.inj h]

/-- Runs whose courses agree end alike. -/
theorem outcome_congr {I : Prop} {c c' : Collaborators} {options options' : RunOptions}
    {identifier : String}
    (h : Agrees I (course c options identifier) (course c' options' identifier)) :
    (∀ a a', (analyze c options identifier).1 = .completed a →
      (analyze c' options' identifier).1 = .completed a' → a = a') ∧
    (¬ I → (analyze c options identifier).1 = (analyze c' options' identifier).1) := by
  rcases h .start .start rfl with ⟨hresult, hcurrent⟩ | ⟨hI, hfails⟩
  · constructor
    · intro a a' ha ha'
      rw [course_of_completed ha, course_of_completed ha'] at hresult
      exact Except.ok.inj hresult
    · intro _
      have hstage : ((course c options identifier).run .start).2.stage
          = ((course c' options' identifier).run .start).2.stage :=
        congrArg (·.getD .cloning) hcurrent
      rw [outcome_analyze, outcome_analyze, hresult, hstage]
  · constructor
    · intro a a' ha ha'
      rcases hfails with ⟨e, he⟩ | ⟨e, he⟩
      · rw [course_of_completed ha] at he
        cases he
      · rw [course_of_completed ha'] at he
        cases he
    · intro hnot
      exact absurd hI hnot

/-- **Files that cannot be analysed leave no trace.**  Let no two of the files that the scan finds
have the same path in the repository.  Then there is one list of the records of exactly those files
that can be analysed, in ascending order of their paths, and this is what analysing the files comes
to, however many are analysed side by side and in whatever order they are finished; it comes to
nothing else unless somebody interferes.  A completed run is an analysis of these records, with their
commit counts where they are wanted.  It is the analysis of a run which finds only the files that
can be analysed, with its architecture, metrics and insights. -/
theorem analyze_isolates_failures {c : Collaborators} {identifier : String} {here : List String}
    {root : Path} (scan : Scan) (hfetch : c.fetch identifier = .ok root)
    (hpaths : DistinctPaths c here root scan.files) :
    ∃ records : List FileRecord,
      records.Pairwise (fun a b => a.path < b.path) ∧
      records.Perm (scan.files.filterMap (record? c root)) ∧
      ∀ (completion : List Path → List Path) (options : RunOptions),
        (∀ files, (completion files).Perm files) →
          (∀ s, match ((analyzeFiles (finding c scan completion) options root
              scan.files).run s).1 with
            | .ok found => found = records
            | .error _ => Interferes c) ∧
          (∀ a, (analyze (finding c scan completion) options identifier).1 = .completed a →
            IsAnalysisOf c identifier (counted c options root records) a) ∧
          ∀ (completion' : List Path → List Path) (options' : RunOptions),
            (∀ files, (completion' files).Perm files) → options'.usesHistory = options.usesHistory →
              let whole := analyze (finding c scan completion) options identifier
              let part := analyze
                (finding c { scan with files := analyzable c root scan.files } completion') options'
                identifier
              (∀ a a', whole.1 = .completed a → part.1 = .completed a' → a = a') ∧
                (¬ Interferes c → whole.1 = part.1) := by
  have hnodup := hpaths.nodup_paths
  refine ⟨Architecture.sortFiles (scan.files.filterMap (record? c root)),
    pairwise_lt_sortFiles hnodup, List.mergeSort_perm _ _, ?_⟩
  intro completion options hcompletion
  refine ⟨?_, ?_, ?_⟩
  · intro s
    have htriple := triple_analyzeFiles_finding scan hcompletion options hpaths s rfl
    rcases hrun : (analyzeFiles (finding c scan completion) options root scan.files).run s
      with ⟨e | found, t⟩
    · rw [hrun] at htriple
      exact htriple
    · rw [hrun] at htriple
      exact htriple.2
  · intro a ha
    have htriple := @triple_course_analysis _ options _ _ _ _ _ hfetch hpaths hcompletion .start
      trivial
    have hresult := course_of_completed ha
    rcases hrun : (course (finding c scan completion) options identifier).run .start with ⟨x, t⟩
    rw [hrun] at htriple hresult
    obtain rfl : x = .ok a := hresult
    exact htriple
  · intro completion' options' hcompletion' hhistory
    exact outcome_congr (agrees_course hfetch hpaths hcompletion hcompletion' hhistory)

/-! ### The usual collaborators -/

theorem path_of_ofTree {path language : String} {size : Nat} {tree : Syntax.Node} {r : FileRecord}
    (h : FileRecord.ofTree path language size tree = .ok r) : r.path = path := by
  unfold FileRecord.ofTree at h
  dsimp only at h
  cases hscore : Score.fileComplexity ((Findings.ofTree tree).functions.map (·.complexity))
      ((Findings.ofTree tree).classes.map (·.complexity)) tree.endLine with
  | error e =>
    rw [hscore] at h
    cases h
  | ok score =>
    rw [hscore] at h
    rw [← Except.ok.inj h]

theorem path_of_ofSource {dialect : Dialect} {path language text : String} {r : FileRecord}
    (h : FileRecord.ofSource dialect path language text = .ok r) : r.path = path := by
  unfold FileRecord.ofSource at h
  dsimp only at h
  split at h
  · cases h
  · split at h
    · next htree =>
      rw [← Except.ok.inj h]
      exact path_of_ofTree htree
    · cases h

theorem path_of_ofFile {fs : FileSystem} {dialect : Dialect} {file root : Path} {r : FileRecord}
    (h : FileRecord.ofFile fs dialect file root = .ok r) :
    r.path = Path.inRepository fs.here file root := by
  unfold FileRecord.ofFile FileRecord.ofSourceAt at h
  split at h
  · cases h
  · split at h
    · next hsource =>
      rw [← Except.ok.inj h]
      exact path_of_ofSource hsource
    · cases h

/-- The record that the usual collaborators make of a file has its path in the repository. -/
theorem path_of_analyzeFileIn {fs : FileSystem} {file root : Path} {r : FileRecord}
    (h : analyzeFileIn fs file root = .ok (some r)) :
    r.path = Path.inRepository fs.here file root := by
  unfold analyzeFileIn at h
  split at h
  · cases h
  · next dialect _ =>
    cases hfile : FileRecord.ofFile fs dialect file root with
    | error e =>
      rw [hfile] at h
      cases h
    | ok found =>
      rw [hfile] at h
      obtain rfl : found = r := Option.some.inj (Except.ok.inj h)
      exact path_of_ofFile hfile

section Standard

variable {fs : FileSystem} {settings : ScanSettings} {detectors : List Detector} {threshold : Int}
  {checkout : Except Failure Path} {history : Option (Path → Except Failure CommitCounts.Counts)}
  {now : Timestamp}

/-- Nobody interferes with the usual collaborators. -/
theorem not_interferes_standard :
    ¬ Interferes (standard fs settings detectors threshold checkout history now) := by
  rintro ⟨s, hcancelled | ⟨e, hreceive⟩⟩
  · cases hcancelled
  · cases hreceive

theorem analyzeFile_standard :
    (standard fs settings detectors threshold checkout history now).analyzeFile
      = analyzeFileIn fs := by
  simp only [standard]

theorem distinctPaths_standard {root : Path} {files : List Path}
    (h : (files.map (Path.inRepository fs.here · root)).Nodup) :
    DistinctPaths (standard fs settings detectors threshold checkout history now) fs.here root
      files where
  nodup := h
  path_eq file _ r hr := by
    have hanalyzed := analyzeFile_of_record? hr
    rw [analyzeFile_standard] at hanalyzed
    exact path_of_analyzeFileIn hanalyzed

end Standard

/-- A repository of two programs, one of which is unfinished. -/
def unfinishedRepository : FileSystem where
  root := .directory [("repo", .directory
    [("a.js", .file "const a = 1;".toUTF8), ("b.js", .file "const b =".toUTF8)])]
  here := []

/-- The usual collaborators for this repository. -/
def unfinishedCollaborators : Collaborators :=
  standard unfinishedRepository .standard [] 10 (.ok ⟨1, ["repo"]⟩) none default

/-- The files of the repository, and one that is gone. -/
def unfinishedFiles : List Path :=
  [⟨1, ["repo", "a.js"]⟩, ⟨1, ["repo", "b.js"]⟩, ⟨1, ["repo", "gone.js"]⟩]

/-- Four files may be analysed at once and are finished in reverse; a run over those files that can
be analysed, one by one, ends in the same way. -/
theorem analyze_isolates_failures_unfinished :
    unfinishedCollaborators.fetch "repo" = .ok ⟨1, ["repo"]⟩ ∧
      DistinctPaths unfinishedCollaborators [] ⟨1, ["repo"]⟩ unfinishedFiles ∧
      record? unfinishedCollaborators ⟨1, ["repo"]⟩ ⟨1, ["repo", "gone.js"]⟩ = none ∧
      let scan : Scan := { Scan.start with files := unfinishedFiles }
      let found := analyzable unfinishedCollaborators ⟨1, ["repo"]⟩ unfinishedFiles
      (analyze (finding unfinishedCollaborators scan List.reverse) ⟨4, false, true⟩ "repo").1
        = (analyze (finding unfinishedCollaborators { scan with files := found } id)
            ⟨1, false, true⟩ "repo").1 := by
  have hpaths : DistinctPaths unfinishedCollaborators [] ⟨1, ["repo"]⟩ unfinishedFiles :=
    distinctPaths_standard (by decide +kernel)
  refine ⟨rfl, hpaths, by decide +kernel, ?_⟩
  obtain ⟨records, -, -, hrecords⟩ :=
    analyze_isolates_failures { Scan.start with files := unfinishedFiles }
      (show unfinishedCollaborators.fetch "repo" = .ok ⟨1, ["repo"]⟩ from rfl) hpaths
  have hsame := (hrecords List.reverse ⟨4, false, true⟩ List.reverse_perm).2.2 id ⟨1, false, true⟩
    List.Perm.refl rfl
  exact hsame.2 not_interferes_standard

end Engine

end CodeAtlas
