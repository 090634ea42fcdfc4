import CodeAtlas.Log
import CodeAtlas.Proofs.FileSystem.Creation

/-!
# Setting the log up again and again

Setting the log up for a request, if it succeeds, makes the file of the request and the directories
above it, so that it would succeed again and then change nothing (`configure_cases`).  That is why
the log may remember the request and do nothing for the same one.

A call that fails has changed the level and the handlers before it does, but the request that was
last set up successfully stays remembered.  If the log is asked for that one next, it is taken for
set up, and the log stays as the failed call has left it (`LeftBy`).  `setup_setUpAll` says that
this is the only way in which a call comes to depend on the calls before it.
-/

namespace CodeAtlas.Log

/-! ### Opening a file again -/

theorem openAt_eq_ok {p q : Path} {fs fs' : FileSystem} (h : openAt p fs = (.ok q, fs')) :
    q = p ∧ ∃ made, fs.ensureDirectories { p with parts := p.parts.dropLast } = .ok made ∧
      ((fs' = made ∧ ∃ content, made.read p = .ok content) ∨
        (made.read p = .error .notFound ∧ made.write p ByteArray.empty = .ok fs')) := by
  unfold openAt at h
  split at h
  · cases h
  · cases h
  · dsimp only at h
    split at h
    · cases h
    · rename_i made hmade
      split at h
      · rename_i content hread
        obtain ⟨hq, hfs⟩ := Prod.mk.inj h
        exact ⟨(Except.ok.inj hq).symm, made, hmade, Or.inl ⟨hfs.symm, content, hread⟩⟩
      · rename_i hread
        split at h
        · rename_i written hwrite
          obtain ⟨hq, rfl⟩ := Prod.mk.inj h
          exact ⟨(Except.ok.inj hq).symm, made, hmade, Or.inr ⟨hread, hwrite⟩⟩
        · cases h
      · cases h

/-- A file that is there is opened and nothing changes. -/
theorem openAt_of_read {p : Path} {fs : FileSystem} {content : ByteArray}
    (hparent : fs.ensureDirectories { p with parts := p.parts.dropLast } = .ok fs)
    (hread : fs.read p = .ok content) : openAt p fs = (.ok p, fs) := by
  have hlook : ∃ e, fs.lookUp p = .ok e := by
    cases hp : fs.lookUp p with
    | ok e => exact ⟨e, rfl⟩
    | error err => simp [FileSystem.read, hp] at hread
  obtain ⟨e, he⟩ := hlook
  simp only [openAt, he, hparent, hread]

/-- What has been opened is there, with everything that was there before, and can be opened again.
-/
theorem openAt_spec {p q : Path} (hp : p.isAbsolute = true) {fs fs' : FileSystem}
    (h : openAt p fs = (.ok q, fs')) : fs.Extends fs' ∧ openAt p fs' = (.ok q, fs') := by
  obtain ⟨rfl, made, hmade, hfile⟩ := openAt_eq_ok h
  obtain ⟨hext, hagain⟩ := FileSystem.ensureDirectories_spec
    (p := { q with parts := q.parts.dropLast }) hp hmade
  rcases hfile with ⟨rfl, content, hread⟩ | ⟨hmissing, hwrite⟩
  · exact ⟨hext, openAt_of_read (hagain _ (.refl _)) hread⟩
  · obtain ⟨hwritten, hread⟩ := FileSystem.write_spec hp hmissing hwrite
    exact ⟨hext.trans hwritten, openAt_of_read (hagain _ hwritten) hread⟩

theorem openFile_again {home p : Path} {file : String} {fs fs' : FileSystem}
    (h : openFile home file fs = (.ok p, fs')) : openFile home file fs' = (.ok p, fs') := by
  unfold openFile at h ⊢
  split at h
  · obtain ⟨hext, hagain⟩ := openAt_spec rfl h
    rw [hext.resolve_eq]
    exact hagain
  · cases h

/-! ### One request -/

/-- The ways in which the log is set up for a request, whatever it was before: it succeeds and could
be done again without any change, or it fails, and then the level and the console have been set
already. -/
theorem configure_cases (home : Path) (r : LogRequest) (fs : FileSystem) :
    (∃ handlers fs', ∀ l,
      configure home r l fs = (.ok (), ⟨some r, r.level, handlers⟩, fs') ∧
      configure home r l fs' = (.ok (), ⟨some r, r.level, handlers⟩, fs')) ∨
    ∃ e fs', ∀ l,
      configure home r l fs = (.error e, ⟨l.request, r.level, consoleHandlers r⟩, fs') := by
  cases hfile : r.file.filter (· != "") with
  | none =>
    refine Or.inl ⟨consoleHandlers r, fs, fun l => ?_⟩
    simp only [configure, hfile, and_self]
  | some file =>
    cases hopen : openFile home file fs with
    | mk opened fs' =>
      cases opened with
      | ok p =>
        have hagain := openFile_again hopen
        refine Or.inl ⟨consoleHandlers r ++ [.file p r.level], fs', fun l => ?_⟩
        simp only [configure, hfile, hopen, hagain, and_self]
      | error e =>
        refine Or.inr ⟨e, fs', fun l => ?_⟩
        simp only [configure, hfile, hopen]

/-! ### Many requests -/

/-- The log after some calls, with the file system, and what it was asked for, with whether that
succeeded. -/
structure Setup where
  log : Log
  fileSystem : FileSystem
  outcomes : List (LogRequest × Bool)

/-- One call more. -/
def Setup.next (home : Path) (s : Setup) (r : LogRequest) : Setup :=
  let result := s.log.setup home r s.fileSystem
  ⟨result.2.1, result.2.2, s.outcomes ++ [(r, result.1.isOk)]⟩

/-- The log, when nothing had been set up, after calls for the given requests. -/
def setUpAll (home : Path) (fs : FileSystem) (requests : List LogRequest) : Setup :=
  requests.foldl (Setup.next home) ⟨start, fs, []⟩

/-- The request of the last call that succeeded. -/
def lastSucceeded (outcomes : List (LogRequest × Bool)) : Option LogRequest :=
  outcomes.foldl (fun last o => if o.2 then some o.1 else last) none

/-- The last call that did anything was for `f` and failed, when `r` was what had been set up last;
since then the log has only been asked for `r`. -/
def LeftBy (f r : LogRequest) (outcomes : List (LogRequest × Bool)) : Prop :=
  ∃ before after, outcomes = before ++ (f, false) :: after ∧ lastSucceeded before = some r ∧
    ∀ o ∈ after, o = (r, true)

variable {f q r : LogRequest} {outcomes : List (LogRequest × Bool)}

theorem lastSucceeded_concat (q : LogRequest) (ok : Bool) (outcomes : List (LogRequest × Bool)) :
    lastSucceeded (outcomes ++ [(q, ok)]) = if ok then some q else lastSucceeded outcomes := by
  rw [lastSucceeded, List.foldl_concat, lastSucceeded]

theorem leftBy_concat_true :
    LeftBy f r (outcomes ++ [(q, true)]) ↔ q = r ∧ LeftBy f r outcomes := by
  constructor
  · rintro ⟨before, after, heq, hlast, hafter⟩
    rcases List.eq_nil_or_concat after with rfl | ⟨init, last, rfl⟩
    · have hends := List.append_inj_right' heq rfl
      simp at hends
    · rw [List.concat_eq_append] at heq hafter
      have hsplit : outcomes ++ [(q, true)] = (before ++ (f, false) :: init) ++ [last] := by
        simpa using heq
      obtain ⟨hinit, hends⟩ := List.append_inj' hsplit rfl
      obtain rfl := List.singleton_inj.mp hends
      have hq : (q, true) = (r, true) := hafter _ (by simp)
      exact ⟨congrArg Prod.fst hq, before, init, hinit, hlast, fun o ho => hafter o (by simp [ho])⟩
  · rintro ⟨rfl, before, after, rfl, hlast, hafter⟩
    refine ⟨before, after ++ [(q, true)], by simp, hlast, fun o ho => ?_⟩
    rcases List.mem_append.mp ho with ho | ho
    · exact hafter o ho
    · exact List.mem_singleton.mp ho

theorem leftBy_concat_false :
    LeftBy f r (outcomes ++ [(q, false)]) ↔ q = f ∧ lastSucceeded outcomes = some r := by
  constructor
  · rintro ⟨before, after, heq, hlast, hafter⟩
    rcases List.eq_nil_or_concat after with rfl | ⟨init, last, rfl⟩
    · obtain ⟨rfl, hends⟩ := List.append_inj' heq rfl
      exact ⟨congrArg Prod.fst (List.singleton_inj.mp hends), hlast⟩
    · -- The calls after the failure all succeeded, so the last one cannot have failed.
      rw [List.concat_eq_append] at heq hafter
      have hsplit : outcomes ++ [(q, false)] = (before ++ (f, false) :: init) ++ [last] := by
        simpa using heq
      have hends := List.singleton_inj.mp (List.append_inj_right' hsplit rfl)
      have hlastOk : last = (r, true) := hafter _ (by simp)
      rw [hlastOk] at hends
      cases hends
  · rintro ⟨rfl, hlast⟩
    exact ⟨outcomes, [], rfl, hlast, by simp⟩

/-- What was set up last is still remembered. -/
theorem LeftBy.lastSucceeded_eq (h : LeftBy f r outcomes) : lastSucceeded outcomes = some r := by
  induction outcomes using List.reverseRecOn with
  | nil =>
    obtain ⟨before, after, heq, -⟩ := h
    simp at heq
  | append_singleton init last ih =>
    obtain ⟨q, ok⟩ := last
    rw [lastSucceeded_concat]
    cases ok with
    | true =>
      obtain ⟨rfl, -⟩ := leftBy_concat_true.mp h
      rfl
    | false => exact (leftBy_concat_false.mp h).2

/-- What is known of the log after some calls: the request that it remembers is the last one that
succeeded; if a failed call has left it, it has the level and the handlers of that call; and
otherwise it is as setting it up for the remembered request would leave it. -/
structure Setup.IsSound (home : Path) (s : Setup) : Prop where
  request_eq : s.log.request = lastSucceeded s.outcomes
  left : ∀ f r, LeftBy f r s.outcomes →
    s.log.level = f.level ∧ s.log.handlers = consoleHandlers f
  current : ∀ r, s.log.request = some r → (∀ f, ¬ LeftBy f r s.outcomes) →
    ∀ l, configure home r l s.fileSystem = (.ok (), s.log, s.fileSystem)

theorem Setup.IsSound.next {home : Path} {s : Setup} (h : s.IsSound home) (q : LogRequest) :
    (s.next home q).IsSound home := by
  unfold Setup.next setup
  by_cases hcurrent : s.log.request = some q
  · -- Nothing is done, so a failed call that has left the log has left it still.
    rw [isCurrent, if_pos (beq_iff_eq.mpr hcurrent)]
    refine ⟨?_, fun f r hleft => ?_, fun r hr hnone => ?_⟩
    · exact hcurrent.trans (lastSucceeded_concat q true s.outcomes).symm
    · exact h.left f r (leftBy_concat_true.mp hleft).2
    · obtain rfl : q = r := Option.some.inj (hcurrent.symm.trans hr)
      exact h.current q hr fun f hleft => hnone f (leftBy_concat_true.mpr ⟨rfl, hleft⟩)
  · rw [isCurrent, if_neg (fun hbeq => hcurrent (beq_iff_eq.mp hbeq))]
    rcases configure_cases home q s.fileSystem with ⟨handlers, fs', hok⟩ | ⟨e, fs', herror⟩
    · rw [(hok s.log).1]
      refine ⟨?_, fun f r hleft => ?_, fun r hr hnone l => ?_⟩
      · exact (lastSucceeded_concat q true s.outcomes).symm
      · -- The log was asked for something else than it remembered.
        obtain ⟨rfl, hbefore⟩ := leftBy_concat_true.mp hleft
        exact absurd (h.request_eq.trans hbefore.lastSucceeded_eq) hcurrent
      · obtain rfl : q = r := Option.some.inj hr
        exact (hok l).2
    · rw [herror s.log]
      refine ⟨?_, fun f r hleft => ?_, fun r hr hnone => ?_⟩
      · exact h.request_eq.trans (lastSucceeded_concat q false s.outcomes).symm
      · obtain ⟨rfl, -⟩ := leftBy_concat_false.mp hleft
        exact ⟨rfl, rfl⟩
      · exact absurd (leftBy_concat_false.mpr ⟨rfl, h.request_eq.symm.trans hr⟩) (hnone q)

theorem isSound_setUpAll (home : Path) (fs : FileSystem) (requests : List LogRequest) :
    (setUpAll home fs requests).IsSound home := by
  induction requests using List.reverseRecOn with
  | nil =>
    refine ⟨rfl, fun f r hleft => ?_, fun r hr => ?_⟩
    · cases hleft.lastSucceeded_eq
    · cases hr
  | append_singleton init q ih =>
    rw [setUpAll, List.foldl_concat]
    exact ih.next q

/-- **When setting the log up depends on its last successful call only**: after any calls, a call
either finds the log as a failed call has left it, for the request that is still remembered, and
then it does nothing at all; or its outcome, the level, the handlers and the file system are those
that the call would have as the first one. -/
theorem setup_setUpAll (home : Path) (fs : FileSystem) (requests : List LogRequest)
    (r : LogRequest) :
    let s := setUpAll home fs requests
    let result := s.log.setup home r s.fileSystem
    let first := start.setup home r s.fileSystem
    (∃ f, LeftBy f r s.outcomes ∧
      result = (.ok (), ⟨some r, f.level, consoleHandlers f⟩, s.fileSystem)) ∨
    ((∀ f, ¬ LeftBy f r s.outcomes) ∧ result.1 = first.1 ∧
      result.2.1.level = first.2.1.level ∧ result.2.1.handlers = first.2.1.handlers ∧
      result.2.2 = first.2.2) := by
  intro s result first
  have hsound : s.IsSound home := isSound_setUpAll home fs requests
  have hfirst : first = configure home r start s.fileSystem := rfl
  by_cases hleft : ∃ f, LeftBy f r s.outcomes
  · obtain ⟨f, hf⟩ := hleft
    have hrequest : s.log.request = some r := hsound.request_eq.trans hf.lastSucceeded_eq
    obtain ⟨hlevel, hhandlers⟩ := hsound.left f r hf
    refine Or.inl ⟨f, hf, ?_⟩
    have hresult : result = (.ok (), s.log, s.fileSystem) :=
      if_pos (beq_iff_eq.mpr hrequest)
    rw [hresult, ← hrequest, ← hlevel, ← hhandlers]
  · have hnone : ∀ f, ¬ LeftBy f r s.outcomes := fun f hf => hleft ⟨f, hf⟩
    refine Or.inr ⟨hnone, ?_⟩
    by_cases hrequest : s.log.request = some r
    · have hresult : result = (.ok (), s.log, s.fileSystem) :=
        if_pos (beq_iff_eq.mpr hrequest)
      rw [hfirst, hresult, hsound.current r hrequest hnone start]
      exact ⟨rfl, rfl, rfl, rfl⟩
    · have hresult : result = configure home r s.log s.fileSystem :=
        if_neg fun hbeq => hrequest (beq_iff_eq.mp hbeq)
      rw [hfirst, hresult]
      rcases configure_cases home r s.fileSystem with ⟨handlers, fs', hok⟩ | ⟨e, fs', herror⟩
      · rw [(hok s.log).1, (hok start).1]
        exact ⟨rfl, rfl, rfl, rfl⟩
      · rw [herror s.log, herror start]
        exact ⟨rfl, rfl, rfl, rfl⟩

/-- The log is set up for the level of information, fails to be set up for debugging with a log file
that is a directory, and is asked for the first again: it is taken for set up, and has the level of
debugging. -/
theorem setup_keepsFailedLevel :
    let fs : FileSystem := ⟨.emptyDirectory, []⟩
    let home : Path := ⟨1, []⟩
    let info : LogRequest := ⟨20, none, true⟩
    let s := setUpAll home fs [info, ⟨10, some ".", true⟩]
    s.outcomes = [(info, true), (⟨10, some ".", true⟩, false)] ∧
    (s.log.setup home info s.fileSystem).1 = .ok () ∧
    (s.log.setup home info s.fileSystem).2.1 = ⟨some info, 10, [.console 10]⟩ ∧
    (start.setup home info s.fileSystem).2.1 = ⟨some info, 20, [.console 20]⟩ :=
  ⟨rfl, rfl, rfl, rfl⟩

end CodeAtlas.Log
