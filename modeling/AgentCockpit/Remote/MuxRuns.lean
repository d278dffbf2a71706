import AgentCockpit.Remote.MuxQueue

/-!
# The runs of the mux terminal manager

Every function of the manager, and so every step, keeps the invariant of the queue.
-/

namespace AgentCockpit.Remote

open AgentCockpit.Mux AgentCockpit.Core

namespace RemoteMuxTerminalManager

variable {manager next : RemoteMuxTerminalManager} {quiet : Prop}

/-! ### The functions of the manager -/

/-- A function of the manager keeps the invariant, and what it needs of the state it is called in
still holds in the state it leaves. -/
structure Keeps (quiet : Prop) (manager next : RemoteMuxTerminalManager) : Prop where
  sound : next.Sound quiet
  connected : next.connected = manager.connected
  published : next.published = manager.published
  openings : next.openings ≤ manager.openings
  finalizing : manager.Finalizing → next.Finalizing

namespace Keeps

theorem identified (h : manager.Keeps quiet next) (hid : manager.Identified) : next.Identified :=
  ⟨h.published.trans hid.1, Nat.le_zero.mp (hid.2 ▸ h.openings)⟩

theorem trans {last : RemoteMuxTerminalManager} (h : manager.Keeps quiet next)
    (h' : next.Keeps quiet last) : manager.Keeps quiet last where
  sound := h'.sound
  connected := h'.connected.trans h.connected
  published := h'.published.trans h.published
  openings := h'.openings.trans h.openings
  finalizing hfin := h'.finalizing (h.finalizing hfin)

end Keeps

namespace Sound

variable (h : manager.Sound quiet)

include h

theorem keeps : manager.Keeps quiet manager := ⟨h, rfl, rfl, Nat.le_refl _, id⟩

theorem keeps_settles (hmove : manager.Settles next) : manager.Keeps quiet next :=
  ⟨h.settles hmove, hmove.connected, hmove.published, hmove.openings.le, hmove.finalizing⟩

theorem keeps_request {r : MuxRequest} (hadmits : manager.Admits quiet r)
    (hearly : r.early = false) :
    manager.Keeps quiet (manager.request r) where
  sound := h.request hadmits
  connected := by simp
  published := by simp
  openings := by simp [openings_request, hearly]
  finalizing := by simp [Finalizing]

theorem keeps_awaitConnection {task : ConnectionTask} (hopens : task.opens = false)
    (hfinalize : task = .finalize → manager.Finalizing ∧ manager.Identified) :
    manager.Keeps quiet (manager.awaitConnection task) where
  sound := h.awaitConnection (fun hopen => nomatch hopens.symm.trans hopen) hfinalize
  connected := rfl
  published := rfl
  openings := by simp [openings_awaitConnection, hopens]
  finalizing := id

theorem keeps_stopPolling : manager.Keeps quiet manager.stopPolling := h.keeps_settles .stopPolling

theorem keeps_poll (generation : ℕ) (hid : manager.Identified) :
    manager.Keeps quiet (manager.poll generation) := by
  unfold RemoteMuxTerminalManager.poll
  split
  · exact h.keeps
  · exact h.keeps_request (admits_of_late rfl rfl hid rfl rfl rfl rfl) rfl

theorem keeps_startPolling : manager.Keeps quiet manager.startPolling := by
  unfold RemoteMuxTerminalManager.startPolling
  split
  · next hcan =>
    have hid : manager.term.sessionId ≠ "" := by
      simp only [canPoll, Bool.and_eq_true, decide_eq_true_eq] at hcan
      exact hcan.1.1.1.1
    exact h.keeps_stopPolling.trans
      (h.keeps_stopPolling.sound.keeps_poll _ (h.identified_of_named hid))
  · exact h.keeps

/-- The terminal ends and its exit is told. -/
theorem keeps_exit (info : TerminalExitInfo) (hmove : manager.Settles next)
    (hpub : manager.published = true) (hreg : quiet → next.registered = false)
    (hzero : quiet → manager.exits = 0) (htold : quiet → manager.Told) :
    manager.Keeps quiet (next.emit (.exit info)) where
  sound := by
    have htold : quiet → next.Told := fun hquiet => by
      rw [Told, hmove.answered, hmove.sent, hmove.pane]
      exact htold hquiet
    exact (h.settles hmove).emit_exit info (hmove.published.trans hpub) hreg
      (fun hquiet => hmove.exits.trans (hzero hquiet)) htold
  connected := hmove.connected
  published := hmove.published
  openings := hmove.openings.le
  finalizing := hmove.finalizing

theorem keeps_completeExited (htold : quiet → manager.Told) :
    manager.Keeps quiet manager.completeExited := by
  unfold RemoteMuxTerminalManager.completeExited
  split
  · exact h.keeps
  · next hthere =>
    have hreg : manager.registered = true := by
      simpa using fun hnot => hthere (.inr hnot)
    have hpub := h.published_of_registered hreg
    refine h.keeps_exit _ ?_ hpub (fun _ => rfl) (h.exits_of_registered hreg) htold
    exact .of_still rfl {
      registered := nofun
      closed := fun _ => .inr hpub
      finalizing := fun _ => .inr rfl
      finalizeTimer := nofun
      pollTimer := fun hsome => absurd rfl hsome }

theorem keeps_handleRequestFailure {failure : MuxFailure}
    (htold : quiet → isMissingMuxPaneError failure = true → manager.Told) :
    manager.Keeps quiet (manager.handleRequestFailure failure) := by
  unfold RemoteMuxTerminalManager.handleRequestFailure
  split
  · next hmissing => exact h.keeps_completeExited fun hquiet => htold hquiet hmissing
  · split
    · exact h.keeps_startPolling
    · split
      · exact h.keeps_settles (.yield_ _)
      · exact h.keeps_settles .pauseForReconnect

theorem keeps_finalizeExited (hid : manager.Identified) :
    manager.Keeps quiet manager.finalizeExited := by
  unfold RemoteMuxTerminalManager.finalizeExited
  split
  · exact h.keeps
  · have hmove : manager.Settles (RemoteMuxTerminalManager.stopPolling { manager with
        term := { manager.term with finalizingExit := true } }) :=
      .of_still rfl {
        registered := fun hreg => ⟨hreg, id⟩
        closed := .inl
        finalizing := fun _ => .inl rfl
        finalizeTimer := .inl
        pollTimer := fun hsome => absurd rfl hsome }
    exact (h.keeps_settles hmove).trans ((h.settles hmove).keeps_awaitConnection rfl
      fun _ => ⟨.inl rfl, hmove.identified.mpr hid⟩)

theorem keeps_retryFinalize (hid : manager.Identified) (hfin : manager.Finalizing) :
    manager.Keeps quiet manager.retryFinalize := by
  unfold RemoteMuxTerminalManager.retryFinalize
  split
  · exact h.keeps_settles (.of_still rfl {
      registered := fun hreg => ⟨hreg, id⟩
      closed := .inl
      finalizing := id
      finalizeTimer := fun _ => .inr ⟨hfin, hid⟩
      pollTimer := .inl })
  · exact h.keeps

theorem keeps_abandonExitFinalization (hreg : manager.registered = true) :
    manager.Keeps quiet manager.abandonExitFinalization :=
  h.keeps_settles (.of_still rfl {
    registered := nofun
    closed := fun _ => .inr (h.published_of_registered hreg)
    finalizing := fun _ => .inr rfl
    finalizeTimer := nofun
    pollTimer := fun hsome => absurd rfl hsome })

/-- `attach` for a caller that is no reconnect. -/
theorem keeps_attach {caller : AttachCaller} (hcaller : ∀ crashed, caller ≠ .reattach crashed)
    (hydrateScrollback : Bool) : manager.Keeps quiet (manager.attach caller hydrateScrollback) := by
  refine (h.keeps_settles .attach).trans ((h.settles .attach).keeps_request ?_ rfl)
  cases caller with
  | reattach crashed => exact absurd rfl (hcaller crashed)
  | _ => exact admits_of_plain rfl rfl rfl rfl

theorem keeps_reattach (crashed : Bool) (hid : manager.Identified)
    (hnone : manager.flight.countP (·.reconnects) = 0) :
    manager.Keeps quiet (manager.reattach crashed) := by
  unfold RemoteMuxTerminalManager.reattach
  split
  · exact h.keeps
  · refine (h.keeps_settles .attach).trans ((h.settles .attach).keeps_request ?_ rfl)
    exact {
      sound := rfl
      identified := fun _ => rfl
      early := nofun
      late := fun _ => hid
      reconnects := fun _ => hnone
      relists := nofun
      current := by
        rintro _ _ _ _ heq
        injection heq with hid
        exact hid.symm
      finalizes := nofun
      closes := nofun }

theorem keeps_rejectOpening :
    manager.Keeps quiet manager.rejectOpening := h.keeps_settles .rejectOpening

/-- A crash is reported only in a run that is not quiet. -/
theorem keeps_report (hpub : manager.published = true) (hloud : ¬ quiet) :
    manager.Keeps quiet manager.reportRecoveredDaemonExit := by
  have hstop : manager.Settles (RemoteMuxTerminalManager.stopPolling { manager with
      term := { manager.term with waitingForReconnect := false } }) :=
    .of_same rfl rfl (.inr rfl) id
  have hnoted := hstop.trans (.emit (.note daemonCrashNote) nofun)
  exact h.keeps_exit _ hnoted hpub (fun hquiet => absurd hquiet hloud)
    (fun hquiet => absurd hquiet hloud) fun hquiet => absurd hquiet hloud

theorem keeps_attachReturned {caller : AttachCaller}
    (hreport : ∀ crashed, caller = .reattach crashed → manager.published = true ∧
      (quiet → crashed = true → manager.term.closed = true)) :
    manager.Keeps quiet (manager.attachReturned caller) := by
  cases caller with
  | opening =>
    simp only [RemoteMuxTerminalManager.attachReturned]
    split
    · exact h.keeps_rejectOpening
    · exact h.keeps
  | remount => exact h.keeps
  | reattach crashed =>
    simp only [RemoteMuxTerminalManager.attachReturned]
    split
    · next hreports =>
      obtain ⟨hpub, hclosed⟩ := hreport crashed rfl
      exact h.keeps_report hpub fun hquiet => hreports.2 (hclosed hquiet hreports.1)
    · exact h.keeps

theorem keeps_finishAttach (index : ℕ) {caller : AttachCaller} (resume : Option ℕ)
    (hreport : ∀ crashed, caller = .reattach crashed → manager.published = true ∧
      (quiet → crashed = true → manager.term.closed = true)) :
    manager.Keeps quiet (manager.finishAttach index caller resume) := by
  have hseed := h.keeps_settles (.emit (.seed index resume) nofun)
  unfold RemoteMuxTerminalManager.finishAttach
  refine hseed.trans ?_
  dsimp only
  split
  · exact hseed.sound.keeps_attachReturned hreport
  · have hpoll := hseed.sound.keeps_startPolling
    refine hpoll.trans (hpoll.sound.keeps_attachReturned ?_)
    rw [startPolling_closed, startPolling_published]
    exact hreport

theorem keeps_attachAnswered (index : ℕ) {caller : AttachCaller} {hydrateScrollback : Bool}
    (resume : Option ℕ)
    (hreport : ∀ crashed, caller = .reattach crashed → manager.published = true ∧
      (quiet → crashed = true → manager.term.closed = true))
    (hsound : ∀ crashed, caller = .reattach crashed → hydrateScrollback = false) :
    manager.Keeps quiet (manager.attachAnswered index caller hydrateScrollback resume) := by
  have hmove : manager.Settles { manager with term := { manager.term with
      waitingForReconnect := false, nextSequence := resume.getD manager.term.nextSequence } } :=
    .of_same rfl rfl (.inl rfl) id
  unfold RemoteMuxTerminalManager.attachAnswered
  refine (h.keeps_settles hmove).trans ?_
  dsimp only
  cases hydrateScrollback with
  | false => exact (h.settles hmove).keeps_finishAttach index resume hreport
  | true =>
    refine (h.settles hmove).keeps_request ?_ rfl
    cases caller with
    | reattach crashed => exact nomatch hsound crashed rfl
    | _ => exact admits_of_plain rfl rfl rfl rfl

theorem keeps_attachFailed {caller : AttachCaller} {failure : MuxFailure}
    (htold : ∀ crashed, caller = .reattach crashed → quiet →
      isMissingMuxPaneError failure = true → manager.Told)
    (hreport : ∀ crashed, caller = .reattach crashed → manager.published = true ∧
      (quiet → isRecoveredExitedPane failure = false)) :
    manager.Keeps quiet (manager.attachFailed failure caller) := by
  cases caller with
  | opening => exact h.keeps_rejectOpening
  | remount => exact h.keeps
  | reattach crashed =>
    simp only [RemoteMuxTerminalManager.attachFailed]
    split
    · next hreports =>
      obtain ⟨hpub, hnot⟩ := hreport crashed rfl
      exact h.keeps_report hpub fun hquiet => nomatch (hnot hquiet).symm.trans hreports
    · exact h.keeps_handleRequestFailure (htold crashed rfl)

theorem keeps_resumePolling (resume : Bool) :
    manager.Keeps quiet (manager.resumePolling resume) := by
  unfold RemoteMuxTerminalManager.resumePolling
  split
  · exact h.keeps_startPolling
  · exact h.keeps

/-- The end of a detached entry. -/
theorem keeps_forget (retired : Bool) :
    manager.Keeps quiet { manager with retired := retired, detached := none } :=
  h.keeps_settles (.of_same rfl rfl (.inl rfl) id)

theorem keeps_sessionDestroyed {live : Bool} (detached : Bool)
    (htold : live = true → manager.Told) :
    manager.Keeps quiet (manager.sessionDestroyed live detached) := by
  have hforget : ∀ {next : RemoteMuxTerminalManager}, manager.Keeps quiet next → manager.Keeps quiet
      (if detached then { next with retired := true, detached := none } else next) := by
    intro next hnext
    split
    · exact hnext.trans (hnext.sound.keeps_forget true)
    · exact hnext
  unfold RemoteMuxTerminalManager.sessionDestroyed
  refine hforget ?_
  split
  · next hlive =>
    have hpub := h.published_of_registered hlive.2
    refine h.keeps_exit _ ?_ hpub (fun _ => rfl) (h.exits_of_registered hlive.2)
      fun _ => htold hlive.1
    exact .of_still rfl {
      registered := nofun
      closed := fun _ => .inr hpub
      finalizing := fun _ => .inr rfl
      finalizeTimer := .inl
      pollTimer := fun hsome => absurd rfl hsome }
  · exact h.keeps

theorem keeps_outputAnswered (generation : ℕ) {result : Except MuxFailure MuxResponse}
    (hid : manager.Identified)
    (htold : ∀ failure, result = .error failure → quiet →
      isMissingMuxPaneError failure = true → manager.Told) :
    manager.Keeps quiet (manager.outputAnswered generation result) := by
  have hagain : ∀ {next : RemoteMuxTerminalManager}, manager.Keeps quiet next →
      manager.Keeps quiet (next.pollAgain generation) := fun hnext =>
    hnext.trans (hnext.sound.keeps_settles (.pollAgain generation (hnext.identified hid)))
  unfold RemoteMuxTerminalManager.outputAnswered
  split
  · exact h.keeps
  · split
    · next outputs exited =>
      have houtputs := h.keeps_settles (.emitOutputs outputs)
      refine hagain ?_
      split
      · exact houtputs.trans (houtputs.sound.keeps_finalizeExited (houtputs.identified hid))
      · exact houtputs
    · exact hagain h.keeps
    · next failure => exact hagain (h.keeps_handleRequestFailure (htold failure rfl))

end Sound

/-! ### Answers -/

theorem Settles.hydrateDetached (listed : Option ListedSession) :
    manager.Settles (manager.hydrateDetached listed) := by
  unfold RemoteMuxTerminalManager.hydrateDetached
  split
  · exact .of_same rfl rfl (.inl rfl) id
  · exact .refl

/-- What is known of an answer when it is taken off the queue. -/
structure Delivers (quiet : Prop) (manager : RemoteMuxTerminalManager) (answer : MuxAnswer) :
    Prop where
  keeps : manager.Sound quiet
  told : answer.ends = true → manager.Told
  first : quiet → answer.closeDone = true → manager.exits = 0
  late : answer.request.late = true → manager.Identified
  early : answer.live = true → answer.request.early = true →
    manager.published = true ∧ manager.openings = 0 ∧ manager.Unidentified
  online : answer.live = true → manager.connected = true
  reconnects : answer.live = true → answer.request.reconnects = true →
    manager.flight.countP (·.reconnects) = 0
  relisted : answer.live = false → answer.request = .list .reconnect → manager.connected = false
  finalizing : answer.request.finalizes = true → manager.Finalizing
  sound : answer.request.sound = true
  identified : quiet → answer.request.unidentified = false

/-- Nothing is in flight without a connection. -/
theorem Sound.flight_eq_nil (h : manager.Sound quiet) (hoff : manager.connected = false) :
    manager.flight = [] := by
  obtain ⟨hsent, hanswered⟩ := h.offline hoff
  rw [flight, hsent, List.append_nil, List.map_eq_nil_iff, List.filter_eq_nil_iff]
  exact fun answer hmem hlive => by cases (hanswered answer hmem).symm.trans hlive

section Answers

variable {sessionId : String} {result : Except MuxFailure MuxResponse}

theorem keeps_destroyAnswered {caller : DestroyCaller}
    (h : manager.Delivers quiet ⟨.destroy sessionId caller, result⟩) :
    manager.Keeps quiet (manager.destroyAnswered caller result) := by
  cases caller with
  | close resume =>
    cases result with
    | ok response =>
      have hpub := (h.late rfl).1
      refine h.keeps.keeps_exit _ ?_ hpub (fun _ => rfl) (fun hquiet => h.first hquiet rfl)
        fun _ => h.told rfl
      exact .of_still rfl {
        registered := nofun
        closed := fun _ => .inr hpub
        finalizing := fun _ => .inr rfl
        finalizeTimer := .inl
        pollTimer := .inl }
    | error failure => exact h.keeps.keeps_resumePolling resume
  | closeDetached =>
    cases result with
    | ok response => exact h.keeps.keeps_forget true
    | error failure => exact h.keeps.keeps
  | destroySession live detached resume =>
    cases result with
    | ok response =>
      exact h.keeps.keeps_sessionDestroyed detached fun hlive => h.told (by subst hlive; rfl)
    | error failure => exact h.keeps.keeps_resumePolling resume
  | finalize =>
    have hid := h.late rfl
    cases result with
    | ok response => exact h.keeps.keeps_completeExited fun _ => h.told rfl
    | error failure =>
      simp only [destroyAnswered]
      split
      · next hmissing => exact h.keeps.keeps_completeExited fun _ => h.told hmissing
      · exact h.keeps.keeps_retryFinalize hid (h.finalizing rfl)

/-- The same, once the answer has been noted. -/
theorem keeps_destroyNoted {caller : DestroyCaller}
    (h : manager.Delivers quiet ⟨.destroy sessionId caller, result⟩) :
    manager.Keeps quiet ((manager.noteDestroy result).destroyAnswered caller result) := by
  have hnoted : manager.Keeps quiet (manager.emit .destroyAnswered) :=
    h.keeps.keeps_settles (.emit .destroyAnswered nofun)
  have hemit : (manager.emit .destroyAnswered).Delivers quiet ⟨.destroy sessionId caller, result⟩ :=
    { h with
      keeps := hnoted.sound
      first := fun hquiet hdone => (exits_emit .destroyAnswered nofun).trans (h.first hquiet hdone)
      early := fun _ => nofun
      reconnects := nofun
      relisted := nofun }
  unfold noteDestroy
  split
  · exact keeps_destroyAnswered h
  · exact hnoted.trans (keeps_destroyAnswered hemit)

theorem Sound.keeps_closeListed (h : manager.Sound quiet) (kill : Bool)
    (listed : Option ListedSession) : manager.Keeps quiet (manager.closeListed kill listed) := by
  have hmoved := h.keeps_settles (.hydrateDetached listed)
  unfold closeListed
  dsimp only
  split
  · split
    · exact hmoved.trans (hmoved.sound.keeps_request (admits_of_plain rfl rfl rfl rfl) rfl)
    · exact hmoved
  · exact hmoved

theorem keeps_reconnectListed (h : manager.Sound quiet) (hid : manager.Identified)
    (hnone : manager.flight.countP (·.reconnects) = 0) (listed : Option (Option ListedSession)) :
    manager.Keeps quiet (manager.reconnectListed listed) := by
  unfold reconnectListed
  split
  · next session =>
    have hnamed : manager.Keeps quiet { manager with
        term := { manager.term with sessionId := session.sessionId } } :=
      ⟨h.identity session.sessionId hid.1 hid.2 hnone, rfl, rfl, Nat.le_refl _, id⟩
    have hmove : Settles { manager with
        term := { manager.term with sessionId := session.sessionId } }
      { manager with
        term := { manager.term with sessionId := session.sessionId, recovered := session.exited }
        detached := some ⟨session.sessionId, manager.term.nextSequence, session.exited⟩ } :=
      .of_same rfl rfl (.inl rfl) id
    have hmoved := hnamed.trans (hnamed.sound.keeps_settles hmove)
    exact hmoved.trans (hmoved.sound.keeps_reattach _ (hmoved.identified hid) hnone)
  · exact h.keeps_reattach false hid hnone

/-- An early request that continues the only opening there is. -/
theorem Sound.openNext (h : manager.Sound quiet) {r : MuxRequest} (hearly : r.early = true)
    (hopening : manager.published = true ∧ manager.openings = 0 ∧ manager.Unidentified)
    (hsound : r.sound = true) : (manager.request r).Sound quiet := by
  have hidentified : r.unidentified = false := by
    cases r with
    | write => exact nomatch hearly
    | _ => rfl
  obtain ⟨hlate, hcloses, hfinalizes, hreconnects⟩ := MuxRequest.not_late_of_early hearly
  refine h.request {
    sound := hsound
    identified := fun _ => hidentified
    early := fun _ => hopening
    late := fun hr => nomatch hlate.symm.trans hr
    reconnects := fun hr => nomatch hreconnects.symm.trans hr
    relists := ?_
    current := ?_
    finalizes := fun hr => nomatch hfinalizes.symm.trans hr
    closes := fun hr => nomatch hcloses.symm.trans hr }
  · rintro rfl
    exact nomatch hearly
  · rintro _ _ _ _ rfl
    exact nomatch hearly

theorem Sound.createSession (h : manager.Sound quiet)
    (hopening : manager.published = true ∧ manager.openings = 0 ∧ manager.Unidentified)
    (options : TerminalOpenOptions) (priorSelection : Bool) :
    (manager.createSession options priorSelection).Sound quiet := by
  unfold RemoteMuxTerminalManager.createSession
  split
  · exact h.keeps_rejectOpening.sound
  · exact h.openNext rfl hopening rfl

theorem Sound.keeps_attachOpening (h : manager.Sound quiet) (options : TerminalOpenOptions) :
    manager.Keeps quiet (manager.attachOpening options) := by
  unfold attachOpening
  split
  · exact h.keeps_rejectOpening
  · have hcaller : ∀ crashed, AttachCaller.opening ≠ .reattach crashed := nofun
    exact h.keeps_attach hcaller _

theorem Sound.openListed (h : manager.Sound quiet)
    (hopening : manager.published = true ∧ manager.openings = 0 ∧ manager.Unidentified)
    (hnone : manager.flight.countP (·.reconnects) = 0)
    (options : TerminalOpenOptions) (listed : Option ListedSession) :
    (manager.openListed options listed).Sound quiet := by
  have hmoved := h.keeps_settles (.hydrateDetached listed)
  have hopening : (manager.hydrateDetached listed).published = true ∧
      (manager.hydrateDetached listed).openings = 0 ∧
        (manager.hydrateDetached listed).Unidentified := by
    cases listed <;> exact hopening
  have hnone : (manager.hydrateDetached listed).flight.countP (·.reconnects) = 0 := by
    cases listed <;> exact hnone
  have h := hmoved.sound
  unfold RemoteMuxTerminalManager.openListed
  dsimp only
  generalize manager.hydrateDetached listed = next at h hopening hnone
  split
  · exact h.keeps_rejectOpening.sound
  · split
    · next detached _ =>
      have hnamed := h.identity detached.sessionId hopening.1 hopening.2.1 hnone
      have hmove : Settles { next with
          term := { next.term with sessionId := detached.sessionId } }
        { next with term := { next.term with
            sessionId := detached.sessionId
            nextSequence := detached.nextSequence
            recovered := detached.recovered } } :=
        .of_same rfl rfl (.inl rfl) id
      exact ((hnamed.settles hmove).keeps_attachOpening options).sound
    · split
      · exact h.openNext rfl hopening rfl
      · exact h.createSession hopening options false

/-- `reconfigureAndReattach` sends its request at the beginning of an epoch. -/
theorem Sound.keeps_reconfigureAndReattach (h : manager.Sound quiet)
    (hnone : manager.flight.countP (·.reconnects) = 0) :
    manager.Keeps quiet manager.reconfigureAndReattach := by
  unfold reconfigureAndReattach
  split
  · next hthere =>
    refine h.keeps_request ?_ rfl
    exact {
      sound := rfl
      identified := fun _ => rfl
      early := nofun
      late := fun _ => h.identified_of_named hthere.2.2
      reconnects := fun _ => hnone
      relists := nofun
      current := nofun
      finalizes := nofun
      closes := nofun }
  · exact h.keeps

end Answers

/-- The condition on a step: no answer makes a reconnect report a crash of the daemon, and the
terminal is written to or resized only once it has its identity. -/
def Retires (manager : RemoteMuxTerminalManager) : MuxStep → Prop
  | .deliver => ∀ answer ∈ manager.answered.head?, answer.reports manager.term.closed = false
  | .write => manager.term.sessionId ≠ ""
  | _ => True

instance (manager : RemoteMuxTerminalManager) (label : MuxStep) :
    Decidable (manager.Retires label) := by
  unfold Retires
  split <;> infer_instance

/-- Every answer but the early ones keeps the invariant. -/
theorem keeps_deliver {answer : MuxAnswer} (h : manager.Delivers quiet answer)
    (hreports : quiet → answer.reports manager.term.closed = false)
    (hearly : ∀ response, answer.result = .ok response → answer.request.early = false) :
    manager.Keeps quiet (manager.deliver answer) := by
  obtain ⟨request, result⟩ := answer
  have hkeep := h.keeps
  cases request with
  | configure caller =>
    cases caller with
    | opening options =>
      cases result with
      | ok response => exact nomatch hearly response rfl
      | error failure => exact hkeep.keeps_rejectOpening
    | remount hydrateScrollback =>
      cases result with
      | ok response =>
        have hcaller : ∀ crashed, AttachCaller.remount ≠ .reattach crashed := nofun
        exact hkeep.keeps_attach hcaller hydrateScrollback
      | error failure => exact hkeep.keeps
    | reconnect =>
      cases result with
      | ok response =>
        refine hkeep.keeps_request ?_ rfl
        exact {
          sound := rfl
          identified := fun _ => rfl
          early := nofun
          late := fun _ => h.late rfl
          reconnects := fun _ => h.reconnects rfl rfl
          relists := fun _ => h.online rfl
          current := nofun
          finalizes := nofun
          closes := nofun }
      | error failure => exact hkeep.keeps
  | list caller =>
    cases caller with
    | opening options =>
      cases result with
      | ok response => exact nomatch hearly response rfl
      | error failure => exact hkeep.keeps_rejectOpening
    | close kill =>
      cases result with
      | ok response =>
        cases response with
        | sessions listed => exact hkeep.keeps_closeListed kill listed
        | _ => exact hkeep.keeps
      | error failure => exact hkeep.keeps
    | reconnect =>
      have hid := h.late rfl
      cases result with
      | ok response =>
        have hnone := h.reconnects rfl rfl
        cases response with
        | sessions listed => exact keeps_reconnectListed hkeep hid hnone (some listed)
        | _ => exact keeps_reconnectListed hkeep hid hnone none
      | error failure =>
        refine keeps_reconnectListed hkeep hid ?_ none
        cases hlive : MuxAnswer.live ⟨.list .reconnect, .error failure⟩ with
        | true => exact h.reconnects hlive rfl
        | false => rw [hkeep.flight_eq_nil (h.relisted hlive rfl)]; rfl
  | topology options =>
    cases result with
    | ok response => exact nomatch hearly response rfl
    | error failure => exact hkeep.keeps_rejectOpening
  | create options priorSelection =>
    cases result with
    | ok response => exact nomatch hearly response rfl
    | error failure => exact hkeep.keeps_rejectOpening
  | selectPane options =>
    cases result with
    | ok response => exact hkeep.keeps_attachOpening options
    | error failure => exact hkeep.keeps_rejectOpening
  | attach sessionId index caller hydrateScrollback =>
    cases result with
    | ok response =>
      cases response with
      | attached resume =>
        refine hkeep.keeps_attachAnswered index resume ?_ ?_
        · rintro crashed rfl
          refine ⟨(h.late rfl).1, fun hquiet hcrashed => ?_⟩
          simpa [MuxAnswer.reports, hcrashed] using hreports hquiet
        · rintro crashed rfl
          simpa [MuxRequest.sound] using h.sound
      | _ => exact hkeep.keeps
    | error failure =>
      refine hkeep.keeps_attachFailed ?_ ?_
      · rintro crashed rfl - hmissing
        exact h.told hmissing
      · rintro crashed rfl
        exact ⟨(h.late rfl).1, hreports⟩
  | scrollback index caller resume =>
    have hcaller : ∀ crashed, caller ≠ .reattach crashed := by
      rintro crashed rfl
      exact nomatch h.sound
    cases result with
    | ok response =>
      have hhistory := hkeep.keeps_settles (.emit .history nofun)
      exact hhistory.trans
        (hhistory.sound.keeps_finishAttach index resume fun crashed heq =>
          absurd heq (hcaller crashed))
    | error failure =>
      exact hkeep.keeps_finishAttach index resume fun crashed heq => absurd heq (hcaller crashed)
  | output generation fromSequence =>
    exact hkeep.keeps_outputAnswered generation (h.late rfl) fun failure heq _ hmissing => by
      subst heq
      exact h.told hmissing
  | write identified =>
    cases result with
    | ok response => exact hkeep.keeps
    | error failure =>
      refine hkeep.keeps_handleRequestFailure fun hquiet hmissing => ?_
      obtain rfl : identified = true := by simpa [MuxRequest.unidentified] using h.identified hquiet
      exact h.told hmissing
  | detach => exact hkeep.keeps
  | destroy sessionId caller => exact keeps_destroyNoted h

theorem Unidentified.reconnects (h : manager.Unidentified) :
    manager.flight.countP (·.reconnects) = 0 := by
  rw [List.countP_eq_zero]
  intro r hmem hr
  exact nomatch (h.2.1 r (flight_subset_queue hmem)).symm.trans (MuxRequest.late_of_reconnects hr)

/-- The answers by which `open` goes on keep the invariant. -/
theorem Sound.deliver_early {request : MuxRequest} {response : MuxResponse}
    (h : manager.Delivers quiet ⟨request, .ok response⟩) (hearly : request.early = true) :
    (manager.deliver ⟨request, .ok response⟩).Sound quiet := by
  have hkeep := h.keeps
  have hopening := h.early rfl hearly
  cases request with
  | configure caller =>
    cases caller with
    | opening options =>
      simp only [deliver]
      split
      · exact hkeep.keeps_rejectOpening.sound
      · exact hkeep.openNext rfl hopening rfl
    | _ => exact nomatch hearly
  | list caller =>
    cases caller with
    | opening options =>
      cases response with
      | sessions listed => exact hkeep.openListed hopening hopening.2.2.reconnects options listed
      | _ => exact hkeep.keeps_rejectOpening.sound
    | _ => exact nomatch hearly
  | topology options =>
    cases response with
    | selection active => exact hkeep.createSession hopening options active
    | _ => exact hkeep.keeps_rejectOpening.sound
  | create options priorSelection =>
    cases response with
    | created sessionId =>
      have hnamed := hkeep.identity sessionId hopening.1 hopening.2.1 hopening.2.2.reconnects
      simp only [deliver]
      split
      · exact hnamed.request (admits_of_plain rfl rfl rfl rfl)
      · exact (hnamed.keeps_attachOpening options).sound
    | _ => exact hkeep.keeps_rejectOpening.sound
  | _ => exact nomatch hearly

/-- An answer that ends the terminal leaves nothing that could tell the exit of `close`. -/
theorem Sound.told_of_ends {answer : MuxAnswer} {rest : List MuxAnswer}
    (h : manager.Sound quiet) (hanswered : manager.answered = answer :: rest)
    (hends : answer.ends = true) : Told { manager with answered := rest } := by
  have hpairs := h.ends
  rw [hanswered, List.pairwise_cons] at hpairs
  have hsettled := h.settled answer (hanswered ▸ List.mem_cons_self)
  have hlive := MuxAnswer.live_of_ends hends
  have horder := h.order
  rw [flight, hanswered, List.filter_cons_of_pos hlive, List.map_cons, List.cons_append,
    List.pairwise_cons] at horder
  refine ⟨fun later hmem => hpairs.1 later hmem hends, fun sessionId resume hmem hpresent => ?_⟩
  exact hsettled.not_named hends (horder.1 _ (List.mem_append_right _ hmem)) hpresent

section Pop

variable {answer : MuxAnswer} {rest : List MuxAnswer}

theorem queue_cons (hanswered : manager.answered = answer :: rest) :
    manager.queue = answer.request :: queue { manager with answered := rest } := by
  simp [queue, hanswered]

theorem flight_cons (hanswered : manager.answered = answer :: rest) :
    manager.flight = (if answer.live = true then [answer.request] else []) ++
      flight { manager with answered := rest } := by
  simp only [flight, hanswered, List.filter_cons]
  split <;> simp

theorem openings_cons (hanswered : manager.answered = answer :: rest) :
    manager.openings = openings { manager with answered := rest } +
      if answer.request.early = true then 1 else 0 := by
  rw [openings, queue_cons hanswered, List.countP_cons]
  exact Nat.add_right_comm _ _ _

/-- The invariant without the first answer. -/
theorem Sound.pop (h : manager.Sound quiet) (hanswered : manager.answered = answer :: rest) :
    Sound { manager with answered := rest } quiet := by
  have hsub : flight { manager with answered := rest } <:+ manager.flight :=
    flight_cons hanswered ▸ List.suffix_append _ _
  have hmem : ∀ {later : MuxAnswer}, later ∈ rest → later ∈ manager.answered := fun hlater =>
    hanswered ▸ List.mem_cons_of_mem _ hlater
  have hqueue : ∀ r ∈ queue { manager with answered := rest }, r ∈ manager.queue := fun r hr =>
    queue_cons hanswered ▸ List.mem_cons_of_mem _ hr
  have hopenings : RemoteMuxTerminalManager.openings { manager with answered := rest } ≤
      manager.openings := by
    rw [openings_cons hanswered]
    exact Nat.le_add_right _ _
  refine
    { h with
      told := fun hquiet hpos =>
        ⟨fun later hlater => (h.told hquiet hpos).1 later (hmem hlater), (h.told hquiet hpos).2⟩
      order := h.order.sublist hsub.sublist
      ends := by
        have hpairs := h.ends
        rw [hanswered] at hpairs
        exact hpairs.of_cons
      settled := fun later hlater => h.settled later (hmem hlater)
      current := fun _ _ _ _ hr => h.current _ _ _ _ (hsub.subset hr)
      reconnects := (hsub.sublist.countP_le).trans h.reconnects
      unpublished := fun hpub => ?_
      openings := hopenings.trans h.openings
      unidentified := fun hphase => ?_
      finalizing := ?_
      sound := fun r hr => h.sound r (hqueue r hr)
      identified := fun hquiet r hr => h.identified hquiet r (hqueue r hr)
      relisted := fun later hlater => h.relisted later (hmem hlater)
      offline := fun hoff =>
        ⟨(h.offline hoff).1, fun later hlater => (h.offline hoff).2 later (hmem hlater)⟩ }
  · obtain ⟨hreg, hnone, hrest⟩ := h.unpublished hpub
    exact ⟨hreg, Nat.le_zero.mp (hnone ▸ hopenings), hrest⟩
  · obtain ⟨hid, hlate, hrest⟩ := h.unidentified (hphase.imp_right (Nat.lt_of_lt_of_le · hopenings))
    exact ⟨hid, fun r hr => hlate r (hqueue r hr), hrest⟩
  · rintro (ht | hw | ⟨r, hr, hfin⟩)
    · exact h.finalizing (.inl ht)
    · exact h.finalizing (.inr (.inl hw))
    · exact h.finalizing (.inr (.inr ⟨r, hqueue r hr, hfin⟩))

/-- What is known of the first answer. -/
theorem Sound.delivers (h : manager.Sound quiet) (hanswered : manager.answered = answer :: rest) :
    Delivers quiet { manager with answered := rest } answer := by
  have hmem : answer ∈ manager.answered := hanswered ▸ List.mem_cons_self
  have hqueue : answer.request ∈ manager.queue := queue_cons hanswered ▸ List.mem_cons_self
  have honline : answer.live = true → manager.connected = true := fun hlive => by
    cases hon : manager.connected with
    | true => rfl
    | false => exact nomatch ((h.offline hon).2 answer hmem).symm.trans hlive
  refine
    { keeps := h.pop hanswered
      told := h.told_of_ends hanswered
      first := fun hquiet hdone => ?_
      late := fun hlate => ?_
      early := fun _ hearly => ?_
      online := honline
      reconnects := fun hlive hr => ?_
      relisted := fun hlive heq => absurd heq (h.relisted answer hmem hlive)
      finalizing := fun hfin => h.finalizing (.inr (.inr ⟨_, hqueue, hfin⟩))
      sound := h.sound _ hqueue
      identified := fun hquiet => h.identified hquiet _ hqueue }
  · by_contra hne
    exact nomatch hdone.symm.trans ((h.told hquiet (Nat.pos_of_ne_zero hne)).1 answer hmem)
  · obtain ⟨hpub, hnone⟩ := h.identified_of_late hqueue hlate
    refine ⟨hpub, ?_⟩
    rw [openings_cons hanswered] at hnone
    exact (Nat.add_eq_zero_iff.mp hnone).1
  · have hcount := openings_cons hanswered
    rw [if_pos hearly] at hcount
    have hle := h.openings
    obtain ⟨hid, hlate, hrest⟩ := h.unidentified (.inr (by omega))
    refine ⟨?_, by omega, hid, fun r hr => hlate r ?_, hrest⟩
    · cases hpub : manager.published with
      | true => rfl
      | false =>
        have hnone := (h.unpublished hpub).2.1
        omega
    · exact queue_cons hanswered ▸ List.mem_cons_of_mem _ hr
  · have hle := h.reconnects
    rw [flight_cons hanswered, if_pos hlive, List.singleton_append, List.countP_cons_of_pos hr]
      at hle
    exact Nat.le_zero.mp (Nat.le_of_succ_le_succ hle)

end Pop

variable (manager) in
/-- The manager without one function that waits for the connection. -/
def resumed (index : ℕ) : RemoteMuxTerminalManager :=
  { manager with waiting := manager.waiting.eraseIdx index }

theorem openings_resumed {index : ℕ} {task : ConnectionTask}
    (htask : manager.waiting[index]? = some task) :
    manager.openings = (manager.resumed index).openings + if task.opens = true then 1 else 0 := by
  obtain ⟨hindex, rfl⟩ := List.getElem?_eq_some_iff.mp htask
  have hperm := (List.getElem_cons_eraseIdx_perm hindex).countP_eq (·.opens)
  rw [List.countP_cons] at hperm
  rw [openings, ← hperm]
  exact (Nat.add_assoc _ _ _).symm

/-- The invariant without a function that waited for the connection. -/
theorem Sound.resumed (h : manager.Sound quiet) {index : ℕ} {task : ConnectionTask}
    (htask : manager.waiting[index]? = some task) : (manager.resumed index).Sound quiet := by
  have hopenings : (manager.resumed index).openings ≤ manager.openings :=
    openings_resumed htask ▸ Nat.le_add_right _ _
  have hwaiting : ∀ later ∈ manager.waiting.eraseIdx index, later ∈ manager.waiting :=
    fun _ => List.mem_of_mem_eraseIdx
  refine
    { h with
      unpublished := fun hpub => ?_
      openings := hopenings.trans h.openings
      unidentified := fun hphase => ?_
      finalizing := ?_ }
  · obtain ⟨hreg, hnone, hrest⟩ := h.unpublished hpub
    exact ⟨hreg, Nat.le_zero.mp (hnone ▸ hopenings), hrest⟩
  · obtain ⟨hid, hlate, hpoll, htimer, hnone⟩ :=
      h.unidentified (hphase.imp_right (Nat.lt_of_lt_of_le · hopenings))
    exact ⟨hid, hlate, hpoll, htimer, fun hmem => hnone (hwaiting _ hmem)⟩
  · rintro (ht | hw | hr)
    · exact h.finalizing (.inl ht)
    · exact h.finalizing (.inr (.inl (hwaiting _ hw)))
    · exact h.finalizing (.inr (.inr hr))

/-- `open` is the only opening there is when it goes on. -/
theorem Sound.opening_resumed (h : manager.Sound quiet) {index : ℕ}
    {options : TerminalOpenOptions} (htask : manager.waiting[index]? = some (.opening options)) :
    (manager.resumed index).published = true ∧ (manager.resumed index).openings = 0 ∧
      (manager.resumed index).Unidentified := by
  have hcount := openings_resumed htask
  have hle := h.openings
  simp only [ConnectionTask.opens, if_true] at hcount
  obtain ⟨hid, hlate, hpoll, htimer, hnone⟩ := h.unidentified (.inr (by omega))
  refine ⟨?_, by omega, hid, hlate, hpoll, htimer, fun hmem =>
    hnone (List.mem_of_mem_eraseIdx hmem)⟩
  change manager.published = true
  cases hpub : manager.published with
  | true => rfl
  | false =>
    have hzero := (h.unpublished hpub).2.1
    omega

theorem Sound.finalize_resumed (h : manager.Sound quiet) {index : ℕ}
    (htask : manager.waiting[index]? = some .finalize) :
    (manager.resumed index).Finalizing ∧ (manager.resumed index).Identified := by
  have hmem : ConnectionTask.finalize ∈ manager.waiting := List.mem_of_getElem? htask
  have hid : manager.Identified := h.identified_of_not fun hnot => hnot.2.2.2.2 hmem
  refine ⟨h.finalizing (.inr (.inl hmem)), hid.1, ?_⟩
  have hcount := openings_resumed htask
  simp only [ConnectionTask.opens, Bool.false_eq_true, if_false] at hcount
  exact hcount.symm.trans hid.2

/-! ### The daemon -/

/-- A step of the daemon after which no session is there that was not there before. -/
theorem Sound.withPane (h : manager.Sound quiet) {pane : DaemonPane}
    (hfades : manager.pane.Fades pane) : (manager.withPane pane).Sound quiet where
  __ := h
  told hquiet hpos := ⟨(h.told hquiet hpos).1, fun sessionId resume hmem hpresent => by
    obtain ⟨hwas, hsame⟩ := hfades hpresent
    exact hsame ▸ (h.told hquiet hpos).2 sessionId resume hmem hwas⟩
  settled answer hmem := (h.settled answer hmem).fades hfades
  named hpresent := by
    obtain ⟨hwas, hsame⟩ := hfades hpresent
    exact hsame ▸ h.named hwas

theorem Sound.serve (h : manager.Sound quiet) (refusal : Option String) {r : MuxRequest}
    {rest : List MuxRequest} (hsent : manager.sent = r :: rest) :
    Sound { manager with
      sent := rest
      answered := manager.answered ++ [⟨r, (manager.pane.serve refusal r).2⟩]
      pane := (manager.pane.serve refusal r).1 } quiet := by
  have hlive := manager.pane.serve_live refusal r
  have hmem : r ∈ manager.sent := hsent ▸ List.mem_cons_self
  have hrest : ∀ r' ∈ rest, r' ∈ manager.sent := fun r' hr' => hsent ▸ List.mem_cons_of_mem _ hr'
  have honline : manager.connected = true := by
    cases hon : manager.connected with
    | true => rfl
    | false => cases (h.offline hon).1 ▸ hmem
  have hin : r ∈ manager.queue := List.mem_append_right _ hmem
  generalize hpane : (manager.pane.serve refusal r).1 = pane
  generalize hresult : (manager.pane.serve refusal r).2 = result
  have hqueue : queue { manager with
      sent := rest, answered := manager.answered ++ [⟨r, result⟩], pane } = manager.queue := by
    simp [queue, hsent]
  have hflight : flight { manager with
      sent := rest, answered := manager.answered ++ [⟨r, result⟩], pane } = manager.flight := by
    simp [flight, hsent, List.filter_append, ← hresult, hlive]
  have hopenings : RemoteMuxTerminalManager.openings { manager with
      sent := rest, answered := manager.answered ++ [⟨r, result⟩], pane } = manager.openings := by
    rw [RemoteMuxTerminalManager.openings, hqueue]
    rfl
  -- either nothing identified is in flight, or no session appears
  have hfades : manager.Unidentified ∨ manager.pane.Fades pane := by
    cases hearly : r.early with
    | false => exact .inr (hpane ▸ manager.pane.fades_serve refusal r hearly)
    | true =>
      refine .inl (h.unidentified (.inr ?_))
      exact Nat.add_pos_left (List.countP_pos_iff.mpr ⟨r, hin, hearly⟩) _
  have hnamed : pane.present = true → pane.sessionID ≠ "" :=
    hpane ▸ manager.pane.named_serve refusal r h.named
  have hsettled : ∀ answer ∈ manager.answered, answer.Settled pane := fun answer hanswer hends => by
    rcases hfades with hunidentified | hfades
    · have hlate := MuxAnswer.late_of_ends hends (h.settled answer hanswer)
      cases hlate.symm.trans (hunidentified.2.1 _ (mem_queue_of_answered hanswer))
    · exact (h.settled answer hanswer).fades hfades hends
  -- the daemon destroys the session for `close` only when nothing before it was an end
  have hdone : (MuxAnswer.mk r result).closeDone = true → manager.pane.present = true ∧
      ∃ sessionId resume, r = .destroy sessionId (.close resume) ∧
        manager.pane.sessionID = sessionId := fun hclosed => by
    cases r with
    | destroy sessionId caller =>
      cases caller with
      | close resume =>
        obtain ⟨hpresent, hid⟩ := manager.pane.present_of_closeDone refusal (hresult ▸ hclosed)
        exact ⟨hpresent, _, _, rfl, hid⟩
      | _ => cases hclosed
    | _ => cases hclosed
  refine
    { h with
      told := fun hquiet hpos => ?_
      order := hflight ▸ h.order
      ends := ?_
      settled := fun answer hanswer => ?_
      current := hflight ▸ h.current
      reconnects := hflight ▸ h.reconnects
      unpublished := fun hpub => hopenings ▸ h.unpublished hpub
      openings := hopenings ▸ h.openings
      unidentified := ?_
      finalizing := ?_
      sound := hqueue ▸ h.sound
      identified := hqueue ▸ h.identified
      relisted := fun answer hanswer => ?_
      offline := fun hoff => by cases honline.symm.trans hoff
      named := hnamed }
  · obtain ⟨hnone, hgone⟩ := h.told hquiet hpos
    refine ⟨fun answer hanswer => ?_, fun sessionId resume hclose hpresent => ?_⟩
    · rcases List.mem_append.mp hanswer with hanswer | hanswer
      · exact hnone answer hanswer
      · obtain rfl := List.mem_singleton.mp hanswer
        by_contra hnot
        obtain ⟨hpresent, sessionId, resume, rfl, hid⟩ := hdone (by simpa using hnot)
        exact hgone sessionId resume hmem hpresent hid
    · rcases hfades with hunidentified | hfades
      · have hlate := hunidentified.2.1 _ (List.mem_append_right _ (hrest _ hclose))
        cases hlate
      · obtain ⟨hwas, hsame⟩ := hfades hpresent
        exact hsame ▸ hgone sessionId resume (hrest _ hclose) hwas
  · rw [List.pairwise_append]
    refine ⟨h.ends, List.pairwise_singleton _ _, fun answer hanswer later hlater hends => ?_⟩
    obtain rfl := List.mem_singleton.mp hlater
    by_contra hnot
    obtain ⟨hpresent, sessionId, resume, rfl, hid⟩ := hdone (by simpa using hnot)
    have hflying : answer.request ∈ (manager.answered.filter (·.live)).map (·.request) :=
      List.mem_map_of_mem (List.mem_filter.mpr ⟨hanswer, MuxAnswer.live_of_ends hends⟩)
    have hbefore := (List.pairwise_append.mp h.order).2.2 _ hflying _ hmem
    exact (h.settled answer hanswer).not_named hends hbefore hpresent hid
  · rcases List.mem_append.mp hanswer with hanswer | hanswer
    · exact hsettled answer hanswer
    · obtain rfl := List.mem_singleton.mp hanswer
      rw [← hresult, ← hpane]
      exact manager.pane.settled_serve refusal r h.named
  · rw [hopenings]
    intro hphase
    obtain ⟨hid, hlate, hothers⟩ := h.unidentified hphase
    exact ⟨hid, hqueue ▸ hlate, hothers⟩
  · rw [hqueue]
    exact h.finalizing
  · rcases List.mem_append.mp hanswer with hanswer | hanswer
    · exact h.relisted answer hanswer
    · obtain rfl := List.mem_singleton.mp hanswer
      rw [← hresult]
      exact fun hnot => by cases hlive.symm.trans hnot

/-! ### Calls, timers and the connection -/

namespace Sound

variable (h : manager.Sound quiet)

include h

theorem keeps_closeUnknown (kill : Bool) : manager.Keeps quiet (manager.closeUnknown kill) := by
  unfold closeUnknown
  split
  · exact h.keeps_awaitConnection rfl nofun
  · split
    · exact h.keeps_request (admits_of_plain rfl rfl rfl rfl) rfl
    · exact h.keeps

theorem keeps_close (kill : Bool) : manager.Keeps quiet (manager.close kill) := by
  unfold RemoteMuxTerminalManager.close
  split
  · exact h.keeps_closeUnknown kill
  · next hthere =>
    have hreg : manager.registered = true := by simpa using hthere
    have hpub := h.published_of_registered hreg
    split
    · exact h.keeps
    · next hfin =>
      split
      · dsimp only
        split
        · have hmove : manager.Settles { RemoteMuxTerminalManager.stopPolling { manager with
              term := { manager.term with closed := true } } with
              retired := true, registered := false } :=
            .of_still rfl {
              registered := nofun
              closed := fun _ => .inr hpub
              finalizing := fun _ => .inr rfl
              finalizeTimer := .inl
              pollTimer := fun hsome => absurd rfl hsome }
          exact (h.keeps_settles hmove).trans ((h.settles hmove).keeps_closeUnknown kill)
        · exact h.keeps_settles (.of_still rfl {
            registered := nofun
            closed := fun _ => .inr hpub
            finalizing := fun _ => .inr rfl
            finalizeTimer := .inl
            pollTimer := fun hsome => absurd rfl hsome })
      · next hid =>
        split
        · -- a kill asks the daemon first, and the terminal stays registered until it answers
          refine h.keeps_stopPolling.trans (h.keeps_stopPolling.sound.keeps_request ?_ rfl)
          exact {
            sound := rfl
            identified := fun _ => rfl
            early := nofun
            late := fun _ => h.identified_of_named hid
            reconnects := nofun
            relists := nofun
            current := nofun
            finalizes := nofun
            closes := fun _ => ⟨hreg, Bool.eq_false_iff.mpr hfin, fun _ _ heq => by
              injection heq with hsame
              exact hsame.symm⟩ }
        · have hmove : manager.Settles { RemoteMuxTerminalManager.stopPolling { manager with
              term := { manager.term with closed := true } } with
              registered := false
              detached := some
                ⟨manager.term.sessionId, manager.term.nextSequence, manager.term.recovered⟩ } :=
            .of_still rfl {
              registered := nofun
              closed := fun _ => .inr hpub
              finalizing := fun _ => .inr rfl
              finalizeTimer := .inl
              pollTimer := fun hsome => absurd rfl hsome }
          exact (h.keeps_settles hmove).trans
            ((h.settles hmove).keeps_request (admits_of_plain rfl rfl rfl rfl) rfl)

theorem keeps_closeAll : manager.Keeps quiet manager.closeAll := by
  unfold closeAll
  split
  · exact h.keeps
  · next hthere =>
    split
    · exact h.keeps_abandonExitFinalization (by simpa using hthere)
    · exact h.keeps_close false

theorem keeps_destroySession (sessionId : String) :
    manager.Keeps quiet (manager.destroySession sessionId) := by
  unfold RemoteMuxTerminalManager.destroySession
  dsimp only
  split
  · next hthere =>
    refine h.keeps_stopPolling.trans (h.keeps_stopPolling.sound.keeps_request ?_ rfl)
    by_cases hnamed : sessionId = ""
    · exact admits_of_plain rfl rfl (by simp [MuxRequest.late, hnamed]) rfl
    · exact admits_of_late rfl rfl (h.identified_of_named (hthere.2 ▸ hnamed)) rfl rfl rfl rfl
  · exact h.keeps_request (admits_of_plain rfl rfl rfl rfl) rfl

/-- `open` publishes the record once. -/
theorem publish (hpub : manager.published = false) (retired : Bool) :
    Sound { manager with published := true, registered := true, retired := retired } quiet := by
  obtain ⟨hreg, hnone, hclosed, hzero⟩ := h.unpublished hpub
  exact
    { h with
      registered := fun _ => hclosed
      exits_registered := fun hquiet hpos => absurd (hzero hquiet) (Nat.pos_iff_ne_zero.mp hpos)
      unpublished := nofun
      unidentified := fun _ => h.unidentified (.inl hpub) }

theorem open_ (options : TerminalOpenOptions)
    (hpub : ¬ (manager.published = true ∧ manager.registered = false)) :
    (manager.open_ options).Sound quiet := by
  unfold RemoteMuxTerminalManager.open_
  split
  · exact h
  · have hmove : manager.Settles { manager with retired := false } :=
      .of_same rfl rfl (.inl rfl) id
    have hready := h.settles hmove
    dsimp only
    split
    · split
      · exact hready
      · exact hready.awaitConnection nofun nofun
    · next hreg =>
      have hnot : manager.published = false := by
        cases hwas : manager.published with
        | false => rfl
        | true => exact absurd ⟨hwas, by simpa using hreg⟩ hpub
      refine (h.publish hnot false).awaitConnection (fun _ => ⟨rfl, ?_, ?_⟩) nofun
      · exact (h.unpublished hnot).2.1
      · exact h.unidentified (.inl hnot)

/-- A function that waited for the connection goes on. -/
theorem connectionSettled {index : ℕ} {task : ConnectionTask}
    (htask : manager.waiting[index]? = some task) (opened : Bool) :
    ((manager.resumed index).connectionSettled task opened).Sound quiet := by
  have hpop := h.resumed htask
  cases task with
  | opening options =>
    cases opened with
    | false => exact hpop.keeps_rejectOpening.sound
    | true =>
      simp only [RemoteMuxTerminalManager.connectionSettled]
      split
      · exact hpop.keeps_rejectOpening.sound
      · exact hpop.openNext rfl (h.opening_resumed htask) rfl
  | remount hydrateScrollback =>
    cases opened with
    | false => exact hpop
    | true => exact hpop.request (admits_of_plain rfl rfl rfl rfl)
  | close kill =>
    cases opened with
    | false => exact hpop
    | true => exact hpop.request (admits_of_plain rfl rfl rfl rfl)
  | destroySession sessionId =>
    cases opened with
    | false => exact hpop
    | true => exact (hpop.keeps_destroySession sessionId).sound
  | finalize =>
    obtain ⟨hfin, hid⟩ := h.finalize_resumed htask
    cases opened with
    | false => exact (hpop.keeps_retryFinalize hid hfin).sound
    | true =>
      refine hpop.request ?_
      exact {
        sound := rfl
        identified := fun _ => rfl
        early := nofun
        late := fun _ => hid
        reconnects := nofun
        relists := nofun
        current := nofun
        finalizes := fun _ => hfin
        closes := nofun }

/-- The connection is there again, and nothing is in flight. -/
theorem connect : Sound { manager with connected := true } quiet where
  __ := h
  offline := nofun

/-- Every request in flight is gone. -/
theorem disconnect :
    Sound { manager with connected := false, answered := [], sent := [] } quiet := by
  have hopenings : RemoteMuxTerminalManager.openings
      { manager with connected := false, answered := [], sent := [] } ≤ manager.openings := by
    simp [RemoteMuxTerminalManager.openings, queue]
  have hnone : ∀ {β : Type} {x : β}, x ∉ ([] : List β) := List.not_mem_nil
  refine
    { h with
      told := fun _ _ => ⟨fun _ hmem => absurd hmem hnone, fun _ _ hmem => absurd hmem hnone⟩
      order := List.Pairwise.nil
      ends := List.Pairwise.nil
      settled := fun _ hmem => absurd hmem hnone
      current := fun _ _ _ _ hmem => absurd hmem hnone
      reconnects := Nat.zero_le _
      unpublished := fun hpub => ?_
      openings := hopenings.trans h.openings
      unidentified := fun hphase => ?_
      finalizing := ?_
      sound := fun _ hmem => absurd hmem hnone
      identified := fun _ _ hmem => absurd hmem hnone
      relisted := fun _ hmem => absurd hmem hnone
      offline := fun _ => ⟨rfl, fun _ hmem => absurd hmem hnone⟩ }
  · obtain ⟨hreg, hnone, hrest⟩ := h.unpublished hpub
    exact ⟨hreg, Nat.le_zero.mp (hnone ▸ hopenings), hrest⟩
  · obtain ⟨hid, -, hrest⟩ := h.unidentified (hphase.imp_right (Nat.lt_of_lt_of_le · hopenings))
    exact ⟨hid, fun _ hmem => absurd hmem hnone, hrest⟩
  · rintro (ht | hw | ⟨r, hr, -⟩)
    · exact h.finalizing (.inl ht)
    · exact h.finalizing (.inr (.inl hw))
    · exact absurd hr hnone

/-- The rejections of a lost connection, one after the other. -/
theorem rejectAll (hoff : manager.connected = false) {requests : List MuxRequest}
    (hrequests : ∀ r ∈ requests, r.sound = true ∧ (r.late = true → manager.Identified) ∧
      (r.finalizes = true → manager.Finalizing) ∧ (quiet → r.unidentified = false)) :
    (requests.foldl (fun manager request => manager.deliver ⟨request, .error .channel⟩)
      manager).Sound quiet := by
  induction requests generalizing manager with
  | nil => exact h
  | cons r rest ih =>
    obtain ⟨hsound, hlate, hfin, hidentified⟩ := hrequests r List.mem_cons_self
    have hends : (MuxAnswer.mk r (.error .channel)).ends = false := by
      by_contra hnot
      have hlive := MuxAnswer.live_of_ends (Bool.eq_true_of_not_eq_false hnot)
      exact nomatch hlive
    have hkeeps : manager.Keeps quiet (manager.deliver ⟨r, .error .channel⟩) := by
      refine keeps_deliver ?_ ?_ nofun
      · exact {
          keeps := h
          told := fun hnot => nomatch hends.symm.trans hnot
          first := fun _ hdone => nomatch closeDone_rejected.symm.trans hdone
          late := hlate
          early := fun hlive => nomatch hlive
          online := fun hlive => nomatch hlive
          reconnects := fun hlive => nomatch hlive
          relisted := fun _ _ => hoff
          finalizing := hfin
          sound := hsound
          identified := hidentified }
      · cases r with
        | attach _ _ caller _ => cases caller <;> exact fun _ => rfl
        | _ => exact fun _ => rfl
    refine ih hkeeps.sound (hkeeps.connected.trans hoff) fun r' hr' => ?_
    obtain ⟨hsound', hlate', hfin', hrest⟩ := hrequests r' (List.mem_cons_of_mem _ hr')
    exact ⟨hsound', fun hl => hkeeps.identified (hlate' hl), fun hf =>
      hkeeps.finalizing (hfin' hf), hrest⟩

/-- Every request in flight is rejected. -/
theorem lose : manager.lose.Sound quiet := by
  refine h.disconnect.rejectAll rfl fun r hr =>
    ⟨h.sound r hr, fun hlate => ?_, fun hfin => ?_, fun hquiet => h.identified hquiet r hr⟩
  · have hid := h.identified_of_late hr hlate
    refine ⟨hid.1, ?_⟩
    have hnone := hid.2
    rw [RemoteMuxTerminalManager.openings] at hnone
    exact (Nat.zero_add _).trans (Nat.add_eq_zero_iff.mp hnone).2
  · exact h.finalizing (.inr (.inr ⟨r, hr, hfin⟩))

/-- The daemon is started again while no connection is there. -/
theorem recover {pane : DaemonPane} (hoff : manager.connected = false)
    (hnamed : pane.present = true → pane.sessionID ≠ "") : (manager.withPane pane).Sound quiet where
  __ := h
  told hquiet hpos := ⟨(h.told hquiet hpos).1, fun _ _ hmem => nomatch (h.offline hoff).1 ▸ hmem⟩
  settled answer hmem hends :=
    nomatch ((h.offline hoff).2 answer hmem).symm.trans (MuxAnswer.live_of_ends hends)
  named := hnamed

/-- One step of a run that reports no crash. -/
theorem step {label : MuxStep} (hretires : quiet → manager.Retires label)
    (hstep : manager.step label = some next) : next.Sound quiet := by
  cases label with
  | open_ options =>
    simp only [RemoteMuxTerminalManager.step] at hstep
    split at hstep
    · cases hstep
    · obtain rfl := Option.some.inj hstep
      exact h.open_ options ‹_›
  | close kill =>
    obtain rfl := Option.some.inj hstep
    exact (h.keeps_close kill).sound
  | destroySession sessionId =>
    obtain rfl := Option.some.inj hstep
    exact h.awaitConnection (fun hopen => absurd hopen Bool.false_ne_true)
      fun htask => by cases htask
  | closeAll =>
    obtain rfl := Option.some.inj hstep
    exact h.keeps_closeAll.sound
  | write =>
    obtain ⟨_, rfl⟩ := of_ite_some hstep
    refine h.request {
      sound := rfl
      identified := fun hquiet => ?_
      early := fun hkind => absurd hkind Bool.false_ne_true
      late := fun hnamed => h.identified_of_named (of_decide_eq_true hnamed)
      reconnects := fun hkind => absurd hkind Bool.false_ne_true
      relists := by simp
      current := by simp
      finalizes := fun hkind => absurd hkind Bool.false_ne_true
      closes := fun hkind => absurd hkind Bool.false_ne_true }
    have hid : manager.term.sessionId ≠ "" := hretires hquiet
    simp [MuxRequest.unidentified, hid]
  | poll =>
    simp only [RemoteMuxTerminalManager.step] at hstep
    split at hstep
    · next generation htimer =>
      obtain rfl := Option.some.inj hstep
      have hid : manager.Identified := h.identified_of_not fun hnot =>
        by cases htimer.symm.trans hnot.2.2.1
      have hmove : manager.Settles
          { manager with term := { manager.term with pollTimer := none } } :=
        .of_same rfl rfl (.inr rfl) id
      exact ((h.settles hmove).keeps_poll generation (hmove.identified.mpr hid)).sound
    · cases hstep
  | finalizeTimer =>
    obtain ⟨htimer, rfl⟩ := of_ite_some hstep
    have hid : manager.Identified :=
      h.identified_of_not fun hnot => by cases htimer.symm.trans hnot.2.2.2.1
    have hmove : manager.Settles { manager with
        term := { manager.term with finalizeTimer := false } } :=
      .of_still rfl {
        registered := fun hreg => ⟨hreg, id⟩
        closed := .inl
        finalizing := id
        finalizeTimer := by simp
        pollTimer := .inl }
    exact (h.settles hmove).awaitConnection (fun hopen => absurd hopen Bool.false_ne_true)
      fun _ => ⟨h.finalizing (.inl htimer), hmove.identified.mpr hid⟩
  | connection index opened =>
    simp only [RemoteMuxTerminalManager.step] at hstep
    split at hstep
    · obtain rfl := Option.some.inj hstep
      exact h.connectionSettled ‹_› opened
    · cases hstep
  | deliver =>
    simp only [RemoteMuxTerminalManager.step] at hstep
    split at hstep
    · next answer rest hanswered =>
      obtain rfl := Option.some.inj hstep
      have hdelivers := h.delivers hanswered
      have hreports : quiet → answer.reports manager.term.closed = false := fun hquiet =>
        hretires hquiet answer (by simp [hanswered])
      obtain ⟨request, result⟩ := answer
      cases result with
      | error failure => exact (keeps_deliver hdelivers hreports (by simp)).sound
      | ok response =>
        cases hearly : request.early with
        | true => exact deliver_early hdelivers hearly
        | false => exact (keeps_deliver hdelivers hreports fun _ _ => hearly).sound
    · cases hstep
  | attached =>
    simp only [RemoteMuxTerminalManager.step] at hstep
    split at hstep
    · cases hstep
    · next hoff =>
      obtain rfl := Option.some.inj hstep
      have hnone := h.flight_eq_nil (Bool.eq_false_iff.mpr hoff)
      exact (h.connect.keeps_reconfigureAndReattach (congrArg (List.countP _) hnone)).sound
  | lost =>
    obtain ⟨_, rfl⟩ := of_ite_some hstep
    exact h.lose
  | stolenEvent =>
    obtain ⟨_, rfl⟩ := of_ite_some hstep
    exact h.settles (.yield_ _)
  | serve refusal =>
    simp only [RemoteMuxTerminalManager.step] at hstep
    split at hstep
    · obtain rfl := Option.some.inj hstep
      exact h.serve refusal ‹_›
    · cases hstep
  | crash =>
    obtain ⟨hcrash, rfl⟩ := of_ite_some hstep
    exact h.recover hcrash.1 fun _ => by simp
  | watchPaneExit =>
    obtain ⟨hexited, rfl⟩ := of_ite_some hstep
    refine h.withPane fun _ => ⟨?_, rfl⟩
    simp [DaemonPane.present, hexited.1]
  | destroyElsewhere =>
    obtain ⟨_, rfl⟩ := of_ite_some hstep
    exact h.withPane fun hpresent => absurd hpresent Bool.false_ne_true
  | pump | childExit | pumpEnd | stealElsewhere =>
    obtain ⟨_, rfl⟩ := of_ite_some hstep
    exact h.withPane (.of_status _ rfl rfl)

end Sound

end RemoteMuxTerminalManager

end AgentCockpit.Remote
