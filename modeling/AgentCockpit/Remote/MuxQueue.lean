import Mathlib.Data.List.Perm.Basic
import AgentCockpit.Remote.MuxTerminal

/-!
# The requests of the mux terminal manager

The requests in flight are read as one queue, first the answered ones and then the sent ones. The
invariant of this module says what can stand before what in it, what an answer says of the daemon's
pane, and which functions of the manager can be suspended at the same time.

A run is quiet when no reconnect reports a crash of the daemon and nothing is written to a terminal
without its identity. What the invariant says of the exits told so far holds of quiet runs only.
-/

namespace AgentCockpit.Remote

open AgentCockpit.Mux AgentCockpit.Core

/-! ### Kinds of requests -/

namespace MuxRequest

/-- A request of `open` before the daemon identity is known. -/
def early : MuxRequest → Bool
  | configure (.opening _) | list (.opening _) | topology _ | create _ _ => true
  | _ => false

/-- A request of the reconnect. -/
def reconnects : MuxRequest → Bool
  | configure .reconnect | list .reconnect | attach _ _ (.reattach _) _ => true
  | _ => false

def finalizes : MuxRequest → Bool
  | destroy _ .finalize => true
  | _ => false

def closes : MuxRequest → Bool
  | destroy _ (.close _) => true
  | _ => false

/-- A request that is sent only for a terminal with its identity. -/
def late : MuxRequest → Bool
  | output _ _ | destroy _ (.close _) | destroy _ .finalize => true
  | write identified => identified
  | destroy sessionId (.destroySession true _ _) => sessionId ≠ ""
  | request => request.reconnects

/-- A reconnect does not hydrate. -/
def sound : MuxRequest → Bool
  | attach _ _ (.reattach _) hydrateScrollback => !hydrateScrollback
  | scrollback _ (.reattach _) _ => false
  | _ => true

/-- A write to a terminal without its identity. -/
def unidentified : MuxRequest → Bool
  | write identified => !identified
  | _ => false

/-- What may stand before what in the queue of requests in flight. -/
def Before : MuxRequest → MuxRequest → Prop
  | destroy _ .finalize, destroy _ (.close _) => False
  | attach sessionId _ (.reattach _) _, destroy sessionId' (.close _) => sessionId = sessionId'
  | _, _ => True

variable {request request' : MuxRequest}

theorem before_of_not_closes (h : request'.closes = false) : request.Before request' := by
  cases request' with
  | destroy sessionId caller =>
    cases caller with
    | close resume => exact nomatch h
    | _ =>
      cases request with
      | destroy _ caller => cases caller <;> trivial
      | attach _ _ caller _ => cases caller <;> trivial
      | _ => trivial
  | _ =>
    cases request with
    | destroy _ caller => cases caller <;> trivial
    | attach _ _ caller _ => cases caller <;> trivial
    | _ => trivial

/-- An early request is none of the others. -/
theorem not_late_of_early (h : request.early = true) :
    request.late = false ∧ request.closes = false ∧ request.finalizes = false ∧
      request.reconnects = false := by
  cases request with
  | configure caller => cases caller <;> first | exact ⟨rfl, rfl, rfl, rfl⟩ | exact nomatch h
  | list caller => cases caller <;> first | exact ⟨rfl, rfl, rfl, rfl⟩ | exact nomatch h
  | topology | create => exact ⟨rfl, rfl, rfl, rfl⟩
  | _ => exact nomatch h

theorem late_of_reconnects (h : request.reconnects = true) : request.late = true := by
  cases request with
  | configure | list | attach => exact h
  | _ => exact nomatch h

theorem late_of_finalizes (h : request.finalizes = true) : request.late = true := by
  cases request with
  | destroy _ caller => cases caller <;> first | rfl | exact nomatch h
  | _ => exact nomatch h

theorem late_of_closes (h : request.closes = true) : request.late = true := by
  cases request with
  | destroy _ caller => cases caller <;> first | rfl | exact nomatch h
  | _ => exact nomatch h

end MuxRequest

def ConnectionTask.opens : ConnectionTask → Bool
  | opening _ => true
  | _ => false

/-! ### Answers that end the terminal -/

namespace MuxAnswer

/-- The answer came from the daemon. -/
def live (answer : MuxAnswer) : Bool := answer.result ≠ .error .channel

/-- The answers upon which a function tells the exit, or would if the terminal were there; a
write without identity, which says nothing of the pane, apart. -/
def ends (answer : MuxAnswer) : Bool :=
  match answer.request, answer.result with
  | .output _ _, .error failure | .write true, .error failure => isMissingMuxPaneError failure
  | .attach _ _ (.reattach _) _, .error failure => isMissingMuxPaneError failure
  | .destroy _ (.close _), .ok _ | .destroy _ (.destroySession true _ _), .ok _ => true
  | .destroy _ .finalize, .ok _ => true
  | .destroy _ .finalize, .error failure => isSessionNotFoundError failure
  | _, _ => false

/-- The daemon has destroyed the session for `close`. -/
def closeDone (answer : MuxAnswer) : Bool :=
  match answer.request, answer.result with
  | .destroy _ (.close _), .ok _ => true
  | _, _ => false

/-- The answer makes a reconnect report a crash of the daemon. -/
def reports (answer : MuxAnswer) (closed : Bool) : Bool :=
  match answer.request, answer.result with
  | .attach _ _ (.reattach crashed) _, .ok _ => crashed && !closed
  | .attach _ _ (.reattach _) _, .error failure => isRecoveredExitedPane failure
  | _, _ => false

/-- What an answer that ends the terminal says of the daemon's pane. -/
def Settled (pane : DaemonPane) (answer : MuxAnswer) : Prop :=
  answer.ends = true →
    match answer.request with
    | .attach sessionId _ _ _ => pane.present = true → pane.sessionID ≠ sessionId
    | .destroy _ .finalize => True
    | .destroy sessionId (.destroySession _ _ _) => sessionId ≠ "" ∧ pane.present = false
    | _ => pane.present = false

variable {answer : MuxAnswer} {pane : DaemonPane}

theorem live_of_ends (h : answer.ends = true) : answer.live = true := by
  obtain ⟨request, result⟩ := answer
  cases result with
  | ok response => rfl
  | error failure =>
    cases failure with
    | refused err => simp [live]
    | channel =>
      cases request with
      | attach _ _ caller _ => cases caller <;> exact nomatch h
      | destroy _ caller =>
        cases caller with
        | destroySession live => cases live <;> exact nomatch h
        | _ => exact nomatch h
      | write identified => cases identified <;> exact nomatch h
      | _ => exact nomatch h

theorem late_of_ends (h : answer.ends = true) (hsettled : answer.Settled pane) :
    answer.request.late = true := by
  have hfact := hsettled h
  obtain ⟨request, result⟩ := answer
  cases request with
  | output => rfl
  | write identified => cases identified <;> cases result <;> first | rfl | exact nomatch h
  | attach _ _ caller _ => cases caller <;> cases result <;> first | rfl | exact nomatch h
  | destroy sessionId caller =>
    cases caller with
    | close | finalize => rfl
    | destroySession live _ _ =>
      cases live
      · cases result <;> exact nomatch h
      · exact decide_eq_true hfact.1
    | closeDetached => cases result <;> exact nomatch h
  | _ => cases result <;> exact nomatch h

/-- An answer that ends the terminal shows that no later request of `close` can succeed. -/
theorem Settled.not_named (hsettled : answer.Settled pane) (hends : answer.ends = true)
    {sessionId : String} {resume : Bool}
    (hbefore : answer.request.Before (.destroy sessionId (.close resume)))
    (hpresent : pane.present = true) : pane.sessionID ≠ sessionId := by
  have hfact := hsettled hends
  obtain ⟨request, result⟩ := answer
  cases request with
  | attach _ _ caller _ =>
    cases caller with
    | reattach crashed =>
      have hsame := hbefore
      exact hsame ▸ hfact hpresent
    | _ => cases result <;> exact nomatch hends
  | destroy _ caller =>
    cases caller with
    | finalize => exact hbefore.elim
    | destroySession => exact nomatch hpresent.symm.trans hfact.2
    | _ => exact nomatch hpresent.symm.trans hfact
  | _ => exact nomatch hpresent.symm.trans hfact

end MuxAnswer

/-- A daemon step after which no session is there that was not there before. -/
def DaemonPane.Fades (pane pane' : DaemonPane) : Prop :=
  pane'.present = true → pane.present = true ∧ pane'.sessionID = pane.sessionID

theorem MuxAnswer.Settled.fades {answer : MuxAnswer} {pane pane' : DaemonPane}
    (h : answer.Settled pane) (hfades : pane.Fades pane') : answer.Settled pane' := by
  intro hends
  have hfact := h hends
  have hgone : pane.present = false → pane'.present = false := fun hnot => by
    cases hpresent : pane'.present with
    | false => rfl
    | true => exact nomatch (hfades hpresent).1.symm.trans hnot
  obtain ⟨request, result⟩ := answer
  cases request with
  | attach sessionId _ _ _ =>
    intro hpresent
    obtain ⟨hwas, hsame⟩ := hfades hpresent
    exact hsame ▸ hfact hwas
  | destroy sessionId caller =>
    cases caller with
    | finalize => trivial
    | destroySession => exact ⟨hfact.1, hgone hfact.2⟩
    | _ => exact hgone hfact
  | _ => exact hgone hfact

namespace DaemonPane

variable (pane : DaemonPane) (refusal : Option String) (request : MuxRequest)

theorem Fades.of_status {pane' : DaemonPane} (hstatus : pane'.status = pane.status)
    (hid : pane'.sessionID = pane.sessionID) : pane.Fades pane' := by
  intro hpresent
  rw [present, hstatus] at hpresent
  exact ⟨hpresent, hid⟩

theorem serve_live : (MuxAnswer.mk request (pane.serve refusal request).2).live = true :=
  decide_eq_true (serve_ne_channel refusal request)

/-- Only `session.create` makes a session. -/
theorem fades_serve (hearly : request.early = false) :
    pane.Fades (pane.serve refusal request).1 := by
  rcases pane.serve_pane refusal request with heq | ⟨_, _, rfl, -⟩ | ⟨_, _, _, _, -, heq⟩ |
    ⟨_, _, -, -, -, heq⟩
  · rw [heq]
    exact .of_status pane rfl rfl
  · exact nomatch hearly
  · rw [heq]
    exact .of_status pane rfl rfl
  · rw [heq]
    exact nofun

theorem named_serve (hnamed : pane.present = true → pane.sessionID ≠ "") :
    (pane.serve refusal request).1.present = true →
    (pane.serve refusal request).1.sessionID ≠ "" := by
  intro hpresent
  cases hearly : request.early with
  | false =>
    obtain ⟨hwas, hsame⟩ := pane.fades_serve refusal request hearly hpresent
    exact hsame ▸ hnamed hwas
  | true =>
    rcases pane.serve_pane refusal request with heq | ⟨_, _, rfl, -, heq⟩ | ⟨_, _, _, _, rfl, -⟩ |
      ⟨_, _, rfl, -⟩
    · rw [heq] at hpresent ⊢
      exact hnamed hpresent
    · rw [heq]
      simp [create, sessionName]
    · cases hearly
    · cases hearly

theorem settled_serve (hnamed : pane.present = true → pane.sessionID ≠ "") :
    (MuxAnswer.mk request (pane.serve refusal request).2).Settled
    (pane.serve refusal request).1 := by
  intro hends
  cases refusal with
  | some message =>
    cases request with
    | attach _ _ caller _ => cases caller <;> cases hends
    | destroy _ caller =>
      cases caller with
      | destroySession live => cases live <;> cases hends
      | _ => cases hends
    | write identified => cases identified <;> cases hends
    | _ => cases hends
  | none =>
    cases request with
    | output generation fromSequence =>
      cases herr : pane.pane? with
      | error failure =>
        refine of_pane?_missing herr ?_
        simpa [MuxAnswer.ends, serve, handle, herr, Except.map] using hends
      | ok _ => simp [MuxAnswer.ends, serve, handle, herr, Except.map] at hends
    | write identified =>
      cases herr : pane.pane? with
      | error failure =>
        refine of_pane?_missing herr ?_
        cases identified with
        | false => simp [MuxAnswer.ends] at hends
        | true => simpa [MuxAnswer.ends, serve, handle, herr] using hends
      | ok _ =>
        cases identified <;> cases hlive : decide (pane.status = .live) <;>
          simp_all [MuxAnswer.ends, serve, handle, isMissingMuxPaneError]
    | attach sessionId index caller hydrate =>
      cases herr : pane.session? sessionId with
      | error failure =>
        have hsame : (pane.serve none (.attach sessionId index caller hydrate)).1 = pane := by
          simp [serve, handle, herr]
        obtain ⟨-, hnot⟩ := session?_eq_error herr
        change (pane.serve none _).1.present = true → (pane.serve none _).1.sessionID ≠ sessionId
        rw [hsame]
        exact fun hpresent hid => hnot ⟨hpresent, hid⟩
      | ok _ =>
        cases caller <;> cases hstatus : pane.status <;>
          simp [MuxAnswer.ends, serve, handle, herr, hstatus, isMissingMuxPaneError] at hends
    | destroy sessionId caller =>
      cases hresult : (pane.serve none (.destroy sessionId caller)).2 with
      | error failure =>
        rw [hresult] at hends
        cases caller with
        | finalize => trivial
        | destroySession live => cases live <;> cases hends
        | _ => cases hends
      | ok response =>
        -- a session that was destroyed here is gone
        obtain ⟨hpresent, hid, hdestroyed⟩ := of_serve_destroy hresult
        have hgone : (pane.serve none (.destroy sessionId caller)).1.present = false := by
          rw [hdestroyed]
          rfl
        cases caller with
        | finalize => trivial
        | destroySession live => exact ⟨hid ▸ hnamed hpresent, hgone⟩
        | _ => exact hgone
    | _ => cases hends

/-- The daemon destroys the session that is there. -/
theorem present_of_closeDone {sessionId : String} {resume : Bool}
    (hdone : (MuxAnswer.mk (.destroy sessionId (.close resume))
      (pane.serve refusal (.destroy sessionId (.close resume))).2).closeDone = true) :
    pane.present = true ∧ pane.sessionID = sessionId := by
  cases hresult : (pane.serve refusal (.destroy sessionId (.close resume))).2 with
  | ok response =>
    obtain ⟨hpresent, hid, -⟩ := of_serve_destroy hresult
    exact ⟨hpresent, hid⟩
  | error failure => exact nomatch hresult ▸ hdone

end DaemonPane

namespace RemoteMuxTerminalManager

variable (manager : RemoteMuxTerminalManager)

/-- How often the exit handlers were notified. -/
def exits : ℕ :=
  manager.events.countP fun
    | .exit _ => true
    | _ => false

/-- The requests that wait for an answer or have one that is still to be delivered. -/
def queue : List MuxRequest := manager.answered.map (·.request) ++ manager.sent

/-- Those of them that the channel has not lost. -/
def flight : List MuxRequest :=
  (manager.answered.filter (·.live)).map (·.request) ++ manager.sent

/-- The suspensions of `open` before the identity is known. -/
def openings : ℕ :=
  manager.queue.countP (·.early) + manager.waiting.countP (·.opens)

/-- The automatic end of the terminal has begun. -/
def Finalizing : Prop :=
  manager.term.finalizingExit = true ∨ manager.term.closed = true

/-- Nothing in flight can tell the exit of `close` any more. -/
def Told : Prop :=
  (∀ answer ∈ manager.answered, answer.closeDone = false) ∧
    ∀ sessionId resume, .destroy sessionId (.close resume) ∈ manager.sent →
      manager.pane.present = true → manager.pane.sessionID ≠ sessionId

/-- `open` has looked up or created the session. -/
def Identified : Prop := manager.published = true ∧ manager.openings = 0

/-- No request of an identified terminal is in flight or about to be. -/
def Unidentified : Prop :=
  manager.term.sessionId = "" ∧ (∀ request ∈ manager.queue, request.late = false) ∧
    manager.term.pollTimer = none ∧ manager.term.finalizeTimer = false ∧
    .finalize ∉ manager.waiting

/-- The invariant of all runs; what it says of exits holds of the quiet ones. -/
structure Sound (quiet : Prop) : Prop where
  registered : manager.registered = true → manager.term.closed = false
  exits_le : quiet → manager.exits ≤ 1
  exits_registered : quiet → 0 < manager.exits → manager.registered = false
  told : quiet → 0 < manager.exits → manager.Told
  order : manager.flight.Pairwise MuxRequest.Before
  ends : manager.answered.Pairwise fun answer later =>
    answer.ends = true → later.closeDone = false
  settled : ∀ answer ∈ manager.answered, answer.Settled manager.pane
  current : ∀ sessionId index crashed hydrate,
    .attach sessionId index (.reattach crashed) hydrate ∈ manager.flight →
      sessionId = manager.term.sessionId
  reconnects : manager.flight.countP (·.reconnects) ≤ 1
  unpublished : manager.published = false → manager.registered = false ∧
    manager.openings = 0 ∧ manager.term.closed = false ∧ (quiet → manager.exits = 0)
  openings : manager.openings ≤ 1
  unidentified : manager.published = false ∨ 0 < manager.openings → manager.Unidentified
  finalizing :
    manager.term.finalizeTimer = true ∨ .finalize ∈ manager.waiting ∨
      (∃ request ∈ manager.queue, request.finalizes = true) → manager.Finalizing
  sound : ∀ request ∈ manager.queue, request.sound = true
  identified : quiet → ∀ request ∈ manager.queue, request.unidentified = false
  relisted : ∀ answer ∈ manager.answered, answer.live = false → answer.request ≠ .list .reconnect
  offline : manager.connected = false →
    manager.sent = [] ∧ ∀ answer ∈ manager.answered, answer.live = false
  named : manager.pane.present = true → manager.pane.sessionID ≠ ""

/-- A change to the flags and the timers, each one in the only direction a move takes it. -/
structure Relaxes (next : RemoteMuxTerminalManager) : Prop where
  registered : next.registered = true →
    manager.registered = true ∧ (manager.term.closed = false → next.term.closed = false)
  closed : next.term.closed = true → manager.term.closed = true ∨ manager.published = true
  finalizing : manager.Finalizing → next.Finalizing
  finalizeTimer : next.term.finalizeTimer = true →
    manager.term.finalizeTimer = true ∨ next.Finalizing ∧ manager.Identified
  pollTimer : next.term.pollTimer ≠ none →
    manager.term.pollTimer ≠ none ∨ manager.Identified

/-- A change to the manager that sends nothing, awaits nothing and tells no exit. -/
structure Settles (next : RemoteMuxTerminalManager) : Prop extends manager.Relaxes next where
  pane : next.pane = manager.pane
  connected : next.connected = manager.connected
  sent : next.sent = manager.sent
  answered : next.answered = manager.answered
  waiting : next.waiting = manager.waiting
  published : next.published = manager.published
  sessionId : next.term.sessionId = manager.term.sessionId
  exits : next.exits = manager.exits

/-- What a settling move leaves alone. -/
def still : DaemonPane × Bool × List MuxRequest × List MuxAnswer × List ConnectionTask × Bool ×
    String × ℕ :=
  (manager.pane, manager.connected, manager.sent, manager.answered, manager.waiting,
    manager.published, manager.term.sessionId, manager.exits)

variable {manager} {next : RemoteMuxTerminalManager} {quiet : Prop}

theorem Identified.not_unidentified (h : manager.Identified) :
    ¬ (manager.published = false ∨ 0 < manager.openings) := by
  rintro (hpub | hpos)
  · exact nomatch h.1.symm.trans hpub
  · exact absurd h.2 (Nat.pos_iff_ne_zero.mp hpos)

theorem exits_emit (event : TerminalEvent) (hevent : ∀ info, event ≠ .exit info) :
    (manager.emit event).exits = manager.exits := by
  cases event with
  | exit info => exact absurd rfl (hevent info)
  | _ => simp [exits, emit]

theorem exits_emit_exit (info : TerminalExitInfo) :
    (manager.emit (.exit info)).exits = manager.exits + 1 := by
  simp [exits, emit]

namespace Settles

theorem of_still (hstill : next.still = manager.still) (h : manager.Relaxes next) :
    manager.Settles next := by
  simp only [still, Prod.mk.injEq] at hstill
  obtain ⟨hpane, hconnected, hsent, hanswered, hwaiting, hpublished, hsessionId, hexits⟩ := hstill
  exact { h with
    pane := hpane
    connected := hconnected
    sent := hsent
    answered := hanswered
    waiting := hwaiting
    published := hpublished
    sessionId := hsessionId
    exits := hexits }

/-- A change that leaves the flags as they are, and stops the polling at most. -/
theorem of_same (hstill : next.still = manager.still)
    (hflags : (next.registered, next.term.closed, next.term.finalizeTimer) =
      (manager.registered, manager.term.closed, manager.term.finalizeTimer))
    (hpoll : next.term.pollTimer = manager.term.pollTimer ∨ next.term.pollTimer = none)
    (hfin : manager.Finalizing → next.Finalizing) : manager.Settles next := by
  simp only [Prod.mk.injEq] at hflags
  obtain ⟨hregistered, hclosed, hfinalize⟩ := hflags
  exact .of_still hstill {
    registered := fun hreg => ⟨hregistered ▸ hreg, fun hopen => hclosed.trans hopen⟩
    closed := fun hwas => .inl (hclosed ▸ hwas)
    finalizing := hfin
    finalizeTimer := fun ht => .inl (hfinalize ▸ ht)
    pollTimer := fun ht =>
      .inl (hpoll.elim (fun hsame => hsame ▸ ht) fun hnone => absurd hnone ht) }

theorem refl : manager.Settles manager :=
  .of_same rfl rfl (.inl rfl) id

theorem openings (h : manager.Settles next) : next.openings = manager.openings := by
  rw [RemoteMuxTerminalManager.openings, RemoteMuxTerminalManager.openings, queue, queue,
    h.answered, h.sent, h.waiting]

theorem identified (h : manager.Settles next) : next.Identified ↔ manager.Identified := by
  rw [Identified, Identified, h.published, h.openings]

theorem trans {last : RemoteMuxTerminalManager} (h : manager.Settles next)
    (h' : next.Settles last) : manager.Settles last where
  pane := h'.pane.trans h.pane
  connected := h'.connected.trans h.connected
  sent := h'.sent.trans h.sent
  answered := h'.answered.trans h.answered
  waiting := h'.waiting.trans h.waiting
  published := h'.published.trans h.published
  sessionId := h'.sessionId.trans h.sessionId
  exits := h'.exits.trans h.exits
  registered hreg := by
    obtain ⟨hnext, hopen'⟩ := h'.registered hreg
    obtain ⟨hmanager, hopen⟩ := h.registered hnext
    exact ⟨hmanager, fun hclosed => hopen' (hopen hclosed)⟩
  closed hclosed := by
    rcases h'.closed hclosed with hnext | hpub
    · exact h.closed hnext
    · exact .inr (h.published ▸ hpub)
  finalizing hfin := h'.finalizing (h.finalizing hfin)
  finalizeTimer ht := by
    rcases h'.finalizeTimer ht with hnext | ⟨hfin, hid⟩
    · rcases h.finalizeTimer hnext with hwas | ⟨hfin, hid⟩
      · exact .inl hwas
      · exact .inr ⟨h'.finalizing hfin, hid⟩
    · exact .inr ⟨hfin, h.identified.mp hid⟩
  pollTimer ht := by
    rcases h'.pollTimer ht with hnext | hid
    · exact h.pollTimer hnext
    · exact .inr (h.identified.mp hid)

theorem emit (event : TerminalEvent) (hevent : ∀ info, event ≠ .exit info) :
    manager.Settles (manager.emit event) := by
  have hstill : (manager.emit event).still = manager.still := by
    rw [still, exits_emit event hevent]
    rfl
  exact .of_same hstill rfl (.inl rfl) id

theorem stopPolling : manager.Settles manager.stopPolling :=
  .of_same rfl rfl (.inr rfl) id

theorem rejectOpening : manager.Settles manager.rejectOpening :=
  .of_still rfl {
    registered := fun h => nomatch h
    closed := .inl
    finalizing := id
    finalizeTimer := .inl
    pollTimer := .inl }

/-- `attach` up to its request. -/
theorem attach : manager.Settles { manager.stopPolling with attaches := manager.attaches + 1 } :=
  .of_same rfl rfl (.inr rfl) id

theorem pauseForReconnect : manager.Settles manager.pauseForReconnect := by
  unfold RemoteMuxTerminalManager.pauseForReconnect
  split
  · exact refl
  · exact .of_same rfl rfl (.inr rfl) id

theorem yield_ (text : String) : manager.Settles (manager.yield_ text) := by
  have hstop : manager.Settles (RemoteMuxTerminalManager.stopPolling { manager with
      term := { manager.term with stolen := true, waitingForReconnect := true } }) :=
    .of_same rfl rfl (.inr rfl) id
  exact hstop.trans (emit _ nofun)

theorem pollAgain (generation : ℕ) (hid : manager.Identified) :
    manager.Settles (manager.pollAgain generation) := by
  unfold RemoteMuxTerminalManager.pollAgain
  split
  · exact refl
  · exact .of_still rfl {
      registered := fun h => ⟨h, id⟩
      closed := .inl
      finalizing := id
      finalizeTimer := .inl
      pollTimer := fun _ => .inr hid }

theorem emitOutputs (outputs : List Output) : manager.Settles (manager.emitOutputs outputs) := by
  induction outputs generalizing manager with
  | nil => exact refl
  | cons output rest ih =>
    have hsequence : manager.Settles { manager with term := { manager.term with
        nextSequence := max manager.term.nextSequence (output.sequence + 1) } } :=
      .of_same rfl rfl (.inl rfl) id
    exact (hsequence.trans (emit (.chunk output) nofun)).trans ih

end Settles

/-! ### Moves that keep the invariant -/

namespace Sound

variable (h : manager.Sound quiet)

include h

/-- What changes the record without sending keeps the invariant. -/
theorem settles (hmove : manager.Settles next) : next.Sound quiet := by
  have hqueue : next.queue = manager.queue := by rw [queue, queue, hmove.answered, hmove.sent]
  have hflight : next.flight = manager.flight := by
    rw [flight, flight, hmove.answered, hmove.sent]
  have hopenings : next.openings = manager.openings := hmove.openings
  refine
    { registered := fun hreg => ?_
      exits_le := hmove.exits ▸ h.exits_le
      exits_registered := fun hquiet hpos => ?_
      told := fun hquiet hpos => ?_
      order := hflight ▸ h.order
      ends := hmove.answered ▸ h.ends
      settled := by rw [hmove.answered, hmove.pane]; exact h.settled
      current := by rw [hflight, hmove.sessionId]; exact h.current
      reconnects := hflight ▸ h.reconnects
      unpublished := fun hpub => ?_
      openings := hopenings ▸ h.openings
      unidentified := ?_
      finalizing := ?_
      sound := hqueue ▸ h.sound
      identified := hqueue ▸ h.identified
      relisted := hmove.answered ▸ h.relisted
      offline := by rw [hmove.connected, hmove.sent, hmove.answered]; exact h.offline
      named := by rw [hmove.pane]; exact h.named }
  · obtain ⟨hwas, hopen⟩ := hmove.registered hreg
    exact hopen (h.registered hwas)
  · have hnot := h.exits_registered hquiet (hmove.exits ▸ hpos)
    cases hreg : next.registered with
    | false => rfl
    | true => exact nomatch hnot.symm.trans (hmove.registered hreg).1
  · have htold := h.told hquiet (hmove.exits ▸ hpos)
    rw [Told, hmove.answered, hmove.sent, hmove.pane]
    exact htold
  · obtain ⟨hnot, hnone, hclosed, hzero⟩ := h.unpublished (hmove.published ▸ hpub)
    refine ⟨?_, hopenings.trans hnone, ?_, fun hquiet => hmove.exits.trans (hzero hquiet)⟩
    · cases hreg : next.registered with
      | false => rfl
      | true => exact nomatch hnot.symm.trans (hmove.registered hreg).1
    · cases hnext : next.term.closed with
      | false => rfl
      | true =>
        rcases hmove.closed hnext with hwas | hwas
        · exact nomatch hclosed.symm.trans hwas
        · exact nomatch (hmove.published ▸ hpub).symm.trans hwas
  · rw [hmove.published, hopenings]
    intro hphase
    obtain ⟨hid, hlate, hpoll, htimer, hwaiting⟩ := h.unidentified hphase
    refine ⟨hmove.sessionId.trans hid, hqueue ▸ hlate, ?_, ?_, hmove.waiting ▸ hwaiting⟩
    · by_contra hsome
      rcases hmove.pollTimer hsome with hwas | hwas
      · exact hwas hpoll
      · exact hwas.not_unidentified hphase
    · cases ht : next.term.finalizeTimer with
      | false => rfl
      | true =>
        rcases hmove.finalizeTimer ht with hwas | ⟨-, hwas⟩
        · exact nomatch htimer.symm.trans hwas
        · exact absurd hphase hwas.not_unidentified
  · rw [hqueue, hmove.waiting]
    rintro (ht | hrest)
    · rcases hmove.finalizeTimer ht with hwas | ⟨hfin, -⟩
      · exact hmove.finalizing (h.finalizing (.inl hwas))
      · exact hfin
    · exact hmove.finalizing (h.finalizing (.inr hrest))

end Sound

/-- What a request may be, for the invariant to be kept when it is sent. -/
structure Admits (quiet : Prop) (manager : RemoteMuxTerminalManager) (request : MuxRequest) :
    Prop where
  sound : request.sound = true
  identified : quiet → request.unidentified = false
  early : request.early = true →
    manager.published = true ∧ manager.openings = 0 ∧ manager.Unidentified
  late : request.late = true → manager.Identified
  reconnects : request.reconnects = true → manager.flight.countP (·.reconnects) = 0
  relists : request = .list .reconnect → manager.connected = true
  current : ∀ sessionId index crashed hydrate,
    request = .attach sessionId index (.reattach crashed) hydrate →
      sessionId = manager.term.sessionId
  finalizes : request.finalizes = true → manager.Finalizing
  closes : request.closes = true → manager.registered = true ∧
    manager.term.finalizingExit = false ∧ ∀ sessionId resume,
      request = .destroy sessionId (.close resume) → sessionId = manager.term.sessionId

/-- A request that is neither early nor late. -/
theorem admits_of_plain {request : MuxRequest} (hsound : request.sound = true)
    (hearly : request.early = false) (hlate : request.late = false)
    (hidentified : request.unidentified = false) : manager.Admits quiet request where
  sound := hsound
  identified _ := hidentified
  early h := nomatch hearly.symm.trans h
  late h := nomatch hlate.symm.trans h
  reconnects h := nomatch hlate.symm.trans (MuxRequest.late_of_reconnects h)
  relists := by
    rintro rfl
    exact nomatch hlate
  current := by
    rintro _ _ _ _ rfl
    exact nomatch hlate
  finalizes h := nomatch hlate.symm.trans (MuxRequest.late_of_finalizes h)
  closes h := nomatch hlate.symm.trans (MuxRequest.late_of_closes h)

/-- A request of an identified terminal that is none of the watched ones. -/
theorem admits_of_late {request : MuxRequest} (hsound : request.sound = true)
    (hearly : request.early = false) (hid : manager.Identified)
    (hreconnects : request.reconnects = false) (hfinalizes : request.finalizes = false)
    (hcloses : request.closes = false) (hidentified : request.unidentified = false) :
    manager.Admits quiet request where
  sound := hsound
  identified _ := hidentified
  early h := nomatch hearly.symm.trans h
  late _ := hid
  reconnects h := nomatch hreconnects.symm.trans h
  relists := by
    rintro rfl
    exact nomatch hreconnects
  current := by
    rintro _ _ _ _ rfl
    exact nomatch hreconnects
  finalizes h := nomatch hfinalizes.symm.trans h
  closes h := nomatch hcloses.symm.trans h

section Request

variable {request : MuxRequest}

theorem mem_queue_request {r : MuxRequest} (hmem : r ∈ (manager.request request).queue) :
    r ∈ manager.queue ∨ r = request := by
  unfold RemoteMuxTerminalManager.request at hmem
  split at hmem <;>
    simp only [queue, List.map_append, List.map_cons, List.map_nil, List.mem_append,
      List.mem_singleton] at hmem ⊢ <;> tauto

theorem mem_flight_request {r : MuxRequest} (hmem : r ∈ (manager.request request).flight) :
    r ∈ manager.flight ∨ manager.connected = true ∧ r = request := by
  unfold RemoteMuxTerminalManager.request at hmem
  split at hmem
  · next hon =>
    simp only [flight, List.mem_append, List.mem_singleton] at hmem ⊢
    tauto
  · exact .inl (by simpa [flight, MuxAnswer.live] using hmem)

theorem flight_request_of_connected (hon : manager.connected = true) :
    (manager.request request).flight = manager.flight ++ [request] := by
  simp [RemoteMuxTerminalManager.request, hon, flight]

theorem flight_request_of_not_connected (hoff : manager.connected = false) :
    (manager.request request).flight = manager.flight := by
  simp [RemoteMuxTerminalManager.request, hoff, flight, MuxAnswer.live]

theorem openings_request :
    (manager.request request).openings =
      manager.openings + if request.early = true then 1 else 0 := by
  unfold RemoteMuxTerminalManager.request
  split <;> simp [openings, queue, List.countP_cons] <;> omega

theorem mem_queue_of_answered {answer : MuxAnswer} (hmem : answer ∈ manager.answered) :
    answer.request ∈ manager.queue :=
  List.mem_append_left _ (List.mem_map_of_mem hmem)

theorem flight_subset_queue {r : MuxRequest} (hmem : r ∈ manager.flight) : r ∈ manager.queue := by
  simp only [flight, queue, List.mem_append, List.mem_map, List.mem_filter] at hmem ⊢
  rcases hmem with ⟨answer, ⟨hanswer, -⟩, rfl⟩ | hsent
  · exact .inl ⟨answer, hanswer, rfl⟩
  · exact .inr hsent

/-- A rejected request is not one in flight, and ends nothing. -/
theorem closeDone_rejected : (MuxAnswer.mk request (.error .channel)).closeDone = false := by
  cases request with
  | destroy _ caller => cases caller <;> rfl
  | _ => rfl

theorem settled_rejected (pane : DaemonPane) :
    (MuxAnswer.mk request (.error .channel)).Settled pane :=
  fun hends => nomatch MuxAnswer.live_of_ends hends

end Request

/-- `close` finds a terminal whose automatic end has not begun. -/
theorem Sound.not_finalizing (h : manager.Sound quiet) (hreg : manager.registered = true)
    (hfin : manager.term.finalizingExit = false) : ¬ manager.Finalizing := by
  rintro (hwas | hwas)
  · exact nomatch hfin.symm.trans hwas
  · exact nomatch (h.registered hreg).symm.trans hwas

/-- What is in flight when `close` sends its request may stand before it. -/
theorem Sound.before_close (h : manager.Sound quiet) (hreg : manager.registered = true)
    (hfin : manager.term.finalizingExit = false) {first last : MuxRequest}
    (hfirst : first ∈ manager.flight) (hcloses : last.closes = true)
    (hid : ∀ sessionId resume, last = .destroy sessionId (.close resume) →
      sessionId = manager.term.sessionId) : first.Before last := by
  cases last with
  | destroy sessionId caller =>
    cases caller with
    | close resume =>
      cases first with
      | destroy _ caller =>
        cases caller with
        | finalize =>
          exact h.not_finalizing hreg hfin
            (h.finalizing (.inr (.inr ⟨_, flight_subset_queue hfirst, rfl⟩)))
        | _ => trivial
      | attach _ _ caller _ =>
        cases caller with
        | reattach crashed =>
          exact (h.current _ _ _ _ hfirst).trans (hid sessionId resume rfl).symm
        | _ => trivial
      | _ => trivial
    | _ => exact nomatch hcloses
  | _ => exact nomatch hcloses

/-- Sending an admitted request keeps the invariant. -/
theorem Sound.request (h : manager.Sound quiet) {r : MuxRequest}
    (hadmits : manager.Admits quiet r) :
    (manager.request r).Sound quiet := by
  have hexits : (manager.request r).exits = manager.exits := by simp [exits]
  have hflight := manager.request_cases r
  refine
    { registered := by simpa using h.registered
      exits_le := hexits ▸ h.exits_le
      exits_registered := by simpa [hexits] using h.exits_registered
      told := fun hquiet hpos => ?_
      order := ?_
      ends := ?_
      settled := ?_
      current := fun sessionId index crashed hydrate hmem => ?_
      reconnects := ?_
      unpublished := fun hpub => ?_
      openings := ?_
      unidentified := fun hphase => ?_
      finalizing := ?_
      sound := fun r' hmem => ?_
      identified := fun hquiet r' hmem => ?_
      relisted := ?_
      offline := ?_
      named := by simpa using h.named }
  · rw [hexits] at hpos
    obtain ⟨hanswered, hsent⟩ := h.told hquiet hpos
    rcases hflight with ⟨-, hs, ha⟩ | ⟨-, hs, ha⟩
    · refine ⟨ha ▸ hanswered, fun sessionId resume hmem => ?_⟩
      rw [hs, List.mem_append, List.mem_singleton] at hmem
      rw [request_pane]
      rcases hmem with hmem | rfl
      · exact hsent sessionId resume hmem
      · exact nomatch (h.exits_registered hquiet hpos).symm.trans (hadmits.closes rfl).1
    · refine ⟨fun answer hmem => ?_, by rw [hs, request_pane]; exact hsent⟩
      rw [ha, List.mem_append, List.mem_singleton] at hmem
      rcases hmem with hmem | rfl
      · exact hanswered answer hmem
      · exact closeDone_rejected
  · rcases hflight with ⟨hon, -, -⟩ | ⟨hoff, -, -⟩
    · rw [flight_request_of_connected hon, List.pairwise_append]
      refine ⟨h.order, List.pairwise_singleton _ _, fun first hfirst last hlast => ?_⟩
      obtain rfl := List.mem_singleton.mp hlast
      cases hcloses : last.closes with
      | false => exact MuxRequest.before_of_not_closes hcloses
      | true =>
        -- `close` sends it for a terminal that is neither finalizing nor reattached elsewhere
        obtain ⟨hreg, hfin, hid⟩ := hadmits.closes hcloses
        exact h.before_close hreg hfin hfirst hcloses hid
    · rw [flight_request_of_not_connected hoff]
      exact h.order
  · rcases hflight with ⟨-, -, ha⟩ | ⟨-, -, ha⟩
    · exact ha ▸ h.ends
    · rw [ha, List.pairwise_append]
      refine ⟨h.ends, List.pairwise_singleton _ _, fun answer _ later hlater _ => ?_⟩
      obtain rfl := List.mem_singleton.mp hlater
      exact closeDone_rejected
  · rw [request_pane]
    rcases hflight with ⟨-, -, ha⟩ | ⟨-, -, ha⟩
    · exact ha ▸ h.settled
    · intro answer hmem
      rw [ha, List.mem_append, List.mem_singleton] at hmem
      rcases hmem with hmem | rfl
      · exact h.settled answer hmem
      · exact settled_rejected _
  · rw [request_term]
    rcases mem_flight_request hmem with hmem | ⟨-, hr⟩
    · exact h.current _ _ _ _ hmem
    · exact hadmits.current _ _ _ _ hr.symm
  · rcases hflight with ⟨hon, -, -⟩ | ⟨hoff, -, -⟩
    · rw [flight_request_of_connected hon, List.countP_append, List.countP_singleton]
      split
      · next hr => rw [hadmits.reconnects hr]
      · exact h.reconnects
    · rw [flight_request_of_not_connected hoff]
      exact h.reconnects
  · rw [request_published] at hpub
    obtain ⟨hreg, hnone, hclosed, hzero⟩ := h.unpublished hpub
    refine ⟨by simpa using hreg, ?_, by simpa using hclosed, fun hquiet =>
      hexits.trans (hzero hquiet)⟩
    rw [openings_request, hnone]
    split
    · next hearly => exact nomatch hpub.symm.trans (hadmits.early hearly).1
    · rfl
  · rw [openings_request]
    split
    · next hearly => rw [(hadmits.early hearly).2.1]
    · exact h.openings
  · rw [request_published, openings_request] at hphase
    have hunidentified : manager.Unidentified := by
      cases hearly : r.early with
      | true => exact (hadmits.early hearly).2.2
      | false => exact h.unidentified (by simpa [hearly] using hphase)
    have hearly : r.early = true ∨ r.late = false := by
      cases hl : r.late with
      | false => exact .inr rfl
      | true =>
        cases hearly : r.early with
        | true => exact .inl rfl
        | false =>
          exact absurd (by simpa [hearly] using hphase) (hadmits.late hl).not_unidentified
    obtain ⟨hid, hlate, hpoll, htimer, hwaiting⟩ := hunidentified
    refine ⟨by simpa using hid, fun r' hmem => ?_, by simpa using hpoll, by simpa using htimer,
      by simpa using hwaiting⟩
    rcases mem_queue_request hmem with hmem | rfl
    · exact hlate r' hmem
    · rcases hearly with hearly | hl
      · exact (MuxRequest.not_late_of_early hearly).1
      · exact hl
  · rw [Finalizing, request_term, request_waiting]
    rintro (ht | hw | ⟨r', hmem, hfin⟩)
    · exact h.finalizing (.inl ht)
    · exact h.finalizing (.inr (.inl hw))
    · rcases mem_queue_request hmem with hmem | rfl
      · exact h.finalizing (.inr (.inr ⟨r', hmem, hfin⟩))
      · exact hadmits.finalizes hfin
  · rcases mem_queue_request hmem with hmem | rfl
    · exact h.sound r' hmem
    · exact hadmits.sound
  · rcases mem_queue_request hmem with hmem | rfl
    · exact h.identified hquiet r' hmem
    · exact hadmits.identified hquiet
  · rcases hflight with ⟨-, -, ha⟩ | ⟨hoff, -, ha⟩
    · exact ha ▸ h.relisted
    · rw [ha]
      intro answer hmem hlive
      rw [List.mem_append, List.mem_singleton] at hmem
      rcases hmem with hmem | rfl
      · exact h.relisted answer hmem hlive
      · rintro rfl
        exact nomatch hoff.symm.trans (hadmits.relists rfl)
  · rw [request_connected]
    intro hoff
    obtain ⟨hsent, hanswered⟩ := h.offline hoff
    rcases hflight with ⟨hon, -, -⟩ | ⟨-, hs, ha⟩
    · exact nomatch hon.symm.trans hoff
    · refine ⟨hs.trans hsent, fun answer hmem => ?_⟩
      rw [ha, List.mem_append, List.mem_singleton] at hmem
      rcases hmem with hmem | rfl
      · exact hanswered answer hmem
      · rfl

variable (manager) in
theorem openings_awaitConnection (task : ConnectionTask) :
    (manager.awaitConnection task).openings =
      manager.openings + if task.opens = true then 1 else 0 := by
  simp only [openings, awaitConnection, queue, List.countP_append, List.countP_singleton]
  omega

namespace Sound

variable (h : manager.Sound quiet)

include h

/-- Waiting for the connection keeps the invariant. -/
theorem awaitConnection {task : ConnectionTask}
    (hopens : task.opens = true →
      manager.published = true ∧ manager.openings = 0 ∧ manager.Unidentified)
    (hfinalize : task = .finalize → manager.Finalizing ∧ manager.Identified) :
    (manager.awaitConnection task).Sound quiet := by
  have hopenings := manager.openings_awaitConnection task
  refine
    { h with
      unpublished := fun hpub => ?_
      openings := ?_
      unidentified := fun hphase => ?_
      finalizing := ?_ }
  · obtain ⟨hreg, hnone, hrest⟩ := h.unpublished hpub
    refine ⟨hreg, ?_, hrest⟩
    rw [hopenings, hnone]
    split
    · next hopen => exact nomatch hpub.symm.trans (hopens hopen).1
    · rfl
  · rw [hopenings]
    split
    · next hopen => rw [(hopens hopen).2.1]
    · exact h.openings
  · have hphase : manager.published = false ∨ 0 < (manager.awaitConnection task).openings := hphase
    have hunidentified : manager.Unidentified := by
      cases hopen : task.opens with
      | true => exact (hopens hopen).2.2
      | false => exact h.unidentified (by simpa [hopenings, hopen] using hphase)
    obtain ⟨hid, hlate, hpoll, htimer, hwaiting⟩ := hunidentified
    refine ⟨hid, hlate, hpoll, htimer, fun hmem => ?_⟩
    rcases List.mem_append.mp hmem with hmem | hmem
    · exact hwaiting hmem
    · obtain rfl := List.mem_singleton.mp hmem
      rw [hopenings] at hphase
      exact (hfinalize rfl).2.not_unidentified (by simpa [ConnectionTask.opens] using hphase)
  · rintro (ht | hw | hr)
    · exact h.finalizing (.inl ht)
    · rcases List.mem_append.mp hw with hw | hw
      · exact h.finalizing (.inr (.inl hw))
      · exact (hfinalize (List.mem_singleton.mp hw).symm).1
    · exact h.finalizing (.inr (.inr hr))

/-- The terminal learns another identity while no attach of a reconnect is in flight. -/
theorem identity (sessionId : String) (hpub : manager.published = true)
    (hopenings : manager.openings = 0) (hreconnects : manager.flight.countP (·.reconnects) = 0) :
    Sound { manager with term := { manager.term with sessionId } } quiet := by
  refine
    { h with
      current := fun _ _ _ _ hmem => ?_
      unidentified := ?_ }
  · exact absurd rfl (List.countP_eq_zero.mp hreconnects _ hmem)
  · rintro (hnot | hpos)
    · exact nomatch hpub.symm.trans hnot
    · exact absurd hopenings (Nat.pos_iff_ne_zero.mp hpos)

/-- A first exit, after which nothing in flight can tell another one. -/
theorem emit_exit (info : TerminalExitInfo) (hpub : manager.published = true)
    (hreg : quiet → manager.registered = false) (hzero : quiet → manager.exits = 0)
    (htold : quiet → manager.Told) : (manager.emit (.exit info)).Sound quiet := by
  have hexits : quiet → (manager.emit (.exit info)).exits = 1 := fun hquiet => by
    rw [exits_emit_exit, hzero hquiet]
  exact
    { h with
      exits_le := fun hquiet => (hexits hquiet).le
      exits_registered := fun hquiet _ => hreg hquiet
      told := fun hquiet _ => htold hquiet
      unpublished := fun hnot => nomatch hpub.symm.trans hnot }

theorem published_of_registered (hreg : manager.registered = true) : manager.published = true := by
  cases hpub : manager.published with
  | true => rfl
  | false => exact nomatch hreg.symm.trans (h.unpublished hpub).1

theorem exits_of_registered (hreg : manager.registered = true) (hquiet : quiet) :
    manager.exits = 0 := by
  by_contra hne
  exact nomatch hreg.symm.trans (h.exits_registered hquiet (Nat.pos_of_ne_zero hne))

theorem identified_of_not (hnot : ¬ manager.Unidentified) : manager.Identified := by
  refine ⟨?_, ?_⟩
  · cases hpub : manager.published with
    | true => rfl
    | false => exact absurd (h.unidentified (.inl hpub)) hnot
  · by_contra hne
    exact hnot (h.unidentified (.inr (Nat.pos_of_ne_zero hne)))

/-- A terminal with an identity has been looked up or created. -/
theorem identified_of_named (hid : manager.term.sessionId ≠ "") : manager.Identified :=
  h.identified_of_not fun hnot => hid hnot.1

theorem identified_of_late {request : MuxRequest} (hmem : request ∈ manager.queue)
    (hlate : request.late = true) : manager.Identified :=
  h.identified_of_not fun hnot => nomatch hlate.symm.trans (hnot.2.1 _ hmem)

end Sound

end RemoteMuxTerminalManager

end AgentCockpit.Remote
