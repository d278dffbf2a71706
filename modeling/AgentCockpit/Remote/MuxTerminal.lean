import AgentCockpit.Core.Run
import AgentCockpit.Mux.Operations.Catalog

/-!
# The remote mux terminal manager

The part of the manager that serves one terminal key, the connection to the daemon, and the
daemon's pane with that key, as one labelled system. An asynchronous function of the manager
is cut at its suspension points: what it waits for carries the rest of it. A label is a call,
a timer, one answer, one event of the connection or one step of the daemon.

The daemon serves the requests of a connection in the order they were sent and answers them in
that order. When a connection is lost, every request in flight is rejected, also one that was
served. A request without a connection is rejected without being sent.

One record is published for the key. Geometry, resize lanes, renderer features, screens and
scrollback rows are left out, and a resize is a request like a write. A pane has one pane id
for its whole life, so requests that name the pane do not carry it.
-/

namespace AgentCockpit.Remote

open AgentCockpit.Mux

/-! ### The record of a terminal -/

structure MuxTerminal where
  /-- Empty until the daemon identity is known. -/
  sessionId : String := ""
  nextSequence : ℕ := 1
  /-- The generation that the pending poll timer polls for. -/
  pollTimer : Option ℕ := none
  finalizingExit : Bool := false
  finalizeTimer : Bool := false
  pollGeneration : ℕ := 0
  closed : Bool := false
  recovered : Bool := false
  waitingForReconnect : Bool := false
  stolen : Bool := false
  deriving DecidableEq, Repr

/-- The identity of a pane that no terminal shows. -/
structure DetachedTerminal where
  sessionId : String
  nextSequence : ℕ
  recovered : Bool
  deriving DecidableEq, Repr

structure TerminalOpenOptions where
  /-- The terminal is the private one of Run. -/
  run : Bool := false
  createIfMissing : Option Bool := none
  hydrateScrollback : Bool := false
  deriving DecidableEq, Repr

structure TerminalExitInfo where
  code : Option ℤ
  signal : Option String
  deriving DecidableEq, Repr

/-- What happened in order: what the terminal's handlers were given, and the daemon's answers
to `session.destroy`. -/
inductive TerminalEvent
  | history
  /-- The seed of an attach, with the sequence that the attach returned. -/
  | seed (attach : ℕ) (resume : Option ℕ)
  | chunk (output : Output)
  | note (text : String)
  | exit (info : TerminalExitInfo)
  | destroyAnswered
  deriving DecidableEq, Repr

/-! ### The daemon -/

/-- Where the daemon's pane with the key stands. -/
inductive PaneStatus
  | absent
  | live
  /-- Its process has ended, and its watcher has cleared the record. -/
  | exited
  /-- Restored from the catalog after a crash of the daemon. -/
  | recovered
  | destroyed
  deriving DecidableEq, Repr

structure DaemonPane where
  status : PaneStatus := .absent
  sessionID : String := ""
  paneID : String := ""
  /-- The panes that the daemon has created so far. -/
  nextSession : ℕ := 0
  stream : Mux.Stream := {}
  pumping : Bool := false
  childExited : Bool := false
  /-- Another client is attached. -/
  stolen : Bool := false
  /-- The daemon has an active pane. -/
  hasActivePane : Bool := false
  deriving DecidableEq, Repr

/-- Why a request fails: the daemon refuses it, or the channel is lost. -/
inductive MuxFailure
  | refused (err : MuxError)
  | channel
  deriving DecidableEq, Repr

def isRecoveredExitedPane : MuxFailure → Bool
  | .refused (.paneExited _) => true
  | _ => false

def isSessionNotFoundError : MuxFailure → Bool
  | .refused .sessionNotFound => true
  | _ => false

def isMissingMuxPaneError : MuxFailure → Bool
  | .refused .sessionNotFound | .refused .paneNotFound => true
  | _ => false

def isStolenError : MuxFailure → Bool
  | .refused .sessionStolen => true
  | _ => false

/-- The response cap of the daemon. -/
def maxOutputResponseBytes : ℕ := 8 <<< 20

structure ListedSession where
  sessionId : String
  exited : Bool
  deriving DecidableEq, Repr

/-! ### Requests -/

/-- Who sends `session.attach`. -/
inductive AttachCaller
  | opening
  | remount
  | reattach (recoveredFromDaemonCrash : Bool)
  deriving DecidableEq, Repr

/-- Who sends `session.destroy`, and whether it stopped a poll loop for it. `destroySession`
remembers whether the session was that of the record, and that of the detached entry. -/
inductive DestroyCaller
  | close (resumePolling : Bool)
  | closeDetached
  | destroySession (live detached resumePolling : Bool)
  | finalize
  deriving DecidableEq, Repr

/-- Who sends `mux.configure`. -/
inductive ConfigureCaller
  | opening (options : TerminalOpenOptions)
  | remount (hydrateScrollback : Bool)
  | reconnect
  deriving DecidableEq, Repr

/-- Who sends `session.list`. -/
inductive ListCaller
  | opening (options : TerminalOpenOptions)
  | close (kill : Bool)
  | reconnect
  deriving DecidableEq, Repr

/-- A request with the function that waits for it. -/
inductive MuxRequest
  | configure (caller : ConfigureCaller)
  | list (caller : ListCaller)
  | topology (options : TerminalOpenOptions)
  | create (options : TerminalOpenOptions) (priorSelection : Bool)
  | selectPane (options : TerminalOpenOptions)
  | attach (sessionId : String) (index : ℕ) (caller : AttachCaller) (hydrateScrollback : Bool)
  | scrollback (index : ℕ) (caller : AttachCaller) (resume : Option ℕ)
  | output (generation fromSequence : ℕ)
  /-- `pane.write` or `pane.resize`; a record without its identity names no pane. -/
  | write (identified : Bool)
  | detach
  | destroy (sessionId : String) (caller : DestroyCaller)
  deriving DecidableEq, Repr

/-- What a request is answered. -/
inductive MuxResponse
  | done
  | sessions (listed : Option ListedSession)
  | selection (active : Bool)
  | created (sessionId : String)
  | attached (resume : Option ℕ)
  | outputs (outputs : List Output) (exited : Bool)
  deriving DecidableEq, Repr

structure MuxAnswer where
  request : MuxRequest
  result : Except MuxFailure MuxResponse
  deriving DecidableEq, Repr

/-- A function that waits for the connection to open. -/
inductive ConnectionTask
  | opening (options : TerminalOpenOptions)
  | remount (hydrateScrollback : Bool)
  | close (kill : Bool)
  | destroySession (sessionId : String)
  | finalize
  deriving DecidableEq, Repr

namespace DaemonPane

variable (pane : DaemonPane)

/-- The daemon has a record of the pane. -/
def present : Bool :=
  pane.status = .live || pane.status = .exited || pane.status = .recovered

/-- The pane is there and no other client has it. -/
def pane? : Except MuxFailure Unit :=
  if pane.present = false then .error (.refused .paneNotFound)
  else if pane.stolen then .error (.refused .sessionStolen)
  else .ok ()

/-- The session is there. -/
def session? (sessionID : String) : Except MuxFailure Unit :=
  if pane.present ∧ pane.sessionID = sessionID then .ok ()
  else .error (.refused .sessionNotFound)

/-- Create the pane with the key. -/
def create : DaemonPane :=
  { pane with
    status := .live
    nextSession := pane.nextSession + 1
    sessionID := sessionName (pane.nextSession + 1)
    paneID := paneName (pane.nextSession + 1)
    stream := {}
    pumping := true
    childExited := false
    stolen := false }

/-- What the daemon does with a request, and its answer. -/
def handle : MuxRequest → DaemonPane × Except MuxFailure MuxResponse
  | .configure _ | .selectPane _ => (pane, .ok .done)
  | .list _ =>
    (pane, .ok (.sessions
      (if pane.present then some ⟨pane.sessionID, decide (pane.status ≠ .live)⟩ else none)))
  | .topology _ => (pane, .ok (.selection pane.hasActivePane))
  | .create _ _ =>
    if pane.present then (pane, .error (.refused .sessionExists))
    else (pane.create, .ok (.created pane.create.sessionID))
  | .attach sessionID _ _ _ =>
    match pane.session? sessionID with
    | .error err => (pane, .error err)
    | .ok () =>
      match pane.status with
      | .live => ({ pane with stolen := false }, .ok (.attached (some (pane.stream.sequence + 1))))
      | .recovered => ({ pane with stolen := false }, .ok (.attached none))
      | _ => ({ pane with stolen := false }, .error (.refused (.paneExited "")))
  | .scrollback _ _ _ => (pane, pane.pane?.map fun _ => .done)
  | .output _ fromSequence =>
    (pane, pane.pane?.map fun _ =>
      if pane.status = .recovered then .outputs [] true
      else .outputs (pane.stream.outputsFromBounded fromSequence maxOutputResponseBytes)
        (decide (pane.status ≠ .live)))
  | .write identified =>
    (pane, match pane.pane? with
      | .error err => .error err
      | .ok () =>
        if identified = false then .error (.refused .paneNotFound)
        else if pane.status = .live then .ok .done
        else .error (.refused (.paneExited "")))
  | .detach => (pane, pane.pane?.map fun _ => .done)
  | .destroy sessionID _ =>
    match pane.session? sessionID with
    | .error err => (pane, .error err)
    | .ok () => ({ pane with status := .destroyed, pumping := false }, .ok .done)

/-- Serve a request, or refuse it for a reason that is not the pane's. -/
def serve (refusal : Option String) (request : MuxRequest) :
    DaemonPane × Except MuxFailure MuxResponse :=
  match refusal with
  | some message => (pane, .error (.refused (.failed message)))
  | none => pane.handle request

variable {pane}

theorem session?_eq_ok {sessionID : String} (h : pane.session? sessionID = .ok ()) :
    pane.present = true ∧ pane.sessionID = sessionID := by
  unfold session? at h
  split at h
  · assumption
  · exact nomatch h

theorem session?_eq_error {sessionID : String} {failure : MuxFailure}
    (h : pane.session? sessionID = .error failure) :
    failure = .refused .sessionNotFound ∧ ¬ (pane.present = true ∧ pane.sessionID = sessionID) := by
  unfold session? at h
  split at h
  · exact nomatch h
  · exact ⟨(Except.error.inj h).symm, ‹_›⟩

theorem pane?_eq_error {failure : MuxFailure} (h : pane.pane? = .error failure) :
    pane.present = false ∧ failure = .refused .paneNotFound ∨
      pane.present = true ∧ pane.stolen = true ∧ failure = .refused .sessionStolen := by
  unfold pane? at h
  split at h
  · exact .inl ⟨‹_›, (Except.error.inj h).symm⟩
  · next hpresent =>
    split at h
    · exact .inr ⟨by simpa using hpresent, ‹_›, (Except.error.inj h).symm⟩
    · exact nomatch h

variable (pane) in
/-- What one request can do to the daemon's pane. -/
theorem serve_pane (refusal : Option String) (request : MuxRequest) :
    (pane.serve refusal request).1 = pane ∨
      (∃ options priorSelection, request = .create options priorSelection ∧
        pane.present = false ∧ (pane.serve refusal request).1 = pane.create) ∨
      (∃ sessionID index caller hydrate, request = .attach sessionID index caller hydrate ∧
        (pane.serve refusal request).1 = { pane with stolen := false }) ∨
      ∃ sessionID caller, request = .destroy sessionID caller ∧ pane.present = true ∧
        pane.sessionID = sessionID ∧
          (pane.serve refusal request).1 =
            { pane with status := .destroyed, pumping := false } := by
  cases refusal with
  | some message => exact .inl rfl
  | none =>
    simp only [serve]
    cases request with
    | create options priorSelection =>
      cases hpresent : pane.present with
      | true => exact .inl (by simp [handle, hpresent])
      | false => exact .inr (.inl ⟨_, _, rfl, rfl, by simp [handle, hpresent]⟩)
    | attach sessionID index caller hydrate =>
      cases hsession : pane.session? sessionID with
      | error err => exact .inl (by simp [handle, hsession])
      | ok _ =>
        refine .inr (.inr (.inl ⟨_, _, _, _, rfl, ?_⟩))
        simp only [handle, hsession]
        split <;> rfl
    | destroy sessionID caller =>
      cases hsession : pane.session? sessionID with
      | error err => exact .inl (by simp [handle, hsession])
      | ok _ =>
        obtain ⟨hpresent, hid⟩ := session?_eq_ok hsession
        exact .inr (.inr (.inr ⟨_, _, rfl, hpresent, hid, by simp [handle, hsession]⟩))
    | _ => exact .inl rfl

/-- A session is destroyed when it is there. -/
theorem of_serve_destroy {refusal : Option String} {sessionID : String} {caller : DestroyCaller}
    {response : MuxResponse}
    (h : (pane.serve refusal (.destroy sessionID caller)).2 = .ok response) :
    pane.present = true ∧ pane.sessionID = sessionID ∧
      (pane.serve refusal (.destroy sessionID caller)).1 =
        { pane with status := .destroyed, pumping := false } := by
  cases refusal with
  | some message => cases h
  | none =>
    simp only [serve, handle] at h ⊢
    cases hsession : pane.session? sessionID with
    | error err => cases (hsession ▸ h : _)
    | ok _ =>
      obtain ⟨hpresent, hid⟩ := session?_eq_ok hsession
      exact ⟨hpresent, hid, rfl⟩

/-- The daemon never answers that the channel is lost. -/
theorem serve_ne_channel (refusal : Option String) (request : MuxRequest) :
    (pane.serve refusal request).2 ≠ .error .channel := by
  have hpane : pane.pane? ≠ .error .channel := fun heq => by
    rcases pane?_eq_error heq with ⟨-, hnot⟩ | ⟨-, -, hnot⟩ <;> cases hnot
  have hsession : ∀ sessionID, pane.session? sessionID ≠ .error .channel := fun sessionID heq =>
    by cases (session?_eq_error heq).1
  cases refusal with
  | some message => exact fun hrefused => by cases hrefused
  | none =>
    intro hchannel
    cases request with
    | create options priorSelection =>
      simp only [serve, handle] at hchannel
      split at hchannel <;> cases hchannel
    | attach sessionID index caller hydrate =>
      cases herr : pane.session? sessionID with
      | error err =>
        simp only [serve, handle, herr] at hchannel
        obtain rfl := Except.error.inj hchannel
        exact hsession sessionID herr
      | ok _ =>
        simp only [serve, handle, herr] at hchannel
        split at hchannel <;> cases hchannel
    | destroy sessionID caller =>
      cases herr : pane.session? sessionID with
      | error err =>
        simp only [serve, handle, herr] at hchannel
        obtain rfl := Except.error.inj hchannel
        exact hsession sessionID herr
      | ok _ =>
        simp only [serve, handle, herr] at hchannel
        cases hchannel
    | write identified =>
      cases herr : pane.pane? with
      | error err =>
        simp only [serve, handle, herr] at hchannel
        obtain rfl := Except.error.inj hchannel
        exact hpane herr
      | ok _ =>
        simp only [serve, handle, herr] at hchannel
        split at hchannel
        · cases hchannel
        · split at hchannel <;> cases hchannel
    | scrollback | output | detach =>
      cases herr : pane.pane? with
      | error err =>
        simp only [serve, handle, herr, Except.map] at hchannel
        obtain rfl := Except.error.inj hchannel
        exact hpane herr
      | ok _ =>
        simp only [serve, handle, herr, Except.map] at hchannel
        cases hchannel
    | _ => cases hchannel

/-- The pane is gone for a request that names it and is told that it is missing. -/
theorem of_pane?_missing {failure : MuxFailure} (h : pane.pane? = .error failure)
    (hmissing : isMissingMuxPaneError failure = true) : pane.present = false := by
  rcases pane?_eq_error h with ⟨hgone, -⟩ | ⟨-, -, rfl⟩
  · exact hgone
  · exact nomatch hmissing

end DaemonPane

structure RemoteMuxTerminalManager where
  /-- The record of the key. -/
  term : MuxTerminal := {}
  /-- `open` has published the record. -/
  published : Bool := false
  /-- The record is the one under its key. -/
  registered : Bool := false
  detached : Option DetachedTerminal := none
  retired : Bool := false
  connected : Bool := false
  /-- The functions that wait for the connection to open. -/
  waiting : List ConnectionTask := []
  sent : List MuxRequest := []
  answered : List MuxAnswer := []
  /-- The attaches begun so far. -/
  attaches : ℕ := 0
  events : List TerminalEvent := []
  pane : DaemonPane := {}
  deriving DecidableEq, Repr

/-- One turn of the manager, or one step of the connection or the daemon. -/
inductive MuxStep
  | open_ (options : TerminalOpenOptions)
  | close (kill : Bool)
  | destroySession (sessionId : String)
  | closeAll
  | write
  /-- The poll timer fires. -/
  | poll
  | finalizeTimer
  /-- The connection is open for a function that waits for it, or could not be opened. -/
  | connection (index : ℕ) (opened : Bool)
  /-- An answer arrives. -/
  | deliver
  /-- The connection manager attached a fresh channel. -/
  | attached
  | lost
  /-- The daemon tells that another client took the session. -/
  | stolenEvent
  /-- The daemon serves the next request, or refuses it for a reason of its own. -/
  | serve (refusal : Option String)
  | pump (data : Bytes)
  | childExit
  | pumpEnd
  | watchPaneExit
  /-- The daemon crashes and is started again. -/
  | crash
  | stealElsewhere
  | destroyElsewhere
  deriving DecidableEq, Repr

namespace RemoteMuxTerminalManager

variable (manager : RemoteMuxTerminalManager)

def emit (event : TerminalEvent) : RemoteMuxTerminalManager :=
  { manager with events := manager.events ++ [event] }

/-- Send a request, or have it rejected. -/
def request (request : MuxRequest) : RemoteMuxTerminalManager :=
  if manager.connected then { manager with sent := manager.sent ++ [request] }
  else { manager with answered := manager.answered ++ [⟨request, .error .channel⟩] }

@[simp] theorem request_term (r : MuxRequest) : (manager.request r).term = manager.term := by
  unfold request
  split <;> rfl

@[simp] theorem request_published (r : MuxRequest) :
    (manager.request r).published = manager.published := by
  unfold request
  split <;> rfl

@[simp] theorem request_registered (r : MuxRequest) :
    (manager.request r).registered = manager.registered := by
  unfold request
  split <;> rfl

@[simp] theorem request_connected (r : MuxRequest) :
    (manager.request r).connected = manager.connected := by
  unfold request
  split <;> rfl

@[simp] theorem request_waiting (r : MuxRequest) :
    (manager.request r).waiting = manager.waiting := by
  unfold request
  split <;> rfl

@[simp] theorem request_events (r : MuxRequest) : (manager.request r).events = manager.events := by
  unfold request
  split <;> rfl

@[simp] theorem request_pane (r : MuxRequest) : (manager.request r).pane = manager.pane := by
  unfold request
  split <;> rfl

/-- A request is queued for the daemon, or rejected. -/
theorem request_cases (r : MuxRequest) :
    (manager.connected = true ∧ (manager.request r).sent = manager.sent ++ [r] ∧
        (manager.request r).answered = manager.answered) ∨
      (manager.connected = false ∧ (manager.request r).sent = manager.sent ∧
        (manager.request r).answered = manager.answered ++ [⟨r, .error .channel⟩]) := by
  unfold request
  split
  · exact .inl ⟨‹_›, rfl, rfl⟩
  · exact .inr ⟨Bool.eq_false_iff.mpr ‹_›, rfl, rfl⟩

/-- Wait for `connection.open`. -/
def awaitConnection (task : ConnectionTask) : RemoteMuxTerminalManager :=
  { manager with waiting := manager.waiting ++ [task] }

/-! ### Polling -/

def stopPolling : RemoteMuxTerminalManager :=
  { manager with
    term := { manager.term with
      pollTimer := none, pollGeneration := manager.term.pollGeneration + 1 } }

/-- Whether this attachment may consume the live stream. -/
def canPoll (term : MuxTerminal) : Bool :=
  term.sessionId ≠ "" && !term.closed && !term.recovered && !term.waitingForReconnect &&
    !term.stolen

/-- The body of the poll loop of a generation. -/
def poll (generation : ℕ) : RemoteMuxTerminalManager :=
  if manager.term.closed ∨ manager.term.pollGeneration ≠ generation then manager
  else manager.request (.output generation manager.term.nextSequence)

def startPolling : RemoteMuxTerminalManager :=
  if canPoll manager.term then
    manager.stopPolling.poll manager.stopPolling.term.pollGeneration
  else manager

@[simp] theorem startPolling_published : manager.startPolling.published = manager.published := by
  unfold startPolling poll
  split
  · split <;> simp [stopPolling]
  · rfl

@[simp] theorem startPolling_closed : manager.startPolling.term.closed = manager.term.closed := by
  unfold startPolling poll
  split
  · split <;> simp [stopPolling]
  · rfl

def pauseForReconnect : RemoteMuxTerminalManager :=
  if manager.term.closed then manager
  else
    stopPolling { manager with term := { manager.term with waitingForReconnect := true } }

/-! ### The end of a terminal -/

/-- Take the record out of the manager for good. -/
def retire : RemoteMuxTerminalManager :=
  { manager with retired := true, registered := false, detached := none }

def completeExited : RemoteMuxTerminalManager :=
  if manager.term.closed ∨ manager.registered = false then manager
  else
    ({ manager with term := { manager.term with
        finalizeTimer := false, finalizingExit := false, closed := true } } :
      RemoteMuxTerminalManager).stopPolling.retire.emit (.exit ⟨none, none⟩)

def abandonExitFinalization : RemoteMuxTerminalManager :=
  ({ manager with term := { manager.term with
      finalizeTimer := false, finalizingExit := false, closed := true } } :
    RemoteMuxTerminalManager).stopPolling.retire

def finalizeExited : RemoteMuxTerminalManager :=
  if manager.term.closed ∨ manager.term.finalizingExit then manager
  else
    (stopPolling { manager with
      term := { manager.term with finalizingExit := true } }).awaitConnection
      .finalize

/-- Retry the destroy of an exited pane later. -/
def retryFinalize : RemoteMuxTerminalManager :=
  if manager.term.closed = false ∧ manager.registered then
    { manager with term := { manager.term with finalizeTimer := true } }
  else manager

def stolenNote : String :=
  "\r\n[session attached from another terminal; close and reopen this tab to take it back]\r\n"

/-- The session belongs to another client now. -/
def yield_ (text : String) : RemoteMuxTerminalManager :=
  (stopPolling { manager with term := { manager.term with
    stolen := true, waitingForReconnect := true } }).emit (.note text)

def handleRequestFailure (failure : MuxFailure) : RemoteMuxTerminalManager :=
  if isMissingMuxPaneError failure then manager.completeExited
  else if isRecoveredExitedPane failure ∧ ¬ manager.term.recovered then manager.startPolling
  else if isStolenError failure then manager.yield_ stolenNote
  else manager.pauseForReconnect

def daemonCrashNote : String :=
  "\r\n[terminal exited while Cockpit mux recovered from a daemon crash]\r\n"

def reportRecoveredDaemonExit : RemoteMuxTerminalManager :=
  ((stopPolling { manager with term := { manager.term with waitingForReconnect := false } }).emit
    (.note daemonCrashNote)).emit (.exit ⟨none, some "daemon-crash"⟩)

/-! ### Attaching -/

/-- `attach` up to its first suspension. -/
def attach (caller : AttachCaller) (hydrateScrollback : Bool) : RemoteMuxTerminalManager :=
  ({ manager.stopPolling with attaches := manager.attaches + 1 } : RemoteMuxTerminalManager).request
    (.attach manager.term.sessionId manager.attaches caller hydrateScrollback)

def reattach (recoveredFromDaemonCrash : Bool) : RemoteMuxTerminalManager :=
  if manager.term.closed ∨ manager.term.stolen then manager
  else manager.attach (.reattach recoveredFromDaemonCrash) false

/-- `requireOpening` fails: `open` rejects, and takes its record back if it is still there. -/
def rejectOpening : RemoteMuxTerminalManager :=
  { manager with registered := false }

/-- Whether `requireOpening` throws. -/
def superseded : Bool := manager.term.closed || !manager.registered

/-- What the caller of `attach` does once it has returned. -/
def attachReturned : AttachCaller → RemoteMuxTerminalManager
  | .opening => if manager.superseded then manager.rejectOpening else manager
  | .remount => manager
  | .reattach recoveredFromDaemonCrash =>
    if recoveredFromDaemonCrash ∧ ¬ manager.term.closed then manager.reportRecoveredDaemonExit
    else manager

/-- What the caller of `attach` does once it has failed. -/
def attachFailed (failure : MuxFailure) : AttachCaller → RemoteMuxTerminalManager
  | .opening => manager.rejectOpening
  | .remount => manager
  | .reattach _ =>
    if isRecoveredExitedPane failure then manager.reportRecoveredDaemonExit
    else manager.handleRequestFailure failure

/-- The rest of `attach` after the hydration. -/
def finishAttach (index : ℕ) (caller : AttachCaller) (resume : Option ℕ) :
    RemoteMuxTerminalManager :=
  let manager := manager.emit (.seed index resume)
  let manager := if manager.term.recovered then manager else manager.startPolling
  manager.attachReturned caller

/-- The rest of `attach` after `session.attach`. -/
def attachAnswered (index : ℕ) (caller : AttachCaller) (hydrateScrollback : Bool)
    (resume : Option ℕ) : RemoteMuxTerminalManager :=
  let manager : RemoteMuxTerminalManager := { manager with term := { manager.term with
    waitingForReconnect := false
    nextSequence := resume.getD manager.term.nextSequence } }
  if hydrateScrollback then manager.request (.scrollback index caller resume)
  else manager.finishAttach index caller resume

/-! ### Opening -/

/-- What `hydrateDetached` does with the inventory. -/
def hydrateDetached (listed : Option ListedSession) : RemoteMuxTerminalManager :=
  match listed with
  | some session => { manager with detached := some ⟨session.sessionId, 1, session.exited⟩ }
  | none => manager

/-- `session.create`, unless the options only allow an attach. -/
def createSession (options : TerminalOpenOptions) (priorSelection : Bool) :
    RemoteMuxTerminalManager :=
  if options.createIfMissing = some false then manager.rejectOpening
  else manager.request (.create options priorSelection)

/-- The attach at the end of `open`. -/
def attachOpening (options : TerminalOpenOptions) : RemoteMuxTerminalManager :=
  if manager.superseded then manager.rejectOpening
  else manager.attach .opening options.hydrateScrollback

/-- `open` after its inventory. -/
def openListed (options : TerminalOpenOptions) (listed : Option ListedSession) :
    RemoteMuxTerminalManager :=
  let manager := manager.hydrateDetached listed
  if manager.superseded then manager.rejectOpening
  else
    match manager.detached with
    | some detached =>
      ({ manager with term := { manager.term with
          sessionId := detached.sessionId
          nextSequence := detached.nextSequence
          recovered := detached.recovered } } : RemoteMuxTerminalManager).attachOpening options
    | none =>
      if options.run then manager.request (.topology options)
      else manager.createSession options false

/-- `open`. A record that is still opening is joined, and one that is finalizing is left
alone. -/
def open_ (options : TerminalOpenOptions) : RemoteMuxTerminalManager :=
  if manager.retired ∧ options.createIfMissing ≠ some true then manager
  else
    let manager : RemoteMuxTerminalManager := { manager with retired := false }
    if manager.registered then
      if manager.term.finalizingExit ∨ manager.term.sessionId = "" then manager
      else manager.awaitConnection (.remount options.hydrateScrollback)
    else
      ({ manager with published := true, registered := true } :
        RemoteMuxTerminalManager).awaitConnection (.opening options)

/-! ### Closing -/

/-- `close` without a record: the pane is looked up in the detached inventory, which is
rebuilt if it does not have it. -/
def closeUnknown (kill : Bool) : RemoteMuxTerminalManager :=
  match manager.detached with
  | none => manager.awaitConnection (.close kill)
  | some detached =>
    if kill then manager.request (.destroy detached.sessionId .closeDetached) else manager

/-- The rest of `close` after its inventory. -/
def closeListed (kill : Bool) (listed : Option ListedSession) : RemoteMuxTerminalManager :=
  let manager := manager.hydrateDetached listed
  match manager.detached with
  | some detached =>
    if kill then manager.request (.destroy detached.sessionId .closeDetached) else manager
  | none => manager

def close (kill : Bool) : RemoteMuxTerminalManager :=
  if manager.registered = false then manager.closeUnknown kill
  else if manager.term.finalizingExit then manager
  else if manager.term.sessionId = "" then
    let manager : RemoteMuxTerminalManager :=
      { manager with term := { manager.term with closed := true } }
    if kill then
      closeUnknown { manager.stopPolling with retired := true, registered := false } kill
    else { manager.stopPolling with registered := false }
  else if kill then
    manager.stopPolling.request
      (.destroy manager.term.sessionId (.close (canPoll manager.term)))
  else
    let manager : RemoteMuxTerminalManager :=
      { manager with term := { manager.term with closed := true } }
    request { manager.stopPolling with
      registered := false
      detached := some
        ⟨manager.term.sessionId, manager.term.nextSequence, manager.term.recovered⟩ } .detach

def closeAll : RemoteMuxTerminalManager :=
  if manager.registered = false then manager
  else if manager.term.finalizingExit then manager.abandonExitFinalization
  else manager.close false

/-- `destroySession` once the connection is open. -/
def destroySession (sessionId : String) : RemoteMuxTerminalManager :=
  let detached := decide (manager.detached.map (·.sessionId) = some sessionId)
  if manager.registered ∧ manager.term.sessionId = sessionId then
    manager.stopPolling.request
      (.destroy sessionId (.destroySession true detached (canPoll manager.term)))
  else manager.request (.destroy sessionId (.destroySession false detached false))

/-- A destructive request failed; the record polls again if it did before. -/
def resumePolling (resume : Bool) : RemoteMuxTerminalManager :=
  if resume ∧ manager.registered ∧ ¬ manager.term.closed then manager.startPolling else manager

/-- `destroySession` after its answer. -/
def sessionDestroyed (live detached : Bool) : RemoteMuxTerminalManager :=
  let manager :=
    if live ∧ manager.registered then
      (retire (stopPolling { manager with term := { manager.term with closed := true } })).emit
        (.exit ⟨some 0, none⟩)
    else manager
  if detached then { manager with retired := true, detached := none } else manager

/-- `close` after its answer, whatever has become of the record meanwhile. -/
def closeDestroyed : RemoteMuxTerminalManager :=
  (retire { manager with term := { manager.term with closed := true } }).emit (.exit ⟨some 0, none⟩)

/-- What `session.destroy` settles. -/
def destroyAnswered : DestroyCaller → Except MuxFailure MuxResponse → RemoteMuxTerminalManager
  | .close _, .ok _ => manager.closeDestroyed
  | .close resume, .error _ => manager.resumePolling resume
  | .closeDetached, .ok _ => { manager with retired := true, detached := none }
  | .closeDetached, .error _ => manager
  | .destroySession live detached _, .ok _ => manager.sessionDestroyed live detached
  | .destroySession _ _ resume, .error _ => manager.resumePolling resume
  | .finalize, .ok _ => manager.completeExited
  | .finalize, .error failure =>
    if isSessionNotFoundError failure then manager.completeExited else manager.retryFinalize

/-- Note an answer of the daemon. -/
def noteDestroy : Except MuxFailure MuxResponse → RemoteMuxTerminalManager
  | .error .channel => manager
  | _ => manager.emit .destroyAnswered

/-! ### Reconnecting -/

/-- `onAttached`: only an established record takes part. -/
def reconfigureAndReattach : RemoteMuxTerminalManager :=
  if manager.registered ∧ ¬ manager.term.closed ∧ manager.term.sessionId ≠ "" then
    manager.request (.configure .reconnect)
  else manager

/-- The rest of it after the inventory; `none` when the inventory is unavailable. -/
def reconnectListed (listed : Option (Option ListedSession)) : RemoteMuxTerminalManager :=
  match listed with
  | some (some session) =>
    let crashed := session.exited && session.sessionId ≠ manager.term.sessionId
    let term := { manager.term with sessionId := session.sessionId, recovered := session.exited }
    reattach { manager with
      term
      detached := some ⟨term.sessionId, term.nextSequence, term.recovered⟩ } crashed
  | _ => manager.reattach false

/-! ### Answers -/

/-- The chunks of a poll. -/
def emitOutputs (manager : RemoteMuxTerminalManager) : List Output → RemoteMuxTerminalManager
  | [] => manager
  | output :: rest =>
    (({ manager with term := { manager.term with
        nextSequence := max manager.term.nextSequence (output.sequence + 1) } } :
      RemoteMuxTerminalManager).emit (.chunk output)).emitOutputs rest

/-- The last clause of a poll: poll again after a delay. -/
def pollAgain (generation : ℕ) : RemoteMuxTerminalManager :=
  if manager.term.closed ∨ manager.term.finalizingExit ∨ manager.term.waitingForReconnect ∨
      manager.term.pollGeneration ≠ generation then manager
  else { manager with term := { manager.term with pollTimer := some generation } }

/-- The answer to a poll. A poll of an earlier generation is dropped. -/
def outputAnswered (generation : ℕ) (result : Except MuxFailure MuxResponse) :
    RemoteMuxTerminalManager :=
  if manager.term.closed ∨ manager.term.pollGeneration ≠ generation then manager
  else
    match result with
    | .ok (.outputs outputs exited) =>
      let manager := manager.emitOutputs outputs
      let manager := if exited ∧ outputs = [] then manager.finalizeExited else manager
      manager.pollAgain generation
    | .ok _ => manager.pollAgain generation
    | .error failure => (manager.handleRequestFailure failure).pollAgain generation

/-- Continue the function that waits for an answer. -/
def deliver (answer : MuxAnswer) : RemoteMuxTerminalManager :=
  match answer.request, answer.result with
  | .configure (.opening options), .ok _ =>
    if manager.superseded then manager.rejectOpening else manager.request (.list (.opening options))
  | .configure (.opening _), .error _ => manager.rejectOpening
  | .configure (.remount hydrateScrollback), .ok _ => manager.attach .remount hydrateScrollback
  | .configure (.remount _), .error _ => manager
  | .configure .reconnect, .ok _ => manager.request (.list .reconnect)
  | .configure .reconnect, .error _ => manager
  | .list (.opening options), .ok (.sessions listed) => manager.openListed options listed
  | .list (.opening _), _ => manager.rejectOpening
  | .list (.close kill), .ok (.sessions listed) => manager.closeListed kill listed
  | .list (.close _), _ => manager
  | .list .reconnect, .ok (.sessions listed) => manager.reconnectListed (some listed)
  | .list .reconnect, _ => manager.reconnectListed none
  -- the selection is read before the pane is created, without a second look at the record
  | .topology options, .ok (.selection active) => manager.createSession options active
  | .topology _, _ => manager.rejectOpening
  | .create options priorSelection, .ok (.created sessionId) =>
    let manager : RemoteMuxTerminalManager :=
      { manager with term := { manager.term with sessionId } }
    if priorSelection then manager.request (.selectPane options) else manager.attachOpening options
  | .create _ _, _ => manager.rejectOpening
  | .selectPane options, .ok _ => manager.attachOpening options
  | .selectPane _, .error _ => manager.rejectOpening
  | .attach _ index caller hydrateScrollback, .ok (.attached resume) =>
    manager.attachAnswered index caller hydrateScrollback resume
  | .attach _ _ caller _, .error failure => manager.attachFailed failure caller
  | .attach _ _ _ _, .ok _ => manager
  | .scrollback index caller resume, .ok _ =>
    (manager.emit .history).finishAttach index caller resume
  | .scrollback index caller resume, .error _ => manager.finishAttach index caller resume
  | .output generation _, result => manager.outputAnswered generation result
  | .write _, .ok _ => manager
  | .write _, .error failure => manager.handleRequestFailure failure
  | .detach, _ => manager
  | .destroy _ caller, result => (manager.noteDestroy result).destroyAnswered caller result

/-- A function goes on when the connection is open, or fails with it. -/
def connectionSettled (task : ConnectionTask) (opened : Bool) : RemoteMuxTerminalManager :=
  match task, opened with
  | .opening options, true =>
    if manager.superseded then manager.rejectOpening
    else manager.request (.configure (.opening options))
  | .opening _, false => manager.rejectOpening
  | .remount hydrateScrollback, true => manager.request (.configure (.remount hydrateScrollback))
  | .remount _, false => manager
  | .close kill, true => manager.request (.list (.close kill))
  | .close _, false => manager
  | .destroySession sessionId, true => manager.destroySession sessionId
  | .destroySession _, false => manager
  | .finalize, true => manager.request (.destroy manager.term.sessionId .finalize)
  | .finalize, false => manager.retryFinalize

/-- Every request in flight is rejected. -/
def lose : RemoteMuxTerminalManager :=
  (manager.answered.map (·.request) ++ manager.sent).foldl
    (fun manager request => manager.deliver ⟨request, .error .channel⟩)
    { manager with connected := false, answered := [], sent := [] }

/-! ### Steps -/

def withPane (pane : DaemonPane) : RemoteMuxTerminalManager := { manager with pane }

def stolenEventNote : String :=
  "\r\n[session attached from another Cockpit client; close and reopen this tab to take it back]\r\n"

/-- One step. -/
def step (manager : RemoteMuxTerminalManager) : MuxStep → Option RemoteMuxTerminalManager
  | .open_ options =>
    -- one record is published for the key
    if manager.published ∧ manager.registered = false then none else some (manager.open_ options)
  | .close kill => some (manager.close kill)
  | .destroySession sessionId => some (manager.awaitConnection (.destroySession sessionId))
  | .closeAll => some manager.closeAll
  | .write =>
    if manager.registered then
      some (manager.request (.write (decide (manager.term.sessionId ≠ ""))))
    else none
  | .poll =>
    match manager.term.pollTimer with
    | some generation =>
      some (poll { manager with term := { manager.term with pollTimer := none } } generation)
    | none => none
  | .finalizeTimer =>
    if manager.term.finalizeTimer then
      some (awaitConnection { manager with term := { manager.term with finalizeTimer := false } }
        .finalize)
    else none
  | .connection index opened =>
    match manager.waiting[index]? with
    | some task =>
      some (connectionSettled { manager with
        waiting := manager.waiting.eraseIdx index } task opened)
    | none => none
  | .deliver =>
    match manager.answered with
    | answer :: rest => some (({ manager with answered := rest } :
      RemoteMuxTerminalManager).deliver answer)
    | [] => none
  | .attached =>
    if manager.connected then none
    else some (reconfigureAndReattach { manager with connected := true })
  | .lost => if manager.connected then some manager.lose else none
  | .stolenEvent =>
    if manager.registered ∧ ¬ manager.term.closed ∧ manager.term.sessionId ≠ "" then
      some (manager.yield_ stolenEventNote)
    else none
  | .serve refusal =>
    match manager.sent with
    | request :: rest =>
      let served := manager.pane.serve refusal request
      some { manager with
        sent := rest, answered := manager.answered ++ [⟨request, served.2⟩], pane := served.1 }
    | [] => none
  | .pump data =>
    if manager.pane.status = .live ∧ manager.pane.pumping then
      some (manager.withPane { manager.pane with stream := (manager.pane.stream.append data).1 })
    else none
  | .childExit =>
    if manager.pane.status = .live then
      some (manager.withPane { manager.pane with childExited := true })
    else none
  | .pumpEnd =>
    if manager.pane.status = .live then
      some (manager.withPane { manager.pane with pumping := false })
    else none
  | .watchPaneExit =>
    if manager.pane.status = .live ∧ manager.pane.childExited ∧ manager.pane.pumping = false then
      some (manager.withPane { manager.pane with status := .exited, stolen := false })
    else none
  | .crash =>
    if manager.connected = false ∧ manager.pane.present then
      some (manager.withPane { manager.pane with
        status := .recovered
        sessionID := "recovered-" ++ manager.pane.paneID
        pumping := false
        stolen := false })
    else none
  | .stealElsewhere =>
    if manager.pane.status = .live then
      some (manager.withPane { manager.pane with stolen := true })
    else none
  | .destroyElsewhere =>
    if manager.pane.present then
      some (manager.withPane { manager.pane with status := .destroyed, pumping := false })
    else none

end RemoteMuxTerminalManager

end AgentCockpit.Remote
