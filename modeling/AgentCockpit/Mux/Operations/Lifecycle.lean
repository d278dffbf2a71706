import AgentCockpit.Mux.Operations.Topology

/-!
# Panes from creation to destruction

The requests that create and destroy panes, and the watcher that notices that the process
of a pane has ended.
-/

namespace AgentCockpit.Mux

open AgentCockpit.Core

variable (env : Env)

/-! ### Creation -/

/-- Hand out the next identifiers. The empty logical id and the empty window id ask for new
ones. -/
def allocate (input : CreateSessionRequest) (logicalID windowID : String) :
    OpsM ManagedSession := do
  modify fun operations => { operations with nextSession := operations.nextSession + 1 }
  modify fun operations =>
    { operations with nextWindow := operations.nextWindow + if windowID = "" then 1 else 0 }
  let operations ← get
  pure
    { id := sessionName operations.nextSession
      paneID := paneName operations.nextSession
      key := input.key
      projectID := input.projectID
      broadcastGroup := input.broadcastGroup
      logicalSessionID :=
        if logicalID = "" then sessionName operations.nextSession else logicalID
      windowID := if windowID = "" then windowName operations.nextWindow else windowID
      broadcastScope := "window"
      cwd := input.cwd
      command := input.command
      cols := 80
      rows := 24 }

def terminate (paneID : String) : OpsM Unit :=
  callPane env paneID .terminate (env.terminate paneID) ""

/-- Enter a new pane into the daemon and put the focus on it. -/
def registerSession (session : ManagedSession) : OpsM Unit := do
  modify fun operations => { operations with sessions := register operations.sessions session }
  modify (·.focus session session.logicalSessionID)

/-- Make a new pane active in its window and session. -/
def observePaneTopology (session : ManagedSession) : OpsM Unit := do
  let state ← topologyState (logicalSessionID session)
  setTopologyState (logicalSessionID session)
    { state with
      activeWindowID := session.windowID
      activePaneByWindow := setAt state.activePaneByWindow session.windowID session.paneID
      layoutByWindow :=
        setAt state.layoutByWindow session.windowID
          (ensureLayoutPane (state.layoutByWindow session.windowID) session.paneID) }
  bestEffort (persistTopologyInteraction env (logicalSessionID session))

def createLocked (input : CreateSessionRequest) (logicalID windowID : String) :
    OpsM ManagedSession := do
  require (input.command ≠ "") .commandRequired
  let allocated ← allocate input logicalID windowID
  let pane ← orRaise (env.startPane input) .failed
  let started : ManagedSession := { allocated with pane := some pane }
  onError (persistTopology env started) (terminate env started.paneID)
  let attached ← onError (newSessionAttachment env started) do
    bestEffort (terminate env started.paneID)
    destroyPersistedPane env started
  let session : ManagedSession := { started with attached, outputHistory := attached }
  registerSession session
  observePaneTopology env session
  persistActiveLogicalSession env session.logicalSessionID
  pure session

structure CreateSessionResponse where
  sessionID : String
  paneID : String
  deriving DecidableEq, Repr

/-- A new session needs a daemon without an unread recovery record. -/
def requireRecovered : OpsM Unit := do
  let operations ← get
  match operations.recoveryErr with
  | some cause => throw (.recoveryConflict cause)
  | none => require ((findSession operations.sessions "recovered-session").isNone) .sessionExists

def create (input : CreateSessionRequest) (projectID : String) : OpsM CreateSessionResponse := do
  require (input.command ≠ "") .commandRequired
  requireMutable
  requireRecovered
  let session ← createLocked env { input with projectID } "" ""
  pure ⟨session.id, session.paneID⟩

structure SplitPaneRequest where
  paneID : String
  command : String
  args : List String := []
  cwd : String := ""
  key : String := ""
  direction : String := ""
  ratio : Float64 := .finite 0
  deriving DecidableEq, Repr

structure NewWindowRequest where
  sessionID : String
  command : String
  args : List String := []
  cwd : String := ""
  key : String := ""
  deriving DecidableEq, Repr

/-- A new pane takes the scope and the pin of the pane it was made from. -/
def inheritFrom (source session : ManagedSession) : ManagedSession :=
  { session with broadcastScope := source.broadcastScope, pinned := source.pinned }

def split (input : SplitPaneRequest) : OpsM CreateSessionResponse := do
  require (isFiniteSplitRatio input.ratio) (.failed "mux split ratio must be finite")
  requireMutable
  let source ← requirePane input.paneID
  let created ← createLocked env
    { command := input.command, args := input.args, cwd := input.cwd, key := input.key
      projectID := source.projectID, broadcastGroup := source.broadcastGroup }
    source.logicalSessionID source.windowID
  modifySession created.id (inheritFrom source)
  let state ← topologyState source.logicalSessionID
  setTopologyState source.logicalSessionID
    { state with
      layoutByWindow := setAt state.layoutByWindow source.windowID
        (splitLayoutPane (removeLayoutPane (state.layoutByWindow source.windowID) created.paneID)
          source.paneID created.paneID input.direction input.ratio)
      activeWindowID := source.windowID
      activePaneByWindow := setAt state.activePaneByWindow source.windowID created.paneID }
  persistTopologyInteraction env source.logicalSessionID
  persistPin env (inheritFrom source created)
  pure ⟨created.id, created.paneID⟩

def newWindow (input : NewWindowRequest) : OpsM CreateSessionResponse := do
  requireMutable
  let source ← requireLogicalSession env input.sessionID
  let created ← createLocked env
    { command := input.command, args := input.args, cwd := input.cwd, key := input.key
      projectID := source.projectID, broadcastGroup := source.broadcastGroup }
    source.logicalSessionID ""
  modifySession created.id (inheritFrom source)
  let state ← topologyState source.logicalSessionID
  setTopologyState source.logicalSessionID
    { state with
      activeWindowID := created.windowID
      activePaneByWindow := setAt state.activePaneByWindow created.windowID created.paneID }
  persistTopologyInteraction env source.logicalSessionID
  persistPin env (inheritFrom source created)
  pure ⟨created.id, created.paneID⟩

/-! ### Destruction -/

/-- Stop the process of a pane, if it still runs. -/
def stopPane (session : ManagedSession) : OpsM Unit :=
  if session.pane.isSome then terminate env session.paneID else pure ()

/-- Close the data path of a pane; its attachment flushes what it holds back. -/
def closeAttachment (session : ManagedSession) : OpsM Unit :=
  if session.attached then callPane env session.paneID .close (.ok ()) "" else pure ()

def unregisterSession (sessionID : String) : OpsM Unit :=
  modify fun operations => { operations with sessions := unregister operations.sessions sessionID }

def destroyManagedSession (session : ManagedSession) : OpsM Unit := do
  stopPane env session
  bestEffort (closeAttachment env session)
  destroyPersistedPane env session
  unregisterSession session.id

/-- The session a destroy request names: a runtime id, or the logical id of the only
recovered pane with it. -/
def requireDestroySession (sessions : List ManagedSession) (sessionID : String) :
    Option ManagedSession :=
  match findSession sessions sessionID with
  | some session => some session
  | none =>
    match sessions.filter fun session => session.pane = none ∧
        session.id.startsWith "recovered-" ∧ logicalSessionID session = sessionID with
    | [recovered] => some recovered
    | _ => none

/-- Retire the placement of a window that is about to close. -/
def retireWindow (logicalID windowID : String) : OpsM Unit := do
  let state ← topologyState logicalID
  setTopologyState logicalID (removeWindowPlacement state windowID)

def retireLastPane (logicalID windowID : String) : OpsM Unit := do
  let operations ← get
  if windowPaneCount operations.sessions logicalID windowID = 1 then retireWindow logicalID windowID
  else pure ()

/-- Drop the state of a closed logical session; if it was selected, another session of the
project takes its place. -/
def selectReplacement (logicalID projectID : String) (wasActive : Bool) : OpsM Unit := do
  setTopologyState logicalID {}
  if wasActive then do
    modify (·.selectRemainingSession env projectID)
    let operations ← get
    if operations.activeLogical projectID = "" then pure ()
    else persistActiveLogicalSession env (operations.activeLogical projectID)
  else pure ()

def keepSelection (logicalID : String) (wasActive : Bool) : OpsM Unit :=
  if wasActive then modify (·.selectLogicalSession env logicalID) else pure ()

/-- After a pane has gone: reconcile what is left of its logical session. -/
def settleDestroyed (logicalID projectID : String) (wasActive : Bool) : OpsM Unit := do
  let operations ← get
  if hasLogicalSession operations.sessions logicalID then do
    let _ ← topologyState logicalID
    keepSelection env logicalID wasActive
    bestEffort (persistTopologyInteraction env logicalID)
  else selectReplacement env logicalID projectID wasActive

/-- The first session's panes share the legacy record, which is dropped with any of them. -/
def clearLegacy (session : ManagedSession) : OpsM Unit :=
  if logicalSessionID session = sessionName 1 ∨ session.id = "recovered-session" then
    clearRecovery env
  else pure ()

structure DestroySessionRequest where
  sessionID : String
  deriving DecidableEq, Repr

def wasActive (operations : Operations) (session : ManagedSession) : Bool :=
  operations.activeLogical session.projectID = logicalSessionID session

def destroySession (session : ManagedSession) : OpsM String := do
  let operations ← get
  retireLastPane (logicalSessionID session) session.windowID
  destroyManagedSession env session
  settleDestroyed env (logicalSessionID session) session.projectID (wasActive operations session)
  clearLegacy env session
  pure session.id

/-- With no session left, the unreadable recovery record can be destroyed by its name. -/
def destroyRecovery (sessionID : String) : OpsM String := do
  let operations ← get
  require (operations.sessions = [] ∧ operations.recoveryErr.isSome ∧
    sessionID = "recovered-session") .sessionNotFound
  clearRecovery env
  pure sessionID

def destroy (input : DestroySessionRequest) : OpsM String := do
  requireMutable
  let operations ← get
  match requireDestroySession operations.sessions input.sessionID with
  | some session => destroySession env session
  | none => destroyRecovery env input.sessionID

structure DestroyWindowRequest where
  sessionID : String
  windowID : String
  deriving DecidableEq, Repr

/-- The registered panes of a window. -/
def windowTargets (sessions : List ManagedSession) (logicalID windowID : String) :
    List ManagedSession :=
  (env.walk .windowPanes sessions).filter fun session =>
    logicalSessionID session = logicalID ∧ session.windowID = windowID

/-- After a window has gone: reconcile what is left of its logical session. -/
def settleWindowDestroyed (logicalID projectID : String) (wasActive : Bool) : OpsM Unit := do
  let operations ← get
  if hasLogicalSession operations.sessions logicalID then do
    let _ ← topologyState logicalID
    persistTopologyInteraction env logicalID
    keepSelection env logicalID wasActive
  else selectReplacement env logicalID projectID wasActive

def destroyWindow (input : DestroyWindowRequest) : OpsM TopologyResponse := do
  requireMutable
  let root ← requireLogicalSession env input.sessionID
  let operations ← get
  let targets := windowTargets env operations.sessions (logicalSessionID root) input.windowID
  require (targets ≠ []) .sessionNotFound
  retireWindow (logicalSessionID root) input.windowID
  targets.forM (destroyManagedSession env)
  settleWindowDestroyed env (logicalSessionID root) root.projectID (wasActive operations root)
  topologyLocked env root.projectID

/-! ### The end of a process -/

/-- Run every computation; the first error is raised at the end. -/
def forAll {α : Type} (f : α → OpsM Unit) : List α → OpsM (Option MuxError)
  | [] => pure none
  | a :: rest => do
    let first ← attempt (f a)
    let later ← forAll f rest
    pure (first <|> later)

/-- Remove the archive of every pane of a logical session. -/
def reapHistory (logicalID : String) : OpsM (Option MuxError) := do
  let opened ← attempt (openHistory env "")
  match opened with
  | some err => pure (some err)
  | none => do
    let operations ← get
    let failed ← forAll
      (fun session => historyCall env "" (·.reapPane session.paneID))
      ((env.walk .reap operations.sessions).filter (logicalSessionID · = logicalID))
    let closed ← attempt (openHistory env "")
    pure (failed <|> closed)

def clearFirstSession (logicalID : String) : OpsM Unit :=
  if logicalID = sessionName 1 then
    storeCall env "reap closed legacy mux recovery: " fun store => .ok store.clear
  else pure ()

def raiseReaped : Option MuxError → OpsM Unit
  | some err => throw (.failed ("reap mux history for closed session: " ++ err.message))
  | none => pure ()

/-- Drop the records of a logical session whose last process has ended. -/
def reapLogicalSession (logicalID : String) : OpsM Unit := do
  let archiveErr ← reapHistory env logicalID
  openStore env "open mux lifecycle catalog: "
  storeCall env "reap closed mux session persistence: " fun store =>
    .ok (store.destroySession logicalID)
  clearFirstSession env logicalID
  raiseReaped archiveErr

def markLogicalSessionDead (logicalID : String) : OpsM Unit := do
  let operations ← get
  if logicalID = "" ∨ operations.persistencePath = "" then pure ()
  else if operations.sessions.any fun session =>
      logicalSessionID session = logicalID ∧ session.pane.isSome then pure ()
  else reapLogicalSession env logicalID

/-- A pane without a process: it keeps its output and nothing else. -/
def exited (diagnostic : Option String) (session : ManagedSession) : ManagedSession :=
  { session with
    pane := none, attached := false, clientID := "", clientKind := ""
    recoveryDiagnostic := diagnostic.getD session.recoveryDiagnostic }

def noteFailure (sessionID : String) : Option MuxError → OpsM Unit
  | some err => modifySession sessionID fun session =>
      { session with recoveryDiagnostic := err.message }
  | none => pure ()

/-- The process of a live pane has ended, with a diagnostic if the cleanup had one. -/
def watchPaneExit (sessionID : String) (diagnostic : Option String) : OpsM Unit := do
  let session ← requireSession sessionID
  require session.pane.isSome .sessionNotFound
  bestEffort (closeAttachment env session)
  modifySession session.id (exited diagnostic)
  let err ← attempt (markLogicalSessionDead env (logicalSessionID session))
  noteFailure session.id err

end AgentCockpit.Mux
