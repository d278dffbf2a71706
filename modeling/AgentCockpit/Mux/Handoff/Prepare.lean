import AgentCockpit.Core.Run
import AgentCockpit.Mux.Handoff.Manifest
import AgentCockpit.Mux.Operations.Lifecycle

/-!
# Preparing a handoff

One handoff attempt of the native daemon, the readers of its panes and the watchers of their
processes, as one labelled system. `PrepareHandoff` holds `operations.mu` only while it
collects the sessions; then it asks one reader after the other to pause. A reader pauses at
a grounded boundary and waits until its request is released. A watcher holds
`operations.mu` from the moment it finds the record current until it has cleared it, and
waits meanwhile for the reader to end.

Every registered pane has its native attachment and a started reader; what the watcher
writes to the databases is in `watchPaneExit`. A goroutine that panics ends the attempt.
-/

namespace AgentCockpit.Mux

open AgentCockpit.Core

/-! ### Readers -/

/-- A pause request: whether its channels are closed, and whether it was given up. -/
structure HandoffPause where
  /-- The reader pauses for it, and `ready` is closed. -/
  paused : Bool := false
  /-- `release` is closed. -/
  released : Bool := false
  aborted : Bool := false
  deriving DecidableEq, Repr

/-- Where the reader of a pane stands. -/
inductive PumpPhase
  | looping
  /-- It has seen a request. -/
  | observed (request : ℕ)
  /-- It found the parser grounded. -/
  | grounded (request : ℕ)
  | waiting (request : ℕ)
  /-- Its request was released. -/
  | resumed (request : ℕ)
  | reading
  | ended
  deriving DecidableEq, Repr

/-- The native attachment of a pane, with every pause request ever made of it. -/
structure ShadowAttachment where
  requests : List HandoffPause := []
  handoffRequest : Option ℕ := none
  pump : PumpPhase := .looping
  /-- `stop` is closed. -/
  stopped : Bool := false
  deriving DecidableEq, Repr

inductive PumpStep
  | check
  /-- The outcome of `Ground`; an error counts as not grounded. -/
  | ground (grounded : Bool)
  | pause
  | resume
  | clear
  /-- Wait for output and pump it. -/
  | read (failed : Bool)
  deriving DecidableEq, Repr

namespace ShadowAttachment

variable (attachment : ShadowAttachment)

def updateRequest (request : ℕ) (change : HandoffPause → HandoffPause) : ShadowAttachment :=
  { attachment with requests := attachment.requests.modify request change }

/-- Make a request of a reader that has none. -/
def request : ShadowAttachment :=
  { attachment with
    requests := attachment.requests ++ [{}]
    handoffRequest := some attachment.requests.length }

/-- Run the release function of a request. -/
def resume (request : ℕ) : ShadowAttachment :=
  attachment.updateRequest request fun pause => { pause with released := true }

def abortHandoffRequest (request : ℕ) : ShadowAttachment :=
  if attachment.handoffRequest = some request then
    ({ attachment with handoffRequest := none } : ShadowAttachment).updateRequest request
      fun pause => { pause with aborted := true, released := pause.released || pause.paused }
  else attachment

def stopPump : ShadowAttachment := { attachment with stopped := true }

/-- One step of the reader; `pauseIfGrounded` is the steps from `check` to `clear`. -/
def pumpStep : PumpStep → Option ShadowAttachment
  | .check =>
    if attachment.pump = .looping then
      match attachment.handoffRequest with
      | none => some { attachment with pump := .reading }
      | some request => some { attachment with pump := .observed request }
    else none
  | .ground grounded =>
    match attachment.pump with
    | .observed request =>
      some { attachment with pump := if grounded then .grounded request else .reading }
    | _ => none
  | .pause =>
    match attachment.pump with
    | .grounded request =>
      match attachment.requests[request]? with
      | some pause =>
        if attachment.handoffRequest ≠ some request ∨ pause.aborted then
          some { attachment with pump := .reading }
        else
          some (({ attachment with pump := .waiting request } : ShadowAttachment).updateRequest
            request fun pause => { pause with paused := true })
      | none => none
    | _ => none
  | .resume =>
    match attachment.pump with
    | .waiting request =>
      match attachment.requests[request]? with
      | some pause =>
        if pause.released then some { attachment with pump := .resumed request } else none
      | none => none
    | _ => none
  | .clear =>
    match attachment.pump with
    | .resumed request =>
      some { attachment with
        pump := .looping
        handoffRequest :=
          if attachment.handoffRequest = some request then none else attachment.handoffRequest }
    | _ => none
  | .read failed =>
    if attachment.pump = .reading then
      some { attachment with pump := if attachment.stopped ∨ failed then .ended else .looping }
    else none

end ShadowAttachment

/-! ### The attempt -/

/-- What the attempt captures of a paused pane. -/
structure HandoffState where
  boundary : String := "grounded"
  snapshot : Bytes
  primarySnapshot : Bytes
  metadata : Bytes
  deriving DecidableEq, Repr

/-- A release function: it resumes the reader of a session from a request. -/
structure PauseRelease where
  sessionID : String
  request : ℕ
  deriving DecidableEq, Repr

structure PreparedHandoff where
  manifest : HandoffManifest
  masters : List ℕ := []
  releases : List PauseRelease := []

/-- Where the attempt stands. The lists are the sessions that it has yet to visit, and in
`releasing` the release functions that `Release` has yet to run. -/
inductive PreparePhase
  | idle
  | versioning (rest : List String)
  | visiting (prepared : PreparedHandoff) (rest : List String)
  | pausing (prepared : PreparedHandoff) (pause : PauseRelease) (rest : List String)
  | capturing (prepared : PreparedHandoff) (pause : PauseRelease) (rest : List String)
  | appending (prepared : PreparedHandoff) (pause : PauseRelease) (state : HandoffState)
      (rest : List String)
  | releasing (releases : List PauseRelease) (err : Option String)
  /-- `PrepareHandoff` returned the prepared handoff. -/
  | returned (prepared : PreparedHandoff)
  /-- `PrepareHandoff` returned an error. -/
  | failed (err : String)
  /-- `Release` was called and has returned. -/
  | released
  | panicked

structure HandoffDaemon where
  operations : Operations
  attachments : String → ShadowAttachment := fun _ => {}
  /-- The sessions whose process has ended. -/
  ended : List String := []
  /-- The session whose watcher holds `operations.mu`. -/
  mu : Option String := none
  /-- The placement that was collected. -/
  topology : List HandoffTopologySession := []
  phase : PreparePhase := .idle

/-- One atomic step. -/
inductive HandoffStep
  /-- `PrepareHandoff` is called and walks the sessions in this order. -/
  | prepare (walk : List ManagedSession)
  | engineVersion (version : Except String String)
  | request
  | ready
  | contextDone (err : String)
  /-- The screens and the metadata of a paused pane. -/
  | capture (state : Except String (Bytes × Bytes × Bytes))
  | append
  | finish
  | release
  | releaseNext
  | unlock
  | pump (sessionID : String) (step : PumpStep)
  /-- The process of a pane ends. -/
  | exit (sessionID : String)
  /-- The watcher of a pane takes `operations.mu`. -/
  | watch (sessionID : String)
  /-- It tells the reader to stop, at once if the reader has ended, else after a while. -/
  | stopReader (sessionID : String)
  /-- The watcher clears the record. -/
  | clearRecord (sessionID : String) (diagnostic : Option String)

namespace HandoffDaemon

variable (daemon : HandoffDaemon)

def setAttachment (sessionID : String) (attachment : ShadowAttachment) : HandoffDaemon :=
  { daemon with attachments := Function.update daemon.attachments sessionID attachment }

/-- Run a release function. -/
def resume (pause : PauseRelease) : HandoffDaemon :=
  daemon.setAttachment pause.sessionID
    ((daemon.attachments pause.sessionID).resume pause.request)

/-- Release what was prepared and return an error. -/
def fail (prepared : PreparedHandoff) (err : String) : HandoffDaemon :=
  { daemon with phase := .releasing prepared.releases (some err) }

/-- The locked part of `PrepareHandoff`. -/
def collect (walk : List ManagedSession) : HandoffDaemon :=
  if daemon.operations.handoffPrepared then
    { daemon with phase := .failed MuxError.handoffInProgress.message }
  else if walk = [] then
    { daemon with phase := .failed "mux handoff requires at least one live pane" }
  else
    match walk.find? fun session => session.pane = none ∨ session.attached = false with
    | some session =>
      { daemon with
        phase := .failed ("mux handoff cannot transfer exited pane " ++ session.paneID) }
    | none =>
      let (operations, topology) := daemon.operations.handoffTopology
      { daemon with
        operations := { operations with handoffPrepared := true }
        topology
        phase := .versioning (sortedKeys (walk.map (·.id))) }

/-- The error of a pane's attachment. -/
def paneError (session : ManagedSession) (err : String) : String :=
  "prepare mux handoff pane " ++ session.paneID ++ ": " ++ err

/-- The entry of a pane in the manifest. -/
def handoffPane (session : ManagedSession) (pane : Pane) (state : HandoffState) (index : ℕ) :
    HandoffPane :=
  { sessionID := session.id
    paneID := session.paneID
    key := session.key
    projectID := session.projectID
    broadcastGroup := session.broadcastGroup
    logicalSessionID := session.logicalSessionID
    windowID := session.windowID
    broadcastScope := session.broadcastScope
    broadcast := session.broadcast
    pinned := session.pinned
    masterIndex := index
    processGroupID := pane.processGroupID
    leaderStartToken := pane.leaderStartToken
    boundary := state.boundary
    snapshot := state.snapshot
    primarySnapshot := state.primarySnapshot
    metadata := state.metadata }

/-- What the code appends once a pane is captured. -/
def extend (prepared : PreparedHandoff) (pause : PauseRelease) (session : ManagedSession)
    (pane : Pane) (state : HandoffState) : PreparedHandoff :=
  { manifest := { prepared.manifest with
      panes := prepared.manifest.panes ++
        [handoffPane session pane state prepared.manifest.panes.length] }
    masters := prepared.masters ++ [pane.descriptor]
    releases := prepared.releases ++ [pause] }

/-- Ask the reader of the next session to pause. The type assertion on a cleared attachment
panics. -/
def requestNext (prepared : PreparedHandoff) (sessionID : String) (rest : List String) :
    HandoffDaemon :=
  match findSession daemon.operations.sessions sessionID with
  | some session =>
    if session.attached = false then { daemon with phase := .panicked }
    else if (daemon.attachments sessionID).handoffRequest.isSome then
      daemon.fail prepared (paneError session "mux handoff already in progress")
    else
      { daemon.setAttachment sessionID (daemon.attachments sessionID).request with
        phase := .pausing prepared
          ⟨sessionID, (daemon.attachments sessionID).requests.length⟩ rest }
  | none => { daemon with phase := .panicked }

/-- The watcher clears the record of its pane and lets `operations.mu` go. -/
def clear (sessionID : String) (diagnostic : Option String) : HandoffDaemon :=
  { daemon with
    mu := none
    operations := { daemon.operations with
      sessions := updateSession daemon.operations.sessions sessionID (exited diagnostic) } }

/-- The id of the pane of a session, for an error. -/
def paneIDOf (sessionID : String) : String :=
  ((findSession daemon.operations.sessions sessionID).map (·.paneID)).getD ""

/-- One atomic step. -/
def step (daemon : HandoffDaemon) : HandoffStep → Option HandoffDaemon
  | .prepare walk =>
    match daemon.phase with
    | .idle | .failed _ | .released =>
      if daemon.mu = none ∧ walk.Perm daemon.operations.sessions then some (daemon.collect walk)
      else none
    | _ => none
  | .engineVersion version =>
    match daemon.phase with
    | .versioning rest =>
      match version with
      | .error err => some { daemon with phase := .releasing [] (some err) }
      | .ok engineVersion =>
        some { daemon with
          phase := .visiting
            { manifest :=
                { engineVersion
                  topology := daemon.topology
                  activeLogicalByProject := daemon.operations.activeLogicalByProject } } rest }
    | _ => none
  | .request =>
    match daemon.phase with
    | .visiting prepared (sessionID :: rest) => some (daemon.requestNext prepared sessionID rest)
    | _ => none
  | .ready =>
    match daemon.phase with
    | .pausing prepared pause rest =>
      match (daemon.attachments pause.sessionID).requests[pause.request]? with
      | some request =>
        if request.paused then some { daemon with phase := .capturing prepared pause rest }
        else none
      | none => none
    | _ => none
  | .contextDone err =>
    match daemon.phase with
    | .pausing prepared pause _ =>
      some ((daemon.setAttachment pause.sessionID
        ((daemon.attachments pause.sessionID).abortHandoffRequest pause.request)).fail prepared
          ("prepare mux handoff pane " ++ daemon.paneIDOf pause.sessionID ++
            ": pause mux handoff reader: " ++ err))
    | _ => none
  | .capture state =>
    match daemon.phase with
    | .capturing prepared pause rest =>
      match state with
      | .error err =>
        some ((daemon.resume pause).fail prepared
          ("prepare mux handoff pane " ++ daemon.paneIDOf pause.sessionID ++ ": " ++ err))
      | .ok (snapshot, primarySnapshot, metadata) =>
        some { daemon with
          phase := .appending prepared pause { snapshot, primarySnapshot, metadata } rest }
    | _ => none
  | .append =>
    match daemon.phase with
    | .appending prepared pause state rest =>
      match findSession daemon.operations.sessions pause.sessionID with
      | some session =>
        match session.pane with
        | some pane =>
          some { daemon with phase := .visiting (extend prepared pause session pane state) rest }
        | none => some { daemon with phase := .panicked }
      | none => some { daemon with phase := .panicked }
    | _ => none
  | .finish =>
    match daemon.phase with
    | .visiting prepared [] =>
      match prepared.manifest.validate with
      | .ok () => some { daemon with phase := .returned prepared }
      | .error err => some (daemon.fail prepared err)
    | _ => none
  | .release =>
    match daemon.phase with
    | .returned prepared => some { daemon with phase := .releasing prepared.releases none }
    | .released => some daemon
    | _ => none
  | .releaseNext =>
    match daemon.phase with
    | .releasing (pause :: rest) err =>
      some { daemon.resume pause with phase := .releasing rest err }
    | _ => none
  | .unlock =>
    match daemon.phase with
    | .releasing [] err =>
      if daemon.mu = none then
        some { daemon with
          operations := { daemon.operations with handoffPrepared := false }
          phase := match err with
            | some err => .failed err
            | none => .released }
      else none
    | _ => none
  | .pump sessionID step =>
    ((daemon.attachments sessionID).pumpStep step).map (daemon.setAttachment sessionID)
  | .exit sessionID => some { daemon with ended := sessionID :: daemon.ended }
  | .watch sessionID =>
    match findSession daemon.operations.sessions sessionID with
    | some session =>
      if daemon.mu = none ∧ sessionID ∈ daemon.ended ∧ session.pane.isSome then
        some { daemon with mu := some sessionID }
      else none
    | none => none
  | .stopReader sessionID =>
    if daemon.mu = some sessionID then
      some (daemon.setAttachment sessionID (daemon.attachments sessionID).stopPump)
    else none
  | .clearRecord sessionID diagnostic =>
    if daemon.mu = some sessionID ∧ (daemon.attachments sessionID).pump = .ended then
      some (daemon.clear sessionID diagnostic)
    else none

end HandoffDaemon

end AgentCockpit.Mux
