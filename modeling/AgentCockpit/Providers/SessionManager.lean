import AgentCockpit.Core.Family
import Mathlib.Data.List.DropRight

/-!
# The session manager

Every project has at most one session, the provider that `sessions` holds for it. A session owns a
watch on the project root, started on the edge into `connected` and stopped on the edge into
`disconnected` or `failed` and on eviction, and a watch on the active worktree while that worktree
lies outside of the root.

The methods are asynchronous: each step runs one of them up to its next suspension, and the calls
that are suspended are part of the state. Providers are the environment; their status changes along
the edges of the connection machine, their `connect` succeeds or fails at any later time, and so do
their subscriptions. Projects share nothing, so the manager is a family of them.
-/

namespace AgentCockpit.Providers

open AgentCockpit.Core

inductive ConnectionState
  | disconnected | connecting | connected | reconnecting | failed
  deriving DecidableEq, Repr

/-- The transitions that a connection machine accepts. -/
def isLegal : ConnectionState → ConnectionState → Bool
  | .disconnected, .connecting
  | .connecting, .connected
  | .connecting, .failed
  | .connecting, .disconnected
  | .connected, .disconnected
  | .connected, .reconnecting
  | .reconnecting, .connected
  | .reconnecting, .failed
  | .failed, .connecting => true
  | _, _ => false

abbrev Path := List Char

/-- A path without its trailing slashes, unless it is one character. -/
def stripTrailingSlash (path : Path) : Path :=
  if 1 < path.length then path.rdropWhile (· = '/') else path

/-- Neither the base nor below it. -/
def isExternalPath (path base : Path) : Bool :=
  path ≠ base ∧ ¬ (base ++ ['/']) <+: path

inductive ProjectKind
  | local_ | remote
  deriving DecidableEq, Repr

structure ConnectionSpec where
  kind : ProjectKind
  /-- The root path of a local project, the remote path of a remote one. -/
  path : Path
  deriving DecidableEq, Repr

structure Provider where
  kind : ProjectKind
  /-- The state of its connection machine. -/
  state : ConnectionState
  /-- Its `connect` is in flight. -/
  connecting : Bool := true
  /-- Its `connect` has succeeded, and no `disconnect` has settled since. -/
  connected : Bool := false
  deriving DecidableEq, Repr

/-- A provider of a local project is connected from the start. -/
def Provider.create (kind : ProjectKind) : Provider :=
  match kind with
  | .local_ => { kind, state := .connected }
  | .remote => { kind, state := .disconnected }

inductive WatchPhase
  | subscribing
  /-- The provider has handed the subscription out. -/
  | live
  /-- A `stopWatch` goes on with the watch of the worktree after that. -/
  | unsubscribing (stopping : Bool)
  | unsubscribed
  | failed
  deriving DecidableEq, Repr

/-- A call of `startWatch`, with its subscription. -/
structure Watch where
  provider : ℕ
  phase : WatchPhase := .subscribing
  deriving DecidableEq, Repr

inductive WorktreePhase
  /-- It waits until the former subscription has ended. -/
  | stopping (former : Option ℕ)
  | subscribing (provider : ℕ)
  | live (provider : ℕ)
  | unsubscribing (provider : ℕ)
  | unsubscribed (provider : ℕ)
  /-- It needs no watch, or could not have one. -/
  | finished
  deriving DecidableEq, Repr

/-- A call of `setActiveWorktree`, with its subscription. -/
structure WorktreeRequest where
  target : Option Path
  seq : ℕ
  phase : WorktreePhase
  deriving DecidableEq, Repr

/-- A call of a provider's `disconnect`. -/
structure DisconnectCall where
  provider : ℕ
  /-- A `reconnect` opens the project again after it. -/
  reopens : Bool
  deriving DecidableEq, Repr

/-- What the manager holds for one project. -/
structure Project where
  providers : List Provider := []
  /-- The provider in `sessions`. -/
  session : Option ℕ := none
  /-- The provider whose status listener is wired. -/
  statusOff : Option ℕ := none
  lastState : Option ConnectionState := none
  watches : List Watch := []
  watchSub : Option ℕ := none
  requests : List WorktreeRequest := []
  worktreeWatchSub : Option ℕ := none
  worktreeWatchSeq : Option ℕ := none
  disconnects : List DisconnectCall := []
  /-- The last target that was requested of the live session. -/
  requested : Option (Option Path) := none
  deriving DecidableEq, Repr

inductive ProjectStep
  | open_
  | disconnect
  | reconnect
  | close
  | setActiveWorktree (worktreePath : Option Path)
  /-- The connection machine of a provider accepts a transition. -/
  | transition (provider : ℕ) (state : ConnectionState)
  | shortCircuitConnected (provider : ℕ)
  | connected (provider : ℕ)
  | connectFailed (provider : ℕ)
  /-- A call of `disconnect` settles. -/
  | disconnected (call : ℕ)
  | subscribed (watch : ℕ)
  | subscribeFailed (watch : ℕ)
  | unsubscribed (watch : ℕ)
  /-- A `setActiveWorktree` goes on after the former watch has ended. -/
  | resume (request : ℕ)
  | worktreeSubscribed (request : ℕ)
  | worktreeSubscribeFailed (request : ℕ)
  | worktreeUnsubscribed (request : ℕ)
  deriving DecidableEq, Repr

namespace Project

variable (loadSpec : Option ConnectionSpec) (project : Project)

def setWatch (id : ℕ) (phase : WatchPhase) : Project :=
  { project with watches := project.watches.modify id ({ · with phase }) }

def setRequest (id : ℕ) (phase : WorktreePhase) : Project :=
  { project with requests := project.requests.modify id ({ · with phase }) }

/-- The path of the recorded worktree watch. -/
def worktreePath : Option Path :=
  (project.worktreeWatchSub.bind (project.requests[·]?)).bind (·.target)

/-- A subscription to a worktree is given back. -/
def unsubscribeWorktree (request : WorktreeRequest) : WorktreeRequest :=
  match request.phase with
  | .live provider => { request with phase := .unsubscribing provider }
  | _ => request

def stopWorktreeWatch : Project :=
  match project.worktreeWatchSub with
  | some id => { project with
      worktreeWatchSub := none, requests := project.requests.modify id unsubscribeWorktree }
  | none => project

/-- The session's watches end: the watch of the worktree after the other one. -/
def stopWatch : Project :=
  let project := { project with requested := none }
  match project.watchSub with
  | some id => { project.setWatch id (.unsubscribing true) with watchSub := none }
  | none => project.stopWorktreeWatch

def startWatch : Project :=
  match project.watchSub, project.session with
  | none, some provider => { project with watches := project.watches ++ [{ provider }] }
  | _, _ => project

def handleStatus (state : ConnectionState) : Project :=
  let prev := project.lastState
  let project := { project with lastState := some state }
  match state with
  | .connected => if prev = some .connected then project else project.startWatch
  | .disconnected | .failed => project.stopWatch
  | .connecting | .reconnecting => project

def unwireStatus : Project := { project with statusOff := none }

def notifyEviction : Project :=
  { project.stopWatch with lastState := none, worktreeWatchSeq := none }

/-- The session leaves the maps. -/
def evict : Project := { project.notifyEviction.unwireStatus with session := none }

def callDisconnect (provider : ℕ) (reopens : Bool) : Project :=
  { project with disconnects := project.disconnects ++ [⟨provider, reopens⟩] }

/-- The status of a provider changes, and its listener hears of it if it is wired. -/
def emit (id : ℕ) (state : ConnectionState) : Project :=
  let project := { project with providers := project.providers.modify id ({ · with state }) }
  if project.statusOff = some id then project.handleStatus state else project

def openProject : Project :=
  match project.session, loadSpec with
  | none, some spec =>
    let provider := Provider.create spec.kind
    let id := project.providers.length
    { project with
      providers := project.providers ++ [provider]
      session := some id
      statusOff := some id }.handleStatus provider.state
  | _, _ => project

/-- The connect of a provider has succeeded. -/
def connected (id : ℕ) : Project :=
  { project with providers :=
      project.providers.modify id ({ · with connecting := false, connected := true }) }

/-- The connect of a provider has failed: the project's entries are cleaned up. -/
def connectFailed (id : ℕ) : Project :=
  { project with providers := project.providers.modify id ({ · with connecting := false })
    }.evict.callDisconnect id false

def reconnect : Project :=
  match project.session with
  | some provider => project.evict.callDisconnect provider true
  | none => project.openProject loadSpec

def close : Project :=
  match project.session with
  | some provider => project.evict.callDisconnect provider false
  | none => project

/-- A call of `disconnect` has settled. -/
def disconnected (id : ℕ) (call : DisconnectCall) : Project :=
  let project := { project with
    providers := project.providers.modify call.provider ({ · with connected := false })
    disconnects := project.disconnects.eraseIdx id }
  if call.reopens then project.openProject loadSpec else project

/-- The provider has handed out the subscription of a `startWatch`. -/
def subscribed (id : ℕ) (watch : Watch) : Project :=
  if project.session = some watch.provider then
    { project.setWatch id .live with watchSub := some id }
  else project.setWatch id (.unsubscribing false)

def normalizeTarget : Option Path → Option Path
  | none | some [] => none
  | some path => some (stripTrailingSlash path)

/-- The target needs a watch of its own. -/
def isExternalTarget : Option Path → Bool
  | some path => loadSpec.any fun spec => isExternalPath path (stripTrailingSlash spec.path)
  | none => false

def nextSeq : ℕ := project.worktreeWatchSeq.getD 0 + 1

def setActiveWorktree (worktreePath : Option Path) : Project :=
  let target := normalizeTarget worktreePath
  let project := { project with requested := project.session.map fun _ => target }
  if project.worktreePath = target then project
  else
    let seq := project.nextSeq
    let former := project.worktreeWatchSub
    let project := { project with worktreeWatchSeq := some seq }.stopWorktreeWatch
    { project with requests := project.requests ++ [⟨target, seq, .stopping former⟩] }

/-- The subscription that a request waits for has ended. -/
def hasEnded (former : Option ℕ) : Bool :=
  former.all fun id => (project.requests[id]?).any fun request =>
    match request.phase with
    | .unsubscribed _ => true
    | _ => false

/-- A `setActiveWorktree` goes on to subscribe, if its target needs it. -/
def resumeRequest (id : ℕ) (request : WorktreeRequest) : Project :=
  match project.session with
  | some provider =>
    if isExternalTarget loadSpec request.target then
      project.setRequest id (.subscribing provider)
    else project.setRequest id .finished
  | none => project.setRequest id .finished

/-- The provider has handed out a subscription to a worktree. -/
def worktreeSubscribed (id provider seq : ℕ) : Project :=
  if project.session = some provider ∧ project.worktreeWatchSeq = some seq then
    { project.setRequest id (.live provider) with worktreeWatchSub := some id }
  else project.setRequest id (.unsubscribing provider)

/-- A subscription to a worktree has failed; the request of the live session is not served. -/
def worktreeSubscribeFailed (id provider seq : ℕ) : Project :=
  if project.session = some provider ∧ project.worktreeWatchSeq = some seq then
    { project.setRequest id .finished with requested := none }
  else project.setRequest id .finished

/-- One method of the manager runs to its next suspension. -/
def step (project : Project) : ProjectStep → Option Project
  | .open_ => some (project.openProject loadSpec)
  | .disconnect => some (match project.session with
      | some provider => project.callDisconnect provider false
      | none => project)
  | .reconnect => some (project.reconnect loadSpec)
  | .close => some project.close
  | .setActiveWorktree worktreePath => some (project.setActiveWorktree worktreePath)
  | .transition id state =>
    if (project.providers[id]?).any (isLegal ·.state state) then some (project.emit id state)
    else none
  | .shortCircuitConnected id =>
    if (project.providers[id]?).any (·.kind = .local_) then some (project.emit id .connected)
    else none
  | .connected id =>
    if (project.providers[id]?).any (·.connecting) then some (project.connected id) else none
  | .connectFailed id =>
    if (project.providers[id]?).any (·.connecting) then some (project.connectFailed id) else none
  | .disconnected id =>
    match project.disconnects[id]? with
    | some call => some (project.disconnected loadSpec id call)
    | none => none
  | .subscribed id =>
    match project.watches[id]? with
    | some watch =>
      if watch.phase = .subscribing then some (project.subscribed id watch) else none
    | none => none
  | .subscribeFailed id =>
    match project.watches[id]? with
    | some watch =>
      if watch.phase = .subscribing then some (project.setWatch id .failed) else none
    | none => none
  | .unsubscribed id =>
    match project.watches[id]? with
    | some watch =>
      match watch.phase with
      | .unsubscribing true => some (project.setWatch id .unsubscribed).stopWorktreeWatch
      | .unsubscribing false => some (project.setWatch id .unsubscribed)
      | _ => none
    | none => none
  | .resume id =>
    match project.requests[id]? with
    | some request =>
      match request.phase with
      | .stopping former =>
        if project.hasEnded former then some (project.resumeRequest loadSpec id request) else none
      | _ => none
    | none => none
  | .worktreeSubscribed id =>
    match project.requests[id]? with
    | some request =>
      match request.phase with
      | .subscribing provider => some (project.worktreeSubscribed id provider request.seq)
      | _ => none
    | none => none
  | .worktreeSubscribeFailed id =>
    match project.requests[id]? with
    | some request =>
      match request.phase with
      | .subscribing provider => some (project.worktreeSubscribeFailed id provider request.seq)
      | _ => none
    | none => none
  | .worktreeUnsubscribed id =>
    match project.requests[id]? with
    | some request =>
      match request.phase with
      | .unsubscribing provider => some (project.setRequest id (.unsubscribed provider))
      | _ => none
    | none => none

/-! ### What the methods leave alone -/

section Frame

variable {loadSpec : Option ConnectionSpec} {id provider seq : ℕ} {request : WorktreeRequest}
  (project : Project)

/-- The two differ in what the manager holds for the active worktree. -/
def SameSession (project next : Project) : Prop :=
  ∃ requests worktreeWatchSub worktreeWatchSeq requested, next =
    { project with requests, worktreeWatchSub, worktreeWatchSeq, requested }

theorem stopWorktreeWatch_requests : project.stopWorktreeWatch.requests =
    match project.worktreeWatchSub with
    | some id => project.requests.modify id unsubscribeWorktree
    | none => project.requests := by
  unfold stopWorktreeWatch
  split
  · rfl
  · rfl

theorem stopWorktreeWatch_eq : project.stopWorktreeWatch =
    { project with requests := project.stopWorktreeWatch.requests, worktreeWatchSub := none } := by
  rw [stopWorktreeWatch_requests]
  unfold stopWorktreeWatch
  split
  · rfl
  · next hnone => rw [← hnone]

theorem stopWorktreeWatch_frame : SameSession project project.stopWorktreeWatch :=
  ⟨_, _, _, _, project.stopWorktreeWatch_eq⟩

/-- A target that is not watched already takes the next number, and the watch is given back. -/
theorem setActiveWorktree_eq (worktreePath : Option Path) :
    project.setActiveWorktree worktreePath =
      if project.worktreePath = normalizeTarget worktreePath then
        { project with requested := project.session.map fun _ => normalizeTarget worktreePath }
      else { project with
        requested := project.session.map fun _ => normalizeTarget worktreePath
        worktreeWatchSeq := some project.nextSeq
        worktreeWatchSub := none
        requests := project.stopWorktreeWatch.requests ++ [⟨normalizeTarget worktreePath,
          project.nextSeq, .stopping project.worktreeWatchSub⟩] } := by
  unfold setActiveWorktree
  dsimp only
  rw [stopWorktreeWatch_eq, stopWorktreeWatch_requests, stopWorktreeWatch_requests]
  rfl

theorem setActiveWorktree_frame (worktreePath : Option Path) :
    SameSession project (project.setActiveWorktree worktreePath) := by
  rw [setActiveWorktree_eq]
  split
  · exact ⟨_, _, _, _, rfl⟩
  · exact ⟨_, _, _, _, rfl⟩

theorem resumeRequest_frame :
    SameSession project (project.resumeRequest loadSpec id request) := by
  unfold resumeRequest
  split
  · split
    · exact ⟨_, _, _, _, rfl⟩
    · exact ⟨_, _, _, _, rfl⟩
  · exact ⟨_, _, _, _, rfl⟩

theorem worktreeSubscribed_frame :
    SameSession project (project.worktreeSubscribed id provider seq) := by
  unfold worktreeSubscribed
  split
  · exact ⟨_, _, _, _, rfl⟩
  · exact ⟨_, _, _, _, rfl⟩

theorem worktreeSubscribeFailed_frame :
    SameSession project (project.worktreeSubscribeFailed id provider seq) := by
  unfold worktreeSubscribeFailed
  split
  · exact ⟨_, _, _, _, rfl⟩
  · exact ⟨_, _, _, _, rfl⟩

/-- A teardown changes the two watches. -/
theorem stopWatch_frame : ∃ watches requests worktreeWatchSub worktreeWatchSeq requested,
    project.stopWatch = { project with
      watches, requests, worktreeWatchSub, worktreeWatchSeq, requested, watchSub := none } := by
  unfold stopWatch
  dsimp only
  split
  · exact ⟨_, _, _, _, _, rfl⟩
  · next hnone =>
    obtain ⟨requests, worktreeWatchSub, worktreeWatchSeq, requested, heq⟩ :=
      stopWorktreeWatch_frame ({ project with requested := none } : Project)
    refine ⟨project.watches, requests, worktreeWatchSub, worktreeWatchSeq, requested, ?_⟩
    rw [heq, ← hnone]

end Frame

/-! ### What a step can do -/

/-- What the steps do, by the methods that they run. -/
inductive Takes (loadSpec : Option ConnectionSpec) (project : Project) :
    ProjectStep → Project → Prop
  | open_ : Takes loadSpec project .open_ (project.openProject loadSpec)
  | disconnect {id} (hsession : project.session = some id) :
      Takes loadSpec project .disconnect (project.callDisconnect id false)
  | evict {label id} (reopens : Bool) (hlabel : label = .reconnect ∨ label = .close)
      (hsession : project.session = some id) :
      Takes loadSpec project label (project.evict.callDisconnect id reopens)
  | reopen (hsession : project.session = none) :
      Takes loadSpec project .reconnect (project.openProject loadSpec)
  | idle {label} (hlabel : label = .disconnect ∨ label = .close)
      (hsession : project.session = none) : Takes loadSpec project label project
  | setActiveWorktree (worktreePath : Option Path) :
      Takes loadSpec project (.setActiveWorktree worktreePath)
        (project.setActiveWorktree worktreePath)
  | transition {id state provider} (hprovider : project.providers[id]? = some provider)
      (hlegal : isLegal provider.state state = true) :
      Takes loadSpec project (.transition id state) (project.emit id state)
  | shortCircuitConnected (id : ℕ) :
      Takes loadSpec project (.shortCircuitConnected id) (project.emit id .connected)
  | connected {id provider} (hprovider : project.providers[id]? = some provider)
      (hconnecting : provider.connecting = true) :
      Takes loadSpec project (.connected id) (project.connected id)
  | connectFailed {id provider} (hprovider : project.providers[id]? = some provider)
      (hconnecting : provider.connecting = true) :
      Takes loadSpec project (.connectFailed id) (project.connectFailed id)
  | disconnected {id call} (hcall : project.disconnects[id]? = some call) :
      Takes loadSpec project (.disconnected id) (project.disconnected loadSpec id call)
  | subscribed {id watch} (hwatch : project.watches[id]? = some watch)
      (hphase : watch.phase = .subscribing) :
      Takes loadSpec project (.subscribed id) (project.subscribed id watch)
  | subscribeFailed {id watch} (hwatch : project.watches[id]? = some watch)
      (hphase : watch.phase = .subscribing) :
      Takes loadSpec project (.subscribeFailed id) (project.setWatch id .failed)
  | unsubscribed {id watch} (hwatch : project.watches[id]? = some watch)
      (hphase : watch.phase = .unsubscribing false) :
      Takes loadSpec project (.unsubscribed id) (project.setWatch id .unsubscribed)
  | stopped {id watch} (hwatch : project.watches[id]? = some watch)
      (hphase : watch.phase = .unsubscribing true) :
      Takes loadSpec project (.unsubscribed id)
        (project.setWatch id .unsubscribed).stopWorktreeWatch
  | resume {id request former} (hrequest : project.requests[id]? = some request)
      (hphase : request.phase = .stopping former) (hended : project.hasEnded former = true) :
      Takes loadSpec project (.resume id) (project.resumeRequest loadSpec id request)
  | worktreeSubscribed {id request provider} (hrequest : project.requests[id]? = some request)
      (hphase : request.phase = .subscribing provider) :
      Takes loadSpec project (.worktreeSubscribed id)
        (project.worktreeSubscribed id provider request.seq)
  | worktreeSubscribeFailed {id request provider}
      (hrequest : project.requests[id]? = some request)
      (hphase : request.phase = .subscribing provider) :
      Takes loadSpec project (.worktreeSubscribeFailed id)
        (project.worktreeSubscribeFailed id provider request.seq)
  | worktreeUnsubscribed {id request provider} (hrequest : project.requests[id]? = some request)
      (hphase : request.phase = .unsubscribing provider) :
      Takes loadSpec project (.worktreeUnsubscribed id)
        (project.setRequest id (.unsubscribed provider))

theorem takes_of_step {loadSpec : Option ConnectionSpec} {project next : Project}
    {label : ProjectStep} (hstep : project.step loadSpec label = some next) :
    Takes loadSpec project label next := by
  cases label with
  | open_ =>
    obtain rfl := Option.some.inj hstep
    exact .open_
  | disconnect =>
    obtain rfl := Option.some.inj hstep
    split
    · exact .disconnect ‹_›
    · exact .idle (.inl rfl) ‹_›
  | reconnect =>
    obtain rfl := Option.some.inj hstep
    unfold reconnect
    split
    · exact .evict true (.inl rfl) ‹_›
    · exact .reopen ‹_›
  | close =>
    obtain rfl := Option.some.inj hstep
    unfold close
    split
    · exact .evict false (.inr rfl) ‹_›
    · exact .idle (.inr rfl) ‹_›
  | setActiveWorktree worktreePath =>
    obtain rfl := Option.some.inj hstep
    exact .setActiveWorktree worktreePath
  | transition id state =>
    obtain ⟨hany, rfl⟩ := of_ite_some hstep
    obtain ⟨provider, hprovider, hlegal⟩ := (Option.any_eq_true _ _).mp hany
    exact .transition hprovider hlegal
  | shortCircuitConnected id =>
    obtain ⟨_, rfl⟩ := of_ite_some hstep
    exact .shortCircuitConnected id
  | connected id =>
    obtain ⟨hany, rfl⟩ := of_ite_some hstep
    obtain ⟨provider, hprovider, hconnecting⟩ := (Option.any_eq_true _ _).mp hany
    exact .connected hprovider hconnecting
  | connectFailed id =>
    obtain ⟨hany, rfl⟩ := of_ite_some hstep
    obtain ⟨provider, hprovider, hconnecting⟩ := (Option.any_eq_true _ _).mp hany
    exact .connectFailed hprovider hconnecting
  | disconnected id =>
    simp only [step] at hstep
    split at hstep
    · obtain rfl := Option.some.inj hstep
      exact .disconnected ‹_›
    · exact nomatch hstep
  | subscribed id | subscribeFailed id =>
    simp only [step] at hstep
    split at hstep
    · obtain ⟨_, rfl⟩ := of_ite_some hstep
      constructor <;> assumption
    · exact nomatch hstep
  | unsubscribed id =>
    simp only [step] at hstep
    split at hstep
    · split at hstep
      · obtain rfl := Option.some.inj hstep
        exact .stopped ‹_› ‹_›
      · obtain rfl := Option.some.inj hstep
        exact .unsubscribed ‹_› ‹_›
      · exact nomatch hstep
    · exact nomatch hstep
  | resume id =>
    simp only [step] at hstep
    split at hstep
    · split at hstep
      · obtain ⟨_, rfl⟩ := of_ite_some hstep
        exact .resume ‹_› ‹_› ‹_›
      · exact nomatch hstep
    · exact nomatch hstep
  | worktreeSubscribed id | worktreeSubscribeFailed id | worktreeUnsubscribed id =>
    simp only [step] at hstep
    split at hstep
    · split at hstep
      · obtain rfl := Option.some.inj hstep
        constructor <;> assumption
      · exact nomatch hstep
    · exact nomatch hstep

end Project

/-- The manager holds an entry for every project; one that was never opened has nothing. -/
abbrev SessionManager := String → Project

/-- A step of the manager for one project. -/
def SessionManager.step (loadSpec : String → Option ConnectionSpec) :
    SessionManager → String × ProjectStep → Option SessionManager :=
  familyStep fun projectId => Project.step (loadSpec projectId)

end AgentCockpit.Providers
