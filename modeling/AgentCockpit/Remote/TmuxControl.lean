import AgentCockpit.Core.Run
import AgentCockpit.Remote.ControlParser

/-!
# The remote tmux control manager

One manager drives a tmux control client over channels that an opener provides. The
manager, its channels and the runtime that delivers their events form one labelled system:
a label is one turn of the event loop, that is one call, one timer, one settled opener, or
one event of a channel. What happens within a turn, promise callbacks included, is one step.

A channel keeps every command line written to it and every chunk it emitted. Its events
may be delivered at any later step. Timing enters only through the labels: which timer
fires, and when an age threshold is crossed. Diagnostics are left out.
-/

namespace AgentCockpit.Remote

/-- After this many reattaches without a stable channel the manager gives up. -/
def maxReattach : ℕ := 4

/-- A command that waits for its reply. -/
structure PendingCommand where
  id : ℕ
  tolerateErrors : Bool
  deriving DecidableEq, Repr

/-- How a command's promise settles. -/
inductive Outcome
  | resolved (reply : CommandReply)
  | rejected (message : String)
  deriving DecidableEq, Repr

/-- A command line on a channel. -/
structure WrittenCommand where
  id : ℕ
  line : String
  deriving DecidableEq, Repr

/-- A channel and what has happened on it. -/
structure ControlChannel where
  /-- The manager registered its handlers. -/
  wired : Bool
  written : List WrittenCommand := []
  chunks : List Text := []
  /-- The number of chunks whose data event was delivered. -/
  delivered : ℕ := 0
  /-- The manager closed the channel. -/
  closed : Bool := false
  /-- The other end closed the channel. -/
  dropped : Bool := false
  closeDelivered : Bool := false
  deriving DecidableEq, Repr

namespace ControlChannel

def write (channel : ControlChannel) (command : WrittenCommand) : ControlChannel :=
  { channel with written := channel.written ++ [command] }

def produce (channel : ControlChannel) (chunk : Text) : ControlChannel :=
  { channel with chunks := channel.chunks ++ [chunk] }

/-- The data event of the next chunk. -/
def deliver (channel : ControlChannel) : ControlChannel :=
  { channel with delivered := channel.delivered + 1 }

def close (channel : ControlChannel) : ControlChannel := { channel with closed := true }

def drop (channel : ControlChannel) : ControlChannel := { channel with dropped := true }

/-- The close event. -/
def deliverClose (channel : ControlChannel) : ControlChannel :=
  { channel with closeDelivered := true }

end ControlChannel

/-- Where an attach in flight is suspended. -/
inductive OpeningPhase
  | awaitingChannel
  | injecting (channel : ℕ)
  deriving DecidableEq, Repr

/-- The attach in flight. -/
structure Opening where
  phase : OpeningPhase
  /-- This is the second attach of `attachOrRetry`. -/
  retried : Bool := false
  /-- The reattach timers that wait for it. -/
  waiting : ℕ := 0
  deriving DecidableEq, Repr

/-- What the notification handlers receive. -/
inductive ControlNotice
  | attached (epoch : ℕ)
  | exit (reason : Option Text)
  | other (line : Text)
  deriving DecidableEq, Repr

structure RemoteTmuxControlManager where
  /-- The manager injects a session environment. -/
  injection : Bool
  channels : List ControlChannel := []
  channel : Option ℕ := none
  parser : TmuxControlParser := {}
  pending : List PendingCommand := []
  closed : Bool := false
  reattachAttempt : ℕ := 0
  epoch : ℕ := 0
  sawInitialBlock : Bool := false
  opening : Option Opening := none
  reattachTimer : Bool := false
  stableTimer : Bool := false
  watchdog : Bool := false
  lastExitReason : Option Text := none
  gaveUp : Bool := false
  nextCommand : ℕ := 0
  settled : List (ℕ × Outcome) := []
  emitted : List ControlNotice := []
  deriving DecidableEq, Repr

/-- One turn of the event loop. -/
inductive ControlStep
  | open_
  | close
  | command (args : String) (tolerateErrors : Bool)
  /-- The opener resolves; an injecting manager then sends these lines. -/
  | opened (environment : List String)
  | openFailed
  /-- A command of the first-pane strategy. -/
  | strategyCommand (args : String)
  /-- The wait for the session environment ends, by its replies or by its timeout. -/
  | injected
  /-- A channel emits a chunk. -/
  | produce (channel : ℕ) (chunk : Text)
  | drop (channel : ℕ)
  | data (channel : ℕ)
  | closeEvent (channel : ℕ)
  | reattach
  | stable
  | unresponsive
  deriving DecidableEq, Repr

namespace RemoteTmuxControlManager

variable (manager : RemoteTmuxControlManager)

def updateChannel (channel : ℕ) (f : ControlChannel → ControlChannel) : RemoteTmuxControlManager :=
  { manager with channels := manager.channels.modify channel f }

def emit (notice : ControlNotice) : RemoteTmuxControlManager :=
  { manager with emitted := manager.emitted ++ [notice] }

/-- Reject every command in flight. -/
def rejectPending (message : String) : RemoteTmuxControlManager :=
  { manager with
    settled := manager.settled ++ manager.pending.map fun command =>
      (command.id, .rejected message)
    pending := [] }

/-- Call `close` on the channel, if there is one, and forget it. -/
def closeChannel : RemoteTmuxControlManager :=
  match manager.channel with
  | none => manager
  | some channel =>
    ({ manager with channel := none } : RemoteTmuxControlManager).updateChannel channel (·.close)

def command (args : String) (tolerateErrors : Bool) : RemoteTmuxControlManager :=
  let id := manager.nextCommand
  match manager.channel with
  | none =>
    { manager with
      nextCommand := id + 1
      settled := manager.settled ++ [(id, .rejected "tmux control channel is not open")] }
  | some channel =>
    let manager : RemoteTmuxControlManager := { manager with
      nextCommand := id + 1
      pending := manager.pending ++ [⟨id, tolerateErrors⟩] }
    manager.updateChannel channel (·.write ⟨id, args ++ "\n"⟩)

/-- Send the lines of the session environment, one command for each. -/
def sendEnvironment (manager : RemoteTmuxControlManager) : List String → RemoteTmuxControlManager
  | [] => manager
  | line :: lines => (manager.command line true).sendEnvironment lines

/-- The error of a command that does not tolerate an error reply. -/
def commandError (reply : CommandReply) : String :=
  let detail := String.ofList (List.intercalate "; ".toList reply.lines)
  "tmux command error: " ++ if detail = "" then "tmux returned %error" else detail

/-- Settle a command from its reply, honoring its tolerance. -/
def settleCommand (command : PendingCommand) (reply : CommandReply) : ℕ × Outcome :=
  (command.id,
    if reply.error ∧ ¬ command.tolerateErrors then .rejected (commandError reply)
    else .resolved reply)

/-- One notification. The first block after an attach is tmux's own and takes no command. -/
def ingestOne (manager : RemoteTmuxControlManager) : TmuxNotification → RemoteTmuxControlManager
  | .reply reply =>
    if manager.sawInitialBlock = false then { manager with sawInitialBlock := true }
    else
      match manager.pending with
      | [] => manager
      | command :: pending =>
        { manager with pending, settled := manager.settled ++ [settleCommand command reply] }
  | .exit reason => emit { manager with lastExitReason := reason } (.exit reason)
  | .other line => manager.emit (.other line)

def ingest (chunk : Text) : RemoteTmuxControlManager :=
  let (parser, notifications) := manager.parser.feed chunk
  notifications.foldl ingestOne { manager with parser }

/-- A lost channel is opened again after a delay, a bounded number of times. -/
def scheduleReattach : RemoteTmuxControlManager :=
  if maxReattach ≤ manager.reattachAttempt then
    emit { manager with gaveUp := true }
      (.exit (some (manager.lastExitReason.getD "reattach exhausted".toList)))
  else
    { manager with reattachAttempt := manager.reattachAttempt + 1, reattachTimer := true }

/-- The rejection handler of a reattach timer. -/
def reattachFailed : RemoteTmuxControlManager :=
  if manager.closed then manager else manager.scheduleReattach

/-- Begin an attach with a fresh parser. -/
def startAttach (retried : Bool) (waiting : ℕ) : RemoteTmuxControlManager :=
  { manager with parser := {}, opening := some ⟨.awaitingChannel, retried, waiting⟩ }

/-- The attach in flight is settled. -/
def finishOpening : RemoteTmuxControlManager := { manager with opening := none }

/-- The attach in flight is rejected, and so are the timers that wait for it. -/
def rejectOpening (waiting : ℕ) : RemoteTmuxControlManager :=
  reattachFailed^[waiting] manager.finishOpening

/-- Single-flight attach; `waiting` counts the callers that handle a rejection. -/
def ensureOpen (waiting : ℕ) : RemoteTmuxControlManager :=
  match manager.opening with
  | some opening =>
    { manager with opening := some { opening with waiting := opening.waiting + waiting } }
  | none => startAttach { manager with reattachTimer := false } false waiting

/-- `open`: join the attach in flight, leave it to a pending reattach, or attach. -/
def open_ : RemoteTmuxControlManager :=
  if manager.channel.isSome ∧ manager.opening.isNone then manager
  else
    let manager : RemoteTmuxControlManager := { manager with closed := false }
    if manager.opening.isSome then manager
    else if manager.reattachTimer ∧ ¬ manager.gaveUp then manager
    else if manager.gaveUp then
      ensureOpen { manager with gaveUp := false, reattachAttempt := 0 } 0
    else manager.ensureOpen 0

/-- Announce the channel. -/
def announce : RemoteTmuxControlManager :=
  emit { manager with epoch := manager.epoch + 1 } (.attached (manager.epoch + 1))

/-- Continue an attach with the channel that the opener provided. -/
def opened (opening : Opening) (environment : List String) : RemoteTmuxControlManager :=
  let id := manager.channels.length
  if manager.closed then
    finishOpening { manager with
      channels := manager.channels ++ [{ wired := false, closed := true }] }
  else
    let manager : RemoteTmuxControlManager := { manager with
      channels := manager.channels ++ [{ wired := true }]
      channel := some id
      lastExitReason := none
      sawInitialBlock := false
      stableTimer := true
      watchdog := true }
    if manager.injection then
      { manager.sendEnvironment environment with
        opening := some { opening with phase := .injecting id } }
    else manager.announce.finishOpening

/-- Continue an attach after the session environment. -/
def injected (opening : Opening) (channel : ℕ) : RemoteTmuxControlManager :=
  if manager.channel = some channel then manager.announce.finishOpening
  else if manager.closed ∨ manager.reattachTimer ∨ manager.gaveUp then manager.finishOpening
  else if opening.retried then manager.rejectOpening opening.waiting
  else manager.startAttach true opening.waiting

/-- A channel is gone: its commands fail, and unless the manager was closed it is opened
again. -/
def onClose (channel : ℕ) : RemoteTmuxControlManager :=
  let manager : RemoteTmuxControlManager := { manager with channel := none, stableTimer := false }
  let manager := (manager.rejectPending "tmux control channel closed").updateChannel channel
    (·.deliverClose)
  if manager.closed then manager.emit (.exit manager.lastExitReason) else manager.scheduleReattach

def close : RemoteTmuxControlManager :=
  closeChannel { manager with
    closed := true, reattachTimer := false, stableTimer := false, watchdog := false }

/-- One turn of the event loop. A channel emits one unsolicited reply block and then at
most one for each command written to it. -/
def step (manager : RemoteTmuxControlManager) : ControlStep → Option RemoteTmuxControlManager
  | .open_ => some manager.open_
  | .close => some manager.close
  | .command args tolerateErrors => some (manager.command args tolerateErrors)
  | .opened environment =>
    match manager.opening with
    | some opening =>
      if opening.phase = .awaitingChannel then some (manager.opened opening environment) else none
    | none => none
  | .openFailed =>
    match manager.opening with
    | some opening =>
      if opening.phase = .awaitingChannel then some (manager.rejectOpening opening.waiting)
      else none
    | none => none
  | .strategyCommand args =>
    match manager.opening with
    | some ⟨.injecting channel, _, _⟩ =>
      if manager.channel = some channel then some (manager.command args true) else some manager
    | _ => none
  | .injected =>
    match manager.opening with
    | some opening =>
      match opening.phase with
      | .injecting channel => some (manager.injected opening channel)
      | .awaitingChannel => none
    | none => none
  | .produce id chunk =>
    match manager.channels[id]? with
    | some channel =>
      if (repliesOf (channel.chunks ++ [chunk])).length ≤ channel.written.length + 1 then
        some (manager.updateChannel id (·.produce chunk))
      else none
    | none => none
  | .drop id =>
    if id < manager.channels.length then
      some (manager.updateChannel id (·.drop))
    else none
  | .data id =>
    match manager.channels[id]? with
    | some channel =>
      match channel.chunks[channel.delivered]? with
      | some chunk =>
        if channel.wired then
          some ((manager.updateChannel id (·.deliver)).ingest chunk)
        else none
      | none => none
    | none => none
  | .closeEvent id =>
    match manager.channels[id]? with
    | some channel =>
      if channel.wired ∧ (channel.closed ∨ channel.dropped) ∧ ¬ channel.closeDelivered then
        some (manager.onClose id)
      else none
    | none => none
  | .reattach =>
    if manager.reattachTimer then
      let manager : RemoteTmuxControlManager := { manager with reattachTimer := false }
      some (if manager.closed then manager else manager.ensureOpen 1)
    else none
  | .stable =>
    if manager.stableTimer then some { manager with stableTimer := false, reattachAttempt := 0 }
    else none
  | .unresponsive =>
    if manager.watchdog ∧ manager.pending ≠ [] then
      some (manager.rejectPending "tmux control unresponsive").closeChannel
    else none

end RemoteTmuxControlManager

end AgentCockpit.Remote
