import AgentCockpit.Core.Arena
import AgentCockpit.Remote.ControlLifecycle

/-!
# The local tmux control manager

The local manager drives a tmux control client on a pty that it spawns itself. It is the remote
manager without its openers and its reattach: a pty is a channel whose handlers are always
registered, killing it closes the channel, and its exit event is the close event. The parser
belongs to the manager and is not renewed when a pty is spawned, and a pty that the watchdog kills
stays the current one until its exit event.

What the manager promises holds in the runs in which a pty is spawned only after the exit event of
every earlier one and with a clean parser, and no command is written to a pty that was killed. The
proofs go through the remote manager's invariant.
-/

namespace AgentCockpit.Local

open AgentCockpit.Core AgentCockpit.Remote

structure LocalTmuxControlManager where
  ptys : List ControlChannel := []
  proc : Option ℕ := none
  parser : TmuxControlParser := {}
  pending : List PendingCommand := []
  opened : Bool := false
  epoch : ℕ := 0
  /-- The block that tmux emits on attach was read. -/
  sawInitialBlock : Bool := false
  watchdog : Bool := false
  nextCommand : ℕ := 0
  settled : List (ℕ × Outcome) := []
  emitted : List ControlNotice := []
  deriving DecidableEq, Repr

/-- One turn of the event loop. -/
inductive LocalStep
  | open_
  | close
  | command (args : String) (tolerateErrors : Bool)
  /-- A pty emits a chunk. -/
  | produce (pty : ℕ) (chunk : Text)
  /-- The process of a pty ends by itself. -/
  | end_ (pty : ℕ)
  | data (pty : ℕ)
  | exit (pty : ℕ)
  /-- The watchdog finds the oldest command too old. -/
  | unresponsive
  deriving DecidableEq, Repr

namespace LocalTmuxControlManager

variable (manager : LocalTmuxControlManager)

def updatePty (pty : ℕ) (f : ControlChannel → ControlChannel) : LocalTmuxControlManager :=
  { manager with ptys := manager.ptys.modify pty f }

def emit (notice : ControlNotice) : LocalTmuxControlManager :=
  { manager with emitted := manager.emitted ++ [notice] }

/-- Reject every command in flight. -/
def rejectPending (message : String) : LocalTmuxControlManager :=
  { manager with
    settled := manager.settled ++ manager.pending.map fun command =>
      (command.id, .rejected message)
    pending := [] }

/-- Kill the current pty, if there is one. -/
def kill : LocalTmuxControlManager :=
  match manager.proc with
  | none => manager
  | some pty => manager.updatePty pty (·.close)

/-- Spawn the control client. -/
def open_ : LocalTmuxControlManager :=
  if manager.opened then manager
  else
    emit { manager with
      ptys := manager.ptys ++ [{ wired := true }]
      proc := some manager.ptys.length
      opened := true
      sawInitialBlock := false
      epoch := manager.epoch + 1
      watchdog := true } (.attached (manager.epoch + 1))

/-- Detach the control client. -/
def close : LocalTmuxControlManager :=
  { manager.kill with opened := false, proc := none, watchdog := false }

def command (args : String) (tolerateErrors : Bool) : LocalTmuxControlManager :=
  let id := manager.nextCommand
  match manager.proc with
  | none =>
    { manager with
      nextCommand := id + 1
      settled := manager.settled ++ [(id, .rejected "tmux control session is not open")] }
  | some pty =>
    let manager : LocalTmuxControlManager := { manager with
      nextCommand := id + 1
      pending := manager.pending ++ [⟨id, tolerateErrors⟩] }
    manager.updatePty pty (·.write ⟨id, args ++ "\n"⟩)

/-- One notification. The first block after an attach is tmux's own and takes no command. -/
def ingestOne (manager : LocalTmuxControlManager) : TmuxNotification → LocalTmuxControlManager
  | .reply reply =>
    if manager.sawInitialBlock = false then { manager with sawInitialBlock := true }
    else
      match manager.pending with
      | [] => manager
      | command :: pending =>
        { manager with
          pending
          settled := manager.settled ++ [RemoteTmuxControlManager.settleCommand command reply] }
  | .exit reason => manager.emit (.exit reason)
  | .other line => manager.emit (.other line)

def ingest (chunk : Text) : LocalTmuxControlManager :=
  let (parser, notifications) := manager.parser.feed chunk
  notifications.foldl ingestOne { manager with parser }

/-- The exit event of a pty, which does not ask whether the pty is the current one. -/
def onExit (pty : ℕ) : LocalTmuxControlManager :=
  let manager : LocalTmuxControlManager := { manager with
    opened := false, proc := none, watchdog := false }
  ((manager.rejectPending "tmux control session exited").updatePty pty (·.deliverClose)).emit
    (.exit none)

/-- The watchdog fails the commands in flight and kills the pty, which stays current. -/
def failUnresponsive : LocalTmuxControlManager :=
  kill { manager.rejectPending "tmux control unresponsive" with watchdog := false }

/-- One turn of the event loop. A pty emits one unsolicited reply block and then at most one for
each command written to it. -/
def step (manager : LocalTmuxControlManager) : LocalStep → Option LocalTmuxControlManager
  | .open_ => some manager.open_
  | .close => some manager.close
  | .command args tolerateErrors => some (manager.command args tolerateErrors)
  | .produce id chunk =>
    match manager.ptys[id]? with
    | some pty =>
      if (repliesOf (pty.chunks ++ [chunk])).length ≤ pty.written.length + 1 then
        some (manager.updatePty id (·.produce chunk))
      else none
    | none => none
  | .end_ id =>
    if id < manager.ptys.length then some (manager.updatePty id (·.drop)) else none
  | .data id =>
    match manager.ptys[id]? with
    | some pty =>
      match pty.chunks[pty.delivered]? with
      | some chunk => some ((manager.updatePty id (·.deliver)).ingest chunk)
      | none => none
    | none => none
  | .exit id =>
    match manager.ptys[id]? with
    | some pty =>
      if (pty.closed ∨ pty.dropped) ∧ ¬ pty.closeDelivered then some (manager.onExit id) else none
    | none => none
  | .unresponsive =>
    if manager.watchdog ∧ manager.pending ≠ [] then some manager.failUnresponsive else none

/-! ### What is promised -/

/-- `reply` is what tmux sent to the command `id` on the pty it was written to; the first block
of a pty is tmux's own. -/
def Answers (id : ℕ) (reply : CommandReply) : Prop :=
  ∃ (i : ℕ) (pty : ControlChannel) (n : ℕ), manager.ptys[i]? = some pty ∧
    (pty.written.map (·.id))[n]? = some id ∧ pty.replies[n + 1]? = some reply

/-- Every command issued so far has settled once or waits; one that waits was written to a pty
whose exit event is still to come, and settles with that event at the latest; and one that
resolved did so with the reply to that very command. -/
structure CommandsSettle : Prop where
  once : (manager.settled.map (·.1) ++ manager.pending.map (·.id)).Perm
    (List.range manager.nextCommand)
  waiting : ∀ command ∈ manager.pending, ∃ (i : ℕ) (pty : ControlChannel),
    manager.ptys[i]? = some pty ∧ pty.closeDelivered = false ∧
      command.id ∈ pty.written.map (·.id) ∧
      ∀ next, manager.step (.exit i) = some next →
        ∃ outcome, (command.id, outcome) ∈ next.settled
  matched : ∀ id reply, (id, .resolved reply) ∈ manager.settled → manager.Answers id reply

/-- What the parser holds, and whether the first reply was seen, come from the bytes of the
current pty alone. -/
def ReadsOwn : Prop :=
  ∀ id pty, manager.proc = some id → manager.ptys[id]? = some pty →
    manager.parser = (({} : TmuxControlParser).read (pty.chunks.take pty.delivered)).1 ∧
      manager.sawInitialBlock = decide (0 < pty.read.length)

/-- An event of a pty other than the current one neither clears, drains nor feeds it, and emits
nothing. -/
def KeepsCurrent (label : LocalStep) (next : LocalTmuxControlManager) : Prop :=
  ∀ id current, label = .data id ∨ label = .exit id → manager.proc = some current →
    id ≠ current → next.proc = some current ∧ next.pending = manager.pending ∧
      next.settled = manager.settled ∧ next.parser = manager.parser ∧
      next.sawInitialBlock = manager.sawInitialBlock ∧ next.emitted = manager.emitted

/-- The exit event of every pty was delivered. -/
def AllExited : Prop :=
  ∀ (i : ℕ) (pty : ControlChannel), manager.ptys[i]? = some pty → pty.closeDelivered = true

/-- A pty is spawned once the exit event of every earlier one was delivered, with nothing left in
the parser; no command is written to a pty that was killed; and a pty delivers data after its exit
event only while every other one has had its own. -/
def Prompt : LocalStep → Prop
  | .open_ => manager.opened = false → manager.AllExited ∧ manager.parser = {}
  | .command _ _ => ∀ id pty, manager.proc = some id → manager.ptys[id]? = some pty →
      pty.closed = false
  | .data id => ∀ pty, manager.ptys[id]? = some pty → pty.closeDelivered = true →
      manager.AllExited
  | _ => True

/-! ### The local manager as the remote one -/

/-- The current pty, unless it was killed. -/
def running : Option ℕ :=
  manager.proc.filter fun id => !(manager.ptys[id]?).any (·.closed)

/-- The manager as the remote one: a pty that was killed is already forgotten. -/
def core : RemoteTmuxControlManager where
  injection := false
  channels := manager.ptys
  channel := manager.running
  parser := manager.parser
  pending := manager.pending
  sawInitialBlock := manager.sawInitialBlock
  nextCommand := manager.nextCommand
  settled := manager.settled
  emitted := manager.emitted

/-- The current pty is live, and all of them are listened to. -/
structure Current (manager : LocalTmuxControlManager) : Prop where
  live : ∀ id, manager.proc = some id →
    ∃ pty : ControlChannel, manager.ptys[id]? = some pty ∧ pty.Live
  opened : manager.opened = manager.proc.isSome
  wired : ∀ (i : ℕ) (pty : ControlChannel), manager.ptys[i]? = some pty → pty.wired = true

/-- The invariant of prompt runs. -/
structure Sound (manager : LocalTmuxControlManager) : Prop where
  core : manager.core.Sound
  current : manager.Current

variable {manager} {next : LocalTmuxControlManager} {id : ℕ} {pty : ControlChannel}

theorem sound_initial : Sound {} :=
  ⟨RemoteTmuxControlManager.sound_initial false, nofun, rfl, nofun⟩

/-- A change that kills no pty is the same change of a channel. -/
theorem core_updatePty {f : ControlChannel → ControlChannel}
    (hclosed : ∀ c, (f c).closed = c.closed) :
    (manager.updatePty id f).core = manager.core.updateChannel id f := by
  have hrunning : (manager.updatePty id f).running = manager.running := by
    unfold running
    congr 1
    funext i
    rw [updatePty, List.getElem?_modify]
    cases manager.ptys[i]? with
    | none => rfl
    | some c =>
      by_cases heq : id = i
      · simp [heq, hclosed]
      · simp [heq]
  simp only [core, hrunning]
  rfl

/-- A pty that grows stays live. -/
theorem Current.updatePty (h : manager.Current) {f : ControlChannel → ControlChannel}
    (hlive : ∀ c : ControlChannel, c.Live → (f c).Live) (hwired : ∀ c, (f c).wired = c.wired) :
    (manager.updatePty id f).Current where
  live i hi := by
    obtain ⟨c, hc, hclive⟩ := h.live i hi
    refine ⟨_, getElem?_modify_of_some hc, ?_⟩
    split
    · exact hlive c hclive
    · exact hclive
  opened := h.opened
  wired i c hc := by
    obtain ⟨old, hold, rfl⟩ := of_getElem?_modify hc
    have hold := h.wired i old hold
    split
    · exact (hwired old).trans hold
    · exact hold

theorem allClosed_core (h : manager.AllExited) : manager.core.AllClosed :=
  fun i c hc hlive => nomatch (h i c hc).symm.trans hlive.2

theorem not_awaiting_core : ¬ manager.core.Awaiting := fun ⟨_, hopening, _⟩ => nomatch hopening

theorem Sound.open_ (h : manager.Sound) (hprompt : manager.Prompt .open_) :
    manager.open_.Sound := by
  unfold LocalTmuxControlManager.open_
  split
  · exact h
  · next hopened =>
    obtain ⟨hexited, hparser⟩ := hprompt (Bool.not_eq_true _ ▸ hopened)
    have hstarted := h.core.startAttach (allClosed_core hexited) false 0
    have htaken := hstarted.take ⟨_, rfl, rfl⟩ none nofun
    have hnew : (manager.ptys ++ [({ wired := true } : ControlChannel)])[manager.ptys.length]? =
        some { wired := true } := List.getElem?_concat_length
    have hrunning : ((some manager.ptys.length).filter fun id =>
        !((manager.ptys ++ [({ wired := true } : ControlChannel)])[id]?).any (·.closed)) =
          some manager.ptys.length := by
      rw [Option.filter_some, hnew]
      rfl
    refine ⟨htaken.of_same ⟨rfl, hrunning, hparser, rfl, rfl, rfl, rfl,
      fun ⟨_, ho, _⟩ => nomatch ho⟩, fun id hid => ?_, rfl, fun i c hc => ?_⟩
    · obtain rfl := Option.some.inj hid
      exact ⟨_, hnew, rfl, rfl⟩
    · rcases of_getElem?_concat hc with hold | ⟨-, rfl⟩
      · exact h.current.wired i c hold
      · rfl

/-- A pty that was killed is no longer running. -/
theorem Sound.running_kill (h : manager.Sound) : manager.kill.running = none := by
  unfold LocalTmuxControlManager.kill
  split
  · next hproc => rw [running, hproc, Option.filter_none]
  · next id hproc =>
    obtain ⟨pty, hpty, -⟩ := h.current.live id hproc
    simp [running, LocalTmuxControlManager.updatePty, hproc, hpty, ControlChannel.close]

theorem Sound.kill (h : manager.Sound) : manager.kill.Sound := by
  have hrunning := h.running_kill
  unfold LocalTmuxControlManager.kill at hrunning ⊢
  split at hrunning
  · exact h
  · next id hproc =>
    have hclosed : (({ manager.core with channel := none } :
        RemoteTmuxControlManager).updateChannel id (·.close)).Sound := h.core.forget.markClosed rfl
    exact ⟨hclosed.of_same ⟨rfl, hrunning, rfl, rfl, rfl, rfl, rfl, fun hawaiting => hawaiting⟩,
      h.current.updatePty (fun _ hlive => hlive) fun _ => rfl⟩

theorem Sound.close (h : manager.Sound) : manager.close.Sound := by
  have hkilled := h.kill
  refine ⟨?_, nofun, rfl, hkilled.current.wired⟩
  exact hkilled.core.forget.of_same
    ⟨rfl, rfl, rfl, rfl, rfl, rfl, rfl, fun hawaiting => hawaiting⟩

/-- The commands fail and the pty is killed; the order of the two does not matter. -/
theorem Sound.failUnresponsive (h : manager.Sound) : manager.failUnresponsive.Sound := by
  have hkilled := h.kill
  have hcore := hkilled.core.rejectPending h.running_kill "tmux control unresponsive"
  have heq : manager.failUnresponsive =
      { manager.kill.rejectPending "tmux control unresponsive" with watchdog := false } := by
    unfold LocalTmuxControlManager.failUnresponsive LocalTmuxControlManager.kill
    dsimp only [rejectPending]
    split <;> rfl
  rw [heq]
  exact ⟨hcore.of_same ⟨rfl, rfl, rfl, rfl, rfl, rfl, rfl, fun hawaiting => hawaiting⟩,
    hkilled.current.live, hkilled.current.opened, hkilled.current.wired⟩

/-- A command is written to a pty that was not killed. -/
theorem Sound.command (h : manager.Sound) (args : String) (tolerateErrors : Bool)
    (hprompt : manager.Prompt (.command args tolerateErrors)) :
    (manager.command args tolerateErrors).Sound := by
  unfold LocalTmuxControlManager.command
  dsimp only
  split
  · exact ⟨(h.core.reject _).of_same
      ⟨rfl, rfl, rfl, rfl, rfl, rfl, rfl, fun hawaiting => hawaiting⟩,
      h.current.live, h.current.opened, h.current.wired⟩
  · next id hproc =>
    obtain ⟨pty, hpty, -⟩ := h.current.live id hproc
    have hrunning : manager.running = some id := by
      simp [running, hproc, hpty, hprompt id pty hproc hpty]
    have hwritten := h.core.written hrunning (args ++ "\n") tolerateErrors
    have hcurrent : Current { manager with
        nextCommand := manager.nextCommand + 1
        pending := manager.pending ++ [⟨manager.nextCommand, tolerateErrors⟩] } :=
      ⟨h.current.live, h.current.opened, h.current.wired⟩
    refine ⟨?_, hcurrent.updatePty (fun _ hlive => hlive) fun _ => rfl⟩
    rw [core_updatePty (f := (·.write ⟨manager.nextCommand, args ++ "\n"⟩)) fun _ => rfl]
    exact hwritten

/-- The exit event of a live pty. -/
theorem Sound.onExit (h : manager.Sound) (hpty : manager.ptys[id]? = some pty)
    (hended : pty.closed = true ∨ pty.dropped = true) (hexit : pty.closeDelivered = false) :
    (manager.onExit id).Sound := by
  have hexited := h.core.deliverClose hpty ⟨h.current.wired id pty hpty, hexit⟩ hended
    "tmux control session exited"
  refine ⟨hexited.of_same ⟨rfl, rfl, rfl, rfl, rfl, rfl, rfl, fun hawaiting => hawaiting⟩, nofun,
    rfl, fun i c hc => ?_⟩
  obtain ⟨old, hold, rfl⟩ := of_getElem?_modify hc
  have hold := h.current.wired i old hold
  split <;> exact hold

/-! ### Events -/

/-- What a data event needs and does. -/
theorem step_data (hstep : manager.step (.data id) = some next) :
    ∃ (pty : ControlChannel) (chunk : Text), manager.ptys[id]? = some pty ∧
      pty.chunks[pty.delivered]? = some chunk ∧
      next = (manager.updatePty id (·.deliver)).ingest chunk := by
  simp only [step] at hstep
  split at hstep
  · next pty hpty =>
    split at hstep
    · next chunk hchunk => exact ⟨pty, chunk, hpty, hchunk, (Option.some.inj hstep).symm⟩
    · exact nomatch hstep
  · exact nomatch hstep

/-- What an exit event needs and does. -/
theorem step_exit (hstep : manager.step (.exit id) = some next) :
    ∃ pty : ControlChannel, manager.ptys[id]? = some pty ∧
      (pty.closed = true ∨ pty.dropped = true) ∧ pty.closeDelivered = false ∧
      next = manager.onExit id := by
  simp only [step] at hstep
  split at hstep
  · next pty hpty =>
    split at hstep
    · next hcondition =>
      exact ⟨pty, hpty, hcondition.1, Bool.not_eq_true _ ▸ hcondition.2,
        (Option.some.inj hstep).symm⟩
    · exact nomatch hstep
  · exact nomatch hstep

/-- A notification does to the local manager what it does to the remote one. -/
theorem sameCore_ingestOne {remote : RemoteTmuxControlManager}
    (h : RemoteTmuxControlManager.SameCore remote manager.core) (notification : TmuxNotification) :
    RemoteTmuxControlManager.SameCore (remote.ingestOne notification)
      (manager.ingestOne notification).core := by
  cases notification with
  | reply reply =>
    have hsaw : remote.sawInitialBlock = manager.sawInitialBlock := h.saw.symm
    have hpending : remote.pending = manager.pending := h.pending.symm
    unfold RemoteTmuxControlManager.ingestOne ingestOne
    dsimp only
    rw [hsaw, hpending]
    split
    · exact ⟨h.channels, h.channel, h.parser, rfl, rfl, h.nextCommand, h.settled, h.awaiting⟩
    · cases manager.pending with
      | nil => exact h
      | cons command pending =>
        exact ⟨h.channels, h.channel, h.parser, rfl, rfl, h.nextCommand,
          congrArg (· ++ [_]) h.settled, h.awaiting⟩
  | exit reason =>
    exact ⟨h.channels, h.channel, h.parser, h.pending, h.saw, h.nextCommand, h.settled, h.awaiting⟩
  | other line =>
    exact ⟨h.channels, h.channel, h.parser, h.pending, h.saw, h.nextCommand, h.settled, h.awaiting⟩

theorem sameCore_foldl {remote : RemoteTmuxControlManager}
    (h : RemoteTmuxControlManager.SameCore remote manager.core)
    (notifications : List TmuxNotification) :
    RemoteTmuxControlManager.SameCore
      (notifications.foldl RemoteTmuxControlManager.ingestOne remote)
      (notifications.foldl ingestOne manager).core := by
  induction notifications generalizing manager remote with
  | nil => exact h
  | cons notification rest ih => exact ih (sameCore_ingestOne h notification)

/-- Notifications leave the ptys alone. -/
theorem Current.foldl (h : manager.Current) (notifications : List TmuxNotification) :
    (notifications.foldl ingestOne manager).Current := by
  induction notifications generalizing manager with
  | nil => exact h
  | cons notification rest ih =>
    refine ih ?_
    cases notification with
    | reply reply =>
      unfold ingestOne
      dsimp only
      split
      · exact ⟨h.live, h.opened, h.wired⟩
      · split
        · exact h
        · exact ⟨h.live, h.opened, h.wired⟩
    | exit reason => exact ⟨h.live, h.opened, h.wired⟩
    | other line => exact ⟨h.live, h.opened, h.wired⟩

/-- A data event of the live pty, or of one whose exit event was the last to come. -/
theorem Sound.data (h : manager.Sound) {chunk : Text} (hpty : manager.ptys[id]? = some pty)
    (hchunk : pty.chunks[pty.delivered]? = some chunk)
    (hlate : pty.closeDelivered = true → manager.AllExited) :
    ((manager.updatePty id (·.deliver)).ingest chunk).Sound := by
  have hcore : ((manager.core.updateChannel id (·.deliver)).ingest chunk).Sound := by
    cases hexit : pty.closeDelivered with
    | false => exact h.core.data hpty hchunk ⟨h.current.wired id pty hpty, hexit⟩
    | true => exact h.core.lateData (allClosed_core (hlate hexit)) not_awaiting_core chunk
  have hstart : RemoteTmuxControlManager.SameCore
      { manager.core.updateChannel id (·.deliver) with parser := (manager.parser.feed chunk).1 }
      (LocalTmuxControlManager.core
        { manager.updatePty id (·.deliver) with parser := (manager.parser.feed chunk).1 }) := by
    have hsame : (manager.updatePty id (·.deliver)).core =
        manager.core.updateChannel id (·.deliver) := core_updatePty fun _ => rfl
    exact ⟨rfl, congrArg (·.channel) hsame, rfl, rfl, rfl, rfl, rfl,
      fun hawaiting => absurd hawaiting not_awaiting_core⟩
  have hcurrent : (manager.updatePty id (·.deliver)).Current :=
    h.current.updatePty (fun _ hlive => hlive) fun _ => rfl
  refine ⟨hcore.of_same (sameCore_foldl hstart _), Current.foldl ?_ _⟩
  exact ⟨hcurrent.live, hcurrent.opened, hcurrent.wired⟩

/-- Every prompt step keeps the invariant. -/
theorem Sound.step (h : manager.Sound) {label : LocalStep} (hprompt : manager.Prompt label)
    (hstep : manager.step label = some next) : next.Sound := by
  cases label with
  | open_ =>
    obtain rfl := Option.some.inj hstep
    exact h.open_ hprompt
  | close =>
    obtain rfl := Option.some.inj hstep
    exact h.close
  | command args tolerateErrors =>
    obtain rfl := Option.some.inj hstep
    exact h.command args tolerateErrors hprompt
  | produce id chunk =>
    simp only [LocalTmuxControlManager.step] at hstep
    split at hstep
    · next pty hpty =>
      obtain ⟨hlawful, rfl⟩ := of_ite_some hstep
      refine ⟨?_, h.current.updatePty (fun _ hlive => hlive) fun _ => rfl⟩
      rw [core_updatePty (f := (·.produce chunk)) fun _ => rfl]
      exact h.core.produce hpty hlawful
    · exact nomatch hstep
  | end_ id =>
    obtain ⟨_, rfl⟩ := of_ite_some hstep
    refine ⟨?_, h.current.updatePty (fun _ hlive => hlive) fun _ => rfl⟩
    rw [core_updatePty (f := (·.drop)) fun _ => rfl]
    exact h.core.drop
  | data id =>
    obtain ⟨pty, chunk, hpty, hchunk, rfl⟩ := step_data hstep
    exact h.data hpty hchunk (hprompt pty hpty)
  | exit id =>
    obtain ⟨pty, hpty, hended, hexit, rfl⟩ := step_exit hstep
    exact h.onExit hpty hended hexit
  | unresponsive =>
    obtain ⟨_, rfl⟩ := of_ite_some hstep
    exact h.failUnresponsive

/-! ### What prompt runs keep -/

theorem Sound.readsOwn (h : manager.Sound) : manager.ReadsOwn := by
  intro id pty hproc hpty
  obtain ⟨c, hc, hlive⟩ := h.current.live id hproc
  obtain rfl := Option.some.inj (hpty.symm.trans hc)
  have hreading := h.core.reading id pty hpty hlive
  exact ⟨hreading.parser, hreading.saw⟩

/-- An exit event rejects the commands in flight. -/
theorem rejected_of_exit {command : PendingCommand} (hmem : command ∈ manager.pending)
    (hstep : manager.step (.exit id) = some next) :
    ∃ outcome, (command.id, outcome) ∈ next.settled := by
  obtain ⟨-, -, -, -, rfl⟩ := step_exit hstep
  exact ⟨.rejected "tmux control session exited",
    List.mem_append_right _ (List.mem_map.mpr ⟨command, hmem, rfl⟩)⟩

theorem Sound.commandsSettle (h : manager.Sound) : manager.CommandsSettle where
  once := h.core.once
  waiting command hmem := by
    obtain ⟨i, pty, hpty, hlive, hwritten, -⟩ := h.core.commandsSettle.waiting command hmem
    exact ⟨i, pty, hpty, hlive.2, hwritten, fun next => rejected_of_exit hmem⟩
  matched := h.core.matched

/-- No other pty delivers a prompt event while there is a current one. -/
theorem Sound.keepsCurrent (h : manager.Sound) {label : LocalStep} (hprompt : manager.Prompt label)
    (hstep : manager.step label = some next) : manager.KeepsCurrent label next := by
  intro id current hlabel hcurrent hne
  obtain ⟨d, hd, hdlive⟩ := h.current.live current hcurrent
  rcases hlabel with rfl | rfl
  · obtain ⟨pty, chunk, hpty, -, -⟩ := step_data hstep
    cases hexit : pty.closeDelivered with
    | false =>
      have hlive : pty.Live := ⟨h.current.wired id pty hpty, hexit⟩
      exact absurd (h.core.eq_of_live hpty hlive hd hdlive).1 hne
    | true => exact nomatch ((hprompt pty hpty hexit) current d hd).symm.trans hdlive.2
  · obtain ⟨pty, hpty, -, hexit, -⟩ := step_exit hstep
    have hlive : pty.Live := ⟨h.current.wired id pty hpty, hexit⟩
    exact absurd (h.core.eq_of_live hpty hlive hd hdlive).1 hne

/-- **Prompt events.** In every run whose ptys are spawned with a clean parser after the exit
event of every earlier one, and whose commands are not written to a killed pty, what was read of
the current pty comes from its own bytes, every command settles once and with the reply to itself,
and no step touches the current pty for the sake of another one. -/
theorem reopen_of_prompt {labels : List LocalStep}
    (hrun : Run LocalTmuxControlManager.step Prompt {} labels manager) :
    manager.ReadsOwn ∧ manager.CommandsSettle ∧
      ∀ label next, manager.Prompt label → manager.step label = some next →
        manager.KeepsCurrent label next := by
  have hsound : manager.Sound := hrun.invariant
    (fun _ _ _ h hprompt hstep => Sound.step h hprompt hstep) sound_initial
  exact ⟨hsound.readsOwn, hsound.commandsSettle, fun _ _ => hsound.keepsCurrent⟩

/-- A client closed with a command in flight, and opened again after its exit event. -/
theorem reopen_after_exit :
    ∃ manager : LocalTmuxControlManager, manager.proc = some 1 ∧
      manager.settled = [(0, .rejected "tmux control session exited")] ∧
      manager.ReadsOwn ∧ manager.CommandsSettle ∧
      ∀ label next, manager.Prompt label → manager.step label = some next →
        manager.KeepsCurrent label next := by
  have hrun : ∃ manager : LocalTmuxControlManager,
      Run LocalTmuxControlManager.step Prompt {}
        [.open_, .command "list-windows" false, .close, .exit 0, .open_] manager ∧
      manager.proc = some 1 ∧
      manager.settled = [(0, .rejected "tmux control session exited")] := by
    refine ⟨_, .cons (fun _ => ⟨nofun, rfl⟩) rfl (.cons ?_ rfl (.cons trivial rfl
      (.cons trivial rfl (.single (fun _ => ⟨?_, rfl⟩) rfl)))), rfl, rfl⟩
    · rintro id pty hproc hpty
      obtain rfl := Option.some.inj hproc
      obtain rfl := Option.some.inj hpty
      rfl
    · rintro (_ | i) pty hpty
      · obtain rfl := Option.some.inj hpty
        rfl
      · exact nomatch hpty
  obtain ⟨manager, hrun, hproc, hsettled⟩ := hrun
  exact ⟨manager, hproc, hsettled, reopen_of_prompt hrun⟩

/-- The exit event of a closed pty comes when the next one is open, and clears it. -/
theorem not_reopen_of_late_exit :
    ¬ ∀ (labels : List LocalStep) (manager : LocalTmuxControlManager),
      Run LocalTmuxControlManager.step Always {} labels manager →
        manager.ReadsOwn ∧ manager.CommandsSettle ∧
          ∀ label next, manager.step label = some next → manager.KeepsCurrent label next := by
  intro hall
  have hrun : ∃ manager : LocalTmuxControlManager,
      Run LocalTmuxControlManager.step Always {} [.open_, .close, .open_] manager ∧
      manager.proc = some 1 ∧ (manager.step (.exit 0)).map (·.proc) = some none :=
    ⟨_, .cons trivial rfl (.cons trivial rfl (.single trivial rfl)), rfl, rfl⟩
  obtain ⟨manager, hrun, hproc, hexit⟩ := hrun
  obtain ⟨next, hstep, hcleared⟩ := Option.map_eq_some_iff.mp hexit
  have hkept := ((hall _ manager hrun).2.2 (.exit 0) next hstep 0 1 (.inr rfl) hproc (by decide)).1
  exact nomatch hcleared.symm.trans hkept

end LocalTmuxControlManager

end AgentCockpit.Local
