import AgentCockpit.Remote.TmuxControl
import Mathlib.Data.List.Perm.Basic

/-!
# The life of control channels and commands

The handlers of a channel do not check that the manager still uses the channel, so a late
close event takes the current channel's place in the manager away from it. What the
manager promises holds in the runs in which every event is prompt: an attach begins only
once the close event of every earlier channel was delivered, and a channel delivers data
after its close event only while nothing else goes on.
-/

namespace AgentCockpit.Remote

open AgentCockpit.Core

namespace ControlChannel

variable (channel : ControlChannel)

/-- The channel was opened and neither end has closed it. -/
def IsOpen : Prop := channel.closed = false ∧ channel.dropped = false

/-- The manager listens to the channel, and its close event is still to come. -/
def Live : Prop := channel.wired = true ∧ channel.closeDelivered = false

/-- The replies that tmux sent on the channel. -/
def replies : List CommandReply := repliesOf channel.chunks

/-- The replies in the chunks that were delivered. -/
def read : List CommandReply := repliesOf (channel.chunks.take channel.delivered)

theorem read_prefix : channel.read <+: channel.replies := by
  have h := repliesOf_append (channel.chunks.take channel.delivered)
    (channel.chunks.drop channel.delivered)
  rwa [List.take_append_drop] at h

/-- What becomes of a channel: it never comes to life, and what was written to it or sent
on it stays. -/
structure Grows (c d : ControlChannel) : Prop where
  live : d.Live → c.Live
  written : c.written.map (·.id) <+: d.written.map (·.id)
  replies : c.replies <+: d.replies

theorem grows_refl (c : ControlChannel) : c.Grows c :=
  ⟨fun hlive => hlive, List.prefix_rfl, List.prefix_rfl⟩

@[simp] theorem map_written_write (c : ControlChannel) (command : WrittenCommand) :
    (c.write command).written.map (·.id) = c.written.map (·.id) ++ [command.id] := by
  simp [write]

theorem grows_write (c : ControlChannel) (command : WrittenCommand) : c.Grows (c.write command) :=
  ⟨fun hlive => hlive, by simp [write], List.prefix_rfl⟩

theorem grows_produce (c : ControlChannel) (chunk : Text) : c.Grows (c.produce chunk) :=
  ⟨fun hlive => hlive, List.prefix_rfl, repliesOf_append _ _⟩

theorem grows_deliver (c : ControlChannel) : c.Grows c.deliver :=
  ⟨fun hlive => hlive, List.prefix_rfl, List.prefix_rfl⟩

theorem grows_close (c : ControlChannel) : c.Grows c.close :=
  ⟨fun hlive => hlive, List.prefix_rfl, List.prefix_rfl⟩

theorem grows_drop (c : ControlChannel) : c.Grows c.drop :=
  ⟨fun hlive => hlive, List.prefix_rfl, List.prefix_rfl⟩

theorem grows_deliverClose (c : ControlChannel) : c.Grows c.deliverClose :=
  ⟨fun hlive => (nomatch hlive.2), List.prefix_rfl, List.prefix_rfl⟩

end ControlChannel

namespace RemoteTmuxControlManager

variable (manager : RemoteTmuxControlManager)

/-- At most one opened channel is not closed. -/
def AtMostOneOpen : Prop :=
  ∀ (i j : ℕ) (c d : ControlChannel), manager.channels[i]? = some c →
    manager.channels[j]? = some d → c.IsOpen → d.IsOpen → i = j

/-- `reply` is what tmux sent to the command `id` on the channel it was written to; the
first block of a channel is tmux's own. -/
def Answers (id : ℕ) (reply : CommandReply) : Prop :=
  ∃ (i : ℕ) (c : ControlChannel) (n : ℕ), manager.channels[i]? = some c ∧
    (c.written.map (·.id))[n]? = some id ∧ c.replies[n + 1]? = some reply

/-- Every command issued so far has settled once or waits; one that waits was written to a
channel whose close event is still to come, and settles with that event at the latest; and
one that resolved did so with the reply to that very command. -/
structure CommandsSettle : Prop where
  once : (manager.settled.map (·.1) ++ manager.pending.map (·.id)).Perm
    (List.range manager.nextCommand)
  waiting : ∀ command ∈ manager.pending, ∃ (i : ℕ) (c : ControlChannel),
    manager.channels[i]? = some c ∧ c.Live ∧ command.id ∈ c.written.map (·.id) ∧
      ∀ next, manager.step (.closeEvent i) = some next →
        ∃ outcome, (command.id, outcome) ∈ next.settled
  matched : ∀ id reply, (id, .resolved reply) ∈ manager.settled → manager.Answers id reply

/-- An event of a channel other than the current one neither nulls, drains nor feeds it. -/
def KeepsCurrent (label : ControlStep) (next : RemoteTmuxControlManager) : Prop :=
  ∀ id current, label = .data id ∨ label = .closeEvent id → manager.channel = some current →
    id ≠ current → next.channel = some current ∧ next.pending = manager.pending ∧
      next.settled = manager.settled ∧ next.parser = manager.parser ∧
      next.sawInitialBlock = manager.sawInitialBlock

/-- Every close event to be expected was delivered. -/
def AllClosed : Prop :=
  ∀ (i : ℕ) (c : ControlChannel), manager.channels[i]? = some c → ¬ c.Live

/-- An attach waits for its channel. -/
def Awaiting : Prop :=
  ∃ opening, manager.opening = some opening ∧ opening.phase = .awaitingChannel

/-- An attach begins only once the close event of every earlier channel was delivered, and
a channel delivers data after its close event only while every other channel has had its
own and no attach waits for a channel. -/
def Prompt : ControlStep → Prop
  | .open_ => manager.channel = none → manager.opening = none →
      manager.reattachTimer = false ∨ manager.gaveUp = true → manager.AllClosed
  | .injected => ∀ opening id, manager.opening = some opening → opening.phase = .injecting id →
      manager.channel ≠ some id → manager.closed = false → manager.reattachTimer = false →
        manager.gaveUp = false → opening.retried = false → manager.AllClosed
  | .reattach => manager.closed = false → manager.opening = none → manager.AllClosed
  | .data id => ∀ c, manager.channels[id]? = some c → c.closeDelivered = true →
      manager.AllClosed ∧ ¬ manager.Awaiting
  | _ => True

/-- What the manager knows of a live channel: the parser and the initial-block flag have seen
the delivered chunks, and the commands in flight are those written behind the delivered
replies, unless the watchdog has failed them and dropped the channel. -/
structure InStep (c : ControlChannel) : Prop where
  parser : manager.parser = (({} : TmuxControlParser).read (c.chunks.take c.delivered)).1
  saw : manager.sawInitialBlock = decide (0 < c.read.length)
  delivered : c.delivered ≤ c.chunks.length
  pending : manager.pending = [] ∧ manager.channel = none ∨
    manager.pending.map (·.id) = (c.written.map (·.id)).drop (c.read.length - 1)

/-- The invariant of prompt runs. Only the last channel can be live. -/
structure Sound : Prop where
  lawful : ∀ (i : ℕ) (c : ControlChannel), manager.channels[i]? = some c →
    c.replies.length ≤ c.written.length + 1
  ended : ∀ (i : ℕ) (c : ControlChannel), manager.channels[i]? = some c → c.IsOpen → c.Live
  last : ∀ (i : ℕ) (c : ControlChannel), manager.channels[i]? = some c → c.Live →
    i + 1 = manager.channels.length ∧ ¬ manager.Awaiting
  current : ∀ id, manager.channel = some id →
    ∃ c : ControlChannel, manager.channels[id]? = some c ∧ c.Live ∧ c.closed = false
  reading : ∀ (i : ℕ) (c : ControlChannel), manager.channels[i]? = some c → c.Live →
    manager.InStep c
  idle : manager.AllClosed → manager.pending = []
  fresh : manager.Awaiting → manager.parser = {}
  once : (manager.settled.map (·.1) ++ manager.pending.map (·.id)).Perm
    (List.range manager.nextCommand)
  matched : ∀ id reply, (id, .resolved reply) ∈ manager.settled → manager.Answers id reply

variable {manager} {next : RemoteTmuxControlManager} {id i : ℕ} {c : ControlChannel}

/-- `next` differs from `manager` in nothing the invariant speaks of. -/
structure SameCore (manager next : RemoteTmuxControlManager) : Prop where
  channels : next.channels = manager.channels
  channel : next.channel = manager.channel
  parser : next.parser = manager.parser
  pending : next.pending = manager.pending
  saw : next.sawInitialBlock = manager.sawInitialBlock
  nextCommand : next.nextCommand = manager.nextCommand
  settled : next.settled = manager.settled
  awaiting : next.Awaiting → manager.Awaiting

theorem InStep.of_eq (h : manager.InStep c) (hparser : next.parser = manager.parser)
    (hsaw : next.sawInitialBlock = manager.sawInitialBlock)
    (hpending : next.pending = manager.pending) (hchannel : next.channel = manager.channel) :
    next.InStep c :=
  ⟨hparser.trans h.parser, hsaw.trans h.saw, h.delivered, by
    rw [hpending, hchannel]
    exact h.pending⟩

theorem Sound.of_same (h : manager.Sound) (hsame : SameCore manager next) : next.Sound where
  lawful := by rw [hsame.channels]; exact h.lawful
  ended := by rw [hsame.channels]; exact h.ended
  last i c hc hlive := by
    rw [hsame.channels] at hc ⊢
    exact ⟨(h.last i c hc hlive).1, fun hawaiting =>
      (h.last i c hc hlive).2 (hsame.awaiting hawaiting)⟩
  current := by rw [hsame.channels, hsame.channel]; exact h.current
  reading i c hc hlive := by
    rw [hsame.channels] at hc
    exact (h.reading i c hc hlive).of_eq hsame.parser hsame.saw hsame.pending hsame.channel
  idle hclosed := by
    rw [AllClosed, hsame.channels] at hclosed
    rw [hsame.pending]
    exact h.idle hclosed
  fresh hawaiting := hsame.parser.trans (h.fresh (hsame.awaiting hawaiting))
  once := by rw [hsame.settled, hsame.pending, hsame.nextCommand]; exact h.once
  matched := by
    simp only [Answers]
    rw [hsame.settled, hsame.channels]
    exact h.matched

theorem updateChannel_getElem? (manager : RemoteTmuxControlManager) (id i : ℕ)
    (f : ControlChannel → ControlChannel) :
    (manager.updateChannel id f).channels[i]? =
      (manager.channels[i]?).map fun c => if id = i then f c else c := by
  rw [updateChannel, List.getElem?_modify]
  rfl

/-- A channel after an update. -/
theorem of_updateChannel {f : ControlChannel → ControlChannel} {d : ControlChannel}
    (h : (manager.updateChannel id f).channels[i]? = some d) :
    ∃ c, manager.channels[i]? = some c ∧ d = if id = i then f c else c := by
  rw [updateChannel_getElem?, Option.map_eq_some_iff] at h
  obtain ⟨c, hc, hd⟩ := h
  exact ⟨c, hc, hd.symm⟩

theorem updateChannel_of {f : ControlChannel → ControlChannel} (h : manager.channels[i]? = some c) :
    (manager.updateChannel id f).channels[i]? = some (if id = i then f c else c) := by
  rw [updateChannel_getElem?, h]
  rfl

/-- Forgetting the channel leaves its commands to its close event. -/
theorem Sound.forget (h : manager.Sound) : Sound { manager with channel := none } :=
  { h with
    current := nofun
    reading := fun i c hc hlive => by
      obtain ⟨hparser, hsaw, hdelivered, hpending⟩ := h.reading i c hc hlive
      exact ⟨hparser, hsaw, hdelivered, hpending.imp_left fun hdrained => ⟨hdrained.1, rfl⟩⟩ }

/-- An answer stays one. -/
theorem Answers.update {f : ControlChannel → ControlChannel} {settledID : ℕ} {reply : CommandReply}
    (h : manager.Answers settledID reply) (hgrows : ∀ c : ControlChannel, c.Grows (f c)) :
    (manager.updateChannel id f).Answers settledID reply := by
  obtain ⟨i, c, n, hc, hwritten, hreply⟩ := h
  have hgrown : c.Grows (if id = i then f c else c) := by
    split
    · exact hgrows c
    · exact c.grows_refl
  refine ⟨i, _, n, updateChannel_of hc, ?_, ?_⟩
  · obtain ⟨more, hmore⟩ := hgrown.written
    rw [← hmore, List.getElem?_append_left (List.getElem?_eq_some_iff.mp hwritten).1]
    exact hwritten
  · obtain ⟨more, hmore⟩ := hgrown.replies
    rw [← hmore, List.getElem?_append_left (List.getElem?_eq_some_iff.mp hreply).1]
    exact hreply

/-- What the invariant asks of the channels alone, after one of them grew. -/
theorem Sound.update (h : manager.Sound) {f : ControlChannel → ControlChannel}
    (hgrows : ∀ c : ControlChannel, c.Grows (f c))
    (hchannels : next.channels = (manager.updateChannel id f).channels)
    (hlawful : ∀ c : ControlChannel, manager.channels[id]? = some c →
      (f c).replies.length ≤ (f c).written.length + 1)
    (hended : ∀ c : ControlChannel, manager.channels[id]? = some c → (f c).IsOpen → (f c).Live)
    (hawaiting : next.Awaiting → manager.Awaiting)
    (hcurrent : ∀ i, next.channel = some i →
      ∃ c : ControlChannel, next.channels[i]? = some c ∧ c.Live ∧ c.closed = false)
    (hreading : ∀ (i : ℕ) (c : ControlChannel), next.channels[i]? = some c → c.Live → next.InStep c)
    (hidle : next.AllClosed → next.pending = []) (hfresh : next.Awaiting → next.parser = {})
    (honce : (next.settled.map (·.1) ++ next.pending.map (·.id)).Perm (List.range next.nextCommand))
    (hmatched : ∀ settledID reply, (settledID, .resolved reply) ∈ next.settled →
      manager.Answers settledID reply) : next.Sound := by
  -- a channel is the one that grew, or it is as it was
  have hof {i : ℕ} {d : ControlChannel} (hd : next.channels[i]? = some d) :
      ∃ c, manager.channels[i]? = some c ∧ d = if id = i then f c else c :=
    of_updateChannel (hchannels ▸ hd)
  refine ⟨fun i d hd => ?_, fun i d hd hopen => ?_, fun i d hd hlive => ?_, hcurrent, hreading,
    hidle,
    hfresh, honce, fun settledID reply hmem => ?_⟩
  · obtain ⟨c, hc, rfl⟩ := hof hd
    split
    · next heq =>
      subst heq
      exact hlawful c hc
    · exact h.lawful i c hc
  · obtain ⟨c, hc, rfl⟩ := hof hd
    split at hopen
    · next heq =>
      subst heq
      rw [if_pos rfl]
      exact hended c hc hopen
    · next hne =>
      rw [if_neg hne]
      exact h.ended i c hc hopen
  · obtain ⟨c, hc, rfl⟩ := hof hd
    have hclive : c.Live := by
      split at hlive
      · exact (hgrows c).live hlive
      · exact hlive
    obtain ⟨hi, hnot⟩ := h.last i c hc hclive
    refine ⟨?_, fun hnext => hnot (hawaiting hnext)⟩
    rw [hchannels, updateChannel, List.length_modify]
    exact hi
  · have hanswers : (manager.updateChannel id f).Answers settledID reply :=
      (hmatched settledID reply hmem).update hgrows
    obtain ⟨i, c, n, hc, hanswer⟩ := hanswers
    exact ⟨i, c, n, by rw [hchannels]; exact hc, hanswer⟩

/-- Marking a channel as closed or dropped. -/
theorem Sound.mark (h : manager.Sound) {f : ControlChannel → ControlChannel}
    (hgrows : ∀ c : ControlChannel, c.Grows (f c)) (hwritten : ∀ c, (f c).written = c.written)
    (hread : ∀ c, (f c).chunks = c.chunks ∧ (f c).delivered = c.delivered)
    (hlive : ∀ c, (f c).Live ↔ c.Live) (hopen : ∀ c, ¬ (f c).IsOpen)
    (hclosed : manager.channel = none ∨ ∀ c, (f c).closed = c.closed) :
    (manager.updateChannel id f).Sound := by
  refine h.update hgrows rfl (fun c hc => ?_) (fun c _ hisOpen => absurd hisOpen (hopen c))
    (fun hawaiting => hawaiting) (fun i hi => ?_) (fun i d hd hdlive => ?_) (fun hall => ?_) h.fresh
    h.once h.matched
  · rw [ControlChannel.replies, (hread c).1, hwritten]
    exact h.lawful id c hc
  · obtain ⟨c, hc, hclive, hcopen⟩ := h.current i hi
    refine ⟨_, updateChannel_of hc, ?_⟩
    split
    · refine ⟨(hlive c).mpr hclive, ?_⟩
      rw [hclosed.resolve_left (fun hnone => nomatch hnone.symm.trans hi) c]
      exact hcopen
    · exact ⟨hclive, hcopen⟩
  · obtain ⟨c, hc, rfl⟩ := of_updateChannel hd
    have hclive : c.Live := by
      split at hdlive
      · exact (hlive c).mp hdlive
      · exact hdlive
    obtain ⟨hparser, hsaw, hdelivered, hpending⟩ := h.reading i c hc hclive
    split
    · have hsame : (f c).read = c.read := by
        rw [ControlChannel.read, ControlChannel.read, (hread c).1, (hread c).2]
      refine ⟨?_, ?_, ?_, ?_⟩
      · rw [(hread c).1, (hread c).2]
        exact hparser
      · rw [hsame]
        exact hsaw
      · rw [(hread c).1, (hread c).2]
        exact hdelivered
      · rw [hsame, hwritten]
        exact hpending
    · exact ⟨hparser, hsaw, hdelivered, hpending⟩
  · refine h.idle fun i c hc hclive => hall i _ (updateChannel_of hc) ?_
    split
    · exact (hlive c).mpr hclive
    · exact hclive

theorem Sound.markClosed (h : manager.Sound) (hnone : manager.channel = none) :
    (manager.updateChannel id (·.close)).Sound :=
  h.mark ControlChannel.grows_close (fun _ => rfl) (fun _ => ⟨rfl, rfl⟩) (fun _ => Iff.rfl)
    (fun _ hopen => nomatch hopen.1) (.inl hnone)

theorem Sound.drop (h : manager.Sound) : (manager.updateChannel id (·.drop)).Sound :=
  h.mark ControlChannel.grows_drop (fun _ => rfl) (fun _ => ⟨rfl, rfl⟩) (fun _ => Iff.rfl)
    (fun _ hopen => nomatch hopen.2) (.inr fun _ => rfl)

theorem Sound.emit (h : manager.Sound) (notice : ControlNotice) : (manager.emit notice).Sound :=
  h.of_same ⟨rfl, rfl, rfl, rfl, rfl, rfl, rfl, fun hawaiting => hawaiting⟩

theorem Sound.scheduleReattach (h : manager.Sound) : manager.scheduleReattach.Sound := by
  unfold RemoteTmuxControlManager.scheduleReattach
  split
  · have hcore : Sound { manager with gaveUp := true } :=
      h.of_same ⟨rfl, rfl, rfl, rfl, rfl, rfl, rfl, fun hawaiting => hawaiting⟩
    exact hcore.emit _
  · exact h.of_same ⟨rfl, rfl, rfl, rfl, rfl, rfl, rfl, fun hawaiting => hawaiting⟩

theorem Sound.reattachFailed (h : manager.Sound) : manager.reattachFailed.Sound := by
  unfold RemoteTmuxControlManager.reattachFailed
  split
  · exact h
  · exact h.scheduleReattach

theorem Sound.finishOpening (h : manager.Sound) : manager.finishOpening.Sound :=
  h.of_same ⟨rfl, rfl, rfl, rfl, rfl, rfl, rfl, fun ⟨_, hopening, _⟩ => nomatch hopening⟩

theorem Sound.rejectOpening (h : manager.Sound) (waiting : ℕ) :
    (manager.rejectOpening waiting).Sound := by
  unfold RemoteTmuxControlManager.rejectOpening
  induction waiting with
  | zero => exact h.finishOpening
  | succ waiting ih =>
    rw [Function.iterate_succ_apply']
    exact ih.reattachFailed

/-- The next attach begins when no channel is live. -/
theorem Sound.startAttach (h : manager.Sound) (hclosed : manager.AllClosed) (retried : Bool)
    (waiting : ℕ) : (manager.startAttach retried waiting).Sound :=
  { h with
    last := fun i c hc hlive => absurd hlive (hclosed i c hc)
    reading := fun i c hc hlive => absurd hlive (hclosed i c hc)
    fresh := fun _ => rfl }

theorem Sound.ensureOpen (h : manager.Sound) (hclosed : manager.opening = none → manager.AllClosed)
    (waiting : ℕ) : (manager.ensureOpen waiting).Sound := by
  unfold RemoteTmuxControlManager.ensureOpen
  split
  · next opening hopening =>
    refine h.of_same ⟨rfl, rfl, rfl, rfl, rfl, rfl, rfl, fun ⟨joined, hjoined, hphase⟩ => ?_⟩
    obtain rfl := Option.some.inj hjoined
    exact ⟨opening, hopening, hphase⟩
  · next hnone =>
    have hcore : Sound { manager with reattachTimer := false } :=
      h.of_same ⟨rfl, rfl, rfl, rfl, rfl, rfl, rfl, fun hawaiting => hawaiting⟩
    exact hcore.startAttach (hclosed hnone) false waiting

/-- Failing the commands in flight once the channel is forgotten. -/
theorem Sound.rejectPending (h : manager.Sound) (hnone : manager.channel = none)
    (message : String) : (manager.rejectPending message).Sound :=
  { h with
    reading := fun i c hc hlive => by
      obtain ⟨hparser, hsaw, hdelivered, -⟩ := h.reading i c hc hlive
      exact ⟨hparser, hsaw, hdelivered, .inl ⟨rfl, hnone⟩⟩
    idle := fun _ => rfl
    once := by
      have honce := h.once
      simpa [RemoteTmuxControlManager.rejectPending, Function.comp_def] using honce
    matched := fun id reply hmem => by
      rcases List.mem_append.mp hmem with hold | hnew
      · exact h.matched id reply hold
      · obtain ⟨command, -, heq⟩ := List.mem_map.mp hnew
        exact nomatch congrArg Prod.snd heq }

theorem Sound.closeChannel (h : manager.Sound) : manager.closeChannel.Sound := by
  unfold RemoteTmuxControlManager.closeChannel
  split
  · exact h
  · exact h.forget.markClosed rfl

theorem Sound.unresponsive (h : manager.Sound) (message : String) :
    (manager.rejectPending message).closeChannel.Sound := by
  have hrejected : (({ manager with channel := none } : RemoteTmuxControlManager).rejectPending
      message).Sound := h.forget.rejectPending rfl message
  unfold RemoteTmuxControlManager.closeChannel
  split
  · next hnone =>
    exact h.rejectPending hnone message
  · exact hrejected.markClosed rfl

theorem Sound.close (h : manager.Sound) : manager.close.Sound := by
  have hcore : Sound { manager with
      closed := true, reattachTimer := false, stableTimer := false, watchdog := false } :=
    h.of_same ⟨rfl, rfl, rfl, rfl, rfl, rfl, rfl, fun hawaiting => hawaiting⟩
  exact hcore.closeChannel

/-- A new command is one more that settles once. -/
theorem Sound.once_command (h : manager.Sound) :
    (manager.settled.map (·.1) ++ manager.pending.map (·.id) ++ [manager.nextCommand]).Perm
      (List.range (manager.nextCommand + 1)) := by
  rw [List.range_succ]
  exact h.once.append_right _

/-- Only one channel is live. -/
theorem Sound.eq_of_live (h : manager.Sound) {j : ℕ} {d : ControlChannel}
    (hc : manager.channels[i]? = some c) (hlive : c.Live) (hd : manager.channels[j]? = some d)
    (hlive' : d.Live) : i = j ∧ c = d := by
  have hi := (h.last i c hc hlive).1
  have hj := (h.last j d hd hlive').1
  obtain rfl : i = j := by omega
  exact ⟨rfl, Option.some.inj (hc.symm.trans hd)⟩

/-- Writing a command to the current channel. -/
theorem Sound.written (h : manager.Sound) (hid : manager.channel = some id) (line : String)
    (tolerateErrors : Bool) :
    (({ manager with
        nextCommand := manager.nextCommand + 1
        pending := manager.pending ++ [⟨manager.nextCommand, tolerateErrors⟩] } :
      RemoteTmuxControlManager).updateChannel id (·.write ⟨manager.nextCommand, line⟩)).Sound := by
  obtain ⟨current, hcurrent, hlive, hopen⟩ := h.current id hid
  have hread := current.read_prefix.length_le
  have hlawful := h.lawful id current hcurrent
  refine h.update (fun c => c.grows_write _) rfl (fun c hc => ?_) (fun c hc => h.ended id c hc)
    (fun hawaiting => hawaiting) (fun i hi => ?_) (fun i d hd hdlive => ?_) (fun hall => ?_) h.fresh
    ?_ h.matched
  · have hmore : (c.write ⟨manager.nextCommand, line⟩).written.length = c.written.length + 1 := by
      simp [ControlChannel.write]
    rw [hmore]
    exact (h.lawful id c hc).trans (Nat.le_succ _)
  · obtain rfl := Option.some.inj (hid.symm.trans hi)
    refine ⟨_, updateChannel_of hcurrent, ?_⟩
    rw [if_pos rfl]
    exact ⟨hlive, hopen⟩
  · -- the only live channel is the one that the command is written to
    obtain ⟨c, hc, rfl⟩ := of_updateChannel hd
    have hclive : c.Live := by
      split at hdlive <;> exact hdlive
    obtain ⟨rfl, rfl⟩ := h.eq_of_live hcurrent hlive hc hclive
    obtain ⟨hparser, hsaw, hdelivered, hpending⟩ := h.reading id current hcurrent hlive
    have hids := hpending.resolve_left fun hnone => nomatch hnone.2.symm.trans hid
    have hbound : current.read.length - 1 ≤ (current.written.map (·.id)).length := by
      rw [List.length_map]
      omega
    rw [if_pos rfl]
    refine ⟨hparser, hsaw, hdelivered, .inr ?_⟩
    show (manager.pending ++ [(⟨manager.nextCommand, tolerateErrors⟩ : PendingCommand)]).map
      (·.id) =
      ((current.write ⟨manager.nextCommand, line⟩).written.map (·.id)).drop
        (current.read.length - 1)
    rw [List.map_append, hids, ControlChannel.map_written_write,
      List.drop_append_of_le_length hbound]
    rfl
  · refine absurd ?_ (hall id _ (updateChannel_of hcurrent))
    rw [if_pos rfl]
    exact hlive
  · have honce := h.once_command
    rw [List.append_assoc] at honce
    simpa [updateChannel] using honce

/-- A command that fails at once. -/
theorem Sound.reject (h : manager.Sound) (message : String) :
    Sound { manager with
      nextCommand := manager.nextCommand + 1
      settled := manager.settled ++ [(manager.nextCommand, .rejected message)] } := by
  refine { h with
    reading := fun i c hc hlive => (h.reading i c hc hlive).of_eq rfl rfl rfl rfl
    once := ?_
    matched := fun id reply hmem => ?_ }
  · rw [List.map_append, List.append_assoc]
    refine (List.Perm.append_left _ List.perm_append_comm).trans ?_
    rw [← List.append_assoc]
    exact h.once_command
  · rcases List.mem_append.mp hmem with hold | hnew
    · exact h.matched id reply hold
    · exact nomatch congrArg Prod.snd (List.mem_singleton.mp hnew)

theorem Sound.command (h : manager.Sound) (args : String) (tolerateErrors : Bool) :
    (manager.command args tolerateErrors).Sound := by
  unfold RemoteTmuxControlManager.command
  dsimp only
  split
  · exact h.reject _
  · next id hid => exact h.written hid (args ++ "\n") tolerateErrors

/-- The commands of the session environment leave the attach in flight as it is. -/
theorem sendEnvironment_opening (manager : RemoteTmuxControlManager) (lines : List String)
    (opening : Option Opening) :
    { manager.sendEnvironment lines with opening } =
      ({ manager with opening } : RemoteTmuxControlManager).sendEnvironment lines := by
  induction lines generalizing manager with
  | nil => rfl
  | cons line lines ih =>
    have hcommand : { manager.command line true with opening } =
        ({ manager with opening } : RemoteTmuxControlManager).command line true := by
      unfold RemoteTmuxControlManager.command
      cases manager.channel <;> rfl
    rw [sendEnvironment, ih, hcommand, sendEnvironment]

theorem Sound.sendEnvironment (h : manager.Sound) (lines : List String) :
    (manager.sendEnvironment lines).Sound := by
  induction lines generalizing manager with
  | nil => exact h
  | cons line lines ih => exact ih (h.command line true)

/-- A channel of a list that a new one was added to. -/
theorem of_append {channels : List ControlChannel} {opened : ControlChannel}
    (hc : (channels ++ [opened])[i]? = some c) :
    channels[i]? = some c ∨ i = channels.length ∧ c = opened := by
  rcases Nat.lt_trichotomy i channels.length with hlt | rfl | hgt
  · rw [List.getElem?_append_left hlt] at hc
    exact .inl hc
  · rw [List.getElem?_concat_length] at hc
    exact .inr ⟨rfl, (Option.some.inj hc).symm⟩
  · rw [List.getElem?_eq_none (by rw [List.length_append, List.length_singleton]; omega)] at hc
    exact nomatch hc

theorem Answers.append {opened : ControlChannel} {settledID : ℕ} {reply : CommandReply}
    (h : manager.Answers settledID reply)
    (hchannels : next.channels = manager.channels ++ [opened]) :
    next.Answers settledID reply := by
  obtain ⟨i, c, n, hc, hanswer⟩ := h
  refine ⟨i, c, n, ?_, hanswer⟩
  rw [hchannels, List.getElem?_append_left (List.getElem?_eq_some_iff.mp hc).1]
  exact hc

/-- The manager takes over a channel that was opened for it. -/
theorem Sound.take (h : manager.Sound) (hawaiting : manager.Awaiting) (opening : Option Opening)
    (hopening : ∀ o, opening = some o → o.phase ≠ .awaitingChannel) :
    Sound { manager with
      channels := manager.channels ++ [{ wired := true }]
      channel := some manager.channels.length
      sawInitialBlock := false
      opening } := by
  have hclosed : manager.AllClosed := fun i c hc hlive => (h.last i c hc hlive).2 hawaiting
  have hpending := h.idle hclosed
  have hnot : ¬ Awaiting { manager with
      channels := manager.channels ++ [{ wired := true }]
      channel := some manager.channels.length
      sawInitialBlock := false
      opening } := fun ⟨o, ho, hphase⟩ => hopening o ho hphase
  refine ⟨fun i c hc => ?_, fun i c hc hopen => ?_, fun i c hc hlive => ?_, fun i hi => ?_,
    fun i c hc hlive => ?_, fun _ => hpending, fun hnext => absurd hnext hnot, h.once,
    fun id reply hmem => (h.matched id reply hmem).append rfl⟩
  · rcases of_append hc with hold | ⟨-, rfl⟩
    · exact h.lawful i c hold
    · exact Nat.zero_le _
  · rcases of_append hc with hold | ⟨-, rfl⟩
    · exact h.ended i c hold hopen
    · exact ⟨rfl, rfl⟩
  · rcases of_append hc with hold | ⟨rfl, rfl⟩
    · exact absurd hlive (hclosed i c hold)
    · exact ⟨by simp, hnot⟩
  · obtain rfl := Option.some.inj hi
    exact ⟨_, List.getElem?_concat_length, ⟨rfl, rfl⟩, rfl⟩
  · rcases of_append hc with hold | ⟨-, rfl⟩
    · exact absurd hlive (hclosed i c hold)
    · exact ⟨h.fresh hawaiting, rfl, Nat.le_refl _, .inr (by rw [hpending]; rfl)⟩

/-- A channel that is closed as soon as it is opened. -/
theorem Sound.discard (h : manager.Sound) (hawaiting : manager.Awaiting) :
    Sound { manager with
      channels := manager.channels ++ [{ wired := false, closed := true }], opening := none } := by
  have hclosed : manager.AllClosed := fun i c hc hlive => (h.last i c hc hlive).2 hawaiting
  have hnone {i : ℕ} {c : ControlChannel}
      (hc : (manager.channels ++ [{ wired := false, closed := true }])[i]? = some c) :
        ¬ c.Live := by
    rcases of_append hc with hold | ⟨-, rfl⟩
    · exact hclosed i c hold
    · exact fun hlive => nomatch hlive.1
  refine ⟨fun i c hc => ?_, fun i c hc hopen => ?_, fun i c hc hlive => absurd hlive (hnone hc),
    fun i hi => ?_, fun i c hc hlive => absurd hlive (hnone hc), fun _ => h.idle hclosed,
    fun ⟨_, ho, _⟩ => (nomatch ho), h.once, fun id reply hmem =>
      (h.matched id reply hmem).append rfl⟩
  · rcases of_append hc with hold | ⟨-, rfl⟩
    · exact h.lawful i c hold
    · exact Nat.zero_le _
  · rcases of_append hc with hold | ⟨-, rfl⟩
    · exact h.ended i c hold hopen
    · exact nomatch hopen.1
  · obtain ⟨c, hc, hlive, -⟩ := h.current i hi
    exact absurd hlive (hclosed i c hc)

/-- The attach that waited for a channel goes on with it. -/
theorem Sound.opened (h : manager.Sound) {opening : Opening}
    (hopening : manager.opening = some opening) (hphase : opening.phase = .awaitingChannel)
    (environment : List String) : (manager.opened opening environment).Sound := by
  have hawaiting : manager.Awaiting := ⟨opening, hopening, hphase⟩
  unfold RemoteTmuxControlManager.opened
  dsimp only
  split
  · exact h.discard hawaiting
  split
  · rw [sendEnvironment_opening]
    have htaken := h.take hawaiting
      (some { opening with phase := .injecting manager.channels.length }) fun o ho => by
        obtain rfl := Option.some.inj ho
        exact nofun
    refine Sound.sendEnvironment (htaken.of_same ?_) environment
    exact ⟨rfl, rfl, rfl, rfl, rfl, rfl, rfl, fun hnext => hnext⟩
  · have htaken := h.take hawaiting none nofun
    exact htaken.of_same ⟨rfl, rfl, rfl, rfl, rfl, rfl, rfl, fun ⟨_, ho, _⟩ => nomatch ho⟩

/-- The close event of a channel, for whatever reason its commands fail. -/
theorem Sound.deliverClose (h : manager.Sound) (hc : manager.channels[id]? = some c)
    (hlive : c.Live) (hended : c.closed = true ∨ c.dropped = true) (message : String) :
    ((({ manager with channel := none } : RemoteTmuxControlManager).rejectPending
      message).updateChannel id (·.deliverClose)).Sound := by
  have hrejected : (({ manager with channel := none } : RemoteTmuxControlManager).rejectPending
      message).Sound := h.forget.rejectPending rfl message
  have hnone {i : ℕ} {d : ControlChannel}
      (hd : ((({ manager with channel := none } : RemoteTmuxControlManager).rejectPending
        message).updateChannel id (·.deliverClose)).channels[i]? = some d) : ¬ d.Live := by
    obtain ⟨d', hd', rfl⟩ := of_updateChannel hd
    split
    · exact fun hlive => nomatch hlive.2
    · next hne => exact fun hdlive => hne (h.eq_of_live hc hlive hd' hdlive).1
  refine hrejected.update ControlChannel.grows_deliverClose rfl (fun d hd => ?_)
    (fun d hd hopen => ?_) (fun hawaiting => hawaiting) nofun
    (fun i d hd hdlive => absurd hdlive (hnone hd)) (fun _ => rfl) hrejected.fresh hrejected.once
    hrejected.matched
  · exact hrejected.lawful id d hd
  · obtain rfl := Option.some.inj (hc.symm.trans hd)
    rcases hended with hclosed | hdropped
    · exact nomatch hclosed.symm.trans hopen.1
    · exact nomatch hdropped.symm.trans hopen.2

/-- The handler of a close event reattaches, unless the manager was closed. -/
theorem Sound.onClose (h : manager.Sound) (hc : manager.channels[id]? = some c)
    (hwired : c.wired = true)
    (hended : c.closed = true ∨ c.dropped = true) (hdelivered : c.closeDelivered = false) :
    (manager.onClose id).Sound := by
  have hcore : ((({ manager with channel := none, stableTimer := false } :
      RemoteTmuxControlManager).rejectPending "tmux control channel closed").updateChannel id
        (·.deliverClose)).Sound :=
    (h.deliverClose hc ⟨hwired, hdelivered⟩ hended _).of_same
      ⟨rfl, rfl, rfl, rfl, rfl, rfl, rfl, fun hawaiting => hawaiting⟩
  unfold RemoteTmuxControlManager.onClose
  dsimp only
  split
  · exact hcore.emit _
  · exact hcore.scheduleReattach

theorem Sound.produce (h : manager.Sound) {chunk : Text} (hc : manager.channels[id]? = some c)
    (hlawful : (repliesOf (c.chunks ++ [chunk])).length ≤ c.written.length + 1) :
    (manager.updateChannel id (·.produce chunk)).Sound := by
  refine h.update (fun c => c.grows_produce chunk) rfl (fun d hd => ?_)
    (fun d hd => h.ended id d hd)
    (fun hawaiting => hawaiting) (fun i hi => ?_) (fun i d hd hdlive => ?_) (fun hall => ?_) h.fresh
    h.once h.matched
  · obtain rfl := Option.some.inj (hc.symm.trans hd)
    exact hlawful
  · obtain ⟨d, hd, hlive, hopen⟩ := h.current i hi
    refine ⟨_, updateChannel_of hd, ?_⟩
    split <;> exact ⟨hlive, hopen⟩
  · obtain ⟨d', hd', rfl⟩ := of_updateChannel hd
    split at hdlive
    · next heq =>
      obtain ⟨hparser, hsaw, hdelivered, hpending⟩ := h.reading i d' hd' hdlive
      have htake : (d'.produce chunk).chunks.take d'.delivered = d'.chunks.take d'.delivered :=
        List.take_append_of_le_length hdelivered
      rw [if_pos heq]
      refine ⟨?_, ?_, ?_, ?_⟩
      · rw [show (d'.produce chunk).delivered = d'.delivered from rfl, htake]
        exact hparser
      · rw [ControlChannel.read, show (d'.produce chunk).delivered = d'.delivered from rfl, htake]
        exact hsaw
      · exact hdelivered.trans (by simp [ControlChannel.produce])
      · rw [ControlChannel.read, show (d'.produce chunk).delivered = d'.delivered from rfl, htake]
        exact hpending
    · next hne =>
      rw [if_neg hne]
      exact (h.reading i d' hd' hdlive).of_eq rfl rfl rfl rfl
  · refine h.idle fun i d hd hdlive => hall i _ (updateChannel_of hd) ?_
    split <;> exact hdlive

/-- The manager while it handles the notifications of a chunk of the live channel `c`, of
which it has seen `seen` replies. -/
structure Ingesting (manager : RemoteTmuxControlManager) (id : ℕ) (c : ControlChannel) (seen : ℕ) :
    Prop where
  channel : manager.channels[id]? = some c
  lawful : c.replies.length ≤ c.written.length + 1
  saw : manager.sawInitialBlock = decide (0 < seen)
  pending : manager.pending = [] ∧ manager.channel = none ∨
    manager.pending.map (·.id) = (c.written.map (·.id)).drop (seen - 1)
  once : (manager.settled.map (·.1) ++ manager.pending.map (·.id)).Perm
    (List.range manager.nextCommand)
  matched : ∀ id reply, (id, .resolved reply) ∈ manager.settled → manager.Answers id reply

/-- The next reply settles the next command, and the first one none. -/
theorem Ingesting.reply {seen : ℕ} {reply : CommandReply} (h : manager.Ingesting id c seen)
    (hreply : c.replies[seen]? = some reply) :
    (manager.ingestOne (.reply reply)).Ingesting id c (seen + 1) := by
  have hlawful := h.lawful
  have hseen := (List.getElem?_eq_some_iff.mp hreply).1
  unfold RemoteTmuxControlManager.ingestOne
  dsimp only
  split
  · next hsaw =>
    -- the first block answers no command
    obtain rfl : seen = 0 := by
      have hdecide := h.saw.symm.trans hsaw
      simpa using hdecide
    exact ⟨h.channel, h.lawful, rfl, h.pending, h.once, h.matched⟩
  · next hsaw =>
    have hpositive : 0 < seen := by
      have htrue := h.saw
      simp only [Bool.not_eq_false] at hsaw
      simpa [hsaw] using htrue
    have hsaw' : manager.sawInitialBlock = decide (0 < seen + 1) := by
      rw [h.saw]
      simp [hpositive]
    split
    · next hnil =>
      refine ⟨h.channel, h.lawful, hsaw', h.pending.imp_right fun hids => ?_, h.once, h.matched⟩
      rw [hnil, List.map_nil] at hids ⊢
      have hlength := List.drop_eq_nil_iff.mp hids.symm
      exact (List.drop_eq_nil_of_le (by omega)).symm
    · next command rest hcons =>
      -- reply `seen` belongs to the command written as number `seen - 1`
      have hids := h.pending.resolve_left fun hnone => nomatch hnone.1.symm.trans hcons
      rw [hcons, List.map_cons] at hids
      have hhead : (c.written.map (·.id))[seen - 1]? = some command.id := by
        rw [← List.head?_drop, ← hids]
        rfl
      have htail : rest.map (·.id) = (c.written.map (·.id)).drop seen := by
        have hdrop := congrArg (List.drop 1) hids
        rw [List.drop_drop, Nat.sub_add_cancel hpositive] at hdrop
        exact hdrop
      refine ⟨h.channel, h.lawful, hsaw', .inr htail, ?_, fun settledID answer hmem => ?_⟩
      · have honce := h.once
        rw [hcons] at honce
        simpa [settleCommand] using honce
      · rcases List.mem_append.mp hmem with hold | hnew
        · exact h.matched settledID answer hold
        · have heq := List.mem_singleton.mp hnew
          simp only [settleCommand, Prod.mk.injEq] at heq
          obtain ⟨rfl, houtcome⟩ := heq
          split at houtcome
          · exact nomatch houtcome
          · obtain rfl := Outcome.resolved.inj houtcome
            exact ⟨id, c, seen - 1, h.channel, hhead, by rwa [Nat.sub_add_cancel hpositive]⟩

/-- The notifications of a chunk, whose replies come next on the channel. -/
theorem Ingesting.foldl {seen : ℕ} {notifications : List TmuxNotification}
    (h : manager.Ingesting id c seen)
    (hreplies : ∀ n reply, (notifications.filterMap (·.reply?))[n]? = some reply →
      c.replies[seen + n]? = some reply) :
    (notifications.foldl ingestOne manager).Ingesting id c
      (seen + (notifications.filterMap (·.reply?)).length) := by
  induction notifications generalizing manager seen with
  | nil => exact h
  | cons notification rest ih =>
    cases notification with
    | reply reply =>
      have hstep := h.reply (hreplies 0 reply rfl)
      have hrest := ih hstep fun n answer hanswer => by
        have hnext := hreplies (n + 1) answer hanswer
        rwa [← Nat.add_assoc, Nat.add_right_comm] at hnext
      have hlength : seen + ((TmuxNotification.reply reply :: rest).filterMap (·.reply?)).length =
          seen + 1 + (rest.filterMap (·.reply?)).length := by
        simp only [List.filterMap_cons, TmuxNotification.reply?, List.length_cons]
        omega
      rw [hlength]
      exact hrest
    | exit reason =>
      exact ih ⟨h.channel, h.lawful, h.saw, h.pending, h.once, h.matched⟩ hreplies
    | other line =>
      exact ih ⟨h.channel, h.lawful, h.saw, h.pending, h.once, h.matched⟩ hreplies

/-- What handling notifications leaves alone. -/
structure Undisturbed (manager next : RemoteTmuxControlManager) : Prop where
  channels : next.channels = manager.channels
  channel : next.channel = manager.channel
  parser : next.parser = manager.parser
  nextCommand : next.nextCommand = manager.nextCommand
  opening : next.opening = manager.opening

theorem undisturbed_foldl (manager : RemoteTmuxControlManager)
    (notifications : List TmuxNotification) :
    Undisturbed manager (notifications.foldl ingestOne manager) := by
  induction notifications generalizing manager with
  | nil => exact ⟨rfl, rfl, rfl, rfl, rfl⟩
  | cons notification rest ih =>
    have hone : Undisturbed manager (manager.ingestOne notification) := by
      cases notification with
      | reply reply =>
        unfold ingestOne
        dsimp only
        split
        · exact ⟨rfl, rfl, rfl, rfl, rfl⟩
        · split <;> exact ⟨rfl, rfl, rfl, rfl, rfl⟩
      | exit reason => exact ⟨rfl, rfl, rfl, rfl, rfl⟩
      | other line => exact ⟨rfl, rfl, rfl, rfl, rfl⟩
    have hrest := ih (manager.ingestOne notification)
    exact ⟨hrest.channels.trans hone.channels, hrest.channel.trans hone.channel,
      hrest.parser.trans hone.parser, hrest.nextCommand.trans hone.nextCommand,
      hrest.opening.trans hone.opening⟩

/-- The data event of a chunk advances a fresh parser over the delivered chunks by it. -/
theorem read_deliver {chunk : Text} (hchunk : c.chunks[c.delivered]? = some chunk) :
    (({} : TmuxControlParser).read (c.deliver.chunks.take c.deliver.delivered)) =
      ((((({} : TmuxControlParser).read (c.chunks.take c.delivered)).1).feed chunk).1,
        (({} : TmuxControlParser).read (c.chunks.take c.delivered)).2 ++
          ((({} : TmuxControlParser).read (c.chunks.take c.delivered)).1.feed chunk).2) := by
  have htake : c.deliver.chunks.take c.deliver.delivered =
      c.chunks.take c.delivered ++ [chunk] := by
    show c.chunks.take (c.delivered + 1) = _
    rw [List.take_add_one, hchunk]
    rfl
  rw [htake, TmuxControlParser.read_concat]

/-- A data event of the live channel. -/
theorem Sound.data (h : manager.Sound) {chunk : Text} (hc : manager.channels[id]? = some c)
    (hchunk : c.chunks[c.delivered]? = some chunk) (hlive : c.Live) :
    ((manager.updateChannel id (·.deliver)).ingest chunk).Sound := by
  obtain ⟨hparser, hsaw, hdelivered, hpending⟩ := h.reading id c hc hlive
  have hadvance := read_deliver hchunk
  rw [← hparser] at hadvance
  have hread : c.deliver.read = c.read ++ (manager.parser.feed chunk).2.filterMap (·.reply?) := by
    rw [ControlChannel.read, repliesOf, hadvance, List.filterMap_append]
    rfl
  have hdeliver : (manager.updateChannel id (·.deliver)).channels[id]? = some c.deliver := by
    rw [updateChannel_of hc, if_pos rfl]
  -- the chunk has left the channel and the parser has read it, but no event is handled yet
  let started : RemoteTmuxControlManager :=
    { manager.updateChannel id (·.deliver) with parser := (manager.parser.feed chunk).1 }
  have hstarted : started.Ingesting id c.deliver c.read.length :=
    ⟨hdeliver, h.lawful id c hc, hsaw, hpending, h.once, fun settledID reply hmem =>
      (h.matched settledID reply hmem).update ControlChannel.grows_deliver⟩
  have hsame := undisturbed_foldl started (manager.parser.feed chunk).2
  have hingested := hstarted.foldl fun n reply hreply => by
    obtain ⟨more, hmore⟩ := c.deliver.read_prefix
    have hbound := (List.getElem?_eq_some_iff.mp hreply).1
    -- the replies of this chunk are the next ones that the channel was to deliver
    rw [← hmore, hread, List.append_assoc, List.getElem?_append_right (Nat.le_add_right _ _),
      Nat.add_sub_cancel_left, List.getElem?_append_left hbound]
    exact hreply
  rw [← List.length_append, ← hread] at hingested
  have hnext : (manager.updateChannel id (·.deliver)).ingest chunk =
      (manager.parser.feed chunk).2.foldl ingestOne started := rfl
  rw [hnext]
  generalize (manager.parser.feed chunk).2.foldl ingestOne started = next at hsame hingested
  have hawaiting : next.Awaiting → manager.Awaiting := by
    rintro ⟨opening, hopening, hphase⟩
    exact ⟨opening, hsame.opening.symm.trans hopening, hphase⟩
  have hnot := (h.last id c hc hlive).2
  refine h.update ControlChannel.grows_deliver hsame.channels (fun d hd => h.lawful id d hd)
    (fun d hd => h.ended id d hd) hawaiting (fun i hi => ?_) (fun i d hd hdlive => ?_)
    (fun hall => ?_) (fun hnext => absurd (hawaiting hnext) hnot) hingested.once
    (fun settledID reply hmem => ?_)
  · obtain ⟨d, hd, hdlive, hopen⟩ := h.current i (hsame.channel.symm.trans hi)
    refine ⟨_, (congrArg (·[i]?) hsame.channels).trans (updateChannel_of hd), ?_⟩
    split <;> exact ⟨hdlive, hopen⟩
  · obtain ⟨d', hd', rfl⟩ := of_updateChannel (hsame.channels ▸ hd)
    have hd'live : d'.Live := by
      split at hdlive <;> exact hdlive
    obtain ⟨rfl, rfl⟩ := h.eq_of_live hc hlive hd' hd'live
    rw [if_pos rfl]
    refine ⟨?_, hingested.saw, ?_, hingested.pending⟩
    · rw [hsame.parser, hadvance]
    · exact (List.getElem?_eq_some_iff.mp hchunk).1
  · exact absurd hlive (hall id c.deliver (hingested.channel))
  · -- the channels differ in what was delivered only
    obtain ⟨i, d, n, hd, hwritten, hreply⟩ := hingested.matched settledID reply hmem
    obtain ⟨d', hd', rfl⟩ := of_updateChannel (hsame.channels ▸ hd)
    refine ⟨i, d', n, hd', ?_⟩
    split at hwritten
    · next heq =>
      rw [if_pos heq] at hreply
      exact ⟨hwritten, hreply⟩
    · next hne =>
      rw [if_neg hne] at hreply
      exact ⟨hwritten, hreply⟩

/-- Without commands in flight a reply settles nothing. -/
theorem idle_foldl (hidle : manager.pending = []) (notifications : List TmuxNotification) :
    (notifications.foldl ingestOne manager).pending = [] ∧
      (notifications.foldl ingestOne manager).settled = manager.settled := by
  induction notifications generalizing manager with
  | nil => exact ⟨hidle, rfl⟩
  | cons notification rest ih =>
    have hone : (manager.ingestOne notification).pending = [] ∧
        (manager.ingestOne notification).settled = manager.settled := by
      cases notification with
      | reply reply =>
        unfold ingestOne
        dsimp only
        split
        · exact ⟨hidle, rfl⟩
        · rw [hidle]
          exact ⟨hidle, rfl⟩
      | exit reason => exact ⟨hidle, rfl⟩
      | other line => exact ⟨hidle, rfl⟩
    obtain ⟨hpending, hsettled⟩ := ih hone.1
    exact ⟨hpending, hsettled.trans hone.2⟩

/-- A data event that comes after every close event. -/
theorem Sound.lateData (h : manager.Sound) (hclosed : manager.AllClosed)
    (hnot : ¬ manager.Awaiting) (chunk : Text) :
    ((manager.updateChannel id (·.deliver)).ingest chunk).Sound := by
  let started : RemoteTmuxControlManager :=
    { manager.updateChannel id (·.deliver) with parser := (manager.parser.feed chunk).1 }
  have hsame := undisturbed_foldl started (manager.parser.feed chunk).2
  have hstarted : started.pending = [] := h.idle hclosed
  have hidle := idle_foldl hstarted (manager.parser.feed chunk).2
  have hnext : (manager.updateChannel id (·.deliver)).ingest chunk =
      (manager.parser.feed chunk).2.foldl ingestOne started := rfl
  rw [hnext]
  generalize (manager.parser.feed chunk).2.foldl ingestOne started = next at hsame hidle
  have hawaiting : next.Awaiting → manager.Awaiting := by
    rintro ⟨opening, hopening, hphase⟩
    exact ⟨opening, hsame.opening.symm.trans hopening, hphase⟩
  refine h.update ControlChannel.grows_deliver hsame.channels (fun d hd => h.lawful id d hd)
    (fun d hd => h.ended id d hd) hawaiting (fun i hi => ?_) (fun i d hd hdlive => ?_)
    (fun _ => hidle.1) (fun hnext => absurd (hawaiting hnext) hnot) ?_
    (fun settledID reply hmem => ?_)
  · obtain ⟨d, hd, hdlive, -⟩ := h.current i (hsame.channel.symm.trans hi)
    exact absurd hdlive (hclosed i d hd)
  · obtain ⟨d', hd', rfl⟩ := of_updateChannel (hsame.channels ▸ hd)
    refine absurd ?_ (hclosed i d' hd')
    split at hdlive <;> exact hdlive
  · have honce := h.once
    rw [h.idle hclosed] at honce
    rw [hidle.1, hidle.2, hsame.nextCommand]
    exact honce
  · exact h.matched settledID reply (hidle.2 ▸ hmem)

theorem Sound.open_ (h : manager.Sound) (hprompt : manager.Prompt .open_) :
    manager.open_.Sound := by
  unfold RemoteTmuxControlManager.open_
  dsimp only
  have hreopened : Sound { manager with closed := false } :=
    h.of_same ⟨rfl, rfl, rfl, rfl, rfl, rfl, rfl, fun hawaiting => hawaiting⟩
  split
  · exact h
  · next hchannel =>
    split
    · exact hreopened
    · next hopening =>
      have hnone : manager.opening = none := by
        simpa using hopening
      have hfree : manager.channel = none := by
        simpa [hnone] using hchannel
      split
      · exact hreopened
      · next htimer =>
        have hclosed : manager.AllClosed := hprompt hfree hnone (by
          by_cases hpending : manager.reattachTimer = true
          · exact .inr (by simpa [hpending] using htimer)
          · exact .inl (Bool.not_eq_true _ ▸ hpending))
        split
        · have hrevived : Sound { manager with
              closed := false, gaveUp := false, reattachAttempt := 0 } :=
            h.of_same ⟨rfl, rfl, rfl, rfl, rfl, rfl, rfl, fun hawaiting => hawaiting⟩
          exact hrevived.ensureOpen (fun _ => hclosed) 0
        · exact hreopened.ensureOpen (fun _ => hclosed) 0

theorem Sound.announce (h : manager.Sound) : manager.announce.Sound := by
  have hcore : Sound { manager with epoch := manager.epoch + 1 } :=
    h.of_same ⟨rfl, rfl, rfl, rfl, rfl, rfl, rfl, fun hawaiting => hawaiting⟩
  exact hcore.emit _

theorem Sound.injected (h : manager.Sound) (hprompt : manager.Prompt .injected)
    {opening : Opening} (hopening : manager.opening = some opening)
    (hphase : opening.phase = .injecting id) : (manager.injected opening id).Sound := by
  unfold RemoteTmuxControlManager.injected
  split
  · exact h.announce.finishOpening
  · next hchannel =>
    split
    · exact h.finishOpening
    · next hlost =>
      simp only [not_or, Bool.not_eq_true] at hlost
      split
      · exact h.rejectOpening _
      · next hretried =>
        exact h.startAttach (hprompt opening id hopening hphase hchannel hlost.1 hlost.2.1 hlost.2.2
          (Bool.not_eq_true _ ▸ hretried)) true _

/-- What a data event needs and does. -/
theorem step_data (hstep : manager.step (.data id) = some next) :
    ∃ (c : ControlChannel) (chunk : Text), manager.channels[id]? = some c ∧
      c.chunks[c.delivered]? = some chunk ∧ c.wired = true ∧
      next = (manager.updateChannel id (·.deliver)).ingest chunk := by
  unfold RemoteTmuxControlManager.step at hstep
  dsimp only at hstep
  split at hstep
  · next c hc =>
    split at hstep
    · next chunk hchunk =>
      split at hstep
      · next hwired => exact ⟨c, chunk, hc, hchunk, hwired, (Option.some.inj hstep).symm⟩
      · exact nomatch hstep
    · exact nomatch hstep
  · exact nomatch hstep

/-- What a close event needs and does. -/
theorem step_closeEvent (hstep : manager.step (.closeEvent id) = some next) :
    ∃ c : ControlChannel, manager.channels[id]? = some c ∧ c.Live ∧
      (c.closed = true ∨ c.dropped = true) ∧ next = manager.onClose id := by
  unfold RemoteTmuxControlManager.step at hstep
  dsimp only at hstep
  split at hstep
  · next c hc =>
    split at hstep
    · next hcondition =>
      obtain ⟨hwired, hended, hdelivered⟩ := hcondition
      exact ⟨c, hc, ⟨hwired, Bool.not_eq_true _ ▸ hdelivered⟩, hended, (Option.some.inj hstep).symm⟩
    · exact nomatch hstep
  · exact nomatch hstep

/-- Every prompt step keeps the invariant. -/
theorem Sound.step (h : manager.Sound) {label : ControlStep} (hprompt : manager.Prompt label)
    (hstep : manager.step label = some next) : next.Sound := by
  cases label with
  | open_ =>
    obtain rfl := Option.some.inj hstep
    exact h.open_ hprompt
  | close =>
    obtain rfl := Option.some.inj hstep
    exact h.close
  | command args tolerateErrors =>
    obtain rfl := Option.some.inj hstep
    exact h.command args tolerateErrors
  | opened environment =>
    unfold RemoteTmuxControlManager.step at hstep
    dsimp only at hstep
    split at hstep
    · next opening hopening =>
      obtain ⟨hphase, rfl⟩ := of_ite_some hstep
      exact h.opened hopening hphase environment
    · exact nomatch hstep
  | openFailed =>
    unfold RemoteTmuxControlManager.step at hstep
    dsimp only at hstep
    split at hstep
    · obtain ⟨_, rfl⟩ := of_ite_some hstep
      exact h.rejectOpening _
    · exact nomatch hstep
  | strategyCommand args =>
    unfold RemoteTmuxControlManager.step at hstep
    dsimp only at hstep
    split at hstep
    · split at hstep
      · obtain rfl := Option.some.inj hstep
        exact h.command args true
      · obtain rfl := Option.some.inj hstep
        exact h
    · exact nomatch hstep
  | injected =>
    unfold RemoteTmuxControlManager.step at hstep
    dsimp only at hstep
    split at hstep
    · next opening hopening =>
      split at hstep
      · next id hphase =>
        obtain rfl := Option.some.inj hstep
        exact h.injected hprompt hopening hphase
      · exact nomatch hstep
    · exact nomatch hstep
  | produce id chunk =>
    unfold RemoteTmuxControlManager.step at hstep
    dsimp only at hstep
    split at hstep
    · next c hc =>
      obtain ⟨hlawful, rfl⟩ := of_ite_some hstep
      exact h.produce hc hlawful
    · exact nomatch hstep
  | drop id =>
    obtain ⟨_, rfl⟩ := of_ite_some hstep
    exact h.drop
  | data id =>
    obtain ⟨c, chunk, hc, hchunk, hwired, rfl⟩ := step_data hstep
    cases hended : c.closeDelivered with
    | false => exact h.data hc hchunk ⟨hwired, hended⟩
    | true =>
      obtain ⟨hclosed, hnot⟩ := hprompt c hc hended
      -- a chunk after the close event reaches no live channel and no attach
      exact h.lateData hclosed hnot chunk
  | closeEvent id =>
    obtain ⟨c, hc, hlive, hended, rfl⟩ := step_closeEvent hstep
    exact h.onClose hc hlive.1 hended hlive.2
  | reattach =>
    unfold RemoteTmuxControlManager.step at hstep
    dsimp only at hstep
    -- the invariant does not speak of the timer
    have hfired : Sound { manager with reattachTimer := false } :=
      h.of_same ⟨rfl, rfl, rfl, rfl, rfl, rfl, rfl, fun hawaiting => hawaiting⟩
    obtain ⟨_, rfl⟩ := of_ite_some hstep
    split
    · exact hfired
    · next hopen => exact hfired.ensureOpen (hprompt (Bool.not_eq_true _ ▸ hopen)) 1
  | stable =>
    obtain ⟨_, rfl⟩ := of_ite_some hstep
    exact h.of_same ⟨rfl, rfl, rfl, rfl, rfl, rfl, rfl, fun hawaiting => hawaiting⟩
  | unresponsive =>
    obtain ⟨_, rfl⟩ := of_ite_some hstep
    exact h.unresponsive _

/-- Nothing has happened yet. -/
theorem sound_initial (injection : Bool) : Sound { injection } where
  lawful := nofun
  ended := nofun
  last := nofun
  current := nofun
  reading := nofun
  idle _ := rfl
  fresh _ := rfl
  once := List.Perm.refl _
  matched := nofun

theorem Sound.atMostOneOpen (h : manager.Sound) : manager.AtMostOneOpen :=
  fun i j c d hc hd hcopen hdopen =>
    (h.eq_of_live hc (h.ended i c hc hcopen) hd (h.ended j d hd hdopen)).1

/-- A close event rejects the commands in flight. -/
theorem rejected_of_closeEvent {command : PendingCommand} (hmem : command ∈ manager.pending)
    (hstep : manager.step (.closeEvent id) = some next) :
    ∃ outcome, (command.id, outcome) ∈ next.settled := by
  obtain ⟨-, -, -, -, rfl⟩ := step_closeEvent hstep
  have hrejected : (command.id, .rejected "tmux control channel closed") ∈
      manager.settled ++ manager.pending.map fun command =>
        (command.id, Outcome.rejected "tmux control channel closed") :=
    List.mem_append_right _ (List.mem_map.mpr ⟨command, hmem, rfl⟩)
  refine ⟨.rejected "tmux control channel closed", ?_⟩
  unfold RemoteTmuxControlManager.onClose RemoteTmuxControlManager.scheduleReattach
  dsimp only
  split
  · exact hrejected
  · split <;> exact hrejected

theorem Sound.commandsSettle (h : manager.Sound) : manager.CommandsSettle where
  once := h.once
  waiting command hmem := by
    have hnot : ¬ manager.AllClosed := fun hclosed => nomatch h.idle hclosed ▸ hmem
    simp only [AllClosed, not_forall, not_not] at hnot
    obtain ⟨i, c, hc, hlive⟩ := hnot
    have hids := (h.reading i c hc hlive).pending.resolve_left fun hnone => nomatch hnone.1 ▸ hmem
    have hid : command.id ∈ manager.pending.map (·.id) := List.mem_map.mpr ⟨command, hmem, rfl⟩
    rw [hids] at hid
    exact ⟨i, c, hc, hlive, List.mem_of_mem_drop hid, fun next => rejected_of_closeEvent hmem⟩
  matched := h.matched

/-- No other channel delivers a prompt event while there is a current one. -/
theorem Sound.keepsCurrent (h : manager.Sound) {label : ControlStep}
    (hprompt : manager.Prompt label) (hstep : manager.step label = some next) :
    manager.KeepsCurrent label next := by
  intro id current hlabel hcurrent hne
  obtain ⟨d, hd, hdlive, -⟩ := h.current current hcurrent
  rcases hlabel with rfl | rfl
  · obtain ⟨c, chunk, hc, -, hwired, -⟩ := step_data hstep
    cases hended : c.closeDelivered with
    | false => exact absurd (h.eq_of_live hc ⟨hwired, hended⟩ hd hdlive).1 hne
    | true => exact absurd hdlive ((hprompt c hc hended).1 current d hd)
  · obtain ⟨c, hc, hlive, -, -⟩ := step_closeEvent hstep
    exact absurd (h.eq_of_live hc hlive hd hdlive).1 hne

/-- **Prompt events.** In every run whose attaches begin once every earlier channel has had
its close event, and whose late data finds the manager idle, at most one channel is open,
every command settles once and with the reply to itself, and no step touches the current
channel for the sake of another one. -/
theorem lifecycle_of_prompt (injection : Bool)
    (hreach : Reaches RemoteTmuxControlManager.step Prompt { injection } manager) :
    manager.AtMostOneOpen ∧ manager.CommandsSettle ∧
      ∀ label next, manager.Prompt label → manager.step label = some next →
        manager.KeepsCurrent label next := by
  have hsound : manager.Sound :=
    hreach.invariant (fun _ _ _ h hprompt hstep => Sound.step h hprompt hstep)
      (sound_initial injection)
  exact ⟨hsound.atMostOneOpen, hsound.commandsSettle, fun _ _ => hsound.keepsCurrent⟩

/-- A lost channel whose close event comes before the next attach. -/
theorem lifecycle_reattached :
    ∃ manager : RemoteTmuxControlManager, manager.channel = some 1 ∧
      manager.settled = [(0, .rejected "tmux control channel closed")] ∧
      manager.AtMostOneOpen ∧ manager.CommandsSettle ∧
      ∀ label next, manager.Prompt label → manager.step label = some next →
        manager.KeepsCurrent label next := by
  have hreach : ∃ manager : RemoteTmuxControlManager,
      Reaches RemoteTmuxControlManager.step Prompt { injection := false } manager ∧
      manager.channel = some 1 ∧
      manager.settled = [(0, .rejected "tmux control channel closed")] := by
    refine ⟨_, ⟨[.open_, .opened [], .command "list-windows" false, .drop 0, .closeEvent 0,
      .reattach, .opened []], .cons (fun _ _ _ => nofun) rfl (.cons trivial rfl (.cons trivial rfl
        (.cons trivial rfl (.cons trivial rfl (.cons ?_ rfl (.single trivial rfl))))))⟩, rfl, rfl⟩
    rintro - - (_ | i) c hc
    · obtain rfl := Option.some.inj hc
      exact fun hlive => nomatch hlive.2
    · exact nomatch hc
  obtain ⟨manager, hreach, hchannel, hsettled⟩ := hreach
  exact ⟨manager, hchannel, hsettled, lifecycle_of_prompt false hreach⟩

/-! ### A late close event -/

/-- The close event of the first channel comes when the second one is open. -/
def lateClose : List ControlStep :=
  [.open_, .opened [], .close, .open_, .opened [], .closeEvent 0, .reattach, .opened []]

/-- It makes the manager forget the second channel, and open a third one beside it. -/
theorem not_lifecycle_of_late_close :
    ¬ ∀ (injection : Bool) (manager : RemoteTmuxControlManager),
      Reaches RemoteTmuxControlManager.step Always { injection } manager →
        manager.AtMostOneOpen ∧ manager.CommandsSettle ∧
          ∀ label next, manager.step label = some next → manager.KeepsCurrent label next := by
  intro hall
  have hreach : ∃ manager : RemoteTmuxControlManager,
      Reaches RemoteTmuxControlManager.step Always { injection := false } manager ∧
      manager.channels[1]? = some { wired := true } ∧
      manager.channels[2]? = some { wired := true } := by
    refine ⟨_, ⟨lateClose, .cons trivial rfl (.cons trivial rfl (.cons trivial rfl
      (.cons trivial rfl (.cons trivial rfl (.cons trivial rfl (.cons trivial rfl
        (.single trivial rfl)))))))⟩, rfl, rfl⟩
  obtain ⟨manager, hreach, hsecond, hthird⟩ := hreach
  have hone := (hall false manager hreach).1 1 2 _ _ hsecond hthird ⟨rfl, rfl⟩ ⟨rfl, rfl⟩
  exact nomatch hone

end RemoteTmuxControlManager

end AgentCockpit.Remote
