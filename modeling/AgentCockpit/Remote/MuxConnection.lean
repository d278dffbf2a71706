import AgentCockpit.Core.Arena
import AgentCockpit.Core.Run
import Mathlib.Logic.Function.Iterate

/-!
# The mux channel of one project

The manager owns the mux channel of a remote project: it dials a channel, wraps it in a client,
and dials again after a delay when the client is lost. A label is one turn of the event loop:
a call, a dial that settles, the callbacks of a settled attach, an event of a client, or the
backoff timer.

The timer dials whether or not a client is live, and a failed reattach schedules the next one
whether or not the session was stolen. In the runs where neither happens the manager keeps at
most one live client.
-/

namespace AgentCockpit.Remote

open AgentCockpit.Core

/-- The number of delays before the manager gives up. -/
def reattachBackoffs : ℕ := 4

/-- The request client over one channel. -/
structure MuxClient where
  closed : Bool := false
  deriving DecidableEq, Repr

inductive AttachPhase
  /-- The opener has not settled. -/
  | dialing
  /-- The body has run, the callbacks of its promise have not. -/
  | attached
  | settled
  deriving DecidableEq, Repr

/-- One call of `attach`. -/
structure Attach where
  /-- The generation it was called in. -/
  generation : ℕ
  phase : AttachPhase := .dialing
  /-- The timers that schedule another reattach when it is rejected. -/
  retries : ℕ := 0
  deriving DecidableEq, Repr

/-- What happens on the manager, in order. -/
inductive ConnectionEvent
  | opened
  | closed
  | dialed
  | attached (epoch : ℕ)
  | stolen
  | reconnecting
  | reattached
  | exhausted
  deriving DecidableEq, Repr

structure RemoteMuxConnectionManager where
  attaches : List Attach := []
  clients : List MuxClient := []
  client : Option ℕ := none
  opening : Option ℕ := none
  /-- Invalidates an opener that resolves after an explicit close. -/
  generation : ℕ := 0
  closed : Bool := false
  epoch : ℕ := 0
  reattachAttempt : ℕ := 0
  reattachTimer : Bool := false
  stolen : Bool := false
  events : List ConnectionEvent := []
  deriving DecidableEq, Repr

inductive ConnectionStep
  | open_
  | close
  /-- The opener of an attach resolves. -/
  | resolve (attach : ℕ)
  /-- The opener of an attach is rejected. -/
  | reject (attach : ℕ)
  /-- The callbacks of an attach that has run. -/
  | settle (attach : ℕ)
  /-- The channel of a client ends or fails, or carries a frame that cannot be read. -/
  | ended (client : ℕ)
  | sessionStolen (client : ℕ)
  /-- The backoff timer fires. -/
  | reattach
  deriving DecidableEq, Repr

namespace RemoteMuxConnectionManager

variable (manager : RemoteMuxConnectionManager)

def emit (event : ConnectionEvent) : RemoteMuxConnectionManager :=
  { manager with events := manager.events ++ [event] }

def setPhase (attach : ℕ) (phase : AttachPhase) : RemoteMuxConnectionManager :=
  { manager with attaches := manager.attaches.modify attach ({ · with phase }) }

def closeClient (client : ℕ) : RemoteMuxConnectionManager :=
  { manager with clients := manager.clients.modify client fun _ => { closed := true } }

/-- Join the attach in flight or begin one; `retries` of the callers reattach when it fails. -/
def ensureOpen (retries : ℕ) : RemoteMuxConnectionManager :=
  match manager.opening with
  | some id =>
    { manager with
      attaches := manager.attaches.modify id
        fun attach => { attach with retries := attach.retries + retries } }
  | none =>
    emit { manager with
      attaches := manager.attaches ++ [{ generation := manager.generation, retries }]
      opening := some manager.attaches.length } .dialed

def open_ : RemoteMuxConnectionManager :=
  if manager.client.isSome ∨ manager.opening.isSome then manager.emit .opened
  else ensureOpen { manager.emit .opened with closed := false, stolen := false } 0

def close : RemoteMuxConnectionManager :=
  let manager := { manager.emit .closed with
    generation := manager.generation + 1, closed := true, reattachTimer := false }
  match manager.client with
  | some client => { manager.closeClient client with client := none, opening := none }
  | none => { manager with opening := none }

/-- A lost channel is dialed again after a delay, a bounded number of times. -/
def scheduleReattach : RemoteMuxConnectionManager :=
  if manager.reattachTimer then manager
  else if reattachBackoffs ≤ manager.reattachAttempt then manager.emit .exhausted
  else
    { manager.emit .reconnecting with
      reattachAttempt := manager.reattachAttempt + 1, reattachTimer := true }

/-- The end of a reattach that was waiting counts as a fresh start. -/
def endReattaching : RemoteMuxConnectionManager :=
  if 0 < manager.reattachAttempt then { manager.emit .reattached with reattachAttempt := 0 }
  else manager

/-- The rest of `attach`, with the channel that the opener provided. -/
def attach (generation : ℕ) : RemoteMuxConnectionManager :=
  if manager.closed ∨ generation ≠ manager.generation then manager
  else
    let manager := endReattaching { manager with
      clients := manager.clients ++ [{}]
      client := some manager.clients.length
      epoch := manager.epoch + 1 }
    manager.emit (.attached manager.epoch)

/-- A stale opener never clears a newer one. -/
def clearOpening (attach : ℕ) : RemoteMuxConnectionManager :=
  if manager.opening = some attach then { manager with opening := none } else manager

/-- The handler of a client's close. -/
def onClose (client : ℕ) : RemoteMuxConnectionManager :=
  let manager :=
    if manager.client = some client then { manager with client := none } else manager
  if manager.closed = false ∧ manager.stolen = false then manager.scheduleReattach else manager

def onStolen : RemoteMuxConnectionManager :=
  emit { manager with stolen := true, reattachTimer := false } .stolen

/-- One turn of the event loop. A closed client reports nothing. -/
def step (manager : RemoteMuxConnectionManager) :
    ConnectionStep → Option RemoteMuxConnectionManager
  | .open_ => some manager.open_
  | .close => some manager.close
  | .resolve id =>
    match manager.attaches[id]? with
    | some attach =>
      if attach.phase = .dialing then
        some ((manager.setPhase id .attached).attach attach.generation)
      else none
    | none => none
  | .reject id =>
    match manager.attaches[id]? with
    | some attach =>
      if attach.phase = .dialing then
        some (scheduleReattach^[attach.retries] ((manager.setPhase id .settled).clearOpening id))
      else none
    | none => none
  | .settle id =>
    match manager.attaches[id]? with
    | some attach =>
      if attach.phase = .attached then some ((manager.setPhase id .settled).clearOpening id)
      else none
    | none => none
  | .ended id =>
    match manager.clients[id]? with
    | some client =>
      if client.closed = false then some ((manager.closeClient id).onClose id) else none
    | none => none
  | .sessionStolen id =>
    match manager.clients[id]? with
    | some client => if client.closed = false then some manager.onStolen else none
    | none => none
  | .reattach =>
    if manager.reattachTimer then some (ensureOpen { manager with reattachTimer := false } 1)
    else none

/-! ### What is promised -/

/-- A client that is not closed is the current one. -/
def AtMostOneLive : Prop :=
  ∀ (id : ℕ) (client : MuxClient), manager.clients[id]? = some client → client.closed = false →
    manager.client = some id

/-- After a close no client is live, and none is attached before the next open. -/
def QuietAfterClose : Prop :=
  ∀ before after, manager.events = before ++ .closed :: after → .opened ∉ after →
    (∀ client ∈ manager.clients, client.closed = true) ∧ ∀ epoch, .attached epoch ∉ after

/-- After the session was stolen nothing is dialed or attached before the next open. -/
def QuietAfterSteal : Prop :=
  ∀ before after, manager.events = before ++ .stolen :: after → .opened ∉ after →
    .dialed ∉ after ∧ ∀ epoch, .attached epoch ∉ after

/-- The backoff timer does not fire while there is a current client, and the dial of a reattach
does not fail while the session is stolen. -/
def Undisturbed : ConnectionStep → Prop
  | .reattach => manager.client = none
  | .reject id => ∀ attach, manager.attaches[id]? = some attach → 0 < attach.retries →
      manager.stolen = false
  | _ => True

instance : ∀ label, Decidable (manager.Undisturbed label)
  | .reattach => inferInstanceAs (Decidable (manager.client = none))
  | .reject id => inferInstanceAs (Decidable (∀ attach ∈ manager.attaches[id]?,
      0 < attach.retries → manager.stolen = false))
  | .open_ | .close | .resolve _ | .settle _ | .ended _ | .sessionStolen _ => isTrue trivial

/-! ### The log of events -/

/-- Since the last mark without a later open, the flag is up and nothing bad has happened. -/
def Silent (mark : ConnectionEvent) (bad : ConnectionEvent → Prop) (flag : Bool)
    (events : List ConnectionEvent) : Prop :=
  ∀ before after, events = before ++ mark :: after → .opened ∉ after →
    flag = true ∧ ∀ event ∈ after, ¬ bad event

section Silent

variable {mark event : ConnectionEvent} {bad : ConnectionEvent → Prop} {flag flag' : Bool}
  {events : List ConnectionEvent}

/-- An open ends every silence. -/
theorem silent_opened (hmark : mark ≠ .opened) : Silent mark bad flag (events ++ [.opened]) := by
  intro before after heq hopened
  rcases List.eq_nil_or_concat after with rfl | ⟨front, last, rfl⟩
  · obtain ⟨-, hlast⟩ := List.append_inj' heq rfl
    exact absurd (List.cons.inj hlast).1.symm hmark
  · have hsplit : events ++ [.opened] = (before ++ mark :: front) ++ [last] := by simpa using heq
    obtain ⟨-, hlast⟩ := List.append_inj' hsplit rfl
    obtain rfl := (List.cons.inj hlast).1
    exact absurd (by simp) hopened

/-- A mark raises the flag; any other event must respect it. -/
theorem Silent.snoc (h : Silent mark bad flag events) (hmark : event = mark → flag' = true)
    (hflag : flag = true → flag' = true) (hbad : flag = true → ¬ bad event) :
    Silent mark bad flag' (events ++ [event]) := by
  intro before after heq hopened
  rcases List.eq_nil_or_concat after with rfl | ⟨front, last, rfl⟩
  · obtain ⟨-, hlast⟩ := List.append_inj' heq rfl
    exact ⟨hmark (List.cons.inj hlast).1, fun _ hmem => absurd hmem List.not_mem_nil⟩
  · have hsplit : events ++ [event] = (before ++ mark :: front) ++ [last] := by simpa using heq
    obtain ⟨hevents, hlast⟩ := List.append_inj' hsplit rfl
    obtain rfl := (List.cons.inj hlast).1
    obtain ⟨hup, hfront⟩ := h before front hevents fun hmem =>
      hopened (by simp [List.concat_eq_append, hmem])
    refine ⟨hflag hup, fun later hlater => ?_⟩
    rcases List.mem_append.mp (List.concat_eq_append ▸ hlater) with hlater | hlater
    · exact hfront later hlater
    · obtain rfl := List.mem_singleton.mp hlater
      exact hbad hup

end Silent

def IsAttached : ConnectionEvent → Prop
  | .attached _ => True
  | _ => False

/-- The event is a dial, or the attach that follows it. -/
def IsReattach : ConnectionEvent → Prop
  | .dialed | .attached _ => True
  | _ => False

/-! ### The invariant -/

variable {manager}

/-- What holds along every undisturbed run. -/
structure Sound (manager : RemoteMuxConnectionManager) : Prop where
  live : manager.AtMostOneLive
  shut : manager.closed = true → manager.client = none
  /-- The only dial that can still attach is the one in flight, and nothing is attached yet. -/
  dialing : ∀ (id : ℕ) (attach : Attach), manager.attaches[id]? = some attach →
    attach.phase = .dialing → attach.generation = manager.generation →
      manager.opening = some id ∧ manager.client = none ∧ manager.stolen = false
  generation : ∀ (id : ℕ) (attach : Attach), manager.attaches[id]? = some attach →
    attach.generation ≤ manager.generation
  timer : manager.stolen = true → manager.reattachTimer = false
  closedLog : Silent .closed IsAttached manager.closed manager.events
  stolenLog : Silent .stolen IsReattach manager.stolen manager.events

theorem sound_initial : Sound {} where
  live _ _ h := nomatch h
  shut h := nomatch h
  dialing _ _ h := nomatch h
  generation _ _ h := nomatch h
  timer _ := rfl
  closedLog before after h := by simp at h
  stolenLog before after h := by simp at h

/-- An event that is neither a mark nor a reattach changes nothing. -/
theorem Sound.emit {event : ConnectionEvent} (h : Sound manager)
    (hclosed : event = .closed → manager.closed = true)
    (hstolen : event = .stolen → manager.stolen = true)
    (hattached : manager.closed = true → ¬ IsAttached event)
    (hreattach : manager.stolen = true → ¬ IsReattach event) : Sound (manager.emit event) where
  __ := h
  closedLog := h.closedLog.snoc hclosed id hattached
  stolenLog := h.stolenLog.snoc hstolen id hreattach

theorem Sound.scheduleReattach (h : Sound manager) (hstolen : manager.stolen = false) :
    Sound manager.scheduleReattach := by
  unfold RemoteMuxConnectionManager.scheduleReattach
  split
  · exact h
  · split
    · exact h.emit nofun nofun (fun _ => id) (fun _ => id)
    · have hemit : Sound (manager.emit .reconnecting) :=
        h.emit nofun nofun (fun _ => id) (fun _ => id)
      exact { hemit with timer := fun hup => absurd (hstolen.symm.trans hup) Bool.false_ne_true }

@[simp] theorem stolen_scheduleReattach : manager.scheduleReattach.stolen = manager.stolen := by
  unfold scheduleReattach
  split
  · rfl
  · split <;> rfl

theorem Sound.retry (h : Sound manager) (retries : ℕ)
    (hstolen : 0 < retries → manager.stolen = false) :
    Sound (RemoteMuxConnectionManager.scheduleReattach^[retries] manager) := by
  induction retries generalizing manager with
  | zero => exact h
  | succ retries ih =>
    have hdown := hstolen (Nat.succ_pos retries)
    rw [Function.iterate_succ_apply]
    exact ih (h.scheduleReattach hdown) fun _ => by rw [stolen_scheduleReattach, hdown]

/-- A change of one attach that keeps its generation and does not put it back to dialing. -/
theorem Sound.modifyAttach (h : Sound manager) (id : ℕ) {f : Attach → Attach}
    (hgeneration : ∀ attach, (f attach).generation = attach.generation)
    (hphase : ∀ attach, (f attach).phase = .dialing → attach.phase = .dialing) :
    Sound { manager with attaches := manager.attaches.modify id f } := by
  have hread : ∀ (i : ℕ) (attach : Attach), (manager.attaches.modify id f)[i]? = some attach →
      ∃ old, manager.attaches[i]? = some old ∧ attach.generation = old.generation ∧
        (attach.phase = .dialing → old.phase = .dialing) := fun i attach hget => by
    obtain ⟨old, hold, rfl⟩ := of_getElem?_modify hget
    refine ⟨old, hold, ?_⟩
    split
    · exact ⟨hgeneration old, hphase old⟩
    · exact ⟨rfl, fun hdialing => hdialing⟩
  exact { h with
    dialing := fun i attach hget hdialing hcurrent => by
      obtain ⟨old, hold, heq, himp⟩ := hread i attach hget
      exact h.dialing i old hold (himp hdialing) (heq ▸ hcurrent)
    generation := fun i attach hget => by
      obtain ⟨old, hold, heq, -⟩ := hread i attach hget
      exact heq ▸ h.generation i old hold }

/-- A new dial begins only when nothing is attached and the session was not stolen. -/
theorem Sound.ensureOpen (h : Sound manager) (retries : ℕ) (hclient : manager.client = none)
    (hstolen : manager.stolen = false) : Sound (manager.ensureOpen retries) := by
  unfold RemoteMuxConnectionManager.ensureOpen
  split
  · exact h.modifyAttach _ (fun _ => rfl) fun _ hdialing => hdialing
  · next hopening =>
    have hdialed : Sound { manager with
        attaches := manager.attaches ++ [{ generation := manager.generation, retries }]
        opening := some manager.attaches.length } :=
      { h with
        dialing := fun id attach hget hphase hgeneration => by
          rcases of_getElem?_concat hget with hold | ⟨rfl, -⟩
          · exact nomatch hopening.symm.trans (h.dialing id attach hold hphase hgeneration).1
          · exact ⟨rfl, hclient, hstolen⟩
        generation := fun id attach hget => by
          rcases of_getElem?_concat hget with hold | ⟨-, rfl⟩
          · exact h.generation id attach hold
          · exact Nat.le_refl _ }
    exact hdialed.emit nofun nofun (fun _ => id) fun hup =>
      absurd (hstolen.symm.trans hup) Bool.false_ne_true

theorem Sound.open_ (h : Sound manager) : Sound manager.open_ := by
  have hlogged : ∀ closed stolen, (closed = true → manager.client = none) →
      (stolen = true → manager.reattachTimer = false) →
      (∀ (id : ℕ) (attach : Attach), manager.attaches[id]? = some attach →
        attach.phase = .dialing → attach.generation = manager.generation →
          manager.opening = some id ∧ manager.client = none ∧ stolen = false) →
      Sound { manager.emit .opened with closed, stolen } := fun closed stolen hshut htimer hdial =>
    { live := h.live
      shut := hshut
      dialing := hdial
      generation := h.generation
      timer := htimer
      closedLog := silent_opened nofun
      stolenLog := silent_opened nofun }
  unfold RemoteMuxConnectionManager.open_
  split
  · exact hlogged manager.closed manager.stolen h.shut h.timer h.dialing
  · next hidle =>
    have hclient : manager.client = none := by
      cases hclient : manager.client with
      | none => rfl
      | some client => exact absurd (.inl (hclient ▸ rfl)) hidle
    have hfresh := hlogged false false nofun nofun fun id attach hget hphase hgeneration => by
      obtain ⟨hopening, hnone, -⟩ := h.dialing id attach hget hphase hgeneration
      exact ⟨hopening, hnone, rfl⟩
    exact hfresh.ensureOpen 0 hclient rfl

/-- A close makes every dial stale. -/
theorem Sound.close (h : Sound manager) : Sound manager.close := by
  have hstale : ∀ (id : ℕ) (attach : Attach), manager.attaches[id]? = some attach →
      attach.generation ≠ manager.generation + 1 ∧
        attach.generation ≤ manager.generation + 1 := fun id attach hget => by
    have hle := h.generation id attach hget
    omega
  have hclosedLog : Silent .closed IsAttached true (manager.events ++ [.closed]) :=
    h.closedLog.snoc (fun _ => rfl) (fun _ => rfl) fun _ => id
  have hstolenLog : Silent .stolen IsReattach manager.stolen (manager.events ++ [.closed]) :=
    h.stolenLog.snoc nofun id fun _ => id
  unfold RemoteMuxConnectionManager.close
  dsimp only
  split
  · next client hclient =>
    refine ⟨fun id other hget hlive => ?_, fun _ => rfl, fun id attach hget _ hgeneration =>
      absurd hgeneration (hstale id attach hget).1, fun id attach hget => (hstale id attach hget).2,
      fun _ => rfl, hclosedLog, hstolenLog⟩
    obtain ⟨old, hold, rfl⟩ := of_getElem?_modify hget
    split at hlive
    · exact nomatch hlive
    · next hne =>
      have hcurrent := h.live id old hold hlive
      exact absurd (Option.some.inj (hclient.symm.trans hcurrent)) hne
  · next hclient =>
    exact ⟨h.live, fun _ => hclient, fun id attach hget _ hgeneration =>
      absurd hgeneration (hstale id attach hget).1, fun id attach hget => (hstale id attach hget).2,
      fun _ => rfl, hclosedLog, hstolenLog⟩

/-- Only the dial in flight attaches, so that no other client is live. -/
theorem Sound.attach (h : Sound manager) (generation : ℕ)
    (hcurrent : generation = manager.generation → manager.client = none ∧ manager.stolen = false ∧
      ∀ (id : ℕ) (attach : Attach), manager.attaches[id]? = some attach →
        attach.phase = .dialing → attach.generation ≠ manager.generation) :
    Sound (manager.attach generation) := by
  unfold RemoteMuxConnectionManager.attach
  split
  · exact h
  · next hfresh =>
    rw [not_or, not_not] at hfresh
    obtain ⟨hopen, hgeneration⟩ := hfresh
    obtain ⟨hclient, hstolen, hdone⟩ := hcurrent hgeneration
    have hattached : Sound { manager with
        clients := manager.clients ++ [{}]
        client := some manager.clients.length
        epoch := manager.epoch + 1 } :=
      { h with
        live := fun id client hget hlive => by
          rcases of_getElem?_concat hget with hold | ⟨rfl, -⟩
          · exact nomatch hclient.symm.trans (h.live id client hold hlive)
          · rfl
        shut := fun hup => absurd hup hopen
        dialing := fun id attach hget hphase hsame =>
          absurd hsame (hdone id attach hget hphase) }
    have hended : ∀ {next : RemoteMuxConnectionManager}, Sound next →
        Sound next.endReattaching ∧ next.endReattaching.closed = next.closed ∧
          next.endReattaching.stolen = next.stolen := fun {next} hnext => by
      unfold RemoteMuxConnectionManager.endReattaching
      split
      · have hemit : Sound (next.emit .reattached) :=
          hnext.emit nofun nofun (fun _ => id) (fun _ => id)
        exact ⟨{ hemit with }, rfl, rfl⟩
      · exact ⟨hnext, rfl, rfl⟩
    obtain ⟨hsound, hclosed, hstill⟩ := hended hattached
    exact hsound.emit nofun nofun (fun hup => absurd (hclosed.symm.trans hup) hopen) fun hup =>
      absurd (hstolen.symm.trans (hstill.symm.trans hup)) Bool.false_ne_true

/-- The callbacks of an attach that is not dialing any more. -/
theorem Sound.clearOpening (h : Sound manager) (id : ℕ)
    (hdone : ∀ attach, manager.attaches[id]? = some attach → attach.phase ≠ .dialing) :
    Sound (manager.clearOpening id) := by
  unfold RemoteMuxConnectionManager.clearOpening
  split
  · next hopening =>
    refine { h with dialing := fun i attach hget hphase hgeneration => ?_ }
    have hsame := (h.dialing i attach hget hphase hgeneration).1
    obtain rfl := Option.some.inj (hopening.symm.trans hsame)
    exact absurd hphase (hdone attach hget)
  · exact h

@[simp] theorem stolen_clearOpening (id : ℕ) :
    (manager.clearOpening id).stolen = manager.stolen := by
  unfold clearOpening
  split <;> rfl

theorem Sound.settle (h : Sound manager) (id : ℕ) :
    Sound ((manager.setPhase id .settled).clearOpening id) := by
  have hset := h.modifyAttach id (f := ({ · with phase := .settled })) (fun _ => rfl) nofun
  refine hset.clearOpening id fun attach hget hphase => ?_
  obtain ⟨old, -, rfl⟩ := of_getElem?_modify hget
  rw [if_pos rfl] at hphase
  exact nomatch hphase

/-- The end of a client leaves no other one current. -/
theorem Sound.ended (h : Sound manager) (id : ℕ) :
    Sound ((manager.closeClient id).onClose id) := by
  have hclosed : ∀ client, (client = none ∨ client = manager.client) →
      (manager.client = some id → client = none) →
      (manager.client ≠ some id → client = manager.client) →
      Sound { manager.closeClient id with client } := fun client hcases hsame hother =>
    { h with
      live := fun i other hget hlive => by
        obtain ⟨old, hold, rfl⟩ := of_getElem?_modify hget
        split at hlive
        · exact nomatch hlive
        · next hne =>
          have hcurrent := h.live i old hold hlive
          exact (hother fun heq => hne (Option.some.inj (heq.symm.trans hcurrent))).trans hcurrent
      shut := fun hup => by
        rcases hcases with rfl | rfl
        · rfl
        · exact h.shut hup
      dialing := fun i attach hget hphase hgeneration => by
        obtain ⟨hopening, hnone, hstolen⟩ := h.dialing i attach hget hphase hgeneration
        rcases hcases with rfl | rfl
        · exact ⟨hopening, rfl, hstolen⟩
        · exact ⟨hopening, hnone, hstolen⟩ }
  unfold RemoteMuxConnectionManager.onClose
  dsimp only
  split
  · next hcurrent =>
    have hnone := hclosed none (.inl rfl) (fun _ => rfl) fun hne => absurd hcurrent hne
    split
    · next hretry => exact hnone.scheduleReattach hretry.2
    · exact hnone
  · next hother =>
    have hkept := hclosed manager.client (.inr rfl) (fun heq => absurd heq hother) fun _ => rfl
    split
    · next hretry => exact hkept.scheduleReattach hretry.2
    · exact hkept

/-- A client reports a steal only while it is the current one. -/
theorem Sound.onStolen (h : Sound manager) (hclient : manager.client.isSome) :
    Sound manager.onStolen where
  live := h.live
  shut := h.shut
  dialing id attach hget hphase hgeneration := by
    rw [(h.dialing id attach hget hphase hgeneration).2.1] at hclient
    exact nomatch hclient
  generation := h.generation
  timer _ := rfl
  closedLog := h.closedLog.snoc nofun id fun _ => id
  stolenLog := h.stolenLog.snoc (fun _ => rfl) (fun _ => rfl) fun _ => id

/-- Every admitted turn keeps the invariant. -/
theorem Sound.step {label : ConnectionStep} {next : RemoteMuxConnectionManager} (h : Sound manager)
    (hadmits : manager.Undisturbed label) (hstep : manager.step label = some next) :
    Sound next := by
  cases label with
  | open_ =>
    obtain rfl := Option.some.inj hstep
    exact h.open_
  | close =>
    obtain rfl := Option.some.inj hstep
    exact h.close
  | resolve id =>
    simp only [RemoteMuxConnectionManager.step] at hstep
    split at hstep
    · next attach hget =>
      obtain ⟨hphase, rfl⟩ := of_ite_some hstep
      have hset := h.modifyAttach id (f := ({ · with phase := .attached })) (fun _ => rfl) nofun
      refine hset.attach attach.generation fun hcurrent => ?_
      obtain ⟨hopening, hclient, hstolen⟩ := h.dialing id attach hget hphase hcurrent
      refine ⟨hclient, hstolen, fun i other hother hdialing hsame => ?_⟩
      obtain ⟨old, hold, rfl⟩ := of_getElem?_modify hother
      split at hdialing
      · exact nomatch hdialing
      · next hne =>
        rw [if_neg hne] at hsame
        -- two attaches that dial in the current generation are one
        have hboth := (h.dialing i old hold hdialing hsame).1
        exact hne (Option.some.inj (hopening.symm.trans hboth))
    · exact nomatch hstep
  | reject id =>
    simp only [RemoteMuxConnectionManager.step] at hstep
    split at hstep
    · next attach hget =>
      obtain ⟨_, rfl⟩ := of_ite_some hstep
      have hcleared := h.settle id
      -- the guard: no retry after a steal
      refine hcleared.retry attach.retries fun hpos => ?_
      rw [stolen_clearOpening]
      exact hadmits attach hget hpos
    · exact nomatch hstep
  | settle id =>
    simp only [RemoteMuxConnectionManager.step] at hstep
    split at hstep
    · obtain ⟨_, rfl⟩ := of_ite_some hstep
      exact h.settle id
    · exact nomatch hstep
  | ended id =>
    simp only [RemoteMuxConnectionManager.step] at hstep
    split at hstep
    · obtain ⟨_, rfl⟩ := of_ite_some hstep
      exact h.ended id
    · exact nomatch hstep
  | sessionStolen id =>
    simp only [RemoteMuxConnectionManager.step] at hstep
    split at hstep
    · next client hget =>
      obtain ⟨hlive, rfl⟩ := of_ite_some hstep
      exact h.onStolen (Option.isSome_of_eq_some (h.live id client hget hlive))
    · exact nomatch hstep
  | reattach =>
    obtain ⟨htimer, rfl⟩ := of_ite_some hstep
    have hstolen : manager.stolen = false := by
      -- a steal cancels the timer
      by_contra hup
      exact absurd (htimer.symm.trans (h.timer ((Bool.not_eq_false _).mp hup))) nofun
    have hcleared : Sound { manager with reattachTimer := false } :=
      { h with timer := fun _ => rfl }
    exact hcleared.ensureOpen 1 hadmits hstolen

/-- What an undisturbed run keeps: one live client, and silence after a close or a steal. -/
theorem Sound.promises (h : Sound manager) :
    manager.AtMostOneLive ∧ manager.QuietAfterClose ∧ manager.QuietAfterSteal := by
  refine ⟨h.live, fun before after hevents hopened => ?_, fun before after hevents hopened => ?_⟩
  · obtain ⟨hclosed, hquiet⟩ := h.closedLog before after hevents hopened
    refine ⟨fun client hclient => ?_, fun epoch hattached => hquiet _ hattached trivial⟩
    obtain ⟨id, hget⟩ := List.mem_iff_getElem?.mp hclient
    by_contra hlive
    have hcurrent := h.live id client hget ((Bool.not_eq_true _).mp hlive)
    exact nomatch (h.shut hclosed).symm.trans hcurrent
  · obtain ⟨-, hquiet⟩ := h.stolenLog before after hevents hopened
    exact ⟨fun hdialed => hquiet _ hdialed trivial,
      fun epoch hattached => hquiet _ hattached trivial⟩

end RemoteMuxConnectionManager

section Runs

open RemoteMuxConnectionManager

/-- As long as the timer does not fire while there is a current client and no failed reattach is
retried after a steal, at most one client is live, and nothing follows a close or a steal before
the next open. -/
theorem one_live_client {labels : List ConnectionStep} {manager : RemoteMuxConnectionManager}
    (hrun : Run RemoteMuxConnectionManager.step Undisturbed {} labels manager) :
    manager.AtMostOneLive ∧ manager.QuietAfterClose ∧ manager.QuietAfterSteal := by
  have hsound : Sound manager := hrun.invariant
    (fun _ _ _ hinv hadmits hstep => Sound.step hinv hadmits hstep) sound_initial
  exact hsound.promises

/-- A lost channel is dialed again; the new client is stolen and closed. -/
theorem one_live_client_after_loss :
    ∃ manager, Run RemoteMuxConnectionManager.step Undisturbed {}
        [.open_, .resolve 0, .settle 0, .ended 0, .reattach, .reject 1, .reattach, .resolve 2,
          .settle 2, .sessionStolen 1, .close] manager ∧
      manager.clients.length = 2 ∧
      manager.AtMostOneLive ∧ manager.QuietAfterClose ∧ manager.QuietAfterSteal := by
  exact exists_run_and_of_replay (by decide +kernel) fun _ hrun => one_live_client hrun

/-- An open during the backoff leaves two live clients: the timer dials all the same. -/
theorem not_one_live_client :
    ¬ ∀ (labels : List ConnectionStep) (manager : RemoteMuxConnectionManager),
      Run RemoteMuxConnectionManager.step Always {} labels manager →
        manager.AtMostOneLive ∧ manager.QuietAfterClose ∧ manager.QuietAfterSteal := by
  intro hkept
  have hreplay : (replay RemoteMuxConnectionManager.step Always {}
      [.open_, .resolve 0, .settle 0, .ended 0, .open_, .resolve 1, .settle 1, .reattach,
        .resolve 2]).any (fun manager => manager.clients[1]? = some ⟨false⟩ ∧
          manager.client = some 2) = true := by
    decide +kernel
  obtain ⟨manager, hrun, hget, hcurrent⟩ := exists_run_of_replay hreplay
  have hlive := (hkept _ manager hrun).1 1 ⟨false⟩ hget rfl
  exact absurd (hcurrent.symm.trans hlive) (by decide)

end Runs

end AgentCockpit.Remote
