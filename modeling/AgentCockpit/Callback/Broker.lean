import AgentCockpit.Core.Arena
import AgentCockpit.Core.Run
import Mathlib

/-!
# Starting and stopping callback listeners

The broker keeps a listener for each project. A start binds a new one, records it and closes the one
before; a stop takes the recorded one out and closes it. Overlapping calls for a project are chained
on a tail, the promise of the call issued last, so that each runs after those before it. A call of
an idle project runs at once.

A call is recorded with the phase it is in. A bind and a close complete or fail at any time later,
and so do the reactions to a settled promise. A stop of all projects finds nothing to do in some of
them; there it is recorded as a stop that is over.
-/

namespace AgentCockpit.Callback

open AgentCockpit.Core

inductive Operation
  | start | stop
  deriving DecidableEq, Repr

inductive CallPhase
  /-- The operation runs when the tail has settled. -/
  | queued (tail : ℕ)
  /-- A start waits for its listener. -/
  | binding
  /-- The close of a listener, if there is one, is awaited. -/
  | closing (listener : Option ℕ)
  /-- The promise has settled, and its reactions have not run. -/
  | returned
  | settled
  deriving DecidableEq, Repr

/-- A call for a project. -/
structure Call where
  operation : Operation
  phase : CallPhase
  /-- The listener of a start that has bound it. -/
  bound : Option ℕ := none
  deriving DecidableEq, Repr

inductive ListenerPhase
  | open_ | closing
  | closed (failed : Bool)
  deriving DecidableEq, Repr

/-- What the broker keeps for a project, with its calls so far in the order in which they were
issued and the listeners that were ever started. -/
structure Project where
  calls : List Call := []
  /-- The tail of the calls. -/
  pending : Option ℕ := none
  /-- The recorded listener. -/
  listener : Option ℕ := none
  listeners : List ListenerPhase := []
  deriving DecidableEq, Repr

inductive ProjectStep
  | startLocalListener
  | stopListener
  /-- A queued operation begins. -/
  | begin (call : ℕ)
  /-- The listener of a start is bound. -/
  | bound (call : ℕ)
  | bindFailed (call : ℕ)
  /-- The awaited close is over. -/
  | closed (call : ℕ) (failed : Bool)
  /-- The reaction to a settled promise: the tail goes if it is still the last. -/
  | settled (call : ℕ)
  deriving DecidableEq, Repr

namespace Project

variable (project : Project)

def setPhase (id : ℕ) (phase : CallPhase) : Project :=
  { project with calls := project.calls.modify id ({ · with phase }) }

/-- A listener, if there is one, starts to close. -/
def closeListener : Option ℕ → Project
  | none => project
  | some listener =>
    { project with listeners := project.listeners.modify listener fun _ => .closing }

/-- The synchronous part of an operation. -/
def beginOperation : Operation → Project
  | .start => project
  | .stop => { closeListener project project.listener with listener := none }

/-- What an operation waits for first. -/
def beginPhase : Operation → CallPhase
  | .start => .binding
  | .stop => .closing project.listener

/-- A call is chained on the tail, or runs at once. -/
def serialized (operation : Operation) : Project :=
  let id := project.calls.length
  match project.pending with
  | some tail =>
    { project with
      calls := project.calls ++ [{ operation, phase := .queued tail }]
      pending := some id }
  | none =>
    { project.beginOperation operation with
      calls := project.calls ++ [{ operation, phase := project.beginPhase operation }]
      pending := some id }

/-- A stop of all projects reaches those with a listener or a tail. -/
def stopAll : Project :=
  if project.listener.isSome ∨ project.pending.isSome then project.serialized .stop
  else { project with calls := project.calls ++ [⟨.stop, .settled, none⟩] }

/-- A bound listener is recorded, and the one before starts to close. -/
def recordListener (id : ℕ) : Project :=
  let listener := project.listeners.length
  { closeListener project project.listener with
    calls := project.calls.modify id
      ({ · with bound := some listener, phase := .closing project.listener })
    listeners := (closeListener project project.listener).listeners ++ [ListenerPhase.open_]
    listener := some listener }

/-- The close that a call waits for is over. -/
def listenerClosed (id : ℕ) (failed : Bool) (listener : Option ℕ) : Project :=
  { project.setPhase id .returned with
    listeners := match listener with
      | some listener => project.listeners.modify listener fun _ => .closed failed
      | none => project.listeners }

/-- The promise of a call has settled. -/
def Settled (id : ℕ) : Prop :=
  (project.calls[id]?).any fun call => call.phase = .returned ∨ call.phase = .settled

instance (id : ℕ) : Decidable (project.Settled id) := by unfold Settled; infer_instance

/-- A step; on Windows no listener is started. -/
def step (win32 : Bool) (project : Project) : ProjectStep → Option Project
  | .startLocalListener => some (if win32 then project else project.serialized .start)
  | .stopListener => some (project.serialized .stop)
  | .begin id =>
    match project.calls[id]? with
    | some call =>
      match call.phase with
      | .queued tail =>
        if project.Settled tail then
          some ((project.beginOperation call.operation).setPhase id
            (project.beginPhase call.operation))
        else none
      | _ => none
    | none => none
  | .bound id =>
    match project.calls[id]? with
    | some call => if call.phase = .binding then some (project.recordListener id) else none
    | none => none
  | .bindFailed id =>
    match project.calls[id]? with
    | some call => if call.phase = .binding then some (project.setPhase id .returned) else none
    | none => none
  | .closed id failed =>
    match project.calls[id]? with
    | some call =>
      match call.phase with
      | .closing listener => some (project.listenerClosed id failed listener)
      | _ => none
    | none => none
  | .settled id =>
    match project.calls[id]? with
    | some call =>
      if call.phase = .returned then
        some { project.setPhase id .settled with
          pending := if project.pending = some id then none else project.pending }
      else none
    | none => none

/-- All calls have settled, with their reactions. -/
def Quiescent : Prop := ∀ call ∈ project.calls, call.phase = .settled

instance : Decidable project.Quiescent := by unfold Quiescent; infer_instance

/-- The call is a stop or has bound a listener. -/
def Decides (call : Call) : Prop := call.operation = .stop ∨ call.bound.isSome

/-- A listener is recorded if it is that of the last start that bound one and no stop was issued
after it; the other listeners that were ever started are closed. -/
structure Holds : Prop where
  recorded : ∀ listener, project.listener = some listener ↔
    ∃ (id : ℕ) (call : Call), project.calls[id]? = some call ∧ call.bound = some listener ∧
      ∀ (later : ℕ) (other : Call), project.calls[later]? = some other → id < later →
        ¬ Decides other
  closed : ∀ (listener : ℕ) (phase : ListenerPhase), project.listeners[listener]? = some phase →
    project.listener ≠ some listener → ∃ failed, phase = .closed failed
  idle : project.pending = none

end Project

/-! ### The order of the calls -/

namespace Project

variable {win32 : Bool} {project next : Project} {label : ProjectStep} {call other : Call}
  {id i j : ℕ} {operation : Operation}

/-- The promise of the call has settled. -/
def Over (call : Call) : Prop := call.phase = .returned ∨ call.phase = .settled

/-- The operation of the call has begun. -/
def Begun (call : Call) : Prop := ∀ tail, call.phase ≠ .queued tail

instance : DecidablePred Over := fun _ => by unfold Over; infer_instance

/-- The call has taken a listener out, or has put one in. -/
def Effective (call : Call) : Prop := call.operation = .stop ∧ Begun call ∨ call.bound.isSome

theorem Over.begun (h : Over call) : Begun call := by
  intro tail hphase
  rcases h with heq | heq <;> exact nomatch heq.symm.trans hphase

/-- What a step does. -/
inductive Takes (win32 : Bool) (project : Project) : ProjectStep → Project → Prop
  | noListener : Takes win32 project .startLocalListener project
  | start : Takes win32 project .startLocalListener (project.serialized .start)
  | stop : Takes win32 project .stopListener (project.serialized .stop)
  | begin {id : ℕ} {call : Call} {tail : ℕ} (hcall : project.calls[id]? = some call)
      (hphase : call.phase = .queued tail) (htail : project.Settled tail) :
      Takes win32 project (.begin id)
        ((project.beginOperation call.operation).setPhase id (project.beginPhase call.operation))
  | bound {id : ℕ} {call : Call} (hcall : project.calls[id]? = some call)
      (hphase : call.phase = .binding) : Takes win32 project (.bound id) (project.recordListener id)
  | bindFailed {id : ℕ} {call : Call} (hcall : project.calls[id]? = some call)
      (hphase : call.phase = .binding) :
      Takes win32 project (.bindFailed id) (project.setPhase id .returned)
  | closed {id : ℕ} {call : Call} {failed : Bool} {listener : Option ℕ}
      (hcall : project.calls[id]? = some call) (hphase : call.phase = .closing listener) :
      Takes win32 project (.closed id failed) (project.listenerClosed id failed listener)
  | settled {id : ℕ} {call : Call} (hcall : project.calls[id]? = some call)
      (hphase : call.phase = .returned) :
      Takes win32 project (.settled id) { project.setPhase id .settled with
        pending := if project.pending = some id then none else project.pending }

theorem takes_of_step (h : project.step win32 label = some next) :
    Takes win32 project label next := by
  cases label with
  | startLocalListener =>
    obtain rfl := Option.some.inj h
    cases win32
    · exact .start
    · exact .noListener
  | stopListener =>
    obtain rfl := Option.some.inj h
    exact .stop
  | begin id =>
    simp only [step] at h
    split at h
    · next call hcall =>
      split at h
      · next tail hphase =>
        obtain ⟨htail, rfl⟩ := of_ite_some h
        exact .begin hcall hphase htail
      · exact nomatch h
    · exact nomatch h
  | bound id =>
    simp only [step] at h
    split at h
    · next call hcall =>
      obtain ⟨hphase, rfl⟩ := of_ite_some h
      exact .bound hcall hphase
    · exact nomatch h
  | bindFailed id =>
    simp only [step] at h
    split at h
    · next call hcall =>
      obtain ⟨hphase, rfl⟩ := of_ite_some h
      exact .bindFailed hcall hphase
    · exact nomatch h
  | closed id failed =>
    simp only [step] at h
    split at h
    · next call hcall =>
      split at h
      · next listener hphase =>
        obtain rfl := Option.some.inj h
        exact .closed hcall hphase
      · exact nomatch h
    · exact nomatch h
  | settled id =>
    simp only [step] at h
    split at h
    · next call hcall =>
      obtain ⟨hphase, rfl⟩ := of_ite_some h
      exact .settled hcall hphase
    · exact nomatch h

/-- Calls are chained one on the other, and begin in their order. -/
structure InOrder (calls : List Call) : Prop where
  chained : ∀ (id : ℕ) (call : Call) (tail : ℕ), calls[id]? = some call →
    call.phase = .queued tail → tail + 1 = id
  ordered : ∀ (i j : ℕ) (call other : Call), calls[i]? = some call → calls[j]? = some other →
    i < j → Begun other → Over call
  /-- Only a start that has returned from its bind has a listener. -/
  starts : ∀ (id : ℕ) (call : Call), calls[id]? = some call → call.bound.isSome →
    Begun call ∧ call.phase ≠ .binding ∧ call.operation = .start
  binds : ∀ (id : ℕ) (call : Call), calls[id]? = some call → call.phase = .binding →
    call.operation = .start

/-- The tail is the last call, as long as it has not settled. -/
structure Chained (project : Project) : Prop where
  order : InOrder project.calls
  tail : ∀ id, project.pending = some id → id + 1 = project.calls.length ∧
    ∀ call, project.calls[id]? = some call → call.phase ≠ .settled
  idle : project.pending = none → ∀ call ∈ project.calls, Over call

variable {calls : List Call}

/-- A call is appended behind calls that are over, or behind its tail. -/
theorem InOrder.concat (h : InOrder calls) (hbound : call.bound = none)
    (hbinds : call.phase = .binding → call.operation = .start)
    (hphase : (∀ tail, call.phase = .queued tail → tail + 1 = calls.length) ∧
      (Begun call → ∀ other ∈ calls, Over other)) : InOrder (calls ++ [call]) where
  chained id old tail hold hqueued := by
    obtain hold | ⟨rfl, rfl⟩ := of_getElem?_concat hold
    · exact h.chained id old tail hold hqueued
    · exact hphase.1 tail hqueued
  ordered i j old other hold hother hlt hbegun := by
    obtain hother | ⟨rfl, rfl⟩ := of_getElem?_concat hother
    · have hi : i < calls.length := Nat.lt_trans hlt (List.getElem?_eq_some_iff.mp hother).1
      rw [List.getElem?_append_left hi] at hold
      exact h.ordered i j old other hold hother hlt hbegun
    · rw [List.getElem?_append_left hlt] at hold
      exact hphase.2 hbegun old (List.mem_of_getElem? hold)
  starts id old hold hsome := by
    obtain hold | ⟨rfl, rfl⟩ := of_getElem?_concat hold
    · exact h.starts id old hold hsome
    · rw [hbound] at hsome
      exact nomatch hsome
  binds id old hold hbinding := by
    obtain hold | ⟨rfl, rfl⟩ := of_getElem?_concat hold
    · exact h.binds id old hold hbinding
    · exact hbinds hbinding

/-- A call with nothing unsettled before it goes on; if it was over it still is. -/
theorem InOrder.modify {f : Call → Call} (h : InOrder calls) (hcall : calls[id]? = some call)
    (hbefore : ∀ (i : ℕ) (other : Call), calls[i]? = some other → i < id → Over other)
    (hbegun : Begun (f call)) (hover : Over call → Over (f call))
    (hstarts : (f call).bound.isSome → (f call).phase ≠ .binding ∧ (f call).operation = .start)
    (hbinds : (f call).phase = .binding → (f call).operation = .start) :
    InOrder (calls.modify id f) where
  chained i old tail hold hqueued := by
    obtain ⟨old, hget, rfl⟩ := of_getElem?_modify hold
    split at hqueued
    · next heq =>
      subst heq
      obtain rfl := Option.some.inj (hcall.symm.trans hget)
      exact absurd hqueued (hbegun tail)
    · exact h.chained i old tail hget hqueued
  ordered i j old other hold hother hlt hbegun' := by
    obtain ⟨old, hget, rfl⟩ := of_getElem?_modify hold
    obtain ⟨other, hget', rfl⟩ := of_getElem?_modify hother
    split
    · next heq =>
      -- The call itself: a later one that has begun found it over.
      subst heq
      obtain rfl := Option.some.inj (hcall.symm.trans hget)
      rw [if_neg (Nat.ne_of_lt hlt)] at hbegun'
      exact hover (h.ordered _ _ _ _ hget hget' hlt hbegun')
    · split at hbegun'
      · next heq =>
        subst heq
        exact hbefore i old hget hlt
      · exact h.ordered i j old other hget hget' hlt hbegun'
  starts i old hold hsome := by
    obtain ⟨old, hget, rfl⟩ := of_getElem?_modify hold
    by_cases heq : id = i
    · subst heq
      obtain rfl := Option.some.inj (hcall.symm.trans hget)
      rw [if_pos rfl] at hsome ⊢
      exact ⟨hbegun, hstarts hsome⟩
    · rw [if_neg heq] at hsome ⊢
      exact h.starts i old hget hsome
  binds i old hold hbinding := by
    obtain ⟨old, hget, rfl⟩ := of_getElem?_modify hold
    by_cases heq : id = i
    · subst heq
      obtain rfl := Option.some.inj (hcall.symm.trans hget)
      rw [if_pos rfl] at hbinding ⊢
      exact hbinds hbinding
    · rw [if_neg heq] at hbinding ⊢
      exact h.binds i old hget hbinding

/-- What is before a call that has begun is over. -/
theorem InOrder.before_begun (h : InOrder calls) (hcall : calls[id]? = some call)
    (hbegun : Begun call) :
    ∀ (i : ℕ) (other : Call), calls[i]? = some other → i < id → Over other :=
  fun i other hother hlt => h.ordered i id other call hother hcall hlt hbegun

theorem beginPhase_begun : Begun ⟨operation, project.beginPhase operation, none⟩ := by
  intro tail
  cases operation <;> exact nofun

@[simp] theorem closeListener_calls {listener : Option ℕ} :
    (project.closeListener listener).calls = project.calls := by
  cases listener <;> rfl

@[simp] theorem closeListener_pending {listener : Option ℕ} :
    (project.closeListener listener).pending = project.pending := by
  cases listener <;> rfl

theorem calls_beginOperation : (project.beginOperation operation).calls = project.calls := by
  cases operation with
  | start => rfl
  | stop => exact closeListener_calls

theorem pending_beginOperation : (project.beginOperation operation).pending = project.pending := by
  cases operation with
  | start => rfl
  | stop => exact closeListener_pending

theorem Chained.serialized (h : Chained project) : Chained (project.serialized operation) := by
  rw [Project.serialized]
  split
  · next tail htail =>
    refine ⟨h.order.concat rfl nofun ⟨fun other hother => ?_, fun hbegun => ?_⟩,
      fun id hid => ?_, nofun⟩
    · obtain rfl := CallPhase.queued.inj hother
      exact (h.tail tail htail).1
    · exact absurd rfl (hbegun tail)
    · obtain rfl := Option.some.inj hid
      refine ⟨by simp, fun call hcall hsettled => ?_⟩
      rw [List.getElem?_concat_length] at hcall
      obtain rfl := Option.some.inj hcall
      exact nomatch hsettled
  · next hidle =>
    have hbegun : Begun ⟨operation, project.beginPhase operation, none⟩ := beginPhase_begun
    have hbinds : project.beginPhase operation = .binding → operation = .start := by
      cases operation <;> simp [beginPhase]
    refine ⟨h.order.concat rfl hbinds
      ⟨fun tail htail => absurd htail (hbegun tail), fun _ other hother => ?_⟩,
      fun id hid => ?_, nofun⟩
    · exact h.idle hidle other hother
    · obtain rfl := Option.some.inj hid
      refine ⟨by simp, fun call hcall hsettled => ?_⟩
      rw [List.getElem?_concat_length] at hcall
      obtain rfl := Option.some.inj hcall
      cases operation <;> exact nomatch hsettled

theorem Chained.stopAll (h : Chained project) : Chained project.stopAll := by
  rw [Project.stopAll]
  split
  · exact h.serialized
  · next hnone =>
    have hidle : project.pending = none := by
      simpa using fun hsome => hnone (.inr (Option.isSome_iff_ne_none.mpr hsome))
    refine ⟨h.order.concat rfl nofun ⟨nofun, fun _ => h.idle hidle⟩,
      fun id hid => (nomatch hidle.symm.trans hid), fun _ call hcall => ?_⟩
    obtain hcall | hcall := List.mem_append.mp hcall
    · exact h.idle hidle call hcall
    · rw [List.mem_singleton.mp hcall]
      exact .inr rfl

theorem setPhase_calls {phase : CallPhase} :
    (project.setPhase id phase).calls = project.calls.modify id ({ · with phase }) := rfl

/-- A call that is not over goes on, in a project with the same tail. -/
theorem Chained.modify {f : Call → Call} (h : Chained project)
    (hcalls : next.calls = project.calls.modify id f) (hpending : next.pending = project.pending)
    (hcall : project.calls[id]? = some call) (hactive : ¬ Over call)
    (hbefore : ∀ (i : ℕ) (other : Call), project.calls[i]? = some other → i < id → Over other)
    (hbegun : Begun (f call)) (hsettled : (f call).phase ≠ .settled)
    (hstarts : (f call).bound.isSome → (f call).phase ≠ .binding ∧ (f call).operation = .start)
    (hbinds : (f call).phase = .binding → (f call).operation = .start) : Chained next where
  order := by
    rw [hcalls]
    exact h.order.modify hcall hbefore hbegun (fun hover => absurd hover hactive) hstarts
      hbinds
  tail last hlast := by
    rw [hcalls, List.length_modify]
    obtain ⟨hlength, hcurrent⟩ := h.tail last (hpending ▸ hlast)
    refine ⟨hlength, fun old hold => ?_⟩
    obtain ⟨old, hget, rfl⟩ := of_getElem?_modify hold
    split
    · next heq =>
      subst heq
      obtain rfl := Option.some.inj (hcall.symm.trans hget)
      exact hsettled
    · exact hcurrent old hget
  idle hnone := absurd (h.idle (hpending ▸ hnone) call (List.mem_of_getElem? hcall)) hactive

theorem getElem?_of_settled (h : project.Settled id) :
    ∃ call, project.calls[id]? = some call ∧ Over call := by
  obtain ⟨call, hcall, hover⟩ := (Option.any_eq_true _ _).mp h
  exact ⟨call, hcall, of_decide_eq_true hover⟩

/-- What is before a queued call whose tail has settled is over. -/
theorem InOrder.before_queued {tail : ℕ} (h : InOrder project.calls)
    (hcall : project.calls[id]? = some call) (hphase : call.phase = .queued tail)
    (htail : project.Settled tail) :
    ∀ (i : ℕ) (other : Call), project.calls[i]? = some other → i < id → Over other := by
  intro i other hother hlt
  obtain ⟨before, hbefore, hover⟩ := getElem?_of_settled htail
  have hid := h.chained id call tail hcall hphase
  rcases Nat.lt_or_eq_of_le (Nat.lt_succ_iff.mp (hid ▸ hlt)) with hlt | rfl
  · exact h.ordered i tail other before hother hbefore hlt hover.begun
  · obtain rfl := Option.some.inj (hbefore.symm.trans hother)
    exact hover

theorem Chained.begin {tail : ℕ} (h : Chained project) (hcall : project.calls[id]? = some call)
    (hphase : call.phase = .queued tail) (htail : project.Settled tail) :
    Chained ((project.beginOperation call.operation).setPhase id
      (project.beginPhase call.operation)) := by
  have hcalls : ((project.beginOperation call.operation).setPhase id
      (project.beginPhase call.operation)).calls =
        project.calls.modify id ({ · with phase := project.beginPhase call.operation }) := by
    rw [setPhase_calls, calls_beginOperation]
  refine h.modify hcalls pending_beginOperation hcall (fun hover => hover.begun tail hphase)
    (h.order.before_queued hcall hphase htail) ?_ ?_ (fun hsome => ?_) ?_
  · intro tail
    cases call.operation <;> exact nofun
  · cases call.operation <;> exact nofun
  · exact absurd hphase ((h.order.starts id call hcall hsome).1 tail)
  · cases call.operation <;> simp [beginPhase]

/-- The call waits for a bind or a close. -/
def Waits (call : Call) : Prop :=
  call.phase = .binding ∨ ∃ listener, call.phase = .closing listener

theorem Waits.begun (h : Waits call) : Begun call := by
  intro tail hphase
  obtain heq | ⟨_, heq⟩ := h <;> exact nomatch heq.symm.trans hphase

theorem Waits.not_over (h : Waits call) : ¬ Over call := by
  rintro (hphase | hphase) <;> obtain heq | ⟨_, heq⟩ := h <;> exact nomatch heq.symm.trans hphase

theorem Chained.bound (h : Chained project) (hcall : project.calls[id]? = some call)
    (hphase : call.phase = .binding) : Chained (project.recordListener id) := by
  have hwaits : Waits call := .inl hphase
  have hpending : (project.recordListener id).pending = project.pending :=
    closeListener_pending
  exact h.modify rfl hpending hcall hwaits.not_over (h.order.before_begun hcall hwaits.begun) nofun
    nofun (fun _ => ⟨nofun, h.order.binds id call hcall hphase⟩) nofun

/-- A call that waits for a bind or a close returns. -/
theorem Chained.returned (h : Chained project) (hcall : project.calls[id]? = some call)
    (hwaits : Waits call)
    (hcalls : next.calls = project.calls.modify id ({ · with phase := .returned }))
    (hpending : next.pending = project.pending) : Chained next :=
  h.modify hcalls hpending hcall hwaits.not_over (h.order.before_begun hcall hwaits.begun) nofun
    nofun (fun hsome => ⟨nofun, (h.order.starts id call hcall hsome).2.2⟩) nofun

/-- The reaction to a settled promise. -/
theorem Chained.settled (h : Chained project) (hcall : project.calls[id]? = some call)
    (hphase : call.phase = .returned) : Chained { project.setPhase id .settled with
      pending := if project.pending = some id then none else project.pending } where
  order := h.order.modify hcall (h.order.before_begun hcall (Over.begun (.inl hphase))) nofun
    (fun _ => .inr rfl) (fun hsome => ⟨nofun, (h.order.starts id call hcall hsome).2.2⟩) nofun
  tail last hlast := by
    dsimp only at hlast
    split at hlast
    · exact nomatch hlast
    · next hother =>
      obtain ⟨hlength, hcurrent⟩ := h.tail last hlast
      refine ⟨by simpa [setPhase_calls] using hlength, fun old hold => ?_⟩
      obtain ⟨old, hget, rfl⟩ := of_getElem?_modify hold
      have hne : id ≠ last := fun heq => hother (by rw [heq, hlast])
      rw [if_neg hne]
      exact hcurrent old hget
  idle hnone old hold := by
    obtain ⟨i, hold⟩ := List.mem_iff_getElem?.mp hold
    obtain ⟨old, hget, rfl⟩ := of_getElem?_modify hold
    split
    · exact .inr rfl
    · next hne =>
      dsimp only at hnone
      split at hnone
      · next hlast =>
        -- The call was the last one, and what is before it is over.
        have hlength := (h.tail id hlast).1
        have hi := (List.getElem?_eq_some_iff.mp hget).1
        exact h.order.before_begun hcall (Over.begun (.inl hphase)) i old hget (by omega)
      · exact h.idle hnone old (List.mem_of_getElem? hget)

theorem Chained.step (h : Chained project) (htakes : Takes win32 project label next) :
    Chained next := by
  cases htakes with
  | noListener => exact h
  | start | stop => exact h.serialized
  | begin hcall hphase htail => exact h.begin hcall hphase htail
  | bound hcall hphase => exact h.bound hcall hphase
  | bindFailed hcall hphase => exact h.returned hcall (.inl hphase) rfl rfl
  | closed hcall hphase => exact h.returned hcall (.inr ⟨_, hphase⟩) rfl rfl
  | settled hcall hphase => exact h.settled hcall hphase

/-! ### The recorded listener -/

/-- The listener is that of a call after which none was taken out or put in. -/
def LastEffective (calls : List Call) (listener : ℕ) : Prop :=
  ∃ (id : ℕ) (call : Call), calls[id]? = some call ∧ call.bound = some listener ∧
    ∀ (later : ℕ) (other : Call), calls[later]? = some other → id < later → ¬ Effective other

variable {listener : ℕ} {f : Call → Call}

theorem lastEffective_concat (hidle : ¬ Effective call) :
    LastEffective (calls ++ [call]) listener ↔ LastEffective calls listener := by
  constructor
  · rintro ⟨id, old, hold, hbound, hlast⟩
    obtain hold | ⟨rfl, rfl⟩ := of_getElem?_concat hold
    · exact ⟨id, old, hold, hbound, fun later other hother =>
        hlast later other (getElem?_concat_of_some hother)⟩
    · exact absurd (.inr (by rw [hbound]; rfl)) hidle
  · rintro ⟨id, old, hold, hbound, hlast⟩
    refine ⟨id, old, getElem?_concat_of_some hold, hbound, fun later other hother hlt => ?_⟩
    obtain hother | ⟨-, rfl⟩ := of_getElem?_concat hother
    · exact hlast later other hother hlt
    · exact hidle

theorem not_lastEffective_concat (heffective : Effective call) (hbound : call.bound = none) :
    ¬ LastEffective (calls ++ [call]) listener := by
  rintro ⟨id, old, hold, hsome, hlast⟩
  obtain hold | ⟨rfl, rfl⟩ := of_getElem?_concat hold
  · exact hlast calls.length call List.getElem?_concat_length (List.getElem?_eq_some_iff.mp hold).1
      heffective
  · exact nomatch hbound.symm.trans hsome

/-- A call that goes on without an effect. -/
theorem lastEffective_modify (hcall : calls[id]? = some call)
    (hbound : (f call).bound = call.bound) (hsame : Effective (f call) ↔ Effective call) :
    LastEffective (calls.modify id f) listener ↔ LastEffective calls listener := by
  constructor
  · rintro ⟨i, old, hold, hsome, hlast⟩
    obtain ⟨old, hget, rfl⟩ := of_getElem?_modify hold
    refine ⟨i, old, hget, ?_, fun later other hother hlt heffective => ?_⟩
    · split at hsome
      · next heq =>
        subst heq
        obtain rfl := Option.some.inj (hcall.symm.trans hget)
        exact hbound.symm.trans hsome
      · exact hsome
    · refine hlast later _ (getElem?_modify_of_some hother) hlt ?_
      split
      · next heq =>
        subst heq
        obtain rfl := Option.some.inj (hcall.symm.trans hother)
        exact hsame.mpr heffective
      · exact heffective
  · rintro ⟨i, old, hold, hsome, hlast⟩
    refine ⟨i, _, getElem?_modify_of_some hold, ?_, fun later other hother hlt heffective => ?_⟩
    · split
      · next heq =>
        subst heq
        obtain rfl := Option.some.inj (hcall.symm.trans hold)
        exact hbound.trans hsome
      · exact hsome
    · obtain ⟨other, hget, rfl⟩ := of_getElem?_modify hother
      split at heffective
      · next heq =>
        subst heq
        obtain rfl := Option.some.inj (hcall.symm.trans hget)
        exact hlast _ call hget hlt (hsame.mp heffective)
      · exact hlast later other hget hlt heffective

theorem Effective.begun (h : Effective call) (horder : InOrder calls)
    (hcall : calls[id]? = some call) : Begun call :=
  h.elim And.right fun hsome => (horder.starts id call hcall hsome).1

/-- A call that is not over takes effect: it is the last one to do so. -/
theorem lastEffective_modify_effective (horder : InOrder calls) (hcall : calls[id]? = some call)
    (hactive : ¬ Over call) (heffective : Effective (f call)) :
    LastEffective (calls.modify id f) listener ↔ (f call).bound = some listener := by
  -- No later call has begun.
  have hlater (later : ℕ) (other : Call) (hother : calls[later]? = some other) (hlt : id < later) :
      ¬ Effective other := fun heffective =>
    hactive (horder.ordered id later call other hcall hother hlt (heffective.begun horder hother))
  constructor
  · rintro ⟨i, old, hold, hsome, hlast⟩
    obtain ⟨old, hget, rfl⟩ := of_getElem?_modify hold
    rcases Nat.lt_trichotomy i id with hlt | rfl | hlt
    · refine absurd ?_ (hlast id _ (getElem?_modify_of_some hcall) hlt)
      rwa [if_pos rfl]
    · obtain rfl := Option.some.inj (hcall.symm.trans hget)
      rwa [if_pos rfl] at hsome
    · rw [if_neg (Nat.ne_of_lt hlt)] at hsome
      exact absurd (.inr (by rw [hsome]; rfl)) (hlater i old hget hlt)
  · intro hsome
    refine ⟨id, _, getElem?_modify_of_some hcall, by rwa [if_pos rfl],
      fun later other hother hlt => ?_⟩
    obtain ⟨other, hget, rfl⟩ := of_getElem?_modify hother
    rw [if_neg (Nat.ne_of_lt hlt)]
    exact hlater later other hget hlt

/-- A call waits for the close of the listener. -/
def Closing (calls : List Call) (listener : ℕ) : Prop :=
  ∃ call ∈ calls, call.phase = .closing (some listener)

theorem closing_concat :
    Closing (calls ++ [call]) listener ↔
      Closing calls listener ∨ call.phase = .closing (some listener) := by
  simp only [Closing, List.mem_append, List.mem_singleton, or_and_right, exists_or, exists_eq_left]

/-- A call that does not wait for a close goes on. -/
theorem closing_modify (hcall : calls[id]? = some call)
    (hphase : ∀ listener, call.phase ≠ .closing (some listener)) :
    Closing (calls.modify id f) listener ↔
      Closing calls listener ∨ (f call).phase = .closing (some listener) := by
  constructor
  · rintro ⟨old, hmem, hclosing⟩
    obtain ⟨i, hold⟩ := List.mem_iff_getElem?.mp hmem
    obtain ⟨old, hget, rfl⟩ := of_getElem?_modify hold
    split at hclosing
    · next heq =>
      subst heq
      obtain rfl := Option.some.inj (hcall.symm.trans hget)
      exact .inr hclosing
    · exact .inl ⟨old, List.mem_of_getElem? hget, hclosing⟩
  · rintro (⟨old, hmem, hclosing⟩ | hclosing)
    · obtain ⟨i, hold⟩ := List.mem_iff_getElem?.mp hmem
      have hne : id ≠ i := by
        rintro rfl
        obtain rfl := Option.some.inj (hcall.symm.trans hold)
        exact hphase listener hclosing
      have hget := getElem?_modify_of_some (j := id) (f := f) hold
      rw [if_neg hne] at hget
      exact ⟨old, List.mem_of_getElem? hget, hclosing⟩
    · have hget := getElem?_modify_of_some (j := id) (f := f) hcall
      rw [if_pos rfl] at hget
      exact ⟨_, List.mem_of_getElem? hget, hclosing⟩

/-- Only one call waits at a time. -/
theorem InOrder.eq_of_waits (h : InOrder calls) (hcall : calls[i]? = some call)
    (hother : calls[j]? = some other) (hwaits : Waits call) (hwaits' : Waits other) : i = j := by
  rcases Nat.lt_trichotomy i j with hlt | heq | hlt
  · exact absurd (h.ordered i j call other hcall hother hlt hwaits'.begun) hwaits.not_over
  · exact heq
  · exact absurd (h.ordered j i other call hother hcall hlt hwaits.begun) hwaits'.not_over

theorem InOrder.closing_iff (h : InOrder calls) (hcall : calls[id]? = some call) {closes : Option ℕ}
    (hphase : call.phase = .closing closes) : Closing calls listener ↔ closes = some listener := by
  constructor
  · rintro ⟨old, hmem, hclosing⟩
    obtain ⟨i, hold⟩ := List.mem_iff_getElem?.mp hmem
    obtain rfl := h.eq_of_waits hcall hold (.inr ⟨_, hphase⟩) (.inr ⟨_, hclosing⟩)
    obtain rfl := Option.some.inj (hcall.symm.trans hold)
    exact CallPhase.closing.inj (hphase.symm.trans hclosing)
  · rintro rfl
    exact ⟨call, List.mem_of_getElem? hcall, hphase⟩

/-- When the call that waits for a close returns, none waits. -/
theorem InOrder.not_closing_returned (h : InOrder calls) (hcall : calls[id]? = some call)
    (hwaits : Waits call) :
    ¬ Closing (calls.modify id ({ · with phase := .returned })) listener := by
  rintro ⟨old, hmem, hclosing⟩
  obtain ⟨i, hold⟩ := List.mem_iff_getElem?.mp hmem
  obtain ⟨old, hget, rfl⟩ := of_getElem?_modify hold
  split at hclosing
  · exact nomatch hclosing
  · next hne => exact hne (h.eq_of_waits hcall hget hwaits (.inr ⟨_, hclosing⟩))

/-- What is recorded is the listener of the last call that took effect; it is the open one, and
those that are closing are waited for. -/
structure Records (project : Project) : Prop where
  recorded : ∀ listener, project.listener = some listener ↔ LastEffective project.calls listener
  current : ∀ listener, project.listener = some listener ↔
    project.listeners[listener]? = some .open_
  closing : ∀ listener : ℕ, project.listeners[listener]? = some .closing ↔
    Closing project.calls listener

/-- Nothing happens to the listeners. -/
theorem Records.keep (h : Records project) (hlistener : next.listener = project.listener)
    (hlisteners : next.listeners = project.listeners)
    (heffective : ∀ listener,
      LastEffective next.calls listener ↔ LastEffective project.calls listener)
    (hclosing : ∀ listener, Closing next.calls listener ↔ Closing project.calls listener) :
    Records next where
  recorded listener := by rw [hlistener, h.recorded, heffective]
  current listener := by rw [hlistener, hlisteners, h.current]
  closing listener := by rw [hlisteners, h.closing, hclosing]

/-- The listener that is recorded is closing then, and nothing else has changed. -/
theorem Records.getElem?_closeListener (h : Records project) (listener : ℕ) :
    (project.closeListener project.listener).listeners[listener]? =
      if project.listener = some listener then some .closing else project.listeners[listener]? := by
  cases hlistener : project.listener with
  | none => rfl
  | some current =>
    have hopen := (h.current current).mp hlistener
    rw [closeListener, List.getElem?_modify]
    by_cases heq : current = listener
    · rw [heq] at hopen
      simp [heq, hopen]
    · simp [heq]

theorem Records.not_open_closeListener (h : Records project) (listener : ℕ) :
    (project.closeListener project.listener).listeners[listener]? ≠ some .open_ := by
  rw [h.getElem?_closeListener]
  split
  · exact nofun
  · next hne => exact fun hopen => hne ((h.current listener).mpr hopen)

theorem Records.closing_closeListener (h : Records project) (listener : ℕ) :
    (project.closeListener project.listener).listeners[listener]? = some .closing ↔
      Closing project.calls listener ∨ project.listener = some listener := by
  rw [h.getElem?_closeListener, ← h.closing]
  split
  · next heq => simp [heq]
  · next hne => simp [hne]

/-- The listener is taken out, and starts to close. -/
theorem Records.takeOut (h : Records project) {calls : List Call} {pending : Option ℕ}
    (heffective : ∀ listener, ¬ LastEffective calls listener)
    (hclosing : ∀ listener, Closing calls listener ↔
      Closing project.calls listener ∨ project.listener = some listener) :
    Records { project.beginOperation .stop with calls, pending } where
  recorded listener := iff_of_false nofun (heffective listener)
  current listener := iff_of_false nofun (h.not_open_closeListener listener)
  closing listener := (h.closing_closeListener listener).trans (hclosing listener).symm

/-- A bound listener is put in, and the one before starts to close. -/
theorem Records.putIn (h : Records project)
    (heffective : ∀ listener, LastEffective (project.recordListener id).calls listener ↔
      project.listeners.length = listener)
    (hclosing : ∀ listener, Closing (project.recordListener id).calls listener ↔
      Closing project.calls listener ∨ project.listener = some listener) :
    Records (project.recordListener id) := by
  have hlength : (project.closeListener project.listener).listeners.length =
      project.listeners.length := by
    cases project.listener with
    | none => rfl
    | some current => exact List.length_modify ..
  have hget (listener : ℕ) (phase : ListenerPhase) :
      (project.recordListener id).listeners[listener]? = some phase ↔
        (project.closeListener project.listener).listeners[listener]? = some phase ∨
          (project.listeners.length = listener ∧ phase = .open_) := by
    rw [recordListener, ← hlength]
    constructor
    · intro hphase
      obtain hphase | ⟨rfl, rfl⟩ := of_getElem?_concat hphase
      · exact .inl hphase
      · exact .inr ⟨rfl, rfl⟩
    · rintro (hphase | ⟨rfl, rfl⟩)
      · exact getElem?_concat_of_some hphase
      · exact List.getElem?_concat_length
  refine ⟨fun listener => ?_, fun listener => ?_, fun listener => ?_⟩
  · rw [heffective]
    exact ⟨Option.some.inj, congrArg some⟩
  · rw [hget, or_iff_right (h.not_open_closeListener listener)]
    exact ⟨fun heq => ⟨Option.some.inj heq, rfl⟩, fun heq => congrArg some heq.1⟩
  · rw [hget, h.closing_closeListener, hclosing]
    exact or_iff_left nofun

/-- A call that has begun goes on with the same listener. -/
theorem effective_congr {phase : CallPhase} (hbegun : Begun call)
    (hbegun' : Begun { call with phase }) : Effective { call with phase } ↔ Effective call := by
  simp only [Effective, hbegun, hbegun', and_true]

/-- A call without a listener of its own that has not begun, or is a start, has no effect. -/
theorem not_effective (hbound : call.bound = none) (h : ¬ Begun call ∨ call.operation = .start) :
    ¬ Effective call := by
  rintro (⟨hstop, hbegun⟩ | hsome)
  · obtain hqueued | hstart := h
    · exact hqueued hbegun
    · exact nomatch hstart.symm.trans hstop
  · rw [hbound] at hsome
    exact nomatch hsome

theorem Records.serialized (h : Records project) : Records (project.serialized operation) := by
  rw [Project.serialized]
  split
  · next tail _ =>
    refine h.keep rfl rfl (fun listener => ?_) fun listener => ?_
    · exact lastEffective_concat (not_effective rfl (.inl fun hbegun => hbegun tail rfl))
    · rw [closing_concat]
      exact or_iff_left nofun
  · cases operation with
    | start =>
      refine h.keep rfl rfl (fun listener => ?_) fun listener => ?_
      · exact lastEffective_concat (not_effective rfl (.inr rfl))
      · rw [closing_concat]
        exact or_iff_left nofun
    | stop =>
      refine h.takeOut (fun listener => ?_) fun listener => ?_
      · exact not_lastEffective_concat (.inl ⟨rfl, nofun⟩) rfl
      · rw [closing_concat]
        exact or_congr_right ⟨CallPhase.closing.inj, congrArg _⟩

theorem Records.stopAll (h : Records project) : Records project.stopAll := by
  rw [Project.stopAll]
  split
  · exact h.serialized
  · next hnone =>
    have hlistener : project.listener = none := by
      simpa using fun hsome => hnone (.inl (Option.isSome_iff_ne_none.mpr hsome))
    refine ⟨fun listener => ?_, h.current, fun listener => ?_⟩
    · refine iff_of_false (fun heq => nomatch hlistener.symm.trans heq) ?_
      exact not_lastEffective_concat (.inl ⟨rfl, nofun⟩) rfl
    · rw [closing_concat, h.closing]
      exact (or_iff_left nofun).symm

theorem beginStop_eq {phase : CallPhase} :
    (project.beginOperation .stop).setPhase id phase =
      { project.beginOperation .stop with
        calls := project.calls.modify id ({ · with phase }), pending := project.pending } := by
  obtain ⟨calls, pending, listener, listeners⟩ := project
  cases listener <;> rfl

theorem Records.begin {tail : ℕ} (h : Records project) (horder : InOrder project.calls)
    (hcall : project.calls[id]? = some call) (hphase : call.phase = .queued tail) :
    Records ((project.beginOperation call.operation).setPhase id
      (project.beginPhase call.operation)) := by
  have hbound : call.bound = none := by
    cases hsome : call.bound with
    | none => rfl
    | some listener =>
      exact absurd hphase ((horder.starts id call hcall (by rw [hsome]; rfl)).1 tail)
  have hphase' (listener : ℕ) : call.phase ≠ .closing (some listener) := fun hclosing =>
    nomatch hphase.symm.trans hclosing
  cases hoperation : call.operation with
  | start =>
    refine h.keep rfl rfl (fun listener => ?_) fun listener => ?_
    · refine lastEffective_modify hcall rfl (iff_of_false ?_ ?_)
      · exact not_effective hbound (.inr hoperation)
      · exact not_effective hbound (.inr hoperation)
    · exact (closing_modify hcall hphase').trans (or_iff_left nofun)
  | stop =>
    rw [beginStop_eq]
    refine h.takeOut (fun listener => ?_) fun listener => ?_
    · have heffective : Effective { call with phase := .closing project.listener } :=
        .inl ⟨hoperation, nofun⟩
      refine mt (lastEffective_modify_effective horder hcall
        (fun hover => hover.begun tail hphase) heffective).mp fun hsome => ?_
      exact nomatch hbound.symm.trans hsome
    · rw [closing_modify hcall hphase']
      exact or_congr_right ⟨CallPhase.closing.inj, congrArg _⟩

theorem Records.bound (h : Records project) (horder : InOrder project.calls)
    (hcall : project.calls[id]? = some call) (hphase : call.phase = .binding) :
    Records (project.recordListener id) := by
  have hwaits : Waits call := .inl hphase
  refine h.putIn (fun listener => ?_) fun listener => ?_
  · refine (lastEffective_modify_effective horder hcall hwaits.not_over (.inr rfl)).trans ?_
    exact ⟨Option.some.inj, congrArg some⟩
  · refine (closing_modify hcall fun listener hclosing => ?_).trans ?_
    · exact nomatch hphase.symm.trans hclosing
    · exact or_congr_right ⟨CallPhase.closing.inj, congrArg _⟩

/-- A call that has begun goes on, and waits for no close before or after. -/
theorem Records.setPhase {phase : CallPhase} (h : Records project)
    (hcall : project.calls[id]? = some call) (hbegun : Begun call)
    (hbegun' : Begun { call with phase })
    (hphase : ∀ listener, call.phase ≠ .closing (some listener))
    (hphase' : ∀ listener, phase ≠ .closing (some listener)) :
    Records (project.setPhase id phase) :=
  h.keep rfl rfl
    (fun _ => lastEffective_modify hcall rfl (effective_congr hbegun hbegun'))
    fun listener => (closing_modify hcall hphase).trans (or_iff_left (hphase' listener))

theorem Records.closed {failed : Bool} {closes : Option ℕ} (h : Records project)
    (horder : InOrder project.calls) (hcall : project.calls[id]? = some call)
    (hphase : call.phase = .closing closes) :
    Records (project.listenerClosed id failed closes) := by
  have hwaits : Waits call := .inr ⟨_, hphase⟩
  cases closes with
  | none =>
    refine h.setPhase hcall hwaits.begun nofun (fun listener hclosing => ?_) nofun
    exact nomatch CallPhase.closing.inj (hphase.symm.trans hclosing)
  | some closes =>
    have hcloses : project.listeners[closes]? = some .closing :=
      (h.closing closes).mpr ((horder.closing_iff hcall hphase).mpr rfl)
    have hget (listener : ℕ) :
        (project.listenerClosed id failed (some closes)).listeners[listener]? =
          if closes = listener then some (.closed failed) else project.listeners[listener]? := by
      by_cases heq : closes = listener
      · rw [heq] at hcloses
        simp [listenerClosed, heq, hcloses]
      · simp [listenerClosed, heq]
    have hbegun : Begun { call with phase := .returned } := nofun
    refine ⟨fun listener => ?_, fun listener => ?_, fun listener => ?_⟩
    · exact (h.recorded listener).trans
        (lastEffective_modify hcall rfl (effective_congr hwaits.begun hbegun)).symm
    · rw [hget]
      refine (h.current listener).trans ?_
      split
      · next heq =>
        rw [← heq, hcloses]
        exact iff_of_false nofun nofun
      · exact Iff.rfl
    · rw [hget]
      refine iff_of_false ?_ (horder.not_closing_returned hcall hwaits)
      split
      · exact nofun
      · next hne =>
        rw [h.closing, horder.closing_iff hcall hphase]
        exact fun heq => hne (Option.some.inj heq)

theorem Records.step (h : Records project) (hchained : Chained project)
    (htakes : Takes win32 project label next) : Records next := by
  cases htakes with
  | noListener => exact h
  | start | stop => exact h.serialized
  | begin hcall hphase _ => exact h.begin hchained.order hcall hphase
  | bound hcall hphase => exact h.bound hchained.order hcall hphase
  | @bindFailed id call hcall hphase =>
    refine h.setPhase hcall (Waits.begun (.inl hphase)) nofun (fun listener hclosing => ?_) nofun
    exact nomatch hphase.symm.trans hclosing
  | closed hcall hphase => exact h.closed hchained.order hcall hphase
  | @settled id call hcall hphase =>
    have hset : Records (project.setPhase id .settled) := by
      refine h.setPhase hcall (Over.begun (.inl hphase)) nofun (fun listener hclosing => ?_) nofun
      exact nomatch hphase.symm.trans hclosing
    exact ⟨hset.recorded, hset.current, hset.closing⟩

theorem chained_initial : Chained {} where
  order := ⟨nofun, nofun, nofun, nofun⟩
  tail := nofun
  idle := nofun

theorem records_initial : Records {} where
  recorded _ := iff_of_false nofun fun ⟨_, _, hcall, _⟩ => nomatch hcall
  current _ := iff_of_false nofun nofun
  closing _ := iff_of_false nofun fun ⟨_, hmem, _⟩ => nomatch hmem

/-- When all calls have settled, each of them has had its effect. -/
theorem Records.holds (h : Records project) (hchained : Chained project)
    (hquiescent : project.Quiescent) : Holds project := by
  have hdecides (call : Call) (hmem : call ∈ project.calls) : Effective call ↔ Decides call := by
    have hbegun : Begun call := Over.begun (.inr (hquiescent call hmem))
    simp only [Effective, Decides, hbegun, and_true]
  refine ⟨fun listener => (h.recorded listener).trans ?_, fun listener phase hget hother => ?_, ?_⟩
  · refine exists_congr fun id => exists_congr fun call => and_congr_right fun _ =>
      and_congr_right fun _ => forall_congr' fun later => forall_congr' fun other =>
        forall_congr' fun hother => ?_
    rw [hdecides other (List.mem_of_getElem? hother)]
  · cases phase with
    | open_ => exact absurd ((h.current listener).mpr hget) hother
    | closing =>
      obtain ⟨call, hmem, hclosing⟩ := (h.closing listener).mp hget
      exact nomatch (hquiescent call hmem).symm.trans hclosing
    | closed failed => exact ⟨failed, rfl⟩
  · cases hpending : project.pending with
    | none => rfl
    | some id =>
      obtain ⟨hlength, hactive⟩ := hchained.tail id hpending
      have hlast : project.calls[id]? = some project.calls[id] :=
        List.getElem?_eq_getElem (by omega)
      exact absurd (hquiescent _ (List.mem_of_getElem? hlast)) (hactive _ hlast)

/-! ### Calls settle -/

/-- The steps that a call in the phase has before it, at most. -/
def remainingSteps (call : Call) : ℕ :=
  match call.phase with
  | .queued _ => 4
  | .binding => 3
  | .closing _ => 2
  | .returned => 1
  | .settled => 0

def remaining (project : Project) : ℕ := (project.calls.map remainingSteps).sum

/-- Not a new call, but one that goes on. -/
def Completes (_ : Project) : ProjectStep → Prop
  | .startLocalListener | .stopListener => False
  | _ => True

theorem sum_modify_lt {f : Call → Call} (hcall : calls[id]? = some call)
    (hlt : remainingSteps (f call) < remainingSteps call) :
    ((calls.modify id f).map remainingSteps).sum < (calls.map remainingSteps).sum := by
  induction calls generalizing id with
  | nil => exact nomatch hcall
  | cons first calls ih =>
    cases id with
    | zero =>
      obtain rfl := Option.some.inj hcall
      simpa using hlt
    | succ id => simpa using ih (by simpa using hcall)

/-- A call that goes on has one step less before it. -/
theorem remaining_lt (hcompletes : Completes project label)
    (hstep : project.step win32 label = some next) : next.remaining < project.remaining := by
  cases takes_of_step hstep with
  | noListener | start | stop => exact hcompletes.elim
  | @begin id call _ hcall hphase _ =>
    have hcalls : ((project.beginOperation call.operation).setPhase id
        (project.beginPhase call.operation)).calls =
          project.calls.modify id ({ · with phase := project.beginPhase call.operation }) :=
      congrArg (List.modify · id _) calls_beginOperation
    rw [remaining, hcalls]
    refine sum_modify_lt hcall ?_
    cases call.operation <;> simp [remainingSteps, hphase, beginPhase]
  | bound hcall hphase | bindFailed hcall hphase | closed hcall hphase | settled hcall hphase =>
    exact sum_modify_lt hcall (by simp [remainingSteps, hphase])

/-- A project with an unsettled call is never stuck: its first one goes on. -/
theorem exists_step_of_unsettled (hchained : Chained project) (hactive : ¬ project.Quiescent) :
    ∃ (label : ProjectStep) (next : Project), project.step win32 label = some next ∧
      Completes project label := by
  have hex : ∃ (id : ℕ) (call : Call), project.calls[id]? = some call ∧ call.phase ≠ .settled := by
    simp only [Quiescent, not_forall] at hactive
    obtain ⟨call, hmem, hphase⟩ := hactive
    obtain ⟨id, hcall⟩ := List.mem_iff_getElem?.mp hmem
    exact ⟨id, call, hcall, hphase⟩
  -- The first of them: what is before it has settled.
  classical
  obtain ⟨call, hcall, hactive⟩ := Nat.find_spec hex
  have hfirst (i : ℕ) (other : Call) (hother : project.calls[i]? = some other)
      (hlt : i < Nat.find hex) : other.phase = .settled := by
    by_contra hphase
    exact Nat.find_min hex hlt ⟨other, hother, hphase⟩
  generalize Nat.find hex = id at hcall hfirst
  cases hphase : call.phase with
  | queued tail =>
    have hid := hchained.order.chained id call tail hcall hphase
    have htail : tail < project.calls.length := by
      have hlt := (List.getElem?_eq_some_iff.mp hcall).1
      omega
    have hother := List.getElem?_eq_getElem htail
    have hsettled : project.Settled tail := by
      rw [Settled, hother]
      exact decide_eq_true (.inr (hfirst tail _ hother (by omega)))
    exact ⟨.begin id, _, by simp only [step, hcall, hphase, if_pos hsettled]; rfl, trivial⟩
  | binding =>
    exact ⟨.bound id, _, by simp only [step, hcall, if_pos hphase]; rfl, trivial⟩
  | closing listener =>
    exact ⟨.closed id false, _, by simp only [step, hcall, hphase]; rfl, trivial⟩
  | returned =>
    exact ⟨.settled id, _, by simp only [step, hcall, if_pos hphase]; rfl, trivial⟩
  | settled => exact absurd hphase hactive

theorem remaining_le (project : Project) : project.remaining ≤ project.calls.length * 4 := by
  unfold remaining
  induction project.calls with
  | nil => exact Nat.le_refl 0
  | cons call calls ih =>
    have hcall : remainingSteps call ≤ 4 := by unfold remainingSteps; split <;> omega
    rw [List.map_cons, List.sum_cons, List.length_cons]
    omega

end Project

/-! ### All projects -/

abbrev Broker := String → Project

inductive BrokerStep
  | project (projectId : String) (label : ProjectStep)
  | stopAll
  deriving DecidableEq, Repr

def Broker.step (win32 : Bool) (broker : Broker) : BrokerStep → Option Broker
  | .project projectId label =>
    ((broker projectId).step win32 label).map (Function.update broker projectId)
  | .stopAll => some fun projectId => (broker projectId).stopAll

open Project

/-- What the calls of each project keep, the calls of all of them keep. -/
theorem Broker.step_invariant (inv : Project → Prop) {win32 : Bool} {broker next : Broker}
    {label : BrokerStep}
    (hstep : ∀ (project next : Project) (label : ProjectStep), inv project →
      project.step win32 label = some next → inv next)
    (hstopAll : ∀ project : Project, inv project → inv project.stopAll)
    (h : broker.step win32 label = some next) (hinv : ∀ projectId, inv (broker projectId)) :
    ∀ projectId, inv (next projectId) := by
  cases label with
  | project changed label =>
    obtain ⟨project, hproject, rfl⟩ := Option.map_eq_some_iff.mp h
    intro projectId
    by_cases heq : projectId = changed
    · subst heq
      rw [Function.update_self]
      exact hstep _ _ _ (hinv projectId) hproject
    · rw [Function.update_of_ne heq]
      exact hinv projectId
  | stopAll =>
    obtain rfl := Option.some.inj h
    exact fun projectId => hstopAll _ (hinv projectId)

/-- In every run, a project whose calls have all settled has recorded the listener of the last start
that bound one and after which no stop was issued, has closed every other one, and has no tail. -/
theorem listeners_serialized (win32 : Bool) {labels : List BrokerStep} {broker : Broker}
    (hrun : Run (Broker.step win32) Always (fun _ => {}) labels broker) (projectId : String)
    (hquiescent : (broker projectId).Quiescent) : Holds (broker projectId) := by
  have hpreserved : ∀ (broker : Broker) (label : BrokerStep) (next : Broker),
      (∀ projectId, Chained (broker projectId) ∧ Records (broker projectId)) → Always broker label →
        broker.step win32 label = some next →
          ∀ projectId, Chained (next projectId) ∧ Records (next projectId) :=
    fun _ _ _ hinv _ hstep => Broker.step_invariant
      (fun project => Chained project ∧ Records project)
      (fun project next label hinv hstep =>
        have htakes := takes_of_step hstep
        ⟨hinv.1.step htakes, hinv.2.step hinv.1 htakes⟩)
      (fun project hinv => ⟨hinv.1.stopAll, hinv.2.stopAll⟩) hstep hinv
  obtain ⟨hchained, hrecords⟩ :=
    hrun.invariant hpreserved (fun _ => ⟨chained_initial, records_initial⟩) projectId
  exact hrecords.holds hchained hquiescent

/-- A stop is issued while a start binds, and another start after it. -/
def restartLabels : List BrokerStep :=
  [.project "p" .startLocalListener, .project "p" .stopListener, .project "q" .startLocalListener,
    .project "p" .startLocalListener, .project "p" (.bound 0), .project "q" (.bindFailed 0),
    .project "q" (.settled 0), .project "p" (.closed 0 false), .project "p" (.begin 1),
    .project "p" (.settled 0), .project "p" (.closed 1 true), .project "p" (.settled 1),
    .project "p" (.begin 2), .project "p" (.bound 2), .project "p" (.closed 2 false),
    .project "p" (.settled 2)]

theorem listeners_serialized_restart :
    ∃ broker : Broker, Run (Broker.step false) Always (fun _ => {}) restartLabels broker ∧
      (broker "p").listener = some 1 ∧ Holds (broker "p") := by
  have hreplay : (replay (Broker.step false) Always (fun _ => {}) restartLabels).any
      (fun broker => (broker "p").listener = some 1 ∧ (broker "p").Quiescent) = true := by
    decide +kernel
  obtain ⟨broker, hrun, hlistener, hquiescent⟩ := exists_run_of_replay hreplay
  exact ⟨broker, hrun, hlistener, listeners_serialized false hrun "p" hquiescent⟩

/-- **Every call settles.** In whatever order binds and closes come back, the calls issued so far
take at most four steps each, and they can take one more unless all of them have settled. -/
theorem calls_settle (win32 : Bool) {labels : List BrokerStep} {broker : Broker}
    (hrun : Run (Broker.step win32) Always (fun _ => {}) labels broker) (projectId : String)
    {completions : List ProjectStep} {last : Project}
    (hcompletes : Run (Project.step win32) Completes (broker projectId) completions last) :
    completions.length ≤ (broker projectId).calls.length * 4 ∧
      ((∀ label, Completes last label → last.step win32 label = none) → last.Quiescent) := by
  have hchained : ∀ projectId, Chained (broker projectId) :=
    hrun.invariant (fun _ _ _ hinv _ hstep => Broker.step_invariant Chained
      (fun _ _ _ h hstep => h.step (takes_of_step hstep)) (fun _ h => h.stopAll) hstep hinv)
      fun _ => chained_initial
  have hlast : Chained last :=
    hcompletes.invariant (fun _ _ _ h _ hstep => h.step (takes_of_step hstep)) (hchained projectId)
  refine ⟨?_, fun hstuck => ?_⟩
  · have hcount := hcompletes.countP_add_le (p := fun _ => true) fun _ _ _ => remaining_lt
    have := remaining_le (broker projectId)
    rw [List.countP_true] at hcount
    omega
  · by_contra hactive
    obtain ⟨label, next, hstep, hlabel⟩ := exists_step_of_unsettled hlast hactive
    exact nomatch (hstuck label hlabel).symm.trans hstep

/-- A start and a stop behind it, up to where the stop begins. -/
theorem calls_settle_stop : [ProjectStep.bound 0, .closed 0 false, .begin 1].length ≤ 2 * 4 := by
  have hrun : Run (Broker.step false) Always (fun _ => {})
      [.project "p" .startLocalListener, .project "p" .stopListener] _ :=
    .cons trivial rfl (.single trivial rfl)
  have hcompletes : Run (Project.step false) Completes
      ((({} : Project).serialized .start).serialized .stop)
      [.bound 0, .closed 0 false, .begin 1] _ :=
    .cons trivial rfl (.cons trivial rfl (.single trivial rfl))
  exact (calls_settle false hrun "p" hcompletes).1

end AgentCockpit.Callback
