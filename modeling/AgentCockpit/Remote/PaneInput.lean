import AgentCockpit.Core.Arena
import AgentCockpit.Core.Run
import AgentCockpit.Remote.SendKeys

/-!
# The order of pane input

A call of `input` writes its first command at once and every later one after the reply to the
one before, so that calls overlap at chunk boundaries. The order of the bytes is kept in the runs
in which a call that carries bytes is issued only after the earlier calls for its pane have
written their last command.

Other commands share the reply queue. A label is a call, another command, a reply that settles
the oldest command in flight, or the continuation of a call whose command was replied to.
-/

namespace AgentCockpit.Remote

open AgentCockpit.Core

inductive CallPhase
  /-- The call waits for the reply to its last command. -/
  | waiting
  /-- The reply has come and the call has not continued yet. -/
  | replied
  | returned
  deriving DecidableEq

/-- One call of `input`. -/
structure InputCall where
  paneId : String
  input : PaneInput
  /-- The commands that are still to be written. -/
  rest : List SendKeys
  phase : CallPhase
  deriving DecidableEq

/-- The calls of one control manager. -/
structure PaneInputs where
  calls : List InputCall := []
  /-- The commands in flight: the call that waits for each, if it is one. -/
  pending : List (Option ℕ) := []
  /-- The commands written to the channel. -/
  written : List SendKeys := []
  deriving DecidableEq

inductive InputStep
  | input (paneId : String) (input : PaneInput)
  /-- A command of another caller. -/
  | command
  | reply
  | resume (call : ℕ)
  deriving DecidableEq

namespace PaneInputs

variable (inputs : PaneInputs)

/-- Begin a call: write its first command, if it has any. -/
def input (paneId : String) (data : PaneInput) : PaneInputs :=
  match buildSendKeysCommands paneId data with
  | [] => { inputs with calls := inputs.calls ++ [⟨paneId, data, [], .returned⟩] }
  | command :: rest =>
    { calls := inputs.calls ++ [⟨paneId, data, rest, .waiting⟩]
      pending := inputs.pending ++ [some inputs.calls.length]
      written := inputs.written ++ [command] }

/-- The oldest command in flight is settled. -/
def reply : PaneInputs :=
  match inputs.pending with
  | [] => inputs
  | none :: pending => { inputs with pending }
  | some id :: pending =>
    { inputs with pending, calls := inputs.calls.modify id ({ · with phase := .replied }) }

/-- Write the next command of a call. -/
def writeNext (id : ℕ) (command : SendKeys) (rest : List SendKeys) : PaneInputs :=
  { calls := inputs.calls.modify id ({ · with rest, phase := .waiting })
    pending := inputs.pending ++ [some id]
    written := inputs.written ++ [command] }

/-- Continue a call: write its next command, or return. -/
def resume (id : ℕ) (call : InputCall) : PaneInputs :=
  match call.rest with
  | [] => { inputs with calls := inputs.calls.modify id ({ · with phase := .returned }) }
  | command :: rest => inputs.writeNext id command rest

def step (inputs : PaneInputs) : InputStep → Option PaneInputs
  | .input paneId data => some (inputs.input paneId data)
  | .command => some { inputs with pending := inputs.pending ++ [none] }
  | .reply => if inputs.pending = [] then none else some inputs.reply
  | .resume id =>
    match inputs.calls[id]? with
    | some call => if call.phase = .replied then some (inputs.resume id call) else none
    | none => none

/-! ### The promise -/

/-- The bytes handed in for a pane, in call order. -/
def requested (paneId : String) : List UInt8 :=
  inputs.calls.flatMap fun call => if call.paneId = paneId then toInputBytes call.input else []

/-- The bytes of the commands written for a pane. -/
def carried (paneId : String) : List UInt8 :=
  inputs.written.flatMap fun command => if command.paneId = paneId then command.bytes else []

/-- Every call for the pane has written its last command. -/
def AllSent (paneId : String) : Prop :=
  ∀ call ∈ inputs.calls, call.paneId = paneId → call.rest = []

/-- What was written for a pane begins what was handed in, and is all of it once every call has
written its last command. -/
def InOrder : Prop :=
  ∀ paneId, inputs.carried paneId <+: inputs.requested paneId ∧
    (inputs.AllSent paneId → inputs.carried paneId = inputs.requested paneId)

instance (paneId : String) : Decidable (inputs.AllSent paneId) :=
  inferInstanceAs (Decidable (∀ call ∈ inputs.calls, call.paneId = paneId → call.rest = []))

/-- A call with bytes to write comes after the earlier calls for its pane have written theirs. -/
def OneAtATime : InputStep → Prop
  | .input paneId data => toInputBytes data ≠ [] → inputs.AllSent paneId
  | _ => True

instance : ∀ label, Decidable (inputs.OneAtATime label)
  | .input paneId data =>
    inferInstanceAs (Decidable (toInputBytes data ≠ [] → inputs.AllSent paneId))
  | .command | .reply | .resume _ => isTrue trivial

/-! ### The bytes still to be written -/

/-- The bytes that the calls for a pane have not written yet. -/
def left (paneId : String) : List UInt8 :=
  inputs.calls.flatMap fun call => if call.paneId = paneId then call.rest.flatMap (·.bytes) else []

/-- Nothing is out of order: at most one call for a pane has commands left, and its bytes follow
those written. -/
structure Sound (inputs : PaneInputs) : Prop where
  complete : ∀ paneId, inputs.carried paneId ++ inputs.left paneId = inputs.requested paneId
  single : ∀ (i j : ℕ) (call other : InputCall), inputs.calls[i]? = some call →
    inputs.calls[j]? = some other → call.paneId = other.paneId → call.rest ≠ [] →
      other.rest ≠ [] → i = j
  pane : ∀ call ∈ inputs.calls, ∀ command ∈ call.rest, command.paneId = call.paneId

variable {inputs} {paneId : String}

theorem sound_initial : Sound {} where
  complete _ := rfl
  single _ _ _ _ h := nomatch h
  pane _ h := absurd h List.not_mem_nil

theorem left_of_allSent (h : inputs.AllSent paneId) : inputs.left paneId = [] := by
  refine List.flatMap_eq_nil_iff.mpr fun call hcall => ?_
  split
  · next hpane => rw [h call hcall hpane, List.flatMap_nil]
  · rfl

theorem Sound.inOrder (h : Sound inputs) : inputs.InOrder := by
  intro paneId
  refine ⟨⟨inputs.left paneId, h.complete paneId⟩, fun hsent => ?_⟩
  rw [← h.complete paneId, left_of_allSent hsent, List.append_nil]

/-- A change of phase moves no bytes. -/
theorem Sound.setPhase (h : Sound inputs) (id : ℕ) (phase : CallPhase)
    (pending : List (Option ℕ)) :
    Sound { inputs with pending, calls := inputs.calls.modify id ({ · with phase }) } where
  complete paneId := by
    have hleft : PaneInputs.left { inputs with
        pending, calls := inputs.calls.modify id ({ · with phase }) } paneId = inputs.left paneId :=
      flatMap_modify_eq fun _ _ => rfl
    have hrequested : PaneInputs.requested { inputs with
        pending, calls := inputs.calls.modify id ({ · with phase }) } paneId =
          inputs.requested paneId :=
      flatMap_modify_eq fun _ _ => rfl
    rw [hleft, hrequested]
    exact h.complete paneId
  single i j call other hcall hother hpane hrest hrest' := by
    obtain ⟨old, hold, rfl⟩ := of_getElem?_modify hcall
    obtain ⟨old', hold', rfl⟩ := of_getElem?_modify hother
    refine h.single i j old old' hold hold' ?_ ?_ ?_
    · split at hpane <;> split at hpane <;> exact hpane
    · split at hrest <;> exact hrest
    · split at hrest' <;> exact hrest'
  pane call hcall command hcommand := by
    obtain ⟨i, hi⟩ := List.mem_iff_getElem?.mp hcall
    obtain ⟨old, hold, rfl⟩ := of_getElem?_modify hi
    have hmem := List.mem_of_getElem? hold
    split at hcommand
    · next heq =>
      rw [if_pos heq]
      exact h.pane old hmem command hcommand
    · next hne =>
      rw [if_neg hne]
      exact h.pane old hmem command hcommand

/-- A call that has written its first commands when the earlier ones have nothing left. -/
theorem Sound.begin (h : Sound inputs) (call : InputCall) (sent : List SendKeys)
    (pending : List (Option ℕ))
    (hpane : ∀ command ∈ sent ++ call.rest, command.paneId = call.paneId)
    (hbytes : sent.flatMap (·.bytes) ++ call.rest.flatMap (·.bytes) = toInputBytes call.input)
    (hrest : call.rest ≠ [] → toInputBytes call.input ≠ [])
    (hquiet : toInputBytes call.input ≠ [] → inputs.AllSent call.paneId) :
    Sound { calls := inputs.calls ++ [call], pending, written := inputs.written ++ sent } where
  complete paneId := by
    have hsent : sent.flatMap (fun command =>
        if command.paneId = paneId then command.bytes else []) =
          if call.paneId = paneId then sent.flatMap (·.bytes) else [] := by
      have hcommand := fun command hmem => hpane command (List.mem_append_left _ hmem)
      split
      · next heq =>
        exact List.flatMap_congr fun command hmem => if_pos ((hcommand command hmem).trans heq)
      · next hne =>
        exact List.flatMap_eq_nil_iff.mpr fun command hmem =>
          if_neg fun heq => hne ((hcommand command hmem).symm.trans heq)
    have hcomplete := h.complete paneId
    simp only [carried, left, requested, List.flatMap_append, hsent, List.flatMap_singleton,
      List.append_assoc] at hcomplete ⊢
    by_cases heq : call.paneId = paneId
    · simp only [if_pos heq, ← hbytes]
      by_cases hempty : toInputBytes call.input = []
      · obtain ⟨hnone, hnone'⟩ := List.append_eq_nil_iff.mp (hbytes.trans hempty)
        rw [hnone, hnone', List.nil_append, List.append_nil, List.append_nil, List.append_nil]
        exact hcomplete
      · -- the earlier calls for the pane have nothing left that would come behind the new commands
        have hleft := left_of_allSent (hquiet hempty)
        rw [heq, left] at hleft
        rw [hleft, List.append_nil] at hcomplete
        rw [hleft, List.nil_append, hcomplete]
    · simp only [if_neg heq, List.nil_append, List.append_nil]
      exact hcomplete
  single i j first second hfirst hsecond hsame hleft hleft' := by
    rcases of_getElem?_concat hfirst with hold | ⟨rfl, rfl⟩
    · rcases of_getElem?_concat hsecond with hold' | ⟨rfl, rfl⟩
      · exact h.single i j first second hold hold' hsame hleft hleft'
      · exact absurd (hquiet (hrest hleft') first (List.mem_of_getElem? hold) hsame) hleft
    · rcases of_getElem?_concat hsecond with hold' | ⟨rfl, -⟩
      · exact absurd (hquiet (hrest hleft) second (List.mem_of_getElem? hold') hsame.symm) hleft'
      · rfl
  pane other hother command hcommand := by
    rcases List.mem_append.mp hother with hold | hnew
    · exact h.pane other hold command hcommand
    · obtain rfl := List.mem_singleton.mp hnew
      exact hpane command (List.mem_append_right _ hcommand)

theorem Sound.input (h : Sound inputs) {paneId : String} {data : PaneInput}
    (hadmits : toInputBytes data ≠ [] → inputs.AllSent paneId) :
    Sound (inputs.input paneId data) := by
  have hbytes := flatMap_bytes_buildSendKeysCommands paneId data
  unfold PaneInputs.input
  split
  · next hnone =>
    rw [hnone] at hbytes
    have hbegin := h.begin ⟨paneId, data, [], .returned⟩ [] inputs.pending
      (fun command hmem => absurd hmem List.not_mem_nil) hbytes (absurd rfl) hadmits
    rwa [List.append_nil] at hbegin
  · next command rest hsome =>
    rw [hsome, List.flatMap_cons] at hbytes
    refine h.begin ⟨paneId, data, rest, .waiting⟩ [command] _ (fun other hmem => ?_)
      (by simpa using hbytes) (fun _ => ?_) hadmits
    · rw [List.singleton_append, ← hsome] at hmem
      exact paneId_of_mem_buildSendKeysCommands hmem
    · have hsome' : buildSendKeysCommands paneId data ≠ [] := hsome.symm ▸ List.cons_ne_nil _ _
      exact toInputBytes_ne_nil hsome'

/-- If no other call for its pane has commands left, what is left is the call's own. -/
theorem left_eq_of_only {id : ℕ} {call : InputCall} (hget : inputs.calls[id]? = some call)
    (honly : ∀ (j : ℕ) (other : InputCall), inputs.calls[j]? = some other → j ≠ id →
      other.paneId = call.paneId → other.rest = []) :
    inputs.left call.paneId = call.rest.flatMap (·.bytes) := by
  have hflat := flatMap_eq_of_only (g := fun other : InputCall =>
    if other.paneId = call.paneId then other.rest.flatMap (·.bytes) else []) hget
    fun j other hother hne => by
      split
      · next hsame => rw [honly j other hother hne hsame, List.flatMap_nil]
      · rfl
  exact hflat.trans (if_pos rfl)

section WriteNext

variable {id : ℕ} {call : InputCall} {command : SendKeys} {rest : List SendKeys}

theorem getElem?_writeNext (hget : inputs.calls[id]? = some call) :
    (inputs.writeNext id command rest).calls[id]? =
      some { call with rest, phase := .waiting } := by
  have hmodify := getElem?_modify_of_some (j := id)
    (f := fun call : InputCall => { call with rest, phase := .waiting }) hget
  rwa [if_pos rfl] at hmodify

/-- A call comes from the one in its place, and it is another one or the one that writes. -/
theorem of_getElem?_writeNext {i : ℕ} {other : InputCall} (hget : inputs.calls[id]? = some call)
    (h : (inputs.writeNext id command rest).calls[i]? = some other) :
    i = id ∧ other = { call with rest, phase := .waiting } ∨
      i ≠ id ∧ inputs.calls[i]? = some other := by
  obtain ⟨old, hold, rfl⟩ := of_getElem?_modify h
  by_cases hi : id = i
  · subst hi
    obtain rfl := Option.some.inj (hget.symm.trans hold)
    exact .inl ⟨rfl, if_pos rfl⟩
  · rw [if_neg hi]
    exact .inr ⟨Ne.symm hi, hold⟩

theorem carried_writeNext :
    (inputs.writeNext id command rest).carried paneId =
      inputs.carried paneId ++ if command.paneId = paneId then command.bytes else [] := by
  simp [carried, writeNext]

theorem requested_writeNext :
    (inputs.writeNext id command rest).requested paneId = inputs.requested paneId :=
  flatMap_modify_eq fun _ _ => rfl

theorem left_writeNext_of_ne (hget : inputs.calls[id]? = some call) (hne : call.paneId ≠ paneId) :
    (inputs.writeNext id command rest).left paneId = inputs.left paneId := by
  refine flatMap_modify_eq fun record hrecord => ?_
  obtain rfl := Option.some.inj (hget.symm.trans hrecord)
  rw [if_neg hne, if_neg hne]

/-- The only call of its pane with commands left writes the next one. -/
theorem Sound.writeNext (h : Sound inputs) (hget : inputs.calls[id]? = some call)
    (hrest : call.rest = command :: rest) : Sound (inputs.writeNext id command rest) := by
  have hne : call.rest ≠ [] := hrest ▸ List.cons_ne_nil _ _
  have hpane := h.pane call (List.mem_of_getElem? hget)
  rw [hrest] at hpane
  have honly : ∀ (j : ℕ) (other : InputCall), inputs.calls[j]? = some other → j ≠ id →
      other.paneId = call.paneId → other.rest = [] := fun j other hother hj hsame => by
    by_contra hleft
    exact hj (h.single j id other call hother hget hsame hleft hne)
  refine ⟨fun paneId => ?_, fun i j first second hfirst hsecond hsame hleft hleft' => ?_,
    fun other hother written hwritten => ?_⟩
  · have hcomplete := h.complete paneId
    rw [carried_writeNext, requested_writeNext, hpane command List.mem_cons_self]
    by_cases heq : call.paneId = paneId
    · subst heq
      have hleft : (inputs.writeNext id command rest).left call.paneId =
          rest.flatMap (·.bytes) :=
        left_eq_of_only (getElem?_writeNext hget) fun j other hother hj hsame => by
          rcases of_getElem?_writeNext hget hother with ⟨rfl, -⟩ | ⟨-, hold⟩
          · exact absurd rfl hj
          · exact honly j other hold hj hsame
      rw [left_eq_of_only hget honly, hrest, List.flatMap_cons] at hcomplete
      rw [if_pos rfl, List.append_assoc, hleft]
      exact hcomplete
    · rw [if_neg heq, List.append_nil, left_writeNext_of_ne hget heq]
      exact hcomplete
  · rcases of_getElem?_writeNext hget hfirst with ⟨rfl, rfl⟩ | ⟨hi, hold⟩
    · rcases of_getElem?_writeNext hget hsecond with ⟨rfl, -⟩ | ⟨hj, hold⟩
      · rfl
      · exact absurd (honly j second hold hj hsame.symm) hleft'
    · rcases of_getElem?_writeNext hget hsecond with ⟨rfl, rfl⟩ | ⟨hj, hold'⟩
      · exact absurd (honly i first hold hi hsame) hleft
      · exact h.single i j first second hold hold' hsame hleft hleft'
  · obtain ⟨i, hi⟩ := List.mem_iff_getElem?.mp hother
    rcases of_getElem?_writeNext hget hi with ⟨rfl, rfl⟩ | ⟨-, hold⟩
    · exact hpane written (List.mem_cons_of_mem _ hwritten)
    · exact h.pane other (List.mem_of_getElem? hold) written hwritten

end WriteNext

theorem Sound.step {label : InputStep} {next : PaneInputs} (h : Sound inputs)
    (hadmits : inputs.OneAtATime label) (hstep : inputs.step label = some next) : Sound next := by
  cases label with
  | input paneId data =>
    obtain rfl := Option.some.inj hstep
    exact h.input hadmits
  | command =>
    obtain rfl := Option.some.inj hstep
    exact { h with }
  | reply =>
    simp only [PaneInputs.step] at hstep
    split at hstep
    · exact nomatch hstep
    · obtain rfl := Option.some.inj hstep
      unfold PaneInputs.reply
      split
      · exact h
      · exact { h with }
      · exact h.setPhase _ .replied _
  | resume id =>
    simp only [PaneInputs.step] at hstep
    split at hstep
    · next call hget =>
      obtain ⟨_, rfl⟩ := of_ite_some hstep
      unfold PaneInputs.resume
      split
      · exact h.setPhase id .returned inputs.pending
      · next hrest => exact h.writeNext hget hrest
    · exact nomatch hstep

end PaneInputs

/-- Input for a pane that is handed in only when the earlier calls for it have written their last
command is written in call order. -/
theorem input_in_order {labels : List InputStep} {inputs : PaneInputs}
    (hrun : Run PaneInputs.step PaneInputs.OneAtATime {} labels inputs) : inputs.InOrder := by
  have hsound : PaneInputs.Sound inputs := hrun.invariant
    (fun _ _ _ hinv hadmits hstep => PaneInputs.Sound.step hinv hadmits hstep)
    PaneInputs.sound_initial
  exact hsound.inOrder

/-- A paste of two commands, and a keystroke after the reply to the first. -/
theorem input_in_order_paste :
    ∃ inputs, Run PaneInputs.step PaneInputs.OneAtATime {}
        [.input "%1" (.bytes (List.replicate 257 97)), .input "%2" (.text "x"), .reply, .resume 0,
          .input "%1" (.text "62")] inputs ∧
      inputs.carried "%1" = List.replicate 257 97 ++ [98] ∧ inputs.InOrder := by
  exact exists_run_and_of_replay (by decide +kernel) fun _ hrun => input_in_order hrun

/-- A keystroke during a paste of two commands lands between them. -/
theorem not_input_in_order :
    ¬ ∀ (labels : List InputStep) (inputs : PaneInputs),
      Run PaneInputs.step Always {} labels inputs → inputs.InOrder := by
  intro hkept
  have hreplay : (replay PaneInputs.step Always {}
      [.input "%1" (.bytes (List.replicate 257 97)), .input "%1" (.bytes [98]), .reply,
        .resume 0]).any (fun inputs => inputs.AllSent "%1" ∧
          inputs.carried "%1" ≠ inputs.requested "%1") = true := by
    decide +kernel
  obtain ⟨inputs, hrun, hsent, hcarried⟩ := exists_run_of_replay hreplay
  exact hcarried ((hkept _ inputs hrun "%1").2 hsent)

end AgentCockpit.Remote
