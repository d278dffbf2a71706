import AgentCockpit.Remote.HelperRpc

/-!
# Each call of the helper has its own response

On the account of a stream every frame is dispatched in its turn, so each call settles with the
first response to it, and how the stream was cut does not matter. A client keeps to this account as
long as its chunks are calm: a chunk that is not leaves out a frame that matters.

## Main results

* `calls_settle_once` — **in calm runs each call settles once, with its own response**
-/

namespace AgentCockpit.Remote.HelperRpc

open AgentCockpit.Core AgentCockpit.Callback

variable {handlers : Handlers} {account : Account} {message : JsValue} {id : ℕ}

/-- A response never rejects a call for a failure of the client. -/
theorem settlement_ne_failed (method method' reason : String) (message : JsValue) :
    settlement method message ≠ some (.rejected ⟨.failed reason, method'⟩) := by
  unfold settlement
  split
  · exact nofun
  · split
    · exact nofun
    · exact nofun

/-- A fair account, with what carries it through the next frame. -/
structure Account.Sound (account : Account) : Prop extends account.Fair where
  started : 1 ≤ account.calls.nextId
  fresh : ∀ id, account.calls.nextId ≤ id → account.since id = account.received.length
  bounded : ∀ id, account.since id ≤ account.received.length
  failed : ∀ id result, (id, result) ∈ account.calls.settled → result.ByFailure →
    account.calls.closed = true

namespace Account.Sound

theorem start : ({} : Account).Sound where
  once := List.Perm.refl []
  waiting := nofun
  own := nofun
  closed := nofun
  started := le_rfl
  fresh _ _ := rfl
  bounded _ := le_rfl
  failed := nofun

theorem lt_nextId (h : account.Sound)
    (hid : id ∈ account.calls.settled.map Prod.fst ++ account.calls.pending.map PendingCall.id) :
    id < account.calls.nextId := by
  have hstarted := h.started
  have hrange := List.mem_range'_1.mp (h.once.mem_iff.mp hid)
  omega

theorem lt_nextId_of_pending (h : account.Sound) {call : PendingCall}
    (hcall : call ∈ account.calls.pending) : call.id < account.calls.nextId :=
  h.lt_nextId (List.mem_append_right _ (List.mem_map_of_mem hcall))

theorem lt_nextId_of_settled (h : account.Sound) {result : Settlement}
    (hresult : (id, result) ∈ account.calls.settled) : id < account.calls.nextId :=
  h.lt_nextId (List.mem_append_left _ (List.mem_map_of_mem hresult))

/-- A number that is given out now was not there. -/
theorem range_succ (h : account.Sound) : List.range' 1 (account.calls.nextId + 1 - 1) =
    List.range' 1 (account.calls.nextId - 1) ++ [account.calls.nextId] := by
  have hstarted := h.started
  obtain ⟨count, hcount⟩ := Nat.exists_eq_add_of_le' hstarted
  rw [hcount, Nat.add_sub_cancel, Nat.add_sub_cancel, List.range'_concat, Nat.one_mul,
    Nat.add_comm 1 count]

/-! ### Calls -/

/-- No response to a call was there before it was made. -/
theorem first_nextId (h : account.Sound) : account.first account.calls.nextId = none := by
  rw [first, h.fresh _ le_rfl, List.drop_length]
  rfl

theorem call (h : account.Sound) (method : String) (failure : Option String) :
    Sound { account with calls := account.calls.call method failure } := by
  unfold Calls.call
  split
  · exact ⟨⟨h.once, h.waiting, h.own, h.closed⟩, h.started, h.fresh, h.bounded, h.failed⟩
  · next hopen =>
    have hfresh : ∀ id, account.calls.nextId + 1 ≤ id →
        account.since id = account.received.length :=
      fun id hid => h.fresh id (Nat.le_of_succ_le hid)
    cases failure with
    | none =>
      refine ⟨⟨?_, ?_, h.own, fun hclosed => absurd hclosed hopen⟩, Nat.le_add_left 1 _, hfresh,
        h.bounded, h.failed⟩
      · rw [List.map_append, ← List.append_assoc, h.range_succ]
        exact h.once.append_right _
      · intro call hcall
        rcases List.mem_append.mp hcall with hold | hnew
        · exact h.waiting call hold
        · obtain rfl := List.mem_singleton.mp hnew
          exact h.first_nextId
    | some message =>
      refine ⟨⟨?_, h.waiting, ?_, fun hclosed => absurd hclosed hopen⟩, Nat.le_add_left 1 _, hfresh,
        h.bounded, ?_⟩
      · rw [List.map_append, h.range_succ, List.append_assoc]
        refine (List.perm_append_comm.append_left _).trans ?_
        rw [← List.append_assoc]
        exact h.once.append_right _
      · intro id result hresult
        rcases List.mem_append.mp hresult with hold | hnew
        · exact h.own id result hold
        · obtain ⟨rfl, rfl⟩ := Prod.mk.inj (List.mem_singleton.mp hnew)
          exact .inl ⟨message, method, rfl⟩
      · intro id result hresult hby
        rcases List.mem_append.mp hresult with hold | hnew
        · exact h.failed id result hold hby
        · obtain ⟨rfl, rfl⟩ := Prod.mk.inj (List.mem_singleton.mp hnew)
          obtain ⟨reason, method', hsame⟩ := hby
          exact nomatch hsame

theorem react (h : account.Sound) (reaction : Reaction) :
    Sound { account with calls := account.calls.react reaction } := by
  unfold Calls.react
  generalize reaction.calls = made
  induction made generalizing account with
  | nil => exact h
  | cons one made ih => exact ih (h.call one.1 one.2)

theorem emitEvent (h : account.Sound) (event : JsString) (data : Option JsValue) :
    Sound { account with calls := account.calls.emitEvent handlers event data } := by
  unfold Calls.emitEvent
  generalize handlers.event account.calls event data = reactions
  induction reactions generalizing account with
  | nil => exact h
  | cons reaction reactions ih => exact ih (h.react reaction)

theorem onEvent (h : account.Sound) (event : JsString) (data : Option JsValue) :
    Sound { account with calls := (account.calls.onEvent handlers event data).1 } := by
  have hnoted : Sound { account with
      calls := { account.calls with events := account.calls.events ++ [(event, data)] } } :=
    ⟨⟨h.once, h.waiting, h.own, h.closed⟩, h.started, h.fresh, h.bounded, h.failed⟩
  unfold Calls.onEvent
  dsimp only
  split
  · split
    · exact hnoted
    · split
      · exact hnoted.emitEvent event data
      · next reaction _ =>
        split
        · exact hnoted.react reaction
        · exact (hnoted.react reaction).emitEvent event data
  · exact hnoted.emitEvent event data

/-! ### Frames -/

/-- A frame is the first response to a call if it is one and there was none before. -/
theorem first_log (h : account.Sound) (hopen : account.calls.closed = false)
    (hid : id < account.calls.nextId) :
    (account.log message).first id =
      (account.first id).or (if answers id message then some message else none) := by
  rw [first, first, log, hopen]
  simp only [hid, if_true, Bool.false_eq_true, if_false]
  rw [List.drop_append_of_le_length (h.bounded id), List.find?_append]
  congr 1
  cases hanswers : answers id message with
  | true => exact List.find?_cons_of_pos hanswers
  | false => exact List.find?_cons_of_neg (Bool.eq_false_iff.mp hanswers)

theorem log_of_closed (h : account.Sound) (hclosed : account.calls.closed = true) :
    account.log message = account := by
  obtain ⟨calls, received, since, failure⟩ := account
  rw [log]
  dsimp only at hclosed ⊢
  rw [if_pos hclosed]
  congr 1
  funext id
  split
  · rfl
  · next hid => exact (h.fresh id (Nat.le_of_not_lt hid)).symm

/-- The number of the frames that were there for a call does not grow beyond that of all. -/
theorem log_since (h : account.Sound) (hopen : account.calls.closed = false) (id : ℕ) :
    (account.log message).since id ≤ (account.log message).received.length := by
  rw [log, hopen]
  simp only [Bool.false_eq_true, if_false, List.length_append]
  split
  · exact (h.bounded id).trans (Nat.le_add_right _ _)
  · exact le_rfl

/-- The result of a call stays its own. -/
theorem own_log (h : account.Sound) (hopen : account.calls.closed = false) {result : Settlement}
    (hresult : (id, result) ∈ account.calls.settled) :
    result.ByWrite ∨ result.Own ((account.log message).first id) := by
  rw [h.first_log hopen (h.lt_nextId_of_settled hresult)]
  rcases h.own id result hresult with hwrite | hown
  · exact .inl hwrite
  · right
    cases hfirst : account.first id with
    | some earlier =>
      rw [hfirst] at hown
      exact hown
    | none =>
      rw [hfirst] at hown
      exact nomatch hopen.symm.trans (h.failed id result hresult hown)

/-- A frame that is no response to a pending call. -/
theorem log (h : account.Sound)
    (hidle : ∀ call ∈ account.calls.pending, answers call.id message = false) :
    (account.log message).Sound := by
  cases hclosed : account.calls.closed with
  | true =>
    rw [h.log_of_closed hclosed]
    exact h
  | false =>
    refine ⟨⟨h.once, ?_, fun _ _ hresult => h.own_log hclosed hresult, h.closed⟩, h.started, ?_,
      h.log_since hclosed, h.failed⟩
    · intro call hcall
      have hcall : call ∈ account.calls.pending := hcall
      rw [h.first_log hclosed (h.lt_nextId_of_pending hcall), h.waiting call hcall,
        hidle call hcall]
      rfl
    · intro id hid
      exact if_neg (Nat.not_lt.mpr hid)

/-- A pending call that is answered moves to the settled ones. -/
theorem once_respond (h : account.Sound) {call : PendingCall}
    (hcall : call ∈ account.calls.pending) (result : Settlement) :
    ((account.calls.settled ++ [(call.id, result)]).map Prod.fst ++
        (account.calls.pending.filter (·.id ≠ call.id)).map PendingCall.id).Perm
      (List.range' 1 (account.calls.nextId - 1)) := by
  have hnodup : (account.calls.pending.map PendingCall.id).Nodup :=
    (List.nodup_append.mp (h.once.nodup_iff.mpr List.nodup_range')).2.1
  have hids : (account.calls.pending.filter (·.id ≠ call.id)).map PendingCall.id =
      (account.calls.pending.map PendingCall.id).erase call.id := by
    rw [hnodup.erase_eq_filter, List.filter_map]
    congr 1
    apply List.filter_congr
    intro other _
    by_cases hother : other.id = call.id <;> simp [hother]
  rw [hids, List.map_append, List.append_assoc]
  have hid : call.id ∈ account.calls.pending.map PendingCall.id := List.mem_map_of_mem hcall
  exact ((List.perm_cons_erase hid).symm.append_left _).trans h.once

/-- A response settles the pending call whose number it carries. -/
theorem respond (h : account.Sound) (hevent : eventName message = none)
    (hid : responseId message = some id)
    (hlegible : ∀ call ∈ account.calls.pending, call.id = id →
      (settlement call.method message).isSome = true) :
    Sound { account.log message with calls := (account.calls.respond id message).1 } := by
  unfold Calls.respond
  cases hfind : account.calls.pending.find? (·.id = id) with
  | none =>
    refine h.log fun call hcall => ?_
    have hne : call.id ≠ id := by simpa using List.find?_eq_none.mp hfind call hcall
    rw [answers, hid, decide_eq_false fun hsame => hne (Option.some.inj hsame).symm, Bool.and_false]
  | some call =>
    have hcall := List.mem_of_find?_eq_some hfind
    obtain rfl : call.id = id := by simpa using List.find?_some hfind
    -- once closed there is no pending call left
    have hopen : account.calls.closed = false := by
      by_contra hclosed
      rw [h.closed (Bool.not_eq_false _ ▸ hclosed)] at hcall
      exact nomatch hcall
    have hanswers : answers call.id message = true := by
      rw [answers, hevent, hid, decide_eq_true rfl]
      rfl
    obtain ⟨result, hresult⟩ := Option.isSome_iff_exists.mp (hlegible call hcall rfl)
    dsimp only
    rw [hresult]
    refine ⟨⟨h.once_respond hcall result, ?_, ?_, ?_⟩, h.started, ?_, h.log_since hopen, ?_⟩
    · -- the response is none to the calls that are still pending
      intro other hother
      obtain ⟨hold, hne⟩ := List.mem_filter.mp hother
      have hsilent : answers other.id message = false := by
        rw [answers, hid, decide_eq_false fun hsame => ?_, Bool.and_false]
        exact absurd (Option.some.inj hsame).symm (of_decide_eq_true hne)
      change (account.log message).first other.id = none
      rw [h.first_log hopen (h.lt_nextId_of_pending hold), h.waiting other hold, hsilent]
      rfl
    · intro id result' hresult'
      rcases List.mem_append.mp hresult' with hold | hnew
      · exact h.own_log hopen hold
      · obtain ⟨rfl, rfl⟩ := Prod.mk.inj (List.mem_singleton.mp hnew)
        right
        change result'.Own ((account.log message).first call.id)
        rw [h.first_log hopen (h.lt_nextId_of_pending hcall), h.waiting call hcall, hanswers]
        exact ⟨call.method, hresult⟩
    · exact fun hclosed => nomatch hopen.symm.trans hclosed
    · exact fun id hid => if_neg (Nat.not_lt.mpr hid)
    · intro id result' hresult' hby
      rcases List.mem_append.mp hresult' with hold | hnew
      · exact h.failed id result' hold hby
      · obtain ⟨rfl, rfl⟩ := Prod.mk.inj (List.mem_singleton.mp hnew)
        obtain ⟨reason, method, rfl⟩ := hby
        exact absurd hresult (settlement_ne_failed _ _ _ _)

/-- A frame that is legible is dispatched to the call it belongs to. -/
theorem receive (h : account.Sound) (hlegible : Legible account.calls message) :
    (account.receive handlers message).Sound := by
  unfold Account.receive Calls.dispatch
  cases hevent : eventName message with
  | some event =>
    refine Sound.onEvent (h.log fun call _ => ?_) event (field "data" message)
    rw [answers, hevent]
    rfl
  | none =>
    cases hid : responseId message with
    | none =>
      refine h.log fun call _ => ?_
      rw [answers, hid]
      exact Bool.and_false _
    | some id =>
      refine h.respond hevent hid fun call hcall hsame => ?_
      have hneeded : ¬ Idle account.calls message := fun hidle => hidle.2 call hcall (hsame ▸ hid)
      unfold settlement
      cases herror : present (field "error" message) with
      | none => rfl
      | some error =>
        dsimp only
        have hall := hlegible hneeded hevent
        rw [herror] at hall
        have hprintable : printable error = true := hall
        rw [if_pos hprintable]
        rfl

theorem fail (h : account.Sound) (reason : String) : (account.fail reason).Sound := by
  unfold Account.fail Calls.failAll
  split
  · exact h
  · refine ⟨⟨?_, nofun, ?_, fun _ => rfl⟩, h.started, h.fresh, h.bounded, fun _ _ _ _ => rfl⟩
    · have honce := h.once
      rw [List.map_nil, List.append_nil, List.map_append, List.map_map]
      exact honce
    · intro id result hresult
      rcases List.mem_append.mp hresult with hold | hnew
      · exact h.own id result hold
      · obtain ⟨call, hcall, hpair⟩ := List.mem_map.mp hnew
        obtain ⟨rfl, rfl⟩ := Prod.mk.inj hpair
        right
        change Settlement.Own _ (account.first call.id)
        rw [h.waiting call hcall]
        exact ⟨reason, call.method, rfl⟩

theorem spoil (h : account.Sound) (error : FrameError) : (account.spoil error).Sound :=
  have hfailed := h.fail error.message
  ⟨⟨hfailed.once, hfailed.waiting, hfailed.own, hfailed.closed⟩, hfailed.started, hfailed.fresh,
    hfailed.bounded, hfailed.failed⟩

end Account.Sound

/-! ### Chunks -/

theorem Idle.dispatch {calls : Calls} (h : Idle calls message) :
    calls.dispatch handlers message = (calls, false) := by
  unfold Calls.dispatch
  rw [h.1]
  dsimp only
  split
  · next id hid =>
    have hfind : calls.pending.find? (·.id = id) = none := by
      refine List.find?_eq_none.mpr fun call hcall => ?_
      have hne : call.id ≠ id := fun hsame => h.2 call hcall (hsame ▸ hid)
      simpa using hne
    rw [Calls.respond, hfind]
  · rfl

theorem Idle.legible {calls : Calls} (h : Idle calls message) : Legible calls message :=
  fun hneeded => absurd h hneeded

/-- Idle frames leave the calls as they are. -/
theorem Account.Sound.receive_idle (handlers : Handlers) (h : account.Sound)
    {messages : List JsValue}
    (hidle : ∀ message ∈ messages, Idle account.calls message) :
    (messages.foldl (Account.receive handlers) account).Sound ∧
      (messages.foldl (Account.receive handlers) account).calls = account.calls := by
  induction messages generalizing account with
  | nil => exact ⟨h, rfl⟩
  | cons message messages ih =>
    have hfirst := hidle message List.mem_cons_self
    have hcalls : (account.receive handlers message).calls = account.calls :=
      congrArg Prod.fst hfirst.dispatch
    have hreceived : (account.receive handlers message).Sound := h.receive hfirst.legible
    obtain ⟨hsound, hsame⟩ := ih hreceived fun other hother =>
      hcalls ▸ hidle other (List.mem_cons_of_mem _ hother)
    exact ⟨hsound, hsame.trans hcalls⟩

/-- On calm frames the loop of a chunk does what the account does. -/
theorem Account.Sound.receive_calm (h : account.Sound) {messages : List JsValue}
    (hcalm : Calm handlers account.calls messages) :
    (messages.foldl (Account.receive handlers) account).Sound ∧
      (messages.foldl (Account.receive handlers) account).calls =
        account.calls.dispatchAll handlers messages := by
  induction messages generalizing account with
  | nil => exact ⟨h, rfl⟩
  | cons message messages ih =>
    obtain ⟨hlegible, hrest⟩ := hcalm
    have hreceived : (account.receive handlers message).Sound := h.receive hlegible
    have hcalls : (account.receive handlers message).calls =
        (account.calls.dispatch handlers message).1 := rfl
    rw [List.foldl_cons, Calls.dispatchAll]
    split at hrest
    · next calls hdispatch =>
      -- the loop ends here, and the account finds nothing in the rest
      rw [hdispatch] at hcalls
      obtain ⟨hsound, hsame⟩ := hreceived.receive_idle handlers fun other hother =>
        hcalls ▸ hrest other hother
      exact ⟨hsound, hsame.trans hcalls⟩
    · next calls hdispatch =>
      rw [hdispatch] at hcalls
      obtain rfl : (account.receive handlers message).calls = calls := hcalls
      exact ih hreceived hrest

section Stream

variable {V : Type} {json : JavaScriptJson V} {read : V → JsValue} {buffer : List UInt8}

/-- What an account makes of the frames that the decoder gives, and of its failure. -/
def Account.deliver (read : V → JsValue) (handlers : Handlers) (account : Account)
    (values : List V) : Option FrameError → Account
  | none => (values.map read).foldl (Account.receive handlers) account
  | some error => ((values.map read).foldl (Account.receive handlers) account).spoil error

/-- The account of a buffer is that of the frames that the decoder gives. -/
theorem drain_receiver (json : JavaScriptJson V) (read : V → JsValue) (handlers : Handlers)
    (account : Account) (hintact : account.failure = none)
    (buffer : List UInt8) (out : List V) :
    ∃ values,
      ((taker (FrameDecoder.accept json)).drain maxMessageBytes ⟨out, none⟩ buffer).1.out =
          out ++ values ∧
        (Account.receiver json read handlers).drain maxMessageBytes account buffer =
          (account.deliver read handlers values
            ((taker (FrameDecoder.accept json)).drain maxMessageBytes ⟨out, none⟩
              buffer).1.failure,
            ((taker (FrameDecoder.accept json)).drain maxMessageBytes ⟨out, none⟩ buffer).2) := by
  have hrun : (Account.receiver json read handlers).halted account = false :=
    congrArg Option.isSome hintact
  induction buffer using frames_induction maxMessageBytes generalizing out account with
  | stop buffer hstop =>
    refine ⟨[], ?_⟩
    rw [List.append_nil]
    cases hhead : head maxMessageBytes buffer with
    | incomplete =>
      rw [Receiver.drain_of_incomplete hhead, Receiver.drain_of_incomplete hhead]
      exact ⟨rfl, rfl⟩
    | oversize length =>
      rw [Receiver.drain_of_oversize rfl hhead, Receiver.drain_of_oversize hrun hhead]
      exact ⟨rfl, rfl⟩
    | frame body rest => exact absurd hhead (hstop body rest)
  | frame buffer body rest hhead ih =>
    rw [Receiver.drain_of_frame rfl hhead, Receiver.drain_of_frame hrun hhead]
    cases haccept : FrameDecoder.accept json body with
    | error message =>
      have hspoiled : (Account.receiver json read handlers).frame account body =
          account.spoil ⟨.malformed, message⟩ := by
        simp only [Account.receiver, haccept]
      -- both stop at the frame that is refused and leave what is behind it
      rw [frame_taker_error haccept, hspoiled, Receiver.drain_of_halted rfl,
        Receiver.drain_of_halted rfl]
      exact ⟨[], (List.append_nil out).symm, rfl⟩
    | ok value =>
      have hreceived : (Account.receiver json read handlers).frame account body =
          account.receive handlers (read value) := by
        simp only [Account.receiver, haccept]
      rw [frame_taker_ok haccept, hreceived]
      obtain ⟨values, hout, hdrain⟩ :=
        ih (account.receive handlers (read value)) hintact (out ++ [value])
          (congrArg Option.isSome hintact)
      refine ⟨value :: values, ?_, ?_⟩
      · rw [hout, List.append_assoc]
        rfl
      · rw [hdrain]
        cases ((taker (FrameDecoder.accept json)).drain maxMessageBytes ⟨out ++ [value], none⟩
          rest).1.failure <;> rfl

theorem failure_foldl_receive (handlers : Handlers) (account : Account)
    (messages : List JsValue) :
    (messages.foldl (Account.receive handlers) account).failure = account.failure := by
  have hstep : ∀ (before : Account) (message : JsValue),
      (before.receive handlers message).failure = before.failure := fun _ _ => rfl
  exact foldl_view (·.failure) hstep messages account

/-- A client keeps to an account: it has the same calls, and its decoder has the bytes that wait,
unless a bad frame has come. -/
structure Keeps (client : HelperRpcClient) (pair : Account × List UInt8) : Prop where
  calls : client.toCalls = pair.1.calls
  sound : pair.1.Sound
  failure : client.decoder.failure = pair.1.failure
  spoiled : pair.1.failure ≠ none → pair.1.calls.closed = true
  follows : pair.1.failure = none → client.decoder.Follows maxMessageBytes ⟨none, pair.2⟩
  waits : pair.1.failure = none → head maxMessageBytes pair.2 = .incomplete

namespace Keeps

variable {client : HelperRpcClient} {pair : Account × List UInt8} {chunk : List UInt8}

theorem start : Keeps {} ({}, []) where
  calls := rfl
  sound := .start
  failure := rfl
  spoiled h := absurd rfl h
  follows _ := follows_app maxMessageBytes
  waits _ := rfl

theorem call (h : Keeps client pair) (method : String) (failure : Option String) :
    Keeps { client with toCalls := client.toCalls.call method failure }
      ({ pair.1 with calls := pair.1.calls.call method failure }, pair.2) where
  calls := congrArg (Calls.call · method failure) h.calls
  sound := h.sound.call method failure
  failure := h.failure
  spoiled hbad := by
    change (pair.1.calls.call method failure).closed = true
    rw [Calls.call, if_pos (h.spoiled hbad)]
    exact h.spoiled hbad
  follows := h.follows
  waits := h.waits

theorem closed_failAll (calls : Calls) (reason : String) :
    (calls.failAll reason).closed = true := by
  unfold Calls.failAll
  split
  · assumption
  · rfl

theorem fail (h : Keeps client pair) (reason : String) :
    Keeps { client with toCalls := client.toCalls.failAll reason }
      (pair.1.fail reason, pair.2) where
  calls := congrArg (Calls.failAll · reason) h.calls
  sound := h.sound.fail reason
  failure := h.failure
  spoiled _ := closed_failAll _ _
  follows := h.follows
  waits := h.waits

/-- Behind a bad frame nothing is read. -/
theorem data_of_spoiled (h : Keeps client pair) {error : FrameError}
    (hbad : pair.1.failure = some error) :
    Keeps (client.onData json read handlers chunk)
      ((Account.receiver json read handlers).feed maxMessageBytes pair chunk) := by
  have hclosed : client.closed = true :=
    (congrArg Calls.closed h.calls).trans (h.spoiled (hbad ▸ nofun))
  have hpush : client.decoder.push json chunk = (.error error, client.decoder) := by
    rw [FrameDecoder.push, h.failure, hbad]
  have hsame : client.toCalls.failAll error.message = client.toCalls := if_pos hclosed
  rw [HelperRpcClient.onData, hpush, Receiver.feed,
    Receiver.drain_of_halted (congrArg Option.isSome hbad)]
  dsimp only
  rw [hsame]
  have hnot : pair.1.failure ≠ none := hbad ▸ nofun
  exact ⟨h.calls, h.sound, h.failure, h.spoiled, fun hnone => absurd hnone hnot,
    fun hnone => absurd hnone hnot⟩

/-- A calm chunk. -/
theorem data (h : Keeps client pair) (hcalm : CalmStep json read handlers client (.data chunk)) :
    Keeps (client.onData json read handlers chunk)
      ((Account.receiver json read handlers).feed maxMessageBytes pair chunk) := by
  cases hintact : pair.1.failure with
  | some error => exact h.data_of_spoiled hintact
  | none =>
    obtain ⟨account, rest⟩ := pair
    have hfollows := h.follows hintact
    -- the decoder hands out what the receiver reads from the bytes of the whole stream
    obtain ⟨hpush, hnext⟩ := hfollows.push json (fun _ => h.waits hintact) chunk
    have hbytes : client.decoder.chunks.flatten = rest := (hfollows.holds rfl).bytes
    have hcalm := hcalm (h.failure.trans hintact)
    rw [hbytes] at hcalm
    obtain ⟨values, hout, hdrain⟩ :=
      drain_receiver json read handlers account hintact (rest ++ chunk) []
    have hends := (Account.receiver json read handlers).drain_ends maxMessageBytes account
      (rest ++ chunk)
    rw [Stream.push] at hpush hnext
    dsimp only at hpush hnext hcalm
    rw [Receiver.feed] at hpush hnext hcalm ⊢
    rw [hdrain] at hends ⊢
    obtain ⟨⟨out, bad⟩, waiting, hresult⟩ : ∃ delivery waiting,
        (taker (FrameDecoder.accept json)).drain maxMessageBytes ⟨[], none⟩ (rest ++ chunk) =
          (delivery, waiting) := ⟨_, _, rfl⟩
    rw [hresult] at hpush hnext hcalm hout hends ⊢
    obtain rfl : out = values := hout
    dsimp only at hends ⊢
    rw [HelperRpcClient.onData]
    cases bad with
    | none =>
      have hcalm : Calm handlers account.calls (out.map read) := h.calls ▸ hcalm
      obtain ⟨hsound, hcalls⟩ := h.sound.receive_calm hcalm
      have hstill := failure_foldl_receive handlers account (out.map read)
      have hgood : (account.deliver read handlers out none).failure = none := hstill.trans hintact
      have hok : client.decoder.push json chunk = (.ok out, (client.decoder.push json chunk).2) :=
        Prod.ext hpush rfl
      rw [hok]
      refine ⟨?_, hsound, hnext.failure.trans hgood.symm, fun hbad => absurd hgood hbad,
        fun _ => hnext, fun _ => hends.resolve_left ?_⟩
      · dsimp only
        rw [h.calls]
        exact hcalls.symm
      · change ¬ (account.deliver read handlers out none).failure.isSome = true
        rw [hgood]
        exact Bool.false_ne_true
    | some error =>
      -- the frames before the bad one are dropped with it, so the guard has them answer no call
      have hidle : ∀ message ∈ out.map read, Idle account.calls message := h.calls ▸ hcalm
      obtain ⟨hsound, hcalls⟩ := h.sound.receive_idle handlers hidle
      have herror : client.decoder.push json chunk =
          (.error error, (client.decoder.push json chunk).2) := Prod.ext hpush rfl
      rw [herror]
      refine ⟨?_, hsound.spoil error, hnext.failure, fun _ => closed_failAll _ _,
        fun hnone => absurd hnone (Option.some_ne_none _),
        fun hnone => absurd hnone (Option.some_ne_none _)⟩
      change client.toCalls.failAll error.message = Calls.failAll _ error.message
      rw [h.calls]
      exact congrArg (Calls.failAll · error.message) hcalls.symm

theorem step (h : Keeps client pair) {event : Step}
    (hcalm : CalmStep json read handlers client event) :
    Keeps (client.step json read handlers event)
      (Account.step json read handlers pair event) := by
  cases event with
  | call method failure => exact h.call method failure
  | data chunk => exact h.data hcalm
  | closed => exact h.fail _
  | ended => exact h.fail _
  | error message => exact h.fail _

/-- Along calm steps a client keeps to the account of them. -/
theorem run {events : List Step} {last : HelperRpcClient} (h : Keeps client pair)
    (hrun : Run (HelperRpcClient.next json read handlers) (CalmStep json read handlers) client
      events last) :
    Keeps last (events.foldl (Account.step json read handlers) pair) := by
  induction hrun generalizing pair with
  | nil _ => exact h
  | cons hcalm hstep _ ih =>
    obtain rfl := Option.some.inj hstep
    exact ih (h.step hcalm)

end Keeps

/-! ### Cuts -/

/-- Nothing is left to read: a bad frame has come, or the rest of a frame has not. -/
def Drained (pair : Account × List UInt8) : Prop :=
  pair.1.failure.isSome = true ∨ head maxMessageBytes pair.2 = .incomplete

namespace Drained

variable {pair : Account × List UInt8}

theorem step (h : Drained pair) (event : Step) :
    Drained (Account.step json read handlers pair event) := by
  cases event with
  | call method failure => exact h
  | data chunk => exact (Account.receiver json read handlers).drain_ends maxMessageBytes _ _
  | closed => exact h
  | ended => exact h
  | error message => exact h

theorem drain (h : Drained pair) :
    (Account.receiver json read handlers).drain maxMessageBytes pair.1 pair.2 = pair := by
  rcases h with hhalted | hincomplete
  · exact Receiver.drain_of_halted hhalted
  · exact Receiver.drain_of_incomplete hincomplete

/-- A step may be cut into its bytes. -/
theorem bytewise (h : Drained pair) (event : Step) :
    event.bytewise.foldl (Account.step json read handlers) pair =
      Account.step json read handlers pair event := by
  cases event with
  | data chunk =>
    have hfeed : (chunk.map fun byte => [byte]).foldl
        ((Account.receiver json read handlers).feed maxMessageBytes)
        ((Account.receiver json read handlers).drain maxMessageBytes pair.1 pair.2) =
        (Account.receiver json read handlers).drain maxMessageBytes pair.1
          (pair.2 ++ (chunk.map fun byte => [byte]).flatten) := Receiver.foldl_feed _ _ _
    have hflatten : (chunk.map fun byte => [byte]).flatten = chunk := by
      rw [← List.flatMap_def, List.flatMap_singleton']
    rw [h.drain, hflatten, List.foldl_map] at hfeed
    rw [Step.bytewise, List.foldl_map]
    exact hfeed
  | call method failure => rfl
  | closed => rfl
  | ended => rfl
  | error message => rfl

theorem foldl_bytewise (h : Drained pair) (events : List Step) :
    (events.flatMap Step.bytewise).foldl (Account.step json read handlers) pair =
      events.foldl (Account.step json read handlers) pair := by
  induction events generalizing pair with
  | nil => rfl
  | cons event events ih =>
    rw [List.flatMap_cons, List.foldl_append, h.bytewise event, List.foldl_cons]
    exact ih (h.step event)

end Drained

end Stream

/-! ### Calls settle once -/

/-- **Each call settles once with its own response.** In a run whose chunks are calm the calls are
those of the account of the stream: each has the result that is its own, and none is pending once
the client has failed. Two such runs that differ only in how the stream was cut have the same
calls. -/
theorem calls_settle_once {V : Type} (json : JavaScriptJson V) (read : V → JsValue)
    (handlers : Handlers) {events events' : List Step} {client client' : HelperRpcClient}
    (h : Run (HelperRpcClient.next json read handlers) (CalmStep json read handlers) {} events
      client)
    (h' : Run (HelperRpcClient.next json read handlers) (CalmStep json read handlers) {} events'
      client')
    (hbytes : events.flatMap Step.bytewise = events'.flatMap Step.bytewise) :
    client.toCalls = (Account.ofSteps json read handlers events).calls ∧
      (Account.ofSteps json read handlers events).Fair ∧ client.toCalls = client'.toCalls := by
  have hkeeps := Keeps.start.run h
  have hkeeps' := Keeps.start.run h'
  have hdrained : Drained ({}, []) := .inr rfl
  refine ⟨hkeeps.calls, hkeeps.sound.toFair, ?_⟩
  rw [hkeeps.calls, hkeeps'.calls, ← hdrained.foldl_bytewise events,
    ← hdrained.foldl_bytewise events', hbytes]

/-! ### An event without data -/

/-- Handlers that do nothing. -/
def silent : Handlers where
  watch _ _ _ := none
  event _ _ _ := []

def watchText : List Char := "\x7b\"event\":\"watch\"\x7d".toList

/-- The values of the two texts `{"event":"watch"}` and `{"id":1}`. -/
def readSample (text : {text : List Char // JsonText.Valid text}) : JsValue :=
  if text.1 = watchText then .object [(units "event", .string (units "watch"))]
  else .object [(units "id", .number (some 1))]

def watchFrame : List UInt8 := encode (Utf8.encode watchText)

def responseFrame : List UInt8 := encode (Utf8.encode "\x7b\"id\":1\x7d".toList)

def Settlement.isResolved : Settlement → Bool
  | .resolved _ => true
  | .rejected _ => false

/-- How the calls have settled that had a number. -/
def Calls.outcomes (calls : Calls) : List (ℕ × Bool) :=
  calls.settled.map fun pair => (pair.1, pair.2.isResolved)

theorem run_foldl {V : Type} (json : JavaScriptJson V) (read : V → JsValue) (handlers : Handlers)
    (events : List Step) (client : HelperRpcClient) :
    Run (HelperRpcClient.next json read handlers) Always client events
      (events.foldl (HelperRpcClient.step json read handlers) client) := by
  induction events generalizing client with
  | nil => exact .nil client
  | cons event events ih => exact .cons trivial rfl (ih _)

/-- A response to a call, cut after its header, and the same response in one piece. -/
theorem calls_settle_once_response :
    ∃ client client' : HelperRpcClient, client.outcomes = [(1, true)] ∧
      client.toCalls = (Account.ofSteps textJson readSample silent
        [.call "readFile" none, .data (responseFrame.take 4),
          .data (responseFrame.drop 4)]).calls ∧
      client.toCalls = client'.toCalls := by
  have hcut : (replay (HelperRpcClient.next textJson readSample silent)
      (CalmStep textJson readSample silent) {} [.call "readFile" none,
        .data (responseFrame.take 4), .data (responseFrame.drop 4)]).any
          (fun client => client.outcomes = [(1, true)]) = true := by
    decide +kernel
  have hwhole : (replay (HelperRpcClient.next textJson readSample silent)
      (CalmStep textJson readSample silent) {} [.call "readFile" none,
        .data responseFrame]).any (fun _ => true) = true := by
    decide +kernel
  obtain ⟨client, hrun, houtcomes⟩ := exists_run_of_replay hcut
  obtain ⟨client', hrun', -⟩ := (Option.any_eq_true _ _).mp hwhole
  obtain ⟨hcalls, -, hsame⟩ := calls_settle_once textJson readSample silent hrun
    (run_iff_replay.mpr hrun') (by decide)
  exact ⟨client, client', houtcomes, hcalls, hsame⟩

/-- A watch event without data in front of a response in the same chunk: the call is rejected when
the stream ends, and not resolved with its response. -/
theorem not_calls_settle_once : ¬ ∀ (events events' : List Step) (client client' : HelperRpcClient),
    Run (HelperRpcClient.next textJson readSample silent) Always {} events client →
      Run (HelperRpcClient.next textJson readSample silent) Always {} events' client' →
        events.flatMap Step.bytewise = events'.flatMap Step.bytewise →
          client.toCalls = (Account.ofSteps textJson readSample silent events).calls ∧
            (Account.ofSteps textJson readSample silent events).Fair ∧
              client.toCalls = client'.toCalls := by
  intro hclaim
  have hrun := run_foldl textJson readSample silent
    [.call "readFile" none, .data (watchFrame ++ responseFrame), .ended] {}
  have hsame := congrArg Calls.outcomes (hclaim _ _ _ _ hrun hrun rfl).1
  exact absurd hsame (by decide +kernel)

end AgentCockpit.Remote.HelperRpc
