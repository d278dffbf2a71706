import AgentCockpit.Core.Occurrence
import AgentCockpit.Core.Run
import Mathlib.Data.Nat.Find

/-!
# The input of an attached terminal

A terminal that is attached to a pane sends what is typed to the pane, until the chord Ctrl-B d
detaches it or its input ends. One goroutine reads the terminal; the relay loop takes the chunks
and the end of the input from two channels. Whenever both are ready the loop may take either, so
that the end may overtake the last chunk.
-/

namespace AgentCockpit.Mux

open AgentCockpit.Core

/-! ### The chord -/

structure Split where
  forward : List UInt8
  detach : Bool
  pending : Bool
  deriving DecidableEq, Repr

/-- A held Ctrl-B. -/
def held (pending : Bool) : List UInt8 := if pending then [0x02] else []

/-- What is forwarded of an input, whether it has the chord, and whether a Ctrl-B is held behind
it. -/
def splitDetachChord : List UInt8 → Bool → Split
  | [], pending => ⟨[], false, pending⟩
  | value :: rest, pending =>
    if pending ∧ value = 0x64 then ⟨[], true, false⟩
    else if value = 0x02 then
      let split := splitDetachChord rest true
      { split with forward := held pending ++ split.forward }
    else
      let split := splitDetachChord rest false
      { split with forward := held pending ++ value :: split.forward }

/-- Ctrl-B d. -/
def chord : List UInt8 := [0x02, 0x64]

/-- The split goes on behind a chunk as if there were no border. -/
theorem splitDetachChord_append (first rest : List UInt8) (pending : Bool) :
    splitDetachChord (first ++ rest) pending =
      let split := splitDetachChord first pending
      if split.detach then split
      else
        let later := splitDetachChord rest split.pending
        { later with forward := split.forward ++ later.forward } := by
  induction first generalizing pending with
  | nil => simp [splitDetachChord]
  | cons value first ih =>
    rw [List.cons_append, splitDetachChord, splitDetachChord]
    split
    · rfl
    · split
      · rw [ih]
        dsimp only
        split <;> simp
      · rw [ih]
        dsimp only
        split <;> simp

/-- What a split says of the bytes: they go on to a first chord behind what is forwarded, or they
have none and are forwarded, but for a Ctrl-B at their end. -/
structure Splits (data : List UInt8) (split : Split) : Prop where
  detach : split.detach = true →
    FirstAt chord data split.forward.length ∧ split.forward <+: data
  whole : split.detach = false →
    split.forward ++ held split.pending = data ∧ ∀ i, ¬ OccursAt chord data i

/-- Bytes in front at which no chord begins are forwarded. -/
theorem Splits.append {front data : List UInt8} {split : Split} (h : Splits data split)
    (hnone : ∀ j < front.length, ¬ OccursAt chord (front ++ data) j) :
    Splits (front ++ data) { split with forward := front ++ split.forward } := by
  refine ⟨fun hdetach => ?_, fun hwhole => ?_⟩
  · obtain ⟨hfirst, hprefix⟩ := h.detach hdetach
    dsimp only
    rw [List.length_append, firstAt_append_iff hnone, List.prefix_append_right_inj]
    exact ⟨hfirst, hprefix⟩
  · obtain ⟨hdata, hno⟩ := h.whole hwhole
    refine ⟨by rw [List.append_assoc, hdata], fun i hoccurs => ?_⟩
    by_cases hfront : i < front.length
    · exact hnone i hfront hoccurs
    · obtain ⟨k, rfl⟩ := Nat.exists_eq_add_of_le (Nat.le_of_not_lt hfront)
      exact hno k ((occursAt_append_iff front).mp hoccurs)

/-- A chord is a Ctrl-B and then a `d`. -/
theorem chord_of_occursAt {front rest : List UInt8} {value : UInt8}
    (h : OccursAt chord (front ++ value :: rest) front.length) :
    value = 0x02 ∧ rest.head? = some 0x64 := by
  have hhead : chord <+: value :: rest := (@occursAt_append_iff _ _ _ 0 front).mp h
  obtain ⟨hvalue, tail, htail⟩ := List.cons_prefix_cons.mp hhead
  rw [← htail]
  exact ⟨hvalue.symm, rfl⟩

/-- The split forwards what comes before the first chord, with the held Ctrl-B in front. -/
theorem splitDetachChord_spec (input : List UInt8) (pending : Bool) :
    Splits (held pending ++ input) (splitDetachChord input pending) := by
  induction input generalizing pending with
  | nil =>
    refine ⟨fun h => (nomatch h), fun _ => ⟨by simp [splitDetachChord], fun i hoccurs => ?_⟩⟩
    have hlength := hoccurs.length_le (by decide)
    cases pending <;> simp [held, chord] at hlength
  | cons value rest ih =>
    rw [splitDetachChord]
    split
    next hchord =>
      obtain ⟨rfl, rfl⟩ := hchord
      refine ⟨fun _ => ⟨⟨⟨rest, rfl⟩, fun j hj => absurd hj (Nat.not_lt_zero j)⟩, ?_⟩,
        fun h => nomatch h⟩
      exact List.nil_prefix
    next hchord =>
      split
      next hvalue =>
        subst hvalue
        refine (ih true).append fun j hj => ?_
        cases pending with
        | false => exact absurd hj (Nat.not_lt_zero j)
        | true =>
          obtain rfl : j = 0 := Nat.lt_one_iff.mp hj
          exact fun hoccurs =>
            absurd (Option.some.inj (@chord_of_occursAt [] _ _ hoccurs).2) (by decide)
      next hvalue =>
        have hrest := @Splits.append (held pending ++ [value]) rest _ (ih false) ?_
        · simpa using hrest
        · intro j hj hoccurs
          -- no chord begins at the byte, and a held Ctrl-B is not followed by a `d`
          cases pending with
          | false =>
            obtain rfl : j = 0 := Nat.lt_one_iff.mp hj
            exact hvalue (@chord_of_occursAt [] _ _ hoccurs).1
          | true =>
            rcases Nat.lt_succ_iff_lt_or_eq.mp hj with hzero | rfl
            · obtain rfl : j = 0 := Nat.lt_one_iff.mp hzero
              have hnext := (@chord_of_occursAt [] _ _ hoccurs).2
              exact hchord ⟨rfl, Option.some.inj hnext⟩
            · exact hvalue (@chord_of_occursAt [0x02] _ _ hoccurs).1

/-! ### The relay -/

inductive RelayOutcome
  | detached
  | ended
  deriving DecidableEq, Repr

/-- The reader of the terminal and the relay loop. -/
structure Relay where
  /-- Reads that are not sent yet; the input ends behind them. -/
  unread : List (List UInt8)
  inputChunks : Option (List UInt8) := none
  inputErr : Bool := false
  pendingPrefix : Bool := false
  /-- What was written to the pane. -/
  written : List UInt8 := []
  outcome : Option RelayOutcome := none
  deriving DecidableEq, Repr

inductive RelayAction
  | send
  | sendErr
  | takeChunk
  | takeErr
  | resize
  | poll
  deriving DecidableEq, Repr

/-- One step of the reader or of the loop, which takes any channel that is ready. Each channel
holds one value. -/
def Relay.step (relay : Relay) : RelayAction → Option Relay
  | .send =>
    match relay.outcome, relay.unread, relay.inputChunks with
    | none, [] :: unread, _ => some { relay with unread }
    | none, chunk :: unread, none => some { relay with unread, inputChunks := some chunk }
    | _, _, _ => none
  | .sendErr =>
    if relay.outcome = none ∧ relay.unread = [] ∧ relay.inputErr = false then
      some { relay with inputErr := true }
    else none
  | .takeChunk =>
    match relay.outcome, relay.inputChunks with
    | none, some chunk =>
      let split := splitDetachChord chunk relay.pendingPrefix
      some { relay with
        inputChunks := none
        pendingPrefix := split.pending
        written := relay.written ++ split.forward
        outcome := if split.detach then some .detached else none }
    | _, _ => none
  | .takeErr =>
    if relay.outcome = none ∧ relay.inputErr then
      some { relay with
        written := relay.written ++ held relay.pendingPrefix, outcome := some .ended }
    else none
  | .resize | .poll => if relay.outcome = none then some relay else none

/-- The relay of a terminal with the given reads. -/
def Relay.start (reads : List (List UInt8)) : Relay := { unread := reads }

/-- The end of the input is taken only when no chunk is waiting. -/
def EndsEmpty (relay : Relay) (action : RelayAction) : Prop :=
  action = .takeErr → relay.inputChunks = none

/-- The relay of an input without a chord ends having written it; that of an input with one
detaches having written what comes before the first. -/
structure Delivered (input : List UInt8) (relay : Relay) : Prop where
  ends : (∀ i, ¬ OccursAt chord input i) →
    relay.outcome = some .ended ∧ relay.written = input
  detaches : ∀ i, FirstAt chord input i →
    relay.outcome = some .detached ∧ relay.written = input.take i

/-- A relay that has not ended, and the input it has seen. -/
structure Relaying (input : List UInt8) (relay : Relay) : Prop where
  outcome : relay.outcome = none
  consumed : ∃ consumed, splitDetachChord consumed false =
      ⟨relay.written, false, relay.pendingPrefix⟩ ∧
    consumed ++ relay.inputChunks.getD [] ++ relay.unread.flatten = input
  chunk : relay.inputChunks ≠ some []
  inputErr : relay.inputErr = true → relay.unread = []

variable {input : List UInt8} {relay after : Relay} {action : RelayAction}

theorem Relay.step_eq_none (h : relay.outcome ≠ none) : relay.step action = none := by
  obtain ⟨outcome, houtcome⟩ := Option.ne_none_iff_exists'.mp h
  cases action <;> simp [step, houtcome]

/-- A list has a first chord or none. -/
theorem firstAt_or_none (input : List UInt8) :
    (∃ i, FirstAt chord input i) ∨ ∀ i, ¬ OccursAt chord input i := by
  by_cases h : ∃ i, OccursAt chord input i
  · classical
    exact .inl ⟨Nat.find h, Nat.find_spec h, fun j hj => Nat.find_min h hj⟩
  · exact .inr (not_exists.mp h)

theorem Relaying.start (reads : List (List UInt8)) :
    Relaying reads.flatten (Relay.start reads) where
  outcome := rfl
  consumed := ⟨[], rfl, rfl⟩
  chunk := nofun
  inputErr := nofun

theorem Relaying.takeChunk (h : Relaying input relay)
    (hstep : relay.step .takeChunk = some after) :
    Relaying input after ∨ after.outcome ≠ none ∧ Delivered input after := by
  obtain ⟨consumed, hsplit, hinput⟩ := h.consumed
  obtain ⟨chunk, hchunk⟩ : ∃ chunk, relay.inputChunks = some chunk := by
    by_contra hnone
    have hempty : relay.inputChunks = none := by
      simpa [Option.eq_none_iff_forall_ne_some] using hnone
    simp [Relay.step, h.outcome, hempty] at hstep
  simp only [Relay.step, h.outcome, hchunk, Option.some.injEq] at hstep
  rw [hchunk, Option.getD_some] at hinput
  have happend := splitDetachChord_append consumed chunk false
  simp only [hsplit, Bool.false_eq_true, if_false] at happend
  have hspec := splitDetachChord_spec (consumed ++ chunk) false
  change Splits (consumed ++ chunk) _ at hspec
  rw [happend] at hspec
  subst hstep
  cases hdetach : (splitDetachChord chunk relay.pendingPrefix).detach with
  | false =>
    refine .inl ⟨by simp, ⟨consumed ++ chunk, ?_, by simpa using hinput⟩, nofun,
      h.inputErr⟩
    rw [happend, hdetach]
  | true =>
    obtain ⟨hfirst, hprefix⟩ := hspec.detach hdetach
    have hwhole : FirstAt chord input (relay.written ++
        (splitDetachChord chunk relay.pendingPrefix).forward).length := by
      rw [← hinput]
      exact hfirst.append (by decide) _
    refine .inr ⟨by simp, ⟨fun hnone => absurd hwhole.occurs (hnone _), ?_⟩⟩
    intro i hi
    rw [hi.eq hwhole, ← hinput, List.take_append_of_le_length hprefix.length_le]
    exact ⟨by simp, List.prefix_iff_eq_take.mp hprefix⟩

theorem Relaying.takeErr (h : Relaying input relay) (hstep : relay.step .takeErr = some after) :
    after.outcome ≠ none ∧ (Delivered input after ↔ relay.inputChunks = none) := by
  obtain ⟨consumed, hsplit, hinput⟩ := h.consumed
  obtain ⟨-, hready⟩ : relay.outcome = none ∧ relay.inputErr = true := by
    by_contra hnot
    simp [Relay.step, hnot] at hstep
  simp only [Relay.step, h.outcome, hready, true_and, if_true, Option.some.injEq] at hstep
  have hspec := splitDetachChord_spec consumed false
  change Splits consumed _ at hspec
  rw [hsplit] at hspec
  obtain ⟨hwritten, hnone⟩ := hspec.whole rfl
  rw [h.inputErr hready, List.flatten_nil, List.append_nil] at hinput
  subst hstep
  refine ⟨nofun, fun hdelivered => ?_, fun hempty => ?_⟩
  · by_contra hwaiting
    obtain ⟨chunk, hchunk⟩ := Option.ne_none_iff_exists'.mp hwaiting
    rw [hchunk, Option.getD_some] at hinput
    rcases firstAt_or_none input with ⟨i, hi⟩ | hno
    · exact absurd (hdelivered.detaches i hi).1 (by simp)
    · have hall := (hdelivered.ends hno).2
      simp only at hall hwritten
      rw [hwritten, ← hinput, List.self_eq_append_right] at hall
      exact h.chunk (by rw [hchunk, hall])
  · rw [hempty, Option.getD_none, List.append_nil] at hinput
    subst hinput
    exact ⟨fun _ => ⟨rfl, hwritten⟩, fun i hi => absurd hi.occurs (hnone i)⟩

/-- A step of a relay that has not ended keeps it so, or delivers, unless it takes the end of the
input while a chunk is waiting. -/
theorem Relaying.step (h : Relaying input relay) (hstep : relay.step action = some after) :
    Relaying input after ∨
      after.outcome ≠ none ∧ (Delivered input after ↔ EndsEmpty relay action) := by
  obtain ⟨consumed, hsplit, hinput⟩ := h.consumed
  cases action with
  | send =>
    left
    obtain ⟨unread, inputChunks, inputErr, pendingPrefix, written, outcome⟩ := relay
    obtain rfl : outcome = none := h.outcome
    cases unread with
    | nil => exact nomatch hstep
    | cons chunk unread =>
      have hsent : inputErr ≠ true := fun hready => nomatch h.inputErr hready
      cases chunk with
      | nil =>
        obtain rfl := Option.some.inj hstep
        exact ⟨rfl, ⟨consumed, hsplit, hinput⟩, h.chunk, fun hready => absurd hready hsent⟩
      | cons byte chunk =>
        cases inputChunks with
        | some waiting => exact nomatch hstep
        | none =>
          obtain rfl := Option.some.inj hstep
          refine ⟨rfl, ⟨consumed, hsplit, ?_⟩, by simp, fun hready => absurd hready hsent⟩
          simpa using hinput
  | sendErr =>
    left
    simp only [Relay.step] at hstep
    split at hstep
    next hready =>
      obtain rfl := Option.some.inj hstep
      exact ⟨h.outcome, ⟨consumed, hsplit, hinput⟩, h.chunk, fun _ => hready.2.1⟩
    next => exact nomatch hstep
  | takeChunk =>
    rcases h.takeChunk hstep with hrelaying | ⟨hdone, hdelivered⟩
    · exact .inl hrelaying
    · exact .inr ⟨hdone, fun _ => nofun, fun _ => hdelivered⟩
  | takeErr =>
    obtain ⟨hdone, hdelivered⟩ := h.takeErr hstep
    exact .inr ⟨hdone, hdelivered.trans ⟨fun hempty _ => hempty, fun hends => hends rfl⟩⟩
  | resize | poll =>
    left
    rw [Relay.step, if_pos h.outcome] at hstep
    obtain rfl := Option.some.inj hstep
    exact h

/-- A run that ends delivers the input exactly if it takes the end of the input when no chunk is
waiting. -/
theorem Relaying.run {actions : List RelayAction} (h : Relaying input relay)
    (hrun : Run Relay.step Always relay actions after) (hdone : after.outcome ≠ none) :
    Delivered input after ↔ Run Relay.step EndsEmpty relay actions after := by
  induction hrun with
  | nil relay => exact absurd h.outcome hdone
  | @cons action actions relay next after _ hstep hrest ih =>
    rcases h.step hstep with hrelaying | ⟨hended, hdelivered⟩
    · rw [ih hrelaying hdone]
      constructor
      · intro hlater
        refine .cons (fun htaken => ?_) hstep hlater
        subst htaken
        exact absurd hrelaying.outcome (h.takeErr hstep).1
      · rintro (_ | ⟨_, hstep', hlater⟩)
        rw [hstep] at hstep'
        obtain rfl := Option.some.inj hstep'
        exact hlater
    · cases hrest with
      | nil =>
        rw [hdelivered]
        constructor
        · exact fun hempty => .cons hempty hstep (.nil _)
        · rintro (_ | ⟨hempty, -, -⟩)
          exact hempty
      | cons _ hlate _ =>
        rw [Relay.step_eq_none hended] at hlate
        exact nomatch hlate

/-! ### The end of a relay -/

/-- What is left of the input: a read is sent and taken, and so is the end. -/
def Relay.remaining (relay : Relay) : ℕ :=
  2 * relay.unread.length + (if relay.inputChunks.isSome then 1 else 0) +
    (if relay.inputErr then 1 else 2)

/-- A relay that has not ended can go on with its input. -/
theorem Relay.exists_inputStep (h : relay.outcome = none) :
    ∃ action after, action ≠ .resize ∧ action ≠ .poll ∧ relay.step action = some after := by
  obtain ⟨unread, inputChunks, inputErr, pendingPrefix, written, outcome⟩ := relay
  obtain rfl : outcome = none := h
  cases inputChunks with
  | some chunk => exact ⟨.takeChunk, _, by decide, by decide, rfl⟩
  | none =>
    cases inputErr with
    | true => exact ⟨.takeErr, _, by decide, by decide, rfl⟩
    | false =>
      cases unread with
      | nil => exact ⟨.sendErr, _, by decide, by decide, rfl⟩
      | cons chunk unread =>
        cases chunk with
        | nil => exact ⟨.send, _, by decide, by decide, rfl⟩
        | cons byte chunk => exact ⟨.send, _, by decide, by decide, rfl⟩

/-- Each such step ends the relay or leaves less of the input. -/
theorem Relay.inputStep_lt (hresize : action ≠ .resize) (hpoll : action ≠ .poll)
    (hstep : relay.step action = some after) :
    after.outcome ≠ none ∨ after.remaining < relay.remaining := by
  obtain ⟨unread, inputChunks, inputErr, pendingPrefix, written, outcome⟩ := relay
  cases action with
  | send =>
    right
    cases outcome with
    | some _ => exact nomatch hstep
    | none =>
      cases unread with
      | nil => exact nomatch hstep
      | cons chunk unread =>
        cases chunk with
        | nil =>
          obtain rfl := Option.some.inj hstep
          simp [remaining]
        | cons byte chunk =>
          cases inputChunks with
          | some _ => exact nomatch hstep
          | none =>
            obtain rfl := Option.some.inj hstep
            -- a chunk with bytes moves to the channel, which counts less than a chunk unread
            simp only [remaining, List.length_cons, Option.isSome_some, Option.isSome_none, if_true,
              Bool.false_eq_true, if_false]
            omega
  | sendErr =>
    simp only [step] at hstep
    split at hstep
    next hready =>
      obtain rfl := Option.some.inj hstep
      exact .inr (by simp [remaining, hready.2.2])
    next => exact nomatch hstep
  | takeChunk =>
    right
    cases outcome with
    | some _ => exact nomatch hstep
    | none =>
      cases inputChunks with
      | none => exact nomatch hstep
      | some chunk =>
        obtain rfl := Option.some.inj hstep
        simp [remaining]
  | takeErr =>
    simp only [step] at hstep
    split at hstep
    next =>
      obtain rfl := Option.some.inj hstep
      exact .inl nofun
    next => exact nomatch hstep
  | resize => exact absurd rfl hresize
  | poll => exact absurd rfl hpoll

/-- The steps with the input that are left. -/
def Relay.stepsLeft (relay : Relay) : ℕ :=
  if relay.outcome = none then relay.remaining + 1 else 0

/-- A resize or a poll leaves the relay alone, and any other step has one less behind it. -/
theorem Relay.stepsLeft_lt (hstep : relay.step action = some after) :
    after.stepsLeft + (if action ≠ .resize ∧ action ≠ .poll then 1 else 0) ≤ relay.stepsLeft := by
  have houtcome : relay.outcome = none := by
    by_contra hended
    exact nomatch (step_eq_none hended).symm.trans hstep
  have hleft : relay.stepsLeft = relay.remaining + 1 := if_pos houtcome
  split
  · next hinput =>
    rw [hleft]
    rcases inputStep_lt hinput.1 hinput.2 hstep with hended | hless
    · rw [stepsLeft, if_neg hended]
      omega
    · unfold stepsLeft
      split <;> omega
  · next hidle =>
    have hsame : after = relay := by
      by_cases hresize : action = .resize
      · subst hresize
        exact (of_ite_some hstep).2.symm
      · obtain rfl : action = .poll := by simpa [hresize] using hidle
        exact (of_ite_some hstep).2.symm
    rw [hsame]
    exact Nat.le_refl _

/-- **An attach ends with its input.** Whichever ready channel the loop takes, it takes at most two
steps for each read and three for the end, and until it has ended there is one that it can take. -/
theorem relay_ends (reads : List (List UInt8)) {actions : List RelayAction}
    (hrun : Run Relay.step Always (Relay.start reads) actions relay) :
    actions.countP (fun action => action ≠ .resize ∧ action ≠ .poll) ≤ 2 * reads.length + 3 ∧
      (relay.outcome = none → ∃ action after, action ≠ .resize ∧ action ≠ .poll ∧
        relay.step action = some after) := by
  refine ⟨?_, relay.exists_inputStep⟩
  have hcount := hrun.countP_add_le
    (p := fun action => action ≠ .resize ∧ action ≠ .poll) fun _ _ _ _ hstep => by
      simpa using Relay.stepsLeft_lt hstep
  have hstart : (Relay.start reads).stepsLeft = 2 * reads.length + 3 := rfl
  omega

theorem relay_ends_held : [RelayAction.send, .poll, .takeChunk, .sendErr, .takeErr].countP
    (fun action => action ≠ .resize ∧ action ≠ .poll) ≤ 2 * 1 + 3 := by
  have hrun : Run Relay.step Always (Relay.start [[0x61, 0x02]])
      [.send, .poll, .takeChunk, .sendErr, .takeErr]
      ⟨[], none, true, true, [0x61, 0x02], some .ended⟩ := run_iff_replay.mpr (by decide)
  exact (relay_ends [[0x61, 0x02]] hrun).1

/-- A relay that ends has forwarded its input, up to a chord, exactly if it took the end of the
input when no chunk was waiting; what it has written then, and how it ended, does not depend on the
reads. -/
theorem relay_forwards_iff (reads : List (List UInt8)) (actions : List RelayAction)
    (hrun : Run Relay.step Always (Relay.start reads) actions relay)
    (hdone : relay.outcome ≠ none) :
    (Delivered reads.flatten relay ↔
      Run Relay.step EndsEmpty (Relay.start reads) actions relay) ∧
    ∀ reads' actions' relay', reads'.flatten = reads.flatten →
      Run Relay.step EndsEmpty (Relay.start reads) actions relay →
      Run Relay.step EndsEmpty (Relay.start reads') actions' relay' → relay'.outcome ≠ none →
      relay'.written = relay.written ∧ relay'.outcome = relay.outcome := by
  have hiff := (Relaying.start reads).run hrun hdone
  refine ⟨hiff, fun reads' actions' relay' hsame hends hrun' hdone' => ?_⟩
  have hthis := hiff.mpr hends
  have hthat := ((Relaying.start reads').run (hrun'.mono fun _ _ _ => trivial) hdone').mpr hrun'
  rw [hsame] at hthat
  rcases firstAt_or_none reads.flatten with ⟨i, hi⟩ | hno
  · obtain ⟨hended, hwritten⟩ := hthis.detaches i hi
    obtain ⟨hended', hwritten'⟩ := hthat.detaches i hi
    exact ⟨hwritten'.trans hwritten.symm, hended'.trans hended.symm⟩
  · obtain ⟨hended, hwritten⟩ := hthis.ends hno
    obtain ⟨hended', hwritten'⟩ := hthat.ends hno
    exact ⟨hwritten'.trans hwritten.symm, hended'.trans hended.symm⟩

instance (relay : Relay) (action : RelayAction) : Decidable (EndsEmpty relay action) :=
  inferInstanceAs (Decidable (_ → _))

/-- A Ctrl-B at a border, with a last chunk that is taken before the end. -/
theorem relay_forwards_iff_held :
    Delivered [0x61, 0x02, 0x78] ⟨[], none, true, false, [0x61, 0x02, 0x78], some .ended⟩ :=
  (relay_forwards_iff [[0x61, 0x02], [0x78]]
    [.send, .takeChunk, .send, .sendErr, .takeChunk, .takeErr]
    (run_iff_replay.mpr (by decide)) (by decide)).1.mpr (run_iff_replay.mpr (by decide))

/-- The end of the input may overtake the only chunk. -/
theorem not_relay_forwards :
    ¬ ∀ (reads : List (List UInt8)) (actions : List RelayAction) (relay : Relay),
      Run Relay.step Always (Relay.start reads) actions relay → relay.outcome ≠ none →
      Delivered reads.flatten relay := by
  intro h
  have hdelivered := h [[0x61]] [.send, .sendErr, .takeErr]
    ⟨[], some [0x61], true, false, [], some .ended⟩ (run_iff_replay.mpr (by decide)) (by decide)
  have hno : ∀ i, ¬ OccursAt chord [[0x61]].flatten i := fun i hoccurs =>
    absurd (hoccurs.length_le (by decide)) (by simp [chord])
  exact absurd (hdelivered.ends hno).2 (by decide)

end AgentCockpit.Mux
