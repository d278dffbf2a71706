import AgentCockpit.Core.Run

/-!
# Overlapping loads of one slot

A slot is filled by loads. A load is a chain of reads: the answer to one either leads to the
next or is written into the slot and ends the load. Any number of loads are under way at a
time, and their reads are answered in any order. The slot can be emptied or removed in between;
an answer that finds no slot is discarded.

Nothing in such a slot tells the loads apart, so a load that was issued early and answered late
overwrites what a later one wrote. `Timely` names the answers that do not.

## Main results

* `Loader.NewestWins.of_timely` — **in timely runs the slot holds what the latest load read**,
  and a load from before a reset leaves the slot alone
-/

namespace AgentCockpit.Core

variable {ς γ stage answer outcome : Type*}

/-- The reads of a load over a store with a slot, and what they write. -/
structure Loader (ς stage answer outcome : Type*) where
  first : stage
  issue : ς → ς
  live : ς → Bool
  /-- The answers that a read has. -/
  answers : stage → answer → Bool
  /-- The read that follows an answer. -/
  next : stage → answer → Option stage
  /-- What an answer writes when no read follows. -/
  write : stage → answer → ς → ς
  read : stage → answer → outcome
  clear : ς → ς
  evict : ς → ς

/-- A load under way. -/
structure Flight (stage : Type*) where
  id : ℕ
  resets : ℕ
  stage : stage

/-- A store with its loads. Loads are numbered as they are issued; `resets` counts how often the
slot was emptied or removed, and `latest` is what the latest load since then has read, once it
has ended. -/
structure Loads (ς stage outcome : Type*) where
  store : ς
  issued : ℕ := 0
  resets : ℕ := 0
  flights : List (Flight stage) := []
  latest : Option outcome := none

inductive LoadEvent (answer : Type*)
  | issue
  | answer (id : ℕ) (value : answer)
  | clear
  | evict

namespace Loader

variable (loader : Loader ς stage answer outcome)

/-- An answer to a load. -/
def resume (loads : Loads ς stage outcome) (flight : Flight stage) (value : answer) :
    Loads ς stage outcome :=
  let others := loads.flights.filter (·.id ≠ flight.id)
  if loader.live loads.store then
    match loader.next flight.stage value with
    | some stage => { loads with flights := { flight with stage } :: others }
    | none =>
      { loads with
        store := loader.write flight.stage value loads.store
        flights := others
        latest :=
          if flight.id = loads.issued ∧ flight.resets = loads.resets then
            some (loader.read flight.stage value)
          else loads.latest }
  else { loads with flights := others }

def step (loads : Loads ς stage outcome) : LoadEvent answer → Option (Loads ς stage outcome)
  | .issue => some
      { loads with
        store := loader.issue loads.store
        issued := loads.issued + 1
        flights := ⟨loads.issued + 1, loads.resets, loader.first⟩ :: loads.flights
        latest := none }
  | .answer id value => (loads.flights.find? (·.id = id)).bind fun flight =>
      if loader.answers flight.stage value then some (loader.resume loads flight value) else none
  | .clear => some
      { loads with store := loader.clear loads.store, resets := loads.resets + 1, latest := none }
  | .evict => some
      { loads with store := loader.evict loads.store, resets := loads.resets + 1, latest := none }

/-- What is used of the writes: when a load ends the slot is not loading; an answer that is
faithful leaves what the load read in the slot, and one that is harmless leaves there what
another load read. -/
structure Lawful (loading : ς → Prop) (holds : outcome → ς → Prop)
    (faithful harmless : stage → answer → ς → Prop) : Prop where
  live_of_loading : ∀ store, loading store → loader.live store = true
  not_loading_write : ∀ stage value store, ¬ loading (loader.write stage value store)
  not_loading_clear : ∀ store, ¬ loading (loader.clear store)
  not_loading_evict : ∀ store, ¬ loading (loader.evict store)
  holds_of_faithful : ∀ stage value store, loader.live store = true →
    faithful stage value store →
      holds (loader.read stage value) (loader.write stage value store)
  holds_of_harmless : ∀ stage value store result, harmless stage value store →
    holds result store → holds result (loader.write stage value store)

/-- An answer that would be written comes in time: the slot was not reset since the load was
issued; the answer is faithful to the latest load; and an older load writes only before the
latest one has ended, or when that has failed, or what does no harm. -/
def Timely (holds : outcome → ς → Prop) (faithful harmless : stage → answer → ς → Prop)
    (loads : Loads ς stage outcome) : LoadEvent answer → Prop
  | .answer id value => ∀ flight, loads.flights.find? (·.id = id) = some flight →
      loader.live loads.store = true → loader.next flight.stage value = none →
        flight.resets = loads.resets ∧
          (flight.id = loads.issued → faithful flight.stage value loads.store) ∧
          (flight.id ≠ loads.issued → ∀ result, loads.latest = some result →
            (∀ store, holds result store) ∨ harmless flight.stage value loads.store)
  | _ => True

/-- The slot holds what the latest load since the last reset has read, and is loading only
while that load is under way. -/
structure Sound (loading : ς → Prop) (holds : outcome → ς → Prop)
    (loads : Loads ς stage outcome) : Prop where
  holds : ∀ result, loads.latest = some result → holds result loads.store
  loading : loading loads.store → ∃ flight ∈ loads.flights, flight.id = loads.issued

variable {loader} {loading : ς → Prop} {holds : outcome → ς → Prop}
  {faithful harmless : stage → answer → ς → Prop} {loads loads' : Loads ς stage outcome}
  {flight : Flight stage} {value : answer}

/-- An answer in time keeps what the latest load read in the slot. -/
theorem Sound.resume (h : Sound loading holds loads)
    (hlawful : loader.Lawful loading holds faithful harmless)
    (htimely : loader.live loads.store = true → loader.next flight.stage value = none →
      flight.resets = loads.resets ∧
        (flight.id = loads.issued → faithful flight.stage value loads.store) ∧
        (flight.id ≠ loads.issued → ∀ result, loads.latest = some result →
          (∀ store, holds result store) ∨ harmless flight.stage value loads.store)) :
    Sound loading holds (loader.resume loads flight value) := by
  unfold Loader.resume
  dsimp only
  split
  · next hlive =>
    split
    · next stage hnext =>
      -- another read follows, and the load is still under way
      refine ⟨h.holds, fun hloading => ?_⟩
      obtain ⟨other, hother, hissued⟩ := h.loading hloading
      by_cases hsame : other.id = flight.id
      · exact ⟨_, List.mem_cons_self, hsame.symm.trans hissued⟩
      · exact ⟨other, List.mem_cons_of_mem _ (List.mem_filter.mpr ⟨hother, by simpa⟩), hissued⟩
    · next hnext =>
      obtain ⟨hresets, hfaithful, hharmless⟩ := htimely hlive hnext
      refine ⟨fun result hresult => ?_, fun hloading =>
        absurd hloading (hlawful.not_loading_write _ _ _)⟩
      dsimp only at hresult ⊢
      by_cases hlatest : flight.id = loads.issued
      · rw [if_pos ⟨hlatest, hresets⟩] at hresult
        exact Option.some.inj hresult ▸
          hlawful.holds_of_faithful _ _ _ hlive (hfaithful hlatest)
      · rw [if_neg fun hboth => hlatest hboth.1] at hresult
        rcases hharmless hlatest result hresult with hfailed | hharmless
        · exact hfailed _
        · exact hlawful.holds_of_harmless _ _ _ _ hharmless (h.holds result hresult)
  · next hlive =>
    exact ⟨h.holds, fun hloading => absurd (hlawful.live_of_loading _ hloading) hlive⟩

/-- A timely event keeps the slot sound. -/
theorem Sound.step (h : Sound loading holds loads)
    (hlawful : loader.Lawful loading holds faithful harmless) {event : LoadEvent answer}
    (htimely : loader.Timely holds faithful harmless loads event)
    (hstep : loader.step loads event = some loads') : Sound loading holds loads' := by
  cases event with
  | issue =>
    obtain rfl := Option.some.inj hstep
    exact ⟨nofun, fun _ => ⟨_, List.mem_cons_self, rfl⟩⟩
  | answer id value =>
    obtain ⟨flight, hfound, hresumed⟩ := Option.bind_eq_some_iff.mp hstep
    obtain ⟨_, rfl⟩ := of_ite_some hresumed
    exact h.resume hlawful (htimely flight hfound)
  | clear =>
    obtain rfl := Option.some.inj hstep
    exact ⟨nofun, fun hloading => absurd hloading (hlawful.not_loading_clear _)⟩
  | evict =>
    obtain rfl := Option.some.inj hstep
    exact ⟨nofun, fun hloading => absurd hloading (hlawful.not_loading_evict _)⟩

/-- An answer in time to a load from before a reset leaves the store alone. -/
theorem untouched {id : ℕ}
    (htimely : loader.Timely holds faithful harmless loads (.answer id value))
    (hfound : loads.flights.find? (·.id = id) = some flight) (hold : flight.resets ≠ loads.resets) :
    (loader.resume loads flight value).store = loads.store := by
  unfold Loader.resume
  dsimp only
  split
  · next hlive =>
    split
    · rfl
    · next hnext => exact absurd (htimely flight hfound hlive hnext).1 hold
  · rfl

variable (loader loading holds) in
/-- The effect an event ought to have. Once all loads have ended, the slot holds what the latest
one read; a load from before a reset does not change the slot; and the slot is loading only
while the latest load is under way. -/
structure NewestWins (slice : ς → γ) (loads : Loads ς stage outcome) (event : LoadEvent answer) :
    Prop where
  held : ∀ loads', loader.step loads event = some loads' → loads'.flights = [] →
    ∀ result, loads'.latest = some result → holds result loads'.store
  untouched : ∀ loads' id value flight, event = .answer id value →
    loader.step loads event = some loads' → loads.flights.find? (·.id = id) = some flight →
      flight.resets ≠ loads.resets → slice loads'.store = slice loads.store
  loading : ∀ loads', loader.step loads event = some loads' → loading loads'.store →
    ∃ flight ∈ loads'.flights, flight.id = loads'.issued

/-- A timely event has the effect it ought to have. -/
theorem Sound.newestWins (h : Sound loading holds loads)
    (hlawful : loader.Lawful loading holds faithful harmless) {event : LoadEvent answer}
    (htimely : loader.Timely holds faithful harmless loads event) (slice : ς → γ) :
    loader.NewestWins loading holds slice loads event := by
  refine ⟨fun loads' hstep _ => (h.step hlawful htimely hstep).holds, ?_,
    fun loads' hstep => (h.step hlawful htimely hstep).loading⟩
  rintro loads' id value flight rfl hstep hfound hold
  obtain ⟨flight', hfound', hresumed⟩ := Option.bind_eq_some_iff.mp hstep
  obtain rfl := Option.some.inj (hfound.symm.trans hfound')
  split at hresumed
  · rw [← Option.some.inj hresumed, untouched htimely hfound hold]
  · exact nomatch hresumed

/-- **In timely runs the newest load wins.** -/
theorem NewestWins.of_timely (hlawful : loader.Lawful loading holds faithful harmless)
    (slice : ς → γ) {start last : Loads ς stage outcome} {w : List (LoadEvent answer)}
    (hstart : Sound loading holds start)
    (hrun : Run loader.step (loader.Timely holds faithful harmless) start w last) :
    Run loader.step (loader.NewestWins loading holds slice) start w last :=
  hrun.mono_of_invariant
    (fun _ _ _ (h : Sound loading holds _) htimely hstep => h.step hlawful htimely hstep)
    (fun _ _ h htimely => h.newestWins hlawful htimely slice) hstart

end Loader

end AgentCockpit.Core
