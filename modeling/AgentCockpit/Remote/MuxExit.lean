import AgentCockpit.Remote.MuxRuns

/-!
# One exit for one terminal

Five functions of the manager tell the exit handlers of a terminal. `completeExited` and
`destroySession` first look whether the terminal is still there, and take it out of the manager.
`close` tells the exit without looking: it relies on the daemon, which destroys a session once.
A reconnect that finds the daemon recovered from a crash tells the exit and leaves the terminal
where it is, so that it can be told again.
-/

namespace AgentCockpit.Remote

open AgentCockpit.Mux AgentCockpit.Core

namespace RemoteMuxTerminalManager

variable {manager next : RemoteMuxTerminalManager}

/-- A manager that has not opened the terminal yet, whatever the daemon has. -/
structure Fresh (manager : RemoteMuxTerminalManager) : Prop where
  term : manager.term = {}
  published : manager.published = false
  registered : manager.registered = false
  waiting : manager.waiting = []
  sent : manager.sent = []
  answered : manager.answered = []
  events : manager.events = []
  named : manager.pane.present = true → manager.pane.sessionID ≠ ""

theorem Fresh.sound (h : manager.Fresh) : manager.Sound quiet := by
  have hqueue : manager.queue = [] := by simp [queue, h.answered, h.sent]
  have hflight : manager.flight = [] := by simp [flight, h.answered, h.sent]
  have hopenings : manager.openings = 0 := by simp [openings, hqueue, h.waiting]
  have hexits : manager.exits = 0 := by simp [exits, h.events]
  exact
    { registered := fun hreg => by cases h.registered.symm.trans hreg
      exits_le := fun _ => hexits ▸ Nat.zero_le 1
      exits_registered := fun _ _ => h.registered
      told := fun _ hpos => absurd hexits (Nat.pos_iff_ne_zero.mp hpos)
      order := hflight ▸ List.Pairwise.nil
      ends := h.answered ▸ List.Pairwise.nil
      settled := fun _ hmem => by cases (h.answered ▸ hmem : _ ∈ [])
      current := fun _ _ _ _ hmem => by cases (hflight ▸ hmem : _ ∈ [])
      reconnects := hflight ▸ Nat.zero_le 1
      unpublished := fun _ => ⟨h.registered, hopenings, by rw [h.term], fun _ => hexits⟩
      openings := hopenings ▸ Nat.zero_le 1
      unidentified := fun _ => by simp [Unidentified, hqueue, h.term, h.waiting]
      finalizing := by simp [hqueue, h.term, h.waiting]
      sound := fun _ hmem => by cases (hqueue ▸ hmem : _ ∈ [])
      identified := fun _ _ hmem => by cases (hqueue ▸ hmem : _ ∈ [])
      relisted := fun _ hmem => by cases (h.answered ▸ hmem : _ ∈ [])
      offline := fun _ => ⟨h.sent, fun _ hmem => by cases (h.answered ▸ hmem : _ ∈ [])⟩
      named := h.named }

/-- **One exit for one terminal.** In every run in which no reconnect reports a crash of the
daemon and no write comes before the identity, the exit handlers are notified at most once. -/
theorem exits_le_one_of_retires (hfresh : manager.Fresh)
    (hreach : Reaches step Retires manager next) : next.exits ≤ 1 :=
  have hstep : ∀ (manager : RemoteMuxTerminalManager) label next, manager.Sound True →
      manager.Retires label → manager.step label = some next → next.Sound True :=
    fun _ _ _ h hretires hstep => h.step (fun _ => hretires) hstep
  (hreach.invariant hstep hfresh.sound).exits_le trivial

/-- `open` up to its first seed. -/
def openSteps : List MuxStep :=
  [.attached, .open_ {}, .connection 0 true, .serve none, .deliver, .serve none, .deliver,
    .serve none, .deliver, .serve none, .deliver]

/-- The close of an open terminal is its only exit. -/
theorem exits_le_one_of_close :
    ∃ next : RemoteMuxTerminalManager, Reaches step Retires {} next ∧ next.exits = 1 ∧
      next.exits ≤ 1 := by
  have hrun : ∃ next : RemoteMuxTerminalManager, Reaches step Retires {} next ∧ next.exits = 1 := by
    have hsome : (replay step Retires {} (openSteps ++
        [.close true, .serve none, .serve none, .deliver, .deliver])).any
          (fun next => next.exits = 1) = true := by decide +kernel
    obtain ⟨next, hnext, hexits⟩ := exists_run_of_replay hsome
    exact ⟨next, ⟨_, hnext⟩, hexits⟩
  obtain ⟨next, hreach, hexits⟩ := hrun
  have hfresh : Fresh {} := ⟨rfl, rfl, rfl, rfl, rfl, rfl, rfl, nofun⟩
  exact ⟨next, hreach, hexits, exits_le_one_of_retires hfresh hreach⟩

/-! ### A crash that is reported -/

/-- The daemon crashes under an open terminal; the reconnect reports it, and the user closes the
terminal that is still there. -/
def crashSteps : List MuxStep :=
  openSteps ++ [.lost, .crash, .attached, .serve none, .deliver, .serve none, .deliver,
    .serve none, .deliver, .close true, .serve none, .deliver]

/-- The exit handlers are notified of the crash and of the close. -/
theorem not_exits_le_one_of_crash :
    ¬ ∀ manager next : RemoteMuxTerminalManager, manager.Fresh →
      Reaches step Always manager next → next.exits ≤ 1 := by
  intro hall
  have hsome : (replay step Always {} crashSteps).any
      (fun next : RemoteMuxTerminalManager => next.exits = 2) = true := by decide +kernel
  obtain ⟨next, hnext, hexits⟩ := exists_run_of_replay hsome
  have hfresh : Fresh {} := ⟨rfl, rfl, rfl, rfl, rfl, rfl, rfl, nofun⟩
  have hle := hall {} next hfresh ⟨_, hnext⟩
  exact absurd hle (by rw [hexits]; decide)

end RemoteMuxTerminalManager

end AgentCockpit.Remote
