import AgentCockpit.Core.PromiseChain
import AgentCockpit.Core.Run

/-!
# Terminal input

A registry entry writes what a terminal's keyboard and its parser produce. What comes before the
terminal is open waits in a list; the first open hands this list over to a chain of promises, and
what comes later goes there at once. A task of the chain writes nothing once the entry is disposed.
-/

namespace AgentCockpit.Renderer.TerminalInput

open AgentCockpit.Core

inductive TerminalWriteKind
  | input
  | reply
  deriving DecidableEq, Repr

structure TerminalWrite where
  data : String
  kind : TerminalWriteKind
  deriving DecidableEq, Repr

/-- The first open of an entry. -/
inductive FirstOpen
  | pending
  | succeeded
  | failed
  deriving DecidableEq, Repr

structure InputEntry where
  opened : Bool := false
  disposed : Bool := false
  pendingWrites : List TerminalWrite := []
  writeChain : PromiseChain TerminalWrite := {}
  firstOpen : FirstOpen := .pending
  /-- What has been handed over to `writeTerminal`. -/
  handed : List TerminalWrite := []
  /-- The writes that the provider has been asked for, and how many it has answered. -/
  issued : List TerminalWrite := []
  answered : ℕ := 0
  deriving DecidableEq, Repr

namespace InputEntry

/-- Wait for the open, or behind the writes before. -/
def writeTerminal (entry : InputEntry) (write : TerminalWrite) : InputEntry :=
  if entry.opened then { entry with writeChain := entry.writeChain.push write }
  else { entry with pendingWrites := entry.pendingWrites ++ [write] }

/-- The first open has succeeded: what has waited goes to the chain. -/
def openedTerminal (entry : InputEntry) : InputEntry :=
  if entry.disposed then entry
  else
    entry.pendingWrites.foldl writeTerminal { entry with opened := true, pendingWrites := [] }

def dispose (entry : InputEntry) : InputEntry :=
  { entry with disposed := true, pendingWrites := [] }

/-- The reaction that is due in the chain. A task asks the provider unless the entry is
disposed. -/
def react (entry : InputEntry) : Option InputEntry :=
  (entry.writeChain.react fun _ => !entry.disposed).map fun writeChain =>
    { entry with writeChain, issued := entry.issued ++ writeChain.running.toList }

/-- The provider has carried out a write, or has failed to. -/
def settle (entry : InputEntry) (outcome : Settlement) : Option InputEntry :=
  (entry.writeChain.settle outcome).map fun writeChain =>
    { entry with writeChain, answered := entry.answered + 1 }

end InputEntry

inductive InputEvent
  | write (write : TerminalWrite)
  | openCompleted (succeeded : Bool)
  | dispose
  | react
  | settle (outcome : Settlement)
  deriving DecidableEq, Repr

namespace InputEntry

def step (entry : InputEntry) : InputEvent → Option InputEntry
  | .write write => some { entry.writeTerminal write with handed := entry.handed ++ [write] }
  | .openCompleted succeeded =>
    if entry.firstOpen = .pending then
      if succeeded then some { entry.openedTerminal with firstOpen := .succeeded }
      -- After a failed open what waits stays where it is.
      else some { entry with firstOpen := .failed }
    else none
  | .dispose => some entry.dispose
  | .react => entry.react
  | .settle outcome => entry.settle outcome

end InputEntry

/-- The steps that are taken without the user: reactions, and answers of the provider. -/
def Internal (_ : InputEntry) : InputEvent → Prop
  | .react => True
  | .settle _ => True
  | _ => False

/-! ### What is left to be written -/

/-- What is on its way to the provider, in order. -/
def waiting (entry : InputEntry) : List TerminalWrite :=
  entry.writeChain.tasks ++ entry.pendingWrites

/-- No input is lost before the entry is disposed, and none is overtaken. -/
structure Sound (entry : InputEntry) : Prop where
  guarded : entry.writeChain.Guarded
  issued : entry.issued <+: entry.handed
  complete : entry.disposed = false → entry.handed = entry.issued ++ waiting entry
  outstanding : entry.issued.length = entry.answered + entry.writeChain.running.toList.length
  opened : entry.disposed = false → (entry.firstOpen = .succeeded ↔ entry.opened = true)
  flushed : entry.opened = true → entry.pendingWrites = []

theorem sound_initial : Sound {} where
  guarded := PromiseChain.guarded_default
  issued := List.nil_prefix
  complete := fun _ => rfl
  outstanding := rfl
  opened := fun _ => by simp
  flushed := fun _ => rfl

section Steps

variable {entry next : InputEntry}

/-- Handing one write over adds it at the end. -/
theorem waiting_writeTerminal (hflushed : entry.opened = true → entry.pendingWrites = [])
    (write : TerminalWrite) : waiting (entry.writeTerminal write) = waiting entry ++ [write] := by
  unfold InputEntry.writeTerminal waiting
  split
  · next hopened => simp [hflushed hopened]
  · simp

/-- What has waited for the open goes to the chain in its order, and nothing else changes. -/
theorem foldl_writeTerminal (writes : List TerminalWrite) (hopened : entry.opened = true) :
    ∃ writeChain : PromiseChain TerminalWrite,
      writes.foldl InputEntry.writeTerminal entry = { entry with writeChain } ∧
        writeChain.tasks = entry.writeChain.tasks ++ writes ∧
        writeChain.running = entry.writeChain.running ∧
        (entry.writeChain.Guarded → writeChain.Guarded) := by
  induction writes generalizing entry with
  | nil => exact ⟨entry.writeChain, rfl, by simp, rfl, id⟩
  | cons write writes ih =>
    have hwrite : entry.writeTerminal write =
        { entry with writeChain := entry.writeChain.push write } := if_pos hopened
    rw [List.foldl_cons, hwrite]
    obtain ⟨writeChain, hfold, htasks, hrunning, hguarded⟩ :=
      @ih { entry with writeChain := entry.writeChain.push write } hopened
    refine ⟨writeChain, hfold, ?_, hrunning, fun h => hguarded (h.push write)⟩
    rw [htasks, PromiseChain.tasks_push, List.append_assoc, List.singleton_append]

theorem Sound.write (h : Sound entry) (write : TerminalWrite) :
    Sound { entry.writeTerminal write with handed := entry.handed ++ [write] } := by
  have hwaiting := waiting_writeTerminal h.flushed write
  have hprefix : entry.issued <+: entry.handed ++ [write] :=
    h.issued.trans (List.prefix_append _ _)
  unfold InputEntry.writeTerminal at hwaiting ⊢
  split at hwaiting
  · next hopened =>
    rw [if_pos hopened]
    refine ⟨h.guarded.push write, hprefix, fun hdisposed => ?_, ?_, h.opened, h.flushed⟩
    · dsimp only
      rw [h.complete hdisposed, List.append_assoc]
      exact congrArg _ hwaiting.symm
    · exact h.outstanding
  · next hopened =>
    rw [if_neg hopened]
    refine ⟨h.guarded, hprefix, fun hdisposed => ?_, h.outstanding, h.opened, ?_⟩
    · dsimp only
      rw [h.complete hdisposed, List.append_assoc]
      exact congrArg _ hwaiting.symm
    · exact fun hopen => absurd hopen hopened

theorem Sound.openedTerminal (h : Sound entry) :
    Sound { entry.openedTerminal with firstOpen := .succeeded } := by
  unfold InputEntry.openedTerminal
  split
  · next hdisposed =>
    have hfalse : ∀ {p : Prop}, entry.disposed = false → p := by
      intro p hlive
      rw [hdisposed] at hlive
      cases hlive
    exact ⟨h.guarded, h.issued, hfalse, h.outstanding, hfalse, h.flushed⟩
  · next hlive =>
    have hdisposed : entry.disposed = false := by simpa using hlive
    -- Before the open nothing is in the chain but what was there already.
    obtain ⟨writeChain, hfold, htasks, hrunning, hguarded⟩ :=
      @foldl_writeTerminal { entry with opened := true, pendingWrites := [] }
        entry.pendingWrites rfl
    rw [hfold]
    refine ⟨hguarded h.guarded, h.issued, fun _ => ?_, ?_, fun _ => by simp, fun _ => rfl⟩
    · dsimp only [waiting]
      rw [htasks, List.append_nil]
      exact h.complete hdisposed
    · dsimp only
      rw [hrunning]
      exact h.outstanding

theorem Sound.dispose (h : Sound entry) : Sound entry.dispose where
  guarded := h.guarded
  issued := h.issued
  complete := nofun
  outstanding := h.outstanding
  opened := nofun
  flushed := fun _ => rfl

/-- A reaction issues the write that has waited longest, or a disposed entry drops it. -/
theorem Sound.react (h : Sound entry) (hreact : entry.react = some next) : Sound next := by
  obtain ⟨writeChain, hchain, rfl⟩ := Option.map_eq_some_iff.mp hreact
  obtain ⟨hguarded, hnone, ⟨htasks, hrunning⟩ | ⟨write, htasks, hrunning⟩⟩ :=
    h.guarded.react hchain
  · have houtstanding := h.outstanding
    rw [hnone] at houtstanding
    refine ⟨hguarded, ?_, fun hdisposed => ?_, ?_, h.opened, h.flushed⟩
    · simpa [hrunning] using h.issued
    · simpa [hrunning, waiting, htasks] using h.complete hdisposed
    · simpa [hrunning] using houtstanding
  · have houtstanding := h.outstanding
    rw [hnone] at houtstanding
    cases hdisposed : entry.disposed with
    | true =>
      rw [hdisposed] at hrunning
      refine ⟨hguarded, ?_, nofun, ?_, nofun, h.flushed⟩
      · simpa [hrunning] using h.issued
      · simpa [hrunning] using houtstanding
    | false =>
      rw [hdisposed] at hrunning
      have hcomplete := h.complete hdisposed
      rw [waiting, htasks, List.cons_append] at hcomplete
      refine ⟨hguarded, ?_, fun _ => ?_, ?_, fun _ => h.opened hdisposed, h.flushed⟩
      · rw [hcomplete, hrunning]
        exact ⟨writeChain.tasks ++ entry.pendingWrites, by simp⟩
      · simpa [hrunning, waiting] using hcomplete
      · simpa [hrunning] using houtstanding

theorem Sound.settle (h : Sound entry) {outcome : Settlement}
    (hsettle : entry.settle outcome = some next) : Sound next := by
  obtain ⟨writeChain, hchain, rfl⟩ := Option.map_eq_some_iff.mp hsettle
  have hguarded := h.guarded.settle hchain
  obtain ⟨write, hrunning, rfl⟩ := PromiseChain.settle_eq_some hchain
  have houtstanding := h.outstanding
  rw [hrunning] at houtstanding
  refine ⟨hguarded, h.issued, h.complete, ?_, h.opened, h.flushed⟩
  simpa using houtstanding

theorem Sound.step (h : Sound entry) {event : InputEvent}
    (hstep : entry.step event = some next) : Sound next := by
  cases event with
  | write write =>
    cases hstep
    exact h.write write
  | openCompleted succeeded =>
    simp only [InputEntry.step] at hstep
    split at hstep
    · next hpending =>
      cases succeeded with
      | true =>
        cases hstep
        exact h.openedTerminal
      | false =>
        cases hstep
        refine ⟨h.guarded, h.issued, h.complete, h.outstanding, fun hdisposed => ?_, h.flushed⟩
        have hopened := h.opened hdisposed
        rw [hpending] at hopened
        simpa using hopened
    · cases hstep
  | dispose =>
    cases hstep
    exact h.dispose
  | react => exact h.react hstep
  | settle outcome => exact h.settle hstep

end Steps

/-! ### Runs -/

/-- What a list of events hands over. -/
def writesOf (events : List InputEvent) : List TerminalWrite :=
  events.filterMap fun event =>
    match event with
    | .write write => some write
    | _ => none

section Runs

variable {entry next : InputEntry} {event : InputEvent} {events : List InputEvent}

theorem handed_openedTerminal (entry : InputEntry) :
    entry.openedTerminal.handed = entry.handed := by
  unfold InputEntry.openedTerminal
  split
  · rfl
  · obtain ⟨writeChain, hfold, -, -, -⟩ :=
      @foldl_writeTerminal { entry with opened := true, pendingWrites := [] }
        entry.pendingWrites rfl
    rw [hfold]

theorem handed_step (hstep : entry.step event = some next) :
    next.handed = entry.handed ++ writesOf [event] := by
  cases event with
  | write write =>
    cases hstep
    rfl
  | openCompleted succeeded =>
    simp only [InputEntry.step] at hstep
    split at hstep
    · cases succeeded with
      | true =>
        cases hstep
        simpa [writesOf] using handed_openedTerminal entry
      | false =>
        cases hstep
        simp [writesOf]
    · cases hstep
  | dispose =>
    cases hstep
    simp [writesOf, InputEntry.dispose]
  | react =>
    obtain ⟨writeChain, -, rfl⟩ := Option.map_eq_some_iff.mp hstep
    simp [writesOf]
  | settle outcome =>
    obtain ⟨writeChain, -, rfl⟩ := Option.map_eq_some_iff.mp hstep
    simp [writesOf]

theorem handed_run {admits : InputEntry → InputEvent → Prop}
    (h : Run InputEntry.step admits entry events next) :
    next.handed = entry.handed ++ writesOf events := by
  induction h with
  | nil => simp [writesOf]
  | cons hadmits hstep hrest ih =>
    rw [ih, handed_step hstep, List.append_assoc]
    simp only [writesOf, ← List.filterMap_append, List.singleton_append]

theorem sound_run {admits : InputEntry → InputEvent → Prop} (hsound : Sound entry)
    (h : Run InputEntry.step admits entry events next) : Sound next :=
  h.invariant (fun _ _ _ hsound _ hstep => hsound.step hstep) hsound

/-- A disposed entry stays disposed, and asks the provider for nothing. -/
theorem issued_step_of_disposed (hsound : Sound entry) (hdisposed : entry.disposed = true)
    (hstep : entry.step event = some next) :
    next.issued = entry.issued ∧ next.disposed = true := by
  cases event with
  | write write =>
    cases hstep
    unfold InputEntry.writeTerminal
    split
    · exact ⟨rfl, hdisposed⟩
    · exact ⟨rfl, hdisposed⟩
  | openCompleted succeeded =>
    simp only [InputEntry.step] at hstep
    split at hstep
    · cases succeeded with
      | true =>
        cases hstep
        rw [InputEntry.openedTerminal, if_pos hdisposed]
        exact ⟨rfl, hdisposed⟩
      | false =>
        cases hstep
        exact ⟨rfl, hdisposed⟩
    · cases hstep
  | dispose =>
    cases hstep
    exact ⟨rfl, rfl⟩
  | react =>
    obtain ⟨writeChain, hchain, rfl⟩ := Option.map_eq_some_iff.mp hstep
    obtain ⟨-, -, ⟨-, hrunning⟩ | ⟨write, -, hrunning⟩⟩ := hsound.guarded.react hchain
    · exact ⟨by simp [hrunning], hdisposed⟩
    · rw [hdisposed] at hrunning
      exact ⟨by simp [hrunning], hdisposed⟩
  | settle outcome =>
    obtain ⟨writeChain, -, rfl⟩ := Option.map_eq_some_iff.mp hstep
    exact ⟨rfl, hdisposed⟩

theorem issued_run_of_disposed (hsound : Sound entry) (hdisposed : entry.disposed = true)
    (h : Run InputEntry.step Always entry events next) : next.issued = entry.issued := by
  induction h with
  | nil => rfl
  | cons hadmits hstep hrest ih =>
    obtain ⟨hissued, hstays⟩ := issued_step_of_disposed hsound hdisposed hstep
    rw [ih (hsound.step hstep) hstays, hissued]

/-- An internal step brings the chain nearer to its end. -/
theorem internal_step (hinternal : Internal entry event) (hstep : entry.step event = some next) :
    next.writeChain.size < entry.writeChain.size ∧ next.disposed = entry.disposed ∧
      next.opened = entry.opened ∧ next.handed = entry.handed := by
  cases event with
  | react =>
    obtain ⟨writeChain, hchain, rfl⟩ := Option.map_eq_some_iff.mp hstep
    exact ⟨PromiseChain.react_size_lt hchain, rfl, rfl, rfl⟩
  | settle outcome =>
    obtain ⟨writeChain, hchain, rfl⟩ := Option.map_eq_some_iff.mp hstep
    exact ⟨PromiseChain.settle_size_lt hchain, rfl, rfl, rfl⟩
  | _ => exact hinternal.elim

theorem internal_run (h : Run InputEntry.step Internal entry events next) :
    events.length + next.writeChain.size ≤ entry.writeChain.size ∧
      next.disposed = entry.disposed ∧ next.opened = entry.opened ∧
      next.handed = entry.handed := by
  induction h with
  | nil => exact ⟨by simp, rfl, rfl, rfl⟩
  | cons hadmits hstep hrest ih =>
    obtain ⟨hsize, hdisposed, hopened, hhanded⟩ := internal_step hadmits hstep
    obtain ⟨hsize', hdisposed', hopened', hhanded'⟩ := ih
    refine ⟨?_, hdisposed'.trans hdisposed, hopened'.trans hopened, hhanded'.trans hhanded⟩
    rw [List.length_cons]
    omega

/-- Where no internal step is left, the whole input has been written. -/
theorem issued_eq_handed (hsound : Sound entry) (hopened : entry.opened = true)
    (hdisposed : entry.disposed = false)
    (hend : ∀ event, Internal entry event → entry.step event = none) :
    entry.issued = entry.handed := by
  have hreact := Option.map_eq_none_iff.mp (hend .react trivial)
  have hsettle := Option.map_eq_none_iff.mp (hend (.settle .fulfilled) trivial)
  have htasks := PromiseChain.tasks_eq_nil hreact hsettle
  have hcomplete := hsound.complete hdisposed
  rw [waiting, htasks, hsound.flushed hopened, List.append_nil, List.append_nil] at hcomplete
  exact hcomplete.symm

end Runs

/-- One input before the open and one behind it; the first write fails. -/
def failedWrite : List InputEvent :=
  [.write ⟨"l", .input⟩, .openCompleted true, .write ⟨"s", .input⟩, .react, .react,
    .settle .rejected, .react, .react, .settle .fulfilled]

end AgentCockpit.Renderer.TerminalInput
