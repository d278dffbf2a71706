import AgentCockpit.Core.Joined
import AgentCockpit.Core.PromiseChain
import AgentCockpit.Core.Run
import Mathlib.Data.PNat.Defs
import Mathlib.Logic.Function.Iterate

/-!
# In-band resize reports

An application that enables the private mode 2048 is told the size of its terminal in-band: at once,
and after each change of the grid. The renderer tracks the mode on the bytes of the output, and the
registry resizes the PTY through a chain of promises, in which only the last resize counts. A
report is meant to follow the resize of the PTY.
-/

namespace AgentCockpit.Renderer.InBandResize

open AgentCockpit.Core

/-! ### The mode on the bytes of the output -/

inductive ParserState
  | ground
  | escape
  | csi
  deriving DecidableEq, Repr

structure ModeParser where
  parser : ParserState := .ground
  parameters : List UInt8 := []
  deriving DecidableEq, Repr

inductive ModeChange
  | enable
  | disable
  deriving DecidableEq, Repr

/-- The digits of the mode. -/
def mode2048 : List UInt8 := [0x32, 0x30, 0x34, 0x38]

/-- The parameters are a group of private modes with 2048 among them. -/
def includes2048 : List UInt8 → Bool
  | 0x3f :: modes => modes.splitOn 0x3b |>.contains mode2048
  | _ => false

/-- Read a byte, and tell what becomes of the mode. `room` tells whether one more parameter byte is
kept. -/
def ModeParser.read (room : ℕ → Bool) (modes : ModeParser) (byte : UInt8) :
    ModeParser × Option ModeChange :=
  match modes.parser with
  | .ground => (if byte = 0x1b then { modes with parser := .escape } else modes, none)
  | .escape =>
    if byte = 0x5b then (⟨.csi, []⟩, none)
    -- RIS resets every private mode.
    else if byte = 0x63 then ({ modes with parser := .ground }, some .disable)
    else ({ modes with parser := if byte = 0x1b then .escape else .ground }, none)
  | .csi =>
    if 0x40 ≤ byte ∧ byte ≤ 0x7e then
      (⟨.ground, []⟩,
        if includes2048 modes.parameters then
          if byte = 0x68 then some .enable else if byte = 0x6c then some .disable else none
        else none)
    else if 0x20 ≤ byte ∧ byte ≤ 0x3f ∧ room modes.parameters.length then
      ({ modes with parameters := modes.parameters ++ [byte] }, none)
    else (⟨if byte = 0x1b then .escape else .ground, []⟩, none)

/-- The renderer keeps at most 64 parameter bytes. -/
def kept (length : ℕ) : Bool := length < 64

/-- A terminal that loses no parameter. -/
def unbounded (_ : ℕ) : Bool := true

/-- The byte is not one parameter too many. -/
def ModeParser.Fits (modes : ModeParser) (byte : UInt8) : Prop :=
  modes.parser = .csi → 0x20 ≤ byte → byte ≤ 0x3f → kept modes.parameters.length = true

theorem read_kept {modes : ModeParser} {byte : UInt8} (h : modes.Fits byte) :
    modes.read kept byte = modes.read unbounded byte := by
  unfold ModeParser.read
  cases hparser : modes.parser with
  | ground => rfl
  | escape => rfl
  | csi =>
    by_cases hparam : 0x20 ≤ byte ∧ byte ≤ 0x3f
    · have hkept := h hparser hparam.1 hparam.2
      simp only [hkept, unbounded]
    · have hkept : ¬ (0x20 ≤ byte ∧ byte ≤ 0x3f ∧ kept modes.parameters.length = true) :=
        fun hall => hparam ⟨hall.1, hall.2.1⟩
      have hunbounded :
          ¬ (0x20 ≤ byte ∧ byte ≤ 0x3f ∧ unbounded modes.parameters.length = true) :=
        fun hall => hparam ⟨hall.1, hall.2.1⟩
      simp only [if_neg hkept, if_neg hunbounded]

/-! ### Groups of modes -/

/-- Read bytes, and tell all that becomes of the mode. -/
def ModeParser.reads (room : ℕ → Bool) : ModeParser → List UInt8 → ModeParser × List ModeChange
  | modes, [] => (modes, [])
  | modes, byte :: bytes =>
    let (next, change) := modes.read room byte
    let (last, changes) := next.reads room bytes
    (last, change.toList ++ changes)

/-! ### The renderer and the registry -/

/-- A grid, which has at least one row and one column. -/
structure Geometry where
  rows : ℕ+
  cols : ℕ+
  deriving DecidableEq, Repr

/-- A resize of the PTY in the registry's chain. -/
structure Resize where
  generation : ℕ
  geometry : Geometry
  deriving DecidableEq, Repr

/-- Why a report is sent. -/
inductive Cause
  | enabling
  | commit
  deriving DecidableEq, Repr

/-- A report, and how things stood when it was sent: the geometry that the provider had committed
last, and whether the host had enabled the mode. -/
structure Report where
  cause : Cause
  geometry : Geometry
  committed : Option Geometry
  enabled : Bool
  deriving DecidableEq, Repr

/-- The open request of an entry. -/
inductive OpenProgress
  | waiting
  | sent (geometry : Geometry)
  | completed
  deriving DecidableEq, Repr

structure ResizeEntry where
  /-- The grid of the terminal, once it has booted. -/
  grid : Option Geometry := none
  inBandResizeEnabled : Bool := false
  inBandResizePending : Bool := false
  modes : ModeParser := {}
  /-- Output that has arrived before the terminal has booted. -/
  pendingWrites : List (List UInt8) := []
  opened : Bool := false
  disposed : Bool := false
  opening : OpenProgress := .waiting
  pendingGeometry : Option Geometry := none
  geometryGeneration : ℕ := 0
  geometryChain : PromiseChain Resize := {}
  /-- What the host has said of the mode, whatever the length of its parameters. -/
  host : ModeParser := {}
  hostEnabled : Bool := false
  /-- The geometry that the provider has committed last. -/
  committed : Option Geometry := none
  /-- The grid has changed while the mode was enabled, and that change is not committed yet. -/
  owed : Bool := false
  /-- The reports that are due, and those that were sent. -/
  expected : List Cause := []
  reports : List Report := []
  deriving DecidableEq, Repr

namespace ResizeEntry

def emitInBandResizeReport (entry : ResizeEntry) (cause : Cause) : ResizeEntry :=
  match entry.grid with
  | none => entry
  | some grid =>
    if entry.inBandResizeEnabled then
      { entry with
        inBandResizePending := false
        reports := entry.reports ++ [⟨cause, grid, entry.committed, entry.hostEnabled⟩] }
    else entry

/-- What the renderer makes of a byte. -/
def observe (entry : ResizeEntry) (byte : UInt8) : ResizeEntry :=
  let (modes, change) := entry.modes.read kept byte
  match change with
  | none => { entry with modes }
  | some .disable =>
    { entry with modes, inBandResizeEnabled := false, inBandResizePending := false }
  -- The answer goes out at once, with the grid that is drawn and not the one that is committed.
  | some .enable =>
    emitInBandResizeReport
      { entry with modes, inBandResizeEnabled := true, inBandResizePending := true } .enabling

/-- What the host means by a byte: a mode that is disabled is owed nothing, and one that is enabled
is owed a report. -/
def hear (entry : ResizeEntry) (byte : UInt8) : ResizeEntry :=
  let (host, change) := entry.host.read unbounded byte
  match change with
  | none => { entry with host }
  | some .disable => { entry with host, hostEnabled := false, owed := false }
  | some .enable =>
    { entry with host, hostEnabled := true, expected := entry.expected ++ [.enabling] }

/-- Observe one byte of the output. -/
def observeByte (entry : ResizeEntry) (byte : UInt8) : ResizeEntry :=
  (entry.hear byte).observe byte

def observeInBandResizeMode (entry : ResizeEntry) (bytes : List UInt8) : ResizeEntry :=
  bytes.foldl observeByte entry

/-- Output reaches the terminal, or waits for it. A disposed entry listens no more. -/
def write (entry : ResizeEntry) (bytes : List UInt8) : ResizeEntry :=
  if entry.disposed then entry
  else if entry.grid.isSome then entry.observeInBandResizeMode bytes
  else { entry with pendingWrites := entry.pendingWrites ++ [bytes] }

/-- The grid becomes what the host's box has room for. -/
def fit (entry : ResizeEntry) (geometry : Geometry) : ResizeEntry :=
  match entry.grid with
  | none => entry
  | some grid =>
    if geometry = grid then entry
    else
      { entry with
        grid := some geometry
        -- A change under the mode is reported when it has been committed.
        inBandResizePending := entry.inBandResizeEnabled || entry.inBandResizePending
        owed := entry.hostEnabled || entry.owed }

/-- The terminal has loaded: what has waited is observed, and the grid is fitted. -/
def boot (entry : ResizeEntry) (initial fitted : Geometry) : ResizeEntry :=
  let booted : ResizeEntry := { entry with grid := some initial, pendingWrites := [] }
  (booted.observeInBandResizeMode entry.pendingWrites.flatten).fit fitted

def commitGeometry (entry : ResizeEntry) (geometry : Geometry) : ResizeEntry :=
  { entry with
    geometryGeneration := entry.geometryGeneration + 1
    geometryChain := entry.geometryChain.push ⟨entry.geometryGeneration + 1, geometry⟩ }

def syncGeometry (entry : ResizeEntry) : ResizeEntry :=
  match entry.grid with
  | none => entry
  | some grid =>
    if entry.opened then entry.commitGeometry grid
    -- Before the open there is no PTY to resize: the last geometry waits.
    else { entry with pendingGeometry := some grid }

/-- The open request has been answered; an open commits its geometry. -/
def openCompleted (entry : ResizeEntry) (geometry : Geometry) (succeeded : Bool) : ResizeEntry :=
  let entry := { entry with opening := .completed }
  if succeeded then
    let entry := { entry with committed := some geometry }
    if entry.disposed then entry
    else
      let entry := { entry with opened := true }
      match entry.pendingGeometry with
      | none => entry
      | some pending => { entry.commitGeometry pending with pendingGeometry := none }
  else entry

def geometryCommitted (entry : ResizeEntry) : ResizeEntry :=
  if entry.inBandResizePending then entry.emitInBandResizeReport .commit else entry

/-- A task of the chain resizes the PTY unless it has been superseded. -/
def starts (entry : ResizeEntry) (resize : Resize) : Bool :=
  !entry.disposed && entry.opened && resize.generation == entry.geometryGeneration

/-- The provider has resized the PTY: the renderer is told if no later resize waits. -/
def committedBy (entry : ResizeEntry) (resize : Resize) : ResizeEntry :=
  let entry := { entry with committed := some resize.geometry }
  if !entry.disposed && resize.generation == entry.geometryGeneration then
    geometryCommitted
      { entry with
        owed := false
        expected := if entry.owed then entry.expected ++ [.commit] else entry.expected }
  else entry

/-- A resize has an outcome. -/
def settle (entry : ResizeEntry) (outcome : Settlement) : Option ResizeEntry :=
  match entry.geometryChain.running with
  | none => none
  | some resize =>
    let entry : ResizeEntry :=
      { entry with geometryChain := { entry.geometryChain with last := outcome, running := none } }
    match outcome with
    -- Nothing was committed; the next resize follows behind the handler.
    | .rejected => some entry
    | .fulfilled => some (entry.committedBy resize)

end ResizeEntry

inductive ResizeEvent
  | output (bytes : List UInt8)
  | boot (initial fitted : Geometry)
  /-- The grid is fitted, and the registry is asked `syncs` times to follow it. -/
  | fit (geometry : Geometry) (syncs : ℕ)
  | openSent
  | openCompleted (succeeded : Bool)
  | dispose
  | react
  | settle (outcome : Settlement)
  deriving DecidableEq, Repr

namespace ResizeEntry

def step (entry : ResizeEntry) : ResizeEvent → Option ResizeEntry
  | .output bytes => some (entry.write bytes)
  | .boot initial fitted =>
    if entry.grid.isSome ∨ entry.disposed then none else some (entry.boot initial fitted)
  -- Whoever changes the grid of a terminal has the registry follow it.
  | .fit geometry syncs =>
    if entry.grid ≠ some geometry ∧ syncs = 0 then none
    else some (syncGeometry^[syncs] (entry.fit geometry))
  | .openSent =>
    match entry.grid, entry.opening with
    | some grid, .waiting => some { entry with opening := .sent (entry.pendingGeometry.getD grid) }
    | _, _ => none
  | .openCompleted succeeded =>
    match entry.opening with
    | .sent geometry => some (entry.openCompleted geometry succeeded)
    | _ => none
  | .dispose => some { entry with disposed := true, grid := none }
  | .react =>
    (entry.geometryChain.react entry.starts).map fun geometryChain => { entry with geometryChain }
  | .settle outcome => entry.settle outcome

end ResizeEntry

/-! ### The protocol of reports -/

/-- The reports are those that are due, one for each enabling and one for each commit of a change,
in this order. Each is sent while the mode is enabled and carries what was committed last. -/
structure InBand (entry : ResizeEntry) : Prop where
  due : entry.reports.map (·.cause) = entry.expected
  enabled : ∀ report ∈ entry.reports, report.enabled = true
  committed : ∀ report ∈ entry.reports, report.committed = some report.geometry

/-- No group is too long, and where a byte enables the mode the grid is the one that was committed
last, with no change on its way. -/
def Answerable (entry : ResizeEntry) : List UInt8 → Prop
  | [] => True
  | byte :: bytes =>
    entry.host.Fits byte ∧
      ((entry.host.read unbounded byte).2 = some .enable →
        entry.owed = false ∧ entry.grid.isSome ∧ entry.committed = entry.grid) ∧
      Answerable (entry.observeByte byte) bytes

instance (modes : ModeParser) (byte : UInt8) : Decidable (modes.Fits byte) :=
  inferInstanceAs (Decidable (_ → _))

instance decidableAnswerable :
    ∀ (entry : ResizeEntry) (bytes : List UInt8), Decidable (Answerable entry bytes)
  | _, [] => isTrue trivial
  | entry, byte :: bytes =>
    have := decidableAnswerable (entry.observeByte byte) bytes
    inferInstanceAs (Decidable (_ ∧ _ ∧ _))

/-- The output that is observed in a step is answerable. -/
def Admits (entry : ResizeEntry) : ResizeEvent → Prop
  | .output bytes => entry.disposed = false → entry.grid.isSome → Answerable entry bytes
  | .boot initial _ =>
    Answerable { entry with grid := some initial, pendingWrites := [] } entry.pendingWrites.flatten
  | _ => True

instance (entry : ResizeEntry) : ∀ event, Decidable (Admits entry event)
  | .output _ => inferInstanceAs (Decidable (_ → _))
  | .boot _ _ => inferInstanceAs (Decidable (Answerable _ _))
  | .fit _ _ => isTrue trivial
  | .openSent => isTrue trivial
  | .openCompleted _ => isTrue trivial
  | .dispose => isTrue trivial
  | .react => isTrue trivial
  | .settle _ => isTrue trivial

/-! ### Observing output -/

/-- The renderer's state of the mode is the host's, and its pending report is the one owed. -/
structure Tracks (entry : ResizeEntry) : Prop where
  heard : entry.modes = entry.host
  enabled : entry.inBandResizeEnabled = entry.hostEnabled
  pending : entry.inBandResizePending = entry.owed
  owing : entry.owed = true → entry.hostEnabled = true
  inBand : InBand entry

/-- The registry's part of an entry, with the grid and the last commit. -/
def registry (entry : ResizeEntry) : ResizeEntry :=
  { grid := entry.grid, opened := entry.opened, disposed := entry.disposed
    pendingGeometry := entry.pendingGeometry, geometryGeneration := entry.geometryGeneration
    geometryChain := entry.geometryChain, committed := entry.committed }

/-- The renderer's part of an entry, with what the host has said and what is due. -/
def reporting (entry : ResizeEntry) : ResizeEntry :=
  { modes := entry.modes, host := entry.host, inBandResizeEnabled := entry.inBandResizeEnabled
    hostEnabled := entry.hostEnabled, inBandResizePending := entry.inBandResizePending
    owed := entry.owed, expected := entry.expected, reports := entry.reports }

section Observing

variable {entry : ResizeEntry} {byte : UInt8}

theorem Tracks.of_reporting {entry' : ResizeEntry} (h : Tracks entry)
    (heq : reporting entry' = reporting entry) : Tracks entry' := by
  have hmodes : entry'.modes = entry.modes := congrArg (·.modes) heq
  have hhost : entry'.host = entry.host := congrArg (·.host) heq
  have henabled : entry'.inBandResizeEnabled = entry.inBandResizeEnabled :=
    congrArg (·.inBandResizeEnabled) heq
  have hhostEnabled : entry'.hostEnabled = entry.hostEnabled := congrArg (·.hostEnabled) heq
  have hpending : entry'.inBandResizePending = entry.inBandResizePending :=
    congrArg (·.inBandResizePending) heq
  have howed : entry'.owed = entry.owed := congrArg (·.owed) heq
  have hexpected : entry'.expected = entry.expected := congrArg (·.expected) heq
  have hreports : entry'.reports = entry.reports := congrArg (·.reports) heq
  refine ⟨?_, ?_, ?_, ?_, ?_, ?_, ?_⟩
  · rw [hmodes, hhost, h.heard]
  · rw [henabled, hhostEnabled, h.enabled]
  · rw [hpending, howed, h.pending]
  · rw [howed, hhostEnabled]
    exact h.owing
  · rw [hreports, hexpected, h.inBand.due]
  · rw [hreports]
    exact h.inBand.enabled
  · rw [hreports]
    exact h.inBand.committed

theorem InBand.report (h : InBand entry) (cause : Cause) (grid : Geometry) :
    InBand { entry with
      expected := entry.expected ++ [cause]
      reports := entry.reports ++ [⟨cause, grid, some grid, true⟩] } := by
  refine ⟨?_, ?_, ?_⟩
  · simp [h.due]
  · intro report hreport
    rcases List.mem_append.mp hreport with hold | hnew
    · exact h.enabled report hold
    · obtain rfl := List.mem_singleton.mp hnew
      rfl
  · intro report hreport
    rcases List.mem_append.mp hreport with hold | hnew
    · exact h.committed report hold
    · obtain rfl := List.mem_singleton.mp hnew
      rfl

theorem registry_observeByte (entry : ResizeEntry) (byte : UInt8) :
    registry (entry.observeByte byte) = registry entry := by
  have hhear : registry (entry.hear byte) = registry entry := by
    unfold ResizeEntry.hear
    dsimp only
    split <;> rfl
  rw [← hhear, ResizeEntry.observeByte]
  generalize entry.hear byte = entry
  unfold ResizeEntry.observe
  dsimp only
  split
  · rfl
  · rfl
  · unfold ResizeEntry.emitInBandResizeReport
    dsimp only
    split
    · rfl
    · rw [if_pos rfl]
      rfl

theorem registry_observeInBandResizeMode (entry : ResizeEntry) (bytes : List UInt8) :
    registry (entry.observeInBandResizeMode bytes) = registry entry :=
  foldl_view registry registry_observeByte bytes entry

/-- An answerable byte is answered at once. -/
theorem Tracks.observeByte (h : Tracks entry) (hfits : entry.host.Fits byte)
    (henable : (entry.host.read unbounded byte).2 = some .enable →
      entry.owed = false ∧ entry.grid.isSome ∧ entry.committed = entry.grid) :
    Tracks (entry.observeByte byte) := by
  have hread : entry.modes.read kept byte = entry.host.read unbounded byte := by
    rw [h.heard, read_kept hfits]
  cases hchange : entry.host.read unbounded byte with
  | mk host change =>
    rw [hchange] at hread henable
    cases change with
    | none =>
      have hbyte : entry.observeByte byte = { entry with host, modes := host } := by
        simp only [ResizeEntry.observeByte, ResizeEntry.hear, ResizeEntry.observe, hchange, hread]
      rw [hbyte]
      exact ⟨rfl, h.enabled, h.pending, h.owing, h.inBand.due, h.inBand.enabled,
        h.inBand.committed⟩
    | some change =>
      cases change with
      | disable =>
        have hbyte : entry.observeByte byte =
            { entry with
              host, hostEnabled := false, owed := false, modes := host
              inBandResizeEnabled := false, inBandResizePending := false } := by
          simp only [ResizeEntry.observeByte, ResizeEntry.hear, ResizeEntry.observe, hchange, hread]
        rw [hbyte]
        exact ⟨rfl, rfl, rfl, nofun, h.inBand.due, h.inBand.enabled, h.inBand.committed⟩
      | enable =>
        obtain ⟨howed, hsome, hcommitted⟩ := henable rfl
        obtain ⟨grid, hgrid⟩ := Option.isSome_iff_exists.mp hsome
        rw [hgrid] at hcommitted
        have hbyte : entry.observeByte byte =
            { entry with
              host, hostEnabled := true, expected := entry.expected ++ [.enabling]
              modes := host, inBandResizeEnabled := true, inBandResizePending := false
              reports := entry.reports ++ [⟨.enabling, grid, some grid, true⟩] } := by
          simp only [ResizeEntry.observeByte, ResizeEntry.hear, ResizeEntry.observe, hchange,
            hread, ResizeEntry.emitInBandResizeReport, hgrid, hcommitted, if_true]
        have hreport := h.inBand.report .enabling grid
        rw [hbyte]
        exact ⟨rfl, rfl, howed.symm, fun _ => rfl, hreport.due, hreport.enabled,
          hreport.committed⟩

theorem Tracks.observeInBandResizeMode {bytes : List UInt8} (h : Tracks entry)
    (hanswerable : Answerable entry bytes) : Tracks (entry.observeInBandResizeMode bytes) := by
  induction bytes generalizing entry with
  | nil => exact h
  | cons byte bytes ih =>
    obtain ⟨hfits, henable, hrest⟩ := hanswerable
    exact ih (h.observeByte hfits henable) hrest

end Observing

/-! ### Following the grid -/

/-- All resizes of the chain that have no outcome yet. -/
def resizes (entry : ResizeEntry) : List Resize :=
  entry.geometryChain.running.toList ++ entry.geometryChain.tasks

/-- What of an entry does not depend on the grid: a chain is there only once the terminal is
open, and no resize is later than the last one. -/
structure Orderly (entry : ResizeEntry) : Prop where
  guarded : entry.geometryChain.Guarded
  idle : entry.opened = false → resizes entry = []
  flushed : entry.opened = true → entry.pendingGeometry = none
  bound : ∀ resize ∈ resizes entry, resize.generation ≤ entry.geometryGeneration

/-- The last resize, or the one that waits for the open, is to the current grid. -/
structure Follows (entry : ResizeEntry) : Prop where
  orderly : Orderly entry
  waits : ∀ geometry, entry.pendingGeometry = some geometry →
    entry.grid = some geometry ∨ entry.disposed = true
  current : ∀ resize ∈ resizes entry, resize.generation = entry.geometryGeneration →
    entry.grid = some resize.geometry ∨ entry.disposed = true

section Following

variable {entry : ResizeEntry}

theorem Follows.of_registry {entry' : ResizeEntry} (h : Follows entry)
    (heq : registry entry' = registry entry) : Follows entry' := by
  have hgrid : entry'.grid = entry.grid := congrArg (·.grid) heq
  have hopened : entry'.opened = entry.opened := congrArg (·.opened) heq
  have hdisposed : entry'.disposed = entry.disposed := congrArg (·.disposed) heq
  have hpending : entry'.pendingGeometry = entry.pendingGeometry :=
    congrArg (·.pendingGeometry) heq
  have hgeneration : entry'.geometryGeneration = entry.geometryGeneration :=
    congrArg (·.geometryGeneration) heq
  have hchain : entry'.geometryChain = entry.geometryChain := congrArg (·.geometryChain) heq
  have hresizes : resizes entry' = resizes entry := by rw [resizes, resizes, hchain]
  refine ⟨⟨?_, ?_, ?_, ?_⟩, ?_, ?_⟩
  · rw [hchain]
    exact h.orderly.guarded
  · rw [hopened, hresizes]
    exact h.orderly.idle
  · rw [hopened, hpending]
    exact h.orderly.flushed
  · rw [hresizes, hgeneration]
    exact h.orderly.bound
  · rw [hpending, hgrid, hdisposed]
    exact h.waits
  · rw [hresizes, hgeneration, hgrid, hdisposed]
    exact h.current

/-- Resizes may leave the chain. -/
theorem Follows.of_subset (h : Follows entry) {geometryChain : PromiseChain Resize}
    (hguarded : geometryChain.Guarded)
    (hsub : ∀ resize ∈ geometryChain.running.toList ++ geometryChain.tasks,
      resize ∈ resizes entry) : Follows { entry with geometryChain } := by
  refine ⟨⟨hguarded, fun hclosed => ?_, h.orderly.flushed, ?_⟩, h.waits, ?_⟩
  · refine List.eq_nil_iff_forall_not_mem.mpr fun resize hresize => ?_
    have hmem := hsub resize hresize
    rw [h.orderly.idle hclosed] at hmem
    exact nomatch hmem
  · exact fun resize hresize => h.orderly.bound resize (hsub resize hresize)
  · exact fun resize hresize => h.current resize (hsub resize hresize)

theorem resizes_commitGeometry (entry : ResizeEntry) (geometry : Geometry) :
    resizes (entry.commitGeometry geometry) =
      resizes entry ++ [⟨entry.geometryGeneration + 1, geometry⟩] := by
  simp [resizes, ResizeEntry.commitGeometry]

theorem Orderly.bound_commitGeometry (h : Orderly entry) (geometry : Geometry) :
    ∀ resize ∈ resizes (entry.commitGeometry geometry),
      resize.generation ≤ entry.geometryGeneration + 1 := by
  rw [resizes_commitGeometry]
  intro resize hresize
  rcases List.mem_append.mp hresize with hold | hnew
  · exact Nat.le_succ_of_le (h.bound resize hold)
  · obtain rfl := List.mem_singleton.mp hnew
    exact Nat.le_refl _

/-- A resize to the current grid supersedes those before. -/
theorem Orderly.commitGeometry (h : Orderly entry) {geometry : Geometry}
    (hopened : entry.opened = true) : Orderly (entry.commitGeometry geometry) := by
  refine ⟨h.guarded.push _, fun hclosed => ?_, h.flushed, h.bound_commitGeometry geometry⟩
  exact absurd (hopened.symm.trans hclosed) (by decide)

theorem Orderly.current_commitGeometry (h : Orderly entry) {geometry : Geometry}
    (hgrid : entry.grid = some geometry ∨ entry.disposed = true) :
    ∀ resize ∈ resizes (entry.commitGeometry geometry),
      resize.generation = entry.geometryGeneration + 1 →
      entry.grid = some resize.geometry ∨ entry.disposed = true := by
  rw [resizes_commitGeometry]
  intro resize hresize hgeneration
  rcases List.mem_append.mp hresize with hold | hnew
  · have hle := h.bound resize hold
    omega
  · obtain rfl := List.mem_singleton.mp hnew
    exact hgrid

/-- The registry follows whatever the grid has become. -/
theorem Orderly.syncGeometry (h : Orderly entry) (hnone : entry.grid = none → Follows entry) :
    Follows entry.syncGeometry := by
  unfold ResizeEntry.syncGeometry
  split
  · next hgrid => exact hnone hgrid
  · next grid hgrid =>
    split
    · next hopened =>
      refine ⟨h.commitGeometry hopened, fun geometry hgeometry => ?_,
        h.current_commitGeometry (Or.inl hgrid)⟩
      exact absurd (hgeometry.symm.trans (h.flushed hopened)) nofun
    · next hclosed =>
      have hidle := h.idle (by simpa using hclosed)
      have hflushed : entry.opened = true → (some grid : Option Geometry) = none :=
        fun hopened => absurd hopened hclosed
      refine ⟨⟨h.guarded, h.idle, hflushed, h.bound⟩, fun geometry hgeometry => ?_, ?_⟩
      · obtain rfl := Option.some.inj hgeometry
        exact Or.inl hgrid
      · intro resize hresize
        change resize ∈ resizes entry at hresize
        rw [hidle] at hresize
        simp at hresize

theorem Follows.syncGeometry (h : Follows entry) : Follows entry.syncGeometry :=
  h.orderly.syncGeometry fun _ => h

theorem Follows.iterate_syncGeometry (h : Follows entry) (syncs : ℕ) :
    Follows (ResizeEntry.syncGeometry^[syncs] entry) := by
  induction syncs generalizing entry with
  | zero => exact h
  | succ syncs ih =>
    rw [Function.iterate_succ_apply]
    exact ih h.syncGeometry

end Following

/-! ### Steps -/

/-- The renderer tracks the mode, and the registry follows the grid. -/
structure Sound (entry : ResizeEntry) : Prop where
  tracks : Tracks entry
  follows : Follows entry

section Steps

variable {entry next : ResizeEntry}

theorem sound_initial : Sound {} where
  tracks := ⟨rfl, rfl, rfl, nofun, rfl, nofun, nofun⟩
  follows := ⟨⟨PromiseChain.guarded_default, fun _ => rfl, nofun, nofun⟩, nofun, nofun⟩

theorem Tracks.fit (h : Tracks entry) (geometry : Geometry) : Tracks (entry.fit geometry) := by
  unfold ResizeEntry.fit
  split
  · exact h
  · split
    · exact h
    · refine ⟨h.heard, h.enabled, ?_, fun howed => ?_, h.inBand.due, h.inBand.enabled,
        h.inBand.committed⟩
      · dsimp only
        rw [h.enabled, h.pending]
      · rcases Bool.or_eq_true_iff.mp howed with henabled | howed
        · exact henabled
        · exact h.owing howed

theorem Tracks.of_syncGeometry (h : Tracks entry) : Tracks entry.syncGeometry := by
  unfold ResizeEntry.syncGeometry
  split
  · exact h
  · split
    · exact h.of_reporting rfl
    · exact h.of_reporting rfl

theorem Tracks.iterate_syncGeometry (h : Tracks entry) (syncs : ℕ) :
    Tracks (ResizeEntry.syncGeometry^[syncs] entry) := by
  induction syncs generalizing entry with
  | zero => exact h
  | succ syncs ih =>
    rw [Function.iterate_succ_apply]
    exact ih h.of_syncGeometry

theorem Orderly.fit (h : Orderly entry) (geometry : Geometry) : Orderly (entry.fit geometry) := by
  unfold ResizeEntry.fit
  split
  · exact h
  · split
    · exact h
    · exact ⟨h.guarded, h.idle, h.flushed, h.bound⟩

/-- A grid that is fitted is followed at once. -/
theorem Sound.fit (h : Sound entry) {geometry : Geometry} {syncs : ℕ}
    (hsyncs : ¬ (entry.grid ≠ some geometry ∧ syncs = 0)) :
    Sound (ResizeEntry.syncGeometry^[syncs] (entry.fit geometry)) := by
  refine ⟨(h.tracks.fit geometry).iterate_syncGeometry syncs, ?_⟩
  by_cases hgrid : entry.grid = some geometry
  · have hsame : entry.fit geometry = entry := by
      rw [ResizeEntry.fit, hgrid]
      exact if_pos rfl
    rw [hsame]
    exact h.follows.iterate_syncGeometry syncs
  · obtain ⟨syncs, rfl⟩ := Nat.exists_eq_succ_of_ne_zero fun hzero => hsyncs ⟨hgrid, hzero⟩
    rw [Function.iterate_succ_apply]
    refine ((h.follows.orderly.fit geometry).syncGeometry fun hnone => ?_).iterate_syncGeometry _
    -- Without a terminal nothing is fitted.
    cases hold : entry.grid with
    | none =>
      have hsame : entry.fit geometry = entry := by rw [ResizeEntry.fit, hold]
      rw [hsame]
      exact h.follows
    | some grid =>
      rw [ResizeEntry.fit, hold] at hnone
      dsimp only at hnone
      split at hnone
      · exact absurd (hold.symm.trans hnone) nofun
      · cases hnone

/-- Before the terminal boots, no resize and no geometry waits. -/
theorem Sound.boot (h : Sound entry) {initial fitted : Geometry} (hgrid : entry.grid = none)
    (hdisposed : entry.disposed = false)
    (hanswerable : Answerable { entry with grid := some initial, pendingWrites := [] }
      entry.pendingWrites.flatten) : Sound (entry.boot initial fitted) := by
  have hnever : ∀ {geometry : Geometry},
      ¬ (entry.grid = some geometry ∨ entry.disposed = true) := by
    rintro geometry (hsome | hgone)
    · exact absurd (hgrid.symm.trans hsome) nofun
    · exact absurd (hdisposed.symm.trans hgone) nofun
  have hfollows : ∀ grid, Follows { entry with grid := some grid, pendingWrites := [] } := by
    intro grid
    refine ⟨⟨h.follows.orderly.guarded, h.follows.orderly.idle, h.follows.orderly.flushed,
      h.follows.orderly.bound⟩, fun geometry hgeometry => ?_, fun resize hresize hlast => ?_⟩
    · exact absurd (h.follows.waits geometry hgeometry) hnever
    · exact absurd (h.follows.current resize hresize hlast) hnever
  have htracks : Tracks { entry with grid := some initial, pendingWrites := [] } :=
    h.tracks.of_reporting rfl
  have hobserved := htracks.observeInBandResizeMode hanswerable
  refine ⟨hobserved.fit fitted, ?_⟩
  have hregistry := registry_observeInBandResizeMode
    { entry with grid := some initial, pendingWrites := [] } entry.pendingWrites.flatten
  unfold ResizeEntry.boot
  dsimp only
  generalize ResizeEntry.observeInBandResizeMode _ _ = observed at hregistry ⊢
  unfold ResizeEntry.fit
  split
  · exact (hfollows initial).of_registry hregistry
  · split
    · exact (hfollows initial).of_registry hregistry
    · refine (hfollows fitted).of_registry ?_
      simp only [registry, ResizeEntry.mk.injEq] at hregistry ⊢
      simp [hregistry]

theorem Sound.openCompleted (h : Sound entry) (geometry : Geometry) (succeeded : Bool) :
    Sound (entry.openCompleted geometry succeeded) := by
  obtain ⟨htracks, horderly, hwaits, hcurrent⟩ := h
  unfold ResizeEntry.openCompleted
  dsimp only
  split
  · split
    · exact ⟨htracks.of_reporting rfl,
        ⟨horderly.guarded, horderly.idle, horderly.flushed, horderly.bound⟩, hwaits, hcurrent⟩
    · split
      · next hnone =>
        exact ⟨htracks.of_reporting rfl,
          ⟨horderly.guarded, nofun, fun _ => hnone, horderly.bound⟩, hwaits, hcurrent⟩
      · next pending hpending =>
        exact ⟨htracks.of_reporting rfl,
          ⟨horderly.guarded.push _, nofun, fun _ => rfl, horderly.bound_commitGeometry pending⟩,
          nofun, horderly.current_commitGeometry (hwaits pending hpending)⟩
  · exact ⟨htracks.of_reporting rfl,
      ⟨horderly.guarded, horderly.idle, horderly.flushed, horderly.bound⟩, hwaits, hcurrent⟩

/-- The commit of the current grid sends the report that is owed, if one is. -/
theorem Tracks.committedBy (h : Tracks entry) {resize : Resize}
    (hcurrent : resize.generation = entry.geometryGeneration →
      entry.grid = some resize.geometry ∨ entry.disposed = true) :
    Tracks (entry.committedBy resize) ∧
      registry (entry.committedBy resize) =
        registry { entry with committed := some resize.geometry } := by
  unfold ResizeEntry.committedBy
  dsimp only
  split
  · next hlast =>
    obtain ⟨hlive, hgeneration⟩ : entry.disposed = false ∧
        resize.generation = entry.geometryGeneration := by simpa using hlast
    have hgrid : entry.grid = some resize.geometry := by
      rcases hcurrent hgeneration with hgrid | hgone
      · exact hgrid
      · exact absurd (hlive.symm.trans hgone) nofun
    unfold ResizeEntry.geometryCommitted
    dsimp only
    split
    · next hpending =>
      have howed : entry.owed = true := h.pending.symm.trans hpending
      have henabled : entry.inBandResizeEnabled = true := h.enabled.trans (h.owing howed)
      have hreport := h.inBand.report .commit resize.geometry
      unfold ResizeEntry.emitInBandResizeReport
      dsimp only
      rw [hgrid]
      dsimp only
      rw [if_pos henabled, if_pos howed, h.owing howed]
      refine ⟨⟨h.heard, h.enabled.trans (h.owing howed), rfl, nofun, hreport.due, hreport.enabled,
        hreport.committed⟩, ?_⟩
      simp [registry]
    · next hpending =>
      have howed : ¬ entry.owed = true := by rwa [← h.pending]
      rw [if_neg howed]
      refine ⟨⟨h.heard, h.enabled, ?_, nofun, h.inBand.due, h.inBand.enabled,
        h.inBand.committed⟩, rfl⟩
      simpa using hpending
  · exact ⟨h.of_reporting rfl, rfl⟩

theorem Sound.settle (h : Sound entry) {outcome : Settlement}
    (hsettle : entry.settle outcome = some next) : Sound next := by
  unfold ResizeEntry.settle at hsettle
  cases hrunning : entry.geometryChain.running with
  | none =>
    rw [hrunning] at hsettle
    cases hsettle
  | some resize =>
    rw [hrunning] at hsettle
    have hguarded : PromiseChain.Guarded
        { entry.geometryChain with last := outcome, running := none } := by
      have hchain : entry.geometryChain.settle outcome =
          some { entry.geometryChain with last := outcome, running := none } := by
        rw [PromiseChain.settle, hrunning]
        rfl
      exact h.follows.orderly.guarded.settle hchain
    have hrun : resize ∈ resizes entry := by simp [resizes, hrunning]
    -- The entry without the resize that has settled.
    generalize hsettled : ({ entry with geometryChain :=
      { entry.geometryChain with last := outcome, running := none } } : ResizeEntry) = settled
      at hsettle
    have hfollows : Follows settled := by
      subst hsettled
      exact h.follows.of_subset hguarded fun other hother => List.mem_append_right _ hother
    have htracks : Tracks settled := by
      subst hsettled
      exact h.tracks.of_reporting rfl
    cases outcome with
    | rejected =>
      cases hsettle
      exact ⟨htracks, hfollows⟩
    | fulfilled =>
      cases hsettle
      have hnow : resize.generation = settled.geometryGeneration →
          settled.grid = some resize.geometry ∨ settled.disposed = true := by
        subst hsettled
        exact h.follows.current resize hrun
      obtain ⟨hcommitted, hregistry⟩ := htracks.committedBy hnow
      have hfollows' : Follows { settled with committed := some resize.geometry } :=
        ⟨⟨hfollows.orderly.guarded, hfollows.orderly.idle, hfollows.orderly.flushed,
          hfollows.orderly.bound⟩, hfollows.waits, hfollows.current⟩
      exact ⟨hcommitted, hfollows'.of_registry hregistry⟩

end Steps

/-! ### Runs -/

section Runs

variable {entry next : ResizeEntry} {event : ResizeEvent} {events : List ResizeEvent}

theorem Sound.step (h : Sound entry) (hadmits : Admits entry event)
    (hstep : entry.step event = some next) : Sound next := by
  cases event with
  | output bytes =>
    cases hstep
    unfold ResizeEntry.write
    split
    · exact h
    · next hlive =>
      split
      · next hgrid =>
        have hanswerable := hadmits (by simpa using hlive) hgrid
        exact ⟨h.tracks.observeInBandResizeMode hanswerable,
          h.follows.of_registry (registry_observeInBandResizeMode entry bytes)⟩
      · exact ⟨h.tracks.of_reporting rfl, h.follows.of_registry rfl⟩
  | boot initial fitted =>
    simp only [ResizeEntry.step] at hstep
    split at hstep
    · cases hstep
    · next hfresh =>
      cases hstep
      obtain ⟨hgrid, hlive⟩ := not_or.mp hfresh
      exact h.boot (by simpa using hgrid) (by simpa using hlive) hadmits
  | fit geometry syncs =>
    simp only [ResizeEntry.step] at hstep
    split at hstep
    · cases hstep
    · next hsyncs =>
      cases hstep
      exact h.fit hsyncs
  | openSent =>
    simp only [ResizeEntry.step] at hstep
    split at hstep
    · cases hstep
      exact ⟨h.tracks.of_reporting rfl, h.follows.of_registry rfl⟩
    · cases hstep
  | openCompleted succeeded =>
    simp only [ResizeEntry.step] at hstep
    split at hstep
    · cases hstep
      exact h.openCompleted _ succeeded
    · cases hstep
  | dispose =>
    cases hstep
    exact ⟨h.tracks.of_reporting rfl,
      ⟨h.follows.orderly.guarded, h.follows.orderly.idle, h.follows.orderly.flushed,
        h.follows.orderly.bound⟩, fun _ _ => Or.inr rfl, fun _ _ _ => Or.inr rfl⟩
  | react =>
    obtain ⟨geometryChain, hchain, rfl⟩ := Option.map_eq_some_iff.mp hstep
    obtain ⟨hguarded, hnone, htasks⟩ := h.follows.orderly.guarded.react hchain
    -- Nothing is in the chain that was not there before.
    have hsub : ∀ resize ∈ geometryChain.running.toList ++ geometryChain.tasks,
        resize ∈ resizes entry := by
      intro resize hresize
      rw [resizes, hnone]
      rcases htasks with ⟨htasks, hrunning⟩ | ⟨task, htasks, hrunning⟩
      · simpa [hrunning, htasks] using hresize
      · rw [htasks]
        rw [hrunning] at hresize
        split at hresize
        · simpa using hresize
        · exact List.mem_append_right _ (List.mem_cons_of_mem _ (by simpa using hresize))
    exact ⟨h.tracks.of_reporting rfl, h.follows.of_subset hguarded hsub⟩
  | settle outcome => exact h.settle hstep

/-- Along a run in which the mode is enabled only while no change of the grid is on its way, the
reports are those that are due, and each carries what the provider has committed last. -/
theorem inBand_of_run (h : Run ResizeEntry.step Admits {} events entry) : InBand entry := by
  have hsound : Sound entry :=
    h.invariant (fun _ _ _ hsound hadmits hstep => hsound.step hadmits hstep) sound_initial
  exact hsound.tracks.inBand

end Runs

/-- A terminal of 24 rows, and one of 30. -/
def lower : Geometry := ⟨24, 80⟩

def higher : Geometry := ⟨30, 80⟩

/-- The mode is enabled in a group and in two pieces; the grid changes behind it, and the first
resize fails. -/
def changeWhileEnabled : List ResizeEvent :=
  [.boot lower lower, .openSent, .openCompleted true,
    .output [0x1b, 0x5b, 0x3f, 0x32, 0x30, 0x30, 0x34, 0x3b],
    .output [0x32, 0x30, 0x34, 0x38, 0x68],
    .fit higher 2, .react, .react, .react, .react, .settle .rejected, .fit higher 1, .react, .react,
    .settle .fulfilled]

theorem inBand_of_run_changeWhileEnabled : ∃ entry,
    Run ResizeEntry.step Admits {} changeWhileEnabled entry ∧
      entry.expected = [.enabling, .commit] ∧ InBand entry := by
  have hreplay : (replay ResizeEntry.step Admits {} changeWhileEnabled).map (·.expected) =
      some [.enabling, .commit] := by
    decide +kernel
  obtain ⟨entry, hentry, hexpected⟩ := Option.map_eq_some_iff.mp hreplay
  have hrun : Run ResizeEntry.step Admits {} changeWhileEnabled entry := run_iff_replay.mpr hentry
  exact ⟨entry, hrun, hexpected, inBand_of_run hrun⟩

/-- The mode is enabled between a change of the grid and its commit. -/
def enabledDuringChange : List ResizeEvent :=
  [.boot lower lower, .openSent, .openCompleted true, .fit higher 1,
    .output [0x1b, 0x5b, 0x3f, 0x32, 0x30, 0x34, 0x38, 0x68]]

/-- The report carries a grid that the provider has not committed. -/
theorem not_inBand_enabledDuringChange : ∃ entry,
    Run ResizeEntry.step Always {} enabledDuringChange entry ∧ ¬ InBand entry := by
  have hreplay : (replay ResizeEntry.step Always {} enabledDuringChange).map (·.reports) =
      some [⟨.enabling, higher, some lower, true⟩] := by
    decide +kernel
  obtain ⟨entry, hentry, hreports⟩ := Option.map_eq_some_iff.mp hreplay
  refine ⟨entry, run_iff_replay.mpr hentry, fun h => ?_⟩
  have hcommitted := h.committed
  rw [hreports] at hcommitted
  exact absurd (hcommitted _ (List.mem_singleton.mpr rfl)) (by decide)

end AgentCockpit.Renderer.InBandResize
