import AgentCockpit.Core.Effect
import AgentCockpit.Mux.Modes
import AgentCockpit.Mux.PrimaryMirror

/-!
# The PTY pipeline

Every PTY read takes two paths: it is forwarded unchanged to the live stream, and
it is fed to the authoritative terminal, the primary-screen mirror and the mode
tracker. An attach resizes the terminals and the PTY, then builds a seed under the
stream's output barrier.

`Display` is everything a seed is built from. A `PtyRead` carries what the
environment decides in one call of `pump`: the bytes and the error of the PTY, and
the outcome of every call of the archive hook and of the recorder hook.
-/

namespace AgentCockpit.Mux

open AgentCockpit.Core

/-- The terminal state behind a pane. -/
structure Display (T : Type*) where
  shadow : T
  primary : Option T
  modes : ModeState := {}
  primaryMirror : PrimaryMirror := {}
  cols : ℕ := 80
  rows : ℕ := 24
  cellWidth : ℕ := 0
  cellHeight : ℕ := 0

/-- The dual path of one pane. -/
structure Pipeline (T : Type*) extends Display T where
  stream : Stream := {}

/-- One call of `ReadLive` and the hook calls made while its bytes are processed:
`archiveHook k` and `recorderHook k` are the outcomes of the `k`-th call of
`OnPrimaryFeed` and of `OnOutput`. -/
structure PtyRead where
  data : Bytes
  err : Option String := none
  archiveHook : Hook := fun _ => none
  recorderHook : Hook := fun _ => none

/-- What `pump` returns, next to the pipeline it leaves behind. -/
structure PumpResult (T : Type*) where
  pipeline : Pipeline T
  output : Output
  err : Option String

variable {T : Type*} (ghostty : Ghostty T)

namespace Display

/-- The primary-mirror part of `pump`. -/
def feedPrimary (display : Display T) (archiveHook : Hook) (data : Bytes) :
    Display T × Option String :=
  match display.primary with
  | none => (display, none)
  | some primary =>
    let result := display.primaryMirror.feedWithHook ghostty archiveHook primary data
    ({ display with primary := some result.primary, primaryMirror := result.mirror }, result.err)

/-- The number of archive-hook calls that processing `data` makes. -/
def archiveCalls (display : Display T) (data : Bytes) : ℕ :=
  match display.primary with
  | none => 0
  | some primary => (display.primaryMirror.feedNoHook ghostty primary data).calls

/-- The effect of output bytes on the terminal state. -/
def feed (display : Display T) (data : Bytes) : Display T :=
  let display := { display with shadow := ghostty.write display.shadow data }
  let display := (display.feedPrimary ghostty (fun _ => none) data).1
  { display with modes := display.modes.observe data }

/-- Bring the terminals and the PTY to one geometry. A client without pixel
dimensions keeps the last real renderer geometry. `paneResize` is the error of the
PTY's own resize. -/
def resizeLocked (display : Display T) (paneResize : Option String)
    (cols rows cellWidth cellHeight : ℕ) : Display T × Option String :=
  let (cellWidth, cellHeight) :=
    if cellWidth = 0 ∨ cellHeight = 0 then (display.cellWidth, display.cellHeight)
    else (cellWidth, cellHeight)
  let (shadow, shadowErr) := ghostty.resize display.shadow cols rows cellWidth cellHeight
  let display := { display with shadow }
  match shadowErr with
  | some err => (display, some err)
  | none =>
    let (primary, primaryErr) : Option T × Option String :=
      match display.primary with
      | none => (none, none)
      | some primary =>
        let (primary, err) := ghostty.resize primary cols rows cellWidth cellHeight
        (some primary, err)
    let display := { display with primary }
    match primaryErr with
    | some err => (display, some err)
    | none =>
      match paneResize with
      | some err => (display, some ("resize pane before seed: " ++ err))
      | none => ({ display with cols, rows, cellWidth, cellHeight }, none)

/-- The primary screen in front of a seed: only when the application is on the
alternate one, and with its saved cursor when the mirror tracked one. -/
def primarySeed (display : Display T) : Except String Bytes :=
  match display.primary with
  | none => pure []
  | some primary =>
    if display.modes.alternateScreen then do
      let current ← ghostty.format primary
      if display.primaryMirror.savedCursor then
        let saved ← ghostty.savedCursorSeed primary
        let current' ← ghostty.format primary
        pure (current ++ saved ++ ascii "\x1b7" ++ current')
      else pure current
    else pure []

/-- The saved cursor behind a seed, followed by the screen `altSeed` again. -/
def savedSeed (display : Display T) (altSeed : Bytes) : Except String Bytes :=
  if display.modes.savedCursor then do
    let saved ← ghostty.savedCursorSeed display.shadow
    pure (saved ++ ascii "\x1b7" ++ altSeed)
  else pure []

/-- The text and graphics an attach replays. -/
def seedBytes (display : Display T) : Except String (Bytes × Bytes) := do
  let altSeed ← ghostty.format display.shadow
  let primary ← display.primarySeed ghostty
  let saved ← display.savedSeed ghostty altSeed
  let graphics ← ghostty.graphicsSeed display.shadow
  pure (primary ++ display.modes.prefixBytes ++ altSeed ++ saved, graphics)

/-- `display` is a terminal state that, started from `start`, has processed exactly
`bytes`, in some reads and with some geometry changes between them. -/
inductive Reflects (start : Display T) : Bytes → Display T → Prop
  | start : Reflects start [] start
  | feed {bytes : Bytes} {display : Display T} (h : Reflects start bytes display)
      (data : Bytes) : Reflects start (bytes ++ data) (display.feed ghostty data)
  | resize {bytes : Bytes} {display : Display T} (h : Reflects start bytes display)
      (paneResize : Option String) (cols rows cellWidth cellHeight : ℕ) :
      Reflects start bytes
        (display.resizeLocked ghostty paneResize cols rows cellWidth cellHeight).1

theorem graphicsSeed_of_seedBytes {display : Display T} {data graphics : Bytes}
    (h : display.seedBytes ghostty = .ok (data, graphics)) :
    ghostty.graphicsSeed display.shadow = .ok graphics := by
  obtain ⟨altSeed, -, h⟩ := bind_eq_ok h
  obtain ⟨primary, -, h⟩ := bind_eq_ok h
  obtain ⟨saved, -, h⟩ := bind_eq_ok h
  obtain ⟨graphics', hgraphics, h⟩ := bind_eq_ok h
  obtain ⟨-, rfl⟩ := Prod.mk.inj (Except.ok.inj h)
  exact hgraphics

theorem feed_shadow (display : Display T) (data : Bytes) :
    (display.feed ghostty data).shadow = ghostty.write display.shadow data := by
  simp only [feed, feedPrimary]
  split <;> rfl

theorem feedPrimary_err_iff (display : Display T) (archiveHook : Hook) (data : Bytes) :
    (display.feedPrimary ghostty archiveHook data).2 = none ↔
      ∀ k, k < display.archiveCalls ghostty data → archiveHook k = none := by
  unfold feedPrimary archiveCalls
  split
  · simp
  · exact PrimaryMirror.feedWithHook_err_iff ghostty _ _ data

/-- A mirror feed none of whose hook calls fails is the feed without a hook. -/
theorem feedPrimary_eq {display : Display T} {archiveHook : Hook} {data : Bytes}
    (herr : (display.feedPrimary ghostty archiveHook data).2 = none) :
    display.feedPrimary ghostty archiveHook data =
      display.feedPrimary ghostty (fun _ => none) data := by
  unfold feedPrimary at herr ⊢
  split at herr
  · rfl
  · rw [PrimaryMirror.feedWithHook_eq ghostty herr, PrimaryMirror.feedNoHook]

end Display

namespace Pipeline

/-- The loop over the chunks of one read: report the first chunk that the recorder
hook rejects. -/
def recordOutputs (recorderHook : Hook) : List Output → ℕ → Option (Output × String)
  | [], _ => none
  | output :: rest, call =>
    match recorderHook call with
    | some err => some (output, err)
    | none => recordOutputs recorderHook rest (call + 1)

/-- Process one read of the PTY. -/
def pump (pipeline : Pipeline T) (read : PtyRead) : PumpResult T :=
  if read.data = [] then ⟨pipeline, ⟨0, []⟩, read.err⟩
  else
    let display := { pipeline.toDisplay with shadow := ghostty.write pipeline.shadow read.data }
    match display.feedPrimary ghostty read.archiveHook read.data with
    | (display, some err) => ⟨{ pipeline with toDisplay := display }, ⟨0, []⟩, some err⟩
    | (display, none) =>
      let display := { display with modes := display.modes.observe read.data }
      let (stream, outputs) := pipeline.stream.append read.data
      match recordOutputs read.recorderHook outputs 0 with
      | some (output, err) => ⟨⟨display, stream⟩, output, some err⟩
      | none => ⟨⟨display, stream⟩, outputs.getLast?.getD ⟨0, []⟩, read.err⟩

/-- Resize, then build a seed under the output barrier. -/
def attach (pipeline : Pipeline T) (paneResize : Option String)
    (cols rows cellWidth cellHeight : ℕ) : Pipeline T × Except String Seed :=
  match pipeline.resizeLocked ghostty paneResize cols rows cellWidth cellHeight with
  | (display, some err) => ({ pipeline with toDisplay := display }, .error err)
  | (display, none) =>
    let pipeline := { pipeline with toDisplay := display }
    (pipeline, pipeline.stream.snapshotWithGraphics (pipeline.seedBytes ghostty))

/-- Resize between attaches, keeping the cell geometry. -/
def resize (pipeline : Pipeline T) (paneResize : Option String) (cols rows : ℕ) :
    Pipeline T × Option String :=
  let (display, err) := pipeline.resizeLocked ghostty paneResize cols rows pipeline.cellWidth
    pipeline.cellHeight
  ({ pipeline with toDisplay := display }, err)

/-- The pipeline after the bytes of a read took both paths. -/
def deliver (pipeline : Pipeline T) (data : Bytes) : Pipeline T :=
  ⟨pipeline.toDisplay.feed ghostty data, (pipeline.stream.append data).1⟩

/-- No archive-hook call that processing the read makes fails. -/
def ArchiveSucceeds (pipeline : Pipeline T) (read : PtyRead) : Prop :=
  ∀ k, k < pipeline.archiveCalls ghostty read.data → read.archiveHook k = none

/-- No recorder-hook call, one for each chunk of the read, fails. -/
def RecorderSucceeds (pipeline : Pipeline T) (read : PtyRead) : Prop :=
  ∀ k, k < (pipeline.stream.append read.data).2.length → read.recorderHook k = none

theorem recordOutputs_eq_none_iff (recorderHook : Hook) (outputs : List Output) (call : ℕ) :
    recordOutputs recorderHook outputs call = none ↔
      ∀ k, k < outputs.length → recorderHook (call + k) = none := by
  induction outputs generalizing call with
  | nil => simp [recordOutputs]
  | cons output rest ih =>
    rw [recordOutputs]
    cases hcall : recorderHook call with
    | some err =>
      refine iff_of_false (by simp) fun hall => ?_
      have := hall 0 (Nat.zero_lt_succ _)
      rw [Nat.add_zero, hcall] at this
      exact nomatch this
    | none =>
      simp only [ih]
      constructor
      · rintro hall (_ | k) hk
        · exact hcall
        · rw [← Nat.succ_add_eq_add_succ]
          exact hall k (Nat.lt_of_succ_lt_succ hk)
      · intro hall k hk
        rw [Nat.succ_add_eq_add_succ]
        exact hall (k + 1) (Nat.succ_lt_succ hk)

/-- Everything a call of `pump` can do. Nothing was read; or an archive-hook call
fails, the pump reports it and the bytes never reach the stream; or the bytes take
both paths, and the pump reports the recorder's error if there is one, and
otherwise the error of the PTY. -/
theorem pump_cases (pipeline : Pipeline T) (read : PtyRead) :
    (read.data = [] ∧ (pipeline.pump ghostty read).pipeline = pipeline ∧
      (pipeline.pump ghostty read).err = read.err) ∨
    (read.data ≠ [] ∧ ¬ pipeline.ArchiveSucceeds ghostty read ∧
      (pipeline.pump ghostty read).pipeline.stream = pipeline.stream ∧
      (pipeline.pump ghostty read).err ≠ none) ∨
    (read.data ≠ [] ∧ pipeline.ArchiveSucceeds ghostty read ∧
      (pipeline.pump ghostty read).pipeline = pipeline.deliver ghostty read.data ∧
      ((pipeline.RecorderSucceeds read ∧ (pipeline.pump ghostty read).err = read.err) ∨
        (¬ pipeline.RecorderSucceeds read ∧ (pipeline.pump ghostty read).err ≠ none))) := by
  by_cases hdata : read.data = []
  · exact .inl ⟨hdata, by simp [pump, hdata], by simp [pump, hdata]⟩
  have hfeed := Display.feedPrimary_err_iff ghostty
    { pipeline.toDisplay with shadow := ghostty.write pipeline.shadow read.data }
    read.archiveHook read.data
  change _ ↔ pipeline.ArchiveSucceeds ghostty read at hfeed
  right
  unfold pump
  rw [if_neg hdata]
  dsimp only
  split
  · next display err hresult =>
    rw [hresult] at hfeed
    have harchive : ¬ pipeline.ArchiveSucceeds ghostty read := fun h => nomatch hfeed.mpr h
    exact .inl ⟨hdata, harchive, rfl, by simp⟩
  · next display hresult =>
    have hnone := congrArg Prod.snd hresult
    have hdisplay := (Display.feedPrimary_eq ghostty hnone).symm.trans hresult
    refine .inr ⟨hdata, hfeed.mp hnone, ?_, ?_⟩
    · have : pipeline.toDisplay.feed ghostty read.data =
          { display with modes := display.modes.observe read.data } := by
        simp only [Display.feed, hdisplay]
      rw [deliver, this]
      split <;> rfl
    · have hiff := recordOutputs_eq_none_iff read.recorderHook
        (pipeline.stream.append read.data).2 0
      simp only [Nat.zero_add] at hiff
      change _ ↔ pipeline.RecorderSucceeds read at hiff
      split
      · next output err hrecord =>
        rw [hrecord] at hiff
        exact .inr ⟨fun h => (nomatch hiff.mpr h), by simp⟩
      · next hrecord => exact .inl ⟨hiff.mp hrecord, rfl⟩

variable {paneResize : Option String} {cols rows cellWidth cellHeight : ℕ}

/-- An attach changes the terminal state by its resize, whether or not it succeeds. -/
theorem attach_fst (pipeline : Pipeline T) :
    (pipeline.attach ghostty paneResize cols rows cellWidth cellHeight).1 =
      { pipeline with toDisplay :=
          (pipeline.resizeLocked ghostty paneResize cols rows cellWidth cellHeight).1 } := by
  unfold attach
  split <;> simp only [*]

/-- A seed is built from the resized terminal state and resumes at the next chunk. -/
theorem attach_seed {pipeline : Pipeline T} {seed : Seed}
    (h : (pipeline.attach ghostty paneResize cols rows cellWidth cellHeight).2 = .ok seed) :
    (pipeline.resizeLocked ghostty paneResize cols rows cellWidth cellHeight).1.seedBytes ghostty =
        .ok (seed.data, seed.graphics) ∧
      seed.resumeSequence = pipeline.stream.sequence + 1 := by
  unfold attach at h
  split at h
  · exact nomatch h
  · next display hresize =>
    simp only [Stream.snapshotWithGraphics, hresize] at h ⊢
    cases hseed : display.seedBytes ghostty with
    | error err =>
      rw [hseed] at h
      exact nomatch h
    | ok bytes =>
      rw [hseed] at h
      obtain rfl := Except.ok.inj h
      exact ⟨rfl, rfl⟩

end Pipeline

/-- A terminal engine that keeps the transcript of what it was fed. -/
def transcript : Ghostty Bytes where
  write terminal data := terminal ++ data
  resize terminal _ _ _ _ := (terminal, none)
  format terminal := .ok terminal
  savedCursorSeed terminal := .ok terminal
  graphicsSeed terminal := .ok terminal

/-- A fresh pane over the transcript engine. -/
def blank : Display Bytes := { shadow := [], primary := some [] }

theorem transcript_resize_shadow (display : Display Bytes) (paneResize : Option String)
    (cols rows cellWidth cellHeight : ℕ) :
    (display.resizeLocked transcript paneResize cols rows cellWidth cellHeight).1.shadow =
      display.shadow := by
  simp only [Display.resizeLocked, transcript]
  (repeat' split) <;> simp_all only

/-- The transcript engine shows exactly the bytes a terminal state reflects. -/
theorem transcript_reflects {start display : Display Bytes} {bytes : Bytes}
    (h : Display.Reflects transcript start bytes display) :
    display.shadow = start.shadow ++ bytes := by
  induction h with
  | start => exact (List.append_nil _).symm
  | feed _ data ih =>
    rw [Display.feed_shadow, ← List.append_assoc, ← ih]
    rfl
  | resize _ paneResize cols rows cellWidth cellHeight ih =>
    rw [transcript_resize_shadow, ih]

/-- One byte is read while the history archive is broken. -/
def archiveFailure : PtyRead :=
  { data := [0x41], archiveHook := fun _ => some "append mux history archive" }

theorem not_archiveSucceeds_archiveFailure :
    ¬ (⟨blank, {}⟩ : Pipeline Bytes).ArchiveSucceeds transcript archiveFailure := by
  intro h
  have hcalls : 0 < (⟨blank, {}⟩ : Pipeline Bytes).archiveCalls transcript archiveFailure.data := by
    simp [archiveFailure, Display.archiveCalls, blank, PrimaryMirror.feedNoHook,
      PrimaryMirror.feedWithHook, PrimaryMirror.feedLoop, PrimaryMirror.feed,
      PrimaryMirror.feedPieces, bytesIndex, switchOn, PrimaryMirror.heldSuffix,
      PrimaryMirror.archiveObservationChunk]
  cases h 0 hcalls

end AgentCockpit.Mux
