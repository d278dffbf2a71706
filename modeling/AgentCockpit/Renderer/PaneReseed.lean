import AgentCockpit.Remote.TmuxControl

/-!
# A hard re-seed of a control-mode pane

A re-seed asks for the captured lines of its pane and, when they have come, clears the terminal and
writes them. Meanwhile the output of the pane goes to the terminal through a filter that takes
window titles out of it. The manager emits the notifications of a chunk while it parses the chunk,
and a command resolves only behind them, so output that follows the reply within its chunk is
written before the terminal is cleared.

One channel is modelled, with any commands beside the re-seeds, which come one at a time. Of a
title only the bytes are modelled that the filter takes out.

## Main results

* `complete_iff_undisturbed` — **a re-seed loses no output exactly in undisturbed runs**
-/

namespace AgentCockpit.Renderer

open AgentCockpit.Core AgentCockpit.Remote

/-! ### Output of a pane -/

def isOctalDigit (c : Char) : Bool := '0' ≤ c ∧ c ≤ '7'

def octalByte (digits : Text) : UInt8 :=
  UInt8.ofNat (digits.foldl (fun value digit => value * 8 + (digit.toNat - '0'.toNat)) 0)

/-- The bytes of an escaped payload; the first `skip` characters belong to an escape that was
read. -/
def decodeOutput : ℕ → Text → List UInt8
  | _, [] => []
  | skip + 1, _ :: rest => decodeOutput skip rest
  | 0, c :: rest =>
    if c ≠ '\\' then UInt8.ofNat c.toNat :: decodeOutput 0 rest
    else if rest.head? = some '\\' then 0x5c :: decodeOutput 1 rest
    else
      let digits := (rest.take 3).takeWhile isOctalDigit
      if digits = [] then 0x5c :: decodeOutput 0 rest
      else octalByte digits :: decodeOutput digits.length rest

/-- What stands behind the first ` : `. -/
def afterColon : Text → Text
  | [] => []
  | c :: rest =>
    if " : ".toList.isPrefixOf (c :: rest) then rest.drop 2 else afterColon rest

/-- The pane and the bytes of an output notification. -/
def outputOf (line : Text) : Option (Text × List UInt8) :=
  let tag := line.takeWhile (· ≠ ' ')
  let rest := (line.dropWhile (· ≠ ' ')).drop 1
  let paneId := rest.takeWhile (· ≠ ' ')
  let payload := (rest.dropWhile (· ≠ ' ')).drop 1
  if tag = "%output".toList then some (paneId, decodeOutput 0 payload)
  else if tag = "%extended-output".toList then
    some (paneId, decodeOutput 0 (afterColon payload))
  else none

/-- The bytes that a notification brings for a pane. -/
def paneBytes (paneId : Text) : TmuxNotification → List UInt8
  | .other line =>
    match outputOf line with
    | some (pane, bytes) => if pane = paneId then bytes else []
    | none => []
  | _ => []

/-- The bytes that notifications bring for a pane. -/
def paneOutput (paneId : Text) (notifications : List TmuxNotification) : List UInt8 :=
  notifications.flatMap (paneBytes paneId)

/-! ### The title filter -/

inductive TitleSkipState
  | normal | esc | skip | skipEsc
  deriving DecidableEq

/-- One byte: the next state and what is let through. -/
def titleStep : TitleSkipState → UInt8 → TitleSkipState × List UInt8
  | .normal, byte => if byte = 0x1b then (.esc, []) else (.normal, [byte])
  | .esc, byte =>
    if byte = 0x6b then (.skip, [])
    else if byte = 0x1b then (.esc, [])
    else (.normal, [0x1b, byte])
  | .skip, byte => if byte = 0x1b then (.skipEsc, []) else (.skip, [])
  | .skipEsc, byte =>
    if byte = 0x5c then (.normal, [])
    else if byte = 0x1b then (.skipEsc, [])
    else (.skip, [])

/-- The bytes of a screen-style title are taken out. -/
def extractScreenTitle : TitleSkipState → List UInt8 → TitleSkipState × List UInt8
  | state, [] => (state, [])
  | state, byte :: input =>
    let (state, first) := titleStep state byte
    let (state, rest) := extractScreenTitle state input
    (state, first ++ rest)

/-! ### The terminal -/

/-- Clear the scrollback and the screen, home the cursor. -/
def clearBeforeSeed : List UInt8 :=
  [0x1b, 0x5b, 0x33, 0x4a, 0x1b, 0x5b, 0x32, 0x4a, 0x1b, 0x5b, 0x48]

/-- White space among the characters of one byte. -/
def isBlank (c : Char) : Bool :=
  c = ' ' ∨ ('\t' ≤ c ∧ c ≤ '\r') ∨ c = '\u00a0'

/-- The captured lines as the terminal gets them: none if all are blank. -/
def seedBytesFromCapture (lines : List Text) : List UInt8 :=
  if lines.any (fun line => ¬ line.all isBlank) then
    (lines.flatMap (· ++ ['\r', '\n'])).map fun c => UInt8.ofNat c.toNat
  else []

/-- The seed reaches as far back as the terminal. -/
def terminalScrollback : ℕ := 10000

def capturePane (paneId : String) : String :=
  "capture-pane -peJ -t " ++ paneId ++ " -S -" ++ Nat.repr terminalScrollback

/-- The manager with the terminal of one pane. -/
structure PaneReseed where
  manager : RemoteTmuxControlManager
  titleSkip : TitleSkipState
  written : List UInt8 := []
  /-- The capture command in flight. -/
  capturing : Option ℕ := none
  /-- The lines that the last re-seed has captured. -/
  captured : Option (List Text) := none
  /-- How much was written when the terminal was cleared last. -/
  clearedAt : ℕ := 0
  /-- The output that the stream has carried since the reply to the last capture command. -/
  carried : List UInt8 := []

inductive ReseedEvent
  | command (args : String) (tolerateErrors : Bool)
  | reseed
  | chunk (text : Text)

section Step

variable (paneId : String)

/-- The notifications behind the one that settles a command. -/
def behind (id : ℕ) : RemoteTmuxControlManager → List TmuxNotification → List TmuxNotification
  | _, [] => []
  | manager, notification :: rest =>
    if ((manager.ingestOne notification).settled.lookup id).isSome then rest
    else behind id (manager.ingestOne notification) rest

namespace PaneReseed

variable (pane : PaneReseed)

/-- Live output goes through the filter to the terminal. -/
def sink (bytes : List UInt8) : PaneReseed :=
  let filtered := extractScreenTitle pane.titleSkip bytes
  { pane with
    titleSkip := filtered.1
    written := pane.written ++ filtered.2
    carried := pane.carried ++ bytes }

/-- The captured lines replace what the terminal shows. -/
def seed (lines : List Text) (carried : List UInt8) : PaneReseed :=
  { pane with
    written := pane.written ++ clearBeforeSeed ++ seedBytesFromCapture lines
    capturing := none
    captured := some lines
    clearedAt := (pane.written ++ clearBeforeSeed).length
    carried }

/-- The notifications of a chunk. -/
def notifications (text : Text) : List TmuxNotification :=
  (pane.manager.parser.feed text).2

/-- How the capture command in flight has settled after a chunk. -/
def outcome (text : Text) : Option Outcome :=
  pane.capturing.bind fun id => (pane.manager.ingest text).settled.lookup id

/-- What the stream carries behind the reply to the capture command, within the same chunk. -/
def carriedBehind (text : Text) : List UInt8 :=
  pane.capturing.elim [] fun id =>
    paneOutput paneId.toList (behind id pane.manager (pane.notifications text))

/-- A chunk: its output reaches the terminal before a command resolves. -/
def receive (text : Text) : PaneReseed :=
  let sunk := { pane.sink (paneOutput paneId.toList (pane.notifications text)) with
    manager := pane.manager.ingest text }
  match pane.outcome text with
  | none => sunk
  | some (.rejected _) => { sunk with capturing := none }
  | some (.resolved reply) => sunk.seed reply.lines (pane.carriedBehind paneId text)

/-- The capture command is sent. It is rejected at once if there is no channel. -/
def reseed : PaneReseed :=
  let id := pane.manager.nextCommand
  { pane with
    manager := pane.manager.command (capturePane paneId) true
    capturing := if pane.manager.channel.isSome then some id else none }

def step (pane : PaneReseed) : ReseedEvent → Option PaneReseed
  | .command args tolerateErrors => some
      { pane with manager := pane.manager.command args tolerateErrors }
  | .reseed => if pane.capturing.isSome then none else some (pane.reseed paneId)
  | .chunk text => some (pane.receive paneId text)

/-- When a re-seed has finished, the terminal was written since it was cleared the captured lines
and the output that the stream has carried behind the reply. -/
def Complete : Prop :=
  ∀ lines, pane.captured = some lines →
    pane.written.drop pane.clearedAt = seedBytesFromCapture lines ++ pane.carried

end PaneReseed

/-- The event leaves the re-seeds complete. -/
def Completes (pane : PaneReseed) (event : ReseedEvent) : Prop :=
  ∀ next, pane.step paneId event = some next → next.Complete

/-- No output of the pane follows the reply to the capture command in its chunk, and after a
re-seed the filter lets all output through as it is. -/
def Undisturbed (pane : PaneReseed) : ReseedEvent → Prop
  | .chunk text =>
    match pane.outcome text with
    | some (.resolved _) => pane.carriedBehind paneId text = []
    | _ => pane.captured.isSome = true →
        (extractScreenTitle pane.titleSkip
          (paneOutput paneId.toList (pane.notifications text))).2 =
            paneOutput paneId.toList (pane.notifications text)
  | _ => True

end Step

/-! ### Complete re-seeds -/

variable {paneId : String} {pane next : PaneReseed} {event : ReseedEvent} {text : Text}

/-- A complete pane that has not been cleared in the future. -/
structure PaneReseed.Sound (pane : PaneReseed) : Prop where
  complete : pane.Complete
  cleared : pane.clearedAt ≤ pane.written.length

namespace PaneReseed.Sound

theorem cleared_step (h : pane.clearedAt ≤ pane.written.length)
    (hstep : pane.step paneId event = some next) : next.clearedAt ≤ next.written.length := by
  cases event with
  | command args tolerateErrors =>
    obtain rfl := Option.some.inj hstep
    exact h
  | reseed =>
    simp only [PaneReseed.step] at hstep
    split at hstep
    · exact nomatch hstep
    · obtain rfl := Option.some.inj hstep
      exact h
  | chunk text =>
    obtain rfl := Option.some.inj hstep
    have hsunk : pane.clearedAt ≤ (pane.sink
        (paneOutput paneId.toList (pane.notifications text))).written.length := by
      rw [sink, List.length_append]
      exact Nat.le_add_right_of_le h
    unfold receive
    dsimp only
    split
    · exact hsunk
    · exact hsunk
    · exact (List.prefix_append _ _).length_le

/-- Live output keeps a re-seed complete if the filter lets it through. -/
theorem complete_sink_iff (h : pane.Sound) (bytes : List UInt8) :
    (pane.sink bytes).Complete ↔
      (pane.captured.isSome = true → (extractScreenTitle pane.titleSkip bytes).2 = bytes) := by
  unfold Complete sink
  dsimp only
  rw [List.drop_append_of_le_length h.cleared]
  constructor
  · intro hcomplete hcaptured
    obtain ⟨lines, hlines⟩ := Option.isSome_iff_exists.mp hcaptured
    have hafter := hcomplete lines hlines
    rw [h.complete lines hlines, List.append_assoc] at hafter
    exact List.append_cancel_left (List.append_cancel_left hafter)
  · intro hkept lines hlines
    rw [h.complete lines hlines, hkept (Option.isSome_of_eq_some hlines), List.append_assoc]

/-- A re-seed is complete at once if nothing was carried behind the reply. -/
theorem complete_seed_iff (lines : List Text) (carried : List UInt8) :
    (pane.seed lines carried).Complete ↔ carried = [] := by
  have hsince : (pane.seed lines carried).written.drop (pane.seed lines carried).clearedAt =
      seedBytesFromCapture lines := List.drop_left
  unfold Complete
  rw [hsince]
  constructor
  · intro hcomplete
    have hsame := hcomplete lines rfl
    exact List.append_right_eq_self.mp hsame.symm
  · rintro hnone other hother
    obtain rfl := Option.some.inj hother
    change _ = _ ++ carried
    rw [hnone, List.append_nil]

theorem completes_iff (h : pane.Sound) : Completes paneId pane event ↔
    Undisturbed paneId pane event := by
  cases event with
  | command args tolerateErrors =>
    refine iff_of_true (fun next hstep => ?_) trivial
    obtain rfl := Option.some.inj hstep
    exact h.complete
  | reseed =>
    refine iff_of_true (fun next hstep => ?_) trivial
    simp only [PaneReseed.step] at hstep
    split at hstep
    · exact nomatch hstep
    · obtain rfl := Option.some.inj hstep
      exact h.complete
  | chunk text =>
    have hchunk : Completes paneId pane (.chunk text) ↔ (pane.receive paneId text).Complete :=
      ⟨fun hcompletes => hcompletes _ rfl,
        fun hcomplete _ hstep => Option.some.inj hstep ▸ hcomplete⟩
    rw [hchunk]
    unfold receive Undisturbed
    dsimp only
    cases houtcome : pane.outcome text with
    | none => exact h.complete_sink_iff _
    | some outcome =>
      cases outcome with
      | rejected message => exact h.complete_sink_iff _
      | resolved reply => exact complete_seed_iff _ _

end PaneReseed.Sound

/-- **A hard re-seed loses no output**: in every state of a run the terminal of a finished re-seed
has the captured lines and all output behind the reply, exactly if the run is undisturbed. -/
theorem complete_iff_undisturbed (paneId : String) (manager : RemoteTmuxControlManager)
    (titleSkip : TitleSkipState) (w : List ReseedEvent) (last : PaneReseed) :
    Run (PaneReseed.step paneId) (Completes paneId) { manager, titleSkip } w last ↔
      Run (PaneReseed.step paneId) (Undisturbed paneId) { manager, titleSkip } w last := by
  refine Run.congr_guard (fun pane event next (h : pane.Sound) hcompletes hstep => ?_)
    (fun pane event h => h.completes_iff) ⟨nofun, Nat.zero_le _⟩
  exact ⟨hcompletes next hstep, PaneReseed.Sound.cleared_step h.cleared hstep⟩

/-- A manager whose channel is open. -/
def openManager : RemoteTmuxControlManager where
  injection := false
  channels := [{ wired := true }]
  channel := some 0
  sawInitialBlock := true

/-- The reply to a capture command, and output of the pane in the same chunk: the output is gone
when the terminal is cleared. -/
theorem reseed_loses_output : ¬ ∀ w last,
    Run (PaneReseed.step "%0") Always { manager := openManager, titleSkip := .normal } w last →
      Run (PaneReseed.step "%0") (Completes "%0")
        { manager := openManager, titleSkip := .normal } w last := by
  intro hclaim
  have hrun : Run (PaneReseed.step "%0") Always { manager := openManager, titleSkip := .normal }
      [.reseed, .chunk "%begin 1 7 1\n$ make\n%end 1 7 1\n%output %0 done\n".toList] _ :=
    .cons trivial rfl (.single trivial rfl)
  cases hclaim _ _ hrun with
  | cons _ hreseed hrest =>
    obtain rfl := Option.some.inj hreseed
    cases hrest with
    | cons hcompletes _ _ =>
      have hcomplete := hcompletes _ rfl ["$ make".toList] (by decide +kernel)
      exact absurd hcomplete (by decide +kernel)

end AgentCockpit.Renderer
