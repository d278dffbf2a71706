import AgentCockpit.Mux.Stream
import Mathlib

/-!
# Terminal modes outside the formatter

`ModeState` holds the terminal state that the VT formatter does not put into its
screen dump. `observe` scans raw PTY output for the escape sequences that change
it and keeps an unfinished sequence for the next read; `prefixBytes` is the part
of an attach seed that restores it. Go strings are byte sequences, so titles,
parameters and flags are `Bytes` here.
-/

namespace AgentCockpit.Mux

/-- The escape byte. -/
def esc : UInt8 := 0x1b

/-- The bell byte, one of the two terminators of an OSC sequence. -/
def bel : UInt8 := 0x07

/-- The ASCII bytes of a text. -/
def ascii (text : String) : Bytes :=
  text.toList.map fun c => UInt8.ofNat c.toNat

/-- The value of a nonempty run of decimal digits. -/
def decimal (digits : Bytes) : Option ℕ :=
  if digits = [] then none
  else digits.foldl (fun value digit =>
    value.bind fun n =>
      if 0x30 ≤ digit ∧ digit ≤ 0x39 then some (10 * n + (digit.toNat - 0x30)) else none) (some 0)

/-- `strconv.Atoi` on a 64-bit platform: an optional sign, decimal digits, and a
range check; every error is `none`. -/
def atoi (text : Bytes) : Option ℤ :=
  match text with
  | [] => none
  | sign :: digits =>
    if sign = 0x2d then
      (decimal digits).bind fun n => if n ≤ 2 ^ 63 then some (-(n : ℤ)) else none
    else
      (decimal (if sign = 0x2b then digits else text)).bind fun n =>
        if n < 2 ^ 63 then some (n : ℤ) else none

/-- The tracked terminal modes. `privateModes` maps a DEC private mode to its last
observed setting. -/
structure ModeState where
  alternateScreen : Bool := false
  bracketedPaste : Bool := false
  privateModes : ℤ → Option Bool := fun _ => none
  insertMode : Bool := false
  scrollRegion : Bytes := []
  cursorShape : Bytes := []
  keypadApp : Bool := false
  title : Bytes := []
  kittyFlags : Bytes := []
  kittyStack : List Bytes := []
  pending : Bytes := []
  savedCursor : Bool := false

namespace ModeState

/-- The bound on retained incomplete bytes. -/
def maxPendingBytes : ℕ := 16 <<< 10

def keepPending (modes : ModeState) (data : Bytes) : ModeState :=
  { modes with pending := data.drop (data.length - maxPendingBytes) }

/-- The index of the terminator of an OSC payload. -/
def oscEnd : Bytes → Option ℕ
  | [] => none
  | byte :: rest =>
    if byte = bel then some 0
    else if byte = esc ∧ rest.head? = some 0x5c then some 0
    else (oscEnd rest).map (· + 1)

def setPrivate (modes : ModeState) (mode : ℤ) (enabled : Bool) : ModeState :=
  let modes := { modes with
    privateModes := fun other => if other = mode then some enabled else modes.privateModes other }
  if mode = 1049 then { modes with alternateScreen := enabled }
  else if mode = 2004 then { modes with bracketedPaste := enabled }
  else modes

/-- The pop loop of the Kitty keyboard stack; the stack's top is the list's last
element. -/
def popKitty (modes : ModeState) : ℕ → ModeState
  | 0 => modes
  | count + 1 =>
    match modes.kittyStack.getLast? with
    | none => modes
    | some flags =>
      popKitty { modes with kittyFlags := flags, kittyStack := modes.kittyStack.dropLast } count

def observeKittyKeyboard (modes : ModeState) (params : Bytes) : ModeState :=
  match params with
  | [] => modes
  | byte :: rest =>
    if byte = 0x3e then
      { modes with kittyStack := modes.kittyStack ++ [modes.kittyFlags], kittyFlags := rest }
    else if byte = 0x3d then { modes with kittyFlags := rest }
    else if byte = 0x3c then
      -- A malformed or nonpositive count pops one entry.
      let count := match atoi rest with
        | some n => if n < 1 then 1 else n.toNat
        | none => 1
      popKitty modes count
    else modes

def observeCSI (modes : ModeState) (params : Bytes) (final : UInt8) : ModeState :=
  let isPrivate := params.head? = some 0x3f
  if final = 0x75 then modes.observeKittyKeyboard params
  else if final = 0x72 ∧ ¬ isPrivate then { modes with scrollRegion := params }
  else if final = 0x71 ∧ params.getLast? = some 0x20 then { modes with cursorShape := params }
  else if final ≠ 0x68 ∧ final ≠ 0x6c then modes
  else
    let enabled := decide (final = 0x68)
    if isPrivate then
      (params.tail.splitOn 0x3b).foldl (fun modes parameter =>
        match atoi parameter with
        | some mode => modes.setPrivate mode enabled
        | none => modes) modes
    else
      (params.splitOn 0x3b).foldl (fun modes parameter =>
        if parameter = ascii "4" then { modes with insertMode := enabled } else modes) modes

def observeOSC (modes : ModeState) (payload : Bytes) : ModeState :=
  let code := payload.takeWhile (· ≠ 0x3b)
  match payload.drop code.length with
  | [] => modes
  | _ :: title => if code = ascii "0" ∨ code = ascii "2" then { modes with title } else modes

/-- A byte that ends a CSI sequence. -/
def isFinal (byte : UInt8) : Bool := decide (0x40 ≤ byte ∧ byte ≤ 0x7e)

/-- The two-byte escapes. -/
def observeEscape (modes : ModeState) (kind : UInt8) : ModeState :=
  if kind = 0x3d then { modes with keypadApp := true }
  else if kind = 0x3e then { modes with keypadApp := false }
  else if kind = 0x37 then { modes with savedCursor := true }
  else if kind = 0x63 then { modes with savedCursor := false }
  else modes

/-- The scanning loop of `observe`, on the bytes not yet consumed. -/
def scan (modes : ModeState) (data : Bytes) : ModeState :=
  match data with
  | [] => modes
  | byte :: rest =>
    if byte ≠ esc then scan modes rest
    else
      match rest with
      | [] => { modes with pending := [byte] }
      | kind :: body =>
        if kind = 0x5b then
          let params := body.takeWhile fun b => ¬ isFinal b
          match _hbody : body.drop params.length with
          | [] => modes.keepPending (byte :: kind :: body)
          | final :: tail => scan (modes.observeCSI params final) tail
        else if kind = 0x5d then
          match oscEnd body with
          | none => modes.keepPending (byte :: kind :: body)
          | some stop =>
            let terminator := if body[stop]? = some bel then 1 else 2
            scan (modes.observeOSC (body.take stop)) (body.drop (stop + terminator))
        else scan (modes.observeEscape kind) body
termination_by data.length
decreasing_by
  · simp
  · have : (final :: tail).length ≤ body.length := by
      rw [← _hbody, List.length_drop]
      omega
    simp only [List.length_cons] at this ⊢
    omega
  · simp only [List.length_cons, List.length_drop]
    omega
  · simp only [List.length_cons]
    omega

/-- Record the mode and title changes of raw PTY output. -/
def observe (modes : ModeState) (data : Bytes) : ModeState :=
  scan { modes with pending := [] } (modes.pending ++ data)

/-- The decimal text of an integer. -/
def decimalBytes (n : ℤ) : Bytes := ascii (toString n)

/-- The DEC private modes a seed restores. -/
def restoredModes : List ℤ := [1, 5, 6, 7, 25, 1000, 1002, 1003, 1004, 1006, 2004]

def privateMode (mode : ℤ) (enabled : Bool) : Bytes :=
  ascii "\x1b[?" ++ decimalBytes mode ++ (if enabled then ascii "h" else ascii "l")

/-- One of the listed private modes in the prefix. A fresh terminal already has
the default false state of every listed mode but autowrap and cursor visibility,
so a reset is emitted for those two only. -/
def restoredMode (modes : ModeState) (mode : ℤ) : Bytes :=
  match modes.privateModes mode with
  | none => []
  | some enabled =>
    if ¬ enabled ∧ mode ≠ 7 ∧ mode ≠ 25 then [] else privateMode mode enabled

/-- An optional text between an introducer and a terminator. -/
def wrapped (introducer text terminator : Bytes) : Bytes :=
  if text = [] then [] else introducer ++ text ++ terminator

/-- The bytes that restore known non-screen state before the formatter seed.
Synchronized output is always disabled. -/
def prefixBytes (modes : ModeState) : Bytes :=
  (if modes.alternateScreen then privateMode 1049 true else []) ++
  restoredModes.flatMap modes.restoredMode ++
  (if modes.insertMode then ascii "\x1b[4h" else []) ++
  wrapped (ascii "\x1b[") modes.scrollRegion (ascii "r") ++
  wrapped (ascii "\x1b[") modes.cursorShape (ascii "q") ++
  (if modes.keypadApp then ascii "\x1b=" else []) ++
  wrapped (ascii "\x1b[=") modes.kittyFlags (ascii "u") ++
  wrapped (ascii "\x1b]2;") modes.title [bel] ++
  ascii "\x1b[?2026l"

end ModeState

end AgentCockpit.Mux
