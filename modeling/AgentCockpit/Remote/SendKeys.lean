import AgentCockpit.Remote.ControlParser
import Mathlib.Data.PNat.Defs

/-!
# Input bytes as `send-keys` commands

Input for a pane goes to tmux as hex pairs, a bounded number of bytes in each command. A
boundary is moved back off a UTF-8 continuation byte, so that no codepoint is cut.
-/

namespace AgentCockpit.Remote

/-! ### Hex pairs -/

/-- The two digits of a byte, high half first. -/
def hexPair (byte : UInt8) : Text :=
  [Nat.digitChar (byte.toNat / 16), Nat.digitChar (byte.toNat % 16)]

def toHex (bytes : List UInt8) : Text := [' '].intercalate (bytes.map hexPair)

def isHexDigit (c : Char) : Bool := c.isDigit || ('a' ≤ c && c ≤ 'f')

/-- Hex pairs with one space between them, and at least one pair. -/
def isHex : Text → Bool
  | [high, low] => isHexDigit high && isHexDigit low
  | high :: low :: ' ' :: rest => isHexDigit high && isHexDigit low && isHex rest
  | _ => false

def hexValue (c : Char) : ℕ :=
  if c.isDigit then c.toNat - '0'.toNat else c.toNat - 'a'.toNat + 10

/-- The value of a run of hex digits, cut to a byte. -/
def parseHex (digits : Text) : UInt8 :=
  .ofNat (digits.foldl (fun value digit => 16 * value + hexValue digit) 0)

/-- Read hex pairs; blanks around them are skipped. -/
def fromHex (hex : Text) : List UInt8 := ((hex.splitOn ' ').filter (· ≠ [])).map parseHex

theorem isHexDigit_digitChar : ∀ {n : ℕ}, n < 16 → isHexDigit (Nat.digitChar n) = true := by
  decide

theorem hexValue_digitChar : ∀ {n : ℕ}, n < 16 → hexValue (Nat.digitChar n) = n := by
  decide

theorem byte_halves (byte : UInt8) : byte.toNat / 16 < 16 ∧ byte.toNat % 16 < 16 := by
  have hlt := byte.toNat_lt
  omega

theorem parseHex_hexPair (byte : UInt8) : parseHex (hexPair byte) = byte := by
  obtain ⟨hhigh, hlow⟩ := byte_halves byte
  simp only [parseHex, hexPair, List.foldl_cons, List.foldl_nil, hexValue_digitChar hhigh,
    hexValue_digitChar hlow]
  have hvalue : 16 * (16 * 0 + byte.toNat / 16) + byte.toNat % 16 = byte.toNat := by omega
  rw [hvalue, UInt8.ofNat_toNat]

theorem space_not_mem_hexPair (byte : UInt8) : ' ' ∉ hexPair byte := by
  obtain ⟨hhigh, hlow⟩ := byte_halves byte
  have hdigit : ∀ n < 16, ' ' ≠ Nat.digitChar n := by decide
  simp [hexPair, hdigit _ hhigh, hdigit _ hlow]

/-- Hex pairs read back as the bytes they were written from. -/
theorem fromHex_toHex (bytes : List UInt8) : fromHex (toHex bytes) = bytes := by
  cases bytes with
  | nil => rfl
  | cons byte bytes =>
    have hpairs : ∀ pair ∈ (byte :: bytes).map hexPair, ' ' ∉ pair := by
      intro pair hpair
      obtain ⟨b, -, rfl⟩ := List.mem_map.mp hpair
      exact space_not_mem_hexPair b
    have hfilter : ((byte :: bytes).map hexPair).filter (· ≠ []) = (byte :: bytes).map hexPair := by
      refine List.filter_eq_self.mpr fun pair hpair => ?_
      obtain ⟨b, -, rfl⟩ := List.mem_map.mp hpair
      rfl
    rw [fromHex, toHex, List.splitOn_intercalate _ hpairs (by simp), hfilter, List.map_map]
    exact (List.map_congr_left fun b _ => parseHex_hexPair b).trans (List.map_id _)

theorem isHex_toHex {bytes : List UInt8} (h : bytes ≠ []) : isHex (toHex bytes) = true := by
  induction bytes with
  | nil => exact absurd rfl h
  | cons byte rest ih =>
    obtain ⟨hhigh, hlow⟩ := byte_halves byte
    cases rest with
    | nil =>
      simp [toHex, hexPair, isHex, isHexDigit_digitChar hhigh, isHexDigit_digitChar hlow]
    | cons next rest =>
      have htext : toHex (byte :: next :: rest) =
          Nat.digitChar (byte.toNat / 16) :: Nat.digitChar (byte.toNat % 16) :: ' ' ::
            toHex (next :: rest) := by
        simp [toHex, hexPair, List.intercalate_cons_of_ne_nil]
      have hrest := ih (List.cons_ne_nil _ _)
      rw [htext, isHex, isHexDigit_digitChar hhigh, isHexDigit_digitChar hlow, hrest]
      rfl

/-! ### Chunks -/

/-- The most payload bytes in one command. -/
def maxSendKeysChunkBytes : ℕ+ := 256

def isUtf8Continuation (byte : UInt8) : Bool := byte &&& 0xc0 == 0x80

/-- Move a boundary back off a continuation byte, keeping at least one byte before it. -/
def backUp (bytes : List UInt8) : ℕ → ℕ
  | 0 => 0
  | last + 1 =>
    if 0 < last ∧ (bytes[last + 1]?).any isUtf8Continuation then backUp bytes last else last + 1

/-- Cut chunks off the front; every one takes at least a byte of `fuel`. -/
def chunksFrom (max : ℕ+) : ℕ → List UInt8 → List (List UInt8)
  | 0, _ => []
  | _, [] => []
  | fuel + 1, bytes =>
    let stop := backUp bytes (min max bytes.length)
    bytes.take stop :: chunksFrom max fuel (bytes.drop stop)

def chunkBytesForSendKeys (bytes : List UInt8) (max : ℕ+) : List (List UInt8) :=
  if bytes = [] then []
  else if bytes.length ≤ max then [bytes]
  else chunksFrom max bytes.length bytes

theorem backUp_pos {bytes : List UInt8} {stop : ℕ} (h : 0 < stop) : 0 < backUp bytes stop := by
  induction stop with
  | zero => exact h
  | succ last ih =>
    rw [backUp]
    split
    · next hback => exact ih hback.1
    · exact Nat.succ_pos last

/-- With a byte of fuel for each byte nothing is lost. -/
theorem flatten_chunksFrom (max : ℕ+) {fuel : ℕ} {bytes : List UInt8} (h : bytes.length ≤ fuel) :
    (chunksFrom max fuel bytes).flatten = bytes := by
  induction fuel generalizing bytes with
  | zero =>
    obtain rfl := List.length_eq_zero_iff.mp (Nat.le_zero.mp h)
    rfl
  | succ fuel ih =>
    cases bytes with
    | nil => rfl
    | cons byte bytes =>
      have hpos : 0 < backUp (byte :: bytes) (min max (byte :: bytes).length) :=
        backUp_pos (lt_min max.pos (Nat.succ_pos _))
      rw [chunksFrom, List.flatten_cons, ih, List.take_append_drop]
      · rw [List.length_drop]
        omega
      · exact List.cons_ne_nil _ _

/-- The chunks make up the input. -/
theorem flatten_chunkBytesForSendKeys (bytes : List UInt8) (max : ℕ+) :
    (chunkBytesForSendKeys bytes max).flatten = bytes := by
  unfold chunkBytesForSendKeys
  split
  · next hempty => exact hempty.symm
  · split
    · exact List.append_nil bytes
    · exact flatten_chunksFrom max (Nat.le_refl _)

/-! ### Commands -/

/-- What `input` accepts: text, which may be hex pairs, or bytes. -/
inductive PaneInput
  | text (text : String)
  | bytes (bytes : List UInt8)
  deriving DecidableEq

/-- Hex pairs are decoded, other text is encoded as UTF-8. -/
def toInputBytes : PaneInput → List UInt8
  | .bytes bytes => bytes
  | .text text => if isHex text.toList then fromHex text.toList else text.toUTF8.toList

/-- A `send-keys -H` command. -/
structure SendKeys where
  paneId : String
  hex : Text
  deriving DecidableEq

/-- The bytes that the pane receives. -/
def SendKeys.bytes (command : SendKeys) : List UInt8 := fromHex command.hex

def sendKeysHex (paneId : String) (chunk : List UInt8) : SendKeys := ⟨paneId, toHex chunk⟩

def buildSendKeysCommands (paneId : String) (input : PaneInput) : List SendKeys :=
  (chunkBytesForSendKeys (toInputBytes input) maxSendKeysChunkBytes).map (sendKeysHex paneId)

/-- Hex pairs handed to `input` are the bytes they were written from. -/
theorem toInputBytes_toHex {bytes : List UInt8} (h : bytes ≠ []) :
    toInputBytes (.text (String.ofList (toHex bytes))) = bytes := by
  rw [toInputBytes, String.toList_ofList, if_pos (isHex_toHex h), fromHex_toHex]

/-- The commands carry the input, in order. -/
theorem flatMap_bytes_buildSendKeysCommands (paneId : String) (input : PaneInput) :
    (buildSendKeysCommands paneId input).flatMap (·.bytes) = toInputBytes input := by
  rw [buildSendKeysCommands, List.flatMap_map, List.flatMap_congr (g := id), List.flatMap_id,
    flatten_chunkBytesForSendKeys]
  exact fun chunk _ => fromHex_toHex chunk

theorem toInputBytes_ne_nil {paneId : String} {input : PaneInput}
    (h : buildSendKeysCommands paneId input ≠ []) : toInputBytes input ≠ [] := by
  intro hempty
  rw [buildSendKeysCommands, hempty] at h
  exact h rfl

theorem paneId_of_mem_buildSendKeysCommands {paneId : String} {input : PaneInput}
    {command : SendKeys} (h : command ∈ buildSendKeysCommands paneId input) :
    command.paneId = paneId := by
  obtain ⟨chunk, -, rfl⟩ := List.mem_map.mp h
  rfl

end AgentCockpit.Remote
