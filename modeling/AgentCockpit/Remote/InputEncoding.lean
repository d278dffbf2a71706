import AgentCockpit.Core.Runes
import AgentCockpit.Remote.SendKeys

/-!
# Input encoding

Input typed in the renderer is handed over as hex pairs, recognised as such again behind the
boundary, decoded, cut into chunks and written as hex pairs once more. Nothing is lost on the way,
and no chunk ends within a character.
-/

namespace AgentCockpit.Remote

open AgentCockpit.Core

/-! ### Boundaries of chunks -/

theorem isUtf8Continuation_iff (byte : UInt8) :
    isUtf8Continuation byte = true ↔ Utf8.IsContinuation byte := by
  have hall : ∀ number < 256, isUtf8Continuation (UInt8.ofNat number) =
      decide (0x80 ≤ number ∧ number < 0xC0) := by
    decide +kernel
  have hbyte := hall byte.toNat byte.toNat_lt
  rw [UInt8.ofNat_toNat] at hbyte
  rw [hbyte, decide_eq_true_iff, Utf8.IsContinuation]

/-- A chunk ends between characters exactly if no continuation byte stands behind it. -/
theorem boundary_iff {bytes : List UInt8} {stop : ℕ} :
    Utf8.Boundary bytes stop ↔ (bytes[stop]?).any isUtf8Continuation = false := by
  rw [Utf8.Boundary]
  cases hbyte : bytes[stop]? with
  | none => simp
  | some byte =>
    rw [Option.any_some, ← Bool.not_eq_true, isUtf8Continuation_iff]
    constructor
    · intro h
      exact h byte rfl
    · rintro h other hother
      obtain rfl := Option.some.inj hother
      exact h

theorem backUp_le (bytes : List UInt8) (stop : ℕ) : backUp bytes stop ≤ stop := by
  induction stop with
  | zero => exact Nat.le_refl 0
  | succ last ih =>
    rw [backUp]
    split
    · exact Nat.le_succ_of_le ih
    · exact Nat.le_refl _

/-- The boundary is not moved back past one between characters. -/
theorem le_backUp {bytes : List UInt8} {position stop : ℕ} (h : Utf8.Boundary bytes position)
    (hle : position ≤ stop) : position ≤ backUp bytes stop := by
  induction stop with
  | zero => exact hle
  | succ last ih =>
    rw [backUp]
    split
    · next hback =>
      apply ih
      have hne : position ≠ last + 1 := by
        rintro rfl
        rw [boundary_iff, hback.2] at h
        exact Bool.noConfusion h
      omega
    · exact hle

/-- The boundary that was found lies between characters, unless it is the least one possible. -/
theorem boundary_backUp {bytes : List UInt8} {stop : ℕ} (h : 0 < stop) :
    backUp bytes stop = 1 ∨ Utf8.Boundary bytes (backUp bytes stop) := by
  induction stop with
  | zero => exact absurd h (Nat.lt_irrefl 0)
  | succ last ih =>
    rw [backUp]
    split
    · next hback => exact ih hback.1
    · next hstay =>
      by_cases hfirst : last = 0
      · left
        rw [hfirst]
      · right
        rw [boundary_iff, ← Bool.not_eq_true]
        exact fun hany => hstay ⟨Nat.pos_of_ne_zero hfirst, hany⟩

/-- On valid bytes, a chunk of four bytes or more can always end between characters. -/
theorem boundary_backUp_of_valid {bytes : List UInt8} {max : ℕ} (hmax : 4 ≤ max)
    (hne : bytes ≠ []) (hvalid : Utf8.Valid bytes) :
    Utf8.Boundary bytes (backUp bytes (min max bytes.length)) := by
  have hpos : 0 < bytes.length := List.length_pos_iff.mpr hne
  -- The first character ends within the chunk, or with the bytes.
  obtain ⟨position, hzero, hfour, hposition⟩ : ∃ position, 0 < position ∧
      position ≤ min max bytes.length ∧ Utf8.Boundary bytes position := by
    obtain ⟨position, hzero, hfour, hposition⟩ := Utf8.exists_boundary hvalid hne
    by_cases hwithin : position ≤ bytes.length
    · exact ⟨position, hzero, by omega, hposition⟩
    · refine ⟨bytes.length, hpos, by omega, fun byte hbyte => ?_⟩
      simp at hbyte
  have hreach := le_backUp hposition hfour
  have hstop : 0 < min max bytes.length := by omega
  rcases @boundary_backUp bytes _ hstop with hone | hboundary
  · -- Only one byte is left: the boundary at or below it is this very position.
    have heq : position = 1 := by omega
    rwa [hone, ← heq]
  · exact hboundary

/-! ### Chunks -/

theorem mem_chunksFrom {max : ℕ+} {fuel : ℕ} {bytes chunk : List UInt8}
    (h : chunk ∈ chunksFrom max fuel bytes) : chunk ≠ [] ∧ chunk.length ≤ max ∧
      (4 ≤ (max : ℕ) → Utf8.Valid bytes → Utf8.Valid chunk) := by
  induction fuel generalizing bytes with
  | zero => simp [chunksFrom] at h
  | succ fuel ih =>
    cases bytes with
    | nil => simp [chunksFrom] at h
    | cons byte bytes =>
      have hpos : 0 < backUp (byte :: bytes) (min max (byte :: bytes).length) :=
        backUp_pos (lt_min max.pos (Nat.succ_pos _))
      have hle := backUp_le (byte :: bytes) (min max (byte :: bytes).length)
      have hne : byte :: bytes ≠ [] := List.cons_ne_nil _ _
      rw [chunksFrom] at h
      · rcases List.mem_cons.mp h with rfl | hrest
        · refine ⟨?_, ?_, fun hmax hvalid => ?_⟩
          · rw [← List.length_pos_iff, List.length_take]
            omega
          · rw [List.length_take]
            omega
          · exact Utf8.valid_take hvalid (boundary_backUp_of_valid hmax hne hvalid)
        · obtain ⟨hchunk, hbound, hvalid⟩ := ih hrest
          exact ⟨hchunk, hbound, fun hmax hbytes =>
            hvalid hmax (Utf8.valid_drop hbytes (boundary_backUp_of_valid hmax hne hbytes))⟩
      · exact hne

/-- Each chunk holds at least one byte and no more than allowed, and is valid where the input
is. -/
theorem mem_chunkBytesForSendKeys {max : ℕ+} {bytes chunk : List UInt8}
    (h : chunk ∈ chunkBytesForSendKeys bytes max) : chunk ≠ [] ∧ chunk.length ≤ max ∧
      (4 ≤ (max : ℕ) → Utf8.Valid bytes → Utf8.Valid chunk) := by
  unfold chunkBytesForSendKeys at h
  split at h
  · simp at h
  · next hne =>
    split at h
    · next hfits =>
      obtain rfl := List.mem_singleton.mp h
      exact ⟨hne, hfits, fun _ hvalid => hvalid⟩
    · exact mem_chunksFrom h

/-! ### Handing input over -/

/-- What the renderer has been given: text, or bytes. -/
inductive InputData
  | text (units : List UInt16)
  | bytes (bytes : List UInt8)
  deriving DecidableEq, Repr

/-- `TextEncoder.encode`: an unpaired surrogate is encoded as a replacement character. -/
def utf8Encode (units : List UInt16) : List UInt8 := Utf8.encode (Utf16.decode units)

/-- The bytes that are meant. -/
def InputData.utf8 : InputData → List UInt8
  | .text units => utf8Encode units
  | .bytes content => content

/-- The commands for input from the renderer, which crosses the boundary as hex pairs. -/
def sendInput (paneId : String) (data : InputData) : List SendKeys :=
  buildSendKeysCommands paneId (.text (String.ofList (toHex data.utf8)))

/-- No bytes are no text, which is not taken for hex pairs but encoded, as nothing. -/
theorem toInputBytes_toHex_utf8 (bytes : List UInt8) :
    toInputBytes (.text (String.ofList (toHex bytes))) = bytes := by
  by_cases hempty : bytes = []
  · subst hempty
    simp [toInputBytes, toHex, isHex]
  · exact toInputBytes_toHex hempty

theorem flatMap_bytes_sendInput (paneId : String) (data : InputData) :
    (sendInput paneId data).flatMap (·.bytes) = data.utf8 := by
  rw [sendInput, flatMap_bytes_buildSendKeysCommands, toInputBytes_toHex_utf8]

/-- The chunks make up the bytes and keep to the bound and to characters; the commands for any input
hold exactly its bytes, in order. -/
theorem input_lossless (bytes : List UInt8) (max : ℕ+) (hmax : 4 ≤ (max : ℕ)) (paneId : String)
    (data : InputData) :
    (chunkBytesForSendKeys bytes max).flatten = bytes ∧
      (∀ chunk ∈ chunkBytesForSendKeys bytes max, chunk ≠ [] ∧ chunk.length ≤ max ∧
        (Utf8.Valid bytes → Utf8.Valid chunk)) ∧
      (sendInput paneId data).flatMap (·.bytes) = data.utf8 := by
  refine ⟨flatten_chunkBytesForSendKeys bytes max, fun chunk hchunk => ?_,
    flatMap_bytes_sendInput paneId data⟩
  obtain ⟨hne, hbound, hvalid⟩ := mem_chunkBytesForSendKeys hchunk
  exact ⟨hne, hbound, hvalid hmax⟩

/-- Six bytes of `aé€` in chunks of at most four, and a line feed as input. -/
theorem input_lossless_cut :
    chunkBytesForSendKeys [0x61, 0xC3, 0xA9, 0xE2, 0x82, 0xAC] 4 =
        [[0x61, 0xC3, 0xA9], [0xE2, 0x82, 0xAC]] ∧
      (chunkBytesForSendKeys [0x61, 0xC3, 0xA9, 0xE2, 0x82, 0xAC] 4).flatten =
        [0x61, 0xC3, 0xA9, 0xE2, 0x82, 0xAC] ∧
      (sendInput "%1" (.text [0x0A])).flatMap (·.bytes) = (InputData.text [0x0A]).utf8 := by
  obtain ⟨hflat, -, hinput⟩ := input_lossless [0x61, 0xC3, 0xA9, 0xE2, 0x82, 0xAC] 4
    (by decide) "%1" (.text [0x0A])
  exact ⟨by decide, hflat, hinput⟩

end AgentCockpit.Remote
