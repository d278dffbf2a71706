import AgentCockpit.Callback.Protocol

/-!
# Strings and numbers under both libraries

Each check of the shared protocol module on a string or a number says on what `JSON.parse` makes of
it what the check of the helper says on what the helper's library makes of it. A string that has an
unpaired surrogate is another one for the helper; still it has as many units, and as many bytes,
and the same ASCII characters, and that is all the checks ask for.
-/

namespace AgentCockpit.Callback

open AgentCockpit.Core

/-- Both strings are the same text. -/
def SameText (js : JsString) (go : GoString) : Prop :=
  ∃ text, Utf16.encode text = js ∧ Utf8.encode text = go

variable (string : JsString)

/-! ### Strings -/

theorem runes_goUnquote : Utf8.runes (goUnquote string) = Utf16.decode string :=
  Utf8.runes_encode _

/-- A string is the same text for both sides exactly if it has no unpaired surrogate. -/
theorem sameText_goUnquote_iff : SameText string (goUnquote string) ↔ Utf16.Paired string := by
  constructor
  · rintro ⟨text, rfl, -⟩
    exact Utf16.paired_encode text
  · intro h
    exact ⟨Utf16.decode string, (Utf16.encode_decode_iff string).mpr h, rfl⟩

theorem goUnquote_units (word : Word) : goUnquote word.units = word.bytes := by
  rw [goUnquote, Word.units, Utf16.decode_encode, Word.bytes]

theorem goUnquote_eq_bytes_iff (word : Word) :
    goUnquote string = word.bytes ↔ string = word.units := by
  rw [goUnquote, Word.bytes, Utf8.encode_injective.eq_iff]
  exact Utf16.decode_eq_iff word.ascii string

theorem goUnquote_eq_nil_iff : goUnquote string = [] ↔ string = [] := by
  rw [goUnquote, ← Utf16.decode_eq_nil_iff string]
  exact Utf8.encode_injective.eq_iff (b := [])

theorem length_encodeChar (c : Char) :
    (Utf16.encodeChar c).length = if 0x10000 ≤ c.toNat then 2 else 1 := by
  by_cases h : c.toNat < 0x10000
  · rw [Utf16.encodeChar, if_pos h, if_neg (by omega)]
    rfl
  · rw [Utf16.encodeChar, if_neg h, if_pos (by omega)]
    rfl

theorem utf16Len_goUnquote : Helper.utf16Len (goUnquote string) = string.length := by
  have hlength := Utf16.length_encode_decode string
  rw [Utf16.encode, List.length_flatMap] at hlength
  rw [Helper.utf16Len, runes_goUnquote, ← hlength]
  simp only [length_encodeChar]

theorem hasControlChars_goUnquote :
    Helper.hasControlChars (goUnquote string) = string.any Shared.isControlChar := by
  have hascii : ∀ number, (number ≤ 0x1f ∨ number = 0x7f) → number < 0x80 := by omega
  have hiff := Utf16.exists_mem_decode_iff hascii string
  rw [Helper.hasControlChars, runes_goUnquote, Bool.eq_iff_iff, List.any_eq_true, List.any_eq_true]
  simpa [Shared.isControlChar] using hiff

theorem isPaneID_goUnquote : Helper.isPaneID (goUnquote string) = true ↔
    0 < string.length ∧ string.length ≤ maxPaneIdChars ∧ ¬ string.any Shared.isControlChar := by
  rw [Helper.isPaneID, utf16Len_goUnquote, hasControlChars_goUnquote]
  simp [and_assoc]

theorem isCallbackOp_goUnquote :
    Helper.isCallbackOp (goUnquote string) = Shared.isCallbackOp string := by
  rw [Helper.isCallbackOp, Shared.isCallbackOp, Bool.eq_iff_iff, List.any_eq_true, List.any_eq_true]
  simp only [beq_iff_eq, goUnquote_eq_bytes_iff]

/-- An ASCII unit stands first exactly if its byte does. -/
theorem head_goUnquote_iff :
    (goUnquote string).head? = some 0x2F ↔ string.head? = some 0x2F := by
  have hascii : ∀ number, number = 0x2F → number < 0x80 := by omega
  have hiff := (Utf8.head_encode_iff hascii (Utf16.decode string)).trans
    (Utf16.head_decode_iff hascii string)
  have hbyte (byte : UInt8) : byte.toNat = 0x2F ↔ byte = 0x2F := UInt8.toNat_inj (b := 0x2F)
  have hunit (unit : UInt16) : unit.toNat = 0x2F ↔ unit = 0x2F := UInt16.toNat_inj (b := 0x2F)
  rw [goUnquote]
  simpa [hbyte, hunit] using hiff

theorem zero_mem_goUnquote_iff : 0 ∈ goUnquote string ↔ 0 ∈ string := by
  have hascii : ∀ number, number = 0 → number < 0x80 := by omega
  have hiff := (Utf8.exists_mem_encode_iff hascii (Utf16.decode string)).trans
    (Utf16.exists_mem_decode_iff hascii string)
  have hbyte (byte : UInt8) : byte.toNat = 0 ↔ byte = 0 := UInt8.toNat_inj (b := 0)
  have hunit (unit : UInt16) : unit.toNat = 0 ↔ unit = 0 := UInt16.toNat_inj (b := 0)
  rw [goUnquote]
  simpa [hbyte, hunit] using hiff

/-! ### Numbers -/

/-- What both sides take for a safe integer of a number of the document. -/
theorem jsSafeInteger_eq_some_iff (value : Document) (n : ℤ) :
    Helper.jsSafeInteger (goValue value) = some n ↔
      ∃ decimal double, value = .number decimal ∧ decimal.toDouble = some double ∧
        Shared.isSafeInteger double ∧ double = n := by
  unfold Helper.jsSafeInteger goValue Shared.isSafeInteger
  rw [JsonValue.asNumber_map, Option.map_id']
  cases hnumber : value.asNumber with
  | none =>
    refine iff_of_false nofun ?_
    rintro ⟨decimal, double, rfl, -⟩
    exact absurd hnumber nofun
  | some decimal =>
    obtain rfl := JsonValue.asNumber_eq_some.mp hnumber
    dsimp only
    cases hdouble : decimal.toDouble with
    | none =>
      refine iff_of_false nofun ?_
      rintro ⟨_, double, ⟨⟩, hdouble', -⟩
      rw [hdouble] at hdouble'
      exact nomatch hdouble'
    | some double =>
      dsimp only
      by_cases hsafe : double = trunc double ∧ |double| ≤ (maxSafeInteger : ℚ)
      · rw [if_neg (by rw [not_or, not_not, not_lt]; exact hsafe), Option.some_inj]
        constructor
        · rintro rfl
          exact ⟨decimal, double, rfl, hdouble, hsafe, hsafe.1⟩
        · rintro ⟨_, _, ⟨⟩, hdouble', -, hn⟩
          rw [hdouble] at hdouble'
          obtain rfl := Option.some.inj hdouble'
          exact_mod_cast hsafe.1.symm.trans hn
      · rw [if_pos (by rwa [← not_le, ← not_and_or])]
        refine iff_of_false nofun ?_
        rintro ⟨_, _, ⟨⟩, hdouble', hsafe', -⟩
        rw [hdouble] at hdouble'
        obtain rfl := Option.some.inj hdouble'
        exact hsafe hsafe'

/-- Both sides ask for the same protocol version. -/
theorem jsSafeInteger_eq_version_iff (value : Option Document) :
    Helper.jsSafeInteger (goValue (value.getD .null)) = some (callbackProtocolVersion : ℤ) ↔
      (value.map jsonParse).bind JsonValue.asNumber =
        some (some (callbackProtocolVersion : ℚ)) := by
  cases value with
  | none => exact iff_of_false nofun nofun
  | some value =>
    rw [Option.getD_some, jsSafeInteger_eq_some_iff, Option.map_some, Option.bind_some, jsonParse,
      JsonValue.asNumber_map, Option.map_eq_some_iff]
    constructor
    · rintro ⟨decimal, double, rfl, hdouble, -, hversion⟩
      refine ⟨decimal, rfl, ?_⟩
      rw [hdouble, hversion]
      rfl
    · rintro ⟨decimal, hdecimal, hdouble⟩
      refine ⟨decimal, _, JsonValue.asNumber_eq_some.mp hdecimal, hdouble, ?_, by norm_cast⟩
      decide +kernel

/-- Both sides read the same id. -/
theorem requestId_eq (value : Option Document) :
    Shared.requestId (value.map jsonParse) = Helper.requestId (goValue (value.getD .null)) := by
  cases value with
  | none => exact Int.cast_zero.symm
  | some value =>
    rw [Option.getD_some, Option.map_some, Helper.requestId, Shared.requestId, Option.bind_some,
      jsonParse, JsonValue.asNumber_map]
    cases hinteger : Helper.jsSafeInteger (goValue value) with
    | some n =>
      obtain ⟨decimal, double, rfl, hdouble, hsafe, rfl⟩ :=
        (jsSafeInteger_eq_some_iff value n).mp hinteger
      simp only [JsonValue.asNumber, Option.map_some, hdouble, hsafe, true_and]
      by_cases hpos : 1 ≤ n
      · rw [if_pos hpos, if_pos (by exact_mod_cast hpos)]
      · rw [if_neg hpos, if_neg (by exact_mod_cast hpos), Int.cast_zero]
    | none =>
      cases hnumber : value.asNumber with
      | none => exact Int.cast_zero.symm
      | some decimal =>
        cases hdouble : decimal.toDouble with
        | none =>
          simp only [Option.map_some, hdouble]
          exact Int.cast_zero.symm
        | some double =>
          have hrange : ¬ Shared.isSafeInteger double := by
            intro hsafe
            have hinteger' := (jsSafeInteger_eq_some_iff value (trunc double)).mpr
              ⟨decimal, double, JsonValue.asNumber_eq_some.mp hnumber, hdouble, hsafe, hsafe.1⟩
            rw [hinteger] at hinteger'
            cases hinteger'
          simp only [Option.map_some, hdouble, hrange, false_and, if_false]
          exact Int.cast_zero.symm

theorem le_of_jsSafeInteger {value : GoValue} {n : ℤ}
    (h : Helper.jsSafeInteger value = some n) : n ≤ maxSafeInteger := by
  unfold Helper.jsSafeInteger at h
  cases hnumber : value.asNumber with
  | none =>
    rw [hnumber] at h
    exact nomatch h
  | some number =>
    rw [hnumber] at h
    dsimp only at h
    cases hdouble : number.toDouble with
    | none =>
      rw [hdouble] at h
      exact nomatch h
    | some double =>
      rw [hdouble] at h
      dsimp only at h
      split_ifs at h with hrange
      obtain rfl := Option.some.inj h
      rw [not_or, not_not, not_lt] at hrange
      have hle := (le_abs_self double).trans hrange.2
      rw [hrange.1] at hle
      exact_mod_cast hle

/-- An id that was accepted is a safe integer. -/
theorem requestId_bounds {value : GoValue} (h : Helper.requestId value ≠ 0) :
    1 ≤ Helper.requestId value ∧ Helper.requestId value ≤ maxSafeInteger := by
  unfold Helper.requestId at h ⊢
  cases hinteger : Helper.jsSafeInteger value with
  | none =>
    rw [hinteger] at h
    exact absurd rfl h
  | some n =>
    rw [hinteger] at h
    dsimp only at h ⊢
    by_cases hpos : 1 ≤ n
    · rw [if_pos hpos]
      exact ⟨hpos, le_of_jsSafeInteger hinteger⟩
    · exact absurd (if_neg hpos) h

end AgentCockpit.Callback
