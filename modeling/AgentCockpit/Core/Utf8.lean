import Mathlib.Data.List.Basic
import Mathlib.Tactic.Ring

/-!
# UTF-8 with replacement

Text is encoded as UTF-8 and decoded again by a machine that reads byte by byte. What is not UTF-8
is decoded as well: the machine puts a replacement character for each sequence of bytes that starts
a character and does not go on as one, and then reads the byte that broke it off as a first byte.
So an ASCII byte is never lost, and an automaton that does not tell characters beyond ASCII apart
ends in the same state on the bytes as on the decoded text.
-/

namespace AgentCockpit.Core.Utf8

/-- The bytes of a text. -/
def encode (text : List Char) : List UInt8 := text.flatMap String.utf8EncodeChar

def replacement : Char := '\uFFFD'

/-- A character of which some bytes have been read: how many more are needed, the bits so far, and
the bounds of the next byte. -/
structure Pending where
  needed : ℕ
  codePoint : ℕ
  lower : ℕ
  upper : ℕ
  deriving DecidableEq, Repr

/-- Read a byte between characters. -/
def first (byte : ℕ) : Option Pending × List Char :=
  if byte < 0x80 then (none, [Char.ofNat byte])
  else if 0xC2 ≤ byte ∧ byte ≤ 0xDF then (some ⟨1, byte - 0xC0, 0x80, 0xBF⟩, [])
  else if 0xE0 ≤ byte ∧ byte ≤ 0xEF then
    (some ⟨2, byte - 0xE0, if byte = 0xE0 then 0xA0 else 0x80,
      if byte = 0xED then 0x9F else 0xBF⟩, [])
  else if 0xF0 ≤ byte ∧ byte ≤ 0xF4 then
    (some ⟨3, byte - 0xF0, if byte = 0xF0 then 0x90 else 0x80,
      if byte = 0xF4 then 0x8F else 0xBF⟩, [])
  else (none, [replacement])

/-- Read a byte within a character. A byte out of bounds is read again as a first one. -/
def Pending.next (pending : Pending) (byte : ℕ) : Option Pending × List Char :=
  if pending.lower ≤ byte ∧ byte ≤ pending.upper then
    let codePoint := pending.codePoint * 64 + (byte - 0x80)
    if pending.needed = 1 then (none, [Char.ofNat codePoint])
    else (some ⟨pending.needed - 1, codePoint, 0x80, 0xBF⟩, [])
  else ((first byte).1, replacement :: (first byte).2)

/-- The character that a first byte starts, if the next bytes go on as one. -/
def Pending.complete : Pending → List UInt8 → Option Char
  | _, [] => none
  | pending, byte :: bytes =>
    if pending.lower ≤ byte.toNat ∧ byte.toNat ≤ pending.upper then
      let codePoint := pending.codePoint * 64 + (byte.toNat - 0x80)
      if pending.needed = 1 then some (Char.ofNat codePoint)
      else complete ⟨pending.needed - 1, codePoint, 0x80, 0xBF⟩ bytes
    else none

def step : Option Pending → UInt8 → Option Pending × List Char
  | none, byte => first byte.toNat
  | some pending, byte => pending.next byte.toNat

/-- The text that is decoded from here on. A character that is cut off at the end is replaced. -/
def decodeFrom : Option Pending → List UInt8 → List Char
  | none, [] => []
  | some _, [] => [replacement]
  | state, byte :: bytes => (step state byte).2 ++ decodeFrom (step state byte).1 bytes

def decode (bytes : List UInt8) : List Char := decodeFrom none bytes

theorem decodeFrom_cons (state : Option Pending) (byte : UInt8) (bytes : List UInt8) :
    decodeFrom state (byte :: bytes) =
      (step state byte).2 ++ decodeFrom (step state byte).1 bytes := by
  cases state <;> rfl

/-! ### Decoding what was encoded -/

theorem toNat_ofNat {number : ℕ} (h : number < 256) : (UInt8.ofNat number).toNat = number := by
  rw [UInt8.toNat_ofNat']
  exact Nat.mod_eq_of_lt h

theorem complete_continue {needed codePoint lower upper bits : ℕ} (bytes : List UInt8)
    (hlower : lower ≤ bits + 0x80) (hupper : bits + 0x80 ≤ upper) (hbits : bits < 64) :
    Pending.complete ⟨needed + 2, codePoint, lower, upper⟩ (UInt8.ofNat (bits + 0x80) :: bytes) =
      Pending.complete ⟨needed + 1, codePoint * 64 + bits, 0x80, 0xBF⟩ bytes := by
  rw [Pending.complete, toNat_ofNat (by omega), if_pos ⟨hlower, hupper⟩]
  simp

theorem complete_last {codePoint lower upper bits : ℕ} (bytes : List UInt8)
    (hlower : lower ≤ bits + 0x80) (hupper : bits + 0x80 ≤ upper) (hbits : bits < 64) :
    Pending.complete ⟨1, codePoint, lower, upper⟩ (UInt8.ofNat (bits + 0x80) :: bytes) =
      some (Char.ofNat (codePoint * 64 + bits)) := by
  rw [Pending.complete, toNat_ofNat (by omega), if_pos ⟨hlower, hupper⟩]
  simp

theorem first_two {bits : ℕ} (h : 2 ≤ bits) (h' : bits < 32) :
    first (bits + 0xC0) = (some ⟨1, bits, 0x80, 0xBF⟩, []) := by
  rw [first, if_neg (by omega), if_pos (by omega), Nat.add_sub_cancel]

theorem first_three {bits : ℕ} (h : bits < 16) :
    first (bits + 0xE0) = (some ⟨2, bits, if bits = 0 then 0xA0 else 0x80,
      if bits = 13 then 0x9F else 0xBF⟩, []) := by
  rw [first, if_neg (by omega), if_neg (by omega), if_pos (by omega), Nat.add_sub_cancel]
  simp only [Nat.add_eq_right, Nat.reduceEqDiff]

theorem first_four {bits : ℕ} (h : bits ≤ 4) :
    first (bits + 0xF0) = (some ⟨3, bits, if bits = 0 then 0x90 else 0x80,
      if bits = 4 then 0x8F else 0xBF⟩, []) := by
  rw [first, if_neg (by omega), if_neg (by omega), if_neg (by omega), if_pos (by omega),
    Nat.add_sub_cancel]
  simp only [Nat.add_eq_right, Nat.reduceEqDiff]

/-- A character is one ASCII byte, or a first byte and the bytes that it needs. -/
theorem utf8EncodeChar_cases (c : Char) :
    (∃ byte : UInt8, String.utf8EncodeChar c = [byte] ∧ byte.toNat < 0x80 ∧
      Char.ofNat byte.toNat = c) ∨
    ∃ (byte : UInt8) (rest : List UInt8) (pending : Pending),
      String.utf8EncodeChar c = byte :: rest ∧ first byte.toNat = (some pending, []) ∧
      rest.length = pending.needed ∧ rest ≠ [] ∧
      ∀ bytes, pending.complete (rest ++ bytes) = some c := by
  have hvalid : c.val.toNat < 0xD800 ∨ 0xDFFF < c.val.toNat ∧ c.val.toNat < 0x110000 := c.valid
  have hback : Char.ofNat c.val.toNat = c := Char.ofNat_toNat c
  unfold String.utf8EncodeChar
  generalize c.val.toNat = value at hvalid hback ⊢
  dsimp only
  split_ifs with hone htwo hthree
  · refine .inl ⟨_, rfl, ?_⟩
    rw [toNat_ofNat (by omega)]
    exact ⟨by omega, hback⟩
  · have hvalue : value / 64 % 0x20 * 64 + value % 0x40 = value := by omega
    refine .inr ⟨_, _, _, rfl, (congrArg first (toNat_ofNat (by omega))).trans
      (first_two (by omega) (by omega)), rfl, List.cons_ne_nil _ _, fun bytes => ?_⟩
    rw [List.singleton_append, complete_last _ (by omega) (by omega) (by omega), hvalue, hback]
  · have hvalue : (value / 4096 % 0x10 * 64 + value / 64 % 0x40) * 64 + value % 0x40 = value := by
      omega
    refine .inr ⟨_, _, _, rfl, (congrArg first (toNat_ofNat (by omega))).trans
      (first_three (by omega)), rfl, List.cons_ne_nil _ _, fun bytes => ?_⟩
    rw [List.cons_append, complete_continue _ (by split_ifs <;> omega) (by split_ifs <;> omega)
      (by omega), List.singleton_append, complete_last _ (by omega) (by omega) (by omega), hvalue,
      hback]
  · have hvalue : ((value / 262144 % 0x08 * 64 + value / 4096 % 0x40) * 64 + value / 64 % 0x40) *
        64 + value % 0x40 = value := by
      omega
    refine .inr ⟨_, _, _, rfl, (congrArg first (toNat_ofNat (by omega))).trans
      (first_four (by omega)), rfl, List.cons_ne_nil _ _, fun bytes => ?_⟩
    rw [List.cons_append, complete_continue _ (by split_ifs <;> omega) (by split_ifs <;> omega)
      (by omega), List.cons_append, complete_continue _ (by omega) (by omega) (by omega),
      List.singleton_append, complete_last _ (by omega) (by omega) (by omega), hvalue, hback]

/-- Bytes that complete a character are decoded as it. -/
theorem decodeFrom_of_complete {pending : Pending} {rest bytes : List UInt8} {c : Char}
    (hlength : rest.length = pending.needed) (hne : rest ≠ [])
    (h : pending.complete (rest ++ bytes) = some c) :
    decodeFrom (some pending) (rest ++ bytes) = c :: decodeFrom none bytes := by
  induction rest generalizing pending with
  | nil => exact absurd rfl hne
  | cons byte rest ih =>
    rw [List.cons_append, Pending.complete] at h
    rw [List.cons_append, decodeFrom_cons, step, Pending.next]
    split_ifs at h ⊢ with hbounds hlast
    all_goals dsimp only at h ⊢
    · rw [hlast, List.length_cons, Nat.succ_inj, List.length_eq_zero_iff] at hlength
      rw [hlength, Option.some.inj h]
      rfl
    · rw [List.length_cons] at hlength
      exact ih (Nat.eq_sub_of_add_eq hlength) (by rintro rfl; exact hlast hlength.symm) h

/-- A character is read back. -/
theorem decodeFrom_utf8EncodeChar (c : Char) (bytes : List UInt8) :
    decodeFrom none (String.utf8EncodeChar c ++ bytes) = c :: decodeFrom none bytes := by
  rcases utf8EncodeChar_cases c with ⟨byte, hchar, hascii, hback⟩ |
    ⟨byte, rest, pending, hchar, hfirst, hlength, hne, hcomplete⟩
  · rw [hchar, List.singleton_append, decodeFrom_cons, step, first, if_pos hascii, hback]
    rfl
  · rw [hchar, List.cons_append, decodeFrom_cons, step, hfirst]
    exact decodeFrom_of_complete hlength hne (hcomplete bytes)

/-- A text that was encoded is read back. -/
theorem decode_encode (text : List Char) : decode (encode text) = text := by
  unfold decode encode
  induction text with
  | nil => rfl
  | cons c text ih => rw [List.flatMap_cons, decodeFrom_utf8EncodeChar, ih]

theorem encode_injective : Function.Injective encode :=
  Function.LeftInverse.injective decode_encode

/-! ### Automata that do not look beyond ASCII -/

namespace Pending

/-- The least code point that the character can still be, and the one behind the greatest. -/
def least (pending : Pending) : ℕ :=
  (pending.codePoint * 64 + (pending.lower - 0x80)) * 64 ^ (pending.needed - 1)

def bound (pending : Pending) : ℕ :=
  (pending.codePoint * 64 + (pending.upper - 0x80) + 1) * 64 ^ (pending.needed - 1)

/-- All characters that it can still be are scalar values beyond ASCII. -/
structure Sound (pending : Pending) : Prop where
  needed : pending.needed = 1 ∨ pending.needed = 2 ∨ pending.needed = 3
  lower : 0x80 ≤ pending.lower
  beyond : 0x80 ≤ pending.least
  scalar : pending.bound ≤ 0xD800 ∨ 0xE000 ≤ pending.least ∧ pending.bound ≤ 0x110000

end Pending

theorem char_toNat_ofNat {number : ℕ} (h : number.isValidChar) :
    (Char.ofNat number).toNat = number := by
  rw [Char.ofNat, dif_pos h]
  rfl

theorem Pending.Sound.of_first {byte : ℕ} {pending : Pending}
    (h : (first byte).1 = some pending) : pending.Sound := by
  unfold first at h
  -- One case for each kind of first byte, and for each special bound of the byte behind it.
  split_ifs at h
  all_goals
    obtain rfl := Option.some.inj h
    refine ⟨by simp, ?_, ?_, ?_⟩ <;> simp only [least, bound] <;> omega

theorem Pending.Sound.next {pending : Pending} (h : pending.Sound) {byte : ℕ}
    (hlower : pending.lower ≤ byte) (hupper : byte ≤ pending.upper) (hmore : pending.needed ≠ 1) :
    Sound ⟨pending.needed - 1, pending.codePoint * 64 + (byte - 0x80), 0x80, 0xBF⟩ := by
  obtain ⟨needed, codePoint, lower, upper⟩ := pending
  obtain ⟨hneeded, hcontinues, hbeyond, hscalar⟩ := h
  obtain ⟨more, rfl⟩ : ∃ more, needed = more + 2 := ⟨needed - 2, by dsimp only at *; omega⟩
  dsimp only [least, bound] at hlower hupper hneeded hcontinues hbeyond hscalar
  -- The bits with the next byte lie between those with the least and with the greatest one.
  have hleast : codePoint * 64 + (lower - 0x80) ≤ codePoint * 64 + (byte - 0x80) := by omega
  have hbound : codePoint * 64 + (byte - 0x80) ≤ codePoint * 64 + (upper - 0x80) := by omega
  have hleast' := Nat.mul_le_mul_right (64 ^ (more + 1)) hleast
  have hbound' := Nat.mul_le_mul_right (64 ^ (more + 1)) (Nat.succ_le_succ hbound)
  have hnext : least ⟨more + 2 - 1, codePoint * 64 + (byte - 0x80), 0x80, 0xBF⟩ =
      (codePoint * 64 + (byte - 0x80)) * 64 ^ (more + 1) := by
    simp only [least, Nat.add_one_sub_one, Nat.sub_self, Nat.add_zero, Nat.pow_succ]
    ring
  have hnext' : bound ⟨more + 2 - 1, codePoint * 64 + (byte - 0x80), 0x80, 0xBF⟩ =
      (codePoint * 64 + (byte - 0x80) + 1) * 64 ^ (more + 1) := by
    simp only [bound, Nat.add_one_sub_one, Nat.reduceSub, Nat.pow_succ]
    ring
  refine ⟨by dsimp only; omega, Nat.le_refl _, ?_, ?_⟩
  · rw [hnext]
    exact Nat.le_trans hbeyond hleast'
  · rw [hnext, hnext']
    rcases hscalar with hlow | ⟨hhigh, hmax⟩
    · exact Or.inl (Nat.le_trans hbound' hlow)
    · exact Or.inr ⟨Nat.le_trans hhigh hleast', Nat.le_trans hbound' hmax⟩

/-- A completed character is beyond ASCII. -/
theorem Pending.Sound.beyond_complete {pending : Pending} (h : pending.Sound) {byte : ℕ}
    (hlower : pending.lower ≤ byte) (hupper : byte ≤ pending.upper) (hlast : pending.needed = 1) :
    0x80 ≤ (Char.ofNat (pending.codePoint * 64 + (byte - 0x80))).toNat := by
  obtain ⟨needed, codePoint, lower, upper⟩ := pending
  obtain ⟨-, hcontinues, hbeyond, hscalar⟩ := h
  simp only [least, bound] at hlower hupper hlast hcontinues hbeyond hscalar
  subst hlast
  simp only [Nat.reduceSub, Nat.reducePow] at hbeyond hscalar
  rw [char_toNat_ofNat]
  · dsimp only
    omega
  · dsimp only [Nat.isValidChar]
    omega

/-- A first byte that starts a longer character, or none, is beyond ASCII. -/
theorem first_cases (byte : ℕ) :
    byte < 0x80 ∧ first byte = (none, [Char.ofNat byte]) ∨
      0x80 ≤ byte ∧ (first byte = (none, [replacement]) ∨
        ∃ pending : Pending, pending.Sound ∧ first byte = (some pending, [])) := by
  by_cases hascii : byte < 0x80
  · exact Or.inl ⟨hascii, if_pos hascii⟩
  · refine Or.inr ⟨by omega, ?_⟩
    cases hfirst : (first byte).1 with
    | none =>
      left
      unfold first at hfirst ⊢
      split_ifs at hfirst ⊢
      rfl
    | some pending =>
      right
      refine ⟨pending, Pending.Sound.of_first hfirst, ?_⟩
      rw [← hfirst]
      unfold first at hfirst ⊢
      split_ifs at hfirst ⊢ <;> rfl

section Automaton

variable {σ : Type*} (read : σ → Char → σ)

/-- The automaton does not tell characters beyond ASCII apart, and a second one changes nothing. -/
structure Blind : Prop where
  same : ∀ (state : σ) (c : Char), 0x80 ≤ c.toNat → read state c = read state replacement
  again : ∀ state, read (read state replacement) replacement = read state replacement

/-- Read a byte as the character with its number. -/
def readByte (state : σ) (byte : UInt8) : σ := read state (Char.ofNat byte.toNat)

variable {read}

theorem Blind.readByte (h : Blind read) (state : σ) {byte : UInt8} (hbeyond : 0x80 ≤ byte.toNat) :
    readByte read state byte = read state replacement := by
  have hbyte := byte.toNat_lt
  apply h.same
  rw [char_toNat_ofNat]
  · exact hbeyond
  · unfold Nat.isValidChar
    omega

/-- The state on the decoded text is the state on the bytes. A character of which some bytes have
been read counts as a replacement character already. -/
theorem Blind.foldl_decodeFrom (h : Blind read) (bytes : List UInt8) (state : σ) :
    (decodeFrom none bytes).foldl read state = bytes.foldl (Utf8.readByte read) state ∧
      ∀ pending : Pending, pending.Sound → (decodeFrom (some pending) bytes).foldl read state =
        bytes.foldl (Utf8.readByte read) (read state replacement) := by
  induction bytes generalizing state with
  | nil => exact ⟨rfl, fun _ _ => rfl⟩
  | cons byte bytes ih =>
    have hfirst : ∀ state, ((first byte.toNat).2 ++ decodeFrom (first byte.toNat).1 bytes).foldl
        read state = bytes.foldl (Utf8.readByte read) (Utf8.readByte read state byte) := by
      intro state
      rcases first_cases byte.toNat with ⟨-, hbyte⟩ | ⟨hbeyond, hbyte | ⟨pending, hsound, hbyte⟩⟩
      · rw [hbyte, List.singleton_append, List.foldl_cons, (ih _).1]
        rfl
      · rw [hbyte, List.singleton_append, List.foldl_cons, (ih _).1, h.readByte _ hbeyond]
      · rw [hbyte, List.nil_append, (ih _).2 pending hsound, h.readByte _ hbeyond]
    refine ⟨?_, fun pending hsound => ?_⟩
    · rw [decodeFrom_cons]
      exact hfirst state
    · rw [decodeFrom_cons, step, Pending.next, List.foldl_cons]
      split_ifs with hbounds hlast
      · have hbeyond := hsound.beyond_complete hbounds.1 hbounds.2 hlast
        have hbyte : 0x80 ≤ byte.toNat := Nat.le_trans hsound.lower hbounds.1
        rw [List.singleton_append, List.foldl_cons, (ih _).1, h.same _ _ hbeyond,
          h.readByte _ hbyte, h.again]
      · have hbyte : 0x80 ≤ byte.toNat := Nat.le_trans hsound.lower hbounds.1
        rw [List.nil_append, (ih _).2 _ (hsound.next hbounds.1 hbounds.2 hlast),
          h.readByte _ hbyte, h.again]
      · rw [List.cons_append, List.foldl_cons]
        exact hfirst _

theorem Blind.foldl_decode (h : Blind read) (bytes : List UInt8) (state : σ) :
    (decode bytes).foldl read state = bytes.foldl (Utf8.readByte read) state :=
  (h.foldl_decodeFrom bytes state).1

end Automaton

end AgentCockpit.Core.Utf8
