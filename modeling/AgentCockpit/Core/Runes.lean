import AgentCockpit.Core.Utf16

/-!
# Strings of bytes

A language whose strings are bytes reads a string as characters from left to right. Bytes that are
the encoding of a character are that character; any other byte is read on its own, as a replacement
character.
-/

namespace AgentCockpit.Core.Utf8

/-- The first character, and the number of its bytes. -/
def decodeRune : List UInt8 → Char × ℕ
  | [] => (replacement, 0)
  | byte :: bytes =>
    match first byte.toNat with
    | (none, _) => (if byte.toNat < 0x80 then Char.ofNat byte.toNat else replacement, 1)
    | (some pending, _) =>
      match pending.complete bytes with
      | none => (replacement, 1)
      | some c => (c, pending.needed + 1)

/-- All characters behind the bytes that are left of the character read last. -/
def runesFrom : ℕ → List UInt8 → List Char
  | _, [] => []
  | skip + 1, _ :: bytes => runesFrom skip bytes
  | 0, byte :: bytes =>
    (decodeRune (byte :: bytes)).1 :: runesFrom ((decodeRune (byte :: bytes)).2 - 1) bytes

def runes (bytes : List UInt8) : List Char := runesFrom 0 bytes

/-- The bytes encode a text. -/
def Valid (bytes : List UInt8) : Prop := ∃ text, encode text = bytes

/-! ### Reading what was encoded -/

/-- The first character of an encoded text. -/
theorem decodeRune_utf8EncodeChar (c : Char) (bytes : List UInt8) :
    decodeRune (String.utf8EncodeChar c ++ bytes) = (c, (String.utf8EncodeChar c).length) := by
  rcases utf8EncodeChar_cases c with ⟨byte, hchar, hascii, hback⟩ |
    ⟨byte, rest, pending, hchar, hfirst, hlength, -, hcomplete⟩
  · rw [hchar, List.singleton_append, decodeRune, first, if_pos hascii]
    dsimp only
    rw [if_pos hascii, hback]
    rfl
  · rw [hchar, List.cons_append, decodeRune, hfirst]
    dsimp only
    rw [hcomplete, List.length_cons, hlength]

theorem runesFrom_append (skipped bytes : List UInt8) :
    runesFrom skipped.length (skipped ++ bytes) = runesFrom 0 bytes := by
  induction skipped with
  | nil => rfl
  | cons byte skipped ih => rw [List.length_cons, List.cons_append, runesFrom, ih]

theorem runes_utf8EncodeChar_append (c : Char) (bytes : List UInt8) :
    runes (String.utf8EncodeChar c ++ bytes) = c :: runes bytes := by
  have hrune := decodeRune_utf8EncodeChar c bytes
  cases hbytes : String.utf8EncodeChar c with
  | nil => exact absurd hbytes String.utf8EncodeChar_ne_nil
  | cons byte skipped =>
    rw [hbytes, List.cons_append] at hrune
    rw [List.cons_append, runes, runesFrom, hrune, List.length_cons, Nat.add_sub_cancel,
      runesFrom_append]
    rfl

/-- An encoded text has its own characters. -/
theorem runes_encode (text : List Char) : runes (encode text) = text := by
  unfold encode
  induction text with
  | nil => rfl
  | cons c text ih => rw [List.flatMap_cons, runes_utf8EncodeChar_append, ih]

/-- Bytes are read back from their characters exactly if they encode a text. -/
theorem encode_runes_iff (bytes : List UInt8) : encode (runes bytes) = bytes ↔ Valid bytes := by
  constructor
  · intro h
    exact ⟨_, h⟩
  · rintro ⟨text, rfl⟩
    rw [runes_encode]

/-! ### ASCII -/

theorem encodeChar_of_ascii {c : Char} (h : c.toNat < 0x80) :
    String.utf8EncodeChar c = [UInt8.ofNat c.toNat] := by
  have hval : c.val.toNat ≤ 0x7f := Nat.le_of_lt_succ h
  rw [String.utf8EncodeChar, if_pos hval]
  rfl

/-- A character beyond ASCII has bytes beyond ASCII only. -/
theorem beyond_of_mem_encodeChar {c : Char} (h : 0x80 ≤ c.toNat) :
    ∀ byte ∈ String.utf8EncodeChar c, 0x80 ≤ byte.toNat := by
  have hval : ¬ c.val.toNat ≤ 0x7f := Nat.not_le.mpr h
  rw [String.utf8EncodeChar, if_neg hval]
  -- One case for each number of bytes, and in it one goal for each byte.
  split_ifs
  all_goals
    simp only [List.forall_mem_cons]
    split_ands
  all_goals
    first
    | exact fun _ hnil => absurd hnil List.not_mem_nil
    | rw [toNat_ofNat (by omega)]
      omega

section Ascii

variable {p : ℕ → Prop} (hascii : ∀ number, p number → number < 0x80)

include hascii

theorem exists_mem_encodeChar_iff (c : Char) :
    (∃ byte ∈ String.utf8EncodeChar c, p byte.toNat) ↔ p c.toNat := by
  by_cases h : c.toNat < 0x80
  · rw [encodeChar_of_ascii h]
    simp [toNat_ofNat (Nat.lt_trans h (by decide))]
  · refine iff_of_false ?_ fun hp => h (hascii _ hp)
    rintro ⟨byte, hbyte, hp⟩
    exact absurd (hascii _ hp) (Nat.not_lt.mpr (beyond_of_mem_encodeChar (Nat.not_lt.mp h) _ hbyte))

/-- An ASCII property holds of some byte exactly if it holds of some character. -/
theorem exists_mem_encode_iff (text : List Char) :
    (∃ byte ∈ encode text, p byte.toNat) ↔ ∃ c ∈ text, p c.toNat := by
  simp only [encode, List.mem_flatMap]
  constructor
  · rintro ⟨byte, ⟨c, hc, hbyte⟩, hp⟩
    exact ⟨c, hc, (exists_mem_encodeChar_iff hascii c).mp ⟨byte, hbyte, hp⟩⟩
  · rintro ⟨c, hc, hp⟩
    obtain ⟨byte, hbyte, hp⟩ := (exists_mem_encodeChar_iff hascii c).mpr hp
    exact ⟨byte, ⟨c, hc, hbyte⟩, hp⟩

/-- An ASCII property holds of the first byte exactly if it holds of the first character. -/
theorem head_encode_iff (text : List Char) :
    (∃ byte ∈ (encode text).head?, p byte.toNat) ↔ ∃ c ∈ text.head?, p c.toNat := by
  cases text with
  | nil => simp [encode]
  | cons c text =>
    by_cases h : c.toNat < 0x80
    · simp [encode, encodeChar_of_ascii h, toNat_ofNat (Nat.lt_trans h (by decide))]
    · have hbeyond := beyond_of_mem_encodeChar (Nat.not_lt.mp h)
      cases hbytes : String.utf8EncodeChar c with
      | nil => exact absurd hbytes String.utf8EncodeChar_ne_nil
      | cons byte bytes =>
        rw [hbytes] at hbeyond
        have hbyte := hbeyond byte List.mem_cons_self
        have hnot : ¬ p byte.toNat := fun hp => absurd (hascii _ hp) (Nat.not_lt.mpr hbyte)
        have hnot' : ¬ p c.toNat := fun hp => h (hascii _ hp)
        simp [encode, hbytes, hnot, hnot']

end Ascii

/-! ### ASCII among the characters -/

/-- The bytes of a longer character are beyond ASCII, and so is the character. -/
theorem Pending.Sound.complete {pending : Pending} (h : pending.Sound) {bytes : List UInt8}
    {c : Char} (hcomplete : pending.complete bytes = some c) :
    0x80 ≤ c.toNat ∧ ∀ byte ∈ bytes.take pending.needed, 0x80 ≤ byte.toNat := by
  induction bytes generalizing pending with
  | nil => exact nomatch hcomplete
  | cons byte bytes ih =>
    rw [Pending.complete] at hcomplete
    split_ifs at hcomplete with hbounds hlast
    · obtain rfl := Option.some.inj hcomplete
      refine ⟨h.beyond_complete hbounds.1 hbounds.2 hlast, ?_⟩
      rw [hlast, List.take_succ_cons, List.take_zero]
      simpa using Nat.le_trans h.lower hbounds.1
    · have hmore := ih (h.next hbounds.1 hbounds.2 hlast) hcomplete
      obtain ⟨more, hneeded⟩ : ∃ more, pending.needed = more + 1 :=
        Nat.exists_eq_succ_of_ne_zero (by rcases h.needed with h | h | h <;> omega)
      refine ⟨hmore.1, ?_⟩
      rw [hneeded, List.take_succ_cons, List.forall_mem_cons]
      refine ⟨Nat.le_trans h.lower hbounds.1, ?_⟩
      simpa [hneeded] using hmore.2

/-- The first character is ASCII exactly if the first byte is; else all its bytes are beyond. -/
theorem decodeRune_cases (byte : UInt8) (bytes : List UInt8) :
    byte.toNat < 0x80 ∧ decodeRune (byte :: bytes) = (Char.ofNat byte.toNat, 1) ∨
      0x80 ≤ byte.toNat ∧ 0x80 ≤ (decodeRune (byte :: bytes)).1.toNat ∧
        ∀ next ∈ bytes.take ((decodeRune (byte :: bytes)).2 - 1), 0x80 ≤ next.toNat := by
  have hreplacement : 0x80 ≤ replacement.toNat := by decide
  rcases first_cases byte.toNat with ⟨hascii, hfirst⟩ | ⟨hbeyond, hfirst⟩
  · left
    rw [decodeRune, hfirst]
    exact ⟨hascii, by rw [if_pos hascii]⟩
  · right
    refine ⟨hbeyond, ?_⟩
    rcases hfirst with hfirst | ⟨pending, hsound, hfirst⟩
    · rw [decodeRune, hfirst]
      dsimp only
      rw [if_neg (Nat.not_lt.mpr hbeyond)]
      exact ⟨hreplacement, by simp⟩
    · rw [decodeRune, hfirst]
      dsimp only
      cases hcomplete : pending.complete bytes with
      | none => exact ⟨hreplacement, by simp⟩
      | some c => exact hsound.complete hcomplete

section Ascii

variable {p : ℕ → Prop} (hascii : ∀ number, p number → number < 0x80)

include hascii

theorem exists_mem_runesFrom_iff (skip : ℕ) (bytes : List UInt8)
    (hskip : ∀ byte ∈ bytes.take skip, 0x80 ≤ byte.toNat) :
    (∃ c ∈ runesFrom skip bytes, p c.toNat) ↔ ∃ byte ∈ bytes, p byte.toNat := by
  have hbeyond : ∀ number, 0x80 ≤ number → ¬ p number := by
    intro number hnumber hp
    exact absurd (hascii number hp) (Nat.not_lt.mpr hnumber)
  induction bytes generalizing skip with
  | nil => cases skip <;> simp [runesFrom]
  | cons byte bytes ih =>
    cases skip with
    | succ skip =>
      rw [List.take_succ_cons, List.forall_mem_cons] at hskip
      have hrest := ih skip hskip.2
      rw [runesFrom]
      simpa [hbeyond _ hskip.1] using hrest
    | zero =>
      rw [runesFrom]
      rcases decodeRune_cases byte bytes with ⟨hbyte, hrune⟩ | ⟨hbyte, hrune, hnext⟩
      · have hnumber : (Char.ofNat byte.toNat).toNat = byte.toNat := by
          apply char_toNat_ofNat
          unfold Nat.isValidChar
          omega
        rw [hrune]
        simp only [List.mem_cons, exists_eq_or_imp, hnumber]
        exact or_congr_right (ih 0 (by simp))
      · simp only [List.mem_cons, exists_eq_or_imp, hbeyond _ hrune, hbeyond _ hbyte, false_or]
        exact ih _ hnext

/-- An ASCII property holds of some character exactly if it holds of some byte. -/
theorem exists_mem_runes_iff (bytes : List UInt8) :
    (∃ c ∈ runes bytes, p c.toNat) ↔ ∃ byte ∈ bytes, p byte.toNat :=
  exists_mem_runesFrom_iff hascii 0 bytes (by simp)

/-- An ASCII property holds of the first character exactly if it holds of the first byte. -/
theorem head_runes_iff (bytes : List UInt8) :
    (∃ c ∈ (runes bytes).head?, p c.toNat) ↔ ∃ byte ∈ bytes.head?, p byte.toNat := by
  cases bytes with
  | nil => simp [runes, runesFrom]
  | cons byte bytes =>
    rw [runes, runesFrom]
    rcases decodeRune_cases byte bytes with ⟨hbyte, hrune⟩ | ⟨hbyte, hrune, -⟩
    · have hnumber : (Char.ofNat byte.toNat).toNat = byte.toNat := by
        apply char_toNat_ofNat
        unfold Nat.isValidChar
        omega
      simp [hrune, hnumber]
    · have hnot : ¬ p byte.toNat := fun hp => absurd (hascii _ hp) (Nat.not_lt.mpr hbyte)
      have hnot' : ¬ p (decodeRune (byte :: bytes)).1.toNat :=
        fun hp => absurd (hascii _ hp) (Nat.not_lt.mpr hrune)
      simp [hnot, hnot']

end Ascii

/-! ### Where characters begin -/

/-- A byte behind the first one of a character. -/
def IsContinuation (byte : UInt8) : Prop := 0x80 ≤ byte.toNat ∧ byte.toNat < 0xC0

/-- A position at which a character begins, or the end of the bytes. -/
def Boundary (bytes : List UInt8) (position : ℕ) : Prop :=
  ∀ byte, bytes[position]? = some byte → ¬ IsContinuation byte

theorem encode_cons (c : Char) (text : List Char) :
    encode (c :: text) = String.utf8EncodeChar c ++ encode text := rfl

/-- A character is a first byte with at most three continuation bytes behind it. -/
theorem exists_utf8EncodeChar (c : Char) : ∃ lead more, String.utf8EncodeChar c = lead :: more ∧
    more.length < 4 ∧ ¬ IsContinuation lead ∧ ∀ byte ∈ more, IsContinuation byte := by
  have hvalid : c.val.toNat < 0x110000 := by
    have hscalar : c.val.toNat < 0xD800 ∨ 0xDFFF < c.val.toNat ∧ c.val.toNat < 0x110000 := c.valid
    omega
  have hmore : ∀ bits, IsContinuation (UInt8.ofNat (bits % 0x40 + 0x80)) := by
    intro bits
    rw [IsContinuation, toNat_ofNat (by omega)]
    omega
  have hnil : ∀ byte ∈ ([] : List UInt8), IsContinuation byte := by simp
  have hcons : ∀ {byte : UInt8} {bytes : List UInt8}, IsContinuation byte →
      (∀ byte ∈ bytes, IsContinuation byte) → ∀ b ∈ byte :: bytes, IsContinuation b :=
    fun hbyte hbytes => List.forall_mem_cons.mpr ⟨hbyte, hbytes⟩
  unfold String.utf8EncodeChar
  generalize c.val.toNat = value at hvalid ⊢
  dsimp only
  -- One case for each length of the encoding.
  split_ifs with hone htwo hthree
  · refine ⟨_, [], rfl, by simp, ?_, by simp⟩
    rw [IsContinuation, toNat_ofNat (by omega)]
    omega
  · refine ⟨_, [_], rfl, by simp, ?_, hcons (hmore value) hnil⟩
    rw [IsContinuation, toNat_ofNat (by omega)]
    omega
  · refine ⟨_, [_, _], rfl, by simp, ?_, hcons (hmore _) (hcons (hmore value) hnil)⟩
    rw [IsContinuation, toNat_ofNat (by omega)]
    omega
  · refine ⟨_, [_, _, _], rfl, by simp, ?_,
      hcons (hmore _) (hcons (hmore _) (hcons (hmore value) hnil))⟩
    rw [IsContinuation, toNat_ofNat (by omega)]
    omega

theorem boundary_zero_encode (text : List Char) : Boundary (encode text) 0 := by
  intro byte hbyte
  cases text with
  | nil => simp [encode] at hbyte
  | cons c text =>
    obtain ⟨lead, more, hchar, -, hlead, -⟩ := exists_utf8EncodeChar c
    rw [encode_cons, hchar, List.cons_append, List.getElem?_cons_zero] at hbyte
    obtain rfl := Option.some.inj hbyte
    exact hlead

/-- A position that holds no continuation byte is one between two characters. -/
theorem exists_split_of_boundary {text : List Char} {position : ℕ}
    (h : Boundary (encode text) position) : ∃ front back, text = front ++ back ∧
      encode front = (encode text).take position ∧
      encode back = (encode text).drop position := by
  induction text generalizing position with
  | nil => exact ⟨[], [], rfl, by simp [encode], by simp [encode]⟩
  | cons c text ih =>
    obtain ⟨lead, more, hchar, -, -, hmore⟩ := exists_utf8EncodeChar c
    cases position with
    | zero => exact ⟨[], c :: text, rfl, rfl, rfl⟩
    | succ position =>
      rw [encode_cons, hchar] at h ⊢
      -- Within the first character there are only continuation bytes.
      have hpast : more.length ≤ position := by
        by_contra hwithin
        have hin : position < more.length := by omega
        refine h more[position] ?_ (hmore _ (List.getElem_mem hin))
        rw [List.cons_append, List.getElem?_cons_succ, List.getElem?_append_left hin,
          List.getElem?_eq_getElem hin]
      have hrest : Boundary (encode text) (position - more.length) := by
        intro byte hbyte
        apply h
        rwa [List.cons_append, List.getElem?_cons_succ, List.getElem?_append_right hpast]
      obtain ⟨front, back, rfl, hfront, hback⟩ := ih hrest
      refine ⟨c :: front, back, rfl, ?_, ?_⟩
      · rw [encode_cons, hchar, hfront, List.cons_append, List.cons_append, List.take_succ_cons,
          List.take_append, List.take_of_length_le hpast]
      · rw [hback, List.cons_append, List.drop_succ_cons, List.drop_append,
          List.drop_of_length_le hpast, List.nil_append]

theorem valid_take {bytes : List UInt8} (hvalid : Valid bytes) {position : ℕ}
    (h : Boundary bytes position) : Valid (bytes.take position) := by
  obtain ⟨text, rfl⟩ := hvalid
  obtain ⟨front, -, -, hfront, -⟩ := exists_split_of_boundary h
  exact ⟨front, hfront⟩

theorem valid_drop {bytes : List UInt8} (hvalid : Valid bytes) {position : ℕ}
    (h : Boundary bytes position) : Valid (bytes.drop position) := by
  obtain ⟨text, rfl⟩ := hvalid
  obtain ⟨-, back, -, -, hback⟩ := exists_split_of_boundary h
  exact ⟨back, hback⟩

/-- Among the first four positions behind the start there is one between characters. -/
theorem exists_boundary {bytes : List UInt8} (hvalid : Valid bytes) (hne : bytes ≠ []) :
    ∃ position, 0 < position ∧ position ≤ 4 ∧ Boundary bytes position := by
  obtain ⟨text, rfl⟩ := hvalid
  cases text with
  | nil => exact absurd rfl hne
  | cons c text =>
    obtain ⟨lead, more, hchar, hlength, -, -⟩ := exists_utf8EncodeChar c
    refine ⟨more.length + 1, Nat.succ_pos _, hlength, fun byte hbyte => ?_⟩
    rw [encode_cons, hchar, List.cons_append, List.getElem?_cons_succ,
      List.getElem?_append_right (Nat.le_refl _), Nat.sub_self] at hbyte
    exact boundary_zero_encode text byte hbyte

end AgentCockpit.Core.Utf8
