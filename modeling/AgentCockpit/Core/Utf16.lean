import AgentCockpit.Core.Utf8

/-!
# UTF-16

A string of code units, as a language keeps it whose strings are UTF-16, and the text that it stands
for. Two units that form a surrogate pair are one character; a surrogate without its partner stands
for no character, and is read as a replacement character.
-/

namespace AgentCockpit.Core.Utf16

open Utf8 (replacement char_toNat_ofNat)

def IsHigh (unit : UInt16) : Prop := 0xD800 ≤ unit.toNat ∧ unit.toNat ≤ 0xDBFF

def IsLow (unit : UInt16) : Prop := 0xDC00 ≤ unit.toNat ∧ unit.toNat ≤ 0xDFFF

instance (unit : UInt16) : Decidable (IsHigh unit) := inferInstanceAs (Decidable (_ ∧ _))

instance (unit : UInt16) : Decidable (IsLow unit) := inferInstanceAs (Decidable (_ ∧ _))

/-- The units of a character. -/
def encodeChar (c : Char) : List UInt16 :=
  if c.toNat < 0x10000 then [UInt16.ofNat c.toNat]
  else
    [UInt16.ofNat ((c.toNat - 0x10000) / 0x400 + 0xD800),
      UInt16.ofNat ((c.toNat - 0x10000) % 0x400 + 0xDC00)]

def encode (text : List Char) : List UInt16 := text.flatMap encodeChar

/-- The character of a surrogate pair. -/
def pair (high low : UInt16) : Char :=
  Char.ofNat ((high.toNat - 0xD800) * 0x400 + (low.toNat - 0xDC00) + 0x10000)

/-- The character of a unit that is not part of a pair. -/
def single (unit : UInt16) : Char :=
  if IsHigh unit ∨ IsLow unit then replacement else Char.ofNat unit.toNat

/-- The text of units. -/
def decode : List UInt16 → List Char
  | [] => []
  | [unit] => [single unit]
  | unit :: next :: rest =>
    if IsHigh unit ∧ IsLow next then pair unit next :: decode rest
    else single unit :: decode (next :: rest)

/-- Each surrogate is part of a pair. -/
def Paired : List UInt16 → Prop
  | [] => True
  | [unit] => ¬ (IsHigh unit ∨ IsLow unit)
  | unit :: next :: rest =>
    if IsHigh unit ∧ IsLow next then Paired rest
    else ¬ (IsHigh unit ∨ IsLow unit) ∧ Paired (next :: rest)

/-- Induction along the characters of a string. -/
@[elab_as_elim]
theorem units_induction {motive : List UInt16 → Prop} (nil : motive [])
    (pair : ∀ unit next rest, IsHigh unit → IsLow next → motive rest →
      motive (unit :: next :: rest))
    (single : ∀ unit rest, (∀ next, rest.head? = some next → ¬ (IsHigh unit ∧ IsLow next)) →
      motive rest → motive (unit :: rest))
    (units : List UInt16) : motive units := by
  induction hlength : units.length using Nat.strong_induction_on generalizing units with
  | _ size ih =>
    match units with
    | [] => exact nil
    | [unit] => exact single unit [] nofun nil
    | unit :: next :: rest =>
      subst hlength
      by_cases hpair : IsHigh unit ∧ IsLow next
      · have hshorter : rest.length < (unit :: next :: rest).length := by
          rw [List.length_cons, List.length_cons]
          omega
        exact pair unit next rest hpair.1 hpair.2 (ih _ hshorter rest rfl)
      · refine single unit (next :: rest) ?_ (ih _ (Nat.lt_succ_self _) (next :: rest) rfl)
        rintro _ ⟨⟩
        exact hpair

variable {unit next : UInt16} {rest : List UInt16}

theorem decode_pair (hhigh : IsHigh unit) (hlow : IsLow next) :
    decode (unit :: next :: rest) = pair unit next :: decode rest := by
  rw [decode, if_pos ⟨hhigh, hlow⟩]

theorem decode_single (h : ∀ next, rest.head? = some next → ¬ (IsHigh unit ∧ IsLow next)) :
    decode (unit :: rest) = single unit :: decode rest := by
  cases rest with
  | nil => rfl
  | cons next rest => rw [decode, if_neg (h next rfl)]

theorem paired_pair (hhigh : IsHigh unit) (hlow : IsLow next) :
    Paired (unit :: next :: rest) ↔ Paired rest := by
  rw [Paired, if_pos ⟨hhigh, hlow⟩]

theorem paired_single (h : ∀ next, rest.head? = some next → ¬ (IsHigh unit ∧ IsLow next)) :
    Paired (unit :: rest) ↔ ¬ (IsHigh unit ∨ IsLow unit) ∧ Paired rest := by
  cases rest with
  | nil => simp [Paired]
  | cons next rest => rw [Paired, if_neg (h next rfl)]

/-! ### Characters -/

theorem toNat_single (h : ¬ (IsHigh unit ∨ IsLow unit)) : (single unit).toNat = unit.toNat := by
  have hunit := unit.toNat_lt
  rw [single, if_neg h, char_toNat_ofNat]
  unfold IsHigh IsLow at h
  unfold Nat.isValidChar
  omega

theorem toNat_pair (hhigh : IsHigh unit) (hlow : IsLow next) :
    (pair unit next).toNat =
      (unit.toNat - 0xD800) * 0x400 + (next.toNat - 0xDC00) + 0x10000 := by
  rw [pair, char_toNat_ofNat]
  unfold IsHigh at hhigh
  unfold IsLow at hlow
  unfold Nat.isValidChar
  omega

theorem encodeChar_single (h : ¬ (IsHigh unit ∨ IsLow unit)) :
    encodeChar (single unit) = [unit] := by
  have hunit := unit.toNat_lt
  rw [encodeChar, toNat_single h, if_pos (by omega), UInt16.ofNat_toNat]

theorem encodeChar_pair (hhigh : IsHigh unit) (hlow : IsLow next) :
    encodeChar (pair unit next) = [unit, next] := by
  rw [encodeChar, toNat_pair hhigh hlow, if_neg (by omega)]
  unfold IsHigh at hhigh
  unfold IsLow at hlow
  have hunit : ((unit.toNat - 0xD800) * 0x400 + (next.toNat - 0xDC00) + 0x10000 - 0x10000) / 0x400 +
      0xD800 = unit.toNat := by omega
  have hnext : ((unit.toNat - 0xD800) * 0x400 + (next.toNat - 0xDC00) + 0x10000 - 0x10000) % 0x400 +
      0xDC00 = next.toNat := by omega
  rw [hunit, hnext, UInt16.ofNat_toNat, UInt16.ofNat_toNat]

/-- A surrogate of its own is replaced by another unit. -/
theorem encodeChar_single_of_surrogate (h : IsHigh unit ∨ IsLow unit) :
    encodeChar (single unit) = [0xFFFD] := by
  rw [single, if_pos h]
  rfl

/-! ### What survives -/

/-- A character is read back. -/
theorem decode_encodeChar (c : Char) (rest : List UInt16) :
    decode (encodeChar c ++ rest) = c :: decode rest := by
  have hvalid : c.toNat < 0xD800 ∨ 0xDFFF < c.toNat ∧ c.toNat < 0x110000 := c.valid
  have hback : Char.ofNat c.toNat = c := Char.ofNat_toNat c
  rw [encodeChar]
  split_ifs with hplane
  · have hunit : (UInt16.ofNat c.toNat).toNat = c.toNat := by
      rw [UInt16.toNat_ofNat']
      exact Nat.mod_eq_of_lt hplane
    have hplain : ¬ (IsHigh (UInt16.ofNat c.toNat) ∨ IsLow (UInt16.ofNat c.toNat)) := by
      unfold IsHigh IsLow
      omega
    rw [List.singleton_append, decode_single fun _ _ h => hplain (Or.inl h.1), single,
      if_neg hplain, hunit, hback]
  · have hhigh : (UInt16.ofNat ((c.toNat - 0x10000) / 0x400 + 0xD800)).toNat =
        (c.toNat - 0x10000) / 0x400 + 0xD800 := by
      rw [UInt16.toNat_ofNat']
      exact Nat.mod_eq_of_lt (by omega)
    have hlow : (UInt16.ofNat ((c.toNat - 0x10000) % 0x400 + 0xDC00)).toNat =
        (c.toNat - 0x10000) % 0x400 + 0xDC00 := by
      rw [UInt16.toNat_ofNat']
      exact Nat.mod_eq_of_lt (by omega)
    have hsum : ((c.toNat - 0x10000) / 0x400 + 0xD800 - 0xD800) * 0x400 +
        ((c.toNat - 0x10000) % 0x400 + 0xDC00 - 0xDC00) + 0x10000 = c.toNat := by omega
    rw [List.cons_append, List.singleton_append,
      decode_pair (by unfold IsHigh; omega) (by unfold IsLow; omega), pair, hhigh, hlow, hsum,
      hback]

theorem decode_encode (text : List Char) : decode (encode text) = text := by
  unfold encode
  induction text with
  | nil => rfl
  | cons c text ih => rw [List.flatMap_cons, decode_encodeChar, ih]

theorem length_encodeChar_single (unit : UInt16) : (encodeChar (single unit)).length = 1 := by
  by_cases h : IsHigh unit ∨ IsLow unit
  · rw [encodeChar_single_of_surrogate h]
    rfl
  · rw [encodeChar_single h]
    rfl

/-- A text has as many units as it was read from. -/
theorem length_encode_decode (units : List UInt16) :
    (encode (decode units)).length = units.length := by
  unfold encode
  induction units using units_induction with
  | nil => rfl
  | pair unit next rest hhigh hlow ih =>
    rw [decode_pair hhigh hlow, List.flatMap_cons, encodeChar_pair hhigh hlow, List.length_append,
      ih, List.length_cons, List.length_cons]
    simp only [List.length_cons, List.length_nil]
    omega
  | single unit rest h ih =>
    rw [decode_single h, List.flatMap_cons, List.length_append, length_encodeChar_single, ih,
      List.length_cons, Nat.add_comm]

/-- Units are read back from their text exactly if no surrogate is unpaired. -/
theorem encode_decode_iff (units : List UInt16) : encode (decode units) = units ↔ Paired units := by
  unfold encode
  induction units using units_induction with
  | nil => simp [Paired, decode]
  | pair unit next rest hhigh hlow ih =>
    rw [decode_pair hhigh hlow, List.flatMap_cons, encodeChar_pair hhigh hlow,
      paired_pair hhigh hlow, ← ih]
    simp
  | single unit rest h ih =>
    rw [decode_single h, List.flatMap_cons, paired_single h, ← ih]
    by_cases hsurrogate : IsHigh unit ∨ IsLow unit
    · rw [encodeChar_single_of_surrogate hsurrogate]
      refine iff_of_false (fun heq => ?_) fun hand => hand.1 hsurrogate
      obtain ⟨hunit, -⟩ := List.cons.inj heq
      subst hunit
      exact absurd hsurrogate (by decide)
    · rw [encodeChar_single hsurrogate, List.singleton_append, List.cons.injEq]
      exact ⟨fun hand => ⟨hsurrogate, hand.2⟩, fun hand => ⟨rfl, hand.2⟩⟩

theorem paired_encode (text : List Char) : Paired (encode text) := by
  rw [← encode_decode_iff, decode_encode]

/-! ### ASCII -/

section Ascii

variable {p : ℕ → Prop} (hascii : ∀ number, p number → number < 0x80)

include hascii

theorem single_iff : p (single unit).toNat ↔ p unit.toNat := by
  by_cases h : IsHigh unit ∨ IsLow unit
  · refine iff_of_false (fun hp => ?_) fun hp => ?_
    · rw [single, if_pos h] at hp
      exact absurd (hascii _ hp) (by decide)
    · have := hascii _ hp
      unfold IsHigh IsLow at h
      omega
  · rw [toNat_single h]

theorem not_pair (hhigh : IsHigh unit) (hlow : IsLow next) :
    ¬ p (pair unit next).toNat ∧ ¬ p unit.toNat ∧ ¬ p next.toNat := by
  refine ⟨fun hp => ?_, fun hp => ?_, fun hp => ?_⟩
  all_goals
    have hless := hascii _ hp
  · rw [toNat_pair hhigh hlow] at hless
    omega
  · unfold IsHigh at hhigh
    omega
  · unfold IsLow at hlow
    omega

/-- An ASCII property holds of some unit exactly if it holds of some character. -/
theorem exists_mem_decode_iff (units : List UInt16) :
    (∃ c ∈ decode units, p c.toNat) ↔ ∃ unit ∈ units, p unit.toNat := by
  induction units using units_induction with
  | nil => simp [decode]
  | pair unit next rest hhigh hlow ih =>
    obtain ⟨hpair, hunit, hnext⟩ := not_pair hascii hhigh hlow
    rw [decode_pair hhigh hlow]
    simp only [List.mem_cons, exists_eq_or_imp, hpair, hunit, hnext, false_or]
    exact ih
  | single unit rest h ih =>
    rw [decode_single h]
    simp only [List.mem_cons, exists_eq_or_imp, single_iff hascii]
    exact or_congr_right ih

/-- An ASCII property holds of the first unit exactly if it holds of the first character. -/
theorem head_decode_iff (units : List UInt16) :
    (∃ c ∈ (decode units).head?, p c.toNat) ↔ ∃ unit ∈ units.head?, p unit.toNat := by
  induction units using units_induction with
  | nil => simp [decode]
  | pair unit next rest hhigh hlow ih =>
    obtain ⟨hpair, hunit, -⟩ := not_pair hascii hhigh hlow
    rw [decode_pair hhigh hlow]
    simp [hpair, hunit]
  | single unit rest h ih =>
    rw [decode_single h]
    simp [single_iff hascii]

end Ascii

theorem decode_eq_nil_iff (units : List UInt16) : decode units = [] ↔ units = [] := by
  rw [← List.length_eq_zero_iff (l := units), ← length_encode_decode]
  constructor
  · intro h
    rw [h]
    rfl
  · intro h
    cases hdecode : decode units with
    | nil => rfl
    | cons c text =>
      rw [hdecode, encode, List.flatMap_cons, List.length_append] at h
      unfold encodeChar at h
      split_ifs at h <;> simp at h

/-- An ASCII text is read from its own units only. -/
theorem decode_eq_iff {text : List Char} (hascii : ∀ c ∈ text, c.toNat < 0x80)
    (units : List UInt16) : decode units = text ↔ units = encode text := by
  constructor
  · intro h
    have hpaired : Paired units := by
      subst h
      induction units using units_induction with
      | nil => trivial
      | pair unit next rest hhigh hlow ih =>
        rw [decode_pair hhigh hlow] at hascii
        have hless := hascii _ List.mem_cons_self
        rw [toNat_pair hhigh hlow] at hless
        omega
      | single unit rest hsingle ih =>
        rw [decode_single hsingle] at hascii
        rw [paired_single hsingle]
        refine ⟨fun hsurrogate => ?_, ih fun c hc => hascii c (List.mem_cons_of_mem _ hc)⟩
        have hless := hascii _ List.mem_cons_self
        rw [single, if_pos hsurrogate] at hless
        exact absurd hless (by decide)
    rw [← h]
    exact ((encode_decode_iff units).mpr hpaired).symm
  · rintro rfl
    exact decode_encode text

end AgentCockpit.Core.Utf16
