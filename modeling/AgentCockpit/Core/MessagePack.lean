import Mathlib

/-!
# Sizes of packed values

The MessagePack format writes a value as a header and its contents. A header is longer for a longer
text, array or map. A packer writes the shortest header that there is; of a number the format only
says that it takes one to nine bytes.
-/

namespace AgentCockpit.Core

inductive Packed
  | nil
  | bool (value : Bool)
  | uint (number : ℕ)
  | str (text : List UInt8)
  | bin (data : List UInt8)
  | array (items : List Packed)
  | map (fields : List (List UInt8 × Packed))

/-- The header of a text. -/
def strHeader (length : ℕ) : ℕ :=
  if length < 32 then 1 else if length < 256 then 2 else if length < 65536 then 3 else 5

/-- The header of binary data. -/
def binHeader (length : ℕ) : ℕ :=
  if length < 256 then 2 else if length < 65536 then 3 else 5

/-- The header of an array or a map. -/
def countHeader (count : ℕ) : ℕ :=
  if count < 16 then 1 else if count < 65536 then 3 else 5

theorem binHeader_le (length : ℕ) : binHeader length ≤ 5 := by
  unfold binHeader
  split_ifs <;> decide

theorem countHeader_le (count : ℕ) : countHeader count ≤ 5 := by
  unfold countHeader
  split_ifs <;> decide

/-- A function that packs values, and the sizes of what it writes. -/
structure Packer where
  marshal : Packed → List UInt8
  uintSize : ℕ → ℕ
  uintSize_pos : ∀ number, 1 ≤ uintSize number
  uintSize_le : ∀ number, uintSize number ≤ 9
  length_nil : (marshal .nil).length = 1
  length_bool : ∀ value, (marshal (.bool value)).length = 1
  length_uint : ∀ number, (marshal (.uint number)).length = uintSize number
  length_str : ∀ text, (marshal (.str text)).length = strHeader text.length + text.length
  length_bin : ∀ data, (marshal (.bin data)).length = binHeader data.length + data.length
  length_array : ∀ items, (marshal (.array items)).length =
    countHeader items.length + (items.map fun item => (marshal item).length).sum
  length_map : ∀ fields, (marshal (.map fields)).length =
    countHeader fields.length +
      (fields.map fun field => (marshal (.str field.1)).length + (marshal field.2).length).sum

/-! ### A packer -/

/-- The bytes of a number, the most significant first. -/
def bigEndianBytes (width number : ℕ) : List UInt8 :=
  ((List.range width).map fun i => UInt8.ofNat (number / 256 ^ i)).reverse

@[simp] theorem length_bigEndianBytes (width number : ℕ) :
    (bigEndianBytes width number).length = width := by
  simp [bigEndianBytes]

/-- A text with its header. -/
def packStr (text : List UInt8) : List UInt8 :=
  (if text.length < 32 then [UInt8.ofNat (0xA0 + text.length)]
    else if text.length < 256 then 0xD9 :: bigEndianBytes 1 text.length
    else if text.length < 65536 then 0xDA :: bigEndianBytes 2 text.length
    else 0xDB :: bigEndianBytes 4 text.length) ++ text

def packBin (data : List UInt8) : List UInt8 :=
  (if data.length < 256 then 0xC4 :: bigEndianBytes 1 data.length
    else if data.length < 65536 then 0xC5 :: bigEndianBytes 2 data.length
    else 0xC6 :: bigEndianBytes 4 data.length) ++ data

/-- The header of an array or a map, with the first bytes of its three forms. -/
def packCount (fixed short long : UInt8) (count : ℕ) : List UInt8 :=
  if count < 16 then [fixed + UInt8.ofNat count]
  else if count < 65536 then short :: bigEndianBytes 2 count
  else long :: bigEndianBytes 4 count

@[simp] theorem length_packStr (text : List UInt8) :
    (packStr text).length = strHeader text.length + text.length := by
  unfold packStr strHeader
  rw [List.length_append]
  congr 1
  split_ifs <;> simp

@[simp] theorem length_packBin (data : List UInt8) :
    (packBin data).length = binHeader data.length + data.length := by
  unfold packBin binHeader
  rw [List.length_append]
  congr 1
  split_ifs <;> simp

@[simp] theorem length_packCount (fixed short long : UInt8) (count : ℕ) :
    (packCount fixed short long count).length = countHeader count := by
  unfold packCount countHeader
  split_ifs <;> simp

mutual

/-- Pack a value, every number in nine bytes. -/
def packWide : Packed → List UInt8
  | .nil => [0xC0]
  | .bool value => [if value then 0xC3 else 0xC2]
  | .uint number => 0xCF :: bigEndianBytes 8 number
  | .str text => packStr text
  | .bin data => packBin data
  | .array items => packCount 0x90 0xDC 0xDD items.length ++ packItems items
  | .map fields => packCount 0x80 0xDE 0xDF fields.length ++ packFields fields

def packItems : List Packed → List UInt8
  | [] => []
  | item :: items => packWide item ++ packItems items

def packFields : List (List UInt8 × Packed) → List UInt8
  | [] => []
  | (name, value) :: fields => packStr name ++ packWide value ++ packFields fields

end

theorem length_packItems (items : List Packed) :
    (packItems items).length = (items.map fun item => (packWide item).length).sum := by
  induction items with
  | nil => rfl
  | cons item items ih => rw [packItems, List.length_append, ih, List.map_cons, List.sum_cons]

theorem length_packFields (fields : List (List UInt8 × Packed)) :
    (packFields fields).length =
      (fields.map fun field => (packStr field.1).length + (packWide field.2).length).sum := by
  induction fields with
  | nil => rfl
  | cons field fields ih =>
    rw [packFields, List.length_append, List.length_append, ih, List.map_cons, List.sum_cons]

def widePacker : Packer where
  marshal := packWide
  uintSize := fun _ => 9
  uintSize_pos := fun _ => by decide
  uintSize_le := fun _ => Nat.le_refl 9
  length_nil := by rw [packWide]; rfl
  length_bool := fun value => by rw [packWide]; rfl
  length_uint := fun number => by rw [packWide]; simp
  length_str := fun text => by rw [packWide, length_packStr]
  length_bin := fun data => by rw [packWide, length_packBin]
  length_array := fun items => by
    rw [packWide, List.length_append, length_packCount, length_packItems]
  length_map := fun fields => by
    rw [packWide, List.length_append, length_packCount, length_packFields]
    simp only [packWide]

end AgentCockpit.Core
