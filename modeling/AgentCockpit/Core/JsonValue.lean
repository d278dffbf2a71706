import AgentCockpit.Core.Binary64

/-!
# JSON values

A JSON value over a type of strings and a type of numbers. What a library makes of a document is
the same tree with other strings and other numbers, and a program that reads the member of a name
sees the last one of that name. If no other name is read as that name, then the member is the same
one before and after.
-/

namespace AgentCockpit.Core

/-- A value with strings of type `σ` and numbers of type `ν`. -/
inductive JsonValue (σ ν : Type)
  | null
  | bool (value : Bool)
  | number (value : ν)
  | string (value : σ)
  | array (items : List (JsonValue σ ν))
  | object (members : List (σ × JsonValue σ ν))

namespace JsonValue

variable {σ σ' ν ν' : Type}

section Map

variable (f : σ → σ') (g : ν → ν')

mutual

/-- Put other strings, names included, and other numbers in their place. -/
def map : JsonValue σ ν → JsonValue σ' ν'
  | null => null
  | bool value => bool value
  | number value => number (g value)
  | string value => string (f value)
  | array items => array (mapItems items)
  | object members => object (mapMembers members)

def mapItems : List (JsonValue σ ν) → List (JsonValue σ' ν')
  | [] => []
  | item :: items => map item :: mapItems items

def mapMembers : List (σ × JsonValue σ ν) → List (σ' × JsonValue σ' ν')
  | [] => []
  | (name, value) :: members => (f name, map value) :: mapMembers members

end

end Map

/-! ### Nesting -/

mutual

/-- How deep arrays and objects are nested. -/
def depth : JsonValue σ ν → ℕ
  | null => 0
  | bool _ => 0
  | number _ => 0
  | string _ => 0
  | array items => depthItems items + 1
  | object members => depthMembers members + 1

def depthItems : List (JsonValue σ ν) → ℕ
  | [] => 0
  | item :: items => max (depth item) (depthItems items)

def depthMembers : List (σ × JsonValue σ ν) → ℕ
  | [] => 0
  | (_, value) :: members => max (depth value) (depthMembers members)

end

/-! ### Kinds of values -/

def asObject : JsonValue σ ν → Option (List (σ × JsonValue σ ν))
  | object members => some members
  | _ => none

def asString : JsonValue σ ν → Option σ
  | string value => some value
  | _ => none

def asNumber : JsonValue σ ν → Option ν
  | number value => some value
  | _ => none

def isNull : JsonValue σ ν → Bool
  | null => true
  | _ => false

section Map

variable (f : σ → σ') (g : ν → ν') (value : JsonValue σ ν)

@[simp] theorem asObject_map : (value.map f g).asObject = value.asObject.map (mapMembers f g) := by
  cases value <;> rfl

@[simp] theorem asString_map : (value.map f g).asString = value.asString.map f := by
  cases value <;> rfl

@[simp] theorem asNumber_map : (value.map f g).asNumber = value.asNumber.map g := by
  cases value <;> rfl

@[simp] theorem isNull_map : (value.map f g).isNull = value.isNull := by
  cases value <;> rfl

end Map

theorem asObject_eq_some {value : JsonValue σ ν} {members : List (σ × JsonValue σ ν)} :
    value.asObject = some members ↔ value = object members := by
  cases value <;> simp [asObject]

theorem asString_eq_some {value : JsonValue σ ν} {text : σ} :
    value.asString = some text ↔ value = string text := by
  cases value <;> simp [asString]

theorem asNumber_eq_some {value : JsonValue σ ν} {n : ν} :
    value.asNumber = some n ↔ value = number n := by
  cases value <;> simp [asNumber]

/-! ### Members -/

section Lookup

variable [DecidableEq σ] [DecidableEq σ']

/-- The member of a name. A later member takes the place of an earlier one. -/
def lookup (name : σ) : List (σ × JsonValue σ ν) → Option (JsonValue σ ν)
  | [] => none
  | (other, value) :: members =>
    match lookup name members with
    | some later => some later
    | none => if other = name then some value else none

/-- A member is read alike before and after, if no other name is read as its name. -/
theorem lookup_mapMembers {f : σ → σ'} (g : ν → ν') {name : σ}
    (hname : ∀ other, f other = f name ↔ other = name) (members : List (σ × JsonValue σ ν)) :
    lookup (f name) (mapMembers f g members) = (lookup name members).map (map f g) := by
  induction members with
  | nil => rfl
  | cons member members ih =>
    obtain ⟨other, value⟩ := member
    rw [mapMembers, lookup, lookup, ih]
    cases lookup name members with
    | some later => rfl
    | none =>
      simp only [Option.map_none, hname]
      by_cases h : other = name
      · rw [if_pos h, if_pos h, Option.map_some]
      · rw [if_neg h, if_neg h, Option.map_none]

end Lookup

end JsonValue

/-! ### Numbers -/

/-- A number as a document writes it: all digits, and the power of ten of the last one. -/
structure Decimal where
  negative : Bool
  digits : ℕ
  exponent : ℤ
  deriving DecidableEq, Repr

namespace Decimal

def toRat (decimal : Decimal) : ℚ :=
  (if decimal.negative then -1 else 1) * decimal.digits * 10 ^ decimal.exponent

/-- The number that a program reads, or `none` if that is infinite. -/
def toDouble (decimal : Decimal) : Option ℚ := Binary64.round decimal.toRat

def ofInt (n : ℤ) : Decimal := ⟨n < 0, n.natAbs, 0⟩

/-- A small integer is read exactly. -/
theorem toDouble_ofInt {n : ℤ} (h : |n| < 2 ^ 53) : (ofInt n).toDouble = some (n : ℚ) := by
  have hrat : (ofInt n).toRat = (n : ℚ) := by
    rw [ofInt, toRat]
    by_cases hneg : n < 0
    · simp [hneg, Nat.cast_natAbs, abs_of_neg hneg]
    · simp [hneg, Nat.cast_natAbs, abs_of_nonneg (not_lt.mp hneg)]
  rw [toDouble, hrat, Binary64.round_intCast h]

end Decimal

end AgentCockpit.Core
