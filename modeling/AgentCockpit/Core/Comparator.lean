import AgentCockpit.Core.Before
import Mathlib.Algebra.Order.Ring.Rat
import Mathlib.Data.List.Sort

/-!
# Sorting with a comparator

A comparator says by the sign of a number which of two values comes first. Sorting with it is
stable: values that it does not tell apart stay in the order in which they came.

## Main results

* `Comparator.pairwise_sort` — **what stands before what**
-/

namespace AgentCockpit.Core

variable {α β : Type*}

abbrev Comparator (α : Type*) := α → α → ℚ

namespace Comparator

/-- The comparator makes a total preorder. -/
structure Lawful (compare : Comparator α) : Prop where
  swap : ∀ a b, 0 < compare a b ↔ compare b a < 0
  trans : ∀ a b c, compare a b ≤ 0 → compare b c ≤ 0 → compare a c ≤ 0

variable {compare : Comparator α} {l : List α} {a b : α}

theorem Lawful.nonneg_iff (h : Lawful compare) : 0 ≤ compare a b ↔ compare b a ≤ 0 := by
  rw [← not_lt, ← h.swap b a, not_lt]

theorem Lawful.total (h : Lawful compare) (a b : α) : compare a b ≤ 0 ∨ compare b a ≤ 0 := by
  rw [← h.nonneg_iff]
  exact le_total _ _

/-- The stable sort. -/
def sort (compare : Comparator α) (l : List α) : List α :=
  l.insertionSort fun a b => compare a b ≤ 0

@[simp] theorem mem_sort : a ∈ sort compare l ↔ a ∈ l := List.mem_insertionSort _

theorem perm_sort (compare : Comparator α) (l : List α) : (sort compare l).Perm l :=
  List.perm_insertionSort _ _

theorem nodup_sort (hl : l.Nodup) : (sort compare l).Nodup := (perm_sort compare l).nodup_iff.mpr hl

theorem pairwise_sort_nonpos (h : Lawful compare) (l : List α) :
    (sort compare l).Pairwise fun a b => compare a b ≤ 0 := by
  have htotal : Std.Total fun a b => compare a b ≤ 0 := ⟨h.total⟩
  have htrans : IsTrans α fun a b => compare a b ≤ 0 := ⟨h.trans⟩
  exact List.pairwise_insertionSort (fun a b => compare a b ≤ 0) l

/-- **What stands before what** in a sorted list: what the comparator puts first, and what came
first where it does not tell apart. -/
theorem pairwise_sort (h : Lawful compare) (hl : l.Nodup) :
    (sort compare l).Pairwise fun a b => compare a b < 0 ∨ (compare a b = 0 ∧ Before l a b) := by
  have htotal : Std.Total fun a b => compare a b ≤ 0 := ⟨h.total⟩
  have htrans : IsTrans α fun a b => compare a b ≤ 0 := ⟨h.trans⟩
  refine ((pairwise_sort_nonpos h l).and (pairwise_before (List.Sublist.refl _))).imp_of_mem ?_
  rintro a b ha hb ⟨hle, hbefore⟩
  rcases lt_or_eq_of_le hle with hlt | heq
  · exact .inl hlt
  · refine .inr ⟨heq, ?_⟩
    -- Had they come in the other order, then the sort would have kept it.
    have hnodup : (sort compare l).Nodup := nodup_sort hl
    rcases before_or_before (mem_sort.mp ha) (mem_sort.mp hb) (hbefore.ne hnodup)
      with hfirst | hfirst
    · exact hfirst
    · have hkept : Before (sort compare l) b a :=
        List.pair_sublist_insertionSort (h.nonneg_iff.mp heq.ge) hfirst
      exact absurd hkept (hbefore.asymm hnodup)

/-! ### Comparators from others -/

/-- Values are compared by their keys. -/
def comap (key : α → β) (compare : Comparator β) : Comparator α :=
  fun a b => compare (key a) (key b)

theorem Lawful.comap {compare : Comparator β} (h : Lawful compare) (key : α → β) :
    Lawful (Comparator.comap key compare) where
  swap a b := h.swap (key a) (key b)
  trans a b c := h.trans (key a) (key b) (key c)

def reverse (compare : Comparator α) : Comparator α := fun a b => -compare a b

theorem Lawful.reverse (h : Lawful compare) : Lawful (Comparator.reverse compare) where
  swap a b := by
    simp only [Comparator.reverse, Left.neg_neg_iff, Left.neg_pos_iff]
    exact (h.swap b a).symm
  trans a b c := by
    simp only [Comparator.reverse, Left.neg_nonpos_iff, h.nonneg_iff]
    exact fun hab hbc => h.trans c b a hbc hab

/-- What has no key comes last. -/
def blanksLast (compare : Comparator α) : Comparator (Option α)
  | some a, some b => compare a b
  | some _, none => -1
  | none, some _ => 1
  | none, none => 0

theorem Lawful.blanksLast (h : Lawful compare) : Lawful (Comparator.blanksLast compare) where
  swap a b := by
    cases a with
    | none => cases b <;> simp [Comparator.blanksLast]
    | some a =>
      cases b with
      | none => simp [Comparator.blanksLast]
      | some b => exact h.swap a b
  trans a b c hab hbc := by
    cases a with
    | none =>
      cases b with
      | none => exact hbc
      | some b => exact absurd hab (not_le.mpr one_pos)
    | some a =>
      cases c with
      | none => exact neg_one_lt_zero.le
      | some c =>
        cases b with
        | none => exact absurd hbc (not_le.mpr one_pos)
        | some b => exact h.trans a b c hab hbc

/-- Numbers are compared by their difference. -/
def difference : Comparator ℚ := fun a b => a - b

theorem lawful_difference : Lawful difference where
  swap a b := by rw [difference, difference, sub_pos, sub_neg]
  trans a b c := by
    simp only [difference, sub_nonpos]
    exact le_trans

/-- What the first comparator does not tell apart is left to the second one. -/
def thenBy (first second : Comparator α) : Comparator α := fun a b =>
  if first a b = 0 then second a b else first a b

theorem thenBy_nonpos {first second : Comparator α} :
    thenBy first second a b ≤ 0 ↔ first a b < 0 ∨ (first a b = 0 ∧ second a b ≤ 0) := by
  rw [thenBy]
  split
  · next heq => simp [heq]
  · next hne => simp [hne, le_iff_lt_or_eq]

theorem Lawful.lt_of_lt_of_le (h : Lawful compare) {c : α} (hab : compare a b < 0)
    (hbc : compare b c ≤ 0) : compare a c < 0 := by
  by_contra hac
  have hca : compare c a ≤ 0 := h.nonneg_iff.mp (not_lt.mp hac)
  exact absurd (h.nonneg_iff.mpr (h.trans b c a hbc hca)) (not_le.mpr hab)

theorem Lawful.lt_of_le_of_lt (h : Lawful compare) {c : α} (hab : compare a b ≤ 0)
    (hbc : compare b c < 0) : compare a c < 0 := by
  by_contra hac
  have hca : compare c a ≤ 0 := h.nonneg_iff.mp (not_lt.mp hac)
  exact absurd (h.nonneg_iff.mpr (h.trans c a b hca hab)) (not_le.mpr hbc)

theorem Lawful.thenBy {first second : Comparator α} (hfirst : Lawful first)
    (hsecond : Lawful second) :
    Lawful (Comparator.thenBy first second) where
  swap a b := by
    have hzero : first a b = 0 ↔ first b a = 0 := by
      simp only [le_antisymm_iff, ← hfirst.nonneg_iff (a := a) (b := b),
        ← hfirst.nonneg_iff (a := b) (b := a), and_comm]
    rw [Comparator.thenBy, Comparator.thenBy]
    simp only [hzero]
    split
    · exact hsecond.swap a b
    · exact hfirst.swap a b
  trans a b c hab hbc := by
    rw [thenBy_nonpos] at hab hbc ⊢
    rcases hab with hab | ⟨hab, hab'⟩
    · rcases hbc with hbc | ⟨hbc, -⟩
      · exact .inl (hfirst.lt_of_lt_of_le hab hbc.le)
      · exact .inl (hfirst.lt_of_lt_of_le hab hbc.le)
    · rcases hbc with hbc | ⟨hbc, hbc'⟩
      · exact .inl (hfirst.lt_of_le_of_lt hab.le hbc)
      · have hle := hfirst.trans a b c hab.le hbc.le
        rcases lt_or_eq_of_le hle with hlt | heq
        · exact .inl hlt
        · exact .inr ⟨heq, hsecond.trans a b c hab' hbc'⟩

/-- Values of a linear order are compared by it. -/
def ofOrder [LinearOrder α] : Comparator α :=
  fun a b => if a < b then -1 else if b < a then 1 else 0

theorem ofOrder_nonpos [LinearOrder α] {a b : α} : ofOrder a b ≤ 0 ↔ a ≤ b := by
  rw [ofOrder]
  split
  · next hlt => exact iff_of_true neg_one_lt_zero.le hlt.le
  · split
    · next hlt => exact iff_of_false (not_le.mpr one_pos) (not_le.mpr hlt)
    · next hle => exact iff_of_true le_rfl (not_lt.mp hle)

theorem lawful_ofOrder [LinearOrder α] : Lawful (ofOrder (α := α)) where
  swap a b := by
    rw [← not_le, ofOrder_nonpos, not_le, ofOrder]
    split
    · next hlt => exact iff_of_true hlt neg_one_lt_zero
    · next hle =>
      refine iff_of_false hle ?_
      split
      · exact not_lt.mpr one_pos.le
      · exact lt_irrefl _
  trans a b c := by
    simp only [ofOrder_nonpos]
    exact le_trans

end Comparator

end AgentCockpit.Core
