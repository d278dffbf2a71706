import Mathlib.Data.List.Infix

/-!
# Occurrences of a pattern in a stream

Where a pattern stands in a list, and what is known of that when the list is the first part of a
longer one: an occurrence within the first part stays, and one that goes beyond it begins with an
end of the first part that is a proper prefix of the pattern. A search that has found nothing may
therefore forget all of its input but the longest such end.
-/

namespace AgentCockpit.Core

variable {α : Type*} {pattern data more : List α} {i j n : ℕ}

/-- The pattern stands at a position. -/
def OccursAt (pattern data : List α) (i : ℕ) : Prop := pattern <+: data.drop i

/-- The pattern stands at a position, and at no earlier one. -/
structure FirstAt (pattern data : List α) (i : ℕ) : Prop where
  occurs : OccursAt pattern data i
  first : ∀ j < i, ¬ OccursAt pattern data j

theorem OccursAt.length_le (h : OccursAt pattern data i) (hne : pattern ≠ []) :
    i + pattern.length ≤ data.length := by
  have hlength := List.IsPrefix.length_le h
  have hpos := List.length_pos_iff.mpr hne
  rw [List.length_drop] at hlength
  omega

theorem OccursAt.append (h : OccursAt pattern data i) (hne : pattern ≠ []) (more : List α) :
    OccursAt pattern (data ++ more) i := by
  have hlength := h.length_le hne
  unfold OccursAt
  rw [List.drop_append_of_le_length (by omega)]
  exact List.IsPrefix.trans h (List.prefix_append _ _)

theorem occursAt_of_append (h : OccursAt pattern (data ++ more) i)
    (hle : i + pattern.length ≤ data.length) : OccursAt pattern data i := by
  unfold OccursAt at h
  rw [List.drop_append_of_le_length (by omega)] at h
  refine List.prefix_of_prefix_length_le h (List.prefix_append _ _) ?_
  rw [List.length_drop]
  omega

theorem occursAt_append_iff (data : List α) :
    OccursAt pattern (data ++ more) (data.length + i) ↔ OccursAt pattern more i := by
  unfold OccursAt
  rw [List.drop_append, List.drop_eq_nil_of_le (by omega), List.nil_append,
    Nat.add_sub_cancel_left]

/-- What an occurrence that goes beyond the first part has of it. -/
theorem OccursAt.overlap (h : OccursAt pattern (data ++ more) i) (hi : i ≤ data.length)
    (hlong : data.length ≤ i + pattern.length) :
    data.drop i = pattern.take (data.length - i) := by
  unfold OccursAt at h
  rw [List.drop_append_of_le_length hi] at h
  have hlength : (data.drop i).length = data.length - i := List.length_drop
  have hprefix : data.drop i <+: pattern :=
    List.prefix_of_prefix_length_le (List.prefix_append _ _) h (by omega)
  rw [List.prefix_iff_eq_take.mp hprefix, hlength]

namespace FirstAt

theorem eq (h : FirstAt pattern data i) (h' : FirstAt pattern data j) : i = j := by
  rcases Nat.lt_trichotomy i j with hlt | heq | hgt
  · exact absurd h.occurs (h'.first i hlt)
  · exact heq
  · exact absurd h'.occurs (h.first j hgt)

/-- A first occurrence stays the first when the list goes on. -/
theorem append (h : FirstAt pattern data i) (hne : pattern ≠ []) (more : List α) :
    FirstAt pattern (data ++ more) i where
  occurs := h.occurs.append hne more
  first j hj hoccurs := by
    have hlength := h.occurs.length_le hne
    exact h.first j hj (occursAt_of_append hoccurs (by omega))

end FirstAt

/-- A search that has found nothing may forget what stands before the longest end of its input that
is a proper prefix of the pattern. -/
theorem not_occursAt_of_held (hnone : ∀ j, ¬ OccursAt pattern data j)
    (hheld : ∀ m < pattern.length, m ≤ data.length →
      data.drop (data.length - m) = pattern.take m → m ≤ n)
    (hj : j + n < data.length) : ¬ OccursAt pattern (data ++ more) j := by
  intro hoccurs
  by_cases hwithin : j + pattern.length ≤ data.length
  · exact hnone j (occursAt_of_append hoccurs hwithin)
  · have hoverlap := hoccurs.overlap (by omega) (by omega)
    have hstart : data.length - (data.length - j) = j := by omega
    have hle := hheld (data.length - j) (by omega) (by omega) (by rw [hstart, hoverlap])
    omega

/-- Where nothing begins in the first part, the first occurrence is that of the rest. -/
theorem firstAt_append_iff (hnone : ∀ j < data.length, ¬ OccursAt pattern (data ++ more) j) :
    FirstAt pattern (data ++ more) (data.length + i) ↔ FirstAt pattern more i := by
  constructor
  · intro h
    refine ⟨(occursAt_append_iff data).mp h.occurs, fun j hj hoccurs => ?_⟩
    exact h.first (data.length + j) (by omega) ((occursAt_append_iff data).mpr hoccurs)
  · intro h
    refine ⟨(occursAt_append_iff data).mpr h.occurs, fun j hj hoccurs => ?_⟩
    by_cases hwithin : j < data.length
    · exact hnone j hwithin hoccurs
    · obtain ⟨k, rfl⟩ := Nat.exists_eq_add_of_le (Nat.le_of_not_lt hwithin)
      exact h.first k (by omega) ((occursAt_append_iff data).mp hoccurs)

end AgentCockpit.Core
