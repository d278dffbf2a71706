import Mathlib.Data.List.DropRight

/-!
# Trailing elements

What is dropped at the end of a list that comes in two parts.
-/

namespace AgentCockpit.Core

variable {α : Type*} {p : α → Bool} {front back : List α}

theorem rdropWhile_append_of_forall (h : ∀ x ∈ back, p x) :
    (front ++ back).rdropWhile p = front.rdropWhile p := by
  induction back using List.reverseRecOn with
  | nil => rw [List.append_nil]
  | append_singleton back last ih =>
    rw [← List.append_assoc, List.rdropWhile_concat_pos _ _ _ (h last (by simp))]
    exact ih fun x hx => h x (List.mem_append_left _ hx)

theorem rdropWhile_append_of_exists (h : ∃ x ∈ back, ¬ p x) :
    (front ++ back).rdropWhile p = front ++ back.rdropWhile p := by
  induction back using List.reverseRecOn with
  | nil => simp at h
  | append_singleton back last ih =>
    rw [← List.append_assoc]
    by_cases hlast : p last
    · -- The last element goes, and what is to stay is in front of it.
      rw [List.rdropWhile_concat_pos _ _ _ hlast, List.rdropWhile_concat_pos _ _ _ hlast]
      apply ih
      obtain ⟨x, hx, hstays⟩ := h
      rcases List.mem_append.mp hx with hfront | hsingle
      · exact ⟨x, hfront, hstays⟩
      · exact absurd (List.mem_singleton.mp hsingle ▸ hlast) hstays
    · rw [List.rdropWhile_concat_neg _ _ _ hlast, List.rdropWhile_concat_neg _ _ _ hlast,
        List.append_assoc]

theorem rdropWhile_eq_self (h : ∀ x ∈ front.getLast?, ¬ p x) : front.rdropWhile p = front :=
  List.rdropWhile_eq_self_iff.mpr fun hne => h _ (List.getLast_mem_getLast? hne)

/-- A part whose last element stays is kept whole. -/
theorem rdropWhile_append (h : ∀ x ∈ front.getLast?, ¬ p x) :
    (front ++ back).rdropWhile p = front ++ back.rdropWhile p := by
  by_cases hback : ∀ x ∈ back, p x
  · have hnil : back.rdropWhile p = [] := List.rdropWhile_eq_nil_iff.mpr hback
    rw [rdropWhile_append_of_forall hback, hnil, rdropWhile_eq_self h, List.append_nil]
  · obtain ⟨x, hx, hstays⟩ := not_forall₂.mp hback
    exact rdropWhile_append_of_exists ⟨x, hx, hstays⟩

/-- Dropping more at the end makes up for dropping less before. -/
theorem rdropWhile_rdropWhile {q : α → Bool} (h : ∀ x, p x → q x) (l : List α) :
    (l.rdropWhile p).rdropWhile q = l.rdropWhile q := by
  have hsplit : l.rdropWhile p ++ l.rtakeWhile p = l := List.rdropWhile_append_rtakeWhile
  conv_rhs => rw [← hsplit]
  symm
  apply rdropWhile_append_of_forall
  intro x hx
  exact h x (List.mem_rtakeWhile_imp hx)

end AgentCockpit.Core
