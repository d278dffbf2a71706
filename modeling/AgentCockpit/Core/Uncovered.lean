import Mathlib.Data.List.Induction

/-!
# Entries that no entry before them covers

A list is gone through once, and an entry is kept if none of the entries before it covers it.
-/

namespace AgentCockpit.Core

variable {α : Type*} {R S : α → α → Prop} [DecidableRel R] [DecidableRel S] {l : List α} {a : α}

/-- The entries of a list that neither an entry before them nor one of the earlier ones covers. -/
def uncoveredFrom (R : α → α → Prop) [DecidableRel R] : List α → List α → List α
  | _, [] => []
  | earlier, a :: later =>
    (if ∃ b ∈ earlier, R b a then [] else [a]) ++ uncoveredFrom R (earlier ++ [a]) later

def uncovered (R : α → α → Prop) [DecidableRel R] (l : List α) : List α := uncoveredFrom R [] l

@[simp] theorem uncovered_nil : uncovered R [] = [] := rfl

theorem uncoveredFrom_append {earlier later : List α} :
    uncoveredFrom R earlier (l ++ later) =
      uncoveredFrom R earlier l ++ uncoveredFrom R (earlier ++ l) later := by
  induction l generalizing earlier with
  | nil => simp [uncoveredFrom]
  | cons a l ih =>
    rw [List.cons_append, uncoveredFrom, uncoveredFrom, ih]
    simp only [List.append_assoc, List.singleton_append]

theorem uncovered_concat :
    uncovered R (l ++ [a]) = uncovered R l ++ if ∃ b ∈ l, R b a then [] else [a] := by
  rw [uncovered, uncoveredFrom_append, List.nil_append, uncoveredFrom, uncoveredFrom,
    List.append_nil]
  rfl

theorem uncovered_sublist : (uncovered R l).Sublist l := by
  induction l using List.reverseRecOn with
  | nil => exact List.Sublist.slnil
  | append_singleton l c ih =>
    rw [uncovered_concat]
    split
    · exact ih.append (List.nil_sublist _)
    · exact ih.append (List.Sublist.refl _)

theorem mem_of_mem_uncovered (h : a ∈ uncovered R l) : a ∈ l := uncovered_sublist.subset h

theorem pairwise_uncovered : (uncovered R l).Pairwise fun a b => ¬ R a b := by
  induction l using List.reverseRecOn with
  | nil => exact List.Pairwise.nil
  | append_singleton l c ih =>
    rw [uncovered_concat, List.pairwise_append]
    split
    · exact ⟨ih, List.Pairwise.nil, fun a _ b hb => absurd hb List.not_mem_nil⟩
    · next hfree =>
      refine ⟨ih, List.pairwise_singleton _ _, fun a ha b hb hcovers => ?_⟩
      obtain rfl := List.mem_singleton.mp hb
      exact hfree ⟨a, mem_of_mem_uncovered ha, hcovers⟩

/-- Two relations keep the same entries if and only if they agree, for each entry, on whether
something before it covers it. -/
theorem uncovered_eq_iff (hR : ∀ a, R a a) (hS : ∀ a, S a a) :
    uncovered R l = uncovered S l ↔
      ∀ before a, before ++ [a] <+: l → ((∃ b ∈ before, R b a) ↔ ∃ b ∈ before, S b a) := by
  induction l using List.reverseRecOn with
  | nil => simp
  | append_singleton l c ih =>
    have hsplit : (∀ before a, before ++ [a] <+: l ++ [c] →
          ((∃ b ∈ before, R b a) ↔ ∃ b ∈ before, S b a)) ↔
        (∀ before a, before ++ [a] <+: l → ((∃ b ∈ before, R b a) ↔ ∃ b ∈ before, S b a)) ∧
          ((∃ b ∈ l, R b c) ↔ ∃ b ∈ l, S b c) := by
      constructor
      · intro h
        refine ⟨fun before a hfront => ?_, h l c List.prefix_rfl⟩
        exact h before a (hfront.trans (List.prefix_append l [c]))
      · rintro ⟨h, hlast⟩ before a hfront
        rcases List.prefix_concat_iff.mp hfront with heq | hfront
        · obtain ⟨rfl, hsame⟩ := List.append_inj' heq rfl
          obtain rfl := List.singleton_inj.mp hsame
          exact hlast
        · exact h before a hfront
    rw [hsplit, ← ih, uncovered_concat, uncovered_concat]
    constructor
    · intro heq
      -- What one relation keeps of the last entry the other one has kept before only if it was
      -- there.
      have hiff : (∃ b ∈ l, R b c) ↔ ∃ b ∈ l, S b c := by
        by_cases hc : c ∈ l
        · exact iff_of_true ⟨c, hc, hR c⟩ ⟨c, hc, hS c⟩
        · constructor
          · intro hcovered
            by_contra hfree
            rw [if_pos hcovered, if_neg hfree, List.append_nil] at heq
            exact hc (mem_of_mem_uncovered (R := R) (by
              rw [heq]; exact List.mem_append_right _ (List.mem_singleton_self c)))
          · intro hcovered
            by_contra hfree
            rw [if_pos hcovered, if_neg hfree, List.append_nil] at heq
            exact hc (mem_of_mem_uncovered (R := S) (by
              rw [← heq]; exact List.mem_append_right _ (List.mem_singleton_self c)))
      simp only [hiff] at heq
      exact ⟨List.append_cancel_right heq, hiff⟩
    · rintro ⟨heq, hiff⟩
      simp only [heq, hiff]

end AgentCockpit.Core
