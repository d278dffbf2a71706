import Mathlib.Data.List.Nodup

/-!
# Lineages

Where everything has at most one parent, one can go from parent to parent. Either this ends at a
root, and then nothing comes twice on the way, or it goes on in a circle.
-/

namespace AgentCockpit.Core

variable {α : Type*} {parent : α → Option α} {a p : α} {above above' : List α}

/-- The ancestors up to a root, the parent first. -/
inductive Lineage (parent : α → Option α) : α → List α → Prop
  | root {a : α} : parent a = none → Lineage parent a []
  | child {a p : α} {above : List α} :
      parent a = some p → Lineage parent p above → Lineage parent a (p :: above)

/-- The way from parent to parent ends. -/
def Grounded (parent : α → Option α) (a : α) : Prop := ∃ above, Lineage parent a above

theorem lineage_cons_iff :
    Lineage parent a (p :: above) ↔ parent a = some p ∧ Lineage parent p above := by
  constructor
  · rintro ⟨⟩
    next hparent h => exact ⟨hparent, h⟩
  · rintro ⟨hparent, h⟩
    exact .child hparent h

theorem Lineage.unique (h : Lineage parent a above) (h' : Lineage parent a above') :
    above = above' := by
  induction h generalizing above' with
  | root hroot =>
    cases h' with
    | root => rfl
    | child hparent => exact absurd (hroot.symm.trans hparent) nofun
  | child hparent _ ih =>
    cases h' with
    | root hroot => exact absurd (hroot.symm.trans hparent) nofun
    | child hparent' h' =>
      obtain rfl := Option.some.inj (hparent.symm.trans hparent')
      rw [ih h']

/-- The ancestors of an ancestor. -/
theorem Lineage.of_append {front back : List α} (h : Lineage parent a (front ++ p :: back)) :
    Lineage parent p back := by
  induction front generalizing a with
  | nil => exact (lineage_cons_iff.mp h).2
  | cons q front ih => exact ih (lineage_cons_iff.mp h).2

theorem Lineage.of_suffix {back : List α} (h : Lineage parent a above)
    (hsuffix : (p :: back) <:+ (a :: above)) : Lineage parent p back := by
  rcases List.suffix_cons_iff.mp hsuffix with heq | ⟨front, rfl⟩
  · obtain ⟨rfl, rfl⟩ := List.cons.inj heq
    exact h
  · exact h.of_append

/-- Below each ancestor there is a child on the way. -/
theorem exists_suffix_of_suffix_tail {l : List α} (h : l <:+ above) :
    ∃ c, (c :: l) <:+ (a :: above) := by
  obtain ⟨front, rfl⟩ := h
  induction front generalizing a with
  | nil => exact ⟨a, List.suffix_refl _⟩
  | cons b front ih =>
    obtain ⟨c, hc⟩ := ih (a := b)
    exact ⟨c, hc.trans (List.suffix_cons a _)⟩

theorem Lineage.not_mem (h : Lineage parent a above) : a ∉ above := by
  intro hmem
  obtain ⟨front, back, rfl⟩ := List.append_of_mem hmem
  have hlength := congrArg List.length (h.of_append.unique h)
  rw [List.length_append, List.length_cons] at hlength
  omega

theorem Lineage.nodup (h : Lineage parent a above) : (a :: above).Nodup := by
  induction h with
  | root hroot => exact List.nodup_singleton _
  | child hparent h ih => exact List.nodup_cons.mpr ⟨(Lineage.child hparent h).not_mem, ih⟩

end AgentCockpit.Core
