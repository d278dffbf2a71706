import Mathlib.Data.List.Nodup

/-!
# The order of a list

One entry of a list stands before another. Where no entry stands twice this is a strict order of the
entries, and any two of them are comparable.
-/

namespace AgentCockpit.Core

variable {α : Type*} {l : List α} {a b : α}

/-- One entry stands before another. -/
def Before (l : List α) (a b : α) : Prop := [a, b].Sublist l

theorem before_iff : Before l a b ↔ ∃ p q : ℕ, p < q ∧ l[p]? = some a ∧ l[q]? = some b := by
  constructor
  · intro h
    have hpairs : l.Pairwise fun x y => ∃ p q : ℕ, p < q ∧ l[p]? = some x ∧ l[q]? = some y :=
      List.pairwise_iff_getElem.mpr fun p q hp hq hlt =>
        ⟨p, q, hlt, List.getElem?_eq_getElem hp, List.getElem?_eq_getElem hq⟩
    exact hpairs.forall_sublist h
  · rintro ⟨p, q, hlt, ha, hb⟩
    obtain ⟨hp, rfl⟩ := List.getElem?_eq_some_iff.mp ha
    obtain ⟨hq, rfl⟩ := List.getElem?_eq_some_iff.mp hb
    exact List.pairwise_iff_getElem.mp
      (List.pairwise_of_forall_sublist fun h => h : l.Pairwise (Before l)) p q hp hq hlt

theorem before_filter {p : α → Bool} :
    Before (l.filter p) a b ↔ Before l a b ∧ p a = true ∧ p b = true := by
  constructor
  · intro h
    exact ⟨h.trans List.filter_sublist, (List.mem_filter.mp (h.subset (by simp))).2,
      (List.mem_filter.mp (h.subset (by simp))).2⟩
  · rintro ⟨h, ha, hb⟩
    have hfilter := List.Sublist.filter p h
    rwa [List.filter_cons_of_pos ha, List.filter_cons_of_pos hb, List.filter_nil] at hfilter

theorem Before.asymm (h : Before l a b) (hl : l.Nodup) : ¬ Before l b a := by
  intro h'
  obtain ⟨p, q, hlt, ha, hb⟩ := before_iff.mp h
  obtain ⟨p', q', hlt', hb', ha'⟩ := before_iff.mp h'
  obtain ⟨hp, rfl⟩ := List.getElem?_eq_some_iff.mp ha
  obtain ⟨hq, rfl⟩ := List.getElem?_eq_some_iff.mp hb
  obtain ⟨hp', heqp⟩ := List.getElem?_eq_some_iff.mp hb'
  obtain ⟨hq', heqq⟩ := List.getElem?_eq_some_iff.mp ha'
  have hone := hl.getElem_inj_iff.mp heqp
  have htwo := hl.getElem_inj_iff.mp heqq
  omega

theorem Before.ne (h : Before l a b) (hl : l.Nodup) : a ≠ b := by
  rintro rfl
  exact h.asymm hl h

theorem before_or_before (ha : a ∈ l) (hb : b ∈ l) (hne : a ≠ b) : Before l a b ∨ Before l b a := by
  obtain ⟨p, hp, rfl⟩ := List.mem_iff_getElem.mp ha
  obtain ⟨q, hq, rfl⟩ := List.mem_iff_getElem.mp hb
  rcases Nat.lt_trichotomy p q with hlt | rfl | hlt
  · exact .inl (before_iff.mpr
      ⟨p, q, hlt, List.getElem?_eq_getElem hp, List.getElem?_eq_getElem hq⟩)
  · exact absurd rfl hne
  · exact .inr (before_iff.mpr
      ⟨q, p, hlt, List.getElem?_eq_getElem hq, List.getElem?_eq_getElem hp⟩)

/-- What is taken from a list keeps its order. -/
theorem pairwise_before {s : List α} (h : s.Sublist l) : s.Pairwise (Before l) :=
  List.pairwise_of_forall_sublist fun hpair => hpair.trans h

/-- Two lists with the same entries in the order of a third one are the same. -/
theorem eq_of_pairwise_before {s t : List α} (hl : l.Nodup) (hmem : ∀ a, a ∈ s ↔ a ∈ t)
    (hs : s.Pairwise (Before l)) (ht : t.Pairwise (Before l)) : s = t := by
  have hnodup {u : List α} (hu : u.Pairwise (Before l)) : u.Nodup :=
    hu.imp fun h => h.ne hl
  exact List.Perm.eq_of_pairwise (fun a b _ _ h h' => absurd h' (h.asymm hl)) hs ht
    ((List.perm_ext_iff_of_nodup (hnodup hs) (hnodup ht)).mpr hmem)

end AgentCockpit.Core
