import Mathlib.Data.List.Sort
import Mathlib.Data.Prod.Lex

/-!
# Sorting by a key

Entries are put in the ascending order of their keys. If no two entries share a key, then the result
is the only ascending order of them, so that an order that is known otherwise is the sorted one as
soon as it is ascending.

## Main results

* `append_eq_sortBy_iff` — **two ascending parts make the sorted order where the keys of the first
  are below those of the second**
-/

namespace AgentCockpit.Core

variable {α κ : Type*} [LinearOrder κ] {key : α → κ} {l order front back : List α} {a : α}

def sortBy (key : α → κ) (l : List α) : List α := l.insertionSort fun a b => key a ≤ key b

@[simp] theorem mem_sortBy : a ∈ sortBy key l ↔ a ∈ l := List.mem_insertionSort _

theorem perm_sortBy (key : α → κ) (l : List α) : (sortBy key l).Perm l :=
  List.perm_insertionSort _ _

theorem pairwise_sortBy (key : α → κ) (l : List α) :
    (sortBy key l).Pairwise fun a b => key a ≤ key b := by
  have htotal : Std.Total fun a b => key a ≤ key b := ⟨fun a b => le_total (key a) (key b)⟩
  have htrans : IsTrans α fun a b => key a ≤ key b := ⟨fun _ _ _ => le_trans⟩
  exact List.pairwise_insertionSort (fun a b => key a ≤ key b) l

theorem pairwise_lt_sortBy (h : (l.map key).Nodup) :
    (sortBy key l).Pairwise fun a b => key a < key b := by
  have hnodup : ((sortBy key l).map key).Nodup := ((perm_sortBy key l).map key).nodup_iff.mpr h
  exact ((pairwise_sortBy key l).and (List.pairwise_map.mp hnodup)).imp fun hab =>
    lt_of_le_of_ne hab.1 hab.2

/-- An ascending order of the entries is the sorted one. -/
theorem eq_sortBy (hperm : order.Perm l) (horder : order.Pairwise fun a b => key a < key b) :
    order = sortBy key l := by
  refine List.Perm.eq_of_pairwise (fun a b ha hb hab hba => ?_) (horder.imp le_of_lt)
    (pairwise_sortBy key l) (hperm.trans (perm_sortBy key l).symm)
  have hnodup : (order.map key).Nodup := List.pairwise_map.mpr (horder.imp ne_of_lt)
  have hb' : b ∈ order := hperm.mem_iff.mpr (mem_sortBy.mp hb)
  exact List.inj_on_of_nodup_map hnodup ha hb' (le_antisymm hab hba)

theorem eq_sortBy_iff (h : (l.map key).Nodup) (hperm : order.Perm l) :
    order = sortBy key l ↔ order.Pairwise fun a b => key a < key b := by
  constructor
  · rintro rfl
    exact pairwise_lt_sortBy h
  · exact eq_sortBy hperm

theorem filter_sortBy (h : (l.map key).Nodup) (p : α → Bool) :
    (sortBy key l).filter p = sortBy key (l.filter p) :=
  eq_sortBy ((perm_sortBy key l).filter p) ((pairwise_lt_sortBy h).filter p)

/-- An entry whose key is above all others comes last. -/
theorem sortBy_concat (h : (l.map key).Nodup) (habove : ∀ b ∈ l, key b < key a) :
    sortBy key (l ++ [a]) = sortBy key l ++ [a] := by
  refine (eq_sortBy ((perm_sortBy key l).append_right [a]) ?_).symm
  rw [List.pairwise_append]
  refine ⟨pairwise_lt_sortBy h, List.pairwise_singleton _ _, fun b hb c hc => ?_⟩
  obtain rfl := List.mem_singleton.mp hc
  exact habove b (mem_sortBy.mp hb)

/-- Two ascending parts make the sorted order **where the keys of the first are below those of the
second**. -/
theorem append_eq_sortBy_iff (h : (l.map key).Nodup) (hperm : (front ++ back).Perm l)
    (hfront : front.Pairwise fun a b => key a < key b)
    (hback : back.Pairwise fun a b => key a < key b) :
    front ++ back = sortBy key l ↔ ∀ a ∈ front, ∀ b ∈ back, key a < key b := by
  rw [eq_sortBy_iff h hperm, List.pairwise_append]
  constructor
  · exact fun hpairwise => hpairwise.2.2
  · exact fun hacross => ⟨hfront, hback, hacross⟩

end AgentCockpit.Core
