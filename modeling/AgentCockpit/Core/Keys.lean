import Mathlib.Data.List.Dedup
import Mathlib.Data.List.Sort

/-!
# Key sets and placements

A set of keys is a list read up to its members. A placement of a key set is an order
of its members: `reconcile` keeps the order a placement already has, drops retired
and duplicate keys, and appends the keys it does not know in ascending order.
-/

namespace AgentCockpit.Core

variable {α : Type*} [LinearOrder α] {a : α} {keys keys' order : List α}

/-- The members of a key set in ascending order, each once. -/
def sortedKeys (keys : List α) : List α :=
  keys.dedup.insertionSort (· ≤ ·)

@[simp] theorem mem_sortedKeys : a ∈ sortedKeys keys ↔ a ∈ keys := by
  rw [sortedKeys, List.mem_insertionSort, List.mem_dedup]

theorem nodup_sortedKeys (keys : List α) : (sortedKeys keys).Nodup :=
  (List.perm_insertionSort _ _).nodup_iff.mpr (List.nodup_dedup keys)

@[simp] theorem sortedKeys_eq_nil : sortedKeys keys = [] ↔ keys = [] := by
  simp only [List.eq_nil_iff_forall_not_mem, mem_sortedKeys]

/-- The first occurrence of each key that is not in `seen`. -/
def keepFirst (seen : List α) : List α → List α
  | [] => []
  | key :: rest =>
    if key ∈ seen then keepFirst seen rest else key :: keepFirst (key :: seen) rest

theorem mem_keepFirst {seen : List α} : a ∈ keepFirst seen order ↔ a ∈ order ∧ a ∉ seen := by
  induction order generalizing seen with
  | nil => simp [keepFirst]
  | cons key rest ih =>
    rw [keepFirst]
    split
    · next hseen =>
      rw [ih, List.mem_cons]
      refine ⟨fun h => ⟨.inr h.1, h.2⟩, fun h => ⟨h.1.resolve_left ?_, h.2⟩⟩
      rintro rfl
      exact h.2 hseen
    · next hseen =>
      rw [List.mem_cons, ih, List.mem_cons, List.mem_cons]
      by_cases hkey : a = key
      · simp [hkey, hseen]
      · simp [hkey]

theorem nodup_keepFirst (seen order : List α) : (keepFirst seen order).Nodup := by
  induction order generalizing seen with
  | nil => exact List.nodup_nil
  | cons key rest ih =>
    rw [keepFirst]
    split
    · exact ih seen
    · refine List.nodup_cons.mpr ⟨fun hmem => ?_, ih _⟩
      exact (mem_keepFirst.mp hmem).2 List.mem_cons_self

theorem keepFirst_eq_self {seen : List α} (h : order.Nodup) (hseen : ∀ a ∈ order, a ∉ seen) :
    keepFirst seen order = order := by
  induction order generalizing seen with
  | nil => rfl
  | cons key rest ih =>
    obtain ⟨hkey, hrest⟩ := List.nodup_cons.mp h
    rw [keepFirst, if_neg (hseen key List.mem_cons_self), ih hrest]
    intro a ha hmem
    rcases List.mem_cons.mp hmem with rfl | hold
    · exact hkey ha
    · exact hseen a (List.mem_cons_of_mem _ ha) hold

/-- The placement of a key set that respects an earlier order. -/
def reconcile (order keys : List α) : List α :=
  let known := keepFirst [] (order.filter (· ∈ keys))
  known ++ sortedKeys (keys.filter (· ∉ known))

@[simp] theorem mem_reconcile : a ∈ reconcile order keys ↔ a ∈ keys := by
  simp only [reconcile, List.mem_append, mem_sortedKeys, List.mem_filter, mem_keepFirst,
    decide_eq_true_eq, List.not_mem_nil, not_false_eq_true, and_true]
  tauto

theorem nodup_reconcile (order keys : List α) : (reconcile order keys).Nodup := by
  refine List.nodup_append'.mpr ⟨nodup_keepFirst _ _, nodup_sortedKeys _, fun a hknown hnew => ?_⟩
  rw [mem_sortedKeys, List.mem_filter, decide_eq_true_eq] at hnew
  exact hnew.2 hknown

/-- A placement of the key set is kept as it is. -/
theorem reconcile_eq_self (hnodup : order.Nodup) (hmem : ∀ a, a ∈ order ↔ a ∈ keys) :
    reconcile order keys = order := by
  have hknown : keepFirst [] (order.filter (· ∈ keys)) = order := by
    rw [List.filter_eq_self.mpr fun a ha => decide_eq_true ((hmem a).mp ha),
      keepFirst_eq_self hnodup fun _ _ => List.not_mem_nil]
  rw [reconcile, hknown, List.filter_eq_nil_iff.mpr, show sortedKeys ([] : List α) = [] from rfl,
    List.append_nil]
  simpa using fun a ha => (hmem a).mpr ha

@[simp] theorem reconcile_nil (keys : List α) : reconcile [] keys = sortedKeys keys := by
  simp [reconcile, keepFirst]

end AgentCockpit.Core
