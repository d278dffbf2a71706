import Mathlib.Data.List.Basic

/-!
# Records numbered by their place in a list

New records are appended and old ones are changed in place, so that a number once given names
the same record for ever. The lemmas read a record of the changed list back from the old one.
-/

namespace AgentCockpit.Core

variable {α : Type*} {records : List α} {record new : α} {i j : ℕ} {f : α → α}

/-- A record of the longer list is an old one or the new one. -/
theorem of_getElem?_concat (h : (records ++ [new])[i]? = some record) :
    records[i]? = some record ∨ i = records.length ∧ record = new := by
  rw [List.getElem?_append] at h
  split at h
  · exact .inl h
  · next hle =>
    rw [List.getElem?_singleton] at h
    split at h
    · exact .inr ⟨by omega, (Option.some.inj h).symm⟩
    · exact nomatch h

theorem getElem?_concat_of_some (h : records[i]? = some record) :
    (records ++ [new])[i]? = some record :=
  (List.getElem?_append_left (List.getElem?_eq_some_iff.mp h).1).trans h

/-- A record of the changed list comes from the one in its place. -/
theorem of_getElem?_modify (h : (records.modify j f)[i]? = some record) :
    ∃ old, records[i]? = some old ∧ record = if j = i then f old else old := by
  rw [List.getElem?_modify, Option.map_eq_map, Option.map_eq_some_iff] at h
  obtain ⟨old, hold, rfl⟩ := h
  exact ⟨old, hold, rfl⟩

theorem getElem?_modify_of_some (h : records[i]? = some record) :
    (records.modify j f)[i]? = some (if j = i then f record else record) := by
  rw [List.getElem?_modify, h]
  rfl

/-- A record of the changed list is the new one in its place or an old one. -/
theorem of_getElem?_set (h : (records.set j new)[i]? = some record) :
    i = j ∧ record = new ∨ i ≠ j ∧ records[i]? = some record := by
  rw [List.getElem?_set] at h
  split at h
  · next heq =>
    split at h
    · exact .inl ⟨heq.symm, (Option.some.inj h).symm⟩
    · exact nomatch h
  · next hne => exact .inr ⟨Ne.symm hne, h⟩

theorem getElem?_set_of_some (h : records[i]? = some record) :
    (records.set i new)[i]? = some new :=
  List.getElem?_set_self (List.getElem?_eq_some_iff.mp h).1

theorem getElem?_set_of_ne (h : i ≠ j) : (records.set j new)[i]? = records[i]? :=
  List.getElem?_set_ne h.symm

section Flat

variable {β : Type*} {g : α → List β}

/-- A change that keeps a record's contribution keeps the whole. -/
theorem flatMap_modify_eq (h : ∀ record, records[i]? = some record → g (f record) = g record) :
    (records.modify i f).flatMap g = records.flatMap g := by
  induction records generalizing i with
  | nil => simp
  | cons first rest ih =>
    cases i with
    | zero => simp [h first rfl]
    | succ i =>
      rw [List.modify_succ_cons, List.flatMap_cons, List.flatMap_cons,
        ih fun record hrecord => h record hrecord]

/-- If only one record contributes, the whole is its contribution. -/
theorem flatMap_eq_of_only (hget : records[i]? = some record)
    (honly : ∀ (j : ℕ) (other : α), records[j]? = some other → j ≠ i → g other = []) :
    records.flatMap g = g record := by
  induction records generalizing i with
  | nil => exact nomatch hget
  | cons first rest ih =>
    rw [List.flatMap_cons]
    cases i with
    | zero =>
      obtain rfl := Option.some.inj hget
      have hrest : rest.flatMap g = [] := List.flatMap_eq_nil_iff.mpr fun other hother => by
        obtain ⟨j, hj⟩ := List.mem_iff_getElem?.mp hother
        exact honly (j + 1) other hj (Nat.succ_ne_zero j)
      rw [hrest, List.append_nil]
    | succ i =>
      have hfirst : g first = [] := honly 0 first rfl (Nat.succ_ne_zero i).symm
      have htail := ih hget fun j other hj hne => honly (j + 1) other hj fun heq =>
        hne (Nat.succ.inj heq)
      rw [hfirst, htail, List.nil_append]

end Flat

end AgentCockpit.Core
