import AgentCockpit.Core.Before
import Mathlib.Data.List.Dedup
import Mathlib.Data.List.Flatten
import Mathlib.Data.List.Induction

/-!
# Buckets

Values are put into buckets by their keys, and buckets stand in the order in which their keys first
appeared. Each bucket keeps the order of its values.
-/

namespace AgentCockpit.Core

variable {κ β : Type*} [DecidableEq κ]

/-- Each key at its first appearance. -/
def appearing (keys : List κ) : List κ := keys.reverse.dedup.reverse

@[simp] theorem mem_appearing {key : κ} {keys : List κ} : key ∈ appearing keys ↔ key ∈ keys := by
  rw [appearing, List.mem_reverse, List.mem_dedup, List.mem_reverse]

theorem nodup_appearing (keys : List κ) : (appearing keys).Nodup :=
  List.nodup_reverse.mpr (List.nodup_dedup _)

theorem appearing_concat (keys : List κ) (key : κ) :
    appearing (keys ++ [key]) = if key ∈ keys then appearing keys else appearing keys ++ [key] := by
  rw [appearing, List.reverse_append, List.reverse_singleton, List.singleton_append]
  split
  · next hmem => rw [List.dedup_cons_of_mem (List.mem_reverse.mpr hmem), appearing]
  · next hnew =>
    rw [List.dedup_cons_of_notMem (mt List.mem_reverse.mp hnew), List.reverse_cons, appearing]

/-- In a map without repeated keys a look-up finds each entry. -/
theorem lookup_eq_some_iff_mem {entries : List (κ × β)} (hkeys : (entries.map Prod.fst).Nodup)
    {key : κ} {value : β} : entries.lookup key = some value ↔ (key, value) ∈ entries := by
  rw [List.lookup_eq_some_iff]
  constructor
  · rintro ⟨front, back, rfl, -⟩
    simp
  · intro hmem
    obtain ⟨front, back, rfl⟩ := List.append_of_mem hmem
    rw [List.map_append, List.map_cons, List.nodup_append] at hkeys
    refine ⟨front, back, rfl, fun other hother => ?_⟩
    have hne := hkeys.2.2 _ (List.mem_map_of_mem hother) _ List.mem_cons_self
    simpa using Ne.symm hne

/-- Buckets in the order in which they were opened. -/
abbrev Buckets (κ β : Type*) := List (κ × List β)

namespace Buckets

def get (buckets : Buckets κ β) (key : κ) : List β := (buckets.lookup key).getD []

def add (buckets : Buckets κ β) (entry : κ × β) : Buckets κ β :=
  if entry.1 ∈ buckets.map Prod.fst then
    buckets.map fun bucket =>
      if bucket.1 = entry.1 then (bucket.1, bucket.2 ++ [entry.2]) else bucket
  else buckets ++ [(entry.1, [entry.2])]

end Buckets

def collect (entries : List (κ × β)) : Buckets κ β := entries.foldl Buckets.add []

/-- Of what is put together from the keys, the part of a key. -/
theorem filter_flatMap_key {keys : List κ} (hkeys : keys.Nodup) {part : κ → List β} {keyOf : β → κ}
    (hpart : ∀ key, ∀ value ∈ part key, keyOf value = key) (key : κ) :
    (keys.flatMap part).filter (keyOf · = key) = if key ∈ keys then part key else [] := by
  induction keys with
  | nil => rfl
  | cons first rest ih =>
    rw [List.flatMap_cons, List.filter_append, ih (List.nodup_cons.mp hkeys).2]
    by_cases hfirst : key = first
    · subst hfirst
      rw [if_neg (List.nodup_cons.mp hkeys).1, if_pos List.mem_cons_self, List.append_nil]
      exact List.filter_eq_self.mpr fun value hvalue => decide_eq_true (hpart key value hvalue)
    · have hnone : (part first).filter (keyOf · = key) = [] :=
        List.filter_eq_nil_iff.mpr fun value hvalue => by
          simpa [hpart first value hvalue] using Ne.symm hfirst
      simp [hnone, hfirst]

omit [DecidableEq κ] in
/-- Parts of a list, put together key by key, have its order if their keys do. -/
theorem flatMap_sublist_iff {values : List β} (hvalues : values.Nodup) {keys : List κ}
    (hkeys : keys.Nodup) {part : κ → List β} {keyOf : β → κ}
    (hpart : ∀ key, ∀ value ∈ part key, keyOf value = key)
    (hsub : ∀ key, (part key).Sublist values) :
    (keys.flatMap part).Sublist values ↔
      ∀ value ∈ keys.flatMap part, ∀ other ∈ keys.flatMap part, Before values value other →
        ¬ Before keys (keyOf other) (keyOf value) := by
  have hmem {value : β} (h : value ∈ keys.flatMap part) : value ∈ part (keyOf value) := by
    obtain ⟨key, -, hvalue⟩ := List.mem_flatMap.mp h
    rwa [hpart key value hvalue]
  constructor
  · intro h value hvalue other hother hbefore hkey
    -- The part of the key that comes first is put first.
    have hpair := List.Sublist.flatMap hkey part
    rw [List.flatMap_cons, List.flatMap_cons, List.flatMap_nil, List.append_nil] at hpair
    have hturned := (List.singleton_sublist.mpr (hmem hother)).append
      (List.singleton_sublist.mpr (hmem hvalue))
    exact hbefore.asymm hvalues ((hturned.trans hpair).trans h)
  · intro horder
    have hpairwise : (keys.flatMap part).Pairwise (Before values) := by
      rw [List.pairwise_flatMap]
      refine ⟨fun key _ => pairwise_before (hsub key), ?_⟩
      refine (pairwise_before (List.Sublist.refl keys)).imp_of_mem
        fun {key key'} hin hin' hkey value hvalue other hother => ?_
      obtain rfl := hpart key value hvalue
      obtain rfl := hpart key' other hother
      have hne : value ≠ other := fun heq => hkey.ne hkeys (congrArg keyOf heq)
      refine (before_or_before ((hsub _).subset hvalue) ((hsub _).subset hother) hne).resolve_right
        fun hbefore => ?_
      exact horder other (List.mem_flatMap.mpr ⟨_, hin', hother⟩) value
        (List.mem_flatMap.mpr ⟨_, hin, hvalue⟩) hbefore hkey
    classical
    have heq : keys.flatMap part = values.filter (· ∈ keys.flatMap part) := by
      refine eq_of_pairwise_before hvalues (fun value => ?_) hpairwise
        (pairwise_before List.filter_sublist)
      rw [List.mem_filter, decide_eq_true_iff, iff_and_self]
      exact fun h => (hsub _).subset (hmem h)
    rw [heq]
    exact List.filter_sublist

/-- The values with a key. -/
def valuesOf (entries : List (κ × β)) (key : κ) : List β :=
  (entries.filter (·.1 = key)).map Prod.snd

theorem valuesOf_eq_nil {entries : List (κ × β)} {key : κ} (h : key ∉ entries.map Prod.fst) :
    valuesOf entries key = [] := by
  rw [valuesOf, List.map_eq_nil_iff, List.filter_eq_nil_iff]
  rintro ⟨other, value⟩ hmem hkey
  exact h (List.mem_map.mpr ⟨_, hmem, by simpa using hkey⟩)

theorem collect_eq (entries : List (κ × β)) :
    collect entries = (appearing (entries.map Prod.fst)).map fun key =>
      (key, valuesOf entries key) := by
  induction entries using List.reverseRecOn with
  | nil => rfl
  | append_singleton entries entry ih =>
    have hkeys : (collect entries).map Prod.fst = appearing (entries.map Prod.fst) := by
      rw [ih, List.map_map]
      exact List.map_id _
    have hvalues (key : κ) : valuesOf (entries ++ [entry]) key =
        valuesOf entries key ++ if key = entry.1 then [entry.2] else [] := by
      rw [valuesOf, List.filter_append, List.map_append, valuesOf]
      by_cases hkey : key = entry.1
      · simp [hkey]
      · simp [hkey, Ne.symm hkey]
    rw [collect, List.foldl_append, List.foldl_cons, List.foldl_nil]
    change (collect entries).add entry = _
    rw [Buckets.add, hkeys, List.map_append, List.map_singleton, appearing_concat]
    simp only [mem_appearing]
    split
    · rw [ih, List.map_map]
      refine List.map_congr_left fun key _ => ?_
      by_cases hkey : key = entry.1
      · simp [hkey, hvalues]
      · simp [hkey, hvalues]
    · next hnew =>
      rw [ih, List.map_append, List.map_singleton, hvalues, if_pos rfl]
      congr 1
      · refine List.map_congr_left fun key hmem => ?_
        rw [hvalues, if_neg, List.append_nil]
        rintro rfl
        exact hnew (mem_appearing.mp hmem)
      · rw [valuesOf_eq_nil hnew, List.nil_append]

theorem lookup_map_pair {f : κ → β} (key : κ) (keys : List κ) :
    (keys.map fun key => (key, f key)).lookup key = if key ∈ keys then some (f key) else none := by
  induction keys with
  | nil => rfl
  | cons first rest ih =>
    rw [List.map_cons, List.lookup_cons, ih]
    by_cases hfirst : key = first
    · simp [hfirst]
    · have hne : (key == first) = false := by simpa using hfirst
      simp [hne, hfirst]

theorem get_collect (entries : List (κ × β)) (key : κ) :
    (collect entries).get key = valuesOf entries key := by
  rw [Buckets.get, collect_eq, lookup_map_pair]
  split
  · rw [Option.getD_some]
  · next hnone => rw [Option.getD_none, valuesOf_eq_nil (mt mem_appearing.mpr hnone)]

end AgentCockpit.Core
