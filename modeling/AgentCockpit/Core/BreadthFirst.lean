import Mathlib.Data.List.Nodup

/-!
# Breadth-first search

From a start, values lead on to other ones, with a label on the way. What is found for the first
time is put at the end of a queue. The search may stop at some labels; as long as it does not, it
goes through the values layer by layer, and each layer has what is one step further away.
-/

namespace AgentCockpit.Core

/-- What leads to what, with a label on the way. -/
structure Spread (α β : Type*) where
  next : α → β → List (α × β)
  range : List α
  next_mem : ∀ a b, ∀ entry ∈ next a b, entry.1 ∈ range

/-- At most so many steps away. -/
def Near {α : Type*} (adjacent : α → α → Prop) (start : α) : ℕ → α → Prop
  | 0, a => a = start
  | k + 1, a => Near adjacent start k a ∨ ∃ m, Near adjacent start k m ∧ adjacent m a

/-- What is near but not the start is a step away from something near. -/
theorem Near.exists_adjacent {α : Type*} {adjacent : α → α → Prop} {start a : α} {k : ℕ}
    (h : Near adjacent start k a) (hne : a ≠ start) :
    ∃ m, Near adjacent start k m ∧ adjacent m a := by
  induction k with
  | zero => exact absurd h hne
  | succ k ih =>
    rcases h with h | ⟨m, hm, hadjacent⟩
    · obtain ⟨m, hm, hadjacent⟩ := ih h
      exact ⟨m, .inl hm, hadjacent⟩
    · exact ⟨m, .inl hm, hadjacent⟩

namespace Spread

variable {α β : Type*} [DecidableEq α] (spread : Spread α β) {stop : β → Bool}
variable {found queue frontier entries : List (α × β)} {entry start : α × β} {a : α}

def keys (found : List (α × β)) : List α := found.map Prod.fst

omit [DecidableEq α] in
@[simp] theorem keys_nil : keys ([] : List (α × β)) = [] := rfl

omit [DecidableEq α] in
@[simp] theorem keys_cons : keys (entry :: found) = entry.1 :: keys found := rfl

omit [DecidableEq α] in
@[simp] theorem keys_append : keys (found ++ queue) = keys found ++ keys queue := List.map_append

/-- What is new goes to the end of the queue. -/
def reach (state : List (α × β) × List (α × β)) (entry : α × β) : List (α × β) × List (α × β) :=
  if entry.1 ∈ keys state.1 then state else (state.1 ++ [entry], state.2 ++ [entry])

/-- How many values have not been found. -/
def unseen (found : List (α × β)) : ℕ := (spread.range.filter (· ∉ keys found)).length

theorem unseen_lt (h : entry.1 ∈ spread.range) (hnew : entry.1 ∉ keys found) :
    spread.unseen (found ++ [entry]) < spread.unseen found := by
  have hfilter : spread.range.filter (· ∉ keys (found ++ [entry])) =
      (spread.range.filter (· ∉ keys found)).filter (· ≠ entry.1) := by
    rw [List.filter_filter]
    refine List.filter_congr fun a _ => ?_
    by_cases ha : a = entry.1
    · simp [ha]
    · simp [ha]
  rw [unseen, hfilter, unseen, List.length_filter_lt_length_iff_exists]
  exact ⟨entry.1, List.mem_filter.mpr ⟨h, decide_eq_true hnew⟩, by simp⟩

theorem measure_foldl_reach (h : ∀ entry ∈ entries, entry.1 ∈ spread.range)
    (state : List (α × β) × List (α × β)) :
    spread.unseen (entries.foldl reach state).1 + (entries.foldl reach state).2.length ≤
      spread.unseen state.1 + state.2.length := by
  induction entries generalizing state with
  | nil => exact Nat.le_refl _
  | cons entry entries ih =>
    rw [List.forall_mem_cons] at h
    refine Nat.le_trans (ih h.2 _) ?_
    rw [reach]
    split
    · exact Nat.le_refl _
    · next hnew =>
      have hlt := spread.unseen_lt h.1 hnew
      simp only [List.length_append, List.length_singleton]
      omega

/-- All that an entry leads to. -/
def follow (found queue : List (α × β)) (entry : α × β) : List (α × β) × List (α × β) :=
  (spread.next entry.1 entry.2).foldl reach (found, queue)

theorem measure_follow (found queue : List (α × β)) (entry : α × β) :
    spread.unseen (spread.follow found queue entry).1 + (spread.follow found queue entry).2.length ≤
      spread.unseen found + queue.length :=
  spread.measure_foldl_reach (spread.next_mem entry.1 entry.2) (found, queue)

/-- The search, with what has been found and what is still to be followed. -/
def search (stop : β → Bool) (found queue : List (α × β)) : List (α × β) :=
  match queue with
  | [] => found
  | entry :: queue =>
    if stop entry.2 then search stop found queue
    else search stop (spread.follow found queue entry).1 (spread.follow found queue entry).2
termination_by spread.unseen found + queue.length
decreasing_by
  · rw [List.length_cons]
    omega
  · have := spread.measure_follow found queue entry
    rw [List.length_cons]
    omega

/-! ### What is new -/

/-- The entries that are new, each at its first place. -/
def fresh (found : List (α × β)) : List (α × β) → List (α × β)
  | [] => []
  | entry :: entries =>
    if entry.1 ∈ keys found then fresh found entries else entry :: fresh (found ++ [entry]) entries

theorem foldl_reach (entries : List (α × β)) (found queue : List (α × β)) :
    entries.foldl reach (found, queue) =
      (found ++ fresh found entries, queue ++ fresh found entries) := by
  induction entries generalizing found queue with
  | nil => simp [fresh]
  | cons entry entries ih =>
    rw [List.foldl_cons, reach, fresh]
    split
    · exact ih found queue
    · rw [ih, List.append_assoc, List.append_assoc, List.singleton_append]

theorem fresh_append (entries more : List (α × β)) (found : List (α × β)) :
    fresh found (entries ++ more) =
      fresh found entries ++ fresh (found ++ fresh found entries) more := by
  induction entries generalizing found with
  | nil => simp [fresh]
  | cons entry entries ih =>
    rw [List.cons_append, fresh, fresh]
    split
    · exact ih found
    · rw [ih, List.cons_append, List.append_assoc, List.singleton_append]

theorem fresh_sublist (found entries : List (α × β)) : (fresh found entries).Sublist entries := by
  induction entries generalizing found with
  | nil => exact List.Sublist.refl _
  | cons entry entries ih =>
    rw [fresh]
    split
    · exact (ih found).cons entry
    · exact (ih _).cons_cons entry

theorem fresh_eq_nil (h : ∀ entry ∈ entries, entry.1 ∈ keys found) : fresh found entries = [] := by
  induction entries with
  | nil => rfl
  | cons entry entries ih =>
    rw [List.forall_mem_cons] at h
    rw [fresh, if_pos h.1, ih h.2]

theorem mem_keys_fresh :
    a ∈ keys (found ++ fresh found entries) ↔ a ∈ keys found ∨ a ∈ keys entries := by
  induction entries generalizing found with
  | nil => simp [fresh, keys]
  | cons entry entries ih =>
    rw [fresh, keys_cons, List.mem_cons]
    split
    · next hmem =>
      rw [ih]
      constructor
      · exact Or.imp_right .inr
      · rintro (h | rfl | h)
        · exact .inl h
        · exact .inl hmem
        · exact .inr h
    · have hih := @ih (found ++ [entry])
      rw [List.append_assoc, List.singleton_append] at hih
      rw [hih, keys_append, List.mem_append, or_assoc, keys_cons, List.mem_cons, or_assoc]
      simp [keys]

theorem nodup_keys_fresh (h : (keys found).Nodup) :
    (keys (found ++ fresh found entries)).Nodup := by
  induction entries generalizing found with
  | nil => simpa [fresh] using h
  | cons entry entries ih =>
    rw [fresh]
    split
    · exact ih h
    · next hnew =>
      have hone : (keys (found ++ [entry])).Nodup := by
        rw [keys_append, List.nodup_append]
        refine ⟨h, List.nodup_singleton _, ?_⟩
        rintro a ha b hb rfl
        exact hnew (List.mem_singleton.mp hb ▸ ha)
      have := ih hone
      rwa [List.append_assoc, List.singleton_append] at this

/-! ### Layers -/

/-- What the entries of a layer lead to. -/
def expand (found frontier : List (α × β)) : List (α × β) :=
  fresh found (frontier.flatMap fun entry => spread.next entry.1 entry.2)

/-- What is found in a number of steps, and what of it in the last one. -/
def layers (start : α × β) : ℕ → List (α × β) × List (α × β)
  | 0 => ([start], [start])
  | k + 1 =>
    ((layers start k).1 ++ spread.expand (layers start k).1 (layers start k).2,
      spread.expand (layers start k).1 (layers start k).2)

/-- A layer is followed before what it leads to. -/
theorem search_append (h : ∀ entry ∈ frontier, stop entry.2 = false) :
    spread.search stop found (frontier ++ queue) =
      spread.search stop (found ++ spread.expand found frontier)
        (queue ++ spread.expand found frontier) := by
  induction frontier generalizing found queue with
  | nil => simp [expand, fresh]
  | cons entry frontier ih =>
    rw [List.forall_mem_cons] at h
    rw [List.cons_append, search, h.1, if_neg Bool.false_ne_true, follow, foldl_reach, expand,
      List.flatMap_cons, fresh_append]
    dsimp only
    rw [List.append_assoc, ih h.2, expand]
    simp only [List.append_assoc]

/-- **The search goes layer by layer**, as far as it does not stop. -/
theorem search_layers (start : α × β) (n : ℕ)
    (h : ∀ k < n, ∀ entry ∈ (spread.layers start k).2, stop entry.2 = false) :
    spread.search stop [start] [start] =
      spread.search stop (spread.layers start n).1 (spread.layers start n).2 := by
  induction n with
  | zero => rfl
  | succ n ih =>
    rw [ih fun k hk => h k (by omega), layers]
    have hstep : spread.search stop (spread.layers start n).1 ((spread.layers start n).2 ++ []) =
        _ :=
      spread.search_append (h n (by omega))
    rwa [List.append_nil, List.nil_append] at hstep

theorem layer_subset (start : α × β) (k : ℕ) :
    (spread.layers start k).2 ⊆ (spread.layers start k).1 := by
  cases k with
  | zero => exact List.Subset.refl _
  | succ k => exact List.subset_append_right _ _

/-- What is known of the labels of a layer. -/
theorem label_layers (good : ℕ → β → Prop) (start : α × β) (hstart : good 0 start.2)
    (hnext : ∀ k a b, good k b → ∀ entry ∈ spread.next a b, good (k + 1) entry.2) (k : ℕ) :
    ∀ entry ∈ (spread.layers start k).2, good k entry.2 := by
  induction k with
  | zero =>
    rintro entry hentry
    obtain rfl := List.mem_singleton.mp hentry
    exact hstart
  | succ k ih =>
    intro entry hentry
    obtain ⟨before, hbefore, hlead⟩ :=
      List.mem_flatMap.mp ((fresh_sublist _ _).subset hentry)
    exact hnext k _ _ (ih before hbefore) entry hlead

section Adjacent

variable {adjacent : α → α → Prop}

/-- **The layers have what is near.** -/
theorem mem_layers (hadjacent : ∀ a b m, m ∈ keys (spread.next a b) ↔ adjacent a m)
    (start : α × β) (k : ℕ) (a : α) :
    a ∈ keys (spread.layers start k).1 ↔ Near adjacent start.1 k a := by
  -- What was found before the last step has already been followed.
  have hfollowed (k : ℕ) : ∀ entry ∈ (spread.layers start k).1,
      entry ∈ (spread.layers start k).2 ∨
        ∀ m, adjacent entry.1 m → m ∈ keys (spread.layers start k).1 := by
    induction k with
    | zero => exact fun entry hentry => .inl hentry
    | succ k ih =>
      intro entry hentry
      rcases List.mem_append.mp hentry with hold | hnew
      · refine .inr fun m hm => mem_keys_fresh.mpr ?_
        rcases ih entry hold with hlast | hdone
        · obtain ⟨lead, hlead, hkey⟩ := List.mem_map.mp ((hadjacent entry.1 entry.2 m).mpr hm)
          exact .inr (List.mem_map.mpr ⟨lead, List.mem_flatMap.mpr ⟨entry, hlast, hlead⟩, hkey⟩)
        · exact .inl (hdone m hm)
      · exact .inl hnew
  induction k generalizing a with
  | zero => simp [layers, keys, Near]
  | succ k ih =>
    rw [layers, expand, mem_keys_fresh, Near]
    constructor
    · rintro (h | h)
      · exact .inl ((ih a).mp h)
      · obtain ⟨lead, hlead, rfl⟩ := List.mem_map.mp h
        obtain ⟨entry, hentry, hlead⟩ := List.mem_flatMap.mp hlead
        exact .inr ⟨entry.1, (ih _).mp (List.mem_map_of_mem (spread.layer_subset start k hentry)),
          (hadjacent _ _ _).mp (List.mem_map_of_mem hlead)⟩
    · rintro (h | ⟨m, hm, hadj⟩)
      · exact .inl ((ih a).mpr h)
      · obtain ⟨entry, hentry, rfl⟩ := List.mem_map.mp ((ih m).mpr hm)
        rcases hfollowed k entry hentry with hlast | hdone
        · obtain ⟨lead, hlead, hkey⟩ := List.mem_map.mp ((hadjacent entry.1 entry.2 a).mpr hadj)
          exact .inr (List.mem_map.mpr ⟨lead, List.mem_flatMap.mpr ⟨entry, hlast, hlead⟩, hkey⟩)
        · exact .inl (hdone a hadj)

end Adjacent

/-! ### Behind the last layer -/

theorem found_subset_search (found queue : List (α × β)) :
    found ⊆ spread.search stop found queue := by
  induction found, queue using search.induct spread stop with
  | case1 found => rw [search]; exact List.Subset.refl _
  | case2 found entry queue hstop ih => rw [search, if_pos hstop]; exact ih
  | case3 found entry queue hstop ih =>
    rw [search, if_neg hstop]
    refine List.Subset.trans ?_ ih
    rw [follow, foldl_reach]
    exact List.subset_append_left _ _

theorem nodup_search (h : (keys found).Nodup) (queue : List (α × β)) :
    (keys (spread.search stop found queue)).Nodup := by
  induction found, queue using search.induct spread stop with
  | case1 found => rwa [search]
  | case2 found entry queue hstop ih => rw [search, if_pos hstop]; exact ih h
  | case3 found entry queue hstop ih =>
    rw [search, if_neg hstop]
    refine ih ?_
    rw [follow, foldl_reach]
    exact nodup_keys_fresh h

/-- What is in the queue is followed, unless the search stops there. -/
theorem mem_search_of_next {queue : List (α × β)} (hentry : entry ∈ queue)
    (hstop : stop entry.2 = false) {lead : α × β} (hlead : lead ∈ spread.next entry.1 entry.2) :
    lead.1 ∈ keys (spread.search stop found queue) := by
  induction found, queue using search.induct spread stop with
  | case1 found => exact absurd hentry List.not_mem_nil
  | case2 found first queue hfirst ih =>
    rw [search, if_pos hfirst]
    rcases List.mem_cons.mp hentry with rfl | hlater
    · rw [hstop] at hfirst
      exact absurd hfirst nofun
    · exact ih hlater
  | case3 found first queue hfirst ih =>
    rw [search, if_neg hfirst]
    rcases List.mem_cons.mp hentry with rfl | hlater
    · refine List.map_subset _ (spread.found_subset_search _ _) ?_
      rw [follow, foldl_reach]
      exact mem_keys_fresh.mpr (.inr (List.mem_map_of_mem hlead))
    · refine ih ?_
      rw [follow, foldl_reach]
      exact List.mem_append_left _ hlater

/-- Nothing more is found where all that is followed leads to what has been found. -/
theorem search_eq_self {queue : List (α × β)} (h : ∀ entry ∈ queue, stop entry.2 = false →
    ∀ lead ∈ spread.next entry.1 entry.2, lead.1 ∈ keys found) :
    spread.search stop found queue = found := by
  induction queue with
  | nil => rw [search]
  | cons entry queue ih =>
    rw [List.forall_mem_cons] at h
    rw [search]
    split
    · exact ih h.2
    · next hstop =>
      rw [follow, foldl_reach, fresh_eq_nil (h.1 (Bool.not_eq_true _ ▸ hstop)), List.append_nil,
        List.append_nil]
      exact ih h.2

end Spread

end AgentCockpit.Core
