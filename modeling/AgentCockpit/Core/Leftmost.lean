import Mathlib.Data.List.Nodup

/-!
# Places from left to right

Of the places that have a property, those are taken that do not come too close behind one that was
taken before.
-/

namespace AgentCockpit.Core

variable {p q : ℕ → Prop} {width i j : ℕ} {l l' : List ℕ}

/-- Places with a property, at least a width apart, such that each other one comes too close behind
one of them. -/
structure Leftmost (p : ℕ → Prop) (width : ℕ) (l : List ℕ) : Prop where
  apart : l.Pairwise fun i j => i + width ≤ j
  holds : ∀ i ∈ l, p i
  reached : ∀ i, p i → i ∈ l ∨ ∃ j ∈ l, j < i ∧ i < j + width

/-- Of two places, the one that is further to the left ends in front of the other one. -/
theorem apart_of_lt (h : l.Pairwise fun i j => i + width ≤ j) (hi : i ∈ l) (hj : j ∈ l)
    (hlt : i < j) :
    i + width ≤ j := by
  obtain ⟨a, ha, rfl⟩ := List.mem_iff_getElem.mp hi
  obtain ⟨b, hb, rfl⟩ := List.mem_iff_getElem.mp hj
  rcases Nat.lt_trichotomy a b with hab | rfl | hab
  · exact List.pairwise_iff_getElem.mp h a b ha hb hab
  · omega
  · have := List.pairwise_iff_getElem.mp h b a hb ha hab
    omega

theorem Leftmost.unique (hwidth : 0 < width) (h : Leftmost p width l) (h' : Leftmost p width l') :
    l = l' := by
  have hmem (i : ℕ) : i ∈ l ↔ i ∈ l' := by
    induction i using Nat.strongRecOn with
    | ind i ih =>
      constructor
      · intro hi
        rcases h'.reached i (h.holds i hi) with hi' | ⟨j, hj, hlt, hclose⟩
        · exact hi'
        · have := apart_of_lt h.apart ((ih j hlt).mpr hj) hi hlt
          omega
      · intro hi
        rcases h.reached i (h'.holds i hi) with hi' | ⟨j, hj, hlt, hclose⟩
        · exact hi'
        · have := apart_of_lt h'.apart ((ih j hlt).mp hj) hi hlt
          omega
  have hnodup {s : List ℕ} (hs : s.Pairwise fun i j => i + width ≤ j) : s.Nodup :=
    hs.imp fun hle => by omega
  refine List.Perm.eq_of_pairwise (fun i j _ _ hij hji => ?_) h.apart h'.apart
    ((List.perm_ext_iff_of_nodup (hnodup h.apart) (hnodup h'.apart)).mpr hmem)
  omega

/-- A property may have more places, if they come too close behind those that are taken. -/
theorem Leftmost.extend (h : Leftmost p width l) (hpq : ∀ i, p i → q i)
    (hreached : ∀ i, q i → p i ∨ ∃ j ∈ l, j < i ∧ i < j + width) : Leftmost q width l where
  apart := h.apart
  holds i hi := hpq i (h.holds i hi)
  reached i hi := (hreached i hi).elim (h.reached i) .inr

/-- A property may have fewer places, if it has those that are taken. -/
theorem Leftmost.restrict (h : Leftmost q width l) (hpq : ∀ i, p i → q i) (hl : ∀ i ∈ l, p i) :
    Leftmost p width l where
  apart := h.apart
  holds := hl
  reached i hi := h.reached i (hpq i hi)

/-- A place, and those behind it. -/
theorem Leftmost.cons (hi : p i) (hfirst : ∀ j, p j → i ≤ j)
    (h : Leftmost (fun j => p j ∧ i + width ≤ j) width l) : Leftmost p width (i :: l) where
  apart := List.pairwise_cons.mpr ⟨fun j hj => (h.holds j hj).2, h.apart⟩
  holds := List.forall_mem_cons.mpr ⟨hi, fun j hj => (h.holds j hj).1⟩
  reached j hj := by
    have hle := hfirst j hj
    by_cases heq : j = i
    · exact .inl (heq ▸ List.mem_cons_self)
    · by_cases hclose : j < i + width
      · exact .inr ⟨i, List.mem_cons_self, by omega, hclose⟩
      · rcases h.reached j ⟨hj, by omega⟩ with hmem | ⟨k, hk, hbetween⟩
        · exact .inl (List.mem_cons_of_mem _ hmem)
        · exact .inr ⟨k, List.mem_cons_of_mem _ hk, hbetween⟩

theorem leftmost_nil (h : ∀ i, ¬ p i) : Leftmost p width [] where
  apart := List.Pairwise.nil
  holds := nofun
  reached i hi := absurd hi (h i)

/-- The places of a range, from a start on. -/
def leftmost (p : ℕ → Prop) [DecidablePred p] (width : ℕ) : ℕ → ℕ → List ℕ
  | 0, _ => []
  | count + 1, start =>
    if p start then start :: leftmost p width count (start + width)
    else leftmost p width count (start + 1)

theorem leftmost_leftmost (p : ℕ → Prop) [DecidablePred p] (hwidth : 0 < width) {count start : ℕ}
    (h : ∀ i, p i → i < start + count) :
    Leftmost (fun i => p i ∧ start ≤ i) width (leftmost p width count start) := by
  induction count generalizing start with
  | zero => exact leftmost_nil fun i hi => by have := h i hi.1; omega
  | succ count ih =>
    rw [leftmost]
    split
    · next hstart =>
      refine Leftmost.cons ⟨hstart, Nat.le_refl _⟩ (fun j hj => hj.2) ?_
      have hrest := @ih (start + width) fun i hi => by have := h i hi; omega
      refine hrest.extend (fun i hi => ⟨⟨hi.1, by omega⟩, hi.2⟩) fun i hi => .inl ⟨hi.1.1, hi.2⟩
    · next hstart =>
      have hrest := @ih (start + 1) fun i hi => by have := h i hi; omega
      refine hrest.extend (fun i hi => ⟨hi.1, by omega⟩) fun i hi => .inl ⟨hi.1, ?_⟩
      rcases Nat.eq_or_lt_of_le hi.2 with heq | hlt
      · exact absurd (heq ▸ hi.1) hstart
      · omega

end AgentCockpit.Core
