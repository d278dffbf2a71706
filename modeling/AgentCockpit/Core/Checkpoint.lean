import Mathlib.Data.List.Basic

/-!
# Checkpoints and tails

A durable record of a growing log consists of a checkpoint, the image of some
prefix of the log, and a tail, the entries that follow that prefix up to some
boundary. `Covers` says so; its lemmas say what happens when the log grows, when the
missing entries are appended to the tail, and when a new checkpoint is taken.
-/

namespace AgentCockpit.Core

variable {α κ : Type*}

/-- The checkpoint `base` is the image of the first `n` entries of the log, and `tail`
holds the entries from there up to the boundary `m`. -/
structure Covers (image : List α → κ) (log : List α) (base : κ) (tail : List α) (n m : ℕ) :
    Prop where
  start_le : n ≤ m
  boundary_le : m ≤ log.length
  base_eq : base = image (log.take n)
  tail_eq : tail = (log.take m).drop n

variable {image : List α → κ} {log : List α} {base : κ} {tail : List α} {n m : ℕ}

/-- A record of a log is a record of every longer log. -/
theorem Covers.extend (h : Covers image log base tail n m) (more : List α) :
    Covers image (log ++ more) base tail n m where
  start_le := h.start_le
  boundary_le := Nat.le_trans h.boundary_le (by simp)
  base_eq := by rw [List.take_append_of_le_length (Nat.le_trans h.start_le h.boundary_le),
    h.base_eq]
  tail_eq := by rw [List.take_append_of_le_length h.boundary_le, h.tail_eq]

/-- The tail and what it misses are the whole log after the checkpoint. -/
theorem Covers.tail_append_drop (h : Covers image log base tail n m) :
    tail ++ log.drop m = log.drop n := by
  have hlength : (log.take m).length = m := List.length_take_of_le h.boundary_le
  rw [h.tail_eq, ← List.drop_append_of_le_length (hlength.symm ▸ h.start_le),
    List.take_append_drop]

/-- Appending the entries beyond the boundary moves the boundary to the end. -/
theorem Covers.append (h : Covers image log base tail n m) :
    Covers image log base (tail ++ log.drop m) n log.length where
  start_le := Nat.le_trans h.start_le h.boundary_le
  boundary_le := Nat.le_refl _
  base_eq := h.base_eq
  tail_eq := by rw [h.tail_append_drop, List.take_length]

/-- A checkpoint of the whole log needs no tail. -/
theorem covers_checkpoint (image : List α → κ) (log : List α) :
    Covers image log (image log) [] log.length log.length where
  start_le := Nat.le_refl _
  boundary_le := Nat.le_refl _
  base_eq := by rw [List.take_length]
  tail_eq := by simp

end AgentCockpit.Core
