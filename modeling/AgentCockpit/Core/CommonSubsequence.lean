import Mathlib.Data.List.Infix
import Mathlib.Tactic.Cases

/-!
# Longest common subsequences

A table has for any two suffixes of two lists the length of a longest common subsequence of them. It
is filled from the last row to the first one. A walk over the table from its first corner finds the
positions of one such subsequence, which are the anchors of an alignment of the two lists.
-/

namespace AgentCockpit.Core

variable {α : Type*} [DecidableEq α] {a b : List α} {i j : ℕ}

/-- The length of a longest common subsequence. -/
def lcsLength : List α → List α → ℕ
  | [], _ => 0
  | _ :: _, [] => 0
  | x :: a, y :: b =>
    if x = y then lcsLength a b + 1 else max (lcsLength a (y :: b)) (lcsLength (x :: a) b)

/-- A row of the table from the row below it. -/
def lcsRow (x : α) : List α → List ℕ → List ℕ
  | [], _ => [0]
  | y :: b, below =>
    let row := lcsRow x b below.tail
    (if x = y then below.tail.headD 0 + 1 else max (below.headD 0) (row.headD 0)) :: row

def lcsTable (a b : List α) : List (List ℕ) :=
  a.foldr (fun x table => lcsRow x b (table.headD []) :: table) [List.replicate (b.length + 1) 0]

/-- An entry of the table. -/
def lcsEntry (table : List (List ℕ)) (i j : ℕ) : ℕ := ((table[i]?).getD [])[j]?.getD 0

/-- The walk over a table, from a row and a column on. -/
def lcsWalk (a b : List α) (table : List (List ℕ)) (i j : ℕ) : List (ℕ × ℕ) :=
  if h : i < a.length ∧ j < b.length then
    if a[i] = b[j] then (i, j) :: lcsWalk a b table (i + 1) (j + 1)
    else if lcsEntry table i (j + 1) ≤ lcsEntry table (i + 1) j then lcsWalk a b table (i + 1) j
    else lcsWalk a b table i (j + 1)
  else []
termination_by a.length - i + (b.length - j)

/-- Pairs of positions of a longest common subsequence. -/
def longestCommonSubsequence (a b : List α) : List (ℕ × ℕ) := lcsWalk a b (lcsTable a b) 0 0

/-! ### The table -/

@[simp] theorem lcsLength_nil_left (b : List α) : lcsLength [] b = 0 := by
  rw [lcsLength]

@[simp] theorem lcsLength_nil_right (a : List α) : lcsLength a [] = 0 := by
  cases a <;> rw [lcsLength]

theorem lcsRow_map_tails (x : α) (a b : List α) :
    lcsRow x b (b.tails.map (lcsLength a)) = b.tails.map (lcsLength (x :: a)) := by
  induction b with
  | nil => simp [lcsRow]
  | cons y b ih =>
    have hhead (f : List α → ℕ) : (b.tails.map f).headD 0 = f b := by cases b <;> rfl
    rw [lcsRow, List.tails_cons, List.map_cons, List.tail_cons, ih, List.headD_cons, hhead, hhead,
      List.map_cons, lcsLength]

theorem lcsTable_eq (a b : List α) :
    lcsTable a b = a.tails.map fun suffix => b.tails.map (lcsLength suffix) := by
  induction a with
  | nil =>
    have hzero : b.tails.map (lcsLength ([] : List α)) = List.replicate (b.length + 1) 0 := by
      rw [List.eq_replicate_iff]
      simp
    simp [lcsTable, hzero]
  | cons x a ih =>
    have hhead : (lcsTable a b).headD [] = b.tails.map (lcsLength a) := by
      rw [ih]
      cases a <;> rfl
    rw [List.tails_cons, List.map_cons, ← ih, ← lcsRow_map_tails, ← hhead]
    rfl

theorem lcsEntry_lcsTable (hi : i ≤ a.length) (hj : j ≤ b.length) :
    lcsEntry (lcsTable a b) i j = lcsLength (a.drop i) (b.drop j) := by
  have hrow : i < a.tails.length := by simpa using Nat.lt_succ_of_le hi
  have hcolumn : j < b.tails.length := by simpa using Nat.lt_succ_of_le hj
  simp [lcsEntry, lcsTable_eq, List.getElem?_eq_getElem hrow, List.getElem?_eq_getElem hcolumn]

/-! ### Optimality -/

theorem length_le_lcsLength {common : List α} (ha : common.Sublist a) (hb : common.Sublist b) :
    common.length ≤ lcsLength a b := by
  induction a, b using lcsLength.induct generalizing common with
  | case1 b =>
    rw [List.sublist_nil.mp ha]
    exact Nat.zero_le _
  | case2 x a =>
    rw [List.sublist_nil.mp hb]
    exact Nat.zero_le _
  | case3 x a b ih =>
    rw [lcsLength, if_pos rfl]
    cases common with
    | nil => exact Nat.zero_le _
    | cons z common =>
      -- Without its first entry it lies in what is behind the equal heads.
      exact Nat.succ_le_succ (ih ha.tail hb.tail)
  | case4 x a y b hne ihleft ihright =>
    rw [lcsLength, if_neg hne]
    rcases List.sublist_cons_iff.mp ha with hskip | ⟨rest, rfl, hrest⟩
    · exact (ihleft hskip hb).trans (Nat.le_max_left _ _)
    · rcases List.sublist_cons_iff.mp hb with hskip | ⟨_, heq, -⟩
      · exact (ihright ha hskip).trans (Nat.le_max_right _ _)
      · exact absurd (List.cons.inj heq).1 hne

/-! ### The walk -/

/-- Positions that grow in both lists from a pair of positions on, with equal entries. -/
inductive Anchored (a b : List α) : ℕ → ℕ → List (ℕ × ℕ) → Prop
  | nil {i j : ℕ} (hi : i ≤ a.length) (hj : j ≤ b.length) : Anchored a b i j []
  | cons {i j oldAt newAt : ℕ} {rest : List (ℕ × ℕ)} (hi : i ≤ oldAt) (hj : j ≤ newAt)
      (hold : oldAt < a.length) (hnew : newAt < b.length) (heq : a[oldAt] = b[newAt])
      (hrest : Anchored a b (oldAt + 1) (newAt + 1) rest) :
      Anchored a b i j ((oldAt, newAt) :: rest)

omit [DecidableEq α] in
theorem Anchored.mono {anchors : List (ℕ × ℕ)} {i' j' : ℕ} (h : Anchored a b i j anchors)
    (hi : i' ≤ i) (hj : j' ≤ j) : Anchored a b i' j' anchors := by
  cases h with
  | nil hi' hj' => exact .nil (hi.trans hi') (hj.trans hj')
  | cons hi' hj' hold hnew heq hrest =>
    exact .cons (hi.trans hi') (hj.trans hj') hold hnew heq hrest

theorem anchored_lcsWalk (table : List (List ℕ)) (hi : i ≤ a.length) (hj : j ≤ b.length) :
    Anchored a b i j (lcsWalk a b table i j) := by
  induction i, j using lcsWalk.induct a b table with
  | case1 i j h heq ih =>
    rw [lcsWalk, dif_pos h, if_pos heq]
    exact .cons le_rfl le_rfl h.1 h.2 heq (ih h.1 h.2)
  | case2 i j h hne hle ih =>
    rw [lcsWalk, dif_pos h, if_neg hne, if_pos hle]
    exact (ih h.1 hj).mono (Nat.le_succ _) le_rfl
  | case3 i j h hne hle ih =>
    rw [lcsWalk, dif_pos h, if_neg hne, if_neg hle]
    exact (ih hi h.2).mono le_rfl (Nat.le_succ _)
  | case4 i j h =>
    rw [lcsWalk, dif_neg h]
    exact .nil hi hj

theorem length_lcsWalk (hi : i ≤ a.length) (hj : j ≤ b.length) :
    (lcsWalk a b (lcsTable a b) i j).length = lcsLength (a.drop i) (b.drop j) := by
  induction i, j using lcsWalk.induct a b (lcsTable a b) with
  | case1 i j h heq ih =>
    rw [lcsWalk, dif_pos h, if_pos heq, List.length_cons, ih h.1 h.2,
      List.drop_eq_getElem_cons h.1, List.drop_eq_getElem_cons h.2, lcsLength, if_pos heq]
  | case2 i j h hne hle ih =>
    have hright := lcsEntry_lcsTable (a := a) (b := b) hi h.2
    have hbelow := lcsEntry_lcsTable (a := a) (b := b) h.1 hj
    rw [hright, hbelow] at hle
    rw [lcsWalk, dif_pos h, if_neg hne, if_pos (by rwa [hright, hbelow]), ih h.1 hj,
      List.drop_eq_getElem_cons h.1, List.drop_eq_getElem_cons h.2, lcsLength, if_neg hne,
      ← List.drop_eq_getElem_cons h.1, ← List.drop_eq_getElem_cons h.2, max_eq_left hle]
  | case3 i j h hne hle ih =>
    have hright := lcsEntry_lcsTable (a := a) (b := b) hi h.2
    have hbelow := lcsEntry_lcsTable (a := a) (b := b) h.1 hj
    rw [lcsWalk, dif_pos h, if_neg hne, if_neg hle, ih hi h.2]
    rw [hright, hbelow] at hle
    rw [List.drop_eq_getElem_cons h.1, List.drop_eq_getElem_cons h.2, lcsLength, if_neg hne,
      ← List.drop_eq_getElem_cons h.1, ← List.drop_eq_getElem_cons h.2,
      max_eq_right (not_le.mp hle).le]
  | case4 i j h =>
    rw [lcsWalk, dif_neg h]
    rcases not_and_or.mp h with hend | hend
    · rw [List.drop_eq_nil_of_le (not_lt.mp hend), lcsLength_nil_left, List.length_nil]
    · rw [List.drop_eq_nil_of_le (not_lt.mp hend), lcsLength_nil_right, List.length_nil]

/-! ### Anchors -/

theorem anchored_longestCommonSubsequence (a b : List α) :
    Anchored a b 0 0 (longestCommonSubsequence a b) :=
  anchored_lcsWalk _ (Nat.zero_le _) (Nat.zero_le _)

theorem length_longestCommonSubsequence (a b : List α) :
    (longestCommonSubsequence a b).length = lcsLength a b :=
  length_lcsWalk (Nat.zero_le _) (Nat.zero_le _)

end AgentCockpit.Core
