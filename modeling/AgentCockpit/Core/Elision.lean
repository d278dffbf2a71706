import Mathlib.Data.List.Basic
import Mathlib.Data.List.Flatten
import Mathlib.Order.Monotone.Basic

/-!
# Texts with gaps

Parts of a text are replaced by marks. Where the text stands in rows, a gap is marked in the row in
which it begins, followed by what stands behind it in the row in which it ends, and the rows between
are left out.

## Main results

* `flatMap_eq_elided` — **the rows one after another make the text with its gaps**
-/

namespace AgentCockpit.Core

variable {α β γ : Type*}

/-! ### Parts of a list -/

/-- The part of a list between two positions. -/
abbrev slice (l : List α) (start stop : ℕ) : List α := (l.take stop).drop start

section Slices

variable {l : List α} {a b c : ℕ}

/-- Two parts of a list that meet make one part. -/
theorem slice_append_slice (l : List α) {a b c : ℕ} (hab : a ≤ b) (hbc : b ≤ c) :
    slice l a b ++ slice l b c = slice l a c := by
  have hfirst : l.take b = (l.take c).take b := by rw [List.take_take, Nat.min_eq_left hbc]
  have hsecond : (l.take c).drop b = ((l.take c).drop a).drop (b - a) := by
    rw [List.drop_drop, Nat.add_sub_cancel' hab]
  rw [slice, slice, hfirst, List.drop_take, hsecond, List.take_append_drop]

theorem slice_eq_nil (h : b ≤ a) : slice l a b = [] :=
  List.drop_eq_nil_of_le (le_trans (List.length_take_le _ _) h)

/-- The parts between breaks that follow one another make one part. -/
theorem flatMap_slice {breaks : ℕ → ℕ} (h : Monotone breaks) (first count : ℕ) :
    (List.range' first count).flatMap (fun row => slice l (breaks row) (breaks (row + 1))) =
      slice l (breaks first) (breaks (first + count)) := by
  induction count generalizing first with
  | zero => exact (slice_eq_nil (Nat.le_refl _)).symm
  | succ count ih =>
    rw [List.range'_succ, List.flatMap_cons, ih,
      slice_append_slice l (h (Nat.le_succ _)) (h (Nat.le_add_right _ _)), Nat.succ_add_eq_add_succ]

end Slices

/-! ### Gaps -/

section Gaps

variable (start stop : β → ℕ) (text : List α)

/-- A text from a position on, each gap replaced by its mark. -/
def elided : ℕ → List β → List (α ⊕ β)
  | position, [] => (slice text position text.length).map .inl
  | position, gap :: gaps =>
    (slice text position (start gap)).map .inl ++ .inr gap :: elided (stop gap) gaps

variable {start stop text} {gap : β} {gaps : List β} {position position' : ℕ}

/-- A text with gaps, from a position in front of the first gap on. -/
theorem elided_eq_append (hle : position ≤ position') (hlength : position' ≤ text.length)
    (hgaps : ∀ gap ∈ gaps, position' ≤ start gap) :
    elided start stop text position gaps =
      (slice text position position').map .inl ++ elided start stop text position' gaps := by
  cases gaps with
  | nil => rw [elided, elided, ← List.map_append, slice_append_slice text hle hlength]
  | cons gap gaps =>
    rw [elided, elided, ← List.append_assoc, ← List.map_append,
      slice_append_slice text hle (hgaps gap List.mem_cons_self)]

theorem filterMap_elided :
    (elided start stop text position gaps).filterMap Sum.getRight? = gaps := by
  have hleft (l : List α) : (l.map .inl : List (α ⊕ β)).filterMap Sum.getRight? = [] := by
    rw [List.filterMap_map]
    exact List.filterMap_eq_nil_iff.mpr fun _ _ => rfl
  induction gaps generalizing position with
  | nil => exact hleft _
  | cons gap gaps ih =>
    have hmark (l : List (α ⊕ β)) : (.inr gap :: l).filterMap Sum.getRight? =
        gap :: l.filterMap Sum.getRight? := rfl
    rw [elided, List.filterMap_append, hleft, List.nil_append, hmark, ih]

end Gaps

/-! ### Rows -/

section Rows

variable (start stop first last : β → ℕ) (text : List α) (breaks : ℕ → ℕ) (rows : ℕ)

/-- A gap begins in its first row, and ends in its last one. -/
structure Fits (gap : β) : Prop where
  first_le_last : first gap ≤ last gap
  last_lt : last gap < rows
  le_start : breaks (first gap) ≤ start gap
  stop_le : stop gap ≤ breaks (last gap + 1)

/-- From a row on, gaps are marked where they begin, and their other rows are empty. -/
structure InRows (content : ℕ → List (α ⊕ β)) (row : ℕ) (gaps : List β) : Prop where
  marked : ∀ gap ∈ gaps, content (first gap) =
    (slice text (breaks (first gap)) (start gap)).map .inl ++
      .inr gap :: (slice text (stop gap) (breaks (last gap + 1))).map .inl
  hidden : ∀ gap ∈ gaps, ∀ row, first gap < row → row ≤ last gap → content row = []
  plain : ∀ row', row ≤ row' → row' < rows → (∀ gap ∈ gaps, row' < first gap ∨ last gap < row') →
    content row' = (slice text (breaks row') (breaks (row' + 1))).map .inl

variable {start stop first last text breaks rows} {content : ℕ → List (α ⊕ β)} {gaps : List β}
  {row : ℕ}

/-- **The rows one after another** make the text with its gaps. -/
theorem flatMap_eq_elided (hbreaks : Monotone breaks) (hrows : breaks rows = text.length)
    (hfits : ∀ gap ∈ gaps, Fits start stop first last breaks rows gap)
    (hapart : gaps.Pairwise fun gap gap' => last gap < first gap')
    (hfirst : ∀ gap ∈ gaps, row ≤ first gap) (hrow : row ≤ rows)
    (h : InRows start stop first last text breaks rows content row gaps) :
    (List.range' row (rows - row)).flatMap content = elided start stop text (breaks row) gaps := by
  induction gaps generalizing row with
  | nil =>
    have hplain : ∀ row' ∈ List.range' row (rows - row),
        content row' = (slice text (breaks row') (breaks (row' + 1))).map .inl := by
      intro row' hrow'
      have := List.mem_range'_1.mp hrow'
      exact h.plain row' (by omega) (by omega) nofun
    rw [List.flatMap_congr hplain, ← List.map_flatMap, flatMap_slice hbreaks, elided,
      Nat.add_sub_cancel' hrow, hrows]
  | cons gap gaps ih =>
    obtain ⟨hlater, hapart⟩ := List.pairwise_cons.mp hapart
    have hfit := hfits gap List.mem_cons_self
    have hle := hfirst gap List.mem_cons_self
    have hfl := hfit.first_le_last
    have hlt := hfit.last_lt
    -- the rows before the first gap, its marked row, its hidden rows and those behind it
    have hsplit : List.range' row (rows - row) = List.range' row (first gap - row) ++
        first gap :: (List.range' (first gap + 1) (last gap - first gap) ++
          List.range' (last gap + 1) (rows - (last gap + 1))) := by
      have hone := List.range'_append_1 (s := row) (m := first gap - row) (n := rows - first gap)
      have htwo := List.range'_append_1 (s := first gap + 1) (m := last gap - first gap)
        (n := rows - (last gap + 1))
      rw [show row + (first gap - row) = first gap by omega,
        show first gap - row + (rows - first gap) = rows - row by omega] at hone
      rw [show first gap + 1 + (last gap - first gap) = last gap + 1 by omega,
        show last gap - first gap + (rows - (last gap + 1)) = rows - first gap - 1 by omega] at htwo
      rw [htwo, ← hone, show rows - first gap = rows - first gap - 1 + 1 by omega, List.range'_succ]
      rfl
    have hbefore : (List.range' row (first gap - row)).flatMap content =
        (slice text (breaks row) (breaks (first gap))).map .inl := by
      have hplain : ∀ row' ∈ List.range' row (first gap - row),
          content row' = (slice text (breaks row') (breaks (row' + 1))).map .inl := by
        intro row' hrow'
        have := List.mem_range'_1.mp hrow'
        refine h.plain row' (by omega) (by omega) fun gap' hgap' => .inl ?_
        rcases List.mem_cons.mp hgap' with rfl | hgap'
        · omega
        · have := hlater gap' hgap'
          omega
      rw [List.flatMap_congr hplain, ← List.map_flatMap, flatMap_slice hbreaks,
        Nat.add_sub_cancel' hle]
    have hhidden : (List.range' (first gap + 1) (last gap - first gap)).flatMap content = [] := by
      refine List.flatMap_eq_nil_iff.mpr fun row' hrow' => ?_
      have := List.mem_range'_1.mp hrow'
      exact h.hidden gap List.mem_cons_self row' (by omega) (by omega)
    have hnext : ∀ gap' ∈ gaps, breaks (last gap + 1) ≤ start gap' := fun gap' hgap' =>
      (hbreaks (hlater gap' hgap')).trans (hfits gap' (List.mem_cons_of_mem _ hgap')).le_start
    have hlength : breaks (last gap + 1) ≤ text.length := hrows ▸ hbreaks hlt
    have hrest := ih (fun gap' hgap' => hfits gap' (List.mem_cons_of_mem _ hgap')) hapart
      (fun gap' hgap' => hlater gap' hgap') hlt
      -- behind the first gap only the others hide rows
      { marked := fun gap' hgap' => h.marked gap' (List.mem_cons_of_mem _ hgap')
        hidden := fun gap' hgap' => h.hidden gap' (List.mem_cons_of_mem _ hgap')
        plain := fun row' hrow' hrows' hfree => h.plain row' (by omega) hrows' fun gap' hgap' => by
          rcases List.mem_cons.mp hgap' with rfl | hgap'
          · exact .inr (by omega)
          · exact hfree gap' hgap' }
    rw [hsplit, List.flatMap_append, List.flatMap_cons, List.flatMap_append, hbefore, hhidden,
      hrest, h.marked gap List.mem_cons_self, elided, elided_eq_append hfit.stop_le hlength hnext,
      ← slice_append_slice text (hbreaks hle) hfit.le_start]
    simp only [List.map_append, List.append_assoc, List.nil_append, List.cons_append]

end Rows

/-- Lists that are parts of others make the same list one after another only if they are those. -/
theorem flatMap_eq_iff_of_sublist {f g : γ → List α} {l : List γ}
    (h : ∀ x ∈ l, (f x).Sublist (g x)) : l.flatMap f = l.flatMap g ↔ ∀ x ∈ l, f x = g x := by
  constructor
  · induction l with
    | nil => exact fun _ => nofun
    | cons x l ih =>
      intro heq
      obtain ⟨hx, hl⟩ := List.forall_mem_cons.mp h
      have hrest := (List.Sublist.flatMap_right l hl).length_le
      rw [List.flatMap_cons, List.flatMap_cons] at heq
      have hlength := congrArg List.length heq
      rw [List.length_append, List.length_append] at hlength
      have hfirst := hx.length_le
      obtain ⟨hsame, hsame'⟩ := List.append_inj heq (by omega)
      exact List.forall_mem_cons.mpr ⟨hsame, ih hl hsame'⟩
  · exact List.flatMap_congr

end AgentCockpit.Core
