import Mathlib.Algebra.Order.Field.Basic
import Mathlib.Tactic.Linarith

/-!
# Cutting a rectangle

A rectangle is cut in two, along one axis or the other, and its parts are cut on. Seen in one
direction, every piece either reaches the end of the rectangle or has a piece behind it that begins
where it ends. Unless the pieces are too thin, one of those pieces stands behind a good part of it.
-/

namespace AgentCockpit.Core

/-- A rectangle seen in one direction: it extends from `lo` to `hi`, and across the direction from
`start` to `stop`. -/
@[ext]
structure Slab (K : Type*) where
  lo : K
  hi : K
  start : K
  stop : K

variable {K : Type*} [LinearOrder K]

/-- The length that two rectangles share across the direction. -/
def Slab.overlap [Sub K] (slab other : Slab K) : K :=
  min slab.stop other.stop - max slab.start other.start

/-- One rectangle lies in another one. -/
structure Slab.Within (slab box : Slab K) : Prop where
  lo : box.lo ≤ slab.lo
  hi : slab.hi ≤ box.hi
  start : box.start ≤ slab.start
  stop : slab.stop ≤ box.stop

section Cut

variable {α : Type*} (slab : α → Slab K)

/-- The pieces that a rectangle has been cut into. -/
inductive Cut : Slab K → Set α → Prop
  | whole {box : Slab K} {piece : α} (h : slab piece = box) : Cut box {piece}
  /-- Cut across the direction: one part lies behind the other. -/
  | behind {box : Slab K} {near far : Set α} (mid : K) (hlo : box.lo ≤ mid) (hhi : mid ≤ box.hi)
      (hnear : Cut { box with hi := mid } near) (hfar : Cut { box with lo := mid } far) :
      Cut box (near ∪ far)
  /-- Cut along the direction: one part lies beside the other. -/
  | beside {box : Slab K} {first second : Set α} (mid : K) (hstart : box.start ≤ mid)
      (hstop : mid ≤ box.stop) (hfirst : Cut { box with stop := mid } first)
      (hsecond : Cut { box with start := mid } second) : Cut box (first ∪ second)

namespace Cut

variable {slab} {box : Slab K} {pieces : Set α} {piece : α} {least : K}

theorem within (h : Cut slab box pieces) (hpiece : piece ∈ pieces) : (slab piece).Within box := by
  induction h with
  | whole hslab =>
    obtain rfl := Set.mem_singleton_iff.mp hpiece
    rw [hslab]
    exact ⟨le_rfl, le_rfl, le_rfl, le_rfl⟩
  | behind mid hlo hhi _ _ hnear hfar =>
    rcases hpiece with hpiece | hpiece
    · obtain ⟨h1, h2, h3, h4⟩ := hnear hpiece
      exact ⟨h1, h2.trans hhi, h3, h4⟩
    · obtain ⟨h1, h2, h3, h4⟩ := hfar hpiece
      exact ⟨hlo.trans h1, h2, h3, h4⟩
  | beside mid hstart hstop _ _ hfirst hsecond =>
    rcases hpiece with hpiece | hpiece
    · obtain ⟨h1, h2, h3, h4⟩ := hfirst hpiece
      exact ⟨h1, h2, h3, h4.trans hstop⟩
    · obtain ⟨h1, h2, h3, h4⟩ := hsecond hpiece
      exact ⟨h1, h2, hstart.trans h3, h4⟩

/-- A piece lies in the corner where the rectangle begins both ways. -/
theorem exists_start (h : Cut slab box pieces) :
    ∃ piece ∈ pieces, (slab piece).lo = box.lo ∧ (slab piece).start = box.start := by
  induction h with
  | @whole box piece hslab => exact ⟨piece, rfl, by rw [hslab], by rw [hslab]⟩
  | behind _ _ _ _ _ hnear _ =>
    obtain ⟨piece, hpiece, hcorner⟩ := hnear
    exact ⟨piece, .inl hpiece, hcorner⟩
  | beside _ _ _ _ _ hfirst _ =>
    obtain ⟨piece, hpiece, hcorner⟩ := hfirst
    exact ⟨piece, .inl hpiece, hcorner⟩

/-- A piece lies in the other corner of that side. -/
theorem exists_stop (h : Cut slab box pieces) :
    ∃ piece ∈ pieces, (slab piece).lo = box.lo ∧ (slab piece).stop = box.stop := by
  induction h with
  | @whole box piece hslab => exact ⟨piece, rfl, by rw [hslab], by rw [hslab]⟩
  | behind _ _ _ _ _ hnear _ =>
    obtain ⟨piece, hpiece, hcorner⟩ := hnear
    exact ⟨piece, .inl hpiece, hcorner⟩
  | beside _ _ _ _ _ _ hsecond =>
    obtain ⟨piece, hpiece, hcorner⟩ := hsecond
    exact ⟨piece, .inr hpiece, hcorner⟩

variable [Field K] [IsStrictOrderedRing K]

/-- Where no piece is thin, one on the border where the rectangle begins covers half of the span of
`other`, or as much as a piece is wide at least. -/
theorem exists_on_border (h : Cut slab box pieces)
    (hwide : ∀ piece ∈ pieces, least ≤ (slab piece).stop - (slab piece).start) {other : Slab K}
    (hother : other.start ≤ other.stop) (hstart : box.start ≤ other.start)
    (hstop : other.stop ≤ box.stop) : ∃ piece ∈ pieces, (slab piece).lo = box.lo ∧
      min ((other.stop - other.start) / 2) least ≤ other.overlap (slab piece) := by
  induction h with
  | @whole box piece hslab =>
    refine ⟨piece, rfl, by rw [hslab], ?_⟩
    rw [Slab.overlap, hslab, min_eq_left hstop, max_eq_left hstart]
    apply (min_le_left _ _).trans
    linarith
  | behind _ _ _ _ _ hnear _ =>
    obtain ⟨piece, hpiece, hborder⟩ :=
      hnear (fun piece hpiece => hwide piece (.inl hpiece)) hstart hstop
    exact ⟨piece, .inl hpiece, hborder⟩
  | @beside box first second mid hmid hmid' hfirst hsecond ihfirst ihsecond =>
    by_cases hbelow : other.stop ≤ mid
    · obtain ⟨piece, hpiece, hborder⟩ :=
        ihfirst (fun piece hpiece => hwide piece (.inl hpiece)) hstart hbelow
      exact ⟨piece, .inl hpiece, hborder⟩
    by_cases habove : mid ≤ other.start
    · obtain ⟨piece, hpiece, hborder⟩ :=
        ihsecond (fun piece hpiece => hwide piece (.inr hpiece)) habove hstop
      exact ⟨piece, .inr hpiece, hborder⟩
    push Not at hbelow habove
    -- The cut halves the span: the longer half ends in a corner of its part.
    by_cases hlonger : (other.stop - other.start) / 2 ≤ mid - other.start
    · obtain ⟨piece, hpiece, hlo, hcorner⟩ := hfirst.exists_stop
      have hpieceWide := hwide piece (.inl hpiece)
      refine ⟨piece, .inl hpiece, hlo, ?_⟩
      rw [Slab.overlap, hcorner, min_eq_right hbelow.le]
      rw [hcorner] at hpieceWide
      rcases max_choice other.start (slab piece).start with hmax | hmax
      · rw [hmax]
        exact (min_le_left _ _).trans hlonger
      · rw [hmax]
        exact (min_le_right _ _).trans hpieceWide
    · obtain ⟨piece, hpiece, hlo, hcorner⟩ := hsecond.exists_start
      have hpieceWide := hwide piece (.inr hpiece)
      refine ⟨piece, .inr hpiece, hlo, ?_⟩
      rw [Slab.overlap, hcorner, max_eq_right habove.le]
      rw [hcorner] at hpieceWide
      rcases min_choice other.stop (slab piece).stop with hmin | hmin
      · rw [hmin]
        apply (min_le_left _ _).trans
        push Not at hlonger
        linarith
      · rw [hmin]
        exact (min_le_right _ _).trans hpieceWide

/-- A piece that does not reach the end of the rectangle has another one behind it. -/
theorem exists_adjacent (h : Cut slab box pieces) (hpiece : piece ∈ pieces)
    (hleast : 0 ≤ least)
    (hwide : ∀ piece ∈ pieces, least ≤ (slab piece).stop - (slab piece).start) :
    (slab piece).hi = box.hi ∨ ∃ next ∈ pieces, (slab next).lo = (slab piece).hi ∧
      min (((slab piece).stop - (slab piece).start) / 2) least ≤
        (slab piece).overlap (slab next) := by
  induction h with
  | whole hslab =>
    obtain rfl := Set.mem_singleton_iff.mp hpiece
    exact .inl (by rw [hslab])
  | @behind box near far mid hlo hhi hnear hfar ihnear ihfar =>
    rcases hpiece with hpiece | hpiece
    · rcases ihnear hpiece (fun piece hpiece => hwide piece (.inl hpiece)) with hend | hnext
      · -- The piece ends at the cut, and what lies behind it begins there.
        have hwithin := hnear.within hpiece
        have hspan := hwide piece (.inl hpiece)
        obtain ⟨next, hnext, hborder, hoverlap⟩ := hfar.exists_on_border
          (fun piece hpiece => hwide piece (.inr hpiece)) (by linarith) hwithin.start hwithin.stop
        exact .inr ⟨next, .inr hnext, hborder.trans hend.symm, hoverlap⟩
      · obtain ⟨next, hnext, hadjacent⟩ := hnext
        exact .inr ⟨next, .inl hnext, hadjacent⟩
    · rcases ihfar hpiece (fun piece hpiece => hwide piece (.inr hpiece)) with hend | hnext
      · exact .inl hend
      · obtain ⟨next, hnext, hadjacent⟩ := hnext
        exact .inr ⟨next, .inr hnext, hadjacent⟩
  | beside _ _ _ _ _ ihfirst ihsecond =>
    rcases hpiece with hpiece | hpiece
    · rcases ihfirst hpiece (fun piece hpiece => hwide piece (.inl hpiece)) with hend | hnext
      · exact .inl hend
      · obtain ⟨next, hnext, hadjacent⟩ := hnext
        exact .inr ⟨next, .inl hnext, hadjacent⟩
    · rcases ihsecond hpiece (fun piece hpiece => hwide piece (.inr hpiece)) with hend | hnext
      · exact .inl hend
      · obtain ⟨next, hnext, hadjacent⟩ := hnext
        exact .inr ⟨next, .inr hnext, hadjacent⟩

end Cut

end Cut

end AgentCockpit.Core
