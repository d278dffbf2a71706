import Mathlib.Algebra.Order.Field.Basic
import Mathlib.Tactic.Linarith
import Mathlib.Tactic.Ring

/-!
# Token buckets

A bucket holds at most `capacity` tokens and gains `rate` tokens in a unit of time. An attempt
reads a clock, fills the bucket up for the time since the last reading and takes one token if
there is one. The bucket stores its last reading even if the clock went backwards, so that a clock
that comes back to where it was fills it up for the same time again.
-/

namespace AgentCockpit.Core

variable {K : Type*} [Field K] [LinearOrder K]

structure Bucket (K : Type*) where
  tokens : K
  last : K
  deriving DecidableEq, Repr

section Definitions

variable (capacity rate : K)

/-- The tokens when the clock shows `now`. -/
def Bucket.refilled (bucket : Bucket K) (now : K) : K :=
  min capacity (bucket.tokens + rate * max 0 (now - bucket.last))

def Bucket.take (bucket : Bucket K) (now : K) : Bool × Bucket K :=
  if 1 ≤ bucket.refilled capacity rate now then
    (true, ⟨bucket.refilled capacity rate now - 1, now⟩)
  else (false, ⟨bucket.refilled capacity rate now, now⟩)

/-- One attempt for each reading, with its outcome. -/
def Bucket.attempts (bucket : Bucket K) : List K → List (K × Bool)
  | [] => []
  | now :: nows =>
    (now, (bucket.take capacity rate now).1) ::
      (bucket.take capacity rate now).2.attempts nows

/-- The level of a bucket that gains tokens all the time; `taken` has the times at which one was
taken, the last one first. -/
def level : List K → K → K
  | [], _ => capacity
  | time :: taken, now => min capacity (level taken time - 1 + rate * (now - time))

/-- Attempts on such a bucket. -/
def continuous (taken : List K) : List K → List (K × Bool)
  | [] => []
  | now :: nows =>
    if 1 ≤ level capacity rate taken now then (now, true) :: continuous (now :: taken) nows
    else (now, false) :: continuous taken nows

end Definitions

/-- The attempts that were granted. -/
def granted (attempts : List (K × Bool)) : ℕ := attempts.countP (·.2)

/-- The attempts that were granted in a window. -/
def grantedIn (first last : K) (attempts : List (K × Bool)) : ℕ :=
  attempts.countP fun attempt => decide (first ≤ attempt.1 ∧ attempt.1 ≤ last) && attempt.2

theorem granted_cons {K : Type*} (attempt : K × Bool) (attempts : List (K × Bool)) :
    granted (attempt :: attempts) = granted attempts + (if attempt.2 then 1 else 0) := by
  rw [granted, granted, List.countP_cons]

/-- How far a clock goes forward in total. -/
def climb (last : K) : List K → K
  | [] => 0
  | now :: nows => max 0 (now - last) + climb now nows

/-- How far it goes forward from its first reading on. -/
def climbs : List K → K
  | [] => 0
  | now :: nows => climb now nows

/-- Every reading is in an interval. -/
def Within (low width : K) (readings : List K) : Prop :=
  ∀ reading ∈ readings, low ≤ reading ∧ reading ≤ low + width

/-! ### One attempt -/

section Steps

variable (capacity rate : K) (bucket : Bucket K) (now : K)

theorem Bucket.refilled_le : bucket.refilled capacity rate now ≤ capacity :=
  min_le_left _ _

theorem Bucket.refilled_le_add :
    bucket.refilled capacity rate now ≤ bucket.tokens + rate * max 0 (now - bucket.last) :=
  min_le_right _ _

/-- An attempt leaves what it found, less the token it took. -/
theorem Bucket.take_tokens :
    (bucket.take capacity rate now).2.tokens +
        (if (bucket.take capacity rate now).1 then 1 else 0) =
      bucket.refilled capacity rate now := by
  unfold take
  split <;> simp

@[simp] theorem Bucket.take_last : (bucket.take capacity rate now).2.last = now := by
  unfold take
  split <;> rfl

variable {capacity rate bucket now} in
theorem Bucket.take_nonneg [IsStrictOrderedRing K] (hcapacity : 0 ≤ capacity) (hrate : 0 ≤ rate)
    (hbucket : 0 ≤ bucket.tokens) : 0 ≤ (bucket.take capacity rate now).2.tokens := by
  unfold take
  split
  next h => exact sub_nonneg.mpr h
  next => exact le_min hcapacity (add_nonneg hbucket (mul_nonneg hrate (le_max_left _ _)))

variable {capacity rate bucket} in
/-- Whatever the clock did before, an attempt that comes a token later is granted. -/
theorem Bucket.attempts_isChain [IsStrictOrderedRing K] (hcapacity : 1 ≤ capacity)
    (hrate : 0 ≤ rate) (hbucket : 0 ≤ bucket.tokens) (granted : Bool) (nows : List K) :
    ((bucket.last, granted) :: bucket.attempts capacity rate nows).IsChain
      fun earlier later => 1 ≤ rate * (later.1 - earlier.1) → later.2 = true := by
  induction nows generalizing bucket granted with
  | nil => exact .singleton _
  | cons now nows ih =>
    rw [attempts, List.isChain_cons_cons]
    constructor
    · intro hwait
      have hgain := mul_le_mul_of_nonneg_left (le_max_right 0 (now - bucket.last)) hrate
      have hfull : 1 ≤ bucket.refilled capacity rate now :=
        le_min hcapacity (le_add_of_nonneg_of_le hbucket (hwait.trans hgain))
      rw [take, if_pos hfull]
    · have hnext : 0 ≤ (bucket.take capacity rate now).2.tokens :=
        take_nonneg (zero_le_one.trans hcapacity) hrate hbucket
      have hrest := ih hnext (bucket.take capacity rate now).1
      rwa [take_last] at hrest

/-- Nothing is granted in a window that is over. -/
theorem grantedIn_eq_zero {first last : K} {nows : List K} (h : ∀ now ∈ nows, last < now) :
    grantedIn first last (bucket.attempts capacity rate nows) = 0 := by
  induction nows generalizing bucket with
  | nil => rfl
  | cons now nows ih =>
    have hnow : ¬ (first ≤ now ∧ now ≤ last) := fun hin =>
      absurd hin.2 (not_le.mpr (h now List.mem_cons_self))
    rw [Bucket.attempts, grantedIn, List.countP_cons_of_neg (by simp [hnow])]
    exact ih _ fun later hlater => h later (List.mem_cons_of_mem _ hlater)

end Steps

theorem grantedIn_cons_le [IsStrictOrderedRing K] (first last : K) (attempt : K × Bool)
    (attempts : List (K × Bool)) :
    (grantedIn first last (attempt :: attempts) : K) ≤
      grantedIn first last attempts + (if attempt.2 then 1 else 0) := by
  rw [grantedIn, grantedIn, List.countP_cons, Nat.cast_add]
  refine add_le_add le_rfl ?_
  cases attempt.2 with
  | false => simp
  | true => split <;> simp

/-! ### Clocks that do not go backwards -/

section Ordered

variable [IsStrictOrderedRing K] {capacity rate : K} {bucket : Bucket K}

/-- A level goes on to rise from wherever it is. -/
theorem level_rises (hrate : 0 ≤ rate) (taken : List K) {time now : K} (h : time ≤ now) :
    level capacity rate taken now =
      min capacity (level capacity rate taken time + rate * (now - time)) := by
  have hgain : 0 ≤ rate * (now - time) := mul_nonneg hrate (sub_nonneg.mpr h)
  cases taken with
  | nil => rw [level, level, min_eq_left (by linarith)]
  | cons first taken =>
    rw [level, level, min_add, ← min_assoc, min_eq_left (le_add_of_nonneg_right hgain)]
    congr 1
    ring

/-- A bucket at the exact level grants what the exact bucket grants. -/
theorem attempts_eq_continuous (hrate : 0 ≤ rate) {taken nows : List K}
    (hsorted : (bucket.last :: nows).Pairwise (· ≤ ·))
    (hlevel : ∀ now, bucket.last ≤ now →
      bucket.refilled capacity rate now = level capacity rate taken now) :
    bucket.attempts capacity rate nows = continuous capacity rate taken nows := by
  induction nows generalizing bucket taken with
  | nil => rfl
  | cons now nows ih =>
    obtain ⟨hfirst, hlater⟩ := List.pairwise_cons.mp hsorted
    have hnow := hlevel now (hfirst now List.mem_cons_self)
    rw [Bucket.attempts, continuous, Bucket.take, hnow]
    split
    next =>
      refine congrArg ((now, true) :: ·) (ih hlater fun later hle => ?_)
      change min capacity (level capacity rate taken now - 1 + rate * max 0 (later - now)) = _
      rw [max_eq_right (sub_nonneg.mpr hle), level]
    next =>
      refine congrArg ((now, false) :: ·) (ih hlater fun later hle => ?_)
      change min capacity (level capacity rate taken now + rate * max 0 (later - now)) = _
      rw [max_eq_right (sub_nonneg.mpr hle), level_rises hrate taken hle]

/-- A full bucket is exact. -/
theorem attempts_full (hrate : 0 ≤ rate) {start : K} {nows : List K}
    (hsorted : (start :: nows).Pairwise (· ≤ ·)) :
    Bucket.attempts capacity rate ⟨capacity, start⟩ nows =
      continuous capacity rate [] nows := by
  refine attempts_eq_continuous hrate hsorted fun now hle => ?_
  have hgain : 0 ≤ rate * (now - start) := mul_nonneg hrate (sub_nonneg.mpr hle)
  change min capacity (capacity + rate * max 0 (now - start)) = capacity
  rw [max_eq_right (sub_nonneg.mpr hle), min_eq_left (le_add_of_nonneg_right hgain)]

/-! ### Windows -/

/-- Up to a time at most the tokens that are there and those that are gained are granted. -/
theorem grantedIn_le_tokens (hcapacity : 0 ≤ capacity) (hrate : 0 ≤ rate) {first last : K}
    {nows : List K} (hsorted : (bucket.last :: nows).Pairwise (· ≤ ·))
    (hbucket : 0 ≤ bucket.tokens) (hlast : bucket.last ≤ last) :
    (grantedIn first last (bucket.attempts capacity rate nows) : K) ≤
      bucket.tokens + rate * (last - bucket.last) := by
  induction nows generalizing bucket with
  | nil =>
    rw [Bucket.attempts, grantedIn, List.countP_nil, Nat.cast_zero]
    exact add_nonneg hbucket (mul_nonneg hrate (sub_nonneg.mpr hlast))
  | cons now nows ih =>
    obtain ⟨hfirst, hlater⟩ := List.pairwise_cons.mp hsorted
    have hnow := hfirst now List.mem_cons_self
    rcases lt_or_ge last now with hover | hin
    · have hall : ∀ later ∈ now :: nows, last < later := by
        intro later hmem
        rcases List.mem_cons.mp hmem with rfl | hmem
        · exact hover
        · exact hover.trans_le ((List.pairwise_cons.mp hlater).1 later hmem)
      rw [grantedIn_eq_zero capacity rate bucket hall, Nat.cast_zero]
      exact add_nonneg hbucket (mul_nonneg hrate (sub_nonneg.mpr hlast))
    · have hrest := @ih (bucket.take capacity rate now).2 (by rwa [Bucket.take_last])
        (Bucket.take_nonneg hcapacity hrate hbucket) (by rwa [Bucket.take_last])
      have htokens := bucket.take_tokens capacity rate now
      have hgain := bucket.refilled_le_add capacity rate now
      have hcount := grantedIn_cons_le first last (now, (bucket.take capacity rate now).1)
        ((bucket.take capacity rate now).2.attempts capacity rate nows)
      rw [Bucket.take_last] at hrest
      rw [max_eq_right (sub_nonneg.mpr hnow)] at hgain
      rw [Bucket.attempts]
      linarith

/-- No window grants more than the capacity and what is gained in it. -/
theorem granted_window_le (hcapacity : 0 ≤ capacity) (hrate : 0 ≤ rate) {first last : K}
    (hwindow : first ≤ last) {nows : List K}
    (hsorted : (bucket.last :: nows).Pairwise (· ≤ ·)) (hbucket : 0 ≤ bucket.tokens) :
    (grantedIn first last (bucket.attempts capacity rate nows) : K) ≤
      capacity + rate * (last - first) := by
  have hgain : 0 ≤ rate * (last - first) := mul_nonneg hrate (sub_nonneg.mpr hwindow)
  induction nows generalizing bucket with
  | nil =>
    rw [Bucket.attempts, grantedIn, List.countP_nil, Nat.cast_zero]
    exact add_nonneg hcapacity hgain
  | cons now nows ih =>
    obtain ⟨-, hlater⟩ := List.pairwise_cons.mp hsorted
    have hbehind : ((bucket.take capacity rate now).2.last :: nows).Pairwise (· ≤ ·) := by
      rwa [Bucket.take_last]
    have hnonneg : 0 ≤ (bucket.take capacity rate now).2.tokens :=
      Bucket.take_nonneg hcapacity hrate hbucket
    by_cases hin : first ≤ now ∧ now ≤ last
    · -- the first attempt of the window finds a bucket that is at most full
      have hrest := @grantedIn_le_tokens _ _ _ _ capacity rate _ hcapacity hrate first last nows
        hbehind hnonneg (by rw [Bucket.take_last]; exact hin.2)
      have htokens := bucket.take_tokens capacity rate now
      have hfull := bucket.refilled_le capacity rate now
      have hcount := grantedIn_cons_le first last (now, (bucket.take capacity rate now).1)
        ((bucket.take capacity rate now).2.attempts capacity rate nows)
      have hshort : rate * (last - now) ≤ rate * (last - first) :=
        mul_le_mul_of_nonneg_left (sub_le_sub_left hin.1 _) hrate
      rw [Bucket.take_last] at hrest
      rw [Bucket.attempts]
      linarith
    · rw [Bucket.attempts, grantedIn, List.countP_cons_of_neg (by simp [hin])]
      exact ih hbehind hnonneg

/-! ### Clocks that go back and forth -/

theorem granted_le_climb (hcapacity : 0 ≤ capacity) (hrate : 0 ≤ rate)
    (hbucket : 0 ≤ bucket.tokens) (nows : List K) :
    (granted (bucket.attempts capacity rate nows) : K) ≤
      bucket.tokens + rate * climb bucket.last nows := by
  induction nows generalizing bucket with
  | nil =>
    rw [Bucket.attempts, granted, List.countP_nil, climb, mul_zero, add_zero, Nat.cast_zero]
    exact hbucket
  | cons now nows ih =>
    have hrest := @ih (bucket.take capacity rate now).2
      (Bucket.take_nonneg hcapacity hrate hbucket)
    have htokens := bucket.take_tokens capacity rate now
    have hgain := bucket.refilled_le_add capacity rate now
    rw [Bucket.take_last] at hrest
    rw [Bucket.attempts, granted_cons, climb, mul_add, Nat.cast_add, Nat.cast_ite, Nat.cast_one,
      Nat.cast_zero]
    linarith

omit [IsStrictOrderedRing K] in
/-- A bucket that grants nothing has gained less than a token. -/
theorem gained_lt_one {nows : List K} (hnone : granted (bucket.attempts 1 rate nows) = 0)
    (hbucket : bucket.tokens < 1) : bucket.tokens + rate * climb bucket.last nows < 1 := by
  induction nows generalizing bucket with
  | nil => rwa [climb, mul_zero, add_zero]
  | cons now nows ih =>
    rw [Bucket.attempts, granted, List.countP_eq_zero] at hnone
    have hrefused : ¬ 1 ≤ bucket.refilled 1 rate now := by
      have hfirst := hnone _ List.mem_cons_self
      intro hone
      exact hfirst (by simp [Bucket.take, hone])
    have htake : (bucket.take 1 rate now).2 = ⟨bucket.refilled 1 rate now, now⟩ := by
      rw [Bucket.take, if_neg hrefused]
    have hrest := @ih (bucket.take 1 rate now).2
      (List.countP_eq_zero.mpr fun attempt hmem => hnone attempt (List.mem_cons_of_mem _ hmem))
      (by rw [htake]; exact not_le.mp hrefused)
    have hgain : bucket.refilled 1 rate now = bucket.tokens + rate * max 0 (now - bucket.last) := by
      refine min_eq_right ?_
      by_contra hfull
      exact hrefused (le_min le_rfl (not_le.mp hfull).le)
    rw [htake, hgain] at hrest
    rw [climb, mul_add, ← add_assoc]
    exact hrest

/-- While the readings stay in an interval, no more is granted than the capacity and what is
gained in a time as long as it, whatever the capacity and the rate, exactly on a clock that goes
forward by no more than that from its first attempt on. -/
theorem granted_le_iff_climb_le (start : K) (readings : List K) :
    (∀ capacity rate : K, 0 ≤ capacity → 0 < rate → ∀ nows, nows <+: readings →
      ∀ low width, Within low width (start :: nows) →
        (granted (Bucket.attempts capacity rate ⟨capacity, start⟩ nows) : K) ≤
          capacity + rate * width) ↔
      ∀ nows, nows <+: readings → ∀ low width, Within low width (start :: nows) →
        climbs nows ≤ width := by
  constructor
  · intro hbound nows hnows low width hwithin
    by_contra hfar
    rw [not_le] at hfar
    have hwidth : 0 ≤ width := by
      obtain ⟨hlow, hhigh⟩ := hwithin start List.mem_cons_self
      linarith
    have hclimb : 0 < climbs nows := hwidth.trans_lt hfar
    cases nows with
    | nil => exact lt_irrefl 0 hclimb
    | cons now nows =>
      rw [climbs] at hfar hclimb
      -- a bucket for one token that gains another one over all the steps forward
      have hrate : 0 < (climb now nows)⁻¹ := inv_pos.mpr hclimb
      have hone := hbound 1 _ zero_le_one hrate _ hnows low width hwithin
      have hfull : Bucket.refilled 1 (climb now nows)⁻¹ ⟨1, start⟩ now = 1 :=
        min_eq_left (le_add_of_nonneg_right (mul_nonneg hrate.le (le_max_left _ _)))
      have htake : Bucket.take 1 (climb now nows)⁻¹ ⟨1, start⟩ now = (true, ⟨0, now⟩) := by
        rw [Bucket.take, hfull, if_pos le_rfl, sub_self]
      rw [Bucket.attempts, granted_cons, htake] at hone
      have hnext : granted (Bucket.attempts 1 (climb now nows)⁻¹ ⟨0, now⟩ nows) ≠ 0 := by
        intro hnone
        have hless : 0 + (climb now nows)⁻¹ * climb now nows < 1 :=
          gained_lt_one hnone zero_lt_one
        rw [zero_add, inv_mul_cancel₀ hclimb.ne'] at hless
        exact lt_irrefl 1 hless
      have htwo : (2 : K) ≤ 1 + (climb now nows)⁻¹ * width := by
        refine le_trans ?_ hone
        exact_mod_cast Nat.succ_le_succ (Nat.one_le_iff_ne_zero.mpr hnext)
      have hsmall : (climb now nows)⁻¹ * width < 1 := by
        rw [inv_mul_lt_iff₀ hclimb, mul_one]
        exact hfar
      linarith
  · intro hclimbs capacity rate hcapacity hrate nows hnows low width hwithin
    have hwidth := hclimbs nows hnows low width hwithin
    cases nows with
    | nil =>
      rw [Bucket.attempts, granted, List.countP_nil, Nat.cast_zero]
      exact add_nonneg hcapacity (mul_nonneg hrate.le hwidth)
    | cons now nows =>
      have hrest := @granted_le_climb _ _ _ _ capacity rate
        (Bucket.take capacity rate ⟨capacity, start⟩ now).2 hcapacity hrate.le
        (Bucket.take_nonneg hcapacity hrate.le hcapacity) nows
      have htokens := Bucket.take_tokens capacity rate ⟨capacity, start⟩ now
      have hfull := Bucket.refilled_le capacity rate ⟨capacity, start⟩ now
      have hgain : rate * climb now nows ≤ rate * width :=
        mul_le_mul_of_nonneg_left hwidth hrate.le
      rw [Bucket.take_last] at hrest
      rw [Bucket.attempts, granted_cons, Nat.cast_add, Nat.cast_ite, Nat.cast_one, Nat.cast_zero]
      linarith

end Ordered

end AgentCockpit.Core
