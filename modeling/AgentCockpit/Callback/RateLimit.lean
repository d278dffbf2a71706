import AgentCockpit.Core.Refill

/-!
# The burst limit of callback requests

Requests of a project pass a token bucket in the application, and another one in the helper of a
remote host. The application reads its clock in milliseconds and the helper in seconds; times,
tokens and rates are exact here. The two buckets are the same: both store the reading of every
attempt, also that of a clock that went backwards.
-/

namespace AgentCockpit

open AgentCockpit.Core

/-! ### The application -/

/-- Times are in milliseconds. -/
structure Callback.TokenBucket where
  capacity : ℚ
  perSecond : ℚ
  tokens : ℚ
  last : ℚ
  deriving DecidableEq, Repr

namespace Callback.TokenBucket

def new (capacity perSecond now : ℚ) : TokenBucket := ⟨capacity, perSecond, capacity, now⟩

/-- Take one token if available. -/
def tryTake (bucket : TokenBucket) (t : ℚ) : Bool × TokenBucket :=
  let tokens := min bucket.capacity
    (bucket.tokens + max 0 (t - bucket.last) / 1000 * bucket.perSecond)
  if tokens < 1 then (false, { bucket with tokens, last := t })
  else (true, { bucket with tokens := tokens - 1, last := t })

def takes (bucket : TokenBucket) : List ℚ → List Bool
  | [] => []
  | t :: ts => (bucket.tryTake t).1 :: (bucket.tryTake t).2.takes ts

end Callback.TokenBucket

/-! ### The helper -/

/-- Times are in seconds. -/
structure Helper.TokenBucket where
  capacity : ℚ
  perSecond : ℚ
  tokens : ℚ
  last : ℚ
  deriving DecidableEq, Repr

namespace Helper

def newTokenBucket (capacity perSecond now : ℚ) : TokenBucket :=
  ⟨capacity, perSecond, capacity, now⟩

namespace TokenBucket

/-- Take one token if one is available. -/
def tryTake (b : TokenBucket) (t : ℚ) : Bool × TokenBucket :=
  let elapsed := if t - b.last < 0 then 0 else t - b.last
  let filled := b.tokens + elapsed * b.perSecond
  let tokens := if filled > b.capacity then b.capacity else filled
  if tokens < 1 then (false, { b with tokens, last := t })
  else (true, { b with tokens := tokens - 1, last := t })

def takes (b : TokenBucket) : List ℚ → List Bool
  | [] => []
  | t :: ts => (b.tryTake t).1 :: (b.tryTake t).2.takes ts

end TokenBucket

end Helper

/-! ### Both -/

namespace Callback

/-- A limit: how many requests at once, and how many in a second. -/
structure RateLimit where
  capacity : ℚ
  perSecond : ℚ
  capacity_nonneg : 0 ≤ capacity
  perSecond_pos : 0 < perSecond

inductive Implementation
  | typeScript
  | go
  deriving DecidableEq, Repr

/-- The readings of a clock, in seconds, and whether the attempt at each was granted. -/
def limited (limit : RateLimit) (start : ℚ) (readings : List ℚ) :
    Implementation → List (ℚ × Bool)
  | .typeScript => readings.zip
      ((TokenBucket.new limit.capacity limit.perSecond (1000 * start)).takes
        (readings.map (1000 * ·)))
  | .go => readings.zip
      ((Helper.newTokenBucket limit.capacity limit.perSecond start).takes readings)

/-- The clock never goes forward for longer, from its first reading on, than the range of its
readings. -/
def ClimbsWithin (start : ℚ) (readings : List ℚ) : Prop :=
  ∀ nows, nows <+: readings → ∀ low width, Within low width (start :: nows) → climbs nows ≤ width

theorem TokenBucket.tryTake_eq (bucket : TokenBucket) (t : ℚ) :
    (bucket.tryTake (1000 * t)).1 =
        (Bucket.take bucket.capacity bucket.perSecond ⟨bucket.tokens, bucket.last / 1000⟩ t).1 ∧
      ∃ tokens, (bucket.tryTake (1000 * t)).2 = { bucket with tokens, last := 1000 * t } ∧
        (Bucket.take bucket.capacity bucket.perSecond ⟨bucket.tokens, bucket.last / 1000⟩ t).2 =
          ⟨tokens, t⟩ := by
  have hgain : max 0 (1000 * t - bucket.last) / 1000 * bucket.perSecond =
      bucket.perSecond * max 0 (t - bucket.last / 1000) := by
    rw [← max_div_div_right (by norm_num), zero_div, sub_div, mul_div_cancel_left₀ t (by norm_num),
      mul_comm]
  unfold tryTake Bucket.take Bucket.refilled
  dsimp only
  rw [hgain]
  by_cases hone : 1 ≤ min bucket.capacity
      (bucket.tokens + bucket.perSecond * max 0 (t - bucket.last / 1000))
  · rw [if_pos hone, if_neg (not_lt.mpr hone)]
    exact ⟨rfl, _, rfl, rfl⟩
  · rw [if_neg hone, if_pos (not_le.mp hone)]
    exact ⟨rfl, _, rfl, rfl⟩

theorem TokenBucket.zip_takes (bucket : TokenBucket) (readings : List ℚ) :
    readings.zip (bucket.takes (readings.map (1000 * ·))) =
      Bucket.attempts bucket.capacity bucket.perSecond ⟨bucket.tokens, bucket.last / 1000⟩
        readings := by
  induction readings generalizing bucket with
  | nil => rfl
  | cons t readings ih =>
    obtain ⟨hgranted, tokens, hbucket, htake⟩ := bucket.tryTake_eq t
    rw [List.map_cons, takes, List.zip_cons_cons, ih, hgranted, hbucket, Bucket.attempts, htake,
      mul_div_cancel_left₀ t (by norm_num)]

end Callback

theorem Helper.TokenBucket.tryTake_eq (b : TokenBucket) (t : ℚ) :
    (b.tryTake t).1 = (Bucket.take b.capacity b.perSecond ⟨b.tokens, b.last⟩ t).1 ∧
      ∃ tokens, (b.tryTake t).2 = { b with tokens, last := t } ∧
        (Bucket.take b.capacity b.perSecond ⟨b.tokens, b.last⟩ t).2 = ⟨tokens, t⟩ := by
  have helapsed : (if t - b.last < 0 then 0 else t - b.last) = max 0 (t - b.last) := by
    split
    next h => rw [max_eq_left h.le]
    next h => rw [max_eq_right (not_lt.mp h)]
  have hfilled : ∀ filled, (if filled > b.capacity then b.capacity else filled) =
      min b.capacity filled := by
    intro filled
    split
    next h => rw [min_eq_left (le_of_lt h)]
    next h => rw [min_eq_right (not_lt.mp h)]
  unfold tryTake Bucket.take Bucket.refilled
  dsimp only
  rw [helapsed, hfilled, mul_comm]
  by_cases hone : 1 ≤ min b.capacity (b.tokens + b.perSecond * max 0 (t - b.last))
  · rw [if_pos hone, if_neg (not_lt.mpr hone)]
    exact ⟨rfl, _, rfl, rfl⟩
  · rw [if_neg hone, if_pos (not_le.mp hone)]
    exact ⟨rfl, _, rfl, rfl⟩

theorem Helper.TokenBucket.zip_takes (b : TokenBucket) (readings : List ℚ) :
    readings.zip (b.takes readings) =
      Bucket.attempts b.capacity b.perSecond ⟨b.tokens, b.last⟩ readings := by
  induction readings generalizing b with
  | nil => rfl
  | cons t readings ih =>
    obtain ⟨hgranted, tokens, hbucket, htake⟩ := b.tryTake_eq t
    rw [takes, List.zip_cons_cons, ih, hgranted, hbucket, Bucket.attempts, htake]

namespace Callback

variable (limit : RateLimit) (start : ℚ) (readings : List ℚ) (implementation : Implementation)

/-- Both buckets grant what a bucket grants that is full at the start. -/
theorem limited_eq :
    limited limit start readings implementation =
      Bucket.attempts limit.capacity limit.perSecond ⟨limit.capacity, start⟩ readings := by
  cases implementation with
  | typeScript =>
    rw [limited, TokenBucket.zip_takes, TokenBucket.new, mul_div_cancel_left₀ start (by norm_num)]
  | go => exact Helper.TokenBucket.zip_takes _ readings

/-- Both buckets grant the same attempts. On a clock that does not go backwards they grant, in any
window, no more than the capacity and what is gained in it, and refuse only where a bucket that
gains tokens all the time has less than one. That no more than the capacity and what is gained in
the interval of all readings is granted holds on the clocks that do not go forward for longer than
that, and on no others. -/
theorem token_bucket_bound :
    (∀ limit, limited limit start readings .typeScript = limited limit start readings .go) ∧
    ((start :: readings).Pairwise (· ≤ ·) → ∀ limit implementation,
      (∀ first last, first ≤ last →
        (grantedIn first last (limited limit start readings implementation) : ℚ) ≤
          limit.capacity + limit.perSecond * (last - first)) ∧
      limited limit start readings implementation =
        continuous limit.capacity limit.perSecond [] readings) ∧
    ((∀ limit implementation, ∀ nows, nows <+: readings → ∀ low width,
        Within low width (start :: nows) →
        (granted (limited limit start nows implementation) : ℚ) ≤
          limit.capacity + limit.perSecond * width) ↔
      ClimbsWithin start readings) := by
  refine ⟨fun limit => ?_, fun hsorted limit implementation => ⟨?_, ?_⟩, ?_⟩
  · rw [limited_eq, limited_eq]
  · intro first last hwindow
    rw [limited_eq]
    exact granted_window_le limit.capacity_nonneg limit.perSecond_pos.le hwindow hsorted
      limit.capacity_nonneg
  · rw [limited_eq]
    exact attempts_full limit.perSecond_pos.le hsorted
  · rw [ClimbsWithin, ← granted_le_iff_climb_le]
    constructor
    · intro hbound capacity rate hcapacity hrate nows hnows low width hwithin
      have hgo := hbound ⟨capacity, rate, hcapacity, hrate⟩ .go nows hnows low width hwithin
      rwa [limited_eq] at hgo
    · intro hbound limit implementation nows hnows low width hwithin
      rw [limited_eq]
      exact hbound _ _ limit.capacity_nonneg limit.perSecond_pos nows hnows low width hwithin

/-- A clock that goes forth, back and forth again by a second is granted three requests at a limit
of one request and one a second. -/
theorem not_token_bucket_bound :
    ¬ ∀ (limit : RateLimit) (implementation : Implementation) (start : ℚ) (readings : List ℚ)
      (low width : ℚ), Within low width (start :: readings) →
      (granted (limited limit start readings implementation) : ℚ) ≤
        limit.capacity + limit.perSecond * width := by
  intro h
  have hwithin : Within (0 : ℚ) 1 [0, 0, 1, 0, 1] := by
    intro reading hreading
    simp only [List.mem_cons, List.not_mem_nil, or_false] at hreading
    rcases hreading with rfl | rfl | rfl | rfl | rfl <;> norm_num
  have hthree : granted
      (limited ⟨1, 1, zero_le_one, zero_lt_one⟩ 0 [0, 1, 0, 1] .typeScript) = 3 := by
    decide +kernel
  have hbound := h ⟨1, 1, zero_le_one, zero_lt_one⟩ .typeScript 0 [0, 1, 0, 1] 0 1 hwithin
  rw [hthree] at hbound
  norm_num at hbound

/-- **Who waits is served.** On any clock, both buckets grant an attempt that comes as long after
the one before it as a token takes, however many were refused. -/
theorem waited_granted (hcapacity : 1 ≤ limit.capacity) :
    ((start, true) :: limited limit start readings implementation).IsChain
      fun earlier later => 1 ≤ limit.perSecond * (later.1 - earlier.1) → later.2 = true := by
  have hfull : 0 ≤ (⟨limit.capacity, start⟩ : Bucket ℚ).tokens := limit.capacity_nonneg
  rw [limited_eq]
  exact Bucket.attempts_isChain hcapacity limit.perSecond_pos.le hfull true readings

theorem waited_granted_once :
    ((0, true) :: limited ⟨1, 1, zero_le_one, zero_lt_one⟩ 0 [0, 0, -1, 0] .go).IsChain
      fun earlier later => 1 ≤ 1 * (later.1 - earlier.1) → later.2 = true :=
  waited_granted ⟨1, 1, zero_le_one, zero_lt_one⟩ 0 [0, 0, -1, 0] .go le_rfl

end Callback

end AgentCockpit
