import AgentCockpit.Core.Buckets
import AgentCockpit.Core.CommonSubsequence
import Std.Data.String.ToNat

/-!
# Pairing the blocks of two documents

The units of an old and a new document are put into buckets by a key. In each bucket the texts are
aligned at a longest common subsequence, and between two anchors units are paired by their place
as long as both sides have some. What is left over is deleted or inserted.

Units are objects and equal only to themselves; their texts need not differ.

## Main results

* `pairUnits_matching` — **the pairing is an order-preserving partial matching**
-/

namespace AgentCockpit.Renderer.BlockPairing

open AgentCockpit.Core

variable {υ κ τ : Type*} [DecidableEq κ]

structure PairUnitsResult (υ : Type*) where
  /-- The old unit of each new one. -/
  matches_ : List (Option υ)
  unmatchedOld : List υ

/-- Positions between two cursors and an anchor, as long as both sides have some. -/
def substituteGap (oldCursor newCursor oldEnd newEnd : ℕ) : List (ℕ × ℕ) :=
  (List.range (min (oldEnd - oldCursor) (newEnd - newCursor))).map fun k =>
    (oldCursor + k, newCursor + k)

/-- The pairs of positions of a bucket, from a cursor on each side on. -/
def alignPositions (oldLength newLength : ℕ) : ℕ → ℕ → List (ℕ × ℕ) → List (ℕ × ℕ)
  | oldCursor, newCursor, [] => substituteGap oldCursor newCursor oldLength newLength
  | oldCursor, newCursor, (oldAt, newAt) :: anchors =>
    substituteGap oldCursor newCursor oldAt newAt ++
      (oldAt, newAt) :: alignPositions oldLength newLength (oldAt + 1) (newAt + 1) anchors

/-- The units at a pair of positions. -/
def unitsAt (oldBucket newBucket : List υ) (position : ℕ × ℕ) : Option (υ × υ) := do
  let oldUnit ← oldBucket[position.1]?
  let newUnit ← newBucket[position.2]?
  return (oldUnit, newUnit)

/-- The pairs of a bucket in the order in which they are reported. -/
def alignBucket [DecidableEq τ] (textOf : υ → τ) (oldBucket newBucket : List υ) : List (υ × υ) :=
  let anchors := longestCommonSubsequence (oldBucket.map textOf) (newBucket.map textOf)
  (alignPositions oldBucket.length newBucket.length 0 0 anchors).filterMap
    (unitsAt oldBucket newBucket)

def bucketByKey (units : List υ) (keyOf : υ → κ) : Buckets κ υ :=
  collect (units.map fun unit => (keyOf unit, unit))

/-- The index of a new unit. -/
def newIndex [DecidableEq υ] (newUnits : List υ) (unit : υ) : Option ℕ :=
  newUnits.zipIdx.reverse.lookup unit

/-- A pair is reported. -/
def onMatch [DecidableEq υ] (newUnits : List υ) (result : PairUnitsResult υ) (pair : υ × υ) :
    PairUnitsResult υ where
  matches_ :=
    match newIndex newUnits pair.2 with
    | some idx => result.matches_.set idx (some pair.1)
    | none => result.matches_
  unmatchedOld := result.unmatchedOld.filter (· ≠ pair.1)

def pairUnits [DecidableEq υ] [DecidableEq τ] (textOf : υ → τ) (oldUnits newUnits : List υ)
    (keyOf : υ → κ) : PairUnitsResult υ :=
  let oldBuckets := bucketByKey oldUnits keyOf
  let newBuckets := bucketByKey newUnits keyOf
  let keys := appearing (oldBuckets.map Prod.fst ++ newBuckets.map Prod.fst)
  keys.foldl
    (fun result key =>
      (alignBucket textOf (oldBuckets.get key) (newBuckets.get key)).foldl
        (onMatch newUnits) result)
    ⟨List.replicate newUnits.length none, oldUnits⟩

/-! ### Positions -/

variable {a b : List τ} {anchors : List (ℕ × ℕ)} {oldCursor newCursor : ℕ}

theorem mem_substituteGap {oldEnd newEnd : ℕ} {position : ℕ × ℕ} :
    position ∈ substituteGap oldCursor newCursor oldEnd newEnd ↔
      oldCursor ≤ position.1 ∧ position.1 < oldEnd ∧ newCursor ≤ position.2 ∧ position.2 < newEnd ∧
        position.1 - oldCursor = position.2 - newCursor := by
  rw [substituteGap, List.mem_map]
  constructor
  · rintro ⟨k, hk, rfl⟩
    rw [List.mem_range] at hk
    dsimp only
    omega
  · rintro ⟨hold, holdEnd, hnew, hnewEnd, heq⟩
    refine ⟨position.1 - oldCursor, List.mem_range.mpr (by omega), Prod.ext ?_ ?_⟩
    · dsimp only
      omega
    · dsimp only
      omega

theorem substituteGap_pairwise (oldEnd newEnd : ℕ) :
    (substituteGap oldCursor newCursor oldEnd newEnd).Pairwise fun p q =>
      p.1 < q.1 ∧ p.2 < q.2 := by
  rw [substituteGap, List.pairwise_map]
  refine List.pairwise_lt_range.imp fun h => ?_
  dsimp only
  omega

/-- Pairs of a bucket lie behind both cursors and within it. -/
theorem bounds_alignPositions (h : Anchored a b oldCursor newCursor anchors) {position : ℕ × ℕ}
    (hmem : position ∈ alignPositions a.length b.length oldCursor newCursor anchors) :
    oldCursor ≤ position.1 ∧ position.1 < a.length ∧
      newCursor ≤ position.2 ∧ position.2 < b.length := by
  induction h with
  | nil hi hj =>
    rw [alignPositions, mem_substituteGap] at hmem
    omega
  | cons hi hj hold hnew heq hrest ih =>
    rw [alignPositions, List.mem_append, List.mem_cons, mem_substituteGap] at hmem
    rcases hmem with hgap | rfl | hrest
    · omega
    · exact ⟨hi, hold, hj, hnew⟩
    · have := ih hrest
      omega

/-- Pairs of a bucket are in order on both sides. -/
theorem alignPositions_pairwise (h : Anchored a b oldCursor newCursor anchors) :
    (alignPositions a.length b.length oldCursor newCursor anchors).Pairwise
      fun p q => p.1 < q.1 ∧ p.2 < q.2 := by
  induction h with
  | nil hi hj => exact substituteGap_pairwise _ _
  | cons hi hj hold hnew heq hrest ih =>
    rw [alignPositions, List.pairwise_append, List.pairwise_cons]
    refine ⟨substituteGap_pairwise _ _, ⟨fun q hq => ?_, ih⟩, fun p hp q hq => ?_⟩
    · have := bounds_alignPositions hrest hq
      omega
    · rw [mem_substituteGap] at hp
      rcases List.mem_cons.mp hq with rfl | hq
      · dsimp only
        omega
      · have := bounds_alignPositions hrest hq
        omega

theorem mem_alignPositions_of_mem (h : Anchored a b oldCursor newCursor anchors)
    {position : ℕ × ℕ} (hmem : position ∈ anchors) :
    position ∈ alignPositions a.length b.length oldCursor newCursor anchors := by
  induction h with
  | nil => exact absurd hmem List.not_mem_nil
  | cons hi hj hold hnew heq hrest ih =>
    rw [alignPositions, List.mem_append, List.mem_cons]
    rcases List.mem_cons.mp hmem with rfl | hmem
    · exact .inr (.inl rfl)
    · exact .inr (.inr (ih hmem))

/-- Of two positions in one gap, one is paired. -/
theorem alignPositions_gap (h : Anchored a b oldCursor newCursor anchors) {p q : ℕ}
    (hp : oldCursor ≤ p) (hpa : p < a.length) (hq : newCursor ≤ q) (hqb : q < b.length)
    (hsame : ∀ anchor ∈ anchors, anchor.1 < p ↔ anchor.2 < q) :
    (∃ position ∈ alignPositions a.length b.length oldCursor newCursor anchors, position.1 = p) ∨
      ∃ position ∈ alignPositions a.length b.length oldCursor newCursor anchors,
        position.2 = q := by
  induction h with
  | @nil i j hi hj =>
    simp only [alignPositions, mem_substituteGap]
    rcases le_or_gt (p - i) (b.length - j - 1) with hle | hgt
    · exact .inl ⟨(p, j + (p - i)), by dsimp only; omega, rfl⟩
    · exact .inr ⟨(i + (q - j), q), by dsimp only; omega, rfl⟩
  | @cons i j oldAt newAt rest hi hj hold hnew heq hrest ih =>
    have hanchor := hsame _ List.mem_cons_self
    dsimp only at hanchor
    rcases lt_trichotomy p oldAt with hlt | rfl | hgt
    · rcases Nat.lt_or_eq_of_le (not_lt.mp (mt hanchor.mpr (not_lt.mpr hlt.le))) with hlt' | rfl
      · -- Both stand in the gap in front of the anchor.
        simp only [alignPositions, List.mem_append, mem_substituteGap]
        rcases le_or_gt (p - i) (newAt - j - 1) with hle | hgt
        · exact .inl ⟨(p, j + (p - i)), .inl (by dsimp only; omega), rfl⟩
        · exact .inr ⟨(i + (q - j), q), .inl (by dsimp only; omega), rfl⟩
      · exact .inr ⟨(oldAt, q), by simp [alignPositions], rfl⟩
    · exact .inl ⟨(p, newAt), by simp [alignPositions], rfl⟩
    · have hbehind := hanchor.mp hgt
      rcases ih hgt hbehind fun anchor hmem => hsame anchor (List.mem_cons_of_mem _ hmem) with
        ⟨position, hmem, heq⟩ | ⟨position, hmem, heq⟩
      · exact .inl ⟨position, by simp [alignPositions, hmem], heq⟩
      · exact .inr ⟨position, by simp [alignPositions, hmem], heq⟩

/-! ### The pairs of a bucket -/

section Bucket

variable [DecidableEq τ] {textOf : υ → τ} {oldBucket newBucket : List υ}

/-- The anchors of a bucket. -/
abbrev bucketAnchors (textOf : υ → τ) (oldBucket newBucket : List υ) : List (ℕ × ℕ) :=
  longestCommonSubsequence (oldBucket.map textOf) (newBucket.map textOf)

/-- The pairs of positions of a bucket. -/
abbrev bucketPositions (textOf : υ → τ) (oldBucket newBucket : List υ) : List (ℕ × ℕ) :=
  alignPositions oldBucket.length newBucket.length 0 0 (bucketAnchors textOf oldBucket newBucket)

theorem mem_alignBucket {oldUnit newUnit : υ} :
    (oldUnit, newUnit) ∈ alignBucket textOf oldBucket newBucket ↔
      ∃ position ∈ bucketPositions textOf oldBucket newBucket,
        oldBucket[position.1]? = some oldUnit ∧ newBucket[position.2]? = some newUnit := by
  simp [alignBucket, List.mem_filterMap, unitsAt, Option.bind_eq_some_iff]

theorem bucketPositions_pairwise (textOf : υ → τ) (oldBucket newBucket : List υ) :
    (bucketPositions textOf oldBucket newBucket).Pairwise fun p q => p.1 < q.1 ∧ p.2 < q.2 := by
  have h := alignPositions_pairwise
    (anchored_longestCommonSubsequence (oldBucket.map textOf) (newBucket.map textOf))
  rwa [List.length_map, List.length_map] at h

/-- Two pairs of positions are in order on both sides. -/
theorem positions_trichotomy {p q : ℕ × ℕ} (hp : p ∈ bucketPositions textOf oldBucket newBucket)
    (hq : q ∈ bucketPositions textOf oldBucket newBucket) :
    p = q ∨ (p.1 < q.1 ∧ p.2 < q.2) ∨ (q.1 < p.1 ∧ q.2 < p.2) := by
  have hpairwise := bucketPositions_pairwise textOf oldBucket newBucket
  obtain ⟨m, hm, rfl⟩ := List.mem_iff_getElem.mp hp
  obtain ⟨n, hn, rfl⟩ := List.mem_iff_getElem.mp hq
  rcases lt_trichotomy m n with hlt | rfl | hlt
  · exact .inr (.inl (List.pairwise_iff_getElem.mp hpairwise m n hm hn hlt))
  · exact .inl rfl
  · exact .inr (.inr (List.pairwise_iff_getElem.mp hpairwise n m hn hm hlt))

/-- A bucket's pairs agree on the order of their units. -/
theorem alignBucket_trichotomy {p q : υ × υ} (hp : p ∈ alignBucket textOf oldBucket newBucket)
    (hq : q ∈ alignBucket textOf oldBucket newBucket) :
    p = q ∨ (Before oldBucket p.1 q.1 ∧ Before newBucket p.2 q.2) ∨
      (Before oldBucket q.1 p.1 ∧ Before newBucket q.2 p.2) := by
  obtain ⟨x, hx, hpold, hpnew⟩ := mem_alignBucket.mp hp
  obtain ⟨y, hy, hqold, hqnew⟩ := mem_alignBucket.mp hq
  rcases positions_trichotomy hx hy with rfl | hlt | hlt
  · left
    exact Prod.ext (Option.some.inj (hpold.symm.trans hqold))
      (Option.some.inj (hpnew.symm.trans hqnew))
  · exact .inr (.inl ⟨before_iff.mpr ⟨x.1, y.1, hlt.1, hpold, hqold⟩,
      before_iff.mpr ⟨x.2, y.2, hlt.2, hpnew, hqnew⟩⟩)
  · exact .inr (.inr ⟨before_iff.mpr ⟨y.1, x.1, hlt.1, hqold, hpold⟩,
      before_iff.mpr ⟨y.2, x.2, hlt.2, hqnew, hpnew⟩⟩)

end Bucket

/-! ### All pairs -/

section Pairs

variable [DecidableEq τ] {textOf : υ → τ} {keyOf : υ → κ} {oldUnits newUnits : List υ}

/-- The units of a key. -/
abbrev bucketOf (units : List υ) (keyOf : υ → κ) (key : κ) : List υ :=
  units.filter (keyOf · = key)

theorem get_bucketByKey (units : List υ) (key : κ) :
    (bucketByKey units keyOf).get key = bucketOf units keyOf key := by
  rw [bucketByKey, get_collect, valuesOf, List.filter_map, List.map_map]
  exact List.map_id _

/-- The keys of either side. -/
def keysOf (oldUnits newUnits : List υ) (keyOf : υ → κ) : List κ :=
  appearing ((bucketByKey oldUnits keyOf).map Prod.fst ++ (bucketByKey newUnits keyOf).map Prod.fst)

/-- The pairs of all buckets, in the order in which they are reported. -/
def allPairs (textOf : υ → τ) (oldUnits newUnits : List υ) (keyOf : υ → κ) : List (υ × υ) :=
  (keysOf oldUnits newUnits keyOf).flatMap fun key =>
    alignBucket textOf (bucketOf oldUnits keyOf key) (bucketOf newUnits keyOf key)

theorem mem_keysOf {key : κ} :
    key ∈ keysOf oldUnits newUnits keyOf ↔ key ∈ oldUnits.map keyOf ∨ key ∈ newUnits.map keyOf := by
  simp [keysOf, bucketByKey, collect_eq, List.map_map, Function.comp_def]

/-- A pair is one of the bucket of its key. -/
theorem mem_allPairs {pair : υ × υ} :
    pair ∈ allPairs textOf oldUnits newUnits keyOf ↔
      pair ∈ alignBucket textOf (bucketOf oldUnits keyOf (keyOf pair.1))
        (bucketOf newUnits keyOf (keyOf pair.1)) := by
  rw [allPairs, List.mem_flatMap]
  constructor
  · rintro ⟨key, -, hpair⟩
    obtain ⟨position, -, hold, -⟩ := mem_alignBucket.mp hpair
    have hkey : keyOf pair.1 = key :=
      of_decide_eq_true (List.mem_filter.mp (List.mem_of_getElem? hold)).2
    rwa [hkey]
  · intro hpair
    obtain ⟨position, -, hold, -⟩ := mem_alignBucket.mp hpair
    exact ⟨keyOf pair.1, mem_keysOf.mpr (.inl (List.mem_map_of_mem
      (List.mem_filter.mp (List.mem_of_getElem? hold)).1)), hpair⟩

theorem of_mem_allPairs {pair : υ × υ} (h : pair ∈ allPairs textOf oldUnits newUnits keyOf) :
    pair.1 ∈ oldUnits ∧ pair.2 ∈ newUnits ∧ keyOf pair.2 = keyOf pair.1 := by
  obtain ⟨position, -, hold, hnew⟩ := mem_alignBucket.mp (mem_allPairs.mp h)
  have hnewMem := List.mem_filter.mp (List.mem_of_getElem? hnew)
  exact ⟨(List.mem_filter.mp (List.mem_of_getElem? hold)).1, hnewMem.1, of_decide_eq_true hnewMem.2⟩

/-- Pairs of one key agree on the order of their units. -/
theorem allPairs_trichotomy {p q : υ × υ} (hp : p ∈ allPairs textOf oldUnits newUnits keyOf)
    (hq : q ∈ allPairs textOf oldUnits newUnits keyOf) (hkey : keyOf p.1 = keyOf q.1) :
    p = q ∨ (Before oldUnits p.1 q.1 ∧ Before newUnits p.2 q.2) ∨
      (Before oldUnits q.1 p.1 ∧ Before newUnits q.2 p.2) := by
  rw [mem_allPairs] at hp hq
  rw [← hkey] at hq
  rcases alignBucket_trichotomy hp hq with heq | ⟨hold, hnew⟩ | ⟨hold, hnew⟩
  · exact .inl heq
  · exact .inr (.inl ⟨(before_filter.mp hold).1, (before_filter.mp hnew).1⟩)
  · exact .inr (.inr ⟨(before_filter.mp hold).1, (before_filter.mp hnew).1⟩)

theorem allPairs_left_unique (hnodup : oldUnits.Nodup) {p q : υ × υ}
    (hp : p ∈ allPairs textOf oldUnits newUnits keyOf)
    (hq : q ∈ allPairs textOf oldUnits newUnits keyOf) (heq : p.1 = q.1) : p = q := by
  rcases allPairs_trichotomy hp hq (congrArg keyOf heq) with hsame | ⟨hold, -⟩ | ⟨hold, -⟩
  · exact hsame
  · exact absurd heq (hold.ne hnodup)
  · exact absurd heq.symm (hold.ne hnodup)

theorem allPairs_right_unique (hnodup : newUnits.Nodup) {p q : υ × υ}
    (hp : p ∈ allPairs textOf oldUnits newUnits keyOf)
    (hq : q ∈ allPairs textOf oldUnits newUnits keyOf) (heq : p.2 = q.2) : p = q := by
  have hkey : keyOf p.1 = keyOf q.1 := by
    rw [← (of_mem_allPairs hp).2.2, ← (of_mem_allPairs hq).2.2, heq]
  rcases allPairs_trichotomy hp hq hkey with hsame | ⟨-, hnew⟩ | ⟨-, hnew⟩
  · exact hsame
  · exact absurd heq (hnew.ne hnodup)
  · exact absurd heq.symm (hnew.ne hnodup)

end Pairs

/-! ### The result -/

section Result

variable [DecidableEq υ] [DecidableEq τ] {textOf : υ → τ} {keyOf : υ → κ}
  {oldUnits newUnits : List υ}

theorem pairUnits_eq :
    pairUnits textOf oldUnits newUnits keyOf =
      (allPairs textOf oldUnits newUnits keyOf).foldl (onMatch newUnits)
        ⟨List.replicate newUnits.length none, oldUnits⟩ := by
  rw [allPairs, List.foldl_flatMap, pairUnits]
  simp only [get_bucketByKey]
  rfl

theorem newIndex_getElem (hnodup : newUnits.Nodup) {idx : ℕ} (hidx : idx < newUnits.length) :
    newIndex newUnits newUnits[idx] = some idx := by
  have hkeys : (newUnits.zipIdx.reverse.map Prod.fst).Nodup := by
    rw [List.map_reverse, List.nodup_reverse, List.zipIdx_map_fst]
    exact hnodup
  rw [newIndex, lookup_eq_some_iff_mem hkeys, List.mem_reverse, List.mk_mem_zipIdx_iff_getElem?]
  exact List.getElem?_eq_getElem hidx

/-- The old unit that was last reported for a new one. -/
def partner (pairs : List (υ × υ)) (newUnit : υ) : Option υ :=
  (pairs.reverse.find? (·.2 = newUnit)).map Prod.fst

theorem foldl_onMatch (hnodup : newUnits.Nodup) (pairs : List (υ × υ))
    (hpairs : ∀ pair ∈ pairs, pair.2 ∈ newUnits) :
    pairs.foldl (onMatch newUnits) ⟨List.replicate newUnits.length none, oldUnits⟩ =
      ⟨newUnits.map (partner pairs), oldUnits.filter (· ∉ pairs.map Prod.fst)⟩ := by
  induction pairs using List.reverseRecOn with
  | nil =>
    have hpartner : partner ([] : List (υ × υ)) = fun _ => none := rfl
    rw [hpartner, List.map_const']
    simp
  | append_singleton pairs pair ih =>
    obtain ⟨idx, hidx, hunit⟩ := List.mem_iff_getElem.mp (hpairs pair (by simp))
    rw [List.foldl_append, ih fun other hother => hpairs other (List.mem_append_left _ hother),
      List.foldl_cons, List.foldl_nil, onMatch, ← hunit, newIndex_getElem hnodup hidx]
    congr 1
    · refine List.ext_getElem (by simp) fun n hn hn' => ?_
      rw [List.length_map] at hn'
      by_cases heq : idx = n
      · subst heq
        simp [partner, hunit]
      · have hne : newUnits[idx] ≠ newUnits[n] := fun h => heq (hnodup.getElem_inj_iff.mp h)
        rw [hunit] at hne
        simp [partner, heq, hne]
    · rw [List.filter_filter]
      refine List.filter_congr fun unit _ => ?_
      rw [Bool.eq_iff_iff, Bool.and_eq_true, decide_eq_true_iff, decide_eq_true_iff,
        decide_eq_true_iff, List.map_append, List.mem_append, List.map_singleton,
        List.mem_singleton, not_or, and_comm]

/-- An old unit is the match of a new one. -/
def Matched (result : PairUnitsResult υ) (newUnits : List υ) (oldUnit newUnit : υ) : Prop :=
  ∃ idx : ℕ, newUnits[idx]? = some newUnit ∧ result.matches_[idx]? = some (some oldUnit)

theorem partner_allPairs (hnodup : newUnits.Nodup) {oldUnit newUnit : υ} :
    partner (allPairs textOf oldUnits newUnits keyOf) newUnit = some oldUnit ↔
      (oldUnit, newUnit) ∈ allPairs textOf oldUnits newUnits keyOf := by
  rw [partner, Option.map_eq_some_iff]
  constructor
  · rintro ⟨pair, hfind, rfl⟩
    have hsnd : pair.2 = newUnit := by simpa using List.find?_some hfind
    have hmem := List.mem_reverse.mp (List.mem_of_find?_eq_some hfind)
    rwa [← hsnd]
  · intro hmem
    have hsome : ((allPairs textOf oldUnits newUnits keyOf).reverse.find?
        (·.2 = newUnit)).isSome := by
      rw [List.find?_isSome]
      exact ⟨_, List.mem_reverse.mpr hmem, by simp⟩
    obtain ⟨pair, hfind⟩ := Option.isSome_iff_exists.mp hsome
    have hsnd : pair.2 = newUnit := by simpa using List.find?_some hfind
    have hsame := allPairs_right_unique hnodup
      (List.mem_reverse.mp (List.mem_of_find?_eq_some hfind)) hmem hsnd
    exact ⟨pair, hfind, congrArg Prod.fst hsame⟩

/-- The result has the pairs of all buckets. -/
theorem pairUnits_eq_allPairs (hnodup : newUnits.Nodup) :
    pairUnits textOf oldUnits newUnits keyOf =
      ⟨newUnits.map (partner (allPairs textOf oldUnits newUnits keyOf)),
        oldUnits.filter (· ∉ (allPairs textOf oldUnits newUnits keyOf).map Prod.fst)⟩ := by
  rw [pairUnits_eq, foldl_onMatch hnodup _ fun pair hpair => (of_mem_allPairs hpair).2.1]

theorem matched_pairUnits (hnodup : newUnits.Nodup) {oldUnit newUnit : υ} :
    Matched (pairUnits textOf oldUnits newUnits keyOf) newUnits oldUnit newUnit ↔
      (oldUnit, newUnit) ∈ allPairs textOf oldUnits newUnits keyOf := by
  rw [Matched, pairUnits_eq_allPairs hnodup]
  constructor
  · rintro ⟨idx, hunit, hmatch⟩
    rw [List.getElem?_map, hunit, Option.map_some, Option.some.injEq] at hmatch
    exact (partner_allPairs hnodup).mp hmatch
  · intro hmem
    obtain ⟨idx, hidx, hunit⟩ := List.mem_iff_getElem.mp (of_mem_allPairs hmem).2.1
    refine ⟨idx, (List.getElem?_eq_getElem hidx).trans (congrArg some hunit), ?_⟩
    rw [List.getElem?_map, List.getElem?_eq_getElem hidx, hunit, Option.map_some,
      (partner_allPairs hnodup).mpr hmem]

theorem mem_unmatchedOld (hnodup : newUnits.Nodup) {oldUnit : υ} :
    oldUnit ∈ (pairUnits textOf oldUnits newUnits keyOf).unmatchedOld ↔
      oldUnit ∈ oldUnits ∧
        ∀ newUnit,
          ¬ Matched (pairUnits textOf oldUnits newUnits keyOf) newUnits oldUnit newUnit := by
  simp only [matched_pairUnits hnodup]
  rw [pairUnits_eq_allPairs hnodup, List.mem_filter, decide_eq_true_iff, List.mem_map]
  refine and_congr_right fun _ => ?_
  constructor
  · exact fun h newUnit hmem => h ⟨_, hmem, rfl⟩
  · rintro h ⟨pair, hmem, rfl⟩
    exact h pair.2 hmem

/-- The anchors of a bucket: they are matched, no common subsequence of the texts is longer, and of
two units in one gap one is matched. -/
structure AlignsBucket (textOf : υ → τ) (oldBucket newBucket : List υ)
    (matched : υ → υ → Prop) (anchors : List (ℕ × ℕ)) : Prop where
  anchored : Anchored (oldBucket.map textOf) (newBucket.map textOf) 0 0 anchors
  longest : ∀ common : List τ, common.Sublist (oldBucket.map textOf) →
    common.Sublist (newBucket.map textOf) → common.length ≤ anchors.length
  anchor_matched : ∀ anchor ∈ anchors, ∀ oldUnit newUnit, oldBucket[anchor.1]? = some oldUnit →
    newBucket[anchor.2]? = some newUnit → matched oldUnit newUnit
  gap : ∀ p q oldUnit newUnit, oldBucket[p]? = some oldUnit → newBucket[q]? = some newUnit →
    (∀ anchor ∈ anchors, anchor.1 < p ↔ anchor.2 < q) →
    (∃ newUnit', matched oldUnit newUnit') ∨ ∃ oldUnit', matched oldUnit' newUnit

/-- An order-preserving partial matching of the units of each key. -/
structure Matching (textOf : υ → τ) (keyOf : υ → κ) (oldUnits newUnits : List υ)
    (result : PairUnitsResult υ) : Prop where
  length : result.matches_.length = newUnits.length
  old_unique : ∀ oldUnit oldUnit' newUnit, Matched result newUnits oldUnit newUnit →
    Matched result newUnits oldUnit' newUnit → oldUnit = oldUnit'
  new_unique : ∀ oldUnit newUnit newUnit', Matched result newUnits oldUnit newUnit →
    Matched result newUnits oldUnit newUnit' → newUnit = newUnit'
  key : ∀ oldUnit newUnit, Matched result newUnits oldUnit newUnit →
    oldUnit ∈ oldUnits ∧ keyOf newUnit = keyOf oldUnit
  order : ∀ oldUnit oldUnit' newUnit newUnit', Matched result newUnits oldUnit newUnit →
    Matched result newUnits oldUnit' newUnit' → keyOf oldUnit = keyOf oldUnit' →
    (Before oldUnits oldUnit oldUnit' ↔ Before newUnits newUnit newUnit')
  unmatched : ∀ oldUnit, oldUnit ∈ result.unmatchedOld ↔
    oldUnit ∈ oldUnits ∧ ∀ newUnit, ¬ Matched result newUnits oldUnit newUnit
  aligned : ∀ key, ∃ anchors, AlignsBucket textOf (bucketOf oldUnits keyOf key)
    (bucketOf newUnits keyOf key) (Matched result newUnits) anchors

/-- A pair of a bucket is a pair of the result. -/
theorem matched_of_alignBucket (hnodup : newUnits.Nodup) {key : κ} {oldUnit newUnit : υ}
    (h : (oldUnit, newUnit) ∈ alignBucket textOf (bucketOf oldUnits keyOf key)
      (bucketOf newUnits keyOf key)) :
    Matched (pairUnits textOf oldUnits newUnits keyOf) newUnits oldUnit newUnit := by
  obtain ⟨position, -, hold, -⟩ := mem_alignBucket.mp h
  have hkey : keyOf oldUnit = key :=
    of_decide_eq_true (List.mem_filter.mp (List.mem_of_getElem? hold)).2
  rw [matched_pairUnits hnodup, mem_allPairs, hkey]
  exact h

theorem alignsBucket_pairUnits (hnodup : newUnits.Nodup) (key : κ) :
    AlignsBucket textOf (bucketOf oldUnits keyOf key) (bucketOf newUnits keyOf key)
      (Matched (pairUnits textOf oldUnits newUnits keyOf) newUnits)
      (bucketAnchors textOf (bucketOf oldUnits keyOf key) (bucketOf newUnits keyOf key)) := by
  have hanchored := anchored_longestCommonSubsequence
    ((bucketOf oldUnits keyOf key).map textOf) ((bucketOf newUnits keyOf key).map textOf)
  constructor
  case anchored => exact hanchored
  case longest =>
    intro common hold hnew
    rw [length_longestCommonSubsequence]
    exact length_le_lcsLength hold hnew
  case anchor_matched =>
    intro anchor hanchor oldUnit newUnit hold hnew
    have hposition := mem_alignPositions_of_mem hanchored hanchor
    rw [List.length_map, List.length_map] at hposition
    exact matched_of_alignBucket hnodup (mem_alignBucket.mpr ⟨anchor, hposition, hold, hnew⟩)
  case gap =>
    intro p q oldUnit newUnit hold hnew hsame
    obtain ⟨hp, -⟩ := List.getElem?_eq_some_iff.mp hold
    obtain ⟨hq, -⟩ := List.getElem?_eq_some_iff.mp hnew
    -- What is paired with the one of the two that is paired.
    rcases alignPositions_gap hanchored (Nat.zero_le p) (by simpa using hp) (Nat.zero_le q)
      (by simpa using hq) hsame with ⟨position, hposition, rfl⟩ | ⟨position, hposition, rfl⟩
    · have hbounds := bounds_alignPositions hanchored hposition
      rw [List.length_map, List.length_map] at hposition hbounds
      exact .inl ⟨_, matched_of_alignBucket hnodup (mem_alignBucket.mpr
        ⟨position, hposition, hold, List.getElem?_eq_getElem hbounds.2.2.2⟩)⟩
    · have hbounds := bounds_alignPositions hanchored hposition
      rw [List.length_map, List.length_map] at hposition hbounds
      exact .inr ⟨_, matched_of_alignBucket hnodup (mem_alignBucket.mpr
        ⟨position, hposition, List.getElem?_eq_getElem hbounds.2.1, hnew⟩)⟩

/-- The pairing matches each unit at most once, with a unit of its key and in order, and leaves
over what it does not match. -/
theorem pairUnits_matching (textOf : υ → τ) (keyOf : υ → κ) (oldUnits newUnits : List υ)
    (hold : oldUnits.Nodup) (hnew : newUnits.Nodup) :
    Matching textOf keyOf oldUnits newUnits (pairUnits textOf oldUnits newUnits keyOf) := by
  constructor
  case length => simp [pairUnits_eq_allPairs hnew]
  case unmatched => exact fun oldUnit => mem_unmatchedOld hnew
  case aligned => exact fun key => ⟨_, alignsBucket_pairUnits hnew key⟩
  all_goals simp only [matched_pairUnits hnew]
  case old_unique =>
    exact fun oldUnit oldUnit' newUnit h h' =>
      congrArg Prod.fst (allPairs_right_unique hnew h h' rfl)
  case new_unique =>
    exact fun oldUnit newUnit newUnit' h h' =>
      congrArg Prod.snd (allPairs_left_unique hold h h' rfl)
  case key =>
    exact fun oldUnit newUnit h => ⟨(of_mem_allPairs h).1, (of_mem_allPairs h).2.2⟩
  case order =>
    intro oldUnit oldUnit' newUnit newUnit' h h' hkey
    rcases allPairs_trichotomy h h' hkey with heq | ⟨hbefore, hbefore'⟩ | ⟨hbefore, hbefore'⟩
    · obtain ⟨rfl, rfl⟩ := Prod.mk.inj heq
      exact ⟨fun hself => absurd rfl (hself.ne hold), fun hself => absurd rfl (hself.ne hnew)⟩
    · exact ⟨fun _ => hbefore', fun _ => hbefore⟩
    · exact ⟨fun hself => absurd hself (hbefore.asymm hold),
        fun hself => absurd hself (hbefore'.asymm hnew)⟩

end Result

/-- A paragraph that was edited between one that was kept and one that was deleted. -/
theorem pairUnits_matching_edited :
    Matching Prod.snd (fun _ => ()) [(0, "kept"), (1, "old"), (2, "deleted")]
      [(3, "kept"), (4, "new")]
      (pairUnits Prod.snd [(0, "kept"), (1, "old"), (2, "deleted")] [(3, "kept"), (4, "new")]
        fun _ => ()) :=
  pairUnits_matching _ _ _ _ (by decide) (by decide)

/-! ### Keys -/

section Keys

variable {γ : Type*} [DecidableEq γ] {items : List υ} {groupOf : υ → γ} {item other : υ}

/-- A group that is met for the first time gets the next ordinal. -/
def addOrdinal (groupOf : υ → γ) (ordinals : List (γ × ℕ)) (item : υ) : List (γ × ℕ) :=
  if groupOf item ∈ ordinals.map Prod.fst then ordinals
  else ordinals ++ [(groupOf item, ordinals.length)]

def ordinalsByFirstAppearance (items : List υ) (groupOf : υ → γ) : List (γ × ℕ) :=
  items.foldl (addOrdinal groupOf) []

variable [DecidableEq υ] {oldItems newItems : List υ}

/-- The ordinal of an item's group among those of its side. -/
def ordinalKeyOf (oldItems newItems : List υ) (groupOf : υ → γ) (item : υ) : Option ℕ :=
  if item ∈ newItems then (ordinalsByFirstAppearance newItems groupOf).lookup (groupOf item)
  else if item ∈ oldItems then (ordinalsByFirstAppearance oldItems groupOf).lookup (groupOf item)
  else none

def listKeyOf (listStartLine : υ → ℕ) (oldItems newItems : List υ) : υ → Option ℕ :=
  ordinalKeyOf oldItems newItems listStartLine

end Keys

end AgentCockpit.Renderer.BlockPairing
