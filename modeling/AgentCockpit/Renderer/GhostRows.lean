import AgentCockpit.Renderer.BlockPairing

/-!
# Rows of deleted blocks

A deleted unit is shown as a ghost between the units that are left of its container. It gets an
anchor: the last survivor that stood in front of it, or the start of the container. Ghosts with one
anchor are chained. Containers without a survivor show nothing.

Anchors are made container by container. The comment at them promises the order of the old document,
in which a nested container stands between two units of the one around it.

## Main results

* `ghostsRestore_iff` — **what is promised holds just for ghosts in the order of their containers**
-/

namespace AgentCockpit.Renderer.GhostRows

open AgentCockpit.Core BlockPairing

variable {υ κ τ : Type*} [DecidableEq υ] [DecidableEq κ] [DecidableEq τ]

/-! ### Anchors -/

structure UnitGhostAnchor (υ : Type*) where
  unit : υ
  /-- A survivor of the container, to find the container by. -/
  hostStartLine : ℕ
  insertAfterStartLine : Option ℕ
  deriving DecidableEq

/-- The start line of the new unit that an old one lives on as. -/
def survivorNewStartLine (startLineOf : υ → ℕ) (newUnits : List υ) (pairing : PairUnitsResult υ)
    (oldUnit : υ) : Option ℕ :=
  let entries := (newUnits.zip pairing.matches_).filterMap fun entry =>
    entry.2.map fun oldUnit => (oldUnit, startLineOf entry.1)
  entries.reverse.lookup oldUnit

/-- The anchors of a bucket, behind a survivor. -/
def bucketGhosts (survivorLine : υ → Option ℕ) (hostStartLine : ℕ) :
    Option ℕ → List υ → List (UnitGhostAnchor υ)
  | _, [] => []
  | preceding, unit :: bucket =>
    match survivorLine unit with
    | some line => bucketGhosts survivorLine hostStartLine (some line) bucket
    | none => ⟨unit, hostStartLine, preceding⟩ ::
        bucketGhosts survivorLine hostStartLine preceding bucket

def resolveGhostAnchorsForUnits (startLineOf : υ → ℕ) (oldUnits newUnits : List υ)
    (pairing : PairUnitsResult υ) (bucketOf : υ → κ) : List (UnitGhostAnchor υ) :=
  if pairing.unmatchedOld = [] then []
  else
    let survivorLine := survivorNewStartLine startLineOf newUnits pairing
    (bucketByKey oldUnits bucketOf).flatMap fun bucket =>
      match bucket.2.findSome? survivorLine with
      -- The whole container was deleted.
      | none => []
      | some first => bucketGhosts survivorLine first none bucket.2

/-! ### Insertion -/

/-- A row of a container: a new unit, or the ghost of an old one. -/
inductive Row (υ : Type*)
  | unit (newUnit : υ)
  | ghost (oldUnit : υ)
  deriving DecidableEq

def Row.startsAt (startLineOf : υ → ℕ) (line : ℕ) : Row υ → Bool
  | .unit newUnit => startLineOf newUnit = line
  | .ghost _ => false

def insertAfterFirst {ρ : Type*} (target : ρ → Bool) (row : ρ) : List ρ → List ρ
  | [] => []
  | first :: rest =>
    if target first then first :: row :: rest else first :: insertAfterFirst target row rest

/-- The rows, and the ghost that was last inserted at each anchor. -/
structure Inserted (υ : Type*) where
  rows : List (Row υ)
  lastInsertedByAnchor : List (Option ℕ × υ)

def insertGhost (startLineOf : υ → ℕ) (inserted : Inserted υ) (anchor : UnitGhostAnchor υ) :
    Inserted υ where
  rows :=
    match inserted.lastInsertedByAnchor.lookup anchor.insertAfterStartLine with
    | some previous => insertAfterFirst (· = .ghost previous) (.ghost anchor.unit) inserted.rows
    | none =>
      match anchor.insertAfterStartLine with
      | some line =>
        insertAfterFirst (·.startsAt startLineOf line) (.ghost anchor.unit) inserted.rows
      | none => .ghost anchor.unit :: inserted.rows
  lastInsertedByAnchor :=
    (anchor.insertAfterStartLine, anchor.unit) :: inserted.lastInsertedByAnchor

/-- The rows of a container with its ghosts, chained in the order of the anchors. -/
def insertGhosts (startLineOf : υ → ℕ) (container : List υ) (anchors : List (UnitGhostAnchor υ)) :
    List (Row υ) :=
  (anchors.foldl (insertGhost startLineOf) ⟨container.map .unit, []⟩).rows

/-! ### What is promised -/

/-- The old unit of a new one. -/
def matchOf (newUnits : List υ) (pairing : PairUnitsResult υ) (newUnit : υ) : Option υ :=
  ((newUnits.zip pairing.matches_).lookup newUnit).join

/-- The old unit that a row shows. -/
def Row.oldUnit (matchOf : υ → Option υ) : Row υ → Option υ
  | .unit newUnit => matchOf newUnit
  | .ghost oldUnit => some oldUnit

/-- A unit of a bucket is left. -/
def KeepsSurvivor (oldUnits newUnits : List υ) (keyOf : υ → κ) (pairing : PairUnitsResult υ)
    (key : κ) : Prop :=
  ∃ oldUnit ∈ oldUnits, keyOf oldUnit = key ∧
    ∃ newUnit, Matched pairing newUnits oldUnit newUnit

/-- A deleted unit of a container that is still there. -/
def Ghost (oldUnits newUnits : List υ) (keyOf : υ → κ) (pairing : PairUnitsResult υ) (unit : υ) :
    Prop :=
  unit ∈ pairing.unmatchedOld ∧ KeepsSurvivor oldUnits newUnits keyOf pairing (keyOf unit)

/-- Each ghost has one anchor, the ghosts of a container come out in their places, and the anchors
have the order of the old document. -/
structure GhostsRestore (startLineOf : υ → ℕ) (oldUnits newUnits : List υ) (keyOf : υ → κ)
    (pairing : PairUnitsResult υ) (anchors : List (UnitGhostAnchor υ)) : Prop where
  nodup : (anchors.map (·.unit)).Nodup
  ghosts : ∀ unit, unit ∈ anchors.map (·.unit) ↔ Ghost oldUnits newUnits keyOf pairing unit
  restored : ∀ key, KeepsSurvivor oldUnits newUnits keyOf pairing key →
    (insertGhosts startLineOf (bucketOf newUnits keyOf key)
        (anchors.filter (keyOf ·.unit = key))).filterMap
      (Row.oldUnit (matchOf newUnits pairing)) = bucketOf oldUnits keyOf key
  ordered : (anchors.map (·.unit)).Sublist oldUnits

/-- Ghosts stand in the order in which their containers begin. -/
def InBucketOrder (oldUnits newUnits : List υ) (keyOf : υ → κ) (pairing : PairUnitsResult υ) :
    Prop :=
  ∀ unit other, Ghost oldUnits newUnits keyOf pairing unit →
    Ghost oldUnits newUnits keyOf pairing other → Before oldUnits unit other →
    ¬ Before (appearing (oldUnits.map keyOf)) (keyOf other) (keyOf unit)

/-! ### Rows of one container -/

section Container

variable {startLineOf : υ → ℕ} {survivorLine : υ → Option ℕ} {oldOf : υ → Option υ} {host : ℕ}

omit [DecidableEq υ] in
theorem mem_insertAfterFirst {ρ : Type*} {target : ρ → Bool} {row row' : ρ} {rows : List ρ}
    (h : row' ∈ insertAfterFirst target row rows) : row' = row ∨ row' ∈ rows := by
  induction rows with
  | nil => exact absurd h List.not_mem_nil
  | cons first rest ih =>
    rw [insertAfterFirst] at h
    split at h
    · simp only [List.mem_cons] at h ⊢
      tauto
    · rcases List.mem_cons.mp h with rfl | h
      · exact .inr List.mem_cons_self
      · exact (ih h).imp_right (List.mem_cons_of_mem _)

omit [DecidableEq υ] in
/-- A row goes behind the row that shows a unit. -/
theorem filterMap_insertAfterFirst {ρ : Type*} {target : ρ → Bool} {shows : ρ → Option υ} {row : ρ}
    {rows : List ρ} {unit unit' : υ} {front back : List υ}
    (htarget : ∀ row ∈ rows, target row = true ↔ shows row = some unit)
    (hrow : shows row = some unit') (hsplit : rows.filterMap shows = front ++ unit :: back)
    (hfront : unit ∉ front) :
    (insertAfterFirst target row rows).filterMap shows = front ++ unit :: unit' :: back := by
  induction rows generalizing front with
  | nil => simp at hsplit
  | cons first rest ih =>
    rw [insertAfterFirst]
    split
    · next hfirst =>
      have hshows := (htarget first List.mem_cons_self).mp hfirst
      rw [List.filterMap_cons_some hshows] at hsplit ⊢
      rw [List.filterMap_cons_some hrow]
      cases front with
      | nil =>
        rw [List.nil_append] at hsplit ⊢
        rw [(List.cons.inj hsplit).2]
      | cons head front =>
        exact absurd ((List.cons.inj hsplit).1 ▸ List.mem_cons_self) hfront
    · next hfirst =>
      have hrest := fun row hmem => htarget row (List.mem_cons_of_mem _ hmem)
      have hshows := mt (htarget first List.mem_cons_self).mpr hfirst
      cases hfirst' : shows first with
      | none =>
        rw [List.filterMap_cons_none hfirst'] at hsplit ⊢
        exact ih hrest hsplit hfront
      | some shown =>
        rw [List.filterMap_cons_some hfirst'] at hsplit ⊢
        cases front with
        | nil => exact absurd (hfirst'.trans (congrArg some (List.cons.inj hsplit).1)) hshows
        | cons head front =>
          obtain ⟨rfl, htail⟩ := List.cons.inj hsplit
          rw [ih hrest htail fun hmem => hfront (List.mem_cons_of_mem _ hmem), List.cons_append]

/-- How the lines of survivors go with the units of a container. -/
structure Hosts (startLineOf : υ → ℕ) (survivorLine : υ → Option ℕ) (oldOf : υ → Option υ)
    (container : List υ) : Prop where
  startsAt : ∀ newUnit ∈ container, ∀ oldUnit line, survivorLine oldUnit = some line →
    (startLineOf newUnit = line ↔ oldOf newUnit = some oldUnit)
  survives : ∀ newUnit ∈ container, ∀ oldUnit, oldOf newUnit = some oldUnit →
    survivorLine oldUnit ≠ none
  inj : ∀ oldUnit oldUnit' line, survivorLine oldUnit = some line →
    survivorLine oldUnit' = some line → oldUnit = oldUnit'

/-- Behind the units of a bucket that are done: they stand in their order, in front of the
survivors that are left. -/
structure Chained (survivorLine : υ → Option ℕ) (oldOf : υ → Option υ) (container : List υ)
    (done left : List υ) (preceding : Option ℕ) (inserted : Inserted υ) : Prop where
  shown : inserted.rows.filterMap (Row.oldUnit oldOf) =
    done ++ left.filter fun unit => (survivorLine unit).isSome
  units : ∀ newUnit, .unit newUnit ∈ inserted.rows → newUnit ∈ container
  ghosts : ∀ oldUnit, .ghost oldUnit ∈ inserted.rows → survivorLine oldUnit = none
  keys : ∀ entry ∈ inserted.lastInsertedByAnchor, ∀ line, entry.1 = some line →
    ∃ unit ∈ done, survivorLine unit = some line
  /-- What the next ghost goes behind. -/
  last : match done.getLast? with
    | none => preceding = none ∧ inserted.lastInsertedByAnchor = []
    | some unit =>
      match survivorLine unit with
      | some line => preceding = some line ∧
          inserted.lastInsertedByAnchor.lookup (some line) = none
      | none => inserted.lastInsertedByAnchor.lookup preceding = some unit

variable {container done left : List υ} {preceding : Option ℕ} {inserted : Inserted υ} {unit : υ}

namespace Chained

omit [DecidableEq υ] in
/-- A survivor is there already. -/
theorem survivor (h : Chained survivorLine oldOf container done (unit :: left) preceding inserted)
    (hosts : Hosts startLineOf survivorLine oldOf container) (hnew : unit ∉ done) {line : ℕ}
    (hline : survivorLine unit = some line) :
    Chained survivorLine oldOf container (done ++ [unit]) left (some line) inserted where
  shown := by
    rw [h.shown, List.filter_cons_of_pos (by simp [hline])]
    simp
  units := h.units
  ghosts := h.ghosts
  keys entry hentry line' hkey := by
    obtain ⟨other, hother, hother'⟩ := h.keys entry hentry line' hkey
    exact ⟨other, List.mem_append_left _ hother, hother'⟩
  last := by
    rw [List.getLast?_concat]
    simp only [hline, true_and]
    rw [List.lookup_eq_none_iff]
    intro entry hentry
    by_contra hkey
    -- A ghost behind this survivor would belong to a survivor that is done.
    have hkey' : some line = entry.1 := by simpa using hkey
    obtain ⟨other, hother, hline'⟩ := h.keys entry hentry line hkey'.symm
    exact hnew (hosts.inj _ _ _ hline' hline ▸ hother)

/-- A ghost goes behind the unit in front of it. -/
theorem shown_insertGhost
    (h : Chained survivorLine oldOf container done (unit :: left) preceding inserted)
    (hosts : Hosts startLineOf survivorLine oldOf container) (hnodup : done.Nodup)
    (hline : survivorLine unit = none) :
    (insertGhost startLineOf inserted ⟨unit, host, preceding⟩).rows.filterMap (Row.oldUnit oldOf) =
      (done ++ [unit]) ++ left.filter fun unit => (survivorLine unit).isSome := by
  have hshown := h.shown
  rw [List.filter_cons_of_neg (by simp [hline])] at hshown
  rcases List.eq_nil_or_concat done with rfl | ⟨front, previous, rfl⟩
  · obtain ⟨rfl, hlast⟩ := h.last
    simp [insertGhost, hlast, Row.oldUnit, hshown]
  · have hlast := h.last
    rw [List.concat_eq_append] at hshown hnodup hlast ⊢
    rw [List.getLast?_concat] at hlast
    rw [List.append_assoc, List.singleton_append] at hshown
    have hfront : previous ∉ front := fun hmem =>
      (List.nodup_append.mp hnodup).2.2 _ hmem _ (List.mem_singleton_self _) rfl
    have hinsert {target : Row υ → Bool}
        (htarget : ∀ row ∈ inserted.rows, target row = true ↔ row.oldUnit oldOf = some previous) :=
      filterMap_insertAfterFirst htarget
        (show (Row.ghost unit).oldUnit oldOf = some unit from rfl) hshown
        hfront
    cases hprevious : survivorLine previous with
    | some line =>
      simp only [hprevious] at hlast
      obtain ⟨rfl, hlookup⟩ := hlast
      simp only [insertGhost, hlookup]
      rw [hinsert, List.append_assoc, List.append_assoc]
      · rfl
      · rintro (newUnit | oldUnit) hrow
        · simp only [Row.startsAt, decide_eq_true_eq, Row.oldUnit]
          exact hosts.startsAt newUnit (h.units newUnit hrow) previous line hprevious
        · simp only [Row.startsAt, Row.oldUnit, Option.some.injEq, Bool.false_eq_true, false_iff]
          rintro rfl
          exact absurd hprevious (by simp [h.ghosts oldUnit hrow])
    | none =>
      simp only [hprevious] at hlast
      simp only [insertGhost, hlast]
      rw [hinsert, List.append_assoc, List.append_assoc]
      · rfl
      · rintro (newUnit | oldUnit) hrow
        · simp only [decide_eq_true_eq, Row.oldUnit, reduceCtorEq, false_iff]
          exact fun hold => hosts.survives newUnit (h.units newUnit hrow) previous hold hprevious
        · simp [Row.oldUnit]

theorem mem_rows_insertGhost {anchor : UnitGhostAnchor υ} {row : Row υ}
    (h : row ∈ (insertGhost startLineOf inserted anchor).rows) :
    row = .ghost anchor.unit ∨ row ∈ inserted.rows := by
  simp only [insertGhost] at h
  split at h
  · exact mem_insertAfterFirst h
  · split at h
    · exact mem_insertAfterFirst h
    · exact List.mem_cons.mp h

theorem ghost (h : Chained survivorLine oldOf container done (unit :: left) preceding inserted)
    (hosts : Hosts startLineOf survivorLine oldOf container) (hnodup : done.Nodup)
    (hline : survivorLine unit = none) :
    Chained survivorLine oldOf container (done ++ [unit]) left preceding
      (insertGhost startLineOf inserted ⟨unit, host, preceding⟩) where
  shown := h.shown_insertGhost hosts hnodup hline
  units newUnit hmem := by
    rcases mem_rows_insertGhost hmem with hnew | hrow
    · exact absurd hnew nofun
    · exact h.units newUnit hrow
  ghosts oldUnit hmem := by
    rcases mem_rows_insertGhost hmem with hnew | hrow
    · rwa [Row.ghost.inj hnew]
    · exact h.ghosts oldUnit hrow
  keys entry hentry line hkey := by
    rcases List.mem_cons.mp hentry with rfl | hentry
    · -- The ghost in front of it has the same anchor, or the survivor is the anchor.
      have hlast := h.last
      split at hlast
      · exact absurd (hkey.symm.trans hlast.1) nofun
      · next previous hprevious =>
        have hmem := List.mem_of_getLast? hprevious
        split at hlast
        · next line' hline' =>
          obtain rfl : line' = line := Option.some.inj (hlast.1.symm.trans hkey)
          exact ⟨previous, List.mem_append_left _ hmem, hline'⟩
        · obtain ⟨front, back, hsplit, -⟩ := List.lookup_eq_some_iff.mp hlast
          obtain ⟨other, hother, hline'⟩ :=
            h.keys (preceding, previous) (by simp [hsplit]) line hkey
          exact ⟨other, List.mem_append_left _ hother, hline'⟩
    · obtain ⟨other, hother, hline'⟩ := h.keys entry hentry line hkey
      exact ⟨other, List.mem_append_left _ hother, hline'⟩
  last := by
    rw [List.getLast?_concat]
    simp only [hline]
    simp [insertGhost]

end Chained

theorem chained_bucketGhosts (hosts : Hosts startLineOf survivorLine oldOf container)
    (h : Chained survivorLine oldOf container done left preceding inserted)
    (hnodup : (done ++ left).Nodup) :
    ((bucketGhosts survivorLine host preceding left).foldl (insertGhost startLineOf)
      inserted).rows.filterMap (Row.oldUnit oldOf) = done ++ left := by
  induction left generalizing done preceding inserted with
  | nil => exact h.shown
  | cons unit left ih =>
    have hdone := (List.nodup_append.mp hnodup).1
    have hunit : unit ∉ done := fun hmem =>
      (List.nodup_append.mp hnodup).2.2 _ hmem _ List.mem_cons_self rfl
    have hnext : ((done ++ [unit]) ++ left).Nodup := by rwa [List.append_assoc]
    rw [← List.singleton_append, ← List.append_assoc]
    cases hline : survivorLine unit with
    | some line =>
      simp only [bucketGhosts, hline, List.singleton_append]
      exact ih (h.survivor hosts hunit hline) hnext
    | none =>
      simp only [bucketGhosts, hline, List.singleton_append, List.foldl_cons]
      exact ih (h.ghost hosts hdone hline) hnext

/-- Survivors and ghosts of a container come out in their old order. -/
theorem insertGhosts_restores {bucket : List υ}
    (hosts : Hosts startLineOf survivorLine oldOf container) (hnodup : bucket.Nodup)
    (hcontainer : container.filterMap oldOf =
      bucket.filter fun unit => (survivorLine unit).isSome) :
    (insertGhosts startLineOf container (bucketGhosts survivorLine host none bucket)).filterMap
      (Row.oldUnit oldOf) = bucket := by
  have hshown : (container.map Row.unit).filterMap (Row.oldUnit oldOf) =
      [] ++ bucket.filter fun unit => (survivorLine unit).isSome := by
    rw [List.filterMap_map, List.nil_append, ← hcontainer]
    rfl
  have hstart : Chained survivorLine oldOf container [] bucket none ⟨container.map .unit, []⟩ :=
    ⟨hshown, by simp, by simp, by simp, ⟨rfl, rfl⟩⟩
  exact chained_bucketGhosts hosts hstart hnodup

end Container

/-! ### Survivors of a pairing -/

section Pairing

variable {textOf : υ → τ} {startLineOf : υ → ℕ} {keyOf : υ → κ} {oldUnits newUnits : List υ}
  {oldUnit newUnit : υ}

theorem matchOf_pairUnits (hnew : newUnits.Nodup) (hmem : newUnit ∈ newUnits) :
    matchOf newUnits (pairUnits textOf oldUnits newUnits keyOf) newUnit = some oldUnit ↔
      Matched (pairUnits textOf oldUnits newUnits keyOf) newUnits oldUnit newUnit := by
  rw [matched_pairUnits hnew, ← partner_allPairs hnew, matchOf, pairUnits_eq_allPairs hnew,
    ← List.map_prod_left_eq_zip, lookup_map_pair, if_pos hmem, Option.join_some]

theorem survivorNewStartLine_eq_some (hold : oldUnits.Nodup) (hnew : newUnits.Nodup) {line : ℕ} :
    survivorNewStartLine startLineOf newUnits (pairUnits textOf oldUnits newUnits keyOf) oldUnit =
        some line ↔
      ∃ newUnit, Matched (pairUnits textOf oldUnits newUnits keyOf) newUnits oldUnit newUnit ∧
        startLineOf newUnit = line := by
  simp only [matched_pairUnits hnew, ← partner_allPairs hnew]
  rw [survivorNewStartLine, pairUnits_eq_allPairs hnew, ← List.map_prod_left_eq_zip,
    List.filterMap_map, lookup_eq_some_iff_mem, List.mem_reverse, List.mem_filterMap]
  · constructor
    · rintro ⟨newUnit, -, hentry⟩
      obtain ⟨oldUnit', hpartner, heq⟩ := Option.map_eq_some_iff.mp hentry
      obtain ⟨rfl, rfl⟩ := Prod.mk.inj heq
      exact ⟨newUnit, hpartner, rfl⟩
    · rintro ⟨newUnit, hpartner, rfl⟩
      exact ⟨newUnit, (of_mem_allPairs ((partner_allPairs hnew).mp hpartner)).2.1,
        by simp [hpartner]⟩
  · rw [List.map_reverse, List.nodup_reverse, List.map_filterMap]
    -- No old unit is the match of two new ones.
    refine List.Nodup.filterMap (fun first second unit hfirst hsecond => ?_) hnew
    have hpartner {newUnit : υ} (hentry : unit ∈ ((partner (allPairs textOf oldUnits newUnits keyOf)
        newUnit).map fun oldUnit => (oldUnit, startLineOf newUnit)).map Prod.fst) :
        (unit, newUnit) ∈ allPairs textOf oldUnits newUnits keyOf := by
      rw [Option.map_map, Function.comp_def, Option.map_id'] at hentry
      exact (partner_allPairs hnew).mp hentry
    exact congrArg Prod.snd (allPairs_left_unique hold (hpartner hfirst) (hpartner hsecond) rfl)

theorem hosts_pairUnits (hold : oldUnits.Nodup) (hlines : (newUnits.map startLineOf).Nodup)
    (key : κ) :
    Hosts startLineOf
      (survivorNewStartLine startLineOf newUnits (pairUnits textOf oldUnits newUnits keyOf))
      (matchOf newUnits (pairUnits textOf oldUnits newUnits keyOf))
        (bucketOf newUnits keyOf key) := by
  have hnew : newUnits.Nodup := hlines.of_map
  constructor
  case startsAt =>
    intro newUnit hmem oldUnit line hline
    obtain ⟨partner, hmatched, rfl⟩ := (survivorNewStartLine_eq_some hold hnew).mp hline
    have hmem' := (List.mem_filter.mp hmem).1
    rw [matchOf_pairUnits hnew hmem']
    rw [matched_pairUnits hnew] at hmatched ⊢
    constructor
    · intro hsame
      rwa [List.inj_on_of_nodup_map hlines hmem' (of_mem_allPairs hmatched).2.1 hsame]
    · intro hmatched'
      have hsame := allPairs_left_unique hold hmatched' hmatched rfl
      exact congrArg startLineOf (congrArg Prod.snd hsame)
  case survives =>
    intro newUnit hmem oldUnit hmatch hnone
    have hmatched := (matchOf_pairUnits hnew (List.mem_filter.mp hmem).1).mp hmatch
    have hline : survivorNewStartLine startLineOf newUnits
        (pairUnits textOf oldUnits newUnits keyOf) oldUnit = some (startLineOf newUnit) :=
      (survivorNewStartLine_eq_some hold hnew).mpr ⟨newUnit, hmatched, rfl⟩
    exact absurd (hnone.symm.trans hline) nofun
  case inj =>
    intro oldUnit oldUnit' line hline hline'
    obtain ⟨first, hfirst, rfl⟩ := (survivorNewStartLine_eq_some hold hnew).mp hline
    obtain ⟨second, hsecond, hsame⟩ := (survivorNewStartLine_eq_some hold hnew).mp hline'
    rw [matched_pairUnits hnew] at hfirst hsecond
    have hunits := List.inj_on_of_nodup_map hlines (of_mem_allPairs hsecond).2.1
      (of_mem_allPairs hfirst).2.1 hsame
    exact congrArg Prod.fst (allPairs_right_unique hnew hfirst hsecond hunits.symm)

theorem isSome_survivorNewStartLine (hold : oldUnits.Nodup) (hnew : newUnits.Nodup) :
    (survivorNewStartLine startLineOf newUnits (pairUnits textOf oldUnits newUnits keyOf)
        oldUnit).isSome ↔
      ∃ newUnit, Matched (pairUnits textOf oldUnits newUnits keyOf) newUnits oldUnit newUnit := by
  rw [Option.isSome_iff_exists]
  simp only [survivorNewStartLine_eq_some hold hnew]
  constructor
  · rintro ⟨_, newUnit, h, -⟩
    exact ⟨newUnit, h⟩
  · rintro ⟨newUnit, h⟩
    exact ⟨_, newUnit, h, rfl⟩

/-- The matches of a container's units are the survivors of the bucket, in their old order. -/
theorem filterMap_matchOf (hold : oldUnits.Nodup) (hnew : newUnits.Nodup) (key : κ) :
    (bucketOf newUnits keyOf key).filterMap
        (matchOf newUnits (pairUnits textOf oldUnits newUnits keyOf)) =
      (bucketOf oldUnits keyOf key).filter fun unit =>
        (survivorNewStartLine startLineOf newUnits (pairUnits textOf oldUnits newUnits keyOf)
          unit).isSome := by
  refine eq_of_pairwise_before hold (fun oldUnit => ?_) ?_ ?_
  · rw [List.mem_filterMap, List.mem_filter, isSome_survivorNewStartLine hold hnew]
    constructor
    · rintro ⟨newUnit, hmem, hmatch⟩
      have hmem' := List.mem_filter.mp hmem
      have hmatched := (matchOf_pairUnits hnew hmem'.1).mp hmatch
      have hpair := of_mem_allPairs ((matched_pairUnits hnew).mp hmatched)
      refine ⟨List.mem_filter.mpr ⟨hpair.1, ?_⟩, newUnit, hmatched⟩
      rw [← hpair.2.2]
      exact hmem'.2
    · rintro ⟨hmem, newUnit, hmatched⟩
      have hpair := of_mem_allPairs ((matched_pairUnits hnew).mp hmatched)
      refine ⟨newUnit, List.mem_filter.mpr ⟨hpair.2.1, ?_⟩,
        (matchOf_pairUnits hnew hpair.2.1).mpr hmatched⟩
      rw [hpair.2.2]
      exact (List.mem_filter.mp hmem).2
  · rw [List.pairwise_filterMap]
    refine (pairwise_before List.filter_sublist : (bucketOf newUnits keyOf key).Pairwise
      (Before newUnits)).imp_of_mem fun {first second} hfirst hsecond hbefore => ?_
    intro oldUnit hmatch oldUnit' hmatch'
    have hmem := List.mem_filter.mp hfirst
    have hmem' := List.mem_filter.mp hsecond
    have hpair := (matched_pairUnits hnew).mp ((matchOf_pairUnits hnew hmem.1).mp hmatch)
    have hpair' := (matched_pairUnits hnew).mp ((matchOf_pairUnits hnew hmem'.1).mp hmatch')
    have hkey : keyOf oldUnit = keyOf oldUnit' := by
      rw [← (of_mem_allPairs hpair).2.2, ← (of_mem_allPairs hpair').2.2, of_decide_eq_true hmem.2,
        of_decide_eq_true hmem'.2]
    rcases allPairs_trichotomy hpair hpair' hkey with heq | ⟨hold', -⟩ | ⟨-, hnew'⟩
    · exact absurd (congrArg Prod.snd heq) (hbefore.ne hnew)
    · exact hold'
    · exact absurd hnew' (hbefore.asymm hnew)
  · exact pairwise_before (List.filter_sublist.trans List.filter_sublist)

end Pairing

/-! ### All anchors -/

section Anchors

variable {textOf : υ → τ} {startLineOf : υ → ℕ} {keyOf : υ → κ} {oldUnits newUnits : List υ}
  {unit : υ}

omit [DecidableEq υ] in
theorem map_unit_bucketGhosts (survivorLine : υ → Option ℕ) (host : ℕ) (preceding : Option ℕ)
    (bucket : List υ) :
    (bucketGhosts survivorLine host preceding bucket).map (·.unit) =
      bucket.filter fun unit => (survivorLine unit).isNone := by
  induction bucket generalizing preceding with
  | nil => rfl
  | cons unit bucket ih =>
    cases hline : survivorLine unit with
    | some line => simp [bucketGhosts, hline, ih]
    | none => simp [bucketGhosts, hline, ih]

/-- The anchors of the bucket of a key. -/
def keyGhosts (survivorLine : υ → Option ℕ) (oldUnits : List υ) (keyOf : υ → κ) (key : κ) :
    List (UnitGhostAnchor υ) :=
  match (bucketOf oldUnits keyOf key).findSome? survivorLine with
  | none => []
  | some first => bucketGhosts survivorLine first none (bucketOf oldUnits keyOf key)

omit [DecidableEq υ] in
theorem mem_map_unit_keyGhosts {survivorLine : υ → Option ℕ} {key : κ} :
    unit ∈ (keyGhosts survivorLine oldUnits keyOf key).map (·.unit) ↔
      (unit ∈ oldUnits ∧ keyOf unit = key ∧ survivorLine unit = none) ∧
        ∃ other ∈ oldUnits, keyOf other = key ∧ (survivorLine other).isSome := by
  rw [keyGhosts]
  split
  · next hnone =>
    rw [List.findSome?_eq_none_iff] at hnone
    refine iff_of_false List.not_mem_nil ?_
    rintro ⟨-, other, hother, hkey, hsome⟩
    have hline := hnone other (List.mem_filter.mpr ⟨hother, decide_eq_true hkey⟩)
    rw [hline] at hsome
    exact Bool.false_ne_true hsome
  · next first hfirst =>
    obtain ⟨other, hother, hline⟩ := List.exists_of_findSome?_eq_some hfirst
    have hother' := List.mem_filter.mp hother
    have hkeeps : ∃ other ∈ oldUnits, keyOf other = key ∧ (survivorLine other).isSome :=
      ⟨other, hother'.1, of_decide_eq_true hother'.2, by simp [hline]⟩
    rw [map_unit_bucketGhosts, and_iff_left hkeeps, List.mem_filter, List.mem_filter,
      Option.isNone_iff_eq_none, decide_eq_true_iff, and_assoc]

omit [DecidableEq υ] in
theorem keyGhosts_sublist (survivorLine : υ → Option ℕ) (key : κ) :
    ((keyGhosts survivorLine oldUnits keyOf key).map (·.unit)).Sublist oldUnits := by
  rw [keyGhosts]
  split
  · exact List.nil_sublist _
  · rw [map_unit_bucketGhosts]
    exact List.filter_sublist.trans List.filter_sublist

/-- The ghosts of all keys, key by key. -/
abbrev allGhosts (survivorLine : υ → Option ℕ) (oldUnits : List υ) (keyOf : υ → κ) :
    List (UnitGhostAnchor υ) :=
  (appearing (oldUnits.map keyOf)).flatMap (keyGhosts survivorLine oldUnits keyOf)

theorem resolve_eq (hold : oldUnits.Nodup) (hnew : newUnits.Nodup) :
    resolveGhostAnchorsForUnits startLineOf oldUnits newUnits
        (pairUnits textOf oldUnits newUnits keyOf) keyOf =
      allGhosts (survivorNewStartLine startLineOf newUnits
        (pairUnits textOf oldUnits newUnits keyOf)) oldUnits keyOf := by
  rw [resolveGhostAnchorsForUnits]
  split
  · next hnone =>
    -- All units survive.
    symm
    rw [allGhosts, List.flatMap_eq_nil_iff]
    intro key _
    rw [← List.map_eq_nil_iff (f := (·.unit)), List.eq_nil_iff_forall_not_mem]
    intro unit hunit
    obtain ⟨⟨hmem, -, hline⟩, -⟩ := mem_map_unit_keyGhosts.mp hunit
    have hunmatched := mt (mem_unmatchedOld hnew).mpr (hnone ▸ List.not_mem_nil (a := unit))
    have hsome : (survivorNewStartLine startLineOf newUnits
        (pairUnits textOf oldUnits newUnits keyOf) unit).isSome ↔ _ :=
      isSome_survivorNewStartLine hold hnew
    rw [hline] at hsome
    exact hunmatched ⟨hmem, fun newUnit hmatched =>
      Bool.false_ne_true (hsome.mpr ⟨newUnit, hmatched⟩)⟩
  · have hvalues (key : κ) :
        valuesOf (oldUnits.map fun unit => (keyOf unit, unit)) key =
          bucketOf oldUnits keyOf key := by
      rw [← get_bucketByKey, bucketByKey, get_collect]
    rw [bucketByKey, collect_eq, List.flatMap_map, List.map_map]
    simp only [hvalues]
    rfl

theorem ghost_iff (hold : oldUnits.Nodup) (hnew : newUnits.Nodup) :
    Ghost oldUnits newUnits keyOf (pairUnits textOf oldUnits newUnits keyOf) unit ↔
      unit ∈ (keyGhosts (survivorNewStartLine startLineOf newUnits
        (pairUnits textOf oldUnits newUnits keyOf)) oldUnits keyOf (keyOf unit)).map (·.unit) := by
  rw [mem_map_unit_keyGhosts, Ghost, mem_unmatchedOld hnew, KeepsSurvivor]
  simp only [isSome_survivorNewStartLine hold hnew, true_and]
  refine and_congr_left fun _ => and_congr_right fun _ => ?_
  rw [← Option.isNone_iff_eq_none, ← Option.not_isSome_iff_eq_none.trans
    Option.isNone_iff_eq_none.symm, isSome_survivorNewStartLine hold hnew, not_exists]

/-- A ghost is one of its key. -/
theorem ghost_of_mem (hold : oldUnits.Nodup) (hnew : newUnits.Nodup) {key : κ}
    (h : unit ∈ (keyGhosts (survivorNewStartLine startLineOf newUnits
      (pairUnits textOf oldUnits newUnits keyOf)) oldUnits keyOf key).map (·.unit)) :
    Ghost oldUnits newUnits keyOf (pairUnits textOf oldUnits newUnits keyOf) unit ∧
      keyOf unit = key := by
  have hkey := (mem_map_unit_keyGhosts.mp h).1.2.1
  have hunit : unit ∈ (keyGhosts (survivorNewStartLine startLineOf newUnits
      (pairUnits textOf oldUnits newUnits keyOf)) oldUnits keyOf (keyOf unit)).map (·.unit) := by
    rwa [hkey]
  exact ⟨(ghost_iff hold hnew).mpr hunit, hkey⟩

theorem mem_allGhosts (hold : oldUnits.Nodup) (hnew : newUnits.Nodup) :
    unit ∈ (appearing (oldUnits.map keyOf)).flatMap (fun key =>
        (keyGhosts (survivorNewStartLine startLineOf newUnits
          (pairUnits textOf oldUnits newUnits keyOf)) oldUnits keyOf key).map (·.unit)) ↔
      Ghost oldUnits newUnits keyOf (pairUnits textOf oldUnits newUnits keyOf) unit := by
  rw [List.mem_flatMap]
  constructor
  · rintro ⟨key, -, hunit⟩
    exact (ghost_of_mem hold hnew hunit).1
  · intro hghost
    have hunit : unit ∈ (keyGhosts (survivorNewStartLine startLineOf newUnits
        (pairUnits textOf oldUnits newUnits keyOf)) oldUnits keyOf (keyOf unit)).map (·.unit) :=
      (ghost_iff hold hnew).mp hghost
    exact ⟨keyOf unit, mem_appearing.mpr
      (List.mem_map_of_mem (mem_map_unit_keyGhosts.mp hunit).1.1),
      hunit⟩

/-- The anchors have the order of the old document if the ghosts have that of their containers. -/
theorem units_sublist_iff (hold : oldUnits.Nodup) (hnew : newUnits.Nodup) :
    ((allGhosts (survivorNewStartLine startLineOf newUnits
        (pairUnits textOf oldUnits newUnits keyOf)) oldUnits keyOf).map (·.unit)).Sublist oldUnits ↔
      InBucketOrder oldUnits newUnits keyOf (pairUnits textOf oldUnits newUnits keyOf) := by
  rw [allGhosts, List.map_flatMap, flatMap_sublist_iff hold (nodup_appearing _)
    (fun key unit hunit => (ghost_of_mem hold hnew hunit).2)
    (fun key => keyGhosts_sublist _ key)]
  simp only [mem_allGhosts hold hnew]
  exact ⟨fun h unit other hunit hother => h unit hunit other hother,
    fun h unit hunit other hother => h unit other hunit hother⟩

/-- What is promised holds just for ghosts in the order in which their containers begin. -/
theorem ghostsRestore_iff (textOf : υ → τ) (startLineOf : υ → ℕ) (keyOf : υ → κ)
    (oldUnits newUnits : List υ) (hold : oldUnits.Nodup)
    (hlines : (newUnits.map startLineOf).Nodup) :
    GhostsRestore startLineOf oldUnits newUnits keyOf (pairUnits textOf oldUnits newUnits keyOf)
        (resolveGhostAnchorsForUnits startLineOf oldUnits newUnits
          (pairUnits textOf oldUnits newUnits keyOf) keyOf) ↔
      InBucketOrder oldUnits newUnits keyOf (pairUnits textOf oldUnits newUnits keyOf) := by
  have hnew : newUnits.Nodup := hlines.of_map
  rw [resolve_eq hold hnew]
  refine ⟨fun h => (units_sublist_iff hold hnew).mp h.ordered, fun horder => ?_⟩
  have hordered : ((allGhosts (survivorNewStartLine startLineOf newUnits
      (pairUnits textOf oldUnits newUnits keyOf)) oldUnits keyOf).map (·.unit)).Sublist oldUnits :=
    (units_sublist_iff hold hnew).mpr horder
  constructor
  case nodup => exact hold.sublist hordered
  case ordered => exact hordered
  case ghosts =>
    intro unit
    rw [allGhosts, List.map_flatMap, mem_allGhosts hold hnew]
  case restored =>
    rintro key ⟨survivor, hsurvivor, hkey, newUnit, hmatched⟩
    have hmem : survivor ∈ bucketOf oldUnits keyOf key :=
      List.mem_filter.mpr ⟨hsurvivor, decide_eq_true hkey⟩
    have hkeys : key ∈ appearing (oldUnits.map keyOf) :=
      mem_appearing.mpr (hkey ▸ List.mem_map_of_mem hsurvivor)
    have hanchors : ∀ key, ∀ anchor ∈ keyGhosts (survivorNewStartLine startLineOf newUnits
        (pairUnits textOf oldUnits newUnits keyOf)) oldUnits keyOf key, keyOf anchor.unit = key :=
      fun key anchor hanchor => (mem_map_unit_keyGhosts.mp (List.mem_map_of_mem hanchor)).1.2.1
    have hpart := filter_flatMap_key (nodup_appearing (oldUnits.map keyOf)) hanchors key
    rw [allGhosts, hpart, if_pos hkeys, keyGhosts]
    have hsome : (survivorNewStartLine startLineOf newUnits
        (pairUnits textOf oldUnits newUnits keyOf) survivor).isSome :=
      (isSome_survivorNewStartLine hold hnew).mpr ⟨newUnit, hmatched⟩
    obtain ⟨line, hline⟩ := Option.isSome_iff_exists.mp hsome
    have hfirst : ((bucketOf oldUnits keyOf key).findSome?
        (survivorNewStartLine startLineOf newUnits
        (pairUnits textOf oldUnits newUnits keyOf))).isSome :=
      List.findSome?_isSome_iff.mpr ⟨survivor, hmem, hsome⟩
    obtain ⟨first, hfirst⟩ := Option.isSome_iff_exists.mp hfirst
    rw [hfirst]
    exact insertGhosts_restores (hosts_pairUnits hold hlines key) (hold.filter _)
      (filterMap_matchOf hold hnew key)

end Anchors

/-! ### A nested list -/

/-- A list item: its line, the line of its list, and its text. -/
structure MdListItem where
  startLine : ℕ
  listStartLine : ℕ
  text : String
  deriving DecidableEq

/-- A list with a nested one. -/
def nestedOld : List MdListItem := [⟨1, 1, "a"⟩, ⟨2, 2, "b"⟩, ⟨3, 2, "c"⟩, ⟨4, 1, "d"⟩]

/-- Two lines above the lists are new, and the last item of each list was deleted. -/
def nestedNew : List MdListItem := [⟨3, 3, "a"⟩, ⟨4, 4, "b"⟩]

theorem ghostsRestore_iff_nested :
    GhostsRestore MdListItem.startLine nestedOld nestedNew
        (listKeyOf MdListItem.listStartLine nestedOld nestedNew)
        (pairUnits MdListItem.text nestedOld nestedNew
          (listKeyOf MdListItem.listStartLine nestedOld nestedNew))
        (resolveGhostAnchorsForUnits MdListItem.startLine nestedOld nestedNew
          (pairUnits MdListItem.text nestedOld nestedNew
            (listKeyOf MdListItem.listStartLine nestedOld nestedNew))
          (listKeyOf MdListItem.listStartLine nestedOld nestedNew)) ↔
      InBucketOrder nestedOld nestedNew (listKeyOf MdListItem.listStartLine nestedOld nestedNew)
        (pairUnits MdListItem.text nestedOld nestedNew
          (listKeyOf MdListItem.listStartLine nestedOld nestedNew)) :=
  ghostsRestore_iff _ _ _ _ _ (by decide) (by decide)

/-- The item deleted behind a nested list comes in front of the one deleted in it. -/
theorem not_ghostsRestore_nested :
    ¬ ∀ oldItems newItems : List MdListItem, (oldItems ++ newItems).Nodup →
      (newItems.map MdListItem.startLine).Nodup →
      GhostsRestore MdListItem.startLine oldItems newItems
        (listKeyOf MdListItem.listStartLine oldItems newItems)
        (pairUnits MdListItem.text oldItems newItems
          (listKeyOf MdListItem.listStartLine oldItems newItems))
        (resolveGhostAnchorsForUnits MdListItem.startLine oldItems newItems
          (pairUnits MdListItem.text oldItems newItems
            (listKeyOf MdListItem.listStartLine oldItems newItems))
          (listKeyOf MdListItem.listStartLine oldItems newItems)) := by
  intro h
  have hordered := (h nestedOld nestedNew (by decide) (by decide)).ordered
  exact absurd hordered (by decide +kernel)

end AgentCockpit.Renderer.GhostRows
