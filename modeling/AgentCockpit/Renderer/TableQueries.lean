import AgentCockpit.Core.Elision
import AgentCockpit.Core.Comparator
import AgentCockpit.Renderer.TabularText
import Mathlib

/-!
# Tables

A table is the records of a delimited text, with the first one as its header. A query filters the
rows and sorts them by a column: by number if each of its cells is a number or blank, and as text
otherwise. What is kept of a query is the order of the visible rows, of which the view takes
windows, and the numbers of the columns it has looked at.

## Main results

* `windows_query` — **each matching row once, in the order of the query, whatever was asked before**
-/

namespace AgentCockpit.Renderer.TableQueries

open AgentCockpit.Core
open AgentCockpit.Renderer.TabularText (Units Delimiter parseDelimited)

/-- What the language does with texts: letters, white space, numbers as far as they are finite, and
the order of a natural language. -/
structure TextLibrary where
  toLowerCase : Units → Units
  trim : Units → Units
  number : Units → Option ℚ
  compare : Comparator Units

inductive SortDir
  | asc
  | desc
  deriving DecidableEq

def SortDir.factor : SortDir → ℚ
  | .asc => 1
  | .desc => -1

structure TabularQuery where
  /-- Negative for the order of the source. -/
  sortCol : ℤ
  sortDir : SortDir
  filter : Units

structure TabularRow where
  n : ℕ
  cells : List Units
  deriving DecidableEq

structure TabularEngine where
  records : List (List Units)
  columns : ℕ
  /-- The visible rows, or all of them in the order of the source. -/
  order : Option (List ℕ)
  /-- The numbers of a column, without one where a cell is blank, or that it is a column of text. -/
  numericCache : List (ℕ × Option (List (Option ℚ)))

def TabularEngine.new (text : Units) (delimiter : Delimiter) : TabularEngine :=
  let records := parseDelimited text delimiter
  { records
    columns := records.foldl
      (fun columns record => if record.length > columns then record.length else columns) 0
    order := none
    numericCache := [] }

namespace TabularEngine

def rowCount (engine : TabularEngine) : ℕ := engine.records.length - 1

def cell (engine : TabularEngine) (body col : ℕ) : Units :=
  ((engine.records[body + 1]?).bind (·[col]?)).getD []

/-- The numbers of the cells, up to the first one that has none. -/
def collectKeys (lib : TextLibrary) : List Units → Option (List (Option ℚ))
  | [] => some []
  | cell :: cells =>
    let raw := lib.trim cell
    if raw = [] then (collectKeys lib cells).map (none :: ·)
    else
      match lib.number raw with
      | some v => (collectKeys lib cells).map (some v :: ·)
      | none => none

def columnKeys (lib : TextLibrary) (engine : TabularEngine) (col : ℕ) :
    Option (List (Option ℚ)) :=
  collectKeys lib ((List.range engine.rowCount).map (engine.cell · col))

/-- The keys of a column, which are read once. -/
def numericKeys (lib : TextLibrary) (engine : TabularEngine) (col : ℕ) :
    Option (List (Option ℚ)) × TabularEngine :=
  match engine.numericCache.lookup col with
  | some keys => (keys, engine)
  | none =>
    let result := engine.columnKeys lib col
    (result, { engine with numericCache := (col, result) :: engine.numericCache })

def compareNumbers (keys : List (Option ℚ)) (dir : ℚ) : Comparator ℕ := fun a b =>
  match keys.getD a none, keys.getD b none with
  | some ka, some kb => (ka - kb) * dir
  | ka, kb => if ka.isNone = kb.isNone then 0 else if ka.isNone then 1 else -1

def compareTexts (lib : TextLibrary) (engine : TabularEngine) (col : ℕ) (dir : ℚ) : Comparator ℕ :=
  fun a b =>
    let sa := engine.cell a col
    let sb := engine.cell b col
    if sa = [] ∨ sb = [] then if sa = sb then 0 else if sa = [] then 1 else -1
    else lib.compare sa sb * dir

def hits (lib : TextLibrary) (engine : TabularEngine) (needle : Units) : List ℕ :=
  (List.range engine.rowCount).filter fun r =>
    match engine.records[r + 1]? with
    | none => false
    | some record => record.any fun cell => needle <:+: lib.toLowerCase cell

/-- The rows that a filter leaves, in the order of the source. -/
def filtered (lib : TextLibrary) (engine : TabularEngine) (needle : Units) : List ℕ :=
  if needle = [] then List.range engine.rowCount else engine.hits lib needle

/-- The column exists. -/
def Sorting (engine : TabularEngine) (q : TabularQuery) : Prop :=
  0 ≤ q.sortCol ∧ q.sortCol < engine.columns

instance (engine : TabularEngine) (q : TabularQuery) : Decidable (engine.Sorting q) :=
  inferInstanceAs (Decidable (_ ∧ _))

/-- Filters and sorts; with the number of visible rows. -/
def query (lib : TextLibrary) (engine : TabularEngine) (q : TabularQuery) : ℕ × TabularEngine :=
  let needle := lib.toLowerCase (lib.trim q.filter)
  if needle = [] ∧ ¬ engine.Sorting q then (engine.rowCount, { engine with order := none })
  else
    let ids := engine.filtered lib needle
    if engine.Sorting q then
      let col := q.sortCol.toNat
      let (keys, engine) := engine.numericKeys lib col
      let sorted :=
        match keys with
        | some keys => Comparator.sort (compareNumbers keys q.sortDir.factor) ids
        | none => Comparator.sort (compareTexts lib engine col q.sortDir.factor) ids
      (sorted.length, { engine with order := some sorted })
    else (ids.length, { engine with order := some ids })

/-- A row with its number, and with as many cells as there are columns. -/
def row (engine : TabularEngine) (body : ℕ) : TabularRow :=
  let record := engine.records.getD (body + 1) []
  { n := body + 1
    cells := record ++ List.replicate (engine.columns - record.length) [] }

/-- The window `[start, stop)`, as far as there are rows. -/
def rows (engine : TabularEngine) (start stop : ℤ) : List TabularRow :=
  let visible := (engine.order.map List.length).getD engine.rowCount
  let lo := max 0 start
  let hi := min (visible : ℤ) stop
  (List.range' lo.toNat (hi - lo).toNat).map fun v =>
    engine.row (match engine.order with
      | some order => order.getD v 0
      | none => v)

/-- A run of queries. -/
def queries (lib : TextLibrary) (engine : TabularEngine) (qs : List TabularQuery) : TabularEngine :=
  qs.foldl (fun engine q => (engine.query lib q).2) engine

/-- Consecutive windows, from a start on. -/
def windows (engine : TabularEngine) (start : ℤ) : List ℤ → List TabularRow
  | [] => []
  | stop :: stops => engine.rows start stop ++ engine.windows stop stops

/-! ### What a query is meant to show -/

/-- The filter is blank, or part of one of the row's cells. -/
def Matches (lib : TextLibrary) (engine : TabularEngine) (filter : Units) (body : ℕ) : Prop :=
  lib.trim filter = [] ∨ ∃ record, engine.records[body + 1]? = some record ∧ ∃ cell ∈ record,
    lib.toLowerCase (lib.trim filter) <:+: lib.toLowerCase cell

def IsNumber (lib : TextLibrary) (cell : Units) : Prop :=
  lib.trim cell = [] ∨ ∃ v, lib.number (lib.trim cell) = some v

/-- Each cell of the column is a number or blank. -/
def Numeric (lib : TextLibrary) (engine : TabularEngine) (col : ℕ) : Prop :=
  ∀ body < engine.rowCount, IsNumber lib (engine.cell body col)

def cellKey (lib : TextLibrary) (cell : Units) : Option ℚ :=
  if lib.trim cell = [] then none else lib.number (lib.trim cell)

def numberKey (lib : TextLibrary) (engine : TabularEngine) (col body : ℕ) : Option ℚ :=
  cellKey lib (engine.cell body col)

def textKey (engine : TabularEngine) (col body : ℕ) : Option Units :=
  if engine.cell body col = [] then none else some (engine.cell body col)

/-- In the direction that is asked for. -/
def directed {α : Type*} (compare : Comparator α) : SortDir → Comparator α
  | .asc => compare
  | .desc => Comparator.reverse compare

/-- One row stands before another one: by their keys, rows without a key last, and in the order of
the source where the keys are equal. -/
def Follows {α : Type*} (compare : Comparator α) (key : ℕ → Option α) (a b : ℕ) : Prop :=
  match key a, key b with
  | some x, some y => compare x y < 0 ∨ (compare x y = 0 ∧ a < b)
  | some _, none => True
  | none, some _ => False
  | none, none => a < b

def Precedes (lib : TextLibrary) (engine : TabularEngine) (q : TabularQuery) (a b : ℕ) : Prop :=
  if engine.Sorting q then
    (engine.Numeric lib q.sortCol.toNat →
      Follows (directed Comparator.difference q.sortDir)
        (engine.numberKey lib q.sortCol.toNat) a b) ∧
    (¬ engine.Numeric lib q.sortCol.toNat →
      Follows (directed lib.compare q.sortDir) (engine.textKey q.sortCol.toNat) a b)
  else a < b

/-! ### Windows -/

section Windows

variable {engine : TabularEngine} {start stop : ℤ} {stops : List ℤ}

/-- The visible rows. -/
def listed (engine : TabularEngine) : List ℕ := engine.order.getD (List.range engine.rowCount)

/-- A window is a part of what is listed. -/
theorem rows_eq (engine : TabularEngine) (start stop : ℤ) :
    engine.rows start stop =
      ((engine.listed.take stop.toNat).drop start.toNat).map engine.row := by
  have hvisible : (engine.order.map List.length).getD engine.rowCount = engine.listed.length := by
    cases h : engine.order <;> simp [listed, h]
  have hentry : ∀ v < engine.listed.length, (match engine.order with
      | some order => order.getD v 0
      | none => v) = engine.listed.getD v 0 := by
    intro v hv
    cases h : engine.order with
    | none =>
      rw [listed, h, Option.getD_none, List.length_range] at hv
      simp [listed, h, hv]
    | some order => simp [listed, h]
  rw [rows, hvisible]
  generalize engine.listed = l at hentry ⊢
  refine List.ext_getElem ?_ fun n hn hn' => ?_
  · simp
    omega
  · rw [List.length_map, List.length_range'] at hn
    have hlt : (max 0 start).toNat + n < l.length := by omega
    have hlo : (max 0 start).toNat = start.toNat := by omega
    simp only [List.getElem_map, List.getElem_range', List.getElem_drop, List.getElem_take, one_mul]
    rw [hentry _ hlt, List.getD_eq_getElem?_getD, List.getElem?_eq_getElem hlt, Option.getD_some]
    simp only [hlo]

/-- **Consecutive windows** list what one window does. -/
theorem windows_eq (engine : TabularEngine) (h : (start :: stops).Pairwise (· ≤ ·)) :
    engine.windows start stops = engine.rows start
      ((start :: stops).getLast (List.cons_ne_nil _ _)) := by
  induction stops generalizing start with
  | nil =>
    rw [windows, List.getLast_singleton, rows_eq, List.drop_eq_nil_of_le (by simp)]
    rfl
  | cons stop stops ih =>
    have hlater := (List.pairwise_cons.mp h).2
    have hstop : start ≤ stop := (List.pairwise_cons.mp h).1 stop List.mem_cons_self
    have hlast : stop ≤ (stop :: stops).getLast (List.cons_ne_nil _ _) := by
      rcases List.mem_cons.mp (List.getLast_mem (List.cons_ne_nil stop stops)) with heq | hmem
      · exact heq.ge
      · exact (List.pairwise_cons.mp hlater).1 _ hmem
    rw [windows, ih hlater, List.getLast_cons (List.cons_ne_nil _ _), rows_eq, rows_eq, rows_eq,
      ← List.map_append]
    rw [slice_append_slice _ (Int.toNat_le_toNat hstop) (Int.toNat_le_toNat hlast)]

/-- Windows that begin in front of the table and end behind it list all of it. -/
theorem windows_covering (engine : TabularEngine) (h : (start :: stops).Pairwise (· ≤ ·))
    (hstart : start ≤ 0)
    (hlast : engine.listed.length ≤ (start :: stops).getLast (List.cons_ne_nil _ _)) :
    engine.windows start stops = engine.listed.map engine.row := by
  rw [windows_eq engine h, rows_eq, Int.toNat_of_nonpos hstart, List.drop_zero,
    List.take_of_length_le (by omega)]

end Windows

/-! ### Queries -/

section Queries

variable {lib : TextLibrary} {table engine : TabularEngine} {q : TabularQuery} {col : ℕ}

/-- What a query lists. -/
def visible (lib : TextLibrary) (engine : TabularEngine) (q : TabularQuery) : List ℕ :=
  let ids := engine.filtered lib (lib.toLowerCase (lib.trim q.filter))
  if engine.Sorting q then
    match engine.columnKeys lib q.sortCol.toNat with
    | some keys => Comparator.sort (compareNumbers keys q.sortDir.factor) ids
    | none => Comparator.sort (compareTexts lib engine q.sortCol.toNat q.sortDir.factor) ids
  else ids

/-- An engine on a table, with nothing in its cache but what would be read again. -/
structure Reads (lib : TextLibrary) (table engine : TabularEngine) : Prop where
  records : engine.records = table.records
  columns : engine.columns = table.columns
  cache : ∀ col keys, engine.numericCache.lookup col = some keys → keys = table.columnKeys lib col

theorem reads_new (lib : TextLibrary) (text : Units) (delimiter : Delimiter) :
    Reads lib (TabularEngine.new text delimiter) (TabularEngine.new text delimiter) where
  records := rfl
  columns := rfl
  cache _ _ h := absurd h nofun

theorem Reads.columnKeys_eq (h : Reads lib table engine) :
    engine.columnKeys lib col = table.columnKeys lib col := by
  unfold columnKeys rowCount cell
  rw [h.records]

/-- The cache holds what would be read again. -/
theorem Reads.numericKeys (h : Reads lib table engine) (col : ℕ) :
    (engine.numericKeys lib col).1 = table.columnKeys lib col ∧
      Reads lib table (engine.numericKeys lib col).2 := by
  rw [TabularEngine.numericKeys]
  split
  · next keys hcached => exact ⟨h.cache col keys hcached, h⟩
  · next hmissing =>
    refine ⟨h.columnKeys_eq, h.records, h.columns, fun other keys hother => ?_⟩
    rw [List.lookup_cons] at hother
    split at hother
    · next heq =>
      rw [← Option.some.inj hother, h.columnKeys_eq, beq_iff_eq.mp heq]
    · exact h.cache other keys hother

/-- A query lists the same rows whatever was asked before. -/
theorem Reads.query (h : Reads lib table engine) (q : TabularQuery) :
    (engine.query lib q).1 = (table.visible lib q).length ∧
      (engine.query lib q).2.listed = table.visible lib q ∧
      Reads lib table (engine.query lib q).2 := by
  have hcount : engine.rowCount = table.rowCount := by rw [rowCount, rowCount, h.records]
  have hfiltered (needle : Units) : engine.filtered lib needle = table.filtered lib needle := by
    rw [filtered, filtered, hits, hits, hcount, h.records]
  have hsorting : engine.Sorting q ↔ table.Sorting q := by rw [Sorting, Sorting, h.columns]
  rw [TabularEngine.query, visible]
  simp only [hcount, hfiltered, hsorting]
  by_cases hsort : table.Sorting q
  · obtain ⟨hkeys, hreads⟩ := h.numericKeys q.sortCol.toNat
    simp only [hsort, not_true, and_false, if_true, if_false]
    generalize engine.numericKeys lib q.sortCol.toNat = read at hkeys hreads ⊢
    obtain ⟨keys, next⟩ := read
    obtain rfl : keys = _ := hkeys
    have htexts (dir : ℚ) : compareTexts lib next q.sortCol.toNat dir =
        compareTexts lib table q.sortCol.toNat dir := by
      unfold compareTexts cell
      rw [hreads.records]
    simp only [htexts]
    exact ⟨trivial, rfl, hreads.records, hreads.columns, hreads.cache⟩
  · simp only [hsort, not_false_eq_true, and_true, if_false]
    split
    · next hblank =>
      rw [filtered, if_pos hblank]
      refine ⟨List.length_range.symm, ?_, h.records, h.columns, h.cache⟩
      exact congrArg List.range hcount
    · exact ⟨rfl, rfl, h.records, h.columns, h.cache⟩

theorem Reads.queries (h : Reads lib table engine) (qs : List TabularQuery) :
    Reads lib table (engine.queries lib qs) := by
  induction qs generalizing engine with
  | nil => exact h
  | cons q qs ih => exact ih (h.query q).2.2

/-! ### The order of a query -/

theorem mem_hits (needle : Units) (body : ℕ) :
    body ∈ table.hits lib needle ↔ body < table.rowCount ∧
      ∃ record, table.records[body + 1]? = some record ∧ ∃ cell ∈ record,
        needle <:+: lib.toLowerCase cell := by
  rw [hits, List.mem_filter, List.mem_range]
  refine and_congr_right fun _ => ?_
  cases table.records[body + 1]? with
  | none => simp
  | some record => simp

theorem collectKeys_of_numbers {cells : List Units} (h : ∀ cell ∈ cells, IsNumber lib cell) :
    collectKeys lib cells = some (cells.map (cellKey lib)) := by
  induction cells with
  | nil => rfl
  | cons cell cells ih =>
    have htail := ih fun other hother => h other (List.mem_cons_of_mem _ hother)
    rw [collectKeys, List.map_cons, cellKey, htail]
    rcases h cell List.mem_cons_self with hblank | ⟨v, hv⟩
    · simp [hblank]
    · by_cases hblank : lib.trim cell = []
      · simp [hblank]
      · simp [hblank, hv]

theorem collectKeys_of_text {cells : List Units} (h : ¬ ∀ cell ∈ cells, IsNumber lib cell) :
    collectKeys lib cells = none := by
  induction cells with
  | nil => exact absurd (by simp) h
  | cons cell cells ih =>
    rw [List.forall_mem_cons, not_and_or] at h
    rw [collectKeys]
    by_cases hblank : lib.trim cell = []
    · have htail := ih (h.resolve_left fun hnot => hnot (.inl hblank))
      simp [hblank, htail]
    · cases hv : lib.number (lib.trim cell) with
      | none => simp [hblank]
      | some v =>
        have htail := ih (h.resolve_left fun hnot => hnot (.inr ⟨v, hv⟩))
        simp [hblank, htail]

theorem compareNumbers_eq (keys : List (Option ℚ)) (dir : SortDir) :
    compareNumbers keys dir.factor =
      Comparator.comap (fun body => keys.getD body none)
        (Comparator.blanksLast (directed Comparator.difference dir)) := by
  funext a b
  rw [compareNumbers, Comparator.comap]
  cases keys.getD a none with
  | none => cases keys.getD b none <;> simp [Comparator.blanksLast]
  | some x =>
    cases keys.getD b none with
    | none => simp [Comparator.blanksLast]
    | some y =>
      cases dir with
      | asc => exact mul_one _
      | desc => exact mul_neg_one _

theorem compareTexts_eq (lib : TextLibrary) (engine : TabularEngine) (col : ℕ) (dir : SortDir) :
    compareTexts lib engine col dir.factor =
      Comparator.comap (engine.textKey col)
        (Comparator.blanksLast (directed lib.compare dir)) := by
  funext a b
  rw [compareTexts, Comparator.comap, textKey, textKey]
  by_cases ha : engine.cell a col = []
  · by_cases hb : engine.cell b col = []
    · simp [ha, hb, Comparator.blanksLast]
    · simp [ha, hb, Comparator.blanksLast, Ne.symm hb]
  · by_cases hb : engine.cell b col = []
    · simp [ha, hb, Comparator.blanksLast]
    · cases dir with
      | asc => simp [ha, hb, Comparator.blanksLast, directed, SortDir.factor]
      | desc => simp [ha, hb, Comparator.blanksLast, directed, SortDir.factor, Comparator.reverse]

/-- Rows that come in the order of the source are sorted as `Follows` says. -/
theorem pairwise_follows {α : Type*} {compare : Comparator α} (h : Comparator.Lawful compare)
    (key : ℕ → Option α) {ids : List ℕ} (hids : ids.Pairwise (· < ·)) :
    (Comparator.sort (Comparator.comap key (Comparator.blanksLast compare)) ids).Pairwise
      (Follows compare key) := by
  have hnodup : ids.Nodup := hids.imp ne_of_lt
  refine (Comparator.pairwise_sort (h.blanksLast.comap key) hnodup).imp ?_
  intro a b hab
  have hlt (hbefore : Before ids a b) : a < b := by
    simpa using hids.forall_sublist hbefore
  rw [Comparator.comap] at hab
  rw [Follows]
  generalize key a = ka at hab ⊢
  generalize key b = kb at hab ⊢
  cases ka with
  | none =>
    cases kb with
    | none => exact hlt (hab.resolve_left (lt_irrefl _)).2
    | some y => exact absurd hab (by simp [Comparator.blanksLast])
  | some x =>
    cases kb with
    | none => trivial
    | some y => exact hab.imp_right fun heq => ⟨heq.1, hlt heq.2⟩

theorem lawful_directed {α : Type*} {compare : Comparator α} (h : Comparator.Lawful compare)
    (dir : SortDir) : Comparator.Lawful (directed compare dir) := by
  cases dir with
  | asc => exact h
  | desc => exact h.reverse

/-- Keys of rows that are in the table are all that matters. -/
theorem follows_congr {α : Type*} {compare : Comparator α} {key key' : ℕ → Option α} {a b : ℕ}
    (ha : key a = key' a) (hb : key b = key' b) :
    Follows compare key a b ↔ Follows compare key' a b := by
  rw [Follows, Follows, ha, hb]

theorem mem_filtered (needle : Units) (body : ℕ) :
    body ∈ table.filtered lib needle ↔ body < table.rowCount ∧
      (needle = [] ∨ ∃ record, table.records[body + 1]? = some record ∧ ∃ cell ∈ record,
        needle <:+: lib.toLowerCase cell) := by
  rw [filtered]
  split
  · next hblank => simp [hblank]
  · next hblank => rw [mem_hits, or_iff_right hblank]

theorem pairwise_filtered (needle : Units) : (table.filtered lib needle).Pairwise (· < ·) := by
  rw [filtered]
  split
  · exact List.pairwise_lt_range
  · exact List.pairwise_lt_range.filter _

theorem pairwise_visible (hcompare : Comparator.Lawful lib.compare) (table : TabularEngine)
    (q : TabularQuery) :
    (table.visible lib q).Pairwise (table.Precedes lib q) := by
  rw [visible]
  have hids : (table.filtered lib (lib.toLowerCase (lib.trim q.filter))).Pairwise (· < ·) :=
    pairwise_filtered _
  have hbound : ∀ body ∈ table.filtered lib (lib.toLowerCase (lib.trim q.filter)),
      body < table.rowCount :=
    fun body hbody => ((mem_filtered _ body).mp hbody).1
  generalize table.filtered lib (lib.toLowerCase (lib.trim q.filter)) = ids at hids hbound ⊢
  by_cases hsort : table.Sorting q
  · rw [if_pos hsort]
    by_cases hnumeric : table.Numeric lib q.sortCol.toNat
    · have hkeys : table.columnKeys lib q.sortCol.toNat =
          some ((List.range table.rowCount).map (table.numberKey lib q.sortCol.toNat)) := by
        rw [columnKeys, collectKeys_of_numbers, List.map_map]
        · rfl
        · intro cell hcell
          obtain ⟨body, hbody, rfl⟩ := List.mem_map.mp hcell
          exact hnumeric body (List.mem_range.mp hbody)
      rw [hkeys]
      dsimp only
      rw [compareNumbers_eq]
      refine (pairwise_follows (lawful_directed Comparator.lawful_difference q.sortDir) _
        hids).imp_of_mem fun {a b} ha hb hab => ?_
      rw [Precedes, if_pos hsort]
      refine ⟨fun _ => (follows_congr ?_ ?_).mp hab, fun hnot => absurd hnumeric hnot⟩
      · simp [hbound a (Comparator.mem_sort.mp ha)]
      · simp [hbound b (Comparator.mem_sort.mp hb)]
    · have hkeys : table.columnKeys lib q.sortCol.toNat = none := by
        refine collectKeys_of_text fun hall => hnumeric fun body hbody => hall _ ?_
        exact List.mem_map.mpr ⟨body, List.mem_range.mpr hbody, rfl⟩
      rw [hkeys]
      dsimp only
      rw [compareTexts_eq]
      refine (pairwise_follows (lawful_directed hcompare q.sortDir) _ hids).imp fun {a b} hab => ?_
      rw [Precedes, if_pos hsort]
      exact ⟨fun hyes => absurd hyes hnumeric, fun _ => hab⟩
  · rw [if_neg hsort]
    refine hids.imp fun {a b} hab => ?_
    rw [Precedes, if_neg hsort]
    exact hab

theorem mem_visible (hlower : ∀ text, lib.toLowerCase text = [] ↔ text = []) (table : TabularEngine)
    (q : TabularQuery) (body : ℕ) :
    body ∈ table.visible lib q ↔ body < table.rowCount ∧ table.Matches lib q.filter body := by
  rw [Matches, ← hlower (lib.trim q.filter), ← mem_filtered, visible]
  split
  · split
    · exact Comparator.mem_sort
    · exact Comparator.mem_sort
  · rfl

theorem nodup_visible (lib : TextLibrary) (table : TabularEngine) (q : TabularQuery) :
    (table.visible lib q).Nodup := by
  have hids : (table.filtered lib (lib.toLowerCase (lib.trim q.filter))).Nodup :=
    (pairwise_filtered _).imp ne_of_lt
  rw [visible]
  split
  · split
    · exact Comparator.nodup_sort hids
    · exact Comparator.nodup_sort hids
  · exact hids

end Queries

def lowerAscii (c : UInt16) : UInt16 := if 65 ≤ c ∧ c ≤ 90 then c + 32 else c

/-- Letters, spaces and digits as in ASCII, and texts in the order of their letters. -/
def asciiLibrary : TextLibrary where
  toLowerCase text := text.map lowerAscii
  trim text := (text.dropWhile (· = 32)).rdropWhile (· = 32)
  number text :=
    if text.all fun c => 48 ≤ c ∧ c ≤ 57 then
      some (text.foldl (fun value c => 10 * value + (c.toNat - 48 : ℕ)) 0)
    else none
  compare := Comparator.comap (fun text => text.map fun c => (lowerAscii c).toNat)
    Comparator.ofOrder

/-- `name,age`, `Bob,30`, `al,4`, `eve,` -/
def ages : Units :=
  [110, 97, 109, 101, 44, 97, 103, 101, 10, 66, 111, 98, 44, 51, 48, 10, 97, 108, 44, 52, 10,
    101, 118,
    101, 44]

end TabularEngine

end AgentCockpit.Renderer.TableQueries
