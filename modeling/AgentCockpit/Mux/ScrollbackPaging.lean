import AgentCockpit.Core.Run
import AgentCockpit.Mux.HistoryArchive

/-!
# Paging through the scrollback of a pane

A page is put together from four reads that hold different locks: the number of live
rows, the number of archived lines, a range of the archive, and a slice of the live rows.
The pump of the pane runs between any two of them. Operations on the pane hold the
operations lock and cannot, so between the reads of a page only `HistoryStep.Background`
steps happen.
-/

namespace AgentCockpit.Mux

open AgentCockpit.Core

/-- The live history of a pane: the shadow's rows, the rows of the primary mirror, and
whether the application is on the alternate screen. Outside the alternate screen the two
terminals have processed the same bytes. -/
structure Screens where
  shadow : List (List ScrollbackRun)
  primary : List NativeRow
  alternate : Bool
  agree : alternate = false → shadow = primary.map (·.runs)
  deriving DecidableEq

/-- Bounded history rows of one terminal, newest last. -/
def shadowScrollback (rows : List (List ScrollbackRun)) (before count : ℕ) : List ScrollbackLine :=
  let total := rows.length
  if total ≤ before then []
  else
    let stop := total - before
    let start := if count < stop then stop - count else 0
    ((numbered 0 rows).take stop).drop start

namespace Screens

def scrollbackCount (screens : Screens) : ℕ := screens.primary.length

/-- What the pipeline answers; a pane without an archive answers this. -/
def scrollback (screens : Screens) (before count : ℕ) : List ScrollbackLine :=
  shadowScrollback
    (if screens.alternate then screens.primary.map (·.runs) else screens.shadow) before count

def live (screens : Screens) : List (List ScrollbackRun) := screens.primary.map (·.runs)

end Screens

/-- A pane with its archive and the history database. -/
structure ArchivedPane where
  archive : HistoryArchive
  store : HistoryStore
  screens : Screens
  deriving DecidableEq

/-- What changes the history of a pane. `engine` and `fault` are failures of the terminal
engine and of the database. -/
inductive HistoryStep
  /-- Output or a resize changes the terminals. -/
  | move (screens : Screens)
  /-- The archive hook after such a change. -/
  | record (engine fault : Option String)
  | flush (fault : Option String)
  | flushIdle (quiet : Bool) (fault : Option String)
  /-- Another pane of the home commits a batch. -/
  | append (record : HistoryRecord)
  /-- Another pane of the home is closed. -/
  | reapPane (paneID : String)
  /-- `configure` erases the archive of every pane. -/
  | clear
  | setEnabled (enabled : Bool) (engine : Option String)
  /-- The pane goes on in a new process, over the same database. -/
  | reopen (screens : Screens) (enabled : Bool) (engine : Option String)

/-- The steps that do not need the operations lock. -/
def HistoryStep.Background : HistoryStep → Prop
  | .move _ | .record .. | .flush _ | .flushIdle .. | .append _ => True
  | _ => False

namespace ArchivedPane

variable (codec : RowCodec)

def step (pane : ArchivedPane) : HistoryStep → Option ArchivedPane
  | .move screens => some { pane with screens }
  | .record engine fault =>
    let ((archive, store), _) :=
      pane.archive.record codec pane.store pane.screens.primary engine fault
    some { pane with archive, store }
  | .flush fault =>
    let ((archive, store), _) := pane.archive.flush codec pane.store fault
    some { pane with archive, store }
  | .flushIdle quiet fault =>
    let ((archive, store), _) := pane.archive.flushIdle codec pane.store quiet fault
    some { pane with archive, store }
  | .append record =>
    if record.paneID = pane.archive.pane then none
    else
      match pane.store.append record with
      | .error _ => none
      | .ok store => some { pane with store }
  | .reapPane paneID =>
    if paneID = pane.archive.pane then none
    else
      match pane.store.reapPane paneID with
      | .error _ => none
      | .ok store => some { pane with store }
  | .clear => some { pane with store := pane.store.clear }
  | .setEnabled enabled engine =>
    some { pane with archive := (pane.archive.setEnabled enabled pane.screens.primary engine).1 }
  | .reopen screens enabled engine =>
    match HistoryArchive.new pane.store pane.archive.session pane.archive.pane enabled
      screens.primary engine with
    | .error _ => none
    | .ok archive => some ⟨archive, pane.store, screens⟩

/-- A pane whose archive was just created and has no batch yet. -/
def Fresh (pane : ArchivedPane) : Prop :=
  ∃ session paneID enabled engine, pane.store.panes paneID = [] ∧
    HistoryArchive.new pane.store session paneID enabled pane.screens.primary engine =
      .ok pane.archive

/-- The rows of the pane's stored batches. -/
def stored (pane : ArchivedPane) : List (List ScrollbackRun) :=
  (pane.store.panes pane.archive.pane).flatMap (·.rows codec)

/-- The archived rows, oldest first. -/
def archived (pane : ArchivedPane) : List (List ScrollbackRun) :=
  pane.stored codec ++ pane.archive.pendingRows

/-- The whole history of a pane, oldest first. -/
def history (pane : ArchivedPane) : List (List ScrollbackRun) :=
  pane.archived codec ++ pane.screens.live

end ArchivedPane

/-- The states in which the four reads of a page happen: the background goes on between
them. -/
structure PageReads (codec : RowCodec) where
  counted : ArchivedPane
  archiveCounted : ArchivedPane
  archiveRead : ArchivedPane
  liveRead : ArchivedPane
  count : Reaches (ArchivedPane.step codec) (fun _ label => label.Background)
    counted archiveCounted
  read : Reaches (ArchivedPane.step codec) (fun _ label => label.Background)
    archiveCounted archiveRead
  live : Reaches (ArchivedPane.step codec) (fun _ label => label.Background)
    archiveRead liveRead

/-- `lines` is the page of `history` that ends `before` lines from the newest. -/
structure Page (history : List (List ScrollbackRun)) (before count : ℕ)
    (lines : List ScrollbackLine) : Prop where
  length : lines.length = min count (history.length - before)
  slice : ∃ older newer, history = older ++ lines.map (·.runs) ++ newer ∧
    newer.length = min before history.length
  consecutive : ∃ first, lines = numbered first (lines.map (·.runs))

namespace PageReads

variable {codec : RowCodec} (reads : PageReads codec) (before pageCount start stop : ℕ)

/-- The part of the lines from `start` to `stop` that the archive has. -/
def archivedPart : Except String (List ScrollbackLine) :=
  let archiveCount := reads.archiveCounted.archive.lineCount
  if start < archiveCount then
    reads.archiveRead.archive.lines codec reads.archiveRead.store start (min stop archiveCount - 1)
  else .ok []

/-- The part of the lines from `start` to `stop` that is still live. -/
def livePart : List ScrollbackLine :=
  let liveCount := reads.counted.screens.scrollbackCount
  let archiveCount := reads.archiveCounted.archive.lineCount
  if archiveCount < stop then
    let liveStart := if archiveCount < start then start - archiveCount else 0
    let liveEnd := stop - archiveCount
    (reads.liveRead.screens.scrollback (liveCount - liveEnd) (liveEnd - liveStart)).map
      fun line => { line with line := line.line + archiveCount }
  else []

/-- One page of a pane with an archive. -/
def scrollback : Except String (List ScrollbackLine) :=
  let liveCount := reads.counted.screens.scrollbackCount
  let archiveCount := reads.archiveCounted.archive.lineCount
  let total := archiveCount + liveCount
  if total ≤ before then .ok []
  else
    let stop := total - before
    let start := if pageCount < stop then stop - pageCount else 0
    (reads.archivedPart start stop).map (· ++ reads.livePart start stop)

/-- The moments of a page. -/
def moments : List ArchivedPane :=
  [reads.counted, reads.archiveCounted, reads.archiveRead, reads.liveRead]

/-- The pump does not change, between the reads, the rows that the page is made of. -/
inductive Undisturbed : Prop
  /-- No row changes at all. -/
  | unchanged (h : ∀ moment ∈ reads.moments,
      moment.archived codec = reads.counted.archived codec ∧
        moment.screens.live = reads.counted.screens.live)
  /-- The page lies within the archive, and no row changes between the two counts. -/
  | archived (hcounts : reads.archiveCounted.archived codec = reads.counted.archived codec)
      (hpage : reads.counted.screens.live.length ≤ before)
  /-- The page lies within the live rows. -/
  | live (hcounted : before + pageCount ≤ reads.counted.screens.live.length)
      (hread : before + pageCount ≤ reads.liveRead.screens.live.length)

end PageReads

/-- A client pages back from the newest line until a page is empty. -/
def pageBack {codec : RowCodec} (reads : ℕ → PageReads codec) (pageCount : ℕ) :
    ℕ → ℕ → ℕ → Except String (List ScrollbackLine)
  | 0, _, _ => .ok []
  | fuel + 1, turn, before => do
    let page ← (reads turn).scrollback before pageCount
    if page = [] then return []
    let older ← pageBack reads pageCount fuel (turn + 1) (before + page.length)
    return older ++ page

namespace ArchivedPane

variable {codec : RowCodec} {pane pane' : ArchivedPane} {label : HistoryStep} {first : ℕ}

/-- The archive of the pane continues its stored batches, which begin with line `first`. -/
def Continuous (codec : RowCodec) (first : ℕ) (pane : ArchivedPane) : Prop :=
  pane.archive.Continues codec pane.store first (pane.stored codec)

/-- Whatever rows the archive continues are the stored ones. -/
theorem stored_eq {rows : List (List ScrollbackRun)}
    (h : pane.archive.Continues codec pane.store first rows) : pane.stored codec = rows :=
  h.holds.rows_eq.symm

theorem continuous_of_continues {rows : List (List ScrollbackRun)}
    (h : pane.archive.Continues codec pane.store first rows) : pane.Continuous codec first := by
  rw [Continuous, stored_eq h]
  exact h

/-- The archive of `pane'` is that of `pane` with further rows at its end. -/
structure Extends (codec : RowCodec) (first : ℕ) (pane pane' : ArchivedPane) : Prop where
  continuous : pane'.Continuous codec first
  stored : pane.stored codec <+: pane'.stored codec
  rows : ∃ evicted, pane'.archived codec = pane.archived codec ++ evicted

theorem Continuous.refl (h : pane.Continuous codec first) : Extends codec first pane pane :=
  ⟨h, List.prefix_rfl, [], (List.append_nil _).symm⟩

theorem Extends.trans {pane'' : ArchivedPane} (h : Extends codec first pane pane')
    (h' : Extends codec first pane' pane'') : Extends codec first pane pane'' := by
  obtain ⟨evicted, hrows⟩ := h.rows
  obtain ⟨further, hfurther⟩ := h'.rows
  exact ⟨h'.continuous, h.stored.trans h'.stored, evicted ++ further,
    by rw [hfurther, hrows, List.append_assoc]⟩

/-- The background keeps the first line of the archive and adds rows to its end. -/
theorem Continuous.background (h : pane.Continuous codec first)
    (hstep : pane.step codec label = some pane') (hlabel : label.Background) :
    Extends codec first pane pane' := by
  have hwritten {archive : HistoryArchive} {store : HistoryStore}
      {rows evicted : List (List ScrollbackRun)} (hkept : pane.stored codec <+: rows)
      (hrows : archive.Continues codec store first rows)
      (heq : rows ++ archive.pendingRows = pane.archived codec ++ evicted) :
      Extends codec first pane { pane with archive, store } := by
    have hstored : stored codec { pane with archive, store } = rows := stored_eq hrows
    refine ⟨continuous_of_continues hrows, hstored ▸ hkept, evicted, ?_⟩
    rw [archived, hstored]
    exact heq
  cases label with
  | move screens =>
    obtain rfl := Option.some.inj hstep
    exact ⟨h, h.refl.stored, h.refl.rows⟩
  | record engine fault =>
    obtain rfl := Option.some.inj hstep
    obtain ⟨-, rows, evicted, hkept, hrows, heq⟩ := h.record (Prod.mk.eta).symm
    exact hwritten hkept hrows heq
  | flush fault =>
    obtain rfl := Option.some.inj hstep
    obtain ⟨-, rows, hkept, hrows, heq⟩ := h.flush (Prod.mk.eta).symm
    exact hwritten hkept hrows (heq.trans (List.append_nil _).symm)
  | flushIdle quiet fault =>
    obtain rfl := Option.some.inj hstep
    obtain ⟨-, rows, hkept, hrows, heq⟩ := h.flushIdle (Prod.mk.eta).symm
    exact hwritten hkept hrows (heq.trans (List.append_nil _).symm)
  | append record =>
    simp only [ArchivedPane.step] at hstep
    split at hstep
    · exact nomatch hstep
    next hother =>
    split at hstep
    · exact nomatch hstep
    · next store happend =>
      obtain rfl := Option.some.inj hstep
      have hpanes := HistoryStore.panes_append_of_ne happend (Ne.symm hother)
      have hrows : pane.archive.Continues codec store first (pane.stored codec) :=
        ⟨h.session_ne, h.pane_ne, hpanes ▸ h.holds, h.next_eq⟩
      exact hwritten List.prefix_rfl hrows (List.append_nil _).symm
  | reapPane _ => exact hlabel.elim
  | clear => exact hlabel.elim
  | setEnabled _ _ => exact hlabel.elim
  | reopen _ _ _ => exact hlabel.elim

/-- What is stored stays, and with it its first line. -/
def Kept (codec : RowCodec) (first : ℕ) (pane pane' : ArchivedPane) : Prop :=
  pane.stored codec <+: pane'.stored codec ∧
    ∃ start, (pane.stored codec ≠ [] → start = first) ∧ pane'.Continuous codec start

/-- Every step but that of clearing the archives keeps what is stored. -/
theorem Continuous.step (h : pane.Continuous codec first)
    (hstep : pane.step codec label = some pane') (hlabel : label ≠ .clear) :
    Kept codec first pane pane' := by
  have hbackground (h' : Extends codec first pane pane') : Kept codec first pane pane' :=
    ⟨h'.stored, first, fun _ => rfl, h'.continuous⟩
  have hsame {start : ℕ} (hfirst : pane.stored codec ≠ [] → start = first)
      (hrows : pane'.archive.Continues codec pane'.store start (pane.stored codec)) :
      Kept codec first pane pane' :=
    ⟨stored_eq hrows ▸ List.prefix_rfl, start, hfirst, continuous_of_continues hrows⟩
  cases label with
  | reapPane paneID =>
    simp only [ArchivedPane.step] at hstep
    split at hstep
    · exact nomatch hstep
    next hother =>
    split at hstep
    · exact nomatch hstep
    · next store hreap =>
      obtain rfl := Option.some.inj hstep
      have hpanes := HistoryStore.panes_reapPane_of_ne hreap (Ne.symm hother)
      exact hsame (fun _ => rfl) ⟨h.session_ne, h.pane_ne, hpanes ▸ h.holds, h.next_eq⟩
  | clear => exact absurd rfl hlabel
  | setEnabled enabled engine =>
    obtain rfl := Option.some.inj hstep
    exact hsame (fun _ => rfl) (h.setEnabled enabled _ engine)
  | reopen screens enabled engine =>
    simp only [ArchivedPane.step] at hstep
    split at hstep
    · exact nomatch hstep
    · next archive hnew =>
      obtain rfl := Option.some.inj hstep
      obtain ⟨-, start, hfirst, hrows⟩ := HistoryArchive.Continues.of_new h.holds hnew
      exact hsame hfirst hrows
  | move _ => exact hbackground (h.background hstep trivial)
  | record _ _ => exact hbackground (h.background hstep trivial)
  | flush _ => exact hbackground (h.background hstep trivial)
  | flushIdle _ _ => exact hbackground (h.background hstep trivial)
  | append _ => exact hbackground (h.background hstep trivial)

/-- A run that does not clear the archives keeps what is stored. -/
theorem Continuous.kept (h : pane.Continuous codec first)
    (hreaches : Reaches (ArchivedPane.step codec) (fun _ label => label ≠ .clear) pane pane') :
    Kept codec first pane pane' := by
  refine hreaches.invariant (fun t label t' ht hlabel hstep => ?_)
    ⟨List.prefix_rfl, first, fun _ => rfl, h⟩
  obtain ⟨hearlier, start, hfirst, hcontinuous⟩ := ht
  obtain ⟨hgrown, start', hfirst', hnext⟩ := hcontinuous.step hstep hlabel
  refine ⟨hearlier.trans hgrown, start', fun hne => ?_, hnext⟩
  have hstored : t.stored codec ≠ [] := fun hnil => hne (List.prefix_nil.mp (hnil ▸ hearlier))
  exact (hfirst' hstored).trans (hfirst hne)

/-- The archive continues its stored batches, from some line on. -/
def Tracked (codec : RowCodec) (pane : ArchivedPane) : Prop :=
  ∃ first, pane.Continuous codec first

/-- Every step keeps the archive continuous; a privacy change or a new process may move
its first line. -/
theorem Tracked.step (h : pane.Tracked codec) (hstep : pane.step codec label = some pane') :
    pane'.Tracked codec := by
  obtain ⟨first, h⟩ := h
  by_cases hclear : label = .clear
  · subst hclear
    obtain rfl := Option.some.inj hstep
    have hrows : pane.archive.Continues codec pane.store.clear pane.archive.next [] :=
      ⟨h.session_ne, h.pane_ne, .nil _, rfl⟩
    have hcontinuous : Continuous codec pane.archive.next { pane with store := pane.store.clear } :=
      continuous_of_continues hrows
    exact ⟨_, hcontinuous⟩
  · obtain ⟨-, start, -, hcontinuous⟩ := h.step hstep hclear
    exact ⟨start, hcontinuous⟩

theorem Continuous.lineCount (h : pane.Continuous codec first) :
    pane.archive.lineCount = first + (pane.archived codec).length :=
  HistoryArchive.Continues.lineCount h

theorem Continuous.reaches (h : pane.Continuous codec first)
    (hreaches : Reaches (ArchivedPane.step codec) (fun _ label => label.Background) pane pane') :
    Extends codec first pane pane' :=
  hreaches.invariant (fun _ _ _ hs hlabel hstep =>
    Extends.trans hs (hs.continuous.background hstep hlabel)) h.refl

theorem Fresh.tracked (h : pane.Fresh) : pane.Tracked codec := by
  obtain ⟨session, paneID, enabled, engine, hempty, hnew⟩ := h
  have hholds : HistoryStore.Holds codec 0 [] (pane.store.panes paneID) := by
    rw [hempty]
    exact .nil 0
  obtain ⟨-, start, -, hrows⟩ := HistoryArchive.Continues.of_new hholds hnew
  exact ⟨start, continuous_of_continues hrows⟩

/-- In a reachable state the archive continues its stored batches. -/
theorem Fresh.reaches (h : pane.Fresh)
    (hreaches : Reaches (ArchivedPane.step codec) Always pane pane') : pane'.Tracked codec :=
  hreaches.invariant (fun _ _ _ hs _ hstep => Tracked.step hs hstep) h.tracked

end ArchivedPane

/-- The lines of a history, numbered from `first`, that a page is to show. -/
def pageOf (first : ℕ) (history : List (List ScrollbackRun)) (before count : ℕ) :
    List ScrollbackLine :=
  ((numbered first history).take (history.length - before)).drop (history.length - before - count)

section Slices

variable {first before count : ℕ} {history rows live : List (List ScrollbackRun)}

theorem length_pageOf : (pageOf first history before count).length =
    min count (history.length - before) := by
  rw [pageOf, List.length_drop, List.length_take, length_numbered]
  omega

theorem map_runs_pageOf : (pageOf first history before count).map (·.runs) =
    (history.take (history.length - before)).drop (history.length - before - count) := by
  rw [pageOf, List.map_drop, List.map_take, map_runs_numbered]

theorem page_pageOf : Page history before count (pageOf first history before count) where
  length := length_pageOf
  slice := by
    refine ⟨history.take (history.length - before - count),
      history.drop (history.length - before), ?_, ?_⟩
    · rw [map_runs_pageOf]
      have hsplit := List.take_append_drop (history.length - before - count)
        (history.take (history.length - before))
      rw [List.take_take, min_eq_left (Nat.sub_le ..)] at hsplit
      rw [hsplit, List.take_append_drop]
    · rw [List.length_drop]
      omega
  consecutive := by
    refine ⟨first + (history.length - before - count), ?_⟩
    rw [map_runs_pageOf, pageOf, numbered_take, numbered_drop]

/-- A page of a longer history that stays within the newer rows is a page of these. -/
theorem Page.append_left {lines : List ScrollbackLine} (h : Page live before count lines)
    (hfits : before + count ≤ live.length) : Page (rows ++ live) before count lines := by
  obtain ⟨hlength, ⟨older, newer, hslice, hnewer⟩, hconsecutive⟩ := h
  refine ⟨by rw [hlength, List.length_append]; omega, ⟨rows ++ older, newer, ?_, ?_⟩,
    hconsecutive⟩
  · rw [hslice]
    simp only [List.append_assoc]
  · rw [hnewer, List.length_append]
    omega

/-- A page that reaches both parts of a history is put together from both. -/
theorem pageOf_append : pageOf first (rows ++ live) before count =
    ((numbered first rows).take (rows.length + live.length - before)).drop
        (rows.length + live.length - before - count) ++
      ((numbered (first + rows.length) live).take (live.length - before)).drop
        (rows.length + live.length - before - count - rows.length) := by
  rw [pageOf, numbered_append, List.length_append, List.take_append, List.drop_append,
    List.length_take, length_numbered]
  rcases Nat.le_total live.length before with hold | hnew
  · have hnone : rows.length + live.length - before - rows.length = 0 := by omega
    rw [hnone, Nat.sub_eq_zero_of_le hold]
    simp
  · have htake : rows.length + live.length - before - rows.length = live.length - before := by omega
    have hread : min (rows.length + live.length - before) rows.length = rows.length := by omega
    rw [htake, hread]

/-- Renumbering the lines of a page. -/
theorem map_line_numbered (offset : ℕ) :
    (numbered first rows).map (fun line => { line with line := line.line + offset }) =
      numbered (first + offset) rows := by
  induction rows generalizing first with
  | nil => rfl
  | cons runs rows ih => rw [numbered_cons, List.map_cons, ih, numbered_cons, Nat.add_right_comm]

theorem shadowScrollback_eq : shadowScrollback rows before count = pageOf 0 rows before count := by
  unfold shadowScrollback pageOf
  dsimp only
  split
  · next hold => rw [Nat.sub_eq_zero_of_le hold, List.take_zero, List.drop_nil]
  · congr 1
    split <;> omega

end Slices

theorem Screens.scrollback_eq (screens : Screens) (before count : ℕ) :
    screens.scrollback before count = pageOf 0 screens.live before count := by
  have hrows : (if screens.alternate then screens.primary.map (·.runs) else screens.shadow) =
      screens.live := by
    split
    · rfl
    · next hprimary => exact screens.agree (by simpa using hprimary)
  rw [scrollback, hrows, shadowScrollback_eq]

namespace PageReads

variable {codec : RowCodec} {reads : PageReads codec} {before pageCount first : ℕ}
variable {rows later live : List (List ScrollbackRun)}

/-- The archive range of a page, when the archive still begins with the counted rows. -/
theorem archivedPart_eq
    (harchiveCount : reads.archiveCounted.archive.lineCount = first + rows.length)
    (hcontinuous : reads.archiveRead.Continuous codec first)
    (hrows : reads.archiveRead.archived codec = rows ++ later) (hstart : start < stop) :
    reads.archivedPart start stop =
      .ok (((numbered first rows).take (stop - first)).drop (start - first)) := by
  unfold archivedPart
  rw [harchiveCount]
  dsimp only
  split
  · next hreach =>
    rw [hcontinuous.lines (by omega)]
    rw [ArchivedPane.archived] at hrows
    rw [hrows, numbered_append, List.take_append_of_le_length (by rw [length_numbered]; omega)]
    have htake : min stop (first + rows.length) - 1 + 1 - first =
        min (stop - first) rows.length := by omega
    rw [htake, ← List.take_take, ← length_numbered first rows, List.take_length]
  · rw [List.drop_eq_nil_of_le (by rw [List.length_take, length_numbered]; omega)]

/-- The live slice of a page, when the live rows are the counted ones. -/
theorem livePart_eq
    (harchiveCount : reads.archiveCounted.archive.lineCount = first + rows.length)
    (hliveCount : reads.counted.screens.scrollbackCount = live.length)
    (hlive : reads.liveRead.screens.live = live ∨ live.length ≤ before)
    (hstop : stop = first + rows.length + live.length - before) (hstart : start < stop) :
    reads.livePart start stop =
      ((numbered (first + rows.length) live).take (live.length - before)).drop
        (start - (first + rows.length)) := by
  unfold livePart
  rw [harchiveCount, hliveCount]
  dsimp only
  split
  · next hreach =>
    obtain rfl := hlive.resolve_right (by omega)
    have hliveStart : (if first + rows.length < start then start - (first + rows.length) else 0) =
        start - (first + rows.length) := by
      split <;> omega
    rw [hliveStart, Screens.scrollback_eq, pageOf, List.map_drop, List.map_take,
      map_line_numbered, Nat.zero_add]
    congr 1
    · omega
    · congr 1
      omega
  · next hreach =>
    rw [Nat.sub_eq_zero_of_le (by omega : live.length ≤ before)]
    simp

/-- A page whose archive range and live slice are read from what the counts counted. -/
theorem scrollback_eq (hpositive : 0 < pageCount)
    (harchiveCount : reads.archiveCounted.archive.lineCount = first + rows.length)
    (hliveCount : reads.counted.screens.scrollbackCount = live.length)
    (hcontinuous : reads.archiveRead.Continuous codec first)
    (hrows : reads.archiveRead.archived codec = rows ++ later)
    (hlive : reads.liveRead.screens.live = live ∨ live.length ≤ before) :
    reads.scrollback before pageCount = .ok (pageOf first (rows ++ live) before pageCount) := by
  unfold scrollback
  rw [harchiveCount, hliveCount, pageOf_append]
  dsimp only
  split
  · next hold =>
    have hnone : rows.length + live.length - before = 0 := by omega
    rw [hnone, Nat.sub_eq_zero_of_le (by omega : live.length ≤ before)]
    simp
  next hreach =>
  have hstart : (if pageCount < first + rows.length + live.length - before then
      first + rows.length + live.length - before - pageCount else 0) =
      first + rows.length + live.length - before - pageCount := by
    split <;> omega
  rw [hstart, archivedPart_eq harchiveCount hcontinuous hrows (by omega),
    livePart_eq harchiveCount hliveCount hlive rfl (by omega)]
  have htake : first + rows.length + live.length - before - first =
      rows.length + live.length - before := by omega
  have hdrop : first + rows.length + live.length - before - pageCount - first =
      rows.length + live.length - before - pageCount := by omega
  have hliveDrop : first + rows.length + live.length - before - pageCount - (first + rows.length) =
      rows.length + live.length - before - pageCount - rows.length := by omega
  rw [htake, hdrop, hliveDrop]
  rfl

/-- A page within the live rows is a slice of the rows that are live when it reads them. -/
theorem scrollback_live (hpositive : 0 < pageCount)
    (hcounted : before + pageCount ≤ reads.counted.screens.scrollbackCount) :
    reads.scrollback before pageCount =
      .ok (pageOf reads.archiveCounted.archive.lineCount reads.liveRead.screens.live before
        pageCount) := by
  unfold scrollback
  generalize hcount : reads.archiveCounted.archive.lineCount = archiveCount
  generalize hlive : reads.counted.screens.scrollbackCount = liveCount at hcounted
  have hstart : (if pageCount < archiveCount + liveCount - before then
      archiveCount + liveCount - before - pageCount else 0) =
      archiveCount + liveCount - before - pageCount := by
    split <;> omega
  dsimp only
  rw [if_neg (by omega), hstart, archivedPart, livePart, hcount, hlive]
  dsimp only
  rw [if_neg (by omega : ¬ archiveCount + liveCount - before - pageCount < archiveCount),
    if_pos (by omega : archiveCount < archiveCount + liveCount - before), Screens.scrollback_eq]
  have hslice : (if archiveCount < archiveCount + liveCount - before - pageCount then
      archiveCount + liveCount - before - pageCount - archiveCount else 0) =
      liveCount - before - pageCount := by
    split <;> omega
  have hbefore : liveCount - (archiveCount + liveCount - before - archiveCount) = before := by omega
  have hpage : archiveCount + liveCount - before - archiveCount - (liveCount - before - pageCount) =
      pageCount := by omega
  rw [hslice, hbefore, hpage, pageOf, List.map_drop, List.map_take, map_line_numbered,
    Nat.zero_add]
  rfl

/-- **Pages.** A page whose reads are not disturbed is the page of the history of the pane
at a moment of the reads. -/
theorem page_of_undisturbed (hcontinuous : reads.counted.Continuous codec first)
    (hpositive : 0 < pageCount) (hundisturbed : reads.Undisturbed before pageCount) :
    ∃ lines, reads.scrollback before pageCount = .ok lines ∧
      ∃ moment ∈ reads.moments, Page (moment.history codec) before pageCount lines := by
  have hcounted := (hcontinuous.reaches reads.count).continuous
  obtain ⟨hread, -, later, hlater⟩ := hcounted.reaches reads.read
  have hliveCount : reads.counted.screens.scrollbackCount = reads.counted.screens.live.length := by
    simp [Screens.scrollbackCount, Screens.live]
  have hlineCount := hcounted.lineCount
  cases hundisturbed with
  | unchanged h =>
    have harchiveCounted := (h reads.archiveCounted (by simp [moments])).1
    have harchiveRead := (h reads.archiveRead (by simp [moments])).1
    have hliveRead := (h reads.liveRead (by simp [moments])).2
    rw [harchiveCounted] at hlineCount
    have hrows : reads.archiveRead.archived codec = reads.counted.archived codec ++ [] := by
      rw [harchiveRead, List.append_nil]
    exact ⟨_, scrollback_eq hpositive hlineCount hliveCount hread hrows (.inl hliveRead),
      reads.counted, by simp [moments], page_pageOf⟩
  | archived hcounts hpage =>
    rw [hcounts] at hlineCount hlater
    exact ⟨_, scrollback_eq hpositive hlineCount hliveCount hread hlater (.inr hpage),
      reads.counted, by simp [moments], page_pageOf⟩
  | live hcountedLive hreadLive =>
    exact ⟨_, scrollback_live hpositive (by omega), reads.liveRead, by simp [moments],
      page_pageOf.append_left hreadLive⟩

/-- A page of a history that does not change during the reads. -/
theorem scrollback_unchanged (hcontinuous : reads.counted.Continuous codec first)
    (hpositive : 0 < pageCount)
    (hrows : ∀ moment ∈ reads.moments,
      moment.archived codec = rows ∧ moment.screens.live = live) :
    reads.scrollback before pageCount = .ok (pageOf first (rows ++ live) before pageCount) := by
  have hcounted := (hcontinuous.reaches reads.count).continuous
  have hread := (hcounted.reaches reads.read).continuous
  have hlineCount := hcounted.lineCount
  rw [(hrows reads.archiveCounted (by simp [moments])).1] at hlineCount
  have hliveCount : reads.counted.screens.scrollbackCount = live.length := by
    rw [← (hrows reads.counted (by simp [moments])).2, Screens.scrollbackCount, Screens.live,
      List.length_map]
  have harchiveRead : reads.archiveRead.archived codec = rows ++ [] := by
    rw [(hrows reads.archiveRead (by simp [moments])).1, List.append_nil]
  exact scrollback_eq hpositive hlineCount hliveCount hread harchiveRead
    (.inl (hrows reads.liveRead (by simp [moments])).2)

end PageReads

section PageBack

variable {codec : RowCodec} {reads : ℕ → PageReads codec} {pageCount : ℕ}
variable {rows live : List (List ScrollbackRun)}

/-- The pages from `before` on show every older line once. -/
theorem pageBack_from (hpositive : 0 < pageCount)
    (htracked : ∀ turn, (reads turn).counted.Tracked codec)
    (hrows : ∀ turn, ∀ moment ∈ (reads turn).moments,
      moment.archived codec = rows ∧ moment.screens.live = live)
    (fuel turn before : ℕ) (hfuel : (rows ++ live).length - before < fuel) :
    ∃ lines, pageBack reads pageCount fuel turn before = .ok lines ∧
      lines.map (·.runs) = (rows ++ live).take ((rows ++ live).length - before) := by
  induction fuel generalizing turn before with
  | zero => exact absurd hfuel (Nat.not_lt_zero _)
  | succ fuel ih =>
    obtain ⟨first, hfirst⟩ := htracked turn
    have hpage : (reads turn).scrollback before pageCount =
        .ok (pageOf first (rows ++ live) before pageCount) :=
      PageReads.scrollback_unchanged hfirst hpositive (hrows turn)
    generalize hlines : pageOf first (rows ++ live) before pageCount = page at hpage
    have hlength : page.length = min pageCount ((rows ++ live).length - before) := by
      rw [← hlines, length_pageOf]
    have hruns : page.map (·.runs) = ((rows ++ live).take ((rows ++ live).length - before)).drop
        ((rows ++ live).length - before - pageCount) := by
      rw [← hlines, map_runs_pageOf]
    rw [pageBack, hpage]
    rcases page.eq_nil_or_concat with rfl | ⟨_, _, hnonempty⟩
    · have hend : (rows ++ live).length - before = 0 := by
        rw [List.length_nil] at hlength
        omega
      exact ⟨[], rfl, by rw [hend]; rfl⟩
    · have hpageLength : 0 < page.length := by simp [hnonempty]
      obtain ⟨older, holder, holderRuns⟩ := ih (turn + 1) (before + page.length) (by omega)
      refine ⟨older ++ page, ?_, ?_⟩
      · show (if page = [] then _ else _) = _
        rw [if_neg (List.ne_nil_of_length_pos hpageLength)]
        show (pageBack reads pageCount fuel (turn + 1) (before + page.length) >>= _) = _
        rw [holder]
        rfl
      · have hrest : (rows ++ live).length - (before + page.length) =
            (rows ++ live).length - before - pageCount := by omega
        have htake := List.take_append_drop ((rows ++ live).length - before - pageCount)
          ((rows ++ live).take ((rows ++ live).length - before))
        rw [List.take_take, min_eq_left (Nat.sub_le ..)] at htake
        rw [List.map_append, holderRuns, hruns, hrest, htake]

end PageBack

section Transcript

/-- A codec that writes the number of a list of lines in unary. -/
def unaryCodec : RowCodec where
  marshal lines := List.replicate (Encodable.encode (lines.map fun line =>
    (line.line, line.runs.map fun run =>
      (run.text.toList.map Char.toNat, run.sgr.toList.map Char.toNat))) + 1) 0
  unmarshal data :=
    match Encodable.decode (α := List (ℕ × List (List ℕ × List ℕ))) (data.length - 1) with
    | none => .error "msgpack: invalid code"
    | some lines => .ok (lines.map fun line => ⟨line.1, line.2.map fun run =>
        ⟨String.ofList (run.1.map Char.ofNat), String.ofList (run.2.map Char.ofNat)⟩⟩)
  unmarshal_marshal lines := by
    simp [Function.comp_def]
  marshal_ne_nil lines := by
    simp

/-- The primary screen, with its history rows known by their references. -/
def primaryScreens (native : List NativeRow) : Screens :=
  ⟨native.map (·.runs), native, false, fun _ => rfl⟩

/-- A history row of plain text. -/
def textRow (ref : ℕ) (text : String) : NativeRow := ⟨ref, [⟨text, ""⟩]⟩

/-- A pane with three live rows, tracked by a new archive. -/
def threeRows : ArchivedPane where
  archive := { session := "pane-1", pane := "pane-1", enabled := true, next := 0, tracker :=
    ⟨[⟨0, 0, [⟨"a", ""⟩]⟩, ⟨1, 1, [⟨"b", ""⟩]⟩, ⟨2, 2, [⟨"c", ""⟩]⟩]⟩ }
  store := {}
  screens := primaryScreens [textRow 0 "a", textRow 1 "b", textRow 2 "c"]

/-- The pane after the engine evicted its oldest row. -/
def evictedRow : ArchivedPane where
  archive := { session := "pane-1", pane := "pane-1", enabled := true, next := 0, tracker :=
    ⟨[⟨1, 1, [⟨"b", ""⟩]⟩, ⟨2, 2, [⟨"c", ""⟩]⟩]⟩, pending := [⟨0, [⟨"a", ""⟩]⟩], bytes := 1 }
  store := {}
  screens := primaryScreens [textRow 1 "b", textRow 2 "c"]

/-- One more row of output, not yet seen by the archive hook. -/
def pumpedRow : ArchivedPane :=
  { evictedRow with screens := primaryScreens [textRow 1 "b", textRow 2 "c", textRow 3 "d"] }

theorem fresh_threeRows : threeRows.Fresh :=
  ⟨"pane-1", "pane-1", true, none, rfl, by decide +kernel⟩

theorem run_evictedRow : Run (ArchivedPane.step unaryCodec) Always threeRows
    [.move evictedRow.screens, .record none none] evictedRow :=
  .cons trivial rfl (.single trivial (by decide +kernel))

/-- Output arrives between the archive range and the live slice of a page. -/
def pumpedReads : PageReads unaryCodec where
  counted := evictedRow
  archiveCounted := evictedRow
  archiveRead := evictedRow
  liveRead := pumpedRow
  count := ⟨[], .nil _⟩
  read := ⟨[], .nil _⟩
  live := ⟨[.move pumpedRow.screens], .single trivial rfl⟩

/-- The reads of a page between which nothing happens. -/
def stillReads : PageReads unaryCodec where
  counted := evictedRow
  archiveCounted := evictedRow
  archiveRead := evictedRow
  liveRead := evictedRow
  count := ⟨[], .nil _⟩
  read := ⟨[], .nil _⟩
  live := ⟨[], .nil _⟩

end Transcript

/-- **Committed lines stay.** Whatever is recorded, flushed or fails later, and over privacy changes
and new processes, a range of committed lines that has been read is read again as it was, unless the
archives are cleared. -/
theorem committed_lines_stay (codec : RowCodec) {start pane pane' : ArchivedPane}
    (hfresh : start.Fresh) (hreaches : Reaches (ArchivedPane.step codec) Always start pane)
    (hlater : Reaches (ArchivedPane.step codec) (fun _ label => label ≠ .clear) pane pane')
    {a b : ℕ} {lines : List ScrollbackLine} (hcommitted : b < pane.archive.next)
    (hlines : pane.archive.lines codec pane.store a b = .ok lines) (hne : lines ≠ []) :
    pane'.archive.lines codec pane'.store a b = .ok lines := by
  obtain ⟨first, hpane⟩ := hfresh.reaches hreaches
  obtain ⟨⟨more, hmore⟩, start', hfirst, hpane'⟩ := hpane.kept hlater
  have hnext := hpane.next_eq
  have hab : a ≤ b := by
    by_contra hlt
    rw [HistoryArchive.lines, if_pos (by omega)] at hlines
    cases hlines
  -- the lines asked for are all stored, so the pending ones do not matter
  have hstored (rest : List (List ScrollbackRun)) :
      (numbered first (pane.stored codec ++ rest)).take (b + 1 - first) =
        (numbered first (pane.stored codec)).take (b + 1 - first) := by
    rw [numbered_append, List.take_append_of_le_length (by rw [length_numbered]; omega)]
  rw [hpane.lines hab, hstored] at hlines
  have hrows : pane.stored codec ≠ [] := by
    intro hnil
    rw [hnil] at hlines
    exact hne (by simpa using (Except.ok.inj hlines).symm)
  rw [hpane'.lines hab, hfirst hrows, ← hmore, List.append_assoc, hstored]
  exact hlines

/-- A pane with one blank live row, tracked by a new archive. -/
def blankRow : ArchivedPane where
  archive := { session := "pane-1", pane := "pane-1", enabled := true, next := 0
               tracker := ⟨[⟨0, 0, []⟩]⟩ }
  store := {}
  screens := primaryScreens [⟨0, []⟩]

theorem committed_lines_stay_blankRow : ∃ pane pane' : ArchivedPane,
    pane.step unaryCodec (.setEnabled false none) = some pane' ∧
      pane'.archive.lines unaryCodec pane'.store 0 0 = .ok [⟨0, []⟩] := by
  have hreplay : (replay (ArchivedPane.step unaryCodec) Always blankRow
      [.move (primaryScreens []), .record none none, .flush none]).any (fun pane =>
        0 < pane.archive.next ∧
          pane.archive.lines unaryCodec pane.store 0 0 = .ok [⟨0, []⟩]) = true := by
    decide +kernel
  obtain ⟨pane, hrun, hnext, hlines⟩ := exists_run_of_replay hreplay
  exact ⟨pane, _, rfl, committed_lines_stay unaryCodec
    ⟨"pane-1", "pane-1", true, none, rfl, by decide +kernel⟩ ⟨_, hrun⟩
    ⟨[.setEnabled false none], .single nofun rfl⟩ hnext hlines nofun⟩

end AgentCockpit.Mux
