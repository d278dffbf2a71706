import AgentCockpit.Mux.HistoryLine
import AgentCockpit.Mux.ScrollbackPaging
import AgentCockpit.Renderer.TmuxView

/-!
# The two sources of a scrollback page

The copy overlay asks the daemon for a page of history, and reads the terminal's own buffer where
the daemon has none. The daemon answers the page from its oldest line on. The buffer is indexed from
its newest line on, and the page is read in the order of its indices; a cell without a character may
be skipped.
-/

namespace AgentCockpit.Renderer

open Mux (ScrollbackLine ScrollbackRun HistoryCell Screens ArchivedPane HistoryStep PageReads
  RowCodec)
open TmuxView (isSpace)

/-! ### The buffer of the terminal -/

/-- The scrollback of a terminal core, whose lines are indexed from the newest one on. A cell
without a character is a zero or a blank. -/
structure GhosttyCore where
  lines : List (List Char)

namespace GhosttyCore

def getScrollbackCount (core : GhosttyCore) : ℕ := core.lines.length

def getScrollbackLineLen (core : GhosttyCore) (line : ℕ) : ℕ := (core.lines.getD line []).length

def getScrollbackCell (core : GhosttyCore) (line col : ℕ) : Char :=
  (core.lines.getD line []).getD col '\x00'

end GhosttyCore

/-- The text of a line of the core, without the white space at its end. -/
def scrollbackLine (core : GhosttyCore) (line : ℕ) : List Char :=
  ((List.range (core.getScrollbackLineLen line)).filterMap fun col =>
    let codepoint := core.getScrollbackCell line col
    -- A zero adds nothing, not even a blank.
    if codepoint ≠ '\x00' then some codepoint else none).rdropWhile isSpace

/-- A range of lines of the core. There is no core before it is loaded. -/
def scrollbackLines (core : Option GhosttyCore) (offset limit : ℕ) : Option (List (List Char)) :=
  core.map fun core =>
    let stop := min core.getScrollbackCount (offset + limit)
    -- Upwards, and so from the newest line of the range to the oldest.
    (List.range' offset (stop - offset)).map (scrollbackLine core)

/-- A page for the overlay: what the daemon answers, or the lines of the core. -/
def muxScrollbackLines (answer : Except String (List ScrollbackLine)) (core : Option GhosttyCore)
    (before count : ℕ) : List ScrollbackLine :=
  match answer with
  | .ok (line :: lines) => line :: lines
  -- A page without lines and an error are taken alike.
  | _ => ((scrollbackLines core before count).getD []).mapIdx fun line text =>
      ⟨before + line, [⟨String.ofList text, ""⟩]⟩

/-! ### What both hold -/

/-- A core reports the cell as `codepoint`: nothing for a cell that fills the room of a wide
character, a zero or a blank for a cell without text. -/
def ReportedAs (cell : HistoryCell) (codepoint : Char) : Prop :=
  if cell.IsSpacer then codepoint = '\x00'
  else
    match cell.text with
    | some c => codepoint = c
    | none => codepoint = '\x00' ∨ codepoint = ' '

/-- A cell as the daemon and a core hold it. -/
structure HeldCell where
  cell : HistoryCell
  codepoint : Char
  alike : ReportedAs cell codepoint

namespace HeldCell

/-- The cell shows a character that is not blank. -/
def Visible (held : HeldCell) : Prop := ∃ c ∈ held.cell.spell, ¬ isSpace c

/-- The cell is blank, and the core reports a zero for it. -/
def Hole (held : HeldCell) : Prop :=
  ¬ held.cell.IsSpacer ∧ held.cell.text = none ∧ held.codepoint = '\x00'

/-- What the core adds to the text of the line for the cell. -/
def read (held : HeldCell) : List Char :=
  if held.codepoint ≠ '\x00' then [held.codepoint] else []

end HeldCell

/-- A line as the daemon and a core hold it. A core may leave blank cells off its end. -/
structure HeldLine where
  held : List HeldCell
  rest : List HistoryCell
  blank : ∀ cell ∈ rest, ∀ c ∈ cell.spell, c = ' '

namespace HeldLine

/-- The cells of the daemon. -/
def cells (line : HeldLine) : List HistoryCell := line.held.map (·.cell) ++ line.rest

/-- The cells of the core. -/
def codepoints (line : HeldLine) : List Char := line.held.map (·.codepoint)

/-- No cell that the core skips stands in front of a character. -/
def Gapless (line : HeldLine) : Prop :=
  line.held.Pairwise fun held later => held.Hole → ¬ later.Visible

/-- The text of the line, without the white space at its end. -/
def text (line : HeldLine) : List Char := (Mux.spelled line.cells).rdropWhile isSpace

end HeldLine

/-- The core that holds the history, which begins with its oldest line. -/
def coreOf (history : List HeldLine) : GhosttyCore := ⟨(history.map (·.codepoints)).reverse⟩

/-- The lines of a history that a page is to show. -/
def pageLines (history : List HeldLine) (before count : ℕ) : List HeldLine :=
  (history.take (history.length - before)).drop (history.length - before - count)

/-! ### The daemon -/

/-- A pane that the daemon is asked about: one that keeps its history in memory only, or one with an
archive and the reads of the page. -/
inductive HistoryAttachment (codec : RowCodec)
  | live (screens : Screens)
  | archived (reads : PageReads codec)

namespace HistoryAttachment

variable {codec : RowCodec}

def scrollback : HistoryAttachment codec → ℕ → ℕ → Except String (List ScrollbackLine)
  | .live screens, before, count => .ok (screens.scrollback before count)
  | .archived reads, before, count => reads.scrollback before count

/-- The history of the pane, which does not change while a page is read. A pane with an archive has
come there from a fresh one. -/
def Holds (history : List (List ScrollbackRun)) : HistoryAttachment codec → Prop
  | .live screens => screens.live = history
  | .archived reads =>
    (∃ start : ArchivedPane, start.Fresh ∧
      Core.Reaches (ArchivedPane.step codec) Core.Always start reads.counted) ∧
    ∃ archived live, archived ++ live = history ∧ ∀ moment ∈ reads.moments,
      moment.archived codec = archived ∧ moment.screens.live = live

/-- The archive refuses an empty range: a page of no lines must end outside of it. -/
def Answers (before count : ℕ) : HistoryAttachment codec → Prop
  | .live _ => True
  | .archived reads => count = 0 → before ≤ reads.counted.screens.scrollbackCount ∨
      reads.archiveCounted.archive.lineCount + reads.counted.screens.scrollbackCount ≤ before

end HistoryAttachment

/-- The text of a line of a page, without the white space at its end. -/
def shownText (line : ScrollbackLine) : List Char :=
  (Mux.lineText line.runs).rdropWhile isSpace

/-- The daemon answers the page; the page that is built from the core where the daemon has none
shows the same texts in the same order; and a page past the end is empty from both. -/
def SourcesAgree {codec : RowCodec} (attachment : HistoryAttachment codec)
    (history : List HeldLine) (before count : ℕ) : Prop :=
  ∃ lines, attachment.scrollback before count = .ok lines ∧
    (muxScrollbackLines (.ok []) (some (coreOf history)) before count).map shownText =
      lines.map shownText ∧
    (history.length ≤ before →
      lines = [] ∧ muxScrollbackLines (.ok []) (some (coreOf history)) before count = [])

/-- The texts of the page read the same from its first line on as from its last one on, and no line
has a gap. -/
def ReadsBothWays (history : List HeldLine) (before count : ℕ) : Prop :=
  ((pageLines history before count).map (·.text)).reverse =
      (pageLines history before count).map (·.text) ∧
    ∀ line ∈ pageLines history before count, line.Gapless

/-! ### One line -/

namespace HeldCell

variable {held : HeldCell}

theorem Hole.spell_eq (h : held.Hole) : held.cell.spell = [' '] := by
  rw [HistoryCell.spell, if_neg h.1, h.2.1, Option.getD_none]

theorem Hole.read_eq (h : held.Hole) : held.read = [] := by
  rw [HeldCell.read, if_neg (not_not.mpr h.2.2)]

/-- Both read the same from a cell that is no hole. -/
theorem read_eq_spell (h : ¬ held.Hole) : held.read = held.cell.spell := by
  have halike := held.alike
  unfold ReportedAs at halike
  unfold HeldCell.read HistoryCell.spell
  split at halike
  · next hspacer => rw [if_pos hspacer, if_neg (not_not.mpr halike)]
  next hcell =>
  rw [if_neg hcell]
  split at halike
  · next c htext =>
    have hne : c ≠ '\x00' := by
      rintro rfl
      exact held.cell.text_ne htext
    rw [halike, if_pos hne, htext, Option.getD_some]
  · next htext =>
    rcases halike with hzero | hblank
    · exact absurd ⟨hcell, htext, hzero⟩ h
    · rw [hblank, htext, if_pos (by decide), Option.getD_none]

theorem length_read_le : held.read.length ≤ held.cell.spell.length := by
  by_cases hhole : held.Hole
  · rw [hhole.read_eq]
    exact Nat.zero_le _
  · rw [read_eq_spell hhole]

theorem mem_spell_of_mem_read {c : Char} (h : c ∈ held.read) : c ∈ held.cell.spell := by
  by_cases hhole : held.Hole
  · rw [hhole.read_eq] at h
    exact nomatch h
  · rwa [← read_eq_spell hhole]

theorem Visible.not_hole (h : held.Visible) : ¬ held.Hole := by
  intro hhole
  obtain ⟨c, hc, hshows⟩ := h
  rw [hhole.spell_eq] at hc
  obtain rfl := List.mem_singleton.mp hc
  exact hshows (by decide)

end HeldCell

namespace HeldLine

section Cells

variable {cells : List HeldCell}

/-- What the daemon reads from the cells of a line, and what the core reads. -/
def spelledCells (cells : List HeldCell) : List Char := cells.flatMap (·.cell.spell)

def readCells (cells : List HeldCell) : List Char := cells.flatMap (·.read)

theorem exists_spelled (h : ∃ held ∈ cells, held.Visible) :
    ∃ c ∈ spelledCells cells, ¬ isSpace c := by
  obtain ⟨held, hheld, c, hc, hshows⟩ := h
  exact ⟨c, List.mem_flatMap.mpr ⟨held, hheld, hc⟩, hshows⟩

theorem exists_read (h : ∃ held ∈ cells, held.Visible) : ∃ c ∈ readCells cells, ¬ isSpace c := by
  obtain ⟨held, hheld, hvisible⟩ := h
  obtain ⟨c, hc, hshows⟩ := hvisible
  rw [← HeldCell.read_eq_spell (HeldCell.Visible.not_hole ⟨c, hc, hshows⟩)] at hc
  exact ⟨c, List.mem_flatMap.mpr ⟨held, hheld, hc⟩, hshows⟩

theorem forall_spelled (h : ¬ ∃ held ∈ cells, held.Visible) :
    ∀ c ∈ spelledCells cells, isSpace c := by
  intro c hc
  obtain ⟨held, hheld, hspell⟩ := List.mem_flatMap.mp hc
  by_contra hshows
  exact h ⟨held, hheld, c, hspell, hshows⟩

theorem forall_read (h : ¬ ∃ held ∈ cells, held.Visible) : ∀ c ∈ readCells cells, isSpace c := by
  intro c hc
  obtain ⟨held, hheld, hread⟩ := List.mem_flatMap.mp hc
  apply forall_spelled h c
  exact List.mem_flatMap.mpr ⟨held, hheld, HeldCell.mem_spell_of_mem_read hread⟩

/-- Without a gap both read the same up to the white space at the end. -/
theorem rdropWhile_read_eq (h : cells.Pairwise fun held later => held.Hole → ¬ later.Visible) :
    (readCells cells).rdropWhile isSpace = (spelledCells cells).rdropWhile isSpace := by
  induction cells with
  | nil => rfl
  | cons held cells ih =>
    obtain ⟨hfirst, hcells⟩ := List.pairwise_cons.mp h
    have hread : readCells (held :: cells) = held.read ++ readCells cells := List.flatMap_cons
    have hspelled : spelledCells (held :: cells) = held.cell.spell ++ spelledCells cells :=
      List.flatMap_cons
    rw [hread, hspelled]
    by_cases hvisible : ∃ later ∈ cells, later.Visible
    · obtain ⟨later, hlater, hshows⟩ := hvisible
      have hwhole : ¬ held.Hole := fun hhole => hfirst later hlater hhole hshows
      rw [Core.rdropWhile_append_of_exists (exists_read ⟨later, hlater, hshows⟩),
        Core.rdropWhile_append_of_exists (exists_spelled ⟨later, hlater, hshows⟩), ih hcells,
        HeldCell.read_eq_spell hwhole]
    · rw [Core.rdropWhile_append_of_forall (forall_read hvisible),
        Core.rdropWhile_append_of_forall (forall_spelled hvisible)]
      by_cases hhole : held.Hole
      · rw [hhole.read_eq, hhole.spell_eq]
        decide
      · rw [HeldCell.read_eq_spell hhole]

/-- With a gap the core reads less. -/
theorem length_read_lt (h : ¬ cells.Pairwise fun held later => held.Hole → ¬ later.Visible) :
    ((readCells cells).rdropWhile isSpace).length <
      ((spelledCells cells).rdropWhile isSpace).length := by
  induction cells with
  | nil => exact absurd List.Pairwise.nil h
  | cons held cells ih =>
    have hread : readCells (held :: cells) = held.read ++ readCells cells := List.flatMap_cons
    have hspelled : spelledCells (held :: cells) = held.cell.spell ++ spelledCells cells :=
      List.flatMap_cons
    -- Behind a gap stands a character that is not blank.
    have hvisible : ∃ later ∈ cells, later.Visible := by
      by_contra hnone
      push Not at hnone
      apply h
      apply List.pairwise_cons.mpr
      exact ⟨fun later hlater _ => hnone later hlater,
        List.pairwise_of_forall_mem_list fun _ _ later hlater _ => hnone later hlater⟩
    rw [hread, hspelled, Core.rdropWhile_append_of_exists (exists_read hvisible),
      Core.rdropWhile_append_of_exists (exists_spelled hvisible), List.length_append,
      List.length_append]
    by_cases hcells : cells.Pairwise fun held later => held.Hole → ¬ later.Visible
    · have hhole : held.Hole := by
        by_contra hwhole
        exact h (List.pairwise_cons.mpr ⟨fun _ _ hhole => absurd hhole hwhole, hcells⟩)
      rw [rdropWhile_read_eq hcells, hhole.read_eq, hhole.spell_eq, List.length_nil,
        List.length_singleton]
      omega
    · have hlt := ih hcells
      have hle := held.length_read_le
      omega

end Cells

variable {line : HeldLine}

theorem text_eq : line.text = (spelledCells line.held).rdropWhile isSpace := by
  have hblank : ∀ c ∈ Mux.spelled line.rest, isSpace c := by
    intro c hc
    obtain ⟨cell, hcell, hspell⟩ := List.mem_flatMap.mp hc
    rw [line.blank cell hcell c hspell]
    decide
  have hheld : Mux.spelled (line.held.map (·.cell)) = spelledCells line.held := List.flatMap_map ..
  rw [text, cells, Mux.spelled_append, Core.rdropWhile_append_of_forall hblank, hheld]

/-- What the adapter reads from the line. -/
def localText (line : HeldLine) : List Char := (readCells line.held).rdropWhile isSpace

theorem localText_eq (h : line.Gapless) : line.localText = line.text := by
  rw [text_eq, localText, rdropWhile_read_eq h]

theorem length_localText_lt (h : ¬ line.Gapless) :
    line.localText.length < line.text.length := by
  rw [text_eq, localText]
  exact length_read_lt h

/-- The adapter never reads more than the daemon. -/
theorem length_localText_le : line.localText.length ≤ line.text.length := by
  by_cases hgapless : line.Gapless
  · rw [localText_eq hgapless]
  · exact (length_localText_lt hgapless).le

end HeldLine

/-! ### The page of the core -/

/-- Reading a range index by index. -/
theorem map_getD_range' {α : Type*} (l : List α) (default : α) {start count : ℕ}
    (h : start + count ≤ l.length) :
    (List.range' start count).map (l.getD · default) = (l.drop start).take count := by
  apply List.ext_getElem
  · simp
    omega
  · intro index hindex hslice
    have hlt : start + index < l.length := by
      rw [List.length_map, List.length_range'] at hindex
      omega
    rw [List.getElem_map, List.getElem_range', List.getElem_take, List.getElem_drop, Nat.one_mul,
      List.getD_eq_getElem?_getD, List.getElem?_eq_getElem hlt, Option.getD_some]

section Local

variable {history : List HeldLine} {before count : ℕ}

theorem scrollbackLine_eq (core : GhosttyCore) (line : ℕ) : scrollbackLine core line =
    ((core.lines.getD line []).filter (· ≠ '\x00')).rdropWhile isSpace := by
  unfold scrollbackLine
  congr 1
  generalize hcells : core.lines.getD line [] = cells
  have hrange : (List.range cells.length).map (cells.getD · '\x00') = cells := by
    rw [List.range_eq_range', map_getD_range' cells _ (by omega), List.drop_zero, List.take_length]
  have hread : (List.range (core.getScrollbackLineLen line)).filterMap (fun col =>
      let codepoint := core.getScrollbackCell line col
      if codepoint ≠ '\x00' then some codepoint else none) =
      ((List.range cells.length).map (cells.getD · '\x00')).filterMap
        (Option.guard (· ≠ '\x00')) := by
    rw [List.filterMap_map]
    unfold GhosttyCore.getScrollbackLineLen GhosttyCore.getScrollbackCell
    rw [hcells]
    apply List.filterMap_congr
    intro col _
    simp [Option.guard]
  rw [hread, hrange, List.filterMap_eq_filter]

theorem filter_codepoints (line : HeldLine) :
    line.codepoints.filter (· ≠ '\x00') = HeldLine.readCells line.held := by
  unfold HeldLine.codepoints HeldLine.readCells
  induction line.held with
  | nil => rfl
  | cons held cells ih =>
    rw [List.map_cons, List.filter_cons, List.flatMap_cons, ih]
    unfold HeldCell.read
    simp only [decide_eq_true_eq]
    split
    · rfl
    · rfl

/-- The adapter reads the lines of a page from the last one on. -/
theorem scrollbackLines_coreOf : scrollbackLines (some (coreOf history)) before count =
    some ((pageLines history before count).map (·.localText)).reverse := by
  rw [scrollbackLines, Option.map_some]
  congr 1
  dsimp only
  have hcount : (coreOf history).getScrollbackCount = history.length := by
    simp [GhosttyCore.getScrollbackCount, coreOf]
  have hlines : scrollbackLine (coreOf history) =
      (fun codepoints => (codepoints.filter (· ≠ '\x00')).rdropWhile isSpace) ∘
        ((history.map (·.codepoints)).reverse.getD · []) := by
    funext line
    exact scrollbackLine_eq _ line
  rw [hcount, hlines, ← List.map_map]
  -- The range of indices is the page, from its last line on.
  have hpage : (List.range' before (min history.length (before + count) - before)).map
      ((history.map (·.codepoints)).reverse.getD · []) =
      ((pageLines history before count).map (·.codepoints)).reverse := by
    by_cases hend : history.length ≤ before
    · have hnone : min history.length (before + count) - before = 0 := by omega
      have hempty : history.length - before = 0 := by omega
      rw [hnone, pageLines, hempty]
      simp
    · rw [map_getD_range' _ _ (by rw [List.length_reverse, List.length_map]; omega),
        List.drop_reverse, List.length_map, ← List.map_take, List.take_reverse, List.length_map,
        ← List.map_drop, pageLines, List.length_take]
      congr 3
      omega
  rw [hpage, List.map_reverse, List.map_map]
  congr 2
  funext line
  exact congrArg (List.rdropWhile isSpace) (filter_codepoints line)

theorem map_shownText_mapIdx (texts : List (List Char)) (first : ℕ) :
    (texts.mapIdx fun line text => (⟨first + line, [⟨String.ofList text, ""⟩]⟩ :
      ScrollbackLine)).map shownText = texts.map (List.rdropWhile isSpace) := by
  apply List.ext_getElem
  · simp
  · intro index _ _
    simp [shownText]

/-- The page of the core shows what the adapter reads, from the last line on. -/
theorem map_shownText_local :
    (muxScrollbackLines (.ok []) (some (coreOf history)) before count).map shownText =
      ((pageLines history before count).map (·.localText)).reverse := by
  have hbuilt : muxScrollbackLines (.ok []) (some (coreOf history)) before count =
      ((scrollbackLines (some (coreOf history)) before count).getD []).mapIdx fun line text =>
        ⟨before + line, [⟨String.ofList text, ""⟩]⟩ := rfl
  rw [hbuilt, scrollbackLines_coreOf, Option.getD_some, map_shownText_mapIdx, List.map_reverse,
    List.map_map]
  congr 2
  funext line
  exact List.rdropWhile_idempotent _ _

end Local

/-! ### The page of the daemon -/

section Daemon

variable {codec : RowCodec} {attachment : HistoryAttachment codec}
variable {history : List (List ScrollbackRun)} {before count : ℕ}

theorem lines_of_lt {archive : Mux.HistoryArchive} {store : Mux.HistoryStore} {first last : ℕ}
    (h : last < first) :
    archive.lines codec store first last = .error "invalid mux archive line range" := by
  rw [Mux.HistoryArchive.lines, if_pos h]
  rfl

/-- An empty range of an archive. -/
theorem scrollback_zero (reads : PageReads codec) (before : ℕ) : reads.scrollback before 0 =
    if before ≤ reads.counted.screens.scrollbackCount ∨
      reads.archiveCounted.archive.lineCount + reads.counted.screens.scrollbackCount ≤ before
    then .ok [] else .error "invalid mux archive line range" := by
  unfold PageReads.scrollback PageReads.archivedPart PageReads.livePart
  generalize reads.archiveCounted.archive.lineCount = archiveCount
  generalize reads.counted.screens.scrollbackCount = liveCount
  dsimp only
  by_cases hpast : archiveCount + liveCount ≤ before
  · rw [if_pos hpast, if_pos (.inr hpast)]
  rw [if_neg hpast, if_pos (by omega : 0 < archiveCount + liveCount - before), Nat.sub_zero]
  by_cases hlive : before ≤ liveCount
  · -- The range ends among the live rows, and none of them is asked for.
    have hstart : ¬ archiveCount + liveCount - before < archiveCount := by omega
    have hnone : archiveCount + liveCount - before - archiveCount - (if archiveCount <
        archiveCount + liveCount - before then archiveCount + liveCount - before - archiveCount
        else 0) = 0 := by
      split <;> omega
    conv_rhs => rw [if_pos (.inl hlive)]
    rw [if_neg hstart, hnone, Screens.scrollback_eq, Mux.pageOf, Nat.sub_zero,
      List.drop_eq_nil_of_le (by simp), List.map_nil, ite_self]
    rfl
  · have hstart : archiveCount + liveCount - before < archiveCount := by omega
    have hmin : min (archiveCount + liveCount - before) archiveCount =
        archiveCount + liveCount - before := by omega
    conv_rhs => rw [if_neg (by omega)]
    rw [if_pos hstart, hmin, lines_of_lt (by omega)]
    rfl

/-- The page of an attachment, where it answers. -/
theorem scrollback_of_answers (hholds : attachment.Holds history)
    (h : attachment.Answers before count) :
    ∃ first, attachment.scrollback before count = .ok (Mux.pageOf first history before count) := by
  cases attachment with
  | live screens =>
    have hlive : screens.live = history := hholds
    exact ⟨0, congrArg Except.ok (hlive ▸ screens.scrollback_eq before count)⟩
  | archived reads =>
    obtain ⟨⟨start, hfresh, hreaches⟩, archived, live, rfl, hrows⟩ := hholds
    obtain ⟨first, hcontinuous⟩ := hfresh.reaches hreaches
    refine ⟨first, ?_⟩
    by_cases hcount : count = 0
    · subst hcount
      have hempty : Mux.pageOf first (archived ++ live) before 0 = [] := by
        apply List.eq_nil_of_length_eq_zero
        rw [Mux.length_pageOf, Nat.zero_min]
      rw [HistoryAttachment.scrollback, scrollback_zero, if_pos (h rfl), hempty]
    · exact reads.scrollback_unchanged hcontinuous (by omega) hrows

theorem answers_of_scrollback {lines : List ScrollbackLine}
    (h : attachment.scrollback before count = .ok lines) : attachment.Answers before count := by
  cases attachment with
  | live screens => exact trivial
  | archived reads =>
    rintro rfl
    by_contra hempty
    rw [HistoryAttachment.scrollback, scrollback_zero, if_neg hempty] at h
    exact nomatch h

end Daemon

/-- The daemon shows the texts of the page. -/
theorem map_shownText_pageOf (first : ℕ) (history : List HeldLine) (before count : ℕ) :
    (Mux.pageOf first (history.map fun line => Mux.historyLine line.cells) before count).map
      shownText = (pageLines history before count).map (·.text) := by
  have htext : shownText = (fun runs => (Mux.lineText runs).rdropWhile isSpace) ∘ (·.runs) := rfl
  rw [htext, ← List.map_map, Mux.map_runs_pageOf, List.length_map, ← List.map_take,
    ← List.map_drop, List.map_map]
  apply List.map_congr_left
  intro line _
  have hspace : ∀ c : Char, decide (c = ' ') = true → isSpace c = true := by
    intro c hc
    rw [of_decide_eq_true hc]
    decide
  have hline := congrArg (List.rdropWhile isSpace) (Mux.lineText_historyLine line.cells)
  rw [Core.rdropWhile_rdropWhile hspace] at hline
  exact hline

/-! ### Agreement -/

section Agreement

variable {lines : List HeldLine}

theorem length_pageLines (history : List HeldLine) (before count : ℕ) :
    (pageLines history before count).length = min count (history.length - before) := by
  rw [pageLines, List.length_drop, List.length_take]
  omega

/-- Lines that are read from the last one on are the lines of the daemon only if each of them is
read as the daemon reads it: no line is read longer. -/
theorem gapless_of_reversed (h : (lines.map (·.localText)).reverse = lines.map (·.text)) :
    ∀ line ∈ lines, line.Gapless := by
  have hsum : (lines.map (·.localText.length)).sum = (lines.map (·.text.length)).sum := by
    have hlengths := congrArg (fun texts : List (List Char) => (texts.map List.length).sum) h
    simp only [List.map_reverse, List.sum_reverse, List.map_map] at hlengths
    exact hlengths
  intro line hline
  by_contra hgap
  have hlt : line.localText.length < line.text.length := HeldLine.length_localText_lt hgap
  have hless : (lines.map (·.localText.length)).sum < (lines.map (·.text.length)).sum :=
    List.sum_lt_sum _ _ (fun line _ => line.length_localText_le) ⟨line, hline, hlt⟩
  exact hless.ne hsum

theorem reversed_iff : (lines.map (·.localText)).reverse = lines.map (·.text) ↔
    (lines.map (·.text)).reverse = lines.map (·.text) ∧ ∀ line ∈ lines, line.Gapless := by
  have hread (hgapless : ∀ line ∈ lines, line.Gapless) :
      lines.map (·.localText) = lines.map (·.text) :=
    List.map_congr_left fun line hline => HeldLine.localText_eq (hgapless line hline)
  constructor
  · intro h
    have hgapless := gapless_of_reversed h
    rw [hread hgapless] at h
    exact ⟨h, hgapless⟩
  · rintro ⟨hmirrored, hgapless⟩
    rw [hread hgapless]
    exact hmirrored

end Agreement

/-- **The two sources of a page.** For every history, and every page of it or past its end: the
page that is built from the terminal's buffer shows the texts of the daemon's page in the same order
if and only if these read the same from the last line on, no line has a gap that the buffer skips,
and the archive is not asked for an empty range. -/
theorem sourcesAgree_iff {codec : RowCodec} {attachment : HistoryAttachment codec}
    {history : List HeldLine}
    (hholds : attachment.Holds (history.map fun line => Mux.historyLine line.cells))
    (before count : ℕ) : SourcesAgree attachment history before count ↔
      attachment.Answers before count ∧ ReadsBothWays history before count := by
  unfold SourcesAgree ReadsBothWays
  rw [map_shownText_local, ← reversed_iff]
  constructor
  · rintro ⟨lines, hanswer, htexts, -⟩
    have hanswers := answers_of_scrollback hanswer
    obtain ⟨first, hpage⟩ := scrollback_of_answers hholds hanswers
    obtain rfl := Except.ok.inj (hanswer.symm.trans hpage)
    rw [map_shownText_pageOf] at htexts
    exact ⟨hanswers, htexts⟩
  · rintro ⟨hanswers, htexts⟩
    obtain ⟨first, hpage⟩ := scrollback_of_answers hholds hanswers
    refine ⟨_, hpage, htexts.trans (map_shownText_pageOf ..).symm, fun hend => ⟨?_, ?_⟩⟩
    · apply List.eq_nil_of_length_eq_zero
      rw [Mux.length_pageOf, List.length_map]
      omega
    · have hlength := congrArg List.length (@map_shownText_local history before count)
      rw [List.length_map, List.length_reverse, List.length_map, length_pageLines] at hlength
      apply List.eq_nil_of_length_eq_zero
      omega

/-! ### The order of the lines -/

section Upside

/-- A line of one character. -/
def letterLine (c : Char) (h : c ≠ '\x00') : HeldLine where
  held := [⟨⟨.narrow, some c, "", fun heq => h (Option.some.inj heq)⟩, c, rfl⟩]
  rest := []
  blank := nofun

/-- A history of two lines. -/
def twoLines : List HeldLine := [letterLine 'a' (by decide), letterLine 'b' (by decide)]

/-- The pane that holds it, without an archive. -/
def twoLinesPane : HistoryAttachment Mux.unaryCodec :=
  .live (Mux.primaryScreens [Mux.textRow 0 "a", Mux.textRow 1 "b"])

theorem holds_twoLines :
    twoLinesPane.Holds (twoLines.map fun line => Mux.historyLine line.cells) := by
  show _ = _
  decide

/-- A page of one line agrees. -/
theorem sourcesAgree_iff_twoLines : SourcesAgree twoLinesPane twoLines 0 1 := by
  apply (sourcesAgree_iff holds_twoLines 0 1).mpr
  refine ⟨trivial, by decide, fun line hline => ?_⟩
  obtain rfl := List.mem_singleton.mp hline
  exact List.pairwise_singleton _ _

/-- The buffer shows the newer line above the older one. -/
theorem not_sourcesAgree_twoLines : ¬ ∀ (codec : RowCodec) (attachment : HistoryAttachment codec)
    (history : List HeldLine),
    attachment.Holds (history.map fun line => Mux.historyLine line.cells) →
      ∀ before count, before < history.length → SourcesAgree attachment history before count := by
  intro hall
  obtain ⟨lines, hanswer, htexts, -⟩ :=
    hall _ twoLinesPane twoLines holds_twoLines 0 2 (by decide)
  have hpage : twoLinesPane.scrollback 0 2 = .ok [⟨0, [⟨"a", ""⟩]⟩, ⟨1, [⟨"b", ""⟩]⟩] := by decide
  obtain rfl := Except.ok.inj (hanswer.symm.trans hpage)
  revert htexts
  decide

end Upside

end AgentCockpit.Renderer
