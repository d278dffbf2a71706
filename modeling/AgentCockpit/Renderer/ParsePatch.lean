import AgentCockpit.Remote.LayoutExactness
import AgentCockpit.Renderer.TmuxView
import Mathlib

/-!
# Reading the patch of a file

The viewer reads a patch as git prints it: a file header, then hunks, each with the ranges that it
is about and its lines. One pass goes over the lines. A line that begins as a line of a file header
is taken for one wherever it stands, so a deleted or an added line is lost if its text makes the
printed line look like the name of a file. The heading behind the ranges has to be free of line
terminators, of which JavaScript knows four. Numbers are those of the binary64 format.

## Main results

* `parsePatch_printPatch_iff` — **the hunks come back exactly if all of them are readable**
-/

namespace AgentCockpit.Renderer.ParsePatch

open AgentCockpit.Core Remote
open LayoutString (Number toNumber asNumber uintText uintValue Exact IsUint NoDigit)
open TmuxView (trim)

/-! ### The parser -/

inductive PatchKind
  | context
  | add
  | del
  | metaLine
  deriving DecidableEq, Repr

structure PatchLine where
  kind : PatchKind
  text : Text
  oldLine : Option Number
  newLine : Option Number
  deriving DecidableEq

structure PatchHunk where
  header : Text
  oldStart : Number
  oldCount : Number
  newStart : Number
  newCount : Number
  lines : List PatchLine
  deriving DecidableEq

/-- What is read of a patch: the names of the file, the hunks, the lines of the file header, and
whether git calls the file binary. -/
structure ParsedPatch where
  fromFile : Option Text
  toFile : Option Text
  hunks : List PatchHunk
  metaLines : List Text
  binary : Bool

/-- What a `.` of a pattern does not match. -/
def isLineTerminator (c : Char) : Bool := c ∈ ['\n', '\r', '\u2028', '\u2029']

/-- A fixed part of a pattern. -/
def literal (word left : Text) : Option Text :=
  if word.isPrefixOf left then some (left.drop word.length) else none

def readDigits (left : Text) : Option (Text × Text) :=
  let digits := left.takeWhile (·.isDigit)
  if digits = [] then none else some (digits, left.dropWhile (·.isDigit))

/-- A start and a count, which may be left out. -/
structure RangeText where
  start : Text
  count : Option Text
  deriving DecidableEq

/-- `(\d+)(?:,(\d+))?` -/
def readRange (left : Text) : Option (RangeText × Text) :=
  match readDigits left with
  | none => none
  | some (start, left) =>
    match literal [','] left with
    | none => some (⟨start, none⟩, left)
    | some counted =>
      match readDigits counted with
      -- The group is optional: without digits behind the comma it matches nothing.
      | none => some (⟨start, none⟩, left)
      | some (count, left) => some (⟨start, some count⟩, left)

/-- `HUNK_RE`: the old and the new range. -/
def matchHunk (raw : Text) : Option (RangeText × RangeText) := do
  let left ← literal "@@ -".toList raw
  let (old, left) ← readRange left
  let left ← literal " +".toList left
  let (new, left) ← readRange left
  let heading ← literal " @@".toList left
  -- `(.*)$` has to reach the end of the line.
  if heading.all (!isLineTerminator ·) then some (old, new) else none

/-- `BINARY_DIFFER_RE` -/
def isBinaryDiffer (raw : Text) : Bool :=
  match literal "Binary files ".toList raw with
  | none => false
  | some rest => " differ".toList.isSuffixOf rest && rest.all (!isLineTerminator ·)

/-- The name behind `--- ` or `+++ `, without the letter of its side. -/
def fileName (side : Char) (raw : Text) : Option Text :=
  let named := raw.drop 4
  let bare := if [side, '/'].isPrefixOf named then named.drop 2 else named
  if trim bare = [] then none else some (trim bare)

/-- `n + 1` -/
def increment : Number → Number
  | none => none
  | some n => Binary64.round (n + 1)

def countNumber : Option Text → Number
  | none => some 1
  | some digits => toNumber digits

/-- The hunk that is being read, with the numbers of its next lines. -/
structure OpenHunk where
  hunk : PatchHunk
  oldNum : Number
  newNum : Number

namespace OpenHunk

/-- A hunk begins. -/
def start (raw : Text) (ranges : RangeText × RangeText) : OpenHunk where
  hunk :=
    { header := raw
      oldStart := toNumber ranges.1.start
      oldCount := countNumber ranges.1.count
      newStart := toNumber ranges.2.start
      newCount := countNumber ranges.2.count
      lines := [] }
  oldNum := toNumber ranges.1.start
  newNum := toNumber ranges.2.start

def push (current : OpenHunk) (line : PatchLine) : PatchHunk :=
  { current.hunk with lines := current.hunk.lines ++ [line] }

/-- A line within a hunk. -/
def line (current : OpenHunk) (raw : Text) : OpenHunk :=
  if "\\ ".toList.isPrefixOf raw then
    { current with hunk := current.push ⟨.metaLine, raw, none, none⟩ }
  else match raw with
    | '+' :: text =>
      { current with
        hunk := current.push ⟨.add, text, none, some current.newNum⟩
        newNum := increment current.newNum }
    | '-' :: text =>
      { current with
        hunk := current.push ⟨.del, text, some current.oldNum, none⟩
        oldNum := increment current.oldNum }
    | ' ' :: text =>
      { hunk := current.push ⟨.context, text, some current.oldNum, some current.newNum⟩
        oldNum := increment current.oldNum
        newNum := increment current.newNum }
    -- git prints no other line; the empty one is what stands behind the last newline.
    | _ => current

end OpenHunk

/-- The hunks that are complete, and the one that is being read. -/
structure HunkReader where
  done : List PatchHunk
  current : Option OpenHunk

namespace HunkReader

def hunks (reader : HunkReader) : List PatchHunk :=
  reader.done ++ reader.current.toList.map (·.hunk)

/-- A line that is not one of a file header. -/
def line (reader : HunkReader) (raw : Text) : HunkReader :=
  match matchHunk raw with
  | some ranges => ⟨reader.hunks, some (OpenHunk.start raw ranges)⟩
  -- In front of the first hunk the line is dropped.
  | none => ⟨reader.done, reader.current.map (·.line raw)⟩

end HunkReader

structure ParseState where
  fromFile : Option Text := none
  toFile : Option Text := none
  metaLines : List Text := []
  binary : Bool := false
  reader : HunkReader := ⟨[], none⟩

/-- What else a line of a file header begins with. -/
def metaBeginnings : List Text :=
  ["diff ".toList, "index ".toList, "new file".toList, "deleted file".toList,
    "similarity index".toList, "rename ".toList]

def parseLine (state : ParseState) (raw : Text) : ParseState :=
  -- None of the first four tests looks whether a hunk is open.
  if "--- ".toList.isPrefixOf raw then
    { state with fromFile := fileName 'a' raw, metaLines := state.metaLines ++ [raw] }
  else if "+++ ".toList.isPrefixOf raw then
    { state with toFile := fileName 'b' raw, metaLines := state.metaLines ++ [raw] }
  else if metaBeginnings.any (·.isPrefixOf raw) then
    { state with metaLines := state.metaLines ++ [raw] }
  else if isBinaryDiffer raw then
    { state with metaLines := state.metaLines ++ [raw], binary := true }
  else { state with reader := state.reader.line raw }

def parsePatch (patch : Text) : ParsedPatch :=
  let state := (patch.splitOn '\n').foldl parseLine {}
  ⟨state.fromFile, state.toFile, state.reader.hunks, state.metaLines, state.binary⟩

/-! ### Patches that git prints -/

/-- A text of one line. -/
abbrev LineText := { text : Text // '\n' ∉ text }

inductive HunkLine
  | context (text : LineText)
  | add (text : LineText)
  | del (text : LineText)
  | noNewline

/-- The marker behind a last line that has no newline. -/
def noNewlineText : Text := "\\ No newline at end of file".toList

namespace HunkLine

def print : HunkLine → Text
  | .context text => ' ' :: text
  | .add text => '+' :: text
  | .del text => '-' :: text
  | .noNewline => noNewlineText

def isOld : HunkLine → Bool
  | .context _ | .del _ => true
  | .add _ | .noNewline => false

def isNew : HunkLine → Bool
  | .context _ | .add _ => true
  | .del _ | .noNewline => false

end HunkLine

structure Hunk where
  oldStart : ℕ
  newStart : ℕ
  /-- What stands behind the ranges. -/
  heading : LineText
  lines : List HunkLine

/-- A count of one is left out. -/
def rangeText (start count : ℕ) : Text :=
  uintText start ++ if count = 1 then [] else ',' :: uintText count

/-- The lines of a hunk with the numbers that they have in the two files. -/
def number (oldLine newLine : ℕ) : List HunkLine → List PatchLine
  | [] => []
  | .context text :: rest =>
    ⟨.context, text, some (asNumber oldLine), some (asNumber newLine)⟩ ::
      number (oldLine + 1) (newLine + 1) rest
  | .add text :: rest =>
    ⟨.add, text, none, some (asNumber newLine)⟩ :: number oldLine (newLine + 1) rest
  | .del text :: rest =>
    ⟨.del, text, some (asNumber oldLine), none⟩ :: number (oldLine + 1) newLine rest
  | .noNewline :: rest =>
    ⟨.metaLine, noNewlineText, none, none⟩ :: number oldLine newLine rest

namespace Hunk

variable (hunk : Hunk)

def oldCount : ℕ := hunk.lines.countP (·.isOld)

def newCount : ℕ := hunk.lines.countP (·.isNew)

def header : Text :=
  "@@ -".toList ++ (rangeText hunk.oldStart hunk.oldCount ++ (" +".toList ++
    (rangeText hunk.newStart hunk.newCount ++ (" @@".toList ++
      if hunk.heading.1 = [] then [] else ' ' :: hunk.heading.1))))

def print : List Text := hunk.header :: hunk.lines.map (·.print)

/-- The hunk as it is to be read back. -/
def parsed : PatchHunk where
  header := hunk.header
  oldStart := asNumber hunk.oldStart
  oldCount := asNumber hunk.oldCount
  newStart := asNumber hunk.newStart
  newCount := asNumber hunk.newCount
  lines := number hunk.oldStart hunk.newStart hunk.lines

/-- The numbers of the header and of the lines. -/
def numbers : List ℕ :=
  [hunk.oldStart, hunk.oldCount, hunk.newStart, hunk.newCount] ++
    List.range' hunk.oldStart hunk.oldCount ++ List.range' hunk.newStart hunk.newCount

end Hunk

/-- The printed line does not look like the name of a file. -/
def HunkLine.Kept : HunkLine → Prop
  | .context _ | .noNewline => True
  | .add text => ¬ "++ ".toList <+: text.1
  | .del text => ¬ "-- ".toList <+: text.1

structure Hunk.Readable (hunk : Hunk) : Prop where
  heading : ∀ c ∈ hunk.heading.1, ¬ isLineTerminator c
  kept : ∀ line ∈ hunk.lines, line.Kept
  exact : ∀ n ∈ hunk.numbers, Exact n

/-- The lines in front of the hunks. None of them begins as a hunk does. -/
structure FileHeader where
  lines : List LineText
  noHunk : ∀ line ∈ lines, ¬ "@@".toList <+: line.1

def printPatch (file : FileHeader) (hunks : List Hunk) : Text :=
  (file.lines.map (·.1) ++ hunks.flatMap (·.print)).flatMap (· ++ ['\n'])

/-! ### Lines of a file header -/

section Lines

variable {state : ParseState} {raw text left : Text} {line : HunkLine}

/-- The parser takes the line for one of a file header. -/
def isMeta (raw : Text) : Bool :=
  "--- ".toList.isPrefixOf raw || "+++ ".toList.isPrefixOf raw ||
    metaBeginnings.any (·.isPrefixOf raw) || isBinaryDiffer raw

theorem reader_parseLine : (parseLine state raw).reader =
    if isMeta raw then state.reader else state.reader.line raw := by
  unfold parseLine isMeta
  -- The four tests are made in the same order.
  generalize "--- ".toList.isPrefixOf raw = old
  generalize "+++ ".toList.isPrefixOf raw = new
  generalize metaBeginnings.any (·.isPrefixOf raw) = other
  generalize isBinaryDiffer raw = binary
  cases old <;> cases new <;> cases other <;> cases binary <;> rfl

/-- Lines that look like those of a file header do nothing to the hunks. -/
theorem reader_foldl_parseLine (lines : List Text) : (lines.foldl parseLine state).reader =
    (lines.filter (!isMeta ·)).foldl HunkReader.line state.reader := by
  induction lines generalizing state with
  | nil => rfl
  | cons raw lines ih =>
    rw [List.foldl_cons, ih, reader_parseLine]
    -- A line that passes the tests goes to the reader, any other one past it.
    by_cases hmeta : isMeta raw
    · rw [if_pos hmeta, List.filter_cons_of_neg (by simp [hmeta])]
    · rw [if_neg hmeta, List.filter_cons_of_pos (by simp [hmeta]), List.foldl_cons]

/-- A printed line of a hunk is taken for one of a file header if its text is like the rest of
one. -/
theorem isMeta_print : isMeta line.print = true ↔ ¬ line.Kept := by
  cases line with
  | context text => exact iff_of_false Bool.false_ne_true (not_not_intro trivial)
  | noNewline => exact iff_of_false Bool.false_ne_true (not_not_intro trivial)
  | add text =>
    have hmeta : isMeta ('+' :: text.1) = ("++ ".toList.isPrefixOf text.1 || false || false) := rfl
    rw [HunkLine.print, hmeta, Bool.or_false, Bool.or_false, List.isPrefixOf_iff_prefix]
    exact not_not.symm
  | del text =>
    have hmeta : isMeta ('-' :: text.1) =
        ("-- ".toList.isPrefixOf text.1 || false || false || false) := rfl
    rw [HunkLine.print, hmeta, Bool.or_false, Bool.or_false, Bool.or_false,
      List.isPrefixOf_iff_prefix]
    exact not_not.symm

/-! ### The header of a hunk -/

theorem literal_append (word left : Text) : literal word (word ++ left) = some left := by
  rw [literal, if_pos (List.isPrefixOf_iff_prefix.mpr (List.prefix_append word left)),
    List.drop_left]

theorem literal_of_not_prefix {word : Text} (h : ¬ word <+: left) : literal word left = none := by
  rw [literal, if_neg]
  rwa [List.isPrefixOf_iff_prefix]

theorem readDigits_uintText (n : ℕ) (hleft : NoDigit left) :
    readDigits (uintText n ++ left) = some (uintText n, left) := by
  have hdigits := LayoutString.isUint_uintText n
  rw [readDigits, LayoutString.takeWhile_digits hdigits hleft,
    LayoutString.dropWhile_digits hdigits hleft]
  exact if_neg hdigits.1

/-- The texts of a range. -/
def rangeOf (start count : ℕ) : RangeText :=
  ⟨uintText start, if count = 1 then none else some (uintText count)⟩

/-- A range is read up to the blank behind it. -/
theorem readRange_rangeText (start count : ℕ) (hleft : left.head? = some ' ') :
    readRange (rangeText start count ++ left) = some (rangeOf start count, left) := by
  obtain ⟨rest, rfl⟩ : ∃ rest, left = ' ' :: rest := List.head?_eq_some_iff.mp hleft
  have hblank : NoDigit (' ' :: rest) := LayoutString.noDigit_cons rfl
  unfold readRange rangeText rangeOf
  by_cases hone : count = 1
  · rw [if_pos hone, if_pos hone, List.append_nil, readDigits_uintText start hblank]
    rfl
  · have hcomma : NoDigit (',' :: (uintText count ++ ' ' :: rest)) :=
      LayoutString.noDigit_cons rfl
    have hcounted : literal [','] (',' :: (uintText count ++ ' ' :: rest)) =
        some (uintText count ++ ' ' :: rest) := literal_append [','] _
    rw [if_neg hone, if_neg hone, List.append_assoc, List.cons_append,
      readDigits_uintText start hcomma]
    dsimp only
    rw [hcounted]
    dsimp only
    rw [readDigits_uintText count hblank]

theorem matchHunk_of_not_prefix (h : ¬ "@@".toList <+: raw) : matchHunk raw = none := by
  have hnot : ¬ "@@ -".toList <+: raw := by
    intro hbegins
    exact h (List.IsPrefix.trans (by decide) hbegins)
  rw [matchHunk, literal_of_not_prefix hnot]
  rfl

theorem matchHunk_print : matchHunk line.print = none := by
  cases line <;> rfl

/-- A hunk header is recognized if its heading has no line terminator. -/
theorem matchHunk_header (hunk : Hunk) : matchHunk hunk.header =
    if ∀ c ∈ hunk.heading.1, ¬ isLineTerminator c then
      some (rangeOf hunk.oldStart hunk.oldCount, rangeOf hunk.newStart hunk.newCount)
    else none := by
  have hold : ∀ left, readRange (rangeText hunk.oldStart hunk.oldCount ++ (" +".toList ++ left)) =
      some (rangeOf hunk.oldStart hunk.oldCount, " +".toList ++ left) :=
    fun _ => readRange_rangeText _ _ rfl
  have hnew : ∀ left, readRange (rangeText hunk.newStart hunk.newCount ++ (" @@".toList ++ left)) =
      some (rangeOf hunk.newStart hunk.newCount, " @@".toList ++ left) :=
    fun _ => readRange_rangeText _ _ rfl
  have hall : ((if hunk.heading.1 = [] then [] else ' ' :: hunk.heading.1).all
      (!isLineTerminator ·)) = true ↔ ∀ c ∈ hunk.heading.1, ¬ isLineTerminator c := by
    by_cases hnil : hunk.heading.1 = []
    · rw [if_pos hnil, hnil]
      exact iff_of_true rfl nofun
    · have hblank : isLineTerminator ' ' = false := rfl
      rw [if_neg hnil, List.all_cons, hblank]
      simp
  unfold matchHunk Hunk.header
  simp only [Option.bind_eq_bind, literal_append, Option.bind_some, hold, hnew]
  exact if_congr hall rfl rfl

end Lines

/-! ### Numbers -/

section Numbers

/-- A counter that starts in one place shows that many numbers as they are. -/
def Counts (first : Number) (start count : ℕ) : Prop :=
  ∀ j < count, increment^[j] first = asNumber (start + j)

theorem counts_zero (first : Number) (start : ℕ) : Counts first start 0 := by
  intro j hj
  exact absurd hj j.not_lt_zero

theorem counts_succ (first : Number) (start count : ℕ) : Counts first start (count + 1) ↔
    first = asNumber start ∧ Counts (increment first) (start + 1) count := by
  constructor
  · intro h
    refine ⟨h 0 count.succ_pos, fun j hj => ?_⟩
    have hnext := h (j + 1) (Nat.succ_lt_succ hj)
    rwa [Function.iterate_succ_apply, Nat.add_comm j 1, ← Nat.add_assoc] at hnext
  · rintro ⟨hfirst, hrest⟩ j hj
    cases j with
    | zero => exact hfirst
    | succ j =>
      rw [Function.iterate_succ_apply, Nat.add_comm j 1, ← Nat.add_assoc]
      exact hrest j (Nat.lt_of_succ_lt_succ hj)

theorem increment_asNumber (n : ℕ) :
    increment (asNumber n) = Binary64.round ((n + 1 : ℕ) : ℚ) := by
  rw [Nat.cast_add_one]
  rfl

/-- A counter is right as long as all of its numbers are in the format. -/
theorem counts_iff {start count : ℕ} : Counts (asNumber start) start count ↔
    ∀ j < count, 0 < j → Exact (start + j) := by
  constructor
  · intro h j hj hpos
    obtain ⟨i, rfl⟩ := Nat.exists_eq_succ_of_ne_zero hpos.ne'
    have hnext := h (i + 1) hj
    rw [Function.iterate_succ_apply', h i (Nat.lt_of_succ_lt hj), increment_asNumber] at hnext
    exact hnext
  · intro h j hj
    -- The number of this line is the rounded successor of the one before.
    induction j with
    | zero => rfl
    | succ j ih =>
      rw [Function.iterate_succ_apply', ih (Nat.lt_of_succ_lt hj), increment_asNumber]
      exact h (j + 1) hj j.succ_pos

end Numbers

/-! ### One hunk -/

section Hunks

variable {lines : List HunkLine}

/-- A line of a hunk, with the numbers that the counters have. -/
def readLine (oldNum newNum : Number) : HunkLine → PatchLine
  | .context text => ⟨.context, text, some oldNum, some newNum⟩
  | .add text => ⟨.add, text, none, some newNum⟩
  | .del text => ⟨.del, text, some oldNum, none⟩
  | .noNewline => ⟨.metaLine, noNewlineText, none, none⟩

/-- What is read of the lines of a hunk if none of them is lost. -/
def readLines (oldNum newNum : Number) : List HunkLine → List PatchLine
  | [] => []
  | line :: rest => readLine oldNum newNum line ::
    readLines (if line.isOld then increment oldNum else oldNum)
      (if line.isNew then increment newNum else newNum) rest

theorem length_readLines (oldNum newNum : Number) :
    (readLines oldNum newNum lines).length = lines.length := by
  induction lines generalizing oldNum newNum with
  | nil => rfl
  | cons line lines ih => rw [readLines, List.length_cons, ih, List.length_cons]

theorem length_number (oldLine newLine : ℕ) :
    (number oldLine newLine lines).length = lines.length := by
  induction lines generalizing oldLine newLine with
  | nil => rfl
  | cons line lines ih => cases line <;> simp only [number, List.length_cons, ih]

/-- A printed line is pushed, and moves the counters that it has a number of. -/
theorem line_print (current : OpenHunk) (line : HunkLine) : current.line line.print =
    { hunk := current.push (readLine current.oldNum current.newNum line)
      oldNum := if line.isOld then increment current.oldNum else current.oldNum
      newNum := if line.isNew then increment current.newNum else current.newNum } := by
  cases line <;> rfl

theorem foldl_line (current : OpenHunk) :
    ((lines.map (·.print)).foldl OpenHunk.line current).hunk =
      { current.hunk with
        lines := current.hunk.lines ++ readLines current.oldNum current.newNum lines } := by
  induction lines generalizing current with
  | nil => simp [readLines]
  | cons line lines ih =>
    rw [List.map_cons, List.foldl_cons, ih, line_print, readLines]
    simp [OpenHunk.push]

/-- All numbers of the lines are right if both counters are. -/
theorem readLines_eq_iff (oldNum newNum : Number) (oldLine newLine : ℕ) :
    readLines oldNum newNum lines = number oldLine newLine lines ↔
      Counts oldNum oldLine (lines.countP (·.isOld)) ∧
        Counts newNum newLine (lines.countP (·.isNew)) := by
  induction lines generalizing oldNum newNum oldLine newLine with
  | nil => exact iff_of_true rfl ⟨counts_zero _ _, counts_zero _ _⟩
  | cons line lines ih =>
    rw [readLines]
    -- A line takes a number from each counter of a file that it is in.
    cases line with
    | context text =>
      rw [number, List.cons.injEq, List.countP_cons_of_pos rfl, List.countP_cons_of_pos rfl,
        counts_succ, counts_succ, ← and_and_and_comm]
      exact and_congr (by simp [readLine]) (ih _ _ _ _)
    | add text =>
      rw [number, List.cons.injEq, List.countP_cons_of_neg Bool.false_ne_true,
        List.countP_cons_of_pos rfl, counts_succ, and_left_comm]
      exact and_congr (by simp [readLine]) (ih _ _ _ _)
    | del text =>
      rw [number, List.cons.injEq, List.countP_cons_of_pos rfl,
        List.countP_cons_of_neg Bool.false_ne_true, counts_succ, and_assoc]
      exact and_congr (by simp [readLine]) (ih _ _ _ _)
    | noNewline =>
      rw [number, List.cons.injEq, List.countP_cons_of_neg Bool.false_ne_true,
        List.countP_cons_of_neg Bool.false_ne_true]
      exact and_iff_right_of_imp (fun _ => rfl) |>.trans (ih _ _ _ _)

variable {hunk : Hunk} {reader : HunkReader}

/-- The lines that are not taken for lines of a file header. -/
def Hunk.keptLines (hunk : Hunk) : List HunkLine := hunk.lines.filter (!isMeta ·.print)

theorem keptLines_eq_iff : hunk.keptLines = hunk.lines ↔ ∀ line ∈ hunk.lines, line.Kept := by
  rw [Hunk.keptLines, List.filter_eq_self]
  refine forall₂_congr fun line _ => ?_
  rw [Bool.not_eq_true', ← Bool.not_eq_true, isMeta_print, not_not]

/-- What is read of a hunk. -/
def Hunk.read (hunk : Hunk) : PatchHunk where
  header := hunk.header
  oldStart := toNumber (uintText hunk.oldStart)
  oldCount := countNumber (rangeOf hunk.oldStart hunk.oldCount).count
  newStart := toNumber (uintText hunk.newStart)
  newCount := countNumber (rangeOf hunk.newStart hunk.newCount).count
  lines := readLines (toNumber (uintText hunk.oldStart)) (toNumber (uintText hunk.newStart))
    hunk.keptLines

theorem toNumber_eq_iff (n : ℕ) : toNumber (uintText n) = asNumber n ↔ Exact n := by
  have h := LayoutString.toNumber_eq_iff (uintText n)
  rwa [LayoutString.uintValue_uintText] at h

theorem countNumber_eq_iff (start count : ℕ) :
    countNumber (rangeOf start count).count = asNumber count ↔ Exact count := by
  unfold rangeOf countNumber
  by_cases hone : count = 1
  · subst hone
    have hexact : Exact 1 := LayoutString.exact_of_lt (by norm_num)
    exact iff_of_true (congrArg some Nat.cast_one.symm) hexact
  · rw [if_neg hone]
    exact toNumber_eq_iff count

/-- The counter of a file shows its numbers as they are if they are in the format. -/
theorem counts_toNumber {start count : ℕ} (h : Exact start) :
    Counts (toNumber (uintText start)) start count ↔ ∀ n ∈ List.range' start count, Exact n := by
  rw [(toNumber_eq_iff start).mpr h, counts_iff]
  simp only [List.mem_range'_1]
  constructor
  · rintro hcount n ⟨hle, hlt⟩
    obtain ⟨j, rfl⟩ := Nat.exists_eq_add_of_le hle
    rcases Nat.eq_zero_or_pos j with rfl | hpos
    · exact h
    · exact hcount j (by omega) hpos
  · intro hrange j hj _
    exact hrange (start + j) ⟨Nat.le_add_right _ _, by omega⟩

theorem exact_numbers_iff : (∀ n ∈ hunk.numbers, Exact n) ↔
    (Exact hunk.oldStart ∧ Exact hunk.oldCount ∧ Exact hunk.newStart ∧ Exact hunk.newCount) ∧
      (∀ n ∈ List.range' hunk.oldStart hunk.oldCount, Exact n) ∧
      ∀ n ∈ List.range' hunk.newStart hunk.newCount, Exact n := by
  simp only [Hunk.numbers, List.append_assoc, List.forall_mem_append, List.forall_mem_cons]
  simp

/-- **A hunk is read as it was if no line of it is lost and its numbers are in the format.** -/
theorem read_eq_parsed_iff : hunk.read = hunk.parsed ↔
    (∀ line ∈ hunk.lines, line.Kept) ∧ ∀ n ∈ hunk.numbers, Exact n := by
  rw [Hunk.read, Hunk.parsed, PatchHunk.mk.injEq, toNumber_eq_iff, toNumber_eq_iff,
    countNumber_eq_iff, countNumber_eq_iff, exact_numbers_iff, ← keptLines_eq_iff]
  constructor
  · rintro ⟨-, holdStart, holdCount, hnewStart, hnewCount, hlines⟩
    -- A line that is lost is missing in the number of lines.
    have hlength := congrArg List.length hlines
    rw [length_readLines, length_number] at hlength
    have hkept : hunk.keptLines = hunk.lines :=
      List.filter_sublist.eq_of_length hlength
    rw [hkept, readLines_eq_iff, counts_toNumber holdStart, counts_toNumber hnewStart] at hlines
    exact ⟨hkept, ⟨holdStart, holdCount, hnewStart, hnewCount⟩, hlines⟩
  · rintro ⟨hkept, ⟨holdStart, holdCount, hnewStart, hnewCount⟩, hlines⟩
    refine ⟨rfl, holdStart, holdCount, hnewStart, hnewCount, ?_⟩
    rw [hkept, readLines_eq_iff, counts_toNumber holdStart, counts_toNumber hnewStart]
    exact hlines

/-! ### A list of hunks -/

/-- The lines of a hunk go to the hunk that is being read. -/
theorem foldl_lines : (lines.map (·.print)).foldl HunkReader.line reader =
    ⟨reader.done, reader.current.map fun current =>
      (lines.map (·.print)).foldl OpenHunk.line current⟩ := by
  induction lines generalizing reader with
  | nil => cases hcurrent : reader.current <;> simp [← hcurrent]
  | cons line lines ih =>
    rw [List.map_cons, List.foldl_cons, ih, HunkReader.line, matchHunk_print, Option.map_map]
    rfl

theorem length_hunks : reader.hunks.length = reader.done.length + reader.current.toList.length := by
  rw [HunkReader.hunks, List.length_append, List.length_map]

/-- The lines of a hunk that go through. -/
theorem filter_print : hunk.print.filter (!isMeta ·) =
    hunk.header :: hunk.keptLines.map (·.print) := by
  have hheader : isMeta hunk.header = false := rfl
  rw [Hunk.print, List.filter_cons_of_pos (by simp [hheader]), List.filter_map]
  rfl

/-- A hunk whose header is recognized comes behind the ones before. -/
theorem hunks_foldl_print (h : ∀ c ∈ hunk.heading.1, ¬ isLineTerminator c) :
    ((hunk.print.filter (!isMeta ·)).foldl HunkReader.line reader).hunks =
      reader.hunks ++ [hunk.read] := by
  have hheader := matchHunk_header hunk
  rw [if_pos h] at hheader
  rw [filter_print, List.foldl_cons, HunkReader.line, hheader]
  dsimp only
  rw [foldl_lines, HunkReader.hunks, Option.map_some, Option.toList_some, List.map_singleton,
    foldl_line]
  rfl

/-- Any other hunk adds none. -/
theorem length_foldl_print (h : ¬ ∀ c ∈ hunk.heading.1, ¬ isLineTerminator c) :
    ((hunk.print.filter (!isMeta ·)).foldl HunkReader.line reader).hunks.length =
      reader.hunks.length := by
  have hheader := matchHunk_header hunk
  rw [if_neg h] at hheader
  rw [filter_print, List.foldl_cons, HunkReader.line, hheader]
  dsimp only
  rw [foldl_lines, length_hunks, length_hunks]
  cases reader.current <;> rfl

/-- The lines of hunks that go through, one hunk after another. -/
def readHunks (reader : HunkReader) (hunks : List Hunk) : HunkReader :=
  hunks.foldl (fun reader hunk => (hunk.print.filter (!isMeta ·)).foldl HunkReader.line reader)
    reader

theorem hunks_readHunks {hunks : List Hunk}
    (h : ∀ hunk ∈ hunks, ∀ c ∈ hunk.heading.1, ¬ isLineTerminator c) :
    (readHunks reader hunks).hunks = reader.hunks ++ hunks.map (·.read) := by
  induction hunks generalizing reader with
  | nil => exact (List.append_nil _).symm
  | cons hunk hunks ih =>
    rw [readHunks, List.foldl_cons, ← readHunks,
      ih fun later hlater => h later (List.mem_cons_of_mem _ hlater),
      hunks_foldl_print (h hunk List.mem_cons_self), List.append_assoc, List.map_cons,
      List.singleton_append]

theorem length_readHunks_le (hunks : List Hunk) :
    (readHunks reader hunks).hunks.length ≤ reader.hunks.length + hunks.length := by
  induction hunks generalizing reader with
  | nil => exact Nat.le_refl _
  | cons hunk hunks ih =>
    rw [readHunks, List.foldl_cons, ← readHunks]
    refine ih.trans ?_
    by_cases h : ∀ c ∈ hunk.heading.1, ¬ isLineTerminator c
    · rw [hunks_foldl_print h, List.length_append, List.length_cons, List.length_cons]
      simp only [List.length_nil]
      omega
    · rw [length_foldl_print h, List.length_cons]
      omega

/-- There are as many hunks as were printed only if each header is recognized. -/
theorem heading_of_length {hunks : List Hunk}
    (h : (readHunks reader hunks).hunks.length = reader.hunks.length + hunks.length) :
    ∀ hunk ∈ hunks, ∀ c ∈ hunk.heading.1, ¬ isLineTerminator c := by
  induction hunks generalizing reader with
  | nil => exact nofun
  | cons hunk hunks ih =>
    rw [readHunks, List.foldl_cons, ← readHunks, List.length_cons] at h
    have hle := @length_readHunks_le
      ((hunk.print.filter (!isMeta ·)).foldl HunkReader.line reader) hunks
    -- A header that is not recognized is one hunk too few, which no later hunk makes up for.
    have hfirst : ∀ c ∈ hunk.heading.1, ¬ isLineTerminator c := by
      by_contra hbad
      rw [length_foldl_print hbad] at hle
      omega
    have hlater := @ih ((hunk.print.filter (!isMeta ·)).foldl HunkReader.line reader) (by
      rw [h, hunks_foldl_print hfirst, List.length_append, List.length_singleton]
      omega)
    rw [List.forall_mem_cons]
    exact ⟨hfirst, hlater⟩

/-! ### Whole patches -/

theorem newline_notMem_rangeText (start count : ℕ) : '\n' ∉ rangeText start count := by
  have hdigits : ∀ n, '\n' ∉ uintText n := fun n hmem =>
    absurd ((LayoutString.isUint_uintText n).2 _ hmem) (by decide)
  unfold rangeText
  split_ifs
  · simpa using hdigits start
  · simpa using ⟨hdigits start, hdigits count⟩

theorem newline_notMem_header : '\n' ∉ hunk.header := by
  have hheading : '\n' ∉ if hunk.heading.1 = [] then [] else ' ' :: hunk.heading.1 := by
    split_ifs
    · exact List.not_mem_nil
    · simpa using hunk.heading.2
  unfold Hunk.header
  simp only [List.mem_append, not_or]
  exact ⟨by decide, newline_notMem_rangeText _ _, by decide, newline_notMem_rangeText _ _,
    by decide, hheading⟩

theorem newline_notMem_print {line : HunkLine} : '\n' ∉ line.print := by
  cases line with
  | context text => simpa [HunkLine.print] using text.2
  | add text => simpa [HunkLine.print] using text.2
  | del text => simpa [HunkLine.print] using text.2
  | noNewline => decide

/-- Lines in front of all hunks are dropped. -/
theorem foldl_fileHeader {raws : List Text} (h : ∀ raw ∈ raws, ¬ "@@".toList <+: raw) :
    raws.foldl HunkReader.line ⟨[], none⟩ = ⟨[], none⟩ := by
  induction raws with
  | nil => rfl
  | cons raw raws ih =>
    have hfirst : HunkReader.line ⟨[], none⟩ raw = ⟨[], none⟩ := by
      rw [HunkReader.line, matchHunk_of_not_prefix (h raw List.mem_cons_self)]
      rfl
    rw [List.foldl_cons, hfirst, ih fun later hlater => h later (List.mem_cons_of_mem _ hlater)]

theorem line_nil : reader.line [] = reader := by
  have hline : (fun current : OpenHunk => current.line []) = id := rfl
  have hnone : matchHunk [] = none := rfl
  rw [HunkReader.line, hnone, hline]
  dsimp only
  rw [Option.map_id]
  rfl

/-- The patch is read hunk by hunk. -/
theorem hunks_parsePatch (file : FileHeader) (hunks : List Hunk) :
    (parsePatch (printPatch file hunks)).hunks = (readHunks ⟨[], none⟩ hunks).hunks := by
  have hfree : ∀ raw ∈ file.lines.map (·.1) ++ hunks.flatMap (·.print), '\n' ∉ raw := by
    intro raw hraw
    rcases List.mem_append.mp hraw with hfile | hhunk
    · obtain ⟨line, -, rfl⟩ := List.mem_map.mp hfile
      exact line.2
    · obtain ⟨hunk, -, hprint⟩ := List.mem_flatMap.mp hhunk
      rcases List.mem_cons.mp hprint with rfl | hline
      · exact newline_notMem_header
      · obtain ⟨line, -, rfl⟩ := List.mem_map.mp hline
        exact newline_notMem_print
  -- The last newline leaves an empty line behind.
  have hempty : isMeta [] = false := rfl
  have hfile : ((file.lines.map (·.1)).filter (!isMeta ·)).foldl HunkReader.line ⟨[], none⟩ =
      ⟨[], none⟩ := by
    refine foldl_fileHeader fun raw hraw => ?_
    obtain ⟨line, hline, rfl⟩ := List.mem_map.mp (List.mem_of_mem_filter hraw)
    exact file.noHunk line hline
  have hreader : ((printPatch file hunks).splitOn '\n' |>.foldl parseLine {}).reader =
      readHunks ⟨[], none⟩ hunks := by
    rw [printPatch, splitOn_flatMap_append hfree, reader_foldl_parseLine, List.filter_append,
      List.filter_append, List.foldl_append, List.foldl_append, hfile,
      List.filter_cons_of_pos (by simp [hempty]), List.filter_nil, List.foldl_cons, line_nil,
      List.foldl_nil, List.filter_flatMap, List.foldl_flatMap]
    rfl
  exact congrArg HunkReader.hunks hreader

/-- All hunks are readable if they come back. -/
theorem readable_of_parsePatch {file : FileHeader} {hunks : List Hunk}
    (h : (parsePatch (printPatch file hunks)).hunks = hunks.map (·.parsed)) :
    ∀ hunk ∈ hunks, hunk.Readable := by
  rw [hunks_parsePatch] at h
  have hlength : (readHunks ⟨[], none⟩ hunks).hunks.length =
      (HunkReader.hunks ⟨[], none⟩).length + hunks.length := by
    rw [h, List.length_map]
    exact (Nat.zero_add _).symm
  have hheading := heading_of_length hlength
  rw [hunks_readHunks hheading] at h
  intro hunk hhunk
  obtain ⟨hkept, hexact⟩ := read_eq_parsed_iff.mp (List.map_inj_left.mp h hunk hhunk)
  exact ⟨hheading hunk hhunk, hkept, hexact⟩

/-- **What is parsed of a patch are the hunks that it was printed from, with their headers, lines
and numbers, exactly if every hunk is readable**: no deleted text begins with two dashes and a
blank, no added text with two plus signs and a blank, no heading has a line terminator, and the
numbers are in the format. -/
theorem parsePatch_printPatch_iff (file : FileHeader) (hunks : List Hunk) :
    (parsePatch (printPatch file hunks)).hunks = hunks.map (·.parsed) ↔
      ∀ hunk ∈ hunks, hunk.Readable := by
  constructor
  · exact readable_of_parsePatch
  · intro h
    rw [hunks_parsePatch, hunks_readHunks fun hunk hhunk => (h hunk hhunk).heading]
    refine List.map_congr_left fun hunk hhunk => ?_
    exact read_eq_parsed_iff.mpr ⟨(h hunk hhunk).kept, (h hunk hhunk).exact⟩

/-- A deleted comment of two dashes: the line is taken for the name of the old file. -/
def commentHunk : Hunk where
  oldStart := 1
  newStart := 1
  heading := ⟨[], by decide⟩
  lines := [.del ⟨"-- old".toList, by decide⟩, .del ⟨"a".toList, by decide⟩,
    .add ⟨"b".toList, by decide⟩]

theorem not_parsed_comment :
    (parsePatch (printPatch ⟨[], nofun⟩ [commentHunk])).hunks ≠ [commentHunk].map (·.parsed) := by
  intro h
  have hreadable := readable_of_parsePatch h commentHunk List.mem_cons_self
  exact hreadable.kept _ List.mem_cons_self (by decide)

end Hunks

end AgentCockpit.Renderer.ParsePatch
