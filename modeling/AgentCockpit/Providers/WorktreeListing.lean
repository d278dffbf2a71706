import AgentCockpit.Core.Blocks
import AgentCockpit.Core.Trailing
import AgentCockpit.Renderer.TmuxView
import Mathlib

/-!
# The listing of the worktrees

git prints a block of lines for each worktree of a repository. Of a local project the blocks are cut
apart and read one by one. On a remote host the helper reads line by line, and gives an entry out
when the next one begins; the records are made from its entries.

## Main results

* `worktree_listings_agree` — **both listings list the printed worktrees, in their order**
-/

namespace AgentCockpit.Providers.Worktrees

open AgentCockpit.Core (splitBlocks join IsBlock)
open Remote (Text)
open Renderer.TmuxView (isSpace trim)

structure WorktreeRecord where
  path : Text
  branch : Option Text
  head : Text
  locked : Bool
  prunable : Bool
  detached : Bool
  deriving DecidableEq, Repr

/-- The text without a start that it may have. -/
def trimPrefix (start text : Text) : Text := if start <+: text then text.drop start.length else text

/-! ### The local reader -/

/-- What a block is read into. -/
def unread : WorktreeRecord where
  path := []
  branch := none
  head := []
  locked := false
  prunable := false
  detached := false

def readLine (record : WorktreeRecord) (line : Text) : WorktreeRecord :=
  if "worktree ".toList <+: line then
    { record with path := trim (line.drop "worktree ".toList.length) }
  else if "HEAD ".toList <+: line then
    { record with head := trim (line.drop "HEAD ".toList.length) }
  else if line = "detached".toList then { record with detached := true }
  else if "branch ".toList <+: line then
    let ref := trim (line.drop "branch ".toList.length)
    { record with branch := some (trimPrefix "refs/heads/".toList ref) }
  -- With or without a reason.
  else if "locked".toList <+: line then { record with locked := true }
  else if "prunable".toList <+: line then { record with prunable := true }
  else record

def readBlock (block : Text) : Option WorktreeRecord :=
  let record := (block.splitOn '\n').foldl readLine unread
  if record.path ≠ [] then some record else none

def parseWorktreePorcelain (text : Text) : List WorktreeRecord :=
  (((splitBlocks '\n' text).map trim).filter (· ≠ [])).filterMap readBlock

/-! ### The helper on the remote host -/

structure WorktreeEntry where
  path : Text
  branch : Text
  head : Text
  deriving DecidableEq, Repr

/-- The entries given out, and the one that is read. -/
structure EntryReader where
  entries : List WorktreeEntry := []
  cur : WorktreeEntry := ⟨[], [], []⟩
  deriving DecidableEq, Repr

namespace EntryReader

def flush (reader : EntryReader) : EntryReader where
  entries := if reader.cur.path ≠ [] then reader.entries ++ [reader.cur] else reader.entries

def readLine (reader : EntryReader) (text : Text) : EntryReader :=
  let line := text.rdropWhile (· = '\r')
  if "worktree ".toList <+: line then
    { reader.flush with
      cur := { reader.flush.cur with path := trimPrefix "worktree ".toList line } }
  else if "HEAD ".toList <+: line then
    { reader with cur := { reader.cur with head := trimPrefix "HEAD ".toList line } }
  else if "branch ".toList <+: line then
    { reader with
      cur := { reader.cur with
        branch := trimPrefix "refs/heads/".toList (trimPrefix "branch ".toList line) } }
  else if line = "detached".toList then
    { reader with cur := { reader.cur with branch := "(detached)".toList } }
  else reader

end EntryReader

/-- The parameters have been decoded, or not; git is run in the directory. -/
def handleListWorktrees (git : Text → Except String Text) :
    Except String Text → Except String (List WorktreeEntry)
  | .error err => .error ("listWorktrees: decode params: " ++ err)
  | .ok cwd =>
    if cwd = [] then .error "listWorktrees: cwd must not be empty"
    else (git cwd).map fun out => ((out.splitOn '\n').foldl EntryReader.readLine {}).flush.entries

def WorktreeEntry.toRecord (entry : WorktreeEntry) : WorktreeRecord :=
  let detached : Bool := entry.branch = [] ∨ entry.branch = "(detached)".toList
  { path := entry.path
    branch := if detached then none else some entry.branch
    head := entry.head
    locked := false
    prunable := false
    detached := detached }

/-- The records of the remote project. -/
def listWorktrees (git : Text → Except String Text) (remotePath : Text) :
    Except String (List WorktreeRecord) :=
  (handleListWorktrees git (.ok remotePath)).map (·.map WorktreeEntry.toRecord)

/-! ### What git prints -/

/-- A worktree. The reasons for which it is locked or can be pruned may be empty. -/
structure Worktree where
  path : Text
  head : Text
  /-- The name below `refs/heads/`, if the worktree is not detached. -/
  branch : Option Text
  locked : Option Text
  prunable : Option Text
  path_absolute : path.head? = some '/'
  path_newline : '\n' ∉ path
  head_space : ∀ c ∈ head, ¬ isSpace c
  branch_ne : branch ≠ some []
  branch_newline : ∀ name ∈ branch, '\n' ∉ name
  locked_newline : ∀ reason ∈ locked, '\n' ∉ reason
  prunable_newline : ∀ reason ∈ prunable, '\n' ∉ reason

/-- The reason stands behind the keyword. -/
def reasonLine (keyword reason : Text) : Text :=
  if reason = [] then keyword else keyword ++ ' ' :: reason

namespace Worktree

def branchLine (worktree : Worktree) : Text :=
  match worktree.branch with
  | some name => "branch refs/heads/".toList ++ name
  | none => "detached".toList

/-- The lines behind the path and the head. -/
def marks (worktree : Worktree) : List Text :=
  worktree.branchLine :: ((worktree.locked.map (reasonLine "locked".toList)).toList ++
    (worktree.prunable.map (reasonLine "prunable".toList)).toList)

def lines (worktree : Worktree) : List Text :=
  ("worktree ".toList ++ worktree.path) :: ("HEAD ".toList ++ worktree.head) :: worktree.marks

/-- The record that says what the worktree is. -/
def record (worktree : Worktree) : WorktreeRecord where
  path := worktree.path
  branch := worktree.branch
  head := worktree.head
  locked := worktree.locked.isSome
  prunable := worktree.prunable.isSome
  detached := worktree.branch.isNone

end Worktree

/-- The blocks with a blank line between them, and what ends the text. -/
def porcelain (worktrees : List Worktree) (n : ℕ) : Text :=
  ['\n', '\n'].intercalate (worktrees.map fun worktree => join '\n' worktree.lines) ++
    List.replicate n '\n'

/-! ### Trimming -/

variable {text front back : Text}

theorem trim_eq_rdropWhile (h : ∀ c ∈ text.head?, ¬ isSpace c) :
    trim text = text.rdropWhile isSpace := by
  cases text with
  | nil => rfl
  | cons c text =>
    have hc : ¬ isSpace c := h c rfl
    rw [trim, List.dropWhile_cons_of_neg hc]
    rfl

/-- A newline behind a text is trimmed with it. -/
theorem trim_append_newline (text : Text) : trim (text ++ ['\n']) = trim text := by
  have hnewline : isSpace '\n' := by decide
  rw [trim, trim, List.dropWhile_append]
  split
  · next hempty =>
    rw [List.isEmpty_iff.mp hempty]
    rfl
  · exact Core.rdropWhile_append_of_forall fun c hc => List.mem_singleton.mp hc ▸ hnewline

theorem trim_eq_self (h : ∀ c ∈ text, ¬ isSpace c) : trim text = text := by
  rw [trim_eq_rdropWhile fun c hc => h c (List.mem_of_mem_head? hc)]
  exact Core.rdropWhile_eq_self fun c hc => h c (List.mem_of_getLast? hc)

@[simp] theorem trimPrefix_append : trimPrefix front (front ++ back) = back := by
  rw [trimPrefix, if_pos (List.prefix_append _ _), List.drop_left]

/-! ### Lines that are read -/

section Lines

variable {worktree : Worktree} {worktrees : List Worktree} {record : WorktreeRecord}
  {reader : EntryReader} {rest path head name : Text}

theorem readLine_path : readLine record ("worktree ".toList ++ path) =
    { record with path := trim path } := by
  simp [readLine]

theorem readLine_head : readLine record ("HEAD ".toList ++ head) =
    { record with head := trim head } := by
  simp [readLine]

theorem readLine_detached : readLine record "detached".toList =
    { record with detached := true } := by
  simp [readLine]

theorem readLine_branch : readLine record ("branch refs/heads/".toList ++ name) =
    { record with branch := some (name.rdropWhile isSpace) } := by
  have hline : "branch refs/heads/".toList ++ name =
      "branch ".toList ++ ("refs/heads/".toList ++ name) := by simp
  have hhead : ∀ c ∈ ("refs/heads/".toList ++ name).head?, ¬ isSpace c := by simp [isSpace]
  have hlast : ∀ c ∈ "refs/heads/".toList.getLast?, ¬ isSpace c := by simp [isSpace]
  have htrim : trim ("refs/heads/".toList ++ name) =
      "refs/heads/".toList ++ name.rdropWhile isSpace := by
    rw [trim_eq_rdropWhile hhead, Core.rdropWhile_append hlast]
  have hread : readLine record ("branch ".toList ++ ("refs/heads/".toList ++ name)) =
      { record with branch := some (trimPrefix "refs/heads/".toList
        (trim ("refs/heads/".toList ++ name))) } := by
    simp [readLine]
  rw [hline, hread, htrim, trimPrefix_append]

theorem readLine_locked : readLine record ("locked".toList ++ rest) =
    { record with locked := true } := by
  simp [readLine]

theorem readLine_prunable : readLine record ("prunable".toList ++ rest) =
    { record with prunable := true } := by
  simp [readLine]

theorem exists_reasonLine_eq (keyword reason : Text) :
    ∃ rest, reasonLine keyword reason = keyword ++ rest := by
  rw [reasonLine]
  split
  · exact ⟨[], (List.append_nil keyword).symm⟩
  · exact ⟨' ' :: reason, rfl⟩

theorem exists_eq_of_mem_reasonLine {keyword line : Text} {reason : Option Text}
    (h : line ∈ (reason.map (reasonLine keyword)).toList) : ∃ rest, line = keyword ++ rest := by
  obtain ⟨text, -, rfl⟩ := Option.map_eq_some_iff.mp (Option.mem_toList.mp h)
  exact exists_reasonLine_eq keyword text

theorem newline_notMem_of_mem_reasonLine {keyword line : Text} {reason : Option Text}
    (hkeyword : '\n' ∉ keyword) (hfree : ∀ text ∈ reason, '\n' ∉ text)
    (h : line ∈ (reason.map (reasonLine keyword)).toList) : '\n' ∉ line := by
  obtain ⟨text, htext, rfl⟩ := Option.map_eq_some_iff.mp (Option.mem_toList.mp h)
  rw [reasonLine]
  split
  · exact hkeyword
  · simp [hkeyword, hfree text htext]

/-- The reason changes nothing. -/
theorem foldl_reasonLine {keyword : Text} {mark : WorktreeRecord → WorktreeRecord}
    (hread : ∀ record rest, readLine record (keyword ++ rest) = mark record)
    (reason : Option Text) : (reason.map (reasonLine keyword)).toList.foldl readLine record =
      if reason.isSome then mark record else record := by
  cases reason with
  | none => rfl
  | some reason =>
    obtain ⟨rest, hrest⟩ := exists_reasonLine_eq keyword reason
    exact (congrArg (readLine record) hrest).trans (hread record rest)

end Lines

/-! ### Blocks -/

namespace Worktree

variable {worktree : Worktree} {worktrees : List Worktree} {record : WorktreeRecord} {line : Text}

/-- A path does not go with what is behind it. -/
theorem rdropWhile_path_ne (worktree : Worktree) {p : Char → Bool} (hp : ¬ p '/') :
    worktree.path.rdropWhile p ≠ [] := fun hnil =>
  hp (List.rdropWhile_eq_nil_iff.mp hnil '/' (List.mem_of_mem_head? worktree.path_absolute))

/-- What the local reader makes of a worktree. -/
def localRecord (worktree : Worktree) : WorktreeRecord :=
  { worktree.record with
    path := worktree.path.rdropWhile isSpace
    branch := worktree.branch.map (·.rdropWhile isSpace) }

theorem readLine_branchLine (hbranch : record.branch = none) (hdetached : record.detached = false) :
    readLine record worktree.branchLine =
      { record with
        branch := worktree.branch.map (·.rdropWhile isSpace)
        detached := worktree.branch.isNone } := by
  rw [branchLine]
  cases worktree.branch with
  | none =>
    refine readLine_detached.trans ?_
    rw [Option.map_none, Option.isNone_none, ← hbranch]
  | some name =>
    refine readLine_branch.trans ?_
    rw [Option.isNone_some, ← hdetached]
    rfl

theorem foldl_readLine_lines : worktree.lines.foldl readLine unread = worktree.localRecord := by
  have hslash : ∀ c ∈ worktree.path.head?, ¬ isSpace c := by
    rw [worktree.path_absolute]
    simp [isSpace]
  have hbranch : readLine
      { unread with path := worktree.path.rdropWhile isSpace, head := worktree.head }
        worktree.branchLine =
      { unread with
        path := worktree.path.rdropWhile isSpace
        head := worktree.head
        branch := worktree.branch.map (·.rdropWhile isSpace)
        detached := worktree.branch.isNone } := readLine_branchLine rfl rfl
  rw [lines, List.foldl_cons, List.foldl_cons, readLine_path, readLine_head,
    trim_eq_rdropWhile hslash, trim_eq_self worktree.head_space, marks, List.foldl_cons, hbranch,
    List.foldl_append, foldl_reasonLine fun _ _ => readLine_locked,
    foldl_reasonLine fun _ _ => readLine_prunable, localRecord, Worktree.record]
  cases worktree.locked <;> cases worktree.prunable <;> rfl

/-- White space behind a line does not change how it is read. -/
theorem readLine_rdropWhile (h : line ∈ worktree.marks) (record : WorktreeRecord) :
    readLine record (line.rdropWhile isSpace) = readLine record line := by
  rcases List.mem_cons.mp h with rfl | hmark
  · rw [branchLine]
    cases worktree.branch with
    | none => rfl
    | some name =>
      have hlast : ∀ c ∈ "branch refs/heads/".toList.getLast?, ¬ isSpace c := by simp [isSpace]
      rw [Core.rdropWhile_append hlast, readLine_branch, readLine_branch,
        Core.rdropWhile_rdropWhile fun _ hc => hc]
  · rcases List.mem_append.mp hmark with hlocked | hprunable
    · obtain ⟨rest, rfl⟩ := exists_eq_of_mem_reasonLine hlocked
      have hlast : ∀ c ∈ "locked".toList.getLast?, ¬ isSpace c := by simp [isSpace]
      rw [Core.rdropWhile_append hlast, readLine_locked, readLine_locked]
    · obtain ⟨rest, rfl⟩ := exists_eq_of_mem_reasonLine hprunable
      have hlast : ∀ c ∈ "prunable".toList.getLast?, ¬ isSpace c := by simp [isSpace]
      rw [Core.rdropWhile_append hlast, readLine_prunable, readLine_prunable]

/-- A mark begins with a letter. -/
theorem exists_not_isSpace (h : line ∈ worktree.marks) : ∃ c ∈ line, ¬ isSpace c := by
  rcases List.mem_cons.mp h with rfl | hmark
  · rw [branchLine]
    cases worktree.branch with
    | none => exact ⟨'d', by simp, by simp [isSpace]⟩
    | some name => exact ⟨'b', by simp, by simp [isSpace]⟩
  · rcases List.mem_append.mp hmark with hlocked | hprunable
    · obtain ⟨rest, rfl⟩ := exists_eq_of_mem_reasonLine hlocked
      exact ⟨'l', by simp, by simp [isSpace]⟩
    · obtain ⟨rest, rfl⟩ := exists_eq_of_mem_reasonLine hprunable
      exact ⟨'p', by simp, by simp [isSpace]⟩

theorem newline_notMem_lines (h : line ∈ worktree.lines) : '\n' ∉ line := by
  have hspace : isSpace '\n' = true := by decide
  rw [lines, marks, branchLine] at h
  rcases List.mem_cons.mp h with rfl | h
  · simpa using worktree.path_newline
  rcases List.mem_cons.mp h with rfl | h
  · have hhead : '\n' ∉ worktree.head := fun hmem => worktree.head_space _ hmem hspace
    simpa using hhead
  rcases List.mem_cons.mp h with rfl | h
  · have hname := worktree.branch_newline
    cases hbranch : worktree.branch with
    | none => simp
    | some name => simpa using hname name hbranch
  · rcases List.mem_append.mp h with hlocked | hprunable
    · exact newline_notMem_of_mem_reasonLine (by simp) worktree.locked_newline hlocked
    · exact newline_notMem_of_mem_reasonLine (by simp) worktree.prunable_newline hprunable

theorem nil_notMem_lines : [] ∉ worktree.lines := by
  intro h
  rcases List.mem_cons.mp h with hpath | h
  · simp at hpath
  rcases List.mem_cons.mp h with hhead | h
  · simp at hhead
  · obtain ⟨c, hc, -⟩ := exists_not_isSpace h
    exact List.not_mem_nil hc

theorem isBlock_lines : IsBlock '\n' (join '\n' worktree.lines) :=
  Core.isBlock_join (fun _ => newline_notMem_lines) nil_notMem_lines (List.cons_ne_nil _ _)

/-- Only the last line of a block is trimmed. -/
theorem trim_lines : ∃ (front : List Text) (last : Text), worktree.lines = front ++ [last] ∧
    last ∈ worktree.marks ∧
      trim (join '\n' worktree.lines) = join '\n' (front ++ [last.rdropWhile isSpace]) := by
  obtain ⟨front, last, hmarks⟩ : ∃ front last, worktree.marks = front ++ [last] :=
    ⟨_, _, (List.dropLast_append_getLast (List.cons_ne_nil _ _)).symm⟩
  have hmem : last ∈ worktree.marks := hmarks ▸ List.mem_append_right _ List.mem_cons_self
  have hlines : worktree.lines =
      (("worktree ".toList ++ worktree.path) :: ("HEAD ".toList ++ worktree.head) :: front) ++
        [last] := by
    rw [lines, hmarks]
    rfl
  refine ⟨_, last, hlines, hmem, ?_⟩
  have hne : ("worktree ".toList ++ worktree.path) :: ("HEAD ".toList ++ worktree.head) :: front ≠
      [] := List.cons_ne_nil _ _
  have hhead : ∀ c ∈ (join '\n' worktree.lines).head?, ¬ isSpace c := by
    rw [lines, marks]
    simp [isSpace]
  -- the last line has a character that stays, so the trimming ends in it
  rw [trim_eq_rdropWhile hhead, hlines, Core.join_append hne (List.cons_ne_nil _ _),
    Core.join_append hne (List.cons_ne_nil _ _), Core.join_singleton, Core.join_singleton,
    List.append_cons _ _ last, List.append_cons _ _ (last.rdropWhile isSpace),
    Core.rdropWhile_append_of_exists (exists_not_isSpace hmem)]

theorem readBlock_lines :
    readBlock (trim (join '\n' worktree.lines)) = some worktree.localRecord := by
  obtain ⟨front, last, hlines, hlast, htrim⟩ := worktree.trim_lines
  have hfree : ∀ line ∈ front ++ [last.rdropWhile isSpace], '\n' ∉ line := by
    intro line hline
    rcases List.mem_append.mp hline with hfront | hsingle
    · exact newline_notMem_lines (hlines ▸ List.mem_append_left _ hfront)
    · have hnewline : '\n' ∉ last :=
        newline_notMem_lines (hlines ▸ List.mem_append_right _ List.mem_cons_self)
      rw [List.mem_singleton.mp hsingle]
      exact fun hmem => hnewline ((List.rdropWhile_prefix _ _).subset hmem)
  have hne : front ++ [last.rdropWhile isSpace] ≠ [] := by simp
  have hrecord : ((trim (join '\n' worktree.lines)).splitOn '\n').foldl readLine unread =
      worktree.localRecord := by
    rw [htrim, Core.splitOn_join hfree hne, List.foldl_append, List.foldl_cons, List.foldl_nil,
      readLine_rdropWhile hlast, ← foldl_readLine_lines, hlines, List.foldl_append,
      List.foldl_cons, List.foldl_nil]
  have hpath : worktree.localRecord.path ≠ [] := worktree.rdropWhile_path_ne (by decide)
  rw [readBlock, hrecord, if_pos hpath]

end Worktree

variable {worktrees : List Worktree}

theorem readBlock_nil : readBlock [] = none := by
  simp [readBlock, readLine, unread]

/-- Blocks that are empty when trimmed are not read anyway. -/
theorem parseWorktreePorcelain_eq (text : Text) : parseWorktreePorcelain text =
    (splitBlocks '\n' text).filterMap (readBlock ∘ trim) := by
  rw [parseWorktreePorcelain, List.filterMap_filter, List.filterMap_map]
  refine List.filterMap_congr fun block _ => ?_
  by_cases hblock : trim block = []
  · simp [hblock, readBlock_nil]
  · simp [hblock]

theorem parse_porcelain (worktrees : List Worktree) (n : ℕ) :
    parseWorktreePorcelain (porcelain worktrees n) = worktrees.map Worktree.localRecord := by
  have hnil : (readBlock ∘ trim) [] = none := readBlock_nil
  have hsep : ∀ block, (readBlock ∘ trim) (block ++ ['\n']) = (readBlock ∘ trim) block :=
    fun block => congrArg readBlock (trim_append_newline block)
  have hblocks : ∀ block ∈ worktrees.map fun worktree => join '\n' worktree.lines,
      IsBlock '\n' block := by
    intro block hblock
    obtain ⟨worktree, -, rfl⟩ := List.mem_map.mp hblock
    exact worktree.isBlock_lines
  have hne : [] ∉ worktrees.map fun worktree => join '\n' worktree.lines := by
    intro hmem
    obtain ⟨worktree, -, hempty⟩ := List.mem_map.mp hmem
    simp [Worktree.lines, Worktree.marks] at hempty
  rw [parseWorktreePorcelain_eq, porcelain, Core.filterMap_splitBlocks hnil hsep hblocks hne,
    List.filterMap_map]
  exact List.filterMap_eq_map_iff_forall_eq_some.mpr fun worktree _ => worktree.readBlock_lines

/-! ### Entries -/

section Entries

variable {reader : EntryReader} {rest path head name : Text}

/-- The entry that the helper makes of a worktree. -/
def Worktree.entry (worktree : Worktree) : WorktreeEntry where
  path := worktree.path.rdropWhile (· = '\r')
  branch := (worktree.branch.map (·.rdropWhile (· = '\r'))).getD "(detached)".toList
  head := worktree.head

namespace EntryReader

theorem readLine_nil : reader.readLine [] = reader := by
  simp [readLine]

theorem readLine_path : reader.readLine ("worktree ".toList ++ path) =
    { reader.flush with
      cur := { path := path.rdropWhile (· = '\r'), branch := [], head := [] } } := by
  have hlast : ∀ c ∈ "worktree ".toList.getLast?, ¬ decide (c = '\r') := by simp
  rw [readLine, Core.rdropWhile_append hlast, if_pos (List.prefix_append _ _), trimPrefix_append]
  rfl

theorem readLine_head (hhead : ∀ c ∈ head, ¬ isSpace c) :
    reader.readLine ("HEAD ".toList ++ head) =
      { reader with cur := { reader.cur with head := head } } := by
  have hlast : ∀ c ∈ "HEAD ".toList.getLast?, ¬ decide (c = '\r') := by simp
  have hreturn : isSpace '\r' = true := by decide
  have hself : head.rdropWhile (· = '\r') = head :=
    Core.rdropWhile_eq_self fun c hc heq =>
      hhead c (List.mem_of_getLast? hc) (of_decide_eq_true heq ▸ hreturn)
  have hother : ¬ "worktree ".toList <+: "HEAD ".toList ++ head := by simp
  rw [readLine, Core.rdropWhile_append hlast, hself, if_neg hother,
    if_pos (List.prefix_append _ _), trimPrefix_append]

theorem readLine_branch : reader.readLine ("branch refs/heads/".toList ++ name) =
    { reader with cur := { reader.cur with branch := name.rdropWhile (· = '\r') } } := by
  have hlast : ∀ c ∈ "branch refs/heads/".toList.getLast?, ¬ decide (c = '\r') := by simp
  have hline : "branch refs/heads/".toList ++ name.rdropWhile (· = '\r') =
      "branch ".toList ++ ("refs/heads/".toList ++ name.rdropWhile (· = '\r')) := by simp
  rw [readLine, Core.rdropWhile_append hlast, hline, if_neg (by simp), if_neg (by simp),
    if_pos (List.prefix_append _ _), trimPrefix_append, trimPrefix_append]

theorem readLine_detached : reader.readLine "detached".toList =
    { reader with cur := { reader.cur with branch := "(detached)".toList } } := by
  have hself : "detached".toList.rdropWhile (· = '\r') = "detached".toList := rfl
  rw [readLine, hself, if_neg (by simp), if_neg (by simp), if_neg (by simp), if_pos rfl]

/-- The helper passes over lines that it does not know. -/
theorem readLine_mark {keyword : Text}
    (hkeyword : keyword = "locked".toList ∨ keyword = "prunable".toList) :
    reader.readLine (keyword ++ rest) = reader := by
  have hlast : ∀ c ∈ keyword.getLast?, ¬ decide (c = '\r') := by
    rcases hkeyword with rfl | rfl <;> simp
  rw [readLine, Core.rdropWhile_append hlast]
  rcases hkeyword with rfl | rfl <;> simp

/-- The reason is not read either. -/
theorem foldl_reasonLine {keyword : Text}
    (hkeyword : keyword = "locked".toList ∨ keyword = "prunable".toList) (reason : Option Text) :
    (reason.map (reasonLine keyword)).toList.foldl readLine reader = reader := by
  cases reason with
  | none => rfl
  | some reason =>
    obtain ⟨rest, hrest⟩ := exists_reasonLine_eq keyword reason
    exact (congrArg reader.readLine hrest).trans (readLine_mark hkeyword)

/-- The lines of a worktree begin a new entry. -/
theorem foldl_readLine_lines (worktree : Worktree) : worktree.lines.foldl readLine reader =
    { entries := reader.flush.entries, cur := worktree.entry } := by
  have hbranch : ∀ start : EntryReader, start.readLine worktree.branchLine =
      { start with cur := { start.cur with branch := worktree.entry.branch } } := by
    intro start
    rw [Worktree.branchLine, Worktree.entry]
    cases worktree.branch with
    | none => exact readLine_detached
    | some name => exact readLine_branch
  rw [Worktree.lines, List.foldl_cons, List.foldl_cons, readLine_path,
    readLine_head worktree.head_space, Worktree.marks, List.foldl_cons, hbranch,
    List.foldl_append, foldl_reasonLine (.inl rfl), foldl_reasonLine (.inr rfl)]
  rfl

/-- The worktrees that are read come behind the entries that are there. -/
theorem flush_foldl_readLine (worktrees : List Worktree) (reader : EntryReader) :
    ((worktrees.map Worktree.lines).flatten.foldl readLine reader).flush.entries =
      reader.flush.entries ++ worktrees.map Worktree.entry := by
  induction worktrees generalizing reader with
  | nil => simp
  | cons worktree worktrees ih =>
    have hflush : ({ entries := reader.flush.entries, cur := worktree.entry } :
        EntryReader).flush.entries = reader.flush.entries ++ [worktree.entry] :=
      if_pos (worktree.rdropWhile_path_ne (by decide))
    rw [List.map_cons, List.flatten_cons, List.foldl_append, foldl_readLine_lines, ih, hflush,
      List.append_assoc]
    rfl

end EntryReader

end Entries

/-! ### Both listings -/

namespace Worktree

variable {worktree : Worktree}

/-- The path and the name of the branch do not end in white space, and the branch does not have the
name by which the helper says that there is none. -/
structure Plain (worktree : Worktree) : Prop where
  path : ∀ c ∈ worktree.path.getLast?, ¬ isSpace c
  branch : ∀ name ∈ worktree.branch, ∀ c ∈ name.getLast?, ¬ isSpace c
  named : worktree.branch ≠ some "(detached)".toList

/-- A record lists the worktree. What it says of a path or a branch that is not plain is left
open. -/
structure Lists (worktree : Worktree) (locked prunable : Bool) (record : WorktreeRecord) :
    Prop where
  head : record.head = worktree.head
  locked : record.locked = locked
  prunable : record.prunable = prunable
  plain : worktree.Plain → record.path = worktree.path ∧ record.branch = worktree.branch ∧
    record.detached = worktree.branch.isNone

theorem Lists.eq_record {locked prunable : Bool} {record : WorktreeRecord}
    (h : worktree.Lists locked prunable record) (hplain : worktree.Plain) :
    record = { worktree.record with locked := locked, prunable := prunable } := by
  obtain ⟨hhead, hlocked, hprunable, hplainly⟩ := h
  obtain ⟨hpath, hbranch, hdetached⟩ := hplainly hplain
  cases record
  rw [WorktreeRecord.mk.injEq]
  exact ⟨hpath, hbranch, hhead, hlocked, hprunable, hdetached⟩

theorem lists_localRecord (worktree : Worktree) :
    worktree.Lists worktree.locked.isSome worktree.prunable.isSome worktree.localRecord where
  head := rfl
  locked := rfl
  prunable := rfl
  plain hplain := by
    have hbranch : worktree.branch.map (·.rdropWhile isSpace) = worktree.branch.map id :=
      Option.map_congr fun name hname => Core.rdropWhile_eq_self (hplain.branch name hname)
    rw [Option.map_id_fun, id_eq] at hbranch
    exact ⟨Core.rdropWhile_eq_self hplain.path, hbranch, rfl⟩

theorem lists_toRecord_entry (worktree : Worktree) :
    worktree.Lists false false worktree.entry.toRecord where
  head := rfl
  locked := rfl
  prunable := rfl
  plain hplain := by
    -- the helper takes carriage returns off, in which no plain path or branch ends
    have hreturn : isSpace '\r' = true := by decide
    have hself : ∀ {text : Text}, (∀ c ∈ text.getLast?, ¬ isSpace c) →
        text.rdropWhile (· = '\r') = text := fun hlast =>
      Core.rdropWhile_eq_self fun c hc heq => hlast c hc (of_decide_eq_true heq ▸ hreturn)
    refine ⟨hself hplain.path, ?_⟩
    cases hbranch : worktree.branch with
    | none => simp [entry, WorktreeEntry.toRecord, hbranch]
    | some name =>
      have hname := hself (hplain.branch name hbranch)
      have hne : name ≠ [] := fun hnil => worktree.branch_ne (hnil ▸ hbranch)
      have hnamed : name ≠ "(detached)".toList := fun heq => hplain.named (heq ▸ hbranch)
      have hdetached : ¬ (name = [] ∨ name = "(detached)".toList) := not_or.mpr ⟨hne, hnamed⟩
      rw [entry, WorktreeEntry.toRecord, hbranch, Option.map_some, Option.getD_some, hname,
        decide_eq_false hdetached]
      exact ⟨rfl, rfl⟩

end Worktree

variable {git : Text → Except String Text} {cwd : Text} {worktrees : List Worktree} {n : ℕ}

/-- **The helper gives the worktrees out one by one.** -/
theorem handleListWorktrees_porcelain (hcwd : cwd ≠ [])
    (hgit : git cwd = .ok (porcelain worktrees n)) :
    handleListWorktrees git (.ok cwd) = .ok (worktrees.map Worktree.entry) := by
  have hfree : ∀ page ∈ worktrees.map Worktree.lines, ∀ line ∈ page, '\n' ∉ line := by
    intro page hpage line hline
    obtain ⟨worktree, -, rfl⟩ := List.mem_map.mp hpage
    exact Worktree.newline_notMem_lines hline
  have htext : porcelain worktrees n =
      ['\n', '\n'].intercalate ((worktrees.map Worktree.lines).map (join '\n')) ++
        List.replicate n '\n' := by
    rw [List.map_map]
    rfl
  have hread : ((porcelain worktrees n).splitOn '\n').foldl EntryReader.readLine {} =
      (worktrees.map Worktree.lines).flatten.foldl EntryReader.readLine {} :=
    htext ▸ Core.foldl_splitOn_blocks (fun _ => EntryReader.readLine_nil) hfree n {}
  rw [handleListWorktrees, if_neg hcwd, hgit]
  simp only [Except.map, hread, EntryReader.flush_foldl_readLine]
  rfl

/-- **The local and the remote listing agree**, but that no remote worktree is locked or can be
pruned. -/
theorem worktree_listings_agree (hcwd : cwd ≠ [])
    (hgit : git cwd = .ok (porcelain worktrees n)) :
    List.Forall₂
        (fun worktree => worktree.Lists worktree.locked.isSome worktree.prunable.isSome)
        worktrees (parseWorktreePorcelain (porcelain worktrees n)) ∧
      ∃ records, listWorktrees git cwd = .ok records ∧
        List.Forall₂ (fun worktree => worktree.Lists false false) worktrees records := by
  constructor
  · rw [parse_porcelain, List.forall₂_map_right_iff, List.forall₂_same]
    exact fun worktree _ => worktree.lists_localRecord
  · refine ⟨(worktrees.map Worktree.entry).map WorktreeEntry.toRecord, ?_, ?_⟩
    · rw [listWorktrees, handleListWorktrees_porcelain hcwd hgit]
      rfl
    · rw [List.map_map, List.forall₂_map_right_iff, List.forall₂_same]
      exact fun worktree _ => worktree.lists_toRecord_entry

/-- A worktree on a branch. -/
def mainWorktree : Worktree where
  path := "/repo".toList
  head := "4b825dc".toList
  branch := some "main".toList
  locked := none
  prunable := none
  path_absolute := by decide
  path_newline := by decide
  head_space c hc := by
    have hall : "4b825dc".toList.all (! isSpace ·) = true := by decide
    simpa using List.all_eq_true.mp hall c hc
  branch_ne := by decide
  branch_newline := by simp
  locked_newline := by simp
  prunable_newline := by simp

/-- A detached worktree that is locked and can be pruned. -/
def lockedWorktree : Worktree where
  path := "/media/disk 1".toList
  head := "e69de29".toList
  branch := none
  locked := some "on a disk".toList
  prunable := some []
  path_absolute := by decide
  path_newline := by decide
  head_space c hc := by
    have hall : "e69de29".toList.all (! isSpace ·) = true := by decide
    simpa using List.all_eq_true.mp hall c hc
  branch_ne := by decide
  branch_newline := by simp
  locked_newline := by simp
  prunable_newline := by simp

theorem mainWorktree_plain : mainWorktree.Plain where
  path c hc := by
    have hlast : mainWorktree.path.getLast? = some 'o' := by decide
    rw [← Option.some.inj (hlast.symm.trans hc)]
    decide
  branch := by simp [mainWorktree, isSpace]
  named := by decide

theorem lockedWorktree_plain : lockedWorktree.Plain where
  path c hc := by
    have hlast : lockedWorktree.path.getLast? = some '1' := by decide
    rw [← Option.some.inj (hlast.symm.trans hc)]
    decide
  branch _ hname := by cases hname
  named := by decide

/-- git in a repository with both. -/
def repoGit : Text → Except String Text :=
  fun _ => .ok (porcelain [mainWorktree, lockedWorktree] 2)

theorem worktree_listings_agree_main_locked :
    parseWorktreePorcelain (porcelain [mainWorktree, lockedWorktree] 2) =
        [mainWorktree.record, lockedWorktree.record] ∧
      listWorktrees repoGit "/repo".toList =
        .ok [mainWorktree.record,
          { lockedWorktree.record with locked := false, prunable := false }] := by
  have hcwd : "/repo".toList ≠ [] := by decide
  have hgit : repoGit "/repo".toList = .ok (porcelain [mainWorktree, lockedWorktree] 2) := rfl
  obtain ⟨hlocal, records, hremote, hrecords⟩ := worktree_listings_agree hcwd hgit
  obtain ⟨first, _, hfirst, htail, hlist⟩ := List.forall₂_cons_left_iff.mp hlocal
  obtain ⟨second, _, hsecond, hnil, rfl⟩ := List.forall₂_cons_left_iff.mp htail
  obtain ⟨third, _, hthird, hremoteTail, rfl⟩ := List.forall₂_cons_left_iff.mp hrecords
  obtain ⟨fourth, _, hfourth, hremoteNil, rfl⟩ := List.forall₂_cons_left_iff.mp hremoteTail
  rw [hlist, hremote, hfirst.eq_record mainWorktree_plain, hsecond.eq_record lockedWorktree_plain,
    hthird.eq_record mainWorktree_plain, hfourth.eq_record lockedWorktree_plain,
    List.forall₂_nil_left_iff.mp hnil, List.forall₂_nil_left_iff.mp hremoteNil]
  exact ⟨rfl, rfl⟩

/-- The remote listing does not say that a worktree is locked. -/
theorem not_worktree_listings_agree_locked :
    ¬ ∀ (git : Text → Except String Text) (cwd : Text) (worktrees : List Worktree) (n : ℕ),
      cwd ≠ [] → git cwd = .ok (porcelain worktrees n) →
        listWorktrees git cwd = .ok (parseWorktreePorcelain (porcelain worktrees n)) ∧
          parseWorktreePorcelain (porcelain worktrees n) = worktrees.map Worktree.record := by
  intro h
  have hcwd : "/repo".toList ≠ [] := by decide
  have hagree := h (fun _ => .ok (porcelain [lockedWorktree] 2)) "/repo".toList [lockedWorktree] 2
    hcwd rfl
  rw [hagree.2, listWorktrees, handleListWorktrees_porcelain hcwd rfl] at hagree
  have hlocked : lockedWorktree.entry.toRecord.locked = lockedWorktree.record.locked :=
    congrArg WorktreeRecord.locked (List.cons.inj (Except.ok.inj hagree.1)).1
  exact absurd hlocked (by decide)

end AgentCockpit.Providers.Worktrees
