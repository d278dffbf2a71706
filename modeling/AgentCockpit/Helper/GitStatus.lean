import Mathlib.Data.List.Infix

/-!
# Working-tree status of a remote repository

The helper lists the files of a working tree that git reports as changed, and with a baseline also
the files that differ from it. Both reports are sequences of fields that end in a NUL. A renamed or
copied file takes two fields for its paths in either report, the new path first in a status report
and the old path first in a name-status report. The baseline loop knows this; the status loop
reads the field of an old path as a record of its own.
-/

namespace AgentCockpit.Helper

/-- Bytes that git prints. -/
abbrev GitText := List UInt8

def ascii (text : String) : GitText := text.toList.map fun c => .ofNat c.toNat

/-! ### The helper -/

/-- The characters that are white space, in UTF-8. -/
def whiteSpace : List GitText :=
  [[0x09], [0x0a], [0x0b], [0x0c], [0x0d], [0x20], [0xc2, 0x85], [0xc2, 0xa0],
      [0xe1, 0x9a, 0x80]] ++
    ([0x80, 0x81, 0x82, 0x83, 0x84, 0x85, 0x86, 0x87, 0x88, 0x89, 0x8a, 0xa8, 0xa9, 0xaf].map
      fun last => [0xe2, 0x80, last]) ++
    [[0xe2, 0x81, 0x9f], [0xe3, 0x80, 0x80]]

/-- Drop the given characters at the front; the first `skip` bytes belong to one of them. -/
def dropLeading (characters : List GitText) : ℕ → GitText → GitText
  | _, [] => []
  | skip + 1, _ :: rest => dropLeading characters skip rest
  | 0, byte :: rest =>
    match characters.find? (·.isPrefixOf (byte :: rest)) with
    | some character => dropLeading characters (character.length - 1) rest
    | none => byte :: rest

def trimSpace (text : GitText) : GitText :=
  (dropLeading (whiteSpace.map List.reverse) 0 (dropLeading whiteSpace 0 text).reverse).reverse

/-- The records of a text, without the empty one behind a last NUL. -/
def splitNUL (text : GitText) : List GitText :=
  if text = [] then []
  else
    let parts := text.splitOn 0
    if parts.getLast? = some [] then parts.dropLast else parts

structure StatusEntry where
  path : GitText
  status : GitText
  deriving DecidableEq, Repr

def containsPath (entries : List StatusEntry) (path : GitText) : Bool :=
  entries.any fun entry => entry.path == path

/-- A record of the status report, `XY` and a path behind a blank. -/
def readRecord (record : GitText) : Option StatusEntry :=
  if record.length < 4 then none else some ⟨record.drop 3, trimSpace (record.take 2)⟩

/-- The code of a renamed or copied file. -/
def carriesOldPath (code : GitText) : Bool :=
  (ascii "R").isPrefixOf code || (ascii "C").isPrefixOf code

def addEntry (entries : List StatusEntry) (path code : GitText) : List StatusEntry :=
  if containsPath entries path then entries else entries ++ [⟨path, code⟩]

/-- The loop over the fields of the name-status report. -/
def addBaseline (entries : List StatusEntry) : List GitText → List StatusEntry
  | field :: path :: rest =>
    if carriesOldPath (trimSpace field) then
      match rest with
      | renamed :: rest => addBaseline (addEntry entries renamed (trimSpace field)) rest
      | [] => addEntry entries path (trimSpace field)
    else addBaseline (addEntry entries path (trimSpace field)) rest
  | _ => entries

structure GitStatusParams where
  cwd : GitText
  baseline : GitText := []
  deriving DecidableEq, Repr

/-- A command with its arguments, run in a directory. -/
abbrev RunCommand := GitText → List GitText → Except GitText GitText

def statusCommand : List GitText :=
  [ascii "git", ascii "status", ascii "--porcelain", ascii "-z", ascii "--untracked-files=all"]

def diffCommand (baseline : GitText) : List GitText :=
  [ascii "git", ascii "diff", ascii "--name-status", ascii "-z", baseline]

def handleGitStatus (runCommand : RunCommand) (p : GitStatusParams) :
    Except GitText (List StatusEntry) :=
  if p.cwd = [] then .error (ascii "gitStatus: cwd must not be empty")
  else do
    let out ← runCommand p.cwd statusCommand
    let entries := (splitNUL out).filterMap readRecord
    if p.baseline = [] then return entries
    else
      let diffOut ← runCommand p.cwd (diffCommand p.baseline)
      return addBaseline entries (splitNUL diffOut)

/-! ### What git reports -/

/-- A path: it has no NUL, and is not empty. -/
structure GitPath where
  text : GitText
  nul : 0 ∉ text
  nonempty : text ≠ []

/-- `R` or `C`. -/
def marksRename (letter : UInt8) : Bool := letter = 0x52 || letter = 0x43

/-- A line of the status report: the letters of the index and of the working tree, and the path. A
renamed or copied file has its old path too. -/
structure StatusLine where
  index : UInt8
  worktree : UInt8
  path : GitPath
  old : Option GitPath
  nul : index ≠ 0 ∧ worktree ≠ 0
  renamed : old.isSome = (marksRename index || marksRename worktree)

/-- A line of the name-status report. -/
structure NameStatus where
  code : GitText
  path : GitPath
  old : Option GitPath
  nul : 0 ∉ code
  renamed : old.isSome = carriesOldPath (trimSpace code)

/-- Fields as `-z` writes them. -/
def encodeFields (fields : List GitText) : GitText := fields.flatMap (· ++ [0])

namespace StatusLine

def record (line : StatusLine) : GitText := line.index :: line.worktree :: 0x20 :: line.path.text

/-- The new path comes first. -/
def fields (line : StatusLine) : List GitText := line.record :: (line.old.map (·.text)).toList

def entry (line : StatusLine) : StatusEntry :=
  ⟨line.path.text, trimSpace [line.index, line.worktree]⟩

end StatusLine

namespace NameStatus

/-- The old path comes first. -/
def fields (line : NameStatus) : List GitText :=
  line.code :: ((line.old.map (·.text)).toList ++ [line.path.text])

def entry (line : NameStatus) : StatusEntry := ⟨line.path.text, trimSpace line.code⟩

end NameStatus

/-- The lines of the name-status report whose path is not listed yet. -/
def unlisted (listed : List GitText) : List NameStatus → List StatusEntry
  | [] => []
  | line :: lines =>
    if line.path.text ∈ listed then unlisted listed lines
    else line.entry :: unlisted (listed ++ [line.path.text]) lines

/-- What the helper is to answer: an entry for each line of the status report, and then one for
each path of the name-status report that is not listed yet. -/
def listing (status : List StatusLine) (names : List NameStatus) : List StatusEntry :=
  status.map (·.entry) ++ unlisted (status.map (·.path.text)) names

/-- The repository reports a status, and its difference from the baseline if there is one. -/
structure Reports (runCommand : RunCommand) (p : GitStatusParams) (status : List StatusLine)
    (names : List NameStatus) : Prop where
  cwd : p.cwd ≠ []
  status : runCommand p.cwd statusCommand = .ok (encodeFields (status.flatMap (·.fields)))
  names : if p.baseline = [] then names = []
    else runCommand p.cwd (diffCommand p.baseline) = .ok (encodeFields (names.flatMap (·.fields)))

/-- The record that the status loop sees in an old path. -/
def StatusLine.misread (line : StatusLine) : Option StatusEntry :=
  line.old.bind fun old => readRecord old.text

/-- No renamed or copied file has an old path that is long enough for a record. -/
def ShortOldPaths (status : List StatusLine) : Prop :=
  ∀ line ∈ status, ∀ old ∈ line.old, old.text.length < 4

/-- The last line alone has an old path that is long enough, and it happens to read as the first
entry that the baseline adds. -/
def MaskedByBaseline (status : List StatusLine) (names : List NameStatus) : Prop :=
  ∃ front last old, status = front ++ [last] ∧ ShortOldPaths front ∧ last.old = some old ∧
    4 ≤ old.text.length ∧
    (unlisted (status.map (·.path.text)) names).head? = readRecord old.text

/-! ### Fields are read back -/

theorem splitOn_fields {fields : List GitText} (h : ∀ field ∈ fields, 0 ∉ field) :
    (encodeFields fields).splitOn 0 = fields ++ [[]] := by
  induction fields with
  | nil => rfl
  | cons field fields ih =>
    have hcons : encodeFields (field :: fields) = field ++ 0 :: encodeFields fields := by
      simp [encodeFields]
    rw [hcons, List.splitOn_append_cons_self_of_not_mem (h field List.mem_cons_self),
      ih fun later hlater => h later (List.mem_cons_of_mem _ hlater)]
    rfl

theorem splitNUL_fields {fields : List GitText} (h : ∀ field ∈ fields, 0 ∉ field) :
    splitNUL (encodeFields fields) = fields := by
  unfold splitNUL
  split
  next hnil =>
    cases fields with
    | nil => rfl
    | cons field fields => exact absurd hnil (by simp [encodeFields])
  next => simp [splitOn_fields h]

theorem nul_not_mem_statusFields (status : List StatusLine) :
    ∀ field ∈ status.flatMap (·.fields), 0 ∉ field := by
  intro field hfield
  obtain ⟨line, -, hfield⟩ := List.mem_flatMap.mp hfield
  rcases List.mem_cons.mp hfield with rfl | hold
  · simp [StatusLine.record, line.path.nul, line.nul.1.symm, line.nul.2.symm]
  · obtain ⟨old, -, rfl⟩ := Option.map_eq_some_iff.mp (Option.mem_toList.mp hold)
    exact old.nul

theorem nul_not_mem_nameFields (names : List NameStatus) :
    ∀ field ∈ names.flatMap (·.fields), 0 ∉ field := by
  intro field hfield
  obtain ⟨line, -, hfield⟩ := List.mem_flatMap.mp hfield
  rcases List.mem_cons.mp hfield with rfl | hpath
  · exact line.nul
  · rcases List.mem_append.mp hpath with hold | hnew
    · obtain ⟨old, -, rfl⟩ := Option.map_eq_some_iff.mp (Option.mem_toList.mp hold)
      exact old.nul
    · rw [List.mem_singleton.mp hnew]
      exact line.path.nul

/-! ### The two loops -/

/-- A record of a line is read as its entry. -/
theorem readRecord_record (line : StatusLine) : readRecord line.record = some line.entry := by
  have hlength := List.length_pos_of_ne_nil line.path.nonempty
  have hlong : ¬ line.record.length < 4 := by
    simp only [StatusLine.record, List.length_cons]
    omega
  rw [readRecord, if_neg hlong]
  rfl

/-- What the status loop makes of a report: an old path may be read as a record, too. -/
theorem filterMap_readRecord (status : List StatusLine) :
    (status.flatMap (·.fields)).filterMap readRecord =
      status.flatMap fun line => line.entry :: line.misread.toList := by
  rw [List.filterMap_flatMap]
  congr 1
  funext line
  rw [StatusLine.fields, List.filterMap_cons_some (readRecord_record line), StatusLine.misread]
  cases line.old with
  | none => rfl
  | some old => cases h : readRecord old.text <;> simp [h]

theorem containsPath_iff {entries : List StatusEntry} {path : GitText} :
    containsPath entries path = true ↔ path ∈ entries.map (·.path) := by
  simp [containsPath, List.mem_map]

/-- A name-status report adds the entries of its unlisted paths. -/
theorem addBaseline_fields (entries : List StatusEntry) (names : List NameStatus) :
    addBaseline entries (names.flatMap (·.fields)) =
      entries ++ unlisted (entries.map (·.path)) names := by
  induction names generalizing entries with
  | nil => simp [addBaseline, unlisted]
  | cons line names ih =>
    -- with or without an old path the loop consumes the fields of one line
    have hline : addBaseline entries ((line :: names).flatMap (·.fields)) =
        addBaseline (addEntry entries line.path.text (trimSpace line.code))
          (names.flatMap (·.fields)) := by
      have hrenamed := line.renamed
      rw [List.flatMap_cons, NameStatus.fields]
      cases hold : line.old with
      | none =>
        rw [hold] at hrenamed
        simp only [Option.map_none, Option.toList_none, List.nil_append, List.cons_append]
        rw [addBaseline.eq_def]
        simp only [← hrenamed, Option.isSome_none, Bool.false_eq_true, if_false]
      | some old =>
        rw [hold] at hrenamed
        simp only [Option.map_some, Option.toList_some, List.cons_append, List.nil_append]
        rw [addBaseline.eq_def]
        simp only [← hrenamed, Option.isSome_some, if_true]
    rw [hline, ih, addEntry, unlisted]
    by_cases hlisted : line.path.text ∈ entries.map (·.path)
    · rw [if_pos (containsPath_iff.mpr hlisted), if_pos hlisted]
    · rw [if_neg fun h => hlisted (containsPath_iff.mp h), if_neg hlisted, List.map_append,
        List.append_assoc]
      rfl

/-- The answer of the helper. -/
theorem handleGitStatus_eq {runCommand : RunCommand} {p : GitStatusParams}
    {status : List StatusLine} {names : List NameStatus}
    (h : Reports runCommand p status names) :
    handleGitStatus runCommand p =
      .ok ((status.flatMap fun line => line.entry :: line.misread.toList) ++
        unlisted ((status.flatMap fun line => line.entry :: line.misread.toList).map (·.path))
          names) := by
  have hnames := h.names
  rw [handleGitStatus, if_neg h.cwd, h.status]
  simp only [Except.bind, bind, pure, splitNUL_fields (nul_not_mem_statusFields status),
    filterMap_readRecord]
  split
  next hnone =>
    rw [if_pos hnone] at hnames
    subst hnames
    simp [unlisted, Except.pure]
  next hsome =>
    rw [if_neg hsome] at hnames
    rw [hnames]
    simp only [splitNUL_fields (nul_not_mem_nameFields names), addBaseline_fields, Except.pure]

/-! ### When the answer is the listing -/

section Listing

variable {status : List StatusLine} {names : List NameStatus} {listed : List GitText}

theorem path_not_mem_of_mem_unlisted {entry : StatusEntry} (h : entry ∈ unlisted listed names) :
    entry.path ∉ listed := by
  induction names generalizing listed with
  | nil => exact nomatch h
  | cons line names ih =>
    rw [unlisted] at h
    split at h
    next => exact ih h
    next hnew =>
      rcases List.mem_cons.mp h with rfl | hlater
      · exact hnew
      · exact fun hold => ih hlater (List.mem_append_left _ hold)

/-- Once the first unlisted path is listed, the others remain. -/
theorem unlisted_concat_head {entry : StatusEntry}
    (h : (unlisted listed names).head? = some entry) :
    unlisted listed names = entry :: unlisted (listed ++ [entry.path]) names := by
  induction names generalizing listed with
  | nil => exact nomatch h
  | cons line names ih =>
    rw [unlisted] at h
    split at h
    next hold =>
      rw [unlisted, if_pos hold, unlisted, if_pos (List.mem_append_left _ hold)]
      exact ih h
    next hnew =>
      obtain rfl : line.entry = entry := Option.some.inj h
      have hlisted : line.path.text ∈ listed ++ [line.entry.path] :=
        List.mem_append_right _ (List.mem_singleton.mpr rfl)
      rw [unlisted, if_neg hnew, unlisted, if_pos hlisted]
      rfl

theorem misread_eq_none_iff (line : StatusLine) :
    line.misread = none ↔ ∀ old ∈ line.old, old.text.length < 4 := by
  rw [StatusLine.misread]
  cases line.old with
  | none => simp
  | some old => simp [readRecord]

theorem flatMap_of_shortOldPaths (h : ShortOldPaths status) :
    (status.flatMap fun line => line.entry :: line.misread.toList) = status.map (·.entry) := by
  induction status with
  | nil => rfl
  | cons line status ih =>
    rw [List.flatMap_cons, (misread_eq_none_iff line).mpr (h line List.mem_cons_self),
      ih fun later hlater => h later (List.mem_cons_of_mem _ hlater)]
    rfl

/-- The entries of a report are among those the loop makes of it. -/
theorem map_entry_sublist (status : List StatusLine) :
    (status.map (·.entry)).Sublist
      (status.flatMap fun line => line.entry :: line.misread.toList) := by
  induction status with
  | nil => exact .slnil
  | cons line status ih =>
    rw [List.map_cons, List.flatMap_cons, List.cons_append]
    exact (ih.trans (List.sublist_append_right _ _)).cons_cons _

/-- The helper answers with the listing exactly when it sees no record in an old path, or sees one
in the last line and the baseline adds the very same entry. -/
theorem handleGitStatus_iff {runCommand : RunCommand} {p : GitStatusParams}
    (h : Reports runCommand p status names) :
    handleGitStatus runCommand p = .ok (listing status names) ↔
      ShortOldPaths status ∨ MaskedByBaseline status names := by
  have hpaths : ∀ lines : List StatusLine,
      (lines.map (·.entry)).map (·.path) = lines.map (·.path.text) := by
    intro lines
    rw [List.map_map]
    rfl
  rw [handleGitStatus_eq h, Except.ok.injEq, listing]
  constructor
  · intro heq
    refine or_iff_not_imp_left.mpr fun hlong => ?_
    -- the first line that is misread, and what was read for it
    obtain ⟨line, hfound⟩ : ∃ line, status.find? (·.misread.isSome) = some line := by
      rw [← Option.isSome_iff_exists, List.find?_isSome]
      simp only [ShortOldPaths, not_forall] at hlong
      obtain ⟨line, hline, old, hold, hlength⟩ := hlong
      refine ⟨line, hline, Option.ne_none_iff_isSome.mp fun hnone => ?_⟩
      exact hlength ((misread_eq_none_iff line).mp hnone old hold)
    obtain ⟨hmisread, front, back, rfl, hfront⟩ := List.find?_eq_some_iff_append.mp hfound
    obtain ⟨entry, hentry⟩ := Option.isSome_iff_exists.mp hmisread
    have hshort : ShortOldPaths front := fun line hline =>
      (misread_eq_none_iff line).mp (by simpa using hfront line hline)
    have hread : ((front ++ line :: back).flatMap fun line => line.entry :: line.misread.toList) =
        front.map (·.entry) ++ (line.entry :: entry ::
          back.flatMap fun line => line.entry :: line.misread.toList) := by
      rw [List.flatMap_append, flatMap_of_shortOldPaths hshort, List.flatMap_cons, hentry]
      rfl
    have hlisted : (front ++ line :: back).map (·.entry) =
        front.map (·.entry) ++ (line.entry :: back.map (·.entry)) := List.map_append
    rw [hread, hlisted, List.append_assoc, List.append_assoc] at heq
    have hrest := (List.cons.inj (List.append_cancel_left heq)).2
    cases back with
    | nil =>
      obtain ⟨old, hold, hrecord⟩ := Option.bind_eq_some_iff.mp hentry
      refine ⟨front, line, old, rfl, hshort, hold, ?_, ?_⟩
      · by_contra hlength
        rw [readRecord, if_pos (by omega)] at hrecord
        exact nomatch hrecord
      · exact (congrArg List.head? hrest).symm.trans hrecord.symm
    | cons next back =>
      -- one entry too many has a path of the status report
      obtain ⟨-, hrest⟩ := List.cons.inj hrest
      let known : StatusEntry → Bool := fun entry =>
        decide (entry.path ∈ (front ++ line :: next :: back).map (·.path.text))
      have hknown : ∀ entry ∈ (next :: back).map (·.entry), known entry = true := by
        intro entry hmem
        obtain ⟨later, hlater, rfl⟩ := List.mem_map.mp hmem
        refine decide_eq_true (List.mem_map.mpr ⟨later, ?_, rfl⟩)
        exact List.mem_append_right _ (List.mem_cons_of_mem _ hlater)
      have hmany := (map_entry_sublist (next :: back)).countP_le (p := known)
      rw [List.countP_eq_length.mpr hknown, List.length_map, List.length_cons] at hmany
      have hadded : List.countP known (unlisted
          ((front ++ line :: next :: back).map (·.path.text)) names) = 0 := by
        refine List.countP_eq_zero.mpr fun entry hmem => ?_
        rw [decide_eq_true_eq]
        exact path_not_mem_of_mem_unlisted hmem
      have hcount := congrArg (List.countP known) hrest
      rw [List.append_eq, List.append_eq, List.countP_append, List.countP_append, hadded] at hcount
      have hfew := List.countP_le_length (p := known) (l := back.map (·.entry))
      rw [List.length_map] at hfew
      omega
  · rintro (hshort | ⟨front, last, old, rfl, hshort, hold, hlength, hhead⟩)
    · rw [flatMap_of_shortOldPaths hshort, hpaths]
    · have hread : last.misread = some ⟨old.text.drop 3, trimSpace (old.text.take 2)⟩ := by
        rw [StatusLine.misread, hold, Option.bind_some, readRecord, if_neg (by omega)]
      rw [readRecord, if_neg (by omega)] at hhead
      rw [unlisted_concat_head hhead, List.flatMap_append, flatMap_of_shortOldPaths hshort,
        List.flatMap_singleton, hread, List.map_append, hpaths, List.map_append, List.map_append]
      simp only [Option.toList_some, List.map_cons, List.map_nil, List.append_assoc,
        List.cons_append, List.nil_append]
      rfl

end Listing

/-! ### A repository -/

/-- A repository with the given reports. -/
def reporting (status : List StatusLine) (names : List NameStatus) : RunCommand :=
  fun _ command =>
    if command = statusCommand then .ok (encodeFields (status.flatMap (·.fields)))
    else .ok (encodeFields (names.flatMap (·.fields)))

theorem reports_reporting (status : List StatusLine) {names : List NameStatus}
    {p : GitStatusParams} (hcwd : p.cwd ≠ []) (hnames : p.baseline = [] → names = []) :
    Reports (reporting status names) p status names := by
  have hdiff : diffCommand p.baseline ≠ statusCommand := by
    intro h
    exact absurd (List.cons.inj (List.cons.inj h).2).1 (by decide)
  refine ⟨hcwd, if_pos rfl, ?_⟩
  split
  · exact hnames ‹_›
  · exact if_neg hdiff

def GitPath.ofText (text : String) (h : 0 ∉ ascii text ∧ ascii text ≠ []) : GitPath :=
  ⟨ascii text, h.1, h.2⟩

/-- A renamed file whose old path is too short for a record, and a changed one. -/
theorem handleGitStatus_iff_short :
    handleGitStatus
        (reporting
          [⟨0x52, 0x20, .ofText "b.txt" (by decide), some (.ofText "a.x" (by decide)), by decide,
            by decide⟩]
          [⟨ascii "M", .ofText "c.txt" (by decide), none, by decide, by decide⟩])
        ⟨ascii "/work", ascii "main"⟩ =
      .ok [⟨ascii "b.txt", ascii "R"⟩, ⟨ascii "c.txt", ascii "M"⟩] :=
  (handleGitStatus_iff (reports_reporting _ (by decide) (by decide))).mpr (.inl (by
    intro line hline old hold
    rw [List.mem_singleton.mp hline] at hold
    rw [← Option.some.inj hold]
    decide))

/-- The old path of a renamed file is listed as a file of its own. -/
theorem not_handleGitStatus :
    ¬ ∀ (runCommand : RunCommand) (p : GitStatusParams) (status : List StatusLine)
      (names : List NameStatus), Reports runCommand p status names →
      handleGitStatus runCommand p = .ok (listing status names) := by
  intro h
  have hanswer := h _ ⟨ascii "/work", []⟩ _ _
    (reports_reporting
      [⟨0x52, 0x20, .ofText "b.txt" (by decide), some (.ofText "a.txt" (by decide)), by decide,
        by decide⟩]
      (by decide) (fun _ => rfl))
  have hlength := congrArg (fun answer => answer.toOption.map List.length) hanswer
  exact absurd hlength (by decide)

end AgentCockpit.Helper
