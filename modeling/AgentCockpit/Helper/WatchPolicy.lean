import AgentCockpit.Providers.DiffCache

/-!
# The watch policy of the remote helper

The app derives a specification of what to watch from its policy and sends it to the helper, which
decides with it whether the path of a file system event is forwarded. The app's own classification
of a path decides the same for projects on its own machine.

A path is the list of its names. The app also reads a backslash as a separator, drops a leading dot
and leading separators: what it decides on are the *parts* of a path. The two sides agree on what
is of interest, but each has slips: the helper takes names that begin with two dots for a way out of
the root, and takes what is below a signal file for the signal; the app takes any name in `.git`
that begins with `refs` for the refs.
-/

namespace AgentCockpit.Helper

open AgentCockpit.Core AgentCockpit.Providers

/-! ### Paths -/

/-- The name of a directory entry. -/
structure FileName where
  text : Path
  nonempty : text ≠ []
  noSlash : '/' ∉ text
  notDot : text ≠ ".".toList
  notDotDot : text ≠ "..".toList
  deriving DecidableEq

def FileName.ofText (text : Path)
    (h : text ≠ [] ∧ '/' ∉ text ∧ text ≠ ".".toList ∧ text ≠ "..".toList) : FileName :=
  ⟨text, h.1, h.2.1, h.2.2.1, h.2.2.2⟩

/-- The texts of the names of a path below a root. -/
def texts (names : List FileName) : List Path := names.map (·.text)

def joinNames (names : List Path) : Path := join '/' names

/-- What two absolute paths have after their common names. -/
def afterCommon : List Path → List Path → List Path × List Path
  | base :: bases, targ :: targs =>
    if base = targ then afterCommon bases targs else (base :: bases, targ :: targs)
  | bases, targs => (bases, targs)

/-- The way from one absolute path to another: up with two dots for each name, and down. -/
def filepathRel (basepath targpath : List Path) : Path :=
  let (up, down) := afterCommon basepath targpath
  let way := up.map (fun _ => "..".toList) ++ down
  if way = [] then ".".toList else joinNames way

/-- The path of `abs` from the root, if it is below the root. -/
def relPosix (root abs : List Path) : Option Path :=
  let rel := filepathRel root abs
  if rel = ".".toList ∨ "..".toList <+: rel then none else some rel

/-! ### The specification -/

def directoryGranularity : List Path := [".git".toList, ".beads".toList]

def gitStateSignals : List Path :=
  [".git/HEAD".toList, ".git/packed-refs".toList, ".git/refs".toList, ".git/worktrees".toList]

/-- What to watch, as it is sent to the helper. -/
structure WatchSpec where
  neverRecurse : List Path
  directoryGranularity : List Path
  gitStateSignals : List Path
  beadsSignals : List Path
  deriving DecidableEq, Repr

def deriveWatchSpec : WatchSpec :=
  ⟨neverRecurse, directoryGranularity, gitStateSignals, beadsSignals⟩

/-! ### The decision of the helper -/

def gitWorktreesSignal : Path := ".git/worktrees".toList

/-- The most segments that a path of the worktrees signal has: the signal and one child. -/
def gitWorktreesMaxSegments : ℕ := 3

/-- The path is a signal or is below one, the worktrees signal down to its children only. -/
def matchesSignal (rel : Path) (signals : List Path) : Bool :=
  signals.any fun sig => rel = sig ∨ (sig ++ "/".toList <+: rel ∧
    ¬ (sig = gitWorktreesSignal ∧ gitWorktreesMaxSegments < (rel.splitOn '/').length))

/-- The compiled ignore file of the root, if there is one, as a test of paths from the root. -/
abbrev GitIgnore := Option (Path → Bool)

def isGitignored (gi : GitIgnore) (root absPath : List Path) : Bool :=
  match gi with
  | none => false
  | some matchesPath =>
    match relPosix root absPath with
    | none => false
    | some rel => matchesPath rel

/-- A subscription. -/
structure Watcher where
  root : List Path
  gi : GitIgnore
  spec : WatchSpec

/-- Whether an event on a path is forwarded to the host. -/
def shouldEmit (w : Watcher) (abs : List Path) : Bool :=
  match relPosix w.root abs with
  | none => false
  | some rel =>
    let segments := rel.splitOn '/'
    if segments.any (· ∈ w.spec.neverRecurse) then false
    else if segments.headD [] ∈ w.spec.directoryGranularity then
      matchesSignal rel w.spec.gitStateSignals || matchesSignal rel w.spec.beadsSignals
    else !isGitignored w.gi w.root abs

/-! ### The policy -/

/-- The signals that are files, by their names. -/
def fileSignals : List (List Path) :=
  [[".git".toList, "HEAD".toList], [".git".toList, "packed-refs".toList],
    [".beads".toList, "beads.db".toList], [".beads".toList, "issues.jsonl".toList]]

def refsSignal : List Path := [".git".toList, "refs".toList]

def worktreesSignal : List Path := [".git".toList, "worktrees".toList]

/-- A file signal, a path of the refs, or the worktrees and their children. -/
def IsSignal (names : List Path) : Prop :=
  names ∈ fileSignals ∨ refsSignal <+: names ∨ (worktreesSignal <+: names ∧ names.length ≤ 3)

/-- The path is in `.git` or `.beads`. -/
def Gated (names : List Path) : Prop := names.headD [] ∈ directoryGranularity

/-- No name of the path is `node_modules`. -/
def Recursed (names : List Path) : Prop := ∀ name ∈ names, name ∉ neverRecurse

/-- The policy: what is in `.git` and `.beads` must be a signal. -/
def OfInterest (names : List Path) : Prop :=
  names ≠ [] ∧ Recursed names ∧ (Gated names → IsSignal names)

/-- The first name begins with two dots. -/
def LeadingDots (names : List Path) : Prop := "..".toList <+: names.headD []

/-- The path is below a signal that is a file. -/
def BelowFile (names : List Path) : Prop :=
  ∃ sig ∈ fileSignals, sig <+: names ∧ names ≠ sig

/-- The path goes through a name in `.git` that is longer than `refs` and begins with it. -/
def ExtendsRefs (names : List Path) : Prop :=
  names.head? = some ".git".toList ∧
    (names[1]?).any fun name => "refs".toList <+: name ∧ name ≠ "refs".toList

/-- A path without its leading dot. -/
def dropDot : List Path → List Path
  | first :: next :: rest => if first = ".".toList then next :: rest else first :: next :: rest
  | parts => parts

/-- The parts of a path, with backslashes as separators and without what leads nowhere. -/
def parts (names : List Path) : List Path :=
  (dropDot (names.flatMap fun name => name.splitOn '\\')).dropWhile (· = [])

instance : DecidablePred IsSignal := fun _ => by unfold IsSignal; infer_instance

instance : DecidablePred Gated := fun _ => by unfold Gated; infer_instance

instance : DecidablePred Recursed := fun _ => by unfold Recursed; infer_instance

instance : DecidablePred LeadingDots := fun _ => by unfold LeadingDots; infer_instance

instance : DecidablePred BelowFile := fun _ => by unfold BelowFile; infer_instance

instance : DecidablePred ExtendsRefs := fun _ => by unfold ExtendsRefs; infer_instance

/-- A path on which no slip is met. With backslashes the names and the parts must be of interest
alike, unless a name in `.git` that begins with `refs` makes up for it. -/
def Unambiguous (names : List Path) : Prop :=
  ¬ Recursed names ∨
    if '\\' ∈ joinNames names then
      if LeadingDots names then ¬ Recursed (parts names)
      else ¬ BelowFile names ∧
        (OfInterest names ↔ OfInterest (parts names) ∨
          (Recursed (parts names) ∧ ExtendsRefs (parts names)))
    else ¬ LeadingDots names ∧ ¬ BelowFile names ∧ ¬ ExtendsRefs names

/-! ### The helper reads names -/

variable {root : List Path} {gi : GitIgnore} {names : List FileName} {path : List Path}

/-- The names are those of a path below a root. -/
def Proper (path : List Path) : Prop :=
  ∀ name ∈ path, name ≠ [] ∧ '/' ∉ name ∧ name ≠ ".".toList ∧ name ≠ "..".toList

theorem proper_texts : Proper (texts names) := by
  intro name hmem
  obtain ⟨file, -, rfl⟩ := List.mem_map.mp hmem
  exact ⟨file.nonempty, file.noSlash, file.notDot, file.notDotDot⟩

theorem Proper.free (h : Proper path) : ∀ name ∈ path, '/' ∉ name :=
  fun name hmem => (h name hmem).2.1

theorem Proper.splitOn_joinNames (h : Proper path) (hne : path ≠ []) :
    (joinNames path).splitOn '/' = path :=
  splitOn_join h.free hne

theorem afterCommon_append (root path : List Path) :
    afterCommon root (root ++ path) = ([], path) := by
  induction root with
  | nil => cases path <;> simp [afterCommon]
  | cons name root ih => simpa [afterCommon] using ih

theorem Proper.joinNames_ne_dot (h : Proper path) (hne : path ≠ []) :
    joinNames path ≠ ".".toList := by
  intro hdot
  have hsplit := h.splitOn_joinNames hne
  rw [hdot] at hsplit
  have hmem : ".".toList ∈ path := by rw [← hsplit]; decide
  exact (h _ hmem).2.2.1 rfl

theorem dots_prefix_joinNames : "..".toList <+: joinNames path ↔ LeadingDots path := by
  cases path with
  | nil => exact Iff.rfl
  | cons name path => exact prefix_join_cons_iff (by decide)

/-- Below the root the way leads down, unless the first name looks like a step up. -/
theorem Proper.relPosix_append (h : Proper path) :
    relPosix root (root ++ path) =
      if path = [] ∨ LeadingDots path then none else some (joinNames path) := by
  by_cases hne : path = []
  · simp only [relPosix, filepathRel, afterCommon_append, List.map_nil, List.nil_append, hne,
      if_true, true_or]
  · simp only [relPosix, filepathRel, afterCommon_append, List.map_nil, List.nil_append, hne,
      if_false, h.joinNames_ne_dot hne, dots_prefix_joinNames, false_or]

/-- A signal is matched by the paths that its names begin. -/
theorem Proper.matches_iff {sig : List Path} (h : Proper path) (hne : path ≠ [])
    (hfree : ∀ name ∈ sig, '/' ∉ name) (hsig : sig ≠ []) :
    (joinNames path = joinNames sig ∨ joinNames sig ++ "/".toList <+: joinNames path) ↔
      sig <+: path := by
  rw [eq_comm]
  exact join_prefix_iff hfree hsig h.free hne

/-- The signals of the specification, by their names. -/
def signals : List (List Path) :=
  [[".git".toList, "HEAD".toList], [".git".toList, "packed-refs".toList], refsSignal,
    worktreesSignal, [".beads".toList, "beads.db".toList], [".beads".toList, "issues.jsonl".toList]]

theorem map_joinNames_signals : signals.map joinNames = gitStateSignals ++ beadsSignals := by
  decide

theorem mem_signals {sig : List Path} :
    sig ∈ signals ↔ sig ∈ fileSignals ∨ sig = refsSignal ∨ sig = worktreesSignal := by
  simp only [signals, fileSignals, List.mem_cons, List.not_mem_nil, or_assoc, or_left_comm,
    or_comm]

theorem free_of_mem_signals {sig : List Path} (h : sig ∈ signals) :
    (∀ name ∈ sig, '/' ∉ name) ∧ sig ≠ [] := by
  revert sig
  decide

/-- One signal: its names begin those of the path, which are not too many for the worktrees. -/
theorem Proper.signal_iff {sig : List Path} (h : Proper path) (hne : path ≠ [])
    (hsig : sig ∈ signals) :
    (joinNames path = joinNames sig ∨ (joinNames sig ++ "/".toList <+: joinNames path ∧
        ¬ (joinNames sig = gitWorktreesSignal ∧ gitWorktreesMaxSegments < path.length))) ↔
      sig <+: path ∧ ¬ (sig = worktreesSignal ∧ 3 < path.length) := by
  obtain ⟨hfree, hnil⟩ := free_of_mem_signals hsig
  have hworktrees : joinNames sig = joinNames worktreesSignal ↔ sig = worktreesSignal :=
    join_eq_join hfree hnil (by decide) (by decide)
  rw [show joinNames worktreesSignal = gitWorktreesSignal by decide] at hworktrees
  rw [hworktrees, ← h.matches_iff hne hfree hnil]
  constructor
  · rintro (heq | ⟨hbelow, hbound⟩)
    · refine ⟨.inl heq, ?_⟩
      -- The signal itself has two names.
      rintro ⟨rfl, hlength⟩
      rw [joinNames, joinNames, join_eq_join h.free hne hfree hnil] at heq
      rw [heq] at hlength
      exact absurd hlength (by decide)
    · exact ⟨.inr hbelow, hbound⟩
  · rintro ⟨heq | hbelow, hbound⟩
    · exact .inl heq
    · exact .inr ⟨hbelow, hbound⟩

/-- The helper takes signals, and what is below a file that is one. -/
theorem Proper.matchesSignal_iff (h : Proper path) (hne : path ≠ []) :
    (matchesSignal (joinNames path) gitStateSignals ||
        matchesSignal (joinNames path) beadsSignals) = true ↔ IsSignal path ∨ BelowFile path := by
  have hmatch : (matchesSignal (joinNames path) gitStateSignals ||
      matchesSignal (joinNames path) beadsSignals) = true ↔
        ∃ sig ∈ signals, sig <+: path ∧ ¬ (sig = worktreesSignal ∧ 3 < path.length) := by
    rw [matchesSignal, matchesSignal, ← List.any_append, ← map_joinNames_signals, List.any_map,
      List.any_eq_true, h.splitOn_joinNames hne]
    refine exists_congr fun sig => and_congr_right fun hsig => ?_
    rw [← h.signal_iff hne hsig]
    simp only [Function.comp_apply, decide_eq_true_eq]
  rw [hmatch]
  constructor
  · rintro ⟨sig, hsig, hbegins, hbound⟩
    obtain hfile | rfl | rfl := mem_signals.mp hsig
    · by_cases heq : path = sig
      · exact .inl (.inl (heq ▸ hfile))
      · exact .inr ⟨sig, hfile, hbegins, heq⟩
    · exact .inl (.inr (.inl hbegins))
    · exact .inl (.inr (.inr ⟨hbegins, by simpa using hbound⟩))
  · rintro ((hfile | hrefs | ⟨hworktrees, hlength⟩) | ⟨sig, hfile, hbegins, -⟩)
    · exact ⟨path, mem_signals.mpr (.inl hfile), List.prefix_rfl, fun hlong => by
        rw [hlong.1] at hfile
        exact absurd hfile (by decide)⟩
    · exact ⟨refsSignal, mem_signals.mpr (.inr (.inl rfl)), hrefs, fun hlong =>
        absurd hlong.1 (by decide)⟩
    · exact ⟨worktreesSignal, mem_signals.mpr (.inr (.inr rfl)), hworktrees, fun hlong => by
        omega⟩
    · exact ⟨sig, mem_signals.mpr (.inl hfile), hbegins, fun hlong => by
        rw [hlong.1] at hfile
        exact absurd hfile (by decide)⟩

theorem any_neverRecurse : path.any (· ∈ neverRecurse) = true ↔ ¬ Recursed path := by
  simp [Recursed]

/-- What the helper forwards: signals and what is below a signal file, and outside of `.git` and
`.beads` what is not ignored. Names that begin with two dots look like a way out of the root. -/
theorem shouldEmit_iff (root : List Path) (gi : GitIgnore) (h : Proper path) :
    shouldEmit ⟨root, gi, deriveWatchSpec⟩ (root ++ path) = true ↔
      path ≠ [] ∧ ¬ LeadingDots path ∧ Recursed path ∧
        if Gated path then IsSignal path ∨ BelowFile path
        else isGitignored gi root (root ++ path) = false := by
  by_cases hout : path = [] ∨ LeadingDots path
  · have hrel : relPosix root (root ++ path) = none := by rw [h.relPosix_append, if_pos hout]
    simp only [shouldEmit, hrel, Bool.false_eq_true, false_iff]
    exact fun h => hout.elim h.1 h.2.1
  obtain ⟨hne, hdots⟩ := not_or.mp hout
  have hrel : relPosix root (root ++ path) = some (joinNames path) := by
    rw [h.relPosix_append, if_neg hout]
  have hemit : shouldEmit ⟨root, gi, deriveWatchSpec⟩ (root ++ path) =
      if ((joinNames path).splitOn '/').any (· ∈ neverRecurse) then false
      else if Gated ((joinNames path).splitOn '/') then
        matchesSignal (joinNames path) gitStateSignals ||
          matchesSignal (joinNames path) beadsSignals
      else !isGitignored gi root (root ++ path) := by
    simp only [shouldEmit, hrel]
    rfl
  rw [hemit, h.splitOn_joinNames hne]
  by_cases hrecursed : Recursed path
  · rw [if_neg (mt any_neverRecurse.mp (not_not.mpr hrecursed))]
    by_cases hgated : Gated path
    · rw [if_pos hgated, if_pos hgated, h.matchesSignal_iff hne]
      simp only [ne_eq, hne, hdots, hrecursed, not_false_eq_true, true_and]
    · rw [if_neg hgated, if_neg hgated, Bool.not_eq_true']
      simp only [ne_eq, hne, hdots, hrecursed, not_false_eq_true, true_and]
  · rw [if_pos (any_neverRecurse.mpr hrecursed)]
    simp [hrecursed]

/-! ### The app reads parts -/

/-- The parts of a path from the root, as the app splits it. -/
def segments (relPath : Path) : List Path :=
  let rel := normalizeWatchPath relPath
  if rel = [] then [] else rel.splitOn '/'

theorem splitOn_dropDot (posix : Path) :
    (match posix with
      | '.' :: '/' :: rest => rest
      | _ => posix).splitOn '/' = dropDot (posix.splitOn '/') := by
  split
  · next rest =>
    have hdot : '/' ∉ ['.'] := by decide
    have hsplit := List.splitOn_append_cons_self_of_not_mem hdot rest
    obtain ⟨first, more, hrest⟩ := List.exists_cons_of_ne_nil (List.splitOn_ne_nil '/' rest)
    rw [List.cons_append, List.nil_append] at hsplit
    rw [hsplit, hrest]
    rfl
  · next hdot =>
    -- The first of several parts is a dot only if the path begins with a dot and a slash.
    have hjoin : join '/' (posix.splitOn '/') = posix := join_splitOn posix
    generalize posix.splitOn '/' = parts at hjoin ⊢
    cases parts with
    | nil => rfl
    | cons first parts =>
      cases parts with
      | nil => rfl
      | cons next rest =>
        rw [dropDot, if_neg]
        rintro rfl
        rw [join_cons_cons] at hjoin
        exact hdot _ hjoin.symm

theorem Proper.segments_joinNames (h : Proper path) : segments (joinNames path) = parts path := by
  by_cases hne : path = []
  · rw [hne]
    rfl
  · have hmap : (joinNames path).map (fun c => if c = '\\' then '/' else c) =
        (join '/' path).map (asSep '/' '\\') := rfl
    rw [segments, normalizeWatchPath, hmap, splitOn_dropWhile, parts,
      ← splitOn_map_join h.free hne]
    exact congrArg _ (splitOn_dropDot _)

variable {rel : Path} {rest : List Path}

/-- What begins with the text of the refs goes through a name that begins with `refs`. -/
theorem refs_prefix_joinNames :
    ".git/refs".toList <+: joinNames (".git".toList :: rest) ↔
      (rest.head?).any fun name => "refs".toList <+: name := by
  cases rest with
  | nil => simp only [joinNames, join_singleton]; decide
  | cons name rest =>
    have hsplit : ".git/refs".toList = ".git/".toList ++ "refs".toList := by decide
    have hjoin : joinNames (".git".toList :: name :: rest) =
        ".git/".toList ++ joinNames (name :: rest) := by
      rw [joinNames, join_cons_cons]
      rfl
    rw [hsplit, hjoin, List.prefix_append_right_inj, joinNames, prefix_join_cons_iff (by decide)]
    simp

/-- The signals in `.git`. -/
theorem isSignal_git {name : Path} :
    IsSignal (".git".toList :: name :: rest) ↔
      ((name = "HEAD".toList ∨ name = "packed-refs".toList) ∧ rest = []) ∨ name = "refs".toList ∨
        (name = "worktrees".toList ∧ rest.length ≤ 1) := by
  have hgit : ".git".toList ≠ ".beads".toList := by decide
  simp only [IsSignal, fileSignals, refsSignal, worktreesSignal, List.mem_cons, List.cons.injEq,
    List.not_mem_nil, List.cons_prefix_cons, List.nil_prefix, List.length_cons, true_and, hgit,
    false_and, or_false, and_true, eq_comm (b := name)]
  constructor
  · rintro ((⟨hname, hrest⟩ | ⟨hname, hrest⟩) | hname | ⟨hname, hlength⟩)
    · exact .inl ⟨.inl hname, hrest⟩
    · exact .inl ⟨.inr hname, hrest⟩
    · exact .inr (.inl hname)
    · exact .inr (.inr ⟨hname, by omega⟩)
  · rintro (⟨hname | hname, hrest⟩ | hname | ⟨hname, hlength⟩)
    · exact .inl (.inl ⟨hname, hrest⟩)
    · exact .inl (.inr ⟨hname, hrest⟩)
    · exact .inr (.inl hname)
    · exact .inr (.inr ⟨hname, by omega⟩)

/-- The signals in `.beads`. -/
theorem isSignal_beads :
    IsSignal (".beads".toList :: rest) ↔
      ".beads".toList :: rest = [".beads".toList, "beads.db".toList] ∨
        ".beads".toList :: rest = [".beads".toList, "issues.jsonl".toList] := by
  have hbeads : ".beads".toList ≠ ".git".toList := by decide
  simp only [IsSignal, fileSignals, refsSignal, worktreesSignal, List.mem_cons, List.cons.injEq,
    List.cons_prefix_cons, List.not_mem_nil, hbeads, hbeads.symm, false_and, or_false, false_or]

/-- The app's tests in `.git`: the signals, and what goes through a name that extends `refs`. -/
theorem git_signal_iff :
    (".git".toList :: rest = [".git".toList, "HEAD".toList] ∨
        ".git".toList :: rest = [".git".toList, "packed-refs".toList] ∨
        (rest.head?).any (fun name => "refs".toList <+: name)) ∨
      (rest.head? = some "worktrees".toList ∧ (".git".toList :: rest).length ≤ 3) ↔
    IsSignal (".git".toList :: rest) ∨ ExtendsRefs (".git".toList :: rest) := by
  cases rest with
  | nil => decide
  | cons name rest =>
    rw [isSignal_git]
    simp only [ExtendsRefs, List.cons.injEq, true_and, List.head?_cons, Option.any_some,
      decide_eq_true_eq, List.length_cons, Option.some.injEq, List.getElem?_cons_succ,
      List.getElem?_cons_zero]
    by_cases hrefs : name = "refs".toList
    · simp [hrefs]
    · have hlength : rest.length + 1 + 1 ≤ 3 ↔ rest.length ≤ 1 := by omega
      simp only [hlength, hrefs, ne_eq, not_false_eq_true, and_true, false_or, or_and_right,
        or_assoc, or_left_comm, or_comm]

/-- A text is a given one if its words are those of it. -/
theorem eq_iff_splitOn {text given : Path} {words : List Path} (hgiven : given = joinNames words)
    (hfree : ∀ word ∈ words, '/' ∉ word) (hwords : words ≠ []) :
    text = given ↔ text.splitOn '/' = words := by
  rw [hgiven]
  exact (splitOn_eq_iff hfree hwords).symm

theorem mem_beadsSignals_iff : rel ∈ beadsSignals ↔
    rel.splitOn '/' = [".beads".toList, "beads.db".toList] ∨
      rel.splitOn '/' = [".beads".toList, "issues.jsonl".toList] := by
  rw [beadsSignals, List.mem_cons, List.mem_singleton]
  exact or_congr (eq_iff_splitOn (by decide) (by decide) (by decide))
    (eq_iff_splitOn (by decide) (by decide) (by decide))

theorem gated_cons {top : Path} :
    Gated (top :: rest) ↔ top = ".git".toList ∨ top = ".beads".toList := by
  simp only [Gated, directoryGranularity, List.headD_cons, List.mem_cons, List.not_mem_nil,
    or_false]

theorem isSome_ite_iff {α : Type*} {p q : Prop} [Decidable p] [Decidable q] {a b : α} :
    (if p then some a else if q then some b else none).isSome ↔ p ∨ q := by
  by_cases hp : p <;> by_cases hq : q <;> simp [hp, hq]

/-- What the app takes: what is of interest, and what goes through a name that extends `refs`. -/
theorem classifyWatchPath_isSome_iff_segments (relPath : Path) :
    (classifyWatchPath relPath).isSome ↔
      OfInterest (segments relPath) ∨
        (Recursed (segments relPath) ∧ ExtendsRefs (segments relPath)) := by
  rw [segments, classifyWatchPath]
  generalize normalizeWatchPath relPath = rel
  by_cases hrel : rel = []
  · simp [hrel, OfInterest, ExtendsRefs]
  have hhead : rel = ".git/HEAD".toList ↔ rel.splitOn '/' = [".git".toList, "HEAD".toList] :=
    eq_iff_splitOn (by decide) (by decide) (by decide)
  have hpacked : rel = ".git/packed-refs".toList ↔
      rel.splitOn '/' = [".git".toList, "packed-refs".toList] :=
    eq_iff_splitOn (by decide) (by decide) (by decide)
  have hbeads : rel ∈ beadsSignals ↔ _ := mem_beadsSignals_iff
  have hjoin : join '/' (rel.splitOn '/') = rel := join_splitOn rel
  obtain ⟨top, rest, hsplit⟩ := List.exists_cons_of_ne_nil (List.splitOn_ne_nil '/' rel)
  rw [hsplit] at hhead hpacked hbeads hjoin
  simp only [hrel, if_false, hsplit, List.getElem?_cons_zero, List.getElem?_cons_succ,
    Option.some.injEq]
  by_cases hskip : Recursed (top :: rest)
  · have hinterest : OfInterest (top :: rest) ↔ (Gated (top :: rest) → IsSignal (top :: rest)) := by
      simp [OfInterest, hskip]
    rw [if_neg (mt any_neverRecurse.mp (not_not.mpr hskip)), hinterest]
    by_cases hgit : top = ".git".toList
    · subst hgit
      have hgated : Gated (".git".toList :: rest) := gated_cons.mpr (.inl rfl)
      -- the app tests the text, which a longer name than `refs` passes too
      have hrefs : ".git/refs".toList <+: joinNames (".git".toList :: rest) ↔ _ :=
        refs_prefix_joinNames
      rw [joinNames, hjoin] at hrefs
      rw [if_pos rfl, isSome_ite_iff, hhead, hpacked, hrefs, ← List.head?_eq_getElem?,
        git_signal_iff]
      simp only [hgated, hskip, true_and, forall_const]
    · by_cases htop : top = ".beads".toList
      · subst htop
        have hgated : Gated (".beads".toList :: rest) := gated_cons.mpr (.inr rfl)
        have hextends : ¬ ExtendsRefs (".beads".toList :: rest) := fun h => hgit (by
          simpa using h.1)
        rw [if_neg hgit, if_pos rfl, isSignal_beads, ← hbeads]
        rw [Option.isSome_ite]
        simp only [hgated, hextends, forall_const, and_false, or_false]
      · have hgated : ¬ Gated (top :: rest) := by
          rw [gated_cons]
          exact not_or.mpr ⟨hgit, htop⟩
        rw [if_neg hgit, if_neg htop]
        simp [hgated]
  · rw [if_pos (any_neverRecurse.mpr hskip)]
    simp [hskip, OfInterest]

theorem Proper.classifyWatchPath_isSome_iff (h : Proper path) :
    (classifyWatchPath (joinNames path)).isSome ↔
      OfInterest (parts path) ∨ (Recursed (parts path) ∧ ExtendsRefs (parts path)) := by
  rw [← h.segments_joinNames]
  exact classifyWatchPath_isSome_iff_segments _

/-! ### The parts of a path -/

/-- A path that leads with neither a dot nor a separator has all its parts. -/
theorem parts_eq {first : Path} {more : List Path}
    (hsplit : (path.flatMap fun name => name.splitOn '\\') = first :: more) (hnil : first ≠ [])
    (hdot : first ≠ ".".toList) : parts path = first :: more := by
  have hdrop : dropDot (first :: more) = first :: more := by
    cases more with
    | nil => rfl
    | cons next rest => rw [dropDot, if_neg hdot]
  rw [parts, hsplit, hdrop, List.dropWhile_cons_of_neg (by simpa using hnil)]

theorem flatMap_splitOn_eq_self (hplain : ∀ name ∈ path, '\\' ∉ name) :
    (path.flatMap fun name => name.splitOn '\\') = path := by
  induction path with
  | nil => rfl
  | cons name path ih =>
    rw [List.flatMap_cons, List.splitOn_eq_singleton (hplain name List.mem_cons_self),
      ih fun name hmem => hplain name (List.mem_cons_of_mem _ hmem)]
    rfl

/-- A letter that is no separator is in the joined names if it is in a name. -/
theorem mem_joinNames {letter : Char} {name : Path} (hname : name ∈ path)
    (hletter : letter ∈ name) : letter ∈ joinNames path := by
  induction path with
  | nil => exact absurd hname (List.not_mem_nil)
  | cons first path ih =>
    cases path with
    | nil => simpa [joinNames, List.mem_singleton.mp hname] using hletter
    | cons next rest =>
      rw [joinNames, join_cons_cons, List.mem_append, List.mem_cons]
      obtain rfl | hrest := List.mem_cons.mp hname
      · exact .inl hletter
      · exact .inr (.inr (ih hrest))

/-- Without backslashes the parts are the names. -/
theorem Proper.parts_eq_self (h : Proper path) (hplain : '\\' ∉ joinNames path) :
    parts path = path := by
  have hself := flatMap_splitOn_eq_self fun name hname hmem => hplain (mem_joinNames hname hmem)
  cases path with
  | nil => rfl
  | cons first rest =>
    obtain ⟨hnil, -, hdot, -⟩ := h first List.mem_cons_self
    exact parts_eq hself hnil hdot

/-- What is neither empty nor a dot is still there. -/
theorem mem_parts {part : Path} (hmem : part ∈ path.flatMap fun name => name.splitOn '\\')
    (hnil : part ≠ []) (hdot : part ≠ ".".toList) : part ∈ parts path := by
  have hdrop : part ∈ dropDot (path.flatMap fun name => name.splitOn '\\') := by
    generalize path.flatMap (fun name => name.splitOn '\\') = split at hmem ⊢
    fun_cases dropDot split with
    | case1 next rest => exact List.mem_of_ne_of_mem hdot hmem
    | case2 first next rest hfirst => exact hmem
    | case3 => exact hmem
  rw [parts]
  generalize dropDot _ = split at hdrop ⊢
  induction split with
  | nil => exact hdrop
  | cons first rest ih =>
    by_cases hfirst : first = []
    · rw [List.dropWhile_cons_of_pos (by simpa using hfirst)]
      exact ih (List.mem_of_ne_of_mem (hfirst ▸ hnil) hdrop)
    · rwa [List.dropWhile_cons_of_neg (by simpa using hfirst)]

/-- A path that goes through `node_modules` does so in parts. -/
theorem recursed_of_recursed_parts (h : Recursed (parts path)) : Recursed path := by
  intro name hname hnever
  have hplain : '\\' ∉ name ∧ name ≠ [] ∧ name ≠ ".".toList := by
    rw [neverRecurse, List.mem_singleton] at hnever
    rw [hnever]
    decide
  refine h name (mem_parts ?_ hplain.2.1 hplain.2.2) hnever
  rw [List.mem_flatMap]
  exact ⟨name, hname, by rw [List.splitOn_eq_singleton hplain.1]; exact List.mem_singleton_self _⟩

theorem plain_of_mem_fileSignals {sig : List Path} (h : sig ∈ fileSignals) :
    (∀ name ∈ sig, '\\' ∉ name) ∧ ∃ top, sig.head? = some top ∧ top ≠ [] ∧ top ≠ ".".toList := by
  simp only [fileSignals, List.mem_cons, List.not_mem_nil, or_false] at h
  obtain rfl | rfl | rfl | rfl := h <;> exact ⟨by decide, _, rfl, by decide, by decide⟩

/-- What is below a signal file is so in parts. -/
theorem BelowFile.parts (h : BelowFile path) : BelowFile (parts path) := by
  obtain ⟨sig, hsig, ⟨rest, rfl⟩, hne⟩ := h
  obtain ⟨hplain, top, htop, hnil, hdot⟩ := plain_of_mem_fileSignals hsig
  have hrest : rest ≠ [] := fun h => hne (by rw [h, List.append_nil])
  obtain ⟨name, more, rfl⟩ := List.exists_cons_of_ne_nil hrest
  have hsplit : ((sig ++ name :: more).flatMap fun name => name.splitOn '\\') =
      sig ++ (name :: more).flatMap fun name => name.splitOn '\\' := by
    rw [List.flatMap_append, flatMap_splitOn_eq_self hplain]
  obtain ⟨tail, rfl⟩ : ∃ tail, sig = top :: tail := List.head?_eq_some_iff.mp htop
  rw [List.cons_append] at hsplit
  rw [List.cons_append, parts_eq hsplit hnil hdot]
  refine ⟨top :: tail, hsig, List.prefix_append _ _, fun heq => ?_⟩
  -- Something of the next name is left.
  obtain ⟨first, others, hfirst⟩ := List.exists_cons_of_ne_nil (List.splitOn_ne_nil '\\' name)
  have hlength := congrArg List.length heq
  simp [hfirst] at hlength

/-- Two leading dots are still there in parts. -/
theorem LeadingDots.parts (h : LeadingDots path) : LeadingDots (parts path) := by
  cases path with
  | nil => exact h
  | cons name rest =>
    obtain ⟨tail, rfl⟩ : ∃ tail, "..".toList ++ tail = name := h
    obtain ⟨first, more, hfirst⟩ := List.exists_cons_of_ne_nil (List.splitOn_ne_nil '\\' tail)
    have hname : ("..".toList ++ tail).splitOn '\\' = ("..".toList ++ first) :: more := by
      have hstep (letter : Char) (text : Path) (hletter : letter ≠ '\\') :
          (letter :: text).splitOn '\\' = (text.splitOn '\\').modifyHead (List.cons letter) := by
        rw [List.splitOn_cons_eq_if_modifyHead, if_neg (by simpa using hletter)]
      change ('.' :: '.' :: tail).splitOn '\\' = _
      rw [hstep _ _ (by decide), hstep _ _ (by decide), hfirst]
      rfl
    have hsplit : ((("..".toList ++ tail) :: rest).flatMap fun name => name.splitOn '\\') =
        ("..".toList ++ first) :: (more ++ rest.flatMap fun name => name.splitOn '\\') := by
      rw [List.flatMap_cons, hname, List.cons_append]
    rw [parts_eq hsplit (by simp) (by intro hdot; have := congrArg List.length hdot; simp at this)]
    exact List.prefix_append _ _

/-! ### The two sides agree -/

theorem LeadingDots.ne_nil (h : LeadingDots path) : path ≠ [] := by
  rintro rfl
  exact absurd h (by decide)

theorem LeadingDots.not_top (h : LeadingDots path) {top : Path}
    (htop : top ∈ directoryGranularity) : path.headD [] ≠ top := by
  intro hhead
  rw [LeadingDots, hhead] at h
  have hplain : ∀ top ∈ directoryGranularity, ¬ "..".toList <+: top := by decide
  exact hplain top htop h

/-- A path that begins with two dots is of interest unless it goes through `node_modules`. -/
theorem LeadingDots.ofInterest_iff (h : LeadingDots path) : OfInterest path ↔ Recursed path := by
  have hgated : ¬ Gated path := fun hgated => h.not_top hgated rfl
  simp only [OfInterest, ne_eq, h.ne_nil, not_false_eq_true, true_and, hgated, false_implies,
    and_true]

theorem LeadingDots.not_extendsRefs (h : LeadingDots path) : ¬ ExtendsRefs path := by
  intro hextends
  have htop : path.headD [] = ".git".toList := by
    rw [List.headD_eq_head?_getD, hextends.1, Option.getD_some]
  exact h.not_top (by decide) htop

/-- What goes through a name that extends `refs` is no signal. -/
theorem ExtendsRefs.not_ofInterest (h : ExtendsRefs path) : ¬ OfInterest path := by
  obtain ⟨htop, hname⟩ := h
  obtain ⟨rest, rfl⟩ := List.head?_eq_some_iff.mp htop
  cases rest with
  | nil => simp at hname
  | cons name rest =>
    simp only [List.getElem?_cons_succ, List.getElem?_cons_zero, Option.any_some,
      decide_eq_true_eq] at hname
    obtain ⟨hbegins, hne⟩ := hname
    intro hinterest
    have hsignal := isSignal_git.mp (hinterest.2.2 (gated_cons.mpr (.inl rfl)))
    obtain ⟨rfl | rfl, -⟩ | hrefs | ⟨rfl, -⟩ := hsignal
    · exact absurd hbegins (by decide)
    · exact absurd hbegins (by decide)
    · exact hne hrefs
    · exact absurd hbegins (by decide)

/-- A path below a signal file has more names than the signal. -/
theorem BelowFile.cases (h : BelowFile path) :
    ∃ top name next rest, path = top :: name :: next :: rest ∧ [top, name] ∈ fileSignals := by
  obtain ⟨sig, hsig, ⟨more, rfl⟩, hne⟩ := h
  have hmore : more ≠ [] := fun h => hne (by rw [h, List.append_nil])
  obtain ⟨next, rest, rfl⟩ := List.exists_cons_of_ne_nil hmore
  have hlength : ∀ sig ∈ fileSignals, sig.length = 2 := by decide
  obtain ⟨top, name, rfl⟩ := List.length_eq_two.mp (hlength sig hsig)
  exact ⟨top, name, next, rest, rfl, hsig⟩

theorem mem_fileSignals {top name : Path} (h : [top, name] ∈ fileSignals) :
    (top = ".git".toList ∧ name ≠ "worktrees".toList ∧ ¬ "refs".toList <+: name) ∨
      top = ".beads".toList := by
  simp only [fileSignals, List.mem_cons, List.not_mem_nil, or_false, List.cons.injEq,
    and_true] at h
  obtain ⟨rfl, rfl⟩ | ⟨rfl, rfl⟩ | ⟨rfl, -⟩ | ⟨rfl, -⟩ := h
  · exact .inl ⟨rfl, by decide, by decide⟩
  · exact .inl ⟨rfl, by decide, by decide⟩
  · exact .inr rfl
  · exact .inr rfl

theorem BelowFile.gated (h : BelowFile path) : Gated path := by
  obtain ⟨top, name, next, rest, rfl, hsig⟩ := h.cases
  obtain ⟨htop, -⟩ | htop := mem_fileSignals hsig
  · exact gated_cons.mpr (.inl htop)
  · exact gated_cons.mpr (.inr htop)

theorem BelowFile.not_ofInterest (h : BelowFile path) : ¬ OfInterest path := by
  intro hinterest
  have hsignal := hinterest.2.2 h.gated
  obtain ⟨top, name, next, rest, rfl, hsig⟩ := h.cases
  obtain ⟨rfl, hworktrees, hrefs⟩ | rfl := mem_fileSignals hsig
  · obtain ⟨-, hrest⟩ | rfl | ⟨hname, -⟩ := isSignal_git.mp hsignal
    · exact List.cons_ne_nil _ _ hrest
    · exact hrefs List.prefix_rfl
    · exact hworktrees hname
  · obtain heq | heq := isSignal_beads.mp hsignal
    · exact absurd (congrArg List.length heq) (by simp)
    · exact absurd (congrArg List.length heq) (by simp)

theorem BelowFile.not_extendsRefs (h : BelowFile path) : ¬ ExtendsRefs path := by
  obtain ⟨top, name, next, rest, rfl, hsig⟩ := h.cases
  rintro ⟨htop, hname⟩
  have hextends : "refs".toList <+: name := by simpa using (of_decide_eq_true hname).1
  obtain ⟨-, -, hrefs⟩ | rfl := mem_fileSignals hsig
  · exact hrefs hextends
  · exact absurd (Option.some.inj htop) (by decide)

theorem BelowFile.ne_nil (h : BelowFile path) : path ≠ [] := by
  obtain ⟨top, name, next, rest, rfl, -⟩ := h.cases
  exact List.cons_ne_nil _ _

/-- What the helper forwards of the paths that are not ignored. -/
theorem Proper.shouldEmit_iff_of_kept (h : Proper path)
    (hkept : isGitignored gi root (root ++ path) = false) :
    shouldEmit ⟨root, gi, deriveWatchSpec⟩ (root ++ path) = true ↔
      ¬ LeadingDots path ∧ (OfInterest path ∨ (Recursed path ∧ BelowFile path)) := by
  rw [shouldEmit_iff root gi h, hkept]
  by_cases hbelow : BelowFile path
  · simp only [ne_eq, hbelow.ne_nil, hbelow.gated, hbelow, hbelow.not_ofInterest,
      not_false_eq_true, true_and, if_true, or_true, and_true, false_or]
  · by_cases hgated : Gated path
    · simp only [OfInterest, hgated, hbelow, if_true, or_false, and_false, forall_const]
      exact and_left_comm
    · simp only [OfInterest, hgated, hbelow, if_false, and_true, and_false, or_false, false_implies]
      exact and_left_comm

/-- The helper forwards a path that is not ignored exactly when the app's policy has a category for
it, on the unambiguous paths and on no others. -/
theorem shouldEmit_eq_isSome_classify (root : List Path) (gi : GitIgnore) (names : List FileName)
    (hkept : isGitignored gi root (root ++ texts names) = false) :
    shouldEmit ⟨root, gi, deriveWatchSpec⟩ (root ++ texts names) =
        (classifyWatchPath (joinNames (texts names))).isSome ↔
      Unambiguous (texts names) := by
  have hproper : Proper (texts names) := proper_texts
  rw [Bool.eq_iff_iff, hproper.shouldEmit_iff_of_kept hkept, hproper.classifyWatchPath_isSome_iff]
  generalize texts names = path at hproper ⊢
  by_cases hrecursed : Recursed path
  swap
  · -- A name is `node_modules`, and so is a part.
    have hparts : ¬ Recursed (parts path) := mt recursed_of_recursed_parts hrecursed
    simp [Unambiguous, OfInterest, hrecursed, hparts]
  by_cases hplain : '\\' ∈ joinNames path
  · by_cases hdots : LeadingDots path
    · -- The parts begin with two dots too, and only `node_modules` keeps the app from taking them.
      simp [Unambiguous, hrecursed, hplain, hdots, hdots.parts.ofInterest_iff,
        hdots.parts.not_extendsRefs]
    · by_cases hbelow : BelowFile path
      · simp [Unambiguous, hrecursed, hplain, hdots, hbelow, hbelow.parts.not_ofInterest,
          hbelow.parts.not_extendsRefs]
      · simp [Unambiguous, hrecursed, hplain, hdots, hbelow]
  · rw [hproper.parts_eq_self hplain]
    by_cases hdots : LeadingDots path
    · simp [Unambiguous, hrecursed, hplain, hdots, hdots.ofInterest_iff]
    · by_cases hbelow : BelowFile path
      · simp [Unambiguous, hrecursed, hplain, hdots, hbelow, hbelow.not_ofInterest,
          hbelow.not_extendsRefs]
      · by_cases hextends : ExtendsRefs path
        · simp [Unambiguous, hrecursed, hplain, hdots, hbelow, hextends,
            hextends.not_ofInterest]
        · simp [Unambiguous, hrecursed, hplain, hdots, hbelow, hextends]

theorem shouldEmit_eq_isSome_classify_head :
    let names := [.ofText ".git".toList (by decide), .ofText "HEAD".toList (by decide)]
    shouldEmit ⟨[], none, deriveWatchSpec⟩ ([] ++ texts names) =
        (classifyWatchPath (joinNames (texts names))).isSome ↔
      Unambiguous (texts names) :=
  shouldEmit_eq_isSome_classify [] none _ rfl

/-- A directory whose name begins with two dots is not watched by the helper. -/
theorem not_shouldEmit_eq_isSome_classify :
    ¬ ∀ (root : List Path) (gi : GitIgnore) (names : List FileName),
      isGitignored gi root (root ++ texts names) = false →
        shouldEmit ⟨root, gi, deriveWatchSpec⟩ (root ++ texts names) =
          (classifyWatchPath (joinNames (texts names))).isSome := by
  intro hagree
  have hdots := hagree ["srv".toList] none
    [.ofText "..cache".toList (by decide), .ofText "list".toList (by decide)] rfl
  exact absurd hdots (by decide)

end AgentCockpit.Helper
