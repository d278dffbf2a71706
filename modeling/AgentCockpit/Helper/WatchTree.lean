import AgentCockpit.Core.Walk
import AgentCockpit.Helper.WatchPolicy

/-!
# The directories that the remote helper watches

A subscription walks the tree of its root and adds a watch for each directory that the specification
does not exclude. Events on a path come from the watch on its directory, so the walk has to take the
directories of all paths whose events are forwarded.

Adding a watch succeeds. A root that is a symbolic link is no directory for the walk.
-/

namespace AgentCockpit.Helper

open AgentCockpit.Core AgentCockpit.Providers

/-- A directory tree: the root path may be a symbolic link to the directory. -/
structure Tree where
  linked : Bool
  entries : Entries FileName

/-- What the walk does at a directory. -/
def visitDir (projectRoot : List Path) (spec : WatchSpec) (gi : GitIgnore) (path : List Path) :
    Visit :=
  if path.getLastD [] ∈ spec.neverRecurse then .skip
  else if isGitignored gi projectRoot path then .skip
  else
    match relPosix projectRoot path with
    -- Taken for the project root.
    | none => .descend
    | some rel =>
      let top := (rel.splitOn '/').headD []
      if top ∈ spec.directoryGranularity then
        if rel = ".git".toList then .descend
        else if ".git/".toList <+: rel then
          if rel = ".git/refs".toList ∨ ".git/refs/".toList <+: rel then .descend
          else if rel = ".git/worktrees".toList then .shallow
          else .skip
        else if rel = ".beads".toList then .shallow
        else if ".beads/".toList <+: rel then .skip
        else .shallow
      else .descend

/-- The directories that are watched after the walk from `root`. -/
def addWatchesWithSpec (root projectRoot : List Path) (spec : WatchSpec) (gi : GitIgnore)
    (tree : Tree) : List (List Path) :=
  let visit := visitDir projectRoot spec gi
  if tree.linked then []
  else
    match visit root with
    | .skip => []
    | .shallow => [root]
    | .descend =>
      root :: (tree.entries.walk (fun names => visit (root ++ texts names)) []).map
        fun names => root ++ texts names

variable {root path : List Path} {gi : GitIgnore} {tree : Tree} {names : List FileName}

/-- The ignore file names the path. -/
def Ignores (gi : GitIgnore) (names : List Path) : Prop :=
  names ≠ [] ∧ gi.any fun matchesPath => matchesPath (joinNames names)

/-- What is below an ignored directory is ignored. -/
def Inherited (gi : GitIgnore) : Prop :=
  ∀ names more : List FileName, Ignores gi (texts names) → Ignores gi (texts (names ++ more))

/-- The directories of what is forwarded are watched. Watched directories are not `node_modules`,
not ignored, and in `.git` the refs and the worktrees only. -/
structure Covers (root : List Path) (gi : GitIgnore) (tree : Tree) (watched : List (List Path)) :
    Prop where
  emitted : ∀ names ∈ tree.entries.paths,
    shouldEmit ⟨root, gi, deriveWatchSpec⟩ (root ++ texts names) →
      root ++ texts names.dropLast ∈ watched
  pruned : ∀ dir ∈ watched, dir.getLastD [] ∉ neverRecurse ∧ ∃ names, dir = root ++ texts names ∧
    Recursed (texts names) ∧ ¬ Ignores gi (texts names) ∧
      ([".git".toList] <+: texts names →
        texts names = [".git".toList] ∨ refsSignal <+: texts names ∨ texts names = worktreesSignal)

/-- Nothing is watched: the walk does not enter the root. -/
def Blind (root : List Path) (tree : Tree) : Prop :=
  tree.linked ∨ root.getLastD [] ∈ neverRecurse

instance : Decidable (Blind root tree) := by unfold Blind; infer_instance

/-- The trees that the walk covers. If it enters the root, no signal may be in an ignored directory,
nothing may be below a signal file, and no ignored directory may have a path that looks like a way
out of the root. -/
def Coverable (root : List Path) (gi : GitIgnore) (tree : Tree) : Prop :=
  if Blind root tree then
    ∀ names ∈ tree.entries.paths,
      ¬ shouldEmit ⟨root, gi, deriveWatchSpec⟩ (root ++ texts names)
  else
    (∀ names ∈ tree.entries.paths, Recursed (texts names) →
      (IsSignal (texts names) → ¬ Ignores gi (texts names.dropLast)) ∧ ¬ BelowFile (texts names)) ∧
    ∀ names ∈ tree.entries.dirs, Recursed (texts names) → LeadingDots (texts names) →
      ¬ Ignores gi (texts names)

instance (gi : GitIgnore) : DecidablePred (Ignores gi) := fun _ => by
  unfold Ignores; infer_instance

/-! ### Visits -/

theorem Proper.isGitignored_iff (h : Proper path) :
    isGitignored gi root (root ++ path) = true ↔ ¬ LeadingDots path ∧ Ignores gi path := by
  cases gi with
  | none => simp [isGitignored, Ignores]
  | some matchesPath =>
    rw [isGitignored, h.relPosix_append]
    by_cases hne : path = []
    · simp [hne, Ignores]
    · by_cases hdots : LeadingDots path <;> simp [hne, hdots, Ignores]

/-- The directories in `.git` and `.beads` through which the walk descends. -/
def Deep (path : List Path) : Prop := path = [".git".toList] ∨ refsSignal <+: path

/-- The directories in `.git` and `.beads` that are watched alone. -/
def Shallow (path : List Path) : Prop := path = worktreesSignal ∨ path = [".beads".toList]

instance : DecidablePred Deep := fun _ => by unfold Deep; infer_instance

instance : DecidablePred Shallow := fun _ => by unfold Shallow; infer_instance

theorem not_dotted_of_gated (h : Gated path) : ¬ LeadingDots path :=
  fun hdots => hdots.not_top h rfl

theorem Proper.joinNames_eq_iff {text : Path} {sig : List Path} (h : Proper path) (hne : path ≠ [])
    (htext : text = joinNames sig) (hfree : ∀ name ∈ sig, '/' ∉ name) (hsig : sig ≠ []) :
    joinNames path = text ↔ path = sig := by
  rw [htext]
  exact join_eq_join h.free hne hfree hsig

theorem Proper.joinNames_begins_iff {text below : Path} {sig : List Path} (h : Proper path)
    (hne : path ≠ []) (htext : text = joinNames sig) (hbelow : below = text ++ "/".toList)
    (hfree : ∀ name ∈ sig, '/' ∉ name) (hsig : sig ≠ []) :
    (joinNames path = text ∨ below <+: joinNames path) ↔ sig <+: path := by
  rw [hbelow, htext]
  exact h.matches_iff hne hfree hsig

/-- The tests on the text of a path in `.git` or `.beads`, read on its names. -/
theorem Proper.gated_visit (h : Proper path) (hgated : Gated path) :
    (if joinNames path = ".git".toList then .descend
      else if ".git/".toList <+: joinNames path then
        if joinNames path = ".git/refs".toList ∨ ".git/refs/".toList <+: joinNames path then
          .descend
        else if joinNames path = ".git/worktrees".toList then .shallow
        else .skip
      else if joinNames path = ".beads".toList then .shallow
      else if ".beads/".toList <+: joinNames path then .skip
      else .shallow : Visit) =
      if Deep path then .descend else if Shallow path then .shallow else .skip := by
  have hne : path ≠ [] := by
    rintro rfl
    exact absurd hgated (by decide)
  have hgit : joinNames path = ".git".toList ↔ path = [".git".toList] :=
    h.joinNames_eq_iff hne (by decide) (by decide) (by decide)
  have hrefs : (joinNames path = ".git/refs".toList ∨ ".git/refs/".toList <+: joinNames path) ↔
      refsSignal <+: path :=
    h.joinNames_begins_iff hne (by decide) (by decide) (by decide) (by decide)
  have hworktrees : joinNames path = ".git/worktrees".toList ↔ path = worktreesSignal :=
    h.joinNames_eq_iff hne (by decide) (by decide) (by decide)
  have hbeads : joinNames path = ".beads".toList ↔ path = [".beads".toList] :=
    h.joinNames_eq_iff hne (by decide) (by decide) (by decide)
  have hbelowGit : (joinNames path = ".git".toList ∨ ".git/".toList <+: joinNames path) ↔
      [".git".toList] <+: path :=
    h.joinNames_begins_iff hne (by decide) (by decide) (by decide) (by decide)
  have hbelowBeads : (joinNames path = ".beads".toList ∨ ".beads/".toList <+: joinNames path) ↔
      [".beads".toList] <+: path :=
    h.joinNames_begins_iff hne (by decide) (by decide) (by decide) (by decide)
  -- each test on the joined names is one on the names, and the first name decides which apply
  obtain ⟨top, rest, rfl⟩ := List.exists_cons_of_ne_nil hne
  obtain rfl | rfl := gated_cons.mp hgated
  · by_cases htop : joinNames (".git".toList :: rest) = ".git".toList
    · rw [if_pos htop, if_pos (.inl (hgit.mp htop))]
    · have hbelow := (hbelowGit.mpr (by simp)).resolve_left htop
      rw [if_neg htop, if_pos hbelow]
      have hdeep : Deep (".git".toList :: rest) ↔ refsSignal <+: ".git".toList :: rest :=
        or_iff_right (mt hgit.mpr htop)
      have hshallow : Shallow (".git".toList :: rest) ↔ ".git".toList :: rest = worktreesSignal :=
        or_iff_left (by simp)
      simp only [hrefs, hworktrees, hdeep, hshallow]
  · have hout : ¬ [".git".toList] <+: ".beads".toList :: rest := by simp
    obtain ⟨htop, hbelow⟩ := not_or.mp (mt hbelowGit.mp hout)
    have hdeep : ¬ Deep (".beads".toList :: rest) := by simp [Deep, refsSignal]
    have hshallow : Shallow (".beads".toList :: rest) ↔
        ".beads".toList :: rest = [".beads".toList] :=
      or_iff_right (by simp [worktreesSignal])
    rw [if_neg htop, if_neg hbelow, if_neg hdeep]
    by_cases heq : joinNames (".beads".toList :: rest) = ".beads".toList
    · rw [if_pos heq, if_pos (hshallow.mpr (hbeads.mp heq))]
    · rw [if_neg heq, if_neg (mt hshallow.mp (mt hbeads.mpr heq)),
        if_pos ((hbelowBeads.mpr (by simp)).resolve_left heq)]

theorem getLastD_append (hne : path ≠ []) : (root ++ path).getLastD [] = path.getLastD [] := by
  rw [← List.dropLast_append_getLast hne, ← List.append_assoc, List.getLastD_concat,
    List.getLastD_concat]

/-- A visit below the root. -/
theorem Proper.visitDir_append (h : Proper path) (hne : path ≠ []) :
    visitDir root deriveWatchSpec gi (root ++ path) =
      if path.getLastD [] ∈ neverRecurse then .skip
      else if LeadingDots path then .descend
      else if Ignores gi path then .skip
      else if Gated path then
        if Deep path then .descend else if Shallow path then .shallow else .skip
      else .descend := by
  rw [visitDir, getLastD_append hne]
  by_cases hname : path.getLastD [] ∈ neverRecurse
  · have hskip : path.getLastD [] ∈ deriveWatchSpec.neverRecurse := hname
    rw [if_pos hskip, if_pos hname]
  have hskip : path.getLastD [] ∉ deriveWatchSpec.neverRecurse := hname
  rw [if_neg hskip, if_neg hname]
  by_cases hdots : LeadingDots path
  · have hkept : ¬ isGitignored gi root (root ++ path) = true := fun hignored =>
      (h.isGitignored_iff.mp hignored).1 hdots
    have hrel : relPosix root (root ++ path) = none := by
      rw [h.relPosix_append, if_pos (.inr hdots)]
    simp only [if_neg hkept, hrel, if_pos hdots]
  · rw [if_neg hdots]
    have hrel : relPosix root (root ++ path) = some (joinNames path) := by
      rw [h.relPosix_append, if_neg (not_or.mpr ⟨hne, hdots⟩)]
    by_cases hignored : Ignores gi path
    · rw [if_pos (h.isGitignored_iff.mpr ⟨hdots, hignored⟩), if_pos hignored]
    · rw [if_neg fun hgit => hignored (h.isGitignored_iff.mp hgit).2, if_neg hignored]
      simp only [hrel, h.splitOn_joinNames hne]
      by_cases hgated : Gated path
      · have htop : path.headD [] ∈ deriveWatchSpec.directoryGranularity := hgated
        rw [if_pos htop, if_pos hgated, ← h.gated_visit hgated]
      · have htop : path.headD [] ∉ deriveWatchSpec.directoryGranularity := hgated
        rw [if_neg htop, if_neg hgated]

/-! ### The watched directories -/

theorem descend_iff (h : Proper path) (hne : path ≠ []) :
    visitDir root deriveWatchSpec gi (root ++ path) = .descend ↔
      path.getLastD [] ∉ neverRecurse ∧
        (LeadingDots path ∨ (¬ Ignores gi path ∧ (Gated path → Deep path))) := by
  rw [h.visitDir_append hne]
  split_ifs with hname hdots hignored hgated hdeep hshallow <;> simp_all

theorem not_skip_iff (h : Proper path) (hne : path ≠ []) :
    visitDir root deriveWatchSpec gi (root ++ path) ≠ .skip ↔
      path.getLastD [] ∉ neverRecurse ∧
        (LeadingDots path ∨ (¬ Ignores gi path ∧ (Gated path → Deep path ∨ Shallow path))) := by
  rw [h.visitDir_append hne]
  split_ifs with hname hdots hignored hgated hdeep hshallow <;> simp_all

/-- Directories that are watched are below others through which the walk descends. -/
theorem deep_of_prefix {upper : List Path} (h : Deep path ∨ Shallow path) (hpre : upper <+: path)
    (hnil : upper ≠ []) (hne : upper ≠ path) : Deep upper := by
  obtain ⟨top, tail, rfl⟩ := List.exists_cons_of_ne_nil hnil
  have hsingle {name : Path} (hbelow : top :: tail <+: [name]) : top :: tail = [name] := by
    rw [List.cons_prefix_cons, List.prefix_nil] at hbelow
    rw [hbelow.1, hbelow.2]
  have hpair {name : Path} (hbelow : top :: tail <+: [".git".toList, name]) :
      top :: tail = [".git".toList] ∨ top :: tail = [".git".toList, name] := by
    rw [List.cons_prefix_cons, List.prefix_cons_iff] at hbelow
    obtain ⟨rfl, rfl | ⟨_, rfl, hrest⟩⟩ := hbelow
    · exact .inl rfl
    · exact .inr (by rw [List.prefix_nil.mp hrest])
  obtain (rfl | hrefs) | rfl | rfl := h
  · exact absurd (hsingle hpre) hne
  · obtain hbelow | habove := List.prefix_or_prefix_of_prefix hpre hrefs
    · obtain htop | hself := hpair hbelow
      · exact .inl htop
      · exact .inr (by rw [hself]; exact List.prefix_rfl)
    · exact .inr habove
  · exact .inl ((hpair hpre).resolve_right hne)
  · exact absurd (hsingle hpre) hne

theorem headD_texts_of_prefix {upper : List FileName} (hpre : upper <+: names)
    (hnil : upper ≠ []) : (texts upper).headD [] = (texts names).headD [] := by
  obtain ⟨rest, rfl⟩ := hpre
  obtain ⟨top, tail, rfl⟩ := List.exists_cons_of_ne_nil hnil
  rfl

theorem texts_ne_nil (h : names ≠ []) : texts names ≠ [] := by
  simpa [texts] using h

theorem texts_injective : Function.Injective texts := by
  refine List.map_injective_iff.mpr fun name name' h => ?_
  cases name
  cases name'
  congr

theorem Recursed.getLastD {path : List Path} (h : Recursed path) (hne : path ≠ []) :
    path.getLastD [] ∉ neverRecurse := by
  rw [List.getLastD_eq_getLast?, List.getLast?_eq_some_getLast hne]
  exact h _ (List.getLast_mem hne)

/-- The walk takes a directory that is not excluded, if nothing above it is. -/
theorem taken_iff (hinherited : Inherited gi) (hne : names ≠ []) :
    Entries.Taken (fun names => visitDir root deriveWatchSpec gi (root ++ texts names)) [] names ↔
      Recursed (texts names) ∧ (LeadingDots (texts names) ∨
        (¬ Ignores gi (texts names) ∧
          (Gated (texts names) → Deep (texts names) ∨ Shallow (texts names)))) := by
  simp only [Entries.Taken, List.nil_append]
  constructor
  · rintro ⟨htake, habove⟩
    rw [not_skip_iff proper_texts (texts_ne_nil hne)] at htake
    refine ⟨fun text hmem => ?_, htake.2⟩
    -- A name is the last one of the path down to it.
    obtain ⟨name, hname, rfl⟩ := List.mem_map.mp hmem
    obtain ⟨before, after, rfl⟩ := List.append_of_mem hname
    have hlast : (texts (before ++ [name])).getLastD [] = name.text := by
      rw [texts, List.map_append, List.map_singleton, List.getLastD_concat]
    by_cases hafter : after = []
    · rw [hafter, hlast] at htake
      exact htake.1
    · have hupper : before ++ [name] ≠ before ++ name :: after := by simpa using hafter
      have hdescend := habove (before ++ [name]) (by simp) ⟨after, by simp⟩ hupper
      rw [descend_iff proper_texts (texts_ne_nil (by simp)), hlast] at hdescend
      exact hdescend.1
  · rintro ⟨hrecursed, hkept⟩
    refine ⟨?_, fun upper hnil hpre hupper => ?_⟩
    · rw [not_skip_iff proper_texts (texts_ne_nil hne)]
      exact ⟨hrecursed.getLastD (texts_ne_nil hne), hkept⟩
    · rw [descend_iff proper_texts (texts_ne_nil hnil)]
      have hhead := headD_texts_of_prefix hpre hnil
      obtain ⟨rest, rfl⟩ := hpre
      have htexts : texts upper <+: texts (upper ++ rest) := ⟨texts rest, by simp [texts]⟩
      have habove : Recursed (texts upper) := fun name hmem =>
        hrecursed name (htexts.subset hmem)
      refine ⟨habove.getLastD (texts_ne_nil hnil), hkept.imp ?_ ?_⟩
      · intro hdots
        rwa [LeadingDots, hhead]
      · rintro ⟨hignored, hreach⟩
        refine ⟨fun h => hignored (hinherited upper rest h), fun hgated => ?_⟩
        rw [Gated, hhead] at hgated
        exact deep_of_prefix (hreach hgated) htexts (texts_ne_nil hnil)
          fun h => hupper (texts_injective h)

theorem Blind.not_watched (h : Blind root tree) :
    addWatchesWithSpec root root deriveWatchSpec gi tree = [] := by
  rw [addWatchesWithSpec]
  obtain hlinked | hname := h
  · rw [if_pos hlinked]
  · have hskip : visitDir root deriveWatchSpec gi root = .skip := by
      rw [visitDir]
      exact if_pos hname
    simp only [hskip, ite_self]

/-- The root is watched unless the walk does not enter it, and below it what is not excluded. -/
theorem mem_watched_iff (hinherited : Inherited gi) (hblind : ¬ Blind root tree)
    {dir : List Path} :
    dir ∈ addWatchesWithSpec root root deriveWatchSpec gi tree ↔
      dir = root ∨ ∃ names ∈ tree.entries.dirs, dir = root ++ texts names ∧
        Recursed (texts names) ∧ (LeadingDots (texts names) ∨
          (¬ Ignores gi (texts names) ∧
            (Gated (texts names) → Deep (texts names) ∨ Shallow (texts names)))) := by
  obtain ⟨hlinked, hname⟩ := not_or.mp hblind
  have hproper : Proper [] := fun name hmem => absurd hmem List.not_mem_nil
  have hrel : relPosix root root = none := by
    have hrel : relPosix root (root ++ []) = _ := hproper.relPosix_append
    rwa [List.append_nil, if_pos (.inl rfl)] at hrel
  have hvisit : visitDir root deriveWatchSpec gi root = .descend := by
    have hkept : isGitignored gi root root = false := by
      cases gi with
      | none => rfl
      | some matchesPath => rw [isGitignored, hrel]
    have hskip : root.getLastD [] ∉ deriveWatchSpec.neverRecurse := hname
    simp only [visitDir, if_neg hskip, hkept, hrel, if_false, Bool.false_eq_true]
  rw [addWatchesWithSpec, if_neg hlinked]
  simp only [hvisit, List.mem_cons, List.mem_map, Entries.mem_walk, List.nil_append]
  refine or_congr_right ⟨?_, ?_⟩
  · rintro ⟨names, ⟨_, hdir, rfl, htaken⟩, rfl⟩
    exact ⟨names, hdir, rfl, (taken_iff hinherited (Entries.ne_nil_of_mem_dirs hdir)).mp htaken⟩
  · rintro ⟨names, hdir, rfl, hkept⟩
    exact ⟨names, ⟨names, hdir, rfl,
      (taken_iff hinherited (Entries.ne_nil_of_mem_dirs hdir)).mpr hkept⟩, rfl⟩

/-! ### Coverage -/

/-- The directory of a signal is one of those in `.git` and `.beads` that are watched. -/
theorem IsSignal.deep_or_shallow (h : IsSignal path) :
    Deep path.dropLast ∨ Shallow path.dropLast := by
  obtain hfile | ⟨rest, rfl⟩ | ⟨⟨rest, rfl⟩, hlength⟩ := h
  · have hfiles : ∀ sig ∈ fileSignals, Deep sig.dropLast ∨ Shallow sig.dropLast := by decide
    exact hfiles path hfile
  · left
    by_cases hrest : rest = []
    · rw [hrest]
      exact .inl rfl
    · rw [List.dropLast_append_of_ne_nil hrest]
      exact .inr (List.prefix_append _ _)
  · cases rest with
    | nil => exact .inl (.inl rfl)
    | cons name more =>
      -- A child of the worktrees.
      have hmore : more = [] := by
        simp only [List.length_append, worktreesSignal, List.length_cons,
          List.length_nil] at hlength
        exact List.eq_nil_of_length_eq_zero (by omega)
      rw [hmore]
      exact .inr (.inl (List.dropLast_concat ..))

/-- The directory of a path below a signal file is none of them. -/
theorem BelowFile.not_deep_or_shallow (h : BelowFile path) :
    ¬ (Deep path.dropLast ∨ Shallow path.dropLast) := by
  obtain ⟨top, name, next, rest, rfl, hsig⟩ := h.cases
  rw [List.dropLast_cons_cons, List.dropLast_cons_cons]
  rintro ((h | h) | h | h)
  · exact absurd (List.cons.inj h).2 (List.cons_ne_nil _ _)
  · rw [refsSignal, List.cons_prefix_cons, List.cons_prefix_cons] at h
    obtain ⟨-, -, hrefs⟩ | rfl := mem_fileSignals hsig
    · exact hrefs (h.2.1 ▸ List.prefix_rfl)
    · exact absurd h.1 (by decide)
  · obtain ⟨rfl, htail⟩ := List.cons.inj h
    obtain ⟨rfl, -⟩ := List.cons.inj htail
    obtain ⟨-, hworktrees, -⟩ | htop := mem_fileSignals hsig
    · exact hworktrees rfl
    · exact absurd htop (by decide)
  · exact absurd (List.cons.inj h).2 (List.cons_ne_nil _ _)

theorem texts_dropLast : texts names.dropLast = (texts names).dropLast := List.map_dropLast

theorem recursed_dropLast (h : Recursed (texts names)) : Recursed (texts names.dropLast) := by
  intro text hmem
  rw [texts_dropLast] at hmem
  exact h text (List.dropLast_subset _ hmem)

theorem headD_dropLast (hne : names.dropLast ≠ []) :
    (texts names.dropLast).headD [] = (texts names).headD [] :=
  headD_texts_of_prefix (List.dropLast_prefix names) hne

theorem IsSignal.gated (h : IsSignal path) : Gated path := by
  obtain hfile | ⟨rest, rfl⟩ | ⟨⟨rest, rfl⟩, -⟩ := h
  · have hfiles : ∀ sig ∈ fileSignals, Gated sig := by decide
    exact hfiles path hfile
  · exact gated_cons.mpr (.inl rfl)
  · exact gated_cons.mpr (.inl rfl)

/-- What is forwarded in `.git` and `.beads`. -/
theorem shouldEmit_of_gated (hgated : Gated (texts names)) (hrecursed : Recursed (texts names))
    (h : IsSignal (texts names) ∨ BelowFile (texts names)) :
    shouldEmit ⟨root, gi, deriveWatchSpec⟩ (root ++ texts names) = true := by
  have hne : texts names ≠ [] := by
    intro hnil
    rw [hnil] at hgated
    exact absurd hgated (by decide)
  rw [shouldEmit_iff root gi proper_texts, if_pos hgated]
  exact ⟨hne, not_dotted_of_gated hgated, hrecursed, h⟩

/-- The directory of a path in `.git` or `.beads`, if it is watched, is no ignored one and is one
of those that are watched there. -/
theorem kept_of_watched (hinherited : Inherited gi) (hblind : ¬ Blind root tree)
    (hgated : Gated (texts names)) (hne : names.dropLast ≠ [])
    (h : root ++ texts names.dropLast ∈ addWatchesWithSpec root root deriveWatchSpec gi tree) :
    ¬ Ignores gi (texts names.dropLast) ∧
      (Deep (texts names.dropLast) ∨ Shallow (texts names.dropLast)) := by
  obtain hroot | ⟨above, -, hdir, -, hkept⟩ := (mem_watched_iff hinherited hblind).mp h
  · exact absurd (List.append_right_eq_self.mp hroot) (texts_ne_nil hne)
  · rw [← List.append_cancel_left hdir] at hkept
    have habove : Gated (texts names.dropLast) := by rwa [Gated, headD_dropLast hne]
    obtain hdots | ⟨hignored, hreach⟩ := hkept
    · exact absurd hdots (not_dotted_of_gated habove)
    · exact ⟨hignored, hreach habove⟩

theorem BelowFile.dropLast_ne_nil (h : BelowFile (texts names)) : names.dropLast ≠ [] := by
  obtain ⟨top, name, next, rest, hnames, -⟩ := h.cases
  intro hnil
  have hlength := congrArg List.length hnames
  have hdrop := congrArg List.length hnil
  simp only [texts, List.length_map, List.length_cons, List.length_dropLast,
    List.length_nil] at hlength hdrop
  omega

/-- Where a forwarded path lies, its directory is watched. -/
theorem Coverable.emitted (hinherited : Inherited gi) (hblind : ¬ Blind root tree)
    (hsignals : ∀ names ∈ tree.entries.paths, Recursed (texts names) →
      (IsSignal (texts names) → ¬ Ignores gi (texts names.dropLast)) ∧ ¬ BelowFile (texts names))
    (hmem : names ∈ tree.entries.paths)
    (h : shouldEmit ⟨root, gi, deriveWatchSpec⟩ (root ++ texts names) = true) :
    root ++ texts names.dropLast ∈ addWatchesWithSpec root root deriveWatchSpec gi tree := by
  rw [mem_watched_iff hinherited hblind]
  by_cases hdrop : names.dropLast = []
  · exact .inl (by rw [hdrop]; exact List.append_nil _)
  obtain ⟨hne, hdots, hrecursed, hrule⟩ := (shouldEmit_iff root gi proper_texts).mp h
  obtain ⟨hsignal, hbelow⟩ := hsignals names hmem hrecursed
  refine .inr ⟨names.dropLast, Entries.dropLast_mem_dirs hmem hdrop, rfl,
    recursed_dropLast hrecursed, .inr ?_⟩
  by_cases hgated : Gated (texts names)
  · rw [if_pos hgated] at hrule
    have hrule := hrule.resolve_right hbelow
    refine ⟨hsignal hrule, fun _ => ?_⟩
    rw [texts_dropLast]
    exact hrule.deep_or_shallow
  · rw [if_neg hgated] at hrule
    have hignored : ¬ Ignores gi (texts names) := fun hignored => by
      rw [proper_texts.isGitignored_iff.mpr ⟨hdots, hignored⟩] at hrule
      exact absurd hrule (by decide)
    refine ⟨fun habove => hignored ?_, fun habove => absurd ?_ hgated⟩
    · -- An ignored directory passes it on to what is in it.
      obtain ⟨rest, hrest⟩ := List.dropLast_prefix names
      rw [← hrest]
      exact hinherited _ rest habove
    · rwa [Gated, headD_dropLast hdrop] at habove

/-- The walk covers a tree exactly if the tree is coverable. -/
theorem addWatchesWithSpec_covers_iff (root : List Path) (gi : GitIgnore) (tree : Tree)
    (hinherited : Inherited gi) :
    Covers root gi tree (addWatchesWithSpec root root deriveWatchSpec gi tree) ↔
      Coverable root gi tree := by
  by_cases hblind : Blind root tree
  · rw [hblind.not_watched, Coverable, if_pos hblind]
    constructor
    · intro hcovers names hmem hemit
      exact absurd (hcovers.emitted names hmem hemit) List.not_mem_nil
    · intro hnone
      exact ⟨fun names hmem hemit => absurd hemit (hnone names hmem),
        fun dir hdir => absurd hdir List.not_mem_nil⟩
  rw [Coverable, if_neg hblind]
  constructor
  · rintro ⟨hemitted, hpruned⟩
    refine ⟨fun names hmem hrecursed => ⟨fun hsignal hignored => ?_, fun hbelow => ?_⟩,
      fun names hdir hrecursed hdots hignored => ?_⟩
    · -- a signal in an ignored directory is emitted, but its directory is not watched
      have hdrop : names.dropLast ≠ [] := by
        intro hnil
        rw [hnil] at hignored
        exact hignored.1 rfl
      have hwatched := hemitted names hmem
        (shouldEmit_of_gated hsignal.gated hrecursed (.inl hsignal))
      exact (kept_of_watched hinherited hblind hsignal.gated hdrop hwatched).1 hignored
    · have hwatched := hemitted names hmem
        (shouldEmit_of_gated hbelow.gated hrecursed (.inr hbelow))
      have hkept := kept_of_watched hinherited hblind hbelow.gated hbelow.dropLast_ne_nil hwatched
      rw [texts_dropLast] at hkept
      exact hbelow.not_deep_or_shallow hkept.2
    · obtain ⟨-, names', hsame, -, hkept, -⟩ := hpruned (root ++ texts names)
        ((mem_watched_iff hinherited hblind).mpr
          (.inr ⟨names, hdir, rfl, hrecursed, .inl hdots⟩))
      rw [← List.append_cancel_left hsame] at hkept
      exact hkept hignored
  · rintro ⟨hsignals, hdotted⟩
    refine ⟨fun names hmem => Coverable.emitted hinherited hblind hsignals hmem, fun dir hdir => ?_⟩
    obtain rfl | ⟨names, hmem, rfl, hrecursed, hkept⟩ := (mem_watched_iff hinherited hblind).mp hdir
    · refine ⟨fun hname => hblind (.inr hname), [], (List.append_nil _).symm, ?_, ?_, ?_⟩
      · exact fun name hmem => absurd hmem List.not_mem_nil
      · exact fun hignored => hignored.1 rfl
      · exact fun hgit => absurd hgit (by decide)
    · have hne := texts_ne_nil (Entries.ne_nil_of_mem_dirs hmem)
      refine ⟨?_, names, rfl, hrecursed, ?_, fun hgit => ?_⟩
      · rw [getLastD_append hne]
        exact hrecursed.getLastD hne
      · -- what is kept for its leading dots is not ignored in a coverable tree
        obtain hdots | ⟨hignored, -⟩ := hkept
        · exact hdotted names hmem hrecursed hdots
        · exact hignored
      · obtain ⟨rest, hrest⟩ := hgit
        rw [← hrest] at hkept ⊢
        have hgated : Gated ([".git".toList] ++ rest) := gated_cons.mpr (.inl rfl)
        obtain hdots | ⟨-, hreach⟩ := hkept
        · exact absurd hdots (not_dotted_of_gated hgated)
        · obtain (htop | hrefs) | hworktrees | hbeads := hreach hgated
          · exact .inl htop
          · exact .inr (.inl hrefs)
          · exact .inr (.inr hworktrees)
          · exact absurd (List.cons.inj hbeads).1 (by decide)

/-- An ignore file with one name that stands at the top. -/
def ignoreTop (name : Path) : GitIgnore := some fun rel => name <+: rel

theorem inherited_ignoreTop (name : Path) : Inherited (ignoreTop name) := by
  rintro names more ⟨hne, hignored⟩
  have hbegins : name <+: joinNames (texts names) := by simpa [ignoreTop] using hignored
  by_cases hmore : more = []
  · rw [hmore, List.append_nil]
    exact ⟨hne, hignored⟩
  have happend : texts (names ++ more) = texts names ++ texts more := List.map_append
  have hlonger : joinNames (texts names) <+: joinNames (texts (names ++ more)) := by
    rw [joinNames, joinNames, happend, join_append hne (texts_ne_nil hmore)]
    exact List.prefix_append _ _
  refine ⟨by simp [happend, hne], ?_⟩
  simpa [ignoreTop] using hbegins.trans hlonger

/-- A root with the issues of `.beads` in it. -/
def beadsTree : Tree where
  linked := false
  entries := .dir (.ofText ".beads".toList (by decide))
    (.file (.ofText "issues.jsonl".toList (by decide)) .nil) .nil

theorem addWatchesWithSpec_covers_iff_beads :
    Covers ["srv".toList] (ignoreTop "target".toList) beadsTree
        (addWatchesWithSpec ["srv".toList] ["srv".toList] deriveWatchSpec
          (ignoreTop "target".toList) beadsTree) ↔
      Coverable ["srv".toList] (ignoreTop "target".toList) beadsTree :=
  addWatchesWithSpec_covers_iff _ _ _ (inherited_ignoreTop _)

/-- The issues of an ignored `.beads` are forwarded, but their directory is not watched. -/
theorem not_addWatchesWithSpec_covers :
    ¬ ∀ (root : List Path) (gi : GitIgnore) (tree : Tree), Inherited gi →
      Covers root gi tree (addWatchesWithSpec root root deriveWatchSpec gi tree) := by
  intro hcovers
  have hbeads := (hcovers ["srv".toList] (ignoreTop ".beads".toList) beadsTree
    (inherited_ignoreTop _)).emitted
    [.ofText ".beads".toList (by decide), .ofText "issues.jsonl".toList (by decide)]
    (by decide) (by decide)
  exact absurd hbeads (by decide)

end AgentCockpit.Helper
