import AgentCockpit.Callback.Protocol
import AgentCockpit.Core.PathNames
import Mathlib.Data.List.DropRight

/-!
# What an opened path is shown as

The app opens a path as a file of the deepest worktree that it is inside of, else as a file of the
project, else as an external file. It matches the canonical path if the tool has sent one; otherwise
the path as it was named, and then the path as it is behind a project root that is a link.

Paths are strings of UTF-16 units. The functions of Node's `path.posix` are in the namespace
`Posix`.
-/

namespace AgentCockpit.Callback

open AgentCockpit.Core

namespace Posix

def slash : UInt16 := 0x2F

/-- The paths of POSIX: `/` between names, `.` and `..`. -/
def paths : PathSyntax UInt16 where
  sep := slash
  current := [0x2E]
  parent := [0x2E, 0x2E]
  current_ne_nil := by decide
  parent_ne_nil := by decide
  sep_notMem_current := by decide
  sep_notMem_parent := by decide

def isAbsolute (path : JsString) : Bool := path.head? == some slash

/-- The names of a path with `.`, `..` and repeated separators resolved, and no separator around
them. -/
def normalizeString (path : JsString) (allowAboveRoot : Bool) : JsString :=
  join slash (paths.resolve (!allowAboveRoot) (path.splitOn slash))

/-- A separator at the end stays. -/
def normalize (path : JsString) : JsString :=
  if path = [] then paths.current
  else
    let trailingSeparator := path.getLast? == some slash
    let normalized := normalizeString path (!isAbsolute path)
    if normalized = [] then
      if isAbsolute path then [slash]
      else if trailingSeparator then paths.current ++ [slash]
      else paths.current
    else
      let normalized := if trailingSeparator then normalized ++ [slash] else normalized
      if isAbsolute path then slash :: normalized else normalized

def joinPaths (parts : List JsString) : JsString :=
  let parts := parts.filter (· ≠ [])
  if parts = [] then paths.current else normalize (join slash parts)

end Posix

namespace OpenTarget

open Posix

inductive SelectionKind
  | file
  | externalFile
  deriving DecidableEq, Repr

structure OpenSelection where
  kind : SelectionKind
  path : JsString
  worktreePath : JsString
  deriving DecidableEq, Repr

/-- The project root as configured and what it is a link to. -/
structure RootAlias where
  configured : JsString
  canonical : JsString

structure ClassifyInput where
  path : JsString
  canonicalPath : Option JsString
  worktrees : List JsString
  projectRoots : List JsString
  rootAlias : Option RootAlias

def clean (path : JsString) : JsString :=
  let normalized := Posix.normalize path
  if 1 < normalized.length then normalized.rdropWhile (· = slash) else normalized

/-- `subject` relative to `root` if it is strictly inside. -/
def relativeInside (root subject : JsString) : Option JsString :=
  let base := clean root
  let front := if base = [slash] then [slash] else base ++ [slash]
  if front.length < subject.length ∧ front <+: subject then some (subject.drop front.length)
  else none

structure WorktreeHit where
  worktree : JsString
  rel : JsString
  deriving DecidableEq, Repr

/-- One worktree more: it is taken if its path is longer than that of the best one so far. -/
def deeperWorktree (subject : JsString) (best : Option WorktreeHit) (worktree : JsString) :
    Option WorktreeHit :=
  match relativeInside worktree subject with
  | none => best
  | some rel =>
    match best with
    | none => some ⟨worktree, rel⟩
    | some hit =>
      if (clean hit.worktree).length < (clean worktree).length then some ⟨worktree, rel⟩
      else some hit

def deepestWorktree (worktrees : List JsString) (subject : JsString) : Option WorktreeHit :=
  worktrees.foldl (deeperWorktree subject) none

/-- A path under the configured root as it is under the root's target. -/
def viaRootAlias (logical : JsString) : Option RootAlias → List JsString
  | none => []
  | some rootAlias =>
    match relativeInside rootAlias.configured logical with
    | none => []
    | some rel => [clean (joinPaths [rootAlias.canonical, rel])]

/-- The path that is matched first. -/
def firstSubject (input : ClassifyInput) : JsString :=
  clean (input.canonicalPath.getD input.path)

/-- The paths that are matched against the worktrees. -/
def subjects (input : ClassifyInput) : List JsString :=
  match input.canonicalPath with
  | some canonicalPath => [clean canonicalPath]
  | none => clean input.path :: viaRootAlias (clean input.path) input.rootAlias

def classifyOpenTarget (input : ClassifyInput) : OpenSelection :=
  match (subjects input).findSome? (deepestWorktree input.worktrees) with
  | some hit => ⟨.file, hit.rel, hit.worktree⟩
  | none =>
    match input.projectRoots.findSome? fun root => relativeInside root (firstSubject input) with
    | some rel => ⟨.file, rel, []⟩
    | none => ⟨.externalFile, clean input.path, []⟩

/-! ### What a classification promises -/

/-- The names that a path leads through. -/
def names (path : JsString) : List JsString :=
  paths.resolve (isAbsolute path) (path.splitOn slash)

/-- A path is inside an absolute root: its names go on behind those of the root. -/
structure StrictlyInside (root subject : JsString) : Prop where
  absolute : isAbsolute subject = true
  begins : names root <+: names subject
  ne : names root ≠ names subject

/-- Some root has the path inside. -/
def Contained (roots : List JsString) (subject : JsString) : Prop :=
  ∃ root ∈ roots, StrictlyInside root subject

/-- The first value of a list with a property. -/
structure FirstIn {α : Type} (P : α → Prop) (values : List α) (value : α) : Prop where
  holds : P value
  first : ∃ before after, values = before ++ value :: after ∧ ∀ earlier ∈ before, ¬ P earlier

/-- A relative path that stays inside what it is relative to. -/
structure StaysInside (rel : JsString) : Prop where
  ne_nil : rel ≠ []
  head : rel.head? ≠ some slash
  below : ∀ name ∈ rel.splitOn slash, paths.Plain name

/-- A deepest worktree that contains the path. -/
structure DeepestAround (worktrees : List JsString) (subject worktree : JsString) : Prop where
  mem : worktree ∈ worktrees
  inside : StrictlyInside worktree subject
  deepest : ∀ other ∈ worktrees, StrictlyInside other subject →
    (names other).length ≤ (names worktree).length

structure Classified (input : ClassifyInput) (selection : OpenSelection) : Prop where
  worktree_iff : selection.kind = .file ∧ selection.worktreePath ≠ [] ↔
    ∃ subject ∈ subjects input, Contained input.worktrees subject
  worktree : ∀ subject, FirstIn (Contained input.worktrees) (subjects input) subject →
    DeepestAround input.worktrees subject selection.worktreePath ∧
      joinPaths [clean selection.worktreePath, selection.path] = subject
  root : (∀ subject ∈ subjects input, ¬ Contained input.worktrees subject) →
    ∀ root, FirstIn (StrictlyInside · (firstSubject input)) input.projectRoots root →
      selection.kind = .file ∧ selection.worktreePath = [] ∧
        joinPaths [clean root, selection.path] = firstSubject input
  external : (∀ subject ∈ subjects input, ¬ Contained input.worktrees subject) →
    ¬ Contained input.projectRoots (firstSubject input) →
    selection = ⟨.externalFile, clean input.path, []⟩
  inside : selection.kind = .file → StaysInside selection.path

/-! ### Clean paths -/

variable {root subject path rel : JsString}

theorem name_names : ∀ name ∈ names path, name ≠ [] ∧ slash ∉ name :=
  PathSyntax.name_resolve fun _ hword => notMem_of_mem_splitOn hword

theorem plain_names (h : isAbsolute path = true) : ∀ name ∈ names path, paths.Plain name := by
  unfold names
  rw [h]
  exact PathSyntax.plain_resolve fun _ hword => notMem_of_mem_splitOn hword

theorem normalizeString_eq : normalizeString path (!isAbsolute path) = join slash (names path) := by
  rw [normalizeString, Bool.not_not, names]

/-- A separator at the end is taken off. -/
theorem strip_trailing {text : JsString} (hnil : text ≠ []) (hlast : text.getLast? ≠ some slash)
    (trailing : Bool) :
    (let normalized := if trailing then text ++ [slash] else text
      if 1 < normalized.length then normalized.rdropWhile (· = slash) else normalized) = text := by
  have hkept : text.rdropWhile (· = slash) = text := by
    rw [List.rdropWhile_eq_self_iff]
    intro hne hslash
    rw [List.getLast?_eq_some_getLast hne] at hlast
    exact hlast (congrArg some (of_decide_eq_true hslash))
  cases trailing with
  | false =>
    dsimp only
    rw [if_neg Bool.false_ne_true]
    split
    · exact hkept
    · rfl
  | true =>
    have hlength : 1 < (text ++ [slash]).length := by
      rw [List.length_append]
      exact Nat.lt_add_of_pos_left (List.length_pos_iff.mpr hnil)
    dsimp only
    rw [if_pos rfl, if_pos hlength]
    exact (List.rdropWhile_concat_pos _ _ _ (by simp)).trans hkept

/-- A clean path is the text of its names. -/
theorem clean_eq (path : JsString) : clean path =
    if isAbsolute path then paths.rootedText (names path)
    else if names path = [] then paths.current else join slash (names path) := by
  by_cases hpath : path = []
  · subst hpath
    decide
  unfold clean Posix.normalize
  rw [if_neg hpath, normalizeString_eq]
  by_cases hnames : names path = []
  · rw [hnames, join_nil]
    cases isAbsolute path with
    | true => rfl
    | false =>
      cases path.getLast? == some slash
      · rfl
      · decide
  have htext : join slash (names path) ≠ [] :=
    @PathSyntax.join_ne_nil _ paths _ (fun name hname => (name_names name hname).1) hnames
  have hlast : (join slash (names path)).getLast? ≠ some slash :=
    @PathSyntax.getLast?_join_ne _ paths _ name_names
  rw [if_neg htext, if_neg hnames]
  cases isAbsolute path with
  | true =>
    have hrooted := @strip_trailing (slash :: join slash (names path)) (List.cons_ne_nil _ _)
      (by rwa [List.getLast?_cons_of_ne_nil htext]) (path.getLast? == some slash)
    refine Eq.trans ?_ hrooted
    cases path.getLast? == some slash <;> rfl
  | false => exact strip_trailing htext hlast _

theorem clean_of_absolute (h : isAbsolute path = true) :
    clean path = paths.rootedText (names path) := by
  rw [clean_eq, if_pos h]

/-- Cleaning keeps a path absolute, or relative. -/
theorem isAbsolute_clean (path : JsString) : isAbsolute (clean path) = isAbsolute path := by
  rw [clean_eq]
  cases h : isAbsolute path with
  | true => rfl
  | false =>
    rw [if_neg Bool.false_ne_true]
    split
    · decide
    · have hhead : (join slash (names path)).head? ≠ some slash :=
        @PathSyntax.head?_join_ne _ paths _ name_names
      exact beq_eq_false_iff_ne.mpr hhead

/-- Cleaning keeps the names of an absolute path. -/
theorem names_clean (h : isAbsolute path = true) : names (clean path) = names path := by
  rw [names, isAbsolute_clean, h, clean_of_absolute h]
  exact PathSyntax.resolve_rootedText (plain_names h)

/-- An absolute path without a separator at its end is normalized to the text of its names. -/
theorem normalize_of_absolute (h : isAbsolute path = true) (hnames : names path ≠ [])
    (hlast : path.getLast? ≠ some slash) :
    Posix.normalize path = paths.rootedText (names path) := by
  have hpath : path ≠ [] := by
    rintro rfl
    exact nomatch h
  have htext : join slash (names path) ≠ [] :=
    @PathSyntax.join_ne_nil _ paths _ (fun name hname => (name_names name hname).1) hnames
  unfold Posix.normalize
  rw [if_neg hpath, normalizeString_eq]
  dsimp only
  rw [if_neg htext, if_pos h, if_neg (beq_iff_eq.not.mpr hlast)]
  rfl

@[simp] theorem isAbsolute_cons (rest : JsString) : isAbsolute (slash :: rest) = true := rfl

/-! ### Inside a root -/

theorem strictlyInside_clean (h : isAbsolute path = true) :
    StrictlyInside root (clean path) ↔ names root <+: names path ∧ names root ≠ names path := by
  constructor
  · intro hinside
    have hnames := And.intro hinside.begins hinside.ne
    rwa [names_clean h] at hnames
  · rintro ⟨hbegins, hne⟩
    rw [← names_clean h] at hbegins hne
    exact ⟨(isAbsolute_clean path).trans h, hbegins, hne⟩

/-- A path goes on behind an absolute one by its text where it does by its names. -/
theorem relativeInside_eq_some_iff (hroot : isAbsolute root = true) :
    relativeInside root (clean path) = some rel ↔ StrictlyInside root (clean path) ∧
      rel = join slash ((names (clean path)).drop (names root).length) := by
  have hfront : (if clean root = [slash] then [slash] else clean root ++ [slash]) =
      paths.frontText (names root) := by
    rw [clean_of_absolute hroot]
    unfold PathSyntax.frontText
    by_cases hnames : names root = []
    · rw [if_pos hnames, hnames]
      rfl
    · have htext : join slash (names root) ≠ [] :=
        @PathSyntax.join_ne_nil _ paths _ (fun name hname => (name_names name hname).1) hnames
      rw [if_neg hnames, if_neg]
      · rfl
      · exact fun h => htext (List.cons.inj h).2
  unfold relativeInside
  dsimp only
  rw [hfront]
  cases habsolute : isAbsolute path with
  | false =>
    have hrelative : isAbsolute (clean path) = false := (isAbsolute_clean path).trans habsolute
    constructor
    · intro h
      split at h
      next hinside =>
        -- the front of an absolute path begins with the separator
        obtain ⟨tail, htail⟩ := hinside.2
        rw [← htail] at hrelative
        unfold PathSyntax.frontText at hrelative
        split at hrelative <;> exact nomatch (isAbsolute_cons _).symm.trans hrelative
      next => exact nomatch h
    · exact fun h => absurd (hrelative.symm.trans h.1.absolute) (by decide)
  | true =>
    have hinside : (paths.frontText (names root)).length < (clean path).length ∧
        paths.frontText (names root) <+: clean path ↔ StrictlyInside root (clean path) := by
      rw [strictlyInside_clean habsolute, and_comm, clean_of_absolute habsolute]
      exact PathSyntax.frontText_prefix_iff (plain_names hroot) (plain_names habsolute)
    rw [Option.ite_none_right_eq_some, hinside]
    apply and_congr_right
    intro h
    obtain ⟨⟨rest, hrest⟩, hne⟩ := (strictlyInside_clean habsolute).mp h
    have hnil : rest ≠ [] := by
      rintro rfl
      exact hne ((List.append_nil _).symm.trans hrest)
    rw [names_clean habsolute, clean_of_absolute habsolute, ← hrest, List.drop_left,
      PathSyntax.rootedText_append hnil, List.drop_left, Option.some_inj]
    exact eq_comm

/-- Some relative path is given exactly for what is inside. -/
theorem relativeInside_isSome_iff (hroot : isAbsolute root = true) :
    (∃ rel, relativeInside root (clean path) = some rel) ↔ StrictlyInside root (clean path) := by
  constructor
  · rintro ⟨rel, h⟩
    exact ((relativeInside_eq_some_iff hroot).mp h).1
  · exact fun h => ⟨_, (relativeInside_eq_some_iff hroot).mpr ⟨h, rfl⟩⟩

/-- What a relative path joins: the names behind those of the root, which are plain. -/
structure Remainder (root subject : JsString) (rest : List JsString) : Prop where
  names_eq : names root ++ rest = names subject
  ne_nil : rest ≠ []
  plain : ∀ name ∈ rest, paths.Plain name

theorem exists_remainder (h : StrictlyInside root subject) :
    ∃ rest, Remainder root subject rest := by
  obtain ⟨rest, hrest⟩ := h.begins
  refine ⟨rest, hrest, ?_, fun name hname => plain_names h.absolute name ?_⟩
  · rintro rfl
    exact h.ne ((List.append_nil _).symm.trans hrest)
  · exact hrest ▸ List.mem_append_right _ hname

variable {rest : List JsString}

theorem Remainder.name (h : Remainder root subject rest) :
    ∀ name ∈ rest, name ≠ [] ∧ paths.sep ∉ name :=
  fun name hname => ⟨(h.plain name hname).ne_nil, (h.plain name hname).sep_notMem⟩

theorem Remainder.text_ne_nil (h : Remainder root subject rest) : join slash rest ≠ [] :=
  @PathSyntax.join_ne_nil _ paths _ (fun name hmem => (h.name name hmem).1) h.ne_nil

theorem Remainder.staysInside (h : Remainder root subject rest) :
    StaysInside (join slash rest) := by
  have hsplit : (join slash rest).splitOn slash = rest :=
    splitOn_join (fun name hmem => (h.name name hmem).2) h.ne_nil
  refine ⟨h.text_ne_nil, @PathSyntax.head?_join_ne _ paths _ h.name, ?_⟩
  rw [hsplit]
  exact h.plain

/-- A relative path behind any absolute path: the names of both. -/
theorem Remainder.joinPaths_eq (h : Remainder root subject rest) (hpath : isAbsolute path = true) :
    joinPaths [path, join slash rest] = paths.rootedText (names path ++ rest) := by
  have hne : path ≠ [] := by
    rintro rfl
    exact nomatch hpath
  have hparts : [path, join slash rest].filter (· ≠ []) = [path, join slash rest] := by
    simp [hne, h.text_ne_nil]
  have habsolute : isAbsolute (path ++ slash :: join slash rest) = true := by
    rw [isAbsolute, List.head?_append_of_ne_nil _ hne]
    exact hpath
  have hnames : names (path ++ slash :: join slash rest) = names path ++ rest := by
    rw [names, names, habsolute, hpath]
    exact PathSyntax.resolve_append_join h.plain h.ne_nil
  have hlast : (join slash rest).getLast? ≠ some slash :=
    @PathSyntax.getLast?_join_ne _ paths _ h.name
  rw [joinPaths, hparts, if_neg (List.cons_ne_nil _ _), join_cons_cons, join_singleton,
    normalize_of_absolute habsolute, hnames]
  · rw [hnames]
    exact List.append_ne_nil_of_right_ne_nil _ h.ne_nil
  · rw [List.getLast?_append_of_ne_nil _ (List.cons_ne_nil _ _),
      List.getLast?_cons_of_ne_nil h.text_ne_nil]
    exact hlast

/-- A relative path leads from the root to the subject, and stays inside. -/
theorem relativeInside_joins (hroot : isAbsolute root = true)
    (h : relativeInside root (clean path) = some rel) :
    joinPaths [clean root, rel] = clean path ∧ StaysInside rel := by
  obtain ⟨hinside, rfl⟩ := (relativeInside_eq_some_iff hroot).mp h
  have habsolute : isAbsolute path = true := (isAbsolute_clean path).symm.trans hinside.absolute
  obtain ⟨rest, hrest⟩ := exists_remainder hinside
  rw [← hrest.names_eq, List.drop_left]
  refine ⟨?_, hrest.staysInside⟩
  rw [hrest.joinPaths_eq ((isAbsolute_clean root).trans hroot), names_clean hroot, hrest.names_eq,
    names_clean habsolute, clean_of_absolute habsolute]

/-! ### The deepest worktree -/

/-- The best worktree of those seen. -/
def BestOf (seen : List JsString) (subject : JsString) : Option WorktreeHit → Prop
  | none => ¬ Contained seen subject
  | some hit => DeepestAround seen subject hit.worktree ∧
      relativeInside hit.worktree subject = some hit.rel

/-- Of two roots around a path, the one with the longer clean text is deeper. -/
theorem length_names_le {other : JsString} (hroot : isAbsolute root = true)
    (hother : isAbsolute other = true) (hinside : StrictlyInside root subject)
    (hinside' : StrictlyInside other subject)
    (hlength : (clean root).length ≤ (clean other).length) :
    (names root).length ≤ (names other).length := by
  rw [clean_of_absolute hroot, clean_of_absolute hother] at hlength
  exact (PathSyntax.prefix_of_length_le (plain_names hroot) (plain_names hother) hinside.begins
    hinside'.begins hlength).length_le

theorem contained_append_singleton {seen : List JsString} :
    Contained (seen ++ [root]) subject ↔ Contained seen subject ∨ StrictlyInside root subject := by
  simp [Contained, or_and_right, exists_or]

/-- One worktree more. -/
theorem BestOf.deeperWorktree {seen : List JsString} {best : Option WorktreeHit}
    (hseen : ∀ worktree ∈ seen, isAbsolute worktree = true) (hroot : isAbsolute root = true)
    (h : BestOf seen (clean path) best) :
    BestOf (seen ++ [root]) (clean path) (deeperWorktree (clean path) best root) := by
  cases hrel : relativeInside root (clean path) with
  | none =>
    have hout : ¬ StrictlyInside root (clean path) := by
      rw [← relativeInside_isSome_iff hroot, hrel]
      exact fun ⟨_, h⟩ => nomatch h
    rw [OpenTarget.deeperWorktree, hrel]
    cases best with
    | none => exact fun hcontained => (contained_append_singleton.mp hcontained).elim h hout
    | some hit =>
      refine ⟨⟨List.mem_append_left _ h.1.mem, h.1.inside, fun other hmem hinside => ?_⟩, h.2⟩
      rcases List.mem_append.mp hmem with hmem | hmem
      · exact h.1.deepest other hmem hinside
      · exact absurd (List.mem_singleton.mp hmem ▸ hinside) hout
  | some rel =>
    have hinside : StrictlyInside root (clean path) :=
      (relativeInside_isSome_iff hroot).mp ⟨rel, hrel⟩
    have hmem : root ∈ seen ++ [root] := List.mem_append_right _ (List.mem_singleton_self root)
    rw [OpenTarget.deeperWorktree, hrel]
    cases best with
    | none =>
      refine ⟨⟨hmem, hinside, fun other hother hinside' => ?_⟩, hrel⟩
      rcases List.mem_append.mp hother with hother | hother
      · exact absurd ⟨other, hother, hinside'⟩ h
      · rw [List.mem_singleton.mp hother]
    | some hit =>
      have hhit := hseen _ h.1.mem
      dsimp only
      split
      next hlonger =>
        refine ⟨⟨hmem, hinside, fun other hother hinside' => ?_⟩, hrel⟩
        rcases List.mem_append.mp hother with hother | hother
        · exact (h.1.deepest other hother hinside').trans
            (length_names_le hhit hroot h.1.inside hinside (Nat.le_of_lt hlonger))
        · rw [List.mem_singleton.mp hother]
      next hlonger =>
        refine ⟨⟨List.mem_append_left _ h.1.mem, h.1.inside, fun other hother hinside' => ?_⟩,
          h.2⟩
        rcases List.mem_append.mp hother with hother | hother
        · exact h.1.deepest other hother hinside'
        · rw [List.mem_singleton.mp hother]
          exact length_names_le hroot hhit hinside h.1.inside (Nat.le_of_not_lt hlonger)

/-- The worktree that is found is a deepest one around the path. -/
theorem deepestWorktree_spec {worktrees : List JsString}
    (h : ∀ worktree ∈ worktrees, isAbsolute worktree = true) (path : JsString) :
    BestOf worktrees (clean path) (deepestWorktree worktrees (clean path)) := by
  suffices hfold : ∀ (seen : List JsString) (best : Option WorktreeHit),
      (∀ worktree ∈ seen ++ worktrees, isAbsolute worktree = true) →
      BestOf seen (clean path) best →
      BestOf (seen ++ worktrees) (clean path)
        (worktrees.foldl (OpenTarget.deeperWorktree (clean path)) best) by
    refine hfold [] none h ?_
    rintro ⟨worktree, hmem, -⟩
    exact absurd hmem List.not_mem_nil
  clear h
  induction worktrees with
  | nil =>
    intro seen best _ hbest
    rwa [List.append_nil]
  | cons worktree worktrees ih =>
    intro seen best habsolute hbest
    have hsplit : seen ++ worktree :: worktrees = seen ++ [worktree] ++ worktrees := by simp
    rw [hsplit] at habsolute ⊢
    apply ih _ _ habsolute
    apply hbest.deeperWorktree
    · exact fun other hother =>
        habsolute other (List.mem_append_left _ (List.mem_append_left _ hother))
    · exact habsolute worktree (by simp)

/-! ### The classification -/

theorem FirstIn.mem {α : Type} {P : α → Prop} {values : List α} {value : α}
    (h : FirstIn P values value) : value ∈ values := by
  obtain ⟨before, after, rfl, -⟩ := h.first
  exact List.mem_append_right _ List.mem_cons_self

/-- A search that finds what has a property finds the first value that has it. -/
theorem FirstIn.findSome?_eq {α β : Type} {P : α → Prop} {values : List α} {value : α}
    {f : α → Option β} (h : FirstIn P values value)
    (hfound : ∀ other ∈ values, f other = none ↔ ¬ P other) :
    values.findSome? f = f value := by
  obtain ⟨found, hsome⟩ : ∃ found, f value = some found :=
    Option.ne_none_iff_exists'.mp fun hnone => (hfound value h.mem).mp hnone h.holds
  obtain ⟨before, after, rfl, hbefore⟩ := h.first
  rw [hsome, List.findSome?_eq_some_iff]
  exact ⟨before, value, after, rfl, hsome, fun earlier hearlier =>
    (hfound earlier (List.mem_append_left _ hearlier)).mpr (hbefore earlier hearlier)⟩

/-- Every subject is a clean path. -/
theorem exists_eq_clean {input : ClassifyInput} (h : subject ∈ subjects input) :
    ∃ path, subject = clean path := by
  unfold subjects at h
  split at h
  · exact ⟨_, List.mem_singleton.mp h⟩
  · rcases List.mem_cons.mp h with rfl | h
    · exact ⟨_, rfl⟩
    · unfold viaRootAlias at h
      split at h
      · exact absurd h List.not_mem_nil
      · split at h
        · exact absurd h List.not_mem_nil
        · exact ⟨_, List.mem_singleton.mp h⟩

section Classification

variable {input : ClassifyInput} (hworktrees : ∀ root ∈ input.worktrees, isAbsolute root = true)
variable (hroots : ∀ root ∈ input.projectRoots, isAbsolute root = true)

include hworktrees in
theorem deepestWorktree_eq_none_iff (h : subject ∈ subjects input) :
    deepestWorktree input.worktrees subject = none ↔ ¬ Contained input.worktrees subject := by
  obtain ⟨path, rfl⟩ := exists_eq_clean h
  have hbest := deepestWorktree_spec hworktrees path
  cases hfound : deepestWorktree input.worktrees (clean path) with
  | none =>
    rw [hfound] at hbest
    exact iff_of_true rfl hbest
  | some hit =>
    rw [hfound] at hbest
    exact iff_of_false nofun (not_not.mpr ⟨_, hbest.1.mem, hbest.1.inside⟩)

include hroots in
theorem relativeInside_eq_none_iff (h : root ∈ input.projectRoots) :
    relativeInside root (firstSubject input) = none ↔
      ¬ StrictlyInside root (firstSubject input) := by
  rw [firstSubject, ← relativeInside_isSome_iff (hroots root h), not_exists,
    Option.eq_none_iff_forall_ne_some]

include hworktrees hroots in
/-- **Open-path classification.** What is opened is a file of the deepest worktree around the first
subject that has one, else of the project, else an external file. -/
theorem classifyOpenTarget_classified : Classified input (classifyOpenTarget input) := by
  unfold classifyOpenTarget
  cases hhit : (subjects input).findSome? (deepestWorktree input.worktrees) with
  | some hit =>
    obtain ⟨before, subject, after, hsubjects, hfound, hbefore⟩ :=
      List.findSome?_eq_some_iff.mp hhit
    have hmem : subject ∈ subjects input := by
      rw [hsubjects]
      exact List.mem_append_right _ List.mem_cons_self
    obtain ⟨path, rfl⟩ := exists_eq_clean hmem
    have hbest := deepestWorktree_spec hworktrees path
    rw [hfound] at hbest
    obtain ⟨haround, hrel⟩ := hbest
    have hcontained : Contained input.worktrees (clean path) := ⟨_, haround.mem, haround.inside⟩
    have habsolute := hworktrees _ haround.mem
    obtain ⟨hjoins, hstays⟩ := relativeInside_joins habsolute hrel
    refine ⟨?_, ?_, ?_, ?_, fun _ => hstays⟩
    · refine iff_of_true ⟨rfl, ?_⟩ ⟨_, hmem, hcontained⟩
      intro hnil
      rw [show hit.worktree = [] from hnil] at habsolute
      exact nomatch habsolute
    · intro subject hfirst
      -- the search stops at the first subject that has a worktree
      have hsame := hfirst.findSome?_eq fun other hother =>
        deepestWorktree_eq_none_iff hworktrees hother
      obtain ⟨path, rfl⟩ := exists_eq_clean hfirst.mem
      have hbest := deepestWorktree_spec hworktrees path
      rw [← hsame, hhit] at hbest
      exact ⟨hbest.1, (relativeInside_joins (hworktrees _ hbest.1.mem) hbest.2).1⟩
    · exact fun hnone => absurd hcontained (hnone _ hmem)
    · exact fun hnone => absurd hcontained (hnone _ hmem)
  | none =>
    have hnone : ∀ subject ∈ subjects input, ¬ Contained input.worktrees subject :=
      fun subject hmem => (deepestWorktree_eq_none_iff hworktrees hmem).mp
        (List.findSome?_eq_none_iff.mp hhit subject hmem)
    -- no subject has a worktree, and the roots are tried with the first subject alone
    have hworktree : ¬ ∃ subject ∈ subjects input, Contained input.worktrees subject :=
      fun ⟨subject, hmem, hcontained⟩ => hnone subject hmem hcontained
    dsimp only
    cases hrel : input.projectRoots.findSome? fun root =>
        relativeInside root (firstSubject input) with
    | some rel =>
      obtain ⟨before, root, after, hsplit, hfound, -⟩ := List.findSome?_eq_some_iff.mp hrel
      have hmem : root ∈ input.projectRoots := by
        rw [hsplit]
        exact List.mem_append_right _ List.mem_cons_self
      refine ⟨iff_of_false (fun h => h.2 rfl) hworktree, fun subject hfirst => ?_, ?_, ?_,
        fun _ => (relativeInside_joins (hroots root hmem) hfound).2⟩
      · exact absurd hfirst.holds (hnone subject hfirst.mem)
      · intro _ root hfirst
        have hsame := hfirst.findSome?_eq fun other hother =>
          relativeInside_eq_none_iff hroots hother
        rw [hrel] at hsame
        exact ⟨rfl, rfl, (relativeInside_joins (hroots root hfirst.mem) hsame.symm).1⟩
      · intro _ hroot
        exact absurd ⟨root, hmem, ((relativeInside_isSome_iff (hroots root hmem)).mp ⟨rel, hfound⟩)⟩
          hroot
    | none =>
      refine ⟨iff_of_false (fun h => h.2 rfl) hworktree, fun subject hfirst => ?_, ?_,
        fun _ _ => rfl, nofun⟩
      · exact absurd hfirst.holds (hnone subject hfirst.mem)
      · intro _ root hfirst
        have hout := List.findSome?_eq_none_iff.mp hrel root hfirst.mem
        exact absurd hfirst.holds ((relativeInside_eq_none_iff hroots hfirst.mem).mp hout)

end Classification

/-- The file `/r/w/a`, named in a roundabout way, and two worktrees around it. -/
def nestedInput : ClassifyInput where
  path := [0x2F, 0x72, 0x2F, 0x77, 0x2F, 0x2E, 0x2E, 0x2F, 0x77, 0x2F, 0x2F, 0x61]
  canonicalPath := none
  worktrees := [[0x2F, 0x72], [0x2F, 0x72, 0x2F, 0x77, 0x2F]]
  projectRoots := [[0x2F, 0x72]]
  rootAlias := none

theorem classifyOpenTarget_nested :
    Classified nestedInput ⟨.file, [0x61], [0x2F, 0x72, 0x2F, 0x77, 0x2F]⟩ := by
  have hselection : classifyOpenTarget nestedInput =
      ⟨.file, [0x61], [0x2F, 0x72, 0x2F, 0x77, 0x2F]⟩ := by decide
  rw [← hselection]
  exact classifyOpenTarget_classified
    (List.forall_mem_cons.mpr ⟨rfl, List.forall_mem_singleton.mpr rfl⟩)
    (List.forall_mem_singleton.mpr rfl)

end OpenTarget

end AgentCockpit.Callback
