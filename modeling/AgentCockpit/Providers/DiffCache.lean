import AgentCockpit.Core.Arena
import AgentCockpit.Core.Joined
import AgentCockpit.Providers.SessionManager

/-!
# The cache of diff bundles

A request for a diff bundle is served from the project's cache, or by a read of the provider that is
stored when it returns. Watch batches drop the bundles of the files that they name, or all of them
when they name a git-state path. A bundle that was read before a batch can still be stored after it,
and a batch names files by their paths from the root, which are not the paths of the entries of a
worktree below the root: both leave a stale bundle behind.

The model counts the changes of files and refs. An instant is a number of changes; a bundle is the
arguments of the read that it comes from with the instant at which the read took effect.
-/

namespace AgentCockpit.Providers

open AgentCockpit.Core

/-! ### The watch policy -/

inductive WatchCategory
  | gitState | beads | workingTree
  deriving DecidableEq, Repr

def neverRecurse : List Path := ["node_modules".toList]

def beadsSignals : List Path := [".beads/beads.db".toList, ".beads/issues.jsonl".toList]

/-- Separators as slashes, without a leading `./` and leading slashes. -/
def normalizeWatchPath (path : Path) : Path :=
  let posix := path.map fun c => if c = '\\' then '/' else c
  let relative := match posix with
    | '.' :: '/' :: rest => rest
    | _ => posix
  relative.dropWhile (· = '/')

/-- The category of a path below the root, if it is of interest. -/
def classifyWatchPath (relPath : Path) : Option WatchCategory :=
  let rel := normalizeWatchPath relPath
  let segments := rel.splitOn '/'
  if rel = [] then none
  else if segments.any (· ∈ neverRecurse) then none
  else if segments[0]? = some ".git".toList then
    if rel = ".git/HEAD".toList ∨ rel = ".git/packed-refs".toList ∨ ".git/refs".toList <+: rel then
      some .gitState
    -- A worktree comes or goes, but what happens inside of it is no signal.
    else if segments[1]? = some "worktrees".toList ∧ segments.length ≤ 3 then some .gitState
    else none
  else if segments[0]? = some ".beads".toList then
    if rel ∈ beadsSignals then some .beads else none
  else some .workingTree

def isGitStateSignal (rel : Path) : Bool := classifyWatchPath rel = some .gitState

/-! ### The cache -/

/-- A read of the provider: its arguments, and the instant at which it took effect. -/
structure DiffBundle where
  worktreePath : Path
  filePath : Path
  baseline : Option Path
  readAt : ℕ
  deriving DecidableEq, Repr

structure Entry where
  path : Path
  worktreePath : Path
  bundle : DiffBundle
  deriving DecidableEq, Repr

/-- The most bundles of a project; the oldest are dropped first. -/
def maxEntriesPerProject : ℕ := 64

/-- The unit separator. -/
def sep : Char := Char.ofNat 0x1f

def key (worktreePath path : Path) (baseline : Option Path) : Path :=
  worktreePath ++ sep :: (path ++ sep :: baseline.getD [])

/-- The entries of a project, from the oldest to the newest. -/
abbrev DiffBundleCache := List (Path × Entry)

namespace DiffBundleCache

variable (cache : DiffBundleCache)

def get (worktreePath path : Path) (baseline : Option Path) : Option DiffBundle :=
  (cache.lookup (key worktreePath path baseline)).map (·.bundle)

def set (worktreePath path : Path) (baseline : Option Path) (bundle : DiffBundle) :
    DiffBundleCache :=
  let k := key worktreePath path baseline
  let entries := cache.filter (·.1 ≠ k) ++ [(k, ⟨path, worktreePath, bundle⟩)]
  entries.drop (entries.length - maxEntriesPerProject)

/-- A batch drops an entry: one with a tag the entries of that worktree, one without a tag every
entry with a changed path, and all of them on a git-state signal. -/
def drops (paths : List Path) (worktreePath : Option Path) (entry : Entry) : Bool :=
  match worktreePath with
  | some tag => entry.worktreePath = tag ∧ entry.path ∈ paths
  | none => paths.any isGitStateSignal ∨ entry.path ∈ paths

def onWatch (paths : List Path) (worktreePath : Option Path) : DiffBundleCache :=
  if paths = [] then cache else cache.filter fun entry => ¬ drops paths worktreePath entry.2

end DiffBundleCache

/-! ### Requests -/

/-- What a diff depends on. -/
inductive Subject
  | file (path : Path)
  | refs
  deriving DecidableEq, Repr

inductive DiffPhase
  /-- The cache has no bundle, and the provider reads. -/
  | reading
  /-- The read has taken effect. -/
  | read (instant : ℕ)
  | returned (bundle : DiffBundle)
  | failed
  deriving DecidableEq, Repr

structure DiffRequest where
  worktreePath : Path
  filePath : Path
  baseline : Option Path
  /-- The last change that a batch had told of when the request started. -/
  required : ℕ
  phase : DiffPhase
  deriving DecidableEq, Repr

/-- The requests of a project, with its cache and the history of its files and refs. -/
structure Diffs where
  /-- The number of changes so far. -/
  now : ℕ := 0
  /-- The last change of each subject. -/
  changed : Subject → ℕ := fun _ => 0
  /-- The last change of each subject that a batch has told of. -/
  announced : Subject → ℕ := fun _ => 0
  cache : DiffBundleCache := []
  requests : List DiffRequest := []
  /-- The reads that have taken effect. -/
  reads : List DiffBundle := []

inductive DiffStep
  /-- A file or a ref changes. -/
  | change (subject : Subject)
  | getDiffBundle (worktreePath filePath : Path) (baseline : Option Path)
  /-- The provider's read of a request takes effect. -/
  | read (request : ℕ)
  | readFailed (request : ℕ)
  /-- The read returns, and its bundle is stored. -/
  | store (request : ℕ)
  /-- A batch of the watch on the root, or of the one on the worktree it is tagged with. -/
  | watch (paths : List Path) (worktreePath : Option Path)
  | evict
  deriving DecidableEq, Repr

/-- The file of a path below a directory. -/
def joinPath (base path : Path) : Path := base ++ '/' :: path

namespace Diffs

variable (root : Path) (diffs : Diffs)

/-- The file that a read is about; no worktree stands for the root. -/
def fileOf (worktreePath filePath : Path) : Path :=
  joinPath (if worktreePath = [] then root else worktreePath) filePath

/-- A batch names a subject: a file by its path from where the watch is rooted, and the refs by a
git-state signal of the root. -/
def names (paths : List Path) (worktreePath : Option Path) : Subject → Bool
  | .file path => paths.any fun rel => joinPath (worktreePath.getD root) rel = path
  | .refs => worktreePath = none ∧ paths.any isGitStateSignal

/-- The last change that a batch has told of, of a file or of the refs. -/
def announcedFor (worktreePath filePath : Path) : ℕ :=
  max (diffs.announced (.file (fileOf root worktreePath filePath))) (diffs.announced .refs)

def setRequest (id : ℕ) (request : DiffRequest) : Diffs :=
  { diffs with requests := diffs.requests.set id request }

def startRequest (worktreePath filePath : Path) (baseline : Option Path) : Diffs :=
  let phase := match diffs.cache.get worktreePath filePath baseline with
    | some hit => .returned hit
    | none => .reading
  let required := diffs.announcedFor root worktreePath filePath
  { diffs with
    requests := diffs.requests ++ [{ worktreePath, filePath, baseline, required, phase }] }

/-- The bundle that a read at an instant comes back with. -/
def bundleAt (request : DiffRequest) (instant : ℕ) : DiffBundle :=
  ⟨request.worktreePath, request.filePath, request.baseline, instant⟩

/-- The read of a request takes effect. -/
def readBundle (id : ℕ) (request : DiffRequest) : Diffs :=
  { diffs.setRequest id { request with phase := .read diffs.now } with
    reads := diffs.reads ++ [bundleAt request diffs.now] }

def storeBundle (id : ℕ) (request : DiffRequest) (instant : ℕ) : Diffs :=
  let bundle := bundleAt request instant
  { diffs.setRequest id { request with phase := .returned bundle } with
    cache := diffs.cache.set request.worktreePath request.filePath request.baseline bundle }

def step (diffs : Diffs) : DiffStep → Option Diffs
  | .change subject => some { diffs with
      now := diffs.now + 1
      changed := Function.update diffs.changed subject (diffs.now + 1) }
  | .getDiffBundle worktreePath filePath baseline =>
    some (diffs.startRequest root worktreePath filePath baseline)
  | .read id =>
    match diffs.requests[id]? with
    | some request =>
      if request.phase = .reading then some (diffs.readBundle id request) else none
    | none => none
  | .readFailed id =>
    match diffs.requests[id]? with
    | some request =>
      if request.phase = .reading then
        some (diffs.setRequest id { request with phase := .failed })
      else none
    | none => none
  | .store id =>
    match diffs.requests[id]? with
    | some request =>
      match request.phase with
      | .read instant => some (diffs.storeBundle id request instant)
      | _ => none
    | none => none
  | .watch paths worktreePath => some { diffs with
      cache := diffs.cache.onWatch paths worktreePath
      announced := fun subject =>
        if names root paths worktreePath subject then diffs.changed subject
        else diffs.announced subject }
  | .evict => some { diffs with cache := [] }

/-- The entry belongs to the worktree that the batch comes from. -/
def isOwn (worktreePath : Option Path) (entry : Entry) : Bool :=
  match worktreePath with
  | some tag => entry.worktreePath = tag ∧ tag ≠ []
  | none => entry.worktreePath = [] ∨ entry.worktreePath = root

/-- Requests are for paths without the separator, a read is stored before a batch tells of a later
change, and the cached bundles of the files that a batch names belong to its own worktree. -/
def Timely (diffs : Diffs) : DiffStep → Prop
  | .getDiffBundle worktreePath filePath baseline =>
    sep ∉ worktreePath ∧ sep ∉ filePath ∧ baseline ≠ some []
  | .store id => (diffs.requests[id]?).all fun request =>
      match request.phase with
      | .read instant => diffs.announcedFor root request.worktreePath request.filePath ≤ instant
      | _ => true
  | .watch paths worktreePath => ∀ entry ∈ diffs.cache,
      names root paths worktreePath (.file (fileOf root entry.2.worktreePath entry.2.path)) →
        isOwn root worktreePath entry.2 ∨ DiffBundleCache.drops paths worktreePath entry.2
  | _ => True

instance (diffs : Diffs) : DecidablePred (Timely root diffs) := fun label => by
  cases label <;> unfold Timely <;> infer_instance

/-- Every bundle that a request is served is a read with its arguments, made at or after the last
change of its file and of the refs that a batch had told of when the request started. -/
def Fresh (diffs : Diffs) : Prop :=
  ∀ (id : ℕ) (request : DiffRequest) (bundle : DiffBundle), diffs.requests[id]? = some request →
    request.phase = .returned bundle → bundle ∈ diffs.reads ∧
      bundle = bundleAt request bundle.readAt ∧ request.required ≤ bundle.readAt

/-! ### Keys and paths -/

variable {root} {diffs next : Diffs} {label : DiffStep} {paths : List Path} {tag : Option Path}
  {entry : Entry} {request : DiffRequest} {bundle : DiffBundle} {id instant : ℕ}
  {worktreePath filePath : Path} {baseline : Option Path}

/-- The arguments of a request, without the separator in its paths. -/
def Plain (worktreePath filePath : Path) (baseline : Option Path) : Prop :=
  sep ∉ worktreePath ∧ sep ∉ filePath ∧ baseline ≠ some []

theorem getD_inj {b b' : Option Path} (hb : b ≠ some []) (hb' : b' ≠ some [])
    (h : b.getD [] = b'.getD []) : b = b' := by
  cases b <;> cases b' <;> simp_all

/-- Plain arguments have keys of their own. -/
theorem key_inj {worktreePath' filePath' : Path} {baseline' : Option Path}
    (h : Plain worktreePath filePath baseline) (h' : Plain worktreePath' filePath' baseline')
    (hkey : key worktreePath filePath baseline = key worktreePath' filePath' baseline') :
    worktreePath = worktreePath' ∧ filePath = filePath' ∧ baseline = baseline' := by
  obtain ⟨hw, hrest⟩ := of_append_cons_eq h.1 h'.1 hkey
  obtain ⟨hf, hb⟩ := of_append_cons_eq h.2.1 h'.2.1 hrest
  exact ⟨hw, hf, getD_inj h.2.2 h'.2.2 hb⟩

theorem joinPath_inj {base rel rel' : Path} (h : joinPath base rel = joinPath base rel') :
    rel = rel' :=
  (List.cons.inj (List.append_cancel_left h)).2

/-- A batch drops the entries of its own worktree whose files it names. -/
theorem drops_of_isOwn (hown : isOwn root tag entry = true)
    (hnames : names root paths tag (.file (fileOf root entry.worktreePath entry.path)) = true) :
    DiffBundleCache.drops paths tag entry = true := by
  obtain ⟨rel, hrel, hjoin⟩ := List.any_eq_true.mp hnames
  have hjoin := of_decide_eq_true hjoin
  cases tag with
  | some tag =>
    obtain ⟨hworktree, hne⟩ := of_decide_eq_true hown
    rw [fileOf, hworktree, if_neg hne] at hjoin
    exact decide_eq_true ⟨hworktree, joinPath_inj hjoin ▸ hrel⟩
  | none =>
    have hbase : (if entry.worktreePath = [] then root else entry.worktreePath) = root := by
      rcases of_decide_eq_true hown with hempty | hroot
      · rw [if_pos hempty]
      · rw [hroot]
        split
        · rfl
        · rfl
    rw [fileOf, hbase] at hjoin
    exact decide_eq_true (.inr (joinPath_inj hjoin ▸ hrel))

/-! ### Invariant -/

/-- A bundle is a read with these arguments, from after what the batches have told. -/
structure Current (root : Path) (diffs : Diffs) (worktreePath filePath : Path)
    (baseline : Option Path) (bundle : DiffBundle) : Prop where
  plain : Plain worktreePath filePath baseline
  real : bundle ∈ diffs.reads
  arguments : bundle = ⟨worktreePath, filePath, baseline, bundle.readAt⟩
  current : diffs.announcedFor root worktreePath filePath ≤ bundle.readAt

/-- The cached bundles are current, and so are the reads in flight for their requests. -/
structure Sound (root : Path) (diffs : Diffs) : Prop where
  announced : ∀ subject, diffs.announced subject ≤ diffs.changed subject
  changed : ∀ subject, diffs.changed subject ≤ diffs.now
  cached : ∀ entry ∈ diffs.cache, ∃ baseline,
    entry.1 = key entry.2.worktreePath entry.2.path baseline ∧
      Current root diffs entry.2.worktreePath entry.2.path baseline entry.2.bundle
  plain : ∀ (id : ℕ) (request : DiffRequest), diffs.requests[id]? = some request →
    Plain request.worktreePath request.filePath request.baseline
  required : ∀ (id : ℕ) (request : DiffRequest), diffs.requests[id]? = some request →
    request.required ≤ diffs.now
  read : ∀ (id instant : ℕ) (request : DiffRequest), diffs.requests[id]? = some request →
    request.phase = .read instant → bundleAt request instant ∈ diffs.reads ∧
      request.required ≤ instant
  served : Fresh diffs

theorem sound_initial : Sound root {} where
  announced _ := le_rfl
  changed _ := le_rfl
  cached _ h := absurd h List.not_mem_nil
  plain _ _ h := nomatch h
  required _ _ h := nomatch h
  read _ _ _ h := nomatch h
  served _ _ _ h := nomatch h

theorem Sound.announcedFor_le (h : Sound root diffs) (worktreePath filePath : Path) :
    diffs.announcedFor root worktreePath filePath ≤ diffs.now :=
  max_le ((h.announced _).trans (h.changed _)) ((h.announced _).trans (h.changed _))

/-- A hit is a current bundle for the request's arguments. -/
theorem Sound.get (h : Sound root diffs) (hplain : Plain worktreePath filePath baseline)
    (hhit : diffs.cache.get worktreePath filePath baseline = some bundle) :
    Current root diffs worktreePath filePath baseline bundle := by
  obtain ⟨entry, hlookup, rfl⟩ := Option.map_eq_some_iff.mp hhit
  obtain ⟨front, back, hcache, _⟩ := List.lookup_eq_some_iff.mp hlookup
  obtain ⟨baseline', hkey, hcurrent⟩ :=
    h.cached (key worktreePath filePath baseline, entry) (by rw [hcache]; simp)
  obtain ⟨hworktree, hfile, rfl⟩ := key_inj hplain hcurrent.plain hkey
  rw [hworktree, hfile]
  exact hcurrent

/-! ### Steps -/

/-- A subject changes. -/
theorem Sound.change (h : Sound root diffs) (subject : Subject) : Sound root { diffs with
    now := diffs.now + 1
    changed := Function.update diffs.changed subject (diffs.now + 1) } := by
  have hchanged : ∀ other, diffs.changed other ≤
      Function.update diffs.changed subject (diffs.now + 1) other ∧
        Function.update diffs.changed subject (diffs.now + 1) other ≤ diffs.now + 1 := by
    intro other
    rcases eq_or_ne other subject with rfl | hne
    · rw [Function.update_self]
      exact ⟨Nat.le_succ_of_le (h.changed other), le_rfl⟩
    · rw [Function.update_of_ne hne]
      exact ⟨le_rfl, Nat.le_succ_of_le (h.changed other)⟩
  refine ⟨fun other => (h.announced other).trans (hchanged other).1,
    fun other => (hchanged other).2, fun entry hentry => ?_, h.plain,
    fun id request hrequest => Nat.le_succ_of_le (h.required id request hrequest), h.read, h.served⟩
  obtain ⟨baseline, hkey, hcurrent⟩ := h.cached entry hentry
  exact ⟨baseline, hkey, hcurrent.plain, hcurrent.real, hcurrent.arguments, hcurrent.current⟩

/-- A request is served from the cache, or by a read. -/
theorem Sound.startRequest (h : Sound root diffs) (hplain : Plain worktreePath filePath baseline) :
    Sound root (diffs.startRequest root worktreePath filePath baseline) := by
  unfold Diffs.startRequest
  dsimp only
  refine ⟨h.announced, h.changed, fun entry hentry => ?_, fun id request hrequest => ?_,
    fun id request hrequest => ?_, fun id instant request hrequest hphase => ?_,
    fun id request bundle hrequest hphase => ?_⟩
  · obtain ⟨baseline, hkey, hcurrent⟩ := h.cached entry hentry
    exact ⟨baseline, hkey, hcurrent.plain, hcurrent.real, hcurrent.arguments, hcurrent.current⟩
  · rcases of_getElem?_concat hrequest with hold | ⟨_, rfl⟩
    · exact h.plain id request hold
    · exact hplain
  · rcases of_getElem?_concat hrequest with hold | ⟨_, rfl⟩
    · exact h.required id request hold
    · exact h.announcedFor_le worktreePath filePath
  · rcases of_getElem?_concat hrequest with hold | ⟨_, rfl⟩
    · exact h.read id instant request hold hphase
    · dsimp only at hphase
      split at hphase <;> exact nomatch hphase
  · rcases of_getElem?_concat hrequest with hold | ⟨_, rfl⟩
    · exact h.served id request bundle hold hphase
    · dsimp only at hphase
      split at hphase
      · next hit hget =>
        obtain rfl := DiffPhase.returned.inj hphase
        have hcurrent := h.get hplain hget
        exact ⟨hcurrent.real, hcurrent.arguments, hcurrent.current⟩
      · exact nomatch hphase

/-- A request changes its phase, and a read may have taken effect. -/
theorem Sound.setRequest (h : Sound root diffs) (hrequest : diffs.requests[id]? = some request)
    {phase : DiffPhase} {reads : List DiffBundle} (hreads : diffs.reads ⊆ reads)
    (hread : ∀ instant, phase = .read instant → bundleAt request instant ∈ reads ∧
      request.required ≤ instant)
    (hserved : ∀ bundle, phase = .returned bundle → bundle ∈ reads ∧
      bundle = bundleAt request bundle.readAt ∧ request.required ≤ bundle.readAt) :
    Sound root { diffs.setRequest id { request with phase } with reads } := by
  refine ⟨h.announced, h.changed, fun entry hentry => ?_, fun i other hother => ?_,
    fun i other hother => ?_, fun i instant other hother hphase => ?_,
    fun i other bundle hother hphase => ?_⟩
  · obtain ⟨baseline, hkey, hcurrent⟩ := h.cached entry hentry
    exact ⟨baseline, hkey, hcurrent.plain, hreads hcurrent.real, hcurrent.arguments,
      hcurrent.current⟩
  · rcases of_getElem?_set hother with ⟨rfl, rfl⟩ | ⟨_, hold⟩
    · exact h.plain i request hrequest
    · exact h.plain i other hold
  · rcases of_getElem?_set hother with ⟨rfl, rfl⟩ | ⟨_, hold⟩
    · exact h.required i request hrequest
    · exact h.required i other hold
  · rcases of_getElem?_set hother with ⟨rfl, rfl⟩ | ⟨_, hold⟩
    · exact hread instant hphase
    · exact (h.read i instant other hold hphase).imp_left fun hreal => hreads hreal
  · rcases of_getElem?_set hother with ⟨rfl, rfl⟩ | ⟨_, hold⟩
    · exact hserved bundle hphase
    · exact (h.served i other bundle hold hphase).imp_left fun hreal => hreads hreal

theorem Sound.readBundle (h : Sound root diffs) (hrequest : diffs.requests[id]? = some request) :
    Sound root (diffs.readBundle id request) := by
  refine h.setRequest hrequest (List.subset_append_left _ _) (fun instant hphase => ?_) nofun
  obtain rfl := DiffPhase.read.inj hphase
  exact ⟨List.mem_append_right _ (List.mem_singleton.mpr rfl), h.required id request hrequest⟩

/-- A new entry is current; the others stay or are dropped. -/
theorem mem_set {cache : DiffBundleCache} {item : Path × Entry}
    (hitem : item ∈ cache.set worktreePath filePath baseline bundle) :
    item = (key worktreePath filePath baseline, ⟨filePath, worktreePath, bundle⟩) ∨
      item ∈ cache := by
  have hmem := List.mem_of_mem_drop hitem
  rcases List.mem_append.mp hmem with hold | hnew
  · exact .inr (List.mem_filter.mp hold).1
  · exact .inl (List.mem_singleton.mp hnew)

theorem Sound.storeBundle (h : Sound root diffs) (hrequest : diffs.requests[id]? = some request)
    (hphase : request.phase = .read instant)
    (hadmits : diffs.announcedFor root request.worktreePath request.filePath ≤ instant) :
    Sound root (diffs.storeBundle id request instant) := by
  obtain ⟨hreal, hrequired⟩ := h.read id instant request hrequest hphase
  have hreturned : Sound root { diffs.setRequest id
      { request with phase := .returned (bundleAt request instant) } with reads := diffs.reads } :=
    h.setRequest hrequest (List.Subset.refl diffs.reads) nofun fun bundle hbundle => by
      obtain rfl := DiffPhase.returned.inj hbundle
      exact ⟨hreal, rfl, hrequired⟩
  refine ⟨h.announced, h.changed, fun item hitem => ?_, hreturned.plain, hreturned.required,
    hreturned.read, hreturned.served⟩
  rcases mem_set hitem with rfl | hold
  · exact ⟨request.baseline, rfl, h.plain id request hrequest, hreal, rfl, hadmits⟩
  · obtain ⟨baseline, hkey, hcurrent⟩ := h.cached item hold
    exact ⟨baseline, hkey, hcurrent.plain, hcurrent.real, hcurrent.arguments, hcurrent.current⟩

/-- A batch tells of changes, and drops the bundles from before them. -/
theorem Sound.watch (h : Sound root diffs) (hadmits : Timely root diffs (.watch paths tag)) :
    Sound root { diffs with
      cache := diffs.cache.onWatch paths tag
      announced := fun subject =>
        if names root paths tag subject then diffs.changed subject
        else diffs.announced subject } := by
  refine ⟨fun subject => ?_, h.changed, fun item hitem => ?_, h.plain, h.required, h.read, h.served⟩
  · dsimp only
    split
    · exact le_rfl
    · exact h.announced subject
  · have hkept : item ∈ diffs.cache ∧ DiffBundleCache.drops paths tag item.2 = false := by
      unfold DiffBundleCache.onWatch at hitem
      split at hitem
      · next hempty =>
        refine ⟨hitem, ?_⟩
        subst hempty
        cases tag <;> simp [DiffBundleCache.drops]
      · obtain ⟨hmem, hnot⟩ := List.mem_filter.mp hitem
        exact ⟨hmem, by simpa using hnot⟩
    obtain ⟨hmem, hdrops⟩ := hkept
    obtain ⟨baseline, hkey, hcurrent⟩ := h.cached item hmem
    have hfile : names root paths tag (.file (fileOf root item.2.worktreePath item.2.path)) =
        false := by
      refine (Bool.not_eq_true _).mp fun hnames => ?_
      rcases hadmits item hmem hnames with hown | hdrop
      · exact Bool.false_ne_true (hdrops.symm.trans (drops_of_isOwn hown hnames))
      · exact Bool.false_ne_true (hdrops.symm.trans hdrop)
    have hrefs : names root paths tag .refs = false := by
      refine (Bool.not_eq_true _).mp fun hnames => ?_
      obtain ⟨rfl, hsignal⟩ := of_decide_eq_true hnames
      exact Bool.false_ne_true (hdrops.symm.trans (decide_eq_true (.inl hsignal)))
    refine ⟨baseline, hkey, hcurrent.plain, hcurrent.real, hcurrent.arguments, ?_⟩
    unfold announcedFor
    dsimp only
    rw [hfile, hrefs]
    exact hcurrent.current

/-- Every timely step keeps the cached bundles current. -/
theorem Sound.step (h : Sound root diffs) (hadmits : Timely root diffs label)
    (hstep : diffs.step root label = some next) : Sound root next := by
  cases label with
  | change subject =>
    obtain rfl := Option.some.inj hstep
    exact h.change subject
  | getDiffBundle worktreePath filePath baseline =>
    obtain rfl := Option.some.inj hstep
    exact h.startRequest hadmits
  | read id =>
    simp only [Diffs.step] at hstep
    split at hstep
    · next request hrequest =>
      obtain ⟨_, rfl⟩ := of_ite_some hstep
      exact h.readBundle hrequest
    · exact nomatch hstep
  | readFailed id =>
    simp only [Diffs.step] at hstep
    split at hstep
    · next request hrequest =>
      obtain ⟨_, rfl⟩ := of_ite_some hstep
      exact h.setRequest hrequest (List.Subset.refl diffs.reads) nofun nofun
    · exact nomatch hstep
  | store id =>
    simp only [Diffs.step] at hstep
    split at hstep
    · next request hrequest =>
      split at hstep
      · next instant hphase =>
        obtain rfl := Option.some.inj hstep
        refine h.storeBundle hrequest hphase ?_
        simpa [Timely, hrequest, hphase] using hadmits
      · exact nomatch hstep
    · exact nomatch hstep
  | watch paths tag =>
    obtain rfl := Option.some.inj hstep
    exact h.watch hadmits
  | evict =>
    obtain rfl := Option.some.inj hstep
    exact ⟨h.announced, h.changed, fun _ hentry => absurd hentry List.not_mem_nil, h.plain,
      h.required, h.read, h.served⟩

end Diffs

open Diffs

/-- The cache of every project, with its requests and the history of its files. -/
abbrev DiffCaches := String → Diffs

def DiffCaches.step (rootOf : String → Path) :
    DiffCaches → String × DiffStep → Option DiffCaches :=
  familyStep fun projectId => Diffs.step (rootOf projectId)

/-- In every timely run a request for a bundle is served a read with its arguments, made at or after
the last change of its file and of the refs that a batch told of before the request. -/
theorem diff_bundles_fresh (rootOf : String → Path) {labels : List (String × DiffStep)}
    {caches : DiffCaches}
    (hrun : Run (DiffCaches.step rootOf) (familyAdmits fun projectId => Timely (rootOf projectId))
      (fun _ => {}) labels caches) (projectId : String) : Fresh (caches projectId) := by
  have hpreserved : ∀ (projectId : String) (diffs : Diffs) (label : DiffStep) (next : Diffs),
      Sound (rootOf projectId) diffs → Timely (rootOf projectId) diffs label →
        diffs.step (rootOf projectId) label = some next → Sound (rootOf projectId) next :=
    fun _ _ _ _ hinv hadmits hstep => hinv.step hadmits hstep
  exact (hrun.family_invariant hpreserved (fun _ => sound_initial) projectId).served

/-- The root of every project, and an external worktree. -/
def repoRoot : String → Path := fun _ => "/repo".toList

def outerTree : Path := "/outer".toList

/-- The file of the requests. -/
def sourceFile : Path := "a.ts".toList

/-- A bundle of the root is dropped by its batch and by a git-state signal, and one of an external
worktree by the batch of that worktree. -/
theorem diff_bundles_fresh_dropped :
    ∃ caches : DiffCaches, Run (DiffCaches.step repoRoot)
        (familyAdmits fun projectId => Timely (repoRoot projectId)) (fun _ => {})
        [("p", .getDiffBundle [] sourceFile none), ("p", .read 0), ("p", .store 0),
          ("p", .getDiffBundle outerTree sourceFile none), ("p", .read 1), ("p", .store 1),
          ("p", .change (.file "/outer/a.ts".toList)), ("p", .watch [sourceFile] (some outerTree)),
          ("p", .getDiffBundle [] sourceFile none), ("p", .getDiffBundle outerTree sourceFile none),
          ("p", .read 3), ("p", .store 3), ("p", .change .refs),
          ("p", .watch [".git/HEAD".toList] none), ("p", .getDiffBundle [] sourceFile none),
          ("p", .read 4), ("p", .store 4)] caches ∧
      (caches "p").requests.map (·.phase) = [.returned ⟨[], sourceFile, none, 0⟩,
        .returned ⟨outerTree, sourceFile, none, 0⟩, .returned ⟨[], sourceFile, none, 0⟩,
        .returned ⟨outerTree, sourceFile, none, 1⟩, .returned ⟨[], sourceFile, none, 2⟩] ∧
      Fresh (caches "p") := by
  exact exists_run_and_of_replay (by decide +kernel)
    fun _ hrun => diff_bundles_fresh repoRoot hrun "p"

/-- A file changes while a bundle of it returns: the batch comes first, the old bundle is stored,
and the next request is served it. -/
theorem not_diff_bundles_fresh :
    ¬ ∀ (rootOf : String → Path) (labels : List (String × DiffStep)) (caches : DiffCaches),
      Run (DiffCaches.step rootOf) Always (fun _ => {}) labels caches →
        ∀ projectId, Fresh (caches projectId) := by
  intro hall
  have hreplay : (replay (DiffCaches.step repoRoot) Always (fun _ => {})
      [("p", .getDiffBundle [] sourceFile none), ("p", .read 0),
        ("p", .change (.file "/repo/a.ts".toList)), ("p", .watch [sourceFile] none),
        ("p", .store 0), ("p", .getDiffBundle [] sourceFile none)]).any fun caches =>
      (caches "p").requests[1]? = some ⟨[], sourceFile, none, 1,
        .returned ⟨[], sourceFile, none, 0⟩⟩ := by
    decide +kernel
  obtain ⟨caches, hrun, hrequest⟩ := exists_run_of_replay hreplay
  obtain ⟨_, _, hrequired⟩ := hall repoRoot _ caches hrun "p" 1 _ _ hrequest rfl
  exact absurd hrequired (by decide)

end AgentCockpit.Providers
