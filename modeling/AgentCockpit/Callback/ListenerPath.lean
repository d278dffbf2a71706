import AgentCockpit.Core.Arena
import AgentCockpit.Core.Run

/-!
# The path of a callback socket

Any number of listeners, in the app and in helpers, serve one socket path one after the other. A
listener binds a temporary name, finds out which file it has bound, and renames the name over the
path. When it closes it removes the path if that still is its file. Node removes the name that a
server was bound to when the server is closed; Go leaves that to the code.

A file is a number. Temporary names are unique, a rename and a check with its removal are one step
each, and the number of a file is not given again while its listener is open.
-/

namespace AgentCockpit.Callback

open AgentCockpit.Core

inductive Runtime
  | node | go
  deriving DecidableEq, Repr

inductive ListenerStage
  /-- The temporary name is bound. -/
  | bound
  /-- The file behind the temporary name is known. -/
  | identified
  | serving
  | closed
  | failed
  deriving DecidableEq, Repr

structure Listener where
  runtime : Runtime
  temp : String
  /-- The file that was bound. -/
  file : ℕ
  stage : ListenerStage := .bound
  /-- The file that the listener takes for its own. -/
  identity : Option ℕ := none
  deriving DecidableEq, Repr

/-- A name in the directory of the socket. -/
inductive SocketName
  | path
  | temp (name : String)
  deriving DecidableEq, Repr

structure SocketDir where
  entries : SocketName → Option ℕ := fun _ => none
  /-- All listeners that were ever bound. -/
  listeners : List Listener := []
  /-- The listeners in the order in which they were renamed. -/
  renamed : List ℕ := []

inductive SocketStep
  | bind (runtime : Runtime) (temp : String) (file : ℕ)
  | bindFailed (runtime : Runtime)
  /-- The mode is set, and the name is looked up. -/
  | identify (listener : ℕ)
  /-- A step of the start fails. -/
  | abort (listener : ℕ)
  | rename (listener : ℕ)
  | close (listener : ℕ)
  deriving DecidableEq, Repr

/-- The listener is closed or has failed to start. -/
def Listener.Over (listener : Listener) : Prop :=
  listener.stage = .closed ∨ listener.stage = .failed

/-- The listener is being started. -/
def Listener.Starting (listener : Listener) : Prop :=
  listener.stage = .bound ∨ listener.stage = .identified

instance : DecidablePred Listener.Over := fun _ => by unfold Listener.Over; infer_instance

instance : DecidablePred Listener.Starting := fun _ => by unfold Listener.Starting; infer_instance

namespace SocketDir

def unlink (entries : SocketName → Option ℕ) (name : SocketName) : SocketName → Option ℕ :=
  Function.update entries name none

/-- Closing the server: libuv removes the name it has bound. -/
def closeServer (entries : SocketName → Option ℕ) (listener : Listener) : SocketName → Option ℕ :=
  match listener.runtime with
  | .node => unlink entries (.temp listener.temp)
  | .go => entries

/-- A start that fails closes the server; the helper removes the temporary name itself. -/
def abortStart (entries : SocketName → Option ℕ) (listener : Listener) : SocketName → Option ℕ :=
  match listener.runtime with
  | .node => closeServer entries listener
  | .go => unlink (closeServer entries listener) (.temp listener.temp)

def unlinkIfOurs (entries : SocketName → Option ℕ) (listener : Listener) :
    SocketName → Option ℕ :=
  if entries .path ≠ none ∧ entries .path = listener.identity then unlink entries .path else entries

variable (dir : SocketDir)

def setListener (id : ℕ) (listener : Listener) : SocketDir :=
  { dir with listeners := dir.listeners.set id listener }

def step (dir : SocketDir) : SocketStep → Option SocketDir
  | .bind runtime temp file => some { dir with
      entries := Function.update dir.entries (.temp temp) (some file)
      listeners := dir.listeners ++ [{ runtime, temp, file }] }
  | .bindFailed _ => some dir
  | .identify id =>
    match dir.listeners[id]? with
    | some listener =>
      if listener.stage = .bound ∧ dir.entries (.temp listener.temp) ≠ none then
        some (dir.setListener id { listener with
          stage := .identified, identity := dir.entries (.temp listener.temp) })
      else none
    | none => none
  | .abort id =>
    match dir.listeners[id]? with
    | some listener =>
      if listener.Starting then
        some { dir.setListener id { listener with stage := .failed } with
          entries := abortStart dir.entries listener }
      else none
    | none => none
  | .rename id =>
    match dir.listeners[id]? with
    | some listener =>
      if listener.stage = .identified ∧ dir.entries (.temp listener.temp) ≠ none then
        some { dir.setListener id { listener with stage := .serving } with
          entries := unlink
            (Function.update dir.entries .path (dir.entries (.temp listener.temp)))
            (.temp listener.temp)
          renamed := dir.renamed ++ [id] }
      else none
    | none => none
  | .close id =>
    match dir.listeners[id]? with
    | some listener =>
      match listener.stage with
      | .serving => some { dir.setListener id { listener with stage := .closed } with
          entries := closeServer (unlinkIfOurs dir.entries listener) listener }
      -- A second close does nothing.
      | .closed => some dir
      | _ => none
    | none => none

/-- Temporary names are unique, and the file of an open listener is not given to another one. -/
def Fresh (dir : SocketDir) : SocketStep → Prop
  | .bind _ temp file => ∀ listener ∈ dir.listeners,
      listener.temp ≠ temp ∧ (¬ listener.Over → listener.file ≠ file)
  | _ => True

instance (dir : SocketDir) : DecidablePred (Fresh dir) := fun label => by
  cases label <;> unfold Fresh <;> infer_instance

/-- The path names the file of the listener that was renamed last until that one closes, and no name
is left when all listeners have closed or failed to start. -/
structure NewestServes : Prop where
  unserved : dir.renamed = [] → dir.entries .path = none
  serves : ∀ id, dir.renamed.getLast? = some id → ∃ listener, dir.listeners[id]? = some listener ∧
    (listener.stage = .serving ∧ dir.entries .path = some listener.file ∨
      listener.stage = .closed ∧ dir.entries .path = none)
  clean : (∀ listener ∈ dir.listeners, listener.Over) → ∀ name, dir.entries name = none

/-! ### Names and files -/

variable {dir} {next : SocketDir} {label : SocketStep} {listeners : List Listener}
  {listener new : Listener} {entries : SocketName → Option ℕ} {temp : String} {id file : ℕ}

/-- Listeners have names of their own, and those that are not over have files of their own. -/
structure Distinct (listeners : List Listener) : Prop where
  temps : ∀ (i j : ℕ) (a b : Listener), listeners[i]? = some a → listeners[j]? = some b →
    a.temp = b.temp → i = j
  files : ∀ (i j : ℕ) (a b : Listener), listeners[i]? = some a → listeners[j]? = some b →
    ¬ a.Over → ¬ b.Over → a.file = b.file → i = j

theorem Distinct.concat (h : Distinct listeners)
    (hfresh : ∀ other ∈ listeners, other.temp ≠ new.temp ∧ (¬ other.Over → other.file ≠ new.file)) :
    Distinct (listeners ++ [new]) where
  temps i j a b ha hb htemp := by
    obtain ha' | ⟨hi, rfl⟩ := of_getElem?_concat ha
    · obtain hb' | ⟨-, rfl⟩ := of_getElem?_concat hb
      · exact h.temps i j a b ha' hb' htemp
      · exact absurd htemp (hfresh a (List.mem_of_getElem? ha')).1
    · obtain hb' | ⟨hj, -⟩ := of_getElem?_concat hb
      · exact absurd htemp.symm (hfresh b (List.mem_of_getElem? hb')).1
      · exact hi.trans hj.symm
  files i j a b ha hb hopen hopen' hfile := by
    obtain ha' | ⟨hi, rfl⟩ := of_getElem?_concat ha
    · obtain hb' | ⟨-, rfl⟩ := of_getElem?_concat hb
      · exact h.files i j a b ha' hb' hopen hopen' hfile
      · exact absurd hfile ((hfresh a (List.mem_of_getElem? ha')).2 hopen)
    · obtain hb' | ⟨hj, -⟩ := of_getElem?_concat hb
      · exact absurd hfile.symm ((hfresh b (List.mem_of_getElem? hb')).2 hopen')
      · exact hi.trans hj.symm

/-- A listener goes on with its name and its file. -/
theorem Distinct.set (h : Distinct listeners) (hlistener : listeners[id]? = some listener)
    (htemp : new.temp = listener.temp) (hfile : new.file = listener.file)
    (hopen : ¬ new.Over → ¬ listener.Over) : Distinct (listeners.set id new) := by
  -- Each listener stands for an old one in its place.
  have hold (i : ℕ) (a : Listener) (ha : (listeners.set id new)[i]? = some a) :
      ∃ old, listeners[i]? = some old ∧ a.temp = old.temp ∧ a.file = old.file ∧
        (¬ a.Over → ¬ old.Over) := by
    obtain ⟨rfl, rfl⟩ | ⟨-, ha⟩ := of_getElem?_set ha
    · exact ⟨listener, hlistener, htemp, hfile, hopen⟩
    · exact ⟨a, ha, rfl, rfl, fun hover => hover⟩
  constructor
  · intro i j a b ha hb hsame
    obtain ⟨a', ha', htemp, -, -⟩ := hold i a ha
    obtain ⟨b', hb', htemp', -, -⟩ := hold j b hb
    exact h.temps i j a' b' ha' hb' (htemp.symm.trans (hsame.trans htemp'))
  · intro i j a b ha hb hopen hopen' hsame
    obtain ⟨a', ha', -, hfile, hover⟩ := hold i a ha
    obtain ⟨b', hb', -, hfile', hover'⟩ := hold j b hb
    exact h.files i j a' b' ha' hb' (hover hopen) (hover' hopen')
      (hfile.symm.trans (hsame.trans hfile'))

/-- The listener is being started with that name and file. -/
def Pending (listeners : List Listener) (temp : String) (file : ℕ) : Prop :=
  ∃ (id : ℕ) (listener : Listener), listeners[id]? = some listener ∧ listener.Starting ∧
    listener.temp = temp ∧ listener.file = file

/-- A listener that is not started any more gives up its name. -/
theorem pending_set_of_not_starting (h : Distinct listeners)
    (hlistener : listeners[id]? = some listener) (hnew : ¬ new.Starting) :
    Pending (listeners.set id new) temp file ↔
      Pending listeners temp file ∧ (listener.Starting → temp ≠ listener.temp) := by
  constructor
  · rintro ⟨i, a, ha, hstarting, rfl, rfl⟩
    obtain ⟨rfl, rfl⟩ | ⟨hne, ha⟩ := of_getElem?_set ha
    · exact absurd hstarting hnew
    · exact ⟨⟨i, a, ha, hstarting, rfl, rfl⟩, fun _ htemp =>
        hne (h.temps i id a listener ha hlistener htemp)⟩
  · rintro ⟨⟨i, a, ha, hstarting, rfl, rfl⟩, hother⟩
    refine ⟨i, a, ?_, hstarting, rfl, rfl⟩
    rw [getElem?_set_of_ne, ha]
    rintro rfl
    obtain rfl := Option.some.inj (hlistener.symm.trans ha)
    exact hother hstarting rfl

/-- A listener that goes on with its start keeps its name. -/
theorem pending_set_of_starting (hlistener : listeners[id]? = some listener)
    (hstarting : listener.Starting) (hnew : new.Starting) (htemp : new.temp = listener.temp)
    (hfile : new.file = listener.file) :
    Pending (listeners.set id new) temp file ↔ Pending listeners temp file := by
  constructor
  · rintro ⟨i, a, ha, hstarting', rfl, rfl⟩
    obtain ⟨rfl, rfl⟩ | ⟨-, ha⟩ := of_getElem?_set ha
    · exact ⟨i, listener, hlistener, hstarting, htemp.symm, hfile.symm⟩
    · exact ⟨i, a, ha, hstarting', rfl, rfl⟩
  · rintro ⟨i, a, ha, hstarting', rfl, rfl⟩
    by_cases heq : i = id
    · subst heq
      obtain rfl := Option.some.inj (hlistener.symm.trans ha)
      exact ⟨i, new, getElem?_set_of_some hlistener, hnew, htemp, hfile⟩
    · exact ⟨i, a, by rw [getElem?_set_of_ne heq, ha], hstarting', rfl, rfl⟩

/-- The names in the directory are those of the listeners. -/
structure Sound (dir : SocketDir) : Prop where
  distinct : Distinct dir.listeners
  temps : ∀ (temp : String) (file : ℕ),
    dir.entries (.temp temp) = some file ↔ Pending dir.listeners temp file
  identity : ∀ (id : ℕ) (listener : Listener), dir.listeners[id]? = some listener →
    listener.stage = .identified ∨ listener.stage = .serving →
      listener.identity = some listener.file
  unserved : dir.renamed = [] → dir.entries .path = none
  serves : ∀ id, dir.renamed.getLast? = some id → ∃ listener, dir.listeners[id]? = some listener ∧
    (listener.stage = .serving ∧ dir.entries .path = some listener.file ∨
      listener.stage = .closed ∧ dir.entries .path = none)

theorem sound_empty : Sound {} where
  distinct := ⟨nofun, nofun⟩
  temps _ _ := iff_of_false nofun fun ⟨_, _, hget, _⟩ => nomatch hget
  identity := nofun
  unserved _ := rfl
  serves := nofun

/-- The name of a listener that is being started is that of its file. -/
theorem Sound.entries_temp (h : Sound dir) (hlistener : dir.listeners[id]? = some listener)
    (hstarting : listener.Starting) : dir.entries (.temp listener.temp) = some listener.file :=
  (h.temps _ _).mpr ⟨id, listener, hlistener, hstarting, rfl, rfl⟩

/-- A name of a listener that is not being started is free. -/
theorem Sound.entries_temp_eq_none (h : Sound dir) (hlistener : dir.listeners[id]? = some listener)
    (hnot : ¬ listener.Starting) : dir.entries (.temp listener.temp) = none := by
  cases hentry : dir.entries (.temp listener.temp) with
  | none => rfl
  | some file =>
    obtain ⟨i, other, hother, hstarting, htemp, -⟩ := (h.temps _ _).mp hentry
    obtain rfl := h.distinct.temps i id other listener hother hlistener htemp
    obtain rfl := Option.some.inj (hlistener.symm.trans hother)
    exact absurd hstarting hnot

/-- Removing a name that nothing has changes nothing. -/
theorem unlink_eq_self {name : SocketName} (h : entries name = none) :
    unlink entries name = entries := by
  rw [unlink, ← h, Function.update_eq_self]

theorem update_temp_path {value : Option ℕ} :
    Function.update entries (.temp temp) value .path = entries .path := by
  rw [Function.update_of_ne]
  exact nofun

theorem update_path_temp {value : Option ℕ} :
    Function.update entries .path value (.temp temp) = entries (.temp temp) := by
  rw [Function.update_of_ne]
  exact nofun

theorem abortStart_eq (entries : SocketName → Option ℕ) (listener : Listener) :
    abortStart entries listener = unlink entries (.temp listener.temp) := by
  rw [abortStart, closeServer]
  cases listener.runtime <;> rfl

theorem abortStart_path : abortStart entries listener .path = entries .path := by
  rw [abortStart_eq]
  exact update_temp_path

theorem Sound.bind {runtime : Runtime} (h : Sound dir)
    (hfresh : Fresh dir (.bind runtime temp file)) : Sound { dir with
      entries := Function.update dir.entries (.temp temp) (some file)
      listeners := dir.listeners ++ [{ runtime, temp, file }] } where
  distinct := h.distinct.concat hfresh
  temps name other := by
    have hstarting : Listener.Starting { runtime, temp, file } := .inl rfl
    dsimp only
    constructor
    · intro hentry
      by_cases hname : name = temp
      · rw [hname, Function.update_self] at hentry
        exact ⟨dir.listeners.length, _, List.getElem?_concat_length, hstarting, hname.symm,
          Option.some.inj hentry⟩
      · rw [Function.update_of_ne fun heq => hname (SocketName.temp.inj heq)] at hentry
        obtain ⟨i, listener, hget, hlistener⟩ := (h.temps name other).mp hentry
        exact ⟨i, listener, getElem?_concat_of_some hget, hlistener⟩
    · rintro ⟨i, listener, hget, hstarting', rfl, rfl⟩
      obtain hget | ⟨-, rfl⟩ := of_getElem?_concat hget
      · have hname := (hfresh listener (List.mem_of_getElem? hget)).1
        rw [Function.update_of_ne fun heq => hname (SocketName.temp.inj heq)]
        exact h.entries_temp hget hstarting'
      · exact Function.update_self ..
  identity id listener hget hstage := by
    obtain hget | ⟨-, rfl⟩ := of_getElem?_concat hget
    · exact h.identity id listener hget hstage
    · exact hstage.elim nofun nofun
  unserved hnone := by
    dsimp only
    rw [update_temp_path, h.unserved hnone]
  serves id hlast := by
    obtain ⟨listener, hget, hserves⟩ := h.serves id hlast
    dsimp only
    rw [update_temp_path]
    exact ⟨listener, getElem?_concat_of_some hget, hserves⟩

/-- The listener that was renamed last is not being started. -/
theorem Sound.newest_ne (h : Sound dir) (hlistener : dir.listeners[id]? = some listener)
    (hstarting : listener.Starting) : dir.renamed.getLast? ≠ some id := by
  intro hlast
  obtain ⟨newest, hget, hserves⟩ := h.serves id hlast
  obtain rfl := Option.some.inj (hlistener.symm.trans hget)
  rcases hstarting with hstage | hstage <;> rcases hserves with ⟨heq, -⟩ | ⟨heq, -⟩ <;>
    exact nomatch hstage.symm.trans heq

/-- A change of a listener that was not renamed last. -/
theorem Sound.serves_set (h : Sound dir) (hne : dir.renamed.getLast? ≠ some id)
    {entries' : Option ℕ} (hpath : entries' = dir.entries .path) :
    ∀ last, dir.renamed.getLast? = some last → ∃ listener,
      (dir.listeners.set id new)[last]? = some listener ∧
        (listener.stage = .serving ∧ entries' = some listener.file ∨
          listener.stage = .closed ∧ entries' = none) := by
  intro last hlast
  obtain ⟨listener, hget, hserves⟩ := h.serves last hlast
  refine ⟨listener, ?_, hpath ▸ hserves⟩
  rw [getElem?_set_of_ne, hget]
  rintro rfl
  exact hne hlast

theorem identity_set (h : Sound dir)
    (hnew : new.stage = .identified ∨ new.stage = .serving → new.identity = some new.file) :
    ∀ (i : ℕ) (other : Listener), (dir.listeners.set id new)[i]? = some other →
      other.stage = .identified ∨ other.stage = .serving → other.identity = some other.file := by
  intro i other hget hstage
  obtain ⟨-, rfl⟩ | ⟨-, hget⟩ := of_getElem?_set hget
  · exact hnew hstage
  · exact h.identity i other hget hstage

theorem Sound.identify (h : Sound dir) (hlistener : dir.listeners[id]? = some listener)
    (hstage : listener.stage = .bound) :
    Sound (dir.setListener id { listener with
      stage := .identified, identity := dir.entries (.temp listener.temp) }) where
  distinct := h.distinct.set hlistener rfl rfl fun _ hover =>
    hover.elim (fun heq => nomatch hstage.symm.trans heq) fun heq => nomatch hstage.symm.trans heq
  temps temp file := (h.temps temp file).trans
    (Iff.symm (pending_set_of_starting hlistener (.inl hstage) (.inr rfl) rfl rfl))
  identity := identity_set h fun _ => h.entries_temp hlistener (.inl hstage)
  unserved := h.unserved
  serves := h.serves_set (h.newest_ne hlistener (.inl hstage)) rfl

theorem unlink_temp_eq_some_iff {name : String} :
    unlink entries (.temp temp) (.temp name) = some file ↔
      entries (.temp name) = some file ∧ name ≠ temp := by
  rw [unlink]
  by_cases hname : name = temp
  · rw [hname, Function.update_self]
    exact iff_of_false nofun fun h => h.2 rfl
  · rw [Function.update_of_ne fun heq => hname (SocketName.temp.inj heq)]
    exact (and_iff_left hname).symm

theorem not_over_of_starting (h : listener.Starting) : ¬ listener.Over := by
  rintro (hover | hover) <;> rcases h with hstage | hstage <;> exact nomatch hstage.symm.trans hover

theorem Sound.abort (h : Sound dir) (hlistener : dir.listeners[id]? = some listener)
    (hstarting : listener.Starting) :
    Sound { dir.setListener id { listener with stage := .failed } with
      entries := abortStart dir.entries listener } where
  distinct := h.distinct.set hlistener rfl rfl fun _ => not_over_of_starting hstarting
  temps name file := by
    rw [abortStart_eq, unlink_temp_eq_some_iff, h.temps]
    refine ((pending_set_of_not_starting h.distinct hlistener ?_).trans ?_).symm
    · exact fun hnew => hnew.elim nofun nofun
    · exact and_congr_right fun _ => forall_prop_of_true hstarting
  identity := identity_set h fun hstage => hstage.elim nofun nofun
  unserved hnone := abortStart_path.trans (h.unserved hnone)
  serves := h.serves_set (h.newest_ne hlistener hstarting) abortStart_path

theorem Sound.rename (h : Sound dir) (hlistener : dir.listeners[id]? = some listener)
    (hstage : listener.stage = .identified) :
    Sound { dir.setListener id { listener with stage := .serving } with
      entries := unlink (Function.update dir.entries .path (dir.entries (.temp listener.temp)))
        (.temp listener.temp)
      renamed := dir.renamed ++ [id] } where
  distinct := h.distinct.set hlistener rfl rfl fun _ => not_over_of_starting (.inr hstage)
  temps name file := by
    rw [unlink_temp_eq_some_iff, update_path_temp, h.temps]
    refine ((pending_set_of_not_starting h.distinct hlistener ?_).trans ?_).symm
    · exact fun hnew => hnew.elim nofun nofun
    · exact and_congr_right fun _ => forall_prop_of_true (.inr hstage)
  identity := identity_set h fun _ => h.identity id listener hlistener (.inl hstage)
  unserved hnone := absurd hnone (by simp)
  serves last hlast := by
    rw [List.getLast?_concat] at hlast
    obtain rfl := Option.some.inj hlast
    refine ⟨_, getElem?_set_of_some hlistener, .inl ⟨rfl, ?_⟩⟩
    dsimp only
    rw [unlink, update_temp_path, Function.update_self]
    exact h.entries_temp hlistener (.inr hstage)

theorem unlinkIfOurs_temp {name : String} :
    unlinkIfOurs entries listener (.temp name) = entries (.temp name) := by
  rw [unlinkIfOurs]
  split
  · exact update_path_temp
  · rfl

/-- Libuv finds the name of a listener that serves gone. -/
theorem closeServer_eq_self (h : entries (.temp listener.temp) = none) :
    closeServer entries listener = entries := by
  rw [closeServer]
  cases listener.runtime with
  | node => exact unlink_eq_self h
  | go => rfl

/-- A listener removes the path if it is that of its own file. -/
theorem unlinkIfOurs_path {own : ℕ} (hidentity : listener.identity = some own) :
    unlinkIfOurs entries listener .path =
      if entries .path = some own then none else entries .path := by
  rw [unlinkIfOurs, hidentity]
  by_cases hown : entries .path = some own
  · rw [if_pos ⟨by rw [hown]; exact nofun, hown⟩, if_pos hown, unlink, Function.update_self]
  · rw [if_neg fun h => hown h.2, if_neg hown]

theorem Sound.close (h : Sound dir) (hlistener : dir.listeners[id]? = some listener)
    (hstage : listener.stage = .serving) :
    Sound { dir.setListener id { listener with stage := .closed } with
      entries := closeServer (unlinkIfOurs dir.entries listener) listener } := by
  have hopen : ¬ listener.Over := fun hover =>
    hover.elim (fun heq => nomatch hstage.symm.trans heq) fun heq => nomatch hstage.symm.trans heq
  have hnot : ¬ listener.Starting := fun hstarting =>
    hstarting.elim (fun heq => nomatch hstage.symm.trans heq) fun heq =>
      nomatch hstage.symm.trans heq
  have hfree : unlinkIfOurs dir.entries listener (.temp listener.temp) = none :=
    unlinkIfOurs_temp.trans (h.entries_temp_eq_none hlistener hnot)
  have hidentity := h.identity id listener hlistener (.inr hstage)
  rw [closeServer_eq_self hfree]
  refine ⟨h.distinct.set hlistener rfl rfl fun _ => hopen, fun name file => ?_,
    identity_set h fun hnew => hnew.elim nofun nofun, fun hnone => ?_, fun last hlast => ?_⟩
  · refine Iff.trans ?_ (pending_set_of_not_starting h.distinct hlistener ?_).symm
    · dsimp only
      rw [unlinkIfOurs_temp, h.temps]
      exact (and_iff_left fun hstarting => absurd hstarting hnot).symm
    · exact fun hnew => hnew.elim nofun nofun
  · exact (unlinkIfOurs_path hidentity).trans (by rw [h.unserved hnone]; rfl)
  · obtain ⟨newest, hget, hserves⟩ := h.serves last hlast
    dsimp only
    rw [unlinkIfOurs_path hidentity]
    by_cases heq : last = id
    · -- The newest one closes, and its path goes.
      subst heq
      obtain rfl := Option.some.inj (hlistener.symm.trans hget)
      refine ⟨_, getElem?_set_of_some hlistener, .inr ⟨rfl, ?_⟩⟩
      obtain ⟨-, hpath⟩ | ⟨hclosed, -⟩ := hserves
      · rw [if_pos hpath]
      · exact nomatch hstage.symm.trans hclosed
    · refine ⟨newest, (getElem?_set_of_ne heq).trans hget, ?_⟩
      obtain ⟨hserving, hpath⟩ | ⟨hclosed, hpath⟩ := hserves
      · -- An older one closes: its file is not that of the newest.
        have hother : newest.file ≠ listener.file := by
          intro hfile
          refine heq (h.distinct.files last id newest listener hget hlistener ?_ hopen hfile)
          rintro (hover | hover) <;> exact nomatch hserving.symm.trans hover
        refine .inl ⟨hserving, ?_⟩
        rw [hpath, if_neg fun hsame => hother (Option.some.inj hsame)]
      · exact .inr ⟨hclosed, by rw [hpath]; rfl⟩

theorem Sound.step (h : Sound dir) (hfresh : Fresh dir label) (hstep : dir.step label = some next) :
    Sound next := by
  cases label with
  | bind runtime temp file =>
    obtain rfl := Option.some.inj hstep
    exact h.bind hfresh
  | bindFailed runtime =>
    obtain rfl := Option.some.inj hstep
    exact h
  | identify id =>
    simp only [SocketDir.step] at hstep
    split at hstep
    · next listener hlistener =>
      obtain ⟨hstage, rfl⟩ := of_ite_some hstep
      exact h.identify hlistener hstage.1
    · exact nomatch hstep
  | abort id =>
    simp only [SocketDir.step] at hstep
    split at hstep
    · next listener hlistener =>
      obtain ⟨hstarting, rfl⟩ := of_ite_some hstep
      exact h.abort hlistener hstarting
    · exact nomatch hstep
  | rename id =>
    simp only [SocketDir.step] at hstep
    split at hstep
    · next listener hlistener =>
      obtain ⟨hstage, rfl⟩ := of_ite_some hstep
      exact h.rename hlistener hstage.1
    · exact nomatch hstep
  | close id =>
    simp only [SocketDir.step] at hstep
    split at hstep
    · next listener hlistener =>
      split at hstep
      · next hstage =>
        obtain rfl := Option.some.inj hstep
        exact h.close hlistener hstage
      · obtain rfl := Option.some.inj hstep
        exact h
      · exact nomatch hstep
    · exact nomatch hstep

theorem Sound.newestServes (h : Sound dir) : NewestServes dir where
  unserved := h.unserved
  serves := h.serves
  clean hover name := by
    cases name with
    | path =>
      cases hlast : dir.renamed.getLast? with
      | none => exact h.unserved (List.getLast?_eq_none_iff.mp hlast)
      | some id =>
        obtain ⟨listener, hget, ⟨hserving, -⟩ | ⟨-, hpath⟩⟩ := h.serves id hlast
        · obtain hclosed | hfailed := hover listener (List.mem_of_getElem? hget)
          · exact nomatch hserving.symm.trans hclosed
          · exact nomatch hserving.symm.trans hfailed
        · exact hpath
    | temp name =>
      cases hentry : dir.entries (.temp name) with
      | none => rfl
      | some file =>
        obtain ⟨id, listener, hget, hstarting, -⟩ := (h.temps name file).mp hentry
        exact absurd (hover listener (List.mem_of_getElem? hget)) (not_over_of_starting hstarting)

end SocketDir

open SocketDir

/-- In every run the path names the file of the listener that was renamed last until that one
closes, whatever older listeners do, and no name is left when all have closed or failed to start. -/
theorem newest_serves {labels : List SocketStep} {dir : SocketDir}
    (hrun : Run SocketDir.step Fresh {} labels dir) : NewestServes dir :=
  (hrun.invariant (fun _ _ _ hsound hfresh hstep => hsound.step hfresh hstep)
    sound_empty).newestServes

/-- A helper takes the path over from the app, whose listener closes while a third one fails. -/
theorem newest_serves_takeover :
    ∃ dir : SocketDir, Run SocketDir.step Fresh {}
        [.bind .node "a" 1, .identify 0, .rename 0, .bind .go "b" 2, .bind .node "c" 3, .identify 1,
          .rename 1, .close 0, .abort 2] dir ∧
      dir.entries .path = some 2 ∧ NewestServes dir := by
  exact exists_run_and_of_replay (by decide +kernel) fun _ hrun => newest_serves hrun

end AgentCockpit.Callback
