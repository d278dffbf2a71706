import Mathlib.Order.Defs.Unbundled

/-!
# Stateful computations with errors

A computation runs in a state, may raise an error, and keeps the state it reached when
it does. `Leads R x s post` says what a run of `x` from `s` can do: whatever the
outcome, the state it ends in is related to `s` by the preorder `R`, and a value it
returns satisfies `post`. A proof about a program follows its `do` block: one rule for
each kind of statement, and the error paths need no proof of their own.
-/

namespace AgentCockpit.Core

variable {σ ε α β : Type}

/-- The outcome of a computation and the state it ends in. -/
def exec (x : ExceptT ε (StateM σ) α) (s : σ) : Except ε α × σ :=
  x.run.run s

/-- Raise an error unless a condition holds. -/
def require (condition : Prop) [Decidable condition] (err : ε) : ExceptT ε (StateM σ) Unit :=
  if condition then pure () else throw err

/-- The value of an option, or an error. -/
def orThrow (value : Option α) (err : ε) : ExceptT ε (StateM σ) α :=
  match value with
  | some value => pure value
  | none => throw err

/-- The value of an outcome, or its error in a context. -/
def orRaise {δ : Type} (outcome : Except δ α) (context : δ → ε) : ExceptT ε (StateM σ) α :=
  match outcome with
  | .ok value => pure value
  | .error err => throw (context err)

/-- The outcome of a call that may fail by itself. -/
def orFail {α : Type} (err : Option String) (outcome : Except String α) : Except String α :=
  match err with
  | some err => .error err
  | none => outcome

@[simp] theorem orFail_none {α : Type} (outcome : Except String α) :
    orFail none outcome = outcome :=
  rfl

theorem orFail_eq_ok {α : Type} {err : Option String} {outcome : Except String α} {value : α}
    (h : orFail err outcome = .ok value) : err = none ∧ outcome = .ok value := by
  cases err with
  | none => exact ⟨rfl, h⟩
  | some _ => exact nomatch h

theorem bind_eq_ok {α β : Type} {first : Except String α} {next : α → Except String β} {value : β}
    (h : first >>= next = .ok value) : ∃ mid, first = .ok mid ∧ next mid = .ok value := by
  cases first with
  | error _ => exact nomatch h
  | ok mid => exact ⟨mid, rfl, h⟩

/-- Run a computation whose error is ignored. -/
def bestEffort (x : ExceptT ε (StateM σ) Unit) : ExceptT ε (StateM σ) Unit :=
  tryCatch x fun _ => pure ()

/-- Run a computation and keep its error, if any, as a value. -/
def attempt (x : ExceptT ε (StateM σ) Unit) : ExceptT ε (StateM σ) (Option ε) :=
  tryCatch (do x; pure none) fun err => pure (some err)

/-- Run a cleanup whose own outcome is ignored when a computation fails. -/
def onError (x : ExceptT ε (StateM σ) α) (cleanup : ExceptT ε (StateM σ) Unit) :
    ExceptT ε (StateM σ) α :=
  tryCatch x fun err => do
    bestEffort cleanup
    throw err

variable {x : ExceptT ε (StateM σ) α} {f : α → ExceptT ε (StateM σ) β} {s t u : σ}

theorem exec_tryCatch {handler : ε → ExceptT ε (StateM σ) α} : exec (tryCatch x handler) s =
    match exec x s with
    | (.ok a, t) => (.ok a, t)
    | (.error err, t) => exec (handler err) t := by
  cases hx : exec x s with
  | mk outcome t =>
    have hrun : StateT.run x s = (outcome, t) := hx
    simp only [exec, tryCatch, tryCatchThe, MonadExceptOf.tryCatch, ExceptT.tryCatch,
      ExceptT.run_mk, StateT.run_bind, hrun]
    cases outcome <;> rfl

theorem exec_bestEffort {y : ExceptT ε (StateM σ) Unit} :
    exec (bestEffort y) s = (.ok (), (exec y s).2) := by
  rw [bestEffort, exec_tryCatch]
  split
  · next hy => rw [hy]
  · next hy =>
    rw [hy]
    rfl

theorem exec_bind : exec (x >>= f) s =
    match exec x s with
    | (.ok a, t) => exec (f a) t
    | (.error err, t) => (.error err, t) := by
  simp only [exec, ExceptT.run_bind, StateT.run_bind]
  cases x.run.run s with
  | mk outcome t => cases outcome <;> rfl

theorem exec_get_bind {f : σ → ExceptT ε (StateM σ) β} : exec (get >>= f) s = exec (f s) s :=
  rfl

theorem exec_set_bind {f : PUnit → ExceptT ε (StateM σ) β} :
    exec (set t >>= f) s = exec (f ⟨⟩) t :=
  rfl

theorem exec_modify_bind {g : σ → σ} {f : PUnit → ExceptT ε (StateM σ) β} :
    exec (modify g >>= f) s = exec (f ⟨⟩) (g s) :=
  rfl

theorem exec_attempt {y : ExceptT ε (StateM σ) Unit} : exec (attempt y) s =
    match exec y s with
    | (.ok _, t) => (.ok none, t)
    | (.error err, t) => (.ok (some err), t) := by
  have hbind : exec (do y; pure none : ExceptT ε (StateM σ) (Option ε)) s =
      match exec y s with
      | (.ok _, t) => (.ok none, t)
      | (.error err, t) => (.error err, t) := by
    rw [exec_bind]
    rcases exec y s with ⟨_ | _, t⟩ <;> rfl
  rw [attempt, exec_tryCatch, hbind]
  rcases exec y s with ⟨_ | _, t⟩ <;> rfl

/-- The successful runs of a sequence pass through a successful first part. -/
theorem exec_bind_ok {b : β} (h : exec (x >>= f) s = (.ok b, u)) :
    ∃ a t, exec x s = (.ok a, t) ∧ exec (f a) t = (.ok b, u) := by
  rw [exec_bind] at h
  split at h
  · next a t hx => exact ⟨a, t, hx, h⟩
  · exact nomatch h

theorem exec_require {condition : Prop} [Decidable condition] {err : ε} :
    exec (require condition err) s = (if condition then .ok () else .error err, s) := by
  unfold require
  split <;> rfl

theorem exec_require_ok {condition : Prop} [Decidable condition] {err : ε} {a : Unit}
    (h : exec (require condition err) s = (.ok a, t)) : condition ∧ t = s := by
  rw [exec_require] at h
  split at h
  · next hcondition => exact ⟨hcondition, (congrArg Prod.snd h).symm⟩
  · exact nomatch h

theorem exec_orThrow_ok {value : Option α} {err : ε} {a : α}
    (h : exec (orThrow value err) s = (.ok a, t)) : value = some a ∧ t = s := by
  cases value with
  | none => exact nomatch h
  | some value =>
    obtain ⟨hvalue, rfl⟩ := Prod.mk.inj h
    exact ⟨congrArg some (Except.ok.inj hvalue), rfl⟩

theorem exec_orRaise_ok {δ : Type} {outcome : Except δ α} {context : δ → ε} {a : α}
    (h : exec (orRaise outcome context) s = (.ok a, t)) : outcome = .ok a ∧ t = s := by
  cases outcome with
  | error _ => exact nomatch h
  | ok value =>
    obtain ⟨hvalue, rfl⟩ := Prod.mk.inj h
    exact ⟨congrArg Except.ok (Except.ok.inj hvalue), rfl⟩

theorem exec_require_bind {condition : Prop} [Decidable condition] {err : ε}
    {f : Unit → ExceptT ε (StateM σ) β} :
    exec (require condition err >>= f) s =
      if condition then exec (f ()) s else (.error err, s) := by
  unfold require
  split <;> rfl

theorem exec_orThrow_bind {value : Option α} {err : ε} :
    exec (orThrow value err >>= f) s =
      match value with
      | some a => exec (f a) s
      | none => (.error err, s) := by
  cases value <;> rfl

theorem exec_require_bind_ok {condition : Prop} [Decidable condition] {err : ε}
    {f : Unit → ExceptT ε (StateM σ) β} {b : β}
    (h : exec (require condition err >>= f) s = (.ok b, t)) :
    condition ∧ exec (f ()) s = (.ok b, t) := by
  obtain ⟨_, u, hrequire, hrest⟩ := exec_bind_ok h
  obtain ⟨hcondition, rfl⟩ := exec_require_ok hrequire
  exact ⟨hcondition, hrest⟩

theorem exec_orThrow_bind_ok {value : Option α} {err : ε} {b : β}
    (h : exec (orThrow value err >>= f) s = (.ok b, t)) :
    ∃ a, value = some a ∧ exec (f a) s = (.ok b, t) := by
  obtain ⟨a, u, horThrow, hrest⟩ := exec_bind_ok h
  obtain ⟨hvalue, rfl⟩ := exec_orThrow_ok horThrow
  exact ⟨a, hvalue, hrest⟩

/-- A run of `x` from `s` ends in a state related to `s`, and a value it returns satisfies
`post` there. -/
def Leads (R : σ → σ → Prop) (x : ExceptT ε (StateM σ) α) (s : σ) (post : α → σ → Prop) : Prop :=
  R s (exec x s).2 ∧ ∀ a, (exec x s).1 = .ok a → post a (exec x s).2

namespace Leads

variable {R : σ → σ → Prop} {post post' : α → σ → Prop} {goal : β → σ → Prop}

/-- A computation that leaves the state alone. -/
theorem of_same [Std.Refl R] (hstate : (exec x s).2 = s)
    (hpost : ∀ a, (exec x s).1 = .ok a → post a s) : Leads R x s post := by
  refine ⟨?_, fun a ha => ?_⟩
  · rw [hstate]
    exact refl s
  · rw [hstate]
    exact hpost a ha

theorem of_pure [Std.Refl R] {a : α} (h : post a s) :
    Leads R (pure a : ExceptT ε (StateM σ) α) s post :=
  of_same rfl fun _ ha => Except.ok.inj ha ▸ h

theorem of_throw [Std.Refl R] {err : ε} :
    Leads R (throw err : ExceptT ε (StateM σ) α) s post :=
  of_same rfl fun _ ha => nomatch ha

theorem mono (h : Leads R x s post) (himp : ∀ a t, post a t → post' a t) : Leads R x s post' :=
  ⟨h.1, fun a ha => himp a _ (h.2 a ha)⟩

/-- The relation is also known of a run that returns. -/
theorem relate (h : Leads R x s post) : Leads R x s fun a t => R s t ∧ post a t :=
  ⟨h.1, fun a ha => ⟨h.1, h.2 a ha⟩⟩

/-- What is known of a run that returned. -/
theorem of_exec {a : α} (h : Leads R x s post) (hexec : exec x s = (.ok a, t)) :
    R s t ∧ post a t := by
  rw [Leads, hexec] at h
  exact ⟨h.1, h.2 a rfl⟩

/-- A larger relation. -/
theorem weaken {R' : σ → σ → Prop} (h : Leads R x s post) (himp : ∀ s t, R s t → R' s t) :
    Leads R' x s post :=
  ⟨himp _ _ h.1, h.2⟩

/-- **Sequencing.** -/
theorem bind [IsTrans σ R] (hx : Leads R x s post)
    (hf : ∀ a t, R s t → post a t → Leads R (f a) t goal) : Leads R (x >>= f) s goal := by
  unfold Leads at *
  rw [exec_bind]
  split
  · next a t hexec =>
    rw [hexec] at hx
    obtain ⟨hmoved, hgoal⟩ := hf a t hx.1 (hx.2 a rfl)
    exact ⟨IsTrans.trans _ _ _ hx.1 hmoved, hgoal⟩
  · next err t hexec =>
    rw [hexec] at hx
    exact ⟨hx.1, fun _ ha => nomatch ha⟩

theorem assoc {γ : Type} {g : β → ExceptT ε (StateM σ) γ} {goal : γ → σ → Prop}
    (h : Leads R (x >>= fun a => f a >>= g) s goal) : Leads R ((x >>= f) >>= g) s goal := by
  rw [bind_assoc]
  exact h

/-- A block whose first statements are themselves a block. -/
theorem block {γ : Type} {g : β → ExceptT ε (StateM σ) γ} {goal' : γ → σ → Prop} [IsTrans σ R]
    (hblock : Leads R (x >>= f) s goal) (h : ∀ b t, R s t → goal b t → Leads R (g b) t goal') :
    Leads R (x >>= fun a => f a >>= g) s goal' := by
  rw [← bind_assoc]
  exact hblock.bind h

theorem pure_bind {a : α} (h : Leads R (f a) s goal) :
    Leads R ((pure a : ExceptT ε (StateM σ) α) >>= f) s goal :=
  h

theorem get_bind {f : σ → ExceptT ε (StateM σ) β} (h : Leads R (f s) s goal) :
    Leads R (get >>= f) s goal :=
  h

theorem modify_bind [IsTrans σ R] {g : σ → σ} {f : PUnit → ExceptT ε (StateM σ) β}
    (hg : R s (g s)) (h : Leads R (f ⟨⟩) (g s) goal) : Leads R (modify g >>= f) s goal :=
  ⟨IsTrans.trans _ _ _ hg h.1, h.2⟩

theorem set_bind [IsTrans σ R] {f : PUnit → ExceptT ε (StateM σ) β} (ht : R s t)
    (h : Leads R (f ⟨⟩) t goal) : Leads R (set t >>= f) s goal :=
  ⟨IsTrans.trans _ _ _ ht h.1, h.2⟩

theorem of_modify {g : σ → σ} (h : R s (g s)) :
    Leads R (modify g : ExceptT ε (StateM σ) PUnit) s fun _ t => t = g s :=
  ⟨h, fun _ _ => rfl⟩

theorem require_bind [Std.Refl R] {condition : Prop} [Decidable condition] {err : ε}
    {f : Unit → ExceptT ε (StateM σ) β} (h : condition → Leads R (f ()) s goal) :
    Leads R (require condition err >>= f) s goal := by
  unfold require
  split
  · next hcondition => exact h hcondition
  · exact ⟨refl s, fun _ ha => nomatch ha⟩

theorem orThrow_bind [Std.Refl R] {value : Option α} {err : ε}
    (h : ∀ a, value = some a → Leads R (f a) s goal) :
    Leads R (orThrow value err >>= f) s goal := by
  cases value with
  | none => exact ⟨refl s, fun _ ha => nomatch ha⟩
  | some a => exact h a rfl

theorem orRaise_bind [Std.Refl R] {δ : Type} {outcome : Except δ α} {context : δ → ε}
    (h : ∀ a, outcome = .ok a → Leads R (f a) s goal) :
    Leads R (orRaise outcome context >>= f) s goal := by
  cases outcome with
  | error _ => exact ⟨refl s, fun _ ha => nomatch ha⟩
  | ok a => exact h a rfl

theorem of_require [Std.Refl R] {condition : Prop} [Decidable condition] {err : ε} :
    Leads R (require condition err) s fun _ t => condition ∧ t = s := by
  unfold require
  split
  · next h => exact of_pure ⟨h, rfl⟩
  · exact of_throw

theorem of_orRaise [Std.Refl R] {δ : Type} {outcome : Except δ α} {context : δ → ε} :
    Leads R (orRaise outcome context) s fun a t => outcome = .ok a ∧ t = s := by
  cases outcome with
  | error _ => exact of_throw
  | ok value => exact of_pure ⟨rfl, rfl⟩

/-- A loop whose rounds establish what later rounds keep: every round starts in a state that
the rounds before it can reach. -/
theorem forM_each [Std.Refl R] [IsTrans σ R] {γ : Type} {items : List γ}
    {f : γ → ExceptT ε (StateM σ) PUnit} {p : γ → σ → Prop}
    (hstable : ∀ item t u, R t u → p item t → p item u)
    (h : ∀ item ∈ items, ∀ t, R s t → Leads R (f item) t fun _ u => p item u) :
    Leads R (items.forM f) s fun _ u => ∀ item ∈ items, p item u := by
  induction items generalizing s with
  | nil => exact of_pure nofun
  | cons item rest ih =>
    change Leads R (f item >>= fun _ => rest.forM f) s _
    refine bind (h item List.mem_cons_self s (refl s)) fun _ t ht hitem => ?_
    have hrest := ih fun other hother u hu =>
      h other (List.mem_cons_of_mem _ hother) u (IsTrans.trans _ _ _ ht hu)
    refine hrest.relate.mono fun _ u hu => List.forall_mem_cons.mpr ⟨?_, hu.2⟩
    exact hstable item t u hu.1 hitem

/-- A loop whose rounds establish nothing. -/
theorem forM [Std.Refl R] [IsTrans σ R] {γ : Type} {items : List γ}
    {f : γ → ExceptT ε (StateM σ) PUnit}
    (h : ∀ item ∈ items, ∀ t, R s t → Leads R (f item) t fun _ _ => True) :
    Leads R (items.forM f) s fun _ _ => True := by
  have heach : Leads R (items.forM f) s fun _ _ => ∀ item ∈ items, True :=
    forM_each (fun _ _ _ _ _ => trivial) h
  exact heach.mono fun _ _ _ => trivial

/-- A cleanup runs in the state in which the computation failed. -/
theorem onError [IsTrans σ R] {cleanup : ExceptT ε (StateM σ) Unit} (hx : Leads R x s post)
    (hcleanup : ∀ t, R s t → Leads R cleanup t fun _ _ => True) :
    Leads R (Core.onError x cleanup) s post := by
  unfold Leads at *
  rw [Core.onError, exec_tryCatch]
  split
  · next a t hexec =>
    rw [hexec] at hx
    exact hx
  · next err t hexec =>
    rw [hexec] at hx
    have hstate : exec (do Core.bestEffort cleanup; throw err : ExceptT ε (StateM σ) α) t =
        (.error err, (exec cleanup t).2) := by
      rw [exec_bind, exec_bestEffort]
      rfl
    rw [hstate]
    exact ⟨IsTrans.trans _ _ _ hx.1 (hcleanup t hx.1).1, fun _ ha => nomatch ha⟩

theorem bestEffort {y : ExceptT ε (StateM σ) Unit} {ypost : Unit → σ → Prop}
    (hy : Leads R y s ypost) : Leads R (Core.bestEffort y) s fun _ _ => True := by
  unfold Leads
  rw [exec_bestEffort]
  exact ⟨hy.1, fun _ _ => trivial⟩

/-- The state in which an attempt ends is the one its computation ends in. -/
theorem attempt {y : ExceptT ε (StateM σ) Unit} {ypost : Unit → σ → Prop}
    (hy : Leads R y s ypost) : Leads R (Core.attempt y) s fun err t => err = none → ypost () t := by
  obtain ⟨hmoved, hpost⟩ := hy
  unfold Leads
  rw [exec_attempt]
  split
  · next a t hexec =>
    rw [hexec] at hmoved hpost
    exact ⟨hmoved, fun err herr _ => hpost a rfl⟩
  · next err t hexec =>
    rw [hexec] at hmoved
    exact ⟨hmoved, fun err' herr hnone => nomatch (Except.ok.inj herr).trans hnone⟩

end Leads

end AgentCockpit.Core
