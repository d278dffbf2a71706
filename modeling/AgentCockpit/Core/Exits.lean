import AgentCockpit.Core.Effect

/-!
# Computations with two exits

A computation returns a value or raises an error, and keeps the state it reached either way.
`Ends x s post failed` describes both exits: a run of `x` from `s` that returns satisfies
`post`, and one that fails ends in a state that satisfies `failed`. A proof about a program
follows its `do` block, as with `Leads`, but the assertion about the state may change from
statement to statement, and a statement that cannot fail owes nothing to the second exit.
-/

namespace AgentCockpit.Core

variable {σ ε α β : Type} {x : ExceptT ε (StateM σ) α} {f : α → ExceptT ε (StateM σ) β} {s t : σ}

/-- A run of `x` from `s` returns in a state that satisfies `post`, or fails in one that
satisfies `failed`. -/
def Ends (x : ExceptT ε (StateM σ) α) (s : σ) (post : α → σ → Prop) (failed : σ → Prop) : Prop :=
  (∀ a t, exec x s = (.ok a, t) → post a t) ∧ ∀ err t, exec x s = (.error err, t) → failed t

/-- A computation that succeeds returns a value. -/
theorem exec_isOk_iff : (exec x s).1.isOk ↔ ∃ a t, exec x s = (.ok a, t) := by
  rcases exec x s with ⟨err | a, t⟩
  · exact iff_of_false Bool.false_ne_true fun ⟨_, _, h⟩ => nomatch h
  · exact iff_of_true rfl ⟨a, t, rfl⟩

namespace Ends

variable {post post' : α → σ → Prop} {failed failed' : σ → Prop} {goal : β → σ → Prop}

theorem mono (h : Ends x s post failed) (hpost : ∀ a t, post a t → post' a t)
    (hfailed : ∀ t, failed t → failed' t) : Ends x s post' failed' :=
  ⟨fun a t hexec => hpost a t (h.1 a t hexec), fun err t hexec => hfailed t (h.2 err t hexec)⟩

theorem of_pure {a : α} (h : post a s) : Ends (pure a : ExceptT ε (StateM σ) α) s post failed := by
  refine ⟨fun b t hexec => ?_, fun err t hexec => nomatch hexec⟩
  obtain ⟨hvalue, rfl⟩ := Prod.mk.inj hexec
  exact Except.ok.inj hvalue ▸ h

theorem of_throw {err : ε} (h : failed s) :
    Ends (throw err : ExceptT ε (StateM σ) α) s post failed := by
  refine ⟨fun a t hexec => (nomatch hexec), fun err t hexec => ?_⟩
  obtain ⟨-, rfl⟩ := Prod.mk.inj hexec
  exact h

theorem of_modify {g : σ → σ} :
    Ends (modify g : ExceptT ε (StateM σ) PUnit) s (fun _ t => t = g s) failed := by
  refine ⟨fun a t hexec => ?_, fun err t hexec => nomatch hexec⟩
  exact (Prod.mk.inj hexec).2.symm

/-- Two descriptions of the same computation. -/
theorem and (h : Ends x s post failed) (h' : Ends x s post' failed') :
    Ends x s (fun a t => post a t ∧ post' a t) fun t => failed t ∧ failed' t :=
  ⟨fun a t hexec => ⟨h.1 a t hexec, h'.1 a t hexec⟩,
    fun err t hexec => ⟨h.2 err t hexec, h'.2 err t hexec⟩⟩

/-- The run itself. -/
theorem of_exec : Ends x s (fun a t => exec x s = (.ok a, t))
    fun t => ∃ err, exec x s = (.error err, t) :=
  ⟨fun _ _ => id, fun err _ h => ⟨err, h⟩⟩

/-- What holds on both exits holds of the final state. -/
theorem final {final : σ → Prop} (h : Ends x s (fun _ => final) final) : final (exec x s).2 := by
  rcases hexec : exec x s with ⟨_ | _, t⟩
  · exact h.2 _ t hexec
  · exact h.1 _ t hexec

/-- What holds of the final state, whatever the exit. -/
theorem of_final {final : σ → Prop} (h : final (exec x s).2) :
    Ends x s (fun _ => final) final := by
  refine ⟨fun a t hexec => ?_, fun err t hexec => ?_⟩
  · rwa [hexec] at h
  · rwa [hexec] at h

/-- **Sequencing.** -/
theorem bind (hx : Ends x s post failed) (hf : ∀ a t, post a t → Ends (f a) t goal failed) :
    Ends (x >>= f) s goal failed := by
  unfold Ends
  rw [exec_bind]
  split
  · next a t hexec => exact hf a t (hx.1 a t hexec)
  · next err t hexec =>
    refine ⟨fun b u hrest => (nomatch hrest), fun err' u hrest => ?_⟩
    obtain ⟨-, rfl⟩ := Prod.mk.inj hrest
    exact hx.2 err t hexec

/-- What moves the state along a preorder does so on both exits. -/
theorem of_leads {R : σ → σ → Prop} (h : Leads R x s post) :
    Ends x s (fun a t => R s t ∧ post a t) (R s) := by
  refine ⟨fun a t hexec => h.of_exec hexec, fun err t hexec => ?_⟩
  rw [Leads, hexec] at h
  exact h.1

theorem get_bind {f : σ → ExceptT ε (StateM σ) β} (h : Ends (f s) s goal failed) :
    Ends (get >>= f) s goal failed :=
  h

theorem modify_bind {g : σ → σ} {f : PUnit → ExceptT ε (StateM σ) β}
    (h : Ends (f ⟨⟩) (g s) goal failed) : Ends (modify g >>= f) s goal failed :=
  h

theorem require_bind {condition : Prop} [Decidable condition] {err : ε}
    {f : Unit → ExceptT ε (StateM σ) β} (hfailed : ¬ condition → failed s)
    (h : condition → Ends (f ()) s goal failed) :
    Ends (require condition err >>= f) s goal failed := by
  by_cases hcondition : condition
  · rw [require, if_pos hcondition]
    exact h hcondition
  · rw [require, if_neg hcondition]
    exact (of_throw (hfailed hcondition)).bind fun _ _ h => h

theorem orThrow_bind {value : Option α} {err : ε} (hfailed : failed s)
    (h : ∀ a, value = some a → Ends (f a) s goal failed) :
    Ends (orThrow value err >>= f) s goal failed := by
  cases value with
  | none => exact (of_throw hfailed).bind fun _ _ h => h
  | some a => exact h a rfl

theorem orRaise_bind {δ : Type} {outcome : Except δ α} {context : δ → ε}
    (hfailed : ∀ err, outcome = .error err → failed s)
    (h : ∀ a, outcome = .ok a → Ends (f a) s goal failed) :
    Ends (orRaise outcome context >>= f) s goal failed := by
  cases outcome with
  | error err => exact (of_throw (hfailed err rfl)).bind fun _ _ h => h
  | ok a => exact h a rfl

/-- A cleanup runs in the state in which the computation failed, and its own error is dropped. -/
theorem onError {cleanup : ExceptT ε (StateM σ) Unit} (hx : Ends x s post failed')
    (hcleanup : ∀ t, failed' t → Ends cleanup t (fun _ => failed) failed) :
    Ends (Core.onError x cleanup) s post failed := by
  unfold Ends
  rw [Core.onError, exec_tryCatch]
  split
  · next a t hexec =>
    refine ⟨fun b u hrest => ?_, fun err u hrest => by cases hrest⟩
    obtain ⟨hvalue, rfl⟩ := Prod.mk.inj hrest
    exact Except.ok.inj hvalue ▸ hx.1 a t hexec
  · next err t hexec =>
    have hclean := hcleanup t (hx.2 err t hexec)
    have hstate : exec (do Core.bestEffort cleanup; throw err : ExceptT ε (StateM σ) α) t =
        (.error err, (exec cleanup t).2) := by
      rw [exec_bind, exec_bestEffort]
      rfl
    rw [hstate]
    refine ⟨fun b u hrest => (by cases hrest), fun err' u hrest => ?_⟩
    obtain ⟨-, rfl⟩ := Prod.mk.inj hrest
    cases hcleanup : exec cleanup t with
    | mk outcome v =>
      cases outcome with
      | ok a => exact hclean.1 a v hcleanup
      | error err => exact hclean.2 err v hcleanup

/-- A computation whose error is dropped does not fail. -/
theorem bestEffort {y : ExceptT ε (StateM σ) Unit} {ypost : σ → Prop}
    (hy : Ends y s (fun _ => ypost) ypost) :
    Ends (Core.bestEffort y) s (fun _ => ypost) failed := by
  unfold Ends
  rw [exec_bestEffort]
  refine ⟨fun a t hexec => ?_, fun err t hexec => nomatch hexec⟩
  obtain ⟨-, rfl⟩ := Prod.mk.inj hexec
  cases hrun : exec y s with
  | mk outcome v =>
    cases outcome with
    | ok a => exact hy.1 a v hrun
    | error err => exact hy.2 err v hrun

end Ends

end AgentCockpit.Core
