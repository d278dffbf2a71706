import Mathlib.Data.List.Basic

/-!
# Guarded runs of a labelled system

A system is a partial step function on states: a label carries every choice the
environment makes in one step, so that a state and a label determine the next
state, and a label that is not enabled has no successor. A run follows a list of
labels. Each run is taken under a guard, a condition on a label and the state it
is taken in; the guard that admits everything gives the plain runs.

The module provides the induction principle all safety results rest on: what
every admitted step preserves holds along every run.
-/

namespace AgentCockpit.Core

variable {σ α : Type*}

/-- `Run step admits s w t`: the labels `w`, taken in order, lead from `s` to
`t`, and `admits` holds of each label in the state it is taken in. -/
inductive Run (step : σ → α → Option σ) (admits : σ → α → Prop) :
    σ → List α → σ → Prop
  | nil (s : σ) : Run step admits s [] s
  | cons {a : α} {w : List α} {s t u : σ} (hadmits : admits s a)
      (hstep : step s a = some t) (hrest : Run step admits t w u) :
      Run step admits s (a :: w) u

/-- The guard that admits every label in every state. -/
def Always (_ : σ) (_ : α) : Prop := True

instance (s : σ) (a : α) : Decidable (Always s a) := isTrue trivial

/-- Some guarded run leads from `s` to `t`. -/
def Reaches (step : σ → α → Option σ) (admits : σ → α → Prop) (s t : σ) : Prop :=
  ∃ w, Run step admits s w t

variable {step : σ → α → Option σ} {admits admits' : σ → α → Prop}
variable {a : α} {v w : List α} {s t u : σ}

namespace Run

theorem single (hadmits : admits s a) (hstep : step s a = some t) :
    Run step admits s [a] t :=
  .cons hadmits hstep (.nil t)

/-- Runs compose. -/
theorem append (h : Run step admits s v t) (h' : Run step admits t w u) :
    Run step admits s (v ++ w) u := by
  induction h with
  | nil _ => exact h'
  | cons hadmits hstep _ ih => exact .cons hadmits hstep (ih h')

/-- A run continues by one admitted step. -/
theorem snoc (h : Run step admits s w t) (hadmits : admits t a) (hstep : step t a = some u) :
    Run step admits s (w ++ [a]) u :=
  h.append (single hadmits hstep)

/-- A run over a concatenation passes through an intermediate state. -/
theorem split (h : Run step admits s (v ++ w) u) :
    ∃ t, Run step admits s v t ∧ Run step admits t w u := by
  induction v generalizing s with
  | nil => exact ⟨s, .nil s, h⟩
  | cons b v ih =>
    cases h with
    | cons hadmits hstep hrest =>
      obtain ⟨t, hleft, hright⟩ := ih hrest
      exact ⟨t, .cons hadmits hstep hleft, hright⟩

/-- A run under a guard is a run under every weaker one. -/
theorem mono (himp : ∀ s a, admits s a → admits' s a) (h : Run step admits s w t) :
    Run step admits' s w t := by
  induction h with
  | nil s => exact .nil s
  | cons hadmits hstep _ ih => exact .cons (himp _ _ hadmits) hstep ih

/-- **Invariant rule.** A property that every admitted step preserves holds at
the end of every run that starts in it. -/
theorem invariant {inv : σ → Prop}
    (hpreserved : ∀ s a t, inv s → admits s a → step s a = some t → inv t)
    (h : Run step admits s w t) (hinv : inv s) : inv t := by
  induction h with
  | nil _ => exact hinv
  | cons hadmits hstep _ ih => exact ih (hpreserved _ _ _ hinv hadmits hstep)

/-- A guard that holds wherever an invariant and another guard do admits the runs of that one. -/
theorem mono_of_invariant {inv : σ → Prop}
    (hpreserved : ∀ s a t, inv s → admits s a → step s a = some t → inv t)
    (himp : ∀ s a, inv s → admits s a → admits' s a) (hinv : inv s)
    (h : Run step admits s w t) : Run step admits' s w t := by
  induction h with
  | nil s => exact .nil s
  | cons hadmits hstep _ ih =>
    exact .cons (himp _ _ hinv hadmits) hstep (ih (hpreserved _ _ _ hinv hadmits hstep))

/-- Two guards that agree wherever an invariant of the first holds have the same runs. -/
theorem congr_guard {inv : σ → Prop}
    (hpreserved : ∀ s a t, inv s → admits s a → step s a = some t → inv t)
    (hagree : ∀ s a, inv s → (admits s a ↔ admits' s a)) (hinv : inv s) :
    Run step admits s w t ↔ Run step admits' s w t := by
  have hpreserved' : ∀ s a t, inv s → admits' s a → step s a = some t → inv t :=
    fun s a t hinv hadmits => hpreserved s a t hinv ((hagree s a hinv).mpr hadmits)
  constructor
  · exact mono_of_invariant hpreserved (fun s a hinv => (hagree s a hinv).mp) hinv
  · exact mono_of_invariant hpreserved' (fun s a hinv => (hagree s a hinv).mpr) hinv

/-- A measure that no admitted step raises, and that some labels lower, bounds the number of these
labels in a run. -/
theorem countP_add_le {p : α → Bool} {measure : σ → ℕ}
    (hlowers : ∀ s a t, admits s a → step s a = some t →
      measure t + (if p a then 1 else 0) ≤ measure s)
    (h : Run step admits s w t) : w.countP p + measure t ≤ measure s := by
  induction h with
  | nil s => exact Nat.le_of_eq (Nat.zero_add _)
  | cons hadmits hstep _ ih =>
    have := hlowers _ _ _ hadmits hstep
    rw [List.countP_cons]
    omega

end Run

/-- A property of the start that every admitted step preserves holds in every
reachable state. -/
theorem Reaches.invariant {inv : σ → Prop}
    (hpreserved : ∀ s a t, inv s → admits s a → step s a = some t → inv t)
    (h : Reaches step admits s t) (hinv : inv s) : inv t := by
  obtain ⟨w, hrun⟩ := h
  exact hrun.invariant hpreserved hinv

/-- A step under a condition that is enabled meets the condition. -/
theorem of_ite_some {p : Prop} [Decidable p] {t : σ}
    (h : (if p then some s else none) = some t) : p ∧ s = t := by
  obtain ⟨hp, hsome⟩ := Option.ite_none_right_eq_some.mp h
  exact ⟨hp, Option.some.inj hsome⟩

/-- Replay a list of labels, stopping when one is not admitted or not enabled. -/
def replay (step : σ → α → Option σ) (admits : σ → α → Prop)
    [∀ s a, Decidable (admits s a)] : σ → List α → Option σ
  | s, [] => some s
  | s, a :: w =>
    if admits s a then
      match step s a with
      | some t => replay step admits t w
      | none => none
    else none

/-- Replay computes exactly the runs. -/
theorem run_iff_replay [∀ s a, Decidable (admits s a)] :
    Run step admits s w t ↔ replay step admits s w = some t := by
  induction w generalizing s with
  | nil =>
    constructor
    · rintro (_ | _)
      rfl
    · intro h
      obtain rfl := Option.some.inj h
      exact .nil s
  | cons b w ih =>
    constructor
    · rintro (_ | ⟨hadmits, hstep, hrest⟩)
      simp only [replay, if_pos hadmits, hstep]
      exact ih.mp hrest
    · intro h
      simp only [replay] at h
      split at h
      · split at h
        · exact .cons ‹_› ‹_› (ih.mpr h)
        · exact nomatch h
      · exact nomatch h

/-- A replay that ends in a state with `p` is a run to such a state. -/
theorem exists_run_of_replay [∀ s a, Decidable (admits s a)] {p : σ → Prop} [DecidablePred p]
    (h : (replay step admits s w).any (fun t => decide (p t)) = true) :
    ∃ t, Run step admits s w t ∧ p t := by
  obtain ⟨t, hreplay, ht⟩ := (Option.any_eq_true _ _).mp h
  exact ⟨t, run_iff_replay.mpr hreplay, of_decide_eq_true ht⟩

/-- A replay that ends in a state with `p` is a run to a state with `p` and with what every such
run ends in. -/
theorem exists_run_and_of_replay [∀ s a, Decidable (admits s a)] {p q : σ → Prop}
    [DecidablePred p] (h : (replay step admits s w).any (fun t => decide (p t)) = true)
    (hq : ∀ t, Run step admits s w t → q t) : ∃ t, Run step admits s w t ∧ p t ∧ q t := by
  obtain ⟨t, hrun, ht⟩ := exists_run_of_replay h
  exact ⟨t, hrun, ht, hq t hrun⟩

/-- What no step of a total system changes is at the end as it was at the start. -/
theorem foldl_view {τ : Type*} {next : σ → α → σ} (view : σ → τ)
    (h : ∀ s a, view (next s a) = view s) (w : List α) (s : σ) :
    view (w.foldl next s) = view s := by
  induction w generalizing s with
  | nil => rfl
  | cons b w ih => rw [List.foldl_cons, ih, h]

end AgentCockpit.Core
