import Mathlib.Logic.Function.Basic

/-! Deterministic labelled transition systems and the runs of them whose every step meets a side
condition. The label resolves all nondeterminism: who moves, and what the environment does. A
property of every run is an invariant of the reachable states, proved once from one step. -/

namespace TransitionSystem

variable {σ ℓ : Type}

/-- A state space with one initial state. A label is not enabled in a state, or leads to one state. -/
structure Machine (σ ℓ : Type) where
  init : σ
  step : σ → ℓ → Option σ

/-- The states of the runs whose every step meets `ok`, a condition on the state before the step and
the label. -/
inductive Reachable (M : Machine σ ℓ) (ok : σ → ℓ → Prop) : σ → Prop
  | init : Reachable M ok M.init
  | step {s t : σ} {l : ℓ} : Reachable M ok s → ok s l → M.step s l = some t → Reachable M ok t

namespace Reachable

variable {M : Machine σ ℓ} {ok ok' : σ → ℓ → Prop} {s : σ}

/-- What holds at the start and is kept by every step holds in every state reached. -/
theorem invariant {I : σ → Prop} (hinit : I M.init)
    (hstep : ∀ s l t, Reachable M ok s → I s → ok s l → M.step s l = some t → I t)
    (h : Reachable M ok s) : I s := by
  induction h with
  | init => exact hinit
  | step hr hok hst ih => exact hstep _ _ _ hr ih hok hst

/-- A function of the state that every step leaves alone or moves by `R` has the invariants of `R`. -/
theorem simulates {τ : Type} (f : σ → τ) {R : τ → τ → Prop} {I : τ → Prop} (hinit : I (f M.init))
    (hkept : ∀ v w, I v → R v w → I w)
    (hsim : ∀ s l t, ok s l → M.step s l = some t → f t = f s ∨ R (f s) (f t)) (h : Reachable M ok s) :
    I (f s) := by
  refine h.invariant (I := fun s => I (f s)) hinit fun s l t _ hi hok hst => ?_
  rcases hsim s l t hok hst with heq | hR
  · rwa [heq]
  · exact hkept _ _ hi hR

/-- A weaker condition on the steps reaches more states. -/
theorem mono (himp : ∀ s l, ok s l → ok' s l) (h : Reachable M ok s) : Reachable M ok' s := by
  induction h with
  | init => exact .init
  | step _ hok hst ih => exact .step ih (himp _ _ hok) hst

end Reachable

/-- The state a list of labels leads to, when every label is enabled and meets `ok`. -/
def Machine.exec (M : Machine σ ℓ) (ok : σ → ℓ → Prop) [∀ s l, Decidable (ok s l)] :
    σ → List ℓ → Option σ
  | s, [] => some s
  | s, l :: ls => if ok s l then (M.step s l).bind fun t => M.exec ok t ls else none

variable {M : Machine σ ℓ} {ok : σ → ℓ → Prop} [∀ s l, Decidable (ok s l)]

theorem Reachable.exec {s t : σ} {ls : List ℓ} (hr : Reachable M ok s)
    (h : M.exec ok s ls = some t) : Reachable M ok t := by
  induction ls generalizing s with
  | nil =>
      cases h
      exact hr
  | cons l ls ih =>
      unfold Machine.exec at h
      split at h
      · rename_i hok
        obtain ⟨u, hu, ht⟩ := Option.bind_eq_some_iff.mp h
        exact ih (hr.step hok hu) ht
      · cases h

/-- Running labels from the initial state and looking at the state they lead to. -/
def Machine.leadsTo (M : Machine σ ℓ) (ok : σ → ℓ → Prop) [∀ s l, Decidable (ok s l)]
    (ls : List ℓ) (P : σ → Prop) [DecidablePred P] : Bool :=
  match M.exec ok M.init ls with
  | some t => decide (P t)
  | none => false

/-- A run that evaluates to a state with `P` is a reachable state with `P`. -/
theorem Reachable.of_leadsTo (M : Machine σ ℓ) (ok : σ → ℓ → Prop) [∀ s l, Decidable (ok s l)] (ls : List ℓ)
    (P : σ → Prop) [DecidablePred P] (h : M.leadsTo ok ls P = true) : ∃ t, Reachable M ok t ∧ P t := by
  unfold Machine.leadsTo at h
  split at h
  · rename_i t ht
    exact ⟨t, Reachable.init.exec ht, of_decide_eq_true h⟩
  · cases h

/-- Running labels from the initial state and looking at one more step. -/
def Machine.takes (M : Machine σ ℓ) (ok : σ → ℓ → Prop) [∀ s l, Decidable (ok s l)]
    (ls : List ℓ) (l : ℓ) (P : σ → σ → Prop) [∀ s t, Decidable (P s t)] : Bool :=
  match M.exec ok M.init ls with
  | some s =>
      match M.step s l with
      | some t => decide (ok s l ∧ P s t)
      | none => false
  | none => false

/-- A run that evaluates to a step with `P` is a step of a reachable state with `P`. -/
theorem Reachable.of_takes (M : Machine σ ℓ) (ok : σ → ℓ → Prop) [∀ s l, Decidable (ok s l)] (ls : List ℓ)
    (l : ℓ) (P : σ → σ → Prop) [∀ s t, Decidable (P s t)] (h : M.takes ok ls l P = true) :
    ∃ s t, Reachable M ok s ∧ ok s l ∧ M.step s l = some t ∧ P s t := by
  unfold Machine.takes at h
  split at h
  · rename_i s hs
    split at h
    · rename_i t ht
      obtain ⟨hok, hP⟩ := of_decide_eq_true h
      exact ⟨s, t, Reachable.init.exec hs, hok, ht, hP⟩
    · cases h
  · cases h

end TransitionSystem
