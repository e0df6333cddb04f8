import Mathlib.Data.List.Basic

/-! A timer that never expires, used to wait until somebody cancels the wait. A cancellation picks the
handler that has waited longest; the handler runs later, when the event loop gets to it. A cancellation
that finds nobody waiting is lost: the timer does not remember it. -/

/-- The handlers that wait, and those whose wait has been cancelled and that have not run yet. -/
structure Timer (ω : Type) where
  waiting : List ω
  ready : List ω
  deriving DecidableEq

namespace Timer

variable {ω : Type}

def asyncWait (t : Timer ω) (w : ω) : Timer ω := { t with waiting := t.waiting ++ [w] }

def cancelOne (t : Timer ω) : Timer ω :=
  match t.waiting with
  | [] => t
  | w :: rest => ⟨rest, t.ready ++ [w]⟩

/-- The handler runs. -/
def complete [DecidableEq ω] (t : Timer ω) (w : ω) : Timer ω := { t with ready := t.ready.erase w }

/-! A timer with one waiter is in one of three states. -/

def idle : Timer ω := ⟨[], []⟩

def armed (w : ω) : Timer ω := ⟨[w], []⟩

def fired (w : ω) : Timer ω := ⟨[], [w]⟩

variable (w : ω)

@[simp] theorem idle_cancelOne : (idle : Timer ω).cancelOne = idle := rfl
@[simp] theorem armed_cancelOne : (armed w).cancelOne = fired w := rfl
@[simp] theorem fired_cancelOne : (fired w).cancelOne = fired w := rfl
@[simp] theorem idle_asyncWait : idle.asyncWait w = armed w := rfl
@[simp] theorem idle_ready : (idle : Timer ω).ready = [] := rfl
@[simp] theorem idle_waiting : (idle : Timer ω).waiting = [] := rfl
@[simp] theorem armed_ready : (armed w).ready = [] := rfl
@[simp] theorem armed_waiting : (armed w).waiting = [w] := rfl
@[simp] theorem fired_ready : (fired w).ready = [w] := rfl
@[simp] theorem fired_waiting : (fired w).waiting = [] := rfl

@[simp] theorem fired_complete [DecidableEq ω] : (fired w).complete w = idle := by
  simp [fired, complete, idle]

/-- The timer of a waiter that waits only for as long as a condition does not hold: it is idle unless the
waiter is suspended, and then the wait is cancelled exactly when the condition holds. -/
structure Guards (t : Timer ω) (w : ω) (suspended holds : Prop) : Prop where
  idle : ¬ suspended → t = idle
  armed : suspended → ¬ holds → t = armed w
  fired : suspended → holds → t = fired w

namespace Guards

variable {w} {t : Timer ω} {p p' c c' : Prop}

theorem congr (h : t.Guards w p c) (hp : p ↔ p') (hc : c ↔ c') : t.Guards w p' c' := by
  rwa [← propext hp, ← propext hc]

theorem not_suspended (hp : ¬ p) : (Timer.idle : Timer ω).Guards w p c :=
  ⟨fun _ => rfl, fun h => absurd h hp, fun h => absurd h hp⟩

/-- The condition does not matter while nobody waits. -/
theorem of_not_suspended (h : t.Guards w p c) (hp : ¬ p) (hp' : ¬ p') : t.Guards w p' c' := by
  rw [h.idle hp]
  exact not_suspended hp'

/-- The waiter finds that the condition does not hold, and waits. -/
theorem asyncWait (h : t.Guards w p c) (hp : ¬ p) (hp' : p') (hc' : ¬ c') : (t.asyncWait w).Guards w p' c' := by
  rw [h.idle hp, idle_asyncWait]
  exact ⟨fun hn => absurd hp' hn, fun _ _ => rfl, fun _ hc => absurd hc hc'⟩

/-- The condition is made true, and the wait is cancelled. -/
theorem cancelOne (h : t.Guards w p c) (hc' : c') : t.cancelOne.Guards w p c' := by
  refine ⟨fun hp => ?_, fun _ hn => absurd hc' hn, fun hp _ => ?_⟩
  · rw [h.idle hp, idle_cancelOne]
  · by_cases hc : c
    · rw [h.fired hp hc, fired_cancelOne]
    · rw [h.armed hp hc, armed_cancelOne]

theorem mem_ready (h : t.Guards w p c) : w ∈ t.ready ↔ p ∧ c := by
  by_cases hp : p
  · by_cases hc : c
    · simp [h.fired hp hc, hp, hc]
    · simp [h.armed hp hc, hc]
  · simp [h.idle hp, hp]

/-- The handler of the wait runs: the condition holds. -/
theorem complete [DecidableEq ω] (h : t.Guards w p c) (hw : w ∈ t.ready) (hp' : ¬ p') :
    (t.complete w).Guards w p' c' := by
  obtain ⟨hp, hc⟩ := h.mem_ready.mp hw
  rw [h.fired hp hc, fired_complete]
  exact not_suspended hp'

end Guards

end Timer
