import CoroActor.Library.Timer
import Mathlib.Data.List.Range
import Mathlib.Logic.Function.Basic

/-! A server on an event loop: one coroutine that takes the messages of a queue one after the other,
calls a service for each, and waits on a timer for the next message or for the service to say that it is
complete. A push cancels the wait for a message only when the queue was empty, and a service may be
complete before the server waits for it. The rule that the module proves: the services are serial, the
queue is first in first out, and no wake-up is missed. -/

/-- Where the server stands: between two messages, waiting for a message, in the call of a service,
waiting for the service to be complete, or elsewhere. -/
inductive Server.Phase (α : Type) where
  | loop
  | idle
  | call (a : α)
  | pause (a : α)
  | away

/-- The message whose service was started and has not been left. -/
def Server.Phase.served {α : Type} : Phase α → Option α
  | .call a | .pause a => some a
  | .loop | .idle | .away => none

/-- The state of the server. `busy` says that the service is not complete. `pushed`, `taken` and
`started` are the messages that were pushed, taken from the queue and handed to a service; the services
are numbered by `started`, and `completed` says which are complete. -/
structure Server (α : Type) where
  phase : Server.Phase α
  queue : List α
  busy : Bool
  arrival : Timer Unit
  completion : Timer Unit
  pushed : List α
  taken : List α
  started : List α
  completed : Nat → Bool

namespace Server

variable {α : Type}

/-- The steps. A service is completed once. -/
inductive Step (v : Server α) : Server α → Prop
  | push (a : α) : Step v
      { v with
        queue := v.queue ++ [a]
        arrival := if v.queue = [] then v.arrival.cancelOne else v.arrival
        pushed := v.pushed ++ [a] }
  | wait : v.phase = .loop → v.queue = [] → Step v { v with phase := .idle, arrival := v.arrival.asyncWait () }
  | wake : v.phase = .idle → () ∈ v.arrival.ready →
      Step v { v with phase := .loop, arrival := v.arrival.complete () }
  | skip {a rest} : v.phase = .loop → v.queue = a :: rest →
      Step v { v with queue := rest, taken := v.taken ++ [a] }
  | start {a rest} : v.phase = .loop → v.queue = a :: rest →
      Step v
        { v with
          phase := .call a
          queue := rest
          busy := true
          taken := v.taken ++ [a]
          started := v.started ++ [a]
          completed := Function.update v.completed v.started.length false }
  | pause {a} : v.phase = .call a → v.busy = true →
      Step v { v with phase := .pause a, completion := v.completion.asyncWait () }
  | leave {a p} : v.phase = .call a → v.busy = false → p = .loop ∨ p = .away → Step v { v with phase := p }
  | resume {a p} : v.phase = .pause a → () ∈ v.completion.ready → p = .loop ∨ p = .away →
      Step v { v with phase := p, completion := v.completion.complete () }
  | back : v.phase = .away → Step v { v with phase := .loop }
  | complete {j} : j < v.started.length → v.completed j = false →
      Step v
        { v with
          busy := false
          completion := v.completion.cancelOne
          completed := Function.update v.completed j true }

/-- The invariant that ties the queue, the flag and the timers together. -/
structure Sound (v : Server α) : Prop where
  arrival : v.arrival.Guards () (v.phase = .idle) (v.queue ≠ [])
  completion : v.completion.Guards () (∃ a, v.phase = .pause a) (v.busy = false)
  serial : ∀ j < v.started.length, v.completed j = false → j + 1 = v.started.length ∧ v.phase.served ≠ none
  current : ∀ a, v.phase.served = some a → ∃ j, v.started.length = j + 1 ∧ v.started[j]? = some a ∧
    v.busy = !v.completed j
  fifo : v.pushed = v.taken ++ v.queue
  sublist : v.started.Sublist v.taken

variable {v w : Server α}

theorem Phase.served_of_left {p : Phase α} (h : p = .loop ∨ p = .away) : p.served = none := by
  rcases h with rfl | rfl <;> rfl

namespace Sound

/-- A server that has not begun. -/
theorem init (completed : Nat → Bool) :
    Sound (α := α) ⟨.loop, [], false, .idle, .idle, [], [], [], completed⟩ where
  arrival := .not_suspended nofun
  completion := .not_suspended nofun
  serial := nofun
  current := nofun
  fifo := rfl
  sublist := .slnil

theorem completed (h : v.Sound) (hp : v.phase.served = none ∨ v.busy = false) :
    ∀ j < v.started.length, v.completed j = true := by
  intro j hj
  by_contra hc
  rw [Bool.not_eq_true] at hc
  obtain ⟨hlast, hserved⟩ := h.serial j hj hc
  obtain ⟨a, ha⟩ := Option.ne_none_iff_exists'.mp hserved
  obtain ⟨i, hi, -, hbusy⟩ := h.current a ha
  obtain rfl : j = i := Nat.succ.inj (hlast.trans hi)
  rcases hp with hnone | hfree
  · exact hserved hnone
  · rw [hfree, hc] at hbusy
    cases hbusy

theorem none_running (h : v.Sound) (hp : v.phase.served = none ∨ v.busy = false) {P : Nat → Prop} :
    ∀ j < v.started.length, v.completed j = false → P j := fun j hj hc => by
  rw [h.completed hp j hj] at hc
  cases hc

/-- The server leaves a service that is complete. -/
theorem leave (h : v.Sound) (hbusy : v.busy = false) {p : Phase α} (hp : p = .loop ∨ p = .away) {t : Timer Unit}
    (ht : t.Guards () (∃ a, p = .pause a) (v.busy = false)) (hidle : v.phase ≠ .idle) :
    ({ v with phase := p, completion := t } : Server α).Sound where
  arrival := h.arrival.of_not_suspended hidle (by rcases hp with rfl | rfl <;> exact nofun)
  completion := ht
  serial := h.none_running (Or.inr hbusy)
  current a ha := by
    rw [Phase.served_of_left hp] at ha
    cases ha
  fifo := h.fifo
  sublist := h.sublist

theorem step (h : v.Sound) (hstep : v.Step w) : w.Sound := by
  cases hstep with
  | push a =>
      refine ⟨?_, h.completion, h.serial, h.current, ?_, h.sublist⟩
      · have hne : v.queue ++ [a] ≠ [] := by simp
        by_cases hq : v.queue = []
        · simpa only [if_pos hq] using h.arrival.cancelOne hne
        · simpa only [if_neg hq] using h.arrival.congr Iff.rfl (iff_of_true hq hne)
      · show v.pushed ++ [a] = v.taken ++ (v.queue ++ [a])
        rw [h.fifo, List.append_assoc]
  | wait hp hq =>
      have hnone : v.phase.served = none := by rw [hp]; rfl
      exact ⟨h.arrival.asyncWait (by simp [hp]) rfl (by simpa using hq),
        h.completion.of_not_suspended (by simp [hp]) nofun, h.none_running (Or.inl hnone), nofun, h.fifo,
        h.sublist⟩
  | wake hp hr =>
      have hnone : v.phase.served = none := by rw [hp]; rfl
      exact ⟨h.arrival.complete hr nofun, h.completion.of_not_suspended (by simp [hp]) nofun,
        h.none_running (Or.inl hnone), nofun, h.fifo, h.sublist⟩
  | @skip a rest hp hq =>
      refine ⟨h.arrival.of_not_suspended (by simp [hp]) (by simp [hp]), h.completion, h.serial, h.current, ?_,
        h.sublist.trans (List.sublist_append_left _ _)⟩
      show v.pushed = (v.taken ++ [a]) ++ rest
      rw [h.fifo, hq, List.append_assoc]
      rfl
  | @start a rest hp hq =>
      have hnone : v.phase.served = none := by rw [hp]; rfl
      refine ⟨h.arrival.of_not_suspended (by simp [hp]) nofun,
        h.completion.of_not_suspended (by simp [hp]) nofun, fun j hj hc => ?_, fun b hb => ?_, ?_,
        h.sublist.append_right [a]⟩
      · rw [List.length_append, List.length_singleton] at hj
        rcases Nat.lt_succ_iff_lt_or_eq.mp hj with hlt | rfl
        · have hold : v.completed j = false := (Function.update_of_ne hlt.ne _ _).symm.trans hc
          rw [h.completed (Or.inl hnone) j hlt] at hold
          cases hold
        · exact ⟨by simp, nofun⟩
      · obtain rfl : a = b := Option.some.inj hb
        exact ⟨v.started.length, by simp, by simp, by simp⟩
      · show v.pushed = (v.taken ++ [a]) ++ rest
        rw [h.fifo, hq, List.append_assoc]
        rfl
  | @pause a hp hbusy =>
      refine ⟨h.arrival.of_not_suspended (by simp [hp]) nofun,
        h.completion.asyncWait (by simp [hp]) ⟨a, rfl⟩ (by simp [hbusy]), fun j hj hc => ?_, fun b hb => ?_,
        h.fifo, h.sublist⟩
      · exact ⟨(h.serial j hj hc).1, nofun⟩
      · exact h.current b (by rw [hp]; exact hb)
  | leave hp hbusy hleft =>
      refine h.leave hbusy hleft (h.completion.of_not_suspended (by simp [hp]) ?_) (by simp [hp])
      rcases hleft with rfl | rfl <;> exact nofun
  | resume hp hr hleft =>
      refine h.leave (h.completion.mem_ready.mp hr).2 hleft (h.completion.complete hr ?_) (by simp [hp])
      rcases hleft with rfl | rfl <;> exact nofun
  | back hp =>
      have hnone : v.phase.served = none := by rw [hp]; rfl
      exact ⟨h.arrival.of_not_suspended (by simp [hp]) nofun,
        h.completion.of_not_suspended (by simp [hp]) nofun, h.none_running (Or.inl hnone), nofun, h.fifo,
        h.sublist⟩
  | @complete j hj hc =>
      obtain ⟨hlast, hserved⟩ := h.serial j hj hc
      refine ⟨h.arrival, h.completion.cancelOne rfl, fun i hi hci => ?_, fun a ha => ?_, h.fifo, h.sublist⟩
      · have hij : i ≠ j := by
          rintro rfl
          simp at hci
        exact h.serial i hi ((Function.update_of_ne hij _ _).symm.trans hci)
      · obtain ⟨i, hi, hia, -⟩ := h.current a ha
        obtain rfl : j = i := Nat.succ.inj (hlast.trans hi)
        exact ⟨j, hi, hia, by simp⟩

/-- The server leaves a service only when that is complete. -/
theorem left (h : v.Sound) (hstep : v.Step w) (hv : v.phase.served ≠ none) (hw : w.phase.served = none) :
    ∀ j < v.started.length, v.completed j = true := by
  cases hstep with
  | leave _ hbusy _ => exact h.completed (Or.inr hbusy)
  | resume _ hr _ => exact h.completed (Or.inr (h.completion.mem_ready.mp hr).2)
  | wait hp _ | wake hp _ | start hp _ | back hp => exact absurd (by rw [hp]; rfl) hv
  | push | skip | complete => exact absurd hw hv
  | pause => cases hw

theorem unique (h : v.Sound) {i j : Nat} (hi : i < v.started.length) (hj : j < v.started.length)
    (hci : v.completed i = false) (hcj : v.completed j = false) : i = j :=
  Nat.succ.inj ((h.serial i hi hci).1.trans (h.serial j hj hcj).1.symm)

end Sound

end Server
