import CoroActor.Master.Moves

/-! What the master does about a child that exits. The guards of `reap_proxy_process` and of
`reap_actor_processes` ask for the types of the children, but it is the master that runs them. -/

namespace CoroActor.Master

open TransitionSystem

/-- The event is a fork for a slot. -/
def Event.isFork (slot : Slot) : Event → Bool
  | .forked slot' _ => slot' = slot
  | .waited _ | .killed _ => false

namespace Sys

variable {names : List StdString} {s t : Sys} {slot : Slot} {waits : List Waited} {forks : Forks}

/-- The process of a slot is alive. -/
def Alive (s : Sys) (slot : Slot) : Prop := ∃ c ∈ s.alive, c.slot = slot ∧ s.slotPid slot = some c.pid

instance (s : Sys) : DecidablePred s.Alive := fun slot =>
  inferInstanceAs (Decidable (∃ c ∈ s.alive, c.slot = slot ∧ s.slotPid slot = some c.pid))

/-- All live processes of a slot. -/
def live (s : Sys) (slot : Slot) : List Child := s.alive.filter fun c => c.slot = slot

/-- How often a slot was forked. -/
def timesForked (s : Sys) (slot : Slot) : Nat := s.log.countP (Event.isFork slot)

/-- A run of the SIGCHLD handler from one state to the other forks each slot whose process had exited once
and no other slot, and then each slot has one live process. -/
def Supervised (s t : Sys) : Prop := ∀ slot, s.IsSlot slot →
  t.timesForked slot = s.timesForked slot + (if s.Alive slot then 0 else 1) ∧ (t.live slot).length = 1

/-- The master is told by its type, and a live child is in its slot. -/
structure Placed (s : Sys) : Prop where
  master : s.type = .master
  slot : ∀ c ∈ s.alive, s.slotPid c.slot = some c.pid
  positive : ∀ c ∈ s.alive, 0 < c.pid
  nodup : (s.alive.map Child.pid).Nodup

theorem placed_init (names : List StdString) : Placed (Sys.init names) :=
  ⟨rfl, nofun, nofun, List.nodup_nil⟩

theorem Placed.live_length (hp : Placed s) (halive : s.Alive slot) : (s.live slot).length = 1 := by
  obtain ⟨c, hc, hslot, -⟩ := halive
  have hmem : c ∈ s.live slot := List.mem_filter.mpr ⟨hc, decide_eq_true hslot⟩
  have hsame : ∀ d ∈ s.live slot, d = c := by
    intro d hd
    obtain ⟨hd, hslot'⟩ := List.mem_filter.mp hd
    have hpid : d.pid = c.pid := by
      have hsd := hp.slot d hd
      rw [of_decide_eq_true hslot', ← hslot, hp.slot c hc] at hsd
      exact (Option.some.inj hsd).symm
    exact List.inj_on_of_nodup_map hp.nodup hd hc hpid
  have hnodup : (s.live slot).Nodup := (List.Nodup.of_map _ hp.nodup).filter _
  rw [List.eq_replicate_of_mem hsame] at hnodup hmem ⊢
  rw [List.length_replicate]
  have hle : (s.live slot).length ≤ 1 := List.nodup_replicate.mp hnodup
  have hpos : (s.live slot).length ≠ 0 := (List.mem_replicate.mp hmem).1
  omega

/-- The waitpid loop forks nothing and leaves the live children alone. -/
theorem updateProcessesStatus_kept (h : s.updateProcessesStatus waits = some t) :
    t.alive = s.alive ∧ ∀ slot, t.timesForked slot = s.timesForked slot := by
  induction waits generalizing s with
  | nil => cases h
  | cons w waits ih =>
      cases w with
      | child pid =>
          obtain ⟨-, h⟩ := Option.ite_none_right_eq_some.mp h
          obtain ⟨halive, hforked⟩ := ih h
          refine ⟨halive, fun slot => (hforked slot).trans ?_⟩
          simp [timesForked, markExited, Event.isFork]
      | interrupted => exact ih h
      | none =>
          obtain ⟨-, rfl⟩ := Option.ite_none_right_eq_some.mp h |>.imp_right Option.some.inj
          exact ⟨rfl, fun _ => rfl⟩
      | noChild =>
          obtain ⟨-, rfl⟩ := Option.ite_none_right_eq_some.mp h |>.imp_right Option.some.inj
          exact ⟨rfl, fun _ => rfl⟩

theorem Placed.adds (hp : Placed s) {c : Child} (h : Adds s c t) : Placed t := by
  have hfree : ∀ d ∈ s.alive, d.slot ≠ c.slot := by
    intro d hd heq
    have hd' := hp.slot d hd
    rw [heq, h.empty] at hd'
    have hpos := hp.positive d hd
    rw [← Option.some.inj hd'] at hpos
    exact absurd hpos (by decide)
  constructor
  · exact h.type.trans hp.master
  · rw [h.alive]
    intro d hd
    rcases List.mem_append.mp hd with hold | hnew
    · rw [h.others _ (hfree d hold)]
      exact hp.slot d hold
    · rw [List.mem_singleton.mp hnew]
      exact h.slot
  · rw [h.alive]
    intro d hd
    rcases List.mem_append.mp hd with hold | hnew
    · exact hp.positive d hold
    · rw [List.mem_singleton.mp hnew]
      exact h.fresh.1
  · rw [h.alive, List.map_append, List.map_singleton]
    refine List.nodup_append.mpr ⟨hp.nodup, List.nodup_singleton _, fun a ha b hb => ?_⟩
    rw [List.mem_singleton.mp hb]
    rintro rfl
    apply h.fresh.2
    rw [pids, List.map_append]
    exact List.mem_append_left _ ha

theorem Placed.congr (hp : Placed s) (htype : t.type = s.type) (halive : t.alive = s.alive)
    (hslot : ∀ slot, t.slotPid slot = s.slotPid slot) : Placed t := by
  refine ⟨htype.trans hp.master, ?_, ?_, ?_⟩
  · rw [halive]
    exact fun c hc => (hslot c.slot).trans (hp.slot c hc)
  · rw [halive]
    exact hp.positive
  · rw [halive]
    exact hp.nodup

theorem Placed.move (hp : Placed s) (h : Move s t) : Placed t := by
  cases h with
  | proxyForked _ hempty hpid => exact hp.adds (adds_proxy hempty hpid)
  | actorForked _ hi hempty hpid => exact hp.adds (adds_actor hi hempty hpid)
  | @exited pid _ =>
      refine ⟨hp.master, fun c hc => ?_, fun c hc => ?_, ?_⟩
      · have hslot := hp.slot c (List.mem_filter.mp hc).1
        cases hc' : c.slot with
        | none =>
            rw [hc'] at hslot
            exact hslot
        | some i =>
            rw [hc'] at hslot
            exact hslot
      · exact hp.positive c (List.mem_filter.mp hc).1
      · exact hp.nodup.sublist (List.filter_sublist.map _)
  | marked _ _ => exact hp.congr rfl rfl (s.markExited_slotPid _)
  | started => exact hp.congr rfl rfl fun slot => by cases slot <;> rfl

theorem placed {ok : Sys → Label → Prop} (hr : Reachable (machine names) ok s) : Placed s :=
  invariant_of_moves (placed_init names) (fun _ _ hp h => hp.move h)
    (fun s hp _ => hp.congr rfl rfl s.signalled_slotPid) hr

/-- **Supervision.** In every run in which `fork` succeeds, the SIGCHLD handler brings each slot back to one
live process, with one fork for each whose process had exited, exactly when none had: the handler never
forks. -/
theorem supervised_iff (hr : Reachable (machine names) ForksSucceed s)
    (hst : (machine names).step s (.sigchld waits forks) = some t) :
    Supervised s t ↔ ∀ slot, s.IsSlot slot → s.Alive slot := by
  have hp : Placed s := placed hr
  obtain ⟨halive, hforked⟩ := updateProcessesStatus_kept (step_sigchld hp.master hst).2
  constructor
  · intro hsup slot hslot
    by_contra hdead
    obtain ⟨hcount, -⟩ := hsup slot hslot
    rw [hforked, if_neg hdead] at hcount
    omega
  · intro hall slot hslot
    have hlive : t.live slot = s.live slot := by rw [live, live, halive]
    rw [hforked, if_pos (hall slot hslot), hlive]
    exact ⟨rfl, hp.live_length (hall slot hslot)⟩

/-- A proxy and two actor processes of which none has exited. -/
theorem supervised_of_alive : ∃ s t, Reachable (machine [ascii "a", ascii "b"]) ForksSucceed s ∧
    (machine [ascii "a", ascii "b"]).step s (.sigchld [.none] []) = some t ∧ Supervised s t := by
  obtain ⟨s, t, hr, -, hst, halive, hlen⟩ := Reachable.of_takes (machine [ascii "a", ascii "b"]) ForksSucceed
    [.start [some 11, some 12, some 13]] (.sigchld [.none] [])
    (fun s _ => (s.Alive none ∧ s.Alive (some 0) ∧ s.Alive (some 1)) ∧ s.actorProcesses.length = 2)
    (by decide +kernel)
  refine ⟨s, t, hr, hst, (supervised_iff hr hst).mpr fun slot hslot => ?_⟩
  cases slot with
  | none => exact halive.1
  | some i =>
      have hi : i < 2 := hlen ▸ hslot
      obtain rfl | rfl : i = 0 ∨ i = 1 := by omega
      · exact halive.2.1
      · exact halive.2.2

/-- Both the proxy and an actor process exit before one SIGCHLD is handled. Neither is forked again. -/
theorem exited_not_forked : ∃ s t, Reachable (machine [ascii "a", ascii "b"]) ForksSucceed s ∧
    (machine [ascii "a", ascii "b"]).step s (.sigchld [.child 11, .child 13, .none] []) = some t ∧
    t.terminate = false ∧ t.live none = [] ∧ t.live (some 1) = [] ∧ ¬ Supervised s t := by
  obtain ⟨s, t, hr, -, hst, hterm, hproxy, hactor⟩ := Reachable.of_takes (machine [ascii "a", ascii "b"])
    ForksSucceed [.start [some 11, some 12, some 13], .exit 11, .exit 13]
    (.sigchld [.child 11, .child 13, .none] [])
    (fun _ t => t.terminate = false ∧ t.live none = [] ∧ t.live (some 1) = []) (by decide +kernel)
  refine ⟨s, t, hr, hst, hterm, hproxy, hactor, fun hsup => ?_⟩
  have hone := (hsup none trivial).2
  rw [hproxy] at hone
  cases hone

end Sys

end CoroActor.Master
