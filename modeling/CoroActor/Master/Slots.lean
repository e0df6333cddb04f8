import CoroActor.Master.Supervision
import Mathlib.Data.List.DropRight

/-! The member `exited` of the slots. `spawn_actor_process` clears it, `init_proxy_process` does not, and it is
true to begin with. -/

namespace CoroActor.Master

open TransitionSystem

namespace Sys

variable {names : List StdString} {s t : Sys} {slot : Slot} {waits : List Waited} {pid : Pid}

/-- `waitpid` has returned the pid since the slot was last forked. -/
def Reaped (s : Sys) (slot : Slot) (pid : Pid) : Prop :=
  .waited pid ∈ s.log.rtakeWhile fun e => !e.isFork slot

instance (s : Sys) (slot : Slot) (pid : Pid) : Decidable (s.Reaped slot pid) :=
  inferInstanceAs (Decidable (.waited pid ∈ s.log.rtakeWhile fun e => !e.isFork slot))

def slotExited (s : Sys) : Slot → Option Bool
  | none => some s.proxy.exited
  | some i => s.actorProcesses[i]?.map ActorProcess.exited

/-- The flag of a slot with a pid tells whether `waitpid` has returned its process. -/
def Accurate (s : Sys) (slot : Slot) : Prop := ∀ pid exited,
  s.slotPid slot = some pid → s.slotExited slot = some exited → pid ≠ -1 → (exited = true ↔ s.Reaped slot pid)

/-- From one state to the other the slots of all children that had exited are marked, and no others. -/
def Marks (s t : Sys) : Prop := ∀ slot pid, s.slotPid slot = some pid →
  t.slotExited slot = if pid ∈ s.zombies.map Child.pid then some true else s.slotExited slot

/-- All slots are accurate, and a run of `update_processes_status` from here marks what it should. -/
def Exact (s : Sys) : Prop :=
  (∀ slot, s.Accurate slot) ∧ ∀ waits t, s.updateProcessesStatus waits = some t → s.Marks t

theorem reaped_append {e : Event} (hlog : t.log = s.log ++ [e]) :
    t.Reaped slot pid ↔ e.isFork slot = false ∧ (s.Reaped slot pid ∨ e = .waited pid) := by
  rw [Reaped, hlog, List.rtakeWhile_concat]
  cases hfork : e.isFork slot with
  | true => simp
  | false => simp [Reaped, eq_comm]

theorem reaped_signalled : s.signalled.Reaped slot pid ↔ s.Reaped slot pid := by
  show Event.waited pid ∈ (s.log ++ s.targets.map Event.killed).rtakeWhile _ ↔ _
  induction s.targets using List.reverseRecOn with
  | nil => rw [List.map_nil, List.append_nil, Reaped]
  | append_singleton pids q ih =>
      rw [List.map_append, ← List.append_assoc, List.map_singleton, List.rtakeWhile_concat]
      simpa [Event.isFork] using ih

/-- The flags of the actor slots are accurate, and that of the proxy was never cleared. -/
structure Tracked (s : Sys) : Prop where
  proxy : s.proxy.exited = true
  actor : ∀ i, s.Accurate (some i)

theorem tracked_init (names : List StdString) : Tracked (Sys.init names) := by
  refine ⟨rfl, fun i pid exited hpid => ?_⟩
  simp only [slotPid, Sys.init, List.getElem?_map, Option.map_map, Option.map_eq_some_iff] at hpid
  obtain ⟨name, -, rfl⟩ := hpid
  exact fun _ hne => absurd rfl hne

/-- Events other than forks and answers of `waitpid` do not matter. -/
theorem Accurate.congr (ha : s.Accurate slot) (hpid : t.slotPid slot = s.slotPid slot)
    (hexited : t.slotExited slot = s.slotExited slot)
    (hreaped : ∀ pid, t.Reaped slot pid ↔ s.Reaped slot pid) : t.Accurate slot := by
  intro pid exited hp he hne
  rw [hreaped]
  exact ha pid exited (hpid ▸ hp) (hexited ▸ he) hne

theorem markExited_slotExited (s : Sys) (slot : Slot) (q : Pid) :
    (s.markExited q).slotExited slot =
      if s.slotPid slot = some q then some true else s.slotExited slot := by
  cases slot with
  | none =>
      simp only [slotExited, slotPid, markExited, Option.some.injEq]
      split <;> rfl
  | some i =>
      obtain hp | ⟨p, hp⟩ := Option.eq_none_or_eq_some s.actorProcesses[i]?
      · simp [slotExited, slotPid, markExited, hp]
      · by_cases hpid : p.pid = q <;> simp [slotExited, slotPid, markExited, hp, hpid]

theorem Tracked.move (ht : Tracked s) (h : Move s t) : Tracked t := by
  cases h with
  | started => exact ⟨ht.proxy, fun i => (ht.actor i).congr rfl rfl fun _ => Iff.rfl⟩
  | exited _ => exact ⟨ht.proxy, fun i => (ht.actor i).congr rfl rfl fun _ => Iff.rfl⟩
  | proxyForked _ _ _ =>
      refine ⟨ht.proxy, fun i => (ht.actor i).congr rfl rfl fun pid => ?_⟩
      rw [reaped_append (s := s) rfl]
      simp [Event.isFork]
  | @actorForked new j p _ hj _ _ =>
      refine ⟨ht.proxy, fun i => ?_⟩
      by_cases hij : j = i
      · subst hij
        intro pid exited _ hexited _
        rw [reaped_append (s := s) rfl]
        have hcleared : exited = false := by
          simp only [slotExited, List.getElem?_modify_eq, hj, Option.map_eq_map, Option.map_some,
            Option.some.injEq] at hexited
          exact hexited.symm
        simp [hcleared, Event.isFork]
      · refine (ht.actor i).congr ?_ ?_ fun pid => ?_
        · simp [slotPid, hij]
        · simp [slotExited, hij]
        · rw [reaped_append (s := s) rfl]
          simp [Event.isFork, hij]
  | @marked q _ _ =>
      refine ⟨?_, fun i pid exited hpid hexited hne => ?_⟩
      · show (if s.proxy.pid = q then _ else s.proxy).exited = true
        split
        · rfl
        · exact ht.proxy
      · rw [markExited_slotPid] at hpid
        rw [markExited_slotExited, hpid] at hexited
        rw [reaped_append (s := s) rfl]
        by_cases heq : pid = q
        · rw [if_pos (congrArg some heq)] at hexited
          simp [← Option.some.inj hexited, heq, Event.isFork]
        · rw [if_neg fun h => heq (Option.some.inj h)] at hexited
          simp [ht.actor i pid exited hpid hexited hne, Event.isFork, Ne.symm heq]

theorem tracked {ok : Sys → Label → Prop} (hr : Reachable (machine names) ok s) : Tracked s :=
  invariant_of_moves (tracked_init names) (fun _ _ ht h => ht.move h)
    (fun _ ht _ => ⟨ht.proxy, fun i => (ht.actor i).congr rfl rfl fun _ => reaped_signalled⟩) hr

theorem marks_self (hz : s.zombies = []) : s.Marks s := by
  intro slot pid _
  rw [hz]
  exact (if_neg (List.not_mem_nil (a := pid))).symm

/-- One run of the loop marks the slots of all children that have exited. The induction is on the answers of
`waitpid`: each takes one child away from those that are left. -/
theorem updateProcessesStatus_marks (h : s.updateProcessesStatus waits = some t) : s.Marks t := by
  induction waits generalizing s with
  | nil => cases h
  | cons w waits ih =>
      cases w with
      | child q =>
          obtain ⟨hq, h⟩ := Option.ite_none_right_eq_some.mp h
          intro slot pid hpid
          have hrest := ih h slot pid ((markExited_slotPid s q slot).trans hpid)
          have hmem : pid ∈ (s.markExited q).zombies.map Child.pid ↔ pid ∈ s.zombies.map Child.pid ∧ pid ≠ q := by
            simp only [markExited, List.mem_map, List.mem_filter, decide_eq_true_eq]
            constructor
            · rintro ⟨c, ⟨hc, hne⟩, rfl⟩
              exact ⟨⟨c, hc, rfl⟩, hne⟩
            · rintro ⟨⟨c, hc, rfl⟩, hne⟩
              exact ⟨c, ⟨hc, hne⟩, rfl⟩
          rw [hrest, markExited_slotExited, hpid]
          by_cases heq : pid = q
          · subst heq
            rw [if_pos hq, if_pos rfl, ite_self]
          · rw [if_neg fun h => heq (Option.some.inj h)]
            exact if_congr (hmem.trans (and_iff_left heq)) rfl rfl
      | interrupted => exact ih h
      | none =>
          obtain ⟨⟨-, hz, -⟩, rfl⟩ := Option.ite_none_right_eq_some.mp h |>.imp_right Option.some.inj
          exact marks_self hz
      | noChild =>
          obtain ⟨⟨-, hz, -⟩, rfl⟩ := Option.ite_none_right_eq_some.mp h |>.imp_right Option.some.inj
          exact marks_self hz

/-- **The slots.** In every run in which `fork` succeeds, the flags of the actor slots are accurate, and all flags
are, with that of the proxy, exactly when the proxy was not forked or `waitpid` has returned it. -/
theorem exact_iff (hr : Reachable (machine names) ForksSucceed s) :
    (∀ i, s.Accurate (some i)) ∧ (s.Exact ↔ s.proxy.pid = -1 ∨ s.Reaped none s.proxy.pid) := by
  have ht : Tracked s := tracked hr
  refine ⟨ht.actor, ?_, fun hcond => ⟨fun slot => ?_, fun waits t h => updateProcessesStatus_marks h⟩⟩
  · rintro ⟨haccurate, -⟩
    by_cases hpid : s.proxy.pid = -1
    · exact .inl hpid
    · exact .inr ((haccurate none s.proxy.pid s.proxy.exited rfl rfl hpid).mp ht.proxy)
  · cases slot with
    | some i => exact ht.actor i
    | none =>
        intro pid exited hpid hexited hne
        obtain rfl : s.proxy.pid = pid := Option.some.inj hpid
        obtain rfl : s.proxy.exited = exited := Option.some.inj hexited
        exact iff_of_true ht.proxy (hcond.resolve_left hne)

/-- The proxy and an actor process exit, and `waitpid` returns both. -/
theorem exact_of_reaped : ∃ s, Reachable (machine [ascii "a", ascii "b"]) ForksSucceed s ∧ s.Exact := by
  obtain ⟨s, hr, hreaped⟩ := Reachable.of_leadsTo (machine [ascii "a", ascii "b"]) ForksSucceed
    [.start [some 11, some 12, some 13], .exit 11, .exit 13,
      .sigchld [.child 11, .interrupted, .child 13, .none] []]
    (fun s => s.Reaped none s.proxy.pid) (by decide +kernel)
  exact ⟨s, hr, (exact_iff hr).2.mpr (.inr hreaped)⟩

/-- After the start all children are alive, and the slot of the proxy says that it has exited. -/
theorem proxy_not_accurate : ∃ s, Reachable (machine [ascii "a", ascii "b"]) ForksSucceed s ∧
    s.Alive none ∧ s.slotExited none = some true ∧ ¬ s.Accurate none := by
  obtain ⟨s, hr, halive, hpid, hexited, hnot⟩ := Reachable.of_leadsTo (machine [ascii "a", ascii "b"]) ForksSucceed
    [.start [some 11, some 12, some 13]]
    (fun s => s.Alive none ∧ s.slotPid none = some 11 ∧ s.slotExited none = some true ∧ ¬ s.Reaped none 11)
    (by decide +kernel)
  exact ⟨s, hr, halive, hexited, fun ha => hnot ((ha 11 true hpid hexited (by decide)).mp rfl)⟩

end Sys

end CoroActor.Master
