import CoroActor.Master.Processes
import Mathlib.Logic.Relation

/-! The steps of the master taken apart. A step is a sequence of moves, each of which forks one child, lets one
exit or marks the slots of one pid, or it is a termination signal. An invariant needs one case for each move and
one for the signal. -/

namespace CoroActor.Master

open TransitionSystem Relation

namespace Sys

variable {names : List StdString} {s t u : Sys} {l : Label} {slot : Slot} {waits : List Waited} {forks : Forks}
  {r : Sys × Forks} {pid : Pid}

def IsSlot (s : Sys) : Slot → Prop
  | none => True
  | some i => i < s.actorProcesses.length

/-- The pid that the master keeps for a slot. -/
def slotPid (s : Sys) : Slot → Option Pid
  | none => some s.proxy.pid
  | some i => s.actorProcesses[i]?.map ActorProcess.pid

/-- The pids that `stop_proxy_process` and `stop_actor_processes` signal. -/
def targets (s : Sys) : List Pid :=
  (s.proxy.pid :: s.actorProcesses.map ActorProcess.pid).filter fun pid => pid ≠ -1

inductive Move (s : Sys) : Sys → Prop
  | proxyForked {pid : Pid} (hnew : s.running = false) (hempty : s.proxy.pid = -1)
      (hpid : 0 < pid ∧ pid ∉ s.pids) :
      Move s { s.addChild ⟨none, pid, s.type, []⟩ with proxy := { s.proxy with pid := pid } }
  | actorForked {pid : Pid} {i : Nat} {p : ActorProcess} (hnew : s.running = false)
      (hp : s.actorProcesses[i]? = some p) (hempty : p.pid = -1) (hpid : 0 < pid ∧ pid ∉ s.pids) :
      Move s
        { s.addChild ⟨some i, pid, .worker, p.name⟩ with
          actorProcesses := s.actorProcesses.modify i fun p => { p with pid := pid, exited := false } }
  | started : Move s { s with running := true }
  | exited {pid : Pid} (halive : pid ∈ s.alive.map Child.pid) :
      Move s
        { s with
          alive := s.alive.filter fun c => c.pid ≠ pid
          zombies := s.zombies ++ s.alive.filter fun c => c.pid = pid }
  | marked {pid : Pid} (hrunning : s.running = true) (hzombie : pid ∈ s.zombies.map Child.pid) :
      Move s (s.markExited pid)

/-- A termination signal is passed on to every pid in a slot, whatever has become of it. -/
def signalled (s : Sys) : Sys := { s with terminate := true, log := s.log ++ s.targets.map .killed }

/-- A move forks the child for a slot without a pid. -/
structure Adds (s : Sys) (c : Child) (t : Sys) : Prop where
  empty : s.slotPid c.slot = some (-1)
  fresh : 0 < c.pid ∧ c.pid ∉ s.pids
  type : t.type = s.type
  running : t.running = s.running
  alive : t.alive = s.alive ++ [c]
  zombies : t.zombies = s.zombies
  log : t.log = s.log ++ [.forked c.slot c.pid]
  slot : t.slotPid c.slot = some c.pid
  others : ∀ slot, slot ≠ c.slot → t.slotPid slot = s.slotPid slot

theorem adds_proxy (hempty : s.proxy.pid = -1) (hpid : 0 < pid ∧ pid ∉ s.pids) :
    Adds s ⟨none, pid, s.type, []⟩
      { s.addChild ⟨none, pid, s.type, []⟩ with proxy := { s.proxy with pid := pid } } := by
  refine ⟨congrArg some hempty, hpid, rfl, rfl, rfl, rfl, rfl, rfl, fun slot hne => ?_⟩
  cases slot with
  | none => exact absurd rfl hne
  | some i => rfl

theorem adds_actor {i : Nat} {p : ActorProcess} (hi : s.actorProcesses[i]? = some p) (hempty : p.pid = -1)
    (hpid : 0 < pid ∧ pid ∉ s.pids) :
    Adds s ⟨some i, pid, .worker, p.name⟩
      { s.addChild ⟨some i, pid, .worker, p.name⟩ with
        actorProcesses := s.actorProcesses.modify i fun p => { p with pid := pid, exited := false } } := by
  refine ⟨?_, hpid, rfl, rfl, rfl, rfl, rfl, ?_, fun slot hne => ?_⟩
  · simp [slotPid, hi, hempty]
  · simp [slotPid, hi]
  · cases slot with
    | none => rfl
    | some j =>
        have hij : i ≠ j := fun heq => hne (by rw [heq])
        simp [slotPid, hij]

theorem Move.type (h : Move s t) : t.type = s.type := by
  cases h <;> rfl

theorem moves_type (h : ReflTransGen Move s t) : t.type = s.type := by
  induction h with
  | refl => rfl
  | tail _ hm ih => exact hm.type.trans ih

theorem mem_targets : pid ∈ s.targets ↔ pid ≠ -1 ∧ ∃ slot, s.slotPid slot = some pid := by
  rw [targets, List.mem_filter, decide_eq_true_eq, and_comm]
  refine and_congr_right fun _ => ⟨fun h => ?_, ?_⟩
  · rcases List.mem_cons.mp h with rfl | h
    · exact ⟨none, rfl⟩
    · obtain ⟨i, hi⟩ := List.mem_iff_getElem?.mp h
      exact ⟨some i, by rwa [List.getElem?_map] at hi⟩
  · rintro ⟨slot, hslot⟩
    cases slot with
    | none => exact List.mem_cons.mpr (.inl (Option.some.inj hslot).symm)
    | some i =>
        rw [slotPid, ← List.getElem?_map] at hslot
        exact List.mem_cons_of_mem _ (List.mem_of_getElem? hslot)

theorem markExited_slotPid (s : Sys) (pid : Pid) (slot : Slot) :
    (s.markExited pid).slotPid slot = s.slotPid slot := by
  cases slot with
  | none =>
      simp only [slotPid, markExited]
      split <;> rfl
  | some i =>
      simp only [slotPid, markExited, List.getElem?_map, Option.map_map]
      refine congrArg (fun f => Option.map f s.actorProcesses[i]?) ?_
      funext p
      simp only [Function.comp_apply]
      split <;> rfl

/-! The calls of `fork` at the start. -/

theorem initProxyProcess_moves (hnew : s.running = false) (hempty : s.proxy.pid = -1)
    (h : s.initProxyProcess forks = some r) : ReflTransGen Move s r.1 ∧ r.1.running = false := by
  cases forks with
  | nil => cases h
  | cons f forks =>
      cases f with
      | none =>
          rw [← Option.some.inj h]
          exact ⟨.refl, hnew⟩
      | some pid =>
          obtain ⟨hpid, h⟩ := Option.ite_none_right_eq_some.mp h
          rw [← Option.some.inj h]
          exact ⟨.single (.proxyForked hnew hempty hpid), hnew⟩

theorem spawnActorProcess_moves (hnew : s.running = false) {i : Nat} {p : ActorProcess}
    (hp : s.actorProcesses[i]? = some p) (hempty : p.pid = -1) (h : s.spawnActorProcess p.name i forks = some r) :
    ReflTransGen Move s r.1 ∧ r.1.running = false := by
  cases forks with
  | nil => cases h
  | cons f forks =>
      cases f with
      | none =>
          rw [← Option.some.inj h]
          exact ⟨.refl, hnew⟩
      | some pid =>
          obtain ⟨hpid, h⟩ := Option.ite_none_right_eq_some.mp h
          rw [← Option.some.inj h]
          exact ⟨.single (.actorForked hnew hp hempty hpid), hnew⟩

theorem initActorLoop_moves {n : Nat} (hnew : s.running = false) (h : s.initActorLoop n forks = some r) :
    ReflTransGen Move s r.1 := by
  induction n generalizing s forks with
  | zero => rw [← Option.some.inj h]
  | succ n ih =>
      unfold Sys.initActorLoop at h
      split at h
      · rw [← Option.some.inj h]
      · next i hi =>
          obtain ⟨p, hget, h⟩ := Option.bind_eq_some_iff.mp h
          obtain ⟨⟨u, rest⟩, hu, h⟩ := Option.bind_eq_some_iff.mp h
          have hempty : p.pid = -1 := by
            obtain ⟨hlt, hfound, -⟩ := List.findIdx?_eq_some_iff_getElem.mp hi
            rw [List.getElem?_eq_getElem hlt] at hget
            rw [← Option.some.inj hget]
            exact of_decide_eq_true hfound
          obtain ⟨hmoves, hrunning⟩ := spawnActorProcess_moves hnew hget hempty hu
          exact hmoves.trans (ih hrunning h)

/-! The handlers. -/

theorem updateProcessesStatus_moves (hrunning : s.running = true) (h : s.updateProcessesStatus waits = some t) :
    ReflTransGen Move s t ∧ t.running = true := by
  induction waits generalizing s with
  | nil => cases h
  | cons w waits ih =>
      cases w with
      | child pid =>
          obtain ⟨hzombie, h⟩ := Option.ite_none_right_eq_some.mp h
          obtain ⟨hmoves, ht⟩ := ih (s := s.markExited pid) hrunning h
          exact ⟨.head (.marked hrunning hzombie) hmoves, ht⟩
      | interrupted => exact ih hrunning h
      | none =>
          obtain ⟨-, rfl⟩ := Option.ite_none_right_eq_some.mp h |>.imp_right Option.some.inj
          exact ⟨.refl, hrunning⟩
      | noChild =>
          obtain ⟨-, rfl⟩ := Option.ite_none_right_eq_some.mp h |>.imp_right Option.some.inj
          exact ⟨.refl, hrunning⟩

/-- In the master the handler does nothing but wait for the children that have exited: the guards of
`reap_proxy_process` and of `reap_actor_processes` ask for the types of the children. -/
theorem onSigchld_master (hm : s.type = .master) (hrunning : s.running = true)
    (h : s.onSigchld waits forks = some r) : s.updateProcessesStatus waits = some r.1 ∧ r.2 = forks := by
  obtain ⟨u, hu, h⟩ := Option.bind_eq_some_iff.mp h
  have hum : u.type = .master := (moves_type (updateProcessesStatus_moves hrunning hu).1).trans hm
  have hproxy : u.reapProxyProcess forks = some (u, forks) := if_pos (by rw [hum]; decide)
  have hactors : u.reapActorProcesses forks = some (u, forks) := if_pos (by rw [hum]; decide)
  have heq : r = (u, forks) := by
    split at h
    · rw [hproxy] at h
      exact (Option.some.inj (hactors.symm.trans h)).symm
    · exact (Option.some.inj h).symm
  rw [heq]
  exact ⟨hu, rfl⟩

theorem step_sigchld (hm : s.type = .master) (h : s.step (.sigchld waits forks) = some t) :
    s.running = true ∧ s.updateProcessesStatus waits = some t := by
  obtain ⟨hrunning, h⟩ := Option.ite_none_right_eq_some.mp h
  obtain ⟨r, hr, h⟩ := Option.bind_eq_some_iff.mp h
  obtain ⟨hu, -⟩ := onSigchld_master hm hrunning hr
  obtain ⟨u, rest⟩ := r
  cases rest with
  | nil =>
      rw [← Option.some.inj h]
      exact ⟨hrunning, hu⟩
  | cons => cases h

theorem foldl_kill (ps : List ActorProcess) (s : Sys) :
    ps.foldl (fun t p => if p.pid = -1 then t else t.kill p.pid) s =
      { s with log := s.log ++ ((ps.map ActorProcess.pid).filter fun pid => pid ≠ -1).map .killed } := by
  induction ps generalizing s with
  | nil => simp
  | cons p ps ih =>
      rw [List.foldl_cons, ih]
      split
      · next hempty => simp [hempty]
      · next hpid => simp [hpid, kill]

theorem onSigterm_master (hm : s.type = .master) : s.onSigterm = s.signalled := by
  unfold onSigterm
  rw [if_pos hm, stopActorProcesses, foldl_kill, stopProxyProcess, signalled, targets, List.filter_cons]
  split <;> simp_all [kill]

theorem step_sigterm (hm : s.type = .master) (h : s.step .sigterm = some t) :
    s.running = true ∧ t = s.signalled := by
  obtain ⟨hrunning, h⟩ := Option.ite_none_right_eq_some.mp h
  rw [onSigterm_master hm] at h
  exact ⟨hrunning, (Option.some.inj h).symm⟩

theorem signalled_slotPid (s : Sys) (slot : Slot) : s.signalled.slotPid slot = s.slotPid slot := by
  cases slot <;> rfl

/-! Runs. -/

/-- A step of a master that has not forked its proxy before its start is a termination signal or a sequence of
moves. -/
theorem step_cases (hm : s.type = .master) (hidle : s.running = false → s.proxy.pid = -1)
    (h : s.step l = some t) :
    ((l = .sigterm ∧ s.running = true ∧ t = s.signalled) ∨ ReflTransGen Move s t) ∧
      (t.running = false → t.proxy.pid = -1) := by
  cases l with
  | start forks =>
      obtain ⟨hnew, h⟩ := Option.ite_none_left_eq_some.mp h
      obtain ⟨⟨u, rest⟩, hu, h⟩ := Option.bind_eq_some_iff.mp h
      obtain ⟨⟨v, rest'⟩, hv, h⟩ := Option.bind_eq_some_iff.mp h
      obtain ⟨w, hw, h⟩ := Option.bind_eq_some_iff.mp h
      have hnew : s.running = false := by simpa using hnew
      obtain ⟨hproxy, hrunning⟩ := initProxyProcess_moves hnew (hidle hnew) hu
      have hactors : ReflTransGen Move u v := initActorLoop_moves hrunning hv
      cases rest' with
      | nil =>
          obtain rfl := Option.some.inj hw
          rw [← Option.some.inj h]
          exact ⟨.inr ((hproxy.trans hactors).tail .started), nofun⟩
      | cons => cases hw
  | exit pid =>
      obtain ⟨halive, h⟩ := Option.ite_none_right_eq_some.mp h
      rw [← Option.some.inj h]
      exact ⟨.inr (.single (.exited halive)), hidle⟩
  | sigchld waits forks =>
      obtain ⟨hrunning, hu⟩ := step_sigchld hm h
      obtain ⟨hmoves, ht⟩ := updateProcessesStatus_moves hrunning hu
      exact ⟨.inr hmoves, by simp [ht]⟩
  | sigterm =>
      obtain ⟨hrunning, rfl⟩ := step_sigterm hm h
      exact ⟨.inl ⟨rfl, hrunning, rfl⟩, hidle⟩

theorem master_type {ok : Sys → Label → Prop} (hr : Reachable (machine names) ok s) :
    s.type = .master ∧ (s.running = false → s.proxy.pid = -1) := by
  refine hr.invariant (I := fun s => s.type = .master ∧ (s.running = false → s.proxy.pid = -1))
    ⟨rfl, fun _ => rfl⟩ ?_
  rintro s l t - ⟨hm, hidle⟩ - hst
  obtain ⟨hcases, ht⟩ := step_cases hm hidle hst
  rcases hcases with ⟨-, -, rfl⟩ | hmoves
  · exact ⟨hm, ht⟩
  · exact ⟨(moves_type hmoves).trans hm, ht⟩

/-- What every move keeps is kept by a sequence of moves. -/
theorem kept_of_moves {I : Sys → Prop} (hmove : ∀ s t, I s → Move s t → I t) (h : ReflTransGen Move s t) (hi : I s) :
    I t := by
  induction h with
  | refl => exact hi
  | tail _ hm ih => exact hmove _ _ ih hm

/-- What holds at the start and is kept by every move and by termination signals is an invariant. -/
theorem invariant_of_moves {I : Sys → Prop} {ok : Sys → Label → Prop} (hinit : I (Sys.init names))
    (hmove : ∀ s t, I s → Move s t → I t) (hsignal : ∀ s, I s → s.running = true → I s.signalled)
    (hr : Reachable (machine names) ok s) : I s := by
  refine hr.invariant hinit fun s l t hr hi _ hst => ?_
  obtain ⟨hm, hidle⟩ := master_type hr
  rcases (step_cases hm hidle hst).1 with ⟨-, hrunning, rfl⟩ | hmoves
  · exact hsignal s hi hrunning
  · exact kept_of_moves hmove hmoves hi

end Sys

end CoroActor.Master
