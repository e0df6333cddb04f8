import CoroActor.Master.Supervision
import Mathlib.Data.List.Count

/-! The start of the actor processes when calls of `fork` fail. A round of the loop of `init_actor_processes` does
not stand for a slot: each looks for the first slot without a pid, so the slot of a call that failed gets the next
call, and the last slots get none. -/

namespace CoroActor.Master

/-- A slot after a call of `fork` for it that returned `pid`. -/
def ActorProcess.started (p : ActorProcess) (pid : Pid) : ActorProcess := { p with pid := pid, exited := false }

/-- The pids that `fork` returned. -/
def returned (forks : Forks) : List Pid := forks.filterMap id

@[simp] theorem returned_none (forks : Forks) : returned (none :: forks) = returned forks := rfl

@[simp] theorem returned_some (pid : Pid) (forks : Forks) : returned (some pid :: forks) = pid :: returned forks :=
  rfl

/-- The children for the slots from `i` on, one for each pid. -/
def childrenFrom (i : Nat) (slots : List ActorProcess) (pids : List Pid) : List Child :=
  ((slots.zip pids).zipIdx i).map fun ((p, pid), j) => ⟨some j, pid, .worker, p.name⟩

theorem childrenFrom_slots (i : Nat) {slots : List ActorProcess} {pids : List Pid}
    (hlen : pids.length ≤ slots.length) :
    (childrenFrom i slots pids).map Child.slot = (List.range' i pids.length).map some := by
  calc
    _ = (((slots.zip pids).zipIdx i).map Prod.snd).map some := by
      rw [childrenFrom, List.map_map, List.map_map]
      rfl
    _ = (List.range' i pids.length).map some := by
      rw [List.zipIdx_map_snd, List.length_zip, Nat.min_eq_right hlen]

theorem countP_isFork (slot : Slot) (cs : List Child) :
    (cs.map fun c => Event.forked c.slot c.pid).countP (Event.isFork slot) = (cs.map Child.slot).count slot := by
  rw [List.countP_map, List.count, List.countP_map]
  apply List.countP_congr
  intro c _
  simp [Event.isFork]

namespace Sys

variable {s : Sys} {started unstarted : List ActorProcess} {p : ActorProcess} {pid : Pid} {pids : List Pid}

/-- The kernel can return the pids one after the other. -/
def Fresh (s : Sys) (pids : List Pid) : Prop := (∀ pid ∈ pids, 0 < pid ∧ pid ∉ s.pids) ∧ pids.Nodup

instance (s : Sys) : DecidablePred s.Fresh := fun pids =>
  inferInstanceAs (Decidable ((∀ pid ∈ pids, 0 < pid ∧ pid ∉ s.pids) ∧ pids.Nodup))

/-- The slots with a pid stand before those without one. -/
structure Filled (s : Sys) (started unstarted : List ActorProcess) : Prop where
  slots : s.actorProcesses = started ++ unstarted
  started : ∀ p ∈ started, p.pid ≠ -1
  unstarted : ∀ p ∈ unstarted, p.pid = -1

/-- The first of the slots without a pid have got the pids. -/
def spawned (s : Sys) (started unstarted : List ActorProcess) (pids : List Pid) : Sys :=
  { s with
    actorProcesses := started ++ (unstarted.zipWith ActorProcess.started pids ++ unstarted.drop pids.length)
    alive := s.alive ++ childrenFrom started.length unstarted pids
    log := s.log ++ (childrenFrom started.length unstarted pids).map fun c => .forked c.slot c.pid }

theorem Filled.spawned_nil (h : s.Filled started unstarted) : s.spawned started unstarted [] = s := by
  simp [spawned, childrenFrom, ← h.slots]

theorem spawned_cons (s : Sys) (started unstarted : List ActorProcess) (p : ActorProcess) (pid : Pid)
    (pids : List Pid) :
    (s.spawned started (p :: unstarted) [pid]).spawned (started ++ [p.started pid]) unstarted pids =
      s.spawned started (p :: unstarted) (pid :: pids) := by
  simp [spawned, childrenFrom]

theorem mem_pids_spawned {q : Pid} :
    q ∈ (s.spawned started (p :: unstarted) [pid]).pids ↔ q ∈ s.pids ∨ q = pid := by
  simp only [spawned, childrenFrom, Sys.pids, List.zip_cons_cons, List.zip_nil_right, List.zipIdx_cons,
    List.zipIdx_nil, List.map_cons, List.map_nil, List.map_append, List.mem_append, List.mem_singleton]
  exact or_right_comm

theorem fresh_cons (s : Sys) (started unstarted : List ActorProcess) (p : ActorProcess) (pid : Pid)
    (pids : List Pid) :
    s.Fresh (pid :: pids) ↔
      (0 < pid ∧ pid ∉ s.pids) ∧ (s.spawned started (p :: unstarted) [pid]).Fresh pids := by
  simp only [Fresh, mem_pids_spawned, List.forall_mem_cons, List.nodup_cons]
  constructor
  · rintro ⟨⟨hpid, hpids⟩, hnew, hnodup⟩
    refine ⟨hpid, fun q hq => ⟨(hpids q hq).1, ?_⟩, hnodup⟩
    rintro (hold | rfl)
    · exact (hpids q hq).2 hold
    · exact hnew hq
  · rintro ⟨hpid, hpids, hnodup⟩
    refine ⟨⟨hpid, fun q hq => ⟨(hpids q hq).1, fun hold => (hpids q hq).2 (.inl hold)⟩⟩, ?_, hnodup⟩
    exact fun hnew => (hpids pid hnew).2 (.inr rfl)

theorem Filled.findIdx? (h : s.Filled started (p :: unstarted)) :
    s.actorProcesses.findIdx? (fun p => p.pid = -1) = some started.length := by
  have hnone : started.findIdx? (fun p => p.pid = -1) = none :=
    List.findIdx?_eq_none_iff.mpr fun q hq => decide_eq_false (h.started q hq)
  have hempty : p.pid = -1 := h.unstarted p List.mem_cons_self
  rw [h.slots, List.findIdx?_append, hnone, List.findIdx?_cons]
  simp [hempty]

/-- A round calls `fork` for the first slot without a pid. -/
theorem Filled.round (h : s.Filled started (p :: unstarted)) (n : Nat) (forks : Forks) :
    s.initActorLoop (n + 1) forks =
      (s.spawnActorProcess p.name started.length forks).bind fun r => r.1.initActorLoop n r.2 := by
  have hget : s.actorProcesses[started.length]? = some p := by
    rw [h.slots, List.getElem?_append_right (Nat.le_refl _), Nat.sub_self, List.getElem?_cons_zero]
  rw [Sys.initActorLoop, h.findIdx?]
  show (s.actorProcesses[started.length]?).bind _ = _
  rw [hget]
  rfl

theorem Filled.spawn (h : s.Filled started (p :: unstarted)) (pid : Pid) (forks : Forks) :
    s.spawnActorProcess p.name started.length (some pid :: forks) =
      if 0 < pid ∧ pid ∉ s.pids then some (s.spawned started (p :: unstarted) [pid], forks) else none := by
  have hmodify : s.actorProcesses.modify started.length (fun p => { p with pid := pid, exited := false }) =
      started ++ p.started pid :: unstarted := by
    rw [h.slots, List.modify_eq_take_cons_drop (by simp)]
    simp [ActorProcess.started]
  rw [Sys.spawnActorProcess, hmodify]
  simp [spawned, childrenFrom, addChild]

theorem Filled.next (h : s.Filled started (p :: unstarted)) (hpid : 0 < pid) :
    (s.spawned started (p :: unstarted) [pid]).Filled (started ++ [p.started pid]) unstarted := by
  refine ⟨?_, fun q hq => ?_, fun q hq => h.unstarted q (List.mem_cons_of_mem _ hq)⟩
  · simp [spawned]
  · rcases List.mem_append.mp hq with hq | hq
    · exact h.started q hq
    · rw [List.mem_singleton.mp hq]
      show pid ≠ -1
      rintro rfl
      exact absurd hpid (by decide)

/-- What the loop computes for any answers: as many calls as rounds, and the pids go to the slots in order. -/
theorem Filled.loop {n : Nat} {forks : Forks} (h : s.Filled started unstarted) (hn : n ≤ unstarted.length) :
    s.initActorLoop n forks =
      if n ≤ forks.length ∧ s.Fresh (returned (forks.take n)) then
        some (s.spawned started unstarted (returned (forks.take n)), forks.drop n)
      else none := by
  induction n generalizing s started unstarted forks with
  | zero =>
      rw [if_pos ⟨Nat.zero_le _, nofun, List.nodup_nil⟩]
      exact congrArg (fun t => some (t, forks)) h.spawned_nil.symm
  | succ n ih =>
      cases unstarted with
      | nil => exact absurd hn (Nat.not_succ_le_zero n)
      | cons p unstarted =>
          rw [h.round]
          cases forks with
          | nil => rfl
          | cons f forks =>
              cases f with
              | none =>
                  -- The slot stays the first one without a pid, so the last slot loses its round.
                  show s.initActorLoop n forks = _
                  rw [ih h (Nat.le_of_succ_le hn)]
                  simp
              | some pid =>
                  have hfresh := fresh_cons s started unstarted p pid (returned (forks.take n))
                  rw [h.spawn]
                  by_cases hpid : 0 < pid ∧ pid ∉ s.pids
                  · rw [if_pos hpid]
                    show (s.spawned started (p :: unstarted) [pid]).initActorLoop n forks = _
                    rw [ih (h.next hpid.1) (Nat.le_of_succ_le_succ hn), spawned_cons]
                    simp [hfresh, hpid]
                  · simp [hfresh, hpid]

theorem timesForked_spawned (hlen : pids.length ≤ unstarted.length) (i : Nat) :
    (s.spawned started unstarted pids).timesForked (some i) =
      s.timesForked (some i) + if started.length ≤ i ∧ i < started.length + pids.length then 1 else 0 :=
  calc
    _ = s.timesForked (some i) +
        ((childrenFrom started.length unstarted pids).map fun c => Event.forked c.slot c.pid).countP
          (Event.isFork (some i)) := List.countP_append
    _ = s.timesForked (some i) + (List.range' started.length pids.length).count i := by
      rw [countP_isFork, childrenFrom_slots started.length hlen,
        List.count_map_of_injective _ some fun _ _ => Option.some.inj]
    _ = s.timesForked (some i) + if started.length ≤ i ∧ i < started.length + pids.length then 1 else 0 := by
      rw [List.count_range_1']

theorem returned_length_le (forks : Forks) : (returned forks).length ≤ forks.length :=
  List.length_filterMap_le _ _

/-- **One `fork` for each slot.** Whatever calls of `fork` fail, there is one call for each slot, the pids go to the
first slots in the order in which they were returned, and the rest stays as it was. -/
theorem initActorProcesses_outcomes (s : Sys) (outcomes : Forks) (hempty : ∀ p ∈ s.actorProcesses, p.pid = -1)
    (hlen : outcomes.length = s.actorProcesses.length) (hfresh : s.Fresh (returned outcomes)) :
    (∀ n < s.actorProcesses.length, s.initActorProcesses (outcomes.take n) = none) ∧
      ∃ t, (∀ rest, s.initActorProcesses (outcomes ++ rest) = some (t, rest)) ∧
        t.actorProcesses = s.actorProcesses.zipWith ActorProcess.started (returned outcomes) ++
          s.actorProcesses.drop (returned outcomes).length ∧
        ∀ i, t.timesForked (some i) =
          s.timesForked (some i) + if i < (returned outcomes).length then 1 else 0 := by
  have hfilled : s.Filled [] s.actorProcesses := ⟨rfl, nofun, hempty⟩
  refine ⟨fun n hn => ?_, s.spawned [] s.actorProcesses (returned outcomes), fun rest => ?_, rfl, fun i => ?_⟩
  · rw [Sys.initActorProcesses, hfilled.loop (Nat.le_refl _), if_neg]
    rintro ⟨hle, -⟩
    rw [List.length_take] at hle
    omega
  · rw [Sys.initActorProcesses, hfilled.loop (Nat.le_refl _), ← hlen, List.take_left, List.drop_left, if_pos]
    exact ⟨by simp, hfresh⟩
  · have hle : (returned outcomes).length ≤ s.actorProcesses.length := hlen ▸ returned_length_le outcomes
    rw [timesForked_spawned hle]
    simp

/-- The second of three calls fails. -/
theorem initActorProcesses_outcomes_failing :
    ∃ t, (Sys.init [ascii "a", ascii "b", ascii "c"]).initActorProcesses [some 11, none, some 12] = some (t, []) ∧
      t.actorProcesses = [⟨11, false, ascii "a"⟩, ⟨12, false, ascii "b"⟩, ⟨-1, true, ascii "c"⟩] := by
  obtain ⟨-, t, hrun, hslots, -⟩ := initActorProcesses_outcomes (Sys.init [ascii "a", ascii "b", ascii "c"])
    [some 11, none, some 12] (by decide) rfl (by decide)
  exact ⟨t, hrun [], hslots⟩

end Sys

end CoroActor.Master
