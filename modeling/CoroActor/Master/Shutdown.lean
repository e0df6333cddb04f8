import CoroActor.Master.Moves
import Mathlib.Data.List.DropRight

/-! Whom the termination signals of the master reach. `stop_proxy_process` and `stop_actor_processes` look at
the pids of the slots only, and no slot gives up its pid when its process has been waited for. -/

namespace CoroActor.Master

open TransitionSystem

/-- The event is an answer of `waitpid`. -/
def Event.isWait : Event → Bool
  | .waited _ => true
  | .forked _ _ | .killed _ => false

/-- The master forked the pid, and `waitpid` has not returned it since. -/
def Unwaited (log : List Event) (pid : Pid) : Prop :=
  ∃ slot, .forked slot pid ∈ log.rtakeWhile fun e => e ≠ .waited pid

/-- Every signal so far went to a process of the master that it had not waited for yet. -/
def KillsChildren (log : List Event) : Prop := ∀ before pid,
  before ++ [.killed pid] <+: log → Unwaited before pid

section Log

variable {log : List Event} {pid : Pid}

theorem killsChildren_append {e : Event} :
    KillsChildren (log ++ [e]) ↔ KillsChildren log ∧ ∀ pid, e = .killed pid → Unwaited log pid := by
  constructor
  · intro h
    refine ⟨fun before pid hp => h before pid (hp.trans (List.prefix_append log [e])), ?_⟩
    rintro pid rfl
    exact h log pid (List.prefix_refl _)
  · rintro ⟨hlog, he⟩ before pid hp
    rcases List.prefix_concat_iff.mp hp with heq | hp
    · obtain ⟨hbefore, hlast⟩ := List.append_inj' heq rfl
      rw [hbefore]
      exact he pid (List.singleton_inj.mp hlast).symm
    · exact hlog before pid hp

/-- What was not waited for at all counts if it was forked at all. -/
theorem unwaited_of_not_waited {slot : Slot} (hforked : .forked slot pid ∈ log) (hnot : .waited pid ∉ log) :
    Unwaited log pid := by
  refine ⟨slot, ?_⟩
  rw [List.rtakeWhile_eq_self_iff.mpr]
  · exact hforked
  · intro e he
    exact decide_eq_true (ne_of_mem_of_not_mem he hnot)

theorem unwaited_killed {q : Pid} : Unwaited (log ++ [.killed q]) pid ↔ Unwaited log pid := by
  simp [Unwaited]

theorem unwaited_killeds {pids : List Pid} : Unwaited (log ++ pids.map .killed) pid ↔ Unwaited log pid := by
  induction pids using List.reverseRecOn with
  | nil => simp
  | append_singleton pids q ih =>
      rw [List.map_append, ← List.append_assoc]
      exact unwaited_killed.trans ih

theorem unwaited_waited {q : Pid} : Unwaited (log ++ [.waited q]) pid ↔ pid ≠ q ∧ Unwaited log pid := by
  by_cases heq : pid = q
  · simp [Unwaited, heq]
  · simp [Unwaited, heq, Ne.symm heq]

theorem killsChildren_killeds {pids : List Pid} :
    KillsChildren (log ++ pids.map .killed) ↔ KillsChildren log ∧ ∀ pid ∈ pids, Unwaited log pid := by
  induction pids using List.reverseRecOn with
  | nil => simp
  | append_singleton pids q ih =>
      rw [List.map_append, ← List.append_assoc, List.map_singleton, killsChildren_append, ih, and_assoc]
      refine and_congr_right fun _ => ?_
      simp only [Event.killed.injEq, forall_eq', unwaited_killeds, List.mem_append, List.mem_singleton, or_imp,
        forall_and, forall_eq]

end Log

namespace Sys

variable {names : List StdString} {s t : Sys}

/-- `waitpid` has not returned any child so far. -/
def NothingWaited (s : Sys) : Prop := ∀ e ∈ s.log, e.isWait = false

instance (s : Sys) : Decidable s.NothingWaited := inferInstanceAs (Decidable (∀ e ∈ s.log, e.isWait = false))

/-- The condition on a step: a termination signal comes before `waitpid` has returned a child. -/
def BeforeWaiting (s : Sys) : Label → Prop
  | .sigterm => s.NothingWaited
  | .start _ | .exit _ | .sigchld _ _ => True

instance (s : Sys) : DecidablePred s.BeforeWaiting
  | .sigterm => inferInstanceAs (Decidable s.NothingWaited)
  | .start _ | .exit _ | .sigchld _ _ => .isTrue trivial

theorem nothingWaited_iff : s.NothingWaited ↔ ∀ pid, .waited pid ∉ s.log := by
  constructor
  · intro h pid hmem
    cases h _ hmem
  · intro h e he
    cases e with
    | waited pid => exact absurd he (h pid)
    | forked _ _ => rfl
    | killed _ => rfl

/-- The slots keep the pids of all children, also of those that were waited for, and those were forked before
`waitpid` returned the first. -/
structure Kept (s : Sys) : Prop where
  forked : ∀ slot pid, s.slotPid slot = some pid → pid ≠ -1 → .forked slot pid ∈ s.log
  child : ∀ c ∈ s.alive ++ s.zombies, 0 < c.pid ∧ s.slotPid c.slot = some c.pid
  waited : ∀ pid, .waited pid ∈ s.log → pid ∈ s.targets ∧ ¬ Unwaited s.log pid
  before : s.running = false → s.NothingWaited

theorem kept_init (names : List StdString) : Kept (Sys.init names) := by
  refine ⟨fun slot pid hpid hne => ?_, fun c hc => absurd hc List.not_mem_nil,
    fun pid hmem => absurd hmem List.not_mem_nil, fun _ e he => absurd he List.not_mem_nil⟩
  cases slot with
  | none => exact absurd (Option.some.inj hpid).symm hne
  | some i =>
      simp only [slotPid, Sys.init, List.getElem?_map, Option.map_map, Option.map_eq_some_iff] at hpid
      obtain ⟨name, -, rfl⟩ := hpid
      exact absurd rfl hne

/-- A fork fills an empty slot, so it takes no pid from a child. -/
theorem Kept.adds (hk : Kept s) {c : Child} (hnew : s.running = false) (h : Adds s c t) : Kept t := by
  have hnothing : t.NothingWaited := by
    intro e he
    rw [h.log] at he
    rcases List.mem_append.mp he with hold | hlast
    · exact hk.before hnew e hold
    · rw [List.mem_singleton.mp hlast]
      rfl
  constructor
  · intro slot pid hpid hne
    rw [h.log]
    by_cases heq : slot = c.slot
    · subst heq
      obtain rfl : c.pid = pid := Option.some.inj (h.slot.symm.trans hpid)
      exact List.mem_append_right _ List.mem_cons_self
    · rw [h.others slot heq] at hpid
      exact List.mem_append_left _ (hk.forked slot pid hpid hne)
  · intro d hd
    rw [h.alive, h.zombies] at hd
    have hcases : d ∈ s.alive ++ s.zombies ∨ d = c := by
      simp only [List.mem_append, List.mem_singleton] at hd ⊢
      tauto
    rcases hcases with hold | rfl
    · obtain ⟨hpos, hslot⟩ := hk.child d hold
      have hne : d.slot ≠ c.slot := by
        intro heq
        rw [heq, h.empty] at hslot
        rw [← Option.some.inj hslot] at hpos
        exact absurd hpos (by decide)
      exact ⟨hpos, (h.others d.slot hne).trans hslot⟩
    · exact ⟨h.fresh.1, h.slot⟩
  · exact fun pid hmem => absurd hmem (nothingWaited_iff.mp hnothing pid)
  · exact fun _ => hnothing

theorem Kept.congr (hk : Kept s) (hslot : ∀ slot, t.slotPid slot = s.slotPid slot)
    (hchild : ∀ c ∈ t.alive ++ t.zombies, c ∈ s.alive ++ s.zombies) (hlog : t.log = s.log)
    (hrunning : t.running = false → s.running = false) : Kept t := by
  constructor
  · intro slot pid hpid hne
    rw [hlog]
    exact hk.forked slot pid ((hslot slot).symm.trans hpid) hne
  · intro c hc
    rw [hslot]
    exact hk.child c (hchild c hc)
  · intro pid hmem
    rw [hlog] at hmem ⊢
    obtain ⟨htarget, hnot⟩ := hk.waited pid hmem
    obtain ⟨hne, slot, hpid⟩ := mem_targets.mp htarget
    exact ⟨mem_targets.mpr ⟨hne, slot, (hslot slot).trans hpid⟩, hnot⟩
  · intro hnew
    rw [NothingWaited, hlog]
    exact hk.before (hrunning hnew)

theorem Kept.marked (hk : Kept s) {q : Pid} (hrunning : s.running = true) (hq : q ∈ s.zombies.map Child.pid) :
    Kept (s.markExited q) := by
  have hslot : ∀ slot, (s.markExited q).slotPid slot = s.slotPid slot := s.markExited_slotPid q
  have htargets : ∀ pid, pid ∈ s.targets → pid ∈ (s.markExited q).targets := by
    intro pid hpid
    simp only [mem_targets, hslot] at hpid ⊢
    exact hpid
  constructor
  · intro slot pid hpid hne
    exact List.mem_append_left _ (hk.forked slot pid ((hslot slot).symm.trans hpid) hne)
  · intro c hc
    rw [hslot]
    refine hk.child c ?_
    rcases List.mem_append.mp hc with halive | hzombie
    · exact List.mem_append_left _ halive
    · exact List.mem_append_right _ (List.mem_of_mem_filter hzombie)
  · intro pid hmem
    show _ ∧ ¬ Unwaited (s.log ++ [.waited q]) pid
    rw [unwaited_waited]
    rcases List.mem_append.mp hmem with hold | hlast
    · obtain ⟨htarget, hnot⟩ := hk.waited pid hold
      exact ⟨htargets pid htarget, fun h => hnot h.2⟩
    · cases List.mem_singleton.mp hlast
      obtain ⟨c, hc, rfl⟩ := List.mem_map.mp hq
      obtain ⟨hpos, hpid⟩ := hk.child c (List.mem_append_right _ hc)
      refine ⟨htargets _ (mem_targets.mpr ⟨?_, c.slot, hpid⟩), fun h => h.1 rfl⟩
      rintro heq
      rw [heq] at hpos
      exact absurd hpos (by decide)
  · intro hnew
    rw [show (s.markExited q).running = s.running from rfl, hrunning] at hnew
    cases hnew

theorem Kept.move (hk : Kept s) (h : Move s t) : Kept t := by
  cases h with
  | proxyForked hnew hempty hpid => exact hk.adds hnew (adds_proxy hempty hpid)
  | actorForked hnew hi hempty hpid => exact hk.adds hnew (adds_actor hi hempty hpid)
  | marked hrunning hzombie => exact hk.marked hrunning hzombie
  | started => exact hk.congr (fun slot => by cases slot <;> rfl) (fun _ => id) rfl nofun
  | exited _ =>
      refine hk.congr (fun slot => by cases slot <;> rfl) (fun c hc => ?_) rfl id
      simp only [List.mem_append, List.mem_filter] at hc ⊢
      tauto

theorem Kept.signalled (hk : Kept s) (hrunning : s.running = true) : Kept s.signalled := by
  constructor
  · intro slot pid hpid hne
    rw [signalled_slotPid] at hpid
    exact List.mem_append_left _ (hk.forked slot pid hpid hne)
  · intro c hc
    rw [signalled_slotPid]
    exact hk.child c hc
  · intro pid hmem
    have hold : .waited pid ∈ s.log := by simpa [Sys.signalled] using hmem
    obtain ⟨htarget, hnot⟩ := hk.waited pid hold
    exact ⟨htarget, fun h => hnot (unwaited_killeds.mp h)⟩
  · intro hnew
    rw [show s.signalled.running = s.running from rfl, hrunning] at hnew
    cases hnew

theorem kept {ok : Sys → Label → Prop} (hr : Reachable (machine names) ok s) : Kept s :=
  invariant_of_moves (kept_init names) (fun _ _ hk h => hk.move h) (fun _ hk => hk.signalled) hr

/-- A termination signal goes to children only if and only if `waitpid` has returned none of them. -/
theorem Kept.targets_iff (hk : Kept s) : (∀ pid ∈ s.targets, Unwaited s.log pid) ↔ s.NothingWaited := by
  rw [nothingWaited_iff]
  constructor
  · intro hall pid hmem
    obtain ⟨htarget, hnot⟩ := hk.waited pid hmem
    exact hnot (hall pid htarget)
  · intro hnothing pid hpid
    obtain ⟨hne, slot, hslot⟩ := mem_targets.mp hpid
    exact unwaited_of_not_waited (hk.forked slot pid hslot hne) (hnothing pid)

theorem killsChildren_move (hkills : KillsChildren s.log) (h : Move s t) : KillsChildren t.log := by
  have happend : ∀ {e : Event}, (∀ pid, e ≠ .killed pid) → t.log = s.log ++ [e] → KillsChildren t.log := by
    intro e he hlog
    rw [hlog, killsChildren_append]
    exact ⟨hkills, fun pid heq => absurd heq (he pid)⟩
  cases h with
  | proxyForked _ _ _ => exact happend (fun _ => Event.noConfusion) rfl
  | actorForked _ _ _ _ => exact happend (fun _ => Event.noConfusion) rfl
  | marked _ _ => exact happend (fun _ => Event.noConfusion) rfl
  | started => exact hkills
  | exited _ => exact hkills

/-- **Shutdown.** In every run whose termination signals come before `waitpid` has returned a child, all
signals go to children. In every run, as long as they did, those of the next SIGTERM do if and only if `waitpid`
has returned no child. -/
theorem kills_children :
    (∀ s, Reachable (machine names) BeforeWaiting s → KillsChildren s.log) ∧
      ∀ s t, Reachable (machine names) (fun _ _ => True) s → (machine names).step s .sigterm = some t →
        KillsChildren s.log → (KillsChildren t.log ↔ s.NothingWaited) := by
  have hsignal : ∀ s, Kept s → KillsChildren s.log → (KillsChildren s.signalled.log ↔ s.NothingWaited) := by
    intro s hk hkills
    show KillsChildren (s.log ++ s.targets.map .killed) ↔ _
    rw [killsChildren_killeds, hk.targets_iff]
    exact and_iff_right hkills
  constructor
  · intro s hr
    refine hr.invariant (I := fun s => KillsChildren s.log)
      (fun before pid h => by simp [machine, Sys.init] at h) ?_
    intro s l t hr hkills hok hst
    obtain ⟨hm, hidle⟩ := master_type hr
    rcases (step_cases hm hidle hst).1 with ⟨rfl, -, rfl⟩ | hmoves
    · exact (hsignal s (kept hr) hkills).mpr hok
    · exact kept_of_moves (fun _ _ => killsChildren_move) hmoves hkills
  · intro s t hr hst hkills
    obtain ⟨-, rfl⟩ := step_sigterm (master_type hr).1 hst
    exact hsignal s (kept hr) hkills

/-- A termination signal before any child has exited reaches the proxy and both actor processes. -/
theorem kills_children_sample : ∃ s t, Reachable (machine [ascii "a", ascii "b"]) BeforeWaiting s ∧
    s.step .sigterm = some t ∧ t.log = s.log ++ [.killed 11, .killed 12, .killed 13] ∧ KillsChildren t.log := by
  obtain ⟨s, t, hr, hok, hst, hlog⟩ := Reachable.of_takes (machine [ascii "a", ascii "b"]) BeforeWaiting
    [.start [some 11, some 12, some 13]] .sigterm
    (fun s t => t.log = s.log ++ [.killed 11, .killed 12, .killed 13]) (by decide +kernel)
  exact ⟨s, t, hr, hst, hlog, kills_children.1 t (hr.step hok hst)⟩

/-- An actor process exits and `waitpid` returns it. The next SIGTERM is passed on to its pid. -/
theorem waited_killed : ∃ s t, Reachable (machine [ascii "a", ascii "b"]) (fun _ _ => True) s ∧
    s.step .sigterm = some t ∧ .waited 13 ∈ s.log ∧ .killed 13 ∈ t.log ∧ ¬ KillsChildren t.log := by
  obtain ⟨s, t, hr, -, hst, hwaited, hlog⟩ := Reachable.of_takes (machine [ascii "a", ascii "b"]) (fun _ _ => True)
    [.start [some 11, some 12, some 13], .exit 13, .sigchld [.child 13, .none] []] .sigterm
    (fun s t => .waited 13 ∈ s.log ∧ t.log = s.log ++ [.killed 11, .killed 12] ++ [.killed 13]) (by decide +kernel)
  refine ⟨s, t, hr, hst, hwaited, ?_, fun hkills => ?_⟩
  · rw [hlog]
    exact List.mem_append_right _ List.mem_cons_self
  · have hchild : Unwaited (s.log ++ [11, 12].map .killed) 13 := hkills _ 13 ⟨[], by simp [hlog]⟩
    exact ((kept hr).waited 13 hwaited).2 (unwaited_killeds.mp hchild)

end Sys

end CoroActor.Master
