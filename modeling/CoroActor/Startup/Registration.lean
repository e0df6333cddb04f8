import CoroActor.Proxy.Wiring
import CoroActor.Startup.Processes
import Mathlib.Data.List.Nodup

/-! How the start of an actor process ends. Whatever the order of the steps, a process that has started is in
both registries of the proxy. It gets there when it has connected in time; a process that connects before
the proxy listens, or when too many connections are waiting, stops or gives up. -/

namespace CoroActor

open TransitionSystem Reading

/-! ### What the proxy does during the start -/

namespace Proxy.Sys

variable {cfg : Setting} {s t : Sys} {j k : Conn} {pid pid' : Pid} {name : StdString}

/-- Nothing has happened on the connection since it was accepted. -/
structure Untouched (s : Sys) (k : Conn) : Prop where
  lt : k < s.nconn
  pc : s.pc k = .read
  stream : s.stream k = []
  socket : ∀ r < s.proxy.nactors, (s.proxy.actors r).socket ≠ k

/-- The actor with this socket, pid and name is in both registries. -/
def Enrolled (s : Sys) (k : Conn) (pid : Pid) (name : StdString) : Prop :=
  ∃ r < s.proxy.nactors, (s.proxy.actors r).socket = k ∧ (s.proxy.actors r).pid = pid ∧
    (s.proxy.actors r).name = name ∧ r ∈ s.proxy.actorInfoMap name ∧ s.proxy.actorPidMap pid = some r

/-- The proxy has written CONNACKs, each to the socket from which the CONNECT came. -/
structure Greets (ack : Frame) (s : Sys) : Prop where
  pc : ∀ k, s.pc k = .absent ∨ s.pc k = .read ∨ s.pc k = .connack
  stream : ∀ k, s.stream k <+: ack.bytes
  write : ∀ k, s.pc k = .connack → (s.write k).socket = k ∧ s.stream k ++ (s.write k).left = ack.bytes
  unused : ∀ k : Nat, s.nconn ≤ k → s.pc k = .absent ∧ s.stream k = []
  socket : ∀ r < s.proxy.nactors, (s.proxy.actors r).socket < s.nconn

/-- What a step leaves as it is, when it is not the reading of a CONNECT. -/
structure Quiet (s t : Sys) : Prop where
  proxy : t.proxy = s.proxy
  untouched : ∀ j, s.Untouched j → t.Untouched j

variable {ack : Frame}

theorem greets_init : Greets ack Sys.init where
  pc _ := Or.inl rfl
  stream _ := List.nil_prefix
  write _ h := by cases h
  unused _ _ := ⟨rfl, rfl⟩
  socket _ hr := absurd hr (Nat.not_lt_zero _)

theorem Quiet.enrolled (h : Quiet s t) (he : s.Enrolled k pid name) : t.Enrolled k pid name := by
  unfold Enrolled
  rw [h.proxy]
  exact he

theorem step_accept (h : s.step cfg .accept = some t) :
    t = { s with nconn := s.nconn + 1 }.setPc s.nconn .read none := by
  simp only [step, Option.ite_none_right_eq_some, Option.some.injEq] at h
  exact h.2.symm

theorem Greets.accept (hg : Greets ack s) (h : s.step cfg .accept = some t) :
    Greets ack t ∧ Quiet s t ∧ t.Untouched s.nconn := by
  rw [step_accept h]
  refine ⟨⟨fun k => ?_, hg.stream, fun k hk => ?_, fun k hk => ?_, fun r hr => ?_⟩,
    ⟨rfl, fun j hj => ?_⟩, ?_⟩
  · rw [setPc_pc, Function.update_apply]
    split
    · exact Or.inr (Or.inl rfl)
    · exact hg.pc k
  · rw [setPc_pc, Function.update_apply] at hk
    split at hk
    · cases hk
    · exact hg.write k hk
  · have hne : k ≠ s.nconn := (Nat.lt_of_succ_le hk).ne'
    rw [setPc_pc, Function.update_of_ne hne]
    exact hg.unused k (Nat.le_of_succ_le hk)
  · exact Nat.lt_succ_of_lt (hg.socket r hr)
  · refine ⟨Nat.lt_succ_of_lt hj.lt, ?_, hj.stream, hj.socket⟩
    rw [setPc_pc, Function.update_of_ne hj.lt.ne]
    exact hj.pc
  · refine ⟨Nat.lt_succ_self _, ?_, (hg.unused _ le_rfl).2, fun r hr heq => ?_⟩
    · rw [setPc_pc, Function.update_self]
    · exact absurd heq (hg.socket r hr).ne

theorem step_connect {p : CoroActorConnect} (h : s.step cfg (.read k (.connect p)) = some t) :
    s.pc k = .read ∧ t = s.onConnect cfg k p := by
  simp only [step, Option.ite_none_right_eq_some, Option.some.injEq] at h
  exact ⟨h.1.2, h.2.symm⟩

theorem Greets.connect (hg : Greets ack s) (hack : ack = ⟨coroActorConnack, cfg.serialize.connack ⟨true⟩⟩)
    (hk : s.Untouched k) (p : CoroActorConnect) : Greets ack (s.onConnect cfg k p) := by
  constructor
  · intro j
    simp only [onConnect, startWrite_pc, setProxy_pc, Function.update_apply]
    split
    · exact Or.inr (Or.inr rfl)
    · exact hg.pc j
  · exact hg.stream
  · intro j hj
    simp only [onConnect, startWrite_pc, setProxy_pc, startWrite_write, setProxy_write, startWrite_stream,
      setProxy_stream, Function.update_apply] at hj ⊢
    split at hj
    · next heq =>
        subst heq
        simp [hk.stream, hack]
    · next hne =>
        simp only [if_neg hne]
        exact hg.write j hj
  · intro j hj
    have hne : j ≠ k := (hk.lt.trans_le hj).ne'
    simp only [onConnect, startWrite_pc, setProxy_pc, Function.update_of_ne hne]
    exact hg.unused j hj
  · intro r hr
    rcases Nat.lt_succ_iff_lt_or_eq.mp hr with hold | rfl
    · rw [onConnect_old p hold]
      exact hg.socket r hold
    · rw [onConnect_new]
      exact hk.lt

theorem Untouched.connect (h : s.Untouched j) (hne : j ≠ k) (p : CoroActorConnect) :
    (s.onConnect cfg k p).Untouched j := by
  refine ⟨h.lt, ?_, h.stream, fun r hr => ?_⟩
  · simp only [onConnect, startWrite_pc, setProxy_pc, Function.update_of_ne hne]
    exact h.pc
  · rcases Nat.lt_succ_iff_lt_or_eq.mp hr with hold | rfl
    · rw [onConnect_old p hold]
      exact h.socket r hold
    · rw [onConnect_new]
      exact hne.symm

theorem enrolled_connect (p : CoroActorConnect) : (s.onConnect cfg k p).Enrolled k p.pid p.name := by
  refine ⟨s.proxy.nactors, Nat.lt_succ_self _, ?_⟩
  rw [onConnect_new]
  refine ⟨rfl, rfl, rfl, (mem_onConnect_infoMap p _ _).mpr (Or.inr ⟨rfl, rfl⟩), ?_⟩
  rw [onConnect_pidMap, if_pos rfl]

theorem Enrolled.connect (h : s.Enrolled j pid name) {p : CoroActorConnect} (hne : pid ≠ p.pid) :
    (s.onConnect cfg k p).Enrolled j pid name := by
  obtain ⟨r, hr, hsocket, hpid, hname, hmem, hmap⟩ := h
  refine ⟨r, Nat.lt_succ_of_lt hr, ?_⟩
  rw [onConnect_old p hr, onConnect_pidMap, if_neg hne]
  exact ⟨hsocket, hpid, hname, (mem_onConnect_infoMap p _ _).mpr (Or.inl hmem), hmap⟩

theorem step_transfer {count : Nat} (h : s.step cfg (.transfer k count) = some t) :
    (s.pc k).writing = true ∧ t = s.onTransfer k (count + 1) := by
  simp only [step, Option.ite_none_right_eq_some, Option.some.injEq] at h
  exact ⟨h.1.2.1, h.2.symm⟩

/-- During the start, a coroutine that writes is writing the CONNACK. -/
theorem Greets.pc_of_writing (hg : Greets ack s) (hw : (s.pc k).writing = true) : s.pc k = .connack := by
  rcases hg.pc k with hk | hk | hk
  · rw [hk] at hw
    cases hw
  · rw [hk] at hw
    cases hw
  · exact hk

theorem Greets.transfer (hg : Greets ack s) {count : Nat} (h : s.step cfg (.transfer k count) = some t) :
    Greets ack t ∧ Quiet s t := by
  obtain ⟨hw, rfl⟩ := step_transfer h
  have hk := hg.pc_of_writing hw
  obtain ⟨hsocket, hwhole⟩ := hg.write k hk
  have hwhole' : (s.stream k ++ (s.write k).left.take (count + 1)) ++ (s.write k).left.drop (count + 1) =
      ack.bytes := by
    rw [List.append_assoc, List.take_append_drop, hwhole]
  have hstream : ∀ j, j ≠ k → (s.onTransfer k (count + 1)).stream j = s.stream j := by
    intro j hj
    simp only [onTransfer, hsocket, Function.update_of_ne hj]
  have hstreamk : (s.onTransfer k (count + 1)).stream k = s.stream k ++ (s.write k).left.take (count + 1) := by
    simp only [onTransfer, hsocket, Function.update_self]
  refine ⟨⟨hg.pc, fun j => ?_, fun j hj => ?_, fun j hj => ?_, hg.socket⟩, rfl, fun j hj => ?_⟩
  · by_cases hjk : j = k
    · rw [hjk, hstreamk, ← hwhole']
      exact List.prefix_append _ _
    · rw [hstream j hjk]
      exact hg.stream j
  · by_cases hjk : j = k
    · subst hjk
      rw [hstreamk]
      simp only [onTransfer, Function.update_self]
      exact ⟨hsocket, hwhole'⟩
    · rw [hstream j hjk]
      simp only [onTransfer, Function.update_of_ne hjk]
      exact hg.write j hj
  · have hne : j ≠ k := by
      rintro rfl
      rw [(hg.unused j hj).1] at hk
      cases hk
    rw [hstream j hne]
    exact hg.unused j hj
  · have hne : j ≠ k := by
      rintro rfl
      rw [hj.pc] at hk
      cases hk
    refine ⟨hj.lt, hj.pc, ?_, hj.socket⟩
    rw [hstream j hne]
    exact hj.stream

theorem step_resume {ec : Bool} (h : s.step cfg (.resume k ec) = some t) :
    (s.pc k).writing = true ∧ t = s.onResume k ec := by
  simp only [step, Option.ite_none_right_eq_some, Option.some.injEq] at h
  exact ⟨h.1.2.1, h.2.symm⟩

theorem Greets.resume (hg : Greets ack s) {ec : Bool} (h : s.step cfg (.resume k ec) = some t) :
    Greets ack t ∧ Quiet s t := by
  obtain ⟨hw, rfl⟩ := step_resume h
  have hk := hg.pc_of_writing hw
  have heq : s.onResume k ec = (s.endWrite k ec).setPc k .read none := by
    unfold onResume
    rw [hk]
  have hpc : ∀ j, j ≠ k → (s.onResume k ec).pc j = s.pc j := by
    intro j hj
    rw [heq, setPc_pc, Function.update_of_ne hj]
    rfl
  have hpck : (s.onResume k ec).pc k = .read := by
    rw [heq, setPc_pc, Function.update_self]
  have hother : ∀ {p : Pc} {j : Conn}, s.pc j = p → p ≠ .connack → (s.onResume k ec).pc j = p := by
    intro p j hj hp
    rw [hpc j, hj]
    rintro rfl
    exact hp (hj.symm.trans hk)
  have hrest : (s.onResume k ec).stream = s.stream ∧ (s.onResume k ec).write = s.write ∧
      (s.onResume k ec).nconn = s.nconn ∧ (s.onResume k ec).proxy = s.proxy := by
    rw [heq]
    exact ⟨rfl, rfl, rfl, rfl⟩
  obtain ⟨hstream, hwrite, hnconn, hproxy⟩ := hrest
  refine ⟨⟨fun j => ?_, ?_, fun j hj => ?_, fun j hj => ?_, ?_⟩, hproxy, fun j hj => ⟨?_, ?_, ?_, ?_⟩⟩
  · by_cases hjk : j = k
    · rw [hjk, hpck]
      exact Or.inr (Or.inl rfl)
    · rw [hpc j hjk]
      exact hg.pc j
  · rw [hstream]
    exact hg.stream
  · have hne : j ≠ k := by
      rintro rfl
      rw [hpck] at hj
      cases hj
    rw [hpc j hne] at hj
    rw [hstream, hwrite]
    exact hg.write j hj
  · rw [hnconn] at hj
    rw [hstream]
    exact ⟨hother (hg.unused j hj).1 (by simp), (hg.unused j hj).2⟩
  · rw [hproxy, hnconn]
    exact hg.socket
  · rw [hnconn]
    exact hj.lt
  · exact hother hj.pc (by simp)
  · rw [hstream]
    exact hj.stream
  · rw [hproxy]
    exact hj.socket

end Proxy.Sys

namespace Startup

def Setting.ack (cfg : Setting) : Frame := ⟨coroActorConnack, cfg.codec.serialize.connack ⟨true⟩⟩

/-- The process is not connected, and it does not try again. -/
def Actor.Late (a : Actor) : Prop :=
  a.connection = .unconnected ∧ (a.pc = .write ∨ a.pc = .stopped ∨ a.pc = .gaveUp)

/-- The process is connected. Its CONNECT has not been read. -/
def Actor.Calling (a : Actor) : Prop := a.pc = .write ∧ a.sent = false ∨ a.pc = .connack ∧ a.sent = true

theorem Actor.Running.of_eq {a : Actor} {pc : ActorPc} (h : a.pc = pc) (hpc : pc ≠ .stopped ∧ pc ≠ .gaveUp) :
    a.Running := by
  unfold Actor.Running
  rw [h]
  exact hpc

theorem Actor.Calling.running {a : Actor} (h : a.Calling) : a.Running := by
  rcases h with ⟨hpc, -⟩ | ⟨hpc, -⟩
  · exact .of_eq hpc (by decide)
  · exact .of_eq hpc (by decide)

/-- How far the start of an actor process has come. -/
inductive Phase (p : Proxy.Sys) (a : Actor) : Prop
  | unconnected : a.connection = .unconnected → a.sent = false → a.pc ≠ .connack ∧ a.pc ≠ .started → Phase p a
  | queued : a.connection = .pending → a.Calling → Phase p a
  | accepted {k} : a.connection = .accepted k → a.Calling → p.Untouched k → Phase p a
  | enrolled {k} : a.connection = .accepted k → a.sent = false → (a.pc = .connack ∨ a.pc = .started) →
      p.Enrolled k a.pid a.name → Phase p a

variable {cfg : Setting} {p p' : Proxy.Sys} {a b : Actor} {k : Proxy.Conn}

theorem Phase.quiet (h : Phase p a) (hq : p.Quiet p') : Phase p' a := by
  cases h with
  | unconnected hc hsent hpc => exact .unconnected hc hsent hpc
  | queued hc hcall => exact .queued hc hcall
  | accepted hc hcall hk => exact .accepted hc hcall (hq.untouched _ hk)
  | enrolled hc hsent hpc he => exact .enrolled hc hsent hpc (hq.enrolled he)

/-- Before `async_connect` there is no connection. -/
theorem Phase.unconnected_of_pc (h : Phase p a) (hpc : a.pc = .load ∨ a.pc = .connect) :
    a.connection = .unconnected ∧ a.sent = false := by
  cases h with
  | unconnected hc hsent => exact ⟨hc, hsent⟩
  | queued _ hcall | accepted _ hcall =>
      rcases hcall with ⟨h, -⟩ | ⟨h, -⟩
      · simp [h] at hpc
      · simp [h] at hpc
  | enrolled _ _ h =>
      rcases h with h | h
      · simp [h] at hpc
      · simp [h] at hpc

theorem Phase.lt {ack : Frame} (h : Phase p a) (hg : p.Greets ack) (hc : a.connection = .accepted k) :
    k < p.nconn := by
  cases h with
  | unconnected hc' | queued hc' =>
      rw [hc] at hc'
      cases hc'
  | accepted hc' _ hk =>
      rw [hc] at hc'
      cases hc'
      exact hk.lt
  | enrolled hc' _ _ he =>
      rw [hc] at hc'
      cases hc'
      obtain ⟨r, hr, rfl, -⟩ := he
      exact hg.socket r hr

namespace Sys

variable {s t : Sys} {l : Label} {i j : Nat}

/-- The processes that have not come to their end have connections and pids of their own. -/
structure Orderly (cfg : Setting) (s : Sys) : Prop where
  greets : s.proxy.Greets cfg.ack
  phase : ∀ i, Phase s.proxy (s.actor i)
  fresh : ∀ i : Nat, s.nactors ≤ i → (s.actor i).pc = .stopped
  backlog : ∀ i, i ∈ s.backlog ↔ (s.actor i).connection = .pending
  nodup : s.backlog.Nodup
  conns : ∀ i j k, (s.actor i).connection = .accepted k → (s.actor j).connection = .accepted k → i = j
  pids : ∀ i j, (s.actor i).Running → (s.actor j).Running → (s.actor i).pid = (s.actor j).pid → i = j

theorem orderly_init : Orderly cfg (Sys.init cfg) where
  greets := Proxy.Sys.greets_init
  phase _ := .unconnected rfl rfl (by simp [Sys.init])
  fresh _ _ := rfl
  backlog _ := iff_of_false List.not_mem_nil (by simp [Sys.init])
  nodup := List.nodup_nil
  conns _ _ _ hi := by cases hi
  pids _ _ hi := absurd rfl hi.1

theorem Orderly.modify (hs : Orderly cfg s) (hi : i < t.nactors) (hn : s.nactors ≤ t.nactors)
    (hactor : t.actor = Function.update s.actor i a) (hgreets : t.proxy.Greets cfg.ack) (hphase : Phase t.proxy a)
    (hothers : ∀ j, j ≠ i → Phase t.proxy (s.actor j)) (hnodup : t.backlog.Nodup)
    (hqueued : i ∈ t.backlog ↔ a.connection = .pending)
    (hbacklog : ∀ j, j ≠ i → (j ∈ t.backlog ↔ j ∈ s.backlog))
    (hconns : ∀ k, a.connection = .accepted k → ∀ j, j ≠ i → (s.actor j).connection ≠ .accepted k)
    (hpids : a.Running → ∀ j, j ≠ i → (s.actor j).Running → (s.actor j).pid ≠ a.pid) : Orderly cfg t := by
  have hself : t.actor i = a := by rw [hactor, Function.update_self]
  have hother : ∀ j, j ≠ i → t.actor j = s.actor j := fun j hj => by rw [hactor, Function.update_of_ne hj]
  constructor
  · exact hgreets
  · intro j
    by_cases hj : j = i
    · rw [hj, hself]
      exact hphase
    · rw [hother j hj]
      exact hothers j hj
  · intro j hj
    rw [hother j (hi.trans_le hj).ne']
    exact hs.fresh j (hn.trans hj)
  · intro j
    by_cases hji : j = i
    · rw [hji, hself]
      exact hqueued
    · rw [hother j hji]
      exact (hbacklog j hji).trans (hs.backlog j)
  · exact hnodup
  · intro j j' k hj hj'
    by_cases hji : j = i <;> by_cases hji' : j' = i
    · rw [hji, hji']
    · rw [hji, hself] at hj
      rw [hother j' hji'] at hj'
      exact absurd hj' (hconns k hj j' hji')
    · rw [hji', hself] at hj'
      rw [hother j hji] at hj
      exact absurd hj (hconns k hj' j hji)
    · rw [hother j hji] at hj
      rw [hother j' hji'] at hj'
      exact hs.conns j j' k hj hj'
  · intro j j' hj hj' heq
    by_cases hji : j = i <;> by_cases hji' : j' = i
    · rw [hji, hji']
    · rw [hji, hself] at hj heq
      rw [hother j' hji'] at hj' heq
      exact absurd heq.symm (hpids hj j' hji' hj')
    · rw [hji', hself] at hj' heq
      rw [hother j hji] at hj heq
      exact absurd heq (hpids hj' j hji hj)
    · rw [hother j hji] at hj heq
      rw [hother j' hji'] at hj' heq
      exact hs.pids j j' hj hj' heq

theorem Orderly.lt (hs : Orderly cfg s) (hi : (s.actor i).pc ≠ .stopped) : i < s.nactors := by
  by_contra h
  exact hi (hs.fresh i (Nat.not_lt.mp h))

theorem Orderly.replace (hs : Orderly cfg s) (hrunning : (s.actor i).Running) (hn : t.nactors = s.nactors)
    (hactor : t.actor = Function.update s.actor i a) (hpid : a.pid = (s.actor i).pid)
    (hgreets : t.proxy.Greets cfg.ack) (hphase : Phase t.proxy a)
    (hothers : ∀ j, j ≠ i → Phase t.proxy (s.actor j)) (hnodup : t.backlog.Nodup)
    (hqueued : i ∈ t.backlog ↔ a.connection = .pending)
    (hbacklog : ∀ j, j ≠ i → (j ∈ t.backlog ↔ j ∈ s.backlog))
    (hconns : ∀ k, a.connection = .accepted k → ∀ j, j ≠ i → (s.actor j).connection ≠ .accepted k) :
    Orderly cfg t := by
  have hi : i < t.nactors := by
    rw [hn]
    exact hs.lt hrunning.1
  refine hs.modify hi hn.ge hactor hgreets hphase hothers hnodup hqueued hbacklog hconns ?_
  intro _ j hj hjr heq
  exact hj (hs.pids j i hjr hrunning (heq.trans hpid))

theorem Orderly.advance (hs : Orderly cfg s) (hrunning : (s.actor i).Running) (hpid : a.pid = (s.actor i).pid)
    (hconn : a.connection = (s.actor i).connection) (hphase : Phase s.proxy a) :
    Orderly cfg (s.setActor i a) := by
  refine hs.replace hrunning rfl rfl hpid hs.greets hphase ?_ hs.nodup ?_ ?_ ?_
  · intro j _
    exact hs.phase j
  · rw [hconn]
    exact hs.backlog i
  · intro j _
    exact Iff.rfl
  · intro k hk j hj hjk
    rw [hconn] at hk
    exact hj (hs.conns j i k hjk hk)

/-- A process that waits in the backlog is connected, and its CONNECT has not been read. -/
theorem Orderly.calling_of_backlog (hs : Orderly cfg s) (hi : i ∈ s.backlog) : (s.actor i).Calling := by
  have hconn := (hs.backlog i).mp hi
  cases hs.phase i with
  | unconnected hc | accepted hc | enrolled hc => exact absurd (hconn.symm.trans hc) (by simp)
  | queued _ hcall => exact hcall

theorem Orderly.fork (hs : Orderly cfg s) {pid : Pid} {name : StdString}
    (hpid : ∀ j < s.nactors, (s.actor j).Running → (s.actor j).pid ≠ pid) : Orderly cfg (s.onFork pid name) := by
  refine hs.modify (Nat.lt_succ_self _) (Nat.le_succ _) rfl hs.greets (.unconnected rfl rfl (by simp))
    ?_ hs.nodup (iff_of_false ?_ (by simp)) ?_ ?_ ?_
  · intro j _
    exact hs.phase j
  · intro hi
    exact (hs.calling_of_backlog hi).running.1 (hs.fresh s.nactors le_rfl)
  · intro j _
    exact Iff.rfl
  · intro k hk
    cases hk
  · intro _ j _ hj
    exact hpid j (hs.lt hj.1) hj

theorem Orderly.accept (hs : Orderly cfg s) {rest : List Nat} (hq : s.backlog = i :: rest)
    (hp : s.proxy.step cfg.proxy .accept = some p) :
    Orderly cfg { s.setActor i { s.actor i with connection := .accepted s.proxy.nconn } with
      proxy := p
      backlog := rest } := by
  obtain ⟨hg, hquiet, hnew⟩ := hs.greets.accept hp
  have hi : i ∈ s.backlog := by rw [hq]; exact List.mem_cons_self
  have hnodup := hs.nodup
  rw [hq, List.nodup_cons] at hnodup
  have hcall := hs.calling_of_backlog hi
  refine hs.replace hcall.running rfl rfl rfl hg (.accepted rfl hcall hnew) ?_ hnodup.2
    (iff_of_false hnodup.1 (by simp)) ?_ ?_
  · intro j _
    exact (hs.phase j).quiet hquiet
  · intro j hj
    rw [hq, List.mem_cons, or_iff_right hj]
  · intro k hk j _ hjk
    cases hk
    exact absurd ((hs.phase j).lt hs.greets hjk) (Nat.lt_irrefl _)

theorem Orderly.deal (hs : Orderly cfg s) (hc : (s.actor i).connection = .accepted k)
    (hsent : (s.actor i).sent = true)
    (hp : s.proxy.step cfg.proxy (.read k (.connect ⟨(s.actor i).pid, (s.actor i).name⟩)) = some p) :
    Orderly cfg ((s.setActor i { s.actor i with sent := false }).setProxy p) := by
  obtain ⟨-, rfl⟩ := Proxy.Sys.step_connect hp
  obtain ⟨hk, hpc⟩ : s.proxy.Untouched k ∧ (s.actor i).pc = .connack := by
    cases hs.phase i with
    | unconnected hc' | queued hc' => exact absurd (hc.symm.trans hc') (by simp)
    | enrolled _ hsent' => exact absurd (hsent.symm.trans hsent') (by simp)
    | accepted hc' hcall hk =>
        rw [hc] at hc'
        cases hc'
        rcases hcall with ⟨-, hsent'⟩ | ⟨hpc, -⟩
        · exact absurd (hsent.symm.trans hsent') (by simp)
        · exact ⟨hk, hpc⟩
  have hrunning : (s.actor i).Running := .of_eq hpc (by decide)
  refine hs.replace hrunning rfl rfl rfl (hs.greets.connect rfl hk _)
    (.enrolled hc rfl (Or.inl hpc) (Proxy.Sys.enrolled_connect _)) ?_ hs.nodup (hs.backlog i) ?_ ?_
  · intro j hj
    cases hs.phase j with
    | unconnected hc' hsent' hpc' => exact .unconnected hc' hsent' hpc'
    | queued hc' hcall => exact .queued hc' hcall
    | @accepted k' hc' hcall hk' =>
        refine .accepted hc' hcall (hk'.connect ?_ _)
        rintro rfl
        exact hj (hs.conns j i k' hc' hc)
    | enrolled hc' hsent' hpc' he =>
        have hjr : (s.actor j).Running := by
          rcases hpc' with hpc' | hpc'
          · exact .of_eq hpc' (by decide)
          · exact .of_eq hpc' (by decide)
        exact .enrolled hc' hsent' hpc' (he.connect fun heq => hj (hs.pids j i hjr hrunning heq))
  · intro j _
    exact Iff.rfl
  · intro k' hk' j hj hjk
    exact hj (hs.conns j i k' hjk hk')

/-- Only the proxy moves, and it reads no CONNECT. -/
theorem Orderly.serve (hs : Orderly cfg s) (hg : p.Greets cfg.ack) (hq : s.proxy.Quiet p) :
    Orderly cfg (s.setProxy p) :=
  ⟨hg, fun i => (hs.phase i).quiet hq, hs.fresh, hs.backlog, hs.nodup, hs.conns, hs.pids⟩

theorem Orderly.connect (hs : Orderly cfg s) (hpc : (s.actor i).pc = .connect) (reported : Bool) :
    Orderly cfg (s.onConnect cfg i reported) := by
  have hrunning : (s.actor i).Running := .of_eq hpc (by decide)
  obtain ⟨hc, hsent⟩ := (hs.phase i).unconnected_of_pc (Or.inr hpc)
  simp only [onConnect]
  split
  · exact hs.advance hrunning rfl rfl (.unconnected hc hsent (by simp))
  · split
    · have hnot : i ∉ s.backlog := fun hi => absurd (hc.symm.trans ((hs.backlog i).mp hi)) (by simp)
      refine hs.replace hrunning rfl rfl rfl hs.greets (.queued rfl (Or.inl ⟨rfl, hsent⟩)) ?_ ?_
        ⟨fun _ => rfl, fun _ => List.mem_append_right _ (List.mem_singleton_self i)⟩ ?_ ?_
      · intro j _
        exact hs.phase j
      · exact List.nodup_append.mpr ⟨hs.nodup, List.nodup_singleton i, fun j hj j' hj' heq =>
          hnot (List.mem_singleton.mp hj' ▸ heq ▸ hj)⟩
      · intro j hj
        rw [List.mem_append, List.mem_singleton, or_iff_left hj]
      · intro k hk
        cases hk
    · refine hs.advance hrunning rfl rfl (.unconnected hc hsent ?_)
      cases reported
      · simp
      · simp

theorem Orderly.write (hs : Orderly cfg s) (hpc : (s.actor i).pc = .write) : Orderly cfg (s.onWrite i) := by
  have hrunning : (s.actor i).Running := .of_eq hpc (by decide)
  simp only [onWrite]
  cases hs.phase i with
  | enrolled _ _ h => simp [hpc] at h
  | unconnected hc hsent =>
      rw [if_pos hc]
      exact hs.advance hrunning rfl rfl (.unconnected hc hsent (by simp))
  | queued hc _ =>
      rw [if_neg (by simp [hc])]
      exact hs.advance hrunning rfl rfl (.queued hc (Or.inr ⟨rfl, rfl⟩))
  | accepted hc _ hk =>
      rw [if_neg (by simp [hc])]
      exact hs.advance hrunning rfl rfl (.accepted hc (Or.inr ⟨rfl, rfl⟩) hk)

/-- What a process reads is the CONNACK, and the proxy has registered the process then. -/
theorem Orderly.connack (hs : Orderly cfg s)
    (hinv : cfg.codec.deserialize.connack (cfg.codec.serialize.connack ⟨true⟩) = some ⟨true⟩)
    (hack : Link.Pack.Sized cfg.codec (.connack ⟨true⟩)) (hpc : (s.actor i).pc = .connack)
    (h : s.onConnack cfg i = some t) :
    t = s.setActor i { s.actor i with pc := .started } ∧ Orderly cfg t := by
  have hrunning : (s.actor i).Running := .of_eq hpc (by decide)
  simp only [onConnack] at h
  split at h
  · next k hc =>
      obtain ⟨⟨l, rest⟩, hread, rfl⟩ := Option.map_eq_some_iff.mp h
      have hone : [s.proxy.stream k].flatten = s.proxy.stream k := List.flatten_singleton
      have hwhole : s.proxy.stream k = cfg.ack.bytes := by
        by_contra hne
        have hpre := hs.greets.stream k
        rw [← hone] at hpre hne
        rw [Link.readConnack_cut hack hpre hne] at hread
        cases hread
      have hstart : l.proto = coroActorConnack ∧
          cfg.codec.deserialize.connack l.deserializePack = some ⟨true⟩ := by
        obtain ⟨rest', hread', -⟩ := Link.readConnack_whole (f := cfg.ack) hack
          (hone.trans (hwhole.trans (List.append_nil _).symm))
        rw [hread', Option.some.injEq, Prod.mk.injEq] at hread
        obtain ⟨rfl, -⟩ := hread
        exact ⟨rfl, hinv⟩
      simp only [if_pos hstart]
      refine ⟨trivial, hs.advance hrunning rfl rfl ?_⟩
      cases hs.phase i with
      | unconnected hc' | queued hc' => exact absurd (hc.symm.trans hc') (by simp)
      | accepted hc' _ hk =>
          rw [hc] at hc'
          cases hc'
          exact absurd (hk.stream.symm.trans hwhole) (Frame.bytes_ne_nil _).symm
      | enrolled hc' hsent _ he => exact .enrolled hc' hsent (Or.inr rfl) he
  · cases h
  · cases h

section Step

variable (hinv : cfg.codec.deserialize.connack (cfg.codec.serialize.connack ⟨true⟩) = some ⟨true⟩)
  (hack : Link.Pack.Sized cfg.codec (.connack ⟨true⟩))

include hinv hack

theorem Orderly.step (hs : Orderly cfg s) (h : Move cfg s l t) : Orderly cfg t := by
  cases h with
  | fork hpid => exact hs.fork hpid
  | remove | bind | listen | acceptError =>
      exact ⟨hs.greets, hs.phase, hs.fresh, hs.backlog, hs.nodup, hs.conns, hs.pids⟩
  | accept _ hq hp => exact hs.accept hq hp
  | deal hc hsent hp => exact hs.deal hc hsent hp
  | transfer hp =>
      obtain ⟨hg, hq⟩ := hs.greets.transfer hp
      exact hs.serve hg hq
  | resume hp =>
      obtain ⟨hg, hq⟩ := hs.greets.resume hp
      exact hs.serve hg hq
  | load hpc =>
      obtain ⟨hc, hsent⟩ := (hs.phase _).unconnected_of_pc (Or.inl hpc)
      exact hs.advance (.of_eq hpc (by decide)) rfl rfl (.unconnected hc hsent (by simp))
  | @connect i reported hpc => exact hs.connect hpc reported
  | write hpc => exact hs.write hpc
  | connack hpc hread => exact (hs.connack hinv hack hpc hread).2

theorem orderly_of_reachable {ok : Sys → Label → Prop} (hr : Reachable (machine cfg) ok s) : Orderly cfg s :=
  hr.invariant orderly_init fun _ _ _ _ hs _ hst => hs.step hinv hack (step_move hst)

/-- A process that connects in time is not late, now or later. -/
theorem Orderly.late_step (hs : Orderly cfg s) (hlate : ∀ i < s.nactors, ¬ (s.actor i).Late)
    (hok : InTime cfg s l) (h : Move cfg s l t) : ∀ i < t.nactors, ¬ (t.actor i).Late := by
  have hmove : ∀ {i a}, ¬ Actor.Late a → ∀ j < s.nactors, ¬ (Function.update s.actor i a j).Late := by
    intro i a ha j hj
    rw [Function.update_apply]
    split
    · exact ha
    · exact hlate j hj
  cases h with
  | fork =>
      intro j hj
      rcases Nat.lt_succ_iff_lt_or_eq.mp hj with hold | rfl
      · simp only [onFork, Function.update_of_ne hold.ne]
        exact hlate j hold
      · simp [onFork, Actor.Late]
  | remove | bind | listen | acceptError | transfer | resume => exact hlate
  | accept => exact hmove (by simp [Actor.Late])
  | deal hc => exact hmove (by simp [Actor.Late, hc])
  | load hpc =>
      obtain ⟨hc, -⟩ := (hs.phase _).unconnected_of_pc (Or.inl hpc)
      exact hmove (by simp [Actor.Late, hc])
  | connect =>
      obtain ⟨hlistening, hroom⟩ := hok
      simp only [onConnect, hlistening, hroom, ne_eq, not_true_eq_false, if_false, if_true]
      exact hmove (by simp [Actor.Late])
  | @write i hpc =>
      have hnot := hlate i (hs.lt (by simp [hpc]))
      simp only [Actor.Late, hpc, true_or, and_true] at hnot
      simp only [onWrite, if_neg hnot]
      exact hmove fun hl => hnot hl.1
  | connack hpc hread =>
      obtain ⟨rfl, -⟩ := hs.connack hinv hack hpc hread
      exact hmove (by simp [Actor.Late])

/-- **Start-up.** In every run, an actor process whose start has ended with the CONNACK is in both registries of
the proxy. In every run in which each process connects when the proxy listens and its backlog has room, no
process calls `stop_server` or gives up. -/
theorem registered_of_started :
    (∀ s, Reachable (machine cfg) (fun _ _ => True) s → ∀ i, (s.actor i).pc = .started → s.Registered i) ∧
    ∀ s, Reachable (machine cfg) (InTime cfg) s → ∀ i < s.nactors, (s.actor i).pc ≠ .stopped ∧
      (s.actor i).pc ≠ .gaveUp := by
  constructor
  · intro s hr i hpc
    cases (orderly_of_reachable hinv hack hr).phase i with
    | unconnected _ _ h => exact absurd hpc h.2
    | queued _ hcall | accepted _ hcall => simp [Actor.Calling, hpc] at hcall
    | @enrolled k hc _ _ he => exact ⟨k, hc, he⟩
  · intro s hr i hi
    have hlate : ∀ i < s.nactors, ¬ (s.actor i).Late := by
      refine hr.invariant (I := fun s => ∀ i < s.nactors, ¬ (s.actor i).Late) ?_ ?_
      · exact fun i hi => absurd hi (Nat.not_lt_zero i)
      · exact fun s l t hr hl hok hst => (orderly_of_reachable hinv hack hr).late_step hinv hack hl hok
          (step_move hst)
    have hnot := hlate i hi
    cases (orderly_of_reachable hinv hack hr).phase i with
    | unconnected hc =>
        exact ⟨fun h => hnot ⟨hc, Or.inr (Or.inl h)⟩, fun h => hnot ⟨hc, Or.inr (Or.inr h)⟩⟩
    | queued _ hcall | accepted _ hcall => exact hcall.running
    | enrolled _ _ h => rcases h with h | h <;> simp [h]

end Step

/-! ### Processes to run

There is one actor process, and the socket file of an earlier run. -/

namespace Sample

def setting (leftover : Bool) : Setting := ⟨Link.Sample.codec, fun _ => none, leftover, 1⟩

theorem sized : Link.Pack.Sized Link.Sample.codec (.connack ⟨true⟩) := by
  unfold Link.Pack.Sized
  decide

def fork : Label := .fork 10 (ascii "a")

end Sample

/-- The proxy listens when the process connects. -/
theorem registered_of_started_sample : ∃ s : Sys,
    Reachable (machine (Sample.setting true)) (InTime (Sample.setting true)) s ∧
    (s.nactors = 1 ∧ (s.actor 0).pc = .started) ∧ s.Registered 0 ∧ (s.actor 0).pc ≠ .stopped := by
  obtain ⟨s, hr, hn, hpc⟩ := Reachable.of_leadsTo (machine (Sample.setting true)) (InTime (Sample.setting true))
    [Sample.fork, .load 0, .remove, .bind, .listen, .connect 0 true, .accept, .write 0, .deal 0, .transfer 0 9,
      .connack 0, .resume 0 false]
    (fun s => s.nactors = 1 ∧ (s.actor 0).pc = .started) (by decide +kernel)
  obtain ⟨hregistered, htime⟩ := @registered_of_started (Sample.setting true)
    (Link.Sample.codec_inverts.connack ⟨true⟩) Sample.sized
  exact ⟨s, hr, ⟨hn, hpc⟩, hregistered s (hr.mono fun _ _ _ => trivial) 0 hpc, (htime s hr 0 (by omega)).1⟩

/-- With or without a file of an earlier run, a process that connects before the proxy has bound its socket calls
`stop_server`. One that connects when the backlog is full can give up at its first write. -/
theorem start_fails :
    (∃ s : Sys, Reachable (machine (Sample.setting false)) (fun _ _ => True) s ∧
      0 < s.nactors ∧ (s.actor 0).pc = .stopped) ∧
    (∃ s : Sys, Reachable (machine (Sample.setting true)) (fun _ _ => True) s ∧
      0 < s.nactors ∧ (s.actor 0).pc = .stopped) ∧
    ∃ s : Sys, Reachable (machine (Sample.setting false)) (fun _ _ => True) s ∧
      1 < s.nactors ∧ (s.actor 1).pc = .gaveUp := by
  refine ⟨?_, ?_, ?_⟩
  · apply Reachable.of_leadsTo (machine (Sample.setting false)) (fun _ _ => True)
      [Sample.fork, .load 0, .connect 0 true]
    decide +kernel
  · apply Reachable.of_leadsTo (machine (Sample.setting true)) (fun _ _ => True)
      [Sample.fork, .load 0, .connect 0 true]
    decide +kernel
  · apply Reachable.of_leadsTo (machine (Sample.setting false)) (fun _ _ => True)
      [.remove, .bind, .listen, Sample.fork, .load 0, .connect 0 true, .fork 11 (ascii "a"), .load 1,
        .connect 1 false, .write 1]
    decide +kernel

end Sys

end Startup

end CoroActor
