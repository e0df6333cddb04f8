import CoroActor.Proxy.Move

/-! The registration of actors. In every run of well-behaved processes the two registries, the sockets and
the coroutines agree: `actor_pid_map` finds the actor of every connection that is still read, and
`actor_info_map` lists exactly the actors of a name. Only CONNECT changes any of this. -/

namespace CoroActor.Proxy

open TransitionSystem

/-- Everything but the flags, the call ids, the queues and the chains is as before. -/
structure Registry.SameWiring (σ σ' : Registry) : Prop where
  nactors : σ'.nactors = σ.nactors
  isOpen : σ'.isOpen = σ.isOpen
  infoMap : σ'.actorInfoMap = σ.actorInfoMap
  pidMap : σ'.actorPidMap = σ.actorPidMap
  name : ∀ r, (σ'.actors r).name = (σ.actors r).name
  pid : ∀ r, (σ'.actors r).pid = (σ.actors r).pid
  socket : ∀ r, (σ'.actors r).socket = (σ.actors r).socket

namespace Registry.SameWiring

variable {σ : Registry}

theorem refl : σ.SameWiring σ :=
  ⟨rfl, rfl, rfl, rfl, fun _ => rfl, fun _ => rfl, fun _ => rfl⟩

theorem updateActorInfo (af : Ref) (c : StdString) (w : Bool) :
    σ.SameWiring (σ.updateActorInfo af c w) := by
  constructor <;> simp

theorem setMsgQueue (af : Ref) (l : List Queued) : σ.SameWiring (σ.setMsgQueue af l) := by
  constructor <;> simp

theorem setChain (c : StdString) (L : List Ref) : σ.SameWiring (σ.setChain c L) := by
  constructor <;> simp

theorem depart (af : Ref) (rest : List Queued) (q : Queued) (issuer select : Ref) :
    σ.SameWiring (σ.depart af rest q issuer select) := by
  constructor <;> simp [Registry.depart]

theorem emplace (af : Ref) (q : Queued) : σ.SameWiring (σ.emplace af q) := setMsgQueue _ _

theorem trans {σ' σ'' : Registry} (h : σ.SameWiring σ') (h' : σ'.SameWiring σ'') : σ.SameWiring σ'' where
  nactors := h'.nactors.trans h.nactors
  isOpen := h'.isOpen.trans h.isOpen
  infoMap := h'.infoMap.trans h.infoMap
  pidMap := h'.pidMap.trans h.pidMap
  name r := (h'.name r).trans (h.name r)
  pid r := (h'.pid r).trans (h.pid r)
  socket r := (h'.socket r).trans (h.socket r)

theorem issue (af : Ref) (c : StdString) (q : Queued) (P : Prop) [Decidable P] :
    σ.SameWiring ((if P then σ.setChain c [af] else σ).emplace af q) := by
  split
  · exact (setChain _ _).trans (emplace _ _)
  · exact emplace _ _

end Registry.SameWiring

theorem Cont.pc_ne (c : Cont) : c.pc ≠ .absent ∧ c.pc ≠ .done ∧ c.pc.writing = false := by
  cases c <;> simp [Cont.pc, Pc.writing]

namespace Sys

variable {cfg : Setting} {s t : Sys} {l : Label} {k : Nat}

@[simp] theorem returnTo_proxy (c : Cont) : (s.returnTo k c).proxy = s.proxy := rfl
@[simp] theorem returnTo_fault (c : Cont) : (s.returnTo k c).fault = s.fault := rfl
@[simp] theorem returnTo_nconn (c : Cont) : (s.returnTo k c).nconn = s.nconn := rfl
@[simp] theorem returnTo_history (c : Cont) : (s.returnTo k c).history = s.history := rfl
@[simp] theorem returnTo_write (c : Cont) : (s.returnTo k c).write = s.write := rfl
@[simp] theorem returnTo_stream (c : Cont) : (s.returnTo k c).stream = s.stream := rfl
@[simp] theorem returnTo_running (c : Cont) : (s.returnTo k c).running = c.running k := rfl
@[simp] theorem returnTo_pc (c : Cont) : (s.returnTo k c).pc = Function.update s.pc k c.pc := rfl

/-- A partial write completes frames and leaves the rest of the history alone. -/
theorem onTransfer_history (count : Nat) : (s.onTransfer k count).history =
    { s.history with
      delivered := (s.onTransfer k count).history.delivered
      returned := (s.onTransfer k count).history.returned } := by
  simp only [onTransfer]
  split <;> rfl

theorem onRequest_eq {p : CoroActorRequest} {af : Ref} (h : s.proxy.actorPidMap p.pid = some af) :
    s.onRequest k p = (s.setProxy
      ((if s.proxy.actorCallChainMap p.callId = none then s.proxy.setChain p.callId [af] else s.proxy).emplace
        af ⟨s.history.nreq, p⟩) (s.history.issue k af p)).setPc k (.handle af .loop) (some k) := by
  rw [onRequest, h]

/-- Only CONNECT changes the wiring. -/
theorem Move.sameWiring (h : Move cfg s l t) (hl : ∀ k p, l ≠ .read k (.connect p)) :
    s.proxy.SameWiring t.proxy := by
  cases h with
  | connect => exact absurd rfl (hl _ _)
  | request _ _ haf =>
      rw [onRequest_eq haf]
      exact .issue _ _ _ _
  | response => exact .setChain _ _
  | resumeResponse => exact .updateActorInfo _ _ _
  | rollback => exact (Registry.SameWiring.updateActorInfo _ _ _).trans (.updateActorInfo _ _ _)
  | refused => exact .setMsgQueue _ _
  | buffered => exact (Registry.SameWiring.depart _ _ _ _ _).trans (.emplace _ _)
  | writing => exact (Registry.SameWiring.depart _ _ _ _ _).trans (.updateActorInfo _ _ _)
  | wake => exact .updateActorInfo _ _ _
  | _ => exact .refl

private theorem pc_cases_of_update (p : Pc) (ht : t.pc = Function.update s.pc k p)
    (hd : s.pc k ≠ .done) (ha : s.pc k ≠ .absent) (hp : p ≠ .absent) (hp' : p = .done → l = .readError k)
    (j : Nat) : t.pc j = s.pc j ∨ (l = .accept ∧ j = s.nconn ∧ j < t.nconn ∧ t.pc j = .read) ∨
      (s.pc j ≠ .done ∧ s.pc j ≠ .absent ∧ t.pc j ≠ .absent ∧ (t.pc j = .done → l = .readError j)) := by
  by_cases hj : j = k
  · subst hj
    refine Or.inr (Or.inr ⟨hd, ha, ?_⟩)
    rw [ht, Function.update_self]
    exact ⟨hp, hp'⟩
  · left
    rw [ht, Function.update_of_ne hj]

/-- How the coroutine of a connection can move: it is the one that steps, or it stays. -/
theorem Move.pc_cases (h : Move cfg s l t) (j : Nat) :
    t.pc j = s.pc j ∨ (l = .accept ∧ j = s.nconn ∧ j < t.nconn ∧ t.pc j = .read) ∨
    (s.pc j ≠ .done ∧ s.pc j ≠ .absent ∧ t.pc j ≠ .absent ∧ (t.pc j = .done → l = .readError j)) := by
  have hret : ∀ {k : Conn} {c : Cont} {p : Pc}, s.pc k = p → p ≠ .done → p ≠ .absent →
      t.pc = Function.update s.pc k c.pc → _ := fun {k c p} hp hd ha ht =>
    pc_cases_of_update c.pc (l := l) ht (hp ▸ hd) (hp ▸ ha) c.pc_ne.1 (fun h => absurd h c.pc_ne.2.1) j
  have hmove : ∀ {k : Conn} {p : Pc} (p' : Pc), s.pc k = p → p ≠ .done → p ≠ .absent →
      t.pc = Function.update s.pc k p' → p' ≠ .absent → p' ≠ .done → _ :=
    fun {k p} p' hp hd ha ht ha' hd' =>
    pc_cases_of_update p' (l := l) ht (hp ▸ hd) (hp ▸ ha) ha' (fun h => absurd h hd') j
  cases h with
  | accept =>
      by_cases hj : j = s.nconn
      · exact Or.inr (Or.inl ⟨rfl, hj, by simp [hj], by simp [hj]⟩)
      · left
        simp [Function.update_of_ne hj]
  | readError _ hk =>
      exact pc_cases_of_update .done rfl (by rw [hk]; nofun) (by rw [hk]; nofun) nofun (fun _ => rfl) j
  | stay => exact Or.inl rfl
  | undefined => exact Or.inl rfl
  | transfer => exact Or.inl rfl
  | connect _ hk => exact hmove .connack hk nofun nofun rfl nofun nofun
  | request _ hk haf =>
      rw [onRequest_eq haf] at hret hmove ⊢
      exact hmove (.handle _ _) hk nofun nofun rfl nofun nofun
  | response _ hk => exact hmove (.response _ _) hk nofun nofun rfl nofun nofun
  | resumeConnack _ hk => exact hmove .read hk nofun nofun rfl nofun nofun
  | resumeResponse _ hk => exact hmove (.handle _ _) hk nofun nofun rfl nofun nofun
  | wake _ hk => exact hmove (.handle _ _) hk nofun nofun rfl nofun nofun
  | writing hd => exact hmove (.request _ _ _) hd.pc nofun nofun rfl nofun nofun
  | resumeRequest _ hk => exact hret hk nofun nofun rfl
  | rollback _ hk => exact hret hk nofun nofun rfl
  | idle _ hk => exact hret hk nofun nofun rfl
  | refused ht => exact hret ht.pc nofun nofun rfl
  | buffered hd => exact hret hd.pc nofun nofun rfl

/-- A coroutine that has returned does not come back. -/
theorem Move.done_of_done (h : Move cfg s l t) {j : Nat} (hj : j < s.nconn) (hd : s.pc j = .done) :
    t.pc j = .done := by
  rcases h.pc_cases j with heq | ⟨-, heq, -⟩ | ⟨hne, -⟩
  · rw [heq, hd]
  · omega
  · exact absurd hd hne

/-- No socket is ever closed, and there is no coroutine for a connection that has not been accepted. -/
structure Accepted (s : Sys) : Prop where
  isOpen : ∀ k, s.proxy.isOpen k = true
  absent : ∀ k : Nat, s.nconn ≤ k → s.pc k = .absent

theorem Move.nconn_le (h : Move cfg s l t) : s.nconn ≤ t.nconn := by
  cases h with
  | request _ _ haf => rw [onRequest_eq haf]; exact le_rfl
  | accept => exact Nat.le_succ _
  | _ => exact le_rfl

theorem Accepted.step (ha : Accepted s) (h : Move cfg s l t) : Accepted t := by
  constructor
  · by_cases hl : ∃ k p, l = .read k (.connect p)
    · obtain ⟨k, p, rfl⟩ := hl
      cases h <;> exact ha.isOpen
    · rw [(h.sameWiring fun k p heq => hl ⟨k, p, heq⟩).isOpen]
      exact ha.isOpen
  · intro j hj
    rcases h.pc_cases j with heq | ⟨-, -, hlt, -⟩ | ⟨-, hne, -⟩
    · rw [heq]
      exact ha.absent j (h.nconn_le.trans hj)
    · exact absurd hlt (Nat.not_lt.mpr hj)
    · exact absurd (ha.absent j (h.nconn_le.trans hj)) hne

/-- The registration invariant. -/
structure Wired (s : Sys) : Prop extends Accepted s where
  group : ∀ g (r : Nat), r ∈ s.proxy.actorInfoMap g ↔ r < s.proxy.nactors ∧ (s.proxy.actors r).name = g
  sorted : ∀ g, (s.proxy.actorInfoMap g).Pairwise (· < ·)
  pidMap : ∀ p (r : Nat), s.proxy.actorPidMap p = some r → r < s.proxy.nactors ∧ (s.proxy.actors r).pid = p
  listed : ∀ r < s.proxy.nactors, (s.proxy.actorPidMap (s.proxy.actors r).pid).isSome
  live : ∀ r < s.proxy.nactors, s.pc (s.proxy.actors r).socket ≠ .done →
    s.proxy.actorPidMap (s.proxy.actors r).pid = some r
  socket_inj : ∀ r < s.proxy.nactors, ∀ r' < s.proxy.nactors,
    (s.proxy.actors r).socket = (s.proxy.actors r').socket → r = r'
  connected : ∀ r < s.proxy.nactors, (s.proxy.actors r).socket < s.nconn
  unused : ∀ r : Nat, s.proxy.nactors ≤ r → (s.proxy.actors r).msgQueue = []

theorem accepted_init : Accepted Sys.init := ⟨fun _ => rfl, fun _ _ => rfl⟩

theorem wired_init : Wired Sys.init where
  toAccepted := accepted_init
  group _ _ := by simp [Sys.init]
  sorted _ := List.Pairwise.nil
  pidMap _ _ h := by cases h
  listed _ h := absurd h (Nat.not_lt_zero _)
  live _ h := absurd h (Nat.not_lt_zero _)
  socket_inj _ h := absurd h (Nat.not_lt_zero _)
  connected _ h := absurd h (Nat.not_lt_zero _)
  unused _ _ := rfl

section Connect

variable (p : CoroActorConnect)

theorem onConnect_old {r : Nat} (hr : r < s.proxy.nactors) :
    (s.onConnect cfg k p).proxy.actors r = s.proxy.actors r := by
  simp only [Sys.onConnect, Sys.startWrite_proxy, Sys.setProxy_proxy, Function.update_of_ne hr.ne]

theorem onConnect_new :
    (s.onConnect cfg k p).proxy.actors s.proxy.nactors = ⟨p.name, p.pid, false, [], [], k⟩ := by
  simp only [Sys.onConnect, Sys.startWrite_proxy, Sys.setProxy_proxy, Function.update_self]

theorem onConnect_pidMap (d : Pid) : (s.onConnect cfg k p).proxy.actorPidMap d =
    if d = p.pid then some s.proxy.nactors else s.proxy.actorPidMap d := by
  simp only [Sys.onConnect, Sys.startWrite_proxy, Sys.setProxy_proxy, Function.update_apply]

theorem mem_onConnect_infoMap (g : StdString) (r : Ref) : r ∈ (s.onConnect cfg k p).proxy.actorInfoMap g ↔
    r ∈ s.proxy.actorInfoMap g ∨ g = p.name ∧ r = s.proxy.nactors := by
  simp only [Sys.onConnect, Sys.startWrite_proxy, Sys.setProxy_proxy, Function.update_apply]
  split
  · next hg => simp [hg]
  · next hg => simp [hg]

/-- The new actor joins the group of its name. -/
theorem Wired.onConnect_group (hw : Wired s) (g : StdString) (r : Nat) :
    r ∈ (s.onConnect cfg k p).proxy.actorInfoMap g ↔
      r < s.proxy.nactors + 1 ∧ ((s.onConnect cfg k p).proxy.actors r).name = g := by
  rw [mem_onConnect_infoMap, hw.group]
  rcases Nat.lt_trichotomy r s.proxy.nactors with hlt | rfl | hgt
  · have hne : r ≠ s.proxy.nactors := by omega
    rw [onConnect_old p hlt]
    simp only [hlt, true_and, hne, and_false, or_false, Nat.lt_succ_of_lt hlt]
  · rw [onConnect_new]
    simp only [Nat.lt_irrefl, false_and, false_or, and_true, Nat.lt_succ_self, true_and, eq_comm]
  · have hge : ¬ r < s.proxy.nactors := by omega
    have hge' : ¬ r < s.proxy.nactors + 1 := by omega
    have hne : r ≠ s.proxy.nactors := by omega
    simp only [hge, hge', hne, false_and, and_false, or_false]

/-- The members of a group stand in the order in which they have joined. -/
theorem Wired.onConnect_sorted (hw : Wired s) (g : StdString) :
    ((s.onConnect cfg k p).proxy.actorInfoMap g).Pairwise (· < ·) := by
  simp only [Sys.onConnect, Sys.startWrite_proxy, Sys.setProxy_proxy, Function.update_apply]
  split
  · refine List.pairwise_append.mpr ⟨hw.sorted _, List.pairwise_singleton _ _, fun r hr r' hr' => ?_⟩
    rw [List.mem_singleton.mp hr']
    exact ((hw.group _ r).mp hr).1
  · exact hw.sorted g

/-- CONNECT leaves the queues as they are: the new actor has an empty one. -/
theorem Wired.onConnect_msgQueue (hw : Wired s) (r : Nat) :
    ((s.onConnect cfg k p).proxy.actors r).msgQueue = (s.proxy.actors r).msgQueue := by
  by_cases hr : r = s.proxy.nactors
  · rw [hr, hw.unused _ le_rfl, onConnect_new]
  · simp only [Sys.onConnect, startWrite_proxy, setProxy_proxy, Function.update_of_ne hr]

end Connect

/-- Where the requests of a queue come from: a queue, or the connection. -/
theorem Move.queue_cases (h : Move cfg s l t) {r : Ref} {q : Queued}
    (hq : q ∈ (t.proxy.actors r).msgQueue) : (∃ af, q ∈ (s.proxy.actors af).msgQueue) ∨
      ∃ k p af, l = .read k (.request p) ∧ s.proxy.actorPidMap p.pid = some af ∧
        q = ⟨s.history.nreq, p⟩ ∧ t.history = s.history.issue k af p := by
  cases h with
  | connect =>
      left
      refine ⟨r, ?_⟩
      simp only [onConnect, startWrite_proxy, setProxy_proxy, Function.update_apply] at hq
      split at hq
      · cases hq
      · exact hq
  | @request k p af _ _ haf =>
      rw [onRequest_eq haf] at hq ⊢
      rw [setPc_proxy, setProxy_proxy, Registry.emplace_msgQueue, Registry.ite_setChain_actors] at hq
      split at hq
      · rcases List.mem_append.mp hq with hold | hnew
        · exact Or.inl ⟨af, hold⟩
        · exact Or.inr ⟨k, p, af, rfl, haf, List.mem_singleton.mp hnew, rfl⟩
      · exact Or.inl ⟨r, hq⟩
  | resumeResponse | rollback | wake => exact Or.inl ⟨r, by simpa using hq⟩
  | @refused k af d q' rest why ht =>
      rw [returnTo_proxy, setProxy_proxy, Registry.setMsgQueue_msgQueue] at hq
      split at hq
      · exact Or.inl ⟨af, by rw [ht.queue]; exact List.mem_cons_of_mem _ hq⟩
      · exact Or.inl ⟨r, hq⟩
  | @buffered k af d q' rest issuer select hd =>
      have hdepart : ∀ r', q ∈ ((s.proxy.depart af rest q' issuer select).actors r').msgQueue →
          ∃ af, q ∈ (s.proxy.actors af).msgQueue := by
        intro r' hr'
        rw [Registry.depart_msgQueue] at hr'
        split at hr'
        · exact ⟨af, by rw [hd.queue]; exact List.mem_cons_of_mem _ hr'⟩
        · exact ⟨r', hr'⟩
      rw [returnTo_proxy, setProxy_proxy, Registry.emplace_msgQueue] at hq
      split at hq
      · rcases List.mem_append.mp hq with hold | hnew
        · exact Or.inl (hdepart select hold)
        · refine Or.inl ⟨af, ?_⟩
          rw [List.mem_singleton.mp hnew, hd.queue]
          exact List.mem_cons_self
      · exact Or.inl (hdepart r hq)
  | @writing k af d q' rest issuer select hd =>
      rw [startWrite_proxy, setProxy_proxy, Registry.updateActorInfo_msgQueue, Registry.depart_msgQueue] at hq
      split at hq
      · exact Or.inl ⟨af, by rw [hd.queue]; exact List.mem_cons_of_mem _ hq⟩
      · exact Or.inl ⟨r, hq⟩
  | _ => exact Or.inl ⟨r, hq⟩

theorem Wired.onConnect (hw : Wired s) {p : CoroActorConnect} (hr : s.Ready) (hk : s.pc k = .read)
    (hrule : s.ConnectRule k p) : Wired (s.onConnect cfg k p) := by
  have hkn : k < s.nconn := by
    by_contra h
    rw [hw.absent k (by omega)] at hk
    cases hk
  have hpc : ∀ j : Nat, j ≠ k → (s.onConnect cfg k p).pc j = s.pc j := fun j hj => by
    simp only [Sys.onConnect, Sys.startWrite_pc, Sys.setProxy_pc, Function.update_of_ne hj]
  constructor
  · exact hw.toAccepted.step (show Move cfg s (.read k (.connect p)) _ from .connect hr hk)
  · exact hw.onConnect_group p
  · exact hw.onConnect_sorted p
  · intro d r h
    rw [onConnect_pidMap] at h
    split at h
    · next hd =>
        cases h
        rw [onConnect_new]
        exact ⟨Nat.lt_succ_self _, hd.symm⟩
    · obtain ⟨hr, hp⟩ := hw.pidMap d r h
      rw [onConnect_old p hr]
      exact ⟨Nat.lt_succ_of_lt hr, hp⟩
  · intro r hr
    rcases Nat.lt_succ_iff_lt_or_eq.mp hr with hr' | rfl
    · rw [onConnect_old p hr', onConnect_pidMap]
      split
      · rfl
      · exact hw.listed r hr'
    · rw [onConnect_new, onConnect_pidMap, if_pos rfl]
      rfl
  · intro r hr hd
    rcases Nat.lt_succ_iff_lt_or_eq.mp hr with hr' | rfl
    · rw [onConnect_old p hr'] at hd ⊢
      obtain ⟨hsock, hpid⟩ := hrule r hr'
      rw [hpc _ hsock] at hd
      rw [onConnect_pidMap, if_neg fun h => hd (hpid h)]
      exact hw.live r hr' hd
    · rw [onConnect_new, onConnect_pidMap, if_pos rfl]
  · intro r hr r' hr' heq
    rcases Nat.lt_succ_iff_lt_or_eq.mp hr with h | rfl <;>
      rcases Nat.lt_succ_iff_lt_or_eq.mp hr' with h' | rfl
    · rw [onConnect_old p h, onConnect_old p h'] at heq
      exact hw.socket_inj r h r' h' heq
    · rw [onConnect_old p h, onConnect_new] at heq
      exact absurd heq (hrule r h).1
    · rw [onConnect_old p h', onConnect_new] at heq
      exact absurd heq.symm (hrule r' h').1
    · rfl
  · intro r hr
    rcases Nat.lt_succ_iff_lt_or_eq.mp hr with hr' | rfl
    · rw [onConnect_old p hr']
      exact hw.connected r hr'
    · rw [onConnect_new]
      exact hkn
  · intro r hr
    rw [hw.onConnect_msgQueue]
    exact hw.unused r (Nat.le_of_succ_le hr)

/-- The callee is a member of the group of the service. -/
theorem Departs.select_mem (hw : Wired s) {af : Ref} {c : Cont} {q : Queued} {rest : List Queued}
    {issuer select : Ref} (h : s.Departs cfg k af c q rest issuer select) :
    ∃ g, cfg.serviceMap q.pack.serviceName = some g ∧ select ∈ s.proxy.actorInfoMap g ∧
      select < s.proxy.nactors ∧ (s.proxy.actors select).name = g := by
  obtain ⟨g, hg, hmin, -⟩ := Registry.route_ok h.route
  have hmem : select ∈ s.proxy.actorInfoMap g := List.argmin_mem hmin
  exact ⟨g, hg, hmem, (hw.group g select).mp hmem⟩

theorem Takes.lt (hw : Wired s) {af : Nat} {c : Cont} {q : Queued} {rest : List Queued}
    (h : s.Takes k af c q rest) : af < s.proxy.nactors := by
  by_contra hge
  have hnil := hw.unused af (by omega)
  rw [h.queue] at hnil
  cases hnil

/-- The queues of the actors that do not exist yet stay empty. -/
theorem Move.unused (h : Move cfg s l t) (hw : Wired s) (hl : ∀ k p, l ≠ .read k (.connect p)) (r : Nat)
    (hr : s.proxy.nactors ≤ r) : (t.proxy.actors r).msgQueue = [] := by
  have hold := hw.unused r hr
  have hne : ∀ r' : Nat, r' < s.proxy.nactors → r ≠ r' := fun r' h => by omega
  cases h with
  | connect => exact absurd rfl (hl _ _)
  | request _ _ haf =>
      rw [onRequest_eq haf]
      have hlt := hne _ (hw.pidMap _ _ haf).1
      split <;> simp [Registry.emplace, Registry.setMsgQueue_msgQueue, hlt, hold]
  | refused ht => simp [Registry.setMsgQueue_msgQueue, hne _ (ht.lt hw), hold]
  | buffered hd =>
      obtain ⟨g, -, -, hlt, -⟩ := hd.select_mem hw
      simp [Registry.emplace, Registry.depart, Registry.setMsgQueue_msgQueue, hne _ (hd.toTakes.lt hw),
        hne _ hlt, hold]
  | writing hd =>
      simp [Registry.depart, Registry.setMsgQueue_msgQueue, hne _ (hd.toTakes.lt hw), hold]
  | resumeResponse => simpa using hold
  | rollback => simpa using hold
  | wake => simpa using hold
  | response => simpa using hold
  | _ => exact hold

/-- The invariant only asks of the processes that they register as they should. -/
theorem Wired.step (hw : Wired s) (h : Move cfg s l t)
    (hrule : ∀ k p, l = .read k (.connect p) → s.ConnectRule k p) : Wired t := by
  by_cases hl : ∃ k p, l = .read k (.connect p)
  · obtain ⟨k, p, rfl⟩ := hl
    cases h with
    | connect hr hk => exact hw.onConnect hr hk (hrule k p rfl)
    | stay => exact hw
    | undefined => exact ⟨⟨hw.isOpen, hw.absent⟩, hw.group, hw.sorted, hw.pidMap, hw.listed, hw.live,
        hw.socket_inj, hw.connected, hw.unused⟩
  · have hl' : ∀ k p, l ≠ .read k (.connect p) := fun k p heq => hl ⟨k, p, heq⟩
    have hsame := h.sameWiring hl'
    constructor
    · exact hw.toAccepted.step h
    · intro g r
      rw [hsame.infoMap, hsame.nactors, hsame.name]
      exact hw.group g r
    · intro g
      rw [hsame.infoMap]
      exact hw.sorted g
    · intro p r
      rw [hsame.pidMap, hsame.nactors, hsame.pid]
      exact hw.pidMap p r
    · intro r hr
      rw [hsame.nactors] at hr
      rw [hsame.pidMap, hsame.pid]
      exact hw.listed r hr
    · intro r hr hd
      rw [hsame.nactors] at hr
      rw [hsame.socket] at hd
      rw [hsame.pidMap, hsame.pid]
      refine hw.live r hr fun hdone => ?_
      rcases h.pc_cases (s.proxy.actors r).socket with heq | ⟨-, heq, -⟩ | ⟨hnd, -⟩
      · exact hd (heq.trans hdone)
      · exact absurd heq (hw.connected r hr).ne
      · exact hnd hdone
    · intro r hr r' hr' heq
      rw [hsame.nactors] at hr hr'
      rw [hsame.socket, hsame.socket] at heq
      exact hw.socket_inj r hr r' hr' heq
    · intro r hr
      rw [hsame.nactors] at hr
      rw [hsame.socket]
      exact (hw.connected r hr).trans_le h.nconn_le
    · intro r hr
      rw [hsame.nactors] at hr
      exact h.unused hw hl' r hr

end Sys

end CoroActor.Proxy
