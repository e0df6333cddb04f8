import CoroActor.Proxy.Rules

/-! What one step of the proxy can do, said once. `Sys.Move` lists the cases with their guards and the
state after the step; every invariant is a case analysis over it and never unfolds the step function. -/

namespace CoroActor.Proxy

open TransitionSystem

namespace Registry

/-- The issuer waits, the callee joins the chain. -/
def depart (σ : Registry) (af : Ref) (rest : List Queued) (q : Queued) (issuer select : Ref) : Registry :=
  ((σ.setMsgQueue af rest).updateActorInfo issuer q.pack.callId true).setChain q.pack.callId
    (σ.chain q.pack.callId ++ [select])

variable (σ : Registry) (af r : Ref) (q : Queued) (rest : List Queued) (issuer select : Ref)

theorem depart_isWaiting : ((σ.depart af rest q issuer select).actors r).isWaiting =
    if r = issuer then true else (σ.actors r).isWaiting := by
  simp [depart, updateActorInfo_isWaiting]

theorem depart_callId : ((σ.depart af rest q issuer select).actors r).callId =
    if r = issuer then q.pack.callId else (σ.actors r).callId := by
  simp [depart, updateActorInfo_callId]

theorem depart_msgQueue : ((σ.depart af rest q issuer select).actors r).msgQueue =
    if r = af then rest else (σ.actors r).msgQueue := by
  simp [depart, setMsgQueue_msgQueue]

theorem depart_chain (d : StdString) : (σ.depart af rest q issuer select).chain d =
    if d = q.pack.callId then σ.chain d ++ [select] else σ.chain d := by
  unfold chain depart
  rw [setChain_chainMap]
  split
  · next hd =>
      rw [hd]
      rfl
  · rfl

theorem setChain_chain (c d : StdString) (L : List Ref) :
    (σ.setChain c L).chain d = if d = c then L else σ.chain d := by
  unfold chain
  rw [setChain_chainMap]
  split <;> rfl

@[simp] theorem emplace_chain (d : StdString) : (σ.emplace r q).chain d = σ.chain d := rfl

@[simp] theorem emplace_isWaiting (x : Ref) :
    ((σ.emplace r q).actors x).isWaiting = (σ.actors x).isWaiting := by
  simp [emplace]

@[simp] theorem emplace_callId (x : Ref) : ((σ.emplace r q).actors x).callId = (σ.actors x).callId := by
  simp [emplace]

theorem emplace_msgQueue (x : Ref) : ((σ.emplace r q).actors x).msgQueue =
    if x = r then (σ.actors r).msgQueue ++ [q] else (σ.actors x).msgQueue := by
  rw [emplace, setMsgQueue_msgQueue]

end Registry

namespace Sys

/-- A call of `handle_proxy_handle_request` on `af` takes the front `q` of its queue. -/
structure Takes (s : Sys) (k : Conn) (af : Ref) (c : Cont) (q : Queued) (rest : List Queued) : Prop where
  running : s.running = some k
  pc : s.pc k = .handle af c
  queue : (s.proxy.actors af).msgQueue = q :: rest
  free : (s.proxy.actors af).isWaiting = false

/-- The taken request goes to `select`. -/
structure Departs (cfg : Setting) (s : Sys) (k : Conn) (af : Ref) (c : Cont) (q : Queued)
    (rest : List Queued) (issuer select : Ref) : Prop extends Takes s k af c q rest where
  route : (s.proxy.setMsgQueue af rest).route cfg.serviceMap q.pack = .ok select
  issued : s.proxy.actorPidMap q.pack.pid = some issuer

/-- The cases of a step. -/
inductive Move (cfg : Setting) (s : Sys) : Label → Sys → Prop
  | accept : s.Ready → Move cfg s .accept ({ s with nconn := s.nconn + 1 }.setPc s.nconn .read none)
  | connect {k p} : s.Ready → s.pc k = .read → Move cfg s (.read k (.connect p)) (s.onConnect cfg k p)
  | request {k p af} : s.Ready → s.pc k = .read → s.proxy.actorPidMap p.pid = some af →
      Move cfg s (.read k (.request p)) (s.onRequest k p)
  | response {k p L back afSelf} : s.Ready → s.pc k = .read →
      s.proxy.chain p.callId = L ++ [back, afSelf] →
      Move cfg s (.read k (.response p))
        ((s.setProxy (s.proxy.setChain p.callId (L ++ [back]))
            (s.history.reply (s.answered k p.callId) back)).startWrite k (.response afSelf p.callId)
          (s.proxy.actors back).socket ⟨coroActorResponse, cfg.serialize.response p⟩
          (.response (s.answered k p.callId)))
  | stay {l} : Move cfg s l s
  | undefined {l} : ¬ s.Accesses cfg l → Move cfg s l s.undefined
  | readError {k} : s.Ready → s.pc k = .read → Move cfg s (.readError k) (s.setPc k .done none)
  | transfer {k count} : s.Ready → (s.pc k).writing = true → (s.write k).left ≠ [] →
      Move cfg s (.transfer k count) (s.onTransfer k (count + 1))
  | resumeConnack {k ec} : s.Ready → s.pc k = .connack → (ec = true ↔ (s.write k).left ≠ []) →
      Move cfg s (.resume k ec) ((s.endWrite k ec).setPc k .read none)
  | resumeResponse {k ec afSelf callId} : s.Ready → s.pc k = .response afSelf callId →
      (ec = true ↔ (s.write k).left ≠ []) →
      Move cfg s (.resume k ec)
        (((s.endWrite k ec).setProxy (s.proxy.updateActorInfo afSelf [] false) s.history).setPc k
          (.handle afSelf (.wake callId)) (some k))
  | resumeRequest {k q select c} : s.Ready → s.pc k = .request q select c → (s.write k).left = [] →
      Move cfg s (.resume k false) ((s.endWrite k false).returnTo k c)
  | rollback {k q select c issuer} : s.Ready → s.pc k = .request q select c → (s.write k).left ≠ [] →
      s.proxy.actorPidMap q.pack.pid = some issuer →
      Move cfg s (.resume k true)
        (((s.endWrite k true).setProxy
          ((s.proxy.updateActorInfo issuer [] false).updateActorInfo select [] false) s.history).returnTo k c)
  | idle {k af c} : s.running = some k → s.pc k = .handle af c →
      ((s.proxy.actors af).msgQueue = [] ∨ (s.proxy.actors af).isWaiting = true) →
      Move cfg s (.run k) (s.returnTo k c)
  | refused {k af c q rest why} : s.Takes k af c q rest →
      (s.proxy.setMsgQueue af rest).route cfg.serviceMap q.pack = .error why →
      Move cfg s (.run k) ((s.setProxy (s.proxy.setMsgQueue af rest) s.history).returnTo k c)
  | buffered {k af c q rest issuer select} : s.Departs cfg k af c q rest issuer select →
      ((s.proxy.depart af rest q issuer select).actors select).isWaiting = true →
      Move cfg s (.run k)
        ((s.setProxy ((s.proxy.depart af rest q issuer select).emplace select q)
          (s.history.hold q.serial select)).returnTo k c)
  | writing {k af c q rest issuer select} : s.Departs cfg k af c q rest issuer select →
      ((s.proxy.depart af rest q issuer select).actors select).isWaiting = false →
      Move cfg s (.run k)
        ((s.setProxy ((s.proxy.depart af rest q issuer select).updateActorInfo select q.pack.callId false)
            (s.history.send q.serial select)).startWrite k (.request q select c)
          (s.proxy.actors select).socket ⟨coroActorRequest, cfg.serialize.request q.pack⟩
          (.request q.serial))
  | wake {k callId back} : s.running = some k → s.pc k = .wake callId →
      (s.proxy.chain callId).getLast? = some back →
      Move cfg s (.run k)
        ((s.setProxy (s.proxy.updateActorInfo back callId false) s.history).setPc k (.handle back .loop)
          (some k))

variable {cfg : Setting} {s t : Sys} {k : Conn} {l : Label}

theorem Takes.taken {af : Ref} {c : Cont} {q : Queued} {rest : List Queued} (h : s.Takes k af c q rest) :
    s.taken k = some ⟨af, q, rest⟩ := by
  simp only [Sys.taken, h.pc, h.queue, h.free, Bool.false_eq_true, if_false]

theorem Takes.mem_queue {af : Ref} {c : Cont} {q : Queued} {rest : List Queued} (h : s.Takes k af c q rest) :
    q ∈ (s.proxy.actors af).msgQueue := by
  rw [h.queue]
  exact List.mem_cons_self

/-- A coroutine takes one request at a time. -/
theorem Takes.unique {af af' : Ref} {c c' : Cont} {q q' : Queued} {rest rest' : List Queued}
    (h : s.Takes k af c q rest) (h' : s.Takes k af' c' q' rest') : af = af' ∧ c = c' ∧ q = q' ∧ rest = rest' := by
  obtain ⟨rfl, rfl⟩ := Pc.handle.inj (h.pc.symm.trans h'.pc)
  obtain ⟨rfl, rfl⟩ := List.cons.inj (h.queue.symm.trans h'.queue)
  exact ⟨rfl, rfl, rfl, rfl⟩

theorem Departs.unique {af af' issuer issuer' select select' : Ref} {c c' : Cont} {q q' : Queued}
    {rest rest' : List Queued} (h : s.Departs cfg k af c q rest issuer select)
    (h' : s.Departs cfg k af' c' q' rest' issuer' select') : q = q' ∧ issuer = issuer' ∧ select = select' := by
  obtain ⟨rfl, rfl, rfl, rfl⟩ := h.toTakes.unique h'.toTakes
  exact ⟨rfl, Option.some.inj (h.issued.symm.trans h'.issued), Except.ok.inj (h.route.symm.trans h'.route)⟩

theorem onResponse_eq {p : CoroActorResponse} {L : List Ref} {back afSelf : Ref}
    (h : s.proxy.chain p.callId = L ++ [back, afSelf]) :
    s.onResponse cfg k p = (s.setProxy (s.proxy.setChain p.callId (L ++ [back]))
        (s.history.reply (s.answered k p.callId) back)).startWrite k (.response afSelf p.callId)
      (s.proxy.actors back).socket ⟨coroActorResponse, cfg.serialize.response p⟩
      (.response (s.answered k p.callId)) := by
  have hpop : L ++ [back, afSelf] = (L ++ [back]) ++ [afSelf] := by simp
  unfold onResponse
  dsimp only
  rw [h, hpop]
  simp only [List.getLast?_append, List.getLast?_singleton, Option.some_or, List.dropLast_concat]

theorem onResponse_move (p : CoroActorResponse) (hr : s.Ready) (hk : s.pc k = .read) :
    Move cfg s (.read k (.response p)) (s.onResponse cfg k p) := by
  rcases List.eq_nil_or_concat (s.proxy.chain p.callId) with hnil | ⟨L₁, afSelf, hL₁⟩
  · unfold onResponse
    dsimp only
    rw [hnil]
    exact .undefined fun h => by simp [Accesses, hnil] at h
  · rcases List.eq_nil_or_concat L₁ with rfl | ⟨L, back, rfl⟩
    · unfold onResponse
      dsimp only
      rw [hL₁]
      exact .undefined fun h => by simp [Accesses, hL₁] at h
    · have hchain : s.proxy.chain p.callId = L ++ [back, afSelf] := by
        rw [hL₁]
        simp
      rw [onResponse_eq hchain]
      exact .response hr hk hchain

theorem onHandle_move (hopen : ∀ k, s.proxy.isOpen k = true) {af : Ref} {c : Cont}
    (hrun : s.running = some k) (hk : s.pc k = .handle af c) :
    Move cfg s (.run k) (s.onHandle cfg k af c) := by
  unfold onHandle
  rw [Registry.handleProxyHandleRequest_eq _ _ hopen]
  cases hq : (s.proxy.actors af).msgQueue with
  | nil => exact .idle hrun hk (Or.inl hq)
  | cons q rest =>
      cases hw : (s.proxy.actors af).isWaiting with
      | true => exact .idle hrun hk (Or.inr hw)
      | false =>
          have htakes : s.Takes k af c q rest := ⟨hrun, hk, hq, hw⟩
          simp only [Bool.false_eq_true, if_false]
          cases hroute : (s.proxy.setMsgQueue af rest).route cfg.serviceMap q.pack with
          | error why => exact .refused htakes hroute
          | ok select =>
              simp only [Registry.dispatch, Registry.setMsgQueue_pidMap]
              cases hi : s.proxy.actorPidMap q.pack.pid with
              | none =>
                  refine .undefined fun h => ?_
                  obtain ⟨af', -, haf', -⟩ := h.1 _ htakes.taken (by rw [destination, hroute]; rfl)
                  rw [hi] at haf'
                  cases haf'
              | some issuer =>
                  have hdep : s.Departs cfg k af c q rest issuer select := ⟨htakes, hroute, hi⟩
                  cases hsw : ((s.proxy.depart af rest q issuer select).actors select).isWaiting with
                  | true =>
                      have hsw' := hsw
                      simp only [Registry.depart] at hsw'
                      simp only [Registry.setMsgQueue_chain, hsw', if_true]
                      exact .buffered hdep hsw
                  | false =>
                      have hsw' := hsw
                      simp only [Registry.depart] at hsw'
                      simp only [Registry.setMsgQueue_chain, hsw', Bool.false_eq_true, if_false]
                      have hsock : (((s.proxy.depart af rest q issuer select).updateActorInfo select
                          q.pack.callId false).actors select).socket = (s.proxy.actors select).socket := by
                        simp [Registry.depart]
                      have hm := Move.writing hdep hsw
                      rw [← hsock] at hm
                      exact hm

/-- A call that buffers or writes a request has dispatched the front of the queue. -/
theorem Departs.of_served (hopen : ∀ k, s.proxy.isOpen k = true) {af select : Ref} {c : Cont} {q : Queued}
    (hrun : s.running = some k) (hk : s.pc k = .handle af c)
    (h : (Registry.handleProxyHandleRequest cfg.serviceMap s.proxy af).2 = .buffered q select ∨
      (Registry.handleProxyHandleRequest cfg.serviceMap s.proxy af).2 = .writing q select) :
    ∃ rest issuer, s.Departs cfg k af c q rest issuer select := by
  rw [Registry.handleProxyHandleRequest_eq _ _ hopen] at h
  cases hq : (s.proxy.actors af).msgQueue with
  | nil => simp [hq] at h
  | cons q' rest =>
      cases hw : (s.proxy.actors af).isWaiting with
      | true => simp [hq, hw] at h
      | false =>
          cases hroute : (s.proxy.setMsgQueue af rest).route cfg.serviceMap q'.pack with
          | error why => simp [hq, hw, hroute] at h
          | ok select' =>
              cases hi : s.proxy.actorPidMap q'.pack.pid with
              | none => simp [hq, hw, hroute, Registry.dispatch, hi] at h
              | some issuer =>
                  obtain ⟨rfl, rfl⟩ : q' = q ∧ select' = select := by
                    simp only [hq, hw, hroute, Registry.dispatch, Registry.setMsgQueue_pidMap, hi,
                      Bool.false_eq_true, if_false] at h
                    split at h <;> simpa using h
                  exact ⟨rest, issuer, ⟨hrun, hk, hq, hw⟩, hroute, hi⟩

/-- **Every step is one of the moves**, as long as no socket has been closed. -/
theorem step_move (hopen : ∀ k, s.proxy.isOpen k = true) (h : s.step cfg l = some t) :
    Move cfg s l t := by
  cases l with
  | accept =>
      simp only [step, Option.ite_none_right_eq_some, Option.some.injEq] at h
      obtain ⟨hr, rfl⟩ := h
      exact .accept hr
  | read k f =>
      simp only [step, Option.ite_none_right_eq_some, Option.some.injEq] at h
      obtain ⟨⟨hr, hk⟩, rfl⟩ := h
      cases f with
      | connect p => exact .connect hr hk
      | request p =>
          cases hp : s.proxy.actorPidMap p.pid with
          | none =>
              simp only [onFrame, onRequest, hp]
              refine .undefined ?_
              rintro ⟨af, -, haf, -⟩
              rw [hp] at haf
              cases haf
          | some af => exact .request hr hk hp
      | response p => exact onResponse_move p hr hk
      | other b => exact .stay
  | readError k =>
      simp only [step, Option.ite_none_right_eq_some, Option.some.injEq] at h
      obtain ⟨⟨hr, hk⟩, rfl⟩ := h
      exact .readError hr hk
  | transfer k count =>
      simp only [step, Option.ite_none_right_eq_some, Option.some.injEq] at h
      obtain ⟨⟨hr, hk, hl⟩, rfl⟩ := h
      exact .transfer hr hk hl
  | resume k ec =>
      simp only [step, Option.ite_none_right_eq_some, Option.some.injEq] at h
      obtain ⟨⟨hr, hk, hl⟩, rfl⟩ := h
      unfold onResume
      cases hpc : s.pc k with
      | connack => exact .resumeConnack hr hpc hl
      | response afSelf callId => exact .resumeResponse hr hpc hl
      | request q select c =>
          cases ec with
          | false => exact .resumeRequest hr hpc (by simpa using hl)
          | true =>
              have hleft : (s.write k).left ≠ [] := hl.mp rfl
              cases hi : s.proxy.actorPidMap q.pack.pid with
              | none =>
                  simp only [hi, if_true]
                  refine .undefined fun h => ?_
                  obtain ⟨af, -, haf, -⟩ := h rfl (q, select) (by rw [hpc]; rfl)
                  rw [hi] at haf
                  cases haf
              | some issuer =>
                  simp only [hi, if_true]
                  exact .rollback hr hpc hleft hi
      | absent | read | handle | wake | done => rw [hpc] at hk; cases hk
  | run k =>
      simp only [step, Option.ite_none_right_eq_some, Option.some.injEq] at h
      obtain ⟨⟨-, hrun⟩, rfl⟩ := h
      unfold onRun
      cases hpc : s.pc k with
      | handle af c => exact onHandle_move hopen hrun hpc
      | wake callId =>
          simp only [onWake]
          cases hb : (s.proxy.chain callId).getLast? with
          | none => exact .undefined fun h => h.2 callId hpc (List.getLast?_eq_none_iff.mp hb)
          | some back => exact .wake hrun hpc hb
      | absent | read | connack | request | response | done => exact .stay

end Sys

end CoroActor.Proxy
