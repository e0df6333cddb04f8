import CoroActor.Proxy.Delivery

/-! The `is_waiting` flag. It is set when a request of the actor is dispatched, and it is cleared around a
RESPONSE: for the actor that answers, and later for whatever is then at the back of the chain. The module
says who sets and who clears a flag, and what a set flag means. -/

namespace CoroActor.Proxy

open TransitionSystem

/-- The call whose chain the coroutine still has to look at, in the RESPONSE case. -/
def Pc.wakes : Pc → Option StdString
  | .response _ callId | .handle _ (.wake callId) | .request _ _ (.wake callId) | .wake callId => some callId
  | _ => none

/-- The actor whose RESPONSE the coroutine is writing. -/
def Pc.responder : Pc → Option Ref
  | .response afSelf _ => some afSelf
  | _ => none

@[simp] theorem Pc.wakes_handle (af : Ref) (c : Cont) : (Pc.handle af c).wakes = c.pc.wakes := by
  cases c <;> rfl

@[simp] theorem Pc.wakes_request (q : Queued) (select : Ref) (c : Cont) :
    (Pc.request q select c).wakes = c.pc.wakes := by
  cases c <;> rfl

namespace Sys

variable {cfg : Setting} {s t : Sys} {l : Label} {k : Conn} {n : Nat} {r af issuer select : Ref}
  {c : Cont} {q : Queued} {rest : List Queued} {p : CoroActorResponse}

/-- A coroutine that handles a RESPONSE will clear the flag of the actor: of the one that answered, or of
the one at the back of the chain. -/
def Clearing (s : Sys) (r : Ref) : Prop :=
  ∃ k, (∃ c, s.pc k = .response r c) ∨ ∃ c, (s.pc k).wakes = some c ∧ (s.proxy.chain c).getLast? = some r

theorem Clearing.move (hc : s.Clearing r) {p : Pc} (hpc : t.pc = Function.update s.pc k p)
    (hk : (s.pc k).responder ≠ some r)
    (hp : ∀ c, (s.pc k).wakes = some c → (s.proxy.chain c).getLast? = some r → p.wakes = some c)
    (hchain : ∀ c, (s.proxy.chain c).getLast? = some r → (t.proxy.chain c).getLast? = some r) :
    t.Clearing r := by
  obtain ⟨j, hj⟩ := hc
  by_cases hjk : j = k
  · subst hjk
    rcases hj with ⟨c, hj⟩ | ⟨c, hj, hl⟩
    · rw [hj] at hk
      exact absurd rfl hk
    · refine ⟨j, Or.inr ⟨c, ?_, hchain c hl⟩⟩
      rw [hpc, Function.update_self]
      exact hp c hj hl
  · have hsame : t.pc j = s.pc j := by
      rw [hpc, Function.update_of_ne hjk]
    rw [← hsame] at hj
    exact ⟨j, hj.imp_right fun ⟨c, hw, hl⟩ => ⟨c, hw, hchain c hl⟩⟩

theorem Clearing.mono_of_pc (hc : s.Clearing r) {p : Pc} (hpc : t.pc = Function.update s.pc k p)
    (hk : (s.pc k).responder ≠ some r) (hp : (s.pc k).wakes = none ∨ (s.pc k).wakes = p.wakes)
    (hchain : ∀ c, (s.proxy.chain c).getLast? = some r → (t.proxy.chain c).getLast? = some r) :
    t.Clearing r := by
  refine hc.move hpc hk (fun c hw _ => ?_) hchain
  rcases hp with hnone | heq
  · rw [hnone] at hw
    cases hw
  · rwa [heq] at hw

/-- The actor has a dispatched request that is still open, in the sense of `O`. -/
def Awaits (O : History → Nat → Prop) (s : Sys) (r : Ref) : Prop :=
  ∃ n < s.history.nreq, s.history.issuer n = r ∧ ¬ s.history.Undispatched n ∧ O s.history n

/-- What a notion of open request must satisfy: a request that has not been answered is open, and a step
that closes one handles a RESPONSE to it that goes to its issuer. -/
structure Closes (O : History → Nat → Prop) (s : Sys) (l : Label) (t : Sys) : Prop where
  opens : ∀ n < t.history.nreq, t.history.replies n = [] → O t.history n
  closes : ∀ n < s.history.nreq, O s.history n → ¬ O t.history n →
    ∃ k p, l = .read k (.response p) ∧ s.answered k p.callId = some n ∧
      s.history.holder n = s.history.issuer n

/-- An actor goes on awaiting an answer until a RESPONSE to it is handled. -/
theorem Awaits.step {O : History → Nat → Prop} (ha : Awaits O s r) (h : Move cfg s l t)
    (hO : Closes O s l t) : Awaits O t r ∨ ∃ k p n, l = .read k (.response p) ∧
      s.answered k p.callId = some n ∧ s.history.holder n = r := by
  obtain ⟨n, hn, hi, hu, ho⟩ := ha
  by_cases hot : O t.history n
  · refine Or.inl ⟨n, hn.trans_le h.grows.nreq, ?_, fun hut => hu (h.grows.undispatched hn hut), hot⟩
    rw [h.grows.issuer n hn]
    exact hi
  · obtain ⟨k, p, hl, hans, hholder⟩ := hO.closes n hn ho hot
    exact Or.inr ⟨k, p, n, hl, hans, hholder.trans hi⟩

/-- The pid of a taken request still belongs to the actor that issued it. -/
def PidKept (s : Sys) (k : Conn) : Prop :=
  ∀ x ∈ s.taken k, s.proxy.actorPidMap x.q.pack.pid = some (s.history.issuer x.q.serial)

theorem Departs.issuer_eq
    (hd : s.Departs cfg k af c q rest issuer select) (hpid : s.PidKept k) :
    issuer = s.history.issuer q.serial :=
  Option.some.inj (hd.issued.symm.trans (hpid _ hd.taken))

/-- A request is never dispatched to the actor that issued it. -/
theorem Departs.select_ne_issuer (hd : s.Departs cfg k af c q rest issuer select) (hs : Sound cfg s)
    (hpid : s.PidKept k) : select ≠ issuer := by
  rintro rfl
  obtain ⟨hn, hp, -, -, -, hgroup⟩ := hs.departs hd
  refine (hs.booked.entry q.serial hn).foreign ?_
  rw [hp, hgroup, ← hd.issuer_eq hpid]

/-- A dispatch pushes the callee on one chain. Its last actor had the request in its queue. -/
theorem Departs.clearing (hd : s.Departs cfg k af c q rest issuer select) (hs : Sound cfg s)
    (hc : s.Clearing r) {p : Pc} (hpc : t.pc = Function.update s.pc k p) (hp : p.wakes = c.pc.wakes)
    (hchain : ∀ d, t.proxy.chain d = (s.proxy.depart af rest q issuer select).chain d) :
    t.Clearing r ∨ r = af := by
  by_cases hr : r = af
  · exact Or.inr hr
  · refine Or.inl (hc.mono_of_pc hpc (by simp [hd.pc, Pc.responder]) (Or.inr ?_) fun d hlast => ?_)
    · rw [hd.pc, Pc.wakes_handle, hp]
    · rw [hchain, Registry.depart_chain]
      split
      · next heq =>
          have hq : q ∈ (s.proxy.actors af).msgQueue := hd.mem_queue
          rw [heq, hs.chain_last hq] at hlast
          exact absurd (Option.some.inj hlast).symm hr
      · exact hlast

/-- A flag that is going to be cleared is cleared, with a call of `handle_proxy_handle_request` for the
actor to follow, unless the actor is not waiting and dispatches a request. -/
theorem Clearing.step (hc : s.Clearing r) (h : Move cfg s l t) (hs : Sound cfg s) : t.Clearing r ∨
    ((t.proxy.actors r).isWaiting = false ∧ ∃ k c, t.pc k = .handle r c) ∨
    ∃ k c q rest issuer select, l = .run k ∧ s.Departs cfg k r c q rest issuer select := by
  cases h with
  | accept =>
      have hpc := hs.wired.absent _ le_rfl
      exact Or.inl (hc.mono_of_pc rfl (by simp [hpc, Pc.responder]) (Or.inl (by rw [hpc]; rfl)) fun _ hl => hl)
  | connect _ hk | readError _ hk | resumeConnack _ hk =>
      exact Or.inl (hc.mono_of_pc rfl (by simp [hk, Pc.responder]) (Or.inl (by rw [hk]; rfl)) fun _ hl => hl)
  | @request k p af _ hk haf =>
      rw [onRequest_eq haf]
      refine Or.inl (hc.mono_of_pc rfl (by simp [hk, Pc.responder]) (Or.inl (by rw [hk]; rfl)) fun c hl => ?_)
      rw [setPc_proxy, setProxy_proxy, Registry.emplace_chain]
      split
      · next hnone =>
          rw [Registry.setChain_chain]
          split
          · next hc =>
              rw [hc, Registry.chain, hnone] at hl
              cases hl
          · exact hl
      · exact hl
  | @response k p L back afSelf _ hk hchain =>
      left
      by_cases hr : r = afSelf
      · exact ⟨k, Or.inl ⟨p.callId, by simp [hr]⟩⟩
      · refine hc.mono_of_pc rfl (by simp [hk, Pc.responder]) (Or.inl (by rw [hk]; rfl)) fun c hl => ?_
        rw [startWrite_proxy, setProxy_proxy, Registry.setChain_chain, if_neg]
        · exact hl
        · rintro rfl
          rw [hchain, List.getLast?_append, List.getLast?_cons_cons, List.getLast?_singleton,
            Option.some_or] at hl
          exact hr (Option.some.inj hl).symm
  | stay => exact Or.inl hc
  | undefined => exact Or.inl hc
  | transfer => exact Or.inl hc
  | @resumeResponse k ec afSelf callId _ hk =>
      by_cases hr : r = afSelf
      · exact Or.inr (Or.inl ⟨by simp [Registry.updateActorInfo_isWaiting, hr], k, .wake callId, by simp [hr]⟩)
      · refine Or.inl (hc.mono_of_pc rfl ?_ (Or.inr (by rw [hk]; rfl)) fun _ hl => hl)
        rw [hk]
        exact fun heq => hr (Option.some.inj heq).symm
  | resumeRequest _ hk | rollback _ hk =>
      exact Or.inl (hc.mono_of_pc rfl (by simp [hk, Pc.responder]) (Or.inr (by rw [hk, Pc.wakes_request]))
        fun _ hl => hl)
  | idle _ hk =>
      exact Or.inl (hc.mono_of_pc rfl (by simp [hk, Pc.responder]) (Or.inr (by rw [hk, Pc.wakes_handle]))
        fun _ hl => hl)
  | refused ht =>
      exact Or.inl (hc.mono_of_pc rfl (by simp [ht.pc, Pc.responder])
        (Or.inr (by rw [ht.pc, Pc.wakes_handle])) fun _ hl => hl)
  | buffered hd =>
      refine Or.imp_right (fun hr => Or.inr ?_) (hd.clearing hs hc rfl rfl fun _ => rfl)
      exact ⟨_, _, _, _, _, _, rfl, hr ▸ hd⟩
  | writing hd =>
      refine Or.imp_right (fun hr => Or.inr ?_) (hd.clearing hs hc rfl (Pc.wakes_request _ _ _) fun _ => rfl)
      exact ⟨_, _, _, _, _, _, rfl, hr ▸ hd⟩
  | @wake k callId back _ hk hback =>
      by_cases hr : r = back
      · exact Or.inr (Or.inl ⟨by simp [Registry.updateActorInfo_isWaiting, hr], k, .loop, by simp [hr]⟩)
      · refine Or.inl (hc.move rfl (by simp [hk, Pc.responder]) (fun c hw hl => ?_) fun _ hl => hl)
        rw [hk] at hw
        obtain rfl := Option.some.inj hw
        rw [hback] at hl
        exact absurd (Option.some.inj hl).symm hr

/-- The RESPONSE to a request leaves its holder at the back of the chain. -/
theorem Sound.clearing_of_response (hs : Sound cfg s) (hst : Move cfg s (.read k (.response p)) t)
    (hrule : s.ResponseRule k p) (hans : s.answered k p.callId = some n) :
    t = s ∨ t = s.undefined ∨ t.Clearing (s.history.holder n) ∧ ∀ r ∈ s.history.written n, t.Clearing r := by
  cases hst with
  | stay => exact Or.inl rfl
  | undefined => exact Or.inr (Or.inl rfl)
  | response _ _ hchain =>
      obtain ⟨m, -, hans', -, -, hw, -, -, hback, -⟩ := hs.reply hrule hchain
      obtain rfl := Option.some.inj (hans.symm.trans hans')
      refine Or.inr (Or.inr ⟨⟨k, Or.inr ⟨p.callId, by simp [Pc.wakes], ?_⟩⟩, fun r hr => ?_⟩)
      · rw [startWrite_proxy, setProxy_proxy, Registry.setChain_chain, if_pos rfl, List.getLast?_concat, hback]
      · rw [hw, List.mem_singleton] at hr
        exact ⟨k, Or.inl ⟨p.callId, by simp [hr]⟩⟩

/-- The flag of an actor is set when a request of it is dispatched, and its `call_id` with it. -/
theorem Move.flag_set (h : Move cfg s l t) (hr : (t.proxy.actors r).isWaiting = true) :
    (s.proxy.actors r).isWaiting = true ∨ ∃ k af c q rest select, l = .run k ∧
      s.Departs cfg k af c q rest r select ∧ ¬ t.history.Undispatched q.serial ∧
      t.history.replies = s.history.replies ∧ (t.proxy.actors r).callId = q.pack.callId := by
  cases h with
  | connect =>
      simp only [onConnect, startWrite_proxy, setProxy_proxy, Function.update_apply] at hr
      split at hr
      · cases hr
      · exact Or.inl hr
  | request _ _ haf =>
      rw [onRequest_eq haf, setPc_proxy, setProxy_proxy, Registry.emplace_isWaiting,
        Registry.ite_setChain_actors] at hr
      exact Or.inl hr
  | resumeResponse | wake =>
      simp only [setPc_proxy, setProxy_proxy, Registry.updateActorInfo_isWaiting] at hr
      split at hr
      · cases hr
      · exact Or.inl hr
  | rollback =>
      simp only [returnTo_proxy, setProxy_proxy, Registry.updateActorInfo_isWaiting] at hr
      split at hr
      · cases hr
      · split at hr
        · cases hr
        · exact Or.inl hr
  | refused =>
      left
      simpa using hr
  | @buffered k af c q rest issuer select hd =>
      rw [returnTo_proxy, setProxy_proxy, Registry.emplace_isWaiting, Registry.depart_isWaiting] at hr
      split at hr
      · next heq =>
          subst heq
          refine Or.inr ⟨k, af, c, q, rest, select, rfl, hd, by simp [History.Undispatched], rfl, ?_⟩
          simp [Registry.emplace_callId, Registry.depart_callId]
      · exact Or.inl hr
  | @writing k af c q rest issuer select hd =>
      simp only [startWrite_proxy, setProxy_proxy, Registry.updateActorInfo_isWaiting,
        Registry.depart_isWaiting] at hr
      split at hr
      · cases hr
      · next hne =>
        split at hr
        · next heq =>
            subst heq
            refine Or.inr ⟨k, af, c, q, rest, select, rfl, hd, by simp [History.Undispatched], rfl, ?_⟩
            simp [Registry.updateActorInfo_callId, Registry.depart_callId, hne]
        · exact Or.inl hr
  | _ => exact Or.inl hr

/-- The flag of an actor is cleared for three reasons: its own RESPONSE was written, the write of a REQUEST
failed, or it is at the back of the chain of a RESPONSE. -/
theorem Move.flag_cleared (h : Move cfg s l t) (hr : r < s.proxy.nactors)
    (hw : (s.proxy.actors r).isWaiting = true) : (t.proxy.actors r).isWaiting = true ∨
      (∃ k c ec, l = .resume k ec ∧ s.pc k = .response r c) ∨
      (∃ k q select c, l = .resume k true ∧ s.pc k = .request q select c ∧ (s.write k).left ≠ [] ∧
        (r = select ∨ s.proxy.actorPidMap q.pack.pid = some r) ∧ t.history = s.history ∧
        t.pc = Function.update s.pc k c.pc) ∨
      ∃ k, l = .run k ∧ s.waking k = some r ∧ t.pc k = .handle r .loop ∧ t.history = s.history := by
  have hne : r ≠ s.proxy.nactors := hr.ne
  cases h with
  | connect =>
      left
      simpa [onConnect, Function.update_of_ne hne] using hw
  | request _ _ haf =>
      left
      rw [onRequest_eq haf, setPc_proxy, setProxy_proxy, Registry.emplace_isWaiting,
        Registry.ite_setChain_actors]
      exact hw
  | @resumeResponse k ec afSelf callId _ hk =>
      by_cases heq : r = afSelf
      · right
        left
        exact ⟨k, callId, ec, rfl, by rw [hk, heq]⟩
      · left
        simpa [Registry.updateActorInfo_isWaiting, heq] using hw
  | @rollback k q select c issuer _ hk hleft hissuer =>
      by_cases heq : r = select ∨ r = issuer
      · refine Or.inr (Or.inr (Or.inl ⟨k, q, select, c, rfl, hk, hleft, ?_, rfl, rfl⟩))
        exact heq.imp_right fun hri => by rw [hissuer, hri]
      · left
        rw [not_or] at heq
        simpa [Registry.updateActorInfo_isWaiting, heq.1, heq.2] using hw
  | refused =>
      left
      simpa using hw
  | buffered =>
      left
      rw [returnTo_proxy, setProxy_proxy, Registry.emplace_isWaiting, Registry.depart_isWaiting, hw]
      exact ite_self _
  | @writing k af c q rest issuer select _ hsw =>
      left
      rw [Registry.depart_isWaiting] at hsw
      have hselect : r ≠ select := by
        rintro rfl
        rw [hw, ite_self] at hsw
        cases hsw
      rw [startWrite_proxy, setProxy_proxy, Registry.updateActorInfo_isWaiting, if_neg hselect,
        Registry.depart_isWaiting, hw]
      exact ite_self _
  | @wake k callId back _ hk hback =>
      by_cases heq : r = back
      · right
        right
        right
        exact ⟨k, rfl, by simp only [waking, hk, hback, heq], by simp [heq], rfl⟩
      · left
        simpa [Registry.updateActorInfo_isWaiting, heq] using hw
  | _ => exact Or.inl hw

theorem Departs.awaits {O : History → Nat → Prop} (hd : s.Departs cfg k af c q rest issuer select)
    (h : Move cfg s (.run k) t) (hs : Sound cfg s) (hO : Closes O s (.run k) t) (hpid : s.PidKept k)
    (hu : ¬ t.history.Undispatched q.serial) (hrep : t.history.replies = s.history.replies) :
    Awaits O t issuer := by
  obtain ⟨hn, -, hw, -⟩ := hs.departs hd
  have hn' := hn.trans_le h.grows.nreq
  refine ⟨q.serial, hn', ?_, hu, hO.opens _ hn' ?_⟩
  · rw [h.grows.issuer _ hn, hd.issuer_eq hpid]
  · rw [hrep]
    exact hs.booked.replies_nil hn hw

theorem Awaits.kept {O : History → Nat → Prop} (ha : Awaits O s r) (h : Move cfg s l t) (hs : Sound cfg s)
    (hrule : Lawful cfg s l) (hO : Closes O s l t) : Awaits O t r ∨ t.Clearing r := by
  rcases ha.step h hO with ha' | ⟨k, p, n, rfl, hans, rfl⟩
  · exact Or.inl ha'
  · rcases hs.clearing_of_response h hrule.1 hans with rfl | rfl | ⟨hc, -⟩
    · exact Or.inl ha
    · exact Or.inl ha
    · exact Or.inr hc

/-- A set flag belongs to an actor that awaits an answer, or will be cleared. -/
def FlagsMeant (O : History → Nat → Prop) (s : Sys) : Prop :=
  ∀ r, (s.proxy.actors r).isWaiting = true → Awaits O s r ∨ s.Clearing r

/-- What a set flag meant keeps: the actor awaits an answer, or its flag will be cleared or has been. -/
theorem FlagsMeant.kept {O : History → Nat → Prop} (hi : FlagsMeant O s) (h : Move cfg s l t)
    (hs : Sound cfg s) (hrule : Lawful cfg s l) (hO : Closes O s l t)
    (hr : (s.proxy.actors r).isWaiting = true) :
    Awaits O t r ∨ t.Clearing r ∨ (t.proxy.actors r).isWaiting = false ∧ ∃ k c, t.pc k = .handle r c := by
  rcases hi r hr with ha | hc
  · exact (ha.kept h hs hrule hO).imp_right Or.inl
  · rcases hc.step h hs with hc' | hcleared | ⟨k, c, q, rest, issuer, select, -, hd⟩
    · exact Or.inr (Or.inl hc')
    · exact Or.inr (Or.inr hcleared)
    · rw [hd.free] at hr
      cases hr

theorem FlagsMeant.step {O : History → Nat → Prop} (hi : FlagsMeant O s) (h : Move cfg s l t)
    (hs : Sound cfg s) (hrule : Lawful cfg s l) (hO : Closes O s l t)
    (hpid : ∀ k, l = .run k → s.PidKept k) : FlagsMeant O t := by
  intro r hr
  rcases h.flag_set hr with hold | ⟨k, af, c, q, rest, select, rfl, hd, hu, hrep, -⟩
  · rcases hi.kept h hs hrule hO hold with ha | hc | ⟨hfalse, -⟩
    · exact Or.inl ha
    · exact Or.inr hc
    · rw [hfalse] at hr
      cases hr
  · exact Or.inl (hd.awaits h hs hO (hpid k rfl) hu hrep)

end Sys

end CoroActor.Proxy
