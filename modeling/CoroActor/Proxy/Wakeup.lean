import CoroActor.Proxy.Flags

/-! What will make the proxy look at a queue again. A queue is served when its actor sends a REQUEST, when
its RESPONSE is handled, and when it is at the back of the chain of a RESPONSE; each time one request is
taken. -/

namespace CoroActor.Proxy

open TransitionSystem

namespace Sys

variable {cfg : Setting} {s t : Sys} {l : Label} {k : Conn} {n : Nat} {r af issuer select : Ref}
  {c : Cont} {q : Queued} {rest : List Queued}

/-- A REQUEST was written to the actor, and its RESPONSE has not been handled. -/
def Serving (s : Sys) (r : Ref) : Prop :=
  ∃ n < s.history.nreq, s.history.written n = [r] ∧ s.history.replies n = []

instance (s : Sys) (r : Ref) : Decidable (s.Serving r) :=
  inferInstanceAs (Decidable (∃ n < s.history.nreq, _ ∧ _))

/-- The RESPONSE to the request has not been handled. -/
abbrev Unreplied (h : History) (n : Nat) : Prop := h.replies n = []

theorem Serving.step (hi : s.Serving r) (h : Move cfg s l t) (hs : Sound cfg s) (ht : Sound cfg t)
    (hrule : Lawful cfg s l) : t.Serving r ∨ t.Clearing r := by
  obtain ⟨n, hn, hw, hr⟩ := hi
  have hn' := hn.trans_le h.grows.nreq
  by_cases hsame : t.history.replies n = s.history.replies n
  · refine Or.inl ⟨n, hn', ?_, hsame.trans hr⟩
    refine ht.booked.written_eq hn' ((h.grows.written n hn).subset ?_)
    rw [hw]
    exact List.mem_singleton_self r
  · obtain ⟨k, p, rfl, hans, -⟩ := h.replied hs hrule hn hsame
    rcases hs.clearing_of_response h hrule.1 hans with rfl | rfl | ⟨-, hc⟩
    · exact absurd rfl hsame
    · exact absurd rfl hsame
    · exact Or.inr (hc r (by rw [hw]; exact List.mem_singleton_self r))

/-- The step strands nobody: a request that was buffered is not refused when it is taken again, the pid of
a taken request still belongs to its issuer, and what is left in the queue has somebody to wake it: the
actor serves a REQUEST, or what it takes is dispatched and is its own request or goes to the actor itself.
No write of a REQUEST fails, and a RESPONSE is for a request that was never buffered. -/
def KeepsAwake (cfg : Setting) (s : Sys) : Label → Prop
  | .run k => ∀ x ∈ s.taken k,
      (s.history.buffered x.q.serial ≠ [] → (s.destination cfg x).isOk = true) ∧
      s.proxy.actorPidMap x.q.pack.pid = some (s.history.issuer x.q.serial) ∧
      (x.rest ≠ [] → s.Serving x.af ∨
        (s.destination cfg x).isOk = true ∧
          (s.history.issuer x.q.serial = x.af ∨ (s.destination cfg x).toOption = some x.af))
  | .resume k ec => ec = true → (s.pc k).requests = false
  | .read k (.response p) => ∀ n ∈ s.answered k p.callId, s.history.buffered n = []
  | _ => True

instance (cfg : Setting) (s : Sys) : (l : Label) → Decidable (KeepsAwake cfg s l)
  | .run k => inferInstanceAs (Decidable (∀ x ∈ s.taken k, _))
  | .resume _ ec => inferInstanceAs (Decidable (ec = true → _))
  | .read k (.response p) => inferInstanceAs (Decidable (∀ n ∈ s.answered k p.callId, _))
  | .read _ (.connect _) | .read _ (.request _) | .read _ (.other _) | .accept | .readError _
  | .transfer .. => inferInstanceAs (Decidable True)

theorem Move.closes_unreplied (h : Move cfg s l t) (hs : Sound cfg s) (hrule : Lawful cfg s l)
    (hok : KeepsAwake cfg s l) : Closes Unreplied s l t := by
  refine ⟨fun n _ hr => hr, fun n hn hr hne => ?_⟩
  obtain ⟨k, p, rfl, hans, -⟩ := h.replied hs hrule hn fun heq => hne (heq.trans hr)
  exact ⟨k, p, rfl, hans, History.holder_of_buffered_nil (hok n hans)⟩

/-- Something is owed to the actor, or a coroutine is about to serve its queue. -/
def Cared (s : Sys) (r : Ref) : Prop :=
  Awaits Unreplied s r ∨ s.Serving r ∨ s.Clearing r ∨ ∃ k c, s.pc k = .handle r c

theorem Move.queue_grown (h : Move cfg s l t) (hs : Sound cfg s) (hq : (t.proxy.actors r).msgQueue ≠ []) :
    (s.proxy.actors r).msgQueue ≠ [] ∨ (∃ k c, t.pc k = .handle r c) ∨
      ∃ k af c q rest issuer, l = .run k ∧ s.Departs cfg k af c q rest issuer r ∧
        ((s.proxy.depart af rest q issuer r).actors r).isWaiting = true := by
  cases h with
  | connect =>
      rw [hs.wired.onConnect_msgQueue] at hq
      exact Or.inl hq
  | @request k p af _ _ haf =>
      rw [onRequest_eq haf] at hq ⊢
      rw [setPc_proxy, setProxy_proxy, Registry.emplace_msgQueue] at hq
      split at hq
      · next hr => exact Or.inr (Or.inl ⟨k, .loop, by simp [hr]⟩)
      · left
        rwa [Registry.ite_setChain_actors] at hq
  | resumeResponse | rollback | wake =>
      left
      simpa using hq
  | @refused k af c q rest why ht =>
      left
      rw [returnTo_proxy, setProxy_proxy, Registry.setMsgQueue_msgQueue] at hq
      split at hq
      · next hr =>
          rw [hr, ht.queue]
          exact List.cons_ne_nil _ _
      · exact hq
  | @buffered k af c q rest issuer select hd hsw =>
      rw [returnTo_proxy, setProxy_proxy, Registry.emplace_msgQueue] at hq
      split at hq
      · next hr =>
          subst hr
          exact Or.inr (Or.inr ⟨k, af, c, q, rest, issuer, rfl, hd, hsw⟩)
      · left
        rw [Registry.depart_msgQueue] at hq
        split at hq
        · next hr =>
            rw [hr, hd.queue]
            exact List.cons_ne_nil _ _
        · exact hq
  | @writing k af c q rest issuer select hd hsw =>
      left
      rw [startWrite_proxy, setProxy_proxy, Registry.updateActorInfo_msgQueue, Registry.depart_msgQueue] at hq
      split at hq
      · next hr =>
          rw [hr, hd.queue]
          exact List.cons_ne_nil _ _
      · exact hq
  | _ => exact Or.inl hq

/-- After a request is taken, what is left in the queue is cared for. -/
theorem Takes.cared (htakes : s.Takes k r c q rest) (h : Move cfg s (.run k) t) (hs : Orderly cfg s)
    (ht : Orderly cfg t) (hrule : Lawful cfg s (.run k)) (hok : KeepsAwake cfg s (.run k))
    (hq : (t.proxy.actors r).msgQueue ≠ []) : Cared t r := by
  obtain ⟨-, hpid, hleft⟩ := hok _ htakes.taken
  have hpidKept : s.PidKept k := fun x hx => (hok x hx).2.1
  have hO := h.closes_unreplied hs.toSound hrule hok
  -- when something is left, the condition on the step names who will wake the actor
  have hcare : rest ≠ [] → ∀ {issuer select}, s.Departs cfg k r c q rest issuer select →
      ¬ t.history.Undispatched q.serial → t.history.replies = s.history.replies →
      (select = r → t.Serving r) → Cared t r := by
    intro hrest issuer select hd hu hrep hself
    rcases hleft hrest with hserving | ⟨-, hown | hdest⟩
    · rcases hserving.step h hs.toSound ht.toSound hrule with hs' | hc
      · exact Or.inr (Or.inl hs')
      · exact Or.inr (Or.inr (Or.inl hc))
    · have ha := hd.awaits h hs.toSound hO hpidKept hu hrep
      rw [hd.issuer_eq hpidKept, hown] at ha
      exact Or.inl ha
    · rw [destination, hd.route] at hdest
      exact Or.inr (Or.inl (hself (Option.some.inj hdest)))
  cases h with
  | stay => exact Or.inr (Or.inr (Or.inr ⟨k, c, htakes.pc⟩))
  | undefined => exact Or.inr (Or.inr (Or.inr ⟨k, c, htakes.pc⟩))
  | idle _ hk hidle =>
      obtain ⟨rfl, rfl⟩ := Pc.handle.inj (htakes.pc.symm.trans hk)
      rcases hidle with hnil | hwait
      · rw [htakes.queue] at hnil
        cases hnil
      · rw [htakes.free] at hwait
        cases hwait
  | wake _ hk =>
      rw [htakes.pc] at hk
      cases hk
  | @refused _ af _ q' rest' _ ht' hroute =>
      obtain ⟨rfl, rfl, rfl, rfl⟩ := htakes.unique ht'
      have hrest : rest ≠ [] := by
        rw [returnTo_proxy, setProxy_proxy, Registry.setMsgQueue_msgQueue, if_pos rfl] at hq
        exact hq
      rcases hleft hrest with ⟨n, hn, hw, hr⟩ | ⟨hisOk, -⟩
      · exact Or.inr (Or.inl ⟨n, hn, hw, hr⟩)
      · rw [destination, hroute] at hisOk
        cases hisOk
  | @buffered _ af _ q' rest' issuer select hd hsw =>
      obtain ⟨rfl, rfl, rfl, rfl⟩ := htakes.unique hd.toTakes
      -- the actor is not waiting, so that its request is not buffered at itself
      have hselect : select ≠ r := by
        rintro rfl
        rw [Registry.depart_isWaiting, if_neg (hd.select_ne_issuer hs.toSound hpidKept), hd.free] at hsw
        cases hsw
      have hrest : rest ≠ [] := by
        rw [returnTo_proxy, setProxy_proxy, Registry.emplace_msgQueue, if_neg (Ne.symm hselect),
          Registry.depart_msgQueue, if_pos rfl] at hq
        exact hq
      exact hcare hrest hd (by simp [History.Undispatched]) rfl fun heq => absurd heq hselect
  | @writing _ af _ q' rest' issuer select hd hsw =>
      obtain ⟨rfl, rfl, rfl, rfl⟩ := htakes.unique hd.toTakes
      obtain ⟨hn, -, hw, -⟩ := hs.departs hd
      have hrest : rest ≠ [] := by
        rw [startWrite_proxy, setProxy_proxy, Registry.updateActorInfo_msgQueue, Registry.depart_msgQueue,
          if_pos rfl] at hq
        exact hq
      refine hcare hrest hd (by simp [History.Undispatched]) rfl ?_
      rintro rfl
      exact ⟨q.serial, hn, by simp [hw], hs.booked.replies_nil hn hw⟩

/-- A queue with something in it is cared for. -/
def QueuesCared (s : Sys) : Prop := ∀ r, (s.proxy.actors r).msgQueue ≠ [] → Cared s r

theorem QueuesCared.step (hi : QueuesCared s) (hflags : FlagsMeant Unreplied s) (h : Move cfg s l t)
    (hs : Orderly cfg s) (ht : Orderly cfg t) (hrule : Lawful cfg s l) (hok : KeepsAwake cfg s l) :
    QueuesCared t := by
  intro r hq
  have hO := h.closes_unreplied hs.toSound hrule hok
  have hflag : (s.proxy.actors r).isWaiting = true → Cared t r := fun hw => by
    rcases hflags.kept h hs.toSound hrule hO hw with ha | hc | ⟨-, hhandle⟩
    · exact Or.inl ha
    · exact Or.inr (Or.inr (Or.inl hc))
    · exact Or.inr (Or.inr (Or.inr hhandle))
  rcases h.queue_grown hs.toSound hq with hqs | hhandle | ⟨k, af, c, q, rest, issuer, rfl, hd, hw⟩
  · rcases hi r hqs with ha | hserving | hc | ⟨k, c, hk⟩
    · rcases ha.kept h hs.toSound hrule hO with ha' | hc
      · exact Or.inl ha'
      · exact Or.inr (Or.inr (Or.inl hc))
    · rcases hserving.step h hs.toSound ht.toSound hrule with hs' | hc
      · exact Or.inr (Or.inl hs')
      · exact Or.inr (Or.inr (Or.inl hc))
    · rcases hc.step h hs.toSound with hc' | ⟨-, hhandle⟩ | ⟨k, c, q, rest, issuer, select, rfl, hd⟩
      · exact Or.inr (Or.inr (Or.inl hc'))
      · exact Or.inr (Or.inr (Or.inr hhandle))
      · exact hd.toTakes.cared h hs ht hrule hok hq
    · have hrun := (hs.controlled k).mp (by rw [hk]; rfl)
      rcases h.of_running hrun with rfl | rfl | rfl
      · by_cases hw : (s.proxy.actors r).isWaiting = true
        · exact hflag hw
        · obtain ⟨q, rest, hqr⟩ := List.exists_cons_of_ne_nil hqs
          have htakes : s.Takes k r c q rest := ⟨hrun, hk, hqr, by simpa using hw⟩
          exact htakes.cared h hs ht hrule hok hq
      · exact Or.inr (Or.inr (Or.inr ⟨k, c, hk⟩))
      · exact Or.inr (Or.inr (Or.inr ⟨k, c, hk⟩))
  · exact Or.inr (Or.inr (Or.inr hhandle))
  · have hne := hd.select_ne_issuer hs.toSound fun x hx => (hok x hx).2.1
    rw [Registry.depart_isWaiting, if_neg hne] at hw
    exact hflag hw

/-- Something is owed that will make the proxy serve the queue of the actor: the answer to a request of
its own, which is in the queue of a callee or was delivered to one, or its answer to a REQUEST that was
delivered to it. -/
def Owed (s : Sys) (r : Ref) : Prop :=
  (∃ n < s.history.nreq, s.history.issuer n = r ∧ s.history.replies n = [] ∧
    ((∃ b < s.proxy.nactors, b ≠ r ∧ ∃ q ∈ (s.proxy.actors b).msgQueue, q.serial = n) ∨
      s.history.written n ≠ [] ∧ s.history.delivered n = true)) ∨
  ∃ n < s.history.nreq, s.history.written n = [r] ∧ s.history.delivered n = true ∧
    s.history.replies n = []

instance (s : Sys) (r : Ref) : Decidable (s.Owed r) :=
  inferInstanceAs (Decidable ((∃ n < s.history.nreq, _ ∧ _ ∧ ((∃ b < s.proxy.nactors, _ ∧ _) ∨ _)) ∨
    ∃ n < s.history.nreq, _))

end Sys

end CoroActor.Proxy
