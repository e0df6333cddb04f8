import CoroActor.Proxy.Control

/-! Where a request is. It waits in a queue until it is written or dropped, a REQUEST or RESPONSE frame
is on its way out until its write completes or fails, and in the runs in which nothing is dropped, fails
or is misrouted every request is in one place. -/

namespace CoroActor.Proxy

open TransitionSystem

namespace Sys

variable {cfg : Setting} {s t : Sys} {l : Label} {k : Conn} {n : Nat}

/-- The request is in the queue of an actor. -/
def Waits (s : Sys) (n : Nat) : Prop := ∃ r, ∃ q ∈ (s.proxy.actors r).msgQueue, q.serial = n

theorem Waits.of_queues (h : s.Waits n)
    (hq : ∀ r, ∀ q ∈ (s.proxy.actors r).msgQueue, q.serial = n → ∃ r', q ∈ (t.proxy.actors r').msgQueue) :
    t.Waits n := by
  obtain ⟨r, q, hmem, hn⟩ := h
  obtain ⟨r', hr'⟩ := hq r q hmem hn
  exact ⟨r', q, hr', hn⟩

/-- A request leaves the queues when it is written, or when it is taken and refused. -/
theorem Move.waits (h : Move cfg s l t) (hs : Sound cfg s) (hn : s.Waits n) :
    t.Waits n ∨ t.history.written n ≠ [] ∨
      ∃ k x why, l = .run k ∧ s.taken k = some x ∧ s.destination cfg x = .error why ∧ x.q.serial = n := by
  have hpop : ∀ {k : Conn} {af : Ref} {c : Cont} {q : Queued} {rest : List Queued}, s.Takes k af c q rest →
      q.serial ≠ n → ∀ r, ∀ q' ∈ (s.proxy.actors r).msgQueue, q'.serial = n →
        q' ∈ ((s.proxy.setMsgQueue af rest).actors r).msgQueue := by
    intro k af c q rest ht hne r q' hq' hn'
    rw [Registry.setMsgQueue_msgQueue]
    split
    · next hr =>
        rw [hr, ht.queue, List.mem_cons] at hq'
        exact hq'.resolve_left fun heq => hne (by rw [← hn', heq])
    · exact hq'
  cases h with
  | request _ _ haf =>
      left
      rw [onRequest_eq haf]
      refine hn.of_queues fun r q hq _ => ⟨r, ?_⟩
      rw [setPc_proxy, setProxy_proxy, Registry.emplace_msgQueue, Registry.ite_setChain_actors]
      split
      · next hr =>
          rw [hr] at hq
          exact List.mem_append_left _ hq
      · exact hq
  | connect => exact Or.inl (hn.of_queues fun r q hq _ => ⟨r, by rwa [hs.wired.onConnect_msgQueue]⟩)
  | @refused k af c q rest why ht hroute =>
      by_cases hqn : q.serial = n
      · exact Or.inr (Or.inr ⟨k, _, why, rfl, ht.taken, hroute, hqn⟩)
      · exact Or.inl (hn.of_queues fun r q' hq' hn' => ⟨r, hpop ht hqn r q' hq' hn'⟩)
  | @buffered k af c q rest issuer select hd hsw =>
      left
      have hqueue : ∀ r, ((((s.proxy.depart af rest q issuer select).emplace select q)).actors r).msgQueue =
          if r = select then ((s.proxy.setMsgQueue af rest).actors select).msgQueue ++ [q]
          else ((s.proxy.setMsgQueue af rest).actors r).msgQueue := fun r => by
        simp only [Registry.emplace, Registry.depart, Registry.setMsgQueue_msgQueue,
          Registry.setChain_actors, Registry.updateActorInfo_msgQueue]
      by_cases hqn : q.serial = n
      · refine ⟨select, q, ?_, hqn⟩
        rw [returnTo_proxy, setProxy_proxy, hqueue, if_pos rfl]
        exact List.mem_append_right _ (List.mem_singleton_self q)
      · refine hn.of_queues fun r q' hq' hn' => ⟨r, ?_⟩
        have hmem := hpop hd.toTakes hqn r q' hq' hn'
        rw [returnTo_proxy, setProxy_proxy, hqueue]
        split
        · next hr =>
            rw [hr] at hmem
            exact List.mem_append_left _ hmem
        · exact hmem
  | @writing k af c q rest issuer select hd hsw =>
      by_cases hqn : q.serial = n
      · right
        left
        simp [hqn]
      · left
        refine hn.of_queues fun r q' hq' hn' => ⟨r, ?_⟩
        simpa [Registry.depart] using hpop hd.toTakes hqn r q' hq' hn'
  | resumeResponse | rollback | wake =>
      exact Or.inl (hn.of_queues fun r q hq _ => ⟨r, by simpa using hq⟩)
  | _ => exact Or.inl hn

/-- A request comes into a queue by being read, or from another queue. -/
theorem Move.waited (h : Move cfg s l t) (hs : Sound cfg s) (hlt : n < s.history.nreq) (hn : t.Waits n) :
    s.Waits n := by
  have hpop : ∀ {k : Conn} {af : Ref} {c : Cont} {q : Queued} {rest : List Queued}, s.Takes k af c q rest →
      ∀ {r : Ref} {q' : Queued}, (q' ∈ if r = af then rest else (s.proxy.actors r).msgQueue) →
        q' ∈ (s.proxy.actors r).msgQueue := by
    intro k af c q rest ht r q' hq'
    split at hq'
    · next hr =>
        rw [hr, ht.queue]
        exact List.mem_cons_of_mem _ hq'
    · exact hq'
  obtain ⟨r, q', hq', rfl⟩ := hn
  cases h with
  | connect =>
      rw [hs.wired.onConnect_msgQueue] at hq'
      exact ⟨r, q', hq', rfl⟩
  | request _ _ haf =>
      rw [onRequest_eq haf, setPc_proxy, setProxy_proxy, Registry.emplace_msgQueue,
        Registry.ite_setChain_actors] at hq'
      split at hq'
      · rcases List.mem_append.mp hq' with hmem | hmem
        · exact ⟨_, q', hmem, rfl⟩
        · rw [List.mem_singleton.mp hmem] at hlt
          exact absurd hlt (lt_irrefl _)
      · exact ⟨r, q', hq', rfl⟩
  | refused ht =>
      rw [returnTo_proxy, setProxy_proxy, Registry.setMsgQueue_msgQueue] at hq'
      exact ⟨r, q', hpop ht hq', rfl⟩
  | @buffered k af c q rest issuer select hd =>
      rw [returnTo_proxy, setProxy_proxy, Registry.emplace_msgQueue, Registry.depart_msgQueue,
        Registry.depart_msgQueue] at hq'
      split at hq'
      · next hr =>
          rcases List.mem_append.mp hq' with hmem | hmem
          · exact ⟨select, q', hpop hd.toTakes hmem, rfl⟩
          · exact ⟨af, q, hd.mem_queue, by rw [List.mem_singleton.mp hmem]⟩
      · exact ⟨r, q', hpop hd.toTakes hq', rfl⟩
  | writing hd =>
      rw [startWrite_proxy, setProxy_proxy, Registry.updateActorInfo_msgQueue, Registry.depart_msgQueue] at hq'
      exact ⟨r, q', hpop hd.toTakes hq', rfl⟩
  | resumeResponse | rollback | wake => exact ⟨r, q', by simpa using hq', rfl⟩
  | _ => exact ⟨r, q', hq', rfl⟩

/-- A REQUEST is on its way to the callee. -/
def Requesting (s : Sys) (n : Nat) : Prop := ∃ k q select c, s.pc k = .request q select c ∧ q.serial = n

/-- The RESPONSE to a request is on its way. -/
def Responding (s : Sys) (n : Nat) : Prop :=
  ∃ k afSelf c, s.pc k = .response afSelf c ∧ (s.write k).carries = .response (some n)

theorem Move.pc_of_writing (h : Move cfg s l t) (hs : Wired s) (hk : (s.pc k).writing = true) :
    (t.pc k = s.pc k ∧ (t.write k).carries = (s.write k).carries) ∨
      ∃ ec, l = .resume k ec ∧ (ec = true ↔ (s.write k).left ≠ []) := by
  have hne : ∀ {j : Conn} {p : Pc}, s.pc j = p → p.writing = false → k ≠ j := by
    rintro j p hp hw rfl
    rw [hp, hw] at hk
    cases hk
  cases h with
  | accept =>
      left
      simp [Function.update_of_ne (hne (hs.absent _ le_rfl) rfl)]
  | connect _ hj =>
      left
      simp [onConnect, Function.update_of_ne (hne hj rfl)]
  | request _ hj haf =>
      left
      rw [onRequest_eq haf]
      simp [Function.update_of_ne (hne hj rfl)]
  | response _ hj | readError _ hj | idle _ hj | wake _ hj =>
      left
      simp [Function.update_of_ne (hne hj rfl)]
  | refused ht =>
      left
      simp [Function.update_of_ne (hne ht.pc rfl)]
  | buffered hd | writing hd =>
      left
      simp [Function.update_of_ne (hne hd.pc rfl)]
  | @transfer j count =>
      left
      refine ⟨rfl, ?_⟩
      simp only [onTransfer, Function.update_apply]
      split
      · next hj => rw [hj]
      · rfl
  | @resumeConnack j ec _ hj hleft =>
      by_cases hjk : k = j
      · subst hjk
        exact Or.inr ⟨ec, rfl, hleft⟩
      · left
        simp [Function.update_of_ne hjk]
  | @resumeResponse j ec _ _ _ hj hleft =>
      by_cases hjk : k = j
      · subst hjk
        exact Or.inr ⟨ec, rfl, hleft⟩
      · left
        simp [Function.update_of_ne hjk]
  | @resumeRequest j _ _ _ _ hj hleft =>
      by_cases hjk : k = j
      · subst hjk
        exact Or.inr ⟨false, rfl, by simp [hleft]⟩
      · left
        simp [Function.update_of_ne hjk]
  | @rollback j _ _ _ _ _ hj hleft =>
      by_cases hjk : k = j
      · subst hjk
        exact Or.inr ⟨true, rfl, by simp [hleft]⟩
      · left
        simp [Function.update_of_ne hjk]
  | _ => exact Or.inl ⟨rfl, rfl⟩

theorem Move.requesting (h : Move cfg s l t) (hs : Orderly cfg s) (hn : s.Requesting n) :
    t.Requesting n ∨ t.history.delivered n = true ∨ ∃ k, l = .resume k true ∧ (s.pc k).requests = true := by
  obtain ⟨k, q, select, c, hk, rfl⟩ := hn
  rcases h.pc_of_writing hs.wired (by rw [hk]; rfl) with ⟨hpc, -⟩ | ⟨ec, rfl, hec⟩
  · exact Or.inl ⟨k, q, select, c, hpc.trans hk, rfl⟩
  · right
    obtain ⟨-, hlt, -, hdelivered⟩ := hs.at_request hk
    cases ec with
    | true => exact Or.inr ⟨k, rfl, by rw [hk]; rfl⟩
    | false => exact Or.inl (h.grows.delivered _ hlt (hdelivered (by simpa using hec)))

theorem Move.responding (h : Move cfg s l t) (hs : Orderly cfg s) (hn : s.Responding n) :
    t.Responding n ∨ t.history.returned n = true ∨
      ∃ k afSelf c, l = .resume k true ∧ s.pc k = .response afSelf c := by
  obtain ⟨k, afSelf, c, hk, hcarries⟩ := hn
  rcases h.pc_of_writing hs.wired (by rw [hk]; rfl) with ⟨hpc, hsame⟩ | ⟨ec, rfl, hec⟩
  · exact Or.inl ⟨k, afSelf, c, hpc.trans hk, hsame.trans hcarries⟩
  · right
    obtain ⟨-, -, -, m, hlt, hm, -, hreturned⟩ := hs.at_response hk
    obtain rfl : m = n := by
      rw [hm] at hcarries
      simpa using hcarries
    cases ec with
    | true => exact Or.inr ⟨k, afSelf, c, rfl, hk⟩
    | false => exact Or.inl (h.grows.returned m hlt (hreturned (by simpa using hec)))

/-- A request that is written is being written. -/
theorem Move.newly_written (h : Move cfg s l t) (hn : n < t.history.nreq)
    (hw : t.history.written n ≠ []) :
    (n < s.history.nreq ∧ s.history.written n ≠ []) ∨ t.Requesting n := by
  cases h with
  | request _ _ haf =>
      rw [onRequest_eq haf] at hn hw
      rcases Nat.lt_succ_iff_lt_or_eq.mp hn with hlt | rfl
      · simp only [setPc_history, setProxy_history, History.issue_written,
          Function.update_of_ne hlt.ne] at hw
        exact Or.inl ⟨hlt, hw⟩
      · simp at hw
  | @writing k af c q rest issuer select hd =>
      by_cases hqn : n = q.serial
      · exact Or.inr ⟨k, q, select, c, by simp, hqn.symm⟩
      · simp only [startWrite_history, History.frame_written, setProxy_history, History.send_written,
          Function.update_of_ne hqn] at hw
        exact Or.inl ⟨hn, hw⟩
  | transfer =>
      rw [onTransfer_history] at hn hw
      exact Or.inl ⟨hn, hw⟩
  | _ => exact Or.inl ⟨hn, hw⟩

theorem Move.newly_replied (h : Move cfg s l t) (hn : n < t.history.nreq)
    (hr : t.history.replies n ≠ []) :
    (n < s.history.nreq ∧ s.history.replies n ≠ []) ∨ t.Responding n := by
  cases h with
  | request _ _ haf =>
      rw [onRequest_eq haf] at hn hr
      rcases Nat.lt_succ_iff_lt_or_eq.mp hn with hlt | rfl
      · simp only [setPc_history, setProxy_history, History.issue_replies,
          Function.update_of_ne hlt.ne] at hr
        exact Or.inl ⟨hlt, hr⟩
      · simp at hr
  | @response k p L back afSelf =>
      cases hans : s.answered k p.callId with
      | none =>
          rw [hans] at hr
          exact Or.inl ⟨hn, hr⟩
      | some m =>
          by_cases hmn : n = m
          · exact Or.inr ⟨k, afSelf, p.callId, by simp, by simp [hmn]⟩
          · rw [hans] at hr
            simp only [startWrite_history, History.frame_replies, setProxy_history, History.reply_replies,
              Function.update_of_ne hmn] at hr
            exact Or.inl ⟨hn, hr⟩
  | transfer =>
      rw [onTransfer_history] at hn hr
      exact Or.inl ⟨hn, hr⟩
  | _ => exact Or.inl ⟨hn, hr⟩

/-- Only the RESPONSE to a request adds to its answers. -/
theorem Move.replied (h : Move cfg s l t) (hs : Sound cfg s) (hrule : Lawful cfg s l)
    (hn : n < s.history.nreq) (hne : t.history.replies n ≠ s.history.replies n) :
    ∃ k p, l = .read k (.response p) ∧ s.answered k p.callId = some n ∧
      t.history.replies n = [s.history.holder n] := by
  cases h with
  | request _ _ haf =>
      rw [onRequest_eq haf] at hne
      simp [Function.update_of_ne hn.ne] at hne
  | @response k p L back afSelf _ _ hchain =>
      obtain ⟨m, -, hans, hlive, -, -, -, -, hback, -⟩ := hs.reply hrule.1 hchain
      by_cases hnm : n = m
      · subst hnm
        exact ⟨k, p, rfl, hans, by simp [hans, hlive.2, hback]⟩
      · simp [hans, Function.update_of_ne hnm] at hne
  | transfer =>
      rw [onTransfer_history] at hne
      exact absurd rfl hne
  | _ => exact absurd rfl hne

/-- Every REQUEST frame has gone out whole or is on its way. -/
def RequestsSent (s : Sys) : Prop :=
  ∀ n < s.history.nreq, s.history.written n ≠ [] → s.history.delivered n = true ∨ s.Requesting n

/-- Every RESPONSE frame has gone out whole or is on its way. -/
def ResponsesSent (s : Sys) : Prop :=
  ∀ n < s.history.nreq, s.history.replies n ≠ [] → s.history.returned n = true ∨ s.Responding n

theorem RequestsSent.step (hi : RequestsSent s) (h : Move cfg s l t) (hs : Orderly cfg s)
    (hok : ∀ k, l = .resume k true → (s.pc k).requests = false) : RequestsSent t := by
  intro n hn hw
  rcases h.newly_written hn hw with ⟨hlt, hold⟩ | hnew
  · rcases hi n hlt hold with hd | hreq
    · exact Or.inl (h.grows.delivered n hlt hd)
    · rcases h.requesting hs hreq with hreq' | hd | ⟨k, hl, hk⟩
      · exact Or.inr hreq'
      · exact Or.inl hd
      · rw [hok k hl] at hk
        cases hk
  · exact Or.inr hnew

theorem ResponsesSent.step (hi : ResponsesSent s) (h : Move cfg s l t) (hs : Orderly cfg s)
    (hok : ∀ k, l = .resume k true → ∀ afSelf c, s.pc k ≠ .response afSelf c) : ResponsesSent t := by
  intro n hn hr
  rcases h.newly_replied hn hr with ⟨hlt, hold⟩ | hnew
  · rcases hi n hlt hold with hd | hresp
    · exact Or.inl (h.grows.returned n hlt hd)
    · rcases h.responding hs hresp with hresp' | hd | ⟨k, afSelf, c, hl, hk⟩
      · exact Or.inr hresp'
      · exact Or.inl hd
      · exact absurd hk (hok k hl afSelf c)
  · exact Or.inr hnew

/-- The answered requests were never buffered. -/
def Direct (s : Sys) : Prop := ∀ n < s.history.nreq, s.history.replies n ≠ [] → s.history.buffered n = []

theorem Direct.step (hi : Direct s) (h : Move cfg s l t) (hs : Sound cfg s)
    (hok : ∀ k p, l = .read k (.response p) → ∀ n ∈ s.answered k p.callId, s.history.buffered n = []) :
    Direct t := by
  intro n hn hr
  cases h with
  | request _ _ haf =>
      rw [onRequest_eq haf] at hn hr ⊢
      rcases Nat.lt_succ_iff_lt_or_eq.mp hn with hlt | rfl
      · simp only [setPc_history, setProxy_history, History.issue_replies, History.issue_buffered,
          Function.update_of_ne hlt.ne] at hr ⊢
        exact hi n hlt hr
      · simp at hr
  | @response k p L back afSelf =>
      cases hans : s.answered k p.callId with
      | none =>
          rw [hans] at hr
          exact hi n hn hr
      | some m =>
          by_cases hmn : n = m
          · subst hmn
            exact hok k p rfl n hans
          · rw [hans] at hr
            simp only [startWrite_history, History.frame_replies, setProxy_history, History.reply_replies,
              Function.update_of_ne hmn] at hr
            exact hi n hn hr
  | @buffered k af c q rest issuer select hd =>
      obtain ⟨hq, -, hw, -⟩ := hs.departs hd
      have hne : n ≠ q.serial := by
        rintro rfl
        exact hr (hs.booked.replies_nil hq hw)
      simp only [returnTo_history, setProxy_history, History.hold_buffered, Function.update_of_ne hne]
      exact hi n hn hr
  | transfer =>
      rw [onTransfer_history] at hn hr ⊢
      exact hi n hn hr
  | _ => exact hi n hn hr

/-- A request that has not been written waits in a queue, if the actors at which it was buffered meet
`B`. -/
def Kept (B : List Ref → Prop) (s : Sys) : Prop :=
  ∀ n < s.history.nreq, s.history.written n = [] → B (s.history.buffered n) → s.Waits n

theorem Move.new_waits (h : Move cfg s l t) (hn : n < t.history.nreq) : n < s.history.nreq ∨ t.Waits n := by
  rcases h.issue_cases hn with hlt | ⟨k, p, af, -, -, haf, rfl, rfl⟩
  · exact Or.inl hlt
  · rw [onRequest_eq haf]
    refine Or.inr ⟨af, ⟨s.history.nreq, p⟩, ?_, rfl⟩
    simp [Registry.emplace, Registry.setMsgQueue_msgQueue]

/-- A request is buffered at a waiting callee. -/
theorem Move.newly_buffered (h : Move cfg s l t) (hn : n < s.history.nreq)
    (hne : t.history.buffered n ≠ s.history.buffered n) : ∃ k af c q rest issuer select, l = .run k ∧
      s.Departs cfg k af c q rest issuer select ∧ q.serial = n ∧
      ((s.proxy.depart af rest q issuer select).actors select).isWaiting = true ∧
      t.history = s.history.hold n select ∧ q ∈ (t.proxy.actors select).msgQueue := by
  cases h with
  | request _ _ haf =>
      rw [onRequest_eq haf] at hne
      simp [Function.update_of_ne hn.ne] at hne
  | @buffered k af c q rest issuer select hd hsw =>
      have hqn : q.serial = n := by
        by_contra hqn
        simp [Function.update_of_ne (Ne.symm hqn)] at hne
      refine ⟨k, af, c, q, rest, issuer, select, rfl, hd, hqn, hsw, by rw [← hqn]; rfl, ?_⟩
      simp [Registry.emplace, Registry.setMsgQueue_msgQueue]
  | transfer =>
      rw [onTransfer_history] at hne
      exact absurd rfl hne
  | _ => exact absurd rfl hne

/-- A request that has just been buffered waits. -/
theorem Move.buffered_waits (h : Move cfg s l t) (hn : n < s.history.nreq)
    (hne : t.history.buffered n ≠ s.history.buffered n) : t.Waits n := by
  obtain ⟨k, af, c, q, rest, issuer, select, -, -, hqn, -, -, hq⟩ := h.newly_buffered hn hne
  exact ⟨select, q, hq, hqn⟩

theorem Kept.step {B : List Ref → Prop} (hi : Kept B s) (h : Move cfg s l t) (hs : Sound cfg s)
    (hok : ∀ k, l = .run k → ∀ x ∈ s.taken k, B (s.history.buffered x.q.serial) →
      (s.destination cfg x).isOk = true) : Kept B t := by
  intro n hn hw hB
  rcases h.new_waits hn with hlt | hnew
  · by_cases hsame : t.history.buffered n = s.history.buffered n
    · rw [hsame] at hB
      have hws : s.history.written n = [] := List.prefix_nil.mp (hw ▸ h.grows.written n hlt)
      rcases h.waits hs (hi n hlt hws hB) with hwait | hne | ⟨k, x, why, rfl, htaken, hdest, rfl⟩
      · exact hwait
      · exact absurd hw hne
      · have hisOk := hok k rfl x htaken hB
        rw [hdest] at hisOk
        cases hisOk
    · exact h.buffered_waits hlt hsame
  · exact hnew

theorem Quiescent.not_writing (hq : s.Quiescent) (hs : Wired s) (k : Nat) : (s.pc k).writing = false := by
  rcases Nat.lt_or_ge k s.nconn with hk | hk
  · rcases hq k hk with h | h <;> rw [h] <;> rfl
  · rw [hs.absent k hk]
    rfl

end Sys

end CoroActor.Proxy
