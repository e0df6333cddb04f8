import CoroActor.Proxy.Execution

/-! The loop check. `handle_proxy_handle_request` refuses a request when a member of the group that is
asked carries the `call_id` of the request. The module says under which conditions on the run the
`call_id` of an actor tells whether the actor executes the call. -/

namespace CoroActor.Proxy

open TransitionSystem

/-- No request of the actor that was dispatched is unanswered. -/
def History.Free (h : History) (r : Ref) : Prop :=
  ∀ n < h.nreq, h.issuer n = r → h.Unanswered n → h.Undispatched n

instance (h : History) (r : Ref) : Decidable (h.Free r) :=
  inferInstanceAs (Decidable (∀ n < h.nreq, _ → _ → _))

namespace Sys

variable {cfg : Setting} {s t : Sys} {l : Label} {k : Conn} {n m : Nat} {r y af issuer select : Ref}
  {c : StdString} {q : Queued} {rest : List Queued}

/-- The step keeps the marks of the issuers. The pid of a taken request belongs to its issuer. An actor whose
flag is cleared for being at the back of a chain has no dispatched request that is unanswered. When the write
of a REQUEST fails, its pid belongs to its issuer, and the callee has no dispatched request that is
unanswered. -/
def KeepsMarks (s : Sys) : Label → Prop
  | .run k => (∀ x ∈ s.taken k, s.proxy.actorPidMap x.q.pack.pid = some (s.history.issuer x.q.serial)) ∧
      ∀ back ∈ s.waking k, s.history.Free back
  | .resume k ec => ec = true → ∀ x ∈ (s.pc k).requesting,
      s.proxy.actorPidMap x.1.pack.pid = some (s.history.issuer x.1.serial) ∧ s.history.Free x.2
  | _ => True

instance (s : Sys) : (l : Label) → Decidable (KeepsMarks s l)
  | .run k => inferInstanceAs (Decidable ((∀ x ∈ s.taken k, _) ∧ ∀ back ∈ s.waking k, _))
  | .resume k ec => inferInstanceAs (Decidable (ec = true → ∀ x ∈ (s.pc k).requesting, _ ∧ _))
  | .read .. | .accept | .readError _ | .transfer .. => inferInstanceAs (Decidable True)

/-- The step keeps the call ids right. The pid of a taken request belongs to its issuer, and no member of
the group it asks still carries the `call_id` because its RESPONSE in this call has not been written. An
actor whose flag is cleared for being at the back of a chain has no dispatched request that is
unanswered, and no request of the chain that was buffered at it waits in its queue. When the write of a
REQUEST fails, its pid belongs to its issuer, and the callee has no dispatched request that is
unanswered. -/
def KeepsCalls (cfg : Setting) (s : Sys) : Label → Prop
  | .run k => (∀ x ∈ s.taken k,
        s.proxy.actorPidMap x.q.pack.pid = some (s.history.issuer x.q.serial) ∧
        ∀ actorName ∈ cfg.serviceMap x.q.pack.serviceName, ∀ y ∈ s.proxy.actorInfoMap actorName,
          (s.proxy.actors y).callId = x.q.pack.callId →
            ∀ j < s.nconn, s.pc j ≠ .response y x.q.pack.callId) ∧
      ∀ back ∈ s.waking k, s.history.Free back ∧ ∀ q ∈ (s.proxy.actors back).msgQueue,
        s.pc k = .wake q.pack.callId → s.history.issuer q.serial = back
  | .resume k ec => ec = true → ∀ x ∈ (s.pc k).requesting,
      s.proxy.actorPidMap x.1.pack.pid = some (s.history.issuer x.1.serial) ∧ s.history.Free x.2
  | _ => True

instance (cfg : Setting) (s : Sys) : (l : Label) → Decidable (KeepsCalls cfg s l)
  | .run k => inferInstanceAs (Decidable ((∀ x ∈ s.taken k, _ ∧ _) ∧ ∀ back ∈ s.waking k, _))
  | .resume k ec => inferInstanceAs (Decidable (ec = true → ∀ x ∈ (s.pc k).requesting, _ ∧ _))
  | .read .. | .accept | .readError _ | .transfer .. => inferInstanceAs (Decidable True)

/-- The actor that issued the request is marked as waiting in the call. -/
def Marked (s : Sys) (n : Nat) : Prop :=
  (s.proxy.actors (s.history.issuer n)).isWaiting = true ∧
    (s.proxy.actors (s.history.issuer n)).callId = (s.history.pack n).callId

/-- The write of the REQUEST has failed. -/
def Failed (s : Sys) (n : Nat) : Prop :=
  s.history.Live n ∧ s.history.delivered n = false ∧ ¬ s.Requesting n

/-- The issuers of dispatched requests are marked, except where the write failed. -/
def CallsMarked (s : Sys) : Prop :=
  ∀ n < s.history.nreq, s.history.Unanswered n → ¬ s.history.Undispatched n → s.Marked n ∨ s.Failed n

/-- An actor whose REQUEST has not gone out whole asks for nothing in the call. -/
def CalleesSilent (s : Sys) : Prop := ∀ m < s.history.nreq, s.history.Live m → s.history.delivered m = false →
  ∀ y ∈ s.history.written m, ¬ s.history.Asks (s.history.pack m).callId y

/-- While a request waits in a queue, the actors that ask for something in its call are marked with the
call, as far as they belong to the group that the request asks. -/
theorem CallsMarked.callId_eq (hm : CallsMarked s) (hsilent : CalleesSilent s) (hs : Sound cfg s)
    (hq : q ∈ (s.proxy.actors af).msgQueue)
    (hgroup : cfg.serviceMap q.pack.serviceName = some (s.proxy.actors y).name)
    (hask : s.history.Asks q.pack.callId y) : (s.proxy.actors y).callId = q.pack.callId := by
  obtain ⟨hn, hp, hw, -⟩ := hs.booked.queued af q hq
  have hu := hs.booked.queued_unanswered hq
  obtain ⟨m, hm', hc, rfl, hmu⟩ := hask
  obtain ⟨L, a, ns, -, hst⟩ := hs.stack hn
  rw [hp] at hst
  -- the request asks for a service of another group than that of its issuer
  have hne : s.history.issuer q.serial ≠ s.history.issuer m := by
    intro heq
    refine (hs.booked.entry _ hn).foreign ?_
    rw [hp, heq, hgroup]
  have hmn : m ≠ q.serial := fun heq => hne (by rw [heq])
  by_cases hund : s.history.Undispatched m
  · obtain ⟨hlast, hlive⟩ := hst.waiting m hm' hc hund
    exfalso
    by_cases hqund : s.history.Undispatched q.serial
    · have hlast' := (hst.waiting _ hn (by rw [hp]) hqund).1
      exact hne (Option.some.inj (hlast'.symm.trans hlast))
    · have hmem := (hst.mem _).mpr ⟨hn, by rw [hp], hqund, hu⟩
      have hhead := hst.head_of_not_live hmem fun hl => hl.1 hw
      exact (hlive _ hhead).1 hw
  · have hmem := (hst.mem m).mpr ⟨hm', hc, hund, hmu⟩
    rcases hm m hm' hmu hund with hmark | ⟨hlive, hd, -⟩
    · rw [hmark.2, hc]
    · obtain ⟨z, hz⟩ : ∃ z, s.history.written m = [z] := by
        obtain ⟨z, hz⟩ := List.exists_mem_of_ne_nil _ hlive.1
        exact ⟨z, hs.booked.written_eq hm' hz⟩
      have hask := hst.callee_asks hn (by rw [hp]) hw hu hmem hmn hz
      rw [← hc] at hask
      exact absurd hask (hsilent m hm' hlive hd z (by rw [hz]; exact List.mem_singleton_self z))

theorem Move.newly_dispatched (h : Move cfg s l t) (hs : Sound cfg s) (hpid : ∀ k, l = .run k → s.PidKept k)
    (hn : n < s.history.nreq) (hu : s.history.Undispatched n) (hnu : ¬ t.history.Undispatched n) :
    t.Marked n := by
  have hmarks : ∀ {k af c q rest issuer select}, s.Departs cfg k af c q rest issuer select → l = .run k →
      q.serial = n → s.history.issuer n = issuer ∧ (s.history.pack n).callId = q.pack.callId := by
    rintro k af c q rest issuer select hd hl rfl
    rw [(hs.departs hd).2.1]
    exact ⟨(hd.issuer_eq (hpid k hl)).symm, rfl⟩
  cases h with
  | request _ _ haf =>
      rw [onRequest_eq haf] at hnu
      refine absurd ?_ hnu
      simpa [History.Undispatched, Function.update_of_ne hn.ne] using hu
  | @buffered k af c q rest issuer select hd =>
      by_cases hqn : q.serial = n
      · obtain ⟨hi, hc⟩ := hmarks hd rfl hqn
        rw [Marked, returnTo_history, setProxy_history, History.hold_issuer, History.hold_pack, returnTo_proxy,
          setProxy_proxy, Registry.emplace_isWaiting, Registry.emplace_callId, Registry.depart_isWaiting,
          Registry.depart_callId, hi, hc, if_pos rfl, if_pos rfl]
        exact ⟨rfl, rfl⟩
      · refine absurd ?_ hnu
        simpa [History.Undispatched, Function.update_of_ne (Ne.symm hqn)] using hu
  | @writing k af c q rest issuer select hd =>
      by_cases hqn : q.serial = n
      · obtain ⟨hi, hc⟩ := hmarks hd rfl hqn
        have hne : issuer ≠ select := (hd.select_ne_issuer hs (hpid k rfl)).symm
        rw [Marked, startWrite_history, History.frame_issuer, History.frame_pack, setProxy_history,
          History.send_issuer, History.send_pack, startWrite_proxy, setProxy_proxy,
          Registry.updateActorInfo_isWaiting, Registry.updateActorInfo_callId, Registry.depart_isWaiting,
          Registry.depart_callId, hi, hc, if_neg hne, if_neg hne, if_pos rfl, if_pos rfl]
        exact ⟨rfl, rfl⟩
      · refine absurd ?_ hnu
        simpa [History.Undispatched, Function.update_of_ne (Ne.symm hqn)] using hu
  | transfer =>
      rw [onTransfer_history] at hnu
      exact absurd hu hnu
  | _ => exact absurd hu hnu

/-- The `call_id` of an actor is set when a request of it is dispatched, when a request is written to it,
and when it is at the back of the chain of a RESPONSE; otherwise it is cleared or stays. -/
theorem Move.callId_set (h : Move cfg s l t) (hs : Sound cfg s) (y : Ref) :
    (t.proxy.actors y).callId = (s.proxy.actors y).callId ∨
    (∃ k af c q rest select, l = .run k ∧ s.Departs cfg k af c q rest y select ∧
      (t.proxy.actors y).callId = q.pack.callId) ∨
    (t.proxy.actors y).isWaiting = false ∧ ((t.proxy.actors y).callId = [] ∨
      (∃ n < t.history.nreq, t.history.Live n ∧ (t.history.pack n).callId = (t.proxy.actors y).callId ∧
        y ∈ t.history.written n) ∨
      ∃ k, l = .run k ∧ s.waking k = some y ∧ s.pc k = .wake (t.proxy.actors y).callId ∧
        t.history = s.history) := by
  cases h with
  | connect =>
      by_cases hy : y = s.proxy.nactors
      · simp [onConnect, hy]
      · simp [onConnect, Function.update_of_ne hy]
  | request _ _ haf =>
      left
      rw [onRequest_eq haf, setPc_proxy, setProxy_proxy, Registry.emplace_callId, Registry.ite_setChain_actors]
  | @resumeResponse k ec afSelf callId =>
      by_cases hy : y = afSelf
      · right
        right
        simp [Registry.updateActorInfo_isWaiting, Registry.updateActorInfo_callId, hy]
      · left
        simp [Registry.updateActorInfo_callId, hy]
  | @rollback k q select c issuer =>
      by_cases hy : y = select ∨ y = issuer
      · right
        right
        rcases hy with rfl | rfl <;> simp [Registry.updateActorInfo_isWaiting, Registry.updateActorInfo_callId]
      · left
        rw [not_or] at hy
        simp [Registry.updateActorInfo_callId, hy.1, hy.2]
  | refused =>
      left
      simp
  | @buffered k af c q rest issuer select hd =>
      rw [returnTo_proxy, setProxy_proxy, Registry.emplace_callId, Registry.depart_callId]
      split
      · next hy => exact Or.inr (Or.inl ⟨k, af, c, q, rest, select, rfl, hy ▸ hd, rfl⟩)
      · exact Or.inl rfl
  | @writing k af c q rest issuer select hd =>
      obtain ⟨hn, hp, hw, -⟩ := hs.departs hd
      rw [startWrite_proxy, setProxy_proxy, Registry.updateActorInfo_callId, Registry.updateActorInfo_isWaiting]
      split
      · next hy =>
          refine Or.inr (Or.inr ⟨rfl, Or.inr (Or.inl ⟨q.serial, hn, ⟨by simp, ?_⟩, ?_, by simp [hy]⟩)⟩)
          · exact hs.booked.replies_nil hn hw
          · simp [hp]
      · rw [Registry.depart_callId]
        split
        · next hy => exact Or.inr (Or.inl ⟨k, af, c, q, rest, select, rfl, hy ▸ hd, rfl⟩)
        · exact Or.inl rfl
  | @wake k callId back _ hk hback =>
      by_cases hy : y = back
      · right
        right
        subst hy
        simp only [setPc_proxy, setProxy_proxy, Registry.updateActorInfo_isWaiting,
          Registry.updateActorInfo_callId, if_true]
        exact ⟨trivial, Or.inr (Or.inr ⟨k, rfl, by simp only [waking, hk, hback], hk, rfl⟩)⟩
      · left
        simp [Registry.updateActorInfo_callId, hy]
  | _ => exact Or.inl rfl

theorem KeepsCalls.marks (hok : KeepsCalls cfg s l) : KeepsMarks s l := by
  cases l with
  | run k => exact ⟨fun x hx => (hok.1 x hx).1, fun back hback => (hok.2 back hback).1⟩
  | resume k ec => exact hok
  | accept | read | readError | transfer => trivial

theorem KeepsMarks.pidKept (hok : KeepsMarks s l) : ∀ k, l = .run k → s.PidKept k := by
  rintro k rfl x hx
  exact hok.1 x hx

theorem Failed.step (hf : s.Failed n) (h : Move cfg s l t) (hs : Orderly cfg s) (hrule : Lawful cfg s l)
    (hn : n < s.history.nreq) : t.Failed n := by
  obtain ⟨hlive, hd, hreq⟩ := hf
  have hw : t.history.written n ≠ [] := (h.grows.written n hn).ne_nil hlive.1
  have hd' : t.history.delivered n = false := by
    by_contra hd'
    rcases h.newly_delivered hs hn (by simpa using hd') with hds | ⟨k, _, q, select, c, -, hk, heq, -⟩
    · rw [hd] at hds
      cases hds
    · exact hreq ⟨k, q, select, c, hk, heq⟩
  refine ⟨⟨hw, ?_⟩, hd', ?_⟩
  · by_contra hne
    obtain ⟨k, p, rfl, hans, -⟩ := h.replied hs.toSound hrule hn fun heq => hne (heq.trans hlive.2)
    rw [hs.answered_delivered hrule.1 hans] at hd
    cases hd
  · rintro ⟨j, q, select, c, hj, rfl⟩
    rcases h.at_request hj with ⟨hj', -⟩ | ⟨-, af, rest, issuer, hdep⟩
    · exact hreq ⟨j, q, select, c, hj', rfl⟩
    · exact hlive.1 (hs.departs hdep).2.2.1

theorem CallsMarked.step (hi : CallsMarked s) (h : Move cfg s l t) (hs : Orderly cfg s) (hu : Undelivered s)
    (hrule : Lawful cfg s l) (hok : KeepsMarks s l) : CallsMarked t := by
  intro n hn hun hnd
  rcases h.newly_issued hn with hlt | ⟨k, p, af, rfl, -, -, rfl, hhist⟩
  · have hus := h.grows.unanswered hlt hun
    by_cases hund : s.history.Undispatched n
    · exact Or.inl (h.newly_dispatched hs.toSound hok.pidKept hlt hund hnd)
    · rcases hi n hlt hus hund with ⟨hflag, hc⟩ | hfailed
      · -- no other request of the issuer is unanswered
        have hone : ∀ q : Queued, q.serial < s.history.nreq → s.history.Unanswered q.serial →
            s.history.issuer q.serial = s.history.issuer n → q.serial = n := fun q hq hqu heq =>
          hs.booked.one _ hq n hlt heq hqu hus
        rcases h.flag_cleared (hs.booked.entry n hlt).issuer_lt hflag with hflag' | ⟨k, c, ec, -, hk⟩ |
          ⟨k, q, select, c, rfl, hk, hleft, hr, hhist, hpc⟩ | ⟨k, rfl, hwaking, -⟩
        · left
          rw [Marked, h.grows.issuer n hlt, h.grows.pack n hlt]
          refine ⟨hflag', ?_⟩
          rcases h.callId_set hs.toSound (s.history.issuer n) with hsame |
            ⟨k, af, c, q, rest, select, rfl, hd, hset⟩ | ⟨hfalse, -⟩
          · rw [hsame, hc]
          · obtain ⟨hq, hp, hw, -⟩ := hs.departs hd
            have hqn := hone q hq (hs.booked.unanswered_of_written_nil hq hw)
              (hd.issuer_eq (hok.pidKept k rfl)).symm
            rw [hset, ← hp, hqn]
          · rw [hflag'] at hfalse
            cases hfalse
        · exact absurd hus ((hs.at_response hk).2.2.1 n hlt rfl)
        · obtain ⟨hpid, hfree⟩ := hok rfl (q, select) (by rw [hk]; rfl)
          rcases hr with rfl | hissuer
          · exact absurd (hfree n hlt rfl hus) hund
          · right
            obtain ⟨-, hq, hw, -⟩ := hs.at_request hk
            have hd := hu.left hk hleft
            have hrep := hu.replies_nil hq hd
            have hqu : s.history.Unanswered q.serial := by
              rw [History.Unanswered, hrep]
              exact List.not_mem_nil
            obtain rfl := hone q hq hqu (Option.some.inj (hpid.symm.trans hissuer))
            refine ⟨⟨?_, ?_⟩, ?_, ?_⟩
            · rw [hhist, hw]
              exact List.cons_ne_nil _ _
            · rw [hhist, hrep]
            · rw [hhist, hd]
            · rintro ⟨j, q', select', c', hj, heq⟩
              rcases h.at_request hj with ⟨hj', -⟩ | ⟨hl, -⟩
              · obtain rfl := hu.unique hj' hk heq
                rw [hpc, Function.update_self] at hj
                cases c <;> cases hj
              · cases hl
        · exact absurd (hok.2 _ hwaking n hlt rfl hus) hund
      · exact Or.inr (hfailed.step h hs hrule hlt)
  · refine absurd ?_ hnd
    simp [History.Undispatched, hhist]

/-- An actor that asks for something in the call is not selected: it would be marked with the call. -/
theorem CallsMarked.select_not_asks (hm : CallsMarked s) (hi : CalleesSilent s) (hs : Sound cfg s)
    {d : Cont} (hd : s.Departs cfg k af d q rest issuer select) : ¬ s.history.Asks q.pack.callId select := by
  intro hask
  obtain ⟨-, -, -, -, -, hgroup⟩ := hs.departs hd
  obtain ⟨g, -, hmin, hbusy⟩ := Registry.route_ok hd.route
  refine hbusy ⟨select, List.argmin_mem hmin, ?_⟩
  rw [Registry.setMsgQueue_callId]
  exact hm.callId_eq hi hs hd.mem_queue hgroup hask

theorem Sound.sender_delivered (hs : Sound cfg s) {p : CoroActorRequest} (hk : s.pc k = .read)
    (haf : s.proxy.actorPidMap p.pid = some af) (hrule : Lawful cfg s (.read k (.request p)))
    (hm : m < s.history.nreq) (hc : (s.history.pack m).callId = p.callId) (hlive : s.history.Live m)
    (hw : s.history.written m = [af]) :
    s.history.delivered m = true := by
  obtain ⟨-, -, -, -, hidle⟩ := hs.sender hk haf hrule.1
  obtain ⟨L, a, ns, -, hst⟩ := hs.stack hm
  rw [hc] at hst
  rcases hs.entitled hk haf hrule with hfresh | ho | ⟨m', hm', hc', hlive', hw', hd'⟩
  · exact absurd hc (hfresh m hm)
  · have hhead := hst.head_of_idle hidle hm hc hlive hw
    rw [hst.nil_of_opened hidle ho] at hhead
    cases hhead
  · rwa [hst.live_unique hidle hm hc hlive hw hm' hc' hlive' hw'] at hd'

/-- What an actor does not ask for cannot be answered: an actor whose REQUEST has not gone out whole asks
for nothing. -/
theorem CalleesSilent.step (hi : CalleesSilent s) (hm : CallsMarked s) (h : Move cfg s l t) (hs : Orderly cfg s)
    (ht : Orderly cfg t) (hrule : Lawful cfg s l) : CalleesSilent t := by
  intro m hmt hlive hd y hy hask
  obtain ⟨n, hn, hc, rfl, hu⟩ := hask
  have hg := h.grows
  have hmlt : m < s.history.nreq := by
    refine (h.newly_issued hmt).resolve_right ?_
    rintro ⟨k, p, af, -, -, -, rfl, hhist⟩
    exact hlive.1 (by simp [hhist])
  have hds : s.history.delivered m = false := by
    by_contra hds
    rw [hg.delivered m hmlt (by simpa using hds)] at hd
    cases hd
  have hrs : s.history.replies m = [] := List.prefix_nil.mp (hlive.2 ▸ hg.replies m hmlt)
  have hyw := ht.booked.written_eq hmt hy
  rw [hg.pack m hmlt] at hc
  by_cases hws : s.history.written m = []
  · -- the REQUEST is being written now, and its callee would have been marked
    have hreq := (h.newly_written hmt hlive.1).resolve_left fun hold => hold.2 hws
    obtain ⟨j, q, select, c, hj, rfl⟩ := hreq
    rcases h.at_request hj with ⟨hj', -⟩ | ⟨rfl, af, rest, issuer, hdep⟩
    · rw [(hs.at_request hj').2.2.1] at hws
      cases hws
    · have hselect : t.history.issuer n = select := by
        rw [(ht.at_request hj).2.2.1] at hyw
        simpa using hyw.symm
      have hn' : n < s.history.nreq := by
        refine (h.newly_issued hn).resolve_right ?_
        rintro ⟨k, p, af, hl, -⟩
        cases hl
      rw [(hs.departs hdep).2.1, hg.pack n hn'] at hc
      refine hm.select_not_asks hi hs.toSound hdep ⟨n, hn', hc, ?_, hg.unanswered hn' hu⟩
      rw [← hg.issuer n hn', hselect]
  · have hlives : s.history.Live m := ⟨hws, hrs⟩
    have hys : s.history.written m = [t.history.issuer n] := by
      obtain ⟨z, hz⟩ := List.exists_mem_of_ne_nil _ hws
      have hzt := (hg.written m hmlt).subset hz
      rw [hyw, List.mem_singleton] at hzt
      rw [hs.booked.written_eq hmlt hz, hzt]
    rcases h.newly_issued hn with hn' | ⟨k, p, af, rfl, hk, haf, rfl, hhist⟩
    · refine hi m hmlt hlives hds _ (by rw [hys]; exact List.mem_singleton_self _)
        ⟨n, hn', ?_, ?_, hg.unanswered hn' hu⟩
      · rw [← hg.pack n hn', hc]
      · rw [hg.issuer n hn']
    · -- the sender executes the call, and the innermost REQUEST of the call has been delivered to it
      have hissuer : t.history.issuer s.history.nreq = af := by simp [hhist]
      have hpack : t.history.pack s.history.nreq = p := by simp [hhist]
      rw [hissuer] at hys
      rw [hpack] at hc
      rw [hs.sender_delivered hk haf hrule hmlt hc.symm hlives hys] at hds
      cases hds

/-- The call has come to a halt: its innermost request is not being served, and it is in no queue. -/
def Stuck (s : Sys) (c : StdString) : Prop := ∃ n, s.history.Link c n ∧ ¬ s.history.Live n ∧ ¬ s.Waits n

theorem Stuck.step (hstuck : s.Stuck c) (h : Move cfg s l t) (hs : Orderly cfg s) (hrule : Lawful cfg s l) :
    t.Stuck c := by
  obtain ⟨n, ⟨hn, hc, hund, hu⟩, hlive, hwait⟩ := hstuck
  have hg := h.grows
  refine ⟨n, ⟨hn.trans_le hg.nreq, ?_, fun hundt => hund (hg.undispatched hn hundt), ?_⟩, ?_, ?_⟩
  · rw [hg.pack n hn, hc]
  · have hsame : t.history.replies n = s.history.replies n := by
      by_contra hne
      obtain ⟨k, p, rfl, hans, -⟩ := h.replied hs.toSound hrule hn hne
      obtain ⟨n', -, hans', ha⟩ := answered_of_serves hrule.1.2
      obtain rfl := Option.some.inj (hans.symm.trans hans')
      exact hlive ha.1
    rw [History.Unanswered, hg.issuer n hn, hsame]
    exact hu
  · rintro ⟨hw, hr⟩
    have hrs : s.history.replies n = [] := List.prefix_nil.mp (hr ▸ hg.replies n hn)
    rcases h.newly_written (hn.trans_le hg.nreq) hw with ⟨-, hws⟩ | ⟨j, q, select, d, hj, rfl⟩
    · exact hlive ⟨hws, hrs⟩
    · rcases h.at_request hj with ⟨hj', -⟩ | ⟨-, af, rest, issuer, hd⟩
      · refine hlive ⟨?_, hrs⟩
        rw [(hs.at_request hj').2.2.1]
        exact List.cons_ne_nil _ _
      · exact hwait ⟨af, q, hd.mem_queue, rfl⟩
  · exact fun hwaitt => hwait (h.waited hs.toSound hn hwaitt)

theorem Stuck.no_queue (hstuck : s.Stuck c) (hs : Sound cfg s) (hq : q ∈ (s.proxy.actors af).msgQueue) :
    q.pack.callId ≠ c := by
  rintro rfl
  obtain ⟨hn, hp, hw, -⟩ := hs.booked.queued af q hq
  obtain ⟨n, hlink, hlive, hwait⟩ := hstuck
  obtain ⟨L, a, ns, -, hst⟩ := hs.stack hn
  rw [hp] at hst
  have hne : n ≠ q.serial := by
    rintro rfl
    exact hwait ⟨af, q, hq, rfl⟩
  exact hlive (hst.live_of_waiting hn (by rw [hp]) hw (hs.booked.queued_unanswered hq)
    ((hst.mem n).mpr hlink) hne)

/-- The actor takes part in the call: it opened it, or a REQUEST of it was written to the actor, which
has not answered. -/
def TakesPart (s : Sys) (c : StdString) (y : Ref) : Prop :=
  s.history.OpenedBy c y ∨ ∃ n < s.history.nreq, s.history.Live n ∧ (s.history.pack n).callId = c ∧
    y ∈ s.history.written n

/-- What a `call_id` says of its actor: it takes part in the call, or its RESPONSE in the call is being
written, or the call has come to a halt. -/
def CallIdsMeant (s : Sys) : Prop := ∀ y, (s.proxy.actors y).callId ≠ [] →
  s.TakesPart (s.proxy.actors y).callId y ∨ (∃ k, s.pc k = .response y (s.proxy.actors y).callId) ∨
    s.Stuck (s.proxy.actors y).callId

/-- Who is at the back of a chain. -/
theorem Sound.back_cases (hs : Sound cfg s) (hback : (s.proxy.chain c).getLast? = some y) :
    s.TakesPart c y ∨ s.Stuck c ∨
      ∃ q ∈ (s.proxy.actors y).msgQueue, q.pack.callId = c ∧ s.history.issuer q.serial ≠ y := by
  cases hm : s.proxy.actorCallChainMap c with
  | none =>
      rw [Registry.chain, hm] at hback
      cases hback
  | some L =>
      rw [Registry.chain, hm, Option.getD_some] at hback
      obtain ⟨a, ns, hst⟩ := hs.booked.chained c L hm
      cases hns : ns with
      | nil =>
          rw [hst.last_of_nil hns] at hback
          obtain rfl := Option.some.inj hback
          exact Or.inl (Or.inl hst.root)
      | cons n ns' =>
          have hhead : ns.head? = some n := by rw [hns]; rfl
          obtain ⟨hn, hc, hund, hu⟩ := (hst.mem n).mp (List.mem_of_mem_head? hhead)
          rw [hst.last_of_head hhead] at hback
          by_cases hlive : s.history.Live n
          · rw [History.block_of_live hlive, List.head?_reverse] at hback
            obtain ⟨z, hz⟩ := List.exists_mem_of_ne_nil _ hlive.1
            rw [hs.booked.written_eq hn hz, List.getLast?_concat] at hback
            exact Or.inl (Or.inr ⟨n, hn, hlive, hc, by rw [← Option.some.inj hback]; exact hz⟩)
          · by_cases hwait : s.Waits n
            · obtain ⟨x, q, hq, rfl⟩ := hwait
              obtain ⟨-, hp, hw, hx⟩ := hs.booked.queued x q hq
              rw [History.block, if_pos (hs.booked.replies_nil hn hw), hw, List.append_nil,
                List.head?_reverse] at hback
              have hxy : x = y := by rw [← hx, History.holder, hback]; rfl
              refine Or.inr (Or.inr ⟨q, hxy ▸ hq, by rw [← hp, hc], fun heq => ?_⟩)
              exact hs.booked.callee_ne_issuer hn (List.mem_append_left _ (List.mem_of_getLast? hback)) heq.symm
            · exact Or.inr (Or.inl ⟨n, ⟨hn, hc, hund, hu⟩, hlive, hwait⟩)

/-- An actor takes part in a call until its RESPONSE is handled. -/
theorem Move.takesPart (h : Move cfg s l t) (hs : Sound cfg s) (hrule : Lawful cfg s l) (hp : s.TakesPart c y) :
    t.TakesPart c y ∨ ∃ k, t.pc k = .response y c := by
  have hg := h.grows
  rcases hp with ho | ⟨n, hn, hlive, hc, hy⟩
  · exact Or.inl (Or.inl (hg.openedBy ho))
  · by_cases hsame : t.history.replies n = s.history.replies n
    · refine Or.inl (Or.inr ⟨n, hn.trans_le hg.nreq, ⟨(hg.written n hn).ne_nil hlive.1, ?_⟩, ?_,
        (hg.written n hn).subset hy⟩)
      · rw [hsame, hlive.2]
      · rw [hg.pack n hn, hc]
    · obtain ⟨k, p, rfl, hans, -⟩ := h.replied hs hrule hn hsame
      cases h with
      | stay => exact absurd rfl hsame
      | undefined => exact absurd rfl hsame
      | response _ _ hchain =>
          obtain ⟨m, -, hans', -, hmc, hw, -⟩ := hs.reply hrule.1 hchain
          obtain rfl := Option.some.inj (hans.symm.trans hans')
          rw [hw, List.mem_singleton] at hy
          exact Or.inr ⟨k, by simp [hy, ← hc, hmc]⟩

theorem Move.response_kept (h : Move cfg s l t) (hs : Wired s) (hk : s.pc k = .response y c) :
    t.pc k = .response y c ∨ (t.proxy.actors y).callId = [] := by
  rcases h.pc_of_writing hs (by rw [hk]; rfl) with ⟨hpc, -⟩ | ⟨ec, rfl, -⟩
  · exact Or.inl (hpc.trans hk)
  · cases h with
    | stay => exact Or.inl hk
    | undefined => exact Or.inl hk
    | resumeResponse _ hk' =>
        obtain ⟨rfl, rfl⟩ := Pc.response.inj (hk.symm.trans hk')
        right
        simp [Registry.updateActorInfo_callId]
    | resumeConnack _ hk' | resumeRequest _ hk' | rollback _ hk' =>
        rw [hk] at hk'
        cases hk'

theorem CallIdsMeant.step (hi : CallIdsMeant s) (hentitled : IssuersEntitled s) (h : Move cfg s l t)
    (hs : Orderly cfg s) (hrule : Lawful cfg s l) (hok : KeepsCalls cfg s l) : CallIdsMeant t := by
  intro y hc
  have hpart : ∀ {d}, s.TakesPart d y → t.TakesPart d y ∨ (∃ k, t.pc k = .response y d) ∨ t.Stuck d :=
    fun hp => (h.takesPart hs.toSound hrule hp).imp_right Or.inl
  rcases h.callId_set hs.toSound y with hsame | ⟨k, af, d, q, rest, select, rfl, hd, hset⟩ |
    ⟨-, hnil | hpart' | ⟨k, rfl, hwaking, hk, -⟩⟩
  · rw [hsame] at hc
    rcases hi y hc with hp | ⟨k, hk⟩ | hstuck
    · rw [hsame]
      exact hpart hp
    · rcases h.response_kept hs.wired hk with hk' | hnil
      · rw [hsame]
        exact Or.inr (Or.inl ⟨k, hk'⟩)
      · rw [hsame] at hnil
        exact absurd hnil hc
    · rw [hsame]
      exact Or.inr (Or.inr (hstuck.step h hs hrule))
  · -- the issuer of a request takes part in its call
    rw [hset]
    obtain ⟨hn, hp, hw, -⟩ := hs.departs hd
    have hissuer := hd.issuer_eq (hok.marks.pidKept k rfl)
    have hent := hentitled q.serial hn (hs.booked.unanswered_of_written_nil hn hw)
    rw [hp, ← hissuer] at hent
    refine hpart (hent.imp_right ?_)
    rintro ⟨m, hm, hmc, hmw, -, hmr⟩
    exact ⟨m, hm, ⟨List.ne_nil_of_mem hmw, hmr⟩, hmc, hmw⟩
  · exact absurd hnil hc
  · exact Or.inl (Or.inr hpart')
  · have hback : (s.proxy.chain (t.proxy.actors y).callId).getLast? = some y := by
      simpa only [waking, hk] using hwaking
    rcases hs.back_cases hback with hp | hstuck | ⟨q, hq, hqc, hne⟩
    · exact hpart hp
    · exact Or.inr (Or.inr (hstuck.step h hs hrule))
    · exact absurd ((hok.2 y hwaking).2 q hq (by rw [hk, hqc])) hne

/-- While a request waits in a queue, the members of the group it asks that execute its call carry its
`call_id`. -/
theorem CallsMarked.callId_of_executing (hm : CallsMarked s) (hsilent : CalleesSilent s) (hs : Sound cfg s)
    (hq : q ∈ (s.proxy.actors af).msgQueue)
    (hgroup : cfg.serviceMap q.pack.serviceName = some (s.proxy.actors y).name)
    (he : s.history.Executing q.pack.callId y) : (s.proxy.actors y).callId = q.pack.callId := by
  refine hm.callId_eq hsilent hs hq hgroup ?_
  rcases he with ⟨-, hask⟩ | ⟨n, hn, hc, hy, -, hr⟩
  · exact hask
  · obtain ⟨hq', hp, hw, -⟩ := hs.booked.queued af q hq
    obtain ⟨L, a, ns, -, hst⟩ := hs.stack hq'
    rw [hp] at hst
    have hlive : s.history.Live n := ⟨List.ne_nil_of_mem hy, hr⟩
    have hne : n ≠ q.serial := by
      rintro rfl
      exact hlive.1 hw
    exact hst.callee_asks hq' (by rw [hp]) hw (hs.booked.queued_unanswered hq)
      ((hst.mem n).mpr ⟨hn, hc, hlive.not_undispatched, hlive.unanswered⟩) hne (hs.booked.written_eq hn hy)

/-- While a request waits in a queue, an actor that carries its `call_id` executes its call, unless the
RESPONSE of the actor in this call is being written. -/
theorem CallIdsMeant.executing (hmeant : CallIdsMeant s) (hentitled : IssuersEntitled s) (hs : Sound cfg s)
    (hq : q ∈ (s.proxy.actors af).msgQueue) (hc : (s.proxy.actors y).callId = q.pack.callId)
    (hresponse : ∀ j < s.nconn, s.pc j ≠ .response y q.pack.callId) :
    s.history.Executing q.pack.callId y := by
  obtain ⟨hn, hp, hw, -⟩ := hs.booked.queued af q hq
  have hu := hs.booked.queued_unanswered hq
  obtain ⟨L, a, ns, -, hst⟩ := hs.stack hn
  rw [hp] at hst
  have hne : (s.proxy.actors y).callId ≠ [] := by
    rw [hc, ← hp]
    exact (hs.booked.entry _ hn).callId_ne
  have hmeans := hmeant y hne
  rw [hc] at hmeans
  rcases hmeans with (ho | ⟨n, hn', hlive, hnc, hy⟩) | ⟨j, hj⟩ | hstuck
  · exact Or.inl ⟨ho, hst.opener_asks hn (by rw [hp]) hu ho⟩
  · have hne' : n ≠ q.serial := by
      rintro rfl
      exact hlive.1 hw
    obtain ⟨m, hm, hmc, rfl, hmu⟩ := hst.callee_asks hn (by rw [hp]) hw hu
      ((hst.mem n).mpr ⟨hn', hnc, hlive.not_undispatched, hlive.unanswered⟩) hne' (hs.booked.written_eq hn' hy)
    rw [← hmc]
    exact (hentitled m hm hmu).imp_left fun ho => ⟨ho, m, hm, rfl, rfl, hmu⟩
  · refine absurd hj (hresponse j ?_)
    by_contra hge
    rw [hs.wired.absent j (not_lt.mp hge)] at hj
    cases hj
  · exact absurd rfl (hstuck.no_queue hs hq)

/-- A request that is taken for a group with a member is refused as a circular call when the group is
busy. -/
theorem Takes.refused_iff {d : Cont} {actorName : StdString} (ht : s.Takes k af d q rest)
    (hopen : ∀ k, s.proxy.isOpen k = true) (hservice : cfg.serviceMap q.pack.serviceName = some actorName)
    (hgroup : s.proxy.actorInfoMap actorName ≠ []) :
    (Registry.handleProxyHandleRequest cfg.serviceMap s.proxy af).2 = .refused q .circular ↔
      s.proxy.Busy q.pack.callId (s.proxy.actorInfoMap actorName) := by
  rw [Registry.handleProxyHandleRequest_eq _ _ hopen, ht.queue]
  simp only [ht.free, Bool.false_eq_true, if_false, Registry.route, hservice, Registry.setMsgQueue_infoMap,
    Registry.setMsgQueue_busy]
  cases hmin : (s.proxy.actorInfoMap actorName).argmin (s.proxy.setMsgQueue af rest).backlog with
  | none => exact absurd (List.argmin_eq_none.mp hmin) hgroup
  | some select =>
      by_cases hb : s.proxy.Busy q.pack.callId (s.proxy.actorInfoMap actorName)
      · simp only [hb, if_true]
      · simp only [hb, if_false, iff_false, Registry.dispatch]
        split
        · exact fun h => by cases h
        · split
          · exact fun h => by cases h
          · exact fun h => by cases h

end Sys

end CoroActor.Proxy
