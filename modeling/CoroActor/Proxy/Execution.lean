import CoroActor.Proxy.Flags

/-! Who executes a call: the actor that opened it while it awaits an answer, and the actors that were
delivered a REQUEST of the call. Every unanswered request was issued by an actor that executes its call,
and an actor whose REQUEST has not gone out whole issues nothing in the call. -/

namespace CoroActor.Proxy

open TransitionSystem CallStack

namespace History

variable {h h' : History} {c : StdString} {r a : Ref} {n m : Nat} {L : List Ref} {ns : List Nat}

/-- The actor awaits the answer to a request of the call. -/
def Asks (h : History) (c : StdString) (r : Ref) : Prop :=
  ∃ n < h.nreq, (h.pack n).callId = c ∧ h.issuer n = r ∧ h.Unanswered n

/-- A REQUEST of the call was delivered to the actor, which has not answered it. -/
def Holds (h : History) (c : StdString) (r : Ref) : Prop :=
  ∃ n < h.nreq, (h.pack n).callId = c ∧ r ∈ h.written n ∧ h.delivered n = true ∧ h.replies n = []

/-- The actor executes the call. -/
def Executing (h : History) (c : StdString) (r : Ref) : Prop := h.OpenedBy c r ∧ h.Asks c r ∨ h.Holds c r

instance (h : History) (c : StdString) (r : Ref) : Decidable (h.Asks c r) :=
  inferInstanceAs (Decidable (∃ n < h.nreq, _))
instance (h : History) (c : StdString) (r : Ref) : Decidable (h.Holds c r) :=
  inferInstanceAs (Decidable (∃ n < h.nreq, _))
instance (h : History) (c : StdString) (r : Ref) : Decidable (h.Executing c r) :=
  inferInstanceAs (Decidable (_ ∧ _ ∨ _))

theorem Grows.openedBy (hg : h.Grows h') (ho : h.OpenedBy c r) : h'.OpenedBy c r := by
  obtain ⟨n, hn, hc, hr, hmin⟩ := ho
  refine ⟨n, hn.trans_le hg.nreq, ?_, ?_, fun m hm => ?_⟩
  · rw [hg.pack n hn, hc]
  · rw [hg.issuer n hn, hr]
  · rw [hg.pack m (hm.trans hn)]
    exact hmin m hm

/-- While a request of the call waits to be written, the other links of the call are being served. -/
theorem Stack.live_of_waiting (hs : h.Stack c L a ns) (hn : n < h.nreq) (hc : (h.pack n).callId = c)
    (hw : h.written n = []) (hu : h.Unanswered n) (hm : m ∈ ns) (hne : m ≠ n) : h.Live m := by
  by_contra hl
  have hhead := hs.head_of_not_live hm hl
  by_cases hund : h.Undispatched n
  · exact hl ((hs.waiting n hn hc hund).2 m hhead)
  · have hnhead := hs.head_of_not_live ((hs.mem n).mpr ⟨hn, hc, hund, hu⟩) fun hlive => hlive.1 hw
    exact hne (Option.some.inj (hhead.symm.trans hnhead))

/-- While a request of the call waits to be written, whoever serves another link of the call has asked for
something. -/
theorem Stack.callee_asks (hs : h.Stack c L a ns) (hn : n < h.nreq) (hc : (h.pack n).callId = c)
    (hw : h.written n = []) (hu : h.Unanswered n) (hm : m ∈ ns) (hne : m ≠ n) (hr : h.written m = [r]) :
    h.Asks c r := by
  have hlive := hs.live_of_waiting hn hc hw hu hm hne
  have hblock := block_live_cons hlive hr
  by_cases hhead : ns.head? = some m
  · have hund : h.Undispatched n := by
      by_contra hund
      have hnhead := hs.head_of_not_live ((hs.mem n).mpr ⟨hn, hc, hund, hu⟩) fun hl => hl.1 hw
      exact hne (Option.some.inj (hhead.symm.trans hnhead))
    have hlast := (hs.waiting n hn hc hund).1
    rw [hs.last_of_head hhead, hblock] at hlast
    exact ⟨n, hn, hc, (Option.some.inj hlast).symm, hu⟩
  · obtain ⟨-, m', hm', htop⟩ := hs.stacked.of_not_head hm hhead
    obtain ⟨hlt, hc', -, hu'⟩ := (hs.mem m').mp hm'
    rw [hblock] at htop
    exact ⟨m', hlt, hc', (Option.some.inj htop).symm, hu'⟩

/-- While a request of the call waits to be written, the actor that opened the call asks for something. -/
theorem Stack.opener_asks (hs : h.Stack c L a ns) (hn : n < h.nreq) (hc : (h.pack n).callId = c)
    (hu : h.Unanswered n) (ho : h.OpenedBy c r) : h.Asks c r := by
  obtain rfl := hs.root.unique ho
  by_cases hnil : ns = []
  · have hund : h.Undispatched n := by
      by_contra hund
      have hmem := (hs.mem n).mpr ⟨hn, hc, hund, hu⟩
      rw [hnil] at hmem
      cases hmem
    have hlast := (hs.waiting n hn hc hund).1
    rw [hs.last_of_nil hnil] at hlast
    exact ⟨n, hn, hc, (Option.some.inj hlast).symm, hu⟩
  · obtain ⟨m, hm, hma⟩ := hs.stacked.base_calls hnil
    obtain ⟨hlt, hmc, -, hmu⟩ := (hs.mem m).mp hm
    exact ⟨m, hlt, hmc, hma, hmu⟩

end History

namespace Sys

variable {cfg : Setting} {s t : Sys} {l : Label} {k : Conn} {n m : Nat} {r af issuer select : Ref}
  {c : StdString} {q : Queued} {rest : List Queued}

theorem Move.newly_issued (h : Move cfg s l t) (hn : n < t.history.nreq) : n < s.history.nreq ∨
    ∃ k p af, l = .read k (.request p) ∧ s.pc k = .read ∧ s.proxy.actorPidMap p.pid = some af ∧
      n = s.history.nreq ∧ t.history = s.history.issue k af p := by
  rcases h.issue_cases hn with hlt | ⟨k, p, af, hl, hk, haf, hnew, rfl⟩
  · exact Or.inl hlt
  · exact Or.inr ⟨k, p, af, hl, hk, haf, hnew, by rw [onRequest_eq haf]; rfl⟩

/-- What was delivered to an actor is held until the actor answers. -/
theorem Move.holds (h : Move cfg s l t) (hs : Sound cfg s) (hrule : Lawful cfg s l)
    (hh : s.history.Holds c r) : t.history.Holds c r ∨
      ∃ k p n, l = .read k (.response p) ∧ s.answered k p.callId = some n ∧ r ∈ s.history.written n := by
  obtain ⟨n, hn, hc, hw, hd, hr⟩ := hh
  have hg := h.grows
  by_cases hrep : t.history.replies n = s.history.replies n
  · left
    refine ⟨n, hn.trans_le hg.nreq, ?_, (hg.written n hn).subset hw, hg.delivered n hn hd, by rw [hrep, hr]⟩
    rw [hg.pack n hn, hc]
  · obtain ⟨k, p, hl, hans, -⟩ := h.replied hs hrule hn hrep
    exact Or.inr ⟨k, p, n, hl, hans, hw⟩

theorem Sound.callee_idle (hs : Sound cfg s) {p : CoroActorResponse} (hrule : s.ResponseRule k p)
    (hans : s.answered k p.callId = some n) (hr : r ∈ s.history.written n) :
    ∀ m < s.history.nreq, s.history.issuer m = r → ¬ s.history.Unanswered m := by
  obtain ⟨n', hn, hans', ha⟩ := answered_of_serves hrule.2
  obtain rfl := Option.some.inj (hans.symm.trans hans')
  obtain ⟨-, -, callee, hlt, hk, hw⟩ := hs.answers hn ha
  rw [hw, List.mem_singleton] at hr
  rw [hr]
  exact hs.answered_of_idle hrule.1 hlt hk

theorem Sound.answered_delivered (hs : Sound cfg s) {p : CoroActorResponse} (hrule : s.ResponseRule k p)
    (hans : s.answered k p.callId = some n) : s.history.delivered n = true := by
  obtain ⟨n', hn, hans', ha⟩ := answered_of_serves hrule.2
  obtain rfl := Option.some.inj (hans.symm.trans hans')
  obtain ⟨m, hm, hma, hd⟩ := hrule.2
  obtain ⟨hlive, hc, x, hx, hxk, hw⟩ := hs.answers hn ha
  obtain ⟨hmlive, hmc, y, hy, hyk, hmw⟩ := hs.answers hm hma
  obtain rfl := hs.wired.socket_inj y hy x hx (hyk.trans hxk.symm)
  have hidle := hs.answered_of_idle hrule.1 hy hyk
  obtain ⟨L, a, ns, -, hst⟩ := hs.stack hn
  rw [hc] at hst
  rw [← hst.live_unique hidle hn hc hlive hw hm hmc hmlive hmw]
  exact hd

/-- What entitles a process to send a request of the call. -/
theorem Sound.entitled (hs : Sound cfg s) {p : CoroActorRequest} (hk : s.pc k = .read)
    (haf : s.proxy.actorPidMap p.pid = some af) (hrule : Lawful cfg s (.read k (.request p))) :
    s.Fresh p.callId ∨ s.history.OpenedBy p.callId af ∨ ∃ m < s.history.nreq,
      (s.history.pack m).callId = p.callId ∧ s.history.Live m ∧ s.history.written m = [af] ∧
        s.history.delivered m = true := by
  obtain ⟨hlt, hsocket, -⟩ := hs.sender hk haf hrule.1
  rcases hrule.2 with hfresh | ⟨m, hm, hc, hconn, hmin⟩ | ⟨m, hm, ha, hd⟩
  · exact Or.inl hfresh
  · exact Or.inr (Or.inl ⟨m, hm, hc, (hs.issuer_eq hlt hsocket hm).mpr hconn, hmin⟩)
  · obtain ⟨hlive, hc, x, hx, hxk, hw⟩ := hs.answers hm ha
    obtain rfl := hs.wired.socket_inj x hx af hlt (hxk.trans hsocket.symm)
    exact Or.inr (Or.inr ⟨m, hm, hc, hlive, hw, hd⟩)

/-- The issuers of unanswered requests opened their call or serve it. -/
def IssuersEntitled (s : Sys) : Prop := ∀ n < s.history.nreq, s.history.Unanswered n →
  s.history.OpenedBy (s.history.pack n).callId (s.history.issuer n) ∨
    s.history.Holds (s.history.pack n).callId (s.history.issuer n)

theorem IssuersEntitled.step (hi : IssuersEntitled s) (h : Move cfg s l t) (hs : Sound cfg s)
    (hrule : Lawful cfg s l) : IssuersEntitled t := by
  intro n hn hu
  have hg := h.grows
  rcases h.newly_issued hn with hlt | ⟨k, p, af, rfl, hk, haf, rfl, hhist⟩
  · have hus := hg.unanswered hlt hu
    rw [hg.issuer n hlt, hg.pack n hlt]
    rcases hi n hlt hus with ho | hh
    · exact Or.inl (hg.openedBy ho)
    · rcases h.holds hs hrule hh with hh' | ⟨k, p, m, rfl, hans, hm⟩
      · exact Or.inr hh'
      · exact absurd hus (hs.callee_idle hrule.1 hans hm n hlt rfl)
  · have hpack : t.history.pack s.history.nreq = p := by simp [hhist]
    have hissuer : t.history.issuer s.history.nreq = af := by simp [hhist]
    rw [hpack, hissuer]
    rcases hs.entitled hk haf hrule with hfresh | ho | ⟨m, hm, hc, hlive, hw, hd⟩
    · left
      refine ⟨s.history.nreq, hn, by rw [hpack], hissuer, fun m hm => ?_⟩
      rw [hg.pack m hm]
      exact hfresh m hm
    · exact Or.inl (hg.openedBy ho)
    · have hh : s.history.Holds p.callId af := ⟨m, hm, hc, by simp [hw], hd, hlive.2⟩
      rcases h.holds hs hrule hh with hh' | ⟨_, _, _, hl, _⟩
      · exact Or.inr hh'
      · nomatch hl

/-- Bookkeeping of the writes of REQUESTs: what was not written was not delivered, one coroutine writes a
request, it has not been delivered as long as something is left to go out, and an answered request was
delivered. -/
structure Undelivered (s : Sys) : Prop where
  unwritten : ∀ n < s.history.nreq, s.history.written n = [] → s.history.delivered n = false
  unique : ∀ {j k q q' select select' c c'}, s.pc j = .request q select c → s.pc k = .request q' select' c' →
    q.serial = q'.serial → j = k
  left : ∀ {k q select c}, s.pc k = .request q select c → (s.write k).left ≠ [] →
    s.history.delivered q.serial = false
  replied : ∀ n < s.history.nreq, s.history.replies n ≠ [] → s.history.delivered n = true

theorem undelivered_init : Undelivered Sys.init where
  unwritten _ hn := absurd hn (Nat.not_lt_zero _)
  unique hj := by cases hj
  left hk := by cases hk
  replied _ hn := absurd hn (Nat.not_lt_zero _)

theorem Undelivered.replies_nil (hu : Undelivered s) (hn : n < s.history.nreq)
    (hd : s.history.delivered n = false) : s.history.replies n = [] := by
  by_contra hne
  rw [hu.replied n hn hne] at hd
  cases hd

theorem Move.at_request (h : Move cfg s l t) {j : Nat} {d : Cont} (hj : t.pc j = .request q select d) :
    (s.pc j = .request q select d ∧ ((t.write j).left ≠ [] → (s.write j).left ≠ [])) ∨
      l = .run j ∧ ∃ af rest issuer, s.Departs cfg j af d q rest issuer select := by
  have hother : ∀ {k : Conn} {p : Pc}, t.pc = Function.update s.pc k p → p.requests = false →
      (∀ i : Nat, i ≠ k → t.write i = s.write i) →
      s.pc j = .request q select d ∧ ((t.write j).left ≠ [] → (s.write j).left ≠ []) := by
    intro k p hpc hp hwrite
    have hne : j ≠ k := by
      rintro rfl
      rw [hpc, Function.update_self] at hj
      rw [hj] at hp
      cases hp
    rw [hpc, Function.update_of_ne hne] at hj
    rw [hwrite j hne]
    exact ⟨hj, fun hl => hl⟩
  have hcont : ∀ c : Cont, c.pc.requests = false := by
    intro c
    cases c <;> rfl
  cases h with
  | accept => exact Or.inl (hother rfl rfl fun _ _ => rfl)
  | connect =>
      exact Or.inl (hother rfl rfl fun i hi => by simp [onConnect, Function.update_of_ne hi])
  | request _ _ haf =>
      rw [onRequest_eq haf] at hother ⊢
      exact Or.inl (hother rfl rfl fun _ _ => rfl)
  | response => exact Or.inl (hother rfl rfl fun i hi => by simp [Function.update_of_ne hi])
  | stay => exact Or.inl ⟨hj, fun hl => hl⟩
  | undefined => exact Or.inl ⟨hj, fun hl => hl⟩
  | @transfer k count _ _ hleft =>
      refine Or.inl ⟨hj, fun hl => ?_⟩
      by_cases hjk : j = k
      · rw [hjk]
        exact hleft
      · simpa [onTransfer, Function.update_of_ne hjk] using hl
  | @writing k af c q' rest issuer select' hd =>
      by_cases hjk : j = k
      · subst hjk
        simp only [startWrite_pc, Function.update_self, Pc.request.injEq] at hj
        obtain ⟨rfl, rfl, rfl⟩ := hj
        exact Or.inr ⟨rfl, af, rest, issuer, hd⟩
      · left
        simpa [Function.update_of_ne hjk] using hj
  | readError => exact Or.inl (hother rfl rfl fun _ _ => rfl)
  | resumeConnack => exact Or.inl (hother rfl rfl fun _ _ => rfl)
  | resumeResponse => exact Or.inl (hother rfl rfl fun _ _ => rfl)
  | wake => exact Or.inl (hother rfl rfl fun _ _ => rfl)
  | resumeRequest => exact Or.inl (hother rfl (hcont _) fun _ _ => rfl)
  | rollback => exact Or.inl (hother rfl (hcont _) fun _ _ => rfl)
  | idle => exact Or.inl (hother rfl (hcont _) fun _ _ => rfl)
  | refused => exact Or.inl (hother rfl (hcont _) fun _ _ => rfl)
  | buffered => exact Or.inl (hother rfl (hcont _) fun _ _ => rfl)

/-- A REQUEST is delivered by the last partial write of the coroutine that sends it. -/
theorem Move.newly_delivered (h : Move cfg s l t) (hs : Orderly cfg s) (hn : n < s.history.nreq)
    (hd : t.history.delivered n = true) : s.history.delivered n = true ∨
      ∃ k count q select c, l = .transfer k count ∧ s.pc k = .request q select c ∧ q.serial = n ∧
        (s.write k).left.drop (count + 1) = [] ∧ (t.write k).left = [] := by
  cases h with
  | request _ _ haf =>
      rw [onRequest_eq haf] at hd
      left
      simpa [Function.update_of_ne hn.ne] using hd
  | @transfer k count _ hk =>
      have heng := hs.engaged k
      rw [Engaged] at heng
      simp only [onTransfer] at hd ⊢
      split at hd
      · next hleft =>
          cases hpc : s.pc k with
          | connack =>
              rw [hpc] at heng
              rw [heng] at hd
              exact Or.inl hd
          | response afSelf c =>
              rw [hpc] at heng
              obtain ⟨-, -, -, m, -, hcarries, -⟩ := heng
              rw [hcarries] at hd
              exact Or.inl hd
          | request q select c =>
              rw [hpc] at heng
              rw [heng.1] at hd
              simp only [History.wentOut_delivered, Function.update_apply] at hd
              split at hd
              · next hnq =>
                  exact Or.inr ⟨k, count, q, select, c, rfl, hpc, hnq.symm, hleft, by simpa using hleft⟩
              · exact Or.inl hd
          | absent | read | handle | wake | done =>
              rw [hpc] at hk
              cases hk
      · exact Or.inl hd
  | _ => exact Or.inl hd

theorem Undelivered.step (hi : Undelivered s) (h : Move cfg s l t) (hs : Orderly cfg s)
    (hrule : Lawful cfg s l) : Undelivered t := by
  have hwritten : ∀ {j q select c}, s.pc j = .request q select c → s.history.written q.serial ≠ [] := by
    intro j q select c hj
    rw [(hs.at_request hj).2.2.1]
    exact List.cons_ne_nil _ _
  constructor
  · intro n hn hw
    rcases h.newly_issued hn with hlt | ⟨k, p, af, rfl, -, -, rfl, hhist⟩
    · have hws : s.history.written n = [] := List.prefix_nil.mp (hw ▸ h.grows.written n hlt)
      by_contra hd
      rcases h.newly_delivered hs hlt (by simpa using hd) with hds | ⟨k, _, q, select, c, -, hk, rfl, -⟩
      · rw [hi.unwritten n hlt hws] at hds
        cases hds
      · exact hwritten hk hws
    · simp [hhist]
  · intro j k q q' select select' c c' hj hk heq
    rcases h.at_request hj with ⟨hj', -⟩ | ⟨rfl, af, rest, issuer, hd⟩
    · rcases h.at_request hk with ⟨hk', -⟩ | ⟨-, af, rest, issuer, hd⟩
      · exact hi.unique hj' hk' heq
      · exact absurd (hs.departs hd).2.2.1 (heq ▸ hwritten hj')
    · rcases h.at_request hk with ⟨hk', -⟩ | ⟨hl, -⟩
      · exact absurd (hs.departs hd).2.2.1 (heq ▸ hwritten hk')
      · exact Label.run.inj hl
  · intro k q select c hk hleft
    have hlt : q.serial < s.history.nreq ∧ s.history.delivered q.serial = false := by
      rcases h.at_request hk with ⟨hk', hleft'⟩ | ⟨-, af, rest, issuer, hd⟩
      · exact ⟨(hs.at_request hk').2.1, hi.left hk' (hleft' hleft)⟩
      · obtain ⟨hlt, -, hw, -⟩ := hs.departs hd
        exact ⟨hlt, hi.unwritten _ hlt hw⟩
    by_contra hd
    rcases h.newly_delivered hs hlt.1 (by simpa using hd) with
        hds | ⟨j, _, q', select', c', -, hj, heq, -, hleft'⟩
    · rw [hlt.2] at hds
      cases hds
    · rcases h.at_request hk with ⟨hk', -⟩ | ⟨-, af, rest, issuer, hdep⟩
      · rw [hi.unique hk' hj heq.symm] at hleft
        exact hleft hleft'
      · exact hwritten hj (heq ▸ (hs.departs hdep).2.2.1)
  · intro n hn hr
    rcases h.newly_issued hn with hlt | ⟨k, p, af, rfl, -, -, rfl, hhist⟩
    · refine h.grows.delivered n hlt ?_
      by_cases hsame : t.history.replies n = s.history.replies n
      · exact hi.replied n hlt (hsame ▸ hr)
      · obtain ⟨k, p, rfl, hans, -⟩ := h.replied hs.toSound hrule hlt hsame
        exact hs.answered_delivered hrule.1 hans
    · simp [hhist] at hr

end Sys

end CoroActor.Proxy
