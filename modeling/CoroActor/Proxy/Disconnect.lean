import CoroActor.Proxy.Delivery

/-! What the proxy does about a process whose connection is gone. The coroutine of the connection
returns; the socket stays open, and the actor stays in both registries. -/

namespace CoroActor.Proxy

open TransitionSystem

namespace Sys

variable {cfg : Setting} {s t : Sys} {l : Label} {k : Conn} {n : Nat} {x : Ref}

/-- The read loop of the actor has ended. -/
def Gone (s : Sys) (x : Ref) : Prop := s.pc (s.proxy.actors x).socket = .done

/-- Every request that the actor issued has been answered, and every request that was buffered at it or
written to it has. -/
def Uninvolved (s : Sys) (x : Ref) : Prop :=
  ∀ n < s.history.nreq, s.history.Unanswered n →
    s.history.issuer n ≠ x ∧ x ∉ s.history.buffered n ++ s.history.written n

instance (s : Sys) (x : Ref) : Decidable (s.Gone x) := inferInstanceAs (Decidable (_ = _))
instance (s : Sys) (x : Ref) : Decidable (s.Uninvolved x) :=
  inferInstanceAs (Decidable (∀ n < s.history.nreq, _ → _))

/-- When a request is taken for a group, each member that has left is preceded by one that joined before it,
is still there, and has nothing else in its queue; or a member has the `call_id` of the request, which is
then refused. -/
def Relieved (cfg : Setting) (s : Sys) (x : Taken) : Prop :=
  ∀ actorName ∈ cfg.serviceMap x.q.pack.serviceName, ∀ y ∈ s.proxy.actorInfoMap actorName, s.Gone y →
    s.proxy.Busy x.q.pack.callId (s.proxy.actorInfoMap actorName) ∨
      ∃ z ∈ s.proxy.actorInfoMap actorName, z < y ∧ ¬ s.Gone z ∧
        ((s.proxy.setMsgQueue x.af x.rest).actors z).msgQueue = []

instance (cfg : Setting) (s : Sys) (x : Taken) : Decidable (s.Relieved cfg x) :=
  inferInstanceAs (Decidable (∀ actorName ∈ cfg.serviceMap _, ∀ y ∈ s.proxy.actorInfoMap actorName, _ → _ ∨ _))

/-- The connections that are lost are those of uninvolved actors, and a request is taken for a group that a
member has left only if another member stands in for it. -/
def KeepsAlive (cfg : Setting) (s : Sys) : Label → Prop
  | .readError k => ∀ x < s.proxy.nactors, (s.proxy.actors x).socket = k → s.Uninvolved x
  | .run k => ∀ x ∈ s.taken k, s.Relieved cfg x
  | _ => True

instance (cfg : Setting) (s : Sys) : (l : Label) → Decidable (KeepsAlive cfg s l)
  | .readError k =>
      inferInstanceAs (Decidable (∀ x < s.proxy.nactors, (s.proxy.actors x).socket = k → s.Uninvolved x))
  | .run k => inferInstanceAs (Decidable (∀ x ∈ s.taken k, _))
  | .read .. | .accept | .transfer .. | .resume .. => inferInstanceAs (Decidable True)

/-- The actors whose connection is lost are uninvolved. -/
def GoneUninvolved (s : Sys) : Prop := ∀ x < s.proxy.nactors, s.Gone x → s.Uninvolved x

theorem le_of_idxOf_le {L : List Nat} {a b : Nat} (hL : L.Pairwise (· < ·)) (ha : a ∈ L) (hb : b ∈ L)
    (hle : L.idxOf a ≤ L.idxOf b) : a ≤ b := by
  rcases hle.eq_or_lt with heq | hlt
  · exact ((List.idxOf_inj ha).mp heq).le
  · have hless := List.pairwise_iff_getElem.mp hL _ _ (List.idxOf_lt_length_of_mem ha)
      (List.idxOf_lt_length_of_mem hb) hlt
    rw [List.getElem_idxOf, List.getElem_idxOf] at hless
    exact hless.le

/-- A request goes to no member that has left: the one that stands in for it comes before it in the scan, and
no queue is shorter than an empty one. -/
theorem Departs.not_gone {af issuer select : Ref} {c : Cont} {q : Queued} {rest : List Queued}
    (hd : s.Departs cfg k af c q rest issuer select) (hw : Wired s) (hok : KeepsAlive cfg s (.run k)) :
    ¬ s.Gone select := by
  intro hgone
  obtain ⟨actorName, hservice, hmin, hfree⟩ := Registry.route_ok hd.route
  rw [Registry.setMsgQueue_infoMap] at hmin hfree
  rw [Registry.setMsgQueue_busy] at hfree
  obtain ⟨hselect, -, hfirst⟩ := List.argmin_eq_some_iff.mp hmin
  rcases hok _ hd.taken actorName hservice select hselect hgone with hbusy | ⟨z, hz, hlt, -, hnil⟩
  · exact hfree hbusy
  · have hle : (s.proxy.setMsgQueue af rest).backlog z ≤ (s.proxy.setMsgQueue af rest).backlog select := by
      rw [Registry.backlog, hnil]
      exact Nat.zero_le _
    exact absurd hlt (not_lt.mpr (le_of_idxOf_le (hw.sorted actorName) hselect hz (hfirst z hz hle)))

theorem Move.trail (h : Move cfg s l t) (hn : n < s.history.nreq)
    (hx : x ∈ t.history.buffered n ++ t.history.written n) :
    x ∈ s.history.buffered n ++ s.history.written n ∨
      ∃ k af c q rest issuer, l = .run k ∧ s.Departs cfg k af c q rest issuer x := by
  cases h with
  | request _ _ haf =>
      rw [onRequest_eq haf] at hx
      left
      simpa [Function.update_of_ne hn.ne] using hx
  | @buffered k af c q rest issuer select hd =>
      rw [returnTo_history, setProxy_history, History.hold_buffered, History.hold_written,
        Function.update_apply] at hx
      split at hx
      · next hnq =>
          subst hnq
          simp only [List.mem_append, List.mem_singleton] at hx ⊢
          rcases hx with (hx | rfl) | hx
          · exact Or.inl (Or.inl hx)
          · exact Or.inr ⟨k, af, c, q, rest, issuer, rfl, hd⟩
          · exact Or.inl (Or.inr hx)
      · exact Or.inl hx
  | @writing k af c q rest issuer select hd =>
      rw [startWrite_history, History.frame_buffered, History.frame_written, setProxy_history,
        History.send_buffered, History.send_written, Function.update_apply] at hx
      split at hx
      · next hnq =>
          subst hnq
          simp only [List.mem_append, List.mem_singleton] at hx ⊢
          rcases hx with hx | hx | rfl
          · exact Or.inl (Or.inl hx)
          · exact Or.inl (Or.inr hx)
          · exact Or.inr ⟨k, af, c, q, rest, issuer, rfl, hd⟩
      · exact Or.inl hx
  | transfer =>
      rw [onTransfer_history] at hx
      exact Or.inl hx
  | _ => exact Or.inl hx

theorem Move.registered (h : Move cfg s l t) (hx : x < t.proxy.nactors) :
    x < s.proxy.nactors ∨ t.pc (t.proxy.actors x).socket = .connack := by
  by_cases hl : ∃ k p, l = .read k (.connect p)
  · obtain ⟨k, p, rfl⟩ := hl
    cases h with
    | connect =>
        rcases Nat.lt_succ_iff_lt_or_eq.mp hx with hlt | rfl
        · exact Or.inl hlt
        · right
          simp [onConnect]
    | stay => exact Or.inl hx
    | undefined => exact Or.inl hx
  · rw [(h.sameWiring fun k p heq => hl ⟨k, p, heq⟩).nactors] at hx
    exact Or.inl hx

theorem Move.of_readError (h : Move cfg s (.readError k) t) : t.history = s.history := by
  cases h <;> rfl

/-- A lost connection sends no request. -/
theorem Move.issuer_not_gone (h : Move cfg s l t) (ht : Sound cfg t) (hn : n < t.history.nreq)
    (hnew : ¬ n < s.history.nreq) : ¬ t.Gone (t.history.issuer n) := by
  intro hgone
  have hread := (h.issued hn).resolve_left hnew
  rw [Gone, (ht.booked.entry n hn).issuer_socket] at hgone
  rcases h.pc_cases (t.history.conn n) with heq | ⟨-, -, -, heq⟩ | ⟨-, -, -, hdone⟩
  · rw [heq, hread] at hgone
    cases hgone
  · rw [heq] at hgone
    cases hgone
  · obtain rfl := hdone hgone
    rw [h.of_readError] at hn
    exact hnew hn

theorem GoneUninvolved.step (hi : GoneUninvolved s) (h : Move cfg s l t) (hw : Wired s) (ht : Sound cfg t)
    (hok : KeepsAlive cfg s l) : GoneUninvolved t := by
  intro x hx hgone n hn hu
  by_cases hlt : n < s.history.nreq
  · have hus := h.grows.unanswered hlt hu
    rw [h.grows.issuer n hlt]
    have hxs : x < s.proxy.nactors := (h.registered hx).resolve_right fun hack => by
      rw [Gone, hack] at hgone
      cases hgone
    rw [Gone, (h.socket hxs).2] at hgone
    rcases h.pc_cases (s.proxy.actors x).socket with heq | ⟨-, -, -, heq⟩ | ⟨-, -, -, hdone⟩
    · -- the connection was lost before, and nothing was sent to the actor since
      rw [heq] at hgone
      obtain ⟨hne, htrail⟩ := hi x hxs hgone n hlt hus
      refine ⟨hne, fun hmem => ?_⟩
      rcases h.trail hlt hmem with hold | ⟨k, af, c, q, rest, issuer, rfl, hd⟩
      · exact htrail hold
      · exact hd.not_gone hw hok hgone
    · rw [heq] at hgone
      cases hgone
    · obtain rfl := hdone hgone
      rw [h.of_readError]
      exact hok x hxs rfl n hlt hus
  · obtain ⟨hbuf, hwrit⟩ := ((h.new_request hn).resolve_left hlt).1
    refine ⟨fun heq => h.issuer_not_gone ht hn hlt (heq ▸ hgone), ?_⟩
    rw [hbuf, hwrit]
    exact List.not_mem_nil

/-- Nothing is put into the queue of a lost actor. -/
theorem Move.queue_of_gone (h : Move cfg s l t) (hs : Sound cfg s) (hrule : Lawful cfg s l)
    (hok : KeepsAlive cfg s l) (hgone : s.Gone x) :
    ∀ q ∈ (t.proxy.actors x).msgQueue, q ∈ (s.proxy.actors x).msgQueue := by
  intro q' hq'
  have hpop : ∀ {k : Conn} {af : Ref} {c : Cont} {q : Queued} {rest : List Queued}, s.Takes k af c q rest →
      (q' ∈ if x = af then rest else (s.proxy.actors x).msgQueue) → q' ∈ (s.proxy.actors x).msgQueue := by
    intro k af c q rest ht hmem
    split at hmem
    · next hx =>
        rw [hx, ht.queue]
        exact List.mem_cons_of_mem _ hmem
    · exact hmem
  cases h with
  | connect => rwa [hs.wired.onConnect_msgQueue] at hq'
  | @request k p af _ hk haf =>
      obtain ⟨-, hsocket, -⟩ := hs.sender hk haf hrule.1
      have hne : x ≠ af := by
        rintro rfl
        rw [Gone, hsocket, hk] at hgone
        cases hgone
      rw [onRequest_eq haf, setPc_proxy, setProxy_proxy, Registry.emplace_msgQueue, if_neg hne,
        Registry.ite_setChain_actors] at hq'
      exact hq'
  | refused ht =>
      rw [returnTo_proxy, setProxy_proxy, Registry.setMsgQueue_msgQueue] at hq'
      exact hpop ht hq'
  | @buffered k af c q rest issuer select hd =>
      have hne : x ≠ select := fun heq => hd.not_gone hs.wired hok (heq ▸ hgone)
      rw [returnTo_proxy, setProxy_proxy, Registry.emplace_msgQueue, if_neg hne,
        Registry.depart_msgQueue] at hq'
      exact hpop hd.toTakes hq'
  | writing hd =>
      rw [startWrite_proxy, setProxy_proxy, Registry.updateActorInfo_msgQueue,
        Registry.depart_msgQueue] at hq'
      exact hpop hd.toTakes hq'
  | resumeResponse | rollback | wake => simpa using hq'
  | _ => exact hq'

/-- No frame is written to a lost actor. -/
theorem Move.frames_of_gone (h : Move cfg s l t) (hs : Sound cfg s) (hrule : Lawful cfg s l)
    (hok : KeepsAlive cfg s l) (hi : GoneUninvolved s) (hx : x < s.proxy.nactors) (hgone : s.Gone x) :
    t.history.frames (s.proxy.actors x).socket = s.history.frames (s.proxy.actors x).socket := by
  have hother : ∀ r : Ref, r < s.proxy.nactors → r ≠ x →
      (s.proxy.actors x).socket ≠ (s.proxy.actors r).socket := fun r hr hne heq =>
    hne (hs.wired.socket_inj r hr x hx heq.symm)
  cases h with
  | @connect k p _ hk =>
      have hne : (s.proxy.actors x).socket ≠ k := by
        rintro rfl
        rw [Gone, hk] at hgone
        cases hgone
      simp [onConnect, Function.update_of_ne hne]
  | request _ _ haf => rw [onRequest_eq haf]; rfl
  | @response k p L back afSelf _ hk hchain =>
      obtain ⟨n, hn, -, hlive, -, -, -, -, hback, -⟩ := hs.reply hrule.1 hchain
      obtain ⟨hissuer, htrail⟩ := hi x hx hgone n hn hlive.unanswered
      have hne : back ≠ x := by
        rw [hback]
        rcases s.history.holder_mem n with heq | hmem
        · rw [heq]
          exact hissuer
        · rintro rfl
          exact htrail (List.mem_append_left _ hmem)
      have hlt : back < s.proxy.nactors := by
        rw [hback]
        exact hs.booked.holder_lt hn
      simp [Function.update_of_ne (hother back hlt hne)]
  | @writing k af c q rest issuer select hd =>
      obtain ⟨-, -, -, -, hlt, -⟩ := hs.departs hd
      have hne : select ≠ x := fun heq => hd.not_gone hs.wired hok (heq ▸ hgone)
      simp [Function.update_of_ne (hother select hlt hne)]
  | transfer => rw [onTransfer_history]
  | _ => rfl

end Sys

end CoroActor.Proxy
