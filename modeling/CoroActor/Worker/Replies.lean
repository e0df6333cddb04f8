import CoroActor.Worker.Account

/-! What is written to a client: the answers to its first requests, in their order. A request that names no
service of the process, or whose service fails, is the last one that matters. -/

namespace CoroActor.Worker

open TransitionSystem

/-- The frame of a reply: one byte of type, four bytes of length in network order and the value. -/
def CoroActorPack.frame (p : CoroActorPack) : Frame := ⟨p.type, p.value⟩

namespace Sys

variable {cfg : Setting} {s t : Sys} {l : Label} {k : TcpConn}

/-- The frames that were written to a client. -/
def written (s : Sys) (k : TcpConn) : List Frame := (s.history.replies k).map CoroActorPack.frame

/-- Only a service of the process is ever called. -/
def KnownServices (cfg : Setting) (s : Sys) : Prop :=
  ∀ j < s.history.ninv, cfg.serviceMap (s.history.message j).serviceName = true

theorem Move.calls_kept (h : s.Move cfg l t) :
    t.history.ninv = s.history.ninv ∧ t.history.message = s.history.message ∨
      ∃ msg, cfg.serviceMap msg.serviceName = true ∧ t.history.ninv = s.history.ninv + 1 ∧
        t.history.message = Function.update s.history.message s.history.ninv msg := by
  cases h with
  | @invoke type msg rest _ _ _ hservice => exact Or.inr ⟨msg, hservice, rfl, rfl⟩
  | leave | serviceNotified =>
      refine Or.inl ?_
      rw [finish_history]
      exact ⟨rfl, rfl⟩
  | remote =>
      rw [push_eq]
      exact Or.inl ⟨rfl, rfl⟩
  | request =>
      rw [onRequest_eq]
      exact Or.inl ⟨rfl, rfl⟩
  | send =>
      rw [startSend_eq]
      exact Or.inl ⟨rfl, rfl⟩
  | _ => exact Or.inl ⟨rfl, rfl⟩

theorem knownServices {ok : Sys → Label → Prop} (hr : Reachable (machine cfg) ok s) : KnownServices cfg s := by
  refine hr.invariant (fun j hj => absurd hj (Nat.not_lt_zero j)) fun u l t _ hknown _ hst j hj => ?_
  rcases (step_move hst).calls_kept with ⟨hn, hmessage⟩ | ⟨msg, hservice, hn, hmessage⟩
  · rw [hmessage]
    exact hknown j (hn ▸ hj)
  · rw [hmessage]
    rw [hn] at hj
    rcases Nat.lt_succ_iff_lt_or_eq.mp hj with hlt | rfl
    · rw [Function.update_of_ne hlt.ne]
      exact hknown j hlt
    · rwa [Function.update_self]

theorem closeTcp_closed (socket : Option TcpConn) (hclosed : s.tcpOpen k = false) :
    (s.closeTcp socket).tcpOpen k = false := by
  cases socket with
  | none => exact hclosed
  | some k' =>
      by_cases heq : k = k'
      · simp [heq]
      · simpa [Function.update_of_ne heq] using hclosed

theorem finish_closed (s : Sys) (msg : CoroActorMsg) (hclosed : s.tcpOpen k = false) :
    (s.finish msg).tcpOpen k = false ∧ (s.finish msg).history.replies k = s.history.replies k := by
  unfold finish
  split
  · exact ⟨closeTcp_closed (s := s.setCtx _ _) msg.socket hclosed, rfl⟩
  · split
    · next k' _ =>
        refine ⟨hclosed, ?_⟩
        by_cases heq : k = k'
        · rw [← heq, hclosed]
          rfl
        · simp only [setPc_history, setCtx_history]
          split
          · exact Function.update_of_ne heq _ _
          · rfl
    · split
      · refine ⟨hclosed, ?_⟩
        simp only [setPc_history, setCtx_history]
        split <;> rfl
      · exact ⟨hclosed, rfl⟩

/-- Nothing more happens on a connection that is closed. -/
theorem Move.closed_kept (h : s.Move cfg l t) (hk : k < s.nconn) (hclosed : s.tcpOpen k = false) :
    k < t.nconn ∧ t.tcpOpen k = false ∧ t.history.replies k = s.history.replies k := by
  have hfinish : ∀ {u : Sys} (msg : CoroActorMsg), u.nconn = s.nconn → u.tcpOpen k = false →
      u.history.replies k = s.history.replies k → k < (u.finish msg).nconn ∧
        (u.finish msg).tcpOpen k = false ∧ (u.finish msg).history.replies k = s.history.replies k := by
    intro u msg hn hu hreplies
    obtain ⟨hopen, hkept⟩ := u.finish_closed msg hu
    have hnconn : (u.finish msg).nconn = u.nconn :=
      u.finish_kept (P := fun v => v.nconn = u.nconn) msg fun _ _ _ _ _ _ _ => rfl
    exact ⟨by rwa [hnconn, hn], hopen, hkept.trans hreplies⟩
  cases h with
  | notFound => exact ⟨hk, closeTcp_closed (s := s.takeFront _ _) _ hclosed, rfl⟩
  | leave => exact hfinish _ rfl hclosed rfl
  | serviceNotified => exact hfinish _ rfl hclosed rfl
  | accept => exact ⟨Nat.lt_succ_of_lt hk, (Function.update_of_ne hk.ne _ _).trans hclosed, rfl⟩
  | remoteError => exact ⟨hk, closeTcp_closed (some _) hclosed, rfl⟩
  | remote =>
      rw [push_eq]
      exact ⟨hk, hclosed, rfl⟩
  | request =>
      rw [onRequest_eq]
      exact ⟨hk, hclosed, rfl⟩
  | send =>
      rw [startSend_eq]
      exact ⟨hk, hclosed, rfl⟩
  | _ => exact ⟨hk, hclosed, rfl⟩

/-- The connection is closed, and it stays so, and nothing more is written to it, however the process
goes on. -/
def Finished (cfg : Setting) (s : Sys) (k : TcpConn) : Prop :=
  ∀ t, Reachable ⟨s, (machine cfg).step⟩ LastRule t → t.tcpOpen k = false ∧ t.written k = s.written k

theorem finished_of_closed (hk : k < s.nconn) (hclosed : s.tcpOpen k = false) : Finished cfg s k := by
  intro t ht
  have hkept : k < t.nconn ∧ t.tcpOpen k = false ∧ t.history.replies k = s.history.replies k := by
    refine ht.invariant (I := fun u => k < u.nconn ∧ u.tcpOpen k = false ∧
      u.history.replies k = s.history.replies k) ⟨hk, hclosed, rfl⟩ ?_
    rintro u l v - ⟨hu, hopen, hreplies⟩ - hst
    obtain ⟨hv, hopen', hreplies'⟩ := (step_move hst).closed_kept hu hopen
    exact ⟨hv, hopen', hreplies'.trans hreplies⟩
  exact ⟨hkept.2.1, by rw [written, written, hkept.2.2]⟩

/-- `handle_message` has left call `j` of `func`. -/
def Left (s : Sys) (j : Nat) : Prop := s.pc.phase.served = none ∨ j + 1 < s.history.ninv

/-- The answers to a client: `requests` are its requests in the order in which they were parsed, and `calls`
the calls of `func` for the first of them. The first of these were answered, each with what its service
produced. -/
structure RepliesInOrder (s : Sys) (k : TcpConn) (requests : List CoroActorMsg) (calls : List Nat) : Prop where
  parsed : calls.map s.history.message <+: requests
  handled : s.history.takenOn (some k) <+: requests
  answered : ∃ n ≤ calls.length, s.written k = ((calls.take n).map s.history.produced).map CoroActorPack.frame ∧
    ∀ j ∈ calls.take n, s.history.completed j = true ∧ s.history.failed j = false

theorem Accounted.repliesInOrder (ha : Accounted s) (hs : s.server.Sound) (k : TcpConn) :
    RepliesInOrder s k (s.history.pushedOn (some k)) (s.history.callsOn (some k)) := by
  obtain ⟨done, rest, hacc⟩ := ha.account (some k)
  have htaken : s.history.takenOn (some k) <+: s.history.pushedOn (some k) := by
    rw [History.takenOn, History.pushedOn, show s.history.pushed = s.history.taken ++ s.ctx.msgQueue from hs.fifo,
      List.filter_append]
    exact List.prefix_append _ _
  have hdone : (s.history.callsOn (some k)).take done.length = done := by
    rw [hacc.calls, List.take_left]
  refine ⟨hacc.taken.trans htaken, htaken, done.length, ?_, ?_, ?_⟩
  · rw [hacc.calls, List.length_append]
    exact Nat.le_add_right _ _
  · rw [hdone, ← hacc.answers]
    rfl
  · rw [hdone]
    exact hacc.done

/-- Request `i` of a client was taken, and it names no service, or its service failed and was left. -/
def Broken (cfg : Setting) (s : Sys) (k : TcpConn) (i : Nat) : Prop :=
  ∃ msg, (s.history.takenOn (some k))[i]? = some msg ∧
    (cfg.serviceMap msg.serviceName = false ∨
      ∃ j, (s.history.callsOn (some k))[i]? = some j ∧ s.history.failed j = true ∧ s.Left j)

/-- After a broken request the connection is closed, and neither it nor a later one was answered. -/
theorem Accounted.broken (ha : Accounted s) (hs : s.server.Sound) (hknown : KnownServices cfg s) {i : Nat}
    (hbroken : Broken cfg s k i) : k < s.nconn ∧ s.tcpOpen k = false ∧ (s.written k).length ≤ i := by
  obtain ⟨msg, hmsg, hcase⟩ := hbroken
  obtain ⟨done, rest, hacc⟩ := ha.account (some k)
  have hlt : k < s.nconn := by
    obtain ⟨hmem, hsocket⟩ := List.mem_filter.mp (List.mem_of_getElem? hmsg)
    exact (ha.formed msg (pushed_of_taken hs hmem)).2 k (of_decide_eq_true hsocket)
  have hlength : (s.written k).length = done.length := by
    have hanswers : (s.history.replies k).length = done.length := by
      rw [show s.history.replies k = done.map s.history.produced from hacc.answers, List.length_map]
    rw [written, List.length_map, hanswers]
  -- the calls are those of the first messages that were taken
  have hcall : ∀ j, (s.history.callsOn (some k))[i]? = some j → s.history.message j = msg := by
    intro j hj
    obtain ⟨later, hlater⟩ := hacc.taken
    have hi : ((s.history.callsOn (some k)).map s.history.message)[i]? = some (s.history.message j) := by
      rw [List.getElem?_map, hj]
      rfl
    have hsame : (s.history.takenOn (some k))[i]? = some (s.history.message j) := by
      rw [← hlater, List.getElem?_append_left (List.getElem?_eq_some_iff.mp hi).1, hi]
    exact Option.some.inj (hsame.symm.trans hmsg)
  rcases hcase with hunknown | ⟨j, hj, hfailed, hleft⟩
  · have hnone : (s.history.callsOn (some k))[i]? = none := by
      rw [Option.eq_none_iff_forall_ne_some]
      intro j hj
      have hservice : cfg.serviceMap (s.history.message j).serviceName = true :=
        hknown j (History.callsOn_lt (List.mem_of_getElem? hj))
      rw [hcall j hj, hunknown] at hservice
      cases hservice
    have hle : (s.history.callsOn (some k)).length ≤ i := List.getElem?_eq_none_iff.mp hnone
    refine ⟨hlt, ?_, ?_⟩
    · by_contra hopen
      rw [Bool.not_eq_false] at hopen
      have hsame : (s.history.callsOn (some k)).length = (s.history.takenOn (some k)).length := by
        rw [← hacc.opened hopen, List.length_map]
      have hi : i < (s.history.takenOn (some k)).length := (List.getElem?_eq_some_iff.mp hmsg).1
      omega
    · rw [hlength]
      rw [hacc.calls, List.length_append] at hle
      omega
  · have hnotDone : done.length ≤ i := by
      by_contra hi
      rw [not_le] at hi
      rw [hacc.calls, List.getElem?_append_left hi] at hj
      rw [(hacc.done j (List.mem_of_getElem? hj)).2] at hfailed
      cases hfailed
    refine ⟨hlt, ?_, by rwa [hlength]⟩
    have hrest : j ∈ rest := by
      rw [hacc.calls, List.getElem?_append_right hnotDone] at hj
      exact List.mem_of_getElem? hj
    rcases hacc.leftOver with rfl | ⟨j', rfl, hclosed | ⟨hninv, served, hserved, -⟩⟩
    · cases hrest
    · exact hclosed
    · obtain rfl := List.mem_singleton.mp hrest
      rcases hleft with hnone | hlater
      · rw [hnone] at hserved
        cases hserved
      · omega

/-- **Reply order.** In every run in which each service calls `notify_complete` once, as the last thing it
does: what was written to a client are the frames of the answers to its first requests, in their order,
and each is what the service produced that was called with that request. After a request that names no
service of the process, or whose service failed, the connection is closed for good, and neither that
request nor a later one is ever answered. -/
theorem replies_in_order (hr : Reachable (machine cfg) LastRule s) (k : TcpConn) :
    RepliesInOrder s k (s.history.pushedOn (some k)) (s.history.callsOn (some k)) ∧
    ∀ i, Broken cfg s k i → s.tcpOpen k = false ∧ (s.written k).length ≤ i ∧ Finished cfg s k := by
  obtain ⟨hs, ha⟩ := accounted hr
  refine ⟨ha.repliesInOrder hs k, fun i hi => ?_⟩
  obtain ⟨hk, hclosed, hlength⟩ := ha.broken hs (knownServices hr) hi
  exact ⟨hclosed, hlength, finished_of_closed hk hclosed⟩

/-- A client sends two requests at once, and the second one names no service. -/
theorem replies_in_order_sample : ∃ s, Reachable (machine Sample.setting) LastRule s ∧
    s.written 0 = [⟨9, [7]⟩] ∧ s.tcpOpen 0 = false ∧
    RepliesInOrder s 0 (s.history.pushedOn (some 0)) (s.history.callsOn (some 0)) ∧
    Finished Sample.setting s 0 := by
  obtain ⟨s, hr, hwritten, htaken⟩ := Reachable.of_leadsTo (machine Sample.setting) LastRule
    [.run 0, .accept, .remote 0 (ascii "svc_a") ⟨1, []⟩, .remote 0 (ascii "svc_b") ⟨2, []⟩, .messageNotified,
      .run 0, .respond 0 ⟨9, [7]⟩, .complete 0, .funcReturn, .replied, .run 0]
    (fun s => s.written 0 = [⟨9, [7]⟩] ∧
      (s.history.takenOn (some 0))[1]? = some ⟨ascii "svc_b", [], ⟨2, []⟩, some 0, false⟩) (by decide +kernel)
  obtain ⟨horder, hbroken⟩ := replies_in_order hr 0
  obtain ⟨hclosed, -, hfinished⟩ := hbroken 1 ⟨_, htaken, Or.inl (by decide)⟩
  exact ⟨s, hr, hwritten, hclosed, horder, hfinished⟩

end Sys

end CoroActor.Worker
