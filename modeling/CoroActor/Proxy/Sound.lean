import CoroActor.Proxy.Ledger

/-! The invariants of the registration and of the ledger hold in every run of well-behaved processes that open
their calls with fresh call ids, and what they say about the three frames that the proxy reads. -/

namespace CoroActor.Proxy

open TransitionSystem

namespace Sys

/-- The invariants that every run of well-behaved processes with fresh call ids keeps. -/
structure Sound (cfg : Setting) (s : Sys) : Prop where
  wired : Wired s
  booked : Booked cfg s.proxy s.history

variable {cfg : Setting} {s t : Sys} {l : Label} {k : Conn} {r : Ref}

theorem Sound.issuer_eq (hs : Sound cfg s) (hr : r < s.proxy.nactors) (hk : (s.proxy.actors r).socket = k)
    {n : Nat} (hn : n < s.history.nreq) : s.history.issuer n = r ↔ s.history.conn n = k := by
  rw [← (hs.booked.entry n hn).issuer_socket, ← hk]
  constructor
  · exact fun heq => by rw [heq]
  · exact hs.wired.socket_inj _ (hs.booked.entry n hn).issuer_lt r hr

/-- A process that is not suspended in `send` has had all its requests answered. -/
theorem Sound.answered_of_idle (hs : Sound cfg s) (hidle : s.Idle k) (hr : r < s.proxy.nactors)
    (hk : (s.proxy.actors r).socket = k) :
    ∀ m < s.history.nreq, s.history.issuer m = r → ¬ s.history.Unanswered m := by
  intro m hm heq hu
  obtain ⟨-, x, hx, hxk⟩ := hidle m hm ((hs.issuer_eq hr hk hm).mp heq)
  have hrep := ((hs.booked.entry m hm).replied (List.ne_nil_of_mem hx)).2
  have hxh : x = s.history.holder m := by
    rw [hrep] at hx
    exact List.mem_singleton.mp hx
  have hxr : x = r := hs.wired.socket_inj x (by rw [hxh]; exact hs.booked.holder_lt hm) r hr (hxk.trans hk.symm)
  rw [History.Unanswered, heq, ← hxr] at hu
  exact hu hx

theorem Sound.answers (hs : Sound cfg s) {c : StdString} {n : Nat} (hn : n < s.history.nreq)
    (ha : s.Answers k c n) : s.history.Live n ∧ (s.history.pack n).callId = c ∧
      ∃ r < s.proxy.nactors, (s.proxy.actors r).socket = k ∧ s.history.written n = [r] := by
  obtain ⟨hlive, hc, r, hr, hk⟩ := ha
  exact ⟨hlive, hc, r, ((hs.booked.entry n hn).callee r (List.mem_append_right _ hr)).1, hk,
    hs.booked.written_eq hn hr⟩

theorem answered_of_serves {c : StdString} (h : s.Serves k c) :
    ∃ n < s.history.nreq, s.answered k c = some n ∧ s.Answers k c n := by
  obtain ⟨n, hn, ha, -⟩ := h
  cases hf : s.answered k c with
  | none =>
      rw [answered, List.find?_eq_none] at hf
      exact absurd (decide_eq_true ha) (hf n (List.mem_range.mpr hn))
  | some m =>
      have hm := List.find?_some hf
      have hlt := List.mem_of_find?_eq_some hf
      exact ⟨m, List.mem_range.mp hlt, rfl, of_decide_eq_true hm⟩

theorem Sound.reply (hs : Sound cfg s) {p : CoroActorResponse} {L : List Ref} {back afSelf : Ref}
    (hrule : s.ResponseRule k p) (hchain : s.proxy.chain p.callId = L ++ [back, afSelf]) :
    ∃ n < s.history.nreq, s.answered k p.callId = some n ∧ s.history.Live n ∧
      (s.history.pack n).callId = p.callId ∧ s.history.written n = [afSelf] ∧ afSelf < s.proxy.nactors ∧
      (s.proxy.actors afSelf).socket = k ∧ back = s.history.holder n ∧
      Booked cfg (s.proxy.setChain p.callId (L ++ [back])) (s.history.reply (some n) back) := by
  obtain ⟨hidle, hserves⟩ := hrule
  obtain ⟨n, hn, hans, ha⟩ := answered_of_serves hserves
  obtain ⟨hlive, hc, callee, hlt, hk, hw⟩ := hs.answers hn ha
  obtain ⟨rfl, hback, hb⟩ := hs.booked.reply hn hc hlive hw (hs.answered_of_idle hidle hlt hk) hchain
  exact ⟨n, hn, hans, hlive, hc, hw, hlt, hk, hback, hb⟩

/-- What a well-behaved REQUEST is: it comes from a registered actor that awaits nothing. -/
theorem Sound.sender (hs : Sound cfg s) {p : CoroActorRequest} {af : Ref} (hk : s.pc k = .read)
    (haf : s.proxy.actorPidMap p.pid = some af) (hrule : s.RequestRule cfg k p) :
    af < s.proxy.nactors ∧ (s.proxy.actors af).socket = k ∧ (s.proxy.actors af).pid = p.pid ∧
      cfg.serviceMap p.serviceName ≠ some (s.proxy.actors af).name ∧
      ∀ m < s.history.nreq, s.history.issuer m = af → ¬ s.history.Unanswered m := by
  obtain ⟨⟨r, hr, hsock, hpid, hforeign⟩, hidle, -⟩ := hrule
  have hlive := hs.wired.live r hr (by rw [hsock, hk]; nofun)
  rw [hpid, haf] at hlive
  obtain rfl := Option.some.inj hlive
  exact ⟨hr, hsock, hpid, hforeign, hs.answered_of_idle hidle hr hsock⟩

/-- A REQUEST whose call is open comes from the actor that executes it. Without fresh ids, the call could be
that of an earlier process with the same pid. -/
theorem Sound.sender_last (hs : Sound cfg s) {p : CoroActorRequest} {af : Ref} {L : List Ref} {a : Ref}
    {ns : List Nat} (hk : s.pc k = .read) (haf : s.proxy.actorPidMap p.pid = some af)
    (hrule : Lawful cfg s (.read k (.request p))) (hst : s.history.Stack p.callId L a ns) :
    L.getLast? = some af ∧ ∀ m ∈ ns.head?, s.history.Live m := by
  obtain ⟨hr, hsock, -, -, hanswered⟩ := hs.sender hk haf hrule.1
  rcases hrule.2 with hfresh | ⟨n, hn, hc, hconn, hmin⟩ | ⟨n, hn, ha, -⟩
  · obtain ⟨n, hn, hc, -⟩ := hst.root
    exact absurd hc (hfresh n hn)
  · exact hst.last_of_opened hanswered ⟨n, hn, hc, (hs.issuer_eq hr hsock hn).mpr hconn, hmin⟩
  · obtain ⟨hl, hc, x, hx, hxk, hw⟩ := hs.answers hn ha
    obtain rfl := hs.wired.socket_inj x hx af hr (hxk.trans hsock.symm)
    exact hst.last_of_serves hanswered hn hc hl hw

theorem Sound.departs (hs : Sound cfg s) {af : Ref} {c : Cont} {q : Queued} {rest : List Queued}
    {issuer select : Ref} (h : s.Departs cfg k af c q rest issuer select) :
    q.serial < s.history.nreq ∧ s.history.pack q.serial = q.pack ∧ s.history.written q.serial = [] ∧
      s.history.holder q.serial = af ∧ select < s.proxy.nactors ∧
      cfg.serviceMap q.pack.serviceName = some (s.proxy.actors select).name := by
  obtain ⟨g, hg, -, hlt, hname⟩ := h.select_mem hs.wired
  obtain ⟨hn, hp, hw, hh⟩ := hs.booked.queued af q h.mem_queue
  exact ⟨hn, hp, hw, hh, hlt, by rw [hname]; exact hg⟩

theorem Sound.stack (hs : Sound cfg s) {n : Nat} (hn : n < s.history.nreq) : ∃ L a ns,
    s.proxy.actorCallChainMap (s.history.pack n).callId = some L ∧
    s.history.Stack (s.history.pack n).callId L a ns := by
  cases hm : s.proxy.actorCallChainMap (s.history.pack n).callId with
  | none => exact absurd rfl (hs.booked.unopened _ hm n hn)
  | some L =>
      obtain ⟨a, ns, hst⟩ := hs.booked.chained _ _ hm
      exact ⟨L, a, ns, rfl, hst⟩

/-- The actor whose queue holds a request is the last of the chain of its call. -/
theorem Sound.chain_last (hs : Sound cfg s) {af : Ref} {q : Queued} (hq : q ∈ (s.proxy.actors af).msgQueue) :
    (s.proxy.chain q.pack.callId).getLast? = some af := by
  obtain ⟨hn, hp, hw, rfl⟩ := hs.booked.queued af q hq
  obtain ⟨L, a, ns, hL, hst⟩ := hs.stack hn
  rw [← hp, Registry.chain, hL, Option.getD_some]
  exact hst.last_of_unwritten hn rfl hw (hs.booked.replies_nil hn hw)

theorem Sound.step (hs : Sound cfg s) (h : Move cfg s l t) (hrule : Lawful cfg s l) : Sound cfg t := by
  refine ⟨hs.wired.step h fun k p hl => ?_, ?_⟩
  · rw [hl] at hrule
    exact hrule.1
  have hb := hs.booked
  have hmove := h
  cases h with
  | request _ hk haf =>
      rw [onRequest_eq haf]
      obtain ⟨hlt, hsock, hpid, hforeign, hidle⟩ := hs.sender hk haf hrule.1
      exact hb.issue hlt hsock hpid hforeign hrule.1.2.2 hidle fun _ _ _ _ => hs.sender_last hk haf hrule
  | response _ _ hchain =>
      obtain ⟨n, -, hans, -, -, -, -, -, -, hb'⟩ := hs.reply hrule.1 hchain
      rw [hans]
      exact hb'.quiet Registry.SameWiring.refl.grows (fun _ => rfl) rfl rfl
  | refused ht _ => exact (hb.pop ht.queue).1
  | buffered hd _ =>
      obtain ⟨hn, hp, hw, -, hlt, hgroup⟩ := hs.departs hd
      obtain ⟨hpop, hout⟩ := hb.pop hd.queue
      exact hpop.hold hn hp hw hout hlt (by simpa using hgroup)
  | writing hd _ =>
      obtain ⟨hn, hp, hw, -, hlt, hgroup⟩ := hs.departs hd
      obtain ⟨hpop, hout⟩ := hb.pop hd.queue
      exact (hpop.send hn hp hw hout hlt (by simpa using hgroup)).quiet Registry.SameWiring.refl.grows
        (fun _ => rfl) rfl rfl
  | @connect k p _ _ =>
      have hσ : s.proxy.Grows (s.onConnect cfg k p).proxy :=
        ⟨Nat.le_succ _, fun r hr => by rw [onConnect_old p hr], fun r hr => by rw [onConnect_old p hr],
          fun r hr => by rw [onConnect_old p hr]⟩
      exact hb.quiet hσ (hs.wired.onConnect_msgQueue p) rfl rfl
  | transfer =>
      rw [onTransfer_history]
      exact hb.quiet Registry.SameWiring.refl.grows (fun _ => rfl) rfl rfl
  | resumeResponse | rollback | wake =>
      exact hb.quiet (hmove.sameWiring (by simp)).grows (by simp) rfl rfl
  | _ => exact hb

/-- **The invariants hold in every run.** -/
theorem Sound.of_reachable (hr : Reachable (machine cfg) (Lawful cfg) s) : Sound cfg s := by
  refine hr.invariant (I := Sound cfg) ⟨wired_init, booked_init cfg⟩ fun s l t _ hs hrule hst => ?_
  exact hs.step (step_move hs.wired.isOpen hst) hrule

end Sys

end CoroActor.Proxy
