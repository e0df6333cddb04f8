import CoroActor.System.Transport

/-! The processes keep what the proxy relies on, and the proxy keeps what the processes rely on. The rules that the
runs of the proxy and of a process were assumed to follow are derived for the two together, except that the pids of
CONNECTs and the call ids that open calls are fresh, which is asked of the run. -/

namespace CoroActor.Cluster

open TransitionSystem Link

namespace Sys

/-- What the proxy relies on, and that its writes do not overlap. -/
def ProxyRule (cfg : System.Setting) (s : Proxy.Sys) (l : Proxy.Label) : Prop :=
  Proxy.Lawful cfg.proxy s l ∧ s.KeepsFrames cfg.proxy l ∧ cfg.Sends l

/-- What a process relies on. -/
def ProcessRule (w : Worker.Sys) (l : Worker.Label) : Prop := Worker.LastRule w l ∧ Worker.SendRule w l

/-- The CONNECT of the process is still to be read, or it is a registered actor. -/
def Registered (cfg : System.Setting) (s : Sys) (k : Proxy.Conn) : Prop :=
  s.outbox k = [.connect] ∧ (∀ r < s.proxy.proxy.nactors, (s.proxy.proxy.actors r).socket ≠ k) ∨
    .connect ∉ s.outbox k ∧ ∃ r < s.proxy.proxy.nactors, (s.proxy.proxy.actors r).socket = k ∧
      (s.proxy.proxy.actors r).pid = cfg.pid k ∧ (s.proxy.proxy.actors r).name = cfg.name k

/-- The REQUESTs of the process that the proxy has read are of the call that the process serves, or of one that it
has opened. -/
def Entitled (s : Sys) (k : Proxy.Conn) : Prop := ∀ i n, s.serial k i = some n →
  ((s.process k).sends i).request.callId =
      ((s.process k).history.message ((s.process k).sends i).service).callId ∨
    s.proxy.Opened k ((s.process k).sends i).request.callId

/-- Everything that the proxy and the processes rely on. -/
structure Contract (cfg : System.Setting) (s : Sys) : Prop where
  proxy : Reachable (Proxy.machine cfg.proxy) (ProxyRule cfg) s.proxy
  process : ∀ k, Reachable (Worker.machine (cfg.worker k)) ProcessRule (s.process k)
  transport : Transport cfg s
  registered : ∀ k, s.Registered cfg k
  entitled : ∀ k, s.Entitled k
  asking : ∀ k, Asking s.proxy.history k (s.process k) (s.outbox k) (s.serial k) (s.responsesRead k)
  answering : ∀ k, ∃ d, Answering s.proxy.history (s.process k) (s.outbox k) (s.requests k) (s.requestsRead k) d
  heard : ∀ k i p, (s.process k).history.answer i = some p → ∃ n, s.serial k i = some n ∧ s.Replied n p

variable {cfg : System.Setting} {s t : Sys} {k j : Proxy.Conn} {n i : Nat} {o : Outgoing} {rest : List Outgoing}
  {p : CoroActorResponse}

theorem contract_init (cfg : System.Setting) : Contract cfg (Sys.init cfg) where
  proxy := .init
  process _ := .init
  transport := transport_init cfg
  registered _ := .inl ⟨rfl, fun _ hr => absurd hr (Nat.not_lt_zero _)⟩
  entitled _ _ _ hi := by cases hi
  asking k := asking_init (cfg.worker k) k
  answering k := ⟨0, answering_init (cfg.worker k)⟩
  heard _ _ _ hans := by cases hans

namespace Contract

variable (hC : Contract cfg s)

include hC

/-! ### What holds of the parts -/

theorem undelivered : Proxy.Sys.Orderly cfg.proxy s.proxy ∧ Proxy.Sys.Undelivered s.proxy :=
  Proxy.Sys.undelivered_of_reachable (hC.proxy.mono fun _ _ h => h.1)

theorem orderly : Proxy.Sys.Orderly cfg.proxy s.proxy := hC.undelivered.1

theorem accounted (k : Proxy.Conn) : (s.process k).server.Sound ∧ (s.process k).Accounted :=
  Worker.Sys.accounted ((hC.process k).mono fun _ _ h => h.1)

theorem labelled (k : Proxy.Conn) : (s.process k).Labelled :=
  Worker.Sys.labelled ((hC.process k).mono fun _ _ h => h.1)

theorem tracked (k : Proxy.Conn) : (s.process k).SendsTracked :=
  Worker.Sys.sendsTracked ((hC.process k).mono fun _ _ h => h.2)

theorem formed (k : Proxy.Conn) : Worker.Sys.RequestsFormed (cfg.worker k) (s.process k) :=
  (Worker.Sys.requestsFormed (hC.process k)).2

theorem routed (hcons : cfg.Consistent) (hack : Pack.Sized cfg.codec (.connack ⟨true⟩)) :
    System.Routed cfg s.proxy :=
  System.routed_of_reachable hcons hack (hC.proxy.mono fun _ _ h => h.2.2)

theorem owned (hk : s.sent k ≠ []) : ∃ r < s.proxy.proxy.nactors, (s.proxy.proxy.actors r).socket = k := by
  apply Proxy.Sys.framed_registered (hC.proxy.mono fun _ _ h => h.1)
  obtain ⟨x, hx⟩ := List.exists_mem_of_ne_nil _ hk
  exact List.ne_nil_of_mem ((hC.transport.whole k).given x.1 (List.mem_map_of_mem hx))

/-- A process that has started is registered. -/
theorem connected_of_started (hk : (s.system.peer k).started = true) : .connect ∉ s.outbox k := by
  rcases hC.registered k with ⟨-, hnone⟩ | ⟨hnot, -⟩
  · have hseen := hC.transport.started k hk
    have hle := hC.transport.seen k
    obtain ⟨r, hr, hsocket⟩ := hC.owned (k := k) (List.ne_nil_of_length_pos (by omega))
    exact absurd hsocket (hnone r hr)
  · exact hnot

theorem sent_request (hn : n ∈ s.requests k) : n < s.proxy.history.nreq ∧ s.proxy.history.delivered n = true ∧
    ∃ r < s.proxy.proxy.nactors, r ∈ s.proxy.history.written n ∧ (s.proxy.proxy.actors r).socket = k := by
  obtain ⟨x, hx, hxn⟩ := List.mem_filterMap.mp hn
  have hcarries : x.2 = .request n := requestOf_eq_some.mp hxn
  have hmeant := hC.transport.meant k x hx
  have hgone := hC.transport.gone k x hx
  rw [hcarries] at hmeant hgone
  exact ⟨hmeant.1, hgone, hmeant.2.2⟩

/-- The answer to a REQUEST whose RESPONSE the process has read is settled. -/
theorem read_response (hn : n ∈ s.responsesRead k) : n < s.proxy.history.nreq ∧ s.proxy.history.conn n = k ∧
    s.proxy.history.returned n = true ∧
    ∃ r < s.proxy.proxy.nactors, r ∈ s.proxy.history.replies n ∧ (s.proxy.proxy.actors r).socket = k := by
  obtain ⟨x, hx, hxn⟩ := List.mem_filterMap.mp hn
  have hcarries : x.2 = .response (some n) := responseTo_eq_some.mp hxn
  have hmem := List.mem_of_mem_take hx
  have hmeant := hC.transport.meant k x hmem
  have hgone := hC.transport.gone k x hmem
  rw [hcarries] at hmeant hgone
  exact ⟨hmeant.1, hmeant.2.1, hgone, hmeant.2.2.1⟩

/-- A REQUEST that was read by one process and one that was read by another are not the same. -/
theorem requests_apart (hk : n ∈ s.requests k) (hj : n ∈ s.requests j) : k = j := by
  obtain ⟨hn, -, r, hr, hw, hrk⟩ := hC.sent_request hk
  obtain ⟨-, -, r', hr', hw', hrj⟩ := hC.sent_request hj
  rw [hC.orderly.booked.written_eq hn hw, List.mem_singleton] at hw'
  rw [← hrk, ← hrj, hw']

theorem requests_nodup (k : Proxy.Conn) : (s.requests k).Nodup := by
  have hpair := hC.transport.once k
  rw [requests, List.Nodup, List.pairwise_filterMap]
  refine hpair.imp fun {x y} hxy n hn m hm => ?_
  rintro rfl
  have hx : x.2 = .request n := requestOf_eq_some.mp hn
  have hy : y.2 = .request n := requestOf_eq_some.mp hm
  have hconnack := hxy (hx.trans hy.symm)
  rw [hx] at hconnack
  cases hconnack

theorem replied_callId (h : s.Replied n p) : p.callId = (s.proxy.history.pack n).callId ∧
    p.serviceName = (s.proxy.history.pack n).serviceName := by
  obtain ⟨k, i, hn, hp⟩ := h
  obtain ⟨hsound, hacc⟩ := hC.accounted k
  obtain ⟨d, hans⟩ := hC.answering k
  obtain ⟨m, hm, -, hcall, hservice⟩ := hans.response (hC.labelled k) hacc hsound hp
  obtain rfl := Option.some.inj (hm.symm.trans hn)
  exact ⟨hcall, hservice⟩

/-! ### What the proxy may rely on -/

/-- A process that has something to write awaits nothing. -/
theorem idle (hout : s.outbox k ≠ []) : s.proxy.Idle k := by
  intro n hn hk
  obtain ⟨-, -, hreturned, r, -, hr, hrk⟩ := hC.read_response ((hC.asking k).got_of_out hout hn hk)
  exact ⟨hreturned, r, hr, hrk⟩

/-- A REQUEST that has gone out to a process and has not been answered is one that the process serves. -/
theorem serves (hn : n ∈ s.requests k) (hnone : s.proxy.history.replies n = []) :
    s.proxy.Answers k (s.proxy.history.pack n).callId n ∧ s.proxy.Serves k (s.proxy.history.pack n).callId := by
  obtain ⟨hlt, hdelivered, r, -, hr, hrk⟩ := hC.sent_request hn
  have hanswers : s.proxy.Answers k (s.proxy.history.pack n).callId n :=
    ⟨⟨List.ne_nil_of_mem hr, hnone⟩, rfl, r, hr, hrk⟩
  exact ⟨hanswers, n, hlt, hanswers, hdelivered⟩

theorem connectRule (hout : s.outbox k = .connect :: rest) (hadmits : s.Admits cfg k .connect) :
    s.proxy.ConnectRule k ⟨cfg.pid k, cfg.name k⟩ := by
  rcases hC.registered k with ⟨-, hnone⟩ | ⟨hnot, -⟩
  · exact fun r hr => ⟨hnone r hr, hadmits r hr⟩
  · rw [hout] at hnot
    exact absurd List.mem_cons_self hnot

/-- A REQUEST is of the call that its process serves, or of one that the process has opened or opens now. -/
theorem entitlement (hout : s.outbox k = .request i :: rest) (hadmits : s.Admits cfg k (.request i)) :
    ((s.process k).sends i).request.callId =
        ((s.process k).history.message ((s.process k).sends i).service).callId ∨
      s.proxy.Fresh ((s.process k).sends i).request.callId ∨
      s.proxy.Opened k ((s.process k).sends i).request.callId := by
  have ha := hC.asking k
  obtain ⟨hawaits, -⟩ := ha.posted i (by rw [hout]; exact List.mem_cons_self)
  by_cases hserved : ((s.process k).sends i).request.callId =
      ((s.process k).history.message ((s.process k).sends i).service).callId
  · exact Or.inl hserved
  by_cases hopens : Opens (s.process k) i
  · exact Or.inr (Or.inl (hadmits hopens))
  -- The service has sent a REQUEST with this call id before.
  have hearlier : ∃ j < i, ((s.process k).sends j).service = ((s.process k).sends i).service ∧
      ((s.process k).sends j).written = true ∧
      ((s.process k).sends j).request.callId = ((s.process k).sends i).request.callId := by
    by_contra hnone
    exact hopens ⟨hserved, fun j hj hservice hw heq => hnone ⟨j, hj, hservice, hw, heq⟩⟩
  obtain ⟨j, hj, hservice, hw, hcall⟩ := hearlier
  have hlt : j < (s.process k).nsend := hj.trans hawaits.1
  cases hserial : s.serial k j with
  | none =>
      have hposted := (ha.posted j (ha.unasked j hlt hw hserial)).1
      exact absurd ((hC.tracked k).awaits_unique hposted hawaits) (Nat.ne_of_lt hj)
  | some n =>
      rcases hC.entitled k j n hserial with heq | hopened
      · rw [hcall, hservice] at heq
        exact absurd heq hserved
      · rw [hcall] at hopened
        exact Or.inr (Or.inr hopened)

/-- A REQUEST that goes by the call id of a message is sent for a message that came over the link and has not been
answered. -/
theorem served_request (hawaits : (s.process k).Awaits i) (hserved : ((s.process k).sends i).request.callId =
    ((s.process k).history.message ((s.process k).sends i).service).callId) :
    ∃ m ∈ s.requests k, s.proxy.history.replies m = [] ∧
      (s.process k).history.message ((s.process k).sends i).service =
        Worker.CoroActorMsg.ofRequest (s.proxy.history.pack m) := by
  obtain ⟨hsound, hacc⟩ := hC.accounted k
  obtain ⟨hprog, -⟩ := (hC.tracked k).awaiting_eq hawaits
  obtain ⟨hlast, -, hphase⟩ := hacc.running hsound hawaits.1 hprog
  have hsocket : ((s.process k).history.message ((s.process k).sends i).service).socket = none := by
    by_contra hne
    have hmem := Worker.Sys.message_mem hsound (j := ((s.process k).sends i).service) (by omega)
    have hcall := Worker.Sys.unnamed (hC.process k) _ hmem hne
    exact (hC.formed k i hawaits.1).2.1 (hserved.trans hcall)
  obtain ⟨d, hans⟩ := hC.answering k
  obtain ⟨m, hm, hnone, hmsg⟩ := hans.serving (hC.labelled k) hacc hsound hphase hsocket
  exact ⟨m, hans.isPrefix.subset hm, hnone, hmsg⟩

theorem requestRule (hcons : cfg.Consistent) (hout : s.outbox k = .request i :: rest) :
    s.proxy.RequestRule cfg.proxy k ((s.process k).sends i).request := by
  obtain ⟨hawaits, -⟩ := (hC.asking k).posted i (by rw [hout]; exact List.mem_cons_self)
  obtain ⟨hpid, hcall, hforeign⟩ := hC.formed k i hawaits.1
  refine ⟨?_, hC.idle (by rw [hout]; exact List.cons_ne_nil _ _), hcall⟩
  rcases hC.registered k with ⟨hconnect, -⟩ | ⟨-, r, hr, hsocket, hrpid, hname⟩
  · rw [hout] at hconnect
    cases hconnect
  · refine ⟨r, hr, hsocket, hrpid.trans hpid.symm, fun hmap => ?_⟩
    rw [hname] at hmap
    rw [hcons.offers hmap] at hforeign
    cases hforeign

theorem opensFresh (hout : s.outbox k = .request i :: rest) (hadmits : s.Admits cfg k (.request i)) :
    Proxy.OpensFresh s.proxy (.read k (.request ((s.process k).sends i).request)) := by
  obtain ⟨hawaits, -⟩ := (hC.asking k).posted i (by rw [hout]; exact List.mem_cons_self)
  rcases hC.entitlement hout hadmits with hserved | hfresh | hopened
  · obtain ⟨m, hm, hnone, hmsg⟩ := hC.served_request hawaits hserved
    right
    right
    rw [hserved, hmsg]
    exact (hC.serves hm hnone).2
  · exact Or.inl hfresh
  · exact Or.inr (Or.inl hopened)

/-- A RESPONSE that the proxy reads answers the first REQUEST of its process that has not been answered. -/
theorem responseRule {d : Nat}
    (hans : Answering s.proxy.history (s.process k) (s.outbox k) (s.requests k) (s.requestsRead k) d)
    (hout : s.outbox k = .response p :: rest) : s.proxy.ResponseRule k p ∧
      ∃ n, s.proxy.answered k p.callId = some n ∧ (s.requests k)[d]? = some n ∧
        (s.process k).history.responses[d]? = some p := by
  obtain ⟨hsound, hacc⟩ := hC.accounted k
  obtain ⟨n, hp, hn, hnone, hcall⟩ := hans.next (hC.labelled k) hacc hsound hout
  have hidle := hC.idle (k := k) (by rw [hout]; exact List.cons_ne_nil _ _)
  have hmem := List.mem_of_getElem? hn
  obtain ⟨hanswers, hserves⟩ := hC.serves hmem hnone
  rw [← hcall] at hanswers hserves
  exact ⟨⟨hidle, hserves⟩, n, hC.orderly.answered_eq hidle (hC.sent_request hmem).1 hanswers, hn, hp⟩

/-- What is read from a process is what the proxy may rely on. -/
theorem read_rule (hcons : cfg.Consistent) (hout : s.outbox k = o :: rest) (hadmits : s.Admits cfg k o) :
    Proxy.Lawful cfg.proxy s.proxy (.read k (s.input cfg k o)) ∧ s.Answered (.read k (s.input cfg k o)) := by
  cases o with
  | connect => exact ⟨⟨hC.connectRule hout hadmits, trivial⟩, trivial⟩
  | request i => exact ⟨⟨hC.requestRule hcons hout, hC.opensFresh hout hadmits⟩, trivial⟩
  | response p =>
      obtain ⟨d, hans⟩ := hC.answering k
      obtain ⟨hrule, n, hanswered, hn, hp⟩ := hC.responseRule hans hout
      exact ⟨⟨hrule, trivial⟩, d, n, hanswered, hadmits n hanswered, hn, hp⟩

end Contract

end Sys

end CoroActor.Cluster
