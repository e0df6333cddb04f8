import CoroActor.Proxy.Routing
import CoroActor.System.Contract

/-! A step of the proxy or of a process keeps the contract between them. What one side says is carried to the other
in order, so that each may rely on what the other sends. -/

namespace CoroActor.Cluster

open TransitionSystem Link

namespace Sys

variable {cfg : System.Setting} {s t : Sys} {k j : Proxy.Conn} {n i : Nat} {o : Outgoing} {rest out : List Outgoing}
  {p : CoroActorResponse} {l : Proxy.Label} {w : Worker.Sys} {serial : Nat → Option Nat} {got read : List Nat}
  {x : Frame × Proxy.Carries}

theorem opened_grows {c : StdString} (hg : s.proxy.history.Grows t.proxy.history) (h : s.proxy.Opened k c) :
    t.proxy.Opened k c := by
  obtain ⟨n, hn, hc, hk, hmin⟩ := h
  refine ⟨n, hn.trans_le hg.nreq, ?_, ?_, fun m hm => ?_⟩
  · rw [hg.pack n hn]
    exact hc
  · rw [hg.conn n hn]
    exact hk
  · rw [hg.pack m (hm.trans hn)]
    exact hmin m hm

/-! ### A step of the proxy -/

namespace ProxyMoves

variable (hmoves : s.ProxyMoves cfg t l)

include hmoves

theorem requestsRead (hT : Transport cfg s) (k : Proxy.Conn) : t.requestsRead k = s.requestsRead k := by
  rw [Sys.requestsRead, hmoves.take_sent hT]
  rfl

theorem responsesRead (hT : Transport cfg s) (k : Proxy.Conn) : t.responsesRead k = s.responsesRead k := by
  rw [Sys.responsesRead, hmoves.take_sent hT]
  rfl

variable (hC : Contract cfg s)

include hC

theorem unanswered (hx : x ∈ s.proxy.wentOut k l) (hn : requestOf x.2 = some n) :
    t.proxy.history.replies n = [] := by
  obtain ⟨hs, hu⟩ := hC.undelivered
  obtain ⟨j, count, rfl, hj, -, rfl, ht⟩ := hmoves.wentOut hx
  obtain ⟨q, select, c, hpc, rfl⟩ := hs.requesting hj.1 (requestOf_eq_some.mp hn)
  rw [ht, Proxy.Sys.onTransfer_history]
  exact hu.replies_nil (hs.at_request hpc).2.1 (hu.left hpc hj.2.2)

theorem asking (ha : Asking s.proxy.history k w out serial got) (hl : ∀ p, l ≠ .read k (.request p)) :
    Asking t.proxy.history k w out serial got := by
  refine ha.grow (hmoves.grows hC.orderly).history fun n hge hlt hk => ?_
  rcases (hmoves.move hC.orderly).newly_issued hlt with hold | ⟨j, p, af, rfl, -, -, rfl, hhist⟩
  · omega
  · rw [hhist, Proxy.History.issue_conn, Function.update_self] at hk
    subst hk
    exact hl p rfl

/-- What has gone out is added to what the process has to answer. -/
theorem answering {d : Nat} (ha : Answering s.proxy.history (s.process k) out (s.requests k) (s.requestsRead k) d)
    (hsame : ∀ n ∈ s.requests k, t.proxy.history.replies n = s.proxy.history.replies n) :
    Answering t.proxy.history (s.process k) out (t.requests k) (s.requestsRead k) d := by
  obtain ⟨hsound, hacc⟩ := hC.accounted k
  have hpack : ∀ n ∈ s.requests k, t.proxy.history.pack n = s.proxy.history.pack n := fun n hn =>
    (hmoves.grows hC.orderly).history.pack n (hC.sent_request hn).1
  rw [hmoves.requests]
  refine (ha.grow hpack hsame).send (hC.labelled k) hacc hsound fun n hn => ?_
  obtain ⟨x, hx, hxn⟩ := List.mem_filterMap.mp hn
  exact hmoves.unanswered hC hx hxn

theorem replies (hrule : Proxy.Lawful cfg.proxy s.proxy l) (hl : ∀ p, l ≠ .read k (.response p))
    (hn : n ∈ s.requests k) : t.proxy.history.replies n = s.proxy.history.replies n := by
  by_contra hne
  obtain ⟨hlt, -, r, hr, hw, hrk⟩ := hC.sent_request hn
  obtain ⟨j, p, rfl, hanswered, -⟩ :=
    (hmoves.move hC.orderly).replied hC.orderly.toSound hrule hlt hne
  have hanswers : s.proxy.Answers j p.callId n := by
    have hfound := List.find?_some hanswered
    exact of_decide_eq_true hfound
  obtain ⟨-, -, r', hr', hrj, hw'⟩ := hC.orderly.toSound.answers hlt hanswers
  rw [hw', List.mem_singleton] at hw
  refine hl p ?_
  rw [← hrj, ← hw, hrk]

theorem entitled (hserial : t.serial k = s.serial k) : t.Entitled k := by
  intro i n hi
  rw [hserial] at hi
  rw [hmoves.process]
  rcases hC.entitled k i n hi with hserved | hopened
  · exact Or.inl hserved
  · exact Or.inr (opened_grows (hmoves.grows hC.orderly).history hopened)

theorem registered (hl : ∀ p, l ≠ .read k (.connect p)) (hnew : s.outbox k = [.connect] → t.outbox k = [.connect])
    (hold : .connect ∉ s.outbox k → .connect ∉ t.outbox k) : t.Registered cfg k := by
  obtain ⟨hkept, hadded⟩ := (hmoves.move hC.orderly).registration
  rcases hC.registered k with ⟨hout, hnone⟩ | ⟨hout, r, hr, hsocket, hpid, hname⟩
  · refine Or.inl ⟨hnew hout, fun r hr hsocket => ?_⟩
    rcases hadded r hr with hlt | ⟨j, p, rfl, hj, -, -⟩
    · exact hnone r hlt ((hkept r hlt).2.1.symm.trans hsocket)
    · exact hl p (by rw [← hj, hsocket])
  · obtain ⟨hlt, hs, hp, hn⟩ := hkept r hr
    exact Or.inr ⟨hold hout, r, hlt, hs.trans hsocket, hp.trans hpid, hn.trans hname⟩

end ProxyMoves

/-- What is left to see when the proxy has moved. -/
theorem Contract.of_proxy (hC : Contract cfg s) (hmoves : s.ProxyMoves cfg t l) (hrule : ProxyRule cfg s.proxy l)
    (hans : s.Answered l) (hregistered : ∀ k, t.Registered cfg k) (hentitled : ∀ k, t.Entitled k)
    (hasking : ∀ k, Asking t.proxy.history k (s.process k) (t.outbox k) (t.serial k) (s.responsesRead k))
    (hanswering : ∀ k, ∃ d, Answering t.proxy.history (s.process k) (t.outbox k) (t.requests k) (s.requestsRead k) d)
    (hserial : ∀ k i n, s.serial k i = some n → t.serial k i = some n) : Contract cfg t where
  proxy := hC.proxy.step hrule hmoves.step
  process k := by
    rw [hmoves.process]
    exact hC.process k
  transport := hmoves.transport hC.orderly hC.transport hrule.1 hrule.2.1 hans
  registered := hregistered
  entitled := hentitled
  asking k := by
    rw [hmoves.process, hmoves.responsesRead hC.transport]
    exact hasking k
  answering k := by
    rw [hmoves.process, hmoves.requestsRead hC.transport]
    exact hanswering k
  heard k i p hp := by
    rw [hmoves.process] at hp
    obtain ⟨n, hn, hreplied⟩ := hC.heard k i p hp
    exact ⟨n, hserial k i n hn, hreplied.mono (hmoves.grows hC.orderly)⟩

theorem proxyRule_of_isRead (hl : isRead l = false) (hok : s.proxy.KeepsFrames cfg.proxy l) :
    ProxyRule cfg s.proxy l ∧ s.Answered l := by
  cases l with
  | read => cases hl
  | accept | readError | transfer | resume | run => exact ⟨⟨⟨trivial, trivial⟩, hok, trivial⟩, trivial⟩

theorem Contract.onProxy (hC : Contract cfg s) {u : Proxy.Sys} (hl : isRead l = false)
    (hok : s.proxy.KeepsFrames cfg.proxy l) (hstep : s.proxy.step cfg.proxy l = some u) : Contract cfg
      { s with system := { s.system with proxy := u }, sent := fun j => s.sent j ++ s.proxy.wentOut j l } := by
  have hmoves := proxyMoves_of_step hstep
  obtain ⟨hrule, hans⟩ := proxyRule_of_isRead hl hok
  have hne : ∀ k f, l ≠ .read k f := by
    rintro k f rfl
    cases hl
  refine hC.of_proxy hmoves hrule hans (fun k => ?_) (fun k => ?_) (fun k => ?_) (fun k => ?_) fun _ _ _ => id
  · exact hmoves.registered hC (fun p => hne k _) id id
  · exact hmoves.entitled hC rfl
  · exact hmoves.asking hC (hC.asking k) fun p => hne k _
  · obtain ⟨d, hd⟩ := hC.answering k
    exact ⟨d, hmoves.answering hC hd fun n hn => hmoves.replies hC hrule.1 (fun p => hne k _) hn⟩

theorem ProxyMoves.registered_read (hmoves : s.ProxyMoves cfg t (.read k (s.input cfg k o))) (hC : Contract cfg s)
    (hout : s.outbox k = o :: rest) (hrest : t.outbox k = rest) : t.Registered cfg k := by
  have hkept : .connect ∉ s.outbox k → .connect ∉ t.outbox k := by
    rw [hout, hrest]
    exact fun hnot hmem => hnot (List.mem_cons_of_mem o hmem)
  cases o with
  | connect =>
      right
      have hnil : rest = [] := by
        rcases hC.registered k with ⟨hconnect, -⟩ | ⟨hnot, -⟩
        · rw [hout] at hconnect
          exact (List.cons.inj hconnect).2
        · rw [hout] at hnot
          exact absurd List.mem_cons_self hnot
      refine ⟨by rw [hrest, hnil]; exact List.not_mem_nil, s.proxy.proxy.nactors, ?_⟩
      rw [Proxy.Sys.connect_step hmoves.step]
      refine ⟨Nat.lt_succ_self _, ?_⟩
      rw [Proxy.Sys.onConnect_new]
      exact ⟨rfl, rfl, rfl⟩
  | request i | response p =>
      refine hmoves.registered hC (fun p heq => by cases heq) (fun hconnect => ?_) hkept
      rw [hout] at hconnect
      cases hconnect

/-- A REQUEST whose call id is new opens a call of its process. -/
theorem opened_issue {p : CoroActorRequest} {af : Proxy.Ref} (hfresh : s.proxy.Fresh p.callId)
    (hhist : t.proxy.history = s.proxy.history.issue k af p) : t.proxy.Opened k p.callId := by
  have hnew : s.proxy.history.nreq < t.proxy.history.nreq ∧ t.proxy.history.pack s.proxy.history.nreq = p ∧
      t.proxy.history.conn s.proxy.history.nreq = k := by
    rw [hhist]
    simp
  obtain ⟨hn, hpack, hconn⟩ := hnew
  refine ⟨_, hn, by rw [hpack], hconn, fun m hm => ?_⟩
  rw [hhist, Proxy.History.issue_pack, Function.update_of_ne (Nat.ne_of_lt hm)]
  exact hfresh m hm

theorem ProxyMoves.entitled_read (hmoves : s.ProxyMoves cfg t (.read k (s.input cfg k o))) (hC : Contract cfg s)
    (hrule : Proxy.Lawful cfg.proxy s.proxy (.read k (s.input cfg k o))) (hout : s.outbox k = o :: rest)
    (hadmits : s.Admits cfg k o) (hserial : t.serial k = s.numbered k o) : t.Entitled k := by
  cases o with
  | connect | response p => exact hmoves.entitled hC hserial
  | request i =>
      obtain ⟨af, hhist⟩ := hC.orderly.toSound.request_step hrule.1 hmoves.step
      intro j n hj
      rw [hmoves.process]
      by_cases hji : j = i
      · subst hji
        rcases hC.entitlement hout hadmits with hserved | hfresh | hopened
        · exact Or.inl hserved
        · exact Or.inr (opened_issue hfresh hhist)
        · exact Or.inr (opened_grows (hmoves.grows hC.orderly).history hopened)
      · rw [hserial, numbered, Function.update_of_ne hji] at hj
        rcases hC.entitled k j n hj with hserved | hopened
        · exact Or.inl hserved
        · exact Or.inr (opened_grows (hmoves.grows hC.orderly).history hopened)

theorem ProxyMoves.asking_read (hmoves : s.ProxyMoves cfg t (.read k (s.input cfg k o))) (hC : Contract cfg s)
    (hrule : Proxy.Lawful cfg.proxy s.proxy (.read k (s.input cfg k o))) (hout : s.outbox k = o :: rest) :
    Asking t.proxy.history k (s.process k) rest (s.numbered k o) (s.responsesRead k) := by
  cases o with
  | connect =>
      exact (hmoves.asking hC (hC.asking k) fun p heq => by cases heq).pop hout fun i heq => by cases heq
  | response p =>
      exact (hmoves.asking hC (hC.asking k) fun p heq => by cases heq).pop hout fun i heq => by cases heq
  | request i =>
      obtain ⟨af, hhist⟩ := hC.orderly.toSound.request_step hrule.1 hmoves.step
      rw [hhist]
      exact (hC.asking k).issue hout (fun n hn => (hC.read_response hn).1) af

theorem ProxyMoves.answering_read (hmoves : s.ProxyMoves cfg t (.read k (s.input cfg k o))) (hC : Contract cfg s)
    (hrule : Proxy.Lawful cfg.proxy s.proxy (.read k (s.input cfg k o))) (hout : s.outbox k = o :: rest) :
    ∃ d, Answering t.proxy.history (s.process k) rest (t.requests k) (s.requestsRead k) d := by
  obtain ⟨d, hd⟩ := hC.answering k
  have hpop : (∀ p, o ≠ .response p) →
      Answering t.proxy.history (s.process k) rest (t.requests k) (s.requestsRead k) d := by
    intro hne
    have hno : o.answer = none := by
      cases o with
      | connect | request => rfl
      | response p => exact absurd rfl (hne p)
    have hinput : ∀ p, Proxy.Label.read k (s.input cfg k o) ≠ .read k (.response p) := by
      intro p heq
      cases o with
      | connect | request => cases heq
      | response q => exact hne q rfl
    exact (hmoves.answering hC hd fun n hn => hmoves.replies hC hrule hinput hn).pop hout hno
  cases o with
  | connect | request => exact ⟨d, hpop nofun⟩
  | response p =>
      obtain ⟨-, n, hanswered, hn, -⟩ := hC.responseRule hd hout
      obtain ⟨m, -, L, callee, hm, -, -, -, ht⟩ := hC.orderly.toSound.response_step hrule.1 hmoves.step
      obtain rfl : m = n := Option.some.inj (hm.symm.trans hanswered)
      have hrequests : t.requests k = s.requests k := by
        rw [hmoves.requests]
        exact List.append_nil _
      rw [hrequests]
      refine ⟨d + 1, hd.reply (hC.requests_nodup k) hout hn (fun i hi => ?_) ?_ fun i hi => ?_⟩
      · exact (hmoves.grows hC.orderly).history.pack i (hC.sent_request hi).1
      · rw [ht]
        simp
      · rw [ht]
        simp [Function.update_of_ne hi]

/-- A REQUEST is read under one number. -/
theorem Contract.numbered_kept (hC : Contract cfg s) (hout : s.outbox k = o :: rest) (hi : s.serial k i = some n) :
    s.numbered k o i = some n := by
  cases o with
  | connect | response => exact hi
  | request j =>
      have hji : i ≠ j := by
        rintro rfl
        obtain ⟨-, hnone⟩ := (hC.asking k).posted i (by rw [hout]; exact List.mem_cons_self)
        rw [hnone] at hi
        cases hi
      rwa [numbered, Function.update_of_ne hji]

theorem Contract.onRead (hC : Contract cfg s) (hcons : cfg.Consistent) {u : Proxy.Sys} (hout : s.outbox k = o :: rest)
    (hadmits : s.Admits cfg k o) (hok : s.proxy.KeepsFrames cfg.proxy (.read k (s.input cfg k o)))
    (hsends : cfg.Sends (.read k (s.input cfg k o)))
    (hstep : s.proxy.step cfg.proxy (.read k (s.input cfg k o)) = some u) : Contract cfg
      { s with
        system := { s.system with proxy := u }
        outbox := Function.update s.outbox k rest
        serial := Function.update s.serial k (s.numbered k o) } := by
  have hmoves := proxyMoves_of_read rest hstep
  obtain ⟨hrule, hans⟩ := hC.read_rule hcons hout hadmits
  have hother : ∀ {j : Proxy.Conn} {f : Proxy.Input}, j ≠ k → Proxy.Label.read k (s.input cfg k o) ≠ .read j f := by
    rintro j f hj heq
    cases heq
    exact hj rfl
  refine hC.of_proxy hmoves ⟨hrule, hok, hsends⟩ hans (fun j => ?_) (fun j => ?_) (fun j => ?_) (fun j => ?_)
    fun j i n hi => ?_
  · by_cases hj : j = k
    · subst hj
      exact hmoves.registered_read hC hout (Function.update_self _ _ _)
    · refine hmoves.registered hC (fun p => hother hj) ?_ ?_
      · exact fun hconnect => (Function.update_of_ne hj _ _).trans hconnect
      · intro hnot
        show .connect ∉ Function.update s.outbox k rest j
        rwa [Function.update_of_ne hj]
  · by_cases hj : j = k
    · subst hj
      exact hmoves.entitled_read hC hrule hout hadmits (Function.update_self _ _ _)
    · exact hmoves.entitled hC (Function.update_of_ne hj _ _)
  · by_cases hj : j = k
    · subst hj
      show Asking _ _ _ (Function.update s.outbox j rest j) (Function.update s.serial j (s.numbered j o) j) _
      rw [Function.update_self, Function.update_self]
      exact hmoves.asking_read hC hrule hout
    · show Asking _ _ _ (Function.update s.outbox k rest j) (Function.update s.serial k (s.numbered k o) j) _
      rw [Function.update_of_ne hj, Function.update_of_ne hj]
      exact hmoves.asking hC (hC.asking j) fun p => hother hj
  · by_cases hj : j = k
    · subst hj
      show ∃ d, Answering _ _ (Function.update s.outbox j rest j) _ _ d
      rw [Function.update_self]
      exact hmoves.answering_read hC hrule hout
    · obtain ⟨d, hd⟩ := hC.answering j
      refine ⟨d, ?_⟩
      show Answering _ _ (Function.update s.outbox k rest j) _ _ d
      rw [Function.update_of_ne hj]
      exact hmoves.answering hC hd fun n hn => hmoves.replies hC hrule (fun p => hother hj) hn
  · show Function.update s.serial k (s.numbered k o) j i = some n
    by_cases hj : j = k
    · subst hj
      rw [Function.update_self]
      exact hC.numbered_kept hout hi
    · rwa [Function.update_of_ne hj]

/-! ### A step of a process -/

/-- Only the process behind `k` moves. -/
structure ProcessMoves (s t : Sys) (k : Proxy.Conn) : Prop where
  proxy : t.proxy = s.proxy
  sent : t.sent = s.sent
  serial : t.serial = s.serial
  others : ∀ j, j ≠ k → t.system.peer j = s.system.peer j ∧ t.outbox j = s.outbox j ∧ t.seen j = s.seen j
  responses : (s.process k).history.responses <+: (t.process k).history.responses
  asked : ∀ i < (s.process k).nsend, ((t.process k).sends i).request = ((s.process k).sends i).request ∧
    (t.process k).history.message ((t.process k).sends i).service =
      (s.process k).history.message ((s.process k).sends i).service

namespace ProcessMoves

theorem of_move {w : Worker.Sys} {l : Worker.Label} {ok : Worker.Sys → Worker.Label → Prop}
    (hr : Reachable (Worker.machine (cfg.worker k)) ok (s.process k))
    (hm : (s.process k).Move (cfg.worker k) l w) (hw : t.process k = w) (hproxy : t.proxy = s.proxy)
    (hsent : t.sent = s.sent) (hserial : t.serial = s.serial) (hothers : ∀ j, j ≠ k →
      t.system.peer j = s.system.peer j ∧ t.outbox j = s.outbox j ∧ t.seen j = s.seen j) : s.ProcessMoves t k where
  proxy := hproxy
  sent := hsent
  serial := hserial
  others := hothers
  responses := by
    rw [hw]
    exact hm.responses_isPrefix
  asked i hi := by
    obtain ⟨hservice, hrequest, -⟩ := hm.sends_kept.2 i hi
    rw [hw, hservice]
    exact ⟨hrequest, hm.messages_kept.2 _ (Worker.Sys.sends_called hr i hi)⟩

theorem of_same (hw : t.process k = s.process k) (hproxy : t.proxy = s.proxy) (hsent : t.sent = s.sent)
    (hserial : t.serial = s.serial) (hothers : ∀ j, j ≠ k →
      t.system.peer j = s.system.peer j ∧ t.outbox j = s.outbox j ∧ t.seen j = s.seen j) : s.ProcessMoves t k where
  proxy := hproxy
  sent := hsent
  serial := hserial
  others := hothers
  responses := by rw [hw]
  asked i _ := by
    rw [hw]
    exact ⟨rfl, rfl⟩

variable (hmoves : s.ProcessMoves t k)

include hmoves

theorem grows : s.Extends t := by
  refine .of_process hmoves.proxy hmoves.sent fun j => ?_
  by_cases hj : j = k
  · rw [hj]
    exact hmoves.responses
  · rw [process, process, (hmoves.others j hj).1]

theorem transport (hT : Transport cfg s) (hseen : t.seen k ≤ (s.sent k).length)
    (htaken : (t.system.peer k).taken = ((((s.sent k).take (t.seen k)).map Prod.fst).flatMap Frame.bytes).length)
    (hstarted : (t.system.peer k).started = true → 0 < t.seen k) : Transport cfg t := by
  refine hT.keep hmoves.proxy hmoves.sent hmoves.grows (fun j => ?_) (fun j => ?_) fun j => ?_
  · by_cases hj : j = k
    · rw [hj, hmoves.sent]
      exact hseen
    · rw [(hmoves.others j hj).2.2, hmoves.sent]
      exact hT.seen j
  · rw [hmoves.sent]
    by_cases hj : j = k
    · rw [hj]
      exact htaken
    · rw [(hmoves.others j hj).1, (hmoves.others j hj).2.2]
      exact hT.taken j
  · by_cases hj : j = k
    · rw [hj]
      exact hstarted
    · rw [(hmoves.others j hj).1, (hmoves.others j hj).2.2]
      exact hT.started j

/-- What is left to see when a process has moved. -/
theorem contract (hC : Contract cfg s) (hT : Transport cfg t)
    (hreach : Reachable (Worker.machine (cfg.worker k)) ProcessRule (t.process k)) (hregistered : t.Registered cfg k)
    (hasking : Asking s.proxy.history k (t.process k) (t.outbox k) (s.serial k) (t.responsesRead k))
    (hanswering : ∃ d, Answering s.proxy.history (t.process k) (t.outbox k) (s.requests k) (t.requestsRead k) d)
    (hheard : ∀ i p, (t.process k).history.answer i = some p → ∃ n, s.serial k i = some n ∧ s.Replied n p) :
    Contract cfg t := by
  have hprocess : ∀ j, j ≠ k → t.process j = s.process j := fun j hj => by
    rw [process, process, (hmoves.others j hj).1]
  refine ⟨?_, fun j => ?_, hT, fun j => ?_, fun j => ?_, fun j => ?_, fun j => ?_, fun j i p hp => ?_⟩
  · rw [hmoves.proxy]
    exact hC.proxy
  · by_cases hj : j = k
    · rw [hj]
      exact hreach
    · rw [hprocess j hj]
      exact hC.process j
  · by_cases hj : j = k
    · rw [hj]
      exact hregistered
    · rw [Registered, hmoves.proxy, (hmoves.others j hj).2.1]
      exact hC.registered j
  · intro i n hi
    rw [hmoves.serial] at hi
    rw [hmoves.proxy]
    by_cases hj : j = k
    · subst hj
      obtain ⟨hrequest, hmessage⟩ := hmoves.asked i ((hC.asking j).asked i n hi).1
      rw [hrequest, hmessage]
      exact hC.entitled j i n hi
    · rw [hprocess j hj]
      exact hC.entitled j i n hi
  · rw [hmoves.proxy, hmoves.serial]
    by_cases hj : j = k
    · rw [hj]
      exact hasking
    · rw [hprocess j hj, (hmoves.others j hj).2.1, responsesRead, hmoves.sent, (hmoves.others j hj).2.2]
      exact hC.asking j
  · rw [hmoves.proxy, requests, hmoves.sent]
    by_cases hj : j = k
    · rw [hj]
      exact hanswering
    · rw [hprocess j hj, (hmoves.others j hj).2.1, requestsRead, hmoves.sent, (hmoves.others j hj).2.2]
      exact hC.answering j
  · have hold : ∃ n, s.serial j i = some n ∧ s.Replied n p := by
      by_cases hj : j = k
      · subst hj
        exact hheard i p hp
      · rw [hprocess j hj] at hp
        exact hC.heard j i p hp
    obtain ⟨n, hn, hreplied⟩ := hold
    rw [hmoves.serial]
    exact ⟨n, hn, hreplied.mono hmoves.grows⟩

end ProcessMoves

/-- The process behind `k` reads the next frame. -/
structure Receives (s t : Sys) (k : Proxy.Conn) (c : Proxy.Carries) : Prop extends s.ProcessMoves t k where
  outbox : t.outbox k = s.outbox k
  seen : t.seen k = s.seen k + 1
  frame : ∃ f, (s.sent k)[s.seen k]? = some (f, c)
  taken : (t.system.peer k).taken = ((((s.sent k).take (s.seen k + 1)).map Prod.fst).flatMap Frame.bytes).length

namespace Receives

variable {c : Proxy.Carries} (hrec : s.Receives t k c)

include hrec

theorem carried (f : Proxy.Carries → Option Nat) : ((t.sent k).take (t.seen k)).filterMap (fun y => f y.2) =
    ((s.sent k).take (s.seen k)).filterMap (fun y => f y.2) ++ (f c).toList := by
  obtain ⟨frame, hx⟩ := hrec.frame
  rw [hrec.sent, hrec.seen, List.take_add_one, hx, Option.toList_some, List.filterMap_append]
  cases hf : f c <;> simp [hf]

theorem requestsRead : t.requestsRead k = s.requestsRead k ++ (requestOf c).toList := hrec.carried requestOf

theorem responsesRead : t.responsesRead k = s.responsesRead k ++ (responseTo c).toList := hrec.carried responseTo

theorem transport (hT : Transport cfg s) : Transport cfg t := by
  obtain ⟨frame, hx⟩ := hrec.frame
  refine hrec.toProcessMoves.transport hT ?_ ?_ fun _ => ?_
  · rw [hrec.seen]
    exact (List.getElem?_eq_some_iff.mp hx).1
  · rw [hrec.seen]
    exact hrec.taken
  · rw [hrec.seen]
    exact Nat.succ_pos _

/-- What is left to see when a process has read a frame. -/
theorem contract (hC : Contract cfg s)
    (hreach : Reachable (Worker.machine (cfg.worker k)) ProcessRule (t.process k))
    (hasking : Asking s.proxy.history k (t.process k) (s.outbox k) (s.serial k)
      (s.responsesRead k ++ (responseTo c).toList))
    (hanswering : ∀ d, Answering s.proxy.history (s.process k) (s.outbox k) (s.requests k) (s.requestsRead k) d →
      Answering s.proxy.history (t.process k) (s.outbox k) (s.requests k)
        (s.requestsRead k ++ (requestOf c).toList) d)
    (hheard : ∀ i p, (t.process k).history.answer i = some p → ∃ n, s.serial k i = some n ∧ s.Replied n p) :
    Contract cfg t := by
  refine hrec.toProcessMoves.contract hC (hrec.transport hC.transport) hreach ?_ ?_ ?_ hheard
  · rw [Registered, hrec.outbox, hrec.proxy]
    exact hC.registered k
  · rw [hrec.outbox, hrec.responsesRead]
    exact hasking
  · obtain ⟨d, hd⟩ := hC.answering k
    rw [hrec.outbox, hrec.requestsRead]
    exact ⟨d, hanswering d hd⟩

end Receives

theorem Contract.onConnack (hC : Contract cfg s) (hrec : s.Receives t k .connack)
    (hprocess : t.process k = s.process k) : Contract cfg t := by
  refine hrec.contract hC ?_ ?_ (fun d hd => ?_) ?_
  · rw [hprocess]
    exact hC.process k
  · rw [hprocess]
    exact (List.append_nil (s.responsesRead k)).symm ▸ hC.asking k
  · rw [hprocess]
    exact (List.append_nil (s.requestsRead k)).symm ▸ hd
  · rw [hprocess]
    exact hC.heard k

/-- A RESPONSE that a process reads answers the REQUEST of its `send` that has gone out and not been answered. -/
theorem Contract.awaited (hC : Contract cfg s) {f : Frame} (hx : (s.sent k)[s.seen k]? = some (f, .response (some n))) :
    ∃ i, s.serial k i = some n ∧ (s.process k).Awaits i ∧
      ((s.process k).sends i).request.callId = (s.proxy.history.pack n).callId := by
  have hmeant := hC.transport.meant k _ (List.mem_of_getElem? hx)
  obtain ⟨hn, hk, -⟩ := hmeant
  have hnot : n ∉ s.responsesRead k := by
    intro hmem
    obtain ⟨y, hy, hyn⟩ := List.mem_filterMap.mp hmem
    obtain ⟨m, hm⟩ := List.mem_iff_getElem?.mp hy
    rw [List.getElem?_take] at hm
    split at hm
    · next hlt =>
        have heq := hC.transport.unique hx hm (responseTo_eq_some.mp hyn).symm nofun
        omega
    · cases hm
  obtain ⟨i, hi, hawaits⟩ := (hC.asking k).awaits hn hk hnot
  refine ⟨i, hi, hawaits, ?_⟩
  rw [((hC.asking k).asked i n hi).2.2.2.2]

/-- What a process reads makes it write nothing. -/
theorem written_of_received {cfg : Worker.Setting} {w w' : Worker.Sys} {l : Worker.Label} (hm : w.Move cfg l w')
    (hl : System.isLocal l = false) : requested w l ++ responded w w' = [] := by
  rw [responded, responses_of_received hm hl, List.drop_length]
  cases l with
  | request | response | other => rfl
  | _ => cases hl

theorem lastRule_of_received {w : Worker.Sys} {l : Worker.Label} (hl : System.isLocal l = false) :
    Worker.LastRule w l := by
  cases l with
  | request | response | other => exact ⟨trivial, trivial⟩
  | _ => cases hl

/-- CONNECT is not written again. -/
theorem connect_not_written (w w' : Worker.Sys) (l : Worker.Label) : .connect ∉ requested w l ++ responded w w' := by
  intro hmem
  rcases List.mem_append.mp hmem with hrequest | hresponse
  · cases l with
    | wentOut i =>
        rw [requested] at hrequest
        split at hrequest
        · cases hrequest
        · cases List.mem_singleton.mp hrequest
    | _ => cases hrequest
  · obtain ⟨p, -, hp⟩ := List.mem_map.mp hresponse
    cases hp

theorem requestsRead_isPrefix (s : Sys) (k : Proxy.Conn) : s.requestsRead k <+: s.requests k :=
  (List.take_prefix _ _).filterMap _

theorem Contract.onInternal (hC : Contract cfg s) {c : Proxy.Carries} {l : Worker.Label} (hrec : s.Receives t k c)
    (hgets : s.Gets c l) (hstep : (s.process k).step (cfg.worker k) l = some (t.process k)) : Contract cfg t := by
  have hm := Worker.Sys.step_move hstep
  obtain ⟨hsound, hacc⟩ := hC.accounted k
  have hreach : System.isLocal l = false → Worker.SendRule (s.process k) l →
      Reachable (Worker.machine (cfg.worker k)) ProcessRule (t.process k) := fun hl hsend =>
    (hC.process k).step ⟨lastRule_of_received hl, hsend⟩ hstep
  have hasking : (∀ p, l ≠ .response p) → System.isLocal l = false →
      Asking s.proxy.history k (t.process k) (s.outbox k) (s.serial k) (s.responsesRead k ++ []) := by
    intro hne hl
    have ha := (hC.asking k).process (hC.tracked k) hacc hsound hm hne
    rw [written_of_received hm hl, List.append_nil] at ha
    rw [List.append_nil]
    exact ha
  have hanswering : l.arrivals = [] → System.isLocal l = false → ∀ d,
      Answering s.proxy.history (s.process k) (s.outbox k) (s.requests k) (s.requestsRead k) d →
      Answering s.proxy.history (t.process k) (s.outbox k) (s.requests k) (s.requestsRead k ++ []) d := by
    intro hnone hl d hd
    have ha := hd.process hm hnone
    rw [written_of_received hm hl, List.append_nil] at ha
    rw [List.append_nil]
    exact ha
  have hheard : (∀ p, l ≠ .response p) → ∀ i p, (t.process k).history.answer i = some p →
      ∃ n, s.serial k i = some n ∧ s.Replied n p := by
    intro hne i p hp
    rw [hm.answer_kept hne] at hp
    exact hC.heard k i p hp
  cases c with
  | connack =>
      obtain ⟨proto, rfl⟩ := hgets
      exact hrec.contract hC (hreach rfl trivial) (hasking nofun rfl) (hanswering rfl rfl) (hheard nofun)
  | request n =>
      obtain rfl := hgets
      refine hrec.contract hC (hreach rfl trivial) (hasking nofun rfl) (fun d hd => ?_) (hheard nofun)
      refine hd.receive ?_ hm
      have hpre := t.requestsRead_isPrefix k
      rw [hrec.requestsRead, requests, hrec.sent] at hpre
      exact hpre
  | response m =>
      cases m with
      | none => exact hgets.elim
      | some n =>
          obtain ⟨p, rfl, hreplied⟩ := hgets
          obtain ⟨f, hx⟩ := hrec.frame
          obtain ⟨i, hi, hawaits, hcall⟩ := hC.awaited hx
          have hrule : Worker.SendRule (s.process k) (.response p) :=
            ⟨i, hawaits.1, hawaits.2.1, hcall.trans (hC.replied_callId hreplied).1.symm, hawaits.2.2⟩
          refine hrec.contract hC (hreach rfl hrule) ((hC.asking k).answer (hC.tracked k) hi hawaits hm)
            (hanswering rfl rfl) fun j q hq => ?_
          rw [hm.answer_response (hC.tracked k) hawaits] at hq
          by_cases hj : j = i
          · subst hj
            rw [Function.update_self] at hq
            obtain rfl := Option.some.inj hq
            exact ⟨n, hi, hreplied⟩
          · rw [Function.update_of_ne hj] at hq
            exact hC.heard k j q hq

theorem Contract.onActor (hC : Contract cfg s) {l : Worker.Label} (hmoves : s.ProcessMoves t k)
    (hstarted : (s.system.peer k).started = true) (hlocal : System.isLocal l = true)
    (hrule : Worker.LastRule (s.process k) l) (hone : Worker.OneSend (s.process k) l)
    (hstep : (s.process k).step (cfg.worker k) l = some w) (hprocess : t.process k = w) (hseen : t.seen k = s.seen k)
    (htaken : (t.system.peer k).taken = (s.system.peer k).taken)
    (hout : t.outbox k = s.outbox k ++ (requested (s.process k) l ++ responded (s.process k) w)) :
    Contract cfg t := by
  subst hprocess
  have hm := Worker.Sys.step_move hstep
  obtain ⟨hsound, hacc⟩ := hC.accounted k
  have hsend : Worker.SendRule (s.process k) l := by
    cases l with
    | response => cases hlocal
    | send => exact hone
    | _ => trivial
  have hne : ∀ p, l ≠ .response p := by
    rintro p rfl
    cases hlocal
  have harrivals : l.arrivals = [] := by
    cases l with
    | request => cases hlocal
    | _ => rfl
  have hread : t.requestsRead k = s.requestsRead k ∧ t.responsesRead k = s.responsesRead k := by
    rw [requestsRead, responsesRead, hmoves.sent, hseen]
    exact ⟨rfl, rfl⟩
  refine hmoves.contract hC ?_ ((hC.process k).step ⟨hrule, hsend⟩ hstep) ?_ ?_ ?_ fun i p hp => ?_
  · refine hmoves.transport hC.transport ?_ ?_ fun _ => ?_
    · rw [hseen]
      exact hC.transport.seen k
    · rw [hseen, htaken]
      exact hC.transport.taken k
    · rw [hseen]
      exact hC.transport.started k hstarted
  · rcases hC.registered k with ⟨hconnect, -⟩ | ⟨-, r, hr, hactor⟩
    · have hnot := hC.connected_of_started hstarted
      rw [hconnect] at hnot
      exact absurd List.mem_cons_self hnot
    · right
      rw [hmoves.proxy]
      refine ⟨?_, r, hr, hactor⟩
      rw [hout]
      intro hmem
      rcases List.mem_append.mp hmem with hold | hnew
      · exact hC.connected_of_started hstarted hold
      · exact connect_not_written _ _ l hnew
  · rw [hout, hread.2]
    exact (hC.asking k).process (hC.tracked k) hacc hsound hm hne
  · obtain ⟨d, hd⟩ := hC.answering k
    rw [hout, hread.1]
    exact ⟨d, hd.process hm harrivals⟩
  · rw [hm.answer_kept hne] at hp
    exact hC.heard k i p hp

/-! ### Runs -/

/-- **Every step keeps the contract.** -/
theorem Contract.step (hC : Contract cfg s) {l : Label} (hcons : cfg.Consistent)
    (hinv : cfg.codec.deserialize.Inverts cfg.codec.serialize) (hack : Pack.Sized cfg.codec (.connack ⟨true⟩))
    (hallowed : s.Allowed cfg l) (h : Move cfg s l t) : Contract cfg t := by
  have hself : ∀ (k : Proxy.Conn) (r : System.Peer), (s.system.setPeer k r).peer k = r := fun k r =>
    System.Sys.setPeer_self r
  have hother : ∀ {k j : Proxy.Conn} {r : System.Peer}, j ≠ k → (s.system.setPeer k r).peer j = s.system.peer j :=
    fun hj => System.Sys.setPeer_of_ne _ hj
  cases h with
  | proxy hl hstep => exact hC.onProxy hl hallowed hstep
  | @read k o rest u hout hsends hstep =>
      obtain ⟨hadmits, hok⟩ := hallowed o (by rw [hout]; rfl)
      exact hC.onRead hcons hout hadmits hok hsends hstep
  | @connack k l rest hread hproto =>
      obtain ⟨f, hx, htaken⟩ := hC.transport.readConnack (hC.routed hcons hack) hack hread hproto
      have hprocess := congrArg System.Peer.process (hself k
        { s.system.peer k with started := true, locals := ⟨0, [], []⟩, taken := s.system.takenTo k rest })
      refine hC.onConnack (k := k) ⟨.of_same hprocess rfl rfl rfl fun j hj => ?_, rfl, ?_, ⟨f, hx⟩, ?_⟩ hprocess
      · exact ⟨hother hj, rfl, Function.update_of_ne hj _ _⟩
      · exact Function.update_self _ _ _
      · exact (congrArg System.Peer.taken (hself k _)).trans htaken
  | @internal k out l rest w hround hstep hstarted =>
      obtain ⟨⟨f, c⟩, hx, hgets, htaken⟩ := hC.transport.receive (hC.routed hcons hack) hinv hack hround
      have hprocess := congrArg System.Peer.process (hself k
        { s.system.peer k with locals := l, taken := s.system.takenTo k rest, process := w })
      refine hC.onInternal (k := k) ⟨.of_move (hC.process k) (Worker.Sys.step_move hstep) hprocess rfl rfl rfl
        fun j hj => ?_, rfl, ?_, ⟨f, hx⟩, ?_⟩ hgets (hstep.trans (congrArg some hprocess.symm))
      · exact ⟨hother hj, rfl, Function.update_of_ne hj _ _⟩
      · exact Function.update_self _ _ _
      · exact (congrArg System.Peer.taken (hself k _)).trans htaken
  | @actor k l w hstarted hlocal hstep =>
      have hprocess := congrArg System.Peer.process (hself k { s.system.peer k with process := w })
      refine hC.onActor (k := k) (.of_move (hC.process k) (Worker.Sys.step_move hstep) hprocess rfl rfl rfl
        fun j hj => ?_) hstarted hlocal hallowed.1 hallowed.2 hstep hprocess rfl ?_ ?_
      · exact ⟨hother hj, Function.update_of_ne hj _ _, rfl⟩
      · exact (congrArg System.Peer.taken (hself k _)).trans rfl
      · exact Function.update_self _ _ _

/-- **The contract holds in every `Allowed` run.** -/
theorem contract_of_reachable (hcons : cfg.Consistent) (hinv : cfg.codec.deserialize.Inverts cfg.codec.serialize)
    (hack : Pack.Sized cfg.codec (.connack ⟨true⟩)) (hr : Reachable (machine cfg) (Allowed cfg) s) :
    Contract cfg s := by
  refine hr.invariant (contract_init cfg) fun s l t _ hC hallowed hst => ?_
  exact hC.step hcons hinv hack hallowed (step_move hst)

/-- The processes and the proxy take part in a run of the composite system. -/
theorem reachable_system (hr : Reachable (machine cfg) (Allowed cfg) s) :
    Reachable (System.machine cfg) (System.Sys.KeepsFrames cfg) s.system := by
  refine hr.invariant (I := fun s => Reachable (System.machine cfg) (System.Sys.KeepsFrames cfg) s.system) .init ?_
  intro s l t _ hs hallowed hst
  have hstep : ∀ l', System.Sys.KeepsFrames cfg s.system l' → ∀ {f : System.Sys → Sys}, (∀ u, (f u).system = u) →
      (s.system.step cfg l').map f = some t → Reachable (System.machine cfg) (System.Sys.KeepsFrames cfg) t.system := by
    intro l' hok f hf hmap
    obtain ⟨u, hu, rfl⟩ := Option.map_eq_some_iff.mp hmap
    rw [hf]
    exact hs.step hok hu
  cases l with
  | proxy l =>
      simp only [machine, step, Option.ite_none_left_eq_some] at hst
      exact hstep (.proxy l) hallowed (fun _ => rfl) hst.2
  | read k =>
      simp only [machine, step, onRead] at hst
      split at hst
      · cases hst
      · next o rest hout =>
          exact hstep (.proxy (.read k (s.input cfg k o))) (hallowed o (by rw [hout]; rfl)).2 (fun _ => rfl) hst
  | connack k => exact hstep (.connack k) trivial (fun _ => rfl) hst
  | internal k => exact hstep (.internal k) trivial (fun _ => rfl) hst
  | actor k l => exact hstep (.actor k l) trivial (fun _ => rfl) hst

theorem rules_of_reachable (hcons : cfg.Consistent) (hinv : cfg.codec.deserialize.Inverts cfg.codec.serialize)
    (hack : Pack.Sized cfg.codec (.connack ⟨true⟩)) (hr : Reachable (machine cfg) (Allowed cfg) s) :
    (Reachable (Proxy.machine cfg.proxy) (Proxy.Lawful cfg.proxy) s.proxy ∧ s.proxy.fault = false) ∧
    ∀ k, Reachable (Worker.machine (cfg.worker k)) (fun w l => Worker.LastRule w l ∧ Worker.SendRule w l)
      (s.process k) ∧ (s.process k).fault = false := by
  have hC := contract_of_reachable hcons hinv hack hr
  have hproxy : Reachable (Proxy.machine cfg.proxy) (Proxy.Lawful cfg.proxy) s.proxy := hC.proxy.mono fun _ _ h => h.1
  refine ⟨⟨hproxy, Proxy.Sys.sane_of_rule (hproxy.mono fun _ _ h => h.1)⟩, fun k => ⟨hC.process k, ?_⟩⟩
  exact (System.Sys.linked_of_reachable hcons hinv hack (reachable_system hr) k).offered.sane

/-- **The rules are kept.** The configuration is an accepted one, `deserialize` inverts `serialize`, and a CONNACK fits
its length field. In every run in which writes to one socket do not overlap, the pid of a CONNECT is that of no process
whose connection is open, a REQUEST that opens a call has a call id that no REQUEST had, no RESPONSE answers a REQUEST
that was buffered at a waiting callee, and services keep `OneSend` and `LastRule` (`Allowed`): the processes send the
proxy only what the rules for them allow, the proxy sends a process only RESPONSEs to its REQUESTs, and neither comes to
undefined behaviour. That opening call ids are fresh is among what is asked and among the rules that are kept. -/
theorem rules_kept {files : Config.Files} {root : Config.Root} (hload : (Config.load files .fresh root).1 = true)
    (hconfig : cfg.config = (Config.load files .fresh root).2)
    (hinv : cfg.codec.deserialize.Inverts cfg.codec.serialize) (hack : Pack.Sized cfg.codec (.connack ⟨true⟩))
    (hr : Reachable (machine cfg) (Allowed cfg) s) :
    (Reachable (Proxy.machine cfg.proxy) (Proxy.Lawful cfg.proxy) s.proxy ∧ s.proxy.fault = false) ∧
    ∀ k, Reachable (Worker.machine (cfg.worker k)) (fun w l => Worker.LastRule w l ∧ Worker.SendRule w l)
      (s.process k) ∧ (s.process k).fault = false :=
  rules_of_reachable (System.Setting.consistent_of_load hload hconfig) hinv hack hr

end Sys

/-! ### A remote call to run

The processes are those of the sample of the composite system. -/

namespace Sample

open System.Sample

/-- The process behind `k` connects, registers and reads the CONNACK. -/
def join (k : Proxy.Conn) : List Label :=
  [.proxy .accept, .read k, .proxy (.transfer k 1000), .proxy (.resume k false), .connack k]

/-- A client asks the process 0, whose service sends a REQUEST to the process 2. -/
def ask : List Label :=
  [.actor 0 .accept, .actor 0 (.remote 0 (ascii "svc_a") ⟨0, []⟩), .actor 0 .messageNotified, .actor 0 (.run 0),
    .actor 0 (.send 0 (ascii "svc_b") ⟨0, [7]⟩), .actor 0 .funcReturn, .actor 0 (.wentOut 0), .actor 0 (.written 0 0)]

/-- The proxy passes the REQUEST on, and the process 2 serves it. -/
def serve : List Label :=
  [.read 0, .proxy (.run 0), .proxy (.transfer 0 1000), .proxy (.resume 0 false), .internal 2,
    .actor 2 .messageNotified, .actor 2 (.run 0), .actor 2 (.respond 0 ⟨0, [8]⟩), .actor 2 (.complete 0),
    .actor 2 .funcReturn]

/-- The proxy passes the RESPONSE back, and `send` returns. -/
def reply : List Label := [.read 2, .proxy (.transfer 2 1000), .internal 0, .actor 0 (.responded 0)]

def call : List Label :=
  join 0 ++ join 1 ++ join 2 ++ [.actor 0 (.run 0), .actor 2 (.run 0)] ++ ask ++ serve ++ reply

end Sample

namespace Sys

/-- The `send` of the process 0 has returned what the process 2 has produced. -/
theorem rules_kept_sample : ∃ s : Sys, Reachable (machine System.Sample.setting) (Allowed System.Sample.setting) s ∧
    ((s.process 0).sends 0).pc = .returned (some ⟨0, [8]⟩) ∧
    (Reachable (Proxy.machine System.Sample.setting.proxy) (Proxy.Lawful System.Sample.setting.proxy) s.proxy ∧
      s.proxy.fault = false) ∧
    ∀ k, Reachable (Worker.machine (System.Sample.setting.worker k))
      (fun w l => Worker.LastRule w l ∧ Worker.SendRule w l) (s.process k) ∧ (s.process k).fault = false := by
  obtain ⟨s, hr, hreturned⟩ := Reachable.of_leadsTo (machine System.Sample.setting) (Allowed System.Sample.setting)
    Sample.call (fun s => ((s.process 0).sends 0).pc = .returned (some ⟨0, [8]⟩)) (by decide +kernel)
  exact ⟨s, hr, hreturned, rules_kept System.Sample.accepted rfl Link.Sample.codec_inverts System.Sample.sized hr⟩

end Sys

end CoroActor.Cluster
