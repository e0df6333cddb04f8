import CoroActor.Proxy.Calls
import Mathlib.Data.List.Nodup

/-! The ledger: what the queues, the chains and the history say about the same requests. A request in a
queue has not been written to anybody and waits at the actor that buffered it last; an answered one was
written once and answered once; every chain is a stack of open calls. There is one lemma for each thing that
can happen to a request. -/

namespace CoroActor.Proxy

namespace History

variable {h : History} {n : Nat}

theorem holder_of_buffered_nil (hb : h.buffered n = []) : h.holder n = h.issuer n := by
  rw [holder, hb]
  rfl

theorem holder_mem (h : History) (n : Nat) : h.holder n = h.issuer n ∨ h.holder n ∈ h.buffered n := by
  rw [holder]
  cases hb : (h.buffered n).getLast? with
  | none => exact Or.inl rfl
  | some b => exact Or.inr (List.mem_of_getLast? hb)

theorem hold_holder_self (r : Ref) : (h.hold n r).holder n = r := by
  simp [holder]

end History

/-- The actors of one registry are actors of the other, with their names, pids and sockets. -/
structure Registry.Grows (σ σ' : Registry) : Prop where
  nactors : σ.nactors ≤ σ'.nactors
  name : ∀ r < σ.nactors, (σ'.actors r).name = (σ.actors r).name
  pid : ∀ r < σ.nactors, (σ'.actors r).pid = (σ.actors r).pid
  socket : ∀ r < σ.nactors, (σ'.actors r).socket = (σ.actors r).socket

theorem Registry.SameWiring.grows {σ σ' : Registry} (h : σ.SameWiring σ') : σ.Grows σ' :=
  ⟨h.nactors.ge, fun r _ => h.name r, fun r _ => h.pid r, fun r _ => h.socket r⟩

/-- What is booked about one request: who issued it, to whom it went, and that it was written and answered
at most once. -/
structure Entry (cfg : Setting) (σ : Registry) (h : History) (n : Nat) : Prop where
  issuer_lt : h.issuer n < σ.nactors
  issuer_socket : (σ.actors (h.issuer n)).socket = h.conn n
  issuer_pid : (σ.actors (h.issuer n)).pid = (h.pack n).pid
  foreign : cfg.serviceMap (h.pack n).serviceName ≠ some (σ.actors (h.issuer n)).name
  callId_ne : (h.pack n).callId ≠ []
  callee : ∀ r ∈ h.buffered n ++ h.written n,
    r < σ.nactors ∧ cfg.serviceMap (h.pack n).serviceName = some (σ.actors r).name
  written_le : (h.written n).length ≤ 1
  replied : h.replies n ≠ [] → h.written n ≠ [] ∧ h.replies n = [h.holder n]

theorem Entry.congr {cfg : Setting} {σ σ' : Registry} {h h' : History} {n : Nat} (he : Entry cfg σ h n)
    (hσ : σ.Grows σ') (hh : h.SameAt h' n) : Entry cfg σ' h' n := by
  constructor
  · rw [hh.issuer]
    exact he.issuer_lt.trans_le hσ.nactors
  · rw [hh.issuer, hh.conn, hσ.socket _ he.issuer_lt]
    exact he.issuer_socket
  · rw [hh.issuer, hh.pack, hσ.pid _ he.issuer_lt]
    exact he.issuer_pid
  · rw [hh.issuer, hh.pack, hσ.name _ he.issuer_lt]
    exact he.foreign
  · rw [hh.pack]
    exact he.callId_ne
  · rw [hh.buffered, hh.written, hh.pack]
    intro r hr
    obtain ⟨hlt, hgroup⟩ := he.callee r hr
    rw [hσ.name r hlt]
    exact ⟨hlt.trans_le hσ.nactors, hgroup⟩
  · rw [hh.written]
    exact he.written_le
  · rw [hh.written, hh.replies, hh.holder]
    exact he.replied

theorem Entry.issue {cfg : Setting} {σ σ' : Registry} {k : Conn} {af : Ref} {p : CoroActorRequest} (h : History)
    (hσ : σ.Grows σ') (haf : af < σ.nactors) (hsocket : (σ.actors af).socket = k)
    (hpid : (σ.actors af).pid = p.pid) (hforeign : cfg.serviceMap p.serviceName ≠ some (σ.actors af).name)
    (hc : p.callId ≠ []) : Entry cfg σ' (h.issue k af p) h.nreq := by
  constructor
  · simpa using haf.trans_le hσ.nactors
  · simpa [hσ.socket af haf] using hsocket
  · simpa [hσ.pid af haf] using hpid
  · simpa [hσ.name af haf] using hforeign
  · simpa using hc
  · simp
  · simp
  · simp

/-- An unanswered request goes on to a member of the group of its service. -/
theorem Entry.forward {cfg : Setting} {σ σ' : Registry} {h h' : History} {n : Nat} {select : Ref}
    (he : Entry cfg σ h n) (hσ : σ.Grows σ') (hrep : h'.replies n = []) (hlt : select < σ.nactors)
    (hgroup : cfg.serviceMap (h.pack n).serviceName = some (σ.actors select).name)
    (hconn : h'.conn = h.conn) (hissuer : h'.issuer = h.issuer) (hpack : h'.pack = h.pack)
    (htrail : h'.buffered n ++ h'.written n = h.buffered n ++ [select]) (hle : (h'.written n).length ≤ 1) :
    Entry cfg σ' h' n := by
  constructor
  · rw [hissuer]
    exact he.issuer_lt.trans_le hσ.nactors
  · rw [hissuer, hconn, hσ.socket _ he.issuer_lt]
    exact he.issuer_socket
  · rw [hissuer, hpack, hσ.pid _ he.issuer_lt]
    exact he.issuer_pid
  · rw [hissuer, hpack, hσ.name _ he.issuer_lt]
    exact he.foreign
  · rw [hpack]
    exact he.callId_ne
  · rw [htrail, hpack]
    intro r hr
    obtain ⟨hr', hg⟩ : r < σ.nactors ∧ cfg.serviceMap (h.pack n).serviceName = some (σ.actors r).name := by
      rcases List.mem_append.mp hr with hold | hnew
      · exact he.callee r (List.mem_append_left _ hold)
      · rw [List.mem_singleton.mp hnew]
        exact ⟨hlt, hgroup⟩
    rw [hσ.name r hr']
    exact ⟨hr'.trans_le hσ.nactors, hg⟩
  · exact hle
  · exact fun hne => absurd hrep hne

/-- The ledger invariant. -/
structure Booked (cfg : Setting) (σ : Registry) (h : History) : Prop where
  entry : ∀ n < h.nreq, Entry cfg σ h n
  queued : ∀ r, ∀ q ∈ (σ.actors r).msgQueue, q.serial < h.nreq ∧ h.pack q.serial = q.pack ∧
    h.written q.serial = [] ∧ h.holder q.serial = r
  nodup : ∀ r, ((σ.actors r).msgQueue.map Queued.serial).Nodup
  one : ∀ n < h.nreq, ∀ m < h.nreq, h.issuer n = h.issuer m → h.Unanswered n → h.Unanswered m → n = m
  unopened : ∀ c, σ.actorCallChainMap c = none → ∀ n < h.nreq, (h.pack n).callId ≠ c
  chained : ∀ c L, σ.actorCallChainMap c = some L → ∃ a ns, h.Stack c L a ns

theorem booked_init (cfg : Setting) : Booked cfg Sys.init.proxy Sys.init.history where
  entry _ hn := absurd hn (Nat.not_lt_zero _)
  queued _ _ hq := by cases hq
  nodup _ := List.nodup_nil
  one _ hn := absurd hn (Nat.not_lt_zero _)
  unopened _ _ _ hn := absurd hn (Nat.not_lt_zero _)
  chained _ _ hL := by cases hL

namespace Booked

variable {cfg : Setting} {σ σ' : Registry} {h h' : History} {n : Nat} {r : Ref}

section Facts

variable (hb : Booked cfg σ h)

include hb

theorem replies_nil (hn : n < h.nreq) (hw : h.written n = []) : h.replies n = [] := by
  by_contra hr
  exact ((hb.entry n hn).replied hr).1 hw

theorem unanswered_of_written_nil (hn : n < h.nreq) (hw : h.written n = []) : h.Unanswered n := by
  rw [History.Unanswered, hb.replies_nil hn hw]
  exact List.not_mem_nil

theorem queued_unanswered {q : Queued} (hq : q ∈ (σ.actors r).msgQueue) : h.Unanswered q.serial := by
  obtain ⟨hn, -, hw, -⟩ := hb.queued r q hq
  exact hb.unanswered_of_written_nil hn hw

theorem written_eq (hn : n < h.nreq) (hr : r ∈ h.written n) : h.written n = [r] := by
  have hle := (hb.entry n hn).written_le
  cases hw : h.written n with
  | nil =>
      rw [hw] at hr
      cases hr
  | cons x l =>
      rw [hw] at hle hr
      obtain rfl : l = [] := by simpa using hle
      rw [List.mem_singleton.mp hr]

theorem callee_ne_issuer (hn : n < h.nreq) (hr : r ∈ h.buffered n ++ h.written n) : r ≠ h.issuer n := by
  rintro rfl
  exact (hb.entry n hn).foreign ((hb.entry n hn).callee _ hr).2

theorem holder_lt (hn : n < h.nreq) : h.holder n < σ.nactors := by
  rcases h.holder_mem n with heq | hmem
  · rw [heq]
    exact (hb.entry n hn).issuer_lt
  · exact ((hb.entry n hn).callee _ (List.mem_append_left _ hmem)).1

/-- The holder of a request is its issuer exactly when the request was never buffered. -/
theorem holder_eq_issuer_iff (hn : n < h.nreq) : h.holder n = h.issuer n ↔ h.buffered n = [] := by
  refine ⟨fun heq => ?_, History.holder_of_buffered_nil⟩
  by_contra hne
  have hmem : h.holder n ∈ h.buffered n := by
    rw [History.holder, List.getLast?_eq_some_getLast hne]
    exact List.getLast_mem hne
  exact hb.callee_ne_issuer hn (List.mem_append_left _ hmem) heq

/-- A request waits in one queue only. -/
theorem queue_unique {r' : Ref} {q q' : Queued} (hq : q ∈ (σ.actors r).msgQueue)
    (hq' : q' ∈ (σ.actors r').msgQueue) (heq : q.serial = q'.serial) : r = r' ∧ q = q' := by
  obtain ⟨-, hp, -, hr⟩ := hb.queued r q hq
  obtain ⟨-, hp', -, hr'⟩ := hb.queued r' q' hq'
  refine ⟨by rw [← hr, ← hr', heq], ?_⟩
  cases q
  cases q'
  cases heq
  rw [Queued.mk.injEq]
  exact ⟨rfl, hp.symm.trans hp'⟩

end Facts

theorem quiet (hb : Booked cfg σ h) (hσ : σ.Grows σ')
    (hqueue : ∀ r, (σ'.actors r).msgQueue = (σ.actors r).msgQueue)
    (hchain : σ'.actorCallChainMap = σ.actorCallChainMap)
    (hh : h' = { h with delivered := h'.delivered, returned := h'.returned, frames := h'.frames }) :
    Booked cfg σ' h' := by
  rw [hh]
  have hsame : ∀ n, h.SameAt { h with
      delivered := h'.delivered
      returned := h'.returned
      frames := h'.frames } n := fun n => ⟨rfl, rfl, rfl, rfl, rfl, rfl⟩
  refine ⟨fun n hn => (hb.entry n hn).congr hσ (hsame n), fun r => ?_, fun r => ?_, hb.one, ?_,
    fun c L hL => ?_⟩
  · rw [hqueue]
    exact hb.queued r
  · rw [hqueue]
    exact hb.nodup r
  · rw [hchain]
    exact hb.unopened
  · rw [hchain] at hL
    obtain ⟨a, ns, hs⟩ := hb.chained c L hL
    exact ⟨a, ns, hs.frame rfl rfl fun n _ => hsame n⟩

theorem pop (hb : Booked cfg σ h) {af : Ref} {q : Queued} {rest : List Queued}
    (hq : (σ.actors af).msgQueue = q :: rest) : Booked cfg (σ.setMsgQueue af rest) h ∧
      ∀ r, ∀ q' ∈ ((σ.setMsgQueue af rest).actors r).msgQueue, q'.serial ≠ q.serial := by
  have hsub : ∀ r, ((σ.setMsgQueue af rest).actors r).msgQueue.Sublist (σ.actors r).msgQueue := fun r => by
    rw [Registry.setMsgQueue_msgQueue]
    split
    · next hr =>
        rw [hr, hq]
        exact List.sublist_cons_self q rest
    · exact List.Sublist.refl _
  have hσ := (Registry.SameWiring.setMsgQueue (σ := σ) af rest).grows
  refine ⟨⟨fun n hn => (hb.entry n hn).congr hσ (.refl n),
    fun r q' hq' => hb.queued r q' ((hsub r).subset hq'), fun r => (hb.nodup r).sublist ((hsub r).map _),
    hb.one, hb.unopened, hb.chained⟩, ?_⟩
  · intro r q' hq' heq
    have hmem : q ∈ (σ.actors af).msgQueue := by
      rw [hq]
      exact List.mem_cons_self
    obtain ⟨rfl, rfl⟩ := hb.queue_unique ((hsub r).subset hq') hmem heq
    have hnd := hb.nodup r
    rw [hq, List.map_cons, List.nodup_cons] at hnd
    rw [Registry.setMsgQueue_msgQueue, if_pos rfl] at hq'
    exact hnd.1 (List.mem_map_of_mem hq')

theorem emplace_queues (hb : Booked cfg σ h) (σ₁ : Registry) (h' : History) (q : Queued) (af : Ref)
    (hqueue : ∀ r, (σ₁.actors r).msgQueue = (σ.actors r).msgQueue) (hnreq : h.nreq ≤ h'.nreq)
    (hsame : ∀ r, ∀ q' ∈ (σ.actors r).msgQueue, h.SameAt h' q'.serial ∧ q'.serial ≠ q.serial)
    (hn : q.serial < h'.nreq) (hp : h'.pack q.serial = q.pack) (hw : h'.written q.serial = [])
    (hholder : h'.holder q.serial = af) :
    (∀ r, ∀ q' ∈ ((σ₁.emplace af q).actors r).msgQueue, q'.serial < h'.nreq ∧ h'.pack q'.serial = q'.pack ∧
      h'.written q'.serial = [] ∧ h'.holder q'.serial = r) ∧
    ∀ r, (((σ₁.emplace af q).actors r).msgQueue.map Queued.serial).Nodup := by
  have hold : ∀ r, ∀ q' ∈ (σ.actors r).msgQueue, q'.serial < h'.nreq ∧ h'.pack q'.serial = q'.pack ∧
      h'.written q'.serial = [] ∧ h'.holder q'.serial = r := by
    intro r q' hmem
    obtain ⟨hsame, -⟩ := hsame r q' hmem
    rw [hsame.pack, hsame.written, hsame.holder]
    exact ⟨(hb.queued r q' hmem).1.trans_le hnreq, (hb.queued r q' hmem).2⟩
  constructor
  · intro r q' hq'
    rw [Registry.emplace_msgQueue, hqueue, hqueue] at hq'
    split at hq'
    · next hr =>
        subst hr
        rcases List.mem_append.mp hq' with hmem | hmem
        · exact hold r q' hmem
        · rw [List.mem_singleton.mp hmem]
          exact ⟨hn, hp, hw, hholder⟩
    · exact hold r q' hq'
  · intro r
    rw [Registry.emplace_msgQueue, hqueue, hqueue]
    split
    · rw [List.map_append, List.map_singleton]
      refine List.nodup_append.mpr ⟨hb.nodup af, List.nodup_singleton _, ?_⟩
      intro m hm m' hm' heq
      obtain ⟨q', hq', rfl⟩ := List.mem_map.mp hm
      exact (hsame af q' hq').2 (heq.trans (List.mem_singleton.mp hm'))
    · exact hb.nodup r

theorem issue (hb : Booked cfg σ h) {k : Conn} {af : Ref} {p : CoroActorRequest} (haf : af < σ.nactors)
    (hsocket : (σ.actors af).socket = k) (hpid : (σ.actors af).pid = p.pid)
    (hforeign : cfg.serviceMap p.serviceName ≠ some (σ.actors af).name) (hc : p.callId ≠ [])
    (hidle : ∀ m < h.nreq, h.issuer m = af → ¬ h.Unanswered m)
    (htop : ∀ L a ns, σ.actorCallChainMap p.callId = some L → h.Stack p.callId L a ns →
      L.getLast? = some af ∧ ∀ m ∈ ns.head?, h.Live m) :
    Booked cfg ((if σ.actorCallChainMap p.callId = none then σ.setChain p.callId [af] else σ).emplace af
      ⟨h.nreq, p⟩) (h.issue k af p) := by
  have hσ := (Registry.SameWiring.issue (σ := σ) af p.callId ⟨h.nreq, p⟩
    (σ.actorCallChainMap p.callId = none)).grows
  have hchain : ∀ c, ((if σ.actorCallChainMap p.callId = none then σ.setChain p.callId [af] else σ).emplace af
      ⟨h.nreq, p⟩).actorCallChainMap c =
        if c = p.callId ∧ σ.actorCallChainMap p.callId = none then some [af] else σ.actorCallChainMap c := by
    intro c
    rw [Registry.emplace, Registry.setMsgQueue_chainMap]
    split
    · next hnone => simp [Registry.setChain_chainMap, hnone]
    · next hnone => simp [hnone]
  have hsame : ∀ n < h.nreq, h.SameAt (h.issue k af p) n := fun n hn => History.issue_sameAt hn.ne
  have hcases : ∀ n < (h.issue k af p).nreq, n < h.nreq ∨ n = h.nreq := fun n hn =>
    Nat.lt_succ_iff_lt_or_eq.mp hn
  have hissuer : (h.issue k af p).issuer h.nreq = af := Function.update_self _ _ _
  obtain ⟨hqueued, hnodup⟩ := hb.emplace_queues
    (if σ.actorCallChainMap p.callId = none then σ.setChain p.callId [af] else σ) (h.issue k af p)
    ⟨h.nreq, p⟩ af (by simp) (Nat.le_succ _)
    (fun r q' hq' => ⟨hsame _ (hb.queued r q' hq').1, (hb.queued r q' hq').1.ne⟩) (Nat.lt_succ_self _)
    (by simp) (by simp) (by simp [History.holder])
  refine ⟨fun n hn => ?_, hqueued, hnodup, fun n hn m hm heq hnu hmu => ?_, fun c hnone n hn => ?_,
    fun c L hL => ?_⟩
  · rcases hcases n hn with hlt | rfl
    · exact (hb.entry n hlt).congr hσ (hsame n hlt)
    · exact .issue h hσ haf hsocket hpid hforeign hc
  · rcases hcases n hn with hnlt | rfl
    · have hnu' := (hsame n hnlt).unanswered.mp hnu
      rw [(hsame n hnlt).issuer] at heq
      rcases hcases m hm with hmlt | rfl
      · rw [(hsame m hmlt).issuer] at heq
        exact hb.one n hnlt m hmlt heq hnu' ((hsame m hmlt).unanswered.mp hmu)
      · exact absurd hnu' (hidle n hnlt (heq.trans hissuer))
    · rcases hcases m hm with hmlt | rfl
      · rw [(hsame m hmlt).issuer] at heq
        exact absurd ((hsame m hmlt).unanswered.mp hmu) (hidle m hmlt (heq.symm.trans hissuer))
      · rfl
  · rw [hchain] at hnone
    split at hnone
    · cases hnone
    · next hcn =>
        rcases hcases n hn with hlt | rfl
        · rw [(hsame n hlt).pack]
          exact hb.unopened c hnone n hlt
        · rw [History.issue_pack, Function.update_self]
          rintro rfl
          exact hcn ⟨rfl, hnone⟩
  · rw [hchain] at hL
    split at hL
    · next hcn =>
        obtain ⟨rfl, hnone⟩ := hcn
        cases hL
        exact ⟨af, [], History.Stack.first k af p (hb.unopened _ hnone)⟩
    · obtain ⟨a, ns, hs⟩ := hb.chained c L hL
      refine ⟨a, ns, hs.issue k af p fun hpc => ?_⟩
      subst hpc
      exact htop L a ns hL hs

/-- What `hold` and `send` have in common: a request that is in no queue joins the chain with its
callee. -/
private theorem dispatch_chained (hb : Booked cfg σ h) (σ' : Registry) (h' : History) {q : Queued}
    (issuer select : Ref)
    (hn : q.serial < h.nreq) (hp : h.pack q.serial = q.pack) (hw : h.written q.serial = [])
    (hd : h.Departs h' q.serial select)
    (hchain : σ'.actorCallChainMap = ((σ.updateActorInfo issuer q.pack.callId true).setChain q.pack.callId
      (σ.chain q.pack.callId ++ [select])).actorCallChainMap) :
    (∀ c, σ'.actorCallChainMap c = none → ∀ n < h'.nreq, (h'.pack n).callId ≠ c) ∧
      ∀ c L, σ'.actorCallChainMap c = some L → ∃ a ns, h'.Stack c L a ns := by
  rw [hchain, hd.nreq, hd.pack]
  constructor
  · intro c hnone
    rw [Registry.setChain_chainMap] at hnone
    split at hnone
    · cases hnone
    · exact hb.unopened c hnone
  · intro c L hL
    rw [Registry.setChain_chainMap] at hL
    split at hL
    · next hc =>
        subst hc
        cases hold : σ.actorCallChainMap q.pack.callId with
        | none => exact absurd (by rw [hp]) (hb.unopened _ hold q.serial hn)
        | some L₀ =>
            cases hL
            rw [Registry.chain, hold, Option.getD_some]
            obtain ⟨a, ns, hs⟩ := hb.chained _ _ hold
            have hun : ∀ m < h.nreq, h.Undispatched m → h.Unanswered m := fun m hm hu =>
              hb.unanswered_of_written_nil hm hu.2
            obtain ⟨ns', hs'⟩ := hs.depart hd hn (by rw [hp]) hw (hb.replies_nil hn hw)
              fun m hm hmu hnu heq => hb.one m hm _ hn heq (hun m hm hmu) (hun _ hn hnu)
            exact ⟨a, ns', hs'⟩
    · next hc =>
        obtain ⟨a, ns, hs⟩ := hb.chained c L hL
        refine ⟨a, ns, hs.frame hd.nreq hd.pack fun m hm => hd.same m ?_⟩
        rintro rfl
        exact hc (by rw [← hm, hp])

theorem hold (hb : Booked cfg σ h) {q : Queued} {issuer select : Ref} (hn : q.serial < h.nreq)
    (hp : h.pack q.serial = q.pack) (hw : h.written q.serial = [])
    (hout : ∀ r, ∀ q' ∈ (σ.actors r).msgQueue, q'.serial ≠ q.serial) (hlt : select < σ.nactors)
    (hgroup : cfg.serviceMap q.pack.serviceName = some (σ.actors select).name) :
    Booked cfg (((σ.updateActorInfo issuer q.pack.callId true).setChain q.pack.callId
      (σ.chain q.pack.callId ++ [select])).emplace select q) (h.hold q.serial select) := by
  have hσ := (((Registry.SameWiring.updateActorInfo (σ := σ) issuer q.pack.callId true).trans
    (.setChain q.pack.callId (σ.chain q.pack.callId ++ [select]))).trans (.emplace select q)).grows
  have htrail : (h.hold q.serial select).buffered q.serial ++ (h.hold q.serial select).written q.serial =
      h.buffered q.serial ++ [select] := by simp [hw]
  obtain ⟨hunopened, hchained⟩ := hb.dispatch_chained (((σ.updateActorInfo issuer q.pack.callId true).setChain
    q.pack.callId (σ.chain q.pack.callId ++ [select])).emplace select q) (h.hold q.serial select) issuer select
    hn hp hw ⟨rfl, rfl, rfl, rfl, htrail, fun m hm => History.hold_sameAt hm⟩ rfl
  obtain ⟨hqueued, hnodup⟩ := hb.emplace_queues
    ((σ.updateActorInfo issuer q.pack.callId true).setChain q.pack.callId (σ.chain q.pack.callId ++ [select]))
    (h.hold q.serial select) q select
    (by simp) le_rfl (fun r q' hq' => ⟨History.hold_sameAt (hout r q' hq'), hout r q' hq'⟩) hn hp hw
    (History.hold_holder_self select)
  refine ⟨fun n hn' => ?_, hqueued, hnodup, hb.one, hunopened, hchained⟩
  by_cases hne : n = q.serial
  · rw [hne]
    exact (hb.entry _ hn).forward hσ (hb.replies_nil hn hw) hlt (by rw [hp]; exact hgroup) rfl rfl rfl htrail
      (hb.entry _ hn).written_le
  · exact (hb.entry n hn').congr hσ (History.hold_sameAt hne)

theorem send (hb : Booked cfg σ h) {q : Queued} {issuer select : Ref} (hn : q.serial < h.nreq)
    (hp : h.pack q.serial = q.pack) (hw : h.written q.serial = [])
    (hout : ∀ r, ∀ q' ∈ (σ.actors r).msgQueue, q'.serial ≠ q.serial) (hlt : select < σ.nactors)
    (hgroup : cfg.serviceMap q.pack.serviceName = some (σ.actors select).name) :
    Booked cfg (((σ.updateActorInfo issuer q.pack.callId true).setChain q.pack.callId
      (σ.chain q.pack.callId ++ [select])).updateActorInfo select q.pack.callId false)
      (h.send q.serial select) := by
  have hσ := (((Registry.SameWiring.updateActorInfo (σ := σ) issuer q.pack.callId true).trans
    (.setChain q.pack.callId (σ.chain q.pack.callId ++ [select]))).trans
      (.updateActorInfo select q.pack.callId false)).grows
  have hwritten : (h.send q.serial select).written q.serial = [select] := by simp [hw]
  have htrail : (h.send q.serial select).buffered q.serial ++ (h.send q.serial select).written q.serial =
      h.buffered q.serial ++ [select] := by rw [hwritten, History.send_buffered]
  obtain ⟨hunopened, hchained⟩ := hb.dispatch_chained (((σ.updateActorInfo issuer q.pack.callId true).setChain
    q.pack.callId (σ.chain q.pack.callId ++ [select])).updateActorInfo select q.pack.callId false)
    (h.send q.serial select) issuer select
    hn hp hw ⟨rfl, rfl, rfl, rfl, htrail, fun m hm => History.send_sameAt hm⟩ rfl
  refine ⟨fun n hn' => ?_, fun r q' hq' => ?_, ?_, hb.one, hunopened, hchained⟩
  · by_cases hne : n = q.serial
    · rw [hne]
      exact (hb.entry _ hn).forward hσ (hb.replies_nil hn hw) hlt (by rw [hp]; exact hgroup) rfl rfl rfl htrail
        (by rw [hwritten]; exact le_rfl)
    · exact (hb.entry n hn').congr hσ (History.send_sameAt hne)
  · simp only [Registry.updateActorInfo_msgQueue, Registry.setChain_actors] at hq'
    rw [(History.send_sameAt (hout r q' hq')).written]
    exact hb.queued r q' hq'
  · simpa using hb.nodup

/-- A RESPONSE is handled. Its sender was on top of the chain, and what is below it is where the request
was buffered last, or its issuer. -/
theorem reply (hb : Booked cfg σ h) {c : StdString} {L : List Ref} {back afSelf callee : Ref}
    (hn : n < h.nreq) (hc : (h.pack n).callId = c) (hlive : h.Live n) (hw : h.written n = [callee])
    (hidle : ∀ m < h.nreq, h.issuer m = callee → ¬ h.Unanswered m)
    (hchain : σ.chain c = L ++ [back, afSelf]) :
    afSelf = callee ∧ back = h.holder n ∧
      Booked cfg (σ.setChain c (L ++ [back])) (h.reply (some n) back) := by
  have hL : σ.actorCallChainMap c = some (L ++ [back, afSelf]) := by
    rw [Registry.chain] at hchain
    cases hm : σ.actorCallChainMap c with
    | none =>
        rw [hm] at hchain
        exact absurd hchain.symm (List.append_ne_nil_of_right_ne_nil _ (List.cons_ne_nil _ _))
    | some L₀ =>
        rw [hm, Option.getD_some] at hchain
        rw [hchain]
  have hun : ∀ m < h.nreq, h.Undispatched m → h.Unanswered m := fun m hm hu =>
    hb.unanswered_of_written_nil hm hu.2
  have haway : h.issuer n ∉ h.buffered n := fun hmem =>
    hb.callee_ne_issuer hn (List.mem_append_left _ hmem) rfl
  obtain ⟨a, ns, hs⟩ := hb.chained c _ hL
  have hrepn : (h.reply (some n) back).replies n = [back] := by simp [hlive.2]
  have hsame : ∀ m, m ≠ n → h.SameAt (h.reply (some n) back) m := fun m hm => History.reply_sameAt hm
  have hanswers : h.Answers (h.reply (some n) back) n back := ⟨rfl, rfl, rfl, rfl, rfl, hrepn, hsame⟩
  obtain ⟨hself, hback, ns', hs'⟩ := hs.answer hanswers hn hc hlive hw hidle hun haway
  have hσ := (Registry.SameWiring.setChain (σ := σ) c (L ++ [back])).grows
  refine ⟨hself, hback, ⟨fun m hm => ?_, hb.queued, hb.nodup, ?_, ?_, ?_⟩⟩
  · by_cases hmn : m = n
    · subst hmn
      have he := hb.entry m hm
      refine ⟨he.issuer_lt, he.issuer_socket, he.issuer_pid, he.foreign, he.callId_ne, he.callee, he.written_le,
        fun _ => ⟨hlive.1, ?_⟩⟩
      rw [hrepn, hback]
      rfl
    · exact (hb.entry m hm).congr hσ (hsame m hmn)
  · have hold : ∀ m, (h.reply (some n) back).Unanswered m → h.Unanswered m := fun m hu => by
      by_cases hmn : m = n
      · rw [hmn]
        exact hlive.unanswered
      · exact (hsame m hmn).unanswered.mp hu
    exact fun m hm m' hm' heq hu hu' => hb.one m hm m' hm' heq (hold m hu) (hold m' hu')
  · intro d hnone
    rw [Registry.setChain_chainMap] at hnone
    split at hnone
    · cases hnone
    · exact hb.unopened d hnone
  · intro d L' hL'
    rw [Registry.setChain_chainMap] at hL'
    split at hL'
    · next hd =>
        subst hd
        cases hL'
        exact ⟨a, ns', hs'⟩
    · next hd =>
        obtain ⟨a', ns'', hs''⟩ := hb.chained d L' hL'
        exact ⟨a', ns'', hs''.frame rfl rfl fun m hm => hsame m fun hmn => hd (by rw [← hm, hmn, hc])⟩

end Booked

end CoroActor.Proxy
