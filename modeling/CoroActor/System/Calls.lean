import CoroActor.Proxy.Chains
import CoroActor.System.Exchange

/-! The chain that the proxy uses for the first REQUEST of a call. Entries of the chain map are never removed, so the
chain is fresh as long as no REQUEST had the call id before. Call ids name the pid and the counter that they were
generated with, so this says which processes may generate them again: one that was started later with the same pid,
and one whose counter has wrapped around. -/

namespace CoroActor.Exchange

open TransitionSystem

/-- The proxy reads the first REQUEST of a call from connection `k`: there is no chain of the call, the one that is
made consists of the actor that is registered for the connection, and no REQUEST of the call is unanswered. -/
structure FreshChain (s t : Proxy.Sys) (k : Proxy.Conn) (p : CoroActorRequest) : Prop where
  unused : s.proxy.actorCallChainMap p.callId = none
  chain : ∃ r, s.proxy.actorPidMap p.pid = some r ∧ (s.proxy.actors r).socket = k ∧ t.proxy.chain p.callId = [r]
  alone : ∀ n < s.history.nreq, (s.history.pack n).callId = p.callId → ¬ s.history.Unanswered n

/-- An actor was registered with the connection and the pid. -/
def Joined (s : Proxy.Sys) (k : Proxy.Conn) (pid : Pid) : Prop :=
  ∃ r < s.proxy.nactors, (s.proxy.actors r).socket = k ∧ (s.proxy.actors r).pid = pid

section Proxy

variable {cfg : Proxy.Setting} {s t : Proxy.Sys} {l : Proxy.Label} {k : Proxy.Conn} {pid : Pid}

theorem Joined.step (hj : Joined s k pid) (h : Proxy.Sys.Move cfg s l t) : Joined t k pid := by
  obtain ⟨r, hr, hsocket, hpid⟩ := hj
  by_cases hl : ∃ k p, l = .read k (.connect p)
  · obtain ⟨j, p, rfl⟩ := hl
    cases h with
    | connect =>
        refine ⟨r, Nat.lt_succ_of_lt hr, ?_⟩
        rw [Proxy.Sys.onConnect_old p hr]
        exact ⟨hsocket, hpid⟩
    | stay | undefined => exact ⟨r, hr, hsocket, hpid⟩
  · have hsame := h.sameWiring fun k p heq => hl ⟨k, p, heq⟩
    exact ⟨r, hsame.nactors ▸ hr, (hsame.socket r).trans hsocket, (hsame.pid r).trans hpid⟩

theorem step_connect {p : CoroActorConnect} (h : s.step cfg (.read k (.connect p)) = some t) :
    Joined t k p.pid := by
  obtain ⟨-, h⟩ := Option.ite_none_right_eq_some.mp h
  rw [← Option.some.inj h]
  refine ⟨s.proxy.nactors, Nat.lt_succ_self _, ?_⟩
  show ((s.onConnect cfg k p).proxy.actors s.proxy.nactors).socket = k ∧
    ((s.onConnect cfg k p).proxy.actors s.proxy.nactors).pid = p.pid
  rw [Proxy.Sys.onConnect_new]
  exact ⟨rfl, rfl⟩

theorem step_request (hw : Proxy.Sys.Wired s) (hj : Joined s k pid) {p : CoroActorRequest} (hpid : p.pid = pid)
    (h : s.step cfg (.read k (.request p)) = some t) :
    ∃ r, s.proxy.actorPidMap p.pid = some r ∧ (s.proxy.actors r).socket = k ∧ t = s.onRequest k p := by
  obtain ⟨⟨-, hread⟩, h⟩ := Option.ite_none_right_eq_some.mp h
  obtain ⟨r, hr, hsocket, hp⟩ := hj
  have hlive : s.pc (s.proxy.actors r).socket ≠ .done := by
    rw [hsocket, hread]
    exact Proxy.Pc.noConfusion
  refine ⟨r, ?_, hsocket, (Option.some.inj h).symm⟩
  rw [hpid, ← hp]
  exact hw.live r hr hlive

end Proxy

theorem sent_startSend (w : Worker.Sys) (j : Nat) (serviceName : StdString) (pack : CoroActorPack) :
    sent w (w.startSend j serviceName pack) = [.request ⟨w.ctx.pid, w.ctx.openCall.callId, serviceName, pack⟩
      (if w.ctx.callId = [] then some w.ctx.openCall.seq else none)] := by
  rw [Worker.Sys.startSend_eq]
  simp [sent]

/-- What a step of a process starts to write: nothing, or a REQUEST with its pid and its call id, which has been
generated when it had none. -/
theorem sent_cases {cfg : Worker.Setting} {w w' : Worker.Sys} {l : Worker.Label} (h : w.step cfg l = some w') :
    sent w w' = [] ∨ ∃ p issued, sent w w' = [.request p issued] ∧ p.pid = w.ctx.pid ∧
      p.callId = w.ctx.openCall.callId ∧ (issued = none → w.ctx.callId ≠ []) ∧
      ∀ seq, issued = some seq → p.callId = Worker.callIdOf w.ctx.pid seq := by
  rcases (Worker.Sys.step_move h).nsend with hsame | ⟨j, serviceName, pack, -, rfl⟩
  · left
    rw [sent, if_neg (by omega)]
  · right
    refine ⟨_, _, sent_startSend w j serviceName pack, rfl, rfl, ?_, ?_⟩
    · intro hnone hnil
      rw [if_pos hnil] at hnone
      cases hnone
    · intro seq hseq
      split at hseq
      · next hnil =>
          rw [← Option.some.inj hseq]
          simp only [Worker.CoroActorCtx.openCall, hnil, if_true]
          rfl
      · cases hseq

namespace Sys

variable {cfg : Setting} {s t : Sys} {l : Label} {k : Proxy.Conn} {p : CoroActorRequest} {issued : Option UInt32}
  {rest : List Outgoing}

/-- What is on its way from each process comes in order and carries the pid of the process. -/
structure Posted (cfg : Setting) (s : Sys) : Prop where
  rooted : s.proxy.Rooted
  wired : s.proxy.Wired
  pid : ∀ k, (s.process k).ctx.pid = cfg.pid k
  joined : ∀ k, (∃ rest, s.outbox k = .connect :: rest ∧ .connect ∉ rest) ∨
    .connect ∉ s.outbox k ∧ Joined s.proxy k (cfg.pid k)
  issued : ∀ k p issued, .request p issued ∈ s.outbox k →
    p.pid = cfg.pid k ∧ ∀ seq, issued = some seq → p.callId = Worker.callIdOf (cfg.pid k) seq

theorem posted_init (cfg : Setting) : Posted cfg (Sys.init cfg) where
  rooted := Proxy.Sys.rooted_init
  wired := Proxy.Sys.wired_init
  pid _ := rfl
  joined _ := .inl ⟨[], rfl, List.not_mem_nil⟩
  issued k p issued h := by
    cases List.mem_singleton.mp h

theorem mem_update {α : Type} {f : Proxy.Conn → List α} {l : List α} {x : α} {j : Proxy.Conn}
    (h : x ∈ Function.update f k l j) : j = k ∧ x ∈ l ∨ j ≠ k ∧ x ∈ f j := by
  by_cases hj : j = k
  · subst hj
    rw [Function.update_self] at h
    exact .inl ⟨rfl, h⟩
  · rw [Function.update_of_ne hj] at h
    exact .inr ⟨hj, h⟩

/-- The proxy reads the next frame of a connection. -/
theorem Posted.read (hp : Posted cfg s) {o : Outgoing} (hrest : s.outbox k = o :: rest) {proxy : Proxy.Sys}
    (hrooted : proxy.Rooted) (hwired : proxy.Wired)
    (hjoined : ∀ k pid, Joined s.proxy k pid → Joined proxy k pid) (hk : Joined proxy k (cfg.pid k))
    (calls : List (Pid × UInt32)) :
    Posted cfg { s with proxy := proxy, outbox := Function.update s.outbox k rest, calls := calls } := by
  refine ⟨hrooted, hwired, hp.pid, fun j => ?_, fun j p issued hmem => ?_⟩
  · show (∃ rest', Function.update s.outbox k rest j = _ ∧ _) ∨ _ ∉ Function.update s.outbox k rest j ∧ _
    by_cases hj : j = k
    · subst hj
      rw [Function.update_self]
      refine .inr ⟨?_, hk⟩
      rcases hp.joined j with ⟨rest', hrest', hnot⟩ | ⟨hnot, -⟩
      · rw [hrest] at hrest'
        rwa [(List.cons.inj hrest').2]
      · rw [hrest] at hnot
        exact fun hmem => hnot (List.mem_cons_of_mem _ hmem)
    · rw [Function.update_of_ne hj]
      exact (hp.joined j).imp_right fun h => ⟨h.1, hjoined j _ h.2⟩
  · rcases mem_update hmem with ⟨rfl, hin⟩ | ⟨-, hin⟩
    · exact hp.issued j p issued (by rw [hrest]; exact List.mem_cons_of_mem _ hin)
    · exact hp.issued j p issued hin

/-- A process that has sent a REQUEST has sent its CONNECT, and the proxy reads that first. -/
theorem Posted.joined_of_request (hp : Posted cfg s) (hrest : s.outbox k = .request p issued :: rest) :
    Joined s.proxy k (cfg.pid k) := by
  rcases hp.joined k with ⟨rest', hrest', -⟩ | ⟨-, hin⟩
  · rw [hrest] at hrest'
    cases hrest'
  · exact hin

theorem Posted.move (hp : Posted cfg s) (h : Move cfg s l t) (hd : s.Distinct l) : Posted cfg t := by
  have hproxy : ∀ {l proxy}, s.proxy.step cfg.proxy l = some proxy →
      (∀ k p, l = .read k (.connect p) → s.proxy.ConnectRule k p) → proxy.Rooted ∧ proxy.Wired ∧
        ∀ k pid, Joined s.proxy k pid → Joined proxy k pid := by
    intro l proxy hstep hrule
    have hmove := Proxy.Sys.step_move hp.wired.isOpen hstep
    exact ⟨hp.rooted.step hmove, hp.wired.step hmove hrule, fun _ _ hj => hj.step hmove⟩
  cases h with
  | connect hrest hstep =>
      obtain ⟨hrooted, hwired, hjoined⟩ := hproxy hstep fun _ _ heq => by cases heq; exact hd
      exact hp.read hrest hrooted hwired hjoined (step_connect hstep) s.calls
  | request hrest hstep =>
      obtain ⟨hrooted, hwired, hjoined⟩ := hproxy hstep nofun
      exact hp.read hrest hrooted hwired hjoined (hjoined _ _ (hp.joined_of_request hrest)) _
  | proxy hc _ hstep =>
      obtain ⟨hrooted, hwired, hjoined⟩ := hproxy hstep fun k p heq => absurd heq (hc k p)
      exact ⟨hrooted, hwired, hp.pid, fun j => (hp.joined j).imp_right fun h => ⟨h.1, hjoined j _ h.2⟩, hp.issued⟩
  | @process k l w hstep =>
      have hsent := sent_cases hstep
      have hnot : .connect ∉ sent (s.process k) w := by
        rcases hsent with heq | ⟨p, issued, heq, -⟩
        · rw [heq]
          exact List.not_mem_nil
        · rw [heq]
          exact fun hmem => by cases List.mem_singleton.mp hmem
      refine ⟨hp.rooted, hp.wired, fun j => ?_, fun j => ?_, fun j p issued hmem => ?_⟩
      · show (Function.update s.process k w j).ctx.pid = _
        by_cases hj : j = k
        · subst hj
          rw [Function.update_self, (Worker.Sys.step_move hstep).pid, hp.pid]
        · rw [Function.update_of_ne hj, hp.pid]
      · show (∃ rest', Function.update s.outbox k _ j = _ ∧ _) ∨ _ ∉ Function.update s.outbox k _ j ∧ _
        by_cases hj : j = k
        · subst hj
          rw [Function.update_self]
          rcases hp.joined j with ⟨rest, hrest, hnone⟩ | ⟨hnone, hin⟩
          · refine .inl ⟨rest ++ sent (s.process j) w, by rw [hrest]; rfl, ?_⟩
            exact fun hmem => (List.mem_append.mp hmem).elim hnone hnot
          · exact .inr ⟨fun hmem => (List.mem_append.mp hmem).elim hnone hnot, hin⟩
        · rw [Function.update_of_ne hj]
          exact hp.joined j
      · rcases mem_update hmem with ⟨rfl, hin⟩ | ⟨-, hin⟩
        · rcases List.mem_append.mp hin with hold | hnew
          · exact hp.issued j p issued hold
          · rcases hsent with heq | ⟨q, qissued, heq, hpid, -, -, hseq⟩
            · rw [heq] at hnew
              cases hnew
            · rw [heq] at hnew
              cases List.mem_singleton.mp hnew
              rw [← hp.pid]
              exact ⟨hpid, hseq⟩
        · exact hp.issued j p issued hin

theorem posted {ok : Sys → Label → Prop} (hok : ∀ s l, ok s l → s.Distinct l)
    (hr : Reachable (machine cfg) ok s) : Posted cfg s :=
  hr.invariant (posted_init cfg) fun _ _ _ _ hp hl hst => hp.move (step_move hst) (hok _ _ hl)

theorem Posted.reads (hp : Posted cfg s) (hrest : s.outbox k = .request p issued :: rest) {proxy : Proxy.Sys}
    (h : s.proxy.step cfg.proxy (.read k (.request p)) = some proxy) :
    ∃ r, s.proxy.proxy.actorPidMap p.pid = some r ∧ (s.proxy.proxy.actors r).socket = k ∧
      proxy = s.proxy.onRequest k p :=
  step_request hp.wired (hp.joined_of_request hrest)
    (hp.issued k p issued (by rw [hrest]; exact List.mem_cons_self)).1 h

/-- The chain of a REQUEST is fresh exactly when its call id is. -/
theorem Posted.fresh_iff (hp : Posted cfg s) (hrest : s.outbox k = .request p issued :: rest)
    {proxy : Proxy.Sys} (h : s.proxy.step cfg.proxy (.read k (.request p)) = some proxy) :
    FreshChain s.proxy proxy k p ↔ s.proxy.Fresh p.callId := by
  obtain ⟨r, hr, hsocket, rfl⟩ := hp.reads hrest h
  constructor
  · intro hchain
    exact (hp.rooted.entry _).mp hchain.unused
  · intro hfresh
    have hnone := (hp.rooted.entry _).mpr hfresh
    refine ⟨hnone, ⟨r, hr, hsocket, ?_⟩, fun n hn heq => absurd heq (hfresh n hn)⟩
    rw [Proxy.Registry.chain, Proxy.Sys.onRequest_entry hr, if_pos ⟨hnone, rfl⟩]
    rfl

/-! ### Where call ids come from -/

/-- The call ids of the calls whose first REQUEST was read. -/
def ids (s : Sys) : Set StdString := {c | ∃ x ∈ s.calls, Worker.callIdOf x.1 x.2 = c}

/-- Each REQUEST on its way opens a call, or has the call id of one that was read or is before it. -/
def Sourced (known : Set StdString) : List Outgoing → Prop
  | [] => True
  | .connect :: rest => Sourced known rest
  | .request p issued :: rest => (issued = none → p.callId ∈ known) ∧ Sourced (insert p.callId known) rest

theorem Sourced.mono {known known' : Set StdString} {l : List Outgoing} (h : Sourced known l)
    (hsub : known ⊆ known') : Sourced known' l := by
  induction l generalizing known known' with
  | nil => trivial
  | cons o rest ih =>
      cases o with
      | connect => exact ih h hsub
      | request p issued => exact ⟨fun hnone => hsub (h.1 hnone), ih h.2 (Set.insert_subset_insert hsub)⟩

theorem Sourced.append {known : Set StdString} {l : List Outgoing} (h : Sourced known l)
    (hid : issued = none → p.callId ∈ known ∨ ∃ q i, .request q i ∈ l ∧ q.callId = p.callId) :
    Sourced known (l ++ [.request p issued]) := by
  induction l generalizing known with
  | nil =>
      refine ⟨fun hnone => ?_, trivial⟩
      rcases hid hnone with hknown | ⟨q, i, hmem, -⟩
      · exact hknown
      · exact absurd hmem List.not_mem_nil
  | cons o rest ih =>
      cases o with
      | connect =>
          refine ih h fun hnone => (hid hnone).imp_right ?_
          rintro ⟨q, i, hmem, heq⟩
          exact ⟨q, i, (List.mem_cons.mp hmem).resolve_left nofun, heq⟩
      | request q' i' =>
          refine ⟨h.1, ih h.2 fun hnone => ?_⟩
          rcases hid hnone with hknown | ⟨q, i, hmem, heq⟩
          · exact .inl (Set.mem_insert_of_mem _ hknown)
          · rcases List.mem_cons.mp hmem with hhead | hrest
            · cases hhead
              exact .inl (by rw [← heq]; exact Set.mem_insert _ _)
            · exact .inr ⟨q, i, hrest, heq⟩

/-- The call id is that of a call that was read, or of a REQUEST on its way from the connection. -/
def Known (s : Sys) (k : Proxy.Conn) (c : StdString) : Prop :=
  c ∈ s.ids ∨ ∃ p issued, .request p issued ∈ s.outbox k ∧ p.callId = c

/-- All call ids have been generated. -/
structure Generated (cfg : Setting) (s : Sys) : Prop extends Posted cfg s where
  seen : ∀ c, ¬ s.proxy.Fresh c ↔ c ∈ s.ids
  sourced : ∀ k, Sourced s.ids (s.outbox k)
  held : ∀ k c, (s.process k).Holds c → c = [] ∨ s.Known k c

theorem generated_init (cfg : Setting) : Generated cfg (Sys.init cfg) where
  toPosted := posted_init cfg
  seen c := by
    refine iff_of_false (not_not_intro fun n hn => absurd hn (Nat.not_lt_zero n)) ?_
    rintro ⟨x, hx, -⟩
    exact absurd hx List.not_mem_nil
  sourced _ := trivial
  held k c hc := by
    rcases hc with heq | ⟨msg, hmsg, -⟩
    · exact .inl heq.symm
    · exact absurd hmsg List.not_mem_nil

/-- Reading a REQUEST adds its call id to those that were read. -/
theorem Generated.ids_read (hg : Generated cfg s) (hrest : s.outbox k = .request p issued :: rest) :
    ({ s with calls := s.calls ++ opens cfg k issued } : Sys).ids = insert p.callId s.ids := by
  have hhead : issued = none → p.callId ∈ s.ids := by
    have hsourced := hg.sourced k
    rw [hrest] at hsourced
    exact hsourced.1
  have hseq := (hg.issued k p issued (by rw [hrest]; exact List.mem_cons_self)).2
  ext c
  show (∃ x ∈ s.calls ++ opens cfg k issued, Worker.callIdOf x.1 x.2 = c) ↔ c = p.callId ∨ c ∈ s.ids
  cases issued with
  | none =>
      rw [opens, Option.map_none, Option.toList_none, List.append_nil]
      refine ⟨Or.inr, ?_⟩
      rintro (rfl | h)
      · exact hhead rfl
      · exact h
  | some seq =>
      rw [hseq seq rfl, opens, Option.map_some, Option.toList_some]
      constructor
      · rintro ⟨x, hx, rfl⟩
        rcases List.mem_append.mp hx with hold | hnew
        · exact .inr ⟨x, hold, rfl⟩
        · rw [List.mem_singleton.mp hnew]
          exact .inl rfl
      · rintro (rfl | ⟨x, hx, rfl⟩)
        · exact ⟨(cfg.pid k, seq), List.mem_append_right _ List.mem_cons_self, rfl⟩
        · exact ⟨x, List.mem_append_left _ hx, rfl⟩

theorem Generated.request (hg : Generated cfg s) (hrest : s.outbox k = .request p issued :: rest) {proxy : Proxy.Sys}
    (h : s.proxy.step cfg.proxy (.read k (.request p)) = some proxy) {t : Sys} (ht : Posted cfg t)
    (heq : t = { s with
      proxy := proxy
      outbox := Function.update s.outbox k rest
      calls := s.calls ++ opens cfg k issued }) : Generated cfg t := by
  obtain ⟨r, hr, -, rfl⟩ := hg.reads hrest h
  have hids : t.ids = insert p.callId s.ids := by
    rw [heq]
    exact hg.ids_read hrest
  have hhead : Sourced (insert p.callId s.ids) rest := by
    have hsourced := hg.sourced k
    rw [hrest] at hsourced
    exact hsourced.2
  refine ⟨ht, fun c => ?_, fun j => ?_, fun j c hc => ?_⟩
  · rw [hids, heq, Proxy.Sys.onRequest_fresh hr, Set.mem_insert_iff, ← hg.seen c]
    tauto
  · rw [hids, heq]
    show Sourced _ (Function.update s.outbox k rest j)
    by_cases hj : j = k
    · subst hj
      rw [Function.update_self]
      exact hhead
    · rw [Function.update_of_ne hj]
      exact (hg.sourced j).mono (Set.subset_insert _ _)
  · rw [heq] at hc
    refine (hg.held j c hc).imp_right ?_
    rintro (hid | ⟨q, i, hmem, hq⟩)
    · exact .inl (by rw [hids]; exact Set.mem_insert_of_mem _ hid)
    · by_cases hj : j = k
      · subst hj
        rw [hrest] at hmem
        rcases List.mem_cons.mp hmem with hfirst | hlater
        · cases hfirst
          exact .inl (by rw [hids, ← hq]; exact Set.mem_insert _ _)
        · refine .inr ⟨q, i, ?_, hq⟩
          rw [heq]
          show _ ∈ Function.update s.outbox j rest j
          rwa [Function.update_self]
      · refine .inr ⟨q, i, ?_, hq⟩
        rw [heq]
        show _ ∈ Function.update s.outbox k rest j
        rwa [Function.update_of_ne hj]

theorem Generated.process (hg : Generated cfg s) {l : Worker.Label} {w : Worker.Sys}
    (h : (s.process k).step (cfg.worker k) l = some w) (hrelayed : ∀ p, l = .request p → s.Written k p) {t : Sys}
    (ht : Posted cfg t)
    (heq : t = { s with
      process := Function.update s.process k w
      outbox := Function.update s.outbox k (s.outbox k ++ sent (s.process k) w) }) : Generated cfg t := by
  have houtbox : ∀ j, t.outbox j = s.outbox j ++ if j = k then sent (s.process k) w else [] := by
    intro j
    rw [heq]
    show Function.update s.outbox k _ j = _
    by_cases hj : j = k
    · subst hj
      rw [Function.update_self, if_pos rfl]
    · rw [Function.update_of_ne hj, if_neg hj, List.append_nil]
  have hids : t.ids = s.ids := by rw [heq]; rfl
  have hknown : ∀ {j c}, s.Known j c → t.Known j c := by
    rintro j c (hid | ⟨q, i, hmem, hq⟩)
    · exact .inl (hids ▸ hid)
    · exact .inr ⟨q, i, by rw [houtbox]; exact List.mem_append_left _ hmem, hq⟩
  refine ⟨ht, fun c => ?_, fun j => ?_, fun j c hc => ?_⟩
  · rw [hids, heq]
    exact hg.seen c
  · rw [hids, houtbox]
    by_cases hj : j = k
    · subst hj
      rw [if_pos rfl]
      rcases sent_cases h with hnil | ⟨p, issued, hsent, -, hid, hnone, -⟩
      · rw [hnil, List.append_nil]
        exact hg.sourced j
      · rw [hsent]
        refine (hg.sourced j).append fun hi => ?_
        rw [Worker.CoroActorCtx.openCall_callId, if_neg (hnone hi)] at hid
        rw [hid]
        exact (hg.held j _ (.inl rfl)).resolve_left (hnone hi)
    · rw [if_neg hj, List.append_nil]
      exact hg.sourced j
  · by_cases hj : j = k
    · subst hj
      have hw : w.Holds c := by
        rw [heq] at hc
        simpa using hc
      rcases (Worker.Sys.step_move h).holds hw with hnil | hold | ⟨p, hl, rfl⟩ | ⟨i, serviceName, pack, -, rfl, hid⟩
      · exact .inl hnil
      · exact (hg.held j c hold).imp_right hknown
      · obtain ⟨n, hn, hpack, -⟩ := hrelayed p hl
        refine .inr (hknown (.inl ((hg.seen _).mp fun hfresh => hfresh n hn ?_)))
        rw [hpack]
      · obtain ⟨q, issued, hsent, hq⟩ : ∃ q issued,
            sent (s.process j) ((s.process j).startSend i serviceName pack) = [.request q issued] ∧
              q.callId = (s.process j).ctx.openCall.callId := ⟨_, _, sent_startSend _ _ _ _, rfl⟩
        refine .inr (.inr ⟨q, issued, ?_, hq.trans hid⟩)
        rw [houtbox, if_pos rfl, hsent]
        exact List.mem_append_right _ List.mem_cons_self
    · refine (hg.held j c ?_).imp_right hknown
      rw [heq] at hc
      simpa [Function.update_of_ne hj] using hc

theorem Generated.move (hg : Generated cfg s) (h : Move cfg s l t) (hd : s.Distinct l) (hr : s.Relayed l) :
    Generated cfg t := by
  have ht : Posted cfg t := hg.toPosted.move h hd
  have hfresh : ∀ {l proxy}, s.proxy.step cfg.proxy l = some proxy → (∀ k p, l ≠ .read k (.request p)) →
      ∀ c, proxy.Fresh c ↔ s.proxy.Fresh c := fun hstep hl c =>
    (Proxy.Sys.step_move hg.wired.isOpen hstep).fresh hl c
  cases h with
  | @connect k rest proxy hrest hstep =>
      have hold : ∀ j, s.outbox j = Function.update s.outbox k rest j ∨
          s.outbox j = .connect :: Function.update s.outbox k rest j := by
        intro j
        by_cases hj : j = k
        · subst hj
          rw [Function.update_self]
          exact .inr hrest
        · rw [Function.update_of_ne hj]
          exact .inl rfl
      refine ⟨ht, fun c => ?_, fun j => ?_, fun j c hc => ?_⟩
      · exact (not_congr (hfresh hstep nofun c)).trans (hg.seen c)
      · have hsourced := hg.sourced j
        rcases hold j with hsame | hpopped
        · rwa [hsame] at hsourced
        · rwa [hpopped] at hsourced
      · refine (hg.held j c hc).imp_right fun hknown => hknown.imp_right ?_
        rintro ⟨q, i, hmem, hq⟩
        refine ⟨q, i, ?_, hq⟩
        show _ ∈ Function.update s.outbox k rest j
        rcases hold j with hsame | hpopped
        · rwa [hsame] at hmem
        · rw [hpopped] at hmem
          exact (List.mem_cons.mp hmem).resolve_left nofun
  | request hrest hstep => exact hg.request hrest hstep ht rfl
  | proxy _ hl hstep =>
      exact ⟨ht, fun c => (not_congr (hfresh hstep hl c)).trans (hg.seen c), hg.sourced, hg.held⟩
  | process hstep => exact hg.process hstep (fun p heq => by rw [heq] at hr; exact hr) ht rfl

/-- **Fresh chains.** In every run in which the connected processes have distinct pids, the chain of a REQUEST for which
`send` has generated the call id is fresh exactly when no REQUEST with this call id was read before. If moreover the
processes read the REQUESTs that the proxy wrote to them, that is exactly when no REQUEST was read for which a
process with the same pid generated its call id at the same value of the counter. -/
theorem freshChain_iff {seq : UInt32} (hr : Reachable (machine cfg) Distinct s)
    (hout : s.outbox k = .request p (some seq) :: rest)
    (hst : (machine cfg).step s (.proxy (.read k (.request p))) = some t) :
    p.callId = Worker.callIdOf (cfg.pid k) seq ∧ (FreshChain s.proxy t.proxy k p ↔ s.proxy.Fresh p.callId) ∧
      (Reachable (machine cfg) (fun s l => s.Distinct l ∧ s.Relayed l) s →
        (FreshChain s.proxy t.proxy k p ↔ (cfg.pid k, seq) ∉ s.calls)) := by
  have hp : Posted cfg s := posted (fun _ _ => id) hr
  have hid : p.callId = Worker.callIdOf (cfg.pid k) seq :=
    (hp.issued k p (some seq) (by rw [hout]; exact List.mem_cons_self)).2 seq rfl
  have hfresh : FreshChain s.proxy t.proxy k p ↔ s.proxy.Fresh p.callId := by
    have hmove : Move cfg s (.proxy (.read k (.request p))) t := step_move hst
    cases hmove with
    | request hrest hstep => exact hp.fresh_iff hrest hstep
    | proxy _ hl _ => exact absurd rfl (hl k p)
  refine ⟨hid, hfresh, fun hrelayed => hfresh.trans ?_⟩
  have hg : Generated cfg s := hrelayed.invariant (generated_init cfg) fun _ _ _ _ hg hok hst =>
    hg.move (step_move hst) hok.1 hok.2
  rw [← not_iff_not, hg.seen, not_not, hid]
  constructor
  · rintro ⟨⟨pid, seq'⟩, hx, heq⟩
    obtain ⟨rfl, rfl⟩ := Worker.callIdOf_inj heq
    exact hx
  · exact fun hx => ⟨_, hx, rfl⟩

end Sys

namespace Sample

/-- Each process has pid 10 and one service. They are connected one after the other. -/
def setting : Setting := ⟨Proxy.Sample.setting, fun _ => 10, fun _ => ascii "a", fun _ name => name = ascii "svc_a"⟩

def join (k : Proxy.Conn) : List Label := (Proxy.Sample.join k 10 "a").map .proxy

/-- A client calls the service of the process, which calls `send`. -/
def call (k : Proxy.Conn) : List Label :=
  [.process k (.run 0), .process k .accept, .process k (.remote 0 (ascii "svc_a") ⟨0, []⟩),
    .process k .messageNotified, .process k (.run 0), .process k (.send 0 (ascii "svc_b") ⟨0, []⟩)]

/-- The REQUEST that is sent then. -/
def request : CoroActorRequest := ⟨10, ascii "10-1", ascii "svc_b", ⟨0, []⟩⟩

end Sample

namespace Sys

/-- The first call of the first process. -/
theorem freshChain_sample : ∃ s t, Reachable (machine Sample.setting) (fun s l => s.Distinct l ∧ s.Relayed l) s ∧
    (machine Sample.setting).step s (.proxy (.read 0 (.request Sample.request))) = some t ∧
    FreshChain s.proxy t.proxy 0 Sample.request := by
  obtain ⟨s, t, hr, -, hst, hout, hcalls⟩ := Reachable.of_takes (machine Sample.setting)
    (fun s l => s.Distinct l ∧ s.Relayed l) (Sample.join 0 ++ Sample.call 0)
    (.proxy (.read 0 (.request Sample.request)))
    (fun s _ => s.outbox 0 = [.request Sample.request (some 1)] ∧ (10, 1) ∉ s.calls) (by decide +kernel)
  have hdistinct : Reachable (machine Sample.setting) Distinct s := hr.mono fun _ _ h => h.1
  exact ⟨s, t, hr, hst, ((freshChain_iff hdistinct hout hst).2.2 hr).mpr hcalls⟩

/-- The process of actor 0 has called `send` and is gone. Another one with its pid calls `send` for the first time,
which generates the same call id, and the proxy uses the chain of actor 0. -/
theorem stale_chain : ∃ s t, Reachable (machine Sample.setting) (fun s l => s.Distinct l ∧ s.Relayed l) s ∧
    s.outbox 1 = [.request Sample.request (some 1)] ∧
    (machine Sample.setting).step s (.proxy (.read 1 (.request Sample.request))) = some t ∧
    t.proxy.proxy.chain (ascii "10-1") = [0] ∧ (t.proxy.proxy.actors 0).socket = 0 ∧
    ¬ FreshChain s.proxy t.proxy 1 Sample.request := by
  obtain ⟨s, t, hr, -, hst, hout, hchain, hsocket, hentry⟩ := Reachable.of_takes (machine Sample.setting)
    (fun s l => s.Distinct l ∧ s.Relayed l)
    (Sample.join 0 ++ Sample.call 0 ++
      [.proxy (.read 0 (.request Sample.request)), .proxy (.run 0), .proxy (.readError 0)] ++
      Sample.join 1 ++ Sample.call 1)
    (.proxy (.read 1 (.request Sample.request)))
    (fun s t => s.outbox 1 = [.request Sample.request (some 1)] ∧ t.proxy.proxy.chain (ascii "10-1") = [0] ∧
      (t.proxy.proxy.actors 0).socket = 0 ∧ s.proxy.proxy.actorCallChainMap (ascii "10-1") = some [0])
    (by decide +kernel)
  refine ⟨s, t, hr, hout, hst, hchain, hsocket, fun hfresh => ?_⟩
  have hnone := hfresh.unused
  rw [show Sample.request.callId = ascii "10-1" from rfl, hentry] at hnone
  cases hnone

end Sys

end CoroActor.Exchange
