import CoroActor.System.Closure
import CoroActor.Worker.Openings

/-! Call ids do not collide. That a REQUEST which opens a call has a call id of its own was asked of a run. It follows
when no two processes have the same pid and no process counts past the end of its counter, with everything else asked
as before: writes to one socket do not overlap, what is answered was never buffered at a waiting callee, and services
keep `OneSend` and `LastRule`. -/

namespace CoroActor.Cluster

open TransitionSystem Link Worker

namespace Sys

/-- What is answered was never buffered at a waiting callee. -/
def AnswersDirect (s : Sys) (k : Proxy.Conn) : Outgoing → Prop
  | .response p => ∀ n ∈ s.proxy.answered k p.callId, s.proxy.history.buffered n = []
  | .connect | .request _ => True

instance (s : Sys) (k : Proxy.Conn) : (o : Outgoing) → Decidable (s.AnswersDirect k o)
  | .response p => inferInstanceAs (Decidable (∀ n ∈ s.proxy.answered k p.callId, _))
  | .connect | .request _ => inferInstanceAs (Decidable True)

/-- What is left to ask of a run when call ids are not looked at: all of `Allowed` but what it says of pids and call ids
(`KeepsFrames`, `AnswersDirect`, `LastRule`, `OneSend`), and that no counter wraps around (`CountsOn`). -/
def Regular (cfg : System.Setting) (s : Sys) : Label → Prop
  | .proxy l => s.proxy.KeepsFrames cfg.proxy l
  | .read k => ∀ o ∈ (s.outbox k).head?,
      s.AnswersDirect k o ∧ s.proxy.KeepsFrames cfg.proxy (.read k (s.input cfg k o))
  | .connack _ | .internal _ => True
  | .actor k l => LastRule (s.process k) l ∧ OneSend (s.process k) l ∧ CountsOn (s.process k) l

instance (cfg : System.Setting) (s : Sys) : (l : Label) → Decidable (s.Regular cfg l)
  | .proxy l => inferInstanceAs (Decidable (s.proxy.KeepsFrames cfg.proxy l))
  | .read k => inferInstanceAs (Decidable (∀ o ∈ (s.outbox k).head?, _ ∧ _))
  | .connack _ | .internal _ => inferInstanceAs (Decidable True)
  | .actor k l => inferInstanceAs (Decidable (LastRule (s.process k) l ∧ OneSend (s.process k) l ∧ _))

/-- Each call id that the proxy knows has come with a REQUEST of a process that has generated it. -/
def Introduced (s : Sys) : Prop := ∀ n < s.proxy.history.nreq, ∃ k i m, s.serial k i = some m ∧
  (s.process k).Own i ∧ ((s.process k).sends i).request.callId = (s.proxy.history.pack n).callId

variable {cfg : System.Setting} {s t : Sys} {l : Label} {k j : Proxy.Conn} {n i : Nat} {o : Outgoing}
  {rest : List Outgoing}

/-- A REQUEST that has been read stays what it is. -/
theorem Move.asked_kept (h : Move cfg s l t) (hC : Contract cfg s) (hi : s.serial k i = some n) :
    t.serial k i = some n ∧ ((t.process k).Own i ↔ (s.process k).Own i) ∧
      ((t.process k).sends i).request = ((s.process k).sends i).request := by
  have hlt := ((hC.asking k).asked i n hi).1
  have hmoved : ∀ {j : Proxy.Conn} {l : Worker.Label} {w : Worker.Sys} {r : System.Peer}, r.process = w →
      (s.process j).step (cfg.worker j) l = some w →
      (((s.system.setPeer j r).peer k).process.Own i ↔ (s.process k).Own i) ∧
        (((s.system.setPeer j r).peer k).process.sends i).request = ((s.process k).sends i).request := by
    intro j l w r hr hstep
    by_cases hk : k = j
    · subst hk
      have hm := Worker.Sys.step_move hstep
      obtain ⟨hservice, hrequest, -⟩ := hm.sends_kept.2 i hlt
      rw [System.Sys.setPeer_self, hr, Worker.Sys.Own, Worker.Sys.Own, Worker.Sys.inherited, Worker.Sys.inherited,
        hservice, hrequest, hm.messages_kept.2 _ (Worker.Sys.sends_called (hC.process k) i hlt)]
      exact ⟨Iff.rfl, rfl⟩
    · rw [System.Sys.setPeer_of_ne _ hk]
      exact ⟨Iff.rfl, rfl⟩
  cases h with
  | proxy => exact ⟨hi, Iff.rfl, rfl⟩
  | @read j o rest u hout =>
      refine ⟨?_, Iff.rfl, rfl⟩
      show Function.update s.serial j (s.numbered j o) k i = some n
      by_cases hk : k = j
      · subst hk
        rw [Function.update_self]
        exact hC.numbered_kept hout hi
      · rwa [Function.update_of_ne hk]
  | @connack j l rest =>
      have hsame : ((s.system.setPeer j
          { s.system.peer j with started := true, locals := ⟨0, [], []⟩, taken := s.system.takenTo j rest }).peer
            k).process = s.process k := by
        by_cases hk : k = j
        · rw [hk, System.Sys.setPeer_self]
          rfl
        · rw [System.Sys.setPeer_of_ne _ hk]
          rfl
      refine ⟨hi, ?_⟩
      show (((s.system.setPeer j _).peer k).process.Own i ↔ _) ∧
        (((s.system.setPeer j _).peer k).process.sends i).request = _
      rw [hsame]
      exact ⟨Iff.rfl, rfl⟩
  | internal _ hstep => exact ⟨hi, hmoved rfl hstep⟩
  | actor _ _ hstep => exact ⟨hi, hmoved rfl hstep⟩

theorem Move.newly_read (h : Move cfg s l t) (hC : Contract cfg s) (hn : n < t.proxy.history.nreq) :
    n < s.proxy.history.nreq ∧ t.proxy.history.pack n = s.proxy.history.pack n ∨
      ∃ k i rest, s.outbox k = .request i :: rest ∧ t.process k = s.process k ∧ t.serial k i = some n ∧
        t.proxy.history.pack n = ((s.process k).sends i).request := by
  have hsame : t.proxy.history = s.proxy.history →
      n < s.proxy.history.nreq ∧ t.proxy.history.pack n = s.proxy.history.pack n := by
    intro hhist
    rw [hhist] at hn ⊢
    exact ⟨hn, rfl⟩
  cases h with
  | @proxy l u hl hstep =>
      have hmove := Proxy.Sys.step_move hC.orderly.wired.isOpen hstep
      rcases hmove.newly_issued hn with hold | ⟨j, p, af, rfl, -⟩
      · exact Or.inl ⟨hold, hmove.grows.pack n hold⟩
      · cases hl
  | @read k o rest u hout hsends hstep =>
      have hmove := Proxy.Sys.step_move hC.orderly.wired.isOpen hstep
      rcases hmove.newly_issued hn with hold | ⟨j, p, af, hl, -, -, rfl, hhist⟩
      · exact Or.inl ⟨hold, hmove.grows.pack n hold⟩
      · right
        cases o with
        | connect | response => cases hl
        | request i =>
            cases hl
            refine ⟨k, i, rest, hout, rfl, ?_, ?_⟩
            · show Function.update s.serial k (s.numbered k (.request i)) k i = _
              rw [Function.update_self, numbered, Function.update_self]
            · show u.history.pack _ = _
              rw [hhist, Proxy.History.issue_pack, Function.update_self]
  | connack | internal | actor => exact Or.inl (hsame rfl)

/-- A REQUEST has a call id of its own, or that of a message that the proxy has passed on. -/
theorem Introduced.step (hi : s.Introduced) (hC : Contract cfg s) (h : Move cfg s l t) : t.Introduced := by
  have hkeep : ∀ n < s.proxy.history.nreq, ∃ k i m, t.serial k i = some m ∧ (t.process k).Own i ∧
      ((t.process k).sends i).request.callId = (s.proxy.history.pack n).callId := by
    intro n hn
    obtain ⟨k, i, m, hm, hown, hcall⟩ := hi n hn
    obtain ⟨hserial, howns, hrequest⟩ := h.asked_kept hC hm
    exact ⟨k, i, m, hserial, howns.mpr hown, by rw [hrequest, hcall]⟩
  intro n hn
  rcases h.newly_read hC hn with ⟨hold, hpack⟩ | ⟨k, i, rest, hout, hprocess, hserial, hpack⟩
  · rw [hpack]
    exact hkeep n hold
  · by_cases hown : (s.process k).Own i
    · exact ⟨k, i, n, hserial, by rwa [hprocess], by rw [hprocess, hpack]⟩
    · obtain ⟨hawaits, -⟩ := (hC.asking k).posted i (by rw [hout]; exact List.mem_cons_self)
      obtain ⟨m, hm, -, hmsg⟩ := hC.served_request hawaits (not_not.mp hown)
      have hcall : ((s.process k).sends i).request.callId = (s.proxy.history.pack m).callId := by
        rw [show ((s.process k).sends i).request.callId = (s.process k).inherited i from not_not.mp hown,
          Worker.Sys.inherited, hmsg]
        rfl
      rw [hpack, hcall]
      exact hkeep m (hC.sent_request hm).1

/-- The invariant: no two REQUESTs of different processes have a call id of their own in common. -/
structure Fresh (cfg : System.Setting) (s : Sys) : Prop where
  contract : Contract cfg s
  introduced : s.Introduced
  named : ∀ k, (s.process k).Named
  pid : ∀ k, (s.process k).ctx.pid = cfg.pid k

variable (hpids : ∀ k k', cfg.pid k = cfg.pid k' → k = k')

include hpids

theorem Fresh.connect (hs : Fresh cfg s) (hout : s.outbox k = .connect :: rest) : s.Admits cfg k .connect := by
  intro r hr hpid
  rcases hs.contract.registered (s.proxy.proxy.actors r).socket with ⟨-, hnone⟩ | ⟨-, r', hr', hsocket, hpid', -⟩
  · exact absurd rfl (hnone r hr)
  · obtain rfl := hs.contract.orderly.wired.socket_inj r' hr' r hr hsocket
    obtain rfl : (s.proxy.proxy.actors r').socket = k := hpids _ _ (hpid'.symm.trans hpid)
    rcases hs.contract.registered (s.proxy.proxy.actors r').socket with ⟨-, hnone⟩ | ⟨hnot, -⟩
    · exact absurd rfl (hnone r' hr)
    · rw [hout] at hnot
      exact absurd List.mem_cons_self hnot

theorem Fresh.request (hs : Fresh cfg s) (hout : s.outbox k = .request i :: rest) (hopens : Opens (s.process k) i) :
    s.proxy.Fresh ((s.process k).sends i).request.callId := by
  have hC := hs.contract
  obtain ⟨hawaits, hnone⟩ := (hC.asking k).posted i (by rw [hout]; exact List.mem_cons_self)
  obtain ⟨hown, hfirst⟩ := hopens
  intro n hn heq
  obtain ⟨k', i', m, hserial, hown', hcall⟩ := hs.introduced n hn
  obtain ⟨hlt', hwritten', -⟩ := (hC.asking k').asked i' m hserial
  -- Both processes have generated it.
  obtain ⟨q, -, hq⟩ := (hs.named k).generated i hawaits.1 hown
  obtain ⟨q', -, hq'⟩ := (hs.named k').generated i' hlt' hown'
  have hsame : ((s.process k').sends i').request.callId = ((s.process k).sends i).request.callId := hcall.trans heq
  obtain ⟨hpid, -⟩ := callIdOf_inj (hq'.symm.trans (hsame.trans hq))
  rw [hs.pid, hs.pid] at hpid
  obtain rfl := hpids k' k hpid
  have hservice := (hs.named k').owner i' hlt' i hawaits.1 hown' hown hsame
  -- The other REQUEST is of the same service, so it is an earlier one.
  have hlast := (hs.named k').last i hawaits.1 ((hC.tracked k').awaiting_eq hawaits).1
  rcases Nat.lt_trichotomy i' i with hlt | heqi | hgt
  · exact hfirst i' hlt hservice hwritten' hsame
  · rw [heqi, hnone] at hserial
    cases hserial
  · omega

theorem Fresh.admits (hs : Fresh cfg s) (hout : s.outbox k = o :: rest) (hdirect : s.AnswersDirect k o) :
    s.Admits cfg k o := by
  cases o with
  | connect => exact hs.connect hpids hout
  | request i => exact hs.request hpids hout
  | response p => exact hdirect

theorem Fresh.allowed (hs : Fresh cfg s) (hregular : s.Regular cfg l) : s.Allowed cfg l := by
  cases l with
  | proxy l => exact hregular
  | read k =>
      intro o ho
      obtain ⟨hdirect, hok⟩ := hregular o ho
      cases hout : s.outbox k with
      | nil =>
          rw [hout] at ho
          cases ho
      | cons o' rest =>
          rw [hout] at ho
          obtain rfl := Option.some.inj ho
          exact ⟨hs.admits hpids hout hdirect, hok⟩
  | connack k => trivial
  | internal k => trivial
  | actor k l => exact ⟨hregular.1, hregular.2.1⟩

omit hpids in
theorem isLocal_received (out : Link.Received) : System.isLocal (System.received out) = false := by
  unfold System.received
  split <;> rfl

omit hpids in
/-- The process of a step, and what holds of it. -/
theorem Move.process_kept {P : Proxy.Conn → Worker.Sys → Prop} (h : Move cfg s l t) (hP : ∀ k, P k (s.process k))
    (hstep : ∀ k l' w, (s.process k).Move (cfg.worker k) l' w → System.isLocal l' = false ∨ l = .actor k l' → P k w)
    (k : Proxy.Conn) : P k (t.process k) := by
  have hset : ∀ (j : Proxy.Conn) (r : System.Peer), P j r.process → P k ((s.system.setPeer j r).peer k).process := by
    intro j r hr
    by_cases hk : k = j
    · subst hk
      rwa [System.Sys.setPeer_self]
    · rw [System.Sys.setPeer_of_ne _ hk]
      exact hP k
  cases h with
  | proxy | read => exact hP k
  | connack => exact hset _ _ (hP _)
  | internal _ hw => exact hset _ _ (hstep _ _ _ (Worker.Sys.step_move hw) (Or.inl (isLocal_received _)))
  | actor _ _ hw => exact hset _ _ (hstep _ _ _ (Worker.Sys.step_move hw) (Or.inr rfl))

theorem Fresh.step (hs : Fresh cfg s) (hcons : cfg.Consistent)
    (hinv : cfg.codec.deserialize.Inverts cfg.codec.serialize) (hack : Pack.Sized cfg.codec (.connack ⟨true⟩))
    (hregular : s.Regular cfg l) (h : Move cfg s l t) : Fresh cfg t where
  contract := hs.contract.step hcons hinv hack (hs.allowed hpids hregular) h
  introduced := hs.introduced.step hs.contract h
  named := by
    refine h.process_kept (P := fun _ w => w.Named) hs.named fun k l' w hm hl => ?_
    rcases hl with hlocal | rfl
    · refine (hs.named k).step hm (hs.contract.accounted k).1 (lastRule_of_received hlocal).1 ?_ ?_
      · cases l' with
        | send => cases hlocal
        | _ => trivial
      · cases l' with
        | send => cases hlocal
        | _ => trivial
    · obtain ⟨hlast, hone, hcount⟩ := hregular
      exact (hs.named k).step hm (hs.contract.accounted k).1 hlast.1 hone hcount
  pid := h.process_kept (P := fun k w => w.ctx.pid = cfg.pid k) hs.pid fun k _ _ hm _ => hm.pid.trans (hs.pid k)

omit hpids in
theorem fresh_init (cfg : System.Setting) : Fresh cfg (Sys.init cfg) where
  contract := contract_init cfg
  introduced _ hn := absurd hn (Nat.not_lt_zero _)
  named k := Worker.Sys.named_init (cfg.worker k)
  pid _ := rfl

theorem fresh_of_reachable (hcons : cfg.Consistent) (hinv : cfg.codec.deserialize.Inverts cfg.codec.serialize)
    (hack : Pack.Sized cfg.codec (.connack ⟨true⟩)) (hr : Reachable (machine cfg) (Regular cfg) s) : Fresh cfg s := by
  refine hr.invariant (fresh_init cfg) fun s l t _ hs hregular hst => ?_
  exact hs.step hpids hcons hinv hack hregular (step_move hst)

theorem allowed_of_regular (hcons : cfg.Consistent) (hinv : cfg.codec.deserialize.Inverts cfg.codec.serialize)
    (hack : Pack.Sized cfg.codec (.connack ⟨true⟩)) (hr : Reachable (machine cfg) (Regular cfg) s) :
    Reachable (machine cfg) (Allowed cfg) s := by
  induction hr with
  | init => exact .init
  | step hu hok hst ih =>
      exact ih.step ((fresh_of_reachable hpids hcons hinv hack hu).allowed hpids hok) hst

/-- **Call ids do not collide.** The configuration is an accepted one, `deserialize` inverts `serialize`, a CONNACK fits
its length field, and no two processes have the same pid. In every run in which writes to one socket do not overlap, no
RESPONSE answers a REQUEST that was buffered at a waiting callee, services keep `OneSend` and `LastRule`, and no counter
wraps around, a process that connects has a pid of its own and a REQUEST that opens a call has a call id that no REQUEST
has had. So such a run is `Allowed`. -/
theorem callIds_fresh {files : Config.Files} {root : Config.Root} (hload : (Config.load files .fresh root).1 = true)
    (hconfig : cfg.config = (Config.load files .fresh root).2)
    (hinv : cfg.codec.deserialize.Inverts cfg.codec.serialize) (hack : Pack.Sized cfg.codec (.connack ⟨true⟩))
    (hr : Reachable (machine cfg) (Regular cfg) s) : Reachable (machine cfg) (Allowed cfg) s ∧
      ∀ k i rest, s.outbox k = .request i :: rest → Opens (s.process k) i →
        s.proxy.Fresh ((s.process k).sends i).request.callId := by
  have hcons : cfg.Consistent := System.Setting.consistent_of_load hload hconfig
  refine ⟨allowed_of_regular hpids hcons hinv hack hr, fun k i rest hout => ?_⟩
  exact (fresh_of_reachable hpids hcons hinv hack hr).request hpids hout

omit hpids

/-- The REQUEST of the process 0 is next, and its call id is new. -/
theorem callIds_fresh_sample : ∃ s : Sys, Reachable (machine System.Sample.setting) (Regular System.Sample.setting) s ∧
    s.outbox 0 = [.request 0] ∧ Opens (s.process 0) 0 ∧ Reachable (machine System.Sample.setting)
      (Allowed System.Sample.setting) s ∧ s.proxy.Fresh ((s.process 0).sends 0).request.callId := by
  obtain ⟨s, hr, hout, hopens⟩ := Reachable.of_leadsTo (machine System.Sample.setting) (Regular System.Sample.setting)
    (Sample.join 0 ++ Sample.join 1 ++ Sample.join 2 ++ [.actor 0 (.run 0), .actor 2 (.run 0)] ++ Sample.ask)
    (fun s => s.outbox 0 = [.request 0] ∧ Opens (s.process 0) 0) (by decide +kernel)
  have hpids : ∀ k k', System.Sample.setting.pid k = System.Sample.setting.pid k' → k = k' := fun k k' h =>
    Int.ofNat.inj (Int.add_left_cancel h)
  obtain ⟨hallowed, hfresh⟩ :=
    callIds_fresh hpids System.Sample.accepted rfl Link.Sample.codec_inverts System.Sample.sized hr
  exact ⟨s, hr, hout, hopens, hallowed, hfresh 0 0 [] hout hopens⟩

end Sys

end CoroActor.Cluster
