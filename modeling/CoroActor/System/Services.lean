import CoroActor.System.Freshness
import CoroActor.System.Rpc
import CoroActor.Worker.Services

/-! The proxy and the processes with the services that run in them. Nothing about a service is left open: each is a
program, and a step of a service is the next one of its coroutine. -/

namespace CoroActor.Hosted

open TransitionSystem Worker Cluster Link

structure Sys where
  cluster : Cluster.Sys
  coroutine : Proxy.Conn → Nat → Coroutine

namespace Sys

def init (cfg : System.Setting) : Sys := ⟨Cluster.Sys.init cfg, fun _ _ => .finished⟩

def process (s : Sys) (k : Proxy.Conn) : Worker.Sys := s.cluster.process k

def step (cfg : System.Setting) (func : StdString → Func) (s : Sys) : Cluster.Label → Option Sys
  | .actor k l =>
      if Follows (s.coroutine k) (s.process k) l then
        (s.cluster.step cfg (.actor k l)).map fun t =>
          ⟨t, Function.update s.coroutine k (goesOn func (s.coroutine k) (s.process k) (t.process k) l)⟩
      else none
  | .proxy l => (s.cluster.step cfg (.proxy l)).map fun t => { s with cluster := t }
  | .read k => (s.cluster.step cfg (.read k)).map fun t => { s with cluster := t }
  | .connack k => (s.cluster.step cfg (.connack k)).map fun t => { s with cluster := t }
  | .internal k => (s.cluster.step cfg (.internal k)).map fun t => { s with cluster := t }

end Sys

def machine (cfg : System.Setting) (func : StdString → Func) : Machine Sys Cluster.Label :=
  ⟨Sys.init cfg, Sys.step cfg func⟩

namespace Sys

/-- What is asked of a run when the services are programs: writes to one socket do not overlap (`KeepsFrames`), no
RESPONSE answers a REQUEST that was buffered at a waiting callee (`AnswersDirect`), and no counter wraps around
(`CountsOn`). That no two processes have the same pid is asked of the configuration. -/
def Sensible (cfg : System.Setting) (s : Sys) : Cluster.Label → Prop
  | .proxy l => s.cluster.proxy.KeepsFrames cfg.proxy l
  | .read k => ∀ o ∈ (s.cluster.outbox k).head?,
      s.cluster.AnswersDirect k o ∧ s.cluster.proxy.KeepsFrames cfg.proxy (.read k (s.cluster.input cfg k o))
  | .connack _ | .internal _ => True
  | .actor k l => CountsOn (s.process k) l

instance (cfg : System.Setting) (s : Sys) : (l : Cluster.Label) → Decidable (s.Sensible cfg l)
  | .proxy l => inferInstanceAs (Decidable (s.cluster.proxy.KeepsFrames cfg.proxy l))
  | .read k => inferInstanceAs (Decidable (∀ o ∈ (s.cluster.outbox k).head?, _ ∧ _))
  | .connack _ | .internal _ => inferInstanceAs (Decidable True)
  | .actor k l => inferInstanceAs (Decidable (CountsOn (s.process k) l))

/-- The invariant. -/
structure Kept (cfg : System.Setting) (func : StdString → Func) (s : Sys) : Prop where
  fresh : Cluster.Sys.Fresh cfg s.cluster
  served : ∀ k, (s.process k).Served func (s.coroutine k)

variable {cfg : System.Setting} {func : StdString → Func} {s t : Sys} {l : Cluster.Label} {k : Proxy.Conn}

theorem kept_init (cfg : System.Setting) (func : StdString → Func) : Kept cfg func (init cfg) where
  fresh := Cluster.Sys.fresh_init cfg
  served k := Worker.Sys.served_init (cfg.worker k) func _

/-- A complete call that has not failed has produced what its message asks for. -/
theorem Kept.produced (hs : Kept cfg func s) {j : Nat} (hj : j < (s.process k).history.ninv)
    (hcompleted : (s.process k).history.completed j = true) (hfailed : (s.process k).history.failed j = false) :
    (directCalls func).Returns (.ofMsg ((s.process k).history.message j)) ((s.process k).history.produced j) := by
  have hserves := (hs.served k).serves j hj hfailed
  rw [((hs.served k).finished j hj).mpr hcompleted] at hserves
  exact hserves

theorem Kept.answered (hs : Kept cfg func s) {x : Proxy.Conn × Nat} {p : CoroActorResponse}
    (hans : (s.process x.1).history.answer x.2 = some p) :
    (directCalls func).Returns (s.cluster.sendOf x).question p.responsePack := by
  have hC := hs.fresh.contract
  obtain ⟨y, hfor, hcompleted, hfailed, hp⟩ := hC.answered_call hans
  obtain ⟨-, hmsg⟩ := hC.message_of_calledFor hfor
  have hlt : y.2 < (s.process y.1).history.ninv :=
    Worker.History.callsOn_lt (List.mem_of_getElem? hfor.choose_spec.choose_spec.2.2)
  have hreturns := hs.produced hlt hcompleted hfailed
  rw [show (s.process y.1).history.message y.2 = _ from hmsg] at hreturns
  rw [hp]
  exact hreturns

theorem Kept.replies (hs : Kept cfg func s) (k : Proxy.Conn) (client : TcpConn) :
    ∃ results : List CoroActorPack, (s.process k).written client = results.map CoroActorPack.frame ∧
      List.Forall₂ (fun msg result => (directCalls func).Returns (.ofMsg msg) result)
        (((s.process k).history.pushedOn (some client)).take results.length) results := by
  obtain ⟨hsound, hacc⟩ := hs.fresh.contract.accounted k
  obtain ⟨⟨more, hmore⟩, -, n, hn, hwritten, hdone⟩ := hacc.repliesInOrder hsound client
  have hlength : (((s.process k).history.callsOn (some client)).take n).length = n :=
    List.length_take_of_le hn
  have hrequests : ((s.process k).history.pushedOn (some client)).take n =
      (((s.process k).history.callsOn (some client)).take n).map (s.process k).history.message := by
    rw [List.map_take]
    exact (congrArg (List.take n) hmore.symm).trans (List.take_append_of_le_length (by rwa [List.length_map]))
  refine ⟨_, hwritten, ?_⟩
  show List.Forall₂ _ (((s.process k).history.pushedOn (some client)).take
    ((((s.process k).history.callsOn (some client)).take n).map (s.process k).history.produced).length)
    ((((s.process k).history.callsOn (some client)).take n).map (s.process k).history.produced)
  rw [List.length_map, hlength, hrequests, List.forall₂_map_left_iff, List.forall₂_map_right_iff, List.forall₂_same]
  intro j hj
  obtain ⟨hcompleted, hfailed⟩ := hdone j hj
  exact hs.produced (Worker.History.callsOn_lt (List.mem_of_mem_take hj)) hcompleted hfailed

/-- What a `send` has returned is what it asks for. -/
theorem Kept.returned (hs : Kept cfg func s) {i : Nat} (hi : i < (s.process k).nsend) {result : CoroActorPack}
    (hpc : ((s.process k).sends i).pc = .returned (some result)) :
    (directCalls func).Returns ((s.process k).sends i).question result := by
  rcases (Worker.Send.tracked_returned hpc).mp ((hs.fresh.contract.tracked k).tracked i hi) with
    ⟨-, -, hnone⟩ | ⟨-, r, hr, hresult⟩
  · cases hnone
  · rw [Option.some.inj hresult]
    exact hs.answered (x := (k, i)) hr

/-- A `send` returns what it asks for. -/
theorem Kept.returnsResults (hs : Kept cfg func s) {l : Worker.Label} {w : Worker.Sys}
    (h : (s.process k).Move (cfg.worker k) l w) : Worker.Sys.ReturnsResults func (s.process k) w := by
  intro i hi ho p hp
  obtain ⟨hpc, hready, rfl⟩ := h.returned_pack hi ho hp
  obtain ⟨-, htimer, hcurr⟩ := (Worker.Send.tracked_wait hpc).mp ((hs.fresh.contract.tracked k).tracked i hi)
  rcases htimer with harmed | ⟨-, hans⟩
  · rw [show (s.process k).ctx.responseNotifyTimer = .armed i from harmed, Timer.armed_ready] at hready
    cases hready
  · obtain ⟨r, hr⟩ := Option.ne_none_iff_exists'.mp hans
    rw [show (s.process k).ctx.currRespPack = r from hcurr r hr]
    exact hs.answered (x := (k, i)) hr

/-! ### A step -/

theorem step_cluster (h : s.step cfg func l = some t) : s.cluster.step cfg l = some t.cluster := by
  cases l with
  | actor k l =>
      simp only [step, Option.ite_none_right_eq_some] at h
      obtain ⟨-, h⟩ := h
      obtain ⟨u, hu, rfl⟩ := Option.map_eq_some_iff.mp h
      exact hu
  | proxy | read | connack | internal =>
      obtain ⟨u, hu, rfl⟩ := Option.map_eq_some_iff.mp h
      exact hu

/-- A process and its coroutines stay as they are, or both move. -/
def Proceeds (cfg : Worker.Setting) (func : StdString → Func) (c : Nat → Coroutine) (w : Worker.Sys)
    (c' : Nat → Coroutine) (w' : Worker.Sys) : Prop :=
  w' = w ∧ c' = c ∨ ∃ l, w.Move cfg l w' ∧ Follows c w l ∧ c' = goesOn func c w w' l

theorem proceeds_received {cfg : Worker.Setting} {c : Nat → Coroutine} {w w' : Worker.Sys} {l : Worker.Label}
    (hl : System.isLocal l = false) (h : w.Move cfg l w') : Proceeds cfg func c w c w' := by
  cases l with
  | request | response | other => exact Or.inr ⟨_, h, trivial, rfl⟩
  | _ => cases hl

theorem step_process (h : s.step cfg func l = some t) (k : Proxy.Conn) :
    Proceeds (cfg.worker k) func (s.coroutine k) (s.process k) (t.coroutine k) (t.process k) := by
  have hmove := Cluster.Sys.step_move (step_cluster h)
  cases l with
  | actor j l =>
      simp only [step, Option.ite_none_right_eq_some] at h
      obtain ⟨hfollows, h⟩ := h
      obtain ⟨u, hu, rfl⟩ := Option.map_eq_some_iff.mp h
      cases hmove with
      | @actor _ _ w _ _ hw =>
          by_cases hk : k = j
          · subst hk
            have hself : ((s.cluster.system.setPeer k { s.cluster.system.peer k with process := w }).peer k).process =
                w := congrArg System.Peer.process (System.Sys.setPeer_self _)
            refine Or.inr ⟨l, ?_, hfollows, Function.update_self ..⟩
            show (s.process k).Move (cfg.worker k) l
              ((s.cluster.system.setPeer k { s.cluster.system.peer k with process := w }).peer k).process
            rw [hself]
            exact Worker.Sys.step_move hw
          · exact Or.inl ⟨congrArg System.Peer.process (System.Sys.setPeer_of_ne _ hk), Function.update_of_ne hk ..⟩
  | proxy | read | connack | internal =>
      obtain ⟨u, -, rfl⟩ := Option.map_eq_some_iff.mp h
      refine hmove.process_kept (P := fun k w => Proceeds (cfg.worker k) func (s.coroutine k) (s.process k)
        (s.coroutine k) w) (fun _ => Or.inl ⟨rfl, rfl⟩) (fun k l' w hm hlocal => ?_) k
      rcases hlocal with hreceived | heq
      · exact proceeds_received hreceived hm
      · cases heq

/-- The run is one of those in which nothing is assumed of the processes. -/
theorem Kept.regular (hs : Kept cfg func s) (hsensible : s.Sensible cfg l) (h : s.step cfg func l = some t) :
    s.cluster.Regular cfg l := by
  cases l with
  | proxy | read => exact hsensible
  | connack | internal => trivial
  | actor k l =>
      have hfollows : Follows (s.coroutine k) (s.process k) l := (Option.ite_none_right_eq_some.mp h).1
      have hstep := step_cluster h
      generalize t.cluster = u at hstep
      cases Cluster.Sys.step_move hstep with
      | actor _ _ hw =>
          obtain ⟨hsound, hacc⟩ := hs.fresh.contract.accounted k
          obtain ⟨hlast, hone⟩ := (hs.served k).rule (Worker.Sys.step_move hw) hsound hacc hfollows
          exact ⟨hlast, hone, hsensible⟩

variable (hpids : ∀ k k', cfg.pid k = cfg.pid k' → k = k')

include hpids

theorem Kept.step (hs : Kept cfg func s) (hcons : cfg.Consistent)
    (hinv : cfg.codec.deserialize.Inverts cfg.codec.serialize) (hack : Pack.Sized cfg.codec (.connack ⟨true⟩))
    (hsensible : s.Sensible cfg l) (hst : s.step cfg func l = some t) :
    Kept cfg func t ∧ s.cluster.Regular cfg l ∧ s.cluster.step cfg l = some t.cluster := by
  have hregular := hs.regular hsensible hst
  have hcluster := step_cluster hst
  refine ⟨⟨hs.fresh.step hpids hcons hinv hack hregular (Cluster.Sys.step_move hcluster), fun k => ?_⟩, hregular,
    hcluster⟩
  rcases step_process hst k with ⟨hprocess, hcoroutine⟩ | ⟨l', hmove, hfollows, hcoroutine⟩
  · rw [hprocess, hcoroutine]
    exact hs.served k
  · rw [hcoroutine]
    exact (hs.served k).step hmove (hs.fresh.contract.accounted k).2 hfollows (hs.returnsResults hmove)

theorem kept_of_reachable (hcons : cfg.Consistent) (hinv : cfg.codec.deserialize.Inverts cfg.codec.serialize)
    (hack : Pack.Sized cfg.codec (.connack ⟨true⟩)) (hr : Reachable (machine cfg func) (Sensible cfg) s) :
    Kept cfg func s ∧ Reachable (Cluster.machine cfg) (Cluster.Sys.Regular cfg) s.cluster := by
  refine hr.invariant (I := fun s => Kept cfg func s ∧
    Reachable (Cluster.machine cfg) (Cluster.Sys.Regular cfg) s.cluster) ⟨kept_init cfg func, .init⟩ ?_
  rintro s l t - ⟨hs, hcluster⟩ hsensible hst
  obtain ⟨ht, hregular, hstep⟩ := hs.step hpids hcons hinv hack hsensible hst
  exact ⟨ht, hcluster.step hregular hstep⟩

/-- **Programs keep the rules.** The configuration is an accepted one, `deserialize` inverts `serialize`, a CONNACK fits
its length field, and no two processes have the same pid. Whatever programs the services are, every run in which writes
to one socket do not overlap, no RESPONSE answers a REQUEST that was buffered at a waiting callee and no counter wraps
around (`Sensible`) is an `Allowed` one, and neither the proxy nor a process comes to undefined behaviour. -/
theorem programs_keep_rules {files : Config.Files} {root : Config.Root}
    (hload : (Config.load files .fresh root).1 = true) (hconfig : cfg.config = (Config.load files .fresh root).2)
    (hinv : cfg.codec.deserialize.Inverts cfg.codec.serialize) (hack : Pack.Sized cfg.codec (.connack ⟨true⟩))
    (hr : Reachable (machine cfg func) (Sensible cfg) s) :
    Reachable (Cluster.machine cfg) (Cluster.Sys.Allowed cfg) s.cluster ∧
    (Reachable (Proxy.machine cfg.proxy) (Proxy.Lawful cfg.proxy) s.cluster.proxy ∧ s.cluster.proxy.fault = false) ∧
    ∀ k, Reachable (Worker.machine (cfg.worker k)) (fun w l => LastRule w l ∧ SendRule w l) (s.process k) ∧
      (s.process k).fault = false := by
  have hcons : cfg.Consistent := System.Setting.consistent_of_load hload hconfig
  obtain ⟨-, hregular⟩ := kept_of_reachable hpids hcons hinv hack hr
  have hallowed := Cluster.Sys.allowed_of_regular hpids hcons hinv hack hregular
  exact ⟨hallowed, Cluster.Sys.rules_of_reachable hcons hinv hack hallowed⟩

/-- **A remote call is a call.** With an accepted configuration, `deserialize` the inverse of `serialize`, a CONNACK
that fits its length field and no two processes of one pid, in every `Sensible` run (writes to one socket do not
overlap, no RESPONSE answers a REQUEST that was buffered at a waiting callee, no counter wraps around): what a call of a
service that is complete and has not failed has produced, and what a `send` has returned, is what the program of the
service comes to when each `send` in it, and in what that calls, is a direct call of the program of its service. -/
theorem calls_direct {files : Config.Files} {root : Config.Root}
    (hload : (Config.load files .fresh root).1 = true) (hconfig : cfg.config = (Config.load files .fresh root).2)
    (hinv : cfg.codec.deserialize.Inverts cfg.codec.serialize) (hack : Pack.Sized cfg.codec (.connack ⟨true⟩))
    (hr : Reachable (machine cfg func) (Sensible cfg) s) :
    (∀ k, ∀ j < (s.process k).history.ninv, (s.process k).history.completed j = true →
      (s.process k).history.failed j = false → (directCalls func).Returns (.ofMsg ((s.process k).history.message j))
        ((s.process k).history.produced j)) ∧
    ∀ k, ∀ i < (s.process k).nsend, ∀ result, ((s.process k).sends i).pc = .returned (some result) →
      (directCalls func).Returns ((s.process k).sends i).question result := by
  obtain ⟨hs, -⟩ := kept_of_reachable hpids (System.Setting.consistent_of_load hload hconfig) hinv hack hr
  exact ⟨fun k j hj hcompleted hfailed => hs.produced hj hcompleted hfailed,
    fun k i hi result hpc => hs.returned hi hpc⟩

/-- **Replies are results.** With an accepted configuration, `deserialize` the inverse of `serialize`, a CONNACK that
fits its length field and no two processes of one pid, in every `Sensible` run (writes to one socket do not overlap, no
RESPONSE answers a REQUEST that was buffered at a waiting callee, no counter wraps around): what has been written to a
client are the results of its first requests, in their order, with every `send` made a direct call; so they are as
specified when each program meets its specification, given that those that it calls do. -/
theorem replies_direct {files : Config.Files} {root : Config.Root}
    (hload : (Config.load files .fresh root).1 = true) (hconfig : cfg.config = (Config.load files .fresh root).2)
    (hinv : cfg.codec.deserialize.Inverts cfg.codec.serialize) (hack : Pack.Sized cfg.codec (.connack ⟨true⟩))
    (hr : Reachable (machine cfg func) (Sensible cfg) s) (k : Proxy.Conn) (client : TcpConn) :
    ∃ results : List CoroActorPack, (s.process k).written client = results.map CoroActorPack.frame ∧
      List.Forall₂ (fun msg result => (directCalls func).Returns (.ofMsg msg) result ∧
          ∀ spec : Question → CoroActorPack → Prop, (directCalls func).Meets spec → spec (.ofMsg msg) result)
        (((s.process k).history.pushedOn (some client)).take results.length) results := by
  obtain ⟨hs, -⟩ := kept_of_reachable hpids (System.Setting.consistent_of_load hload hconfig) hinv hack hr
  obtain ⟨results, hwritten, hresults⟩ := hs.replies k client
  exact ⟨results, hwritten, hresults.imp fun msg result h => ⟨h, fun spec hspec => h.meets hspec⟩⟩

omit hpids

end Sys

/-! ### Two services to run

The processes are those of the sample of the composite system. -/

namespace Sample

open Cluster.Sample

/-- `svc_a` asks `svc_b`, which answers with a byte. -/
def func (name : StdString) : Func := fun rqst resp =>
  if name = ascii "svc_a" then
    .ask ⟨ascii "svc_b", { rqst with value := [7] }⟩ fun
      | .ok result => .done result
      | .error errorMsg => .done { resp with value := errorMsg }
  else .done { resp with value := [8] }

/-- The service of the process 0 sets its response, and the client gets it. -/
def finish : List Cluster.Label := [.actor 0 (.respond 0 ⟨0, [8]⟩), .actor 0 (.complete 0), .actor 0 .serviceNotified]

theorem pids_distinct (k k' : Proxy.Conn) (h : System.Sample.setting.pid k = System.Sample.setting.pid k') : k = k' :=
  Int.ofNat.inj (Int.add_left_cancel h)

end Sample

namespace Sys

/-- The `send` of the process 0 has returned, and the coroutine that has called it goes on. -/
theorem programs_keep_rules_sample : ∃ s : Sys,
    Reachable (machine System.Sample.setting Sample.func) (Sensible System.Sample.setting) s ∧
    (s.coroutine 0 0).result = some ⟨0, [8]⟩ ∧
    Reachable (Cluster.machine System.Sample.setting) (Cluster.Sys.Allowed System.Sample.setting) s.cluster ∧
    (Reachable (Proxy.machine System.Sample.setting.proxy) (Proxy.Lawful System.Sample.setting.proxy) s.cluster.proxy ∧
      s.cluster.proxy.fault = false) ∧
    ∀ k, Reachable (Worker.machine (System.Sample.setting.worker k)) (fun w l => LastRule w l ∧ SendRule w l)
      (s.process k) ∧ (s.process k).fault = false := by
  obtain ⟨s, hr, hresult⟩ := Reachable.of_leadsTo (machine System.Sample.setting Sample.func)
    (Sensible System.Sample.setting) Cluster.Sample.call (fun s => (s.coroutine 0 0).result = some ⟨0, [8]⟩)
    (by decide +kernel)
  exact ⟨s, hr, hresult, programs_keep_rules Sample.pids_distinct System.Sample.accepted rfl
    Link.Sample.codec_inverts System.Sample.sized hr⟩

/-- What the `send` has returned is what `svc_b` answers. -/
theorem calls_direct_sample : ∃ s : Sys,
    Reachable (machine System.Sample.setting Sample.func) (Sensible System.Sample.setting) s ∧
    ((s.process 0).sends 0).pc = .returned (some ⟨0, [8]⟩) ∧
    (directCalls Sample.func).Returns ((s.process 0).sends 0).question ⟨0, [8]⟩ := by
  obtain ⟨s, hr, hsent, hpc⟩ := Reachable.of_leadsTo (machine System.Sample.setting Sample.func)
    (Sensible System.Sample.setting) Cluster.Sample.call
    (fun s => 0 < (s.process 0).nsend ∧ ((s.process 0).sends 0).pc = .returned (some ⟨0, [8]⟩)) (by decide +kernel)
  exact ⟨s, hr, hpc, (calls_direct Sample.pids_distinct System.Sample.accepted rfl Link.Sample.codec_inverts
    System.Sample.sized hr).2 0 0 hsent _ hpc⟩

/-- The client of the process 0 has been answered. -/
theorem replies_direct_sample : ∃ s : Sys,
    Reachable (machine System.Sample.setting Sample.func) (Sensible System.Sample.setting) s ∧
    (s.process 0).written 0 = [⟨0, [8]⟩] ∧
    ∃ results : List CoroActorPack, (s.process 0).written 0 = results.map CoroActorPack.frame ∧
      List.Forall₂ (fun msg result => (directCalls Sample.func).Returns (.ofMsg msg) result ∧
          ∀ spec : Question → CoroActorPack → Prop, (directCalls Sample.func).Meets spec → spec (.ofMsg msg) result)
        (((s.process 0).history.pushedOn (some 0)).take results.length) results := by
  obtain ⟨s, hr, hwritten⟩ := Reachable.of_leadsTo (machine System.Sample.setting Sample.func)
    (Sensible System.Sample.setting) (Cluster.Sample.call ++ Sample.finish)
    (fun s => (s.process 0).written 0 = [⟨0, [8]⟩]) (by decide +kernel)
  exact ⟨s, hr, hwritten, replies_direct Sample.pids_distinct System.Sample.accepted rfl Link.Sample.codec_inverts
    System.Sample.sized hr 0 0⟩

end Sys

end CoroActor.Hosted
