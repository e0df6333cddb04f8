import CoroActor.System.Closure

/-! Remote calls from end to end. A call of a service for a message of the link is one for a `send` of some process,
which has written just this request; no `send` is served twice; and a `send` that returns a pack returns what the call
for it has produced. -/

namespace CoroActor.Cluster

open TransitionSystem Link Worker

namespace Sys

/-- A `send` is a process and a number there, and so is a call of a service. -/
def sendOf (s : Sys) (x : Proxy.Conn × Nat) : Worker.Send := (s.process x.1).sends x.2

/-- The REQUEST of the `send` has gone out. -/
def Sent (s : Sys) (x : Proxy.Conn × Nat) : Prop := x.2 < (s.process x.1).nsend ∧ (s.sendOf x).written = true

/-- A process has called a service for a message of the link to the proxy. -/
def Called (s : Sys) (y : Proxy.Conn × Nat) : Prop := y.2 ∈ (s.process y.1).history.callsOn none

/-- The call is for the REQUEST that the proxy has read for the `send`. -/
def CalledFor (s : Sys) (x y : Proxy.Conn × Nat) : Prop := ∃ n d : Nat, s.serial x.1 x.2 = some n ∧
  (s.requestsRead y.1)[d]? = some n ∧ ((s.process y.1).history.callsOn none)[d]? = some y.2

/-- Each call has the `send` that it is for: it was called with the REQUEST of this `send`, and the process offers the
service. No two calls are for the same `send`. A `send` that returns a pack returns what the call for it, which is
complete and has not failed, has produced. -/
structure Origins (cfg : System.Setting) (s : Sys) (origin : Proxy.Conn × Nat → Proxy.Conn × Nat) : Prop where
  sent : ∀ y, s.Called y → s.Sent (origin y) ∧
    (s.process y.1).history.message y.2 = CoroActorMsg.ofRequest (s.sendOf (origin y)).request ∧
    (cfg.worker y.1).serviceMap (s.sendOf (origin y)).request.serviceName = true
  once : ∀ y y', s.Called y → s.Called y' → origin y = origin y' → y = y'
  returned : ∀ x result, x.2 < (s.process x.1).nsend → (s.sendOf x).pc = .returned (some result) →
    ∃ y, s.Called y ∧ origin y = x ∧ (s.process y.1).history.completed y.2 = true ∧
      (s.process y.1).history.failed y.2 = false ∧ result = (s.process y.1).history.produced y.2

variable {cfg : System.Setting} {s : Sys} {x x' y y' : Proxy.Conn × Nat} {p : CoroActorResponse}

namespace Contract

variable (hC : Contract cfg s)

include hC

/-- The calls for messages of the link are calls for the REQUESTs that were read, in their order. -/
theorem call_message {k : Proxy.Conn} {d j : Nat} (hj : ((s.process k).history.callsOn none)[d]? = some j) :
    ∃ n, (s.requestsRead k)[d]? = some n ∧
      (s.process k).history.message j = CoroActorMsg.ofRequest (s.proxy.history.pack n) := by
  obtain ⟨hsound, hacc⟩ := hC.accounted k
  obtain ⟨e, hans⟩ := hC.answering k
  obtain ⟨more, hmore⟩ := Worker.Sys.link_isPrefix hacc hsound
  have hlt : d < ((s.process k).history.callsOn none).length := (List.getElem?_eq_some_iff.mp hj).1
  have hpushed : ((s.process k).history.pushedOn none)[d]? = some ((s.process k).history.message j) := by
    rw [← hmore, List.getElem?_append_left (by rwa [List.length_map]), List.getElem?_map, hj]
    rfl
  rw [hans.pushed, List.getElem?_map] at hpushed
  obtain ⟨n, hn, hmsg⟩ := Option.map_eq_some_iff.mp hpushed
  exact ⟨n, hn, hmsg.symm⟩

theorem exists_calledFor (hy : s.Called y) : ∃ x, s.CalledFor x y := by
  obtain ⟨d, hd⟩ := List.mem_iff_getElem?.mp hy
  obtain ⟨n, hn, -⟩ := hC.call_message hd
  have hlt := (hC.sent_request ((s.requestsRead_isPrefix y.1).subset (List.mem_of_getElem? hn))).1
  obtain ⟨i, hi⟩ := (hC.asking (s.proxy.history.conn n)).known n hlt rfl
  exact ⟨(s.proxy.history.conn n, i), n, d, hi, hn, hd⟩

theorem message_of_calledFor (h : s.CalledFor x y) : s.Sent x ∧
    (s.process y.1).history.message y.2 = CoroActorMsg.ofRequest (s.sendOf x).request := by
  obtain ⟨n, d, hserial, hn, hd⟩ := h
  obtain ⟨hlt, hw, -, -, hpack⟩ := (hC.asking x.1).asked x.2 n hserial
  obtain ⟨m, hm, hmsg⟩ := hC.call_message hd
  obtain rfl := Option.some.inj (hm.symm.trans hn)
  exact ⟨⟨hlt, hw⟩, by rw [hmsg, hpack]; rfl⟩

theorem calledFor_sender (h : s.CalledFor x y) (h' : s.CalledFor x' y) : x = x' := by
  obtain ⟨n, d, hserial, hn, hd⟩ := h
  obtain ⟨n', d', hserial', hn', hd'⟩ := h'
  have hnodup : ((s.process y.1).history.callsOn none).Nodup := List.nodup_range.filter _
  obtain rfl := (List.getElem?_inj (List.getElem?_eq_some_iff.mp hd).1 hnodup).mp (hd.trans hd'.symm)
  obtain rfl := Option.some.inj (hn.symm.trans hn')
  have hconn : x.1 = x'.1 := by
    rw [← ((hC.asking x.1).asked x.2 n hserial).2.2.2.1, ← ((hC.asking x'.1).asked x'.2 n hserial').2.2.2.1]
  obtain ⟨k, i⟩ := x
  obtain ⟨k', i'⟩ := x'
  obtain rfl : k = k' := hconn
  rw [(hC.asking k).inj i i' n hserial hserial']

/-- A `send` has one call. -/
theorem calledFor_callee (h : s.CalledFor x y) (h' : s.CalledFor x y') : y = y' := by
  obtain ⟨n, d, hserial, hn, hd⟩ := h
  obtain ⟨n', d', hserial', hn', hd'⟩ := h'
  obtain rfl := Option.some.inj (hserial.symm.trans hserial')
  obtain ⟨k, j⟩ := y
  obtain ⟨k', j'⟩ := y'
  have hmem := (s.requestsRead_isPrefix k).subset (List.mem_of_getElem? hn)
  have hmem' := (s.requestsRead_isPrefix k').subset (List.mem_of_getElem? hn')
  obtain rfl : k = k' := hC.requests_apart hmem hmem'
  have hnodup := (hC.requests_nodup k).sublist (s.requestsRead_isPrefix k).sublist
  obtain rfl := (List.getElem?_inj (List.getElem?_eq_some_iff.mp hn).1 hnodup).mp (hn.trans hn'.symm)
  obtain rfl : j = j' := Option.some.inj (hd.symm.trans hd')
  rfl

/-- What a `send` was answered was produced by the call for it, which is complete. -/
theorem answered_call (hans : (s.process x.1).history.answer x.2 = some p) : ∃ y, s.CalledFor x y ∧
    (s.process y.1).history.completed y.2 = true ∧ (s.process y.1).history.failed y.2 = false ∧
      p.responsePack = (s.process y.1).history.produced y.2 := by
  obtain ⟨n, hserial, k, d, hn, hp⟩ := hC.heard x.1 x.2 p hans
  obtain ⟨hsound, hacc⟩ := hC.accounted k
  obtain ⟨e, hd⟩ := hC.answering k
  obtain ⟨m, hm, hread, -⟩ := hd.response (hC.labelled k) hacc hsound hp
  obtain rfl := Option.some.inj (hm.symm.trans hn)
  obtain ⟨j, hj, hcompleted, hfailed, hresponse, -⟩ := (hC.labelled k).response hacc hsound hp
  exact ⟨(k, j), ⟨m, d, hserial, hread, hj⟩, hcompleted, hfailed, by rw [hresponse]; rfl⟩

end Contract

/-- **Remote calls are made once.** With an accepted configuration, `deserialize` the inverse of `serialize` and a
CONNACK that fits its length field, in every `Allowed` run (writes to one socket do not overlap, the pid of a CONNECT
and the call id that opens a call are fresh, no RESPONSE answers a REQUEST that was buffered at a waiting callee,
services keep `OneSend` and `LastRule`): every call of a service for a message of the link is for a `send` that has
written this request, no two are for the same one, and a `send` that returns a pack returns what its call has produced.
-/
theorem calls_once {files : Config.Files} {root : Config.Root} (hload : (Config.load files .fresh root).1 = true)
    (hconfig : cfg.config = (Config.load files .fresh root).2)
    (hinv : cfg.codec.deserialize.Inverts cfg.codec.serialize) (hack : Pack.Sized cfg.codec (.connack ⟨true⟩))
    (hr : Reachable (machine cfg) (Allowed cfg) s) : ∃ origin, s.Origins cfg origin := by
  have hC := contract_of_reachable (System.Setting.consistent_of_load hload hconfig) hinv hack hr
  have hexists : ∀ y, ∃ x, s.Called y → s.CalledFor x y := by
    intro y
    by_cases hy : s.Called y
    · obtain ⟨x, hx⟩ := hC.exists_calledFor hy
      exact ⟨x, fun _ => hx⟩
    · exact ⟨y, fun h => absurd h hy⟩
  obtain ⟨origin, horigin⟩ := Classical.skolem.mp hexists
  refine ⟨origin, fun y hy => ?_, fun y y' hy hy' heq => ?_, fun x result hx hpc => ?_⟩
  · obtain ⟨hsent, hmsg⟩ := hC.message_of_calledFor (horigin y hy)
    refine ⟨hsent, hmsg, ?_⟩
    have hknown := Worker.Sys.knownServices (hC.process y.1) y.2 (List.mem_range.mp (List.mem_of_mem_filter hy))
    rwa [hmsg] at hknown
  · have hfor := horigin y hy
    rw [heq] at hfor
    exact hC.calledFor_callee hfor (horigin y' hy')
  · rcases (Worker.Send.tracked_returned hpc).mp ((hC.tracked x.1).tracked x.2 hx) with
      ⟨-, -, hnone⟩ | ⟨-, r, hr, hresult⟩
    · cases hnone
    · obtain ⟨y, hfor, hcompleted, hfailed, hproduced⟩ := hC.answered_call hr
      have hy : s.Called y := List.mem_of_getElem? hfor.choose_spec.choose_spec.2.2
      refine ⟨y, hy, hC.calledFor_sender (horigin y hy) hfor, hcompleted, hfailed, ?_⟩
      rw [Option.some.inj hresult, hproduced]

/-- The process 2 has been called for the `send` of the process 0, which has returned the pack. -/
theorem calls_once_sample : ∃ s : Sys, Reachable (machine System.Sample.setting) (Allowed System.Sample.setting) s ∧
    ((s.process 0).sends 0).pc = .returned (some ⟨0, [8]⟩) ∧ s.Called (2, 0) ∧
    ∃ origin, s.Origins System.Sample.setting origin := by
  obtain ⟨s, hr, hpc, hcalled⟩ := Reachable.of_leadsTo (machine System.Sample.setting) (Allowed System.Sample.setting)
    Sample.call (fun s => ((s.process 0).sends 0).pc = .returned (some ⟨0, [8]⟩) ∧
      0 ∈ (s.process 2).history.callsOn none) (by decide +kernel)
  exact ⟨s, hr, hpc, hcalled, calls_once System.Sample.accepted rfl Link.Sample.codec_inverts System.Sample.sized hr⟩

end Sys

end CoroActor.Cluster
