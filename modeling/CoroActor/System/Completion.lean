import CoroActor.System.Rest
import CoroActor.System.Services

/-! The proxy, the processes and their services when nothing more can happen by itself. In the runs in which nothing
goes wrong (`Sensible` and `Smooth`), every request has been answered then, unless processes wait for each other in a
circle. -/

namespace CoroActor.Hosted

open TransitionSystem Worker Cluster Link

namespace Sys

/-- What the proxy and the process of a connection do next by themselves, whether they can or not. -/
def nextActs (s : Sys) (k : Proxy.Conn) : List Cluster.Label :=
  Cluster.Sys.linkActs k ++ ((s.process k).nextActs (s.coroutine k)).map (.actor k)

/-- Nothing more can happen unless a client or a new process does something. -/
def Rests (cfg : System.Setting) (func : StdString → Func) (s : Sys) : Prop :=
  ∀ k < s.cluster.proxy.nconn, ∀ l ∈ s.nextActs k, s.step cfg func l = none

instance (cfg : System.Setting) (func : StdString → Func) (s : Sys) : Decidable (s.Rests cfg func) :=
  inferInstanceAs (Decidable (∀ k < s.cluster.proxy.nconn, ∀ l ∈ s.nextActs k, s.step cfg func l = none))

/-- Every service that was called is complete, every `send` has returned, and every client that is still connected has
the results of all its requests. -/
structure Answered (func : StdString → Func) (s : Sys) : Prop where
  completed : ∀ k < s.cluster.proxy.nconn, ∀ j < (s.process k).history.ninv, (s.process k).history.completed j = true
  returned : ∀ k < s.cluster.proxy.nconn, ∀ i < (s.process k).nsend, ((s.process k).sends i).pc.over = true
  replied : ∀ k < s.cluster.proxy.nconn, ∀ client, (s.process k).tcpOpen client = true →
    ∃ results : List CoroActorPack, (s.process k).written client = results.map CoroActorPack.frame ∧
      List.Forall₂ (fun msg result => (directCalls func).Returns (.ofMsg msg) result)
        ((s.process k).history.pushedOn (some client)) results

variable {cfg : System.Setting} {func : StdString → Func} {s : Sys} {k : Proxy.Conn}

theorem isLocal_nextActs {c : Nat → Coroutine} {w : Worker.Sys} {l : Worker.Label} (hl : l ∈ w.nextActs c) :
    System.isLocal l = true := by
  have hall : ∀ {ls : List Worker.Label}, ls.all System.isLocal = true → l ∈ ls → System.isLocal l = true :=
    fun h hmem => List.all_eq_true.mp h l hmem
  simp only [Worker.Sys.nextActs, List.mem_append, List.mem_flatMap] at hl
  rcases hl with (hl | ⟨j, -, hl⟩) | ⟨i, -, hl⟩
  · exact hall rfl hl
  · rcases hc : c j with (_ | _) | _ | _ <;> rw [hc] at hl <;> exact hall rfl hl
  · exact hall rfl hl

theorem Rests.process (h : s.Rests cfg func) (hk : k < s.cluster.proxy.nconn)
    (hstarted : (s.cluster.system.peer k).started = true) :
    Worker.Sys.Rests (cfg.worker k) (s.coroutine k) (s.process k) := by
  intro l hl hfollows
  have hnone := h k hk (.actor k l) (List.mem_append_right _ (List.mem_map_of_mem hl))
  simp only [step, if_pos hfollows, Option.map_eq_none_iff, Cluster.Sys.step, Cluster.Sys.onActor, System.Sys.step,
    if_pos (And.intro hstarted (isLocal_nextActs hl)), System.Sys.onActor] at hnone
  exact hnone

theorem Rests.links (h : s.Rests cfg func) : s.cluster.LinksRest cfg := by
  intro k hk l hl
  have hnone := h k hk l (List.mem_append_left _ hl)
  cases l with
  | actor => simp [Cluster.Sys.linkActs] at hl
  | proxy | read | connack | internal => exact Option.map_eq_none_iff.mp hnone

/-- A process without a message to handle has completed every call, and its clients have all their results. -/
theorem Kept.answered_of_idle (hs : Kept cfg func s) (hidle : ∀ k < s.cluster.proxy.nconn,
    (s.process k).pc = .waitMsg ∧ (s.process k).ctx.msgQueue = []) : s.Answered func := by
  have hC := hs.fresh.contract
  have hcompleted : ∀ k < s.cluster.proxy.nconn, ∀ j < (s.process k).history.ninv,
      (s.process k).history.completed j = true := fun k hk =>
    Worker.Sys.calls_completed (hC.accounted k).1 (congrArg (fun pc => pc.phase.served) (hidle k hk).1)
  refine ⟨hcompleted, fun k hk i hi => ?_, fun k hk client hclient => ?_⟩
  · by_contra ho
    rw [Bool.not_eq_true] at ho
    obtain ⟨hj, hnot⟩ := (hC.accounted k).2.sending i hi ho
    exact Bool.false_ne_true (hnot.symm.trans (hcompleted k hk _ hj))
  · obtain ⟨hsound, hacc⟩ := hC.accounted k
    obtain ⟨hpc, hqueue⟩ := hidle k hk
    obtain ⟨results, hwritten, hresults⟩ := hs.replies k client
    have hlength : results.length = ((s.process k).history.pushedOn (some client)).length :=
      calc results.length = ((s.process k).written client).length := by rw [hwritten, List.length_map]
        _ = ((s.process k).history.answersOn (some client)).length := List.length_map ..
        _ = _ := Worker.Sys.answers_of_idle hsound hacc hpc hqueue hclient
    rw [List.take_of_length_le hlength.ge] at hresults
    exact ⟨results, hwritten, hresults⟩

variable (hpids : ∀ k k', cfg.pid k = cfg.pid k' → k = k')

include hpids

theorem unhindered_of_reachable (hcons : cfg.Consistent) (hinv : cfg.codec.deserialize.Inverts cfg.codec.serialize)
    (hack : Pack.Sized cfg.codec (.connack ⟨true⟩))
    (hr : Reachable (machine cfg func) (fun s l => s.Sensible cfg l ∧ s.cluster.Smooth cfg l) s) :
    Kept cfg func s ∧ Cluster.Sys.Unhindered cfg s.cluster := by
  refine hr.invariant (I := fun s => Kept cfg func s ∧ Cluster.Sys.Unhindered cfg s.cluster)
    ⟨kept_init cfg func, Cluster.Sys.unhindered_init cfg⟩ ?_
  rintro s l t - ⟨hs, hu⟩ ⟨hsensible, hsmooth⟩ hst
  obtain ⟨ht, hregular, hstep⟩ := hs.step hpids hcons hinv hack hsensible hst
  exact ⟨ht, hu.step hcons hinv hack (hs.fresh.allowed hpids hregular) hsmooth (Cluster.Sys.step_move hstep)⟩

omit hpids

end Sys

/-! ### Two runs that come to rest -/

namespace Sample

open Cluster.Sample

/-- Everybody goes on until there is nothing left to do. -/
def settle : List Cluster.Label :=
  [.actor 0 .replied, .actor 0 (.run 0), .actor 1 (.run 0), .actor 2 .replied, .actor 2 (.run 0),
    .proxy (.resume 2 false), .proxy (.run 2), .proxy (.run 2), .proxy (.run 2)]

/-- `svc_a` asks `svc_b`, and `svc_b` asks `svc_a`. -/
def crossing (name : StdString) : Func := fun rqst _ =>
  .ask ⟨if name = ascii "svc_a" then ascii "svc_b" else ascii "svc_a", rqst⟩ fun _ => .done rqst

/-- A client asks the process for a service, which sends a REQUEST for another one. -/
def asks (k : Proxy.Conn) (serviceName other : String) : List Cluster.Label :=
  [.actor k (.run 0), .actor k .accept, .actor k (.remote 0 (ascii serviceName) ⟨0, []⟩), .actor k .messageNotified,
    .actor k (.run 0), .actor k (.send 0 (ascii other) ⟨0, []⟩), .actor k .funcReturn, .actor k (.wentOut 0),
    .actor k (.written 0 0)]

/-- The REQUEST of the process 0 goes to the process 2, and that of the process 2 is buffered. -/
def cross : List Cluster.Label :=
  join 0 ++ join 1 ++ join 2 ++ [.actor 1 (.run 0)] ++ asks 0 "svc_a" "svc_b" ++ asks 2 "svc_b" "svc_a" ++
    [.read 0, .proxy (.run 0), .proxy (.transfer 0 1000), .proxy (.resume 0 false), .internal 2, .read 2,
      .proxy (.run 2)]

end Sample

namespace Sys

/-- Two clients whose services ask for each other wait for ever. -/
theorem crossing_rests : ∃ s : Sys, Reachable (machine System.Sample.setting Sample.crossing)
      (fun s l => s.Sensible System.Sample.setting l ∧ s.cluster.Smooth System.Sample.setting l) s ∧
    s.cluster.Linked System.Sample.setting ∧ s.Rests System.Sample.setting Sample.crossing ∧
    ¬ s.Answered Sample.crossing := by
  obtain ⟨s, hr, hlinked, hrests, hk, hj, hcompleted⟩ := Reachable.of_leadsTo
    (machine System.Sample.setting Sample.crossing)
    (fun s l => s.Sensible System.Sample.setting l ∧ s.cluster.Smooth System.Sample.setting l) Sample.cross
    (fun s => s.cluster.Linked System.Sample.setting ∧ s.Rests System.Sample.setting Sample.crossing ∧
      0 < s.cluster.proxy.nconn ∧ 0 < (s.process 0).history.ninv ∧ (s.process 0).history.completed 0 = false)
    (by decide +kernel)
  refine ⟨s, hr, hlinked, hrests, fun hanswered => ?_⟩
  rw [hanswered.completed 0 hk 0 hj] at hcompleted
  cases hcompleted

end Sys

end CoroActor.Hosted
