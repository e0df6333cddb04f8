import CoroActor.Proxy.Frames
import CoroActor.System.Offered
import CoroActor.Worker.Traffic

/-! The proxy and the actor processes with nothing left open between them. What a process has written to the
proxy is in order: its CONNECT, then the REQUESTs of `send` and the RESPONSEs of `handle_message` as they went out;
the proxy reads the next of these. What the proxy has written reaches the process as in the composite system. A
write of a process that fails leaves nothing for the proxy.

`sent` lists the frames that have gone out to a process whole, and `seen` counts those that it has read; `serial`
is the number under which the proxy read the REQUEST of a `send`. No step reads these. -/

namespace CoroActor.Cluster

open TransitionSystem

/-- What a process has written. -/
inductive Outgoing where
  | connect
  | request (i : Nat)
  | response (p : CoroActorResponse)
  deriving DecidableEq

structure Sys where
  system : System.Sys
  outbox : Proxy.Conn → List Outgoing
  sent : Proxy.Conn → List (Frame × Proxy.Carries)
  seen : Proxy.Conn → Nat
  serial : Proxy.Conn → Nat → Option Nat

/-- `read` is a round of `handle_proxy_deal_actor`, `proxy` any other step of the proxy. -/
inductive Label where
  | proxy (l : Proxy.Label)
  | read (k : Proxy.Conn)
  | connack (k : Proxy.Conn)
  | internal (k : Proxy.Conn)
  | actor (k : Proxy.Conn) (l : Worker.Label)

def isRead : Proxy.Label → Bool
  | .read .. => true
  | _ => false

/-- The REQUEST that a step of a process completes. -/
def requested (w : Worker.Sys) : Worker.Label → List Outgoing
  | .wentOut i => if (w.sends i).written then [] else [.request i]
  | _ => []

/-- The RESPONSE that a step of a process starts to write. -/
def responded (w w' : Worker.Sys) : List Outgoing :=
  (w'.history.responses.drop w.history.responses.length).map .response

namespace Sys

variable (cfg : System.Setting) (s : Sys) (k : Proxy.Conn)

def proxy : Proxy.Sys := s.system.proxy

def process : Worker.Sys := (s.system.peer k).process

def init : Sys where
  system := System.Sys.init cfg
  outbox _ := [.connect]
  sent _ := []
  seen _ := 0
  serial _ _ := none

/-- What the proxy makes of it. -/
def input : Outgoing → Proxy.Input
  | .connect => .connect ⟨cfg.pid k, cfg.name k⟩
  | .request i => .request ((s.process k).sends i).request
  | .response p => .response p

/-- The number of the next REQUEST is that of this one. -/
def numbered : Outgoing → Nat → Option Nat
  | .request i => Function.update (s.serial k) i (some s.proxy.history.nreq)
  | .connect | .response _ => s.serial k

def onProxy (l : Proxy.Label) : Option Sys :=
  (s.system.step cfg (.proxy l)).map fun u =>
    { s with system := u, sent := fun j => s.sent j ++ s.proxy.wentOut j l }

/-- The proxy reads the next frame of the process. -/
def onRead : Option Sys :=
  match s.outbox k with
  | [] => none
  | o :: rest =>
      (s.system.step cfg (.proxy (.read k (s.input cfg k o)))).map fun u =>
        { s with
          system := u
          outbox := Function.update s.outbox k rest
          serial := Function.update s.serial k (s.numbered k o) }

/-- The process reads the next frame of the proxy. -/
def onReceive (l : System.Label) : Option Sys :=
  (s.system.step cfg l).map fun u => { s with system := u, seen := Function.update s.seen k (s.seen k + 1) }

def onActor (l : Worker.Label) : Option Sys :=
  (s.system.step cfg (.actor k l)).map fun u =>
    { s with
      system := u
      outbox := Function.update s.outbox k
        (s.outbox k ++ (requested (s.process k) l ++ responded (s.process k) (u.peer k).process)) }

end Sys

def Sys.step (cfg : System.Setting) (s : Sys) : Label → Option Sys
  | .proxy l => if isRead l then none else s.onProxy cfg l
  | .read k => s.onRead cfg k
  | .connack k => s.onReceive cfg k (.connack k)
  | .internal k => s.onReceive cfg k (.internal k)
  | .actor k l => s.onActor cfg k l

def machine (cfg : System.Setting) : Machine Sys Label := ⟨Sys.init cfg, Sys.step cfg⟩

/-! ### What is asked of a run -/

/-- The REQUEST of `send` number `i` opens a call: its call id is not that of the message that is served, and no
REQUEST that the service sent before has it. -/
def Opens (w : Worker.Sys) (i : Nat) : Prop :=
  (w.sends i).request.callId ≠ (w.history.message (w.sends i).service).callId ∧
    ∀ j < i, (w.sends j).service = (w.sends i).service → (w.sends j).written = true →
      (w.sends j).request.callId ≠ (w.sends i).request.callId

instance (w : Worker.Sys) (i : Nat) : Decidable (Opens w i) :=
  inferInstanceAs (Decidable (_ ∧ ∀ j < i, _ → _ → _))

namespace Sys

variable (cfg : System.Setting) (s : Sys) (k : Proxy.Conn)

/-- A CONNECT carries a pid that no process has whose connection is open, a REQUEST that opens a call carries a call id
that no REQUEST had (a reused pid generates an old one again), and a RESPONSE answers a REQUEST that was never buffered
at a waiting callee. -/
def Admits : Outgoing → Prop
  | .connect => ∀ r < s.proxy.proxy.nactors, (s.proxy.proxy.actors r).pid = cfg.pid k →
      s.proxy.pc (s.proxy.proxy.actors r).socket = .done
  | .request i => Opens (s.process k) i → s.proxy.Fresh ((s.process k).sends i).request.callId
  | .response p => ∀ n ∈ s.proxy.answered k p.callId, s.proxy.history.buffered n = []

instance : (o : Outgoing) → Decidable (s.Admits cfg k o)
  | .connect => inferInstanceAs (Decidable (∀ r < s.proxy.proxy.nactors, _ → _))
  | .request _ => inferInstanceAs (Decidable (_ → _))
  | .response p => inferInstanceAs (Decidable (∀ n ∈ s.proxy.answered k p.callId, _))

/-- The writes to one socket do not overlap (`KeepsFrames`), what the proxy reads is as above (`Admits`), and a service
calls `send` when no `send` of its process is in progress (`OneSend`) and `notify_complete` last, when its own have
returned (`LastRule`). -/
def Allowed (cfg : System.Setting) (s : Sys) : Label → Prop
  | .proxy l => s.proxy.KeepsFrames cfg.proxy l
  | .read k => ∀ o ∈ (s.outbox k).head?,
      s.Admits cfg k o ∧ s.proxy.KeepsFrames cfg.proxy (.read k (s.input cfg k o))
  | .connack _ | .internal _ => True
  | .actor k l => Worker.LastRule (s.process k) l ∧ Worker.OneSend (s.process k) l

instance : (l : Label) → Decidable (s.Allowed cfg l)
  | .proxy l => inferInstanceAs (Decidable (s.proxy.KeepsFrames cfg.proxy l))
  | .read k => inferInstanceAs (Decidable (∀ o ∈ (s.outbox k).head?, _ ∧ _))
  | .connack _ | .internal _ => inferInstanceAs (Decidable True)
  | .actor k l => inferInstanceAs (Decidable (Worker.LastRule (s.process k) l ∧ Worker.OneSend (s.process k) l))

variable {cfg s} {t : Sys} {l : Label} {k j : Proxy.Conn}

/-- The cases of a step. -/
inductive Move (cfg : System.Setting) (s : Sys) : Label → Sys → Prop
  | proxy {l p} : isRead l = false → s.proxy.step cfg.proxy l = some p → Move cfg s (.proxy l)
      { s with system := { s.system with proxy := p }, sent := fun j => s.sent j ++ s.proxy.wentOut j l }
  | read {k o rest p} : s.outbox k = o :: rest → cfg.Sends (.read k (s.input cfg k o)) →
      s.proxy.step cfg.proxy (.read k (s.input cfg k o)) = some p → Move cfg s (.read k)
      { s with
        system := { s.system with proxy := p }
        outbox := Function.update s.outbox k rest
        serial := Function.update s.serial k (s.numbered k o) }
  | connack {k l rest} : Link.readConnack (s.system.peer k).locals [s.system.unread k] = some (l, rest) →
      l.proto = coroActorConnack → Move cfg s (.connack k)
      { s with
        system := s.system.setPeer k
          { s.system.peer k with started := true, locals := ⟨0, [], []⟩, taken := s.system.takenTo k rest }
        seen := Function.update s.seen k (s.seen k + 1) }
  | internal {k out l rest w} :
      Link.handleActorInternal cfg.codec (s.system.peer k).locals [s.system.unread k] = .next out l rest →
      (s.process k).step (cfg.worker k) (System.received out) = some w →
      (s.system.peer k).started = true → Move cfg s (.internal k)
      { s with
        system := s.system.setPeer k
          { s.system.peer k with locals := l, taken := s.system.takenTo k rest, process := w }
        seen := Function.update s.seen k (s.seen k + 1) }
  | actor {k l w} : (s.system.peer k).started = true → System.isLocal l = true →
      (s.process k).step (cfg.worker k) l = some w → Move cfg s (.actor k l)
      { s with
        system := s.system.setPeer k { s.system.peer k with process := w }
        outbox := Function.update s.outbox k
          (s.outbox k ++ (requested (s.process k) l ++ responded (s.process k) w)) }

theorem step_move (h : s.step cfg l = some t) : Move cfg s l t := by
  cases l with
  | proxy l =>
      simp only [step, Option.ite_none_left_eq_some, Bool.not_eq_true] at h
      obtain ⟨hl, h⟩ := h
      obtain ⟨u, hu, rfl⟩ := Option.map_eq_some_iff.mp h
      cases System.Sys.step_move hu with
      | proxy _ hp => exact .proxy hl hp
  | read k =>
      simp only [step, onRead] at h
      split at h
      · cases h
      · next o rest hout =>
          obtain ⟨u, hu, rfl⟩ := Option.map_eq_some_iff.mp h
          cases System.Sys.step_move hu with
          | proxy hsends hp => exact .read hout hsends hp
  | connack k =>
      obtain ⟨u, hu, rfl⟩ := Option.map_eq_some_iff.mp h
      simp only [System.Sys.step, System.Sys.onConnack, Option.ite_none_right_eq_some] at hu
      obtain ⟨-, hu⟩ := hu
      split at hu
      · cases hu
      · next l rest hread =>
          rw [Option.ite_none_right_eq_some, Option.some.injEq] at hu
          obtain ⟨⟨hproto, -⟩, rfl⟩ := hu
          exact .connack hread hproto
  | internal k =>
      obtain ⟨u, hu, rfl⟩ := Option.map_eq_some_iff.mp h
      have hstarted : (s.system.peer k).started = true := by
        by_contra hne
        simp only [System.Sys.step, if_neg hne] at hu
        cases hu
      cases System.Sys.step_move hu with
      | internal hround hw => exact .internal hround hw hstarted
  | actor k l =>
      obtain ⟨u, hu, rfl⟩ := Option.map_eq_some_iff.mp h
      have hstarted : (s.system.peer k).started = true := by
        by_contra hne
        simp only [System.Sys.step, Option.ite_none_right_eq_some] at hu
        exact hne hu.1.1
      cases System.Sys.step_move hu with
      | @actor _ _ w hlocal hw =>
          have hprocess : ((s.system.setPeer k { s.system.peer k with process := w }).peer k).process = w := by
            rw [System.Sys.setPeer_self]
          rw [hprocess]
          exact .actor hstarted hlocal hw

end Sys

end CoroActor.Cluster
