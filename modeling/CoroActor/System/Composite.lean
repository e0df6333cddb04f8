import CoroActor.Config.Load
import CoroActor.Link.ReadLoops
import CoroActor.Proxy.Coroutine
import CoroActor.Worker.Process

/-! The proxy together with the actor processes that are connected to it. An accepted connection is that of
one process, which was started for an entry of the configuration. What the proxy writes reaches the process
byte by byte, and it is read by `handle_actor_notify_proxy` until the CONNACK is there and by
`handle_actor_internal` from then on. Which REQUESTs and RESPONSEs a process sends is left open. -/

namespace CoroActor.System

open TransitionSystem Reading

/-- What is fixed for a run: the library that the packs go through, the configuration, and for each
connection the pid and the actor name of the process behind it. -/
structure Setting where
  codec : Link.Codec
  config : Config.CoroActorConfig
  pid : Proxy.Conn → Pid
  name : Proxy.Conn → StdString

namespace Setting

variable (cfg : Setting)

def proxy : Proxy.Setting := ⟨cfg.codec.serialize, cfg.config.serviceMap⟩

/-- `actor_config_map[actor_name].services`. -/
def services (actorName : StdString) : Finset StdString :=
  match cfg.config.actorConfigMap actorName with
  | none => ∅
  | some actor => actor.services

/-- The process behind a connection. `dlsym` has found every service of its actor. -/
def worker (k : Proxy.Conn) : Worker.Setting := ⟨cfg.pid k, fun n => n ∈ cfg.services (cfg.name k)⟩

/-- What only the framework's own processes send: a CONNECT with the pid and the name of the process. The
length of a frame that was read has four bytes. -/
def Sends : Proxy.Label → Prop
  | .read k (.connect p) => p = ⟨cfg.pid k, cfg.name k⟩
  | .read _ (.request p) => Link.Pack.Sized cfg.codec (.request p)
  | .read _ (.response p) => Link.Pack.Sized cfg.codec (.response p)
  | _ => True

instance : (l : Proxy.Label) → Decidable (cfg.Sends l)
  | .read k (.connect p) => inferInstanceAs (Decidable (p = ⟨cfg.pid k, cfg.name k⟩))
  | .read _ (.request _) => Nat.decLt _ _
  | .read _ (.response _) => Nat.decLt _ _
  | .read _ (.other _) | .accept | .readError _ | .transfer .. | .resume .. | .run _ =>
      inferInstanceAs (Decidable True)

end Setting

/-- An actor process and its end of the connection: whether the CONNACK has been read, the locals of the
coroutine that reads, the number of bytes that it has read, and the process itself. -/
structure Peer where
  started : Bool
  locals : Link.Locals
  taken : Nat
  process : Worker.Sys

structure Sys where
  proxy : Proxy.Sys
  peer : Proxy.Conn → Peer

/-- `internal` is a round of `handle_actor_internal`, `actor` any other step of the process. -/
inductive Label where
  | proxy (l : Proxy.Label)
  | connack (k : Proxy.Conn)
  | internal (k : Proxy.Conn)
  | actor (k : Proxy.Conn) (l : Worker.Label)

/-- The step does not read a frame from the unix socket. -/
def isLocal : Worker.Label → Bool
  | .request _ | .response _ | .other _ => false
  | _ => true

/-- What a round of `handle_actor_internal` does with what it has read. -/
def received (out : Link.Received) : Worker.Label :=
  match out.pack with
  | some (.request p) => .request p
  | some (.response p) => .response p
  | _ => .other out.proto

namespace Sys

variable (cfg : Setting) (s : Sys) (k : Proxy.Conn)

/-- The processes have written their CONNECTs, which the proxy has not accepted. -/
def init : Sys where
  proxy := Proxy.Sys.init
  peer k := ⟨false, .connect cfg.codec.serialize ⟨cfg.pid k, cfg.name k⟩, 0, Worker.Sys.init (cfg.worker k)⟩

/-- The bytes that the process has not read. -/
def unread : List UInt8 := (s.proxy.stream k).drop (s.peer k).taken

/-- The number of bytes that have been read when these are left. -/
def takenTo (rest : Stream UInt8) : Nat := (s.proxy.stream k).length - rest.flatten.length

def setPeer (r : Peer) : Sys := { s with peer := Function.update s.peer k r }

/-- The rest of `handle_actor_notify_proxy`. -/
def onConnack : Option Sys :=
  match Link.readConnack (s.peer k).locals [s.unread k] with
  | none => none
  | some (l, rest) =>
      if l.proto = coroActorConnack ∧ cfg.codec.deserialize.connack l.deserializePack = some ⟨true⟩ then
        some (s.setPeer k { s.peer k with started := true, locals := ⟨0, [], []⟩, taken := s.takenTo k rest })
      else none

/-- A round of `handle_actor_internal`. -/
def onInternal : Option Sys :=
  match Link.handleActorInternal cfg.codec (s.peer k).locals [s.unread k] with
  | .ended | .aborted => none
  | .next out l rest =>
      ((s.peer k).process.step (cfg.worker k) (received out)).map fun w =>
        s.setPeer k { s.peer k with locals := l, taken := s.takenTo k rest, process := w }

/-- Any other step of the process. -/
def onActor (l : Worker.Label) : Option Sys :=
  ((s.peer k).process.step (cfg.worker k) l).map fun w => s.setPeer k { s.peer k with process := w }

end Sys

def Sys.step (cfg : Setting) (s : Sys) : Label → Option Sys
  | .proxy l => if cfg.Sends l then (s.proxy.step cfg.proxy l).map fun p => { s with proxy := p } else none
  | .connack k => if (s.peer k).started = false then s.onConnack cfg k else none
  | .internal k => if (s.peer k).started = true then s.onInternal cfg k else none
  | .actor k l => if (s.peer k).started = true ∧ isLocal l = true then s.onActor cfg k l else none

def machine (cfg : Setting) : Machine Sys Label := ⟨Sys.init cfg, Sys.step cfg⟩

namespace Sys

variable {cfg : Setting} {s t : Sys} {l : Label} {k j : Proxy.Conn}

/-- The cases of a step. -/
inductive Move (cfg : Setting) (s : Sys) : Label → Sys → Prop
  | proxy {l p} : cfg.Sends l → s.proxy.step cfg.proxy l = some p → Move cfg s (.proxy l) { s with proxy := p }
  | connack {k l rest} : Link.readConnack (s.peer k).locals [s.unread k] = some (l, rest) →
      Move cfg s (.connack k)
        (s.setPeer k { s.peer k with started := true, locals := ⟨0, [], []⟩, taken := s.takenTo k rest })
  | internal {k out l rest w} :
      Link.handleActorInternal cfg.codec (s.peer k).locals [s.unread k] = .next out l rest →
      (s.peer k).process.step (cfg.worker k) (received out) = some w →
      Move cfg s (.internal k)
        (s.setPeer k { s.peer k with locals := l, taken := s.takenTo k rest, process := w })
  | actor {k l w} : isLocal l = true → (s.peer k).process.step (cfg.worker k) l = some w →
      Move cfg s (.actor k l) (s.setPeer k { s.peer k with process := w })

theorem step_move (h : s.step cfg l = some t) : Move cfg s l t := by
  cases l with
  | proxy l =>
      simp only [step, Option.ite_none_right_eq_some, Option.map_eq_some_iff] at h
      obtain ⟨hsends, p, hp, rfl⟩ := h
      exact .proxy hsends hp
  | connack k =>
      simp only [step, Option.ite_none_right_eq_some] at h
      obtain ⟨-, h⟩ := h
      unfold onConnack at h
      split at h
      · cases h
      · next l rest hread =>
          rw [Option.ite_none_right_eq_some, Option.some.injEq] at h
          obtain ⟨-, rfl⟩ := h
          exact .connack hread
  | internal k =>
      simp only [step, Option.ite_none_right_eq_some] at h
      obtain ⟨-, h⟩ := h
      unfold onInternal at h
      split at h
      · cases h
      · cases h
      · next out l rest hround =>
          obtain ⟨w, hw, rfl⟩ := Option.map_eq_some_iff.mp h
          exact .internal hround hw
  | actor k l =>
      simp only [step, Option.ite_none_right_eq_some] at h
      obtain ⟨⟨-, hlocal⟩, h⟩ := h
      obtain ⟨w, hw, rfl⟩ := Option.map_eq_some_iff.mp h
      exact .actor hlocal hw

@[simp] theorem setPeer_proxy (r : Peer) : (s.setPeer k r).proxy = s.proxy := rfl

@[simp] theorem setPeer_self (r : Peer) : (s.setPeer k r).peer k = r := Function.update_self _ _ _

theorem setPeer_of_ne (r : Peer) (h : j ≠ k) : (s.setPeer k r).peer j = s.peer j := Function.update_of_ne h _ _

/-- The proxy takes part in a run of its own, in which only the framework's processes connect. -/
theorem reachable_proxy {ok : Sys → Label → Prop} {ok' : Proxy.Sys → Proxy.Label → Prop}
    (hok : ∀ s l, ok s (.proxy l) → cfg.Sends l → ok' s.proxy l) (hr : Reachable (machine cfg) ok s) :
    Reachable (Proxy.machine cfg.proxy) ok' s.proxy := by
  refine hr.invariant (I := fun s => Reachable (Proxy.machine cfg.proxy) ok' s.proxy) .init ?_
  intro s l t _ hp hl hst
  cases step_move hst with
  | proxy hsends hstep => exact hp.step (hok s _ hl hsends) hstep
  | connack | internal | actor => exact hp

end Sys

end CoroActor.System
