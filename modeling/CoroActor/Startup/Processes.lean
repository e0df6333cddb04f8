import CoroActor.Link.ReadLoops
import CoroActor.Proxy.Coroutine

/-! The start of the processes. `master` forks the proxy and then the actor processes, and from there on
they run side by side: `handle_proxy_process` removes the socket file of an earlier run, binds, listens and
accepts, and every `handle_actor_notify_proxy` loads its services, connects, writes its CONNECT and reads the
CONNACK. `fork`, `dlopen`, `dlsym` and `bind` succeed, and no process is killed. -/

namespace CoroActor.Startup

open TransitionSystem Reading

/-- What is at the path of the unix socket. Nobody listens on a file that an earlier run has left. -/
inductive SocketFile where
  | absent
  | stale
  | bound
  | listening
  deriving DecidableEq

/-- Where the proxy stands: before one of the calls of `handle_proxy_process`, in the loop of
`handle_proxy_accept`, or after the loop. -/
inductive ProxyPc where
  | remove
  | bind
  | listen
  | accept
  | returned
  deriving DecidableEq

/-- Where `handle_actor_notify_proxy` stands. It is `stopped` when it has called `stop_server`, and it `gaveUp`
when it has returned without that, or when one of its assertions has failed. -/
inductive ActorPc where
  | load
  | connect
  | write
  | connack
  | started
  | stopped
  | gaveUp
  deriving DecidableEq

/-- The socket of an actor process: not connected, in the backlog of the proxy, or accepted. -/
inductive Connection where
  | unconnected
  | pending
  | accepted (k : Proxy.Conn)
  deriving DecidableEq

/-- An actor process. `sent` says that its CONNECT has been written and that the proxy has not read it. -/
structure Actor where
  pid : Pid
  name : StdString
  pc : ActorPc
  connection : Connection
  sent : Bool

/-- The process has not come to its end. -/
def Actor.Running (a : Actor) : Prop := a.pc ≠ .stopped ∧ a.pc ≠ .gaveUp

instance (a : Actor) : Decidable a.Running := inferInstanceAs (Decidable (_ ∧ _))

/-- `proxy` is the process `handle_proxy_deal_actor` with all its connections. There is no actor process from
number `nactors` on. -/
structure Sys where
  file : SocketFile
  acceptor : ProxyPc
  proxy : Proxy.Sys
  backlog : List Nat
  nactors : Nat
  actor : Nat → Actor

/-- What is fixed for a run: the library for the packs, the service map, whether there is a socket file of an
earlier run, and how many connections can wait for `accept`. -/
structure Setting where
  codec : Link.Codec
  serviceMap : StdString → Option StdString
  leftover : Bool
  capacity : Nat

def Setting.proxy (cfg : Setting) : Proxy.Setting := ⟨cfg.codec.serialize, cfg.serviceMap⟩

/-- `deal` reads the CONNECT of an actor process; `transfer` and `resume` belong to the write of the CONNACK. -/
inductive Label where
  | fork (pid : Pid) (name : StdString)
  | remove
  | bind
  | listen
  | accept
  | acceptError
  | deal (i : Nat)
  | transfer (k : Proxy.Conn) (count : Nat)
  | resume (k : Proxy.Conn) (ec : Bool)
  | load (i : Nat)
  | connect (i : Nat) (reported : Bool)
  | write (i : Nat)
  | connack (i : Nat)

namespace Sys

variable (cfg : Setting) (s : Sys) (i : Nat)

def init : Sys where
  file := if cfg.leftover then .stale else .absent
  acceptor := .remove
  proxy := Proxy.Sys.init
  backlog := []
  nactors := 0
  actor := fun _ => ⟨-1, [], .stopped, .unconnected, false⟩

def setActor (a : Actor) : Sys := { s with actor := Function.update s.actor i a }

def setProxy (p : Proxy.Sys) : Sys := { s with proxy := p }

/-- A new process gets a pid that no running process has. -/
def onFork (pid : Pid) (name : StdString) : Sys :=
  { s with
    nactors := s.nactors + 1
    actor := Function.update s.actor s.nactors ⟨pid, name, .load, .unconnected, false⟩ }

/-- The proxy accepts the connection that has waited longest. -/
def onAccept : Option Sys :=
  match s.backlog with
  | [] => none
  | i :: rest =>
      (s.proxy.step cfg.proxy .accept).map fun p =>
        { s.setActor i { s.actor i with connection := .accepted s.proxy.nconn } with
          proxy := p
          backlog := rest }

/-- `handle_proxy_accept` returns. The process goes on: it has inherited the wait for a signal, so that
`io_context.run` does not return, and its socket still listens. -/
def onAcceptError : Sys := { s with acceptor := .returned }

/-- The proxy reads the CONNECT. -/
def onDeal : Option Sys :=
  let a := s.actor i
  match a.connection with
  | .accepted k =>
      if a.sent then
        (s.proxy.step cfg.proxy (.read k (.connect ⟨a.pid, a.name⟩))).map fun p =>
          (s.setActor i { a with sent := false }).setProxy p
      else none
  | .unconnected | .pending => none

/-- `async_connect`. It fails when nobody listens. When too many connections are waiting, `connect` returns
EAGAIN; the library reports this, or it waits until the socket can be written to and reports success for
a socket that is not connected. -/
def onConnect (reported : Bool) : Sys :=
  let a := s.actor i
  if s.file ≠ .listening then s.setActor i { a with pc := .stopped }
  else if s.backlog.length < cfg.capacity then
    { s.setActor i { a with pc := .write, connection := .pending } with backlog := s.backlog ++ [i] }
  else s.setActor i { a with pc := if reported then .stopped else .write }

/-- The write of the CONNECT. -/
def onWrite : Sys :=
  let a := s.actor i
  if a.connection = .unconnected then s.setActor i { a with pc := .gaveUp }
  else s.setActor i { a with pc := .connack, sent := true }

/-- The CONNACK is there. -/
def onConnack : Option Sys :=
  let a := s.actor i
  match a.connection with
  | .accepted k =>
      (Link.readConnack (.connect cfg.codec.serialize ⟨a.pid, a.name⟩) [s.proxy.stream k]).map fun r =>
        s.setActor i { a with
          pc := if r.1.proto = coroActorConnack ∧
              cfg.codec.deserialize.connack r.1.deserializePack = some ⟨true⟩ then .started else .gaveUp }
  | .unconnected | .pending => none

end Sys

def Sys.step (cfg : Setting) (s : Sys) : Label → Option Sys
  | .fork pid name =>
      if ∀ j < s.nactors, (s.actor j).Running → (s.actor j).pid ≠ pid then some (s.onFork pid name) else none
  | .remove => if s.acceptor = .remove then some { s with file := .absent, acceptor := .bind } else none
  | .bind =>
      if s.acceptor = .bind ∧ s.file = .absent then some { s with file := .bound, acceptor := .listen } else none
  | .listen => if s.acceptor = .listen then some { s with file := .listening, acceptor := .accept } else none
  | .accept => if s.acceptor = .accept then s.onAccept cfg else none
  | .acceptError => if s.acceptor = .accept then some s.onAcceptError else none
  | .deal i => s.onDeal cfg i
  | .transfer k count => (s.proxy.step cfg.proxy (.transfer k count)).map s.setProxy
  | .resume k ec => (s.proxy.step cfg.proxy (.resume k ec)).map s.setProxy
  | .load i => if (s.actor i).pc = .load then some (s.setActor i { s.actor i with pc := .connect }) else none
  | .connect i reported => if (s.actor i).pc = .connect then some (s.onConnect cfg i reported) else none
  | .write i => if (s.actor i).pc = .write then some (s.onWrite i) else none
  | .connack i => if (s.actor i).pc = .connack then s.onConnack cfg i else none

def machine (cfg : Setting) : Machine Sys Label := ⟨Sys.init cfg, Sys.step cfg⟩

/-- A process connects when the proxy listens and another connection can wait. -/
def InTime (cfg : Setting) (s : Sys) : Label → Prop
  | .connect .. => s.file = .listening ∧ s.backlog.length < cfg.capacity
  | _ => True

instance (cfg : Setting) (s : Sys) : (l : Label) → Decidable (InTime cfg s l)
  | .connect .. => inferInstanceAs (Decidable (_ ∧ _))
  | .fork .. | .remove | .bind | .listen | .accept | .acceptError | .deal _ | .transfer .. | .resume .. | .load _
  | .write _ | .connack _ => inferInstanceAs (Decidable True)

namespace Sys

variable {cfg : Setting} {s t : Sys} {l : Label}

/-- The cases of a step. -/
inductive Move (cfg : Setting) (s : Sys) : Label → Sys → Prop
  | fork {pid name} : (∀ j < s.nactors, (s.actor j).Running → (s.actor j).pid ≠ pid) →
      Move cfg s (.fork pid name) (s.onFork pid name)
  | remove : s.acceptor = .remove → Move cfg s .remove { s with file := .absent, acceptor := .bind }
  | bind : s.acceptor = .bind → s.file = .absent → Move cfg s .bind { s with file := .bound, acceptor := .listen }
  | listen : s.acceptor = .listen → Move cfg s .listen { s with file := .listening, acceptor := .accept }
  | accept {i rest p} : s.acceptor = .accept → s.backlog = i :: rest → s.proxy.step cfg.proxy .accept = some p →
      Move cfg s .accept { s.setActor i { s.actor i with connection := .accepted s.proxy.nconn } with
        proxy := p
        backlog := rest }
  | acceptError : s.acceptor = .accept → Move cfg s .acceptError s.onAcceptError
  | deal {i k p} : (s.actor i).connection = .accepted k → (s.actor i).sent = true →
      s.proxy.step cfg.proxy (.read k (.connect ⟨(s.actor i).pid, (s.actor i).name⟩)) = some p →
      Move cfg s (.deal i) ((s.setActor i { s.actor i with sent := false }).setProxy p)
  | transfer {k count p} : s.proxy.step cfg.proxy (.transfer k count) = some p →
      Move cfg s (.transfer k count) (s.setProxy p)
  | resume {k ec p} : s.proxy.step cfg.proxy (.resume k ec) = some p → Move cfg s (.resume k ec) (s.setProxy p)
  | load {i} : (s.actor i).pc = .load → Move cfg s (.load i) (s.setActor i { s.actor i with pc := .connect })
  | connect {i reported} : (s.actor i).pc = .connect →
      Move cfg s (.connect i reported) (s.onConnect cfg i reported)
  | write {i} : (s.actor i).pc = .write → Move cfg s (.write i) (s.onWrite i)
  | connack {i t} : (s.actor i).pc = .connack → s.onConnack cfg i = some t → Move cfg s (.connack i) t

theorem step_move (h : s.step cfg l = some t) : Move cfg s l t := by
  cases l with
  | fork pid name =>
      simp only [step, Option.ite_none_right_eq_some, Option.some.injEq] at h
      obtain ⟨hpid, rfl⟩ := h
      exact .fork hpid
  | remove =>
      simp only [step, Option.ite_none_right_eq_some, Option.some.injEq] at h
      obtain ⟨hpc, rfl⟩ := h
      exact .remove hpc
  | bind =>
      simp only [step, Option.ite_none_right_eq_some, Option.some.injEq] at h
      obtain ⟨⟨hpc, hfile⟩, rfl⟩ := h
      exact .bind hpc hfile
  | listen =>
      simp only [step, Option.ite_none_right_eq_some, Option.some.injEq] at h
      obtain ⟨hpc, rfl⟩ := h
      exact .listen hpc
  | accept =>
      simp only [step, Option.ite_none_right_eq_some] at h
      obtain ⟨hpc, h⟩ := h
      unfold onAccept at h
      split at h
      · cases h
      · next i rest hq =>
          obtain ⟨p, hp, rfl⟩ := Option.map_eq_some_iff.mp h
          exact .accept hpc hq hp
  | acceptError =>
      simp only [step, Option.ite_none_right_eq_some, Option.some.injEq] at h
      obtain ⟨hpc, rfl⟩ := h
      exact .acceptError hpc
  | deal i =>
      simp only [step, onDeal] at h
      split at h
      · next k hc =>
          rw [Option.ite_none_right_eq_some] at h
          obtain ⟨hsent, h⟩ := h
          obtain ⟨p, hp, rfl⟩ := Option.map_eq_some_iff.mp h
          exact .deal hc hsent hp
      · cases h
      · cases h
  | transfer k count =>
      obtain ⟨p, hp, rfl⟩ := Option.map_eq_some_iff.mp h
      exact .transfer hp
  | resume k ec =>
      obtain ⟨p, hp, rfl⟩ := Option.map_eq_some_iff.mp h
      exact .resume hp
  | load i =>
      simp only [step, Option.ite_none_right_eq_some, Option.some.injEq] at h
      obtain ⟨hpc, rfl⟩ := h
      exact .load hpc
  | connect i reported =>
      simp only [step, Option.ite_none_right_eq_some, Option.some.injEq] at h
      obtain ⟨hpc, rfl⟩ := h
      exact .connect hpc
  | write i =>
      simp only [step, Option.ite_none_right_eq_some, Option.some.injEq] at h
      obtain ⟨hpc, rfl⟩ := h
      exact .write hpc
  | connack i =>
      simp only [step, Option.ite_none_right_eq_some] at h
      exact .connack h.1 h.2

/-- The actor process is in both registries of the proxy, with the connection that it has. -/
def Registered (s : Sys) (i : Nat) : Prop :=
  ∃ k, (s.actor i).connection = .accepted k ∧ ∃ r < s.proxy.proxy.nactors,
    (s.proxy.proxy.actors r).socket = k ∧ (s.proxy.proxy.actors r).pid = (s.actor i).pid ∧
    (s.proxy.proxy.actors r).name = (s.actor i).name ∧ r ∈ s.proxy.proxy.actorInfoMap (s.actor i).name ∧
    s.proxy.proxy.actorPidMap (s.actor i).pid = some r

end Sys

end CoroActor.Startup
