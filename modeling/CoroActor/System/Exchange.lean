import CoroActor.Proxy.Rules
import CoroActor.Worker.Generation

/-! The REQUESTs between the actor processes and the proxy. What a process sends to the proxy is in order: its
CONNECT, then its REQUESTs as `send` wrote them. A REQUEST that the proxy reads is the next one of its connection.
What a process reads, and which RESPONSEs the proxy reads, is left open.

`calls` lists the generated call ids whose REQUEST was read, by pid and counter. No step reads it. -/

namespace CoroActor.Exchange

open TransitionSystem

/-- What is fixed for a run: the setting of the proxy, and the pid, the name and the services of the process behind
each connection. -/
structure Setting where
  proxy : Proxy.Setting
  pid : Proxy.Conn → Pid
  name : Proxy.Conn → StdString
  services : Proxy.Conn → StdString → Bool

def Setting.worker (cfg : Setting) (k : Proxy.Conn) : Worker.Setting := ⟨cfg.pid k, cfg.services k⟩

/-- A frame on its way to the proxy. `issued` is the counter with which the call id of a REQUEST was generated, if it
was generated for this REQUEST. -/
inductive Outgoing where
  | connect
  | request (p : CoroActorRequest) (issued : Option UInt32)
  deriving DecidableEq

structure Sys where
  proxy : Proxy.Sys
  process : Proxy.Conn → Worker.Sys
  outbox : Proxy.Conn → List Outgoing
  calls : List (Pid × UInt32)

inductive Label where
  | proxy (l : Proxy.Label)
  | process (k : Proxy.Conn) (l : Worker.Label)

/-- The REQUEST that a step of a process has started to write. -/
def sent (w w' : Worker.Sys) : List Outgoing :=
  if w.nsend < w'.nsend then
    [.request (w'.sends w.nsend).request (if w.ctx.callId = [] then some w'.ctx.seq else none)]
  else []

namespace Sys

variable (cfg : Setting) (s : Sys) (k : Proxy.Conn)

def init : Sys where
  proxy := Proxy.Sys.init
  process k := Worker.Sys.init (cfg.worker k)
  outbox _ := [.connect]
  calls := []

/-- The proxy moves, and reads the next frame of connection `k`. -/
def onRead (l : Proxy.Label) (rest : List Outgoing) (calls : List (Pid × UInt32)) : Option Sys :=
  (s.proxy.step cfg.proxy l).map fun proxy =>
    { s with proxy := proxy, outbox := Function.update s.outbox k rest, calls := s.calls ++ calls }

/-- The call that a REQUEST opens. -/
def opens (issued : Option UInt32) : List (Pid × UInt32) := (issued.map fun seq => (cfg.pid k, seq)).toList

def onProcess (l : Worker.Label) : Option Sys :=
  ((s.process k).step (cfg.worker k) l).map fun w =>
    { s with
      process := Function.update s.process k w
      outbox := Function.update s.outbox k (s.outbox k ++ sent (s.process k) w) }

def onProxy (l : Proxy.Label) : Option Sys :=
  (s.proxy.step cfg.proxy l).map fun proxy => { s with proxy := proxy }

end Sys

def Sys.step (cfg : Setting) (s : Sys) : Label → Option Sys
  | .proxy (.read k (.connect p)) =>
      match s.outbox k with
      | .connect :: rest => if p = ⟨cfg.pid k, cfg.name k⟩ then s.onRead cfg k (.read k (.connect p)) rest [] else none
      | _ => none
  | .proxy (.read k (.request p)) =>
      match s.outbox k with
      | .request q issued :: rest =>
          if p = q then s.onRead cfg k (.read k (.request p)) rest (Sys.opens cfg k issued) else none
      | _ => none
  | .proxy l => s.onProxy cfg l
  | .process k l => s.onProcess cfg k l

def machine (cfg : Setting) : Machine Sys Label := ⟨Sys.init cfg, Sys.step cfg⟩

namespace Sys

variable {cfg : Setting} {s t : Sys} {l : Label} {k : Proxy.Conn}

/-- The connected processes have distinct pids. -/
def Distinct (s : Sys) : Label → Prop
  | .proxy (.read k (.connect p)) => s.proxy.ConnectRule k p
  | _ => True

/-- The proxy has written the REQUEST to the process behind the connection. -/
def Written (s : Sys) (k : Proxy.Conn) (p : CoroActorRequest) : Prop :=
  ∃ n < s.proxy.history.nreq, s.proxy.history.pack n = p ∧
    ∃ r ∈ s.proxy.history.written n, (s.proxy.proxy.actors r).socket = k

/-- A REQUEST that a process reads is one that the proxy has written to it. -/
def Relayed (s : Sys) : Label → Prop
  | .process k (.request p) => s.Written k p
  | _ => True

instance (s : Sys) (k : Proxy.Conn) (p : CoroActorRequest) : Decidable (s.Written k p) :=
  inferInstanceAs (Decidable (∃ n < s.proxy.history.nreq, _ ∧ ∃ r ∈ s.proxy.history.written n, _))

instance (s : Sys) : (l : Label) → Decidable (Distinct s l)
  | .proxy (.read k (.connect p)) => inferInstanceAs (Decidable (s.proxy.ConnectRule k p))
  | .proxy (.read _ (.request _)) | .proxy (.read _ (.response _)) | .proxy (.read _ (.other _)) | .proxy .accept
  | .proxy (.readError _) | .proxy (.transfer ..) | .proxy (.resume ..) | .proxy (.run _) | .process .. =>
      inferInstanceAs (Decidable True)

instance (s : Sys) : (l : Label) → Decidable (Relayed s l)
  | .process k l =>
      match l with
      | .request p => inferInstanceAs (Decidable (s.Written k p))
      | .run _ | .funcReturn | .messageNotified | .serviceNotified | .replied | .accept | .remote .. | .remoteError _
      | .response _ | .other _ | .internalError | .send .. | .respond .. | .complete _ | .wentOut _ | .written ..
      | .responded _ => inferInstanceAs (Decidable True)
  | .proxy _ => inferInstanceAs (Decidable True)

/-- The cases of a step. -/
inductive Move (cfg : Setting) (s : Sys) : Label → Sys → Prop
  | connect {k rest proxy} : s.outbox k = .connect :: rest →
      s.proxy.step cfg.proxy (.read k (.connect ⟨cfg.pid k, cfg.name k⟩)) = some proxy →
      Move cfg s (.proxy (.read k (.connect ⟨cfg.pid k, cfg.name k⟩)))
        { s with proxy := proxy, outbox := Function.update s.outbox k rest }
  | request {k p issued rest proxy} : s.outbox k = .request p issued :: rest →
      s.proxy.step cfg.proxy (.read k (.request p)) = some proxy →
      Move cfg s (.proxy (.read k (.request p)))
        { s with
          proxy := proxy
          outbox := Function.update s.outbox k rest
          calls := s.calls ++ opens cfg k issued }
  | proxy {l proxy} : (∀ k p, l ≠ .read k (.connect p)) → (∀ k p, l ≠ .read k (.request p)) →
      s.proxy.step cfg.proxy l = some proxy → Move cfg s (.proxy l) { s with proxy := proxy }
  | process {k l w} : (s.process k).step (cfg.worker k) l = some w →
      Move cfg s (.process k l)
        { s with
          process := Function.update s.process k w
          outbox := Function.update s.outbox k (s.outbox k ++ sent (s.process k) w) }

theorem step_move (h : s.step cfg l = some t) : Move cfg s l t := by
  have hproxy : ∀ {l}, (∀ k p, l ≠ .read k (.connect p)) → (∀ k p, l ≠ .read k (.request p)) →
      s.onProxy cfg l = some t → Move cfg s (.proxy l) t := by
    intro l hc hr h
    obtain ⟨proxy, hstep, rfl⟩ := Option.map_eq_some_iff.mp h
    exact .proxy hc hr hstep
  cases l with
  | process k l =>
      obtain ⟨w, hw, rfl⟩ := Option.map_eq_some_iff.mp h
      exact .process hw
  | proxy l =>
      cases l with
      | read k f =>
          cases f with
          | connect p =>
              simp only [step] at h
              split at h
              · next rest hrest =>
                  obtain ⟨rfl, h⟩ := Option.ite_none_right_eq_some.mp h
                  obtain ⟨proxy, hstep, rfl⟩ := Option.map_eq_some_iff.mp h
                  rw [List.append_nil]
                  exact .connect hrest hstep
              · cases h
          | request p =>
              simp only [step] at h
              split at h
              · next q issued rest hrest =>
                  obtain ⟨hp, hread⟩ := Option.ite_none_right_eq_some.mp h
                  obtain ⟨proxy, hstep, rfl⟩ := Option.map_eq_some_iff.mp hread
                  rw [← hp] at hrest
                  exact .request hrest hstep
              · cases h
          | response p => exact hproxy nofun nofun h
          | other b => exact hproxy nofun nofun h
      | accept => exact hproxy nofun nofun h
      | readError k => exact hproxy nofun nofun h
      | transfer k count => exact hproxy nofun nofun h
      | resume k ec => exact hproxy nofun nofun h
      | run k => exact hproxy nofun nofun h

end Sys

end CoroActor.Exchange
