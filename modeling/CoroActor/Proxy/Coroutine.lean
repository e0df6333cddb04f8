import CoroActor.Proxy.Dispatch
import CoroActor.Library.TransitionSystem
import Mathlib.Tactic.Simps.Basic

/-! The proxy process: one coroutine `handle_proxy_deal_actor` for each accepted connection, on a
single-threaded `io_context`. A coroutine is suspended at an `async_read` or at an `async_write`; between
two suspensions no other coroutine runs. A write is one or more partial writes to its socket, after
which its completion handler becomes ready. Two calls of `handle_proxy_handle_request` can follow each
other without a suspension; each is a step of its own, and `running` names the coroutine that holds
control between them.

`history` records what happened to each request and which frames have been handed to `async_write` for
each socket. No step of the proxy reads it. -/

namespace CoroActor.Proxy

open TransitionSystem

/-- What a coroutine does when a call of `handle_proxy_handle_request` returns: read the next frame, or go
on with `call_chain.back()` in the RESPONSE case. -/
inductive Cont where
  | loop
  | wake (callId : StdString)
  deriving DecidableEq

/-- Where the coroutine of a connection stands. -/
inductive Pc where
  | absent
  | read
  | connack
  | handle (af : Ref) (c : Cont)
  | request (q : Queued) (select : Ref) (c : Cont)
  | response (afSelf : Ref) (callId : StdString)
  | wake (callId : StdString)
  | done
  deriving DecidableEq

/-- Suspended at an `async_write`. -/
def Pc.writing : Pc → Bool
  | .connack | .request .. | .response .. => true
  | _ => false

def Cont.pc : Cont → Pc
  | .loop => .read
  | .wake callId => .wake callId

/-- The coroutine that holds control after the return. -/
def Cont.running (k : Conn) : Cont → Option Conn
  | .loop => none
  | .wake _ => some k

/-- What a frame carries, for the history. -/
inductive Carries where
  | connack
  | request (n : Nat)
  | response (n : Option Nat)
  deriving DecidableEq

/-- The write a coroutine is suspended at: its socket, its frame and the bytes that have not gone out. -/
structure Write where
  socket : Conn
  frame : Frame
  left : List UInt8
  carries : Carries

/-- The history of the requests, in the order in which they were read: the connection each was read from,
the actor it was attributed to, the actors at which it was buffered, the actors to which a REQUEST
frame was written for it and whether that frame went out whole, the actors to which the RESPONSE to it
was written and whether that went out whole. Then the frames written to each socket. -/
structure History where
  nreq : Nat
  conn : Nat → Conn
  issuer : Nat → Ref
  pack : Nat → CoroActorRequest
  buffered : Nat → List Ref
  written : Nat → List Ref
  delivered : Nat → Bool
  replies : Nat → List Ref
  returned : Nat → Bool
  frames : Conn → List Frame

namespace History

variable (h : History)

@[simps] def issue (k : Conn) (af : Ref) (p : CoroActorRequest) : History :=
  { h with
    nreq := h.nreq + 1
    conn := Function.update h.conn h.nreq k
    issuer := Function.update h.issuer h.nreq af
    pack := Function.update h.pack h.nreq p
    buffered := Function.update h.buffered h.nreq []
    written := Function.update h.written h.nreq []
    delivered := Function.update h.delivered h.nreq false
    replies := Function.update h.replies h.nreq []
    returned := Function.update h.returned h.nreq false }

@[simps] def hold (n : Nat) (r : Ref) : History :=
  { h with buffered := Function.update h.buffered n (h.buffered n ++ [r]) }

@[simps] def send (n : Nat) (r : Ref) : History :=
  { h with written := Function.update h.written n (h.written n ++ [r]) }

@[simps] def reply (n : Option Nat) (r : Ref) : History :=
  { h with replies := match n with
      | none => h.replies
      | some n => Function.update h.replies n (h.replies n ++ [r]) }

@[simps] def wentOut (c : Carries) : History :=
  { h with
    delivered := match c with
      | .request n => Function.update h.delivered n true
      | _ => h.delivered
    returned := match c with
      | .response (some n) => Function.update h.returned n true
      | _ => h.returned }

@[simps] def frame (socket : Conn) (f : Frame) : History :=
  { h with frames := Function.update h.frames socket (h.frames socket ++ [f]) }

/-- A REQUEST frame was written for the request and no RESPONSE to it has been handled. -/
def Live (n : Nat) : Prop := h.written n ≠ [] ∧ h.replies n = []

instance (n : Nat) : Decidable (h.Live n) := inferInstanceAs (Decidable (_ ∧ _))

end History

/-- A frame that `handle_proxy_deal_actor` has read. -/
inductive Input where
  | connect (p : CoroActorConnect)
  | request (p : CoroActorRequest)
  | response (p : CoroActorResponse)
  | other (proto : UInt8)

/-- The process. `stream` holds the bytes that have gone out to each socket, and `cut` says whether a
write to it has failed after a part of its frame had gone out. -/
structure Sys where
  proxy : Registry
  fault : Bool
  nconn : Nat
  pc : Conn → Pc
  running : Option Conn
  write : Conn → Write
  stream : Conn → List UInt8
  cut : Conn → Bool
  history : History

/-- What the environment fixes: `struct_pack` and the `service_map` of the configuration. -/
structure Setting where
  serialize : StructPack
  serviceMap : StdString → Option StdString

namespace Sys

variable (cfg : Setting) (s : Sys) (k : Conn)

/-- The process with nothing connected. -/
def init : Sys where
  proxy :=
    { nactors := 0
      actors := fun _ => ⟨[], -1, false, [], [], 0⟩
      isOpen := fun _ => true
      actorInfoMap := fun _ => []
      actorPidMap := fun _ => none
      actorCallChainMap := fun _ => none }
  fault := false
  nconn := 0
  pc := fun _ => .absent
  running := none
  write := fun _ => ⟨0, ⟨0, []⟩, [], .connack⟩
  stream := fun _ => []
  cut := fun _ => false
  history :=
    { nreq := 0
      conn := fun _ => 0
      issuer := fun _ => 0
      pack := fun _ => ⟨0, [], [], 0, []⟩
      buffered := fun _ => []
      written := fun _ => []
      delivered := fun _ => false
      replies := fun _ => []
      returned := fun _ => false
      frames := fun _ => [] }

/-- The coroutine of `k` moves, and the one named by `run` holds control. -/
@[simps] def setPc (p : Pc) (run : Option Conn) : Sys :=
  { s with pc := Function.update s.pc k p, running := run }

@[simps] def setProxy (σ : Registry) (h : History) : Sys := { s with proxy := σ, history := h }

/-- Undefined behaviour: a null pointer or an empty list is dereferenced. -/
@[simps] def undefined : Sys := { s with fault := true }

/-- The start of an `async_write` by the coroutine of `k`, which suspends there. -/
@[simps] def startWrite (p : Pc) (socket : Conn) (f : Frame) (carries : Carries) : Sys :=
  { s with
    pc := Function.update s.pc k p
    running := none
    write := Function.update s.write k ⟨socket, f, f.bytes, carries⟩
    history := s.history.frame socket f }

/-- The write of `k` is over. -/
@[simps] def endWrite (ec : Bool) : Sys :=
  let w := s.write k
  { s with cut := Function.update s.cut w.socket (s.cut w.socket || ec && w.left ≠ w.frame.bytes) }

/-- A call of `handle_proxy_handle_request` returns. -/
def returnTo (c : Cont) : Sys := s.setPc k c.pc (c.running k)

/-- The CONNECT case. -/
def onConnect (p : CoroActorConnect) : Sys :=
  let σ := s.proxy
  let af := σ.nactors
  s.setProxy { σ with
      nactors := af + 1
      actors := Function.update σ.actors af ⟨p.name, p.pid, false, [], [], k⟩
      actorPidMap := Function.update σ.actorPidMap p.pid (some af)
      actorInfoMap := Function.update σ.actorInfoMap p.name (σ.actorInfoMap p.name ++ [af]) } s.history
  |>.startWrite k .connack k ⟨coroActorConnack, cfg.serialize.connack ⟨true⟩⟩ .connack

/-- The REQUEST case, up to the call of `handle_proxy_handle_request`. -/
def onRequest (p : CoroActorRequest) : Sys :=
  match s.proxy.actorPidMap p.pid with
  | none => s.undefined
  | some af =>
      let σ := if s.proxy.actorCallChainMap p.callId = none then s.proxy.setChain p.callId [af] else s.proxy
      s.setProxy (σ.emplace af ⟨s.history.nreq, p⟩) (s.history.issue k af p)
      |>.setPc k (.handle af .loop) (some k)

/-- A RESPONSE on connection `k` with this `call_id` answers the request. -/
def Answers (callId : StdString) (n : Nat) : Prop :=
  s.history.Live n ∧ (s.history.pack n).callId = callId ∧
    ∃ r ∈ s.history.written n, (s.proxy.actors r).socket = k

instance (callId : StdString) (n : Nat) : Decidable (s.Answers k callId n) :=
  inferInstanceAs (Decidable (_ ∧ _))

def answered (callId : StdString) : Option Nat :=
  (List.range s.history.nreq).find? fun n => s.Answers k callId n

/-- The RESPONSE case, up to its `async_write`. -/
def onResponse (p : CoroActorResponse) : Sys :=
  let callChain := s.proxy.chain p.callId
  match callChain.getLast?, callChain.dropLast.getLast? with
  | some afSelf, some back =>
      s.setProxy (s.proxy.setChain p.callId callChain.dropLast)
        (s.history.reply (s.answered k p.callId) back)
      |>.startWrite k (.response afSelf p.callId) (s.proxy.actors back).socket
        ⟨coroActorResponse, cfg.serialize.response p⟩ (.response (s.answered k p.callId))
  | _, _ => s.undefined

def onFrame : Input → Sys
  | .connect p => s.onConnect cfg k p
  | .request p => s.onRequest k p
  | .response p => s.onResponse cfg k p
  | .other _ => s

/-- A call of `handle_proxy_handle_request` by the coroutine of `k`. -/
def onHandle (af : Ref) (c : Cont) : Sys :=
  match Registry.handleProxyHandleRequest cfg.serviceMap s.proxy af with
  | (_, .fault) => s.undefined
  | (σ, .idle) => (s.setProxy σ s.history).returnTo k c
  | (σ, .refused _ _) => (s.setProxy σ s.history).returnTo k c
  | (σ, .buffered q select) => (s.setProxy σ (s.history.hold q.serial select)).returnTo k c
  | (σ, .writing q select) =>
      (s.setProxy σ (s.history.send q.serial select)).startWrite k (.request q select c)
        (σ.actors select).socket ⟨coroActorRequest, cfg.serialize.request q.pack⟩ (.request q.serial)

/-- `update_actor_info(call_chain.back(), pack.call_id, false)`, before the second call of
`handle_proxy_handle_request` in the RESPONSE case. -/
def onWake (callId : StdString) : Sys :=
  match (s.proxy.chain callId).getLast? with
  | none => s.undefined
  | some back =>
      (s.setProxy (s.proxy.updateActorInfo back callId false) s.history).setPc k (.handle back .loop)
        (some k)

/-- The completion handler of the write of `k` runs, with an error code or without. -/
def onResume (ec : Bool) : Sys :=
  let r := s.endWrite k ec
  match s.pc k with
  | .connack => r.setPc k .read none
  | .response afSelf callId =>
      (r.setProxy (s.proxy.updateActorInfo afSelf [] false) s.history).setPc k
        (.handle afSelf (.wake callId)) (some k)
  | .request q select c =>
      if ec then
        match s.proxy.actorPidMap q.pack.pid with
        | none => s.undefined
        | some issuer =>
            (r.setProxy ((s.proxy.updateActorInfo issuer [] false).updateActorInfo select [] false)
              s.history).returnTo k c
      else r.returnTo k c
  | _ => s

/-- The control passes from one call of `handle_proxy_handle_request` to the next. -/
def onRun : Sys :=
  match s.pc k with
  | .handle af c => s.onHandle cfg k af c
  | .wake callId => s.onWake k callId
  | _ => s

/-- The socket of the write of `k` takes its first bytes. -/
def onTransfer (count : Nat) : Sys :=
  let w := s.write k
  { s with
    write := Function.update s.write k { w with left := w.left.drop count }
    stream := Function.update s.stream w.socket (s.stream w.socket ++ w.left.take count)
    history := if w.left.drop count = [] then s.history.wentOut w.carries else s.history }

/-- No coroutine holds control, so the next ready handler may run. -/
def Ready : Prop := s.fault = false ∧ s.running = none

instance : Decidable s.Ready := inferInstanceAs (Decidable (_ ∧ _))

end Sys

/-- Who moves next. `transfer` is a partial write of `count + 1` bytes, or of the rest if that is less. -/
inductive Label where
  | accept
  | read (k : Conn) (f : Input)
  | readError (k : Conn)
  | transfer (k : Conn) (count : Nat)
  | resume (k : Conn) (ec : Bool)
  | run (k : Conn)

/-- A step of the process. A write completes without an error exactly when all its bytes have gone
out. -/
def Sys.step (cfg : Setting) (s : Sys) : Label → Option Sys
  | .accept => if s.Ready then some ({ s with nconn := s.nconn + 1 }.setPc s.nconn .read none) else none
  | .read k f => if s.Ready ∧ s.pc k = .read then some (s.onFrame cfg k f) else none
  | .readError k => if s.Ready ∧ s.pc k = .read then some (s.setPc k .done none) else none
  | .transfer k count =>
      if s.Ready ∧ (s.pc k).writing = true ∧ (s.write k).left ≠ [] then some (s.onTransfer k (count + 1))
      else none
  | .resume k ec =>
      if s.Ready ∧ (s.pc k).writing = true ∧ (ec = true ↔ (s.write k).left ≠ []) then some (s.onResume k ec)
      else none
  | .run k => if s.fault = false ∧ s.running = some k then some (s.onRun cfg k) else none

def machine (cfg : Setting) : Machine Sys Label := ⟨Sys.init, Sys.step cfg⟩

end CoroActor.Proxy
