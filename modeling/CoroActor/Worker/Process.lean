import CoroActor.Worker.Context
import CoroActor.Library.TransitionSystem
import Mathlib.Tactic.Simps.Basic

/-! An actor process after its start: the coroutine `handle_message`, the coroutine
`handle_actor_internal` on the unix socket, a session for each TCP client, and the services. They run on
a single-threaded `io_context`: between two suspensions of a coroutine no other handler runs. `func` is
called synchronously; what a service does is one of the actions `send`, `respond` and `complete`, taken
inside `func` or by a handler of the service later. A run ends when the `io_context` is stopped.

`history` records the messages, what each call of `func` did and what was written. No step of the process
reads it. -/

namespace CoroActor.Worker

open TransitionSystem

/-- Where `handle_message` stands: at the head of its loop, suspended at the wait for a message, inside
`func`, suspended at the wait for the service, or suspended at the write of the reply. -/
inductive Pc where
  | loop
  | waitMsg
  | func (msg : CoroActorMsg)
  | waitService (msg : CoroActorMsg)
  | write
  deriving DecidableEq

/-- Where a call of `send` stands: suspended at its write, suspended at the wait for the response, or
returned; with `none` it returned false. -/
inductive SendPc where
  | write
  | wait
  | returned (result : Option CoroActorPack)
  deriving DecidableEq

/-- A call of `send`: the call of `func` that it belongs to, its request, and whether that has gone out
whole. -/
structure Send where
  service : Nat
  request : CoroActorRequest
  written : Bool
  pc : SendPc

/-- The messages in the order in which they were pushed and in which they were taken from the queue. The
calls of `func`, which are numbered: the message, whether `notify_complete` was called, the call ids that
were generated and those of the REQUESTs that were sent, the response that was produced, and whether a
`send` of it returned false. The RESPONSE that was read for each `send`. What `handle_message` wrote to each
client and to the unix socket. -/
structure History where
  pushed : List CoroActorMsg
  taken : List CoroActorMsg
  ninv : Nat
  message : Nat → CoroActorMsg
  completed : Nat → Bool
  generated : Nat → List StdString
  requested : Nat → List StdString
  produced : Nat → CoroActorPack
  failed : Nat → Bool
  answer : Nat → Option CoroActorResponse
  replies : TcpConn → List CoroActorPack
  responses : List CoroActorResponse

namespace History

variable (h : History)

@[simps] def push (msg : CoroActorMsg) : History := { h with pushed := h.pushed ++ [msg] }

@[simps] def take (msg : CoroActorMsg) : History := { h with taken := h.taken ++ [msg] }

@[simps] def invoke (msg : CoroActorMsg) (respPack : CoroActorPack) : History :=
  { h with
    ninv := h.ninv + 1
    message := Function.update h.message h.ninv msg
    completed := Function.update h.completed h.ninv false
    generated := Function.update h.generated h.ninv []
    requested := Function.update h.requested h.ninv []
    produced := Function.update h.produced h.ninv respPack
    failed := Function.update h.failed h.ninv false }

@[simps] def complete (j : Nat) : History := { h with completed := Function.update h.completed j true }

/-- The service sets its response. -/
@[simps] def produce (j : Nat) (respPack : CoroActorPack) : History :=
  { h with produced := Function.update h.produced j respPack }

@[simps] def fail (j : Nat) : History := { h with failed := Function.update h.failed j true }

/-- Call `j` of `func` sends a REQUEST with this `call_id`, which was generated for it or not. -/
@[simps] def request (j : Nat) (callId : StdString) (fresh : Bool) : History :=
  { h with
    generated := if fresh then Function.update h.generated j (h.generated j ++ [callId]) else h.generated
    requested := Function.update h.requested j (h.requested j ++ [callId]) }

@[simps] def answered (i : Option Nat) (p : CoroActorResponse) : History :=
  { h with answer := match i with
      | none => h.answer
      | some i => Function.update h.answer i (some p) }

@[simps] def reply (k : TcpConn) (p : CoroActorPack) : History :=
  { h with replies := Function.update h.replies k (h.replies k ++ [p]) }

@[simps] def respond (p : CoroActorResponse) : History := { h with responses := h.responses ++ [p] }

end History

/-- The process. `respPack` is the local variable of `handle_message`, `internal` says whether
`handle_actor_internal` is still running and `session` whether that of a client is; `fault` is undefined
behaviour. -/
structure Sys where
  ctx : CoroActorCtx
  fault : Bool
  pc : Pc
  respPack : CoroActorPack
  unixOpen : Bool
  internal : Bool
  nconn : Nat
  tcpOpen : TcpConn → Bool
  session : TcpConn → Bool
  nsend : Nat
  sends : Nat → Send
  history : History

/-- What is fixed when the process starts: its pid and the services it has loaded. -/
structure Setting where
  pid : Pid
  serviceMap : StdString → Bool

namespace Sys

variable (cfg : Setting) (s : Sys)

/-- The process after the constructor of `coro_actor_ctx`. -/
def init : Sys where
  ctx :=
    { pid := cfg.pid
      seq := 0
      errorMsg := []
      callId := []
      msgQueue := []
      msgNotifyTimer := .idle
      serviceNotifyTimer := .idle
      responseNotifyTimer := .idle
      currRespPack := ⟨0, [], [], ⟨0, []⟩⟩
      isWaiting := false }
  fault := false
  pc := .loop
  respPack := ⟨0, []⟩
  unixOpen := true
  internal := true
  nconn := 0
  tcpOpen := fun _ => false
  session := fun _ => false
  nsend := 0
  sends := fun _ => ⟨0, ⟨0, [], [], ⟨0, []⟩⟩, false, .returned none⟩
  history :=
    { pushed := []
      taken := []
      ninv := 0
      message := fun _ => ⟨[], [], ⟨0, []⟩, none, false⟩
      completed := fun _ => true
      generated := fun _ => []
      requested := fun _ => []
      produced := fun _ => ⟨0, []⟩
      failed := fun _ => false
      answer := fun _ => none
      replies := fun _ => []
      responses := [] }

/-- `handle_message` moves. -/
@[simps] def setPc (p : Pc) : Sys := { s with pc := p }

@[simps] def setCtx (c : CoroActorCtx) (h : History) : Sys := { s with ctx := c, history := h }

/-- A member function is called through a null pointer. -/
@[simps] def undefined : Sys := { s with fault := true }

/-- `msg.socket->close`, if there is one. -/
@[simps] def closeTcp (socket : Option TcpConn) : Sys :=
  { s with tcpOpen := match socket with
      | none => s.tcpOpen
      | some k => Function.update s.tcpOpen k false }

/-- `msg.unix_socket->close`, if there is one. -/
@[simps] def closeUnix (unixSocket : Bool) : Sys := { s with unixOpen := s.unixOpen && !unixSocket }

/-- `push_msg`. -/
@[simps!] def push (msg : CoroActorMsg) : Sys := s.setCtx (s.ctx.pushMsg msg) (s.history.push msg)

/-- The front of the queue is taken. -/
@[simps!] def takeFront (msg : CoroActorMsg) (rest : List CoroActorMsg) : Sys :=
  s.setCtx { s.ctx with msgQueue := rest } (s.history.take msg)

/-- The sockets of the message are open, as far as it has any. -/
def Open (msg : CoroActorMsg) : Prop :=
  (∀ k ∈ msg.socket, s.tcpOpen k = true) ∧ (msg.unixSocket = true → s.unixOpen = true)

instance (msg : CoroActorMsg) : Decidable (s.Open msg) := inferInstanceAs (Decidable (_ ∧ _))

/-- The call of `func` for a message, up to the start of the service. The type of `resp_pack` is not
initialised. -/
def invoke (msg : CoroActorMsg) (type : UInt8) : Sys :=
  { s.setCtx { s.ctx with callId := msg.callId, isWaiting := true } (s.history.invoke msg ⟨type, []⟩) with
    respPack := ⟨type, []⟩ }.setPc (.func msg)

/-- One pass of the loop of `handle_message`, up to its first suspension or to the service. -/
def onLoop (type : UInt8) : Sys :=
  match s.ctx.msgQueue with
  | [] => (s.setCtx { s.ctx with msgNotifyTimer := s.ctx.msgNotifyTimer.asyncWait () } s.history).setPc .waitMsg
  | msg :: rest =>
      let r := s.takeFront msg rest
      if ¬ s.Open msg then r
      else if cfg.serviceMap msg.serviceName = false then
        match msg.socket with
        | none => r.undefined
        | some k => r.closeTcp (some k)
      else r.invoke msg type

/-- The rest of the pass, after the service. Nothing is written to a socket that has been closed. -/
def finish (msg : CoroActorMsg) : Sys :=
  if s.ctx.errorMsg ≠ [] then
    ((s.setCtx { s.ctx with errorMsg := [] } s.history).closeTcp msg.socket).closeUnix msg.unixSocket
    |>.setPc .loop
  else
    match msg.socket with
    | some k => (s.setCtx s.ctx (if s.tcpOpen k then s.history.reply k s.respPack else s.history)).setPc .write
    | none =>
        if msg.unixSocket then
          (s.setCtx s.ctx (if s.unixOpen then
              s.history.respond ⟨s.ctx.pid, msg.callId, msg.serviceName, s.respPack⟩
            else s.history)).setPc .write
        else s.setPc .loop

/-- `func` returns. -/
def onReturn (msg : CoroActorMsg) : Sys :=
  if s.ctx.isWaiting then
    (s.setCtx { s.ctx with serviceNotifyTimer := s.ctx.serviceNotifyTimer.asyncWait () } s.history).setPc
      (.waitService msg)
  else s.finish msg

/-- The REQUEST case of `handle_actor_internal`. Its `call_id` has been moved to the message when
`set_call_id` is called with it. -/
def onRequest (p : CoroActorRequest) : Sys :=
  let s := s.setCtx (s.ctx.setCallId []) s.history
  { s.push ⟨p.serviceName, p.callId, p.requestPack, none, true⟩ with internal := s.unixOpen }

/-- The call of `send` that a RESPONSE is for: the first one that has not returned and had no RESPONSE. -/
def awaiting : Option Nat :=
  (List.range s.nsend).find? fun i =>
    ((s.sends i).pc = .write ∨ (s.sends i).pc = .wait) ∧ s.history.answer i = none

/-- The RESPONSE case of `handle_actor_internal`. -/
def onResponse (p : CoroActorResponse) : Sys :=
  { s.setCtx (s.ctx.setResponsePack p) (s.history.answered s.awaiting p) with internal := s.unixOpen }

/-- The part of `send` that makes sure of a call id, sets up the REQUEST and starts to write it. -/
def startSend (j : Nat) (serviceName : StdString) (pack : CoroActorPack) : Sys :=
  let c := s.ctx.openCall
  { s.setCtx c (s.history.request j c.callId (s.ctx.callId = [])) with
    nsend := s.nsend + 1
    sends := Function.update s.sends s.nsend ⟨j, ⟨c.pid, c.callId, serviceName, pack⟩, false, .write⟩ }

/-- A service calls `send`, up to the first suspension. A service of the process itself is refused. -/
def onSend (j : Nat) (serviceName : StdString) (pack : CoroActorPack) : Sys :=
  if cfg.serviceMap serviceName = true then
    s.setCtx (s.ctx.setErrorMsg (ascii "This service is already supported by this process"))
      (s.history.fail j)
  else s.startSend j serviceName pack

/-- `send` number `i` moves. -/
@[simps] def setSend (i : Nat) (p : SendPc) : Sys :=
  { s with sends := Function.update s.sends i { s.sends i with pc := p } }

/-- The completion handler of the write of `send` runs. An error code is converted to a character of
`error_msg_`. -/
def onWritten (i : Nat) (ec : Nat) : Sys :=
  if ec ≠ 0 then
    (s.setCtx (s.ctx.setErrorMsg [ec.toUInt8]) (s.history.fail (s.sends i).service)).setSend i (.returned none)
  else
    let c := { s.ctx with responseNotifyTimer := s.ctx.responseNotifyTimer.asyncWait i }
    (s.setCtx c s.history).setSend i .wait

/-- The wait of `send` is over. -/
def onResponded (i : Nat) : Sys :=
  let c := { s.ctx with responseNotifyTimer := s.ctx.responseNotifyTimer.complete i }
  (s.setCtx c.takeResponsePack s.history).setSend i (.returned (some c.currRespPack.responsePack))

/-- No handler is running, so the next one may run. -/
def Ready : Prop := s.fault = false ∧ (s.pc = .waitMsg ∨ (∃ msg, s.pc = .waitService msg) ∨ s.pc = .write)

/-- A service may act: inside `func`, or in a handler of its own. -/
def Serving : Prop := s.fault = false ∧ s.pc ≠ .loop

instance : Decidable (∃ msg, s.pc = .waitService msg) :=
  match h : s.pc with
  | .waitService msg => isTrue ⟨msg, rfl⟩
  | .loop | .waitMsg | .func _ | .write => isFalse (by rintro ⟨msg, heq⟩; cases heq)

instance : Decidable s.Ready := inferInstanceAs (Decidable (_ ∧ (_ ∨ _ ∨ _)))
instance : Decidable s.Serving := inferInstanceAs (Decidable (_ ∧ _))

end Sys

/-- Who moves next. A service is named by its call of `func`, a call of `send` by its number. -/
inductive Label where
  | run (type : UInt8)
  | funcReturn
  | messageNotified
  | serviceNotified
  | replied
  | accept
  | remote (k : TcpConn) (serviceName : StdString) (pack : CoroActorPack)
  | remoteError (k : TcpConn)
  | request (p : CoroActorRequest)
  | response (p : CoroActorResponse)
  | other (proto : UInt8)
  | internalError
  | send (j : Nat) (serviceName : StdString) (pack : CoroActorPack)
  | respond (j : Nat) (pack : CoroActorPack)
  | complete (j : Nat)
  | wentOut (i : Nat)
  | written (i : Nat) (ec : Nat)
  | responded (i : Nat)

/-- A step of the process. The completion handler of the write of `send` runs without an error exactly
when the whole request has gone out. -/
def Sys.step (cfg : Setting) (s : Sys) : Label → Option Sys
  | .run type => if s.fault = false ∧ s.pc = .loop then some (s.onLoop cfg type) else none
  | .funcReturn =>
      match s.pc with
      | .func msg => if s.fault = false then some (s.onReturn msg) else none
      | _ => none
  | .messageNotified =>
      if s.Ready ∧ s.pc = .waitMsg ∧ () ∈ s.ctx.msgNotifyTimer.ready then
        some ((s.setCtx { s.ctx with msgNotifyTimer := s.ctx.msgNotifyTimer.complete () } s.history).setPc .loop)
      else none
  | .serviceNotified =>
      match s.pc with
      | .waitService msg =>
          if s.Ready ∧ () ∈ s.ctx.serviceNotifyTimer.ready then
            some ((s.setCtx { s.ctx with serviceNotifyTimer := s.ctx.serviceNotifyTimer.complete () }
              s.history).finish msg)
          else none
      | _ => none
  | .replied => if s.Ready ∧ s.pc = .write then some (s.setPc .loop) else none
  | .accept =>
      if s.Ready then some { s with
        nconn := s.nconn + 1
        tcpOpen := Function.update s.tcpOpen s.nconn true
        session := Function.update s.session s.nconn true }
      else none
  | .remote k serviceName pack =>
      if s.Ready ∧ s.session k = true then
        some { s.push ⟨serviceName, [], pack, some k, false⟩ with
          session := Function.update s.session k (s.tcpOpen k) }
      else none
  | .remoteError k =>
      if s.Ready ∧ s.session k = true then
        some { s.closeTcp (some k) with session := Function.update s.session k false }
      else none
  | .request p => if s.Ready ∧ s.internal = true then some (s.onRequest p) else none
  | .response p => if s.Ready ∧ s.internal = true then some (s.onResponse p) else none
  | .other _ => if s.Ready ∧ s.internal = true then some { s with internal := s.unixOpen } else none
  | .internalError => if s.Ready ∧ s.internal = true then some { s with internal := false } else none
  | .send j serviceName pack =>
      if s.Serving ∧ j < s.history.ninv then some (s.onSend cfg j serviceName pack) else none
  | .respond j pack =>
      if s.Serving ∧ j < s.history.ninv then
        some { s with respPack := pack, history := s.history.produce j pack }
      else none
  | .complete j =>
      if s.Serving ∧ j < s.history.ninv then some (s.setCtx s.ctx.notifyComplete (s.history.complete j))
      else none
  | .wentOut i =>
      if s.fault = false ∧ i < s.nsend ∧ (s.sends i).pc = .write ∧ s.unixOpen = true then
        some { s with sends := Function.update s.sends i { s.sends i with written := true } }
      else none
  | .written i ec =>
      if s.Ready ∧ i < s.nsend ∧ (s.sends i).pc = .write ∧ (ec = 0 ↔ (s.sends i).written = true) then
        some (s.onWritten i ec)
      else none
  | .responded i =>
      if s.Ready ∧ i < s.nsend ∧ (s.sends i).pc = .wait ∧ i ∈ s.ctx.responseNotifyTimer.ready then
        some (s.onResponded i)
      else none

def machine (cfg : Setting) : Machine Sys Label := ⟨Sys.init cfg, Sys.step cfg⟩

end CoroActor.Worker
