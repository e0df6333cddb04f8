import CoroActor.Protocol
import CoroActor.Library.Decimal
import CoroActor.Library.Timer

/-! `coro_actor_ctx`: the state that the coroutines of an actor process share, and its member functions
up to their suspension points. -/

namespace CoroActor.Worker

/-- An accepted TCP connection, and its socket. -/
abbrev TcpConn := Nat

/-- `coro_actor_msg_t`. A null `socket` is `none`; there is one unix socket, the link to the proxy, and
`unixSocket` says whether the message points to it. -/
structure CoroActorMsg where
  serviceName : StdString
  callId : StdString
  pack : CoroActorPack
  socket : Option TcpConn
  unixSocket : Bool
  deriving DecidableEq

/-- The timers wait for the only coroutine `handle_message`, or for the calls of `send`, which are
numbered. -/
structure CoroActorCtx where
  pid : Pid
  seq : UInt32
  errorMsg : StdString
  callId : StdString
  msgQueue : List CoroActorMsg
  msgNotifyTimer : Timer Unit
  serviceNotifyTimer : Timer Unit
  responseNotifyTimer : Timer Nat
  currRespPack : CoroActorResponse
  isWaiting : Bool

/-- `std::to_string`. The minus sign is 45. -/
def toStdString (n : Int) : StdString := Decimal.signed 45 n

namespace CoroActorCtx

variable (c : CoroActorCtx)

def setCallId (callId : StdString) : CoroActorCtx := { c with callId := callId }

def setErrorMsg (msg : StdString) : CoroActorCtx := { c with errorMsg := msg }

/-- `std::to_string(pid_) + "-" + std::to_string(++seq_)`. The counter wraps around. -/
def nextCallId : StdString := toStdString c.pid ++ ascii "-" ++ toStdString (c.seq + 1).toNat

/-- The part of `send` that makes sure of a call id. -/
def openCall : CoroActorCtx :=
  if c.callId = [] then { c with seq := c.seq + 1, callId := c.nextCallId } else c

def pushMsg (msg : CoroActorMsg) : CoroActorCtx :=
  let c := { c with msgQueue := c.msgQueue ++ [msg] }
  if c.msgQueue.length = 1 then { c with msgNotifyTimer := c.msgNotifyTimer.cancelOne } else c

def notifyComplete : CoroActorCtx :=
  { c with
    isWaiting := false
    callId := []
    serviceNotifyTimer := c.serviceNotifyTimer.cancelOne }

def setResponsePack (p : CoroActorResponse) : CoroActorCtx :=
  { c with
    currRespPack := p
    responseNotifyTimer := c.responseNotifyTimer.cancelOne }

/-- `std::move(curr_resp_pack_.response_pack)`: the string that was moved from is empty. -/
def takeResponsePack : CoroActorCtx :=
  let p := c.currRespPack
  { c with currRespPack := { p with responsePack := { p.responsePack with value := [] } } }

theorem nextCallId_ne_nil : c.nextCallId ≠ [] := by
  have hdash : ascii "-" = [45] := by decide
  simp [nextCallId, hdash]

theorem openCall_callId : c.openCall.callId = if c.callId = [] then c.nextCallId else c.callId := by
  unfold openCall
  split <;> rfl

theorem openCall_eq : c.openCall = { c with seq := c.openCall.seq, callId := c.openCall.callId } := by
  unfold openCall
  split <;> rfl

/-- A push changes the queue, and wakes `handle_message` when the queue was empty. -/
theorem pushMsg_eq (msg : CoroActorMsg) : c.pushMsg msg =
    { c with
      msgQueue := c.msgQueue ++ [msg]
      msgNotifyTimer := if c.msgQueue = [] then c.msgNotifyTimer.cancelOne else c.msgNotifyTimer } := by
  have hlen : (c.msgQueue ++ [msg]).length = 1 ↔ c.msgQueue = [] := by simp
  simp only [pushMsg, hlen]
  split <;> rfl

end CoroActorCtx

end CoroActor.Worker
