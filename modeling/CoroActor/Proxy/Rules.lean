import CoroActor.Proxy.Coroutine

/-! What the proxy may rely on in the actor processes, read off `coro_actor_ctx::send`,
`coro_actor_ctx::handle_message` and `handle_actor_notify_proxy`: services run one after the other, each
suspended in `send` until a RESPONSE arrives. -/

namespace CoroActor.Proxy

open TransitionSystem

namespace Sys

variable (cfg : Setting) (s : Sys) (k : Conn)

/-- Every REQUEST read from the connection has been answered, and the answer has gone out whole: the
process behind it is not suspended in `send`. -/
def Idle : Prop :=
  ∀ n < s.history.nreq, s.history.conn n = k →
    s.history.returned n = true ∧ ∃ r ∈ s.history.replies n, (s.proxy.actors r).socket = k

/-- The first REQUEST with this `call_id` came from the connection. -/
def Opened (callId : StdString) : Prop :=
  ∃ n < s.history.nreq, (s.history.pack n).callId = callId ∧ s.history.conn n = k ∧
    ∀ m < n, (s.history.pack m).callId ≠ callId

/-- No REQUEST has carried this `call_id`. -/
def Fresh (callId : StdString) : Prop := ∀ n < s.history.nreq, (s.history.pack n).callId ≠ callId

/-- A REQUEST with this `call_id` was delivered to the process behind the connection, and it has not
answered it yet. -/
def Serves (callId : StdString) : Prop :=
  ∃ n < s.history.nreq, s.Answers k callId n ∧ s.history.delivered n = true

instance : Decidable (s.Idle k) := inferInstanceAs (Decidable (∀ n < s.history.nreq, _ → _))
instance (c : StdString) : Decidable (s.Opened k c) := inferInstanceAs (Decidable (∃ n < s.history.nreq, _))
instance (c : StdString) : Decidable (s.Fresh c) := inferInstanceAs (Decidable (∀ n < s.history.nreq, _))
instance (c : StdString) : Decidable (s.Serves k c) := inferInstanceAs (Decidable (∃ n < s.history.nreq, _))

/-- CONNECT comes once on a connection, with a pid that no other running process has. -/
def ConnectRule (p : CoroActorConnect) : Prop :=
  ∀ r < s.proxy.nactors, (s.proxy.actors r).socket ≠ k ∧
    ((s.proxy.actors r).pid = p.pid → s.pc (s.proxy.actors r).socket = .done)

/-- A REQUEST carries the pid of its sender and some `call_id`, and asks for a service of another group
(`send` refuses the services of its own process). Its sender awaits no other answer. -/
def RequestRule (p : CoroActorRequest) : Prop :=
  (∃ r < s.proxy.nactors, (s.proxy.actors r).socket = k ∧ (s.proxy.actors r).pid = p.pid ∧
    cfg.serviceMap p.serviceName ≠ some (s.proxy.actors r).name) ∧
  s.Idle k ∧ p.callId ≠ []

/-- A RESPONSE answers a REQUEST that was delivered to its sender and not answered before. -/
def ResponseRule (p : CoroActorResponse) : Prop := s.Idle k ∧ s.Serves k p.callId

instance (p : CoroActorConnect) : Decidable (s.ConnectRule k p) :=
  inferInstanceAs (Decidable (∀ r < s.proxy.nactors, _ ∧ (_ → _)))

instance (p : CoroActorRequest) : Decidable (s.RequestRule cfg k p) :=
  inferInstanceAs (Decidable ((∃ r < s.proxy.nactors, _) ∧ _ ∧ _))

instance (p : CoroActorResponse) : Decidable (s.ResponseRule k p) :=
  inferInstanceAs (Decidable (_ ∧ _))

end Sys

/-- The step is one that well-behaved actor processes allow. -/
def Rule (cfg : Setting) (s : Sys) : Label → Prop
  | .read k (.connect p) => s.ConnectRule k p
  | .read k (.request p) => s.RequestRule cfg k p
  | .read k (.response p) => s.ResponseRule k p
  | _ => True

instance (cfg : Setting) (s : Sys) : (l : Label) → Decidable (Rule cfg s l)
  | .read k (.connect p) => inferInstanceAs (Decidable (s.ConnectRule k p))
  | .read k (.request p) => inferInstanceAs (Decidable (s.RequestRule cfg k p))
  | .read k (.response p) => inferInstanceAs (Decidable (s.ResponseRule k p))
  | .read _ (.other _) | .accept | .readError _ | .transfer .. | .resume .. | .run _ =>
      inferInstanceAs (Decidable True)

/-- A REQUEST that opens a call has a `call_id` that no REQUEST had before. It opens one when its `call_id` is
neither that of a call that its sender opened nor that of a REQUEST that its sender serves. The processes do
not see to this: an id is made of a pid and a number, and pids are used again. -/
def OpensFresh (s : Sys) : Label → Prop
  | .read k (.request p) => s.Fresh p.callId ∨ s.Opened k p.callId ∨ s.Serves k p.callId
  | _ => True

instance (s : Sys) : (l : Label) → Decidable (OpensFresh s l)
  | .read _ (.request _) => inferInstanceAs (Decidable (_ ∨ _ ∨ _))
  | .read _ (.connect _) | .read _ (.response _) | .read _ (.other _) | .accept | .readError _ | .transfer ..
  | .resume .. | .run _ => inferInstanceAs (Decidable True)

/-- The step is one that well-behaved actor processes allow, and it opens no call under an old `call_id`. -/
def Lawful (cfg : Setting) (s : Sys) (l : Label) : Prop := Rule cfg s l ∧ OpensFresh s l

instance (cfg : Setting) (s : Sys) (l : Label) : Decidable (Lawful cfg s l) := inferInstanceAs (Decidable (_ ∧ _))

/-! ### What a step is about to do

Conditions on runs are stated with these. -/

/-- The REQUEST at whose write the coroutine is suspended, and its callee. -/
def Pc.requesting : Pc → Option (Queued × Ref)
  | .request q select _ => some (q, select)
  | _ => none

/-- A request that is about to be taken from the front of the queue of `af`. -/
structure Taken where
  af : Ref
  q : Queued
  rest : List Queued

namespace Sys

variable (cfg : Setting) (s : Sys) (k : Conn)

/-- What the next call of `handle_proxy_handle_request` by the coroutine of `k` takes. -/
def taken : Option Taken :=
  match s.pc k with
  | .handle af _ =>
      match (s.proxy.actors af).msgQueue with
      | q :: rest => if (s.proxy.actors af).isWaiting then none else some ⟨af, q, rest⟩
      | [] => none
  | _ => none

/-- Where a request that is taken goes. -/
def destination (x : Taken) : Except Refusal Ref :=
  (s.proxy.setMsgQueue x.af x.rest).route cfg.serviceMap x.q.pack

/-- The actor at the back of the chain, whose flag the coroutine of `k` is about to clear. -/
def waking : Option Ref :=
  match s.pc k with
  | .wake callId => (s.proxy.chain callId).getLast?
  | _ => none

/-- `actor_pid_map[pid]` is a registered actor. -/
def Registered (pid : Pid) : Prop :=
  ∃ af < s.proxy.nactors, s.proxy.actorPidMap pid = some af ∧ (s.proxy.actors af).pid = pid

/-- What the next step dereferences without a check is there: the actor that `actor_pid_map` finds for the
pid of a REQUEST, when it is read, when it is dispatched and when its write has failed; the two actors at
the back of a chain that a RESPONSE is handled with; and the last actor of a chain that is looked at after a
suspension. -/
def Accesses : Label → Prop
  | .read _ (.request p) => s.Registered p.pid
  | .read _ (.response p) =>
      2 ≤ (s.proxy.chain p.callId).length ∧ ∀ r ∈ s.proxy.chain p.callId, r < s.proxy.nactors
  | .run k => (∀ x ∈ s.taken k, (s.destination cfg x).isOk = true → s.Registered x.q.pack.pid) ∧
      ∀ callId, s.pc k = .wake callId → s.proxy.chain callId ≠ []
  | .resume k ec => ec = true → ∀ x ∈ (s.pc k).requesting, s.Registered x.1.pack.pid
  | _ => True

/-- No coroutine is in the middle of handling a frame. -/
def Quiescent : Prop := ∀ k < s.nconn, s.pc k = .read ∨ s.pc k = .done

instance : Decidable s.Quiescent := inferInstanceAs (Decidable (∀ k < s.nconn, _ ∨ _))

end Sys

/-- The coroutine is suspended at the write of a REQUEST. -/
def Pc.requests : Pc → Bool
  | .request .. => true
  | _ => false

/-! ### A configuration to run

Three groups, one service each, and a serialization that lists the fields. The concrete runs of the
development use it. -/

namespace Sample

def serviceMap (name : StdString) : Option StdString :=
  if name = ascii "svc_a" then some (ascii "a")
  else if name = ascii "svc_b" then some (ascii "b")
  else if name = ascii "svc_d" then some (ascii "d")
  else none

def setting : Setting where
  serialize :=
    { connect := fun p => p.name
      connack := fun p => [if p.result then 1 else 0]
      request := fun p => p.callId ++ p.serviceName ++ p.requestPack.value
      response := fun p => p.callId ++ p.serviceName ++ p.responsePack.value }
  serviceMap := serviceMap

/-- The write of the coroutine of `k` goes out and completes. -/
def sent (k : Conn) : List Label := [.transfer k 1000, .resume k false]

/-- A process connects as number `k` and registers. -/
def join (k : Conn) (pid : Pid) (name : String) : List Label :=
  [.accept, .read k (.connect ⟨pid, ascii name⟩)] ++ sent k

def request (k : Conn) (pid : Pid) (callId service : String) : Label :=
  .read k (.request ⟨pid, ascii callId, ascii service, ⟨0, []⟩⟩)

def response (k : Conn) (pid : Pid) (callId service : String) : Label :=
  .read k (.response ⟨pid, ascii callId, ascii service, ⟨0, []⟩⟩)

/-- The REQUEST of 0 is dispatched to 1 while 1 waits for a RESPONSE, and again when that has come. -/
def dispatchedTwice : List Label :=
  join 0 10 "a" ++ join 1 11 "b" ++ join 2 12 "d" ++ [request 1 11 "11-1" "svc_d", .run 1] ++ sent 1 ++
    [request 0 10 "10-1" "svc_b", .run 0, response 2 12 "11-1" "svc_d"] ++ sent 2 ++ [.run 2, .run 2, .run 2] ++
    sent 2

end Sample

end CoroActor.Proxy
