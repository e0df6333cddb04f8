import CoroActor.Protocol
import Mathlib.Logic.Function.Basic

/-! The data of the proxy process: the `actor_info` objects, its three maps and the operations that the
coroutines perform on them. A `std::shared_ptr<actor_info>` is the number of the object; a connection is
the number of the accepted socket. -/

namespace CoroActor.Proxy

/-- The address of an `actor_info`. -/
abbrev Ref := Nat

/-- An accepted connection, and its socket. -/
abbrev Conn := Nat

/-- A request in a `msg_queue`. The serial number counts the REQUESTs in the order in which the proxy
read them; it is not in the source and only lets statements speak of one request. -/
structure Queued where
  serial : Nat
  pack : CoroActorRequest
  deriving DecidableEq

structure ActorInfo where
  name : StdString
  pid : Pid
  isWaiting : Bool
  callId : StdString
  msgQueue : List Queued
  socket : Conn

/-- The members of `coro_actor` that the proxy works on. The objects `0, …, nactors - 1` have been
allocated. An absent key and a null pointer of `actor_pid_map` are both `none`, and a name without a list in
`actor_info_map` has the empty list: `operator[]` does not distinguish them. `contains` is asked of
`actor_call_chain_map`, so that map keeps absent keys apart. -/
structure Registry where
  nactors : Nat
  actors : Ref → ActorInfo
  isOpen : Conn → Bool
  actorInfoMap : StdString → List Ref
  actorPidMap : Pid → Option Ref
  actorCallChainMap : StdString → Option (List Ref)

namespace Registry

variable (σ : Registry) (af r : Ref) (c d : StdString) (w : Bool) (q : Queued) (l : List Queued)

/-- `update_actor_info`. -/
def updateActorInfo : Registry :=
  { σ with actors := Function.update σ.actors af { σ.actors af with callId := c, isWaiting := w } }

def setMsgQueue : Registry :=
  { σ with actors := Function.update σ.actors af { σ.actors af with msgQueue := l } }

/-- `msg_queue.emplace`. -/
def emplace : Registry := σ.setMsgQueue af ((σ.actors af).msgQueue ++ [q])

/-- `actor_call_chain_map[call_id]`. -/
def chain : List Ref := (σ.actorCallChainMap c).getD []

def setChain (L : List Ref) : Registry :=
  { σ with actorCallChainMap := Function.update σ.actorCallChainMap c (some L) }

section Simp

theorem updateActorInfo_actors : (σ.updateActorInfo af c w).actors r =
    if r = af then { σ.actors r with callId := c, isWaiting := w } else σ.actors r := by
  simp only [updateActorInfo, Function.update_apply]
  split
  · next h => rw [h]
  · rfl

theorem setMsgQueue_actors : (σ.setMsgQueue af l).actors r =
    if r = af then { σ.actors r with msgQueue := l } else σ.actors r := by
  simp only [setMsgQueue, Function.update_apply]
  split
  · next h => rw [h]
  · rfl

@[simp] theorem updateActorInfo_nactors : (σ.updateActorInfo af c w).nactors = σ.nactors := rfl
@[simp] theorem updateActorInfo_isOpen : (σ.updateActorInfo af c w).isOpen = σ.isOpen := rfl
@[simp] theorem updateActorInfo_infoMap :
    (σ.updateActorInfo af c w).actorInfoMap = σ.actorInfoMap := rfl
@[simp] theorem updateActorInfo_pidMap : (σ.updateActorInfo af c w).actorPidMap = σ.actorPidMap := rfl
@[simp] theorem updateActorInfo_chainMap :
    (σ.updateActorInfo af c w).actorCallChainMap = σ.actorCallChainMap := rfl
@[simp] theorem updateActorInfo_chain : (σ.updateActorInfo af c w).chain d = σ.chain d := rfl

@[simp] theorem updateActorInfo_name :
    ((σ.updateActorInfo af c w).actors r).name = (σ.actors r).name := by
  rw [updateActorInfo_actors]
  split <;> rfl

@[simp] theorem updateActorInfo_pid : ((σ.updateActorInfo af c w).actors r).pid = (σ.actors r).pid := by
  rw [updateActorInfo_actors]
  split <;> rfl

@[simp] theorem updateActorInfo_socket :
    ((σ.updateActorInfo af c w).actors r).socket = (σ.actors r).socket := by
  rw [updateActorInfo_actors]
  split <;> rfl

@[simp] theorem updateActorInfo_msgQueue :
    ((σ.updateActorInfo af c w).actors r).msgQueue = (σ.actors r).msgQueue := by
  rw [updateActorInfo_actors]
  split <;> rfl

theorem updateActorInfo_isWaiting :
    ((σ.updateActorInfo af c w).actors r).isWaiting = if r = af then w else (σ.actors r).isWaiting := by
  rw [updateActorInfo_actors]
  split <;> rfl

theorem updateActorInfo_callId :
    ((σ.updateActorInfo af c w).actors r).callId = if r = af then c else (σ.actors r).callId := by
  rw [updateActorInfo_actors]
  split <;> rfl

@[simp] theorem setMsgQueue_nactors : (σ.setMsgQueue af l).nactors = σ.nactors := rfl
@[simp] theorem setMsgQueue_isOpen : (σ.setMsgQueue af l).isOpen = σ.isOpen := rfl
@[simp] theorem setMsgQueue_infoMap : (σ.setMsgQueue af l).actorInfoMap = σ.actorInfoMap := rfl
@[simp] theorem setMsgQueue_pidMap : (σ.setMsgQueue af l).actorPidMap = σ.actorPidMap := rfl
@[simp] theorem setMsgQueue_chainMap :
    (σ.setMsgQueue af l).actorCallChainMap = σ.actorCallChainMap := rfl
@[simp] theorem setMsgQueue_chain : (σ.setMsgQueue af l).chain d = σ.chain d := rfl

@[simp] theorem setMsgQueue_name : ((σ.setMsgQueue af l).actors r).name = (σ.actors r).name := by
  rw [setMsgQueue_actors]
  split <;> rfl

@[simp] theorem setMsgQueue_pid : ((σ.setMsgQueue af l).actors r).pid = (σ.actors r).pid := by
  rw [setMsgQueue_actors]
  split <;> rfl

@[simp] theorem setMsgQueue_socket :
    ((σ.setMsgQueue af l).actors r).socket = (σ.actors r).socket := by
  rw [setMsgQueue_actors]
  split <;> rfl

@[simp] theorem setMsgQueue_isWaiting :
    ((σ.setMsgQueue af l).actors r).isWaiting = (σ.actors r).isWaiting := by
  rw [setMsgQueue_actors]
  split <;> rfl

@[simp] theorem setMsgQueue_callId :
    ((σ.setMsgQueue af l).actors r).callId = (σ.actors r).callId := by
  rw [setMsgQueue_actors]
  split <;> rfl

theorem setMsgQueue_msgQueue :
    ((σ.setMsgQueue af l).actors r).msgQueue = if r = af then l else (σ.actors r).msgQueue := by
  rw [setMsgQueue_actors]
  split <;> rfl

variable (L : List Ref)

@[simp] theorem setChain_nactors : (σ.setChain c L).nactors = σ.nactors := rfl
@[simp] theorem setChain_actors : (σ.setChain c L).actors = σ.actors := rfl
@[simp] theorem setChain_isOpen : (σ.setChain c L).isOpen = σ.isOpen := rfl
@[simp] theorem setChain_infoMap : (σ.setChain c L).actorInfoMap = σ.actorInfoMap := rfl
@[simp] theorem setChain_pidMap : (σ.setChain c L).actorPidMap = σ.actorPidMap := rfl

theorem setChain_chainMap :
    (σ.setChain c L).actorCallChainMap d = if d = c then some L else σ.actorCallChainMap d := by
  simp only [setChain, Function.update_apply]

/-- The first REQUEST of a call opens its chain, which says nothing about the actors. -/
@[simp] theorem ite_setChain_actors (P : Prop) [Decidable P] :
    (if P then σ.setChain c L else σ).actors = σ.actors := by
  split <;> rfl

end Simp

end Registry

end CoroActor.Proxy
