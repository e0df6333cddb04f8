import CoroActor.Library.TransitionSystem
import CoroActor.Protocol
import Mathlib.Data.List.Nodup

/-! The master process and its children: the slots for the proxy and for the actor processes, the start, and
the handlers of SIGCHLD and of SIGTERM and SIGINT. A handler is one step. What the kernel answers to its calls
of `waitpid` and `fork` comes with the step, and must be possible: `waitpid` returns a child that has exited,
and `fork` returns a pid that no child has that the kernel still knows.

`log` records the forks, the answers of `waitpid` and the signals sent. No step reads it. -/

namespace CoroActor.Master

open TransitionSystem

/-- `coro_actor::PTYPE`. -/
inductive Ptype where
  | master
  | worker
  | proxier
  deriving DecidableEq

structure ProxyProcess where
  pid : Pid
  exited : Bool
  deriving DecidableEq

structure ActorProcess where
  pid : Pid
  exited : Bool
  name : StdString
  deriving DecidableEq

/-- The proxy, or an index of `actor_processes`. -/
abbrev Slot := Option Nat

/-- A child, with the members `type` and `actor_name` of its own copy of `coro_actor`. -/
structure Child where
  slot : Slot
  pid : Pid
  type : Ptype
  actorName : StdString
  deriving DecidableEq

/-- What `waitpid` returns: a pid, 0, or -1 because of a signal, or because there are no children. -/
inductive Waited where
  | child (pid : Pid)
  | none
  | interrupted
  | noChild

inductive Event where
  | forked (slot : Slot) (pid : Pid)
  | waited (pid : Pid)
  | killed (pid : Pid)
  deriving DecidableEq

/-- The master and its children. The zombies have exited and `waitpid` has not returned them. -/
structure Sys where
  type : Ptype
  terminate : Bool
  running : Bool
  proxy : ProxyProcess
  actorProcesses : List ActorProcess
  alive : List Child
  zombies : List Child
  log : List Event

/-- What `fork` returns, call by call: a pid, or `none` for -1. -/
abbrev Forks := List (Option Pid)

namespace Sys

variable (s : Sys)

/-- The master at the end of `init`: a slot for each actor process that the configuration asks for. -/
def init (names : List StdString) : Sys where
  type := .master
  terminate := false
  running := false
  proxy := ⟨-1, true⟩
  actorProcesses := names.map fun name => ⟨-1, true, name⟩
  alive := []
  zombies := []
  log := []

/-- The pids of the children that the kernel knows. -/
def pids : List Pid := (s.alive ++ s.zombies).map Child.pid

/-- `fork` succeeds in the parent. -/
def addChild (c : Child) : Sys :=
  { s with
    alive := s.alive ++ [c]
    log := s.log ++ [.forked c.slot c.pid] }

/-- The child of the proxy keeps the `type` and the `actor_name` of its parent. -/
def initProxyProcess : Forks → Option (Sys × Forks)
  | [] => none
  | none :: forks => some (s, forks)
  | some pid :: forks =>
      if 0 < pid ∧ pid ∉ s.pids then
        some ({ s.addChild ⟨none, pid, s.type, []⟩ with proxy := { s.proxy with pid := pid } }, forks)
      else none

def reapProxyProcess (forks : Forks) : Option (Sys × Forks) :=
  if s.type ≠ .proxier then some (s, forks)
  else if s.proxy.pid ≠ -1 ∧ s.proxy.exited = true then s.initProxyProcess forks
  else some (s, forks)

def spawnActorProcess (actorName : StdString) (respawn : Nat) : Forks → Option (Sys × Forks)
  | [] => none
  | none :: forks => some (s, forks)
  | some pid :: forks =>
      if 0 < pid ∧ pid ∉ s.pids then
        some
          ({ s.addChild ⟨some respawn, pid, .worker, actorName⟩ with
            actorProcesses := s.actorProcesses.modify respawn fun p => { p with pid := pid, exited := false } },
          forks)
      else none

/-- The loop of `init_actor_processes`: each round looks for the first slot without a pid. -/
def initActorLoop (s : Sys) : Nat → Forks → Option (Sys × Forks)
  | 0, forks => some (s, forks)
  | n + 1, forks =>
      match s.actorProcesses.findIdx? fun p => p.pid = -1 with
      | none => some (s, forks)
      | some idx => do
          let p ← s.actorProcesses[idx]?
          let (t, rest) ← s.spawnActorProcess p.name idx forks
          initActorLoop t n rest

def initActorProcesses (forks : Forks) : Option (Sys × Forks) := s.initActorLoop s.actorProcesses.length forks

/-- The loop of `reap_actor_processes` over the slots from `idx` on. -/
def reapActorLoop (s : Sys) : (idx n : Nat) → Forks → Option (Sys × Forks)
  | _, 0, forks => some (s, forks)
  | idx, n + 1, forks => do
      let p ← s.actorProcesses[idx]?
      if p.pid ≠ -1 ∧ p.exited = true then
        let (t, rest) ← s.spawnActorProcess p.name idx forks
        reapActorLoop t (idx + 1) n rest
      else reapActorLoop s (idx + 1) n forks

def reapActorProcesses (forks : Forks) : Option (Sys × Forks) :=
  if s.type ≠ .worker then some (s, forks) else s.reapActorLoop 0 s.actorProcesses.length forks

/-- `waitpid` returns a child that has exited, and its slots are marked. -/
def markExited (pid : Pid) : Sys :=
  { s with
    proxy := if s.proxy.pid = pid then { s.proxy with exited := true } else s.proxy
    actorProcesses := s.actorProcesses.map fun p => if p.pid = pid then { p with exited := true } else p
    zombies := s.zombies.filter fun c => c.pid ≠ pid
    log := s.log ++ [.waited pid] }

def updateProcessesStatus (s : Sys) : List Waited → Option Sys
  | [] => none
  | .child pid :: waits =>
      if pid ∈ s.zombies.map Child.pid then (s.markExited pid).updateProcessesStatus waits else none
  | .interrupted :: waits => s.updateProcessesStatus waits
  | .none :: waits => if waits = [] ∧ s.zombies = [] ∧ s.alive ≠ [] then some s else none
  | .noChild :: waits => if waits = [] ∧ s.zombies = [] ∧ s.alive = [] then some s else none

/-- The SIGCHLD case of `signal_handler`. -/
def onSigchld (waits : List Waited) (forks : Forks) : Option (Sys × Forks) := do
  let t ← s.updateProcessesStatus waits
  if t.terminate = false then
    let (u, rest) ← t.reapProxyProcess forks
    u.reapActorProcesses rest
  else some (t, forks)

/-- `kill`. -/
def kill (pid : Pid) : Sys := { s with log := s.log ++ [.killed pid] }

def stopProxyProcess : Sys := if s.proxy.pid ≠ -1 then s.kill s.proxy.pid else s

def stopActorProcesses : Sys :=
  s.actorProcesses.foldl (fun t p => if p.pid = -1 then t else t.kill p.pid) s

/-- The SIGINT and SIGTERM case of `signal_handler`, with `stop_server`. -/
def onSigterm : Sys :=
  let t := if s.type = .master then s.stopProxyProcess.stopActorProcesses else s
  { t with terminate := true }

end Sys

/-- What happens next. A label carries all the answers of the kernel to the calls of its step. -/
inductive Label where
  | start (forks : Forks)
  | exit (pid : Pid)
  | sigchld (waits : List Waited) (forks : Forks)
  | sigterm

/-- The answers of `fork` in a step. -/
def Label.forks : Label → Forks
  | .start forks | .sigchld _ forks => forks
  | .exit _ | .sigterm => []

/-- All calls of `fork` in a step succeed. -/
def ForksSucceed (_ : Sys) (l : Label) : Prop := none ∉ l.forks

instance (s : Sys) (l : Label) : Decidable (ForksSucceed s l) := inferInstanceAs (Decidable (none ∉ l.forks))

/-- All answers were used. -/
def spent : Sys × Forks → Option Sys
  | (s, []) => some s
  | (_, _ :: _) => none

def Sys.step (s : Sys) : Label → Option Sys
  | .start forks =>
      if s.running = true then none
      else do
        let (t, rest) ← s.initProxyProcess forks
        let r ← t.initActorProcesses rest
        let u ← spent r
        some { u with running := true }
  | .exit pid =>
      if pid ∈ s.alive.map Child.pid then
        some { s with
          alive := s.alive.filter fun c => c.pid ≠ pid
          zombies := s.zombies ++ s.alive.filter fun c => c.pid = pid }
      else none
  | .sigchld waits forks => if s.running = true then (s.onSigchld waits forks).bind spent else none
  | .sigterm => if s.running = true then some s.onSigterm else none

def machine (names : List StdString) : Machine Sys Label := ⟨Sys.init names, Sys.step⟩

end CoroActor.Master
