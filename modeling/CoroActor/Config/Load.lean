import CoroActor.Protocol
import Mathlib.Data.Finset.Insert
import Mathlib.Logic.Function.Basic

/-! `coro_actor_config::load` on a parsed configuration. What the YAML library does is taken from the parsed
file: a key is not defined, or its value cannot be converted, or it has a value. -/

namespace CoroActor.Config

/-- A node under a key, as the type that it is converted to. -/
inductive Field (α : Type) where
  | undefined
  | inconvertible
  | value (a : α)
  deriving DecidableEq

def Field.isDefined {α : Type} : Field α → Bool
  | .undefined => false
  | .inconvertible | .value _ => true

/-- An entry of `actor_config`. -/
structure ActorDetail where
  actorName : Field StdString
  actorCount : Field Nat
  actorModule : Field StdString
  actorService : Field StdString
  actorAddress : Field StdString
  actorPort : Field Nat

structure Root where
  daemon : Field Bool
  unix : Field StdString
  pid : Field StdString
  actorConfig : List ActorDetail

/-- The `services` of a service file, or `none` if the file cannot be loaded. -/
abbrev Files := StdString → Option (List (Field StdString))

/-- `actor_config`. Without an address the port is not initialised; 0 stands for that. -/
structure ActorConfig where
  name : StdString
  count : Nat
  lib : StdString
  address : StdString
  port : Nat
  services : Finset StdString
  deriving DecidableEq

/-- `coro_actor_config`. -/
structure CoroActorConfig where
  daemon : Bool
  unix : StdString
  pidFile : StdString
  serviceMap : StdString → Option StdString
  actorConfigMap : StdString → Option ActorConfig

/-- The constructor. -/
def CoroActorConfig.fresh : CoroActorConfig where
  daemon := false
  unix := []
  pidFile := ascii "/run/coro_actor.pid"
  serviceMap := fun _ => none
  actorConfigMap := fun _ => none

/-- The object and the two sets of `load`. -/
structure Loading where
  config : CoroActorConfig
  checkActorName : Finset StdString
  checkService : Finset StdString

/-- An exception of the YAML library, or one that `load` throws itself. -/
inductive Error where
  | yaml
  | runtimeError (what : StdString)
  deriving DecidableEq

/-- What was loaded before the exception stays. -/
abbrev Load (α : Type) := Except (Error × Loading) α

/-- `as<T>()`. -/
def Field.as {α : Type} (s : Loading) : Field α → Load α
  | .value a => .ok a
  | .undefined | .inconvertible => .error (.yaml, s)

/-- The check of a mandatory key. -/
def mustBeSet {α : Type} (s : Loading) (key : String) (f : Field α) : Load Unit :=
  if f.isDefined then .ok () else .error (.runtimeError (ascii "'" ++ ascii key ++ ascii "' must be set"), s)

/-- A service of the service file. -/
def loadService (r : Loading × ActorConfig) (service : Field StdString) : Load (Loading × ActorConfig) := do
  let (s, cfg) := r
  let serviceName ← service.as s
  if serviceName ∈ s.checkService then
    .error (.runtimeError (ascii "Cannot set the same 'service_name' : [" ++ serviceName ++ ascii "]"), s)
  else
    .ok ({ s with
        checkService := insert serviceName s.checkService
        config := { s.config with serviceMap := Function.update s.config.serviceMap serviceName (some cfg.name) } },
      { cfg with services := insert serviceName cfg.services })

/-- `YAML::LoadFile` on the service file. -/
def loadFile (files : Files) (s : Loading) (file : StdString) : Load (List (Field StdString)) :=
  match files file with
  | none => .error (.yaml, s)
  | some services => .ok services

/-- `std::unordered_map::emplace`: a key that is there already keeps its value. -/
def emplace (map : StdString → Option ActorConfig) (key : StdString) (cfg : ActorConfig) :
    StdString → Option ActorConfig :=
  if map key = none then Function.update map key (some cfg) else map

/-- The address and the port are converted when both are given. -/
def loadEndpoint (s : Loading) (d : ActorDetail) : Load (StdString × Nat) :=
  if d.actorAddress.isDefined && d.actorPort.isDefined then do
    let address ← d.actorAddress.as s
    let port ← d.actorPort.as s
    .ok (address, port)
  else .ok ([], 0)

/-- A round of the loop over the entries. -/
def loadActor (files : Files) (s : Loading) (d : ActorDetail) : Load Loading := do
  mustBeSet s "actor_name" d.actorName
  mustBeSet s "actor_count" d.actorCount
  mustBeSet s "actor_module" d.actorModule
  mustBeSet s "actor_service" d.actorService
  let name ← d.actorName.as s
  let count ← d.actorCount.as s
  let lib ← d.actorModule.as s
  let (address, port) ← loadEndpoint s d
  if name ∈ s.checkActorName then
    .error (.runtimeError (ascii "Cannot set the same 'actor_name' : [" ++ name ++ ascii "]"), s)
  else
    let s := { s with checkActorName := insert name s.checkActorName }
    let file ← d.actorService.as s
    let services ← loadFile files s file
    let (s, cfg) ← services.foldlM loadService (s, ⟨name, count, lib, address, port, ∅⟩)
    .ok { s with config := { s.config with actorConfigMap := emplace s.config.actorConfigMap cfg.name cfg } }

/-- A member keeps its value when the key is not defined. -/
def Field.asOr {α : Type} (s : Loading) (f : Field α) (a : α) : Load α :=
  if f.isDefined then f.as s else .ok a

def loadRoot (files : Files) (c : CoroActorConfig) (root : Root) : Load Loading := do
  let s : Loading := ⟨c, ∅, ∅⟩
  let daemon ← root.daemon.asOr s s.config.daemon
  let s := { s with config := { s.config with daemon := daemon } }
  let unix ← root.unix.as s
  let s := { s with config := { s.config with unix := unix } }
  let pidFile ← root.pid.asOr s s.config.pidFile
  let s := { s with config := { s.config with pidFile := pidFile } }
  root.actorConfig.foldlM (loadActor files) s

/-- The result, and the object that is left behind. -/
def load (files : Files) (c : CoroActorConfig) (root : Root) : Bool × CoroActorConfig :=
  match loadRoot files c root with
  | .ok s => (true, s.config)
  | .error (_, s) => (false, s.config)

end CoroActor.Config
