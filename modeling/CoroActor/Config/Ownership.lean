import CoroActor.Config.Load
import Mathlib.Data.List.Forall2
import Mathlib.Data.Finset.Dedup
import Mathlib.Data.Finset.Lattice.Lemmas

/-! Which configurations `load` accepts, and what is in the two maps then: each actor under its name, and
each service with the one actor that offers it. -/

namespace CoroActor.Config

variable {files : Files} {s t : Loading} {d : ActorDetail}

theorem bind_eq_ok {α β : Type} {x : Load α} {f : α → Load β} {b : β} :
    x >>= f = .ok b ↔ ∃ a, x = .ok a ∧ f a = .ok b := by
  cases x with
  | error e =>
      refine iff_of_false (fun h => by cases h) ?_
      rintro ⟨a, ha, -⟩
      cases ha
  | ok a =>
      refine ⟨fun h => ⟨a, rfl, h⟩, ?_⟩
      rintro ⟨a', ha, h⟩
      cases ha
      exact h

theorem as_eq_ok {α : Type} {f : Field α} {a : α} : f.as s = .ok a ↔ f = .value a := by
  cases f <;> simp [Field.as]

theorem mustBeSet_eq_ok {α : Type} {key : String} {f : Field α} {u : Unit} :
    mustBeSet s key f = .ok u ↔ f.isDefined = true := by
  unfold mustBeSet
  split
  · next h => exact iff_of_true rfl h
  · next h => exact iff_of_false (fun h' => by cases h') h

theorem loadFile_eq_ok {file : StdString} {services : List (Field StdString)} :
    loadFile files s file = .ok services ↔ files file = some services := by
  unfold loadFile
  cases files file <;> simp

/-! ### The services of one entry -/

/-- The names are registered as services of the owner. -/
def Loading.addServices (s : Loading) (owner : StdString) (names : List StdString) : Loading :=
  { s with
    checkService := s.checkService ∪ names.toFinset
    config :=
      { s.config with
        serviceMap := fun n => if n ∈ names then some owner else s.config.serviceMap n } }

theorem Loading.addServices_nil (s : Loading) (owner : StdString) : s.addServices owner [] = s := by
  simp [addServices]

theorem Loading.addServices_cons (s : Loading) (owner n : StdString) (names : List StdString) :
    s.addServices owner (n :: names) = (s.addServices owner [n]).addServices owner names := by
  have hmap : (fun m => if m ∈ n :: names then some owner else s.config.serviceMap m) =
      fun m => if m ∈ names then some owner else if m ∈ [n] then some owner else s.config.serviceMap m := by
    funext m
    by_cases hm : m ∈ names <;> simp [hm]
  simp only [addServices, hmap, List.toFinset_cons, List.toFinset_nil, Finset.union_assoc]
  congr 2

/-- One more name in a set of services. -/
theorem insert_union_toFinset (services : Finset StdString) (n : StdString) (names : List StdString) :
    insert n services ∪ names.toFinset = services ∪ (n :: names).toFinset := by
  ext m
  simp

theorem loadService_eq_ok {cfg : ActorConfig} {service : Field StdString} {r : Loading × ActorConfig} :
    loadService (s, cfg) service = .ok r ↔ ∃ n, service = .value n ∧ n ∉ s.checkService ∧
      r = (s.addServices cfg.name [n], { cfg with services := insert n cfg.services }) := by
  have hadd : ∀ n, s.addServices cfg.name [n] =
      { s with
        checkService := insert n s.checkService
        config := { s.config with serviceMap := Function.update s.config.serviceMap n (some cfg.name) } } := by
    intro n
    have hset : s.checkService ∪ [n].toFinset = insert n s.checkService := by
      ext m
      simp
    have hmap : (fun m => if m ∈ [n] then some cfg.name else s.config.serviceMap m) =
        Function.update s.config.serviceMap n (some cfg.name) := by
      funext m
      simp [Function.update_apply]
    simp only [Loading.addServices, hset, hmap]
  simp only [loadService, bind_eq_ok, as_eq_ok]
  constructor
  · rintro ⟨n, rfl, h⟩
    split at h
    · cases h
    · next hn => exact ⟨n, rfl, hn, by rw [hadd]; exact (Except.ok.inj h).symm⟩
  · rintro ⟨n, rfl, hn, rfl⟩
    exact ⟨n, rfl, by rw [if_neg hn, hadd]⟩

/-- All names of a service file are new, and each is there once. -/
theorem loadServices_eq_ok {fields : List (Field StdString)} {cfg : ActorConfig} {r : Loading × ActorConfig} :
    fields.foldlM loadService (s, cfg) = .ok r ↔ ∃ names : List StdString, fields = names.map .value ∧
      names.Nodup ∧ (∀ n ∈ names, n ∉ s.checkService) ∧
      r = (s.addServices cfg.name names, { cfg with services := cfg.services ∪ names.toFinset }) := by
  induction fields generalizing s cfg with
  | nil =>
      simp only [List.foldlM_nil, pure, Except.pure]
      constructor
      · intro h
        exact ⟨[], rfl, List.nodup_nil, nofun, by simp [← Except.ok.inj h, Loading.addServices_nil]⟩
      · rintro ⟨names, hnames, -, -, rfl⟩
        obtain rfl := List.map_eq_nil_iff.mp hnames.symm
        simp [Loading.addServices_nil]
  | cons field fields ih =>
      rw [List.foldlM_cons, bind_eq_ok]
      constructor
      · rintro ⟨r', hr', h⟩
        obtain ⟨n, rfl, hn, rfl⟩ := loadService_eq_ok.mp hr'
        obtain ⟨names, rfl, hnodup, hnew, rfl⟩ := ih.mp h
        have hfresh : ∀ m ∈ names, m ∉ s.checkService ∧ m ≠ n := by
          intro m hm
          have hmem := hnew m hm
          simp only [Loading.addServices, List.toFinset_cons, List.toFinset_nil, Finset.mem_union,
            Finset.mem_insert, Finset.notMem_empty, or_false, not_or] at hmem
          exact hmem
        refine ⟨n :: names, rfl, List.nodup_cons.mpr ⟨fun hm => (hfresh n hm).2 rfl, hnodup⟩, ?_, ?_⟩
        · rintro m (_ | ⟨_, hm⟩)
          · exact hn
          · exact (hfresh m hm).1
        · rw [s.addServices_cons cfg.name n names, insert_union_toFinset]
      · rintro ⟨names, hnames, hnodup, hnew, rfl⟩
        obtain ⟨n, names, rfl, rfl, rfl⟩ := List.map_eq_cons_iff.mp hnames.symm
        obtain ⟨hn, hnodup⟩ := List.nodup_cons.mp hnodup
        refine ⟨_, loadService_eq_ok.mpr ⟨n, rfl, hnew n List.mem_cons_self, rfl⟩, ?_⟩
        refine ih.mpr ⟨names, rfl, hnodup, fun m hm hmem => ?_, ?_⟩
        · simp only [Loading.addServices, List.toFinset_cons, List.toFinset_nil, Finset.mem_union,
            Finset.mem_insert, Finset.notMem_empty, or_false] at hmem
          rcases hmem with hold | rfl
          · exact hnew m (List.mem_cons_of_mem n hm) hold
          · exact hn hm
        · rw [s.addServices_cons cfg.name n names, insert_union_toFinset]

/-! ### The entries -/

/-- What an entry with its service file says. -/
structure Entry where
  name : StdString
  count : Nat
  lib : StdString
  address : StdString
  port : Nat
  services : List StdString

def Entry.config (e : Entry) : ActorConfig := ⟨e.name, e.count, e.lib, e.address, e.port, e.services.toFinset⟩

/-- The address and the port count when both are given. -/
def ActorDetail.Endpoint (d : ActorDetail) (address : StdString) (port : Nat) : Prop :=
  if d.actorAddress.isDefined && d.actorPort.isDefined then
    d.actorAddress = .value address ∧ d.actorPort = .value port
  else address = [] ∧ port = 0

/-- The four mandatory keys have values, and the service file can be loaded. -/
structure Mandatory (files : Files) (d : ActorDetail) (e : Entry) : Prop where
  name : d.actorName = .value e.name
  count : d.actorCount = .value e.count
  lib : d.actorModule = .value e.lib
  services : ∃ file, d.actorService = .value file ∧ files file = some (e.services.map .value)

/-- Also the address and the port have values, when both are given. -/
structure Reads (files : Files) (d : ActorDetail) (e : Entry) : Prop extends Mandatory files d e where
  endpoint : d.Endpoint e.address e.port

/-- An entry that is new is entered in both maps. -/
def Loading.add (s : Loading) (e : Entry) : Loading :=
  let t := ({ s with checkActorName := insert e.name s.checkActorName } : Loading).addServices e.name e.services
  { t with config := { t.config with actorConfigMap := emplace t.config.actorConfigMap e.name e.config } }

theorem loadEndpoint_eq_ok {r : StdString × Nat} : loadEndpoint s d = .ok r ↔ d.Endpoint r.1 r.2 := by
  unfold loadEndpoint ActorDetail.Endpoint
  split
  · simp only [bind_eq_ok, as_eq_ok]
    constructor
    · rintro ⟨address, haddress, port, hport, h⟩
      rw [← Except.ok.inj h]
      exact ⟨haddress, hport⟩
    · rintro ⟨haddress, hport⟩
      exact ⟨r.1, haddress, r.2, hport, rfl⟩
  · constructor
    · intro h
      rw [← Except.ok.inj h]
      exact ⟨rfl, rfl⟩
    · rintro ⟨haddress, hport⟩
      rw [← haddress, ← hport]

theorem loadActor_eq_ok : loadActor files s d = .ok t ↔ ∃ e, Reads files d e ∧ e.name ∉ s.checkActorName ∧
    e.services.Nodup ∧ (∀ n ∈ e.services, n ∉ s.checkService) ∧ t = s.add e := by
  simp only [loadActor, bind_eq_ok, mustBeSet_eq_ok, as_eq_ok]
  constructor
  · rintro ⟨-, -, -, -, -, -, -, -, name, hname, count, hcount, lib, hlib, ⟨address, port⟩, hendpoint, h⟩
    dsimp only at h
    split at h
    · cases h
    · next hnew =>
        simp only [bind_eq_ok, as_eq_ok, loadFile_eq_ok] at h
        obtain ⟨file, hfile, fields, hfields, r, hr, h⟩ := h
        obtain ⟨names, rfl, hnodup, hfresh, rfl⟩ := loadServices_eq_ok.mp hr
        refine ⟨⟨name, count, lib, address, port, names⟩,
          ⟨⟨hname, hcount, hlib, ⟨file, hfile, hfields⟩⟩, loadEndpoint_eq_ok.mp hendpoint⟩,
          hnew, hnodup, hfresh, ?_⟩
        rw [← Except.ok.inj h]
        simp only [Loading.add, Entry.config, Finset.empty_union]
  · rintro ⟨e, ⟨⟨hname, hcount, hlib, ⟨file, hfile, hfields⟩⟩, hendpoint⟩, hnew, hnodup, hfresh, rfl⟩
    have hdefined : d.actorName.isDefined = true ∧ d.actorCount.isDefined = true ∧
        d.actorModule.isDefined = true ∧ d.actorService.isDefined = true := by
      rw [hname, hcount, hlib, hfile]
      exact ⟨rfl, rfl, rfl, rfl⟩
    obtain ⟨hdname, hdcount, hdlib, hdfile⟩ := hdefined
    refine ⟨(), hdname, (), hdcount, (), hdlib, (), hdfile, e.name, hname, e.count, hcount, e.lib, hlib,
      (e.address, e.port), loadEndpoint_eq_ok.mpr hendpoint, ?_⟩
    dsimp only
    rw [if_neg hnew]
    simp only [bind_eq_ok, as_eq_ok, loadFile_eq_ok]
    refine ⟨file, hfile, _, hfields, _, loadServices_eq_ok.mpr ⟨e.services, rfl, hnodup, hfresh, rfl⟩, ?_⟩
    simp only [Loading.add, Entry.config, Finset.empty_union]

/-- The names of the entries are new and differ from each other, and so are the names of their services. -/
structure Fresh (s : Loading) (es : List Entry) : Prop where
  names : (es.map Entry.name).Nodup
  newNames : ∀ e ∈ es, e.name ∉ s.checkActorName
  services : (es.flatMap Entry.services).Nodup
  newServices : ∀ n ∈ es.flatMap Entry.services, n ∉ s.checkService

theorem add_checkActorName (s : Loading) (e : Entry) :
    (s.add e).checkActorName = insert e.name s.checkActorName := rfl

theorem add_checkService (s : Loading) (e : Entry) :
    (s.add e).checkService = s.checkService ∪ e.services.toFinset := rfl

theorem fresh_cons {e : Entry} {es : List Entry} : Fresh s (e :: es) ↔
    (e.name ∉ s.checkActorName ∧ e.services.Nodup ∧ ∀ n ∈ e.services, n ∉ s.checkService) ∧
      Fresh (s.add e) es := by
  constructor
  · rintro ⟨hnames, hnewNames, hservices, hnewServices⟩
    obtain ⟨hname, hnames⟩ := List.nodup_cons.mp hnames
    rw [List.flatMap_cons] at hservices hnewServices
    obtain ⟨hown, hrest, hdisjoint⟩ := List.nodup_append.mp hservices
    refine ⟨⟨hnewNames e List.mem_cons_self, hown, fun n hn => hnewServices n (List.mem_append_left _ hn)⟩,
      hnames, fun e' he' => ?_, hrest, fun n hn => ?_⟩
    · rw [add_checkActorName, Finset.mem_insert, not_or]
      exact ⟨fun heq => hname (heq ▸ List.mem_map_of_mem he'), hnewNames e' (List.mem_cons_of_mem e he')⟩
    · rw [add_checkService, Finset.mem_union, List.mem_toFinset, not_or]
      exact ⟨hnewServices n (List.mem_append_right _ hn), fun hmem => hdisjoint n hmem n hn rfl⟩
  · rintro ⟨⟨hname, hown, hnew⟩, hnames, hnewNames, hservices, hnewServices⟩
    have hnewNames' : ∀ e' ∈ es, e'.name ≠ e.name ∧ e'.name ∉ s.checkActorName := by
      intro e' he'
      have h := hnewNames e' he'
      rwa [add_checkActorName, Finset.mem_insert, not_or] at h
    have hnewServices' : ∀ n ∈ es.flatMap Entry.services, n ∉ s.checkService ∧ n ∉ e.services := by
      intro n hn
      have h := hnewServices n hn
      rwa [add_checkService, Finset.mem_union, List.mem_toFinset, not_or] at h
    refine ⟨List.nodup_cons.mpr ⟨fun hmem => ?_, hnames⟩, ?_, ?_, ?_⟩
    · obtain ⟨e', he', heq⟩ := List.mem_map.mp hmem
      exact (hnewNames' e' he').1 heq
    · rintro e' (_ | ⟨_, he'⟩)
      · exact hname
      · exact (hnewNames' e' he').2
    · rw [List.flatMap_cons]
      refine List.nodup_append.mpr ⟨hown, hservices, fun n hn m hm heq => ?_⟩
      exact (hnewServices' m hm).2 (heq ▸ hn)
    · intro n hn
      rw [List.flatMap_cons] at hn
      rcases List.mem_append.mp hn with hn | hn
      · exact hnew n hn
      · exact (hnewServices' n hn).1

theorem loadActors_eq_ok {ds : List ActorDetail} : ds.foldlM (loadActor files) s = .ok t ↔
    ∃ es, List.Forall₂ (Reads files) ds es ∧ Fresh s es ∧ t = es.foldl Loading.add s := by
  induction ds generalizing s with
  | nil =>
      simp only [List.foldlM_nil, pure, Except.pure]
      constructor
      · intro h
        exact ⟨[], .nil, ⟨List.nodup_nil, nofun, List.nodup_nil, nofun⟩, (Except.ok.inj h).symm⟩
      · rintro ⟨es, hreads, -, rfl⟩
        cases hreads
        rfl
  | cons d ds ih =>
      rw [List.foldlM_cons, bind_eq_ok]
      constructor
      · rintro ⟨u, hu, h⟩
        obtain ⟨e, he, hname, hown, hnew, rfl⟩ := loadActor_eq_ok.mp hu
        obtain ⟨es, hreads, hfresh, rfl⟩ := ih.mp h
        exact ⟨e :: es, .cons he hreads, fresh_cons.mpr ⟨⟨hname, hown, hnew⟩, hfresh⟩, rfl⟩
      · rintro ⟨es, hreads, hfresh, rfl⟩
        cases hreads with
        | cons he hreads =>
            obtain ⟨⟨hname, hown, hnew⟩, hfresh⟩ := fresh_cons.mp hfresh
            exact ⟨_, loadActor_eq_ok.mpr ⟨_, he, hname, hown, hnew, rfl⟩, ih.mpr ⟨_, hreads, hfresh, rfl⟩⟩

/-! ### The maps -/

/-- Each actor is there under its name, and each service with the actor that lists it. -/
structure Owned (c : CoroActorConfig) (es : List Entry) : Prop where
  actors : ∀ a cfg, c.actorConfigMap a = some cfg ↔ ∃ e ∈ es, e.name = a ∧ e.config = cfg
  services : ∀ n a, c.serviceMap n = some a ↔ ∃ e ∈ es, e.name = a ∧ n ∈ e.services

/-- The service map is the inverse of the services of the actors. -/
theorem Owned.offers {c : CoroActorConfig} {es : List Entry} (h : Owned c es) (n a : StdString) :
    c.serviceMap n = some a ↔ ∃ cfg, c.actorConfigMap a = some cfg ∧ n ∈ cfg.services := by
  rw [h.services]
  constructor
  · rintro ⟨e, he, rfl, hn⟩
    exact ⟨e.config, (h.actors e.name e.config).mpr ⟨e, he, rfl, rfl⟩, List.mem_toFinset.mpr hn⟩
  · rintro ⟨cfg, hcfg, hn⟩
    obtain ⟨e, he, hname, rfl⟩ := (h.actors a cfg).mp hcfg
    exact ⟨e, he, hname, List.mem_toFinset.mp hn⟩

/-- The entries have been entered. -/
structure Entered (s : Loading) (es : List Entry) : Prop extends Owned s.config es where
  names : ∀ a, a ∈ s.checkActorName ↔ ∃ e ∈ es, e.name = a
  listed : ∀ n, n ∈ s.checkService ↔ ∃ e ∈ es, n ∈ e.services

theorem Entered.add {es : List Entry} {e : Entry} (h : Entered s es) (hname : e.name ∉ s.checkActorName)
    (hnew : ∀ n ∈ e.services, n ∉ s.checkService) : Entered (s.add e) (es ++ [e]) := by
  have hmem : ∀ {P : Entry → Prop}, (∃ e' ∈ es ++ [e], P e') ↔ (∃ e' ∈ es, P e') ∨ P e := by
    intro P
    simp only [List.mem_append, List.mem_singleton, or_and_right, exists_or, exists_eq_left]
  have hnone : s.config.actorConfigMap e.name = none := by
    rw [Option.eq_none_iff_forall_ne_some]
    intro cfg hcfg
    obtain ⟨e', he', heq, -⟩ := (h.actors e.name cfg).mp hcfg
    exact hname ((h.names e.name).mpr ⟨e', he', heq⟩)
  constructor
  · constructor
    · intro a cfg
      rw [hmem, ← h.actors]
      show emplace s.config.actorConfigMap e.name e.config a = some cfg ↔ _
      rw [emplace, if_pos hnone, Function.update_apply]
      split
      · next heq =>
          rw [heq, hnone]
          simp
      · next hne => simp [Ne.symm hne]
    · intro n a
      rw [hmem, ← h.services]
      show (if n ∈ e.services then some e.name else s.config.serviceMap n) = some a ↔ _
      split
      · next hn =>
          have hold : s.config.serviceMap n ≠ some a := by
            intro hmap
            obtain ⟨e', he', -, hn'⟩ := (h.services n a).mp hmap
            exact hnew n hn ((h.listed n).mpr ⟨e', he', hn'⟩)
          simp [hold, hn]
      · next hn => simp [hn]
  · intro a
    rw [hmem, ← h.names, add_checkActorName, Finset.mem_insert, or_comm, eq_comm]
  · intro n
    rw [hmem, ← h.listed, add_checkService, Finset.mem_union, List.mem_toFinset]

theorem Entered.foldl {es es' : List Entry} (h : Entered s es) (hfresh : Fresh s es') :
    Entered (es'.foldl Loading.add s) (es ++ es') := by
  induction es' generalizing s es with
  | nil => rwa [List.append_nil]
  | cons e es' ih =>
      obtain ⟨⟨hname, -, hnew⟩, hfresh⟩ := fresh_cons.mp hfresh
      rw [List.foldl_cons, List.append_cons]
      exact ih (h.add hname hnew) hfresh

/-! ### The whole file -/

/-- `unix` has a value, and so have `daemon` and `pid` if they are given. -/
structure Root.Convertible (root : Root) : Prop where
  daemon : root.daemon ≠ .inconvertible
  unix : ∃ unix, root.unix = .value unix
  pid : root.pid ≠ .inconvertible

theorem asOr_ok {α : Type} {f : Field α} (a : α) : (∃ b, f.asOr s a = .ok b) ↔ f ≠ .inconvertible := by
  cases f <;> simp [Field.asOr, Field.as, Field.isDefined]

/-- The maps and the sets are empty before the first entry. -/
def Loading.Empty (s : Loading) : Prop :=
  s.config.serviceMap = (fun _ => none) ∧ s.config.actorConfigMap = (fun _ => none) ∧ s.checkActorName = ∅ ∧
    s.checkService = ∅

theorem Loading.Empty.entered (h : s.Empty) : Entered s [] := by
  obtain ⟨hservices, hactors, hnames, hlisted⟩ := h
  exact ⟨⟨by simp [hactors], by simp [hservices]⟩, by simp [hnames], by simp [hlisted]⟩

theorem Loading.Empty.fresh (h : s.Empty) (es : List Entry) :
    Fresh s es ↔ (es.map Entry.name).Nodup ∧ (es.flatMap Entry.services).Nodup := by
  obtain ⟨-, -, hnames, hlisted⟩ := h
  constructor
  · intro hfresh
    exact ⟨hfresh.names, hfresh.services⟩
  · rintro ⟨hn, hs⟩
    exact ⟨hn, by simp [hnames], hs, by simp [hlisted]⟩

theorem asOr_eq_ok {α : Type} {f : Field α} {a b : α} :
    f.asOr s a = .ok b ↔ f = .undefined ∧ b = a ∨ f = .value b := by
  cases f <;> simp [Field.asOr, Field.as, Field.isDefined, eq_comm]

/-- The object when the keys of the root have been converted. -/
def Root.start (daemon : Bool) (unix pidFile : StdString) : Loading :=
  ⟨{ CoroActorConfig.fresh with daemon := daemon, unix := unix, pidFile := pidFile }, ∅, ∅⟩

theorem Root.start_empty (daemon : Bool) (unix pidFile : StdString) : (Root.start daemon unix pidFile).Empty :=
  ⟨rfl, rfl, rfl, rfl⟩

/-- The keys of the root are converted first, and then the entries are loaded into empty maps. -/
theorem loadRoot_eq_ok {root : Root} : loadRoot files .fresh root = .ok t ↔ ∃ daemon unix pidFile,
    (root.daemon = .undefined ∧ daemon = false ∨ root.daemon = .value daemon) ∧ root.unix = .value unix ∧
      (root.pid = .undefined ∧ pidFile = CoroActorConfig.fresh.pidFile ∨ root.pid = .value pidFile) ∧
      root.actorConfig.foldlM (loadActor files) (Root.start daemon unix pidFile) = .ok t := by
  simp only [loadRoot, bind_eq_ok, asOr_eq_ok, as_eq_ok]
  constructor
  · rintro ⟨daemon, hdaemon, unix, hunix, pidFile, hpid, h⟩
    exact ⟨daemon, unix, pidFile, hdaemon, hunix, hpid, h⟩
  · rintro ⟨daemon, unix, pidFile, hdaemon, hunix, hpid, h⟩
    exact ⟨daemon, hdaemon, unix, hunix, pidFile, hpid, h⟩

theorem load_eq_true {root : Root} : (load files .fresh root).1 = true ↔
    ∃ t, loadRoot files .fresh root = .ok t ∧ (load files .fresh root).2 = t.config := by
  unfold load
  cases loadRoot files .fresh root with
  | error e => simp
  | ok t => simp

/-- The entries that a configuration has, when they are all complete and no name is there twice. -/
def Root.Distinct (reads : ActorDetail → Entry → Prop) (root : Root) : Prop :=
  ∃ es, List.Forall₂ reads root.actorConfig es ∧ (es.map Entry.name).Nodup ∧
    (es.flatMap Entry.services).Nodup

theorem load_accepts (files : Files) (root : Root) : (load files .fresh root).1 = true ↔
    root.Convertible ∧ root.Distinct (Reads files) := by
  rw [load_eq_true]
  constructor
  · rintro ⟨t, ht, -⟩
    obtain ⟨daemon, unix, pidFile, hdaemon, hunix, hpid, h⟩ := loadRoot_eq_ok.mp ht
    obtain ⟨es, hreads, hfresh, -⟩ := loadActors_eq_ok.mp h
    obtain ⟨hnames, hservices⟩ := ((Root.start_empty daemon unix pidFile).fresh es).mp hfresh
    refine ⟨⟨?_, ⟨unix, hunix⟩, ?_⟩, es, hreads, hnames, hservices⟩
    · rcases hdaemon with ⟨heq, -⟩ | heq <;> simp [heq]
    · rcases hpid with ⟨heq, -⟩ | heq <;> simp [heq]
  · rintro ⟨⟨hdaemon, ⟨unix, hunix⟩, hpid⟩, es, hreads, hnames, hservices⟩
    obtain ⟨daemon, hdaemon⟩ := (asOr_ok (s := Root.start false [] []) false).mpr hdaemon
    obtain ⟨pidFile, hpid⟩ := (asOr_ok (s := Root.start false [] []) CoroActorConfig.fresh.pidFile).mpr hpid
    have hfresh := ((Root.start_empty daemon unix pidFile).fresh es).mpr ⟨hnames, hservices⟩
    have hroot := loadRoot_eq_ok.mpr ⟨daemon, unix, pidFile, asOr_eq_ok.mp hdaemon, hunix, asOr_eq_ok.mp hpid,
      loadActors_eq_ok.mpr ⟨es, hreads, hfresh, rfl⟩⟩
    exact ⟨_, hroot, by rw [load, hroot]⟩

/-- What is in the maps of a configuration that was accepted. -/
theorem load_owned {root : Root} (h : (load files .fresh root).1 = true) :
    ∃ es, List.Forall₂ (Reads files) root.actorConfig es ∧ Owned (load files .fresh root).2 es := by
  obtain ⟨t, ht, hconfig⟩ := load_eq_true.mp h
  obtain ⟨daemon, unix, pidFile, -, -, -, h⟩ := loadRoot_eq_ok.mp ht
  obtain ⟨es, hreads, hfresh, rfl⟩ := loadActors_eq_ok.mp h
  rw [hconfig]
  exact ⟨es, hreads, ((Root.start_empty daemon unix pidFile).entered.foldl hfresh).toOwned⟩

/-- An entry says one thing. -/
theorem Reads.unique {e e' : Entry} (h : Reads files d e) (h' : Reads files d e') : e = e' := by
  obtain ⟨⟨hname, hcount, hlib, file, hfile, hservices⟩, hendpoint⟩ := h
  obtain ⟨⟨hname', hcount', hlib', file', hfile', hservices'⟩, hendpoint'⟩ := h'
  have hsame : e.services = e'.services := by
    obtain rfl : file = file' := Field.value.inj (hfile.symm.trans hfile')
    exact (List.map_injective_iff.mpr fun _ _ => Field.value.inj)
      (Option.some.inj (hservices.symm.trans hservices'))
  have hsameEndpoint : e.address = e'.address ∧ e.port = e'.port := by
    unfold ActorDetail.Endpoint at hendpoint hendpoint'
    split at hendpoint
    · next hd =>
        rw [if_pos hd] at hendpoint'
        exact ⟨Field.value.inj (hendpoint.1.symm.trans hendpoint'.1),
          Field.value.inj (hendpoint.2.symm.trans hendpoint'.2)⟩
    · next hd =>
        rw [if_neg hd] at hendpoint'
        exact ⟨hendpoint.1.trans hendpoint'.1.symm, hendpoint.2.trans hendpoint'.2.symm⟩
  obtain ⟨name, count, lib, address, port, services⟩ := e
  obtain ⟨name', count', lib', address', port', services'⟩ := e'
  simp only [Entry.mk.injEq]
  exact ⟨Field.value.inj (hname.symm.trans hname'), Field.value.inj (hcount.symm.trans hcount'),
    Field.value.inj (hlib.symm.trans hlib'), hsameEndpoint.1, hsameEndpoint.2, hsame⟩

theorem reads_unique {ds : List ActorDetail} {es es' : List Entry} (h : List.Forall₂ (Reads files) ds es)
    (h' : List.Forall₂ (Reads files) ds es') : es = es' := by
  induction h generalizing es' with
  | nil => cases h'; rfl
  | cons he _ ih =>
      cases h' with
      | cons he' htail' => rw [he.unique he', ih htail']

/-- **Acceptance and ownership.** `load` accepts a configuration if and only if `unix` has a value, what else
is given at the root can be converted, every entry has its mandatory keys and a service file that can be
loaded, and an address and a port that can be converted if both are given, the names of the actors are
pairwise distinct and no service is listed twice. Then each entry is in the actor map under its name and
nothing else is, and a service is in the service map with the one actor that offers it. -/
theorem load_iff (files : Files) (root : Root) :
    ((load files .fresh root).1 = true ↔ root.Convertible ∧ root.Distinct (Reads files)) ∧
    ((load files .fresh root).1 = true → ∀ es, List.Forall₂ (Reads files) root.actorConfig es →
      Owned (load files .fresh root).2 es ∧ ∀ n a, (load files .fresh root).2.serviceMap n = some a ↔
        ∃ cfg, (load files .fresh root).2.actorConfigMap a = some cfg ∧ n ∈ cfg.services) := by
  refine ⟨load_accepts files root, fun h es hreads => ?_⟩
  obtain ⟨es', hreads', howned⟩ := load_owned h
  obtain rfl := reads_unique hreads hreads'
  exact ⟨howned, howned.offers⟩

namespace Sample

def serviceFiles : Files := fun file => if file = ascii "a.yml" then some [.value (ascii "svc_a")] else none

/-- An entry with one service, and with this address and port. -/
def actor (address : Field StdString) (port : Field Nat) : ActorDetail :=
  ⟨.value (ascii "a"), .value 1, .value (ascii "liba.so"), .value (ascii "a.yml"), address, port⟩

/-- Acceptance, if it depended on the entries alone. -/
def DependsOnEntries (root : Root) : Prop :=
  (load serviceFiles .fresh root).1 = true ↔ root.Distinct (Mandatory serviceFiles)

end Sample

/-- One actor with one service is configured completely, but `unix` is missing, or `daemon` or `pid` cannot be
converted, or the port of the actor cannot. -/
theorem load_refuses :
    ¬ Sample.DependsOnEntries ⟨.undefined, .undefined, .undefined, [Sample.actor .undefined .undefined]⟩ ∧
    ¬ Sample.DependsOnEntries ⟨.inconvertible, .value [], .undefined, [Sample.actor .undefined .undefined]⟩ ∧
    ¬ Sample.DependsOnEntries ⟨.undefined, .value [], .inconvertible, [Sample.actor .undefined .undefined]⟩ ∧
    ¬ Sample.DependsOnEntries
      ⟨.undefined, .value [], .undefined, [Sample.actor (.value (ascii "127.0.0.1")) .inconvertible]⟩ := by
  have hdistinct : ∀ address port daemon unix pid,
      Root.Distinct (Mandatory Sample.serviceFiles) ⟨daemon, unix, pid, [Sample.actor address port]⟩ := by
    intro address port daemon unix pid
    refine ⟨[⟨ascii "a", 1, ascii "liba.so", [], 0, [ascii "svc_a"]⟩], .cons ⟨rfl, rfl, rfl, ?_⟩ .nil, ?_, ?_⟩
    · exact ⟨ascii "a.yml", rfl, if_pos rfl⟩
    · exact List.nodup_singleton _
    · exact List.nodup_singleton _
  refine ⟨?_, ?_, ?_, ?_⟩
  all_goals
    intro hiff
    have htrue := hiff.mpr (hdistinct _ _ _ _ _)
    revert htrue
    decide

end CoroActor.Config
