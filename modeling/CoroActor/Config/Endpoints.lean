import CoroActor.Config.Ownership
import Mathlib.Data.List.Nodup
import Mathlib.Data.List.Pairwise

/-! The endpoints that `init` opens acceptors for. The rules beside the loader forbid the same listening address
for two actors. `load` has sets to check the names of the actors and of the services, and none for the
addresses. -/

namespace CoroActor.Config

variable {files : Files} {d : ActorDetail} {e : Entry} {es : List Entry} {root : Root}

/-- `init` opens an acceptor for the actor, at the address and the port of its configuration. -/
def CoroActorConfig.Listens (c : CoroActorConfig) (actor : StdString) (cfg : ActorConfig) : Prop :=
  c.actorConfigMap actor = some cfg ∧ cfg.address ≠ []

/-- No two actors listen at the same address and port. -/
def CoroActorConfig.DistinctEndpoints (c : CoroActorConfig) : Prop := ∀ a b cfg cfg',
  c.Listens a cfg → c.Listens b cfg' → a ≠ b → (cfg.address, cfg.port) ≠ (cfg'.address, cfg'.port)

/-- The endpoint of an entry that gives an address, which is not empty, and a port. -/
def ActorDetail.endpoint (d : ActorDetail) : Option (StdString × Nat) :=
  match d.actorAddress, d.actorPort with
  | .value address, .value port => if address = [] then none else some (address, port)
  | _, _ => none

def Root.endpoints (root : Root) : List (StdString × Nat) := root.actorConfig.filterMap ActorDetail.endpoint

def Entry.endpoint (e : Entry) : Option (StdString × Nat) :=
  if e.address = [] then none else some (e.address, e.port)

theorem Reads.endpoint_eq (h : Reads files d e) : d.endpoint = e.endpoint := by
  have hendpoint := h.endpoint
  unfold ActorDetail.Endpoint at hendpoint
  unfold ActorDetail.endpoint Entry.endpoint
  split at hendpoint
  · obtain ⟨haddress, hport⟩ := hendpoint
    rw [haddress, hport]
  · next hdefined =>
      rw [if_pos hendpoint.1]
      split
      · next haddress hport =>
          rw [haddress, hport] at hdefined
          exact absurd rfl hdefined
      · rfl

theorem endpoints_eq {ds : List ActorDetail} (h : List.Forall₂ (Reads files) ds es) :
    ds.filterMap ActorDetail.endpoint = es.filterMap Entry.endpoint := by
  induction h with
  | nil => rfl
  | cons hd _ ih => rw [List.filterMap_cons, List.filterMap_cons, hd.endpoint_eq, ih]

/-- Two entries with endpoints have different ones. -/
def Entry.Apart (e e' : Entry) : Prop := e.address ≠ [] → e'.address ≠ [] → (e.address, e.port) ≠ (e'.address, e'.port)

instance : Std.Symm Entry.Apart := ⟨fun _ _ h he he' heq => h he' he heq.symm⟩

theorem entry_endpoint_eq_some {r : StdString × Nat} :
    e.endpoint = some r ↔ e.address ≠ [] ∧ (e.address, e.port) = r := by
  unfold Entry.endpoint
  split
  · next hempty => simp [hempty]
  · next haddress => simp [haddress]

theorem nodup_endpoints_iff : (es.filterMap Entry.endpoint).Nodup ↔ es.Pairwise Entry.Apart := by
  rw [List.Nodup, List.pairwise_filterMap]
  refine iff_of_eq (congrArg (fun R => List.Pairwise R es) ?_)
  funext e e'
  simp only [entry_endpoint_eq_some, Entry.Apart, eq_iff_iff]
  constructor
  · intro h he he'
    exact h _ ⟨he, rfl⟩ _ ⟨he', rfl⟩
  · rintro h _ ⟨he, rfl⟩ _ ⟨he', rfl⟩
    exact h he he'

/-- In the map an endpoint is repeated when two entries have it, because their names differ. -/
theorem Owned.distinct_iff {c : CoroActorConfig} (h : Owned c es) (hnames : (es.map Entry.name).Nodup) :
    c.DistinctEndpoints ↔ es.Pairwise Entry.Apart := by
  constructor
  · intro hdistinct
    refine (List.Nodup.of_map _ hnames).pairwise_of_forall_ne fun e he e' he' hne haddress haddress' => ?_
    have hname : e.name ≠ e'.name := fun heq => hne (List.inj_on_of_nodup_map hnames he he' heq)
    exact hdistinct e.name e'.name e.config e'.config ⟨(h.actors _ _).mpr ⟨e, he, rfl, rfl⟩, haddress⟩
      ⟨(h.actors _ _).mpr ⟨e', he', rfl, rfl⟩, haddress'⟩ hname
  · rintro hpairwise a b cfg cfg' ⟨ha, haddress⟩ ⟨hb, haddress'⟩ hne
    obtain ⟨e, he, rfl, rfl⟩ := (h.actors a cfg).mp ha
    obtain ⟨e', he', rfl, rfl⟩ := (h.actors b cfg').mp hb
    have hentries : e ≠ e' := fun heq => hne (congrArg Entry.name heq)
    exact hpairwise.forall he he' hentries haddress haddress'

/-- **Endpoints.** In a configuration that `load` accepts no two actors listen at the same address and port if and
only if no two of the entries with an address and a port give the same. -/
theorem distinct_endpoints_iff (h : (load files .fresh root).1 = true) :
    (load files .fresh root).2.DistinctEndpoints ↔ root.endpoints.Nodup := by
  obtain ⟨es, hreads, howned⟩ := load_owned h
  obtain ⟨-, es', hreads', hnames, -⟩ := (load_accepts files root).mp h
  obtain rfl := reads_unique hreads hreads'
  rw [howned.distinct_iff hnames, Root.endpoints, endpoints_eq hreads, nodup_endpoints_iff]

namespace Sample

/-- The two service files list one service each. -/
def twoServiceFiles : Files := fun file =>
  if file = ascii "a.yml" then some [.value (ascii "svc_a")]
  else if file = ascii "b.yml" then some [.value (ascii "svc_b")]
  else none

/-- Two actors that listen at these ports of one address. -/
def listening (port port' : Nat) : Root where
  daemon := .undefined
  unix := .value (ascii "/tmp/coro_actor.sock")
  pid := .undefined
  actorConfig :=
    [⟨.value (ascii "a"), .value 1, .value (ascii "liba.so"), .value (ascii "a.yml"),
        .value (ascii "127.0.0.1"), .value port⟩,
      ⟨.value (ascii "b"), .value 1, .value (ascii "libb.so"), .value (ascii "b.yml"),
        .value (ascii "127.0.0.1"), .value port'⟩]

end Sample

theorem distinct_ports_accepted :
    (load Sample.twoServiceFiles .fresh (Sample.listening 8000 8001)).1 = true ∧
      (load Sample.twoServiceFiles .fresh (Sample.listening 8000 8001)).2.DistinctEndpoints := by
  have haccepted : (load Sample.twoServiceFiles .fresh (Sample.listening 8000 8001)).1 = true := by decide
  exact ⟨haccepted, (distinct_endpoints_iff haccepted).mpr (by decide)⟩

/-- Both actors listen at 127.0.0.1:8000, and the configuration is accepted. -/
theorem same_endpoint_accepted :
    (load Sample.twoServiceFiles .fresh (Sample.listening 8000 8000)).1 = true ∧
      ¬ (load Sample.twoServiceFiles .fresh (Sample.listening 8000 8000)).2.DistinctEndpoints := by
  refine ⟨by decide, fun hdistinct => ?_⟩
  refine hdistinct (ascii "a") (ascii "b")
    ⟨ascii "a", 1, ascii "liba.so", ascii "127.0.0.1", 8000, {ascii "svc_a"}⟩
    ⟨ascii "b", 1, ascii "libb.so", ascii "127.0.0.1", 8000, {ascii "svc_b"}⟩ ⟨?_, ?_⟩ ⟨?_, ?_⟩ ?_ rfl
  all_goals decide

end CoroActor.Config
