import CoroActor.Config.Ownership
import CoroActor.Proxy.Streams
import CoroActor.System.Composite
import CoroActor.Worker.Move

/-! Which services the REQUESTs name that a process gets. The proxy finds a process by the name that it sent in
its CONNECT, and the process has loaded the services that the configuration lists under this name; the two
maps are inverse to each other. What the proxy writes is one matter. What the process reads is the same
as long as the bytes of two frames are not mixed. -/

namespace CoroActor

open TransitionSystem Framing Reading Link

namespace System

/-- A REQUEST names a service of the process. -/
def Setting.Addressed (cfg : Setting) (k : Proxy.Conn) : Pack → Prop
  | .request p => (cfg.worker k).serviceMap p.serviceName = true
  | .connect _ | .connack _ | .response _ => True

/-- What the proxy may write to a process. -/
def Setting.Due (cfg : Setting) (k : Proxy.Conn) (f : Frame) : Prop :=
  ∃ p : Pack, f = p.frame cfg.codec.serialize ∧ p.Sized cfg.codec ∧ cfg.Addressed k p

/-- The service map sends a service to a name exactly when the actor of this name lists the service. -/
def Setting.Consistent (cfg : Setting) : Prop :=
  ∀ n a, cfg.config.serviceMap n = some a ↔ ∃ actor, cfg.config.actorConfigMap a = some actor ∧ n ∈ actor.services

theorem Setting.consistent_of_load {cfg : Setting} {files : Config.Files} {root : Config.Root}
    (hload : (Config.load files .fresh root).1 = true) (hconfig : cfg.config = (Config.load files .fresh root).2) :
    cfg.Consistent := by
  obtain ⟨es, -, howned⟩ := Config.load_owned hload
  intro n a
  rw [hconfig]
  exact howned.offers n a

theorem Setting.Consistent.offers {cfg : Setting} (h : cfg.Consistent) {k : Proxy.Conn} {n : StdString}
    (hmap : cfg.config.serviceMap n = some (cfg.name k)) : (cfg.worker k).serviceMap n = true := by
  obtain ⟨actor, hactor, hn⟩ := (h n (cfg.name k)).mp hmap
  simpa only [Setting.worker, Setting.services, hactor, decide_eq_true_eq] using hn

/-! ### What the proxy writes -/

/-- The actors of a group bear its name, which is that of the process behind the socket; whatever is in a
queue has been read, and whatever has been written was due. -/
structure Routed (cfg : Setting) (s : Proxy.Sys) : Prop extends s.Accepted where
  group : ∀ g, ∀ r ∈ s.proxy.actorInfoMap g, r < s.proxy.nactors ∧ (s.proxy.actors r).name = g
  named : ∀ r < s.proxy.nactors, (s.proxy.actors r).name = cfg.name (s.proxy.actors r).socket
  queued : ∀ r, ∀ q ∈ (s.proxy.actors r).msgQueue, Pack.Sized cfg.codec (.request q.pack)
  frames : ∀ k, ∀ f ∈ s.history.frames k, cfg.Due k f

variable {cfg : Setting} {s t : Proxy.Sys} {l : Proxy.Label}

theorem routed_init : Routed cfg Proxy.Sys.init where
  toAccepted := Proxy.Sys.accepted_init
  group _ _ hr := absurd hr List.not_mem_nil
  named _ hr := absurd hr (Nat.not_lt_zero _)
  queued _ _ hq := absurd hq List.not_mem_nil
  frames _ _ hf := absurd hf List.not_mem_nil

theorem Routed.group_step (hs : Routed cfg s) (h : Proxy.Sys.Move cfg.proxy s l t) (g : StdString) (r : Nat)
    (hr : r ∈ t.proxy.actorInfoMap g) : r < t.proxy.nactors ∧ (t.proxy.actors r).name = g := by
  by_cases hl : ∃ k p, l = .read k (.connect p)
  · obtain ⟨k, p, rfl⟩ := hl
    cases h with
    | connect =>
        rw [Proxy.Sys.mem_onConnect_infoMap] at hr
        rcases hr with hold | ⟨rfl, rfl⟩
        · obtain ⟨hlt, hname⟩ := hs.group g r hold
          rw [Proxy.Sys.onConnect_old p hlt]
          exact ⟨Nat.lt_succ_of_lt hlt, hname⟩
        · rw [Proxy.Sys.onConnect_new]
          exact ⟨Nat.lt_succ_self _, rfl⟩
    | stay | undefined => exact hs.group g r hr
  · have hsame := h.sameWiring fun k p heq => hl ⟨k, p, heq⟩
    rw [hsame.infoMap] at hr
    rw [hsame.nactors, hsame.name]
    exact hs.group g r hr

theorem Routed.named_step (hs : Routed cfg s) (h : Proxy.Sys.Move cfg.proxy s l t) (hl : cfg.Sends l) (r : Nat)
    (hr : r < t.proxy.nactors) : (t.proxy.actors r).name = cfg.name (t.proxy.actors r).socket := by
  by_cases hc : ∃ k p, l = .read k (.connect p)
  · obtain ⟨k, p, rfl⟩ := hc
    cases h with
    | connect =>
        rcases Nat.lt_succ_iff_lt_or_eq.mp hr with hold | rfl
        · rw [Proxy.Sys.onConnect_old p hold]
          exact hs.named r hold
        · rw [Proxy.Sys.onConnect_new]
          exact congrArg CoroActorConnect.name hl
    | stay | undefined => exact hs.named r hr
  · have hsame := h.sameWiring fun k p heq => hc ⟨k, p, heq⟩
    rw [hsame.nactors] at hr
    rw [hsame.name, hsame.socket]
    exact hs.named r hr

/-- A frame that is written is due: a REQUEST goes to a member of the group that the service map names. -/
theorem Routed.due (hs : Routed cfg s) (hc : cfg.Consistent) (hack : Pack.Sized cfg.codec (.connack ⟨true⟩))
    (hl : cfg.Sends l) {k : Proxy.Conn} {f : Frame} (hw : s.Writes cfg.proxy l k f) : cfg.Due k f := by
  cases hw with
  | connack => exact ⟨.connack ⟨true⟩, rfl, hack, trivial⟩
  | @response _ p => exact ⟨.response p, rfl, hl, trivial⟩
  | @request _ af c q rest issuer select hd =>
      obtain ⟨g, hg, hmin, -⟩ := Proxy.Registry.route_ok hd.route
      have hmem : select ∈ s.proxy.actorInfoMap g := List.argmin_mem hmin
      obtain ⟨hlt, hname⟩ := hs.group g select hmem
      have hmap : cfg.config.serviceMap q.pack.serviceName = some (cfg.name (s.proxy.actors select).socket) := by
        rw [← hs.named select hlt, hname]
        exact hg
      exact ⟨.request q.pack, rfl, hs.queued af q hd.mem_queue, hc.offers hmap⟩

theorem Routed.step (hs : Routed cfg s) (hc : cfg.Consistent) (hack : Pack.Sized cfg.codec (.connack ⟨true⟩))
    (hl : cfg.Sends l) (h : Proxy.Sys.Move cfg.proxy s l t) : Routed cfg t where
  toAccepted := hs.toAccepted.step h
  group := hs.group_step h
  named := hs.named_step h hl
  queued r q hq := by
    rcases h.queue_cases hq with ⟨af, hold⟩ | ⟨k, p, af, rfl, -, rfl, -⟩
    · exact hs.queued af q hold
    · exact hl
  frames k f hf := by
    rcases h.frames_cases with heq | ⟨socket, f', heq, hw⟩
    · rw [heq] at hf
      exact hs.frames k f hf
    · rw [heq, Function.update_apply] at hf
      split at hf
      · next hk =>
          subst hk
          rcases List.mem_append.mp hf with hold | hnew
          · exact hs.frames k f hold
          · rw [List.mem_singleton.mp hnew]
            exact hs.due hc hack hl hw
      · exact hs.frames k f hf

theorem routed_of_reachable (hc : cfg.Consistent) (hack : Pack.Sized cfg.codec (.connack ⟨true⟩))
    (hr : Reachable (Proxy.machine cfg.proxy) (fun _ l => cfg.Sends l) s) : Routed cfg s := by
  refine hr.invariant routed_init fun s l t _ hs hl hst => ?_
  exact hs.step hc hack hl (Proxy.Sys.step_move hs.isOpen hst)

end System

/-! ### What a process takes -/

namespace Worker.Sys

variable {cfg : Setting} {s t : Sys} {l : Label}

/-- A message that no client has sent names a service of the process; no null socket has been closed. -/
structure Offered (cfg : Setting) (s : Sys) : Prop where
  sane : s.fault = false
  queued : ∀ msg ∈ s.ctx.msgQueue, msg.socket = none → cfg.serviceMap msg.serviceName = true

theorem offered_init : Offered cfg (Sys.init cfg) := ⟨rfl, fun _ hmsg => absurd hmsg List.not_mem_nil⟩

theorem Offered.rest (hs : Offered cfg s) {msg : CoroActorMsg} {rest : List CoroActorMsg}
    (hq : s.ctx.msgQueue = msg :: rest) : ∀ m ∈ rest, m.socket = none → cfg.serviceMap m.serviceName = true := by
  intro m hm
  apply hs.queued m
  rw [hq]
  exact List.mem_cons_of_mem msg hm

theorem Offered.push (hs : Offered cfg s) {msg : CoroActorMsg}
    (hmsg : msg.socket = none → cfg.serviceMap msg.serviceName = true) :
    ∀ m ∈ s.ctx.msgQueue ++ [msg], m.socket = none → cfg.serviceMap m.serviceName = true := by
  intro m hm
  rcases List.mem_append.mp hm with hold | hnew
  · exact hs.queued m hold
  · rw [List.mem_singleton.mp hnew]
    exact hmsg

/-- Only a REQUEST for a service that the process does not have leads to the null socket. -/
theorem Offered.step (hs : Offered cfg s) (h : s.Move cfg l t)
    (hl : ∀ p, l = .request p → cfg.serviceMap p.serviceName = true) : Offered cfg t := by
  cases h with
  | closed _ hq | notFound _ hq | invoke _ hq => exact ⟨hs.sane, hs.rest hq⟩
  | @undefined _ msg rest _ hq _ hservice hsocket =>
      have hoffered := hs.queued msg (by rw [hq]; exact List.mem_cons_self) hsocket
      rw [hservice] at hoffered
      cases hoffered
  | leave | serviceNotified => exact finish_kept _ _ fun _ _ _ _ _ _ _ => ⟨hs.sane, hs.queued⟩
  | remote =>
      rw [push_eq]
      exact ⟨hs.sane, hs.push fun hnone => by cases hnone⟩
  | @request p =>
      rw [onRequest_eq]
      exact ⟨hs.sane, hs.push fun _ => hl p rfl⟩
  | send =>
      rw [startSend_eq]
      exact ⟨hs.sane, hs.queued⟩
  | _ => exact ⟨hs.sane, hs.queued⟩

end Worker.Sys

namespace System.Sys

variable {cfg : Setting} {s t : Sys} {l : Label} {k : Proxy.Conn}

/-- The process has taken whole frames, and it has no REQUEST for a service that it does not offer. -/
structure Linked (cfg : Setting) (s : Sys) (k : Proxy.Conn) : Prop where
  taken : ∃ as : List Frame, (∀ a ∈ as, cfg.Due k a) ∧ as.flatMap Frame.bytes <+: s.proxy.stream k ∧
    (s.peer k).taken = (as.flatMap Frame.bytes).length
  offered : Worker.Sys.Offered (cfg.worker k) (s.peer k).process

/-- The stream consists of whole frames that were due, and of a beginning of one more. -/
def Carries (cfg : Setting) (s : Sys) (k : Proxy.Conn) : Prop :=
  ∃ fs, Framed Frame.bytes fs (s.proxy.stream k) ∧ ∀ f ∈ fs, cfg.Due k f

theorem due_size {f : Frame} (h : cfg.Due k f) : f.payload.length < UInt32.size := by
  obtain ⟨p, rfl, hsize, -⟩ := h
  exact hsize

/-- What comes next is a pack that was due, or a beginning of a frame. -/
theorem Linked.next (hs : Linked cfg s k) (hc : Carries cfg s k)
    (hack : Pack.Sized cfg.codec (.connack ⟨true⟩)) :
    (∃ (p : Pack) (more : List UInt8), p.Sized cfg.codec ∧ cfg.Addressed k p ∧
      s.unread k = p.bytes cfg.codec ++ more) ∨
      ∃ p : Pack, p.Sized cfg.codec ∧ s.unread k <+: p.bytes cfg.codec ∧ s.unread k ≠ p.bytes cfg.codec := by
  obtain ⟨as, has, ⟨more, hmore⟩, htaken⟩ := hs.taken
  obtain ⟨fs, hframed, hfs⟩ := hc
  have hunread : s.unread k = more := by rw [unread, htaken, ← hmore, List.drop_left]
  rw [← hmore] at hframed
  obtain ⟨gs, rfl, hgs⟩ := hframed.rest Link.Frame.prefixFree Frame.bytes_ne_nil (fun a ha => due_size (has a ha))
    fun f hf => due_size (hfs f hf)
  rw [hunread]
  cases gs with
  | nil =>
      right
      rw [framed_nil hgs]
      exact ⟨.connack ⟨true⟩, hack, List.nil_prefix, (Frame.bytes_ne_nil _).symm⟩
  | cons g gs =>
      obtain ⟨p, rfl, hsize, haddressed⟩ := hfs g (List.mem_append_right as List.mem_cons_self)
      rcases hgs.cons with ⟨more', rfl, -⟩ | ⟨hpre, hne⟩
      · exact Or.inl ⟨p, more', hsize, haddressed, rfl⟩
      · exact Or.inr ⟨p, hsize, hpre, hne⟩

theorem Linked.taken_step (hs : Linked cfg s k) {p : Pack} {more : List UInt8} {rest : Stream UInt8}
    (hsize : p.Sized cfg.codec) (haddressed : cfg.Addressed k p) (hunread : s.unread k = p.bytes cfg.codec ++ more)
    (hrest : rest.flatten = more) : ∃ as : List Frame, (∀ a ∈ as, cfg.Due k a) ∧
      as.flatMap Frame.bytes <+: s.proxy.stream k ∧ s.takenTo k rest = (as.flatMap Frame.bytes).length := by
  obtain ⟨as, has, ⟨more', hmore⟩, htaken⟩ := hs.taken
  have hstream : s.proxy.stream k = (as ++ [p.frame cfg.codec.serialize]).flatMap Frame.bytes ++ more := by
    rw [unread, htaken, ← hmore, List.drop_left] at hunread
    rw [← hmore, hunread, List.flatMap_append, List.flatMap_singleton, List.append_assoc]
    rfl
  refine ⟨as ++ [p.frame cfg.codec.serialize], fun a ha => ?_, ⟨more, hstream.symm⟩, ?_⟩
  · rcases List.mem_append.mp ha with hold | hnew
    · exact has a hold
    · rw [List.mem_singleton.mp hnew]
      exact ⟨p, rfl, hsize, haddressed⟩
  · rw [takenTo, hrest, hstream, List.length_append, Nat.add_sub_cancel_right]

theorem Linked.connack (hs : Linked cfg s k) (hc : Carries cfg s k)
    (hack : Pack.Sized cfg.codec (.connack ⟨true⟩)) {l l' : Locals} {rest : Stream UInt8}
    (hread : readConnack l [s.unread k] = some (l', rest)) : ∃ as : List Frame, (∀ a ∈ as, cfg.Due k a) ∧
      as.flatMap Frame.bytes <+: s.proxy.stream k ∧ s.takenTo k rest = (as.flatMap Frame.bytes).length := by
  have hone : [s.unread k].flatten = s.unread k := List.flatten_singleton
  rcases hs.next hc hack with ⟨p, more, hsize, haddressed, hunread⟩ | ⟨p, hsize, hpre, hne⟩
  · obtain ⟨rest', hread', hrest⟩ := readConnack_whole (l := l) hsize (hone.trans hunread)
    rw [hread', Option.some.injEq, Prod.mk.injEq] at hread
    obtain ⟨-, rfl⟩ := hread
    exact hs.taken_step hsize haddressed hunread hrest
  · rw [← hone] at hpre hne
    rw [readConnack_cut hsize hpre hne] at hread
    cases hread

/-- A round of the loop takes the next pack, which was due. -/
theorem Linked.internal (hs : Linked cfg s k) (hc : Carries cfg s k)
    (hinv : cfg.codec.deserialize.Inverts cfg.codec.serialize) (hack : Pack.Sized cfg.codec (.connack ⟨true⟩))
    {out : Received} {l l' : Locals} {rest : Stream UInt8}
    (hround : handleActorInternal cfg.codec l [s.unread k] = .next out l' rest) :
    (∃ as : List Frame, (∀ a ∈ as, cfg.Due k a) ∧ as.flatMap Frame.bytes <+: s.proxy.stream k ∧
      s.takenTo k rest = (as.flatMap Frame.bytes).length) ∧
    ∀ p, received out = .request p → (cfg.worker k).serviceMap p.serviceName = true := by
  have hone : [s.unread k].flatten = s.unread k := List.flatten_singleton
  rcases hs.next hc hack with ⟨p, more, hsize, haddressed, hunread⟩ | ⟨p, hsize, hpre, hne⟩
  · obtain ⟨l'', rest', hround', hrest⟩ :=
      (reads_internal hinv).whole l [s.unread k] p more hsize (hone.trans hunread)
    rw [hround', Round.next.injEq] at hround
    obtain ⟨rfl, -, rfl⟩ := hround
    refine ⟨hs.taken_step hsize haddressed hunread hrest, fun p' hp' => ?_⟩
    cases p with
    | request p =>
        cases hp'
        exact haddressed
    | connect | connack | response => cases hp'
  · rw [← hone] at hpre hne
    rw [(reads_internal hinv).cut l [s.unread k] p hsize hpre hne] at hround
    cases hround

theorem Linked.step (hs : ∀ k, Linked cfg s k) (hc : ∀ k, Carries cfg s k) (ha : s.proxy.Accepted)
    (hinv : cfg.codec.deserialize.Inverts cfg.codec.serialize) (hack : Pack.Sized cfg.codec (.connack ⟨true⟩))
    (h : Move cfg s l t) (k : Proxy.Conn) : Linked cfg t k := by
  have hother : ∀ {j : Proxy.Conn} {r : Peer}, (k = j → Linked cfg (s.setPeer j r) j) →
      Linked cfg (s.setPeer j r) k := by
    intro j r hj
    by_cases hk : k = j
    · rw [hk]
      exact hj hk
    · constructor
      · rw [setPeer_of_ne r hk]
        exact (hs k).taken
      · rw [setPeer_of_ne r hk]
        exact (hs k).offered
  cases h with
  | proxy _ hstep =>
      obtain ⟨as, has, hpre, htaken⟩ := (hs k).taken
      exact ⟨⟨as, has, hpre.trans ((Proxy.Sys.step_move ha.isOpen hstep).stream_grows k), htaken⟩, (hs k).offered⟩
  | @connack j l rest hread =>
      refine hother fun _ => ⟨?_, ?_⟩
      · rw [setPeer_self]
        exact (hs j).connack (hc j) hack hread
      · rw [setPeer_self]
        exact (hs j).offered
  | @internal j out l rest w hround hw =>
      obtain ⟨htaken, hrequest⟩ := (hs j).internal (hc j) hinv hack hround
      refine hother fun _ => ⟨?_, ?_⟩
      · rw [setPeer_self]
        exact htaken
      · rw [setPeer_self]
        exact (hs j).offered.step (Worker.Sys.step_move hw) hrequest
  | @actor j l w hlocal hw =>
      refine hother fun _ => ⟨?_, ?_⟩
      · rw [setPeer_self]
        exact (hs j).taken
      · rw [setPeer_self]
        refine (hs j).offered.step (Worker.Sys.step_move hw) fun p hp => ?_
        rw [hp] at hlocal
        cases hlocal

/-- The proxy starts a write only when the writes to the same socket before it have gone out. -/
def KeepsFrames (cfg : Setting) (s : Sys) : Label → Prop
  | .proxy l => s.proxy.KeepsFrames cfg.proxy l
  | .connack _ | .internal _ | .actor .. => True

instance (cfg : Setting) (s : Sys) : (l : Label) → Decidable (s.KeepsFrames cfg l)
  | .proxy l => inferInstanceAs (Decidable (s.proxy.KeepsFrames cfg.proxy l))
  | .connack _ | .internal _ | .actor .. => inferInstanceAs (Decidable True)

theorem linked_of_reachable (hcons : cfg.Consistent) (hinv : cfg.codec.deserialize.Inverts cfg.codec.serialize)
    (hack : Pack.Sized cfg.codec (.connack ⟨true⟩)) (hr : Reachable (machine cfg) (KeepsFrames cfg) s)
    (k : Proxy.Conn) : Linked cfg s k := by
  refine hr.invariant (I := fun s => ∀ k, Linked cfg s k) ?_ ?_ k
  · intro k
    exact ⟨⟨[], fun a ha => absurd ha List.not_mem_nil, List.nil_prefix, rfl⟩, Worker.Sys.offered_init⟩
  · intro s l t hr hs _ hst
    have hrouted : Routed cfg s.proxy :=
      routed_of_reachable hcons hack (reachable_proxy (fun _ _ _ hsends => hsends) hr)
    refine Linked.step hs (fun k => ?_) hrouted.toAccepted hinv hack (step_move hst)
    have hkept : Reachable (Proxy.machine cfg.proxy) (Proxy.Sys.KeepsFrames cfg.proxy) s.proxy :=
      reachable_proxy (fun _ _ hok _ => hok) hr
    obtain ⟨fs, left, hstreamed⟩ := Proxy.Sys.streamed_of_reachable hkept k
    exact ⟨fs, hstreamed.sending.framed, fun f hf => hrouted.frames k f (hstreamed.sublist.subset hf)⟩

/-- **Requests reach offering processes.** The configuration was accepted by `load`, and only the
framework's processes connect. In every run, each REQUEST that is written to a process names a service that
the process has loaded. In every run in which a write to a socket is started only when the writes to it
before have gone out, each REQUEST that a process has in its queue does so too, and the process has not come
to close a null socket. -/
theorem requests_offered {files : Config.Files} {root : Config.Root}
    (hload : (Config.load files .fresh root).1 = true) (hconfig : cfg.config = (Config.load files .fresh root).2)
    (hinv : cfg.codec.deserialize.Inverts cfg.codec.serialize) (hack : Pack.Sized cfg.codec (.connack ⟨true⟩)) :
    (∀ s, Reachable (machine cfg) (fun _ _ => True) s → ∀ k, ∀ f ∈ s.proxy.history.frames k,
      f.proto = coroActorRequest → ∃ p, f.payload = cfg.codec.serialize.request p ∧
        (cfg.worker k).serviceMap p.serviceName = true) ∧
    ∀ s, Reachable (machine cfg) (KeepsFrames cfg) s → ∀ k, (s.peer k).process.Offered (cfg.worker k) := by
  have hcons : cfg.Consistent := Setting.consistent_of_load hload hconfig
  refine ⟨fun s hr k f hf hproto => ?_, fun s hr k => (linked_of_reachable hcons hinv hack hr k).offered⟩
  have hrouted : Routed cfg s.proxy :=
    routed_of_reachable hcons hack (reachable_proxy (fun _ _ _ hsends => hsends) hr)
  obtain ⟨p, rfl, -, haddressed⟩ := hrouted.frames k f hf
  cases p with
  | request p => exact ⟨p, rfl, haddressed⟩
  | connect | connack | response => exact absurd hproto (by simp [Pack.frame]; decide)

end System.Sys

/-! ### Processes to run

The processes 0 and 1 are of actor "a", the process 2 is of actor "b". -/

namespace System.Sample

def files : Config.Files := fun file =>
  if file = ascii "a.yml" then some [.value (ascii "svc_a")]
  else if file = ascii "b.yml" then some [.value (ascii "svc_b")]
  else none

def actor (name lib file : String) : Config.ActorDetail :=
  ⟨.value (ascii name), .value 1, .value (ascii lib), .value (ascii file), .undefined, .undefined⟩

def root : Config.Root where
  daemon := .undefined
  unix := .value (ascii "coro_actor.sock")
  pid := .undefined
  actorConfig := [actor "a" "liba.so" "a.yml", actor "b" "libb.so" "b.yml"]

def setting : Setting where
  codec := Link.Sample.codec
  config := (Config.load files .fresh root).2
  pid k := 10 + k
  name k := if k = 2 then ascii "b" else ascii "a"

/-- The process behind `k` connects, registers and reads the CONNACK. -/
def join (k : Proxy.Conn) : List Label :=
  [.proxy .accept, .proxy (.read k (.connect ⟨setting.pid k, setting.name k⟩)), .proxy (.transfer k 1000),
    .proxy (.resume k false), .connack k]

def request (pid : Pid) (callId service : String) (value : StdString) : CoroActorRequest :=
  ⟨pid, ascii callId, ascii service, ⟨0, value⟩⟩

/-- The process 2 waits for a message. -/
def start : List Label := join 0 ++ join 1 ++ join 2 ++ [.actor 2 (.run 0)]

/-- A service of process `k` sends this, and the proxy starts to write it to the process that offers it. -/
def ask (k : Proxy.Conn) (p : CoroActorRequest) : List Label := [.proxy (.read k (.request p)), .proxy (.run k)]

/-- The process 2 serves the front of its queue. -/
def serve : List Label :=
  [.actor 2 .messageNotified, .actor 2 (.run 0), .actor 2 (.complete 0), .actor 2 .funcReturn, .actor 2 .replied]

theorem accepted : (Config.load files .fresh root).1 = true := by decide

theorem sized : Pack.Sized setting.codec (.connack ⟨true⟩) := by
  unfold Pack.Sized
  decide

/-- A frame that a service puts into its pack. No process offers the service that it names. -/
def embedded : StdString := Pack.bytes Link.Sample.codec (.request (request 11 "11-1" "svc_x" []))

end System.Sample

namespace System.Sys

/-- Two processes ask for the same service, the second when the first REQUEST has gone out. -/
theorem requests_offered_sample : ∃ s : Sys, Reachable (machine Sample.setting) (KeepsFrames Sample.setting) s ∧
    ((s.proxy.history.frames 2).length = 3 ∧ (s.peer 2).process.ctx.msgQueue.length = 2) ∧
    (∀ f ∈ s.proxy.history.frames 2, f.proto = coroActorRequest →
      ∃ p, f.payload = Sample.setting.codec.serialize.request p ∧
        (Sample.setting.worker 2).serviceMap p.serviceName = true) ∧
    (s.peer 2).process.Offered (Sample.setting.worker 2) := by
  obtain ⟨s, hr, hlen⟩ := Reachable.of_leadsTo (machine Sample.setting) (KeepsFrames Sample.setting)
    (Sample.start ++ Sample.ask 0 (Sample.request 10 "10-1" "svc_b" [7]) ++ [.proxy (.transfer 0 1000), .internal 2] ++
      Sample.ask 1 (Sample.request 11 "11-1" "svc_b" []) ++ [.proxy (.transfer 1 1000), .internal 2])
    (fun s => (s.proxy.history.frames 2).length = 3 ∧ (s.peer 2).process.ctx.msgQueue.length = 2)
    (by decide +kernel)
  obtain ⟨hwritten, htaken⟩ := @requests_offered Sample.setting _ _ Sample.accepted rfl
    Link.Sample.codec_inverts Sample.sized
  exact ⟨s, hr, hlen, hwritten s (hr.mono fun _ _ _ => trivial) 2, htaken s hr 2⟩

/-- Services do what they may, and the processes send what `send` and `handle_message` send, with fresh call ids for
the calls that they open. -/
def WellBehaved (cfg : Setting) (s : Sys) : Label → Prop
  | .proxy l => Proxy.Lawful cfg.proxy s.proxy l
  | .actor k l => Worker.Rule (s.peer k).process l
  | .connack _ | .internal _ => True

instance (cfg : Setting) (s : Sys) : (l : Label) → Decidable (s.WellBehaved cfg l)
  | .proxy l => inferInstanceAs (Decidable (Proxy.Lawful cfg.proxy s.proxy l))
  | .actor k l => inferInstanceAs (Decidable (Worker.Rule (s.peer k).process l))
  | .connack _ | .internal _ => inferInstanceAs (Decidable True)

/-- The processes 0 and 1 ask for the service of 2. The REQUEST of 0 carries a value that looks like a frame, and
the REQUEST of 1 goes out before the proxy has written this value. The process 2 reads the REQUEST of 1 as the
value, and the value as a REQUEST for a service that it does not have. -/
theorem embedded_request_taken : ∃ s : Sys, Reachable (machine Sample.setting) (WellBehaved Sample.setting) s ∧
    (s.peer 2).process.fault = true ∧ ¬ (s.peer 2).process.Offered (Sample.setting.worker 2) := by
  obtain ⟨s, hr, hfault⟩ := Reachable.of_leadsTo (machine Sample.setting) (WellBehaved Sample.setting)
    (Sample.start ++ Sample.ask 0 (Sample.request 10 "10-1" "svc_b" Sample.embedded) ++ [.proxy (.transfer 0 78)] ++
      Sample.ask 1 (Sample.request 11 "11-1" "svc_b" []) ++
      [.proxy (.transfer 1 1000), .proxy (.transfer 0 1000), .internal 2, .internal 2] ++ Sample.serve ++
      [.actor 2 (.run 0)])
    (fun s => (s.peer 2).process.fault = true) (by decide +kernel)
  refine ⟨s, hr, hfault, fun h => ?_⟩
  rw [h.sane] at hfault
  cases hfault

end System.Sys

end CoroActor
