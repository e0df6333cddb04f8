import CoroActor.Proxy.Rest
import CoroActor.System.Freshness
import CoroActor.Worker.Rest

/-! The proxy and the processes in the runs in which nothing goes wrong. What has been written has gone out, and when
nothing is left to read each process has read it. -/

namespace CoroActor.Cluster

open TransitionSystem Link Worker

namespace Sys

/-- Nothing goes wrong in the proxy, and a process reads a RESPONSE only when no `send` of it is at its write. -/
def Smooth (cfg : System.Setting) (s : Sys) : Label → Prop
  | .proxy l => Proxy.Sys.Smooth cfg.proxy s.proxy l
  | .internal k => ∀ x ∈ (s.sent k)[s.seen k]?, responseTo x.2 ≠ none →
      ∀ i < (s.process k).nsend, ((s.process k).sends i).pc ≠ .write
  | .read _ | .connack _ | .actor .. => True

instance (cfg : System.Setting) (s : Sys) : (l : Label) → Decidable (s.Smooth cfg l)
  | .proxy l => inferInstanceAs (Decidable (Proxy.Sys.Smooth cfg.proxy s.proxy l))
  | .internal k => inferInstanceAs (Decidable (∀ x ∈ (s.sent k)[s.seen k]?, _ → ∀ i < (s.process k).nsend, _))
  | .read _ | .connack _ | .actor .. => inferInstanceAs (Decidable True)

/-- What is recorded to have gone out has been sent to some process. -/
def Recorded (s : Sys) : Prop := ∀ c, Proxy.Sys.Noted s.proxy.history c → ∃ k f, (f, c) ∈ s.sent k

/-- The first frame to the process is the CONNACK, which has gone out or is being written. -/
def Greeted (s : Sys) (k : Proxy.Conn) : Prop := (∃ f, (s.sent k)[0]? = some (f, .connack)) ∨
  s.sent k = [] ∧ s.proxy.Unfinished k k ∧ (s.proxy.write k).carries = .connack

/-- The invariant. -/
structure Unhindered (cfg : System.Setting) (s : Sys) : Prop where
  contract : Contract cfg s
  settling : Proxy.Sys.Settling s.proxy
  meant : ∀ k, (s.process k).SendsMeant
  recorded : s.Recorded
  greeted : ∀ r < s.proxy.proxy.nactors, s.Greeted (s.proxy.proxy.actors r).socket
  unstarted : ∀ k, (s.system.peer k).started = false → s.seen k = 0

variable {cfg : System.Setting} {s t : Sys} {l : Label} {k : Proxy.Conn} {n i : Nat}

theorem Contract.settling_step (hC : Contract cfg s) (hi : Proxy.Sys.Settling s.proxy) {l : Proxy.Label} {u : Proxy.Sys}
    (hstep : s.proxy.step cfg.proxy l = some u) (hrule : Proxy.Lawful cfg.proxy s.proxy l)
    (hok : Proxy.Sys.Smooth cfg.proxy s.proxy l) : Proxy.Sys.Settling u := by
  have hmove := Proxy.Sys.step_move hC.orderly.wired.isOpen hstep
  exact hi.step hmove hC.orderly (hC.orderly.step hmove hrule) hrule hok

/-- What a process reads is what its `send` may rely on. -/
theorem Contract.sendRule_received (hC : Contract cfg s) {x : Frame × Proxy.Carries}
    (hx : (s.sent k)[s.seen k]? = some x) {l : Worker.Label} (hgets : s.Gets x.2 l) : SendRule (s.process k) l := by
  obtain ⟨f, c⟩ := x
  cases c with
  | connack =>
      obtain ⟨proto, rfl⟩ := hgets
      trivial
  | request n =>
      obtain rfl := hgets
      trivial
  | response m =>
      cases m with
      | none => exact hgets.elim
      | some n =>
          obtain ⟨p, rfl, hreplied⟩ := hgets
          obtain ⟨i, -, hawaits, hcall⟩ := hC.awaited hx
          exact ⟨i, hawaits.1, hawaits.2.1, hcall.trans (hC.replied_callId hreplied).1.symm, hawaits.2.2⟩

theorem Gets.keepsResponse {x : Frame × Proxy.Carries} {l : Worker.Label} (hgets : s.Gets x.2 l)
    (hok : responseTo x.2 ≠ none → ∀ i < (s.process k).nsend, ((s.process k).sends i).pc ≠ .write) :
    Worker.Sys.KeepsResponse (s.process k) l := by
  obtain ⟨f, c⟩ := x
  cases c with
  | connack =>
      obtain ⟨proto, rfl⟩ := hgets
      trivial
  | request n =>
      obtain rfl := hgets
      trivial
  | response m =>
      cases m with
      | none => exact hgets.elim
      | some n =>
          obtain ⟨p, rfl, -⟩ := hgets
          exact hok (Option.some_ne_none n)

theorem Recorded.step (hr : s.Recorded) (hC : Contract cfg s) (h : Move cfg s l t) : t.Recorded := by
  intro c hm
  cases h with
  | @proxy l u _ hstep =>
      have hmove := Proxy.Sys.step_move hC.orderly.wired.isOpen hstep
      rcases hmove.noted hm with hold | ⟨k, f, hout⟩
      · obtain ⟨k, f, hsent⟩ := hr c hold
        exact ⟨k, f, List.mem_append_left _ hsent⟩
      · exact ⟨k, f, List.mem_append_right _ hout⟩
  | @read k o rest u _ _ hstep =>
      have hmove := Proxy.Sys.step_move hC.orderly.wired.isOpen hstep
      rcases hmove.noted hm with hold | ⟨k', f, hout⟩
      · exact hr c hold
      · cases hout
  | connack | internal | actor => exact hr c hm

theorem ProxyMoves.greeted {l : Proxy.Label} (hmoves : s.ProxyMoves cfg t l) (hC : Contract cfg s)
    (hok : ∀ k, l ≠ .resume k true) (hg : s.Greeted k) : t.Greeted k := by
  rcases hg with ⟨f, hf⟩ | ⟨hsent, hunfinished, hcarries⟩
  · left
    rw [hmoves.sent, List.getElem?_append_left (List.getElem?_eq_some_iff.mp hf).1]
    exact ⟨f, hf⟩
  · have hO := hC.orderly
    have hmove := Proxy.Sys.step_writeMove hO.wired.isOpen hO.wired.absent hmoves.step
    rcases hmove.pending hunfinished with ⟨hstill, hsame, hmore⟩ | ⟨count, rfl, hdone⟩ | hfailed
    · have hnone : s.proxy.wentOut k l = [] := by
        by_contra hne
        obtain ⟨x, hx⟩ := List.exists_mem_of_ne_nil _ hne
        obtain ⟨j, count, hl, hj, hdone, -⟩ := hmoves.wentOut hx
        obtain rfl := (hC.transport.whole k).single j k hj hunfinished
        exact hmore count hl hdone
      right
      rw [hmoves.sent, hsent, hnone]
      exact ⟨rfl, hstill, hsame.trans hcarries⟩
    · left
      rw [hmoves.sent, hsent, Proxy.Sys.wentOut_transfer, if_pos ⟨hunfinished.2.1, hdone⟩, hcarries]
      exact ⟨_, rfl⟩
    · exact absurd hfailed (hok k)

theorem ProxyMoves.greeted_actors {l : Proxy.Label} (hmoves : s.ProxyMoves cfg t l) (hC : Contract cfg s)
    (hrule : Proxy.Lawful cfg.proxy s.proxy l) (hok : ∀ k, l ≠ .resume k true)
    (hg : ∀ r < s.proxy.proxy.nactors, s.Greeted (s.proxy.proxy.actors r).socket) :
    ∀ r < t.proxy.proxy.nactors, t.Greeted (t.proxy.proxy.actors r).socket := by
  obtain ⟨hold, hnew⟩ := (hmoves.move hC.orderly).registration
  intro r hr
  rcases hnew r hr with hlt | ⟨k, p, rfl, hsocket, -⟩
  · rw [(hold r hlt).2.1]
    exact hmoves.greeted hC hok (hg r hlt)
  · rw [hsocket]
    right
    have hnone : s.sent k = [] := by
      by_contra hne
      obtain ⟨r', hr', hk⟩ := hC.owned hne
      exact (hrule.1 r' hr').1 hk
    have hproxy := Proxy.Sys.connect_step hmoves.step
    refine ⟨?_, ?_, ?_⟩
    · rw [hmoves.sent, hnone]
      rfl
    · rw [hproxy]
      simp [Proxy.Sys.Unfinished, Proxy.Sys.onConnect, Proxy.Pc.writing, Frame.bytes_ne_nil]
    · rw [hproxy]
      simp [Proxy.Sys.onConnect]

theorem Move.unstarted (h : Move cfg s l t) (hu : ∀ k, (s.system.peer k).started = false → s.seen k = 0) :
    ∀ k, (t.system.peer k).started = false → t.seen k = 0 := by
  have hstarted : ∀ {j : Proxy.Conn} {r : System.Peer} {f : Proxy.Conn → Nat}, r.started = true →
      (∀ k, k ≠ j → f k = s.seen k) → ∀ k, ((s.system.setPeer j r).peer k).started = false → f k = 0 := by
    intro j r f hr hf k hk
    by_cases hkj : k = j
    · rw [hkj, System.Sys.setPeer_self, hr] at hk
      cases hk
    · rw [System.Sys.setPeer_of_ne _ hkj] at hk
      rw [hf k hkj]
      exact hu k hk
  cases h with
  | proxy | read => exact hu
  | connack => exact hstarted rfl fun k hk => Function.update_of_ne hk _ _
  | internal _ _ hs => exact hstarted hs fun k hk => Function.update_of_ne hk _ _
  | actor hs => exact hstarted hs fun _ _ => rfl

theorem unhindered_init (cfg : System.Setting) : Unhindered cfg (Sys.init cfg) where
  contract := contract_init cfg
  settling := (Proxy.Sys.settling_of_reachable (Reachable.init : Reachable (Proxy.machine cfg.proxy) _ _)).2
  meant k := Worker.Sys.sends_meant (Reachable.init : Reachable (Worker.machine (cfg.worker k)) _ _)
  recorded c hm := by
    cases c with
    | request n => cases hm
    | response m => cases m <;> cases hm
    | connack => exact hm.elim
  greeted _ hr := absurd hr (Nat.not_lt_zero _)
  unstarted _ _ := rfl

theorem Unhindered.step (hs : Unhindered cfg s) (hcons : cfg.Consistent)
    (hinv : cfg.codec.deserialize.Inverts cfg.codec.serialize) (hack : Pack.Sized cfg.codec (.connack ⟨true⟩))
    (hallowed : s.Allowed cfg l) (hsmooth : s.Smooth cfg l) (h : Move cfg s l t) : Unhindered cfg t := by
  have hC := hs.contract
  refine ⟨hC.step hcons hinv hack hallowed h, ?_, ?_, hs.recorded.step hC h, ?_, h.unstarted hs.unstarted⟩
  · cases h with
    | proxy hl hstep => exact hC.settling_step hs.settling hstep (proxyRule_of_isRead hl hallowed).1.1 hsmooth
    | @read k o rest u hout _ hstep =>
        obtain ⟨hadmits, -⟩ := hallowed o (by rw [hout]; rfl)
        refine hC.settling_step hs.settling hstep (hC.read_rule hcons hout hadmits).1 ?_
        cases o with
        | response p => exact hadmits
        | connect | request => trivial
    | connack | internal | actor => exact hs.settling
  · have hother : ∀ {j : Proxy.Conn} {r : System.Peer}, r.process.SendsMeant →
        ∀ k, ((s.system.setPeer j r).peer k).process.SendsMeant := by
      intro j r hr k
      by_cases hk : k = j
      · rwa [hk, System.Sys.setPeer_self]
      · rw [System.Sys.setPeer_of_ne _ hk]
        exact hs.meant k
    cases h with
    | proxy | read => exact hs.meant
    | connack => exact hother (hs.meant _)
    | @internal k out l rest w hround hstep _ =>
        obtain ⟨x, hx, hgets, -⟩ := hC.transport.receive (hC.routed hcons hack) hinv hack hround
        exact hother ((hs.meant k).step (Worker.Sys.step_move hstep) (hC.sendRule_received hx hgets)
          (hgets.keepsResponse (hsmooth x hx)))
    | @actor k l w _ hlocal hstep =>
        refine hother ((hs.meant k).step (Worker.Sys.step_move hstep) ?_ ?_)
        · cases l with
          | response => cases hlocal
          | send => exact hallowed.2
          | _ => trivial
        · cases l with
          | response => cases hlocal
          | _ => trivial
  · cases h with
    | @proxy l u hl hstep =>
        refine (proxyMoves_of_step hstep).greeted_actors hC (proxyRule_of_isRead hl hallowed).1.1 ?_ hs.greeted
        rintro k rfl
        cases hsmooth
    | @read k o rest u hout _ hstep =>
        obtain ⟨hadmits, -⟩ := hallowed o (by rw [hout]; rfl)
        exact (proxyMoves_of_read rest hstep).greeted_actors hC (hC.read_rule hcons hout hadmits).1 nofun hs.greeted
    | connack | internal | actor => exact hs.greeted

/-! ### At rest -/

/-- What the coroutine of the proxy behind a connection and the reads on the connection do next, whether they can or
not. -/
def linkActs (k : Proxy.Conn) : List Label :=
  [.proxy (.transfer k 0), .proxy (.resume k false), .proxy (.run k), .read k, .connack k, .internal k]

/-- Nothing moves on a connection. -/
def LinksRest (cfg : System.Setting) (s : Sys) : Prop :=
  ∀ k < s.proxy.nconn, ∀ l ∈ linkActs k, s.step cfg l = none

/-- The processes that were connected still are, and what they have written has frames of at most four bytes of
length. -/
def Linked (cfg : System.Setting) (s : Sys) : Prop := ∀ k < s.proxy.nconn,
  (s.process k).unixOpen = true ∧ (s.process k).internal = true ∧
    ∀ o ∈ s.outbox k, cfg.Sends (.read k (s.input cfg k o))

instance (cfg : System.Setting) (s : Sys) : Decidable (s.LinksRest cfg) :=
  inferInstanceAs (Decidable (∀ k < s.proxy.nconn, ∀ l ∈ linkActs k, s.step cfg l = none))

instance (cfg : System.Setting) (s : Sys) : Decidable (s.Linked cfg) :=
  inferInstanceAs (Decidable (∀ k < s.proxy.nconn, _ ∧ _ ∧ ∀ o ∈ s.outbox k, _))

namespace LinksRest

variable (h : s.LinksRest cfg)

include h

theorem proxy_none (hk : k < s.proxy.nconn) {l : Proxy.Label} (hl : Label.proxy l ∈ linkActs k)
    (hread : isRead l = false) (hsends : cfg.Sends l) : s.proxy.step cfg.proxy l = none := by
  have hnone := h k hk _ hl
  simp only [step, hread, Bool.false_eq_true, if_false, onProxy, System.Sys.step, if_pos hsends, Option.map_eq_none_iff]
    at hnone
  exact hnone

variable (hs : Unhindered cfg s) (hsane : s.proxy.fault = false)

include hs

include hsane in
/-- No coroutine of the proxy is in the middle of something. -/
theorem quiescent : s.proxy.running = none ∧ s.proxy.Quiescent := by
  have hO := hs.contract.orderly
  have hrun : s.proxy.running = none := by
    by_contra hne
    obtain ⟨j, hj⟩ := Option.ne_none_iff_exists'.mp hne
    have hholds := (hO.controlled j).mpr hj
    have hlt : j < s.proxy.nconn := by
      by_contra hle
      rw [hO.wired.absent j (not_lt.mp hle)] at hholds
      cases hholds
    have hnone := h.proxy_none hlt (l := .run j) (by simp [linkActs]) rfl trivial
    simp [Proxy.Sys.step, hsane, hj] at hnone
  refine ⟨hrun, fun k hk => ?_⟩
  have hready : s.proxy.Ready := ⟨hsane, hrun⟩
  have hnot : (s.proxy.pc k).holds = false := by
    by_contra hholds
    rw [Bool.not_eq_false, hO.controlled k, hrun] at hholds
    cases hholds
  have hwriting : (s.proxy.pc k).writing = false := by
    by_contra hw
    rw [Bool.not_eq_false] at hw
    by_cases hleft : (s.proxy.write k).left = []
    · have hnone := h.proxy_none hk (l := .resume k false) (by simp [linkActs]) rfl trivial
      simp [Proxy.Sys.step, hready, hw, hleft] at hnone
    · have hnone := h.proxy_none hk (l := .transfer k 0) (by simp [linkActs]) rfl trivial
      simp [Proxy.Sys.step, hready, hw, hleft] at hnone
  cases hpc : s.proxy.pc k with
  | read => exact Or.inl rfl
  | done => exact Or.inr rfl
  | absent => exact absurd ((hs.settling.alive k).2 hpc) (not_le.mpr hk)
  | handle | wake =>
      rw [hpc] at hnot
      cases hnot
  | connack | request | response =>
      rw [hpc] at hwriting
      cases hwriting

include hsane in
/-- The proxy has read what the processes have written. -/
theorem outbox_nil (hlinked : s.Linked cfg) (hk : k < s.proxy.nconn) : s.outbox k = [] := by
  obtain ⟨hrun, hq⟩ := h.quiescent hs hsane
  have hpc : s.proxy.pc k = .read := (hq k hk).resolve_right (hs.settling.alive k).1
  have hnone := h k hk (.read k) (by simp [linkActs])
  cases hout : s.outbox k with
  | nil => rfl
  | cons o rest =>
      have hsends := (hlinked k hk).2.2 o (by rw [hout]; exact List.mem_cons_self)
      have hready : s.proxy.Ready := ⟨hsane, hrun⟩
      simp only [step, onRead, hout, System.Sys.step, if_pos hsends, Option.map_eq_none_iff] at hnone
      change Proxy.Sys.step cfg.proxy s.proxy _ = none at hnone
      simp [Proxy.Sys.step, hready, hpc] at hnone

section Reading

variable (hcons : cfg.Consistent) (hinv : cfg.codec.deserialize.Inverts cfg.codec.serialize)
  (hack : Pack.Sized cfg.codec (.connack ⟨true⟩)) (hlinked : s.Linked cfg) (hk : k < s.proxy.nconn)

include hcons hinv hack hlinked hk

include hsane in
/-- A process that is connected has read its CONNACK. -/
theorem started : (s.system.peer k).started = true := by
  by_contra hne
  rw [Bool.not_eq_true] at hne
  obtain ⟨-, hq⟩ := h.quiescent hs hsane
  have hC := hs.contract
  obtain ⟨r, hr, hsocket, -⟩ : ∃ r < s.proxy.proxy.nactors, (s.proxy.proxy.actors r).socket = k ∧
      (s.proxy.proxy.actors r).pid = cfg.pid k ∧ (s.proxy.proxy.actors r).name = cfg.name k := by
    rcases hC.registered k with ⟨hconnect, -⟩ | ⟨-, hactor⟩
    · rw [h.outbox_nil hs hsane hlinked hk] at hconnect
      cases hconnect
    · exact hactor
  have hgreeted := hs.greeted r hr
  rw [hsocket] at hgreeted
  rcases hgreeted with ⟨f, hf⟩ | ⟨-, ⟨hwriting, -⟩, -⟩
  · rw [← hs.unstarted k hne] at hf
    obtain ⟨more, hunread, hsize, -⟩ := hC.transport.unread_next (hC.routed hcons hack) hf
    obtain ⟨rest, hread, -⟩ := readConnack_whole (l := (s.system.peer k).locals) hsize
      (List.flatten_singleton.trans hunread)
    have hmeant : f = (Pack.connack ⟨true⟩).frame cfg.codec.serialize :=
      hC.transport.meant k _ (List.mem_of_getElem? hf)
    have hnone := h k hk (.connack k) (by simp [linkActs])
    simp [step, onReceive, System.Sys.step, hne, System.Sys.onConnack, hread, hmeant, Pack.frame, hinv.connack] at hnone
  · rw [(hq k hk).resolve_right (hs.settling.alive k).1] at hwriting
    cases hwriting

include hsane in
/-- A process that can read has read what the proxy has sent. -/
theorem all_seen (hready : (s.process k).Ready) : s.seen k = (s.sent k).length := by
  have hstarted := h.started hs hsane hcons hinv hack hlinked hk
  have hinternal : (s.process k).internal = true := (hlinked k hk).2.1
  have hT := hs.contract.transport
  cases hx : (s.sent k)[s.seen k]? with
  | none => exact Nat.le_antisymm (hT.seen k) (List.getElem?_eq_none_iff.mp hx)
  | some x =>
      obtain ⟨more, hunread, hsize, -⟩ := hT.unread_next (hs.contract.routed hcons hack) hx
      obtain ⟨p, hp, -⟩ := (hT.meant k x (List.mem_of_getElem? hx)).gets
      rw [hp] at hsize hunread
      obtain ⟨l, rest, hround, -⟩ := (reads_internal hinv).whole (s.system.peer k).locals [s.system.unread k] p more
        hsize (List.flatten_singleton.trans hunread)
      have henabled : ∀ l, System.isLocal l = false → (s.process k).step (cfg.worker k) l ≠ none := by
        intro l hl
        cases l with
        | request | response | other => simp [Worker.Sys.step, hready, hinternal]
        | _ => cases hl
      have hnone := h k hk (.internal k) (by simp [linkActs])
      simp only [step, onReceive, System.Sys.step, if_pos hstarted, System.Sys.onInternal, hround,
        Option.map_eq_none_iff] at hnone
      exact absurd hnone (henabled _ (isLocal_received _))

end Reading

end LinksRest

section Still

variable (hs : Unhindered cfg s) (hq : s.proxy.Quiescent)

include hs hq

/-- What a process awaits has not been answered. -/
theorem Unhindered.asks (hout : s.outbox k = []) (hseen : s.seen k = (s.sent k).length)
    (hawaits : (s.process k).Awaits i) :
    ∃ r < s.proxy.proxy.nactors, (s.proxy.proxy.actors r).socket = k ∧ s.proxy.Asks r := by
  have hasking := hs.contract.asking k
  have hserial : s.serial k i ≠ none := by
    intro hnone
    have hmem := hasking.unasked i hawaits.1 hawaits.2.1 hnone
    rw [hout] at hmem
    cases hmem
  obtain ⟨n, hn⟩ := Option.ne_none_iff_exists'.mp hserial
  obtain ⟨-, -, hlt, hconn, -⟩ := hasking.asked i n hn
  have hnot : n ∉ s.responsesRead k := (hasking.answered i n hn).mp hawaits.2.2
  have hreply : s.proxy.history.replies n = [] := by
    by_contra hne
    obtain ⟨k', f, hsent⟩ := hs.recorded (.response (some n))
      (hs.settling.returned hs.contract.orderly hq hlt hne)
    obtain ⟨-, hk', -⟩ := hs.contract.transport.meant k' _ hsent
    obtain rfl : k' = k := hk'.symm.trans hconn
    rw [responsesRead, hseen, List.take_length] at hnot
    exact hnot (List.mem_filterMap.mpr ⟨_, hsent, rfl⟩)
  have hentry := hs.contract.orderly.booked.entry n hlt
  exact ⟨_, hentry.issuer_lt, hentry.issuer_socket.trans hconn, n, hlt, rfl, hreply⟩

/-- A process without a message to handle has no REQUEST to serve. -/
theorem Unhindered.not_serving (hout : s.outbox k = []) (hseen : s.seen k = (s.sent k).length)
    (hpc : (s.process k).pc = .waitMsg) (hqueue : (s.process k).ctx.msgQueue = [])
    (hopen : (s.process k).isOpen none = true) {r : Proxy.Ref} (hk : (s.proxy.proxy.actors r).socket = k) :
    ¬ s.proxy.Serving r := by
  rintro ⟨n, hn, hw, hreply⟩
  have hC := hs.contract
  obtain ⟨k', f, hsent⟩ := hs.recorded (.request n) (hs.settling.delivered hC.orderly hq hn
    (by rw [hw]; exact List.cons_ne_nil _ _))
  obtain ⟨-, -, r', -, hr', hk'⟩ := hC.transport.meant k' _ hsent
  rw [hw, List.mem_singleton] at hr'
  obtain rfl : k' = k := by rw [← hk', ← hk, hr']
  have hmem : n ∈ s.requests k' := List.mem_filterMap.mpr ⟨_, hsent, rfl⟩
  have hread : s.requestsRead k' = s.requests k' := by rw [requestsRead, hseen, List.take_length, requests]
  obtain ⟨hsound, hacc⟩ := hC.accounted k'
  obtain ⟨d, hans⟩ := hC.answering k'
  have hlength : (s.process k').history.responses.length = (s.requests k').length := by
    have hall := Worker.Sys.answers_of_idle hsound hacc hpc hqueue hopen
    rw [hans.pushed, hread, List.length_map, History.answersOn, List.length_map] at hall
    exact hall
  have hle : (s.process k').history.responses.length ≤ d := by
    have hdrop := hans.answers
    rw [hout] at hdrop
    exact List.drop_eq_nil_iff.mp hdrop.symm
  apply hans.done n _ hreply
  rwa [List.take_of_length_le (by omega)]

end Still

section Graph

variable (hs : Unhindered cfg s) (hq : s.proxy.Quiescent)
  (hstill : ∀ k < s.proxy.nconn, s.outbox k = [] ∧ s.seen k = (s.sent k).length ∧
    (s.process k).isOpen none = true ∧ (s.process k).AtRest)

include hs hq hstill

/-- An actor that has not been answered waits for another one that has not. -/
theorem Unhindered.waits {r : Proxy.Ref} (hasks : s.proxy.Asks r) : ∃ b, s.proxy.WaitsFor r b ∧ s.proxy.Asks b := by
  have hO := hs.contract.orderly
  obtain ⟨b, hwaits, hb | hserving⟩ := hs.settling.waits hO hq hasks
  · exact ⟨b, hwaits, hb⟩
  · obtain ⟨n, hn, hw, -⟩ := id hserving
    have hb : b ∈ s.proxy.history.buffered n ++ s.proxy.history.written n := by
      rw [hw]
      exact List.mem_append_right _ (List.mem_singleton_self b)
    have hlt := ((hO.booked.entry n hn).callee b hb).1
    obtain ⟨hout, hseen, hopen, ⟨hpc, hqueue⟩ | ⟨i, hawaits⟩⟩ := hstill _ (hO.wired.connected b hlt)
    · exact absurd hserving (hs.not_serving hq hout hseen hpc hqueue hopen rfl)
    · obtain ⟨r', hr', hsocket, hasks'⟩ := hs.asks hq hout hseen hawaits
      obtain rfl := hO.wired.socket_inj r' hr' b hlt hsocket
      exact ⟨r', hwaits, hasks'⟩

/-- **Who is not answered waits in a circle.** When the actors do not, each process has handled all its messages. -/
theorem Unhindered.idle (hacyclic : WaitGraph.Acyclic s.proxy.WaitsFor) (hk : k < s.proxy.nconn) :
    (s.process k).pc = .waitMsg ∧ (s.process k).ctx.msgQueue = [] := by
  have hnone : {r | s.proxy.Asks r} = ∅ := by
    apply hacyclic.eq_empty
    · refine (Set.finite_lt_nat s.proxy.proxy.nactors).subset ?_
      rintro r ⟨n, hn, rfl, -⟩
      exact (hs.contract.orderly.booked.entry n hn).issuer_lt
    · intro r hr
      obtain ⟨b, hwaits, hb⟩ := hs.waits hq hstill hr
      exact ⟨b, hb, hwaits⟩
  obtain ⟨hout, hseen, -, hidle | ⟨i, hawaits⟩⟩ := hstill k hk
  · exact hidle
  · obtain ⟨r, -, -, hasks⟩ := hs.asks hq hout hseen hawaits
    have hmem : r ∈ {r | s.proxy.Asks r} := hasks
    rw [hnone] at hmem
    exact hmem.elim

end Graph

/-- When every `send` has returned, nobody waits. -/
theorem Contract.acyclic (hC : Contract cfg s)
    (hover : ∀ k < s.proxy.nconn, ∀ i < (s.process k).nsend, ((s.process k).sends i).pc.over = true) :
    WaitGraph.Acyclic s.proxy.WaitsFor := by
  have hO := hC.orderly
  apply WaitGraph.acyclic_empty
  rintro a b ⟨n, hn, -, hunanswered, -⟩
  have hentry := hO.booked.entry n hn
  have hk : s.proxy.history.conn n < s.proxy.nconn := by
    rw [← hentry.issuer_socket]
    exact hO.wired.connected _ hentry.issuer_lt
  have hasking := hC.asking (s.proxy.history.conn n)
  obtain ⟨i, hi⟩ := hasking.known n hn rfl
  obtain ⟨hlt, hwritten, -⟩ := hasking.asked i n hi
  have hanswer : (s.process (s.proxy.history.conn n)).history.answer i ≠ none := by
    cases hpc : ((s.process (s.proxy.history.conn n)).sends i).pc with
    | write | wait =>
        have ho := hover _ hk i hlt
        rw [hpc] at ho
        cases ho
    | returned result =>
        rcases (Send.tracked_returned hpc).mp ((hC.tracked _).tracked i hlt) with ⟨-, hnot, -⟩ | ⟨-, p, hp, -⟩
        · rw [hwritten] at hnot
          cases hnot
        · rw [hp]
          exact Option.some_ne_none p
  have hgot : n ∈ s.responsesRead (s.proxy.history.conn n) :=
    not_not.mp fun hnot => hanswer ((hasking.answered i n hi).mpr hnot)
  obtain ⟨-, -, -, r, hr, hreply, hsocket⟩ := hC.read_response hgot
  obtain rfl := hO.wired.socket_inj r hr _ hentry.issuer_lt (hsocket.trans hentry.issuer_socket.symm)
  exact hunanswered hreply

end Sys

end CoroActor.Cluster
