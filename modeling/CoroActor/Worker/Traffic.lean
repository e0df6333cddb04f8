import CoroActor.Worker.Generation
import CoroActor.Worker.Replies
import CoroActor.Worker.Sends

/-! What passes between an actor process and the proxy, seen from the process: the REQUESTs that it reads become
messages, the RESPONSEs that it writes answer the first of these messages in their order, and every REQUEST that it
writes belongs to the one service that is running. -/

namespace CoroActor.Worker

open TransitionSystem

/-- The message that a REQUEST becomes. -/
def CoroActorMsg.ofRequest (p : CoroActorRequest) : CoroActorMsg := ⟨p.serviceName, p.callId, p.requestPack, none, true⟩

/-- What a step pushes for the link to the proxy. -/
def Label.arrivals : Label → List CoroActorMsg
  | .request p => [.ofRequest p]
  | _ => []

namespace Sys

variable {cfg : Setting} {s t : Sys} {l : Label} {i j : Nat} {msg : CoroActorMsg}

theorem Move.pushedOn_link (h : s.Move cfg l t) :
    t.history.pushedOn none = s.history.pushedOn none ++ l.arrivals := by
  have hsame : t.history.pushed = s.history.pushed → l.arrivals = [] →
      t.history.pushedOn none = s.history.pushedOn none ++ l.arrivals := by
    intro hpushed hnone
    rw [hnone, List.append_nil, History.pushedOn, hpushed]
    rfl
  cases h with
  | leave | serviceNotified =>
      apply hsame _ rfl
      exact finish_kept (P := fun u => u.history.pushed = s.history.pushed) _ _ fun _ _ _ _ _ _ _ => rfl
  | remote =>
      rw [push_eq]
      simp [History.pushedOn, Label.arrivals]
  | request =>
      rw [onRequest_eq]
      simp [History.pushedOn, Label.arrivals, CoroActorMsg.ofRequest]
  | send =>
      apply hsame _ rfl
      rw [startSend_eq]
      rfl
  | _ => exact hsame rfl rfl

/-! ### The RESPONSEs -/

/-- The RESPONSE that answers a call of `func`. -/
def responseOf (s : Sys) (j : Nat) : CoroActorResponse :=
  ⟨s.ctx.pid, (s.history.message j).callId, (s.history.message j).serviceName, s.history.produced j⟩

/-- The RESPONSEs answer the first calls for messages of the link. -/
def Labelled (s : Sys) : Prop :=
  s.history.responses = ((s.history.callsOn none).take s.history.responses.length).map s.responseOf

theorem finish_responses (s : Sys) (msg : CoroActorMsg) :
    (s.finish msg).history.responses = s.history.responses ∨
      msg.socket = none ∧ s.unixOpen = true ∧ s.ctx.errorMsg = [] ∧ (s.finish msg).history.responses =
        s.history.responses ++ [⟨s.ctx.pid, msg.callId, msg.serviceName, s.respPack⟩] := by
  unfold finish
  split
  · exact Or.inl rfl
  · next herr =>
      rw [not_not] at herr
      cases hsocket : msg.socket with
      | some k =>
          left
          simp only [setPc_history, setCtx_history]
          split <;> rfl
      | none =>
          cases hunix : msg.unixSocket with
          | false => exact Or.inl rfl
          | true =>
              cases hopen : s.unixOpen with
              | false => exact Or.inl rfl
              | true => exact Or.inr ⟨rfl, rfl, herr, rfl⟩

/-- A step writes one RESPONSE or none. -/
theorem Move.responses_isPrefix (h : s.Move cfg l t) : s.history.responses <+: t.history.responses := by
  have hfinish : ∀ {c : CoroActorCtx} {msg : CoroActorMsg},
      s.history.responses <+: ((s.setCtx c s.history).finish msg).history.responses := by
    intro c msg
    rcases (s.setCtx c s.history).finish_responses msg with hsame | ⟨-, -, -, hmore⟩
    · rw [hsame]
      exact List.prefix_rfl
    · rw [hmore]
      exact List.prefix_append _ _
  cases h with
  | leave => exact hfinish (c := s.ctx)
  | serviceNotified => exact hfinish
  | remote =>
      rw [push_eq]
      exact List.prefix_rfl
  | request =>
      rw [onRequest_eq]
      exact List.prefix_rfl
  | send =>
      rw [startSend_eq]
      exact List.prefix_rfl
  | _ => exact List.prefix_rfl

/-- The calls that were answered on the link, and the message that is served if it came over the link. -/
theorem Accounted.link (ha : Accounted s) : ∃ done rest, s.history.callsOn none = done ++ rest ∧
    (s.history.callsOn none).take s.history.responses.length = done ∧
    s.history.responses.map CoroActorResponse.responsePack = done.map s.history.produced ∧
    (∀ j ∈ done, s.history.completed j = true ∧ s.history.failed j = false) ∧
    ∀ msg, s.pc.phase.served = some msg → msg.socket = none → ∃ j, s.history.ninv = j + 1 ∧ rest = [j] := by
  obtain ⟨done, rest, hacc⟩ := ha.account none
  have hlen : s.history.responses.length = done.length := by
    have hmap := congrArg List.length hacc.answers
    simpa [History.answersOn] using hmap
  refine ⟨done, rest, hacc.calls, ?_, hacc.answers, hacc.done, hacc.served⟩
  rw [hlen, hacc.calls, List.take_left]

theorem message_of_served (hs : s.server.Sound) (hserved : s.pc.phase.served = some msg)
    (hj : s.history.ninv = j + 1) : s.history.message j = msg := by
  obtain ⟨i, hlen, hmsg, -⟩ := hs.current msg hserved
  rw [started_length, hj] at hlen
  obtain rfl : j = i := Nat.succ.inj hlen
  have hget : s.server.started[j]? = some (s.history.message j) := by
    simp [server, hj]
  exact Option.some.inj (hget.symm.trans hmsg)

theorem message_mem (hs : s.server.Sound) (hj : j < s.history.ninv) : s.history.message j ∈ s.history.pushed := by
  have hget : s.server.started[j]? = some (s.history.message j) := by
    simp [server, hj]
  have htaken : s.history.message j ∈ s.history.taken := hs.sublist.subset (List.mem_of_getElem? hget)
  rw [show s.history.pushed = s.history.taken ++ s.ctx.msgQueue from hs.fifo]
  exact List.mem_append_left _ htaken

/-- The pass over the message is over, and what `handle_message` waited on is not looked at. -/
theorem Labelled.leave (hl : Labelled s) (ha : Accounted s) (hs : s.server.Sound)
    (hserved : s.pc.phase.served = some msg) {c : CoroActorCtx} (hpid : c.pid = s.ctx.pid) :
    Labelled ((s.setCtx c s.history).finish msg) := by
  have hhist := (s.setCtx c s.history).finish_history msg
  have hcalls : ((s.setCtx c s.history).finish msg).history.callsOn none = s.history.callsOn none := by
    rw [hhist]
    rfl
  have hof : ((s.setCtx c s.history).finish msg).responseOf = s.responseOf := by
    funext j
    have hsame : ((s.setCtx c s.history).finish msg).ctx.pid = c.pid :=
      finish_kept (P := fun u => u.ctx.pid = c.pid) _ msg fun _ _ _ _ _ _ _ => rfl
    unfold responseOf
    rw [hsame, hpid, hhist]
    rfl
  unfold Labelled at hl ⊢
  rw [hcalls, hof]
  rcases (s.setCtx c s.history).finish_responses msg with hsame | ⟨hsocket, -, -, hresponses⟩
  · rw [hsame]
    exact hl
  · obtain ⟨done, rest, hdone, htake, -, -, hlast⟩ := ha.link
    obtain ⟨j, hj, rfl⟩ := hlast msg hserved hsocket
    rw [htake] at hl
    have hnew : s.responseOf j = ⟨c.pid, msg.callId, msg.serviceName, s.respPack⟩ := by
      rw [responseOf, message_of_served hs hserved hj, (ha.current msg j hserved hj).2, hpid]
    have hall : ((s.setCtx c s.history).finish msg).history.responses = (done ++ [j]).map s.responseOf := by
      rw [hresponses, List.map_append, List.map_singleton, hnew, ← hl]
      rfl
    rw [hdone, hall, List.length_map, List.take_length]

theorem Labelled.step (hl : Labelled s) (h : s.Move cfg l t) (ha : Accounted s) (hs : s.server.Sound)
    (hrule : Rule s l) : Labelled t := by
  obtain ⟨done, rest, hcalls, htake, -, hdone, -⟩ := ha.link
  have hlt : ∀ j ∈ done, j < s.history.ninv := by
    intro j hj
    apply History.callsOn_lt (χ := none)
    rw [hcalls]
    exact List.mem_append_left rest hj
  cases h with
  | @invoke type msg more hpc hq hopen hservice =>
      unfold Labelled at hl ⊢
      have hmore : ((s.takeFront msg more).invoke msg type).history.callsOn none =
          s.history.callsOn none ++ if msg.socket = none then [s.history.ninv] else [] :=
        History.callsOn_invoke (h := s.history.take msg)
      have hlen : s.history.responses.length ≤ (s.history.callsOn none).length := by
        have hmap := congrArg List.length hl
        rw [List.length_map, List.length_take] at hmap
        omega
      rw [hmore]
      show s.history.responses = ((s.history.callsOn none ++ if msg.socket = none then [s.history.ninv] else []).take
        s.history.responses.length).map _
      rw [List.take_append_of_le_length hlen, htake]
      rw [htake] at hl
      refine hl.trans (List.map_congr_left fun j hj => ?_)
      have hne : j ≠ s.history.ninv := (hlt j hj).ne
      show s.responseOf j =
        ⟨s.ctx.pid, (Function.update s.history.message s.history.ninv msg j).callId,
          (Function.update s.history.message s.history.ninv msg j).serviceName,
          Function.update s.history.produced s.history.ninv ⟨type, []⟩ j⟩
      rw [Function.update_of_ne hne, Function.update_of_ne hne]
      rfl
  | leave hpc => exact hl.leave (c := s.ctx) ha hs (by rw [hpc]; rfl) rfl
  | serviceNotified hpc => exact hl.leave ha hs (by rw [hpc]; rfl) rfl
  | remote =>
      rw [push_eq]
      exact hl
  | request =>
      rw [onRequest_eq]
      exact hl
  | send =>
      rw [startSend_eq]
      exact hl
  | @respond j pack hserving hj =>
      unfold Labelled at hl ⊢
      show s.history.responses = ((s.history.callsOn none).take s.history.responses.length).map _
      rw [htake] at hl ⊢
      refine hl.trans (List.map_congr_left fun i hi => ?_)
      have hne : i ≠ j := by
        rintro rfl
        exact Bool.true_eq_false.mp ((hdone i hi).1.symm.trans hrule)
      show s.responseOf i = responseOf _ i
      simp only [responseOf, History.produce_message, History.produce_produced, Function.update_of_ne hne]
  | _ => exact hl

/-- The RESPONSEs in a run in which every service is done when it says so. -/
theorem labelled (hr : Reachable (machine cfg) LastRule s) : Labelled s := by
  have hinit : Labelled (Sys.init cfg) := Eq.refl []
  refine hr.invariant hinit fun u l t hu hl hrule hst => ?_
  obtain ⟨hs, ha⟩ := accounted hu
  exact hl.step (step_move hst) ha hs hrule.1

theorem link_isPrefix (ha : Accounted s) (hs : s.server.Sound) :
    (s.history.callsOn none).map s.history.message <+: s.history.pushedOn none := by
  obtain ⟨done, rest, hacc⟩ := ha.account none
  apply hacc.taken.trans
  rw [History.pushedOn, show s.history.pushed = s.history.taken ++ s.ctx.msgQueue from hs.fifo, List.filter_append]
  exact List.prefix_append _ _

theorem Labelled.responses_le (hl : Labelled s) (ha : Accounted s) (hs : s.server.Sound) :
    s.history.responses.length ≤ (s.history.pushedOn none).length := by
  have hlen := congrArg List.length hl
  rw [List.length_map, List.length_take] at hlen
  have hcalls := (link_isPrefix ha hs).length_le
  rw [List.length_map] at hcalls
  omega

/-- Number `i` of the RESPONSEs answers number `i` of the messages of the link, whose call is complete. -/
theorem Labelled.response (hl : Labelled s) (ha : Accounted s) (hs : s.server.Sound) {p : CoroActorResponse}
    (hp : s.history.responses[i]? = some p) : ∃ j, (s.history.callsOn none)[i]? = some j ∧
      s.history.completed j = true ∧ s.history.failed j = false ∧ p = s.responseOf j ∧
      (s.history.pushedOn none)[i]? = some (s.history.message j) := by
  obtain ⟨done, rest, hcalls, htake, -, hdone, -⟩ := ha.link
  unfold Labelled at hl
  rw [htake] at hl
  rw [hl, List.getElem?_map] at hp
  obtain ⟨j, hj, rfl⟩ := Option.map_eq_some_iff.mp hp
  have hmem : j ∈ done := List.mem_of_getElem? hj
  have hi : i < done.length := (List.getElem?_eq_some_iff.mp hj).1
  refine ⟨j, ?_, (hdone j hmem).1, (hdone j hmem).2, rfl, ?_⟩
  · rw [hcalls, List.getElem?_append_left hi, hj]
  obtain ⟨more, hmore⟩ := link_isPrefix ha hs
  rw [← hmore, hcalls, List.map_append, List.append_assoc, List.getElem?_append_left (by rwa [List.length_map]),
    List.getElem?_map, hj]
  rfl

/-- The message of the link that is served has not been answered, and all the messages of the link before it
have. -/
theorem Labelled.serving (hl : Labelled s) (ha : Accounted s) (hs : s.server.Sound)
    (hserved : s.pc.phase.served = some msg) (hsocket : msg.socket = none) :
    (s.history.pushedOn none)[s.history.responses.length]? = some msg := by
  obtain ⟨done, rest, hcalls, htake, -, -, hlast⟩ := ha.link
  obtain ⟨j, hj, rfl⟩ := hlast msg hserved hsocket
  have hlen : s.history.responses.length = done.length := by
    unfold Labelled at hl
    rw [hl, htake, List.length_map]
  obtain ⟨more, hmore⟩ := link_isPrefix ha hs
  rw [← hmore, hcalls, List.map_append, hlen, List.append_assoc, List.getElem?_append_right (by rw [List.length_map]),
    List.length_map, Nat.sub_self, ← message_of_served hs hserved hj]
  rfl

/-- A message of a client has no call id. -/
theorem Move.unnamed (h : s.Move cfg l t) (hs : ∀ msg ∈ s.history.pushed, msg.socket ≠ none → msg.callId = []) :
    ∀ msg ∈ t.history.pushed, msg.socket ≠ none → msg.callId = [] := by
  cases h with
  | leave | serviceNotified =>
      exact finish_kept (P := fun u => ∀ msg ∈ u.history.pushed, msg.socket ≠ none → msg.callId = []) _ _
        fun _ _ _ _ _ _ _ => hs
  | remote =>
      rw [push_eq]
      intro msg hmsg hsocket
      rcases List.mem_append.mp hmsg with hold | hnew
      · exact hs msg hold hsocket
      · rw [List.mem_singleton.mp hnew]
  | request =>
      rw [onRequest_eq]
      intro msg hmsg hsocket
      rcases List.mem_append.mp hmsg with hold | hnew
      · exact hs msg hold hsocket
      · rw [List.mem_singleton.mp hnew] at hsocket
        exact absurd rfl hsocket
  | send =>
      rw [startSend_eq]
      exact hs
  | _ => exact hs

theorem unnamed {ok : Sys → Label → Prop} (hr : Reachable (machine cfg) ok s) :
    ∀ msg ∈ s.history.pushed, msg.socket ≠ none → msg.callId = [] := by
  refine hr.invariant (I := fun u => ∀ msg ∈ u.history.pushed, msg.socket ≠ none → msg.callId = []) nofun ?_
  intro u l t _ hu _ hst
  exact (step_move hst).unnamed hu

/-! ### The REQUESTs -/

/-- A REQUEST carries the pid of its process and a call id, and names a service that the process does not offer. -/
def RequestsFormed (cfg : Setting) (s : Sys) : Prop :=
  ∀ i < s.nsend, (s.sends i).request.pid = cfg.pid ∧ (s.sends i).request.callId ≠ [] ∧
    cfg.serviceMap (s.sends i).request.serviceName = false

theorem startSend_nsend (s : Sys) (j : Nat) (serviceName : StdString) (pack : CoroActorPack) :
    (s.startSend j serviceName pack).nsend = s.nsend + 1 := by
  rw [startSend_eq]

theorem startSend_sends (s : Sys) (j : Nat) (serviceName : StdString) (pack : CoroActorPack) :
    (s.startSend j serviceName pack).sends = Function.update s.sends s.nsend
      ⟨j, ⟨s.ctx.pid, s.ctx.openCall.callId, serviceName, pack⟩, false, .write⟩ := by
  rw [startSend_eq]

theorem startSend_sends_self (s : Sys) (j : Nat) (serviceName : StdString) (pack : CoroActorPack) :
    (s.startSend j serviceName pack).sends s.nsend =
      ⟨j, ⟨s.ctx.pid, s.ctx.openCall.callId, serviceName, pack⟩, false, .write⟩ := by
  rw [startSend_sends, Function.update_self]

theorem startSend_sends_of_lt (s : Sys) (j : Nat) (serviceName : StdString) (pack : CoroActorPack) {i : Nat}
    (hi : i < s.nsend) : (s.startSend j serviceName pack).sends i = s.sends i := by
  rw [startSend_sends, Function.update_of_ne (Nat.ne_of_lt hi)]

theorem onResponded_sends (s : Sys) (i : Nat) : (s.onResponded i).sends = Function.update s.sends i
    { s.sends i with pc := .returned (some s.ctx.currRespPack.responsePack) } := rfl

/-- What a step leaves alone in the calls of `send` that were made. -/
theorem Move.sends_kept (h : s.Move cfg l t) : s.nsend ≤ t.nsend ∧ ∀ i < s.nsend,
    (t.sends i).service = (s.sends i).service ∧ (t.sends i).request = (s.sends i).request ∧
      ((s.sends i).written = true → (t.sends i).written = true) := by
  have hupdate : ∀ {i : Nat} {x : Send}, x.service = (s.sends i).service → x.request = (s.sends i).request →
      ((s.sends i).written = true → x.written = true) → ∀ j : Nat,
        (Function.update s.sends i x j).service = (s.sends j).service ∧
        (Function.update s.sends i x j).request = (s.sends j).request ∧
        ((s.sends j).written = true → (Function.update s.sends i x j).written = true) := by
    intro i x hservice hrequest hwritten j
    by_cases hj : j = i
    · rw [hj, Function.update_self]
      exact ⟨hservice, hrequest, hwritten⟩
    · rw [Function.update_of_ne hj]
      exact ⟨rfl, rfl, id⟩
  cases h with
  | leave | serviceNotified =>
      exact finish_kept (P := fun u => s.nsend ≤ u.nsend ∧ ∀ i < s.nsend,
        (u.sends i).service = (s.sends i).service ∧ (u.sends i).request = (s.sends i).request ∧
          ((s.sends i).written = true → (u.sends i).written = true)) _ _
        fun _ _ _ _ _ _ _ => ⟨Nat.le_refl _, fun _ _ => ⟨rfl, rfl, id⟩⟩
  | remote =>
      rw [push_eq]
      exact ⟨Nat.le_refl _, fun _ _ => ⟨rfl, rfl, id⟩⟩
  | request =>
      rw [onRequest_eq]
      exact ⟨Nat.le_refl _, fun _ _ => ⟨rfl, rfl, id⟩⟩
  | send =>
      rw [startSend_nsend, startSend_sends]
      refine ⟨Nat.le_succ _, fun i hi => ?_⟩
      rw [Function.update_of_ne (Nat.ne_of_lt hi)]
      exact ⟨rfl, rfl, id⟩
  | @wentOut i =>
      exact ⟨Nat.le_refl _, fun j _ => hupdate (x := { s.sends i with written := true }) rfl rfl (fun _ => rfl) j⟩
  | @writeFailed i =>
      exact ⟨Nat.le_refl _, fun j _ => hupdate (x := { s.sends i with pc := .returned none }) rfl rfl id j⟩
  | @written i => exact ⟨Nat.le_refl _, fun j _ => hupdate (x := { s.sends i with pc := .wait }) rfl rfl id j⟩
  | @responded i =>
      refine ⟨Nat.le_refl _, fun j _ => ?_⟩
      rw [onResponded_sends]
      exact hupdate (x := { s.sends i with pc := .returned (some s.ctx.currRespPack.responsePack) }) rfl rfl id j
  | _ => exact ⟨Nat.le_refl _, fun _ _ => ⟨rfl, rfl, id⟩⟩

theorem Move.newly_written (h : s.Move cfg l t) (hi : i < t.nsend) (hw : (t.sends i).written = true) :
    i < s.nsend ∧ (s.sends i).written = true ∨ l = .wentOut i ∧ i < s.nsend ∧ (s.sends i).pc = .write := by
  have hupdate : ∀ {j : Nat} {x : Send}, x.written = (s.sends j).written →
      (Function.update s.sends j x i).written = true → (s.sends i).written = true := by
    intro j x hx hw
    by_cases hij : i = j
    · rw [hij, Function.update_self, hx] at hw
      rwa [hij]
    · rwa [Function.update_of_ne hij] at hw
  cases h with
  | leave | serviceNotified =>
      left
      revert hi hw
      exact finish_kept (P := fun u => i < u.nsend → (u.sends i).written = true →
        i < s.nsend ∧ (s.sends i).written = true) _ _ fun _ _ _ _ _ _ _ hi hw => ⟨hi, hw⟩
  | remote =>
      rw [push_eq] at hi hw
      exact Or.inl ⟨hi, hw⟩
  | request =>
      rw [onRequest_eq] at hi hw
      exact Or.inl ⟨hi, hw⟩
  | send =>
      rw [startSend_nsend] at hi
      rw [startSend_sends] at hw
      rcases Nat.lt_succ_iff_lt_or_eq.mp hi with hlt | rfl
      · rw [Function.update_of_ne (Nat.ne_of_lt hlt)] at hw
        exact Or.inl ⟨hlt, hw⟩
      · rw [Function.update_self] at hw
        cases hw
  | @wentOut j hj hpc hopen =>
      by_cases hij : i = j
      · subst hij
        exact Or.inr ⟨rfl, hj, hpc⟩
      · simp only [Function.update_of_ne hij] at hw
        exact Or.inl ⟨hi, hw⟩
  | @writeFailed j => exact Or.inl ⟨hi, hupdate (x := { s.sends j with pc := .returned none }) rfl hw⟩
  | @written j => exact Or.inl ⟨hi, hupdate (x := { s.sends j with pc := .wait }) rfl hw⟩
  | @responded j =>
      rw [onResponded_sends] at hw
      exact Or.inl ⟨hi, hupdate (x := { s.sends j with pc := .returned (some s.ctx.currRespPack.responsePack) }) rfl hw⟩
  | _ => exact Or.inl ⟨hi, hw⟩

theorem Move.messages_kept (h : s.Move cfg l t) : s.history.ninv ≤ t.history.ninv ∧
    ∀ j < s.history.ninv, t.history.message j = s.history.message j := by
  rcases h.calls_kept with ⟨hninv, hmessage⟩ | ⟨msg, -, hninv, hmessage⟩
  · rw [hninv, hmessage]
    exact ⟨Nat.le_refl _, fun _ _ => rfl⟩
  · rw [hninv, hmessage]
    exact ⟨Nat.le_succ _, fun j hj => Function.update_of_ne (Nat.ne_of_lt hj) _ _⟩

/-- Only a service that was called calls `send`. -/
theorem sends_called {ok : Sys → Label → Prop} (hr : Reachable (machine cfg) ok s) :
    ∀ i < s.nsend, (s.sends i).service < s.history.ninv := by
  refine hr.invariant (I := fun u => ∀ i < u.nsend, (u.sends i).service < u.history.ninv)
    (fun _ hi => absurd hi (Nat.not_lt_zero _)) ?_
  intro u l t _ hu _ hst
  have hm := step_move hst
  intro i hi
  rcases hm.nsend with hsame | ⟨j, serviceName, pack, rfl, ht⟩
  · rw [hsame] at hi
    rw [(hm.sends_kept.2 i hi).1]
    exact (hu i hi).trans_le hm.messages_kept.1
  · rw [ht, startSend_nsend] at hi
    rcases Nat.lt_succ_iff_lt_or_eq.mp hi with hlt | rfl
    · rw [(hm.sends_kept.2 i hlt).1]
      exact (hu i hlt).trans_le hm.messages_kept.1
    · refine lt_of_lt_of_le ?_ hm.messages_kept.1
      rw [ht, startSend_sends_self]
      cases hm with
      | send _ hj => exact hj
      | refuse _ hj => exact hj

/-- Only a RESPONSE answers a `send`. -/
theorem Move.answer_cases (h : s.Move cfg l t) : t.history.answer = s.history.answer ∨
    ∃ p, l = .response p ∧ t.history.answer = (s.history.answered s.awaiting p).answer := by
  cases h with
  | leave | serviceNotified =>
      left
      exact finish_kept (P := fun u => u.history.answer = s.history.answer) _ _ fun _ _ _ _ _ _ _ => rfl
  | remote =>
      rw [push_eq]
      exact Or.inl rfl
  | request =>
      rw [onRequest_eq]
      exact Or.inl rfl
  | send =>
      rw [startSend_eq]
      exact Or.inl rfl
  | @response p => exact Or.inr ⟨p, rfl, rfl⟩
  | _ => exact Or.inl rfl

/-- The RESPONSE that is read is that of the only `send` that is awaited. -/
theorem SendsTracked.answer_response (hs : SendsTracked s) (ha : s.Awaits i) (p : CoroActorResponse) :
    (s.history.answered s.awaiting p).answer = Function.update s.history.answer i (some p) := by
  rw [(hs.awaiting_eq ha).2]
  rfl

theorem Move.answer_kept (h : s.Move cfg l t) (hl : ∀ p, l ≠ .response p) : t.history.answer = s.history.answer := by
  rcases h.answer_cases with hsame | ⟨p, hp, -⟩
  · exact hsame
  · exact absurd hp (hl p)

theorem Move.answer_response {p : CoroActorResponse} (h : s.Move cfg (.response p) t) (hs : SendsTracked s)
    (ha : s.Awaits i) : t.history.answer = Function.update s.history.answer i (some p) := by
  cases h with
  | response => exact hs.answer_response ha p

theorem RequestsFormed.step (hf : RequestsFormed cfg s) (h : s.Move cfg l t) (hpid : s.ctx.pid = cfg.pid) :
    RequestsFormed cfg t := by
  intro i hi
  rcases h.nsend with hsame | ⟨j, serviceName, pack, rfl, ht⟩
  · rw [hsame] at hi
    rw [(h.sends_kept.2 i hi).2.1]
    exact hf i hi
  · have hnsend : t.nsend = s.nsend + 1 := by rw [ht, startSend_nsend]
    rw [hnsend] at hi
    rw [ht, startSend_sends]
    rcases Nat.lt_succ_iff_lt_or_eq.mp hi with hlt | rfl
    · rw [Function.update_of_ne (Nat.ne_of_lt hlt)]
      exact hf i hlt
    · rw [Function.update_self]
      refine ⟨hpid, ?_, ?_⟩
      · rw [CoroActorCtx.openCall_callId]
        split
        · exact s.ctx.nextCallId_ne_nil
        · next hne => exact hne
      · cases h with
        | send _ _ hservice => exact hservice
        | refuse => exact absurd hnsend (Nat.succ_ne_self _).symm

theorem requestsFormed {ok : Sys → Label → Prop} (hr : Reachable (machine cfg) ok s) :
    s.ctx.pid = cfg.pid ∧ RequestsFormed cfg s := by
  have hinit : (Sys.init cfg).ctx.pid = cfg.pid ∧ RequestsFormed cfg (Sys.init cfg) :=
    ⟨rfl, fun _ hi => absurd hi (Nat.not_lt_zero _)⟩
  refine hr.invariant (I := fun u => u.ctx.pid = cfg.pid ∧ RequestsFormed cfg u) hinit ?_
  rintro u l t - ⟨hpid, hf⟩ - hst
  exact ⟨(step_move hst).pid.trans hpid, hf.step (step_move hst) hpid⟩

/-! ### What the process does at a time -/

theorem Accounted.running (ha : Accounted s) (hs : s.server.Sound) (hi : i < s.nsend)
    (hprog : (s.sends i).InProgress) : s.history.ninv = (s.sends i).service + 1 ∧
      s.history.completed (s.sends i).service = false ∧
      s.pc.phase.served = some (s.history.message (s.sends i).service) := by
  have hover : (s.sends i).pc.over = false := by
    rcases hprog with hpc | hpc
    · rw [hpc]
      rfl
    · rw [hpc]
      rfl
  obtain ⟨hlt, hc⟩ := ha.sending i hi hover
  obtain ⟨hlast, msg, hserved⟩ := current_of_running hs hlt hc
  refine ⟨hlast, hc, ?_⟩
  rw [hserved, message_of_served hs hserved hlast]

/-- When a RESPONSE is written, the process has no REQUEST to write and awaits nothing. -/
theorem Move.responses_cases (h : s.Move cfg l t) (ha : Accounted s) (hs : s.server.Sound) :
    t.history.responses = s.history.responses ∨ (∃ r, t.history.responses = s.history.responses ++ [r]) ∧
      t.nsend = s.nsend ∧ t.sends = s.sends ∧ t.history.answer = s.history.answer ∧
      ∀ i < s.nsend, ¬ (s.sends i).InProgress := by
  have hleave : ∀ {msg : CoroActorMsg} {c : CoroActorCtx}, (∀ j < s.history.ninv, s.history.completed j = true) →
      ((s.setCtx c s.history).finish msg).history.responses = s.history.responses ∨
      (∃ r, ((s.setCtx c s.history).finish msg).history.responses = s.history.responses ++ [r]) ∧
        ((s.setCtx c s.history).finish msg).nsend = s.nsend ∧ ((s.setCtx c s.history).finish msg).sends = s.sends ∧
        ((s.setCtx c s.history).finish msg).history.answer = s.history.answer ∧
        ∀ i < s.nsend, ¬ (s.sends i).InProgress := by
    intro msg c hall
    rcases (s.setCtx c s.history).finish_responses msg with hsame | ⟨-, -, -, hresponses⟩
    · exact Or.inl hsame
    · right
      obtain ⟨hn, hsends, hans⟩ := finish_kept (s := s.setCtx c s.history)
        (P := fun u => u.nsend = s.nsend ∧ u.sends = s.sends ∧ u.history.answer = s.history.answer) msg
        fun _ _ _ _ _ _ _ => ⟨rfl, rfl, rfl⟩
      refine ⟨⟨_, hresponses⟩, hn, hsends, hans, fun i hi hprog => ?_⟩
      obtain ⟨hlast, hc, -⟩ := ha.running hs hi hprog
      rw [hall _ (by omega)] at hc
      cases hc
  have hcompleted : s.ctx.isWaiting = false → ∀ j < s.history.ninv, s.history.completed j = true := by
    intro hfree j hj
    rw [← started_length] at hj
    exact hs.completed (Or.inr hfree) j hj
  cases h with
  | leave hpc hfree => exact hleave (c := s.ctx) (hcompleted hfree)
  | serviceNotified hpc hready => exact hleave (hcompleted (hs.completion.mem_ready.mp hready).2)
  | remote =>
      rw [push_eq]
      exact Or.inl rfl
  | request =>
      rw [onRequest_eq]
      exact Or.inl rfl
  | send =>
      rw [startSend_eq]
      exact Or.inl rfl
  | _ => exact Or.inl rfl

end Sys

end CoroActor.Worker
