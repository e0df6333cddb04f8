import CoroActor.Worker.Account

/-! What a failing service takes down. Its message's sockets are closed: the connection of a client, or the
only link to the proxy, which the messages of all other actors share. -/

namespace CoroActor.Worker

open TransitionSystem

namespace Sys

variable {cfg : Setting} {s t u : Sys} {l : Label} {msg msg' : CoroActorMsg}

/-- The message whose service `handle_message` leaves in this step. -/
def leaving (s : Sys) : Label → Option CoroActorMsg
  | .funcReturn =>
      match s.pc with
      | .func msg => if s.ctx.isWaiting then none else some msg
      | _ => none
  | .serviceNotified =>
      match s.pc with
      | .waitService msg => some msg
      | _ => none
  | _ => none

/-- A service that is left with `error_msg_` set was called for a client. -/
def Contained (s : Sys) (l : Label) : Prop :=
  ∀ msg ∈ s.leaving l, s.ctx.errorMsg ≠ [] → msg.unixSocket = false

instance (s : Sys) (l : Label) : Decidable (Contained s l) :=
  match h : s.leaving l with
  | none => isTrue fun msg hmsg => by
      rw [h] at hmsg
      cases hmsg
  | some msg => decidable_of_iff (s.ctx.errorMsg ≠ [] → msg.unixSocket = false) (by simp [Contained, h])

theorem finish_calm (msg : CoroActorMsg) (herr : s.ctx.errorMsg = []) :
    (s.finish msg).tcpOpen = s.tcpOpen ∧ (s.finish msg).unixOpen = s.unixOpen := by
  unfold finish
  rw [if_neg (not_not.mpr herr)]
  split
  · exact ⟨rfl, rfl⟩
  · split
    · exact ⟨rfl, rfl⟩
    · exact ⟨rfl, rfl⟩

theorem finish_failed (msg : CoroActorMsg) (herr : s.ctx.errorMsg ≠ []) :
    (s.finish msg).tcpOpen = (s.closeTcp msg.socket).tcpOpen ∧
      (s.finish msg).unixOpen = (s.unixOpen && !msg.unixSocket) := by
  unfold finish
  rw [if_pos herr]
  exact ⟨rfl, rfl⟩

/-- A step leaves a service, or the link to the proxy alone. What it leaves the service from is the state
before the step, as far as the sockets and the error message are concerned. -/
theorem Move.left_or_kept (h : s.Move cfg l t) :
    (∃ (msg : CoroActorMsg) (u : Sys), s.leaving l = some msg ∧ t = u.finish msg ∧
      u.ctx.errorMsg = s.ctx.errorMsg ∧ u.tcpOpen = s.tcpOpen ∧ u.unixOpen = s.unixOpen) ∨
    s.leaving l = none ∧ t.unixOpen = s.unixOpen := by
  cases h with
  | @leave msg hpc hfree =>
      have hleaving : s.leaving .funcReturn = some msg := by simp [leaving, hpc, hfree]
      exact Or.inl ⟨msg, s, hleaving, rfl, rfl, rfl, rfl⟩
  | @serviceNotified msg hpc hready =>
      have hleaving : s.leaving .serviceNotified = some msg := by simp [leaving, hpc]
      exact Or.inl ⟨msg, _, hleaving, rfl, rfl, rfl, rfl⟩
  | pause hpc hwaiting => exact Or.inr ⟨by simp [leaving, hpc, hwaiting], rfl⟩
  | remote =>
      rw [push_eq]
      exact Or.inr ⟨rfl, rfl⟩
  | request =>
      rw [onRequest_eq]
      exact Or.inr ⟨rfl, rfl⟩
  | send =>
      rw [startSend_eq]
      exact Or.inr ⟨rfl, rfl⟩
  | _ => exact Or.inr ⟨rfl, rfl⟩

/-- Only a failing service that was called for another actor closes the link to the proxy. -/
theorem Move.unixOpen_kept (h : s.Move cfg l t) (hok : Contained s l) : t.unixOpen = s.unixOpen := by
  rcases h.left_or_kept with ⟨msg, u, hleaving, rfl, herr, -, hunix⟩ | ⟨-, hkept⟩
  · by_cases hcalm : u.ctx.errorMsg = []
    · rw [(finish_calm msg hcalm).2, hunix]
    · have hremote : msg.unixSocket = false := hok msg hleaving (herr ▸ hcalm)
      rw [(finish_failed msg hcalm).2, hunix, hremote]
      simp
  · exact hkept

/-- The two messages come from different clients or from different chains of calls. What an actor sends
carries the id of its chain. -/
def OtherCaller (msg msg' : CoroActorMsg) : Prop :=
  msg'.socket ≠ msg.socket ∨ msg.socket = none ∧ msg'.callId ≠ msg.callId

/-- When the service of `msg` is left, the messages of all other callers can still be served, whether they
are in the queue or come later. -/
def Isolates (s t : Sys) (msg : CoroActorMsg) : Prop :=
  ∀ msg', msg'.unixSocket = msg'.socket.isNone → OtherCaller msg msg' → s.Open msg' → t.Open msg'

/-- A failing service is isolated exactly when it was called for a client. -/
theorem Move.isolates_iff (h : s.Move cfg l t) (hmsg : s.leaving l = some msg) (herr : s.ctx.errorMsg ≠ [])
    (hformed : msg.unixSocket = msg.socket.isNone) (hunix : s.unixOpen = true) :
    Isolates s t msg ↔ msg.unixSocket = false := by
  rcases h.left_or_kept with ⟨msg', u, hleaving, rfl, herr', htcp', hunix'⟩ | ⟨hnone, -⟩
  · obtain rfl : msg = msg' := Option.some.inj (hmsg.symm.trans hleaving)
    obtain ⟨htcp, hclose⟩ := u.finish_failed msg (herr'.symm ▸ herr)
    constructor
    · intro hall
      by_contra hinternal
      rw [Bool.not_eq_false] at hinternal
      have hnone : msg.socket = none := by
        rw [hformed] at hinternal
        exact Option.isNone_iff_eq_none.mp hinternal
      -- another actor's message needs the link
      have hother : OtherCaller msg ⟨[], msg.callId ++ [0], ⟨0, []⟩, none, true⟩ := Or.inr ⟨hnone, by simp⟩
      have hopen := (hall _ rfl hother ⟨nofun, fun _ => hunix⟩).2 rfl
      rw [hclose, hinternal] at hopen
      simp at hopen
    · intro hremote msg' hformed' hother hopen
      have hsocket : msg'.socket ≠ msg.socket := by
        rcases hother with hne | ⟨hnone, -⟩
        · exact hne
        · rw [hformed, hnone] at hremote
          cases hremote
      refine ⟨fun k hk => ?_, fun hu => ?_⟩
      · obtain ⟨k', hk'⟩ : ∃ k', msg.socket = some k' := by
          rw [hformed] at hremote
          exact Option.isSome_iff_exists.mp (by simpa using hremote)
        have hne : k ≠ k' := by
          rintro rfl
          exact hsocket (hk.trans hk'.symm)
        rw [htcp, hk', closeTcp_tcpOpen]
        simp only [Function.update_of_ne hne, htcp']
        exact hopen.1 k hk
      · rw [hclose, hunix', hremote, hopen.2 hu]
        rfl
  · rw [hnone] at hmsg
    cases hmsg

theorem leaving_served (hmsg : s.leaving l = some msg) : s.pc.phase.served = some msg := by
  cases l with
  | funcReturn =>
      cases hpc : s.pc with
      | func msg' =>
          cases hw : s.ctx.isWaiting with
          | true => simp [leaving, hpc, hw] at hmsg
          | false =>
              simp only [leaving, hpc, hw] at hmsg
              exact hmsg
      | loop | waitMsg | waitService | write => simp [leaving, hpc] at hmsg
  | serviceNotified =>
      cases hpc : s.pc with
      | waitService msg' =>
          simp only [leaving, hpc] at hmsg
          exact hmsg
      | loop | waitMsg | func | write => simp [leaving, hpc] at hmsg
  | _ => cases hmsg

/-- Every message of a channel that was taken was handed to its service and answered, but for the one that
is still served. -/
def Answered (s : Sys) (χ : Channel) : Prop :=
  (s.history.callsOn χ).map s.history.message = s.history.takenOn χ ∧
    ∃ done rest, s.history.callsOn χ = done ++ rest ∧ s.history.answersOn χ = done.map s.history.produced ∧
      (rest = [] ∨ ∃ j, rest = [j] ∧ s.history.ninv = j + 1 ∧
        ∃ msg, s.pc.phase.served = some msg ∧ msg.socket = χ)

theorem Accounted.answered (ha : Accounted s) {χ : Channel} (hopen : s.isOpen χ = true) : Answered s χ := by
  obtain ⟨done, rest, hacc⟩ := ha.account χ
  refine ⟨hacc.opened hopen, done, rest, hacc.calls, hacc.answers, ?_⟩
  rcases hacc.leftOver with hnil | ⟨j, hj, hclosed | hserving⟩
  · exact Or.inl hnil
  · rw [hopen] at hclosed
    cases hclosed
  · exact Or.inr ⟨j, hj, hserving⟩

/-- The steps of `handle_message` itself. -/
def Handles (_ : Sys) : Label → Prop
  | .run _ | .funcReturn | .messageNotified | .serviceNotified | .replied => True
  | _ => False

/-- `handle_message` takes the message at the front of its queue, unless a service is in progress. -/
def TakesNext (cfg : Setting) (s : Sys) : Prop :=
  ∀ msg rest, s.ctx.msgQueue = msg :: rest → (∀ j < s.history.ninv, s.history.completed j = true) →
    ∃ t, Reachable ⟨s, (machine cfg).step⟩ Handles t ∧ t.history.taken = s.history.taken ++ [msg]

theorem onLoop_taken {rest : List CoroActorMsg} (hq : s.ctx.msgQueue = msg :: rest) :
    (s.onLoop cfg 0).history.taken = s.history.taken ++ [msg] := by
  unfold onLoop
  rw [hq]
  dsimp only
  split
  · rfl
  · split
    · split <;> rfl
    · rfl

theorem taken_of_left (hu : Reachable ⟨s, (machine cfg).step⟩ Handles u) (hsane : u.fault = false)
    (hpc : u.pc = .loop ∨ u.pc = .write) {rest : List CoroActorMsg} (hq : u.ctx.msgQueue = msg :: rest)
    (htaken : u.history.taken = s.history.taken) :
    ∃ t, Reachable ⟨s, (machine cfg).step⟩ Handles t ∧ t.history.taken = s.history.taken ++ [msg] := by
  have hloop : ∀ {v : Sys}, Reachable ⟨s, (machine cfg).step⟩ Handles v → v.fault = false → v.pc = .loop →
      v.ctx.msgQueue = msg :: rest → v.history.taken = s.history.taken →
      ∃ t, Reachable ⟨s, (machine cfg).step⟩ Handles t ∧ t.history.taken = s.history.taken ++ [msg] := by
    intro v hv hsane hpc hq htaken
    have hst : v.step cfg (.run 0) = some (v.onLoop cfg 0) := by simp [step, hsane, hpc]
    refine ⟨_, hv.step (l := .run 0) trivial hst, ?_⟩
    rw [onLoop_taken hq, htaken]
  rcases hpc with hpc | hpc
  · exact hloop hu hsane hpc hq htaken
  · have hst : u.step cfg .replied = some (u.setPc .loop) := by simp [step, Ready, hsane, hpc]
    exact hloop (hu.step (l := .replied) trivial hst) hsane rfl hq htaken

theorem finish_left (s : Sys) (msg : CoroActorMsg) : (s.finish msg).fault = s.fault ∧
    ((s.finish msg).pc = .loop ∨ (s.finish msg).pc = .write) ∧
    (s.finish msg).ctx.msgQueue = s.ctx.msgQueue ∧ (s.finish msg).history.taken = s.history.taken :=
  s.finish_kept (P := fun t => t.fault = s.fault ∧ (t.pc = .loop ∨ t.pc = .write) ∧
    t.ctx.msgQueue = s.ctx.msgQueue ∧ t.history.taken = s.history.taken) msg
    fun _ _ _ _ _ _ hpc => ⟨rfl, hpc, rfl, rfl⟩

/-- Wherever `handle_message` stands, it gets to the next message: whatever it waits for has happened. -/
theorem takesNext (hs : s.server.Sound) (hsane : s.fault = false) : TakesNext cfg s := by
  intro msg rest hq hcompleted
  have hfree : ∀ served, s.pc.phase.served = some served → s.ctx.isWaiting = false := by
    intro served hserved
    obtain ⟨j, hj, -, hbusy⟩ := hs.current served hserved
    rw [started_length] at hj
    rw [show s.ctx.isWaiting = !s.history.completed j from hbusy, hcompleted j (by omega)]
    rfl
  cases hpc : s.pc with
  | loop => exact taken_of_left .init hsane (Or.inl hpc) hq rfl
  | write => exact taken_of_left .init hsane (Or.inr hpc) hq rfl
  | waitMsg =>
      have hne : s.ctx.msgQueue ≠ [] := by simp [hq]
      have hready : () ∈ s.ctx.msgNotifyTimer.ready := hs.arrival.mem_ready.mpr ⟨congrArg Pc.phase hpc, hne⟩
      have hst : s.step cfg .messageNotified = some ((s.setCtx { s.ctx with
          msgNotifyTimer := s.ctx.msgNotifyTimer.complete () } s.history).setPc .loop) :=
        if_pos ⟨⟨hsane, Or.inl hpc⟩, hpc, hready⟩
      exact taken_of_left (Reachable.init.step (l := .messageNotified) trivial hst) hsane (Or.inl rfl) hq rfl
  | func served =>
      have hst : s.step cfg .funcReturn = some (s.finish served) := by
        simp [step, hpc, hsane, onReturn, hfree served (by rw [hpc]; rfl)]
      obtain ⟨hfault, hleft, hqueue, htaken⟩ := s.finish_left served
      exact taken_of_left (Reachable.init.step (l := .funcReturn) trivial hst) (hfault.trans hsane) hleft
        (hqueue.trans hq) htaken
  | waitService served =>
      have hbusy : s.ctx.isWaiting = false := hfree served (by rw [hpc]; rfl)
      have hready : () ∈ s.ctx.serviceNotifyTimer.ready :=
        hs.completion.mem_ready.mpr ⟨⟨served, congrArg Pc.phase hpc⟩, hbusy⟩
      have hst : s.step cfg .serviceNotified = some ((s.setCtx { s.ctx with
          serviceNotifyTimer := s.ctx.serviceNotifyTimer.complete () } s.history).finish served) := by
        simp only [step, hpc]
        exact if_pos ⟨⟨hsane, Or.inr (Or.inl ⟨served, hpc⟩)⟩, hready⟩
      obtain ⟨hfault, hleft, hqueue, htaken⟩ := finish_left (s.setCtx { s.ctx with
        serviceNotifyTimer := s.ctx.serviceNotifyTimer.complete () } s.history) served
      exact taken_of_left (Reachable.init.step (l := .serviceNotified) trivial hst) (hfault.trans hsane) hleft
        (hqueue.trans hq) htaken

/-- **Failure isolation.** In every run in which no service that was called for another actor fails: the link
to the proxy stays open, `handle_message` gets to the next message whenever no service is in progress, and on
every open channel each message that was taken was handed to its service and answered, whatever failed on
the others. And the condition on a step says exactly that a failing service takes no other caller down. -/
theorem failure_isolated (hr : Reachable (machine cfg) (fun s l => LastRule s l ∧ Contained s l) s) :
    s.unixOpen = true ∧ (s.fault = false → TakesNext cfg s) ∧ (∀ χ, s.isOpen χ = true → Answered s χ) ∧
    ∀ l t, LastRule s l → (machine cfg).step s l = some t →
      (Contained s l ↔ ∀ msg ∈ s.leaving l, s.ctx.errorMsg ≠ [] → Isolates s t msg) := by
  obtain ⟨hs, ha⟩ := accounted (hr.mono fun _ _ => And.left)
  have hunix : s.unixOpen = true :=
    hr.invariant (I := fun s => s.unixOpen = true) rfl fun u l t _ hopen hok hst =>
      ((step_move hst).unixOpen_kept hok.2).trans hopen
  refine ⟨hunix, fun hsane => takesNext hs hsane, fun χ hopen => ha.answered hopen, fun l t _ hst => ?_⟩
  have hiff : ∀ msg, s.leaving l = some msg → s.ctx.errorMsg ≠ [] →
      (Isolates s t msg ↔ msg.unixSocket = false) := fun msg hmsg herr =>
    (step_move hst).isolates_iff hmsg herr (ha.formed msg (serving_message hs (leaving_served hmsg)).1).1 hunix
  constructor
  · intro hok msg hmsg herr
    exact (hiff msg hmsg herr).mpr (hok msg hmsg herr)
  · intro hall msg hmsg herr
    exact (hiff msg hmsg herr).mp (hall msg hmsg herr)

/-- The service of a client fails while a message of the proxy is in the queue. That one is answered. -/
theorem failure_isolated_sample : ∃ s,
    Reachable (machine Sample.setting) (fun s l => LastRule s l ∧ Contained s l) s ∧ s.tcpOpen 0 = false ∧
    s.history.responses = [⟨11, ascii "12-1", ascii "svc_a", ⟨9, [7]⟩⟩] ∧ Answered s none := by
  obtain ⟨s, hr, hclosed, hresponses, hopen⟩ := Reachable.of_leadsTo (machine Sample.setting)
    (fun s l => LastRule s l ∧ Contained s l)
    [.run 0, .accept, .remote 0 (ascii "svc_a") ⟨1, []⟩, Sample.request "12-1", .messageNotified, .run 0,
      Sample.send 0 "svc_a", .complete 0, .funcReturn, .run 0, .respond 1 ⟨9, [7]⟩, .complete 1, .funcReturn]
    (fun s => s.tcpOpen 0 = false ∧
      s.history.responses = [⟨11, ascii "12-1", ascii "svc_a", ⟨9, [7]⟩⟩] ∧ s.isOpen none = true)
    (by decide +kernel)
  exact ⟨s, hr, hclosed, hresponses, (failure_isolated hr).2.2.1 none hopen⟩

/-- The service of actor 12 fails while a message of actor 13 is in the queue. The link is closed, and that
message is taken and dropped: no service is called for it, and nothing is written. -/
theorem failure_not_isolated : ∃ s, Reachable (machine Sample.setting) LastRule s ∧ s.fault = false ∧
    s.history.taken = [⟨ascii "svc_a", ascii "12-1", ⟨0, []⟩, none, true⟩,
      ⟨ascii "svc_a", ascii "13-1", ⟨0, []⟩, none, true⟩] ∧
    s.history.ninv = 1 ∧ s.history.responses = [] ∧ s.unixOpen = false ∧ ¬ Answered s none := by
  obtain ⟨s, hr, hsane, htaken, hninv, hresponses, hunix⟩ := Reachable.of_leadsTo (machine Sample.setting)
    LastRule
    [.run 0, .request ⟨12, ascii "12-1", ascii "svc_a", ⟨0, []⟩⟩,
      .request ⟨13, ascii "13-1", ascii "svc_a", ⟨0, []⟩⟩, .messageNotified, .run 0, Sample.send 0 "svc_a",
      .complete 0, .funcReturn, .run 0]
    (fun s => s.fault = false ∧
      s.history.taken = [⟨ascii "svc_a", ascii "12-1", ⟨0, []⟩, none, true⟩,
        ⟨ascii "svc_a", ascii "13-1", ⟨0, []⟩, none, true⟩] ∧
      s.history.ninv = 1 ∧ s.history.responses = [] ∧ s.unixOpen = false) (by decide +kernel)
  refine ⟨s, hr, hsane, htaken, hninv, hresponses, hunix, fun hanswered => ?_⟩
  have hcalls : (s.history.callsOn none).length ≤ 1 := by
    rw [← hninv]
    exact (List.length_filter_le _ _).trans_eq List.length_range
  have htwo : (s.history.takenOn none).length = 2 := by
    rw [History.takenOn, htaken]
    rfl
  rw [← hanswered.1, List.length_map] at htwo
  omega

end Sys

end CoroActor.Worker
