import CoroActor.Worker.Process

/-! What one step of an actor process can do, said once, and what a well-behaved service does. -/

namespace CoroActor.Worker

open TransitionSystem

/-- A service acts until it calls `notify_complete`, which is the last thing it does. -/
def Rule (s : Sys) : Label → Prop
  | .send j .. | .respond j _ | .complete j => s.history.completed j = false
  | _ => True

instance (s : Sys) : (l : Label) → Decidable (Rule s l)
  | .send j .. | .respond j _ | .complete j => inferInstanceAs (Decidable (s.history.completed j = false))
  | .run _ | .funcReturn | .messageNotified | .serviceNotified | .replied | .accept | .remote ..
  | .remoteError _ | .request _ | .response _ | .other _ | .internalError | .wentOut _ | .written ..
  | .responded _ => inferInstanceAs (Decidable True)

namespace Sys

variable (cfg : Setting) (s : Sys)

/-- The cases of a step. -/
inductive Move : Label → Sys → Prop
  | wait {type} : s.pc = .loop → s.ctx.msgQueue = [] → Move (.run type)
      ((s.setCtx { s.ctx with msgNotifyTimer := s.ctx.msgNotifyTimer.asyncWait () } s.history).setPc .waitMsg)
  | closed {type msg rest} : s.pc = .loop → s.ctx.msgQueue = msg :: rest → ¬ s.Open msg →
      Move (.run type) (s.takeFront msg rest)
  | notFound {type msg rest k} : s.pc = .loop → s.ctx.msgQueue = msg :: rest → s.Open msg →
      cfg.serviceMap msg.serviceName = false → msg.socket = some k →
      Move (.run type) ((s.takeFront msg rest).closeTcp (some k))
  | undefined {type msg rest} : s.pc = .loop → s.ctx.msgQueue = msg :: rest → s.Open msg →
      cfg.serviceMap msg.serviceName = false → msg.socket = none →
      Move (.run type) (s.takeFront msg rest).undefined
  | invoke {type msg rest} : s.pc = .loop → s.ctx.msgQueue = msg :: rest → s.Open msg →
      cfg.serviceMap msg.serviceName = true → Move (.run type) ((s.takeFront msg rest).invoke msg type)
  | pause {msg} : s.pc = .func msg → s.ctx.isWaiting = true → Move .funcReturn
      ((s.setCtx { s.ctx with serviceNotifyTimer := s.ctx.serviceNotifyTimer.asyncWait () } s.history).setPc
        (.waitService msg))
  | leave {msg} : s.pc = .func msg → s.ctx.isWaiting = false → Move .funcReturn (s.finish msg)
  | messageNotified : s.pc = .waitMsg → () ∈ s.ctx.msgNotifyTimer.ready → Move .messageNotified
      ((s.setCtx { s.ctx with msgNotifyTimer := s.ctx.msgNotifyTimer.complete () } s.history).setPc .loop)
  | serviceNotified {msg} : s.pc = .waitService msg → () ∈ s.ctx.serviceNotifyTimer.ready → Move .serviceNotified
      ((s.setCtx { s.ctx with serviceNotifyTimer := s.ctx.serviceNotifyTimer.complete () } s.history).finish msg)
  | replied : s.pc = .write → Move .replied (s.setPc .loop)
  | accept : s.Ready → Move .accept
      { s with
        nconn := s.nconn + 1
        tcpOpen := Function.update s.tcpOpen s.nconn true
        session := Function.update s.session s.nconn true }
  | remote {k serviceName pack} : s.Ready → s.session k = true → Move (.remote k serviceName pack)
      { s.push ⟨serviceName, [], pack, some k, false⟩ with session := Function.update s.session k (s.tcpOpen k) }
  | remoteError {k} : s.Ready → s.session k = true → Move (.remoteError k)
      { s.closeTcp (some k) with session := Function.update s.session k false }
  | request {p} : s.Ready → s.internal = true → Move (.request p) (s.onRequest p)
  | response {p} : s.Ready → s.internal = true → Move (.response p) (s.onResponse p)
  | other {proto} : s.Ready → s.internal = true → Move (.other proto) { s with internal := s.unixOpen }
  | internalError : s.Ready → s.internal = true → Move .internalError { s with internal := false }
  | refuse {j serviceName pack} : s.Serving → j < s.history.ninv → cfg.serviceMap serviceName = true →
      Move (.send j serviceName pack)
        (s.setCtx (s.ctx.setErrorMsg (ascii "This service is already supported by this process"))
          (s.history.fail j))
  | send {j serviceName pack} : s.Serving → j < s.history.ninv → cfg.serviceMap serviceName = false →
      Move (.send j serviceName pack) (s.startSend j serviceName pack)
  | respond {j pack} : s.Serving → j < s.history.ninv →
      Move (.respond j pack) { s with respPack := pack, history := s.history.produce j pack }
  | complete {j} : s.Serving → j < s.history.ninv →
      Move (.complete j) (s.setCtx s.ctx.notifyComplete (s.history.complete j))
  | wentOut {i} : i < s.nsend → (s.sends i).pc = .write → s.unixOpen = true → Move (.wentOut i)
      { s with sends := Function.update s.sends i { s.sends i with written := true } }
  | writeFailed {i ec} : s.Ready → i < s.nsend → (s.sends i).pc = .write → (s.sends i).written = false →
      Move (.written i ec)
        ((s.setCtx (s.ctx.setErrorMsg [ec.toUInt8]) (s.history.fail (s.sends i).service)).setSend i
          (.returned none))
  | written {i} : s.Ready → i < s.nsend → (s.sends i).pc = .write → (s.sends i).written = true →
      Move (.written i 0)
        ((s.setCtx { s.ctx with responseNotifyTimer := s.ctx.responseNotifyTimer.asyncWait i } s.history).setSend
          i .wait)
  | responded {i} : s.Ready → i < s.nsend → (s.sends i).pc = .wait → i ∈ s.ctx.responseNotifyTimer.ready →
      Move (.responded i) (s.onResponded i)

variable {cfg s} {t : Sys} {l : Label}

theorem push_eq (s : Sys) (msg : CoroActorMsg) : s.push msg =
    { s with
      ctx :=
        { s.ctx with
          msgQueue := s.ctx.msgQueue ++ [msg]
          msgNotifyTimer := if s.ctx.msgQueue = [] then s.ctx.msgNotifyTimer.cancelOne else s.ctx.msgNotifyTimer }
      history := s.history.push msg } := by
  rw [push, CoroActorCtx.pushMsg_eq]
  rfl

/-- The string that `set_call_id` is called with is empty: it has been moved from. -/
theorem onRequest_eq (s : Sys) (p : CoroActorRequest) : s.onRequest p =
    { s with
      ctx :=
        { s.ctx with
          callId := []
          msgQueue := s.ctx.msgQueue ++ [⟨p.serviceName, p.callId, p.requestPack, none, true⟩]
          msgNotifyTimer := if s.ctx.msgQueue = [] then s.ctx.msgNotifyTimer.cancelOne else s.ctx.msgNotifyTimer }
      internal := s.unixOpen
      history := s.history.push ⟨p.serviceName, p.callId, p.requestPack, none, true⟩ } := by
  unfold onRequest
  dsimp only
  rw [push_eq]
  rfl

/-- `send` makes sure of a call id and numbers itself. -/
theorem startSend_eq (s : Sys) (j : Nat) (serviceName : StdString) (pack : CoroActorPack) :
    s.startSend j serviceName pack =
      { s with
        ctx := { s.ctx with seq := s.ctx.openCall.seq, callId := s.ctx.openCall.callId }
        history := s.history.request j s.ctx.openCall.callId (s.ctx.callId = [])
        nsend := s.nsend + 1
        sends := Function.update s.sends s.nsend
          ⟨j, ⟨s.ctx.pid, s.ctx.openCall.callId, serviceName, pack⟩, false, .write⟩ } := by
  unfold startSend
  rw [CoroActorCtx.openCall_eq]
  rfl

/-- The rest of the pass goes on with the loop or writes a reply. It may clear the error message and
close the sockets of the message, and it leaves alone what a statement says about anything else. -/
theorem finish_kept {P : Sys → Prop} (s : Sys) (msg : CoroActorMsg)
    (hP : ∀ pc errorMsg tcpOpen unixOpen replies responses, pc = .loop ∨ pc = .write → P
      { s with
        pc := pc
        ctx := { s.ctx with errorMsg := errorMsg }
        tcpOpen := tcpOpen
        unixOpen := unixOpen
        history := { s.history with replies := replies, responses := responses } }) : P (s.finish msg) := by
  unfold finish
  split
  · exact hP .loop _ _ _ _ _ (Or.inl rfl)
  · split
    · split
      · exact hP .write s.ctx.errorMsg _ _ _ _ (Or.inr rfl)
      · exact hP .write s.ctx.errorMsg _ _ _ _ (Or.inr rfl)
    · split
      · split
        · exact hP .write s.ctx.errorMsg _ _ _ _ (Or.inr rfl)
        · exact hP .write s.ctx.errorMsg _ _ _ _ (Or.inr rfl)
      · exact hP .loop s.ctx.errorMsg _ _ _ _ (Or.inl rfl)

theorem onLoop_move (type : UInt8) (hpc : s.pc = .loop) : s.Move cfg (.run type) (s.onLoop cfg type) := by
  unfold onLoop
  split
  · next hq => exact .wait hpc hq
  · next msg rest hq =>
      dsimp only
      split
      · next hopen => exact .closed hpc hq hopen
      · next hopen =>
          rw [not_not] at hopen
          split
          · next hservice =>
              split
              · next hsocket => exact .undefined hpc hq hopen hservice hsocket
              · next k hsocket => exact .notFound hpc hq hopen hservice hsocket
          · next hservice => exact .invoke hpc hq hopen (by simpa using hservice)

theorem onSend_move (j : Nat) (serviceName : StdString) (pack : CoroActorPack) (hs : s.Serving)
    (hj : j < s.history.ninv) : s.Move cfg (.send j serviceName pack) (s.onSend cfg j serviceName pack) := by
  unfold onSend
  split
  · next hservice => exact .refuse hs hj hservice
  · next hservice => exact .send hs hj (by simpa using hservice)

theorem onWritten_move {i ec : Nat} (hr : s.Ready) (hi : i < s.nsend) (hpc : (s.sends i).pc = .write)
    (hec : ec = 0 ↔ (s.sends i).written = true) : s.Move cfg (.written i ec) (s.onWritten i ec) := by
  unfold onWritten
  split
  · next hne => exact .writeFailed hr hi hpc (by simpa [hec] using hne)
  · next hzero =>
      obtain rfl : ec = 0 := not_not.mp hzero
      exact .written hr hi hpc (hec.mp rfl)

theorem of_guard {p : Prop} [Decidable p] {u : Sys} (h : (if p then some u else none) = some t) :
    p ∧ u = t := by
  rwa [Option.ite_none_right_eq_some, Option.some.injEq] at h

/-- Every step is one of the cases. -/
theorem step_move (h : s.step cfg l = some t) : s.Move cfg l t := by
  cases l with
  | run type =>
      obtain ⟨⟨-, hpc⟩, rfl⟩ := of_guard h
      exact onLoop_move type hpc
  | funcReturn =>
      unfold step at h
      cases hpc : s.pc with
      | func msg =>
          simp only [hpc] at h
          obtain ⟨-, rfl⟩ := of_guard h
          unfold onReturn
          split
          · next hwaiting => exact .pause hpc hwaiting
          · next hfree => exact .leave hpc (by simpa using hfree)
      | loop | waitMsg | waitService | write =>
          simp only [hpc] at h
          cases h
  | messageNotified =>
      obtain ⟨⟨-, hpc, hready⟩, rfl⟩ := of_guard h
      exact .messageNotified hpc hready
  | serviceNotified =>
      unfold step at h
      cases hpc : s.pc with
      | waitService msg =>
          simp only [hpc] at h
          obtain ⟨⟨-, hready⟩, rfl⟩ := of_guard h
          exact .serviceNotified hpc hready
      | loop | waitMsg | func | write =>
          simp only [hpc] at h
          cases h
  | replied =>
      obtain ⟨⟨-, hpc⟩, rfl⟩ := of_guard h
      exact .replied hpc
  | accept =>
      obtain ⟨hr, rfl⟩ := of_guard h
      exact .accept hr
  | remote k serviceName pack =>
      obtain ⟨⟨hr, hk⟩, rfl⟩ := of_guard h
      exact .remote hr hk
  | remoteError k =>
      obtain ⟨⟨hr, hk⟩, rfl⟩ := of_guard h
      exact .remoteError hr hk
  | request p =>
      obtain ⟨⟨hr, hi⟩, rfl⟩ := of_guard h
      exact .request hr hi
  | response p =>
      obtain ⟨⟨hr, hi⟩, rfl⟩ := of_guard h
      exact .response hr hi
  | other proto =>
      obtain ⟨⟨hr, hi⟩, rfl⟩ := of_guard h
      exact .other hr hi
  | internalError =>
      obtain ⟨⟨hr, hi⟩, rfl⟩ := of_guard h
      exact .internalError hr hi
  | send j serviceName pack =>
      obtain ⟨⟨hs, hj⟩, rfl⟩ := of_guard h
      exact onSend_move j serviceName pack hs hj
  | respond j pack =>
      obtain ⟨⟨hs, hj⟩, rfl⟩ := of_guard h
      exact .respond hs hj
  | complete j =>
      obtain ⟨⟨hs, hj⟩, rfl⟩ := of_guard h
      exact .complete hs hj
  | wentOut i =>
      obtain ⟨⟨-, hi, hpc, hopen⟩, rfl⟩ := of_guard h
      exact .wentOut hi hpc hopen
  | written i ec =>
      obtain ⟨⟨hr, hi, hpc, hec⟩, rfl⟩ := of_guard h
      exact onWritten_move hr hi hpc hec
  | responded i =>
      obtain ⟨⟨hr, hi, hpc, hready⟩, rfl⟩ := of_guard h
      exact .responded hr hi hpc hready

end Sys

/-! ### A process to run

It has one service. The concrete runs of the development use it. -/

namespace Sample

def setting : Setting := ⟨11, fun name => name = ascii "svc_a"⟩

def request (callId : String) : Label := .request ⟨12, ascii callId, ascii "svc_a", ⟨0, []⟩⟩

def send (j : Nat) (service : String) : Label := .send j (ascii service) ⟨0, []⟩

def response (callId service : String) : Label := .response ⟨13, ascii callId, ascii service, ⟨0, [7]⟩⟩

/-- The process waits for a message, and a REQUEST starts the service, which goes on after `func`
returns. -/
def serve (callId : String) : List Label := [.run 0, request callId, .messageNotified, .run 0, .funcReturn]

end Sample

end CoroActor.Worker
