import CoroActor.Library.Server
import CoroActor.Worker.Move

/-! `handle_message` is a server in the sense of the library: the queue is that of messages, `is_waiting`
is its flag, and the timers are those for messages and for services. Every step of the process is a step
of the server or leaves it alone. -/

namespace CoroActor.Worker

open TransitionSystem

def Pc.phase : Pc → Server.Phase CoroActorMsg
  | .loop => .loop
  | .waitMsg => .idle
  | .func msg => .call msg
  | .waitService msg => .pause msg
  | .write => .away

namespace Sys

variable {cfg : Setting} {s t : Sys} {l : Label}

/-- The process, seen as a server. -/
def server (s : Sys) : Server CoroActorMsg where
  phase := s.pc.phase
  queue := s.ctx.msgQueue
  busy := s.ctx.isWaiting
  arrival := s.ctx.msgNotifyTimer
  completion := s.ctx.serviceNotifyTimer
  pushed := s.history.pushed
  taken := s.history.taken
  started := (List.range s.history.ninv).map s.history.message
  completed := s.history.completed

theorem finish_server (s : Sys) (msg : CoroActorMsg) :
    ∃ p, (p = .loop ∨ p = .away) ∧ (s.finish msg).server = { s.server with phase := p } :=
  s.finish_kept (P := fun t => ∃ p, (p = .loop ∨ p = .away) ∧ t.server = { s.server with phase := p }) msg
    fun pc _ _ _ _ _ hpc => ⟨pc.phase, hpc.imp (congrArg Pc.phase) (congrArg Pc.phase), rfl⟩

theorem started_length : s.server.started.length = s.history.ninv := by
  simp [server]

theorem invoke_server (msg : CoroActorMsg) (rest : List CoroActorMsg) (type : UInt8) :
    ((s.takeFront msg rest).invoke msg type).server =
      { s.server with
        phase := .call msg
        queue := rest
        busy := true
        taken := s.history.taken ++ [msg]
        started := s.server.started ++ [msg]
        completed := Function.update s.history.completed s.server.started.length false } := by
  have hstarted : (List.range (s.history.ninv + 1)).map (Function.update s.history.message s.history.ninv msg) =
      s.server.started ++ [msg] := by
    rw [List.range_succ, List.map_append, List.map_singleton, Function.update_self]
    congr 1
    refine List.map_congr_left fun j hj => ?_
    rw [Function.update_of_ne (List.mem_range.mp hj).ne]
  rw [started_length, ← hstarted]
  rfl

/-- **Refinement.** A step is a step of the server, or none. -/
theorem Move.server (h : s.Move cfg l t) (hrule : Rule s l) : t.server = s.server ∨ s.server.Step t.server := by
  cases h with
  | wait hpc hq => exact Or.inr (.wait (congrArg Pc.phase hpc) hq)
  | closed hpc hq | notFound hpc hq | undefined hpc hq =>
      exact Or.inr (.skip (congrArg Pc.phase hpc) hq)
  | @invoke type msg rest hpc hq =>
      rw [invoke_server]
      exact Or.inr (.start (congrArg Pc.phase hpc) hq)
  | pause hpc hwaiting => exact Or.inr (.pause (congrArg Pc.phase hpc) hwaiting)
  | @leave msg hpc hfree =>
      obtain ⟨p, hp, heq⟩ := s.finish_server msg
      rw [heq]
      exact Or.inr (.leave (congrArg Pc.phase hpc) hfree hp)
  | messageNotified hpc hr => exact Or.inr (.wake (congrArg Pc.phase hpc) hr)
  | @serviceNotified msg hpc hr =>
      obtain ⟨p, hp, heq⟩ := finish_server (s.setCtx { s.ctx with
        serviceNotifyTimer := s.ctx.serviceNotifyTimer.complete () } s.history) msg
      rw [heq]
      exact Or.inr (.resume (congrArg Pc.phase hpc) hr hp)
  | replied hpc => exact Or.inr (.back (congrArg Pc.phase hpc))
  | remote =>
      rw [push_eq]
      exact Or.inr (.push _)
  | request =>
      rw [onRequest_eq]
      exact Or.inr (.push _)
  | complete _ hj => exact Or.inr (.complete (by simpa [Sys.server] using hj) hrule)
  | send =>
      rw [startSend_eq]
      exact Or.inl rfl
  | _ => exact Or.inl rfl

/-- At most one call of `func` is in progress. -/
theorem call_unique (hs : s.server.Sound) {i j : Nat} (hi : i < s.history.ninv) (hj : j < s.history.ninv)
    (hci : s.history.completed i = false) (hcj : s.history.completed j = false) : i = j := by
  rw [← started_length] at hi hj
  exact hs.unique hi hj hci hcj

theorem calls_completed (hs : s.server.Sound) (hpc : s.pc.phase.served = none) :
    ∀ j < s.history.ninv, s.history.completed j = true := by
  intro j hj
  rw [← started_length] at hj
  exact hs.completed (Or.inl hpc) j hj

theorem server_sound (hr : Reachable (machine cfg) Rule s) : s.server.Sound := by
  refine hr.simulates server (R := Server.Step) ?_ (fun v w h hstep => h.step hstep)
    fun s l t hrule hst => (step_move hst).server hrule
  exact .init _

/-- **Serial services, and no missed wake-up.** In every run of well-behaved services: at most one call
of `func` is in progress; messages are taken in the order in which they were pushed, and those for which
`func` is called are some of them; a wait for a message is over when the queue is not empty, and a wait
for the service when `notify_complete` was called; and `handle_message` goes on after a service only when
that was called. -/
theorem services_serial (hr : Reachable (machine cfg) Rule s) :
    (∀ i < s.history.ninv, ∀ j < s.history.ninv,
      s.history.completed i = false → s.history.completed j = false → i = j) ∧
    s.history.pushed = s.history.taken ++ s.ctx.msgQueue ∧
    ((List.range s.history.ninv).map s.history.message).Sublist s.history.taken ∧
    (s.pc = .waitMsg → s.ctx.msgQueue ≠ [] → () ∈ s.ctx.msgNotifyTimer.ready) ∧
    (∀ msg, s.pc = .waitService msg → ∀ j, j + 1 = s.history.ninv → s.history.completed j = true →
      () ∈ s.ctx.serviceNotifyTimer.ready) ∧
    ∀ l t, Rule s l → (machine cfg).step s l = some t →
      s.pc.phase.served ≠ none → t.pc.phase.served = none →
      ∀ j, j + 1 = s.history.ninv → s.history.completed j = true := by
  have h := server_sound hr
  refine ⟨fun i hi j hj hci hcj => call_unique h hi hj hci hcj, h.fifo, h.sublist, fun hpc hq => ?_,
    fun msg hpc j hj hc => ?_, fun l t hrule hst hs ht j hj => ?_⟩
  · exact h.arrival.mem_ready.mpr ⟨congrArg Pc.phase hpc, hq⟩
  · obtain ⟨i, hi, -, hbusy⟩ := h.current msg (congrArg (fun p => p.phase.served) hpc)
    rw [started_length, ← hj] at hi
    obtain rfl : j = i := Nat.succ.inj hi
    refine h.completion.mem_ready.mpr ⟨⟨msg, congrArg Pc.phase hpc⟩, ?_⟩
    rw [hbusy]
    exact congrArg not hc
  · rcases (step_move hst).server hrule with heq | hstep
    · exact absurd ((congrArg (fun v => v.phase.served) heq).symm.trans ht) hs
    · exact h.left hstep hs ht j (by rw [started_length]; omega)

/-- The service completes while `handle_message` waits for it and another message is queued. -/
theorem services_serial_sample : ∃ s msg,
    Reachable (machine Sample.setting) Rule s ∧ s.pc = .waitService msg ∧ s.ctx.msgQueue ≠ [] ∧
    s.history.completed 0 = true ∧ () ∈ s.ctx.serviceNotifyTimer.ready := by
  obtain ⟨s, hr, hpc, hq, hn, hc⟩ := Reachable.of_leadsTo (machine Sample.setting) Rule
    (Sample.serve "10-1" ++ [Sample.request "10-2", .complete 0])
    (fun s => s.pc = .waitService ⟨ascii "svc_a", ascii "10-1", ⟨0, []⟩, none, true⟩ ∧ s.ctx.msgQueue ≠ [] ∧
      0 + 1 = s.history.ninv ∧ s.history.completed 0 = true) (by decide +kernel)
  obtain ⟨-, -, -, -, hwait, -⟩ := services_serial hr
  exact ⟨s, _, hr, hpc, hq, hc, hwait _ hpc 0 hn hc⟩

end Sys

end CoroActor.Worker
