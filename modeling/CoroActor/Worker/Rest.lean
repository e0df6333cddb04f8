import CoroActor.Worker.Services

/-! A process that can do nothing more by itself. When the RESPONSE to a `send` has never come too early for the wait,
the process has answered all its messages and waits for the next one, or it serves one whose coroutine is suspended in
a `send` that awaits its RESPONSE. -/

namespace CoroActor.Worker

open TransitionSystem

/-- What the coroutine of call `j` of `func` does next. -/
def Coroutine.nextActs (c : Coroutine) (j : Nat) : List Label :=
  match c with
  | .running (.ask q _) => [.send j q.serviceName q.requestPack]
  | .running (.done r) => [.respond j r, .complete j]
  | .suspended .. | .finished => []

namespace Sys

/-- What a process does next by itself, whether it can or not. The clients, the link to the proxy and failures are not
up to it. -/
def nextActs (c : Nat → Coroutine) (s : Sys) : List Label :=
  [.run 0, .funcReturn, .messageNotified, .serviceNotified, .replied] ++
    (List.range s.history.ninv).flatMap (fun j => (c j).nextActs j) ++
    (List.range s.nsend).flatMap fun i => [.wentOut i, .written i 0, .responded i]

/-- The process can do nothing by itself. -/
def Rests (cfg : Setting) (c : Nat → Coroutine) (s : Sys) : Prop :=
  ∀ l ∈ s.nextActs c, Follows c s l → s.step cfg l = none

/-- The process waits for a message and there is none, or a `send` awaits its RESPONSE. -/
def AtRest (s : Sys) : Prop := s.pc = .waitMsg ∧ s.ctx.msgQueue = [] ∨ ∃ i, s.Awaits i

variable {cfg : Setting} {func : StdString → Func} {c : Nat → Coroutine} {s : Sys} {i j : Nat}

theorem mem_nextActs_call {l : Label} (hj : j < s.history.ninv) (hl : l ∈ (c j).nextActs j) : l ∈ s.nextActs c :=
  List.mem_append_left _ (List.mem_append_right _ (List.mem_flatMap.mpr ⟨j, List.mem_range.mpr hj, hl⟩))

theorem mem_nextActs_send {l : Label} (hi : i < s.nsend) (hl : l ∈ [Label.wentOut i, .written i 0, .responded i]) :
    l ∈ s.nextActs c :=
  List.mem_append_right _ (List.mem_flatMap.mpr ⟨i, List.mem_range.mpr hi, hl⟩)

namespace Rests

variable (h : Rests cfg c s) (hsane : s.fault = false)

include h hsane

/-- `handle_message` waits. -/
theorem waits : s.pc = .waitMsg ∨ ∃ msg, s.pc = .waitService msg := by
  cases hpc : s.pc with
  | waitMsg => exact Or.inl rfl
  | waitService msg => exact Or.inr ⟨msg, rfl⟩
  | loop =>
      have hnone := h (.run 0) (by simp [nextActs]) trivial
      simp [step, hsane, hpc] at hnone
  | func msg =>
      have hnone := h .funcReturn (by simp [nextActs]) trivial
      simp [step, hsane, hpc] at hnone
  | write =>
      have hnone := h .replied (by simp [nextActs]) trivial
      simp [step, Ready, hsane, hpc] at hnone

theorem ready : s.Ready := by
  refine ⟨hsane, ?_⟩
  rcases h.waits hsane with hpc | hpc
  · exact Or.inl hpc
  · exact Or.inr (Or.inl hpc)

theorem serving : s.Serving := by
  refine ⟨hsane, fun hloop => ?_⟩
  rcases h.waits hsane with hpc | ⟨msg, hpc⟩ <;> rw [hloop] at hpc <;> cases hpc

/-- No coroutine of a service can go on. -/
theorem not_running (hj : j < s.history.ninv) : (c j).isRunning = false := by
  by_contra hrunning
  rw [Bool.not_eq_false] at hrunning
  obtain ⟨rest, hrest⟩ := Coroutine.isRunning_iff.mp hrunning
  cases rest with
  | ask q next =>
      have hnone := h (.send j q.serviceName q.requestPack)
        (mem_nextActs_call hj (by simp [hrest, Coroutine.nextActs])) (by simp [Follows, hrest, Coroutine.question])
      simp [step, h.serving hsane, hj] at hnone
  | done r =>
      have hnone := h (.respond j r) (mem_nextActs_call hj (by simp [hrest, Coroutine.nextActs])) hrunning
      simp [step, h.serving hsane, hj] at hnone

/-- A `send` that has not returned awaits its RESPONSE. -/
theorem awaits (htracked : s.SendsTracked) (hmeant : s.SendsMeant) (hopen : s.unixOpen = true) (hi : i < s.nsend)
    (ho : (s.sends i).pc.over = false) : s.Awaits i := by
  cases hpc : (s.sends i).pc with
  | write =>
      have hnone := h (.wentOut i) (mem_nextActs_send hi (by simp)) trivial
      simp [step, hsane, hi, hpc, hopen] at hnone
  | wait =>
      refine ⟨hi, ((Send.tracked_wait hpc).mp (htracked.tracked i hi)).1, ?_⟩
      by_contra hanswer
      obtain ⟨hguards, -⟩ := (Send.meant_wait hpc).mp (hmeant.meant i hi)
      have hnone := h (.responded i) (mem_nextActs_send hi (by simp)) trivial
      simp [step, h.ready hsane, hi, hpc, hguards.mem_ready.mpr ⟨trivial, hanswer⟩] at hnone
  | returned result =>
      rw [hpc] at ho
      cases ho

theorem atRest (hs : s.server.Sound) (hserved : Served func c s) (htracked : s.SendsTracked)
    (hmeant : s.SendsMeant) (hopen : s.unixOpen = true) : s.AtRest := by
  rcases h.waits hsane with hpc | ⟨msg, hpc⟩
  · refine Or.inl ⟨hpc, ?_⟩
    by_contra hqueue
    have hready : () ∈ s.ctx.msgNotifyTimer.ready :=
      hs.arrival.mem_ready.mpr ⟨show s.pc.phase = .idle by rw [hpc]; rfl, hqueue⟩
    have hnone := h .messageNotified (by simp [nextActs]) trivial
    simp [step, h.ready hsane, hpc, hready] at hnone
  · right
    have hphase : s.server.phase = .pause msg := congrArg Pc.phase hpc
    have hbusy : s.ctx.isWaiting = true := by
      by_contra hfree
      rw [Bool.not_eq_true] at hfree
      have hready : () ∈ s.ctx.serviceNotifyTimer.ready := hs.completion.mem_ready.mpr ⟨⟨msg, hphase⟩, hfree⟩
      have hnone := h .serviceNotified (by simp [nextActs]) trivial
      simp [step, h.ready hsane, hpc, hready] at hnone
    obtain ⟨j, hlast, -, hcurrent⟩ := hs.current msg (by rw [hphase]; rfl)
    rw [started_length] at hlast
    have hj : j < s.history.ninv := by omega
    have hnot : s.history.completed j = false := by
      rw [show s.server.busy = true from hbusy] at hcurrent
      simpa [server] using hcurrent.symm
    -- its coroutine is not finished and does not run
    cases hc : c j with
    | running rest =>
        have hrunning := h.not_running hsane hj
        rw [hc] at hrunning
        cases hrunning
    | finished =>
        rw [(hserved.finished j hj).mp hc] at hnot
        cases hnot
    | suspended i next =>
        obtain ⟨hi, -, ho⟩ := hserved.sent j hj i next hc
        exact ⟨i, h.awaits hsane htracked hmeant hopen hi ho⟩

end Rests

/-- A process without a message to handle has answered everything that has come over an open channel. -/
theorem answers_of_idle (hs : s.server.Sound) (ha : s.Accounted) (hpc : s.pc = .waitMsg) (hqueue : s.ctx.msgQueue = [])
    {χ : Channel} (hχ : s.isOpen χ = true) :
    (s.history.answersOn χ).length = (s.history.pushedOn χ).length := by
  have hserved : s.pc.phase.served = none := by rw [hpc]; rfl
  obtain ⟨done, rest, hacc⟩ := ha.account χ
  rw [hχ, hserved] at hacc
  have hpushed : s.history.pushed = s.history.taken := by
    rw [show s.history.pushed = s.history.taken ++ s.ctx.msgQueue from hs.fifo, hqueue, List.append_nil]
  have hrest : rest = [] := hacc.rest_eq_nil nofun
  calc (s.history.answersOn χ).length = (s.history.callsOn χ).length := by
        rw [hacc.answers, hacc.calls, hrest, List.append_nil, List.length_map]
    _ = (s.history.takenOn χ).length := by rw [← hacc.opened rfl, List.length_map]
    _ = (s.history.pushedOn χ).length := by rw [History.takenOn, History.pushedOn, hpushed]

end Sys

end CoroActor.Worker
