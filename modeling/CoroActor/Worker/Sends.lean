import CoroActor.Worker.Response

/-! The calls of `send` when nothing is known about when a RESPONSE is read. A RESPONSE that comes before the
completion handler of the write leaves its `send` waiting for ever; a `send` that does return still returns the
RESPONSE that was read for it. -/

namespace CoroActor.Worker

open TransitionSystem

/-- A service calls `send` when no `send` is in progress. -/
def OneSend (s : Sys) : Label → Prop
  | .send .. => ∀ i < s.nsend, ¬ (s.sends i).InProgress
  | _ => True

instance (s : Sys) : (l : Label) → Decidable (OneSend s l)
  | .send .. => inferInstanceAs (Decidable (∀ i < s.nsend, ¬ _))
  | .run _ | .funcReturn | .messageNotified | .serviceNotified | .replied | .accept | .remote ..
  | .remoteError _ | .request _ | .response _ | .other _ | .internalError | .respond .. | .complete _ | .wentOut _
  | .written .. | .responded _ => inferInstanceAs (Decidable True)

namespace Sys

variable {cfg : Setting} {s t : Sys} {l : Label} {i j : Nat}

/-- The REQUEST has gone out and its RESPONSE has not been read. -/
def Awaits (s : Sys) (i : Nat) : Prop := i < s.nsend ∧ (s.sends i).written = true ∧ s.history.answer i = none

/-- A RESPONSE is read only when one is awaited. -/
def ReadsAwaited (s : Sys) : Label → Prop
  | .response _ => ∃ i, s.Awaits i
  | _ => True

end Sys

/-- What a `send` has, by where it stands. The timer of its wait may have missed the RESPONSE. -/
def Send.Tracked (timer : Timer Nat) (curr : CoroActorResponse) (i : Nat) (x : Send)
    (answer : Option CoroActorResponse) : Prop :=
  match x.pc with
  | .write => (x.written = false → answer = none) ∧ ∀ r, answer = some r → curr = r
  | .wait => x.written = true ∧ (timer = .armed i ∨ timer = .fired i ∧ answer ≠ none) ∧ ∀ r, answer = some r → curr = r
  | .returned result => answer = none ∧ x.written = false ∧ result = none ∨
      x.written = true ∧ ∃ r, answer = some r ∧ result = some r.responsePack

namespace Send

variable {timer timer' : Timer Nat} {curr curr' : CoroActorResponse} {i : Nat} {x : Send}
  {answer : Option CoroActorResponse} {result : Option CoroActorPack}

theorem tracked_write (hpc : x.pc = .write) : x.Tracked timer curr i answer ↔
    (x.written = false → answer = none) ∧ ∀ r, answer = some r → curr = r := by
  simp only [Tracked, hpc]

theorem tracked_wait (hpc : x.pc = .wait) : x.Tracked timer curr i answer ↔
    x.written = true ∧ (timer = .armed i ∨ timer = .fired i ∧ answer ≠ none) ∧ ∀ r, answer = some r → curr = r := by
  simp only [Tracked, hpc]

theorem tracked_returned (hpc : x.pc = .returned result) : x.Tracked timer curr i answer ↔
    answer = none ∧ x.written = false ∧ result = none ∨
      x.written = true ∧ ∃ r, answer = some r ∧ result = some r.responsePack := by
  simp only [Tracked, hpc]

theorem Tracked.of_not_inProgress (h : x.Tracked timer curr i answer) (hx : ¬ x.InProgress) :
    x.Tracked timer' curr' i answer := by
  cases hpc : x.pc with
  | write => exact absurd (Or.inl hpc) hx
  | wait => exact absurd (Or.inr hpc) hx
  | returned result => exact (tracked_returned hpc).mpr ((tracked_returned hpc).mp h)

theorem Tracked.written_of_answer (h : x.Tracked timer curr i answer) (hans : answer ≠ none) : x.written = true := by
  cases hpc : x.pc with
  | write =>
      by_contra hw
      exact hans (((tracked_write hpc).mp h).1 (Bool.eq_false_iff.mpr hw))
  | wait => exact ((tracked_wait hpc).mp h).1
  | returned result =>
      rcases (tracked_returned hpc).mp h with ⟨hnone, -⟩ | ⟨hw, -⟩
      · exact absurd hnone hans
      · exact hw

/-- A `send` that has returned is not awaiting anything. -/
theorem Tracked.inProgress (h : x.Tracked timer curr i none) (hw : x.written = true) : x.InProgress := by
  cases hpc : x.pc with
  | write => exact Or.inl hpc
  | wait => exact Or.inr hpc
  | returned result =>
      rcases (tracked_returned hpc).mp h with ⟨-, hnot, -⟩ | ⟨-, r, hr, -⟩
      · rw [hw] at hnot
        cases hnot
      · cases hr

theorem Tracked.respond (h : x.Tracked timer curr i none) (hw : x.written = true) (r : CoroActorResponse) :
    x.Tracked timer.cancelOne r i (some r) := by
  have hcurr : ∀ r', some r = some r' → r = r' := fun _ => Option.some.inj
  cases hpc : x.pc with
  | write =>
      refine (tracked_write hpc).mpr ⟨fun hnot => ?_, hcurr⟩
      rw [hw] at hnot
      cases hnot
  | wait =>
      refine (tracked_wait hpc).mpr ⟨hw, Or.inr ⟨?_, Option.some_ne_none r⟩, hcurr⟩
      rcases ((tracked_wait hpc).mp h).2.1 with rfl | ⟨-, hnone⟩
      · rfl
      · exact absurd rfl hnone
  | returned result =>
      rcases h.inProgress hw with hwrite | hwait
      · rw [hpc] at hwrite
        cases hwrite
      · rw [hpc] at hwait
        cases hwait

end Send

namespace Sys

variable {cfg : Setting} {s t : Sys} {l : Label} {i j : Nat}

/-- Every `send` has what it should have. -/
structure SendsTracked (s : Sys) : Prop where
  tracked : ∀ i < s.nsend,
    (s.sends i).Tracked s.ctx.responseNotifyTimer s.ctx.currRespPack i (s.history.answer i)
  single : ∀ i < s.nsend, ∀ j < s.nsend, (s.sends i).InProgress → (s.sends j).InProgress → i = j
  idle : (∀ i < s.nsend, (s.sends i).pc ≠ .wait) → s.ctx.responseNotifyTimer = .idle
  fresh : ∀ i, s.nsend ≤ i → s.history.answer i = none

namespace SendsTracked

theorem init (cfg : Setting) : SendsTracked (Sys.init cfg) where
  tracked _ hi := absurd hi (Nat.not_lt_zero _)
  single _ hi := absurd hi (Nat.not_lt_zero _)
  idle _ := rfl
  fresh _ _ := rfl

theorem not_inProgress (hs : SendsTracked s) (hlt : i < s.nsend) (hprog : (s.sends i).InProgress)
    (hj : j < s.nsend) (hne : j ≠ i) : ¬ (s.sends j).InProgress :=
  fun hprog' => hne (hs.single j hj i hlt hprog' hprog)

theorem idle_of_write (hs : SendsTracked s) (hlt : i < s.nsend) (hpc : (s.sends i).pc = .write) :
    s.ctx.responseNotifyTimer = .idle := by
  apply hs.idle
  intro j hj hwait
  obtain rfl := hs.single j hj i hlt (Or.inr hwait) (Or.inl hpc)
  rw [hpc] at hwait
  cases hwait

/-- A `send` that is awaited is in progress, and it is the one that a RESPONSE is taken for. -/
theorem awaiting_eq (hs : SendsTracked s) (ha : s.Awaits i) : (s.sends i).InProgress ∧ s.awaiting = some i := by
  obtain ⟨hlt, hw, hans⟩ := ha
  have hprog : (s.sends i).InProgress := (hans ▸ hs.tracked i hlt).inProgress hw
  refine ⟨hprog, find?_range_eq_some hlt (decide_eq_true ⟨hprog, hans⟩) fun j hj hp => ?_⟩
  exact hs.single j hj i hlt (of_decide_eq_true hp).1 hprog

/-- At most one is awaited. -/
theorem awaits_unique (hs : SendsTracked s) (hi : s.Awaits i) (hj : s.Awaits j) : i = j :=
  hs.single i hi.1 j hj.1 (hs.awaiting_eq hi).1 (hs.awaiting_eq hj).1

/-- A step moves a `send` in progress, and may answer it. -/
theorem update (hs : SendsTracked s) {x : Send} {a : Option CoroActorResponse} (hlt : i < s.nsend)
    (hprog : (s.sends i).InProgress) (hn : t.nsend = s.nsend) (hsends : t.sends = Function.update s.sends i x)
    (hans : t.history.answer = Function.update s.history.answer i a)
    (hx : x.Tracked t.ctx.responseNotifyTimer t.ctx.currRespPack i a)
    (hidle : x.pc ≠ .wait → t.ctx.responseNotifyTimer = .idle) : SendsTracked t := by
  have hother : ∀ j < s.nsend, j ≠ i → ¬ (t.sends j).InProgress := by
    intro j hj hne
    rw [hsends, Function.update_of_ne hne]
    exact hs.not_inProgress hlt hprog hj hne
  constructor
  · intro j hj
    rw [hn] at hj
    by_cases hne : j = i
    · subst hne
      rwa [hsends, hans, Function.update_self, Function.update_self]
    · rw [hsends, hans, Function.update_of_ne hne, Function.update_of_ne hne]
      exact (hs.tracked j hj).of_not_inProgress (hs.not_inProgress hlt hprog hj hne)
  · intro j hj k hk hpj hpk
    rw [hn] at hj hk
    by_contra hne
    by_cases hji : j = i
    · exact hother k hk (fun hki => hne (hji.trans hki.symm)) hpk
    · exact hother j hj hji hpj
  · intro hwait
    apply hidle
    have h := hwait i (hn ▸ hlt)
    rwa [hsends, Function.update_self] at h
  · intro j hj
    rw [hn] at hj
    have hne : j ≠ i := by omega
    rw [hans, Function.update_of_ne hne]
    exact hs.fresh j hj

theorem send (hs : SendsTracked s) (hnone : ∀ i < s.nsend, ¬ (s.sends i).InProgress) (j : Nat)
    (serviceName : StdString) (pack : CoroActorPack) : SendsTracked (s.startSend j serviceName pack) := by
  rw [startSend_eq]
  have hold : ∀ {x : Send}, ∀ i < s.nsend, Function.update s.sends s.nsend x i = s.sends i := by
    intro x i hi
    exact Function.update_of_ne (Nat.ne_of_lt hi) _ _
  have hlast : ∀ {x : Send}, ∀ i < s.nsend + 1, (Function.update s.sends s.nsend x i).InProgress → i = s.nsend := by
    intro x i hi hprog
    by_contra hne
    have hlt : i < s.nsend := by omega
    rw [hold i hlt] at hprog
    exact hnone i hlt hprog
  constructor
  · intro i hi
    rcases Nat.lt_succ_iff_lt_or_eq.mp hi with hlt | rfl
    · simp only [hold i hlt]
      exact (hs.tracked i hlt).of_not_inProgress (hnone i hlt)
    · have hfresh : s.history.answer s.nsend = none := hs.fresh _ (Nat.le_refl _)
      simp only [Function.update_self, History.request_answer]
      rw [Send.tracked_write rfl, hfresh]
      exact ⟨fun _ => rfl, fun r hr => by cases hr⟩
  · intro i hi k hk hpi hpk
    exact (hlast i hi hpi).trans (hlast k hk hpk).symm
  · intro _
    exact hs.idle fun i hi hwait => hnone i hi (Or.inr hwait)
  · intro i hi
    exact hs.fresh i (Nat.le_of_succ_le hi)

theorem step (hs : SendsTracked s) (h : s.Move cfg l t) (hone : OneSend s l) (hread : s.ReadsAwaited l) :
    SendsTracked t := by
  have hsame : ∀ {i : Nat}, Function.update s.history.answer i (s.history.answer i) = s.history.answer :=
    Function.update_eq_self _ _
  cases h with
  | leave | serviceNotified =>
      exact finish_kept (P := SendsTracked) _ _ fun _ _ _ _ _ _ _ => ⟨hs.tracked, hs.single, hs.idle, hs.fresh⟩
  | remote =>
      rw [push_eq]
      exact ⟨hs.tracked, hs.single, hs.idle, hs.fresh⟩
  | request =>
      rw [onRequest_eq]
      exact ⟨hs.tracked, hs.single, hs.idle, hs.fresh⟩
  | @response p =>
      obtain ⟨i, ha⟩ := hread
      obtain ⟨hprog, hawaiting⟩ := hs.awaiting_eq ha
      have htracked := ha.2.2 ▸ hs.tracked i ha.1
      refine hs.update (x := s.sends i) (a := some p) ha.1 hprog rfl (Function.update_eq_self i _).symm ?_
        (htracked.respond ha.2.1 p) fun hne => ?_
      · unfold onResponse
        rw [hawaiting]
        rfl
      · show s.ctx.responseNotifyTimer.cancelOne = .idle
        rw [hs.idle_of_write ha.1 (hprog.resolve_right hne)]
        rfl
  | send => exact hs.send hone _ _ _
  | @wentOut i hlt hpc =>
      obtain ⟨-, hcurr⟩ := (Send.tracked_write hpc).mp (hs.tracked i hlt)
      refine hs.update hlt (Or.inl hpc) rfl rfl hsame.symm ?_ fun _ => hs.idle_of_write hlt hpc
      exact (Send.tracked_write (x := { s.sends i with written := true }) hpc).mpr ⟨nofun, hcurr⟩
  | @writeFailed i ec _ hlt hpc hw =>
      have hans := ((Send.tracked_write hpc).mp (hs.tracked i hlt)).1 hw
      refine hs.update hlt (Or.inl hpc) rfl rfl hsame.symm ?_ fun _ => hs.idle_of_write hlt hpc
      exact (Send.tracked_returned rfl).mpr (Or.inl ⟨hans, hw, rfl⟩)
  | @written i _ hlt hpc hw =>
      obtain ⟨-, hcurr⟩ := (Send.tracked_write hpc).mp (hs.tracked i hlt)
      refine hs.update hlt (Or.inl hpc) rfl rfl hsame.symm ?_ fun hne => absurd rfl hne
      refine (Send.tracked_wait rfl).mpr ⟨hw, Or.inl ?_, hcurr⟩
      show s.ctx.responseNotifyTimer.asyncWait i = .armed i
      rw [hs.idle_of_write hlt hpc]
      rfl
  | @responded i _ hlt hpc hready =>
      obtain ⟨hw, htimer, hcurr⟩ := (Send.tracked_wait hpc).mp (hs.tracked i hlt)
      rcases htimer with harmed | ⟨hfired, hans⟩
      · rw [harmed] at hready
        cases hready
      · obtain ⟨r, hr⟩ := Option.ne_none_iff_exists'.mp hans
        refine hs.update hlt (Or.inr hpc) rfl rfl hsame.symm ?_ fun _ => ?_
        · refine (Send.tracked_returned rfl).mpr (Or.inr ⟨hw, r, hr, ?_⟩)
          rw [← hcurr r hr]
        · show s.ctx.responseNotifyTimer.complete i = .idle
          rw [hfired, Timer.fired_complete]
  | _ => exact ⟨hs.tracked, hs.single, hs.idle, hs.fresh⟩

end SendsTracked

/-- The calls of `send` of a process whose RESPONSEs are meant for them. -/
theorem sendsTracked (hr : Reachable (machine cfg) SendRule s) : SendsTracked s := by
  refine hr.invariant (SendsTracked.init cfg) fun u l t _ hs hrule hst => ?_
  refine hs.step (step_move hst) ?_ ?_
  · cases l with
    | send => exact hrule
    | _ => trivial
  · cases l with
    | response p =>
        obtain ⟨i, hi, hw, -, hans⟩ := hrule
        exact ⟨i, hi, hw, hans⟩
    | _ => trivial

end Sys

end CoroActor.Worker
