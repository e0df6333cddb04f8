import CoroActor.Library.TransitionSystem
import CoroActor.Worker.Move

/-! A `send` waits for its RESPONSE on a timer that remembers nothing, and nothing tells it that the
RESPONSE was read before it waits. The module says under which condition on the run no RESPONSE is lost
so. -/

namespace CoroActor.Worker

open TransitionSystem

/-- The call of `send` has not returned. -/
def Send.InProgress (x : Send) : Prop := x.pc = .write ∨ x.pc = .wait

instance (x : Send) : Decidable x.InProgress := inferInstanceAs (Decidable (_ ∨ _))

/-- At most one `send` is in progress, and a RESPONSE is the answer to a REQUEST that has gone out whole
and was not answered yet. -/
def SendRule (s : Sys) : Label → Prop
  | .send .. => ∀ i < s.nsend, ¬ (s.sends i).InProgress
  | .response p => ∃ i < s.nsend, (s.sends i).written = true ∧ (s.sends i).request.callId = p.callId ∧
      s.history.answer i = none
  | _ => True

instance (s : Sys) : (l : Label) → Decidable (SendRule s l)
  | .send .. => inferInstanceAs (Decidable (∀ i < s.nsend, ¬ _))
  | .response p => inferInstanceAs (Decidable (∃ i < s.nsend, _ ∧ (s.sends i).request.callId = p.callId ∧ _))
  | .run _ | .funcReturn | .messageNotified | .serviceNotified | .replied | .accept | .remote ..
  | .remoteError _ | .request _ | .other _ | .internalError | .respond .. | .complete _ | .wentOut _
  | .written .. | .responded _ => inferInstanceAs (Decidable True)

/-- What a `send` has, by where it stands: no RESPONSE at its write; at its wait a timer that is
cancelled when there is a RESPONSE, which is then the current one; and it returns its RESPONSE, unless
its write failed. -/
def Send.Meant (timer : Timer Nat) (curr : CoroActorResponse) (i : Nat) (x : Send)
    (answer : Option CoroActorResponse) : Prop :=
  match x.pc with
  | .write => answer = none
  | .wait => timer.Guards i True (answer ≠ none) ∧ ∀ r, answer = some r → curr = r
  | .returned result => answer = none ∧ x.written = false ∨
      ∃ r, answer = some r ∧ result = some r.responsePack

namespace Send

variable {timer timer' : Timer Nat} {curr curr' : CoroActorResponse} {i : Nat} {x : Send}
  {answer : Option CoroActorResponse} {result : Option CoroActorPack}

theorem meant_write (hpc : x.pc = .write) : x.Meant timer curr i answer ↔ answer = none := by
  simp only [Meant, hpc]

theorem meant_wait (hpc : x.pc = .wait) : x.Meant timer curr i answer ↔
    timer.Guards i True (answer ≠ none) ∧ ∀ r, answer = some r → curr = r := by
  simp only [Meant, hpc]

theorem meant_returned (hpc : x.pc = .returned result) : x.Meant timer curr i answer ↔
    answer = none ∧ x.written = false ∨ ∃ r, answer = some r ∧ result = some r.responsePack := by
  simp only [Meant, hpc]

theorem Meant.of_not_inProgress (h : x.Meant timer curr i answer) (hx : ¬ x.InProgress) :
    x.Meant timer' curr' i answer := by
  cases hpc : x.pc with
  | write => exact absurd (Or.inl hpc) hx
  | wait => exact absurd (Or.inr hpc) hx
  | returned result => exact (meant_returned hpc).mpr ((meant_returned hpc).mp h)

/-- A `send` whose REQUEST has gone out returns with the answer. -/
theorem Meant.inProgress (h : x.Meant timer curr i none) (hw : x.written = true) : x.InProgress := by
  cases hpc : x.pc with
  | write => exact Or.inl hpc
  | wait => exact Or.inr hpc
  | returned result =>
      rcases (meant_returned hpc).mp h with ⟨-, hnot⟩ | ⟨r, hr, -⟩
      · rw [hw] at hnot
        cases hnot
      · cases hr

end Send

/-- What `p` holds of alone in the range is what the search for it finds. -/
theorem find?_range_eq_some {n i : Nat} {p : Nat → Bool} (hi : i < n) (hp : p i = true)
    (huniq : ∀ j < n, p j = true → j = i) : (List.range n).find? p = some i := by
  cases hfind : (List.range n).find? p with
  | none => exact absurd hp (List.find?_eq_none.mp hfind i (List.mem_range.mpr hi))
  | some j => rw [huniq j (List.mem_range.mp (List.mem_of_find?_eq_some hfind)) (List.find?_some hfind)]

namespace Sys

variable {cfg : Setting} {s t : Sys} {l : Label} {i j : Nat}

/-- A RESPONSE is read only when no `send` is at its write. -/
def KeepsResponse (s : Sys) : Label → Prop
  | .response _ => ∀ i < s.nsend, (s.sends i).pc ≠ .write
  | _ => True

instance (s : Sys) : (l : Label) → Decidable (KeepsResponse s l)
  | .response _ => inferInstanceAs (Decidable (∀ i < s.nsend, _))
  | .run _ | .funcReturn | .messageNotified | .serviceNotified | .replied | .accept | .remote ..
  | .remoteError _ | .request _ | .other _ | .internalError | .send .. | .respond .. | .complete _
  | .wentOut _ | .written .. | .responded _ => inferInstanceAs (Decidable True)

/-- Every `send` has what it should have, and the timer is idle when none waits. -/
structure SendsMeant (s : Sys) : Prop where
  meant : ∀ i < s.nsend,
    (s.sends i).Meant s.ctx.responseNotifyTimer s.ctx.currRespPack i (s.history.answer i)
  single : ∀ i < s.nsend, ∀ j < s.nsend, (s.sends i).InProgress → (s.sends j).InProgress → i = j
  idle : (∀ i < s.nsend, (s.sends i).pc ≠ .wait) → s.ctx.responseNotifyTimer = .idle
  fresh : ∀ i, s.nsend ≤ i → s.history.answer i = none

namespace SendsMeant

theorem not_inProgress (hi : SendsMeant s) (hlt : i < s.nsend) (hprog : (s.sends i).InProgress)
    (hj : j < s.nsend) (hne : j ≠ i) : ¬ (s.sends j).InProgress :=
  fun hprog' => hne (hi.single j hj i hlt hprog' hprog)

theorem idle_of_write (hi : SendsMeant s) (hlt : i < s.nsend) (hpc : (s.sends i).pc = .write) :
    s.ctx.responseNotifyTimer = .idle := by
  refine hi.idle fun j hj hwait => ?_
  obtain rfl := hi.single j hj i hlt (Or.inr hwait) (Or.inl hpc)
  rw [hpc] at hwait
  cases hwait

/-- A step moves a `send` in progress, and may answer it. -/
theorem update (hi : SendsMeant s) {x : Send} {answer : Option CoroActorResponse} (hlt : i < s.nsend)
    (hprog : (s.sends i).InProgress) (hn : t.nsend = s.nsend) (hsends : t.sends = Function.update s.sends i x)
    (hans : t.history.answer = Function.update s.history.answer i answer)
    (hx : x.Meant t.ctx.responseNotifyTimer t.ctx.currRespPack i answer)
    (hidle : x.pc ≠ .wait → t.ctx.responseNotifyTimer = .idle) : SendsMeant t := by
  have hother : ∀ j < s.nsend, j ≠ i → ¬ (t.sends j).InProgress := by
    intro j hj hne
    rw [hsends, Function.update_of_ne hne]
    exact hi.not_inProgress hlt hprog hj hne
  refine ⟨fun j hj => ?_, fun j hj k hk hpj hpk => ?_, fun hwait => hidle ?_, fun j hj => ?_⟩
  · rw [hn] at hj
    by_cases hne : j = i
    · subst hne
      rwa [hsends, hans, Function.update_self, Function.update_self]
    · rw [hsends, hans, Function.update_of_ne hne, Function.update_of_ne hne]
      exact (hi.meant j hj).of_not_inProgress (hi.not_inProgress hlt hprog hj hne)
  · rw [hn] at hj hk
    by_contra hne
    by_cases hji : j = i
    · exact hother k hk (fun hki => hne (hji.trans hki.symm)) hpk
    · exact hother j hj hji hpj
  · have h := hwait i (hn ▸ hlt)
    rwa [hsends, Function.update_self] at h
  · rw [hn] at hj
    have hne : j ≠ i := by omega
    rw [hans, Function.update_of_ne hne]
    exact hi.fresh j hj

theorem send (hi : SendsMeant s) (hnone : ∀ i < s.nsend, ¬ (s.sends i).InProgress) {x : Send}
    (hx : x.pc = .write) (hn : t.nsend = s.nsend + 1) (hsends : t.sends = Function.update s.sends s.nsend x)
    (hans : t.history.answer = s.history.answer)
    (htimer : t.ctx.responseNotifyTimer = s.ctx.responseNotifyTimer) : SendsMeant t := by
  have hlast : ∀ j < s.nsend + 1, (t.sends j).InProgress → j = s.nsend := by
    intro j hj hprog
    by_contra hne
    rw [hsends, Function.update_of_ne hne] at hprog
    exact hnone j (by omega) hprog
  refine ⟨fun j hj => ?_, fun j hj k hk hpj hpk => ?_, fun _ => ?_, fun j hj => ?_⟩
  · rw [hn] at hj
    rcases Nat.lt_succ_iff_lt_or_eq.mp hj with hlt | rfl
    · rw [hsends, hans, Function.update_of_ne (Nat.ne_of_lt hlt)]
      exact (hi.meant j hlt).of_not_inProgress (hnone j hlt)
    · rw [hsends, hans, Function.update_self]
      exact (Send.meant_write hx).mpr (hi.fresh _ (Nat.le_refl _))
  · rw [hn] at hj hk
    exact (hlast j hj hpj).trans (hlast k hk hpk).symm
  · rw [htimer]
    exact hi.idle fun j hj hwait => hnone j hj (Or.inr hwait)
  · rw [hans]
    exact hi.fresh j (by omega)

/-- A `send` that has gone out and was not answered is in progress, and is the one that is awaited. -/
theorem awaiting_eq (hi : SendsMeant s) (hlt : i < s.nsend) (hw : (s.sends i).written = true)
    (hans : s.history.answer i = none) : (s.sends i).InProgress ∧ s.awaiting = some i := by
  have hprog := (hans ▸ hi.meant i hlt).inProgress hw
  refine ⟨hprog, find?_range_eq_some hlt (decide_eq_true ⟨hprog, hans⟩) fun j hj hp => ?_⟩
  exact hi.single j hj i hlt (of_decide_eq_true hp).1 hprog

theorem onResponse_answer (hi : SendsMeant s) {p : CoroActorResponse}
    (hrule : SendRule s (.response p)) : ∃ i < s.nsend, (s.sends i).InProgress ∧ s.history.answer i = none ∧
      (s.onResponse p).history.answer = Function.update s.history.answer i (some p) := by
  obtain ⟨i, hlt, hw, -, hans⟩ := hrule
  obtain ⟨hprog, hawaiting⟩ := hi.awaiting_eq hlt hw hans
  refine ⟨i, hlt, hprog, hans, ?_⟩
  unfold onResponse
  rw [hawaiting]
  rfl

theorem step (hi : SendsMeant s) (h : s.Move cfg l t) (hrule : SendRule s l) (hok : KeepsResponse s l) :
    SendsMeant t := by
  cases h with
  | leave | serviceNotified =>
      exact finish_kept (P := SendsMeant) _ _ fun _ _ _ _ _ _ _ => ⟨hi.meant, hi.single, hi.idle, hi.fresh⟩
  | remote =>
      rw [push_eq]
      exact ⟨hi.meant, hi.single, hi.idle, hi.fresh⟩
  | request =>
      rw [onRequest_eq]
      exact ⟨hi.meant, hi.single, hi.idle, hi.fresh⟩
  | @response p =>
      obtain ⟨i, hlt, hprog, -, hanswer⟩ := hi.onResponse_answer hrule
      have hpc : (s.sends i).pc = .wait := hprog.resolve_left (hok i hlt)
      obtain ⟨hguard, -⟩ := (Send.meant_wait hpc).mp (hi.meant i hlt)
      refine hi.update hlt hprog rfl (Function.update_eq_self i _).symm hanswer ?_ fun hne => absurd hpc hne
      exact (Send.meant_wait hpc).mpr ⟨hguard.cancelOne (Option.some_ne_none p), fun r => Option.some.inj⟩
  | @send j name pack =>
      rw [startSend_eq]
      exact hi.send hrule rfl rfl rfl rfl rfl
  | @wentOut i hlt hpc =>
      have hans := (Send.meant_write hpc).mp (hi.meant i hlt)
      refine hi.update hlt (Or.inl hpc) rfl rfl (Function.update_eq_self i _).symm ?_
        fun _ => hi.idle_of_write hlt hpc
      exact (Send.meant_write (x := { s.sends i with written := true }) hpc).mpr hans
  | writeFailed _ hlt hpc hw =>
      have hans := (Send.meant_write hpc).mp (hi.meant _ hlt)
      refine hi.update hlt (Or.inl hpc) rfl rfl (Function.update_eq_self _ _).symm ?_
        fun _ => hi.idle_of_write hlt hpc
      exact (Send.meant_returned rfl).mpr (Or.inl ⟨hans, hw⟩)
  | @written i _ hlt hpc =>
      have hans := (Send.meant_write hpc).mp (hi.meant i hlt)
      refine hi.update hlt (Or.inl hpc) rfl rfl (Function.update_eq_self i _).symm ?_ fun hne => absurd rfl hne
      refine (Send.meant_wait rfl).mpr ⟨?_, fun r hr => ?_⟩
      · have hidle : s.ctx.responseNotifyTimer.Guards i False False := by
          rw [hi.idle_of_write hlt hpc]
          exact .not_suspended not_false
        exact hidle.asyncWait not_false trivial (not_not.mpr hans)
      · cases hans.symm.trans hr
  | @responded i _ hlt hpc hr =>
      obtain ⟨hguard, hcurr⟩ := (Send.meant_wait hpc).mp (hi.meant i hlt)
      obtain ⟨r, hans⟩ := Option.ne_none_iff_exists'.mp (hguard.mem_ready.mp hr).2
      refine hi.update hlt (Or.inr hpc) rfl rfl (Function.update_eq_self i _).symm ?_ fun _ => ?_
      · refine (Send.meant_returned rfl).mpr (Or.inr ⟨r, hans, ?_⟩)
        rw [← hcurr r hans]
      · have hdone : (s.ctx.responseNotifyTimer.complete i).Guards i False False := hguard.complete hr not_false
        exact hdone.idle not_false
  | _ => exact ⟨hi.meant, hi.single, hi.idle, hi.fresh⟩

end SendsMeant

/-- The RESPONSE is not lost: `send` number `i` has returned it, or its wait is cancelled and its handler
returns it as soon as no other handler is running. -/
def Delivers (cfg : Setting) (s : Sys) (i : Nat) (r : CoroActorResponse) : Prop :=
  (s.sends i).pc = .returned (some r.responsePack) ∨
  (s.sends i).pc = .wait ∧ i ∈ s.ctx.responseNotifyTimer.ready ∧
    (s.Ready → ∃ t, (machine cfg).step s (.responded i) = some t ∧
      (t.sends i).pc = .returned (some r.responsePack))

theorem SendsMeant.delivers (hi : SendsMeant s) (hlt : i < s.nsend) {r : CoroActorResponse}
    (hans : s.history.answer i = some r) : s.Delivers cfg i r := by
  have h := hi.meant i hlt
  rw [hans] at h
  cases hpc : (s.sends i).pc with
  | write => cases (Send.meant_write hpc).mp h
  | wait =>
      obtain ⟨hguard, hcurr⟩ := (Send.meant_wait hpc).mp h
      have hready := hguard.mem_ready.mpr ⟨trivial, Option.some_ne_none r⟩
      refine Or.inr ⟨hpc, hready, fun hr => ⟨s.onResponded i, if_pos ⟨hr, hlt, hpc, hready⟩, ?_⟩⟩
      simp [onResponded, hcurr r rfl]
  | returned result =>
      rcases (Send.meant_returned hpc).mp h with ⟨hnone, -⟩ | ⟨r', hr', rfl⟩
      · cases hnone
      · left
        rw [Option.some.inj hr', hpc]

theorem Move.answer (h : s.Move cfg l t) (hi : SendsMeant s) (hrule : SendRule s l) {r : CoroActorResponse}
    (hans : s.history.answer i = some r) : t.history.answer i = some r := by
  cases h with
  | leave | serviceNotified =>
      exact finish_kept (P := fun t => t.history.answer i = some r) _ _ fun _ _ _ _ _ _ _ => hans
  | @response p =>
      obtain ⟨j, -, -, hnone, hanswer⟩ := hi.onResponse_answer hrule
      have hne : i ≠ j := by
        rintro rfl
        cases hans.symm.trans hnone
      rw [hanswer, Function.update_of_ne hne]
      exact hans
  | _ => exact hans

theorem sends_meant (hr : Reachable (machine cfg) (fun s l => SendRule s l ∧ KeepsResponse s l) s) :
    SendsMeant s := by
  refine hr.invariant ⟨fun _ h => absurd h (Nat.not_lt_zero _), fun _ h => absurd h (Nat.not_lt_zero _),
    fun _ => rfl, fun _ _ => rfl⟩ ?_
  rintro s l t - hi ⟨hrule, hok⟩ hst
  exact hi.step (step_move hst) hrule hok

/-- **No lost RESPONSE.** In every run with at most one `send` at a time in which every RESPONSE answers
a REQUEST that has gone out and is read only when no `send` is at its write: the RESPONSE that was read
for a `send` stays its answer, and that has returned it or is resumed to return it. The condition on a
step says exactly that this stays so. -/
theorem response_delivered (hr : Reachable (machine cfg) (fun s l => SendRule s l ∧ KeepsResponse s l) s) :
    (∀ i < s.nsend, ∀ r, s.history.answer i = some r → s.Delivers cfg i r ∧
      ∀ l t, SendRule s l → (machine cfg).step s l = some t → t.history.answer i = some r) ∧
    ∀ l t, SendRule s l → (machine cfg).step s l = some t →
      (KeepsResponse s l ↔ ∀ i < t.nsend, ∀ r, t.history.answer i = some r → t.Delivers cfg i r) := by
  have hi := sends_meant hr
  refine ⟨fun i hlt r hans => ⟨hi.delivers hlt hans, fun l t hrule hst => (step_move hst).answer hi hrule hans⟩,
    fun l t hrule hst => ⟨fun hok i hlt r hans => ?_, fun hall => ?_⟩⟩
  · exact (hi.step (step_move hst) hrule hok).delivers hlt hans
  · cases step_move hst with
    | @response p =>
        intro i hlt hpc
        obtain ⟨j, hj, hprog, -, hanswer⟩ := hi.onResponse_answer hrule
        obtain rfl := hi.single i hlt j hj (Or.inl hpc) hprog
        have hans : (s.onResponse p).history.answer i = some p := by rw [hanswer, Function.update_self]
        have hsame : ((s.onResponse p).sends i).pc = .write := hpc
        rcases hall i hlt p hans with hret | ⟨hwait, -⟩
        · rw [hsame] at hret
          cases hret
        · rw [hsame] at hwait
          cases hwait
    | _ => trivial

/-- The RESPONSE is read while the `send` waits, and its handler is still to run. -/
theorem response_delivered_sample : ∃ s r,
    Reachable (machine Sample.setting) (fun s l => SendRule s l ∧ KeepsResponse s l) s ∧
    s.history.answer 0 = some r ∧ (s.sends 0).pc = .wait ∧ s.Delivers Sample.setting 0 r := by
  obtain ⟨s, hr, hlt, hans, hpc⟩ := Reachable.of_leadsTo (machine Sample.setting)
    (fun s l => SendRule s l ∧ KeepsResponse s l)
    (Sample.serve "10-1" ++ [Sample.send 0 "svc_b", .wentOut 0, .written 0 0, Sample.response "10-1" "svc_b"])
    (fun s => 0 < s.nsend ∧
      s.history.answer 0 = some ⟨13, ascii "10-1", ascii "svc_b", ⟨0, [7]⟩⟩ ∧ (s.sends 0).pc = .wait)
    (by decide +kernel)
  exact ⟨s, _, hr, hans, hpc, ((response_delivered hr).1 0 hlt _ hans).1⟩

/-- The RESPONSE is read before the completion handler of the write runs: nobody cancels the wait
that follows. -/
theorem response_lost : ∃ s r, Reachable (machine Sample.setting) SendRule s ∧
    s.history.answer 0 = some r ∧ s.ctx.currRespPack = r ∧ (s.sends 0).pc = .wait ∧
    s.ctx.responseNotifyTimer.ready = [] ∧ ¬ s.Delivers Sample.setting 0 r := by
  obtain ⟨s, hr, hans, hcurr, hpc, hready⟩ := Reachable.of_leadsTo (machine Sample.setting) SendRule
    (Sample.serve "10-1" ++ [Sample.send 0 "svc_b", .wentOut 0, Sample.response "10-1" "svc_b", .written 0 0])
    (fun s => s.history.answer 0 = some ⟨13, ascii "10-1", ascii "svc_b", ⟨0, [7]⟩⟩ ∧
      s.ctx.currRespPack = ⟨13, ascii "10-1", ascii "svc_b", ⟨0, [7]⟩⟩ ∧ (s.sends 0).pc = .wait ∧
      s.ctx.responseNotifyTimer.ready = []) (by decide +kernel)
  refine ⟨s, _, hr, hans, hcurr, hpc, hready, ?_⟩
  rintro (hret | ⟨-, hmem, -⟩)
  · rw [hpc] at hret
    cases hret
  · rw [hready] at hmem
    cases hmem

end Sys

end CoroActor.Worker
