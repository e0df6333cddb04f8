import CoroActor.Worker.Scheduling

/-! `call_id_` is shared by the calls of `func`: each is to send all its REQUESTs under one call id. The
module says under which condition on the run nothing gets in between. -/

namespace CoroActor.Worker

open TransitionSystem

/-- The call id that a call of `func` goes by, empty as long as it has none: that of its message, or the
only one that was generated for it, when it sent its first REQUEST. `generated` and `requested` are the
call ids that were generated for it and those of its REQUESTs. -/
structure GoesBy (msg : CoroActorMsg) (generated requested : List StdString) (id : StdString) : Prop where
  source : generated = [] ∧ id = msg.callId ∨
    msg.callId = [] ∧ generated = [id] ∧ requested.head? = some id
  carried : ∀ x ∈ requested, x = id
  unused : id = [] → generated = [] ∧ requested = []

namespace GoesBy

variable {msg : CoroActorMsg} {generated requested : List StdString} {id next : StdString}

theorem start (msg : CoroActorMsg) : GoesBy msg [] [] msg.callId :=
  ⟨Or.inl ⟨rfl, rfl⟩, nofun, fun _ => ⟨rfl, rfl⟩⟩

theorem generate (h : GoesBy msg generated requested []) (hnext : next ≠ []) :
    GoesBy msg (generated ++ [next]) (requested ++ [next]) next := by
  obtain ⟨hg, hr⟩ := h.unused rfl
  rw [hg, hr]
  refine ⟨Or.inr ⟨?_, rfl, rfl⟩, by simp, fun h => absurd h hnext⟩
  rcases h.source with ⟨-, hid⟩ | ⟨hid, -⟩
  · exact hid.symm
  · exact hid

theorem request (h : GoesBy msg generated requested id) (hid : id ≠ []) :
    GoesBy msg generated (requested ++ [id]) id := by
  refine ⟨?_, fun x hx => ?_, fun h => absurd h hid⟩
  · rcases h.source with hfirst | ⟨hnil, hg, hhead⟩
    · exact Or.inl hfirst
    · refine Or.inr ⟨hnil, hg, ?_⟩
      rw [List.head?_append, hhead]
      rfl
  · rcases List.mem_append.mp hx with hold | hnew
    · exact h.carried x hold
    · exact List.mem_singleton.mp hnew

end GoesBy

namespace Sys

variable {cfg : Setting} {s t : Sys} {l : Label}

/-- No REQUEST is read while a call of `func` is in progress and `call_id_` is not empty. -/
def KeepsCallId (s : Sys) : Label → Prop
  | .request _ => s.ctx.callId = [] ∨ ∀ j < s.history.ninv, s.history.completed j = true
  | _ => True

instance (s : Sys) : (l : Label) → Decidable (KeepsCallId s l)
  | .request _ => inferInstanceAs (Decidable (_ ∨ ∀ j < s.history.ninv, _))
  | .run _ | .funcReturn | .messageNotified | .serviceNotified | .replied | .accept | .remote ..
  | .remoteError _ | .response _ | .other _ | .internalError | .send .. | .respond .. | .complete _
  | .wentOut _ | .written .. | .responded _ => inferInstanceAs (Decidable True)

/-- `call_id_` is the call id that the call in progress goes by. -/
def CallIdMeant (s : Sys) : Prop := ∀ j < s.history.ninv, ∃ id,
  GoesBy (s.history.message j) (s.history.generated j) (s.history.requested j) id ∧
    (s.history.completed j = false → s.ctx.callId = id)

theorem CallIdMeant.invoke (hi : CallIdMeant s) (hall : ∀ j < s.history.ninv, s.history.completed j = true)
    (msg : CoroActorMsg) (type : UInt8) : CallIdMeant (s.invoke msg type) := by
  intro j hj
  rcases Nat.lt_succ_iff_lt_or_eq.mp hj with hlt | rfl
  · obtain ⟨id, hid, -⟩ := hi j hlt
    simp only [Sys.invoke, setPc_history, setPc_ctx, setCtx_history, setCtx_ctx, History.invoke_message,
      History.invoke_generated, History.invoke_requested, History.invoke_completed,
      Function.update_of_ne hlt.ne]
    refine ⟨id, hid, fun hc => ?_⟩
    rw [hall j hlt] at hc
    cases hc
  · refine ⟨msg.callId, ?_, fun _ => rfl⟩
    simpa [Sys.invoke] using GoesBy.start msg

/-- `send` takes the call id of its call of `func`, or generates one. -/
theorem CallIdMeant.send (hi : CallIdMeant s) (hs : s.server.Sound) {j : Nat} (hj : j < s.history.ninv)
    (hc : s.history.completed j = false) (serviceName : StdString) (pack : CoroActorPack) :
    CallIdMeant (s.startSend j serviceName pack) := by
  intro i hilt
  obtain ⟨id, hid, hcall⟩ := hi i hilt
  by_cases hij : i = j
  · subst hij
    obtain rfl := hcall hc
    simp only [startSend, setCtx_history, setCtx_ctx, History.request_message, History.request_generated,
      History.request_requested, Function.update_self, CoroActorCtx.openCall_callId]
    by_cases hnil : s.ctx.callId = []
    · rw [hnil] at hid
      simp only [hnil, if_true, decide_true, Function.update_self]
      exact ⟨_, hid.generate s.ctx.nextCallId_ne_nil, fun _ => rfl⟩
    · simp only [hnil, if_false, decide_false, Bool.false_eq_true]
      exact ⟨_, hid.request hnil, fun _ => rfl⟩
  · refine ⟨id, ?_, fun hci => absurd (call_unique hs hilt hj hci hc) hij⟩
    simp only [startSend, setCtx_history, History.request_message, History.request_generated,
      History.request_requested, Function.update_of_ne hij]
    split
    · rwa [Function.update_of_ne hij]
    · exact hid

theorem CallIdMeant.step (hi : CallIdMeant s) (h : s.Move cfg l t) (hs : s.server.Sound) (hrule : Rule s l)
    (hok : KeepsCallId s l) : CallIdMeant t := by
  cases h with
  | @invoke type msg rest hpc =>
      have hall := calls_completed hs (congrArg (fun p => p.phase.served) hpc)
      exact CallIdMeant.invoke (s := s.takeFront msg rest) hi hall msg type
  | leave | serviceNotified => exact finish_kept (P := CallIdMeant) _ _ fun _ _ _ _ _ _ _ => hi
  | remote =>
      rw [push_eq]
      exact hi
  | request =>
      rw [onRequest_eq]
      intro j hj
      obtain ⟨id, hid, hcall⟩ := hi j hj
      refine ⟨id, hid, fun hc => ?_⟩
      rcases hok with hnil | hall
      · exact hnil.symm.trans (hcall hc)
      · exact absurd ((hall j hj).symm.trans hc) nofun
  | send _ hj => exact hi.send hs hj hrule _ _
  | @complete j _ hj =>
      intro i hilt
      obtain ⟨id, hid, -⟩ := hi i hilt
      refine ⟨id, hid, fun hc => ?_⟩
      have hij : i ≠ j := by
        rintro rfl
        simp at hc
      exact absurd (call_unique hs hilt hj ((Function.update_of_ne hij _ _).symm.trans hc) hrule) hij
  | _ => exact hi

/-- Who changes `call_id_` while a call of `func` is in progress. -/
theorem Move.callId_changed (h : s.Move cfg l t) (hs : s.server.Sound) (hrule : Rule s l) (hi : CallIdMeant s)
    {j : Nat} (hj : j < s.history.ninv) (hc : s.history.completed j = false)
    (hne : t.ctx.callId ≠ s.ctx.callId) :
    l = .complete j ∨ ((∃ name pack, l = .send j name pack) ∧ s.history.requested j = []) ∨
      ((∃ p, l = .request p) ∧ s.ctx.callId ≠ []) := by
  cases h with
  | invoke hpc =>
      have hall := calls_completed hs (congrArg (fun p => p.phase.served) hpc)
      exact absurd ((hall j hj).symm.trans hc) nofun
  | leave | serviceNotified =>
      refine absurd ?_ hne
      exact finish_kept (P := fun t => t.ctx.callId = s.ctx.callId) _ _ fun _ _ _ _ _ _ _ => rfl
  | remote =>
      rw [push_eq] at hne
      exact absurd rfl hne
  | @request p =>
      rw [onRequest_eq] at hne
      exact Or.inr (Or.inr ⟨⟨p, rfl⟩, Ne.symm hne⟩)
  | @send i name pack _ hi' =>
      obtain rfl := call_unique hs hi' hj hrule hc
      obtain ⟨id, hid, hcall⟩ := hi i hi'
      obtain rfl := hcall hc
      refine Or.inr (Or.inl ⟨⟨name, pack, rfl⟩, ?_⟩)
      by_cases hnil : s.ctx.callId = []
      · exact (hid.unused hnil).2
      · rw [startSend, setCtx_ctx, CoroActorCtx.openCall_callId, if_neg hnil] at hne
        exact absurd rfl hne
  | @complete i _ hi' => exact Or.inl (by rw [call_unique hs hi' hj hrule hc])
  | _ => exact absurd rfl hne

/-- Each call of `func` sends its REQUESTs under the call id of its message, or under the one that was
generated for it when that is empty. -/
def CallIdsPropagated (s : Sys) : Prop := ∀ j < s.history.ninv,
  ((s.history.message j).callId ≠ [] →
    s.history.generated j = [] ∧ ∀ x ∈ s.history.requested j, x = (s.history.message j).callId) ∧
  ((s.history.message j).callId = [] → s.history.generated j = [] ∧ s.history.requested j = [] ∨
    ∃ id, s.history.generated j = [id] ∧ (s.history.requested j).head? = some id ∧
      ∀ x ∈ s.history.requested j, x = id)

/-- While a call of `func` is in progress, only its first `send` and its `notify_complete` change
`call_id_`. -/
def ChangedByCall (s : Sys) (l : Label) (t : Sys) : Prop := ∀ j < s.history.ninv,
  s.history.completed j = false → t.ctx.callId ≠ s.ctx.callId →
    l = .complete j ∨ (∃ name pack, l = .send j name pack) ∧ s.history.requested j = []

theorem CallIdMeant.propagated (hi : CallIdMeant s) : CallIdsPropagated s := by
  intro j hj
  obtain ⟨id, ⟨hsource, hcarried, hunused⟩, -⟩ := hi j hj
  constructor
  · intro hne
    rcases hsource with ⟨hg, rfl⟩ | ⟨hnil, -⟩
    · exact ⟨hg, hcarried⟩
    · exact absurd hnil hne
  · intro hnil
    rcases hsource with ⟨-, rfl⟩ | ⟨-, hg, hhead⟩
    · exact Or.inl (hunused hnil)
    · exact Or.inr ⟨id, hg, hhead, hcarried⟩

theorem callIds_meant (hr : Reachable (machine cfg) (fun s l => Rule s l ∧ KeepsCallId s l) s) :
    s.server.Sound ∧ CallIdMeant s := by
  refine hr.invariant (I := fun s => s.server.Sound ∧ CallIdMeant s)
    ⟨.init _, fun _ h => absurd h (Nat.not_lt_zero _)⟩ ?_
  rintro s l t hr ⟨hs, hi⟩ ⟨hrule, hok⟩ hst
  exact ⟨server_sound ((hr.step ⟨hrule, hok⟩ hst).mono fun _ _ h => h.1), hi.step (step_move hst) hs hrule hok⟩

/-- **One call id for each call of `func`.** In every run of well-behaved services in which no REQUEST is
read while a call is in progress and `call_id_` is not empty, all REQUESTs of a call go under the call id
of its message, or under the one that its first `send` generated; and the condition on a step says
exactly that nothing else changes `call_id_` there. -/
theorem callIds_propagated (hr : Reachable (machine cfg) (fun s l => Rule s l ∧ KeepsCallId s l) s) :
    CallIdsPropagated s ∧
    ∀ l t, Rule s l → (machine cfg).step s l = some t → (KeepsCallId s l ↔ ChangedByCall s l t) := by
  obtain ⟨hs, hi⟩ := callIds_meant hr
  refine ⟨hi.propagated, fun l t hrule hst => ⟨fun hok j hj hc hne => ?_, fun hch => ?_⟩⟩
  · rcases (step_move hst).callId_changed hs hrule hi hj hc hne with hl | hl | ⟨⟨p, rfl⟩, hnil⟩
    · exact Or.inl hl
    · exact Or.inr hl
    · rcases hok with h | hall
      · exact absurd h hnil
      · exact absurd ((hall j hj).symm.trans hc) nofun
  · cases step_move hst with
    | @request p =>
        by_cases hnil : s.ctx.callId = []
        · exact Or.inl hnil
        · refine Or.inr fun j hj => ?_
          by_contra hc
          rw [Bool.not_eq_true] at hc
          rcases hch j hj hc (by rw [onRequest_eq]; exact Ne.symm hnil) with h | ⟨⟨name, pack, h⟩, -⟩ <;>
            cases h
    | _ => trivial

/-- A call that sends two REQUESTs under the call id of its message. -/
theorem callIds_propagated_sample : ∃ s,
    Reachable (machine Sample.setting) (fun s l => Rule s l ∧ KeepsCallId s l) s ∧
    s.history.requested 0 = [ascii "10-1", ascii "10-1"] ∧ CallIdsPropagated s := by
  obtain ⟨s, hr, hreq⟩ := Reachable.of_leadsTo (machine Sample.setting) (fun s l => Rule s l ∧ KeepsCallId s l)
    (Sample.serve "10-1" ++ [Sample.send 0 "svc_b", .wentOut 0, .written 0 0, Sample.response "10-1" "svc_b",
      .responded 0, Sample.send 0 "svc_d"])
    (fun s => s.history.requested 0 = [ascii "10-1", ascii "10-1"]) (by decide +kernel)
  exact ⟨s, hr, hreq, (callIds_propagated hr).1⟩

/-- A REQUEST is read between the two REQUESTs of a call: the second one goes under a call id of its own. -/
theorem callId_cleared : ∃ s, Reachable (machine Sample.setting) Rule s ∧
    s.history.requested 0 = [ascii "10-1", ascii "11-1"] ∧ ¬ CallIdsPropagated s := by
  obtain ⟨s, hr, hn, hmsg, hreq⟩ := Reachable.of_leadsTo (machine Sample.setting) Rule
    (Sample.serve "10-1" ++ [Sample.send 0 "svc_b", .wentOut 0, .written 0 0, Sample.response "10-1" "svc_b",
      .responded 0, Sample.request "12-1", Sample.send 0 "svc_d"])
    (fun s => 0 < s.history.ninv ∧ (s.history.message 0).callId ≠ [] ∧
      s.history.requested 0 = [ascii "10-1", ascii "11-1"]) (by decide +kernel)
  refine ⟨s, hr, hreq, fun hall => ?_⟩
  have hsame := ((hall 0 hn).1 hmsg).2
  rw [hreq] at hsame
  have heq : ascii "10-1" = ascii "11-1" :=
    (hsame _ (by simp)).trans (hsame _ (by simp)).symm
  exact absurd heq (by decide)

end Sys

end CoroActor.Worker
