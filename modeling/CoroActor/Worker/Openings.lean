import CoroActor.Worker.Traffic

/-! The call ids of the REQUESTs of a process. A REQUEST has the call id of the message that its service was called
with, or one that the process has generated; and no two services send REQUESTs with the same generated call id, unless
it has come back with a message. -/

namespace CoroActor.Worker

open TransitionSystem

/-- The counter of the process does not wrap around. -/
def CountsOn (s : Sys) : Label → Prop
  | .send .. => s.ctx.seq.toNat + 1 < UInt32.size
  | _ => True

instance (s : Sys) : (l : Label) → Decidable (CountsOn s l)
  | .send .. => inferInstanceAs (Decidable (_ < _))
  | .run _ | .funcReturn | .messageNotified | .serviceNotified | .replied | .accept | .remote ..
  | .remoteError _ | .request _ | .response _ | .other _ | .internalError | .respond .. | .complete _ | .wentOut _
  | .written .. | .responded _ => inferInstanceAs (Decidable True)

namespace Sys

variable {cfg : Setting} {s t : Sys} {l : Label} {i j : Nat}

/-- The call id of the message that the service of a `send` was called with. -/
def inherited (s : Sys) (i : Nat) : StdString := (s.history.message (s.sends i).service).callId

/-- The REQUEST has a call id of its own. -/
def Own (s : Sys) (i : Nat) : Prop := (s.sends i).request.callId ≠ s.inherited i

/-- Where the call ids of the REQUESTs come from. A `send` in progress is the last one. -/
structure Named (s : Sys) : Prop where
  called : ∀ i < s.nsend, (s.sends i).service < s.history.ninv
  current : s.ctx.callId ≠ [] → ∃ j, s.history.ninv = j + 1 ∧ (s.ctx.callId = (s.history.message j).callId ∨
    ∃ i < s.nsend, (s.sends i).service = j ∧ (s.sends i).request.callId = s.ctx.callId)
  generated : ∀ i < s.nsend, s.Own i →
    ∃ q : UInt32, q.toNat ≤ s.ctx.seq.toNat ∧ (s.sends i).request.callId = callIdOf s.ctx.pid q
  owner : ∀ i < s.nsend, ∀ i' < s.nsend, s.Own i → s.Own i' →
    (s.sends i).request.callId = (s.sends i').request.callId → (s.sends i).service = (s.sends i').service
  last : ∀ i < s.nsend, (s.sends i).InProgress → i + 1 = s.nsend

theorem named_init (cfg : Setting) : Named (Sys.init cfg) where
  called _ hi := absurd hi (Nat.not_lt_zero _)
  current h := absurd rfl h
  generated _ hi := absurd hi (Nat.not_lt_zero _)
  owner _ hi := absurd hi (Nat.not_lt_zero _)
  last _ hi := absurd hi (Nat.not_lt_zero _)

theorem Move.seq (h : s.Move cfg l t) (hsend : t.nsend = s.nsend) : t.ctx.seq = s.ctx.seq := by
  cases h with
  | leave | serviceNotified => exact finish_kept (P := fun u => u.ctx.seq = s.ctx.seq) _ _ fun _ _ _ _ _ _ _ => rfl
  | remote => rw [push_eq]
  | request => rw [onRequest_eq]
  | send =>
      rw [startSend_nsend] at hsend
      exact absurd hsend (Nat.succ_ne_self _)
  | _ => rfl

/-- What becomes of `call_id_` in a step that is no `send`. -/
theorem Move.callId_cases (h : s.Move cfg l t) (hsend : t.nsend = s.nsend) : t.ctx.callId = [] ∨
    t.ctx.callId = s.ctx.callId ∧ t.history.ninv = s.history.ninv ∨
    ∃ j, t.history.ninv = j + 1 ∧ t.ctx.callId = (t.history.message j).callId := by
  cases h with
  | @invoke _ msg rest =>
      refine Or.inr (Or.inr ⟨s.history.ninv, rfl, ?_⟩)
      exact congrArg CoroActorMsg.callId (Function.update_self s.history.ninv msg s.history.message).symm
  | leave | serviceNotified =>
      exact Or.inr (Or.inl (finish_kept
        (P := fun u => u.ctx.callId = s.ctx.callId ∧ u.history.ninv = s.history.ninv) _ _
        fun _ _ _ _ _ _ _ => ⟨rfl, rfl⟩))
  | remote =>
      rw [push_eq]
      exact Or.inr (Or.inl ⟨rfl, rfl⟩)
  | request =>
      rw [onRequest_eq]
      exact Or.inl rfl
  | send =>
      rw [startSend_nsend] at hsend
      exact absurd hsend (Nat.succ_ne_self _)
  | complete => exact Or.inl rfl
  | _ => exact Or.inr (Or.inl ⟨rfl, rfl⟩)

theorem Move.inProgress_old (h : s.Move cfg l t) (hi : i < s.nsend) (hprog : (t.sends i).InProgress) :
    (s.sends i).InProgress := by
  have hupdate : ∀ {j : Nat} {x : Send}, (x.InProgress → (s.sends j).InProgress) →
      (Function.update s.sends j x i).InProgress → (s.sends i).InProgress := by
    intro j x hx hprog
    by_cases hij : i = j
    · rw [hij, Function.update_self] at hprog
      rw [hij]
      exact hx hprog
    · rwa [Function.update_of_ne hij] at hprog
  cases h with
  | leave | serviceNotified =>
      revert hprog
      exact finish_kept (P := fun u => (u.sends i).InProgress → (s.sends i).InProgress) _ _ fun _ _ _ _ _ _ _ => id
  | remote =>
      rw [push_eq] at hprog
      exact hprog
  | request =>
      rw [onRequest_eq] at hprog
      exact hprog
  | send =>
      rw [startSend_sends_of_lt _ _ _ _ hi] at hprog
      exact hprog
  | wentOut _ hpc => exact hupdate (fun _ => Or.inl hpc) hprog
  | writeFailed _ _ hpc => exact hupdate (fun _ => Or.inl hpc) hprog
  | written _ _ hpc => exact hupdate (fun _ => Or.inl hpc) hprog
  | responded _ _ hpc =>
      rw [onResponded_sends] at hprog
      exact hupdate (fun _ => Or.inr hpc) hprog
  | _ => exact hprog

theorem Named.keep (hn : Named s) (h : s.Move cfg l t) (hsend : t.nsend = s.nsend) : Named t := by
  obtain ⟨-, hkept⟩ := h.sends_kept
  obtain ⟨hninv, hmessage⟩ := h.messages_kept
  have hown : ∀ i < s.nsend, t.Own i → s.Own i := by
    intro i hi hown
    rwa [Own, inherited, (hkept i hi).2.1, (hkept i hi).1, hmessage _ (hn.called i hi)] at hown
  rw [← hsend] at hkept hown
  constructor
  · intro i hi
    rw [(hkept i hi).1]
    exact (hn.called i (hsend ▸ hi)).trans_le hninv
  · intro hne
    rcases h.callId_cases hsend with hnil | ⟨hsame, hcount⟩ | ⟨j, hj, hid⟩
    · exact absurd hnil hne
    · rw [hsame] at hne ⊢
      obtain ⟨j, hj, hcur⟩ := hn.current hne
      refine ⟨j, hcount.trans hj, ?_⟩
      rcases hcur with hmsg | ⟨i, hi, hservice, hrequest⟩
      · exact Or.inl (by rw [hmessage j (by omega), hmsg])
      · rw [← hsend] at hi
        exact Or.inr ⟨i, hi, (hkept i hi).1.trans hservice, by rw [(hkept i hi).2.1, hrequest]⟩
    · exact ⟨j, hj, Or.inl hid⟩
  · intro i hi hi'
    rw [(hkept i hi).2.1, h.seq hsend, h.pid]
    exact hn.generated i (hsend ▸ hi) (hown i hi hi')
  · intro i hi i' hi' ho ho' heq
    rw [(hkept i hi).2.1, (hkept i' hi').2.1] at heq
    rw [(hkept i hi).1, (hkept i' hi').1]
    exact hn.owner i (hsend ▸ hi) i' (hsend ▸ hi') (hown i hi ho) (hown i' hi' ho') heq
  · intro i hi hprog
    rw [hsend] at hi ⊢
    exact hn.last i hi (h.inProgress_old hi hprog)

/-- The call id of a `send`: that of the message of its service, one that the service has sent a REQUEST with, or the
next one. -/
theorem Named.openCall (hn : Named s) (hj : s.history.ninv = j + 1) :
    s.ctx.openCall.callId = (s.history.message j).callId ∨
      (∃ i < s.nsend, (s.sends i).service = j ∧ (s.sends i).request.callId = s.ctx.openCall.callId) ∨
      s.ctx.openCall.seq = s.ctx.seq + 1 ∧ s.ctx.openCall.callId = callIdOf s.ctx.pid (s.ctx.seq + 1) := by
  by_cases hnil : s.ctx.callId = []
  · right
    right
    rw [CoroActorCtx.openCall, if_pos hnil]
    exact ⟨rfl, rfl⟩
  · have hsame : s.ctx.openCall.callId = s.ctx.callId := by rw [CoroActorCtx.openCall_callId, if_neg hnil]
    obtain ⟨j', hj', hcur⟩ := hn.current hnil
    obtain rfl : j' = j := by omega
    rw [hsame]
    rcases hcur with hmsg | hearlier
    · exact Or.inl hmsg
    · exact Or.inr (Or.inl hearlier)

theorem openCall_seq_le (hcount : s.ctx.seq.toNat + 1 < UInt32.size) :
    s.ctx.seq.toNat ≤ s.ctx.openCall.seq.toNat := by
  have hone : (1 : UInt32).toNat = 1 := rfl
  unfold CoroActorCtx.openCall
  split
  · show s.ctx.seq.toNat ≤ (s.ctx.seq + 1).toNat
    rw [UInt32.toNat_add, hone, Nat.mod_eq_of_lt hcount]
    exact Nat.le_succ _
  · exact Nat.le_refl _

theorem Named.send (hn : Named s) (hj : s.history.ninv = j + 1) (hcount : s.ctx.seq.toNat + 1 < UInt32.size)
    (hnone : ∀ i < s.nsend, ¬ (s.sends i).InProgress) (serviceName : StdString) (pack : CoroActorPack) :
    Named (s.startSend j serviceName pack) := by
  have hone : (1 : UInt32).toNat = 1 := rfl
  have hnext : (s.ctx.seq + 1).toNat = s.ctx.seq.toNat + 1 := by
    rw [UInt32.toNat_add, hone, Nat.mod_eq_of_lt hcount]
  -- The last `send` is the new one.
  have hlast := s.startSend_sends_self j serviceName pack
  have hold : ∀ i < s.nsend, (s.startSend j serviceName pack).sends i = s.sends i :=
    fun _ => s.startSend_sends_of_lt j serviceName pack
  have hmessage : (s.startSend j serviceName pack).history.message = s.history.message := by
    rw [startSend_eq]
    rfl
  have hown : ∀ i < s.nsend, (s.startSend j serviceName pack).Own i ↔ s.Own i := by
    intro i hi
    rw [Own, inherited, hold i hi, hmessage]
    rfl
  -- A new call id of its own has been sent by the same service, or it has been generated now.
  have hnew : (s.startSend j serviceName pack).Own s.nsend →
      (∃ i < s.nsend, s.Own i ∧ (s.sends i).service = j ∧ (s.sends i).request.callId = s.ctx.openCall.callId) ∨
        s.ctx.openCall.seq = s.ctx.seq + 1 ∧ s.ctx.openCall.callId = callIdOf s.ctx.pid (s.ctx.seq + 1) := by
    intro ho
    rw [Own, inherited, hlast, hmessage] at ho
    rcases hn.openCall hj with hmsg | ⟨i, hi, hservice, hrequest⟩ | hgen
    · exact absurd hmsg ho
    · refine Or.inl ⟨i, hi, ?_, hservice, hrequest⟩
      rw [Own, inherited, hservice, hrequest]
      exact ho
    · exact Or.inr hgen
  -- Nothing has been sent under the next call id.
  have hfresh : ∀ i < s.nsend, s.Own i → (s.sends i).request.callId ≠ callIdOf s.ctx.pid (s.ctx.seq + 1) := by
    intro i hi ho heq
    obtain ⟨q, hq, hid⟩ := hn.generated i hi ho
    obtain ⟨-, rfl⟩ := callIdOf_inj (hid.symm.trans heq)
    omega
  have howner : ∀ i < s.nsend, s.Own i → (s.startSend j serviceName pack).Own s.nsend →
      (s.sends i).request.callId = s.ctx.openCall.callId → (s.sends i).service = j := by
    intro i hi ho ho' heq
    rcases hnew ho' with ⟨i', hi', hown', hservice, hrequest⟩ | ⟨-, hgen⟩
    · rw [← hservice]
      exact hn.owner i hi i' hi' ho hown' (heq.trans hrequest.symm)
    · exact absurd (heq.trans hgen) (hfresh i hi ho)
  have hsplit : ∀ {i}, i < (s.startSend j serviceName pack).nsend → i < s.nsend ∨ i = s.nsend := by
    intro i hi
    rw [startSend_nsend] at hi
    exact Nat.lt_succ_iff_lt_or_eq.mp hi
  have hctx : (s.startSend j serviceName pack).ctx.seq = s.ctx.openCall.seq ∧
      (s.startSend j serviceName pack).ctx.callId = s.ctx.openCall.callId ∧
      (s.startSend j serviceName pack).ctx.pid = s.ctx.pid ∧
      (s.startSend j serviceName pack).history.ninv = s.history.ninv := by
    rw [startSend_eq]
    exact ⟨rfl, rfl, rfl, rfl⟩
  obtain ⟨hseq, hid, hpid, hninv⟩ := hctx
  have hle := openCall_seq_le hcount
  refine ⟨fun i hi => ?_, fun _ => ?_, fun i hi ho => ?_, fun i hi i' hi' ho ho' heq => ?_, fun i hi hprog => ?_⟩
  · rw [hninv]
    rcases hsplit hi with hlt | rfl
    · rw [hold i hlt]
      exact hn.called i hlt
    · rw [hlast]
      exact hj ▸ Nat.lt_succ_self j
  · refine ⟨j, hninv.trans hj, Or.inr ⟨s.nsend, ?_, ?_, ?_⟩⟩
    · rw [startSend_nsend]
      exact Nat.lt_succ_self _
    · rw [hlast]
    · rw [hlast, hid]
  · rw [hseq, hpid]
    rcases hsplit hi with hlt | rfl
    · obtain ⟨q, hq, hrequest⟩ := hn.generated i hlt ((hown i hlt).mp ho)
      exact ⟨q, hq.trans hle, by rw [hold i hlt, hrequest]⟩
    · rcases hnew ho with ⟨i', hi', hown', -, hrequest⟩ | ⟨hnextseq, hgen⟩
      · obtain ⟨q, hq, hcall⟩ := hn.generated i' hi' hown'
        exact ⟨q, hq.trans hle, by rw [hlast, ← hrequest, hcall]⟩
      · exact ⟨s.ctx.seq + 1, by rw [hnextseq], by rw [hlast, hgen]⟩
  · rcases hsplit hi with hlt | rfl
    · rcases hsplit hi' with hlt' | rfl
      · rw [hold i hlt, hold i' hlt'] at heq ⊢
        exact hn.owner i hlt i' hlt' ((hown i hlt).mp ho) ((hown i' hlt').mp ho') heq
      · rw [hold i hlt, hlast] at heq ⊢
        exact howner i hlt ((hown i hlt).mp ho) ho' heq
    · rcases hsplit hi' with hlt' | rfl
      · rw [hold i' hlt', hlast] at heq ⊢
        exact (howner i' hlt' ((hown i' hlt').mp ho') ho heq.symm).symm
      · rfl
  · rcases hsplit hi with hlt | rfl
    · rw [hold i hlt] at hprog
      exact absurd hprog (hnone i hlt)
    · rw [startSend_nsend]

theorem Named.step (hn : Named s) (h : s.Move cfg l t) (hs : s.server.Sound) (hrule : Rule s l) (hone : OneSend s l)
    (hcount : CountsOn s l) : Named t := by
  rcases h.nsend with hsame | ⟨j, serviceName, pack, rfl, ht⟩
  · exact hn.keep h hsame
  · have hj : j < s.history.ninv := by
      cases h with
      | send _ hj => exact hj
      | refuse _ hj => exact hj
    rw [ht]
    exact hn.send (current_of_running hs hj hrule).1 hcount hone serviceName pack

end Sys

end CoroActor.Worker
