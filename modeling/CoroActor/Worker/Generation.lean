import CoroActor.Worker.Move

/-! The call ids that a process generates, and those that it holds: in `call_id_` and in the messages that wait.
A REQUEST that it sends carries one of these. -/

namespace CoroActor.Worker

/-- The call id that `send` generates from the pid and the counter. -/
def callIdOf (pid : Pid) (seq : UInt32) : StdString := toStdString pid ++ ascii "-" ++ toStdString seq.toNat

/-- A generated call id says which process generated it and with which value of the counter. -/
theorem callIdOf_inj {pid pid' : Pid} {seq seq' : UInt32} (h : callIdOf pid seq = callIdOf pid' seq') :
    pid = pid' ∧ seq = seq' := by
  have hdash : ascii "-" = [45] := by decide
  simp only [callIdOf, toStdString, hdash, Decimal.signed_natCast, List.append_assoc, List.singleton_append] at h
  have hnot : ∀ n : Nat, (45 : UInt8) ∉ Decimal.numeral n := Decimal.not_mem_numeral (by decide)
  obtain ⟨hpid, hseq⟩ := Decimal.append_separator_inj (hnot _) (hnot _) h
  exact ⟨Decimal.signed_injective (by decide) hpid, UInt32.toNat_inj.mp (Decimal.numeral_injective hseq)⟩

namespace Sys

variable {cfg : Setting} {s t : Sys} {l : Label} {c : StdString}

/-- The call id is in `call_id_` or in a message that was not taken. -/
def Holds (s : Sys) (c : StdString) : Prop := s.ctx.callId = c ∨ ∃ msg ∈ s.ctx.msgQueue, msg.callId = c

theorem Holds.congr (h : t.Holds c) (hctx : t.ctx.callId = s.ctx.callId ∧ t.ctx.msgQueue = s.ctx.msgQueue) :
    s.Holds c := by
  rwa [Holds, hctx.1, hctx.2] at h

theorem Move.pid (h : s.Move cfg l t) : t.ctx.pid = s.ctx.pid := by
  cases h with
  | leave | serviceNotified => exact finish_kept (P := fun u => u.ctx.pid = s.ctx.pid) _ _ fun _ _ _ _ _ _ _ => rfl
  | remote => rw [push_eq]
  | request => rw [onRequest_eq]
  | send => rw [startSend_eq]
  | _ => rfl

/-- Where the call ids that a process holds come from: it held them, read a REQUEST with them or generated them. -/
theorem Move.holds (h : s.Move cfg l t) (hc : t.Holds c) : c = [] ∨ s.Holds c ∨ (∃ p, l = .request p ∧ p.callId = c) ∨
    ∃ j serviceName pack, l = .send j serviceName pack ∧ t = s.startSend j serviceName pack ∧
      s.ctx.openCall.callId = c := by
  have htake : ∀ {msg rest}, s.ctx.msgQueue = msg :: rest → t.ctx.callId = s.ctx.callId ∨ t.ctx.callId = msg.callId →
      t.ctx.msgQueue = rest → s.Holds c := by
    intro msg rest hq hid hrest
    rcases hc with heq | ⟨m, hm, heq⟩
    · rcases hid with hid | hid
      · exact .inl (hid.symm.trans heq)
      · exact .inr ⟨msg, by rw [hq]; exact List.mem_cons_self, hid.symm.trans heq⟩
    · rw [hrest] at hm
      exact .inr ⟨m, by rw [hq]; exact List.mem_cons_of_mem _ hm, heq⟩
  cases h with
  | closed _ hq _ => exact .inr (.inl (htake hq (.inl rfl) rfl))
  | notFound _ hq _ _ _ => exact .inr (.inl (htake hq (.inl rfl) rfl))
  | undefined _ hq _ _ _ => exact .inr (.inl (htake hq (.inl rfl) rfl))
  | invoke _ hq _ _ => exact .inr (.inl (htake hq (.inr rfl) rfl))
  | leave | serviceNotified =>
      refine .inr (.inl (hc.congr ?_))
      exact finish_kept (P := fun u => u.ctx.callId = s.ctx.callId ∧ u.ctx.msgQueue = s.ctx.msgQueue) _ _
        fun _ _ _ _ _ _ _ => ⟨rfl, rfl⟩
  | remote =>
      rw [push_eq] at hc
      rcases hc with heq | ⟨m, hm, heq⟩
      · exact .inr (.inl (.inl heq))
      · rcases List.mem_append.mp hm with hold | hnew
        · exact .inr (.inl (.inr ⟨m, hold, heq⟩))
        · rw [List.mem_singleton.mp hnew] at heq
          exact .inl heq.symm
  | @request p =>
      rw [onRequest_eq] at hc
      rcases hc with heq | ⟨m, hm, heq⟩
      · exact .inl heq.symm
      · rcases List.mem_append.mp hm with hold | hnew
        · exact .inr (.inl (.inr ⟨m, hold, heq⟩))
        · rw [List.mem_singleton.mp hnew] at heq
          exact .inr (.inr (.inl ⟨p, rfl, heq⟩))
  | @send j serviceName pack =>
      have hstart := startSend_eq s j serviceName pack
      rcases hc with heq | ⟨m, hm, heq⟩
      · rw [hstart] at heq
        exact .inr (.inr (.inr ⟨j, serviceName, pack, rfl, rfl, heq⟩))
      · rw [hstart] at hm
        exact .inr (.inl (.inr ⟨m, hm, heq⟩))
  | complete =>
      rcases hc with heq | hm
      · exact .inl heq.symm
      · exact .inr (.inl (.inr hm))
  | _ => exact .inr (.inl (hc.congr ⟨rfl, rfl⟩))

/-- Only a `send` that is not refused starts to write a REQUEST. -/
theorem Move.nsend (h : s.Move cfg l t) : t.nsend = s.nsend ∨
    ∃ j serviceName pack, l = .send j serviceName pack ∧ t = s.startSend j serviceName pack := by
  cases h with
  | leave | serviceNotified =>
      exact .inl (finish_kept (P := fun u => u.nsend = s.nsend) _ _ fun _ _ _ _ _ _ _ => rfl)
  | remote =>
      rw [push_eq]
      exact .inl rfl
  | request =>
      rw [onRequest_eq]
      exact .inl rfl
  | @send j serviceName pack => exact .inr ⟨j, serviceName, pack, rfl, rfl⟩
  | _ => exact .inl rfl

end Sys

end CoroActor.Worker
