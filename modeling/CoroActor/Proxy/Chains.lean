import CoroActor.Proxy.Calls
import Mathlib.Data.Set.Card

/-! The entries of `actor_call_chain_map`. The first REQUEST of a call makes one, a dispatch puts the callee on it
and a RESPONSE takes the callee off. The actor that opened the call stays, and so does the entry. -/

namespace CoroActor.Proxy

open TransitionSystem

namespace Sys

variable {cfg : Setting} {s t : Sys} {l : Label} {k : Conn} {c : StdString} {af : Ref}

/-- The call ids that `actor_call_chain_map` has an entry for. -/
def entries (s : Sys) : Set StdString := {c | s.proxy.actorCallChainMap c ≠ none}

/-- The call ids of the REQUESTs that were read. -/
def callsRead (s : Sys) : Finset StdString := (Finset.range s.history.nreq).image fun n => (s.history.pack n).callId

/-- The calls with a REQUEST that has not been answered. -/
def openCalls (s : Sys) : Finset StdString :=
  ((Finset.range s.history.nreq).filter s.history.Unanswered).image fun n => (s.history.pack n).callId

/-- Entries are there for open calls only, so there are no more of them. -/
def Reclaimed (s : Sys) : Prop := s.entries ⊆ s.openCalls ∧ s.entries.ncard ≤ s.openCalls.card

theorem fresh_iff_not_mem : s.Fresh c ↔ c ∉ s.callsRead := by
  simp [Fresh, callsRead]

/-- A call has an entry from its first REQUEST on, and only REQUESTs that were read are in the queues. -/
structure Rooted (s : Sys) : Prop extends Accepted s where
  entry : ∀ c, s.proxy.actorCallChainMap c = none ↔ s.Fresh c
  queued : ∀ r, ∀ q ∈ (s.proxy.actors r).msgQueue, ¬ s.Fresh q.pack.callId

theorem rooted_init : Rooted Sys.init where
  toAccepted := accepted_init
  entry _ := iff_of_true rfl fun _ hn => absurd hn (Nat.not_lt_zero _)
  queued _ _ hq := absurd hq List.not_mem_nil

/-- Only reading a REQUEST changes which call ids have been seen. -/
theorem Move.fresh (h : Move cfg s l t) (hl : ∀ k p, l ≠ .read k (.request p)) (c : StdString) :
    t.Fresh c ↔ s.Fresh c := by
  cases h with
  | request => exact absurd rfl (hl _ _)
  | response => cases s.answered _ _ <;> exact Iff.rfl
  | transfer =>
      unfold Fresh
      rw [onTransfer_history]
  | _ => exact Iff.rfl

theorem onRequest_fresh {p : CoroActorRequest} (haf : s.proxy.actorPidMap p.pid = some af) :
    (s.onRequest k p).Fresh c ↔ s.Fresh c ∧ p.callId ≠ c := by
  rw [onRequest_eq haf]
  simp only [Fresh, setPc_history, setProxy_history, History.issue_nreq, History.issue_pack, Nat.lt_succ_iff_lt_or_eq]
  constructor
  · intro h
    refine ⟨fun n hn => ?_, ?_⟩
    · simpa [Function.update_of_ne hn.ne] using h n (.inl hn)
    · simpa using h s.history.nreq (.inr rfl)
  · rintro ⟨hold, hnew⟩ n (hn | rfl)
    · simpa [Function.update_of_ne hn.ne] using hold n hn
    · simpa using hnew

theorem onRequest_entry {p : CoroActorRequest} (haf : s.proxy.actorPidMap p.pid = some af) :
    (s.onRequest k p).proxy.actorCallChainMap c =
      if s.proxy.actorCallChainMap p.callId = none ∧ c = p.callId then some [af]
      else s.proxy.actorCallChainMap c := by
  rw [onRequest_eq haf]
  simp only [setPc_proxy, setProxy_proxy, Registry.emplace, Registry.setMsgQueue_chainMap]
  split
  · next hnone => simp [Registry.setChain_chainMap, hnone]
  · next hsome => simp [hsome]

/-- A dispatch and a RESPONSE write to an entry that is there. -/
theorem Rooted.entry_kept (hr : Rooted s) (h : Move cfg s l t) (hl : ∀ k p, l ≠ .read k (.request p))
    (c : StdString) : t.proxy.actorCallChainMap c = none ↔ s.proxy.actorCallChainMap c = none := by
  have hset : ∀ {σ : Registry} {d : StdString} {L : List Ref}, s.proxy.actorCallChainMap d ≠ none →
      σ.actorCallChainMap = s.proxy.actorCallChainMap →
      ((σ.setChain d L).actorCallChainMap c = none ↔ s.proxy.actorCallChainMap c = none) := by
    intro σ d L hd hσ
    rw [Registry.setChain_chainMap, hσ]
    split
    · next heq => simp [heq, hd]
    · exact Iff.rfl
  cases h with
  | request => exact absurd rfl (hl _ _)
  | @response k p L back afSelf _ _ hchain =>
      refine hset (fun hnone => ?_) rfl
      rw [Registry.chain, hnone] at hchain
      exact absurd hchain.symm (List.append_ne_nil_of_right_ne_nil _ (List.cons_ne_nil _ _))
  | @buffered k af d q rest issuer select hd =>
      refine hset (fun hnone => ?_) rfl
      exact hr.queued af q hd.mem_queue ((hr.entry _).mp hnone)
  | @writing k af d q rest issuer select hd =>
      refine hset (fun hnone => ?_) rfl
      exact hr.queued af q hd.mem_queue ((hr.entry _).mp hnone)
  | _ => exact Iff.rfl

theorem Move.fresh_mono (h : Move cfg s l t) (hfresh : t.Fresh c) : s.Fresh c := by
  by_cases hl : ∃ k p, l = .read k (.request p)
  · obtain ⟨k, p, rfl⟩ := hl
    cases h with
    | request _ _ haf => exact ((onRequest_fresh haf).mp hfresh).1
    | stay | undefined => exact hfresh
  · exact (h.fresh (fun k p heq => hl ⟨k, p, heq⟩) c).mp hfresh

theorem Rooted.step (hr : Rooted s) (h : Move cfg s l t) : Rooted t := by
  have hqueued : ∀ r, ∀ q ∈ (t.proxy.actors r).msgQueue, ¬ t.Fresh q.pack.callId := by
    intro r q hq hfresh
    rcases h.queue_cases hq with ⟨af, hold⟩ | ⟨k, p, af, -, -, rfl, hhistory⟩
    · exact hr.queued af q hold (h.fresh_mono hfresh)
    · rw [Fresh, hhistory] at hfresh
      exact hfresh s.history.nreq (Nat.lt_succ_self _) (by simp)
  refine ⟨hr.toAccepted.step h, fun c => ?_, hqueued⟩
  by_cases hl : ∃ k p, l = .read k (.request p)
  · obtain ⟨k, p, rfl⟩ := hl
    cases h with
    | request _ _ haf =>
        rw [onRequest_entry haf, onRequest_fresh haf, ← hr.entry c]
        split
        · next heq => simp [heq.2]
        · next hne =>
            refine ⟨fun hnone => ⟨hnone, fun heq => hne ⟨by rw [heq]; exact hnone, heq.symm⟩⟩, And.left⟩
    | stay | undefined => exact hr.entry c
  · have hl' : ∀ k p, l ≠ .read k (.request p) := fun k p heq => hl ⟨k, p, heq⟩
    rw [hr.entry_kept h hl', h.fresh hl', hr.entry]

theorem rooted {ok : Sys → Label → Prop} (hr : Reachable (machine cfg) ok s) : Rooted s :=
  hr.invariant rooted_init fun _ _ _ _ hs _ hst => hs.step (step_move hs.isOpen hst)

theorem Rooted.entries_eq (hr : Rooted s) : s.entries = s.callsRead := by
  ext c
  show s.proxy.actorCallChainMap c ≠ none ↔ _
  rw [Ne, hr.entry, fresh_iff_not_mem, not_not, Finset.mem_coe]

/-- **Entries.** In every run there is one entry for each call id that was read. So entries are there for open calls
only if and only if no call has come to an end: every call id that was read has a REQUEST that is not
answered. -/
theorem reclaimed_iff {ok : Sys → Label → Prop} (hr : Reachable (machine cfg) ok s) :
    s.entries.ncard = s.callsRead.card ∧ (s.Reclaimed ↔ s.callsRead ⊆ s.openCalls) := by
  have hentries : s.entries = s.callsRead := (rooted hr).entries_eq
  have hcard : s.entries.ncard = s.callsRead.card := by rw [hentries, Set.ncard_coe_finset]
  refine ⟨hcard, ?_, ?_⟩
  · rintro ⟨hsubset, -⟩
    rw [hentries] at hsubset
    exact Finset.coe_subset.mp hsubset
  · intro hopen
    constructor
    · rw [hentries]
      exact Finset.coe_subset.mpr hopen
    · rw [hcard]
      exact Finset.card_le_card hopen

/-- A call is open: its REQUEST was delivered, and its callee has sent a REQUEST of its own. -/
theorem reclaimed_sample : ∃ s, Reachable (machine Sample.setting) (Lawful Sample.setting) s ∧ s.Quiescent ∧
    s.callsRead = {ascii "10-1"} ∧ s.Reclaimed := by
  obtain ⟨s, hr, hq, hcalls, hopen⟩ := Reachable.of_leadsTo (machine Sample.setting) (Lawful Sample.setting)
    (Sample.join 0 10 "a" ++ Sample.join 1 11 "b" ++ Sample.join 2 12 "d" ++
      [Sample.request 0 10 "10-1" "svc_b", .run 0] ++ Sample.sent 0 ++
      [Sample.request 1 11 "10-1" "svc_d", .run 1] ++ Sample.sent 1)
    (fun s => s.Quiescent ∧ s.callsRead = {ascii "10-1"} ∧ s.callsRead ⊆ s.openCalls) (by decide +kernel)
  exact ⟨s, hr, hq, hcalls, (reclaimed_iff hr).2.mpr hopen⟩

/-- The only call was answered and nothing is in progress. Its entry is still there. -/
theorem entry_not_reclaimed : ∃ s, Reachable (machine Sample.setting) (Lawful Sample.setting) s ∧ s.Quiescent ∧
    s.proxy.actorCallChainMap (ascii "10-1") = some [0] ∧ s.openCalls = ∅ ∧ ¬ s.Reclaimed := by
  obtain ⟨s, hr, hq, hentry, hopen⟩ := Reachable.of_leadsTo (machine Sample.setting) (Lawful Sample.setting)
    (Sample.join 0 10 "a" ++ Sample.join 1 11 "b" ++
      [Sample.request 0 10 "10-1" "svc_b", .run 0] ++ Sample.sent 0 ++
      [Sample.response 1 11 "10-1" "svc_b"] ++ Sample.sent 1 ++ [.run 1, .run 1, .run 1])
    (fun s => s.Quiescent ∧ s.proxy.actorCallChainMap (ascii "10-1") = some [0] ∧ s.openCalls = ∅)
    (by decide +kernel)
  refine ⟨s, hr, hq, hentry, hopen, fun hreclaimed => ?_⟩
  have hmem : ascii "10-1" ∈ s.entries := by
    show s.proxy.actorCallChainMap (ascii "10-1") ≠ none
    rw [hentry]
    exact Option.some_ne_none _
  have hbad := hreclaimed.1 hmem
  rw [hopen] at hbad
  exact absurd hbad (Finset.notMem_empty _)

end Sys

end CoroActor.Proxy
