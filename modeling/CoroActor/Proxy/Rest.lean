import CoroActor.Proxy.Cycles
import CoroActor.Proxy.Waiting
import CoroActor.Proxy.Wakeup

/-! The proxy when no coroutine of it is handling a frame. In the runs in which nothing goes wrong, an actor that has
sent a REQUEST and has not been answered waits for another one, and that one has a REQUEST to serve or waits as well. -/

namespace CoroActor.Proxy

open TransitionSystem

namespace Sys

/-- Nothing goes wrong: no connection breaks and no write fails, a request that is taken is passed on and leaves no
other one in the queue, an actor whose flag is cleared for being at the back of a chain has no dispatched request that
is unanswered, and a RESPONSE is for a request that was never buffered. -/
def Smooth (cfg : Setting) (s : Sys) : Label → Prop
  | .readError _ => False
  | .resume _ ec => ec = false
  | .run k => (∀ x ∈ s.taken k, (s.destination cfg x).isOk = true ∧ x.rest = []) ∧
      ∀ back ∈ s.waking k, ∀ n < s.history.nreq, s.history.issuer n = back →
        s.history.Unanswered n → s.history.Undispatched n
  | .read k (.response p) => ∀ n ∈ s.answered k p.callId, s.history.buffered n = []
  | _ => True

instance (cfg : Setting) (s : Sys) : (l : Label) → Decidable (Smooth cfg s l)
  | .readError _ => inferInstanceAs (Decidable False)
  | .resume _ ec => inferInstanceAs (Decidable (ec = false))
  | .run k => inferInstanceAs (Decidable ((∀ x ∈ s.taken k, _ ∧ _) ∧ ∀ back ∈ s.waking k, _))
  | .read k (.response p) => inferInstanceAs (Decidable (∀ n ∈ s.answered k p.callId, _))
  | .read _ (.connect _) | .read _ (.request _) | .read _ (.other _) | .accept | .transfer .. =>
      inferInstanceAs (Decidable True)

/-- The actor has sent a REQUEST to which no RESPONSE has come. -/
def Asks (s : Sys) (r : Ref) : Prop := ∃ n < s.history.nreq, s.history.issuer n = r ∧ s.history.replies n = []

/-- No accepted connection has been given up. -/
def Alive (s : Sys) : Prop := ∀ k, s.pc k ≠ .done ∧ (s.pc k = .absent → s.nconn ≤ k)

/-- Where the requests, the RESPONSEs and the flags are. -/
structure Settling (s : Sys) : Prop where
  alive : s.Alive
  kept : Kept (fun _ => True) s
  requests : RequestsSent s
  responses : ResponsesSent s
  flags : FlagsMeant Unreplied s
  flagged : Flagged s
  cared : QueuesCared s

variable {cfg : Setting} {s t : Sys} {l : Label} {k : Conn} {n : Nat} {r : Ref}

theorem Move.alive (h : Move cfg s l t) (ha : s.Alive) (hl : ∀ k, l ≠ .readError k) : t.Alive := by
  have hset : ∀ {u : Sys} {j : Conn} {p : Pc}, u.pc = Function.update s.pc j p → u.nconn = s.nconn →
      p ≠ .done ∧ p ≠ .absent → u.Alive := by
    intro u j p hpc hnconn hp k
    rw [hpc, hnconn]
    by_cases hk : k = j
    · rw [hk, Function.update_self]
      exact ⟨hp.1, fun habsent => absurd habsent hp.2⟩
    · rw [Function.update_of_ne hk]
      exact ha k
  have hcont : ∀ c : Cont, c.pc ≠ .done ∧ c.pc ≠ .absent := fun c => by cases c <;> exact ⟨nofun, nofun⟩
  cases h with
  | readError => exact absurd rfl (hl _)
  | accept =>
      intro k
      rw [setPc_pc]
      by_cases hk : k = s.nconn
      · rw [hk, Function.update_self]
        exact ⟨nofun, nofun⟩
      · rw [Function.update_of_ne hk]
        exact ⟨(ha k).1, fun habsent => Nat.lt_of_le_of_ne ((ha k).2 habsent) (Ne.symm hk)⟩
  | request _ _ haf =>
      rw [onRequest_eq haf]
      exact hset rfl rfl ⟨nofun, nofun⟩
  | resumeRequest | rollback | idle | refused | buffered => exact hset rfl rfl (hcont _)
  | stay | undefined | transfer => exact ha
  | connect | response | resumeConnack | resumeResponse | writing | wake => exact hset rfl rfl ⟨nofun, nofun⟩

/-- A pid is that of the actor that sends it. -/
theorem Orderly.pidKept (hs : Orderly cfg s) (ha : s.Alive) (k : Conn) : s.PidKept k := by
  intro x hx
  have hmem : x.q ∈ (s.proxy.actors x.af).msgQueue := by
    simp only [taken] at hx
    split at hx
    · split at hx
      · next q rest hqueue =>
          split at hx
          · cases hx
          · obtain rfl := Option.some.inj hx
            rw [hqueue]
            exact List.mem_cons_self
      · cases hx
    · cases hx
  obtain ⟨hn, hpack, -⟩ := hs.booked.queued _ _ hmem
  have hentry := hs.booked.entry _ hn
  rw [← hpack, ← hentry.issuer_pid]
  exact hs.wired.live _ hentry.issuer_lt (ha _).1

section Step

variable (hs : Orderly cfg s) (ha : s.Alive) (hok : Smooth cfg s l)

include hs ha hok

theorem Smooth.keepsAwake : KeepsAwake cfg s l := by
  cases l with
  | run k =>
      intro x hx
      obtain ⟨hisOk, hrest⟩ := hok.1 x hx
      exact ⟨fun _ => hisOk, hs.pidKept ha k x hx, fun hne => absurd hrest hne⟩
  | resume k ec =>
      rintro rfl
      cases hok
  | read k f =>
      cases f with
      | response p => exact hok
      | connect | request | other => trivial
  | accept | readError | transfer => trivial

theorem Smooth.keepsFlags : KeepsFlags cfg s l := by
  cases l with
  | run k =>
      refine ⟨fun x hx => ?_, hok.2⟩
      obtain ⟨hisOk, hrest⟩ := hok.1 x hx
      refine ⟨fun _ => hisOk, hs.pidKept ha k x hx, fun q hq => ?_⟩
      rw [hrest] at hq
      cases hq
  | resume k ec =>
      rintro rfl
      cases hok
  | accept | read | readError | transfer => trivial

end Step

theorem Settling.step (hi : Settling s) (h : Move cfg s l t) (hs : Orderly cfg s) (ht : Orderly cfg t)
    (hrule : Lawful cfg s l) (hok : Smooth cfg s l) : Settling t := by
  have hawake := hok.keepsAwake hs hi.alive
  have hfailed : ∀ {k}, l ≠ .resume k true := by
    rintro k rfl
    cases hok
  have hkept : Kept (· = []) s := fun n hn hw _ => hi.kept n hn hw trivial
  refine ⟨h.alive hi.alive ?_, hi.kept.step h hs.toSound ?_, hi.requests.step h hs ?_, hi.responses.step h hs ?_,
    hi.flags.step h hs.toSound hrule (h.closes_unreplied hs.toSound hrule hawake) fun k _ => hs.pidKept hi.alive k,
    hi.flagged.step hkept h hs (hok.keepsFlags hs hi.alive), hi.cared.step hi.flags h hs ht hrule hawake⟩
  · rintro k rfl
    exact hok
  · rintro k rfl x hx -
    exact (hok.1 x hx).1
  · exact fun k hl => absurd hl hfailed
  · exact fun k hl => absurd hl hfailed

theorem settling_of_reachable
    (hr : Reachable (machine cfg) (fun s l => Rule cfg s l ∧ OpensFresh s l ∧ Smooth cfg s l) s) :
    Orderly cfg s ∧ Settling s := by
  refine Orderly.invariant hr ⟨fun _ => ⟨nofun, fun _ => Nat.zero_le _⟩, fun _ h => absurd h (Nat.not_lt_zero _),
    fun _ h => absurd h (Nat.not_lt_zero _), fun _ h => absurd h (Nat.not_lt_zero _), nofun,
    fun _ h => absurd h (Nat.not_lt_zero _), fun _ h => absurd rfl h⟩ ?_
  exact fun s l t hs ht h hrule hok hi => hi.step h hs ht hrule hok

section Rest

variable (hi : Settling s) (hs : Orderly cfg s) (hq : s.Quiescent)

include hi hs hq

theorem Settling.at_read (k : Nat) : s.pc k = .read ∨ s.pc k = .absent := by
  rcases Nat.lt_or_ge k s.nconn with hk | hk
  · exact Or.inl ((hq k hk).resolve_right (hi.alive k).1)
  · exact Or.inr (hs.wired.absent k hk)

theorem Settling.delivered (hn : n < s.history.nreq) (hw : s.history.written n ≠ []) :
    s.history.delivered n = true := by
  refine (hi.requests n hn hw).resolve_right ?_
  rintro ⟨k, q, select, c, hk, -⟩
  rcases hi.at_read hs hq k with h | h <;> rw [hk] at h <;> cases h

theorem Settling.returned (hn : n < s.history.nreq) (hr : s.history.replies n ≠ []) :
    s.history.returned n = true := by
  refine (hi.responses n hn hr).resolve_right ?_
  rintro ⟨k, afSelf, c, hk, -⟩
  rcases hi.at_read hs hq k with h | h <;> rw [hk] at h <;> cases h

theorem Settling.not_clearing : ¬ s.Clearing r := by
  rintro ⟨k, ⟨c, hk⟩ | ⟨c, hk, -⟩⟩
  · rcases hi.at_read hs hq k with h | h <;> rw [h] at hk <;> cases hk
  · rcases hi.at_read hs hq k with h | h <;> rw [h] at hk <;> cases hk

/-- **Somebody is waited for.** An actor whose REQUEST has not been answered waits for an actor that has a REQUEST to
serve, or that has not been answered either. -/
theorem Settling.waits (hasks : s.Asks r) : ∃ b, s.WaitsFor r b ∧ (s.Asks b ∨ s.Serving b) := by
  obtain ⟨m, hm, rfl, hreply⟩ := hasks
  have hunanswered : s.history.Unanswered m := by
    intro hmem
    rw [hreply] at hmem
    cases hmem
  have hnot : ∀ {r : Ref}, ¬ ∃ k c, s.pc k = .handle r c := by
    rintro r ⟨k, c, hk⟩
    rcases hi.at_read hs hq k with h | h <;> rw [hk] at h <;> cases h
  have hflag := (hi.flagged m hm hunanswered).resolve_right fun ⟨_, hhandle⟩ => hnot hhandle
  obtain ⟨n, hn, hissuer, hdispatched, hnone⟩ := (hi.flags _ hflag).resolve_right (hi.not_clearing hs hq)
  have hun : s.history.Unanswered n := by
    intro hmem
    rw [show s.history.replies n = [] from hnone] at hmem
    cases hmem
  by_cases hw : s.history.written n = []
  · have hbuffered : s.history.buffered n ≠ [] := fun hb => hdispatched ⟨hb, hw⟩
    obtain ⟨b, q, hqueue, hserial⟩ := hi.kept n hn hw trivial
    have hholder := (hs.booked.queued b q hqueue).2.2.2
    rw [hserial] at hholder
    have hb : b ∈ s.history.buffered n := by
      rcases s.history.holder_mem n with heq | hmem
      · exact absurd ((hs.booked.holder_eq_issuer_iff hn).mp heq) hbuffered
      · rwa [hholder] at hmem
    refine ⟨b, ⟨n, hn, hissuer, hun, Or.inl ⟨hb, q, hqueue, hserial⟩⟩, ?_⟩
    rcases hi.cared b (List.ne_nil_of_mem hqueue) with ⟨n', hn', hi', -, hr'⟩ | hserving | hclear | hhandle
    · exact Or.inl ⟨n', hn', hi', hr'⟩
    · exact Or.inr hserving
    · exact absurd hclear (hi.not_clearing hs hq)
    · exact absurd hhandle hnot
  · obtain ⟨w, hwn⟩ := List.exists_mem_of_ne_nil _ hw
    exact ⟨w, ⟨n, hn, hissuer, hun, Or.inr ⟨hi.delivered hs hq hn hw, hwn⟩⟩,
      Or.inr ⟨n, hn, hs.booked.written_eq hn hwn, hnone⟩⟩

end Rest

end Sys

end CoroActor.Proxy
