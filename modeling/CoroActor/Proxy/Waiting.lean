import CoroActor.Proxy.Flags

/-! A process that is blocked in `send` must not be asked for anything. The module says under which
conditions on the run the flags keep the proxy from it. -/

namespace CoroActor.Proxy

open TransitionSystem

namespace Sys

variable {cfg : Setting} {s t : Sys} {l : Label} {k : Conn} {n : Nat} {r af issuer select : Ref}
  {c : Cont} {q : Queued} {rest : List Queued}

/-- The step keeps the flags right: a request that is taken for the first time is not refused; the pid of a
taken request still belongs to its issuer, and it is the own request of the actor if the queue holds one; no
write of a REQUEST fails; and an actor whose flag is cleared for being at the back of a chain has no
dispatched request that is unanswered. -/
def KeepsFlags (cfg : Setting) (s : Sys) : Label → Prop
  | .run k => (∀ x ∈ s.taken k,
        (s.history.buffered x.q.serial = [] → (s.destination cfg x).isOk = true) ∧
        s.proxy.actorPidMap x.q.pack.pid = some (s.history.issuer x.q.serial) ∧
        ∀ q ∈ x.rest, s.history.issuer q.serial ≠ x.af) ∧
      ∀ back ∈ s.waking k, ∀ n < s.history.nreq, s.history.issuer n = back →
        s.history.Unanswered n → s.history.Undispatched n
  | .resume k ec => ec = true → (s.pc k).requests = false
  | _ => True

instance (cfg : Setting) (s : Sys) : (l : Label) → Decidable (KeepsFlags cfg s l)
  | .run k => inferInstanceAs (Decidable ((∀ x ∈ s.taken k, _) ∧ ∀ back ∈ s.waking k, _))
  | .resume _ ec => inferInstanceAs (Decidable (ec = true → _))
  | .read .. | .accept | .readError _ | .transfer .. => inferInstanceAs (Decidable True)

/-- An actor that awaits an answer has its flag set, or is about to dispatch the request. -/
def Flagged (s : Sys) : Prop := ∀ n < s.history.nreq, s.history.Unanswered n →
  (s.proxy.actors (s.history.issuer n)).isWaiting = true ∨
    s.history.Undispatched n ∧ ∃ k c, s.pc k = .handle (s.history.issuer n) c

theorem Kept.in_queue (hkept : Kept (· = []) s) (hs : Sound cfg s) (hn : n < s.history.nreq)
    (hu : s.history.Undispatched n) :
    ∃ q ∈ (s.proxy.actors (s.history.issuer n)).msgQueue, q.serial = n := by
  obtain ⟨r, q, hq, rfl⟩ := hkept n hn hu.2 hu.1
  have hr := (hs.booked.queued r q hq).2.2.2
  rw [History.holder_of_buffered_nil hu.1] at hr
  rw [hr]
  exact ⟨q, hq, rfl⟩

/-- The flags that the choice between buffering and writing looks at cover every actor that awaits an
answer. -/
theorem Flagged.depart (hi : Flagged s) (hkept : Kept (· = []) s) (hs : Orderly cfg s)
    (hd : s.Departs cfg k af c q rest issuer select) (hok : KeepsFlags cfg s (.run k))
    (hn : n < s.history.nreq) (hu : s.history.Unanswered n) :
    ((s.proxy.depart af rest q issuer select).actors (s.history.issuer n)).isWaiting = true := by
  obtain ⟨-, hpid, hown⟩ := hok.1 _ hd.taken
  have hissuer : issuer = s.history.issuer q.serial := Option.some.inj (hd.issued.symm.trans hpid)
  rw [Registry.depart_isWaiting]
  split
  · rfl
  · next hne =>
      refine (hi n hn hu).resolve_right ?_
      rintro ⟨hund, j, c', hj⟩
      -- the coroutine that is about to dispatch the request is this one
      have hjk : j = k := by
        have hrun := (hs.controlled j).mp (by rw [hj]; rfl)
        rw [hd.running] at hrun
        exact (Option.some.inj hrun).symm
      rw [hjk, hd.pc] at hj
      obtain ⟨rfl, rfl⟩ := Pc.handle.inj hj
      obtain ⟨q', hq', rfl⟩ := hkept.in_queue hs.toSound hn hund
      rw [hd.queue] at hq'
      rcases List.mem_cons.mp hq' with rfl | hrest
      · exact hne hissuer.symm
      · exact hown q' hrest rfl

theorem Flagged.step (hi : Flagged s) (hkept : Kept (· = []) s) (h : Move cfg s l t) (hs : Orderly cfg s)
    (hok : KeepsFlags cfg s l) : Flagged t := by
  intro n hn hu
  rcases h.new_request hn with hlt | ⟨hund, k, hk⟩
  · have hissuer := h.grows.issuer n hlt
    have hus := h.grows.unanswered hlt hu
    rw [hissuer]
    rcases hi n hlt hus with hflag | ⟨hund, k, c, hk⟩
    · rcases h.flag_cleared (hs.booked.entry n hlt).issuer_lt hflag with hkept | ⟨k, c, ec, -, hk⟩ |
        ⟨k, q, select, c, rfl, hk, -⟩ | ⟨k, rfl, hwaking, hpc, hhist⟩
      · exact Or.inl hkept
      · -- the process behind this coroutine awaits nothing
        exact absurd hus ((hs.at_response hk).2.2.1 n hlt rfl)
      · have hnot := hok rfl
        rw [hk] at hnot
        cases hnot
      · refine Or.inr ⟨?_, k, .loop, hpc⟩
        rw [hhist]
        exact hok.2 _ hwaking n hlt rfl hus
    · have hrun := (hs.controlled k).mp (by rw [hk]; rfl)
      rcases h.of_running hrun with rfl | rfl | rfl
      · obtain ⟨q', hq', rfl⟩ := hkept.in_queue hs.toSound hlt hund
        cases h with
        | stay => exact Or.inr ⟨hund, k, c, hk⟩
        | undefined => exact Or.inr ⟨hund, k, c, hk⟩
        | idle _ hk' hfree =>
            rw [hk] at hk'
            obtain ⟨rfl, rfl⟩ := Pc.handle.inj hk'
            rcases hfree with hnil | hwait
            · rw [hnil] at hq'
              cases hq'
            · exact Or.inl hwait
        | @refused _ _ _ q rest _ ht hroute =>
            obtain ⟨hfirst, -, hown⟩ := hok.1 _ ht.taken
            obtain ⟨rfl, rfl⟩ := Pc.handle.inj (hk.symm.trans ht.pc)
            rw [ht.queue] at hq'
            rcases List.mem_cons.mp hq' with rfl | hrest
            · have hisOk := hfirst hund.1
              rw [destination, hroute] at hisOk
              cases hisOk
            · exact absurd rfl (hown q' hrest)
        | buffered hd _ =>
            left
            rw [returnTo_proxy, setProxy_proxy, Registry.emplace_isWaiting]
            exact hi.depart hkept hs hd hok hlt hus
        | @writing _ _ _ q rest issuer select hd hsw =>
            left
            have hflag := hi.depart hkept hs hd hok hlt hus
            have hne : s.history.issuer q'.serial ≠ select := by
              intro heq
              rw [heq, hsw] at hflag
              cases hflag
            rw [startWrite_proxy, setProxy_proxy, Registry.updateActorInfo_isWaiting, if_neg hne]
            exact hflag
        | wake _ hk' =>
            rw [hk] at hk'
            cases hk'
      · exact Or.inr ⟨hund, k, c, hk⟩
      · exact Or.inr ⟨hund, k, c, hk⟩
  · exact Or.inr ⟨hund, k, .loop, hk⟩

theorem Move.request_frame (h : Move cfg s l t) {f : Frame}
    (hf : t.history.frames k = s.history.frames k ++ [f]) (hproto : f.proto = coroActorRequest) :
    ∃ j af c q rest issuer select, l = .run j ∧ s.Departs cfg j af c q rest issuer select ∧
      (s.proxy.actors select).socket = k ∧ (t.proxy.actors select).isWaiting = false ∧
      t.running = none := by
  have hsame : s.history.frames k ≠ s.history.frames k ++ [f] := by simp
  have hother : ∀ {j : Conn} {f' : Frame}, f'.proto ≠ coroActorRequest →
      Function.update s.history.frames j (s.history.frames j ++ [f']) k ≠ s.history.frames k ++ [f] := by
    intro j f' hne heq
    rw [Function.update_apply] at heq
    split at heq
    · next hj =>
        rw [hj] at heq
        obtain rfl : f' = f := by simpa using heq
        exact hne hproto
    · exact hsame heq
  cases h with
  | connect => exact absurd hf (hother (show coroActorConnack ≠ coroActorRequest by decide))
  | response => exact absurd hf (hother (show coroActorResponse ≠ coroActorRequest by decide))
  | request _ _ haf =>
      rw [onRequest_eq haf] at hf
      exact absurd hf hsame
  | transfer =>
      rw [onTransfer_history] at hf
      exact absurd hf hsame
  | @writing j af c q rest issuer select hd hsw =>
      refine ⟨j, af, c, q, rest, issuer, select, rfl, hd, ?_, ?_, rfl⟩
      · by_contra hne
        simp only [startWrite_history, History.frame_frames, setProxy_history, History.send_frames,
          Function.update_of_ne (Ne.symm hne)] at hf
        exact hsame hf
      · simp [Registry.updateActorInfo_isWaiting]
  | _ => exact absurd hf hsame

/-- The process behind the connection awaits the answer to a REQUEST. -/
def Blocked (s : Sys) (k : Conn) : Prop :=
  ∃ n < s.history.nreq, s.history.conn n = k ∧ ∀ r ∈ s.history.replies n, (s.proxy.actors r).socket ≠ k

instance (s : Sys) (k : Conn) : Decidable (s.Blocked k) :=
  inferInstanceAs (Decidable (∃ n < s.history.nreq, _ ∧ ∀ r ∈ s.history.replies n, _))

theorem Sound.blocked_iff (hs : Sound cfg s) (hr : r < s.proxy.nactors) :
    s.Blocked (s.proxy.actors r).socket ↔
      ∃ n < s.history.nreq, s.history.issuer n = r ∧ s.history.Unanswered n := by
  refine exists_congr fun n => and_congr_right fun hn => ?_
  rw [hs.issuer_eq hr rfl hn]
  refine and_congr_right fun hconn => ?_
  have hsocket := (hs.booked.entry n hn).issuer_socket
  constructor
  · intro h hmem
    exact h _ hmem (hsocket.trans hconn)
  · intro hu x hx heq
    have hrep := ((hs.booked.entry n hn).replied (List.ne_nil_of_mem hx)).2
    rw [hrep, List.mem_singleton] at hx
    have hxi : x = s.history.issuer n := by
      refine hs.wired.socket_inj x (by rw [hx]; exact hs.booked.holder_lt hn) _
        (hs.booked.entry n hn).issuer_lt ?_
      rw [heq, hsocket, hconn]
    rw [History.Unanswered, hrep, ← hx, hxi] at hu
    exact hu (List.mem_singleton_self _)

theorem Move.closes_unanswered (h : Move cfg s l t) (hs : Sound cfg s) (hrule : Lawful cfg s l) :
    Closes (fun h n => h.Unanswered n) s l t := by
  constructor
  · intro n _ hr
    rw [History.Unanswered, hr]
    exact List.not_mem_nil
  · intro n hn hu hnu
    rw [History.Unanswered, not_not, h.grows.issuer n hn] at hnu
    have hne : t.history.replies n ≠ s.history.replies n := fun heq => hu (heq ▸ hnu)
    obtain ⟨k, p, hl, hans, hreplies⟩ := h.replied hs hrule hn hne
    rw [hreplies, List.mem_singleton] at hnu
    exact ⟨k, p, hl, hans, hnu.symm⟩

end Sys

end CoroActor.Proxy
