import CoroActor.Proxy.Sound

/-! The coroutines: at most one holds control, a coroutine suspended at a write is still the one that has
sent it, and the history only grows. -/

namespace CoroActor.Proxy

open TransitionSystem

/-- Nothing that was recorded of a request is taken back. -/
structure History.Grows (h h' : History) : Prop where
  nreq : h.nreq ≤ h'.nreq
  issuer : ∀ n < h.nreq, h'.issuer n = h.issuer n
  conn : ∀ n < h.nreq, h'.conn n = h.conn n
  pack : ∀ n < h.nreq, h'.pack n = h.pack n
  buffered : ∀ n < h.nreq, h.buffered n <+: h'.buffered n
  written : ∀ n < h.nreq, h.written n <+: h'.written n
  replies : ∀ n < h.nreq, h.replies n <+: h'.replies n
  delivered : ∀ n < h.nreq, h.delivered n = true → h'.delivered n = true
  returned : ∀ n < h.nreq, h.returned n = true → h'.returned n = true

namespace History.Grows

variable {h : History}

theorem refl (h : History) : h.Grows h where
  nreq := le_rfl
  issuer _ _ := rfl
  conn _ _ := rfl
  pack _ _ := rfl
  buffered _ _ := List.prefix_rfl
  written _ _ := List.prefix_rfl
  replies _ _ := List.prefix_rfl
  delivered _ _ hd := hd
  returned _ _ hd := hd

theorem trans {h' h'' : History} (hg : h.Grows h') (hg' : h'.Grows h'') : h.Grows h'' where
  nreq := hg.nreq.trans hg'.nreq
  issuer n hn := (hg'.issuer n (hn.trans_le hg.nreq)).trans (hg.issuer n hn)
  conn n hn := (hg'.conn n (hn.trans_le hg.nreq)).trans (hg.conn n hn)
  pack n hn := (hg'.pack n (hn.trans_le hg.nreq)).trans (hg.pack n hn)
  buffered n hn := (hg.buffered n hn).trans (hg'.buffered n (hn.trans_le hg.nreq))
  written n hn := (hg.written n hn).trans (hg'.written n (hn.trans_le hg.nreq))
  replies n hn := (hg.replies n hn).trans (hg'.replies n (hn.trans_le hg.nreq))
  delivered n hn hd := hg'.delivered n (hn.trans_le hg.nreq) (hg.delivered n hn hd)
  returned n hn hd := hg'.returned n (hn.trans_le hg.nreq) (hg.returned n hn hd)

theorem issue (h : History) (k : Conn) (af : Ref) (p : CoroActorRequest) : h.Grows (h.issue k af p) := by
  constructor
  · exact Nat.le_succ _
  all_goals
    intro n hn
    simp [Function.update_of_ne hn.ne]

private theorem prefix_update {f : Nat → List Ref} (m : Nat) (r : Ref) (n : Nat) :
    f n <+: Function.update f m (f m ++ [r]) n := by
  rw [Function.update_apply]
  split
  · next hn =>
      rw [hn]
      exact List.prefix_append _ _
  · exact List.prefix_rfl

theorem hold (h : History) (m : Nat) (r : Ref) : h.Grows (h.hold m r) where
  __ := refl h
  buffered n _ := prefix_update m r n

theorem send (h : History) (m : Nat) (r : Ref) : h.Grows (h.send m r) where
  __ := refl h
  written n _ := prefix_update m r n

theorem reply (h : History) (m : Option Nat) (r : Ref) : h.Grows (h.reply m r) where
  __ := refl h
  replies n _ := by
    cases m with
    | none => exact List.prefix_rfl
    | some m => exact prefix_update m r n

theorem frame (h : History) (socket : Conn) (f : Frame) : h.Grows (h.frame socket f) where
  __ := refl h

theorem wentOut (h : History) (c : Carries) : h.Grows (h.wentOut c) where
  __ := refl h
  delivered n _ hd := by
    cases c with
    | request m =>
        simp only [wentOut_delivered, Function.update_apply]
        split
        · rfl
        · exact hd
    | connack => exact hd
    | response m => exact hd
  returned n _ hd := by
    cases c with
    | response m =>
        cases m with
        | none => exact hd
        | some m =>
            simp only [wentOut_returned, Function.update_apply]
            split
            · rfl
            · exact hd
    | connack => exact hd
    | request m => exact hd

theorem undispatched {h' : History} (hg : h.Grows h') {n : Nat} (hn : n < h.nreq)
    (hu : h'.Undispatched n) : h.Undispatched n := by
  obtain ⟨hb, hw⟩ := hu
  exact ⟨List.prefix_nil.mp (hb ▸ hg.buffered n hn), List.prefix_nil.mp (hw ▸ hg.written n hn)⟩

theorem unanswered {h' : History} (hg : h.Grows h') {n : Nat} (hn : n < h.nreq) (hu : h'.Unanswered n) :
    h.Unanswered n := by
  rw [History.Unanswered, hg.issuer n hn] at hu
  exact fun hmem => hu ((hg.replies n hn).subset hmem)

end History.Grows

/-- The coroutine has control, or gets it before any other coroutine does. -/
def Pc.holds : Pc → Bool
  | .handle .. | .wake .. => true
  | _ => false

theorem Cont.holds_iff (c : Cont) (j k : Conn) : (c.pc.holds = true ∧ j = k) ↔ c.running j = some k := by
  cases c <;> simp [Cont.pc, Cont.running, Pc.holds]

namespace Sys

variable {cfg : Setting} {s t : Sys} {l : Label} {k : Conn}

theorem Move.grows (h : Move cfg s l t) : s.history.Grows t.history := by
  cases h with
  | request _ _ haf =>
      rw [onRequest_eq haf]
      exact .issue _ _ _ _
  | response => exact (History.Grows.reply _ _ _).trans (.frame _ _ _)
  | buffered => exact .hold _ _ _
  | writing => exact (History.Grows.send _ _ _).trans (.frame _ _ _)
  | connect => exact .frame _ _ _
  | transfer =>
      simp only [onTransfer]
      split
      · exact .wentOut _ _
      · exact .refl _
  | _ => exact .refl _

/-- Control is held by the coroutine named by `running`. -/
def Controlled (s : Sys) : Prop := ∀ k, (s.pc k).holds = true ↔ s.running = some k

theorem Controlled.of_setPc (hc : Controlled s) {p : Pc} {run : Option Conn}
    (hpc : t.pc = Function.update s.pc k p) (hrun : t.running = run)
    (hfree : s.running = none ∨ s.running = some k) (hp : ∀ j, (p.holds = true ∧ k = j) ↔ run = some j) :
    Controlled t := by
  intro j
  rw [hpc, hrun, ← hp, Function.update_apply]
  split
  · next hj => simp [hj]
  · next hj =>
      rw [hc j]
      refine iff_of_false (fun hs => ?_) fun h => hj h.2.symm
      rcases hfree with hnone | hk
      · rw [hnone] at hs
        cases hs
      · rw [hk] at hs
        exact hj (Option.some.inj hs).symm

theorem Controlled.step (hc : Controlled s) (h : Move cfg s l t) : Controlled t := by
  have hdrop : ∀ {p : Pc}, p.holds = false → ∀ {k : Conn} j, (p.holds = true ∧ k = j) ↔ none = some j := by
    intro p hp k j
    simp [hp]
  have htake : ∀ {p : Pc}, p.holds = true → ∀ {k : Conn} j, (p.holds = true ∧ k = j) ↔ some k = some j := by
    intro p hp k j
    simp [hp]
  cases h with
  | accept hr => exact hc.of_setPc rfl rfl (Or.inl hr.2) (hdrop rfl)
  | connect hr => exact hc.of_setPc rfl rfl (Or.inl hr.2) (hdrop rfl)
  | request hr _ haf =>
      rw [onRequest_eq haf]
      exact hc.of_setPc rfl rfl (Or.inl hr.2) (htake rfl)
  | response hr => exact hc.of_setPc rfl rfl (Or.inl hr.2) (hdrop rfl)
  | stay => exact hc
  | undefined => exact hc
  | readError hr => exact hc.of_setPc rfl rfl (Or.inl hr.2) (hdrop rfl)
  | transfer => exact hc
  | resumeConnack hr => exact hc.of_setPc rfl rfl (Or.inl hr.2) (hdrop rfl)
  | resumeResponse hr => exact hc.of_setPc rfl rfl (Or.inl hr.2) (htake rfl)
  | resumeRequest hr => exact hc.of_setPc rfl rfl (Or.inl hr.2) fun j => Cont.holds_iff _ _ j
  | rollback hr => exact hc.of_setPc rfl rfl (Or.inl hr.2) fun j => Cont.holds_iff _ _ j
  | idle hrun => exact hc.of_setPc rfl rfl (Or.inr hrun) fun j => Cont.holds_iff _ _ j
  | refused ht => exact hc.of_setPc rfl rfl (Or.inr ht.running) fun j => Cont.holds_iff _ _ j
  | buffered hd => exact hc.of_setPc rfl rfl (Or.inr hd.running) fun j => Cont.holds_iff _ _ j
  | writing hd => exact hc.of_setPc rfl rfl (Or.inr hd.running) (hdrop rfl)
  | wake hrun => exact hc.of_setPc rfl rfl (Or.inr hrun) (htake rfl)

/-- What the coroutine of a connection is doing while it is suspended at a write. The write of a REQUEST is
the one for the request it took. The write of a RESPONSE is that of the process behind the connection,
which sends nothing else in the meantime. -/
def Engaged (s : Sys) (k : Conn) : Prop :=
  match s.pc k with
  | .connack => (s.write k).carries = .connack
  | .request q select _ => (s.write k).carries = .request q.serial ∧ q.serial < s.history.nreq ∧
      s.history.written q.serial = [select] ∧
      ((s.write k).left = [] → s.history.delivered q.serial = true)
  | .response afSelf _ => afSelf < s.proxy.nactors ∧ (s.proxy.actors afSelf).socket = k ∧
      (∀ m < s.history.nreq, s.history.issuer m = afSelf → ¬ s.history.Unanswered m) ∧
      ∃ n < s.history.nreq, (s.write k).carries = .response (some n) ∧ s.history.replies n ≠ [] ∧
        ((s.write k).left = [] → s.history.returned n = true)
  | _ => True

/-- The actors that exist keep their connection. -/
theorem Move.socket (h : Move cfg s l t) {r : Ref} (hr : r < s.proxy.nactors) :
    r < t.proxy.nactors ∧ (t.proxy.actors r).socket = (s.proxy.actors r).socket := by
  by_cases hl : ∃ k p, l = .read k (.connect p)
  · obtain ⟨k, p, rfl⟩ := hl
    cases h with
    | connect =>
        simp only [onConnect, startWrite_proxy, setProxy_proxy, Function.update_of_ne hr.ne]
        exact ⟨Nat.lt_succ_of_lt hr, trivial⟩
    | stay => exact ⟨hr, rfl⟩
    | undefined => exact ⟨hr, rfl⟩
  · have hsame := h.sameWiring fun k p heq => hl ⟨k, p, heq⟩
    rw [hsame.nactors, hsame.socket]
    exact ⟨hr, rfl⟩

/-- A new request is that of a REQUEST that was read. -/
theorem Move.issue_cases (h : Move cfg s l t) {n : Nat} (hn : n < t.history.nreq) : n < s.history.nreq ∨
    ∃ k p af, l = .read k (.request p) ∧ s.pc k = .read ∧ s.proxy.actorPidMap p.pid = some af ∧
      n = s.history.nreq ∧ t = s.onRequest k p := by
  cases h with
  | @request k p af _ hk haf =>
      rw [onRequest_eq haf] at hn
      rcases Nat.lt_succ_iff_lt_or_eq.mp hn with hlt | heq
      · exact Or.inl hlt
      · exact Or.inr ⟨k, p, af, rfl, hk, haf, heq, rfl⟩
  | transfer =>
      rw [onTransfer_history] at hn
      exact Or.inl hn
  | _ => exact Or.inl hn

/-- A new request comes from a connection that is read. -/
theorem Move.issued (h : Move cfg s l t) {m : Nat} (hm : m < t.history.nreq) :
    m < s.history.nreq ∨ s.pc (t.history.conn m) = .read := by
  rcases h.issue_cases hm with hlt | ⟨k, p, af, -, hk, haf, rfl, rfl⟩
  · exact Or.inl hlt
  · right
    rw [onRequest_eq haf]
    simpa using hk

/-- A new request is about to be dispatched. -/
theorem Move.new_request (h : Move cfg s l t) {n : Nat} (hn : n < t.history.nreq) :
    n < s.history.nreq ∨ t.history.Undispatched n ∧ ∃ k, t.pc k = .handle (t.history.issuer n) .loop := by
  rcases h.issue_cases hn with hlt | ⟨k, p, af, -, -, haf, rfl, rfl⟩
  · exact Or.inl hlt
  · rw [onRequest_eq haf]
    exact Or.inr ⟨by simp [History.Undispatched], k, by simp⟩

/-- While a coroutine holds control, no other moves. -/
theorem Move.of_running (h : Move cfg s l t) (hrun : s.running = some k) :
    l = .run k ∨ t = s ∨ t = s.undefined := by
  have hbusy : ¬ s.Ready := fun hr => by
    rw [hr.2] at hrun
    cases hrun
  have hsame : ∀ {j : Conn}, s.running = some j → Label.run j = .run k := fun hj => by
    rw [Option.some.inj (hrun.symm.trans hj)]
  cases h with
  | stay => exact Or.inr (Or.inl rfl)
  | undefined => exact Or.inr (Or.inr rfl)
  | idle hj => exact Or.inl (hsame hj)
  | wake hj => exact Or.inl (hsame hj)
  | refused ht => exact Or.inl (hsame ht.running)
  | buffered hd => exact Or.inl (hsame hd.running)
  | writing hd => exact Or.inl (hsame hd.running)
  | accept hr => exact absurd hr hbusy
  | connect hr => exact absurd hr hbusy
  | request hr => exact absurd hr hbusy
  | response hr => exact absurd hr hbusy
  | readError hr => exact absurd hr hbusy
  | transfer hr => exact absurd hr hbusy
  | resumeConnack hr => exact absurd hr hbusy
  | resumeResponse hr => exact absurd hr hbusy
  | resumeRequest hr => exact absurd hr hbusy
  | rollback hr => exact absurd hr hbusy

/-- A process whose coroutine is not reading keeps having no unanswered request. -/
theorem Move.awaitsNothing (h : Move cfg s l t) (ht : Sound cfg t) {r : Ref} (hr : r < s.proxy.nactors)
    (hpc : s.pc (s.proxy.actors r).socket ≠ .read)
    (hidle : ∀ m < s.history.nreq, s.history.issuer m = r → ¬ s.history.Unanswered m) :
    ∀ m < t.history.nreq, t.history.issuer m = r → ¬ t.history.Unanswered m := by
  intro m hm heq hu
  rcases h.issued hm with hlt | hread
  · rw [h.grows.issuer m hlt] at heq
    exact hidle m hlt heq (h.grows.unanswered hlt hu)
  · rw [← (ht.booked.entry m hm).issuer_socket, heq, (h.socket hr).2] at hread
    exact hpc hread

theorem Engaged.mono (h : Move cfg s l t) (ht : Sound cfg t) (hpc : t.pc k = s.pc k)
    (hcarries : (t.write k).carries = (s.write k).carries)
    (hleft : (t.write k).left = [] → (s.write k).left = [] ∨
      (∀ n, (s.write k).carries = .request n → t.history.delivered n = true) ∧
      ∀ n, (s.write k).carries = .response (some n) → t.history.returned n = true)
    (he : Engaged s k) : Engaged t k := by
  have hg := h.grows
  unfold Engaged at he ⊢
  rw [hpc, hcarries]
  cases hk : s.pc k with
  | connack =>
      rw [hk] at he
      exact he
  | request q select c =>
      rw [hk] at he
      obtain ⟨hc, hn, hw, hd⟩ := he
      refine ⟨hc, hn.trans_le hg.nreq, ?_, fun hl => ?_⟩
      · obtain ⟨x, hx⟩ := hg.written _ hn
        have hle := (ht.booked.entry _ (hn.trans_le hg.nreq)).written_le
        rw [← hx, hw] at hle ⊢
        have hnil : x = [] := by simpa using hle
        rw [hnil, List.append_nil]
      · rcases hleft hl with hl' | ⟨hd', -⟩
        · exact hg.delivered _ hn (hd hl')
        · exact hd' _ hc
  | response afSelf c =>
      rw [hk] at he
      obtain ⟨hlt, hsock, hidle, n, hn, hc, hr, hret⟩ := he
      obtain ⟨hlt', hsock'⟩ := h.socket hlt
      refine ⟨hlt', hsock'.trans hsock, ?_, n, hn.trans_le hg.nreq, hc, ?_, fun hl => ?_⟩
      · exact h.awaitsNothing ht hlt (by rw [hsock, hk]; nofun) hidle
      · exact (hg.replies n hn).ne_nil hr
      · rcases hleft hl with hl' | ⟨-, hr'⟩
        · exact hg.returned n hn (hret hl')
        · exact hr' n hc
  | _ => trivial

theorem Engaged.of_not_writing (h : (s.pc k).writing = false) : Engaged s k := by
  unfold Engaged
  cases hk : s.pc k with
  | connack | request | response =>
      rw [hk] at h
      cases h
  | _ => trivial

/-- The coroutines that did not move are engaged as before. -/
theorem Engaged.mono_of_ne (h : Move cfg s l t) (ht : Sound cfg t) {j : Nat}
    (hpc : ∀ j : Nat, j ≠ k → t.pc j = s.pc j) (hwrite : ∀ j : Nat, j ≠ k → t.write j = s.write j)
    (he : ∀ j, Engaged s j) (hk : Engaged t k) : Engaged t j := by
  by_cases hj : j = k
  · rw [hj]
    exact hk
  · refine Engaged.mono h ht (hpc j hj) ?_ ?_ (he j)
    · rw [hwrite j hj]
    · rw [hwrite j hj]
      exact Or.inl

theorem Engaged.step (hs : Sound cfg s) (h : Move cfg s l t) (hrule : Lawful cfg s l)
    (he : ∀ j, Engaged s j) (j : Nat) : Engaged t j := by
  have ht := hs.step h hrule
  have hmove := h
  -- a coroutine that moves to a point that is not a write is not engaged
  have hquiet : ∀ {k : Conn} {p : Pc}, p.writing = false → t.pc = Function.update s.pc k p →
      t.write = s.write → Engaged t j := by
    intro k p hp hpc hwrite
    refine Engaged.mono_of_ne (k := k) h ht (fun j hj => ?_) (fun j _ => by rw [hwrite]) he
      (.of_not_writing ?_)
    · rw [hpc, Function.update_of_ne hj]
    · rw [hpc, Function.update_self]
      exact hp
  cases h with
  | accept => exact hquiet rfl rfl rfl
  | request _ _ haf =>
      rw [onRequest_eq haf] at hquiet ⊢
      exact hquiet rfl rfl rfl
  | stay => exact he j
  | undefined => exact he j
  | readError => exact hquiet rfl rfl rfl
  | resumeConnack => exact hquiet rfl rfl rfl
  | resumeResponse => exact hquiet rfl rfl rfl
  | resumeRequest => exact hquiet (Cont.pc_ne _).2.2 rfl rfl
  | rollback => exact hquiet (Cont.pc_ne _).2.2 rfl rfl
  | idle => exact hquiet (Cont.pc_ne _).2.2 rfl rfl
  | refused => exact hquiet (Cont.pc_ne _).2.2 rfl rfl
  | buffered => exact hquiet (Cont.pc_ne _).2.2 rfl rfl
  | wake => exact hquiet rfl rfl rfl
  | @connect k p =>
      refine Engaged.mono_of_ne (k := k) hmove ht (fun j hj => ?_) (fun j hj => ?_) he ?_
      · simp [onConnect, Function.update_of_ne hj]
      · simp [onConnect, Function.update_of_ne hj]
      · simp [Engaged, onConnect]
  | @response k p L back afSelf _ hk hchain =>
      refine Engaged.mono_of_ne (k := k) hmove ht (fun j hj => ?_) (fun j hj => ?_) he ?_
      · simp [Function.update_of_ne hj]
      · simp [Function.update_of_ne hj]
      · obtain ⟨n, hn, hans, hlive, -, -, hlt, hsock, -⟩ := hs.reply hrule.1 hchain
        have hidle := hs.answered_of_idle hrule.1.1 hlt hsock
        simp only [Engaged, startWrite_pc, Function.update_self, startWrite_write, hans]
        refine ⟨hlt, hsock, ?_, n, hn, rfl, ?_, fun hnil => absurd hnil (Frame.bytes_ne_nil _)⟩
        · intro m hm heq hu
          refine hidle m hm heq fun hmem => hu ?_
          exact ((History.Grows.reply s.history (some n) back).replies m hm).subset hmem
        · simp [hlive.2]
  | @writing k af c q rest issuer select hd hsw =>
      refine Engaged.mono_of_ne (k := k) hmove ht (fun j hj => ?_) (fun j hj => ?_) he ?_
      · simp [Function.update_of_ne hj]
      · simp [Function.update_of_ne hj]
      · obtain ⟨hn, -, hw, -⟩ := hs.departs hd
        simp only [Engaged, startWrite_pc, Function.update_self, startWrite_write]
        exact ⟨trivial, hn, by simp [hw], fun hnil => absurd hnil (Frame.bytes_ne_nil _)⟩
  | @transfer k count _ _ hleft =>
      have hcarries : ((s.onTransfer k (count + 1)).write j).carries = (s.write j).carries := by
        simp only [onTransfer, Function.update_apply]
        split
        · next hj => rw [hj]
        · rfl
      refine Engaged.mono hmove ht rfl hcarries (fun hl => ?_) (he j)
      by_cases hj : j = k
      · subst hj
        right
        simp only [onTransfer, Function.update_self] at hl
        simp only [onTransfer, hl, if_true]
        constructor
        · intro n hn
          simp [hn]
        · intro n hn
          simp [hn]
      · left
        simpa [onTransfer, Function.update_of_ne hj] using hl

/-- The invariants of the registration, of the ledger and of the coroutines. -/
structure Orderly (cfg : Setting) (s : Sys) : Prop extends Sound cfg s where
  controlled : Controlled s
  engaged : ∀ k, Engaged s k

/-- A coroutine at the write of a REQUEST is the one that sends it. -/
theorem Orderly.at_request (hs : Orderly cfg s) {q : Queued} {select : Ref} {c : Cont}
    (hk : s.pc k = .request q select c) : (s.write k).carries = .request q.serial ∧
      q.serial < s.history.nreq ∧ s.history.written q.serial = [select] ∧
      ((s.write k).left = [] → s.history.delivered q.serial = true) := by
  have heng := hs.engaged k
  rw [Engaged, hk] at heng
  exact heng

/-- A coroutine at the write of a RESPONSE is that of a process that awaits nothing. -/
theorem Orderly.at_response (hs : Orderly cfg s) {afSelf : Ref} {c : StdString}
    (hk : s.pc k = .response afSelf c) : afSelf < s.proxy.nactors ∧ (s.proxy.actors afSelf).socket = k ∧
      (∀ m < s.history.nreq, s.history.issuer m = afSelf → ¬ s.history.Unanswered m) ∧
      ∃ n < s.history.nreq, (s.write k).carries = .response (some n) ∧ s.history.replies n ≠ [] ∧
        ((s.write k).left = [] → s.history.returned n = true) := by
  have heng := hs.engaged k
  rw [Engaged, hk] at heng
  exact heng

theorem Orderly.step (hs : Orderly cfg s) (h : Move cfg s l t) (hrule : Lawful cfg s l) : Orderly cfg t where
  toSound := hs.toSound.step h hrule
  controlled := hs.controlled.step h
  engaged := Engaged.step hs.toSound h hrule hs.engaged

/-- **The invariants hold in every run of well-behaved processes with fresh call ids.** -/
theorem Orderly.of_reachable (hr : Reachable (machine cfg) (Lawful cfg) s) : Orderly cfg s := by
  refine hr.invariant (I := Orderly cfg) ⟨⟨wired_init, booked_init cfg⟩, fun k => ?_, fun k => ?_⟩
    fun s l t _ hs hrule hst => hs.step (step_move hs.wired.isOpen hst) hrule
  · exact iff_of_false Bool.false_ne_true nofun
  · exact .of_not_writing rfl

/-- An invariant that one step keeps, among well-behaved processes with fresh call ids and under a further
condition on the steps, holds in every run. -/
theorem Orderly.invariant {I : Sys → Prop} {ok : Sys → Label → Prop}
    (hr : Reachable (machine cfg) (fun s l => Rule cfg s l ∧ OpensFresh s l ∧ ok s l) s) (hinit : I Sys.init)
    (hstep : ∀ s l t, Orderly cfg s → Orderly cfg t → Move cfg s l t → Lawful cfg s l → ok s l → I s → I t) :
    Orderly cfg s ∧ I s := by
  refine hr.invariant (I := fun s => Orderly cfg s ∧ I s) ⟨.of_reachable .init, hinit⟩ ?_
  rintro s l t - ⟨hs, hi⟩ ⟨hrule, hfresh, hok⟩ hst
  have hmove := step_move hs.wired.isOpen hst
  have ht := hs.step hmove ⟨hrule, hfresh⟩
  exact ⟨ht, hstep s l t hs ht hmove ⟨hrule, hfresh⟩ hok hi⟩

end Sys

end CoroActor.Proxy
