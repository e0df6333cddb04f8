import CoroActor.Proxy.Execution

/-! The accesses that the proxy makes without a check. The workers are only asked to behave as `Peer` says:
to register once with a pid of their own, to send REQUESTs with that pid, and to answer what was delivered
to them. The invariant counts: the chain of a call is longer than the number of REQUESTs of the call
that have been written and not answered. -/

namespace CoroActor.Proxy

open TransitionSystem

namespace Sys

/-- CONNECT comes first, with a pid that no other running process has; a REQUEST carries that pid; a
RESPONSE has the `call_id` of a REQUEST that was delivered to its sender and not answered. -/
def Peer (s : Sys) : Label → Prop
  | .read k (.connect p) => s.ConnectRule k p
  | .read k (.request p) =>
      ∃ r < s.proxy.nactors, (s.proxy.actors r).socket = k ∧ (s.proxy.actors r).pid = p.pid
  | .read k (.response p) => s.Serves k p.callId
  | _ => True

instance (s : Sys) : (l : Label) → Decidable (Peer s l)
  | .read k (.connect p) => inferInstanceAs (Decidable (s.ConnectRule k p))
  | .read _ (.request _) => inferInstanceAs (Decidable (∃ r < s.proxy.nactors, _ ∧ _))
  | .read k (.response p) => inferInstanceAs (Decidable (s.Serves k p.callId))
  | .read _ (.other _) | .accept | .readError _ | .transfer .. | .resume .. | .run _ =>
      inferInstanceAs (Decidable True)

/-- The open REQUESTs of the call are among `ns`. -/
def Covers (h : History) (c : StdString) (ns : List Nat) : Prop :=
  ∀ n < h.nreq, (h.pack n).callId = c → h.Live n → n ∈ ns

/-- The invariant of the unchecked accesses. -/
structure Guarded (s : Sys) : Prop extends Wired s where
  sane : s.fault = false
  unopened : ∀ c, s.proxy.actorCallChainMap c = none → ∀ n < s.history.nreq, (s.history.pack n).callId ≠ c
  covered : ∀ c L, s.proxy.actorCallChainMap c = some L → ∃ ns : List Nat, ns.length < L.length ∧
    Covers s.history c ns
  members : ∀ c L, s.proxy.actorCallChainMap c = some L → ∀ r ∈ L, r < s.proxy.nactors
  queued : ∀ r, ∀ q ∈ (s.proxy.actors r).msgQueue,
    q.serial < s.history.nreq ∧ s.history.pack q.serial = q.pack ∧ s.Registered q.pack.pid
  requesting : ∀ k, ∀ x ∈ (s.pc k).requesting, s.Registered x.1.pack.pid
  waking : ∀ k c, (s.pc k).wakes = some c → s.proxy.actorCallChainMap c ≠ none

variable {cfg : Setting} {s t : Sys} {l : Label} {k : Conn} {c d : StdString} {n : Nat} {r af : Ref}
  {ns : List Nat} {L : List Ref}

theorem guarded_init : Guarded Sys.init where
  toWired := wired_init
  sane := rfl
  unopened _ _ _ hn := absurd hn (Nat.not_lt_zero _)
  covered _ _ hL := by cases hL
  members _ _ hL := by cases hL
  queued _ _ hq := by cases hq
  requesting _ _ hx := by cases hx
  waking _ _ hk := by cases hk

section Facts

/-- A registered pid stays registered: CONNECT only ever replaces an entry by one with the same pid. -/
theorem Registered.step {pid : Pid} (hreg : s.Registered pid) (h : Move cfg s l t) (hw : Wired t) :
    t.Registered pid := by
  obtain ⟨af, haf, hmap, hpid⟩ := hreg
  have hsome : (t.proxy.actorPidMap pid).isSome := by
    by_cases hl : ∃ k p, l = .read k (.connect p)
    · obtain ⟨k, p, rfl⟩ := hl
      cases h with
      | connect =>
          rw [onConnect_pidMap]
          split
          · rfl
          · rw [hmap]
            rfl
      | stay | undefined => exact Option.isSome_iff_exists.mpr ⟨af, hmap⟩
    · rw [(h.sameWiring fun k p heq => hl ⟨k, p, heq⟩).pidMap, hmap]
      rfl
  obtain ⟨r, hr⟩ := Option.isSome_iff_exists.mp hsome
  obtain ⟨hlt, hp⟩ := hw.pidMap pid r hr
  exact ⟨r, hlt, hr, hp⟩

/-- The chain of a call with an open REQUEST has two actors. -/
theorem Guarded.two_le (hg : Guarded s) (hn : n < s.history.nreq) (hc : (s.history.pack n).callId = c)
    (hl : s.history.Live n) : ∃ L, s.proxy.actorCallChainMap c = some L ∧ 2 ≤ L.length := by
  cases hm : s.proxy.actorCallChainMap c with
  | none => exact absurd hc (hg.unopened c hm n hn)
  | some L =>
      obtain ⟨ns, hlen, hcov⟩ := hg.covered c L hm
      have hpos : 0 < ns.length := List.length_pos_of_mem (hcov n hn hc hl)
      exact ⟨L, rfl, by omega⟩

theorem Guarded.chain_ne_nil (hg : Guarded s) (hc : s.proxy.actorCallChainMap c ≠ none) :
    s.proxy.chain c ≠ [] := by
  obtain ⟨L, hL⟩ := Option.ne_none_iff_exists'.mp hc
  obtain ⟨ns, hlen, -⟩ := hg.covered c L hL
  rw [Registry.chain, hL, Option.getD_some]
  exact List.ne_nil_of_length_pos (by omega)

theorem mem_of_taken {x : Taken} (hx : s.taken k = some x) : x.q ∈ (s.proxy.actors x.af).msgQueue := by
  unfold taken at hx
  split at hx
  · split at hx
    · next q rest hqueue =>
        split at hx
        · cases hx
        · cases hx
          rw [hqueue]
          exact List.mem_cons_self
    · cases hx
  · cases hx

/-- What the next step dereferences is there. -/
theorem Guarded.accesses (hg : Guarded s) (hp : s.Peer l) : s.Accesses cfg l := by
  cases l with
  | read k f =>
      cases f with
      | request p =>
          obtain ⟨r, hr, -, hpid⟩ := hp
          obtain ⟨r', hr'⟩ := Option.isSome_iff_exists.mp (hg.listed r hr)
          rw [hpid] at hr'
          obtain ⟨hlt, hp'⟩ := hg.pidMap p.pid r' hr'
          exact ⟨r', hlt, hr', hp'⟩
      | response p =>
          obtain ⟨n, hn, ⟨hlive, hc, -⟩, -⟩ := hp
          obtain ⟨L, hL, hlen⟩ := hg.two_le hn hc hlive
          have hchain : s.proxy.chain p.callId = L := by rw [Registry.chain, hL, Option.getD_some]
          rw [Accesses, hchain]
          exact ⟨hlen, hg.members p.callId L hL⟩
      | connect | other => exact trivial
  | run k =>
      constructor
      · intro x hx _
        exact (hg.queued x.af x.q (mem_of_taken hx)).2.2
      · intro callId hk
        apply hg.chain_ne_nil
        exact hg.waking k callId (by rw [hk]; rfl)
  | resume k ec => exact fun _ x hx => hg.requesting k x hx
  | accept | readError | transfer => exact trivial

end Facts

section Step

theorem Covers.mono {h h' : History} (hcov : Covers h c ns)
    (hlive : ∀ n < h'.nreq, (h'.pack n).callId = c → h'.Live n →
      n < h.nreq ∧ (h.pack n).callId = c ∧ h.Live n) : Covers h' c ns := by
  intro n hn hc hl
  obtain ⟨hn', hc', hl'⟩ := hlive n hn hc hl
  exact hcov n hn' hc' hl'

theorem Covers.issue {h : History} (hcov : Covers h c ns) (k : Conn) (af : Ref) (p : CoroActorRequest) :
    Covers (h.issue k af p) c ns := by
  refine hcov.mono fun n hn hc hl => ?_
  by_cases hne : n = h.nreq
  · subst hne
    simp [History.Live] at hl
  · have hlt : n < h.nreq := Nat.lt_of_le_of_ne (Nat.lt_succ_iff.mp hn) hne
    have hsame : h.SameAt (h.issue k af p) n := History.issue_sameAt hne
    rw [hsame.pack] at hc
    exact ⟨hlt, hc, hsame.live.mp hl⟩

theorem Covers.send {h : History} (hcov : Covers h c ns) (m : Nat) (r : Ref) :
    Covers (h.send m r) c (m :: ns) := by
  intro n hn hc hl
  by_cases hne : n = m
  · rw [hne]
    exact List.mem_cons_self
  · have hsame : h.SameAt (h.send m r) n := History.send_sameAt hne
    exact List.mem_cons_of_mem m (hcov n hn hc (hsame.live.mp hl))

theorem Covers.reply {h : History} (hcov : Covers h c ns) (m : Nat) (r : Ref) :
    Covers (h.reply (some m) r) c (ns.erase m) := by
  intro n hn hc hl
  have hne : n ≠ m := by
    rintro rfl
    simp [History.Live] at hl
  have hsame : h.SameAt (h.reply (some m) r) n := History.reply_sameAt hne
  exact (List.mem_erase_of_ne hne).mpr (hcov n hn hc (hsame.live.mp hl))

theorem chainMap_of_chain (hL : s.proxy.chain c = L) (hne : L ≠ []) :
    s.proxy.actorCallChainMap c = some L := by
  rw [Registry.chain] at hL
  cases hm : s.proxy.actorCallChainMap c with
  | none =>
      rw [hm, Option.getD_none] at hL
      exact absurd hL.symm hne
  | some L' =>
      rw [hm, Option.getD_some] at hL
      rw [hL]

theorem Departs.chainMap {q : Queued} {d : Cont} {rest : List Queued} {issuer select : Ref}
    (hd : s.Departs cfg k af d q rest issuer select) (hg : Guarded s) :
    select < s.proxy.nactors ∧ s.history.pack q.serial = q.pack ∧
      (∃ L, s.proxy.actorCallChainMap q.pack.callId = some L ∧
        (s.proxy.depart af rest q issuer select).actorCallChainMap q.pack.callId = some (L ++ [select])) ∧
      ∀ c, c ≠ q.pack.callId → (s.proxy.depart af rest q issuer select).actorCallChainMap c =
        s.proxy.actorCallChainMap c := by
  obtain ⟨hn, hp, -⟩ := hg.queued af q hd.mem_queue
  obtain ⟨-, -, -, hlt, -⟩ := hd.select_mem hg.toWired
  refine ⟨hlt, hp, ?_, fun c hc => ?_⟩
  · cases hm : s.proxy.actorCallChainMap q.pack.callId with
    | none => exact absurd (by rw [hp]) (hg.unopened _ hm q.serial hn)
    | some L =>
        refine ⟨L, rfl, ?_⟩
        rw [Registry.depart, Registry.setChain_chainMap, if_pos rfl, Registry.chain, hm, Option.getD_some]
  · rw [Registry.depart, Registry.setChain_chainMap, if_neg hc]
    simp

/-- What a step does to one call: nothing, or its chain is opened, or an actor joins it for a REQUEST, or
an actor leaves it with a RESPONSE. -/
theorem Move.call_cases (h : Move cfg s l t) (hg : Guarded s) (hcov : Covers s.history c ns) :
    (t.proxy.actorCallChainMap c = s.proxy.actorCallChainMap c ∧ Covers t.history c ns) ∨
    (∃ af < s.proxy.nactors, s.proxy.actorCallChainMap c = none ∧
      t.proxy.actorCallChainMap c = some [af] ∧ Covers t.history c ns) ∨
    (∃ L, ∃ select < s.proxy.nactors, s.proxy.actorCallChainMap c = some L ∧
      t.proxy.actorCallChainMap c = some (L ++ [select]) ∧ ∃ n, Covers t.history c (n :: ns)) ∨
    ∃ k p L back afSelf, l = .read k (.response p) ∧ p.callId = c ∧
      s.proxy.actorCallChainMap c = some (L ++ [back, afSelf]) ∧
      t.proxy.actorCallChainMap c = some (L ++ [back]) ∧
      ∀ n, s.answered k c = some n → Covers t.history c (ns.erase n) := by
  cases h with
  | @request k p af _ _ haf =>
      rw [onRequest_eq haf]
      have hcov' := hcov.issue k af p
      simp only [setPc_proxy, setProxy_proxy, setPc_history, setProxy_history, Registry.emplace,
        Registry.setMsgQueue_chainMap]
      split
      · next hnone =>
          rw [Registry.setChain_chainMap]
          split
          · next heq => exact Or.inr (Or.inl ⟨af, (hg.pidMap _ _ haf).1, heq ▸ hnone, rfl, hcov'⟩)
          · exact Or.inl ⟨rfl, hcov'⟩
      · exact Or.inl ⟨rfl, hcov'⟩
  | @response k p L back afSelf _ _ hchain =>
      by_cases hc : p.callId = c
      · subst hc
        have hmap := chainMap_of_chain hchain (List.append_ne_nil_of_right_ne_nil _ (List.cons_ne_nil _ _))
        refine Or.inr (Or.inr (Or.inr ⟨k, p, L, back, afSelf, rfl, rfl, hmap, ?_, fun n hans => ?_⟩))
        · rw [startWrite_proxy, setProxy_proxy, Registry.setChain_chainMap, if_pos rfl]
        · rw [startWrite_history, setProxy_history, hans]
          exact hcov.reply n back
      · refine Or.inl ⟨?_, hcov.mono fun n hn hc' hl => ⟨hn, hc', hl.1, ?_⟩⟩
        · rw [startWrite_proxy, setProxy_proxy, Registry.setChain_chainMap, if_neg (Ne.symm hc)]
        · exact List.prefix_nil.mp (hl.2 ▸ (History.Grows.reply s.history _ back).replies n hn)
  | @buffered k af d q rest issuer select hd =>
      obtain ⟨hlt, -, ⟨L, hL, hL'⟩, hother⟩ := hd.chainMap hg
      by_cases hc : c = q.pack.callId
      · rw [hc] at hcov ⊢
        refine Or.inr (Or.inr (Or.inl ⟨L, select, hlt, hL, hL', q.serial, fun n hn hnc hl => ?_⟩))
        exact List.mem_cons_of_mem _ (hcov n hn hnc hl)
      · exact Or.inl ⟨hother c hc, hcov⟩
  | @writing k af d q rest issuer select hd =>
      obtain ⟨hlt, hp, ⟨L, hL, hL'⟩, hother⟩ := hd.chainMap hg
      have hcov' := hcov.send q.serial select
      by_cases hc : c = q.pack.callId
      · rw [hc] at hcov' ⊢
        exact Or.inr (Or.inr (Or.inl ⟨L, select, hlt, hL, hL', q.serial, hcov'⟩))
      · refine Or.inl ⟨hother c hc, fun n hn hnc hl => ?_⟩
        refine (List.mem_cons.mp (hcov' n hn hnc hl)).resolve_left ?_
        rintro rfl
        exact hc (by rw [← hp]; exact hnc.symm)
  | transfer =>
      rw [onTransfer_history]
      exact Or.inl ⟨rfl, hcov⟩
  | _ => exact Or.inl ⟨rfl, hcov⟩

/-- The count: a chain grows with every REQUEST that is written, and shrinks with a RESPONSE, which there is
an open REQUEST for. -/
theorem Guarded.covered_step (hg : Guarded s) (h : Move cfg s l t) (hp : s.Peer l)
    (hL : t.proxy.actorCallChainMap c = some L) :
    ∃ ns : List Nat, ns.length < L.length ∧ Covers t.history c ns := by
  obtain ⟨ns, hcov, hlen⟩ : ∃ ns : List Nat, Covers s.history c ns ∧
      (s.proxy.actorCallChainMap c = none → ns = []) ∧
      ∀ L₀, s.proxy.actorCallChainMap c = some L₀ → ns.length < L₀.length := by
    cases hold : s.proxy.actorCallChainMap c with
    | none => exact ⟨[], fun n hn hc => absurd hc (hg.unopened c hold n hn), fun _ => rfl, nofun⟩
    | some L₀ =>
        obtain ⟨ns, hlen, hcov⟩ := hg.covered c L₀ hold
        refine ⟨ns, hcov, nofun, fun L₁ h₁ => ?_⟩
        rwa [← Option.some.inj h₁]
  rcases h.call_cases hg hcov with ⟨hsame, hcov'⟩ | ⟨af, -, hnone, hmap, hcov'⟩ |
      ⟨L₀, select, -, hold, hmap, n, hcov'⟩ | ⟨k, p, L₀, back, afSelf, rfl, rfl, hold, hmap, hcov'⟩
  · rw [hsame] at hL
    exact ⟨ns, hlen.2 L hL, hcov'⟩
  · rw [hmap] at hL
    cases hL
    refine ⟨ns, ?_, hcov'⟩
    rw [hlen.1 hnone]
    exact Nat.zero_lt_one
  · rw [hmap] at hL
    cases hL
    refine ⟨n :: ns, ?_, hcov'⟩
    have := hlen.2 L₀ hold
    simpa using this
  · rw [hmap] at hL
    cases hL
    obtain ⟨n, hn, hans, ⟨hlive, hc, -⟩⟩ := answered_of_serves hp
    refine ⟨ns.erase n, ?_, hcov' n hans⟩
    have hmem : n ∈ ns := hcov n hn hc hlive
    have hpos : 0 < ns.length := List.length_pos_of_mem hmem
    have hlt := hlen.2 _ hold
    rw [List.length_append, List.length_cons, List.length_singleton] at hlt
    rw [List.length_erase_of_mem hmem, List.length_append, List.length_singleton]
    omega

/-- Chains are never removed. -/
theorem Guarded.opened_step (hg : Guarded s) (h : Move cfg s l t)
    (hc : s.proxy.actorCallChainMap c ≠ none) : t.proxy.actorCallChainMap c ≠ none := by
  have hcov : Covers s.history c (List.range s.history.nreq) := fun n hn _ _ => List.mem_range.mpr hn
  rcases h.call_cases hg hcov with ⟨hsame, -⟩ | ⟨af, -, -, hmap, -⟩ | ⟨L, select, -, -, hmap, -⟩ |
      ⟨k, p, L, back, afSelf, -, -, -, hmap, -⟩
  · rwa [hsame]
  all_goals
    rw [hmap]
    exact Option.some_ne_none _

theorem Guarded.unopened_step (hg : Guarded s) (h : Move cfg s l t)
    (hc : t.proxy.actorCallChainMap c = none) (hn : n < t.history.nreq) :
    (t.history.pack n).callId ≠ c := by
  have hold : s.proxy.actorCallChainMap c = none := by
    by_contra hne
    exact hg.opened_step h hne hc
  rcases Nat.lt_or_ge n s.history.nreq with hlt | hge
  · rw [h.grows.pack n hlt]
    exact hg.unopened c hold n hlt
  · cases h with
    | @request k p af _ _ haf =>
        rw [onRequest_eq haf] at hc hn ⊢
        obtain rfl : n = s.history.nreq := Nat.le_antisymm (Nat.lt_succ_iff.mp hn) hge
        rintro heq
        simp only [setPc_history, setProxy_history, History.issue_pack, Function.update_self] at heq
        subst heq
        simp [hold, Registry.emplace, Registry.setChain_chainMap] at hc
    | transfer =>
        rw [onTransfer_history] at hn
        exact absurd hn (Nat.not_lt.mpr hge)
    | _ => exact absurd hn (Nat.not_lt.mpr hge)

theorem Guarded.members_step (hg : Guarded s) (h : Move cfg s l t)
    (hL : t.proxy.actorCallChainMap c = some L) (hr : r ∈ L) : r < t.proxy.nactors := by
  have hcov : Covers s.history c (List.range s.history.nreq) := fun n hn _ _ => List.mem_range.mpr hn
  suffices hlt : r < s.proxy.nactors from (h.socket hlt).1
  rcases h.call_cases hg hcov with ⟨hsame, -⟩ | ⟨af, haf, -, hmap, -⟩ | ⟨L₀, select, hselect, hold, hmap, -⟩ |
      ⟨k, p, L₀, back, afSelf, -, -, hold, hmap, -⟩
  · rw [hsame] at hL
    exact hg.members c L hL r hr
  · rw [hmap] at hL
    cases hL
    rw [List.mem_singleton.mp hr]
    exact haf
  · rw [hmap] at hL
    cases hL
    rcases List.mem_append.mp hr with hmem | hnew
    · exact hg.members c L₀ hold r hmem
    · rw [List.mem_singleton.mp hnew]
      exact hselect
  · rw [hmap] at hL
    cases hL
    refine hg.members c _ hold r ?_
    rcases List.mem_append.mp hr with hmem | hback
    · exact List.mem_append_left _ hmem
    · rw [List.mem_singleton.mp hback]
      exact List.mem_append_right _ List.mem_cons_self

theorem Guarded.queued_step (hg : Guarded s) (h : Move cfg s l t) (hw : Wired t) {q : Queued}
    (hq : q ∈ (t.proxy.actors r).msgQueue) :
    q.serial < t.history.nreq ∧ t.history.pack q.serial = q.pack ∧ t.Registered q.pack.pid := by
  rcases h.queue_cases hq with ⟨af, hold⟩ | ⟨k, p, af, rfl, haf, rfl, hhist⟩
  · obtain ⟨hn, hp, hreg⟩ := hg.queued af q hold
    exact ⟨hn.trans_le h.grows.nreq, (h.grows.pack _ hn).trans hp, hreg.step h hw⟩
  · rw [hhist]
    have hreg : s.Registered p.pid := ⟨af, (hg.pidMap _ _ haf).1, haf, (hg.pidMap _ _ haf).2⟩
    exact ⟨Nat.lt_succ_self _, by simp, hreg.step h hw⟩

theorem Guarded.requesting_step (hg : Guarded s) (h : Move cfg s l t) (hw : Wired t) {x : Queued × Ref}
    (hx : x ∈ (t.pc k).requesting) : t.Registered x.1.pack.pid := by
  cases hk : t.pc k with
  | request q select d =>
      rw [hk] at hx
      cases hx
      rcases h.at_request hk with ⟨hk', -⟩ | ⟨-, af, rest, issuer, hd⟩
      · exact (hg.requesting k (q, select) (by rw [hk']; rfl)).step h hw
      · exact (hg.queued af q hd.mem_queue).2.2.step h hw
  | absent | read | connack | handle | response | wake | done =>
      rw [hk] at hx
      cases hx

/-- Only the coroutine that handles a RESPONSE looks at the chain of the call later. -/
theorem Move.wakes_cases (h : Move cfg s l t) (hk : (t.pc k).wakes = some c) :
    (s.pc k).wakes = some c ∨ ∃ p, l = .read k (.response p) ∧ p.callId = c ∧
      t.proxy.actorCallChainMap c ≠ none := by
  have hmoved : ∀ {j : Conn} {p : Pc}, t.pc = Function.update s.pc j p →
      (p.wakes = some c → (s.pc j).wakes = some c) → (s.pc k).wakes = some c := by
    intro j p hpc hp
    rw [hpc, Function.update_apply] at hk
    split at hk
    · next hj =>
        rw [hj]
        exact hp hk
    · exact hk
  cases h with
  | accept => exact Or.inl (hmoved rfl fun hp => by cases hp)
  | connect => exact Or.inl (hmoved rfl fun hp => by cases hp)
  | request _ _ haf =>
      rw [onRequest_eq haf] at hmoved
      exact Or.inl (hmoved rfl fun hp => by cases hp)
  | @response j p L back afSelf =>
      by_cases hj : k = j
      · subst hj
        simp only [startWrite_pc, Function.update_self, Pc.wakes, Option.some.injEq] at hk
        refine Or.inr ⟨p, rfl, hk, ?_⟩
        rw [startWrite_proxy, setProxy_proxy, Registry.setChain_chainMap, if_pos hk.symm]
        exact Option.some_ne_none _
      · left
        simpa [Function.update_of_ne hj] using hk
  | stay => exact Or.inl hk
  | undefined => exact Or.inl hk
  | transfer => exact Or.inl hk
  | readError => exact Or.inl (hmoved rfl fun hp => by cases hp)
  | resumeConnack => exact Or.inl (hmoved rfl fun hp => by cases hp)
  | resumeResponse _ hpc => exact Or.inl (hmoved rfl fun hp => by rw [hpc]; exact hp)
  | resumeRequest _ hpc => exact Or.inl (hmoved rfl fun hp => by rw [hpc, Pc.wakes_request, hp])
  | rollback _ hpc => exact Or.inl (hmoved rfl fun hp => by rw [hpc, Pc.wakes_request, hp])
  | idle _ hpc => exact Or.inl (hmoved rfl fun hp => by rw [hpc, Pc.wakes_handle, hp])
  | refused ht => exact Or.inl (hmoved rfl fun hp => by rw [ht.pc, Pc.wakes_handle, hp])
  | buffered hd => exact Or.inl (hmoved rfl fun hp => by rw [hd.pc, Pc.wakes_handle, hp])
  | writing hd =>
      refine Or.inl (hmoved rfl fun hp => ?_)
      rw [hd.pc, Pc.wakes_handle, ← hp, Pc.wakes_request]
  | wake => exact Or.inl (hmoved rfl fun hp => by cases hp)

theorem Guarded.waking_step (hg : Guarded s) (h : Move cfg s l t) (hk : (t.pc k).wakes = some c) :
    t.proxy.actorCallChainMap c ≠ none := by
  rcases h.wakes_cases hk with hold | ⟨p, -, -, hne⟩
  · exact hg.opened_step h (hg.waking k c hold)
  · exact hne

theorem Guarded.step (hg : Guarded s) (h : Move cfg s l t) (hp : s.Peer l) (hfault : t.fault = false) :
    Guarded t := by
  have hw : Wired t := hg.toWired.step h fun k p hl => by
    rw [hl] at hp
    exact hp
  exact
    { toWired := hw
      sane := hfault
      unopened := fun c hc n hn => hg.unopened_step h hc hn
      covered := fun c L hL => hg.covered_step h hp hL
      members := fun c L hL r hr => hg.members_step h hL hr
      queued := fun r q hq => hg.queued_step h hw hq
      requesting := fun k x hx => hg.requesting_step h hw hx
      waking := fun k c hk => hg.waking_step h hk }

/-- A step faults only where an access is not what it should be. -/
theorem Move.fault (h : Move cfg s l t) (hs : s.fault = false) (ha : s.Accesses cfg l) : t.fault = false := by
  cases h with
  | request _ _ haf =>
      rw [onRequest_eq haf]
      exact hs
  | undefined hnot => exact absurd ha hnot
  | _ => exact hs

end Step

/-- **The unchecked accesses find what they need.** Workers that register once with a pid of their own,
send their REQUESTs with it and answer only what was delivered to them never lead the proxy to a null
pointer of `actor_pid_map` or to the back of an empty chain. -/
theorem accesses_of_peer (hr : Reachable (machine cfg) Peer s) (hp : s.Peer l)
    (hst : s.step cfg l = some t) : s.Accesses cfg l ∧ t.fault = false := by
  have hstep : ∀ {s l t}, Guarded s → s.Peer l → s.step cfg l = some t →
      Move cfg s l t ∧ s.Accesses cfg l ∧ t.fault = false := fun hg hp hst => by
    have hmove := step_move hg.isOpen hst
    have ha : Accesses cfg _ _ := hg.accesses hp
    exact ⟨hmove, ha, hmove.fault hg.sane ha⟩
  have hg : Guarded s := hr.invariant guarded_init fun s l t _ hg hp hst =>
    hg.step (hstep hg hp hst).1 hp (hstep hg hp hst).2.2
  exact (hstep hg hp hst).2

/-- A RESPONSE to a request that was dispatched twice: its chain has three actors. -/
theorem accesses_of_buffered_response : ∃ s t : Sys,
    s.step Sample.setting (Sample.response 1 11 "10-1" "svc_b") = some t ∧
    (s.proxy.chain (ascii "10-1")).length = 3 ∧
    s.Accesses Sample.setting (Sample.response 1 11 "10-1" "svc_b") ∧ t.fault = false := by
  obtain ⟨s, t, hr, hp, hst, hlen⟩ := Reachable.of_takes (machine Sample.setting) Peer
    Sample.dispatchedTwice
    (Sample.response 1 11 "10-1" "svc_b")
    (fun s _ => (s.proxy.chain (ascii "10-1")).length = 3) (by decide +kernel)
  exact ⟨s, t, hst, hlen, accesses_of_peer hr hp hst⟩

end Sys

end CoroActor.Proxy
