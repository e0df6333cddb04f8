import CoroActor.Proxy.Registries
import Mathlib.Logic.Relation

/-! What a dispatch that fails leaves behind. A request that is turned away before a callee is selected changes no
flag and no chain. When the write to the callee fails, the two flags are set to fixed values and the chain keeps
the callee. -/

namespace CoroActor.Proxy

open TransitionSystem Relation

namespace Registry

/-- The service of the request is unknown, no actor is listed for it, or one with an open socket works for the
call. -/
def TurnsAway (serviceMap : StdString → Option StdString) (σ : Registry) (p : CoroActorRequest) : Prop :=
  ∀ g ∈ serviceMap p.serviceName, σ.actorInfoMap g = [] ∨
    ∃ r ∈ σ.actorInfoMap g, σ.closed r = false ∧ (σ.actors r).callId = p.callId

instance (serviceMap : StdString → Option StdString) (σ : Registry) (p : CoroActorRequest) :
    Decidable (σ.TurnsAway serviceMap p) :=
  inferInstanceAs (Decidable (∀ g ∈ serviceMap p.serviceName, _ ∨ ∃ r ∈ σ.actorInfoMap g, _))

section Handle

variable {serviceMap : StdString → Option StdString} {σ σ' : Registry} {callId : StdString} {l kept rest : List Ref}
  {pidMap : Pid → Option Ref} {select : Option Ref} {minQueSize : Nat} {q : Queued} {af : Ref}

/-- The scan ends early at an open member that works for the call, wherever closed members are. -/
theorem scan_circular_iff : (σ.scan callId l kept pidMap select minQueSize).selection = .circular ↔
    ∃ r ∈ l, σ.closed r = false ∧ (σ.actors r).callId = callId := by
  induction l generalizing kept pidMap select minQueSize with
  | nil =>
      refine iff_of_false ?_ (by simp)
      cases select <;> exact Selection.noConfusion
  | cons r rest ih =>
      rw [List.exists_mem_cons_iff]
      rcases Bool.eq_false_or_eq_true (σ.closed r) with hc | hc
      · rw [scan_closed hc, ih]
        simp [hc]
      · by_cases hid : (σ.actors r).callId = callId
        · rw [scan_busy hc hid]
          exact iff_of_true rfl (.inl ⟨hc, hid⟩)
        · obtain ⟨select', minQueSize', heq⟩ : ∃ select' minQueSize',
              σ.scan callId (r :: rest) kept pidMap select minQueSize =
                σ.scan callId rest (kept ++ [r]) pidMap select' minQueSize' := scan_other hc hid
          rw [heq, ih]
          simp [hid]

/-- What a dispatch compares: the flags and the call ids of the actors, and the chains. -/
structure SameRouting (σ σ' : Registry) : Prop where
  isWaiting : ∀ r, (σ'.actors r).isWaiting = (σ.actors r).isWaiting
  callId : ∀ r, (σ'.actors r).callId = (σ.actors r).callId
  chains : σ'.actorCallChainMap = σ.actorCallChainMap

theorem SameRouting.of_setMsgQueue {queue : List Queued} {infoMap : StdString → List Ref}
    {pidMap : Pid → Option Ref} : SameRouting σ
      { σ.setMsgQueue af queue with actorInfoMap := infoMap, actorPidMap := pidMap } :=
  ⟨fun r => setMsgQueue_isWaiting σ af r queue, fun r => setMsgQueue_callId σ af r queue, rfl⟩

/-- A request that was taken is turned away with all routing as it was, or a callee is selected for it. -/
theorem handleProxyHandleRequest_taken (serviceMap : StdString → Option StdString) {queue : List Queued}
    (hq : (σ.actors af).msgQueue = q :: queue) (hw : (σ.actors af).isWaiting = false) :
    if σ.TurnsAway serviceMap q.pack then
      ∃ σ' why, handleProxyHandleRequest serviceMap σ af = (σ', .refused q why) ∧ SameRouting σ σ'
    else (handleProxyHandleRequest serviceMap σ af).2 = .fault ∨
      ∃ σ' select, handleProxyHandleRequest serviceMap σ af = σ'.dispatch q select ∧ SameRouting σ σ' := by
  unfold handleProxyHandleRequest
  simp only [hq, hw, Bool.false_eq_true, if_false]
  cases hm : serviceMap q.pack.serviceName with
  | none =>
      rw [if_pos (by simp [TurnsAway, hm])]
      exact ⟨_, .notSupported, rfl, .of_setMsgQueue⟩
  | some g =>
      have haway : σ.TurnsAway serviceMap q.pack ↔ σ.actorInfoMap g = [] ∨
          ∃ r ∈ σ.actorInfoMap g, σ.closed r = false ∧ (σ.actors r).callId = q.pack.callId := by
        simp [TurnsAway, hm]
      cases hl : σ.actorInfoMap g with
      | nil =>
          simp only [setMsgQueue_infoMap, hl]
          rw [if_pos (haway.mpr (.inl hl))]
          exact ⟨_, .noActor, rfl, .of_setMsgQueue⟩
      | cons first others =>
          simp only [setMsgQueue_infoMap, hl]
          generalize hs : (σ.setMsgQueue af queue).scan q.pack.callId (first :: others) [] _ _ _ = s
          have hcircular : s.selection = .circular ↔ σ.TurnsAway serviceMap q.pack := by
            rw [← hs, scan_circular_iff, haway, hl]
            simp [closed]
          cases hselection : s.selection with
          | circular =>
              rw [if_pos (hcircular.mp hselection)]
              exact ⟨_, .circular, rfl, .of_setMsgQueue⟩
          | dangling =>
              rw [if_neg fun h => by simp [hcircular.mpr h] at hselection]
              exact .inl rfl
          | selected select =>
              rw [if_neg fun h => by simp [hcircular.mpr h] at hselection]
              exact .inr ⟨_, select, rfl, .of_setMsgQueue⟩

theorem dispatch_chain {r : Ref} {σ' : Registry} {served : Served} (h : σ.dispatch q r = (σ', served)) :
    served = .fault ∨ (served = .buffered q r ∨ served = .writing q r) ∧
      σ'.chain q.pack.callId = σ.chain q.pack.callId ++ [r] := by
  unfold dispatch at h
  split at h
  · exact .inl (Prod.mk.inj h).2.symm
  · refine .inr ?_
    dsimp only at h
    split at h
    · obtain ⟨rfl, rfl⟩ := Prod.mk.inj h
      exact ⟨.inl rfl, by simp [chain, emplace, setChain_chainMap]⟩
    · obtain ⟨rfl, rfl⟩ := Prod.mk.inj h
      exact ⟨.inr rfl, by simp [chain, setChain_chainMap]⟩

end Handle

end Registry

namespace Sys

variable {cfg : Setting} {s t u v : Sys} {k : Conn} {x : Taken}

/-- The socket of the write of `k` takes some more bytes, and no coroutine runs. -/
def Transfers (cfg : Setting) (k : Conn) (s t : Sys) : Prop := ∃ count, s.step cfg (.transfer k count) = some t

/-- The coroutine of `k` calls `handle_proxy_handle_request`, which takes the request and returns in the state `t`
without having delivered or buffered it. No other coroutine has run. -/
inductive Fails (cfg : Setting) (s : Sys) (k : Conn) (x : Taken) : Sys → Prop
  | refused {t : Sys} {why : Refusal} : s.taken k = some x →
      (Registry.handleProxyHandleRequest cfg.serviceMap s.proxy x.af).2 = .refused x.q why →
      s.step cfg (.run k) = some t → Fails cfg s k x t
  | fault {t : Sys} : s.taken k = some x →
      (Registry.handleProxyHandleRequest cfg.serviceMap s.proxy x.af).2 = .fault →
      s.step cfg (.run k) = some t → Fails cfg s k x t
  | write {u v t : Sys} {select : Ref} : s.taken k = some x →
      (Registry.handleProxyHandleRequest cfg.serviceMap s.proxy x.af).2 = .writing x.q select →
      s.step cfg (.run k) = some u → ReflTransGen (Transfers cfg k) u v →
      v.step cfg (.resume k true) = some t → Fails cfg s k x t

/-- Nothing undefined has happened, and the flags, the call ids and the chains are what they were. -/
def Intact (s t : Sys) : Prop := t.fault = false ∧ Registry.SameRouting s.proxy t.proxy

theorem taken_eq_some (h : s.taken k = some x) : ∃ c, s.pc k = .handle x.af c ∧
    (s.proxy.actors x.af).msgQueue = x.q :: x.rest ∧ (s.proxy.actors x.af).isWaiting = false := by
  unfold taken at h
  split at h
  · next af c hpc =>
      split at h
      · next q rest hq =>
          split at h
          · cases h
          · next hw =>
              obtain rfl := Option.some.inj h
              exact ⟨c, hpc, hq, by simpa using hw⟩
      · cases h
  · cases h

theorem step_run (h : s.step cfg (.run k) = some t) : s.fault = false ∧ t = s.onRun cfg k := by
  obtain ⟨⟨hfault, -⟩, h⟩ := Option.ite_none_right_eq_some.mp h
  exact ⟨hfault, (Option.some.inj h).symm⟩

theorem Transfers.proxy (h : ReflTransGen (Transfers cfg k) u v) : v.proxy = u.proxy ∧ v.pc = u.pc := by
  induction h with
  | refl => exact ⟨rfl, rfl⟩
  | tail _ hstep ih =>
      obtain ⟨count, hstep⟩ := hstep
      obtain ⟨-, hstep⟩ := Option.ite_none_right_eq_some.mp hstep
      rw [← Option.some.inj hstep]
      exact ih

theorem resume_failed {q : Queued} {select : Ref} {c : Cont} (hpc : v.pc k = .request q select c)
    (h : v.step cfg (.resume k true) = some t) :
    t.fault = true ∨ t.proxy.actorCallChainMap = v.proxy.actorCallChainMap := by
  obtain ⟨-, h⟩ := Option.ite_none_right_eq_some.mp h
  rw [← Option.some.inj h]
  unfold onResume
  simp only [hpc, if_true]
  split
  · exact .inl rfl
  · exact .inr rfl

theorem onRun_handle {af : Ref} {c : Cont} (hpc : s.pc k = .handle af c) : s.onRun cfg k = s.onHandle cfg k af c := by
  unfold onRun
  rw [hpc]

/-- The chain of a request whose write has started ends with the callee, also after the rollback. -/
theorem write_not_intact (select : Ref) {c : Cont} {σ : Registry} (hpc : s.pc k = .handle x.af c)
    (hserved : Registry.handleProxyHandleRequest cfg.serviceMap s.proxy x.af = (σ, .writing x.q select))
    (hchain : σ.chain x.q.pack.callId ≠ s.proxy.chain x.q.pack.callId)
    (hrun : s.step cfg (.run k) = some u) (htransfers : ReflTransGen (Transfers cfg k) u v)
    (hresume : v.step cfg (.resume k true) = some t) : ¬ Intact s t := by
  rintro ⟨hfault, -, -, hsame⟩
  obtain ⟨-, hu⟩ := step_run hrun
  rw [onRun_handle hpc, onHandle, hserved] at hu
  obtain ⟨hproxy, hpcs⟩ := Transfers.proxy htransfers
  have hupc : u.pc k = .request x.q select c := by
    rw [hu]
    exact Function.update_self _ _ _
  have huproxy : u.proxy = σ := by
    rw [hu]
    rfl
  rcases resume_failed (by rw [hpcs, hupc]) hresume with hbad | hkept
  · rw [hbad] at hfault
    cases hfault
  · apply hchain
    unfold Registry.chain
    rw [← hsame, hkept, hproxy, huproxy]

/-- **Failed dispatch.** A dispatch that fails leaves the routing state intact if and only if the request is turned
away before a callee is selected. -/
theorem intact_iff (h : Fails cfg s k x t) : Intact s t ↔ s.proxy.TurnsAway cfg.serviceMap x.q.pack := by
  have htaken : s.taken k = some x := by cases h <;> assumption
  obtain ⟨c, hpc, hq, hw⟩ := taken_eq_some htaken
  have hhandle := Registry.handleProxyHandleRequest_taken cfg.serviceMap hq hw
  by_cases haway : s.proxy.TurnsAway cfg.serviceMap x.q.pack
  · refine iff_of_true ?_ haway
    rw [if_pos haway] at hhandle
    obtain ⟨σ, why, heq, hsame⟩ := hhandle
    cases h with
    | refused _ _ hst =>
        obtain ⟨hfault, rfl⟩ := step_run hst
        rw [onRun_handle hpc, onHandle, heq]
        exact ⟨hfault, hsame⟩
    | fault _ hserved _ =>
        rw [heq] at hserved
        cases hserved
    | write _ hserved _ _ _ =>
        rw [heq] at hserved
        cases hserved
  · refine iff_of_false ?_ haway
    rw [if_neg haway] at hhandle
    cases h with
    | refused _ hserved _ =>
        rcases hhandle with hbad | ⟨σ, select, heq, -⟩
        · rw [hserved] at hbad
          cases hbad
        · rw [heq] at hserved
          rcases Registry.dispatch_chain (Prod.eta _).symm with hbad | ⟨hbad | hbad, -⟩
          all_goals
            rw [hserved] at hbad
            cases hbad
    | fault _ hserved hst =>
        rintro ⟨hfault, -⟩
        obtain ⟨-, rfl⟩ := step_run hst
        rw [onRun_handle hpc, onHandle] at hfault
        generalize Registry.handleProxyHandleRequest cfg.serviceMap s.proxy x.af = result at hserved hfault
        obtain ⟨σ, served⟩ := result
        cases hserved
        cases hfault
    | @write u v _ select _ hserved hrun htransfers hresume =>
        rcases hhandle with hbad | ⟨σ, select', heq, hsame⟩
        · rw [hserved] at hbad
          cases hbad
        · rw [heq] at hserved
          rcases Registry.dispatch_chain (Prod.eta _).symm with hbad | ⟨-, hchain⟩
          · rw [hserved] at hbad
            cases hbad
          · have hstart : Registry.handleProxyHandleRequest cfg.serviceMap s.proxy x.af =
                ((σ.dispatch x.q select').1, .writing x.q select) := by rw [heq, ← hserved]
            refine write_not_intact select hpc hstart ?_ hrun htransfers hresume
            · rw [hchain, Registry.chain, Registry.chain, hsame.chains]
              intro hlonger
              have hlength := congrArg List.length hlonger
              rw [List.length_append, List.length_singleton] at hlength
              omega

/-- The service of the request is unknown. -/
theorem intact_of_unknown_service : ∃ s t x, Reachable (machine Sample.setting) (Lawful Sample.setting) s ∧
    Fails Sample.setting s 0 x t ∧ Intact s t := by
  obtain ⟨s, t, hr, -, hst, hsome, hrefused, haway⟩ := Reachable.of_takes (machine Sample.setting)
    (Lawful Sample.setting) (Sample.join 0 10 "a" ++ [Sample.request 0 10 "10-1" "svc_c"]) (.run 0)
    (fun s _ => (s.taken 0).isSome = true ∧
      (∀ x ∈ s.taken 0, (Registry.handleProxyHandleRequest Sample.serviceMap s.proxy x.af).2 =
        .refused x.q .notSupported) ∧
      ∀ x ∈ s.taken 0, s.proxy.TurnsAway Sample.serviceMap x.q.pack) (by decide +kernel)
  obtain ⟨x, hx⟩ := Option.isSome_iff_exists.mp hsome
  have hfails : Fails Sample.setting s 0 x t := .refused hx (hrefused x hx) hst
  exact ⟨s, t, x, hr, hfails, (intact_iff hfails).mpr (haway x hx)⟩

/-- Actor 0 asks for a service of actor 1, and the write to actor 1 fails. Actor 1 stays in the chain of the
call. -/
theorem failed_write_keeps_callee : ∃ s t x, Reachable (machine Sample.setting) (Lawful Sample.setting) s ∧
    Fails Sample.setting s 0 x t ∧ s.proxy.chain (ascii "10-1") = [0] ∧ t.proxy.chain (ascii "10-1") = [0, 1] ∧
    ¬ Intact s t := by
  obtain ⟨s, u, hr, -, hrun, hsome, hwriting, hchain, hfailed⟩ := Reachable.of_takes (machine Sample.setting)
    (Lawful Sample.setting)
    (Sample.join 0 10 "a" ++ Sample.join 1 11 "b" ++ [Sample.request 0 10 "10-1" "svc_b"]) (.run 0)
    (fun s u => (s.taken 0).isSome = true ∧
      (∀ x ∈ s.taken 0, (Registry.handleProxyHandleRequest Sample.serviceMap s.proxy x.af).2 = .writing x.q 1) ∧
      s.proxy.chain (ascii "10-1") = [0] ∧
      ((u.step Sample.setting (.resume 0 true)).any fun t => t.proxy.chain (ascii "10-1") = [0, 1]) = true)
    (by decide +kernel)
  obtain ⟨x, hx⟩ := Option.isSome_iff_exists.mp hsome
  obtain ⟨t, hresume, hkept⟩ := Option.any_eq_true _ _ |>.mp hfailed
  have hkept : t.proxy.chain (ascii "10-1") = [0, 1] := of_decide_eq_true hkept
  refine ⟨s, t, x, hr, .write hx (hwriting x hx) hrun .refl hresume, hchain, hkept, fun hintact => ?_⟩
  rw [Registry.chain, hintact.2.chains, ← Registry.chain, hchain] at hkept
  cases hkept

end Sys

end CoroActor.Proxy
