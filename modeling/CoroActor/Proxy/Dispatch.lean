import CoroActor.Proxy.State
import Mathlib.Data.List.MinMax

/-! `handle_proxy_handle_request`, from its start to its first suspension: take the front of the queue,
find the group of the service, scan the group for the member with the least backlog, and either buffer
the request at that member or start to write it. The second half of the module says what the scan of a
group of open sockets computes, without its accumulators. -/

namespace CoroActor.Proxy

/-- Why a request that was taken from a queue goes nowhere. -/
inductive Refusal where
  | notSupported
  | noActor
  | circular
  deriving DecidableEq

/-- What a call of `handle_proxy_handle_request` has done when it returns or suspends. -/
inductive Served where
  | idle
  | refused (q : Queued) (why : Refusal)
  | buffered (q : Queued) (select : Ref)
  | writing (q : Queued) (select : Ref)
  | fault
  deriving DecidableEq

/-- The end of the scan. The iterator `select_iter` dangles when its node has been erased. -/
inductive Selection where
  | circular
  | selected (select : Ref)
  | dangling
  deriving DecidableEq

structure Scan where
  list : List Ref
  pidMap : Pid → Option Ref
  selection : Selection

namespace Registry

/-- The loop over `actor_info_list`: the nodes still to visit, the nodes kept, `actor_pid_map`,
`select_iter` and `min_que_size`. -/
def scan (σ : Registry) (callId : StdString) :
    List Ref → List Ref → (Pid → Option Ref) → Option Ref → Nat → Scan
  | [], kept, pidMap, select, _ =>
      ⟨kept, pidMap, match select with
        | some r => .selected r
        | none => .dangling⟩
  | r :: rest, kept, pidMap, select, minQueSize =>
      if σ.isOpen (σ.actors r).socket = false then
        scan σ callId rest kept (Function.update pidMap (σ.actors r).pid none)
          (if select = some r then none else select) minQueSize
      else if (σ.actors r).callId = callId then
        ⟨kept ++ r :: rest, pidMap, .circular⟩
      else if (σ.actors r).msgQueue.length < minQueSize then
        scan σ callId rest (kept ++ [r]) pidMap (some r) (σ.actors r).msgQueue.length
      else
        scan σ callId rest (kept ++ [r]) pidMap select minQueSize

/-- The part after the scan. `actor_pid_map[pack.pid]` is dereferenced without a check. -/
def dispatch (σ : Registry) (q : Queued) (select : Ref) : Registry × Served :=
  match σ.actorPidMap q.pack.pid with
  | none => (σ, .fault)
  | some issuer =>
      -- the issuer waits from here on, and the callee joins the chain
      let σ₁ := (σ.updateActorInfo issuer q.pack.callId true).setChain q.pack.callId
        (σ.chain q.pack.callId ++ [select])
      if (σ₁.actors select).isWaiting then
        (σ₁.emplace select q, .buffered q select)
      else
        (σ₁.updateActorInfo select q.pack.callId false, .writing q select)

/-- `handle_proxy_handle_request` up to its `co_return` or its `async_write`. -/
def handleProxyHandleRequest (serviceMap : StdString → Option StdString) (σ : Registry) (af : Ref) :
    Registry × Served :=
  match (σ.actors af).msgQueue with
  | [] => (σ, .idle)
  | q :: rest =>
      if (σ.actors af).isWaiting then (σ, .idle)
      else
        let σ := σ.setMsgQueue af rest
        match serviceMap q.pack.serviceName with
        | none => (σ, .refused q .notSupported)
        | some actorName =>
            match σ.actorInfoMap actorName with
            | [] => (σ, .refused q .noActor)
            | first :: others =>
                let s := σ.scan q.pack.callId (first :: others) [] σ.actorPidMap (some first)
                  (σ.actors first).msgQueue.length
                let σ := { σ with
                  actorInfoMap := Function.update σ.actorInfoMap actorName s.list
                  actorPidMap := s.pidMap }
                match s.selection with
                | .circular => (σ, .refused q .circular)
                | .dangling => (σ, .fault)
                | .selected select => σ.dispatch q select

/-! ### What the scan computes -/

/-- The backlog that members are compared by. -/
def backlog (σ : Registry) (r : Ref) : Nat := (σ.actors r).msgQueue.length

/-- Some member of the list works for this call, as far as its `call_id` says. -/
def Busy (σ : Registry) (callId : StdString) (l : List Ref) : Prop :=
  ∃ r ∈ l, (σ.actors r).callId = callId

instance (σ : Registry) (callId : StdString) (l : List Ref) : Decidable (σ.Busy callId l) :=
  inferInstanceAs (Decidable (∃ r ∈ l, (σ.actors r).callId = callId))

@[simp] theorem setMsgQueue_busy (σ : Registry) (af : Ref) (queue : List Queued) (callId : StdString)
    (l : List Ref) : (σ.setMsgQueue af queue).Busy callId l ↔ σ.Busy callId l := by
  simp only [Busy, setMsgQueue_callId]

/-- Where a request goes: to the member of the group of its service with the least backlog, the first
among equals, unless a member of the group works for its call. -/
def route (serviceMap : StdString → Option StdString) (σ : Registry) (p : CoroActorRequest) :
    Except Refusal Ref :=
  match serviceMap p.serviceName with
  | none => .error .notSupported
  | some actorName =>
      match (σ.actorInfoMap actorName).argmin σ.backlog with
      | none => .error .noActor
      | some select =>
          if σ.Busy p.callId (σ.actorInfoMap actorName) then .error .circular else .ok select

theorem route_ok {serviceMap : StdString → Option StdString} {σ : Registry} {p : CoroActorRequest}
    {select : Ref} (h : σ.route serviceMap p = .ok select) : ∃ actorName,
      serviceMap p.serviceName = some actorName ∧
      (σ.actorInfoMap actorName).argmin σ.backlog = some select ∧
      ¬ σ.Busy p.callId (σ.actorInfoMap actorName) := by
  unfold route at h
  split at h
  · cases h
  · next actorName hm =>
      split at h
      · cases h
      · next r hr =>
          split at h
          · cases h
          · next hbusy =>
              cases h
              exact ⟨actorName, hm, hr, hbusy⟩

/-- The step of `List.argmin`: keep the earlier element unless the later one is strictly less. -/
def leastStep (σ : Registry) : Option Ref → Ref → Option Ref :=
  List.argAux fun b c => σ.backlog b < σ.backlog c

theorem scan_of_open (σ : Registry) (hopen : ∀ k, σ.isOpen k = true) (callId : StdString) (l : List Ref) :
    ∀ (kept : List Ref) (pidMap : Pid → Option Ref) (a : Ref),
      σ.scan callId l kept pidMap (some a) (σ.backlog a) =
        ⟨kept ++ l, pidMap, if σ.Busy callId l then .circular else
          match l.foldl σ.leastStep (some a) with
          | some r => .selected r
          | none => .dangling⟩ := by
  induction l with
  | nil =>
      intro kept pidMap a
      have hbusy : ¬ σ.Busy callId [] := by rintro ⟨_, hr, _⟩; cases hr
      rw [if_neg hbusy, List.append_nil]
      rfl
  | cons r rest ih =>
      intro kept pidMap a
      rw [scan, if_neg (by rw [hopen]; exact Bool.true_eq_false_eq_False)]
      by_cases hc : (σ.actors r).callId = callId
      · rw [if_pos hc, if_pos ⟨r, List.mem_cons_self, hc⟩]
      · have hbusy : σ.Busy callId (r :: rest) ↔ σ.Busy callId rest := by
          simp only [Busy, List.exists_mem_cons_iff, hc, false_or]
        rw [if_neg hc, List.foldl_cons, show kept ++ r :: rest = kept ++ [r] ++ rest by simp]
        simp only [hbusy]
        by_cases hlt : (σ.actors r).msgQueue.length < σ.backlog a
        · have hstep : σ.leastStep (some a) r = some r := if_pos hlt
          rw [if_pos hlt, hstep]
          exact ih _ _ r
        · have hstep : σ.leastStep (some a) r = some a := if_neg hlt
          rw [if_neg hlt, hstep]
          exact ih _ _ a

theorem argmin_cons_eq_foldl (σ : Registry) (first : Ref) (others : List Ref) :
    (first :: others).argmin σ.backlog = (first :: others).foldl σ.leastStep (some first) := by
  have hself : σ.leastStep (some first) first = some first := if_neg (lt_irrefl _)
  rw [List.foldl_cons, hself]
  rfl

/-- **Dispatch by route.** As long as no socket has been closed, `handle_proxy_handle_request` takes the
front of the queue of an actor that is not waiting and dispatches it along `route`, or drops it; the
scan changes nothing. -/
theorem handleProxyHandleRequest_eq (serviceMap : StdString → Option StdString) (σ : Registry)
    (hopen : ∀ k, σ.isOpen k = true) (af : Ref) :
    handleProxyHandleRequest serviceMap σ af =
      match (σ.actors af).msgQueue with
      | [] => (σ, .idle)
      | q :: rest =>
          if (σ.actors af).isWaiting then (σ, .idle)
          else match (σ.setMsgQueue af rest).route serviceMap q.pack with
            | .error why => (σ.setMsgQueue af rest, .refused q why)
            | .ok select => (σ.setMsgQueue af rest).dispatch q select := by
  unfold handleProxyHandleRequest
  cases hq : (σ.actors af).msgQueue with
  | nil => rfl
  | cons q rest =>
      by_cases hw : (σ.actors af).isWaiting = true
      · simp only [hw, if_true]
      · simp only [hw, if_false, route, Bool.false_eq_true]
        generalize hσ : σ.setMsgQueue af rest = σ'
        have hopen' : ∀ k, σ'.isOpen k = true := by rw [← hσ]; exact hopen
        cases serviceMap q.pack.serviceName with
        | none => rfl
        | some actorName =>
            cases hl : σ'.actorInfoMap actorName with
            | nil => simp only [hl, List.argmin_nil]
            | cons first others =>
                have hscan := σ'.scan_of_open hopen' q.pack.callId (first :: others) [] σ'.actorPidMap first
                have hsame : ({ σ' with
                    actorInfoMap := Function.update σ'.actorInfoMap actorName (first :: others)
                    actorPidMap := σ'.actorPidMap } : Registry) = σ' := by
                  rw [← hl, Function.update_eq_self]
                simp only [backlog, List.nil_append] at hscan
                simp only [hl, hscan, hsame]
                obtain ⟨r, hr⟩ : ∃ r, (first :: others).argmin σ'.backlog = some r := by
                  cases hm : (first :: others).argmin σ'.backlog with
                  | none => exact absurd (List.argmin_eq_none.mp hm) (List.cons_ne_nil _ _)
                  | some r => exact ⟨r, rfl⟩
                have hfold := σ'.argmin_cons_eq_foldl first others ▸ hr
                simp only [hr, hfold]
                by_cases hbusy : σ'.Busy q.pack.callId (first :: others)
                · simp only [hbusy, if_true]
                · simp only [hbusy, if_false]

end Registry

end CoroActor.Proxy
