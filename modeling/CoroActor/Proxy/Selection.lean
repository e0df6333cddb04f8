import CoroActor.Proxy.Registries
import Mathlib.Data.List.TakeWhile

/-! The member that a scan selects when sockets of its group have been closed. The loop starts from the first
node, as the best so far and with its backlog as the bound, before it has looked whether that node is open. No step
of the proxy closes a socket, so that what goes wrong here does not show in the runs of the program. -/

namespace CoroActor.Proxy

open TransitionSystem

namespace Registry

/-- The scan of a list that is not empty, as `handle_proxy_handle_request` starts it. -/
def scanGroup (σ : Registry) (callId : StdString) (first : Ref) (others : List Ref) : Scan :=
  σ.scan callId (first :: others) [] σ.actorPidMap (some first) (σ.actors first).msgQueue.length

/-- The members of a list whose sockets are open. -/
def opened (σ : Registry) (l : List Ref) : List Ref := l.filter fun r => !σ.closed r

/-- A scan of the list leaves the open members, and selects one of them with the least backlog. If there is none,
it selects nobody and the iterator is not left on a node that was erased. -/
structure Balanced (σ : Registry) (l : List Ref) (s : Scan) : Prop where
  list : s.list = σ.opened l
  least : σ.opened l ≠ [] → ∃ select, s.selection = .selected select ∧ select ∈ s.list ∧
    ∀ r ∈ s.list, σ.backlog select ≤ σ.backlog r
  nobody : σ.opened l = [] → s.selection ≠ .dangling ∧ ∀ select, s.selection ≠ .selected select

section Scan

variable {σ : Registry} {callId : StdString} {r a first : Ref} {l kept others : List Ref}
  {pidMap : Pid → Option Ref} {select : Option Ref} {minQueSize : Nat}

theorem mem_opened : r ∈ σ.opened l ↔ r ∈ l ∧ σ.closed r = false := by
  rw [opened, List.mem_filter, Bool.not_eq_true']

theorem opened_cons_of_closed (hc : σ.closed r = true) : σ.opened (r :: l) = σ.opened l :=
  List.filter_cons_of_neg (by simp [hc])

theorem opened_cons_of_open (hc : σ.closed r = false) : σ.opened (r :: l) = r :: σ.opened l :=
  List.filter_cons_of_pos (by simp [hc])

theorem scan_list_opened (hcall : ∀ r ∈ l, (σ.actors r).callId ≠ callId) :
    (σ.scan callId l kept pidMap select minQueSize).list = kept ++ σ.opened l := by
  have hall : σ.visited callId l = l := by
    rw [visited, List.takeWhile_eq_self_iff]
    intro r hr
    rw [decide_eq_true (hcall r hr), Bool.or_true]
  rw [scan_list, hall, List.drop_length, List.append_nil, opened]

theorem scan_open (hc : σ.closed r = false) (hid : (σ.actors r).callId ≠ callId) :
    σ.scan callId (r :: l) kept pidMap select minQueSize =
      if σ.backlog r < minQueSize then σ.scan callId l (kept ++ [r]) pidMap (some r) (σ.backlog r)
      else σ.scan callId l (kept ++ [r]) pidMap select minQueSize := by
  rw [scan, if_neg (by simpa [closed] using hc), if_neg hid]
  rfl

theorem least_append {n : Nat} (h : ∀ x ∈ kept, n ≤ σ.backlog x) (hr : n ≤ σ.backlog r) :
    ∀ x ∈ kept ++ [r], n ≤ σ.backlog x :=
  List.forall_mem_append.mpr ⟨h, List.forall_mem_singleton.mpr hr⟩

/-- Once the best so far is open and has been kept, the scan is a running minimum. -/
theorem scan_least (hcall : ∀ r ∈ l, (σ.actors r).callId ≠ callId) (ha : a ∈ kept) (hopen : σ.closed a = false)
    (hmin : ∀ r ∈ kept, σ.backlog a ≤ σ.backlog r) :
    ∃ m, (σ.scan callId l kept pidMap (some a) (σ.backlog a)).selection = .selected m ∧
      m ∈ kept ++ σ.opened l ∧ ∀ r ∈ kept ++ σ.opened l, σ.backlog m ≤ σ.backlog r := by
  induction l generalizing kept pidMap a with
  | nil =>
      refine ⟨a, rfl, List.mem_append_left _ ha, fun r hr => ?_⟩
      rw [opened, List.filter_nil, List.append_nil] at hr
      exact hmin r hr
  | cons r rest ih =>
      have hrest : ∀ r ∈ rest, (σ.actors r).callId ≠ callId := fun x hx => hcall x (List.mem_cons_of_mem r hx)
      rcases Bool.eq_false_or_eq_true (σ.closed r) with hc | hc
      · have hne : ¬ some a = some r := by
          rintro heq
          rw [Option.some.inj heq, hc] at hopen
          cases hopen
        rw [scan_closed hc, if_neg hne, opened_cons_of_closed hc]
        exact ih hrest ha hopen hmin
      · rw [scan_open hc (hcall r List.mem_cons_self), opened_cons_of_open hc,
          show kept ++ r :: σ.opened rest = kept ++ [r] ++ σ.opened rest by simp]
        by_cases hlt : σ.backlog r < σ.backlog a
        · rw [if_pos hlt]
          apply ih hrest (List.mem_append_right _ (List.mem_singleton_self r)) hc
          exact least_append (fun x hx => hlt.le.trans (hmin x hx)) le_rfl
        · rw [if_neg hlt]
          apply ih hrest (List.mem_append_left _ ha) hopen
          exact least_append hmin (Nat.le_of_not_lt hlt)

/-- When the node of the iterator has been erased, only an open member below the bound replaces it. -/
theorem scan_erased (kept : List Ref) (pidMap : Pid → Option Ref) (minQueSize : Nat)
    (hcall : ∀ r ∈ l, (σ.actors r).callId ≠ callId) (hmin : ∀ r ∈ kept, minQueSize ≤ σ.backlog r) :
    if ∃ r ∈ σ.opened l, σ.backlog r < minQueSize then
      ∃ m, (σ.scan callId l kept pidMap none minQueSize).selection = .selected m ∧
        m ∈ kept ++ σ.opened l ∧ ∀ r ∈ kept ++ σ.opened l, σ.backlog m ≤ σ.backlog r
    else (σ.scan callId l kept pidMap none minQueSize).selection = .dangling := by
  induction l generalizing kept pidMap with
  | nil =>
      rw [if_neg (by simp [opened])]
      rfl
  | cons r rest ih =>
      have hrest : ∀ r ∈ rest, (σ.actors r).callId ≠ callId := fun x hx => hcall x (List.mem_cons_of_mem r hx)
      rcases Bool.eq_false_or_eq_true (σ.closed r) with hc | hc
      · rw [scan_closed hc, ite_self, opened_cons_of_closed hc]
        exact ih kept _ hrest hmin
      · rw [scan_open hc (hcall r List.mem_cons_self), opened_cons_of_open hc,
          show kept ++ r :: σ.opened rest = kept ++ [r] ++ σ.opened rest by simp]
        by_cases hlt : σ.backlog r < minQueSize
        · rw [if_pos hlt, if_pos ⟨r, List.mem_cons_self, hlt⟩]
          apply scan_least hrest (List.mem_append_right _ (List.mem_singleton_self r)) hc
          exact least_append (fun x hx => hlt.le.trans (hmin x hx)) le_rfl
        · have hbetter : (∃ x ∈ r :: σ.opened rest, σ.backlog x < minQueSize) ↔
              ∃ x ∈ σ.opened rest, σ.backlog x < minQueSize := by
            rw [List.exists_mem_cons_iff, or_iff_right hlt]
          simp only [if_neg hlt, hbetter]
          apply ih (kept ++ [r]) pidMap hrest
          exact least_append hmin (Nat.le_of_not_lt hlt)

end Scan

/-- **Selection.** For every group that no member of works for the call, the scan is balanced exactly when the
first node is open or some open member has a smaller backlog than it. -/
theorem scanGroup_balanced_iff (σ : Registry) (callId : StdString) (first : Ref) (others : List Ref)
    (hbusy : ¬ σ.Busy callId (first :: others)) :
    σ.Balanced (first :: others) (σ.scanGroup callId first others) ↔
      σ.closed first = false ∨ ∃ r ∈ others, σ.closed r = false ∧ σ.backlog r < σ.backlog first := by
  have hcall : ∀ r ∈ first :: others, (σ.actors r).callId ≠ callId := fun r hr hid => hbusy ⟨r, hr, hid⟩
  have hrest : ∀ r ∈ others, (σ.actors r).callId ≠ callId := fun r hr => hcall r (List.mem_cons_of_mem first hr)
  have hlist : (σ.scanGroup callId first others).list = σ.opened (first :: others) := scan_list_opened hcall
  have hbalanced : σ.opened (first :: others) ≠ [] →
      (∃ m, (σ.scanGroup callId first others).selection = .selected m ∧ m ∈ σ.opened (first :: others) ∧
        ∀ r ∈ σ.opened (first :: others), σ.backlog m ≤ σ.backlog r) →
      σ.Balanced (first :: others) (σ.scanGroup callId first others) := by
    intro hne hleast
    rw [← hlist] at hleast
    exact ⟨hlist, fun _ => hleast, fun hempty => absurd hempty hne⟩
  rcases Bool.eq_false_or_eq_true (σ.closed first) with hc | hc
  · have hscan : σ.scanGroup callId first others = σ.scan callId others []
        (Function.update σ.actorPidMap (σ.actors first).pid none) none (σ.backlog first) := by
      rw [scanGroup, scan_closed hc, if_pos rfl]
      rfl
    have herased := scan_erased [] (Function.update σ.actorPidMap (σ.actors first).pid none) (σ.backlog first) hrest
      (fun r hr => absurd hr List.not_mem_nil)
    rw [← hscan, ← opened_cons_of_closed hc, List.nil_append] at herased
    have hcond : (σ.closed first = false ∨ ∃ r ∈ others, σ.closed r = false ∧ σ.backlog r < σ.backlog first) ↔
        ∃ r ∈ σ.opened (first :: others), σ.backlog r < σ.backlog first := by
      rw [hc, opened_cons_of_closed hc]
      simp [mem_opened, and_assoc]
    rw [hcond]
    constructor
    · intro hb
      by_contra hnone
      rw [if_neg hnone] at herased
      by_cases hempty : σ.opened (first :: others) = []
      · exact (hb.nobody hempty).1 herased
      · obtain ⟨m, hm, -⟩ := hb.least hempty
        rw [herased] at hm
        cases hm
    · intro hbetter
      rw [if_pos hbetter] at herased
      obtain ⟨r, hr, -⟩ := hbetter
      exact hbalanced (List.ne_nil_of_mem hr) herased
  · refine iff_of_true ?_ (.inl hc)
    have hopened := opened_cons_of_open (l := others) hc
    apply hbalanced
    · rw [hopened]
      exact List.cons_ne_nil _ _
    · have hscan : σ.scanGroup callId first others =
          σ.scan callId others [first] σ.actorPidMap (some first) (σ.backlog first) := by
        rw [scanGroup, scan_open hc (hcall first List.mem_cons_self)]
        exact if_neg (Nat.lt_irrefl _)
      rw [hscan, hopened]
      apply scan_least hrest (List.mem_singleton_self first) hc
      intro r hr
      rw [List.mem_singleton.mp hr]

/-- What `handle_proxy_handle_request` does with the scan. A dangling iterator is dereferenced. -/
theorem handleProxyHandleRequest_scanGroup {serviceMap : StdString → Option StdString} {σ : Registry} {af first : Ref}
    {others : List Ref} {q : Queued} {rest : List Queued} {g : StdString} (hq : (σ.actors af).msgQueue = q :: rest)
    (hw : (σ.actors af).isWaiting = false) (hg : serviceMap q.pack.serviceName = some g)
    (hl : σ.actorInfoMap g = first :: others) :
    let s := (σ.setMsgQueue af rest).scanGroup q.pack.callId first others
    let σ' : Registry := { σ.setMsgQueue af rest with
      actorInfoMap := Function.update σ.actorInfoMap g s.list
      actorPidMap := s.pidMap }
    handleProxyHandleRequest serviceMap σ af =
      match s.selection with
      | .circular => (σ', .refused q .circular)
      | .dangling => (σ', .fault)
      | .selected select => σ'.dispatch q select := by
  unfold handleProxyHandleRequest
  simp only [hq, hw, hg, setMsgQueue_infoMap, hl]
  rfl

namespace Sample

/-- Actors 0 and 1 of group "a" and the request of actor 2 for its service, when connection `k` has been
closed. -/
def closedMember (k : Conn) : List Event :=
  [.connect 0 ⟨9, ascii "a"⟩, .connect 1 ⟨10, ascii "a"⟩, .connect 2 ⟨12, ascii "d"⟩, .close k,
    .enqueue 2 [⟨0, ⟨12, ascii "12-1", ascii "svc_a", ⟨0, []⟩⟩⟩]]

end Sample

/-- The second of two members is closed, and the scan selects the first. -/
theorem scanGroup_balanced_sample : ∃ σ, Reachable (registryMachine Sample.serviceMap) Distinct σ ∧
    σ.closed 1 = true ∧ σ.Balanced [0, 1] (σ.scanGroup (ascii "12-1") 0 [1]) := by
  obtain ⟨σ, hr, hclosed, hopen, hbusy⟩ := Reachable.of_leadsTo (registryMachine Sample.serviceMap) Distinct
    (Sample.closedMember 1)
    (fun σ => σ.closed 1 = true ∧ σ.closed 0 = false ∧ ¬ σ.Busy (ascii "12-1") [0, 1]) (by decide +kernel)
  exact ⟨σ, hr, hclosed, (scanGroup_balanced_iff σ (ascii "12-1") 0 [1] hbusy).mpr (.inl hopen)⟩

/-- The first of two members is closed. Both backlogs are empty, so the open member is not selected and the
iterator dangles. -/
theorem scanGroup_dangling : ∃ σ, Reachable (registryMachine Sample.serviceMap) Distinct σ ∧
    σ.actorInfoMap (ascii "a") = [0, 1] ∧ ¬ σ.Busy (ascii "12-1") [0, 1] ∧
    ¬ σ.Balanced [0, 1] (σ.scanGroup (ascii "12-1") 0 [1]) ∧
    (handleProxyHandleRequest Sample.serviceMap σ 2).2 = .fault := by
  obtain ⟨σ, hr, hlist, hbusy, hopen, hdangling, hfault⟩ := Reachable.of_leadsTo
    (registryMachine Sample.serviceMap) Distinct (Sample.closedMember 0)
    (fun σ => σ.actorInfoMap (ascii "a") = [0, 1] ∧ ¬ σ.Busy (ascii "12-1") [0, 1] ∧
      σ.opened [0, 1] = [1] ∧ (σ.scanGroup (ascii "12-1") 0 [1]).selection = .dangling ∧
      (handleProxyHandleRequest Sample.serviceMap σ 2).2 = .fault) (by decide +kernel)
  refine ⟨σ, hr, hlist, hbusy, fun hb => ?_, hfault⟩
  obtain ⟨m, hm, -⟩ := hb.least (by rw [hopen]; exact List.cons_ne_nil _ _)
  rw [hdangling] at hm
  cases hm

end Registry

end CoroActor.Proxy
