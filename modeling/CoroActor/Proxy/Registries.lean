import CoroActor.Proxy.Rules
import Mathlib.Data.List.Nodup

/-! The two registries of the proxy while sockets become closed. CONNECT adds an actor to the list of its name
and takes over the entry of its pid; the scan of a later request removes the closed actors it comes to, and
erases an entry for each by its pid. The machine of this module has the operations on the registry as steps;
the queues, the flags and the chains, which neither of the two maps depends on, change in any way.

No step of the proxy closes a socket: the coroutine of a lost connection leaves it open. The removal is there for
sockets that are closed, and what it does wrong does not show as long as none is. -/

namespace CoroActor.Proxy

open TransitionSystem

namespace Registry

/-- The CONNECT case, up to its reply. -/
def connect (σ : Registry) (k : Conn) (p : CoroActorConnect) : Registry :=
  { σ with
    nactors := σ.nactors + 1
    actors := Function.update σ.actors σ.nactors ⟨p.name, p.pid, false, [], [], k⟩
    actorPidMap := Function.update σ.actorPidMap p.pid (some σ.nactors)
    actorInfoMap := Function.update σ.actorInfoMap p.name (σ.actorInfoMap p.name ++ [σ.nactors]) }

/-- The socket of the actor is closed. -/
def closed (σ : Registry) (r : Ref) : Bool := !σ.isOpen (σ.actors r).socket

/-- The members of a list that the scan comes to: it ends at an open one that works for the call. -/
def visited (σ : Registry) (callId : StdString) (l : List Ref) : List Ref :=
  l.takeWhile fun r => σ.closed r || decide ((σ.actors r).callId ≠ callId)

/-- The members that the scan removes. -/
def removed (σ : Registry) (callId : StdString) (l : List Ref) : List Ref :=
  (σ.visited callId l).filter σ.closed

/-- What the scan erases: for each removed actor, the entry that its pid has at that time. -/
def erasures (σ : Registry) (callId : StdString) : List Ref → (Pid → Option Ref) → List (Ref × Option Ref)
  | [], _ => []
  | r :: rest, pidMap =>
      if σ.closed r = true then
        (r, pidMap (σ.actors r).pid) ::
          erasures σ callId rest (Function.update pidMap (σ.actors r).pid none)
      else if (σ.actors r).callId = callId then []
      else erasures σ callId rest pidMap

/-- The scan that a call of `handle_proxy_handle_request` makes: the call and the list. -/
def scans (serviceMap : StdString → Option StdString) (σ : Registry) (af : Ref) :
    Option (StdString × StdString) :=
  match (σ.actors af).msgQueue with
  | [] => none
  | q :: _ =>
      if (σ.actors af).isWaiting then none
      else (serviceMap q.pack.serviceName).map fun actorName => (q.pack.callId, actorName)

section Scan

variable {σ : Registry} {callId : StdString} {r : Ref} {l : List Ref}

theorem mem_removed : r ∈ σ.removed callId l ↔ r ∈ σ.visited callId l ∧ σ.closed r = true := by
  rw [removed, List.mem_filter]

theorem visited_cons_of_closed (hc : σ.closed r = true) :
    σ.visited callId (r :: l) = r :: σ.visited callId l :=
  List.takeWhile_cons_of_pos (by simp [hc])

theorem visited_cons_of_other (hid : (σ.actors r).callId ≠ callId) :
    σ.visited callId (r :: l) = r :: σ.visited callId l :=
  List.takeWhile_cons_of_pos (by simp [hid])

theorem visited_cons_of_busy (hc : σ.closed r = false) (hid : (σ.actors r).callId = callId) :
    σ.visited callId (r :: l) = [] :=
  List.takeWhile_cons_of_neg (by simp [hc, hid])

theorem removed_cons_of_closed (hc : σ.closed r = true) : σ.removed callId (r :: l) = r :: σ.removed callId l := by
  rw [removed, visited_cons_of_closed hc, List.filter_cons_of_pos (by simp [hc]), removed]

theorem removed_cons_of_other (hc : σ.closed r = false) (hid : (σ.actors r).callId ≠ callId) :
    σ.removed callId (r :: l) = σ.removed callId l := by
  rw [removed, visited_cons_of_other hid, List.filter_cons_of_neg (by simp [hc]), removed]

theorem removed_cons_of_busy (hc : σ.closed r = false) (hid : (σ.actors r).callId = callId) :
    σ.removed callId (r :: l) = [] := by
  rw [removed, visited_cons_of_busy hc hid, List.filter_nil]

section Step

variable {kept : List Ref} {pidMap : Pid → Option Ref} {select : Option Ref} {minQueSize : Nat}

theorem scan_closed (hc : σ.closed r = true) : σ.scan callId (r :: l) kept pidMap select minQueSize =
    σ.scan callId l kept (Function.update pidMap (σ.actors r).pid none)
      (if select = some r then none else select) minQueSize := by
  rw [scan, if_pos (by simpa [closed] using hc)]

theorem scan_busy (hc : σ.closed r = false) (hid : (σ.actors r).callId = callId) :
    σ.scan callId (r :: l) kept pidMap select minQueSize = ⟨kept ++ r :: l, pidMap, .circular⟩ := by
  rw [scan, if_neg (by simpa [closed] using hc)]
  exact if_pos hid

theorem scan_other (hc : σ.closed r = false) (hid : (σ.actors r).callId ≠ callId) : ∃ select' minQueSize',
    σ.scan callId (r :: l) kept pidMap select minQueSize =
      σ.scan callId l (kept ++ [r]) pidMap select' minQueSize' := by
  rw [scan, if_neg (by simpa [closed] using hc), if_neg hid]
  split
  · exact ⟨_, _, rfl⟩
  · exact ⟨_, _, rfl⟩

end Step

/-- The scan leaves what it did not remove, in its old order. -/
theorem scan_list (σ : Registry) (callId : StdString) (l : List Ref) :
    ∀ (kept : List Ref) (pidMap : Pid → Option Ref) (select : Option Ref) (minQueSize : Nat),
      (σ.scan callId l kept pidMap select minQueSize).list =
        kept ++ (σ.visited callId l).filter (fun r => !σ.closed r) ++
          l.drop (σ.visited callId l).length := by
  induction l with
  | nil =>
      intro kept pidMap select minQueSize
      simp [scan, visited]
  | cons r rest ih =>
      intro kept pidMap select minQueSize
      rcases Bool.eq_false_or_eq_true (σ.closed r) with hc | hc
      · rw [scan_closed hc, ih, visited_cons_of_closed hc, List.filter_cons_of_neg (by simp [hc])]
        rfl
      · by_cases hid : (σ.actors r).callId = callId
        · rw [scan_busy hc hid, visited_cons_of_busy hc hid]
          simp
        · obtain ⟨select', minQueSize', heq⟩ := scan_other hc hid
          rw [heq, ih, visited_cons_of_other hid, List.filter_cons_of_pos (by simp [hc])]
          simp

/-- The scan erases the entries of the pids of what it removed. -/
theorem scan_pidMap (σ : Registry) (callId : StdString) (l : List Ref) :
    ∀ (kept : List Ref) (pidMap : Pid → Option Ref) (select : Option Ref) (minQueSize : Nat) (pid : Pid),
      (σ.scan callId l kept pidMap select minQueSize).pidMap pid =
        if ∃ r ∈ σ.removed callId l, (σ.actors r).pid = pid then none else pidMap pid := by
  induction l with
  | nil =>
      intro kept pidMap select minQueSize pid
      simp [scan, removed, visited]
  | cons r rest ih =>
      intro kept pidMap select minQueSize pid
      rcases Bool.eq_false_or_eq_true (σ.closed r) with hc | hc
      · rw [scan_closed hc, ih, removed_cons_of_closed hc, Function.update_apply]
        by_cases hpid : pid = (σ.actors r).pid
        · simp [hpid]
        · simp [hpid, Ne.symm hpid]
      · by_cases hid : (σ.actors r).callId = callId
        · rw [scan_busy hc hid, removed_cons_of_busy hc hid]
          simp
        · obtain ⟨select', minQueSize', heq⟩ := scan_other hc hid
          rw [heq, ih, removed_cons_of_other hc hid]

end Scan

/-- The list of a name after a scan, if one is made. -/
def listAfter (σ : Registry) (g : StdString) : Option (StdString × StdString) → List Ref
  | some (callId, g') =>
      if g = g' then
        (σ.visited callId (σ.actorInfoMap g)).filter (fun r => !σ.closed r) ++
          (σ.actorInfoMap g).drop (σ.visited callId (σ.actorInfoMap g)).length
      else σ.actorInfoMap g
  | none => σ.actorInfoMap g

/-- The entry of a pid after a scan, if one is made. -/
def entryAfter (σ : Registry) (pid : Pid) : Option (StdString × StdString) → Option Ref
  | some (callId, g) =>
      if ∃ r ∈ σ.removed callId (σ.actorInfoMap g), (σ.actors r).pid = pid then none else σ.actorPidMap pid
  | none => σ.actorPidMap pid

@[simp] theorem listAfter_none (σ : Registry) (g : StdString) : σ.listAfter g none = σ.actorInfoMap g := rfl

@[simp] theorem entryAfter_none (σ : Registry) (pid : Pid) : σ.entryAfter pid none = σ.actorPidMap pid := rfl

/-- The two maps change by the scan that is made, and of an actor nothing but its flag, its call id and its
queue. -/
structure Scanned (σ σ' : Registry) (scan : Option (StdString × StdString)) : Prop where
  nactors : σ'.nactors = σ.nactors
  isOpen : σ'.isOpen = σ.isOpen
  name : ∀ r, (σ'.actors r).name = (σ.actors r).name
  pid : ∀ r, (σ'.actors r).pid = (σ.actors r).pid
  socket : ∀ r, (σ'.actors r).socket = (σ.actors r).socket
  infoMap : ∀ g, σ'.actorInfoMap g = σ.listAfter g scan
  pidMap : ∀ pid, σ'.actorPidMap pid = σ.entryAfter pid scan

section Handle

variable {σ σ' σ'' : Registry} {callId g : StdString}

theorem Scanned.trans {scan : Option (StdString × StdString)} (h : Scanned σ σ' scan)
    (h' : Scanned σ' σ'' none) : Scanned σ σ'' scan where
  nactors := h'.nactors.trans h.nactors
  isOpen := h'.isOpen.trans h.isOpen
  name r := (h'.name r).trans (h.name r)
  pid r := (h'.pid r).trans (h.pid r)
  socket r := (h'.socket r).trans (h.socket r)
  infoMap g := (h'.infoMap g).trans (h.infoMap g)
  pidMap pid := (h'.pidMap pid).trans (h.pidMap pid)

theorem dispatch_scanned (σ : Registry) (q : Queued) (select : Ref) :
    Scanned σ (σ.dispatch q select).1 none := by
  unfold dispatch
  split
  · constructor <;> intros <;> rfl
  · dsimp only
    split
    · constructor <;> simp [emplace]
    · constructor <;> simp

theorem setMsgQueue_visited (σ : Registry) (af : Ref) (queue : List Queued) (callId : StdString)
    (l : List Ref) : (σ.setMsgQueue af queue).visited callId l = σ.visited callId l := by
  simp only [visited, closed, setMsgQueue_isOpen, setMsgQueue_socket, setMsgQueue_callId]

theorem setMsgQueue_removed (σ : Registry) (af : Ref) (queue : List Queued) (callId : StdString)
    (l : List Ref) : (σ.setMsgQueue af queue).removed callId l = σ.removed callId l := by
  have hclosed : (σ.setMsgQueue af queue).closed = σ.closed := by
    funext r
    simp only [closed, setMsgQueue_isOpen, setMsgQueue_socket]
  rw [removed, removed, setMsgQueue_visited, hclosed]

/-- The registry after the scan for a request that was taken. -/
theorem scanned_of_scan (af : Ref) (rest : List Queued) (select : Option Ref) (minQueSize : Nat) {s : Scan}
    (hs : s = (σ.setMsgQueue af rest).scan callId (σ.actorInfoMap g) [] σ.actorPidMap select minQueSize) :
    Scanned σ { σ.setMsgQueue af rest with
      actorInfoMap := Function.update σ.actorInfoMap g s.list
      actorPidMap := s.pidMap } (some (callId, g)) where
  nactors := rfl
  isOpen := rfl
  name r := setMsgQueue_name σ af r rest
  pid r := setMsgQueue_pid σ af r rest
  socket r := setMsgQueue_socket σ af r rest
  infoMap g' := by
    simp only [Function.update_apply, listAfter]
    split
    · next hg =>
        rw [hs, scan_list, setMsgQueue_visited, hg]
        simp only [closed, setMsgQueue_isOpen, setMsgQueue_socket, List.nil_append]
    · rfl
  pidMap pid := by
    simp only [hs, scan_pidMap, setMsgQueue_removed, setMsgQueue_pid, entryAfter]

theorem handleProxyHandleRequest_scanned (serviceMap : StdString → Option StdString) (σ : Registry) (af : Ref) :
    Scanned σ (handleProxyHandleRequest serviceMap σ af).1 (σ.scans serviceMap af) := by
  unfold handleProxyHandleRequest scans
  cases hq : (σ.actors af).msgQueue with
  | nil => constructor <;> intros <;> rfl
  | cons q rest =>
      dsimp only
      by_cases hw : (σ.actors af).isWaiting = true
      · simp only [hw, if_true]
        constructor <;> intros <;> rfl
      · simp only [hw, Bool.false_eq_true, if_false]
        cases hm : serviceMap q.pack.serviceName with
        | none => constructor <;> simp
        | some actorName =>
            simp only [Option.map_some, setMsgQueue_infoMap, setMsgQueue_pidMap]
            cases hl : σ.actorInfoMap actorName with
            | nil =>
                constructor
                case infoMap =>
                  intro g
                  by_cases hg : g = actorName
                  · subst hg
                    simp [listAfter, hl, visited]
                  · simp [listAfter, hg]
                case pidMap => simp [entryAfter, hl, removed, visited]
                all_goals simp
            | cons first others =>
                dsimp only
                rw [← hl]
                generalize hs : (σ.setMsgQueue af rest).scan q.pack.callId (σ.actorInfoMap actorName) []
                  σ.actorPidMap (some first) _ = s
                have hscan := scanned_of_scan af rest _ _ hs.symm
                cases hsel : s.selection with
                | circular => exact hscan
                | dangling => exact hscan
                | selected select => exact hscan.trans (dispatch_scanned _ q select)

end Handle

/-- What happens to the registry. Between two of the first three the queues, the flags and the chains change
in any way. -/
inductive Event where
  | connect (k : Conn) (p : CoroActorConnect)
  | close (k : Conn)
  | handle (af : Ref)
  | enqueue (af : Ref) (l : List Queued)
  | mark (af : Ref) (callId : StdString) (isWaiting : Bool)
  | rechain (callId : StdString) (L : List Ref)

def next (serviceMap : StdString → Option StdString) (σ : Registry) : Event → Registry
  | .connect k p => σ.connect k p
  | .close k => { σ with isOpen := Function.update σ.isOpen k false }
  | .handle af => (handleProxyHandleRequest serviceMap σ af).1
  | .enqueue af l => σ.setMsgQueue af l
  | .mark af callId isWaiting => σ.updateActorInfo af callId isWaiting
  | .rechain callId L => σ.setChain callId L

def registryMachine (serviceMap : StdString → Option StdString) : Machine Registry Event :=
  ⟨Sys.init.proxy, fun σ e => some (σ.next serviceMap e)⟩

/-- CONNECT comes once on a connection, while it is open, and with a pid that no open connection has. -/
def Distinct (σ : Registry) : Event → Prop
  | .connect k p => σ.isOpen k = true ∧ ∀ r < σ.nactors, (σ.actors r).socket ≠ k ∧
      (σ.closed r = false → (σ.actors r).pid ≠ p.pid)
  | _ => True

instance (σ : Registry) : (e : Event) → Decidable (σ.Distinct e)
  | .connect k _ => inferInstanceAs (Decidable (σ.isOpen k = true ∧ ∀ r < σ.nactors, _ ∧ (_ → _)))
  | .close _ | .handle _ | .enqueue .. | .mark .. | .rechain .. => inferInstanceAs (Decidable True)

/-- Every open actor is found by its pid, and is listed once, under its own name. -/
def Agree (σ : Registry) : Prop :=
  ∀ r < σ.nactors, σ.closed r = false → σ.actorPidMap (σ.actors r).pid = some r ∧
    (σ.actorInfoMap (σ.actors r).name).count r = 1 ∧ ∀ g, r ∈ σ.actorInfoMap g → g = (σ.actors r).name

/-- What a step erases. -/
def erasuresOf (serviceMap : StdString → Option StdString) (σ : Registry) : Event → List (Ref × Option Ref)
  | .handle af =>
      match σ.scans serviceMap af with
      | some (callId, g) => σ.erasures callId (σ.actorInfoMap g) σ.actorPidMap
      | none => []
  | _ => []

/-- Removing an actor erases no entry but its own. -/
def SparesOthers (serviceMap : StdString → Option StdString) (σ : Registry) (e : Event) : Prop :=
  ∀ x ∈ σ.erasuresOf serviceMap e, x.2 = none ∨ x.2 = some x.1

/-- A closed actor whose pid has been taken over by a later CONNECT is not removed. -/
def Kept (serviceMap : StdString → Option StdString) (σ : Registry) : Event → Prop
  | .handle af => ∀ x ∈ σ.scans serviceMap af, ∀ r ∈ σ.removed x.1 (σ.actorInfoMap x.2),
      ∀ r' ∈ σ.actorPidMap (σ.actors r).pid, r' = r
  | _ => True

instance (serviceMap : StdString → Option StdString) (σ : Registry) :
    (e : Event) → Decidable (σ.Kept serviceMap e)
  | .handle af => inferInstanceAs (Decidable (∀ x ∈ σ.scans serviceMap af,
      ∀ r ∈ σ.removed x.1 (σ.actorInfoMap x.2), ∀ r' ∈ σ.actorPidMap (σ.actors r).pid, r' = r))
  | .connect .. | .close _ | .enqueue .. | .mark .. | .rechain .. => inferInstanceAs (Decidable True)

/-- What holds of the two maps in every run. The lists are in the order of the CONNECTs, and an entry belongs
to the latest actor with its pid. -/
structure Indexed (σ : Registry) : Prop where
  sorted : ∀ g, (σ.actorInfoMap g).Pairwise (· < ·)
  member : ∀ g, ∀ r ∈ σ.actorInfoMap g, r < σ.nactors ∧ (σ.actors r).name = g
  listed : ∀ r < σ.nactors, σ.closed r = false → r ∈ σ.actorInfoMap (σ.actors r).name
  latest : ∀ pid r, σ.actorPidMap pid = some r → r < σ.nactors ∧ (σ.actors r).pid = pid ∧
    ∀ r' < σ.nactors, (σ.actors r').pid = pid → r' ≤ r

/-- Every open actor is found by its pid. -/
def Found (σ : Registry) : Prop :=
  ∀ r < σ.nactors, σ.closed r = false → σ.actorPidMap (σ.actors r).pid = some r

variable {serviceMap : StdString → Option StdString} {σ σ' : Registry} {e : Event}

theorem Indexed.agree (hi : Indexed σ) : Agree σ ↔ Found σ := by
  constructor
  · intro ha r hr hc
    exact (ha r hr hc).1
  · intro hf r hr hc
    refine ⟨hf r hr hc, ?_, fun g hg => ((hi.member g r hg).2).symm⟩
    have hnodup : (σ.actorInfoMap (σ.actors r).name).Nodup := (hi.sorted _).imp Nat.ne_of_lt
    exact List.count_eq_one_of_mem hnodup (hi.listed r hr hc)

section Step

variable {scan : Option (StdString × StdString)} {callId g : StdString} {l : List Ref} {r : Ref}

theorem removed_subset (σ : Registry) (callId : StdString) (l : List Ref) : σ.removed callId l ⊆ l :=
  fun _ hr => (List.takeWhile_prefix _).subset (mem_removed.mp hr).1

theorem visited_append (σ : Registry) (callId : StdString) (l : List Ref) :
    σ.visited callId l ++ l.drop (σ.visited callId l).length = l :=
  List.prefix_iff_eq_append.mp (List.takeWhile_prefix _)

theorem listAfter_sublist : (σ.listAfter g scan).Sublist (σ.actorInfoMap g) := by
  unfold listAfter
  split
  · split
    · next callId _ _ =>
        conv_rhs => rw [← σ.visited_append callId (σ.actorInfoMap g)]
        exact List.filter_sublist.append_right _
    · exact List.Sublist.refl _
  · exact List.Sublist.refl _

/-- An open actor stays in its list. -/
theorem mem_listAfter (hr : r ∈ σ.actorInfoMap g) (hc : σ.closed r = false) : r ∈ σ.listAfter g scan := by
  unfold listAfter
  split
  · split
    · next callId _ _ =>
        rw [← σ.visited_append callId (σ.actorInfoMap g)] at hr
        rcases List.mem_append.mp hr with hvisited | hrest
        · exact List.mem_append_left _ (List.mem_filter.mpr ⟨hvisited, by simp [hc]⟩)
        · exact List.mem_append_right _ hrest
    · exact hr
  · exact hr

theorem entryAfter_some {pid : Pid} (h : σ.entryAfter pid scan = some r) : σ.actorPidMap pid = some r := by
  unfold entryAfter at h
  split at h
  · split at h
    · cases h
    · exact h
  · exact h

theorem Scanned.closed (h : Scanned σ σ' scan) (r : Ref) : σ'.closed r = σ.closed r := by
  rw [Registry.closed, Registry.closed, h.isOpen, h.socket]

theorem Indexed.scanned (hi : Indexed σ) (h : Scanned σ σ' scan) : Indexed σ' := by
  constructor
  · intro g
    rw [h.infoMap]
    exact (hi.sorted g).sublist listAfter_sublist
  · intro g r hr
    rw [h.infoMap] at hr
    rw [h.nactors, h.name]
    exact hi.member g r (listAfter_sublist.subset hr)
  · intro r hr hc
    rw [h.nactors] at hr
    rw [h.closed] at hc
    rw [h.infoMap, h.name]
    exact mem_listAfter (hi.listed r hr hc) hc
  · intro pid r hr
    rw [h.pidMap] at hr
    obtain ⟨hlt, hpid, hle⟩ := hi.latest pid r (entryAfter_some hr)
    rw [h.nactors, h.pid]
    refine ⟨hlt, hpid, fun r' hr' hpid' => hle r' hr' ?_⟩
    rwa [h.pid] at hpid'

/-- A scan that removes no actor whose pid has been taken over erases no entry of an open actor. -/
theorem Found.scanned (hf : Found σ) (h : Scanned σ σ' scan)
    (hk : ∀ x ∈ scan, ∀ r ∈ σ.removed x.1 (σ.actorInfoMap x.2), ∀ r' ∈ σ.actorPidMap (σ.actors r).pid, r' = r) :
    Found σ' := by
  intro r hr hc
  rw [h.nactors] at hr
  rw [h.closed] at hc
  have hr' := hf r hr hc
  rw [h.pidMap, h.pid]
  unfold entryAfter
  split
  · next callId g =>
      refine (if_neg ?_).trans hr'
      rintro ⟨x, hx, hpid⟩
      obtain rfl := hk (callId, g) rfl x hx r (by rw [hpid]; exact hr')
      rw [(mem_removed.mp hx).2] at hc
      cases hc
  · exact hr'

section Connect

variable (σ) (k : Conn) (p : CoroActorConnect)

theorem connect_old (hr : r ≠ σ.nactors) : (σ.connect k p).actors r = σ.actors r :=
  Function.update_of_ne hr _ _

theorem connect_new : (σ.connect k p).actors σ.nactors = ⟨p.name, p.pid, false, [], [], k⟩ :=
  Function.update_self _ _ _

theorem connect_pidMap (pid : Pid) : (σ.connect k p).actorPidMap pid =
    if pid = p.pid then some σ.nactors else σ.actorPidMap pid :=
  Function.update_apply _ _ _ _

theorem connect_infoMap (g : StdString) : (σ.connect k p).actorInfoMap g =
    if g = p.name then σ.actorInfoMap g ++ [σ.nactors] else σ.actorInfoMap g := by
  simp only [Registry.connect, Function.update_apply]
  split
  · next hg => rw [hg]
  · rfl

end Connect

theorem Indexed.connect (hi : Indexed σ) (k : Conn) (p : CoroActorConnect) : Indexed (σ.connect k p) := by
  have hold : ∀ r : Nat, r < σ.nactors → (σ.connect k p).actors r = σ.actors r := fun r hr =>
    connect_old σ k p hr.ne
  constructor
  · intro g
    rw [connect_infoMap]
    split
    · refine List.pairwise_append.mpr ⟨hi.sorted g, List.pairwise_singleton _ _, fun r hr r' hr' => ?_⟩
      rw [List.mem_singleton.mp hr']
      exact (hi.member g r hr).1
    · exact hi.sorted g
  · intro g r hr
    have hcases : r ∈ σ.actorInfoMap g ∨ g = p.name ∧ r = σ.nactors := by
      rw [connect_infoMap] at hr
      split at hr
      · next hg => exact (List.mem_append.mp hr).imp_right fun hnew => ⟨hg, List.mem_singleton.mp hnew⟩
      · exact Or.inl hr
    rcases hcases with hmem | ⟨rfl, rfl⟩
    · obtain ⟨hlt, hname⟩ := hi.member g r hmem
      rw [hold r hlt]
      exact ⟨Nat.lt_succ_of_lt hlt, hname⟩
    · rw [connect_new]
      exact ⟨Nat.lt_succ_self _, rfl⟩
  · intro r hr hc
    rw [connect_infoMap]
    rcases Nat.lt_succ_iff_lt_or_eq.mp hr with hlt | rfl
    · rw [Registry.closed, hold r hlt] at hc
      rw [hold r hlt]
      have hmem := hi.listed r hlt hc
      split
      · exact List.mem_append_left _ hmem
      · exact hmem
    · rw [connect_new, if_pos rfl]
      exact List.mem_append_right _ (List.mem_singleton_self _)
  · intro pid r hr
    rw [connect_pidMap] at hr
    split at hr
    · next hpid =>
        cases hr
        rw [connect_new]
        exact ⟨Nat.lt_succ_self _, hpid.symm, fun r' hr' _ => Nat.lt_succ_iff.mp hr'⟩
    · next hpid =>
        obtain ⟨hlt, hp, hle⟩ := hi.latest pid r hr
        rw [hold r hlt]
        refine ⟨Nat.lt_succ_of_lt hlt, hp, fun r' hr' hp' => ?_⟩
        rcases Nat.lt_succ_iff_lt_or_eq.mp hr' with hlt' | rfl
        · rw [hold r' hlt'] at hp'
          exact hle r' hlt' hp'
        · rw [connect_new] at hp'
          exact absurd hp'.symm hpid

theorem Found.connect (hf : Found σ) {k : Conn} {p : CoroActorConnect}
    (hd : σ.Distinct (.connect k p)) : Found (σ.connect k p) := by
  intro r hr hc
  rw [connect_pidMap]
  rcases Nat.lt_succ_iff_lt_or_eq.mp hr with hlt | rfl
  · rw [Registry.closed, connect_old σ k p hlt.ne] at hc
    rw [connect_old σ k p hlt.ne, if_neg ((hd.2 r hlt).2 hc)]
    exact hf r hlt hc
  · rw [connect_new, if_pos rfl]

/-- What a scan erases is its own, exactly when it removes no actor whose pid has been taken over. The list is
in the order of the CONNECTs, so that the removed actor comes before the one that took over. -/
theorem erasures_own_iff (hsorted : l.Pairwise (· < ·)) (pidMap : Pid → Option Ref)
    (hlatest : ∀ pid r, pidMap pid = some r → ∀ r' ∈ l, (σ.actors r').pid = pid → r' ≤ r) :
    (∀ x ∈ σ.erasures callId l pidMap, x.2 = none ∨ x.2 = some x.1) ↔
      ∀ r ∈ σ.removed callId l, ∀ r' ∈ pidMap (σ.actors r).pid, r' = r := by
  induction l generalizing pidMap with
  | nil => simp [erasures, removed, visited]
  | cons r rest ih =>
      rw [List.pairwise_cons] at hsorted
      obtain ⟨hlt, hrest⟩ := hsorted
      have hlatest' : ∀ pid x, pidMap pid = some x → ∀ r' ∈ rest, (σ.actors r').pid = pid → r' ≤ x :=
        fun pid x hx r' hr' => hlatest pid x hx r' (List.mem_cons_of_mem r hr')
      rcases Bool.eq_false_or_eq_true (σ.closed r) with hc | hc
      · rw [erasures, if_pos hc, removed_cons_of_closed hc, List.forall_mem_cons, List.forall_mem_cons]
        have hhead : (pidMap (σ.actors r).pid = none ∨ pidMap (σ.actors r).pid = some r) ↔
            ∀ r' ∈ pidMap (σ.actors r).pid, r' = r := by
          cases pidMap (σ.actors r).pid with
          | none => simp
          | some x => simp
        rw [hhead]
        refine and_congr_right fun hown => ?_
        have hupdate : ∀ pid x, Function.update pidMap (σ.actors r).pid none pid = some x →
            pidMap pid = some x := by
          intro pid x hx
          rw [Function.update_apply] at hx
          split at hx
          · cases hx
          · exact hx
        rw [ih hrest _ fun pid x hx => hlatest' pid x (hupdate pid x hx)]
        refine forall₂_congr fun r₂ hr₂ => ?_
        have hmem := σ.removed_subset callId rest hr₂
        by_cases hpid : (σ.actors r₂).pid = (σ.actors r).pid
        · rw [hpid, Function.update_self]
          refine iff_of_true nofun fun x hx => ?_
          obtain rfl := hown x hx
          have hle := hlatest' _ _ hx r₂ hmem hpid
          exact absurd (hlt r₂ hmem) (Nat.not_lt.mpr hle)
        · rw [Function.update_of_ne hpid]
      · rw [erasures, if_neg (by simp [hc])]
        by_cases hid : (σ.actors r).callId = callId
        · rw [if_pos hid, removed_cons_of_busy hc hid]
          simp
        · rw [if_neg hid, removed_cons_of_other hc hid]
          exact ih hrest pidMap hlatest'

theorem Indexed.spares_iff (hi : Indexed σ) : σ.SparesOthers serviceMap e ↔ σ.Kept serviceMap e := by
  cases e with
  | handle af =>
      simp only [SparesOthers, erasuresOf, Kept]
      cases σ.scans serviceMap af with
      | none => simp
      | some x =>
          obtain ⟨callId, g⟩ := x
          dsimp only
          rw [erasures_own_iff (hi.sorted g) σ.actorPidMap]
          · simp
          · intro pid r hr r' hr' hpid
            exact (hi.latest pid r hr).2.2 r' (hi.member g r' hr').1 hpid
  | connect | close | enqueue | mark | rechain => simp [SparesOthers, erasuresOf, Kept]

/-- The queues, the flags and the chains are of no account. -/
theorem scanned_of_quiet (serviceMap : StdString → Option StdString) (σ : Registry)
    (he : (∃ af l, e = .enqueue af l) ∨ (∃ af c w, e = .mark af c w) ∨ ∃ c L, e = .rechain c L) :
    Scanned σ (σ.next serviceMap e) none := by
  rcases he with ⟨af, l, rfl⟩ | ⟨af, c, w, rfl⟩ | ⟨c, L, rfl⟩ <;> constructor <;> simp [next]

/-- What is open after a socket has become closed was open before. -/
theorem open_of_close {k : Conn} (hc : (σ.next serviceMap (.close k)).closed r = false) :
    σ.closed r = false := by
  simp only [Registry.closed, Registry.next, Function.update_apply] at hc ⊢
  split at hc
  · cases hc
  · exact hc

theorem Indexed.next (hi : Indexed σ) : Indexed (σ.next serviceMap e) := by
  cases e with
  | connect k p => exact hi.connect k p
  | close k => exact ⟨hi.sorted, hi.member, fun r hr hc => hi.listed r hr (open_of_close hc), hi.latest⟩
  | handle af => exact hi.scanned (handleProxyHandleRequest_scanned serviceMap σ af)
  | enqueue af l => exact hi.scanned (scanned_of_quiet serviceMap σ (Or.inl ⟨af, l, rfl⟩))
  | mark af c w => exact hi.scanned (scanned_of_quiet serviceMap σ (Or.inr (Or.inl ⟨af, c, w, rfl⟩)))
  | rechain c L => exact hi.scanned (scanned_of_quiet serviceMap σ (Or.inr (Or.inr ⟨c, L, rfl⟩)))

theorem Found.next (hf : Found σ) (hd : σ.Distinct e) (hk : σ.Kept serviceMap e) :
    Found (σ.next serviceMap e) := by
  cases e with
  | connect k p => exact hf.connect hd
  | close k => exact fun r hr hc => hf r hr (open_of_close hc)
  | handle af => exact hf.scanned (handleProxyHandleRequest_scanned serviceMap σ af) hk
  | enqueue af l => exact hf.scanned (scanned_of_quiet serviceMap σ (Or.inl ⟨af, l, rfl⟩)) nofun
  | mark af c w => exact hf.scanned (scanned_of_quiet serviceMap σ (Or.inr (Or.inl ⟨af, c, w, rfl⟩))) nofun
  | rechain c L => exact hf.scanned (scanned_of_quiet serviceMap σ (Or.inr (Or.inr ⟨c, L, rfl⟩))) nofun

end Step

/-- What a step of the process does to its registry is a sequence of these events. -/
theorem events_of_step {cfg : Setting} {s t : Sys} {l : Label} (h : s.step cfg l = some t) :
    ∃ es : List Event, es.foldl (next cfg.serviceMap) s.proxy = t.proxy := by
  cases l with
  | accept | readError | transfer =>
      simp only [Sys.step, Option.ite_none_right_eq_some, Option.some.injEq] at h
      obtain ⟨-, rfl⟩ := h
      exact ⟨[], rfl⟩
  | read k f =>
      simp only [Sys.step, Option.ite_none_right_eq_some, Option.some.injEq] at h
      obtain ⟨-, rfl⟩ := h
      cases f with
      | connect p => exact ⟨[.connect k p], rfl⟩
      | request p =>
          simp only [Sys.onFrame, Sys.onRequest]
          cases s.proxy.actorPidMap p.pid with
          | none => exact ⟨[], rfl⟩
          | some af =>
              dsimp only
              split
              · exact ⟨[.rechain p.callId [af],
                  .enqueue af ((s.proxy.actors af).msgQueue ++ [⟨s.history.nreq, p⟩])], rfl⟩
              · exact ⟨[.enqueue af ((s.proxy.actors af).msgQueue ++ [⟨s.history.nreq, p⟩])], rfl⟩
      | response p =>
          simp only [Sys.onFrame, Sys.onResponse]
          split
          · exact ⟨[.rechain p.callId (s.proxy.chain p.callId).dropLast], rfl⟩
          · exact ⟨[], rfl⟩
      | other => exact ⟨[], rfl⟩
  | resume k ec =>
      simp only [Sys.step, Option.ite_none_right_eq_some, Option.some.injEq] at h
      obtain ⟨-, rfl⟩ := h
      unfold Sys.onResume
      dsimp only
      split
      · exact ⟨[], rfl⟩
      · next afSelf callId _ => exact ⟨[.mark afSelf [] false], rfl⟩
      · next q select c _ =>
          split
          · cases s.proxy.actorPidMap q.pack.pid with
            | none => exact ⟨[], rfl⟩
            | some issuer => exact ⟨[.mark issuer [] false, .mark select [] false], rfl⟩
          · exact ⟨[], rfl⟩
      · exact ⟨[], rfl⟩
  | run k =>
      simp only [Sys.step, Option.ite_none_right_eq_some, Option.some.injEq] at h
      obtain ⟨-, rfl⟩ := h
      unfold Sys.onRun
      split
      · next af c _ =>
          unfold Sys.onHandle
          cases hr : handleProxyHandleRequest cfg.serviceMap s.proxy af with
          | mk σ served =>
              have hσ : s.proxy.next cfg.serviceMap (.handle af) = σ := congrArg Prod.fst hr
              cases served with
              | fault => exact ⟨[], rfl⟩
              | idle | refused | buffered | writing => exact ⟨[.handle af], hσ⟩
      · next callId _ =>
          unfold Sys.onWake
          cases (s.proxy.chain callId).getLast? with
          | none => exact ⟨[], rfl⟩
          | some back => exact ⟨[.mark back callId false], rfl⟩
      · exact ⟨[], rfl⟩

/-- **The two registries agree.** As long as no scan removes an actor whose pid has been taken over by a later
CONNECT, `actor_pid_map` finds every open actor by its pid and `actor_info_map` lists it once, under its
own name. A further step keeps this, and erases no entry of another actor, exactly when its scan
removes no such actor either. -/
theorem agree_of_kept (hr : Reachable (registryMachine serviceMap)
      (fun σ e => σ.Distinct e ∧ σ.Kept serviceMap e) σ) :
    Agree σ ∧ ∀ e σ', σ.Distinct e → (registryMachine serviceMap).step σ e = some σ' →
      (Agree σ' ∧ σ.SparesOthers serviceMap e ↔ σ.Kept serviceMap e) := by
  have hinv : Indexed σ ∧ Found σ := by
    refine hr.invariant (I := fun σ => Indexed σ ∧ Found σ) ⟨⟨?_, ?_, ?_, ?_⟩, ?_⟩ ?_
    · exact fun _ => List.Pairwise.nil
    · exact fun _ _ hr => absurd hr List.not_mem_nil
    · exact fun _ hr => absurd hr (Nat.not_lt_zero _)
    · exact fun _ _ hr => by cases hr
    · exact fun _ hr => absurd hr (Nat.not_lt_zero _)
    · rintro σ e σ' - ⟨hi, hf⟩ ⟨hd, hk⟩ hst
      cases hst
      exact ⟨hi.next, hf.next hd hk⟩
  obtain ⟨hi, hf⟩ := hinv
  refine ⟨hi.agree.mpr hf, fun e σ' hd hst => ?_⟩
  cases hst
  constructor
  · intro h
    exact hi.spares_iff.mp h.2
  · intro hk
    exact ⟨hi.next.agree.mpr (hf.next hd hk), hi.spares_iff.mpr hk⟩

section Sample

/-- Actors 0 and 1 of group "a", and the request of actor 2 for its service. -/
def sampleRun (pid : Pid) : List Event :=
  [.connect 0 ⟨9, ascii "a"⟩, .connect 1 ⟨10, ascii "a"⟩, .connect 2 ⟨12, ascii "d"⟩, .close 1,
    .connect 3 ⟨pid, ascii "b"⟩, .enqueue 2 [⟨0, ⟨12, ascii "12-1", ascii "svc_a", ⟨0, []⟩⟩⟩]]

/-- The scan removes the closed actor 1, and its entry. -/
theorem agree_of_removal : ∃ σ σ', (registryMachine Sample.serviceMap).step σ (.handle 2) = some σ' ∧
    σ'.actorInfoMap (ascii "a") = [0] ∧ σ'.actorPidMap 10 = none ∧ Agree σ' ∧
    σ.SparesOthers Sample.serviceMap (.handle 2) := by
  obtain ⟨σ, σ', hr, hok, hst, hlist, hentry⟩ := Reachable.of_takes (registryMachine Sample.serviceMap)
    (fun σ e => σ.Distinct e ∧ σ.Kept Sample.serviceMap e) (sampleRun 13) (.handle 2)
    (fun _ σ' => σ'.actorInfoMap (ascii "a") = [0] ∧ σ'.actorPidMap 10 = none) (by decide +kernel)
  exact ⟨σ, σ', hst, hlist, hentry, ((agree_of_kept hr).2 _ σ' hok.1 hst).mpr hok.2⟩

/-- The pid of the closed actor 1 has been taken over by actor 3. The scan for the request of actor 2 removes
actor 1 from its group, and erases the entry of actor 3, which is connected. -/
theorem reused_pid_erased : ∃ σ σ', Reachable (registryMachine Sample.serviceMap) Distinct σ ∧
    (registryMachine Sample.serviceMap).step σ (.handle 2) = some σ' ∧
    ¬ Agree σ' ∧ ¬ σ.SparesOthers Sample.serviceMap (.handle 2) := by
  obtain ⟨σ, σ', hr, -, hst, ⟨hn, hopen, hpid, hentry⟩, herased⟩ := Reachable.of_takes
    (registryMachine Sample.serviceMap) Distinct (sampleRun 10) (.handle 2)
    (fun σ σ' => (3 < σ'.nactors ∧ σ'.closed 3 = false ∧ (σ'.actors 3).pid = 10 ∧ σ'.actorPidMap 10 = none) ∧
      σ.erasuresOf Sample.serviceMap (.handle 2) = [(1, some 3)]) (by decide +kernel)
  refine ⟨σ, σ', hr, hst, fun ha => ?_, fun hs => ?_⟩
  · have hfound := (ha 3 hn hopen).1
    rw [hpid, hentry] at hfound
    cases hfound
  · have hown := hs (1, some 3) (by rw [herased]; exact List.mem_singleton_self _)
    simp at hown

end Sample

end Registry

end CoroActor.Proxy
