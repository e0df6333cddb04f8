import CoroActor.Library.WaitGraph
import CoroActor.Proxy.LoopCheck

/-! The wait-for graph of the actors. An actor waits for another one when a request of it is buffered at
the other or was delivered to it, and has not been answered to its issuer. A step of the proxy draws at most
one edge: when a request is buffered, and when the last byte of a REQUEST goes out. The loop check keeps the
edges of one call from closing a circle. It says nothing about circles that go through several calls, in
which calls wait behind each other. -/

namespace CoroActor.Proxy

open TransitionSystem WaitGraph Relation

namespace Sys

/-- The request is buffered in the queue of the actor or was delivered to it. A request that waits in the queue
of its own issuer is not buffered yet. -/
def WaitsAt (s : Sys) (n : Nat) (b : Ref) : Prop :=
  (b ∈ s.history.buffered n ∧ ∃ q ∈ (s.proxy.actors b).msgQueue, q.serial = n) ∨
    (s.history.delivered n = true ∧ b ∈ s.history.written n)

/-- Actor `a` has an unanswered request that is buffered in the queue of `b` or was delivered to `b`. -/
def WaitsFor (s : Sys) (a b : Ref) : Prop :=
  ∃ n < s.history.nreq, s.history.issuer n = a ∧ s.history.Unanswered n ∧ s.WaitsAt n b

/-- The edges of one call. -/
def WaitsWithin (s : Sys) (c : StdString) (a b : Ref) : Prop :=
  ∃ n < s.history.nreq, (s.history.pack n).callId = c ∧ s.history.issuer n = a ∧ s.history.Unanswered n ∧
    s.WaitsAt n b

/-- Call `c` waits behind call `d`: a request of `c` waits at an actor that waits for another one in `d`. -/
def Behind (s : Sys) (c d : StdString) : Prop :=
  c ≠ d ∧ ∃ a b x, s.WaitsWithin c a b ∧ s.WaitsWithin d b x

instance (s : Sys) (n : Nat) (b : Ref) : Decidable (s.WaitsAt n b) := inferInstanceAs (Decidable (_ ∧ _ ∨ _ ∧ _))

variable {α : Type} [Preorder α] (rank : StdString → α)

/-- A request of the call may wait at the actor: the actor does not wait, or it waits in the same call, or in
one of lower rank. -/
def MayWait (s : Sys) (c : StdString) (b : Ref) : Prop :=
  (s.proxy.actors b).isWaiting = true → (s.proxy.actors b).callId = c ∨ rank (s.proxy.actors b).callId < rank c

/-- Calls wait behind calls of lower rank only. When a request is taken, it may wait at the members of the
group it asks, and what waits at its issuer belongs to the same call or to one of higher rank. When the last
byte of a REQUEST goes out, it may wait at the callee. -/
def InOrder (cfg : Setting) (s : Sys) : Label → Prop
  | .run k => ∀ x ∈ s.taken k,
      (∀ actorName ∈ cfg.serviceMap x.q.pack.serviceName, ∀ b ∈ s.proxy.actorInfoMap actorName,
        s.MayWait rank x.q.pack.callId b) ∧
      ∀ n < s.history.nreq, s.history.Unanswered n → s.WaitsAt n (s.history.issuer x.q.serial) →
        x.q.pack.callId = (s.history.pack n).callId ∨ rank x.q.pack.callId < rank (s.history.pack n).callId
  | .transfer k count => (s.write k).left.drop (count + 1) = [] →
      ∀ x ∈ (s.pc k).requesting, s.MayWait rank (s.history.pack x.1.serial).callId x.2
  | _ => True

instance [DecidableLT α] (s : Sys) (c : StdString) (b : Ref) : Decidable (s.MayWait rank c b) :=
  inferInstanceAs (Decidable (_ → _ ∨ _))

instance [DecidableLT α] (cfg : Setting) (s : Sys) : (l : Label) → Decidable (s.InOrder rank cfg l)
  | .run k => inferInstanceAs (Decidable (∀ x ∈ s.taken k,
      (∀ actorName ∈ cfg.serviceMap x.q.pack.serviceName, ∀ b ∈ s.proxy.actorInfoMap actorName, _) ∧
        ∀ n < s.history.nreq, _ → _ → _))
  | .transfer k count =>
      inferInstanceAs (Decidable ((s.write k).left.drop (count + 1) = [] → ∀ x ∈ (s.pc k).requesting, _))
  | .read .. | .accept | .readError _ | .resume .. => inferInstanceAs (Decidable True)

variable {cfg : Setting} {s t : Sys} {l : Label} {n m : Nat} {a b x : Ref} {c d : StdString}

/-! ### What a step does to the waits -/

/-- The step begins a wait: it buffers the request at the actor, or the last byte of the REQUEST goes out to
it. -/
inductive Begins (cfg : Setting) (s : Sys) : Label → Nat → Ref → Prop
  | buffered {k af d q rest issuer select} : s.Departs cfg k af d q rest issuer select →
      Begins cfg s (.run k) q.serial select
  | delivered {k count q select d} : s.pc k = .request q select d → (s.write k).left.drop (count + 1) = [] →
      s.history.delivered q.serial = false → Begins cfg s (.transfer k count) q.serial select

theorem Move.written_eq (h : Move cfg s l t) (ht : Sound cfg t) (hn : n < s.history.nreq)
    (hne : s.history.written n ≠ []) : t.history.written n = s.history.written n := by
  have hle := (ht.booked.entry n (hn.trans_le h.grows.nreq)).written_le
  have hpos := List.length_pos_iff.mpr hne
  exact ((h.grows.written n hn).eq_of_length_le (by omega)).symm

/-- A wait that is there after a step was there before, or the step begins it. -/
theorem Move.waitsAt (h : Move cfg s l t) (hs : Orderly cfg s) (hd : Undelivered s) (ht : Orderly cfg t)
    (hn : n < t.history.nreq) (hw : t.WaitsAt n b) :
    n < s.history.nreq ∧ (s.WaitsAt n b ∨ s.Begins cfg l n b) := by
  rcases h.newly_issued hn with hlt | ⟨k, p, af, rfl, -, -, rfl, hhist⟩
  · refine ⟨hlt, ?_⟩
    rcases hw with ⟨hb, q, hq, hqn⟩ | ⟨hdel, hb⟩
    · obtain ⟨-, -, -, hholder⟩ := ht.booked.queued b q hq
      rw [hqn] at hholder
      by_cases hsame : t.history.buffered n = s.history.buffered n
      · obtain ⟨r, q', hq', hqn'⟩ := h.waited hs.toSound hlt ⟨b, q, hq, hqn⟩
        obtain ⟨-, -, -, hholder'⟩ := hs.booked.queued r q' hq'
        have hrb : r = b := by
          rw [← hholder', ← hholder, hqn', History.holder, History.holder, hsame, h.grows.issuer n hlt]
        exact Or.inl (Or.inl ⟨hsame ▸ hb, q', hrb ▸ hq', hqn'⟩)
      · obtain ⟨k, af, c, q₀, rest, issuer, select, rfl, hdep, rfl, -, hhist, -⟩ :=
          h.newly_buffered hlt hsame
        right
        rw [← hholder, hhist, History.hold_holder_self]
        exact .buffered hdep
    · have hb' : ∀ {r}, s.history.written n = [r] → b = r := fun hr => by
        rw [h.written_eq ht.toSound hlt (by rw [hr]; exact List.cons_ne_nil _ _), hr] at hb
        exact List.mem_singleton.mp hb
      by_cases hds : s.history.delivered n = true
      · obtain ⟨r, hr⟩ := List.exists_mem_of_ne_nil _ fun hnil => by
          rw [hd.unwritten n hlt hnil] at hds
          cases hds
        have hw := hs.booked.written_eq hlt hr
        exact Or.inl (Or.inr ⟨hds, hb' hw ▸ hr⟩)
      · obtain ⟨k, count, q, select, c, rfl, hk, rfl, hleft, -⟩ :=
          (h.newly_delivered hs hlt hdel).resolve_left hds
        obtain ⟨-, -, hselect, -⟩ := hs.at_request hk
        rw [hb' hselect]
        exact Or.inr (.delivered hk hleft (by simpa using hds))
  · rw [WaitsAt, hhist] at hw
    simp at hw

theorem Begins.unique (h : s.Begins cfg l n a) (h' : s.Begins cfg l m b) : n = m ∧ a = b := by
  cases h with
  | buffered hdep =>
      cases h' with
      | buffered hdep' =>
          obtain ⟨rfl, -, hselect⟩ := hdep.unique hdep'
          exact ⟨rfl, hselect⟩
  | delivered hk =>
      cases h' with
      | delivered hk' =>
          obtain ⟨rfl, rfl, -⟩ := Pc.request.inj (hk.symm.trans hk')
          exact ⟨rfl, rfl⟩

/-- Where a wait begins, the actor asks for nothing in the call: the loop check has seen to this when it was
selected. -/
theorem Begins.not_asks (h : s.Begins cfg l n b) (hs : Orderly cfg s) (hd : Undelivered s)
    (hm : CallsMarked s) (hsilent : CalleesSilent s) : ¬ s.history.Asks (s.history.pack n).callId b := by
  cases h with
  | buffered hdep =>
      rw [(hs.toSound.departs hdep).2.1]
      exact hm.select_not_asks hsilent hs.toSound hdep
  | @delivered k count q select d hk hleft hdel =>
      obtain ⟨-, hn, hw, -⟩ := hs.at_request hk
      refine hsilent q.serial hn ⟨?_, hd.replies_nil hn hdel⟩ hdel _ ?_
      · rw [hw]
        exact List.cons_ne_nil _ _
      · rw [hw]
        exact List.mem_singleton_self _

theorem CallsMarked.of_waits (hm : CallsMarked s) (hs : Sound cfg s) (hn : n < s.history.nreq)
    (hu : s.history.Unanswered n) (hw : s.WaitsAt n b) : s.Marked n := by
  rcases hw with ⟨hb, q, hq, rfl⟩ | ⟨hdel, hb⟩
  · refine (hm _ hn hu fun hund => List.ne_nil_of_mem hb hund.1).resolve_right ?_
    rintro ⟨⟨hwritten, -⟩, -⟩
    exact hwritten (hs.booked.queued b q hq).2.2.1
  · refine (hm n hn hu fun hund => List.ne_nil_of_mem hb hund.2).resolve_right ?_
    rintro ⟨-, hnot, -⟩
    rw [hdel] at hnot
    cases hnot

/-- An actor that waits after a step waited before, in the same call, or a request of it is dispatched. -/
theorem Move.mark (h : Move cfg s l t) (hs : Sound cfg s) (hb : (t.proxy.actors b).isWaiting = true) :
    (s.proxy.actors b).isWaiting = true ∧ (t.proxy.actors b).callId = (s.proxy.actors b).callId ∨
      ∃ k af d q rest select, l = .run k ∧ s.Departs cfg k af d q rest b select ∧
        (t.proxy.actors b).callId = q.pack.callId := by
  rcases h.flag_set hb with hflag | ⟨k, af, d, q, rest, select, hl, hdep, -, -, hcall⟩
  · rcases h.callId_set hs b with hsame | ⟨k, af, d, q, rest, select, hl, hdep, hcall⟩ | ⟨hfalse, -⟩
    · exact Or.inl ⟨hflag, hsame⟩
    · exact Or.inr ⟨k, af, d, q, rest, select, hl, hdep, hcall⟩
    · rw [hb] at hfalse
      cases hfalse
  · exact Or.inr ⟨k, af, d, q, rest, select, hl, hdep, hcall⟩

/-! ### Within a call -/

/-- No call waits for itself. -/
def CallsStraight (s : Sys) : Prop := ∀ c, Acyclic (s.WaitsWithin c)

theorem CallsStraight.step (hi : CallsStraight s) (h : Move cfg s l t) (hs : Orderly cfg s) (ht : Orderly cfg t)
    (hd : Undelivered s) (hm : CallsMarked s) (hsilent : CalleesSilent s) : CallsStraight t := by
  intro c
  have hold : ∀ x y, t.WaitsWithin c x y → s.WaitsWithin c x y ∨
      ∃ n < s.history.nreq, (s.history.pack n).callId = c ∧ s.history.issuer n = x ∧ s.history.Unanswered n ∧
        s.Begins cfg l n y := by
    rintro x y ⟨n, hn, hc, hx, hu, hw⟩
    obtain ⟨hlt, hcase⟩ := h.waitsAt hs hd ht hn hw
    rw [h.grows.pack n hlt] at hc
    rw [h.grows.issuer n hlt] at hx
    have hus := h.grows.unanswered hlt hu
    exact hcase.imp (fun hw' => ⟨n, hlt, hc, hx, hus, hw'⟩) fun hbegins => ⟨n, hlt, hc, hx, hus, hbegins⟩
  by_cases hnew : ∃ n < s.history.nreq, (s.history.pack n).callId = c ∧ s.history.Unanswered n ∧
      ∃ b, s.Begins cfg l n b
  · obtain ⟨n, hn, hc, hu, b, hbegins⟩ := hnew
    have hnot := hbegins.not_asks hs hd hm hsilent
    rw [hc] at hnot
    refine Acyclic.extend (a := s.history.issuer n) (b := b) (fun x y hxy => ?_) (hi c) fun hpath => hnot ?_
    · refine (hold x y hxy).imp_right ?_
      rintro ⟨m, -, -, rfl, -, hbegins'⟩
      obtain ⟨rfl, rfl⟩ := hbegins.unique hbegins'
      exact ⟨rfl, rfl⟩
    · -- an actor that asks for nothing in the call has no edge in it
      rw [eq_of_path hpath fun y ⟨m, hm, hmc, hmb, hmu, _⟩ => hnot ⟨m, hm, hmc, hmb, hmu⟩]
      exact ⟨n, hn, hc, rfl, hu⟩
  · refine (hi c).mono fun x y hxy => (hold x y hxy).resolve_right ?_
    rintro ⟨n, hn, hc, -, hu, hbegins⟩
    exact hnew ⟨n, hn, hc, hu, y, hbegins⟩

/-! ### Between calls -/

/-- The actors that are waiting wait in calls that what waits at them may wait for. -/
def Ranked (s : Sys) : Prop := ∀ n < s.history.nreq, s.history.Unanswered n → ∀ b, s.WaitsAt n b →
  s.MayWait rank (s.history.pack n).callId b

theorem Ranked.step (hi : s.Ranked rank) (h : Move cfg s l t) (hs : Orderly cfg s) (ht : Orderly cfg t)
    (hd : Undelivered s) (hmarks : KeepsMarks s l) (hok : s.InOrder rank cfg l) : t.Ranked rank := by
  intro n hn hu b hw hflag
  obtain ⟨hlt, hcase⟩ := h.waitsAt hs hd ht hn hw
  have hus := h.grows.unanswered hlt hu
  rw [h.grows.pack n hlt]
  rcases h.mark hs.toSound hflag with ⟨hflags, hsame⟩ | ⟨k, af, d, q, rest, select, rfl, hdep, hcall⟩
  · rw [hsame]
    rcases hcase with hold | hbegins
    · exact hi n hlt hus b hold hflags
    · cases hbegins with
      | buffered hdep =>
          obtain ⟨actorName, hservice, hmin, -⟩ := Registry.route_ok hdep.route
          rw [(hs.toSound.departs hdep).2.1]
          exact (hok _ hdep.taken).1 actorName hservice b (List.argmin_mem hmin) hflags
      | delivered hk hleft => exact hok hleft (_, b) (by rw [hk]; rfl) hflags
  · -- a request of the actor is dispatched, while others wait at it
    rw [hcall]
    have hissuer := hdep.issuer_eq (hmarks.pidKept k rfl)
    rcases hcase with hold | hbegins
    · refine (hok _ hdep.taken).2 n hlt hus ?_
      rwa [← hissuer]
    · cases hbegins with
      | buffered hdep' =>
          have hne := hdep'.select_ne_issuer hs.toSound (hmarks.pidKept k rfl)
          exact absurd (hdep.unique hdep').2.1 hne

theorem Ranked.of_behind (hi : s.Ranked rank) (hs : Sound cfg s) (hm : CallsMarked s) (h : s.Behind c d) :
    rank d < rank c := by
  obtain ⟨hne, a, b, x, ⟨n, hn, rfl, -, hu, hw⟩, m, hm', rfl, rfl, hmu, hmw⟩ := h
  obtain ⟨hflag, hcall⟩ := hm.of_waits hs hm' hmu hmw
  have hrank := hi n hn hu _ hw hflag
  rw [hcall] at hrank
  exact hrank.resolve_left fun heq => hne heq.symm

/-- When calls do not wait behind each other in a circle, the actors do not wait for each other in one. -/
theorem CallsStraight.acyclic (hi : CallsStraight s) (hs : Sound cfg s) (hm : CallsMarked s)
    (hb : Acyclic s.Behind) : Acyclic s.WaitsFor := by
  have hwithin : ∀ {x y}, s.WaitsFor x y → s.WaitsWithin (s.proxy.actors x).callId x y := by
    rintro x y ⟨n, hn, rfl, hu, hw⟩
    exact ⟨n, hn, (hm.of_waits hs hn hu hw).2.symm, rfl, hu, hw⟩
  refine acyclic_of_labels (fun x => (s.proxy.actors x).callId) (fun c => ?_) (hb.mono ?_)
  · refine (hi c).mono ?_
    rintro x y ⟨hxy, rfl⟩
    exact hwithin hxy
  · rintro c d ⟨hne, x, y, z, hxy, hyz, rfl, rfl⟩
    exact ⟨hne, x, y, z, hwithin hxy, hwithin hyz⟩

/-- A link of a call that is not the innermost was delivered to an actor that asks for something in the
call. -/
theorem CalleesSilent.inner (hsilent : CalleesSilent s) (hs : Sound cfg s) {L : List Ref} {ns : List Nat}
    (hst : s.history.Stack c L a ns) (hn : n ∈ ns) (hne : ns.head? ≠ some n) :
    ∃ y, (s.history.block n).head? = some y ∧ s.history.written n = [y] ∧ s.history.Asks c y ∧
      s.history.delivered n = true := by
  obtain ⟨hlive, m, hm, htop⟩ := hst.stacked.of_not_head hn hne
  obtain ⟨hlt, hc, -, -⟩ := (hst.mem n).mp hn
  obtain ⟨hmlt, hmc, -, hmu⟩ := (hst.mem m).mp hm
  obtain ⟨z, hz⟩ := List.exists_mem_of_ne_nil _ hlive.1
  have hw := hs.booked.written_eq hlt hz
  rw [History.block_live_cons hlive hw] at htop
  have hask : s.history.Asks c z := ⟨m, hmlt, hmc, (Option.some.inj htop).symm, hmu⟩
  refine ⟨z, by rw [History.block_live_cons hlive hw]; rfl, hw, hask, ?_⟩
  by_contra hdel
  rw [← hc] at hask
  exact hsilent n hlt hlive (by simpa using hdel) z hz hask

theorem WaitsAt.dispatched (h : s.WaitsAt n b) : ¬ s.history.Undispatched n := by
  rcases h with ⟨hb, -⟩ | ⟨-, hb⟩
  · exact fun hund => List.ne_nil_of_mem hb hund.1
  · exact fun hund => List.ne_nil_of_mem hb hund.2

/-- Within a call all waits lead to the actor that asks for nothing in it. -/
theorem CalleesSilent.path_within (hsilent : CalleesSilent s) (hs : Sound cfg s) {y : Ref}
    (hab : s.WaitsWithin c a b) (hnot : ¬ s.history.Asks c b) (hxy : s.WaitsWithin c x y) :
    TransGen s.WaitsFor x b := by
  obtain ⟨n, hn, hc, -, hu, hw⟩ := hab
  obtain ⟨m, hm, hmc, rfl, hmu, hmw⟩ := hxy
  obtain ⟨L, opener, ns, -, hst⟩ := hs.stack hn
  rw [hc] at hst
  have hmem : n ∈ ns := (hst.mem n).mpr ⟨hn, hc, hw.dispatched, hu⟩
  have hhead : ns.head? = some n := by
    by_contra hne
    obtain ⟨y, -, hwritten, hask, -⟩ := hsilent.inner hs hst hmem hne
    rcases hw with ⟨-, q, hq, rfl⟩ | ⟨-, hb⟩
    · rw [(hs.booked.queued b q hq).2.2.1] at hwritten
      cases hwritten
    · rw [hwritten, List.mem_singleton] at hb
      exact hnot (hb ▸ hask)
  obtain ⟨ns', rfl⟩ := List.head?_eq_some_iff.mp hhead
  have hlast : s.WaitsFor (s.history.issuer n) b := ⟨n, hn, rfl, hu, hw⟩
  rcases List.mem_cons.mp ((hst.mem m).mpr ⟨hm, hmc, hmw.dispatched, hmu⟩) with rfl | hin
  · exact .single hlast
  · refine .tail (hst.stacked.path (fun k hk y hy => ?_) hin) hlast
    have hkn : (n :: ns').head? ≠ some k := by
      rintro heq
      obtain rfl := Option.some.inj heq
      obtain ⟨-, -, -, -, hnodup, -⟩ := hst.stacked.top
      exact hnodup hk
    obtain ⟨hklt, -, -, hku⟩ := (hst.mem k).mp (List.mem_cons_of_mem _ hk)
    obtain ⟨y', hy', hwritten, -, hdel⟩ := hsilent.inner hs hst (List.mem_cons_of_mem _ hk) hkn
    obtain rfl := Option.some.inj (hy.symm.trans hy')
    exact ⟨k, hklt, rfl, hku, Or.inr ⟨hdel, by rw [hwritten]; exact List.mem_singleton_self _⟩⟩

/-- An actor asks for something in one call at a time. -/
theorem Sound.not_asks (hs : Sound cfg s) (h : s.WaitsWithin d b x) (hne : c ≠ d) : ¬ s.history.Asks c b := by
  obtain ⟨n, hn, rfl, rfl, hu, -⟩ := h
  rintro ⟨m, hm, rfl, hi, hmu⟩
  exact hne (by rw [hs.booked.one m hm n hn hi hmu hu])

theorem CalleesSilent.path_of_behind (hsilent : CalleesSilent s) (hs : Sound cfg s) (h : TransGen s.Behind c d) :
    ∃ a b x y, s.WaitsWithin c a b ∧ ¬ s.history.Asks c b ∧ s.WaitsWithin d x y ∧ ReflTransGen s.WaitsFor b x := by
  induction h with
  | single h =>
      obtain ⟨hne, a, b, x, hab, hbx⟩ := h
      exact ⟨a, b, b, x, hab, hs.not_asks hbx hne, hbx, .refl⟩
  | tail _ h ih =>
      obtain ⟨hne, a', b', x', hab', hbx'⟩ := h
      obtain ⟨a, b, x, y, hab, hnot, hxy, hpath⟩ := ih
      have hnext := hsilent.path_within hs hab' (hs.not_asks hbx' hne) hxy
      exact ⟨a, b, b', x', hab, hnot, hbx', hpath.trans hnext.to_reflTransGen⟩

theorem CalleesSilent.behind_acyclic (hsilent : CalleesSilent s) (hs : Sound cfg s)
    (h : Acyclic s.WaitsFor) : Acyclic s.Behind := by
  intro c hc
  obtain ⟨a, b, x, y, hab, hnot, hxy, hpath⟩ := hsilent.path_of_behind hs hc
  exact h b (TransGen.trans_right hpath (hsilent.path_within hs hab hnot hxy))

/-- What a run keeps whose steps keep the marks of the issuers. -/
theorem Orderly.straight {ok : Sys → Label → Prop} (hok : ∀ s l, ok s l → KeepsMarks s l) {I : Sys → Prop}
    (hr : Reachable (machine cfg) (fun s l => Rule cfg s l ∧ OpensFresh s l ∧ ok s l) s) (hinit : I Sys.init)
    (hstep : ∀ s l t, Orderly cfg s → Orderly cfg t → Undelivered s → Move cfg s l t → ok s l → I s → I t) :
    Orderly cfg s ∧ I s ∧ CallsMarked s ∧ CalleesSilent s ∧ CallsStraight s := by
  obtain ⟨hs, hi, -, hm, hsilent, hstraight⟩ := Orderly.invariant
    (I := fun s => I s ∧ Undelivered s ∧ CallsMarked s ∧ CalleesSilent s ∧ CallsStraight s) hr
    ⟨hinit, undelivered_init, fun _ h => absurd h (Nat.not_lt_zero _), fun _ h => absurd h (Nat.not_lt_zero _),
      fun _ => acyclic_empty fun x y ⟨n, hn, _⟩ => absurd hn (Nat.not_lt_zero _)⟩ <| by
    rintro s l t hs ht h hrule hl ⟨hi, hd, hm, hsilent, hstraight⟩
    exact ⟨hstep s l t hs ht hd h hl hi, hd.step h hs hrule, hm.step h hs hd hrule (hok s l hl),
      hsilent.step hm h hs ht hrule, hstraight.step h hs ht hd hm hsilent⟩
  exact ⟨hs, hi, hm, hsilent, hstraight⟩

end Sys

end CoroActor.Proxy
