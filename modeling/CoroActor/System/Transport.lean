import CoroActor.Proxy.Execution
import CoroActor.System.Conversation

/-! The frames from the proxy to the processes. Each frame means one thing: it is the CONNACK, the REQUEST that was
read under a number, or the RESPONSE that some process has written to such a REQUEST. It goes out once, to whom it
is meant for, and a process that reads gets the frames that have gone out to it, in order. -/

namespace CoroActor.Cluster

open TransitionSystem Framing Reading Link

namespace Sys

/-- The REQUESTs that have gone out to the process, and those of them that it has read. -/
def requests (s : Sys) (k : Proxy.Conn) : List Nat := (s.sent k).filterMap fun x => requestOf x.2

def requestsRead (s : Sys) (k : Proxy.Conn) : List Nat :=
  ((s.sent k).take (s.seen k)).filterMap fun x => requestOf x.2

/-- The REQUESTs to which the process has read the RESPONSE. -/
def responsesRead (s : Sys) (k : Proxy.Conn) : List Nat :=
  ((s.sent k).take (s.seen k)).filterMap fun x => responseTo x.2

/-- A process that got the REQUEST has written this RESPONSE to it. -/
def Replied (s : Sys) (n : Nat) (p : CoroActorResponse) : Prop :=
  ∃ (k : Proxy.Conn) (d : Nat), (s.requests k)[d]? = some n ∧ (s.process k).history.responses[d]? = some p

/-- What a frame to the process means. -/
def Meant (cfg : System.Setting) (s : Sys) (k : Proxy.Conn) (f : Frame) : Proxy.Carries → Prop
  | .connack => f = (Pack.connack ⟨true⟩).frame cfg.codec.serialize
  | .request n => n < s.proxy.history.nreq ∧
      f = (Pack.request (s.proxy.history.pack n)).frame cfg.codec.serialize ∧
      ∃ r < s.proxy.proxy.nactors, r ∈ s.proxy.history.written n ∧ (s.proxy.proxy.actors r).socket = k
  | .response none => False
  | .response (some n) => n < s.proxy.history.nreq ∧ s.proxy.history.conn n = k ∧
      (∃ r < s.proxy.proxy.nactors, r ∈ s.proxy.history.replies n ∧ (s.proxy.proxy.actors r).socket = k) ∧
      ∃ p, f = (Pack.response p).frame cfg.codec.serialize ∧ s.Replied n p

/-- It is recorded that the frame has gone out. -/
def Gone (s : Sys) : Proxy.Carries → Prop
  | .request n => s.proxy.history.delivered n = true
  | .response (some n) => s.proxy.history.returned n = true
  | .connack | .response none => True

/-- Nothing that has happened is taken back. -/
structure Extends (s t : Sys) : Prop where
  history : s.proxy.history.Grows t.proxy.history
  socket : ∀ r < s.proxy.proxy.nactors, r < t.proxy.proxy.nactors ∧
    (t.proxy.proxy.actors r).socket = (s.proxy.proxy.actors r).socket
  requests : ∀ k, s.requests k <+: t.requests k
  responses : ∀ k, (s.process k).history.responses <+: (t.process k).history.responses

variable {cfg : System.Setting} {s t : Sys} {k j : Proxy.Conn} {n : Nat} {f : Frame} {c : Proxy.Carries}
  {l : Proxy.Label} {p : CoroActorResponse} {x : Frame × Proxy.Carries}

theorem Replied.mono (h : s.Replied n p) (hst : s.Extends t) : t.Replied n p := by
  obtain ⟨k, d, hn, hp⟩ := h
  obtain ⟨moreq, hmoreq⟩ := hst.requests k
  obtain ⟨moreR, hmoreR⟩ := hst.responses k
  refine ⟨k, d, ?_, ?_⟩
  · rw [← hmoreq, List.getElem?_append_left (List.getElem?_eq_some_iff.mp hn).1, hn]
  · rw [← hmoreR, List.getElem?_append_left (List.getElem?_eq_some_iff.mp hp).1, hp]

theorem Meant.mono (h : s.Meant cfg k f c) (hst : s.Extends t) : t.Meant cfg k f c := by
  have hg := hst.history
  cases c with
  | connack => exact h
  | request n =>
      obtain ⟨hn, hf, r, hr, hw, hk⟩ := h
      refine ⟨hn.trans_le hg.nreq, ?_, r, (hst.socket r hr).1, (hg.written n hn).subset hw, ?_⟩
      · rw [hg.pack n hn, hf]
      · rw [(hst.socket r hr).2, hk]
  | response m =>
      cases m with
      | none => exact h
      | some n =>
          obtain ⟨hn, hk, ⟨r, hr, hw, hrk⟩, p, hf, hp⟩ := h
          refine ⟨hn.trans_le hg.nreq, ?_, ⟨r, (hst.socket r hr).1, (hg.replies n hn).subset hw, ?_⟩, p, hf,
            hp.mono hst⟩
          · rw [hg.conn n hn, hk]
          · rw [(hst.socket r hr).2, hrk]

theorem Gone.mono (h : s.Gone c) (hst : s.Extends t) (hm : s.Meant cfg k f c) : t.Gone c := by
  cases c with
  | connack => trivial
  | request n => exact hst.history.delivered n hm.1 h
  | response m =>
      cases m with
      | none => trivial
      | some n => exact hst.history.returned n hm.1 h

theorem Extends.of_process (hproxy : t.proxy = s.proxy) (hsent : t.sent = s.sent)
    (hresponses : ∀ k, (s.process k).history.responses <+: (t.process k).history.responses) : s.Extends t where
  history := by
    rw [hproxy]
    exact .refl _
  socket r hr := by
    rw [hproxy]
    exact ⟨hr, rfl⟩
  requests k := by rw [Sys.requests, Sys.requests, hsent]
  responses := hresponses

/-- The frames on their way to the processes. -/
structure Transport (cfg : System.Setting) (s : Sys) : Prop where
  whole : ∀ k, s.proxy.Whole k ((s.sent k).map Prod.fst)
  seen : ∀ k, s.seen k ≤ (s.sent k).length
  taken : ∀ k, (s.system.peer k).taken =
    ((((s.sent k).take (s.seen k)).map Prod.fst).flatMap Frame.bytes).length
  started : ∀ k, (s.system.peer k).started = true → 0 < s.seen k
  meant : ∀ k, ∀ x ∈ s.sent k, s.Meant cfg k x.1 x.2
  gone : ∀ k, ∀ x ∈ s.sent k, s.Gone x.2
  writing : ∀ j k, s.proxy.Unfinished j k → s.Meant cfg k (s.proxy.write j).frame (s.proxy.write j).carries
  once : ∀ k, (s.sent k).Pairwise fun x y => x.2 = y.2 → x.2 = .connack
  fresh : ∀ j k, s.proxy.Unfinished j k → (s.proxy.write j).carries ≠ .connack →
    ∀ x ∈ s.sent k, x.2 ≠ (s.proxy.write j).carries

theorem transport_init (cfg : System.Setting) : Transport cfg (Sys.init cfg) where
  whole := Proxy.Sys.whole_init
  seen _ := Nat.le_refl _
  taken _ := rfl
  started _ h := by cases h
  meant _ _ hx := absurd hx List.not_mem_nil
  gone _ _ hx := absurd hx List.not_mem_nil
  writing _ _ hj := absurd hj.1 Bool.false_ne_true
  once _ := List.Pairwise.nil
  fresh _ _ hj := absurd hj.1 Bool.false_ne_true

namespace Transport

variable (hT : Transport cfg s)

include hT

theorem keep (hproxy : t.proxy = s.proxy) (hsent : t.sent = s.sent) (hst : s.Extends t)
    (hseen : ∀ k, t.seen k ≤ (t.sent k).length)
    (htaken : ∀ k, (t.system.peer k).taken = ((((t.sent k).take (t.seen k)).map Prod.fst).flatMap Frame.bytes).length)
    (hstarted : ∀ k, (t.system.peer k).started = true → 0 < t.seen k) : Transport cfg t := by
  refine ⟨?_, hseen, htaken, hstarted, ?_, ?_, ?_, ?_, ?_⟩
  · rw [hproxy, hsent]
    exact hT.whole
  · rw [hsent]
    exact fun k x hx => (hT.meant k x hx).mono hst
  · rw [hsent]
    exact fun k x hx => (hT.gone k x hx).mono hst (hT.meant k x hx)
  · rw [hproxy]
    exact fun j k hj => (hT.writing j k hj).mono hst
  · rw [hsent]
    exact hT.once
  · rw [hproxy, hsent]
    exact hT.fresh

/-- The frame of a number goes out once. -/
theorem unique {m i : Nat} {y : Frame × Proxy.Carries} (hx : (s.sent k)[i]? = some x) (hy : (s.sent k)[m]? = some y)
    (heq : x.2 = y.2) (hne : x.2 ≠ .connack) : i = m := by
  obtain ⟨hi, hxi⟩ := List.getElem?_eq_some_iff.mp hx
  obtain ⟨hm, hym⟩ := List.getElem?_eq_some_iff.mp hy
  have hpair := List.pairwise_iff_getElem.mp (hT.once k)
  rcases Nat.lt_trichotomy i m with hlt | heqi | hlt
  · have hconnack := hpair i m hi hm hlt
    rw [hxi, hym] at hconnack
    exact absurd (hconnack heq) hne
  · exact heqi
  · have hconnack := hpair m i hm hi hlt
    rw [hxi, hym] at hconnack
    exact absurd (heq ▸ hconnack heq.symm) hne

end Transport

/-! ### The proxy moves -/

/-- The proxy makes this step, and the processes and what they have read stay as they are. -/
structure ProxyMoves (cfg : System.Setting) (s t : Sys) (l : Proxy.Label) : Prop where
  step : s.proxy.step cfg.proxy l = some t.proxy
  sent : ∀ k, t.sent k = s.sent k ++ s.proxy.wentOut k l
  seen : t.seen = s.seen
  peer : t.system.peer = s.system.peer

theorem proxyMoves_of_step {u : Proxy.Sys} (hstep : s.proxy.step cfg.proxy l = some u) : s.ProxyMoves cfg
    { s with system := { s.system with proxy := u }, sent := fun j => s.sent j ++ s.proxy.wentOut j l } l :=
  ⟨hstep, fun _ => rfl, rfl, rfl⟩

theorem proxyMoves_of_read {u : Proxy.Sys} {o : Outgoing} (rest : List Outgoing)
    (hstep : s.proxy.step cfg.proxy (.read k (s.input cfg k o)) = some u) : s.ProxyMoves cfg
      { s with
        system := { s.system with proxy := u }
        outbox := Function.update s.outbox k rest
        serial := Function.update s.serial k (s.numbered k o) } (.read k (s.input cfg k o)) :=
  ⟨hstep, fun _ => (List.append_nil _).symm, rfl, rfl⟩

/-- What a RESPONSE that the proxy reads answers was sent to the process, and its issuer gets the answer. -/
def Answered (s : Sys) : Proxy.Label → Prop
  | .read k (.response p) => ∃ (d n : Nat), s.proxy.answered k p.callId = some n ∧
      s.proxy.history.buffered n = [] ∧ (s.requests k)[d]? = some n ∧ (s.process k).history.responses[d]? = some p
  | _ => True

namespace ProxyMoves

variable (hmoves : s.ProxyMoves cfg t l) (hs : Proxy.Sys.Orderly cfg.proxy s.proxy)

include hmoves

theorem process (k : Proxy.Conn) : t.process k = s.process k := by
  rw [Sys.process, Sys.process, hmoves.peer]

theorem requests (k : Proxy.Conn) :
    t.requests k = s.requests k ++ (s.proxy.wentOut k l).filterMap fun x => requestOf x.2 := by
  rw [Sys.requests, hmoves.sent, List.filterMap_append]
  rfl

theorem take_sent (hT : Transport cfg s) (k : Proxy.Conn) :
    (t.sent k).take (t.seen k) = (s.sent k).take (s.seen k) := by
  rw [hmoves.seen, hmoves.sent, List.take_append_of_le_length (hT.seen k)]

/-- A frame that has gone out was being written, and nothing of it is left. -/
theorem wentOut (hx : x ∈ s.proxy.wentOut k l) : ∃ j count, l = .transfer j count ∧ s.proxy.Unfinished j k ∧
    (s.proxy.write j).left.drop (count + 1) = [] ∧ x = ((s.proxy.write j).frame, (s.proxy.write j).carries) ∧
    t.proxy = s.proxy.onTransfer j (count + 1) := by
  cases l with
  | transfer j count =>
      rw [Proxy.Sys.wentOut_transfer] at hx
      split at hx
      · next hdone =>
          have hstep := hmoves.step
          simp only [Proxy.Sys.step, Option.ite_none_right_eq_some, Option.some.injEq] at hstep
          obtain ⟨⟨-, hj, hleft⟩, ht⟩ := hstep
          exact ⟨j, count, rfl, ⟨hj, hdone.1, hleft⟩, hdone.2, List.mem_singleton.mp hx, ht.symm⟩
      · cases hx
  | _ => cases hx

include hs

theorem move : Proxy.Sys.Move cfg.proxy s.proxy l t.proxy := Proxy.Sys.step_move hs.wired.isOpen hmoves.step

theorem grows : s.Extends t where
  history := (hmoves.move hs).grows
  socket _ hr := (hmoves.move hs).socket hr
  requests k := by
    rw [hmoves.requests]
    exact List.prefix_append _ _
  responses k := by rw [hmoves.process]

/-- A write that is started is meant for the socket, and it is the first one of what it carries. -/
theorem start (hT : Transport cfg s) (hrule : Proxy.Lawful cfg.proxy s.proxy l) (hans : s.Answered l) {w : Proxy.Write}
    {h : Proxy.History} (hw : Proxy.Sys.Starts cfg.proxy s.proxy l j w h)
    (hhist : t.proxy.history = h.frame w.socket w.frame) : t.Meant cfg w.socket w.frame w.carries ∧
      (w.carries ≠ .connack → ∀ k, ∀ x ∈ s.sent k, x.2 ≠ w.carries) := by
  have hgrows := hmoves.grows hs
  cases hw with
  | connack => exact ⟨rfl, fun hne => absurd rfl hne⟩
  | @response k p L back afSelf hchain =>
      obtain ⟨n, hn, hanswered, hlive, -, -, -, -, hback, -⟩ := hs.toSound.reply hrule.1 hchain
      obtain ⟨d, m, hm, hbuffered, hsent, hresponse⟩ := hans
      obtain rfl : m = n := Option.some.inj (hm.symm.trans hanswered)
      rw [Proxy.History.holder_of_buffered_nil hbuffered] at hback
      subst hback
      have hentry := hs.booked.entry m hn
      simp only [hanswered] at hhist ⊢
      constructor
      · refine ⟨?_, ?_, ⟨_, (hgrows.socket _ hentry.issuer_lt).1, ?_, (hgrows.socket _ hentry.issuer_lt).2⟩, p, rfl,
          Replied.mono ⟨_, d, hsent, hresponse⟩ hgrows⟩
        · rw [hhist]
          exact hn
        · rw [hhist]
          exact hentry.issuer_socket.symm
        · rw [hhist]
          simp
      · intro _ k' x hx heq
        have hmeant := hT.meant k' x hx
        rw [heq] at hmeant
        obtain ⟨-, -, ⟨r, -, hr, -⟩, -⟩ := hmeant
        rw [hlive.2] at hr
        cases hr
  | @request k af c q rest issuer select hd hsw =>
      obtain ⟨hn, hpack, hunwritten, -, hlt, -⟩ := hs.toSound.departs hd
      constructor
      · refine ⟨?_, ?_, select, (hgrows.socket _ hlt).1, ?_, (hgrows.socket _ hlt).2⟩
        · rw [hhist]
          exact hn
        · rw [hhist]
          show _ = (Pack.request (s.proxy.history.pack q.serial)).frame cfg.codec.serialize
          rw [hpack]
          rfl
        · rw [hhist]
          simp
      · intro _ k' x hx heq
        have hmeant := hT.meant k' x hx
        rw [heq] at hmeant
        obtain ⟨-, -, r, -, hr, -⟩ := hmeant
        rw [hunwritten] at hr
        cases hr

/-- A coroutine that is at a write after the step has been there before, or it has started the write. -/
theorem writing (hT : Transport cfg s) (hrule : Proxy.Lawful cfg.proxy s.proxy l) (hans : s.Answered l)
    (hj : t.proxy.Unfinished j k) : t.Meant cfg k (t.proxy.write j).frame (t.proxy.write j).carries ∧
      ((t.proxy.write j).carries ≠ .connack → ∀ x ∈ t.sent k, x.2 ≠ (t.proxy.write j).carries) := by
  have hmove := Proxy.Sys.step_writeMove hs.wired.isOpen hs.wired.absent hmoves.step
  rcases hmove.unfinished hj with ⟨hold, hframe, hcarries⟩ | ⟨⟨h, hw, hhist⟩, hk⟩
  · rw [hframe, hcarries]
    refine ⟨(hT.writing j k hold).mono (hmoves.grows hs), fun hne x hx => ?_⟩
    rw [hmoves.sent] at hx
    rcases List.mem_append.mp hx with hmem | hnew
    · exact hT.fresh j k hold hne x hmem
    · obtain ⟨i, count, -, hi, hdone, -, ht⟩ := hmoves.wentOut hnew
      obtain rfl := (hT.whole k).single j i hold hi
      rw [ht] at hj
      refine absurd ?_ hj.2.2
      show (Function.update s.proxy.write j _ j).left = []
      rw [Function.update_self]
      exact hdone
  · obtain ⟨hmeant, hfirst⟩ := hmoves.start hs hT hrule hans hw hhist
    rw [hk] at hmeant
    refine ⟨hmeant, fun hne x hx => ?_⟩
    rw [hmoves.sent, Proxy.Sys.wentOut_of_ne, List.append_nil] at hx
    · exact hfirst hne k x hx
    · rintro i count rfl
      cases hw

/-- The frames on their way after a step of the proxy. -/
theorem transport (hT : Transport cfg s) (hrule : Proxy.Lawful cfg.proxy s.proxy l)
    (hok : s.proxy.KeepsFrames cfg.proxy l) (hans : s.Answered l) : Transport cfg t where
  whole k := by
    rw [hmoves.sent, List.map_append]
    exact (hT.whole k).step hs.wired.toAccepted hmoves.step hok
  seen k := by
    rw [hmoves.seen, hmoves.sent, List.length_append]
    exact Nat.le_add_right_of_le (hT.seen k)
  taken k := by
    rw [hmoves.peer, hmoves.take_sent hT]
    exact hT.taken k
  started k := by
    rw [hmoves.peer, hmoves.seen]
    exact hT.started k
  meant k x hx := by
    rw [hmoves.sent] at hx
    rcases List.mem_append.mp hx with hold | hnew
    · exact (hT.meant k x hold).mono (hmoves.grows hs)
    · obtain ⟨j, count, -, hj, -, rfl, -⟩ := hmoves.wentOut hnew
      exact (hT.writing j k hj).mono (hmoves.grows hs)
  gone k x hx := by
    rw [hmoves.sent] at hx
    rcases List.mem_append.mp hx with hold | hnew
    · exact (hT.gone k x hold).mono (hmoves.grows hs) (hT.meant k x hold)
    · obtain ⟨j, count, -, -, hdone, rfl, ht⟩ := hmoves.wentOut hnew
      have hhist : t.proxy.history = s.proxy.history.wentOut (s.proxy.write j).carries := by
        rw [ht]
        exact if_pos hdone
      unfold Gone
      rw [hhist]
      generalize (s.proxy.write j).carries = c
      cases c with
      | connack => trivial
      | request n => simp
      | response m => cases m <;> simp
  writing j k hj := (hmoves.writing hs hT hrule hans hj).1
  once k := by
    rw [hmoves.sent, List.pairwise_append]
    refine ⟨hT.once k, ?_, fun x hx y hy heq => ?_⟩
    · cases l with
      | transfer j count =>
          rw [Proxy.Sys.wentOut_transfer]
          split
          · exact List.pairwise_singleton _ _
          · exact List.Pairwise.nil
      | _ => exact List.Pairwise.nil
    · obtain ⟨j, count, -, hj, -, rfl, -⟩ := hmoves.wentOut hy
      by_contra hne
      exact hT.fresh j k hj (fun hc => hne (heq.trans hc)) x hx heq
  fresh j k hj := (hmoves.writing hs hT hrule hans hj).2

end ProxyMoves

/-! ### A process reads -/

/-- What a process makes of a frame. -/
def Gets (s : Sys) : Proxy.Carries → Worker.Label → Prop
  | .connack, l => ∃ proto, l = .other proto
  | .request n, l => l = .request (s.proxy.history.pack n)
  | .response none, _ => False
  | .response (some n), l => ∃ p, l = .response p ∧ s.Replied n p

/-- A frame is read as what it was meant to be. -/
theorem Meant.gets (h : s.Meant cfg k f c) : ∃ p : Pack, f = p.frame cfg.codec.serialize ∧
    s.Gets c (System.received (p.atActor cfg.codec)) := by
  cases c with
  | connack => exact ⟨.connack ⟨true⟩, h, coroActorConnack, rfl⟩
  | request n => exact ⟨.request (s.proxy.history.pack n), h.2.1, rfl⟩
  | response m =>
      cases m with
      | none => exact h.elim
      | some n =>
          obtain ⟨-, -, -, p, hf, hp⟩ := h
          exact ⟨.response p, hf, p, rfl, hp⟩

theorem Meant.connack (h : s.Meant cfg k f c) (hproto : f.proto = coroActorConnack) : c = .connack := by
  cases c with
  | connack => rfl
  | request n =>
      rw [h.2.1] at hproto
      cases hproto
  | response m =>
      cases m with
      | none => exact h.elim
      | some n =>
          obtain ⟨-, -, -, p, hf, -⟩ := h
          rw [hf] at hproto
          cases hproto

namespace Transport

variable (hT : Transport cfg s)

include hT

/-- What has not been read are the frames that have not been, and of one more frame a part. -/
theorem unread_split (k : Proxy.Conn) : ∃ part,
    s.proxy.stream k = (((s.sent k).take (s.seen k)).map Prod.fst).flatMap Frame.bytes ++ s.system.unread k ∧
    s.system.unread k = (((s.sent k).drop (s.seen k)).map Prod.fst).flatMap Frame.bytes ++ part ∧
    (part = [] ∨ ∃ f ∈ s.proxy.history.frames k, part <+: f.bytes ∧ part ≠ f.bytes) := by
  obtain ⟨part, hstream, hpart⟩ := (hT.whole k).stream
  have hsplit : s.proxy.stream k = (((s.sent k).take (s.seen k)).map Prod.fst).flatMap Frame.bytes ++
      ((((s.sent k).drop (s.seen k)).map Prod.fst).flatMap Frame.bytes ++ part) := by
    rw [hstream, ← List.append_assoc, ← List.flatMap_append, ← List.map_append, List.take_append_drop]
  have hunread : s.system.unread k = (((s.sent k).drop (s.seen k)).map Prod.fst).flatMap Frame.bytes ++ part := by
    rw [System.Sys.unread, hT.taken, show s.system.proxy.stream k = _ from hsplit, List.drop_left]
  exact ⟨part, by rw [hsplit, hunread], hunread, hpart⟩

theorem unread_next (hr : System.Routed cfg s.proxy) (hx : (s.sent k)[s.seen k]? = some x) :
    ∃ more, s.system.unread k = x.1.bytes ++ more ∧ x.1.payload.length < UInt32.size ∧
      ∀ rest : Stream UInt8, rest.flatten = more → s.system.takenTo k rest =
        ((((s.sent k).take (s.seen k + 1)).map Prod.fst).flatMap Frame.bytes).length := by
  obtain ⟨part, hstream, hunread, -⟩ := hT.unread_split k
  have hmem : x.1 ∈ s.proxy.history.frames k :=
    (hT.whole k).given x.1 (List.mem_map_of_mem (List.mem_of_getElem? hx))
  have hdrop : (s.sent k).drop (s.seen k) = x :: (s.sent k).drop (s.seen k + 1) := by
    obtain ⟨hlt, hget⟩ := List.getElem?_eq_some_iff.mp hx
    rw [List.drop_eq_getElem_cons hlt, hget]
  rw [hdrop, List.map_cons, List.flatMap_cons, List.append_assoc] at hunread
  refine ⟨_, hunread, System.Sys.due_size (hr.frames k _ hmem), fun rest hrest => ?_⟩
  rw [System.Sys.takenTo, hrest, List.take_add_one, hx, Option.toList_some, List.map_append, List.flatMap_append,
    List.map_singleton, List.flatMap_singleton, show s.system.proxy.stream k = _ from hstream, hunread]
  simp only [List.length_append]
  omega

/-- What comes next is the next frame that has gone out, or a beginning of a frame. -/
theorem next (hr : System.Routed cfg s.proxy) (hack : Pack.Sized cfg.codec (.connack ⟨true⟩)) (k : Proxy.Conn) :
    (∃ x more, (s.sent k)[s.seen k]? = some x ∧ s.system.unread k = x.1.bytes ++ more ∧
      x.1.payload.length < UInt32.size ∧ ∀ rest : Stream UInt8, rest.flatten = more → s.system.takenTo k rest =
        ((((s.sent k).take (s.seen k + 1)).map Prod.fst).flatMap Frame.bytes).length) ∨
    ∃ p : Pack, p.Sized cfg.codec ∧ s.system.unread k <+: p.bytes cfg.codec ∧
      s.system.unread k ≠ p.bytes cfg.codec := by
  cases hx : (s.sent k)[s.seen k]? with
  | some x =>
      obtain ⟨more, hunread, hsize, htaken⟩ := hT.unread_next hr hx
      exact Or.inl ⟨x, more, rfl, hunread, hsize, htaken⟩
  | none =>
      right
      obtain ⟨part, -, hunread, hpart⟩ := hT.unread_split k
      rw [List.drop_eq_nil_of_le (List.getElem?_eq_none_iff.mp hx)] at hunread
      change s.system.unread k = part at hunread
      rw [hunread]
      rcases hpart with rfl | ⟨f, hf, hpre, hne⟩
      · exact ⟨.connack ⟨true⟩, hack, List.nil_prefix, (Frame.bytes_ne_nil _).symm⟩
      · obtain ⟨p, rfl, hsize, -⟩ := hr.frames k f hf
        exact ⟨p, hsize, hpre, hne⟩

theorem readConnack (hr : System.Routed cfg s.proxy) (hack : Pack.Sized cfg.codec (.connack ⟨true⟩)) {l l' : Locals}
    {rest : Stream UInt8} (hread : Link.readConnack l [s.system.unread k] = some (l', rest))
    (hproto : l'.proto = coroActorConnack) : ∃ f, (s.sent k)[s.seen k]? = some (f, .connack) ∧
      s.system.takenTo k rest = ((((s.sent k).take (s.seen k + 1)).map Prod.fst).flatMap Frame.bytes).length := by
  have hone : [s.system.unread k].flatten = s.system.unread k := List.flatten_singleton
  rcases hT.next hr hack k with ⟨x, more, hx, hunread, hsize, htaken⟩ | ⟨p, hsize, hpre, hne⟩
  · obtain ⟨rest', hread', hrest⟩ := readConnack_whole (l := l) hsize (hone.trans hunread)
    rw [hread', Option.some.injEq, Prod.mk.injEq] at hread
    obtain ⟨rfl, rfl⟩ := hread
    obtain ⟨f, c⟩ := x
    have hmeant := hT.meant k _ (List.mem_of_getElem? hx)
    obtain rfl := hmeant.connack hproto
    exact ⟨f, hx, htaken rest' hrest⟩
  · rw [← hone] at hpre hne
    rw [readConnack_cut hsize hpre hne] at hread
    cases hread

theorem receive (hr : System.Routed cfg s.proxy) (hinv : cfg.codec.deserialize.Inverts cfg.codec.serialize)
    (hack : Pack.Sized cfg.codec (.connack ⟨true⟩)) {out : Received} {l l' : Locals} {rest : Stream UInt8}
    (hround : handleActorInternal cfg.codec l [s.system.unread k] = .next out l' rest) :
    ∃ x, (s.sent k)[s.seen k]? = some x ∧ s.Gets x.2 (System.received out) ∧
      s.system.takenTo k rest = ((((s.sent k).take (s.seen k + 1)).map Prod.fst).flatMap Frame.bytes).length := by
  have hone : [s.system.unread k].flatten = s.system.unread k := List.flatten_singleton
  rcases hT.next hr hack k with ⟨x, more, hx, hunread, hsize, htaken⟩ | ⟨p, hsize, hpre, hne⟩
  · obtain ⟨p, hp, hgets⟩ := (hT.meant k x (List.mem_of_getElem? hx)).gets
    rw [hp] at hsize hunread
    obtain ⟨l'', rest', hround', hrest⟩ := (reads_internal hinv).whole l [s.system.unread k] p more hsize
      (hone.trans hunread)
    rw [hround', Round.next.injEq] at hround
    obtain ⟨rfl, -, rfl⟩ := hround
    exact ⟨x, hx, hgets, htaken rest' hrest⟩
  · rw [← hone] at hpre hne
    rw [(reads_internal hinv).cut l [s.system.unread k] p hsize hpre hne] at hround
    cases hround

end Transport

end Sys

end CoroActor.Cluster
