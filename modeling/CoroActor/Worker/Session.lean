import CoroActor.Link.Packs
import CoroActor.Worker.Account

/-! `coro_actor_session`: the read loop on the TCP socket of a client. It parses any stream of bytes: what it
hands to `push_msg` are the frames that the stream begins with. -/

namespace CoroActor.Worker

open Reading Framing TransitionSystem

/-- What a client sends for one request. Both lengths fit their field. -/
structure RemotePack where
  serviceName : StdString
  type : UInt8
  data : StdString
  service_length : serviceName.length < UInt16.size
  data_length : data.length < UInt32.size

/-- Its frame: two bytes of length, the service name, one byte of type, four bytes of length, the data. -/
def RemotePack.bytes (p : RemotePack) : List UInt8 :=
  hostToNetworkShort p.serviceName.length ++ p.serviceName ++ [p.type] ++ hostToNetworkLong p.data.length ++ p.data

/-- The session of an accepted connection. -/
structure CoroActorSession where
  socket : TcpConn
  isOpen : Bool

/-- The locals of `handle_remote_pack`. The lengths hold the bytes in network order. -/
structure SessionLocals where
  serviceLength : List UInt8
  serviceName : StdString
  type : UInt8
  dataLength : List UInt8
  requestData : StdString

namespace CoroActorSession

def stop (self : CoroActorSession) : CoroActorSession := { self with isOpen := false }

/-- The five reads of a round. Each fills its buffer, whatever that held before. -/
def readPack (l : SessionLocals) (st : Stream UInt8) : Option (SessionLocals × Stream UInt8) := do
  let (serviceLength, st) ← asyncRead 2 st
  let serviceName := Link.resize l.serviceName (networkToHostShort serviceLength)
  let (serviceName, st) ← asyncRead serviceName.length st
  let (type, st) ← asyncRead 1 st
  let (dataLength, st) ← asyncRead 4 st
  let requestData := Link.resize l.requestData (networkToHostLong dataLength)
  let (requestData, st) ← asyncRead requestData.length st
  some (⟨serviceLength, serviceName, type.headD l.type, dataLength, requestData⟩, st)

/-- A round of the loop, up to `push_msg`. What `std::move` leaves in the two strings is not specified. -/
def round (movedName movedData : StdString → StdString) (self : CoroActorSession) (l : SessionLocals)
    (st : Stream UInt8) : Round SessionLocals CoroActorMsg UInt8 :=
  match readPack l st with
  | none => .ended
  | some (l, rest) =>
      let msg : CoroActorMsg :=
        { serviceName := l.serviceName
          callId := []
          pack := ⟨l.type, l.requestData⟩
          socket := some self.socket
          unixSocket := false }
      .next msg { l with serviceName := movedName l.serviceName, requestData := movedData l.requestData } rest

/-- The messages that are handed to `push_msg`, and the session afterwards. Nobody else closes the socket. -/
def handleRemotePack (movedName movedData : StdString → StdString) (n : Nat) (self : CoroActorSession)
    (l : SessionLocals) (st : Stream UInt8) : Option (List CoroActorMsg × CoroActorSession) :=
  if self.isOpen then
    (readLoop (self.round movedName movedData) n l st).map fun r => (r.1, self.stop)
  else some ([], self)

end CoroActorSession

namespace RemotePack

variable {p q : RemotePack}

/-- The message for a request that came in on the socket. -/
def msg (socket : TcpConn) (p : RemotePack) : CoroActorMsg :=
  ⟨p.serviceName, [], ⟨p.type, p.data⟩, some socket, false⟩

theorem bytes_append (p : RemotePack) (more : List UInt8) : p.bytes ++ more =
    hostToNetworkShort p.serviceName.length ++
      (p.serviceName ++ ([p.type] ++ (hostToNetworkLong p.data.length ++ (p.data ++ more)))) := by
  simp only [bytes, List.append_assoc]

theorem bytes_ne_nil (p : RemotePack) : p.bytes ≠ [] := by
  unfold bytes
  simp [hostToNetworkShort]

/-- The two lengths say where a frame ends. -/
theorem prefixFree : PrefixFree bytes fun _ => True := by
  intro p q s t _ _ h
  rw [bytes_append, bytes_append] at h
  obtain ⟨hshort, hname⟩ := List.append_inj h rfl
  have hservice : p.serviceName.length = q.serviceName.length := by
    rw [← networkToHostShort_hostToNetworkShort p.service_length, hshort,
      networkToHostShort_hostToNetworkShort q.service_length]
  obtain ⟨hserviceName, htail⟩ := List.append_inj hname hservice
  obtain ⟨htype, hlong⟩ := List.append_inj htail rfl
  obtain ⟨hlength, hdata⟩ := List.append_inj hlong rfl
  have hsize : p.data.length = q.data.length := by
    rw [← networkToHostLong_hostToNetworkLong p.data_length, hlength,
      networkToHostLong_hostToNetworkLong q.data_length]
  obtain ⟨hvalue, hst⟩ := List.append_inj hdata hsize
  refine ⟨?_, hst⟩
  cases p
  cases q
  rw [RemotePack.mk.injEq]
  exact ⟨hserviceName, List.head_eq_of_cons_eq htype, hvalue⟩

theorem length_le (ps : List RemotePack) : ps.length ≤ (ps.flatMap bytes).length := by
  induction ps with
  | nil => exact Nat.le_refl 0
  | cons p ps ih =>
      have hpos : 0 < p.bytes.length := List.length_pos_iff.mpr p.bytes_ne_nil
      rw [List.flatMap_cons, List.length_append, List.length_cons]
      omega

end RemotePack

namespace CoroActorSession

variable {movedName movedData : StdString → StdString} {self : CoroActorSession} {n : Nat} {l : SessionLocals}
  {st : Stream UInt8}

theorem readPack_eq (l : SessionLocals) (st : Stream UInt8) : readPack l st =
    (asyncRead 2 st).bind fun serviceLength =>
      (asyncRead (networkToHostShort serviceLength.1) serviceLength.2).bind fun serviceName =>
        (asyncRead 1 serviceName.2).bind fun type =>
          (asyncRead 4 type.2).bind fun dataLength =>
            (asyncRead (networkToHostLong dataLength.1) dataLength.2).bind fun requestData =>
              some (⟨serviceLength.1, serviceName.1, type.1.headD l.type, dataLength.1, requestData.1⟩,
                requestData.2) := by
  simp only [readPack, Link.resize_length]
  rfl

/-- A frame that is there whole is read, and nothing after it. -/
theorem readPack_whole {p : RemotePack} {more : List UInt8} (hst : st.flatten = p.bytes ++ more) :
    ∃ rest, readPack l st = some (⟨hostToNetworkShort p.serviceName.length, p.serviceName, p.type,
      hostToNetworkLong p.data.length, p.data⟩, rest) ∧ rest.flatten = more := by
  rw [RemotePack.bytes_append] at hst
  obtain ⟨st1, hshort, h1⟩ := asyncRead_of_append hst
  obtain ⟨st2, hname, h2⟩ := asyncRead_of_append h1
  obtain ⟨st3, htype, h3⟩ := asyncRead_of_append h2
  obtain ⟨st4, hlong, h4⟩ := asyncRead_of_append h3
  obtain ⟨rest, hdata, hrest⟩ := asyncRead_of_append h4
  rw [hostToNetworkShort_length] at hshort
  rw [hostToNetworkLong_length] at hlong
  refine ⟨rest, ?_, hrest⟩
  rw [readPack_eq, hshort, Option.bind_some, networkToHostShort_hostToNetworkShort p.service_length, hname,
    Option.bind_some, show (1 : Nat) = [p.type].length from rfl, htype, Option.bind_some, hlong, Option.bind_some,
    networkToHostLong_hostToNetworkLong p.data_length, hdata]
  rfl

theorem readPack_eq_some {r : SessionLocals × Stream UInt8} (h : readPack l st = some r) :
    ∃ p : RemotePack, p.bytes <+: st.flatten := by
  rw [readPack_eq] at h
  obtain ⟨⟨serviceLength, st1⟩, hshort, h⟩ := Option.bind_eq_some_iff.mp h
  obtain ⟨⟨serviceName, st2⟩, hname, h⟩ := Option.bind_eq_some_iff.mp h
  obtain ⟨⟨type, st3⟩, htype, h⟩ := Option.bind_eq_some_iff.mp h
  obtain ⟨⟨dataLength, st4⟩, hlong, h⟩ := Option.bind_eq_some_iff.mp h
  obtain ⟨⟨requestData, rest⟩, hdata, -⟩ := Option.bind_eq_some_iff.mp h
  obtain ⟨hlen1, h1⟩ := asyncRead_eq_some hshort
  obtain ⟨hlen2, h2⟩ := asyncRead_eq_some hname
  obtain ⟨hlen3, h3⟩ := asyncRead_eq_some htype
  obtain ⟨hlen4, h4⟩ := asyncRead_eq_some hlong
  obtain ⟨hlen5, h5⟩ := asyncRead_eq_some hdata
  obtain ⟨hservice, hserviceSize⟩ := hostToNetworkShort_networkToHostShort hlen1
  obtain ⟨hlength, hsize⟩ := hostToNetworkLong_networkToHostLong hlen4
  obtain ⟨b, rfl⟩ := List.length_eq_one_iff.mp hlen3
  rw [← hlen2] at hservice hserviceSize
  rw [← hlen5] at hlength hsize
  refine ⟨⟨serviceName, b, requestData, hserviceSize, hsize⟩, rest.flatten, ?_⟩
  rw [RemotePack.bytes_append, h1, h2, h3, h4, h5, hservice, hlength]

theorem parses (movedName movedData : StdString → StdString) (self : CoroActorSession) :
    Parses (self.round movedName movedData) RemotePack.bytes (RemotePack.msg self.socket) where
  whole l st p more hst := by
    obtain ⟨rest, hread, hrest⟩ := readPack_whole (l := l) hst
    unfold round
    rw [hread]
    exact ⟨_, rest, rfl, hrest⟩
  cut l st hnone := by
    unfold round
    cases hread : readPack l st with
    | none => rfl
    | some r =>
        obtain ⟨p, hp⟩ := readPack_eq_some hread
        exact absurd hp (hnone p)

/-- The frames that the stream begins with are pushed, and then the socket is closed. -/
theorem handleRemotePack_eq {ps : List RemotePack} {part : List UInt8} (hopen : self.isOpen = true)
    (hn : st.flatten.length < n) (hst : st.flatten = ps.flatMap RemotePack.bytes ++ part)
    (hpart : ∀ p : RemotePack, ¬ p.bytes <+: part) :
    self.handleRemotePack movedName movedData n l st = some (ps.map (RemotePack.msg self.socket), self.stop) := by
  have hfuel : ps.length < n := by
    have hle := RemotePack.length_le ps
    rw [hst, List.length_append] at hn
    omega
  obtain ⟨rest, hloop, -⟩ := (parses movedName movedData self).readLoop (l := l) hpart hst hfuel
  rw [handleRemotePack, if_pos hopen, hloop]
  rfl

/-- **Client requests are parsed.** Whatever bytes arrive on the connection, in whatever pieces, the messages
that are pushed are the requests of a list of frames that the stream begins with; every list of frames that
the stream begins with is the beginning of it; and the session ends with `stop`. After any frame the rest is
parsed as it would be on a new connection, with anything in the strings. -/
theorem handleRemotePack_parses (movedName movedData : StdString → StdString) (self : CoroActorSession)
    (l : SessionLocals) (st : Stream UInt8) (n : Nat) (hopen : self.isOpen = true) (hn : st.flatten.length < n) :
    (∃ ps : List RemotePack,
      self.handleRemotePack movedName movedData n l st =
        some (ps.map (RemotePack.msg self.socket), self.stop) ∧
      ps.flatMap RemotePack.bytes <+: st.flatten ∧
      ∀ qs : List RemotePack, qs.flatMap RemotePack.bytes <+: st.flatten → qs <+: ps) ∧
    ∀ (p : RemotePack) (st' : Stream UInt8) (l' : SessionLocals), st.flatten = p.bytes ++ st'.flatten →
      ∃ msgs, self.handleRemotePack movedName movedData n l' st' = some (msgs, self.stop) ∧
        self.handleRemotePack movedName movedData n l st = some (p.msg self.socket :: msgs, self.stop) := by
  refine ⟨?_, fun p st' l' hst => ?_⟩
  · obtain ⟨ps, part, hst, hpart⟩ := exists_frames RemotePack.bytes_ne_nil st.flatten
    refine ⟨ps, handleRemotePack_eq hopen hn hst hpart, ⟨part, hst.symm⟩, fun qs hqs => ?_⟩
    rw [hst] at hqs
    exact RemotePack.prefixFree.isPrefix hpart hqs
  · obtain ⟨ps, part, hst', hpart⟩ := exists_frames RemotePack.bytes_ne_nil st'.flatten
    have hn' : st'.flatten.length < n := by
      rw [hst, List.length_append] at hn
      omega
    refine ⟨ps.map (RemotePack.msg self.socket), handleRemotePack_eq hopen hn' hst' hpart, ?_⟩
    rw [← List.map_cons]
    apply handleRemotePack_eq hopen hn _ hpart
    rw [List.flatMap_cons, List.append_assoc, ← hst', hst]

/-- A request, one without a name and without data, and the beginning of a third, in four pieces. -/
theorem handleRemotePack_parses_sample :
    ∃ msgs, CoroActorSession.handleRemotePack (fun _ => []) id 30 ⟨3, true⟩ ⟨[], [1, 2], 0, [], [8]⟩
        [[0, 0, 9], [0, 0, 0, 0, 0, 1]] = some (msgs, ⟨3, false⟩) ∧
      CoroActorSession.handleRemotePack (fun _ => []) id 30 ⟨3, true⟩ ⟨[], [], 0, [], []⟩
        [[0, 1, 97, 7, 0, 0], [0], [1, 5, 0, 0, 9, 0], [0, 0, 0, 0, 1]] =
          some (⟨[97], [], ⟨7, [5]⟩, some 3, false⟩ :: msgs, ⟨3, false⟩) :=
  (handleRemotePack_parses (fun _ => []) id ⟨3, true⟩ ⟨[], [], 0, [], []⟩
    [[0, 1, 97, 7, 0, 0], [0], [1, 5, 0, 0, 9, 0], [0, 0, 0, 0, 1]] 30 rfl (by decide)).2
    ⟨[97], 7, [5], by decide, by decide⟩ [[0, 0, 9], [0, 0, 0, 0, 0, 1]] ⟨[], [1, 2], 0, [], [8]⟩ (by decide)

end CoroActorSession

/-! ### The session in the process

For the process a request of a client is a step `remote`. -/

/-- What a step pushes for a connection. -/
def Label.pushes (k : TcpConn) : Label → List CoroActorMsg
  | .remote k' serviceName pack => if k' = k then [⟨serviceName, [], pack, some k', false⟩] else []
  | _ => []

namespace Sys

variable {cfg : Setting} {s t : Sys} {lab : Label} {k : TcpConn}

theorem Move.pushedOn (h : s.Move cfg lab t) :
    t.history.pushedOn (some k) = s.history.pushedOn (some k) ++ lab.pushes k := by
  have hsame : t.history.pushed = s.history.pushed → lab.pushes k = [] →
      t.history.pushedOn (some k) = s.history.pushedOn (some k) ++ lab.pushes k := by
    intro hpushed hnone
    rw [hnone, List.append_nil, History.pushedOn, hpushed]
    rfl
  cases h with
  | leave | serviceNotified =>
      apply hsame _ rfl
      exact finish_kept (P := fun u => u.history.pushed = s.history.pushed) _ _ fun _ _ _ _ _ _ _ => rfl
  | @remote k' serviceName pack =>
      rw [push_eq]
      by_cases hk : k' = k
      · simp [History.pushedOn, Label.pushes, hk]
      · simp [History.pushedOn, Label.pushes, hk]
  | request =>
      rw [onRequest_eq]
      simp [History.pushedOn, Label.pushes]
  | send =>
      apply hsame _ rfl
      rw [startSend_eq]
      rfl
  | _ => exact hsame rfl rfl

theorem pushedOn_exec {ok : Sys → Label → Prop} [∀ s l, Decidable (ok s l)] {ls : List Label}
    (h : (machine cfg).exec ok s ls = some t) :
    t.history.pushedOn (some k) = s.history.pushedOn (some k) ++ ls.flatMap (Label.pushes k) := by
  induction ls generalizing s with
  | nil =>
      cases h
      rw [List.flatMap_nil, List.append_nil]
  | cons lab ls ih =>
      unfold Machine.exec at h
      split at h
      · obtain ⟨u, hu, ht⟩ := Option.bind_eq_some_iff.mp h
        rw [ih ht, (step_move hu).pushedOn, List.append_assoc, List.flatMap_cons]
      · cases h

end Sys

end CoroActor.Worker
