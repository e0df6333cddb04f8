import CoroActor.Link.Packs

/-! The read loops on the unix sockets: `handle_proxy_deal_actor` in the proxy, and in an actor process the
read of the CONNACK in `handle_actor_notify_proxy`, after which `handle_actor_internal` reads on. They get
what was written, however it arrives. -/

namespace CoroActor.Link

open Reading

/-- What a round leaves behind: the `proto` and the pack, if the `switch` has a case for it. -/
structure Received where
  proto : UInt8
  pack : Option Pack
  deriving DecidableEq

/-- A read loop with the rounds that it takes. -/
abbrev ReadRound := Locals → Stream UInt8 → Round Locals Received UInt8

/-- A case of a `switch`: the pack must have a value. -/
def Locals.got (l l' : Locals) (pack : Option Pack) (rest : Stream UInt8) : Round Locals Received UInt8 :=
  match pack with
  | none => .aborted
  | some p => .next ⟨l.proto, some p⟩ l' rest

theorem Locals.got_map {α : Type} {l l' : Locals} {value : Option α} {a : α} {rest : Stream UInt8} (f : α → Pack)
    (h : value = some a) : l.got l' (value.map f) rest = .next ⟨l.proto, some (f a)⟩ l' rest := by
  rw [h]
  rfl

/-- `proto` and `length` are overwritten for a reply. -/
def Locals.reply (l : Locals) (proto : UInt8) (serializePack : StdString) : Locals :=
  { l with proto := proto, length := hostToNetworkLong serializePack.length }

/-- The locals of `handle_actor_notify_proxy` when the CONNECT has been written. -/
def Locals.connect (serialize : StructPack) (p : CoroActorConnect) : Locals :=
  ⟨coroActorConnect, hostToNetworkLong (serialize.connect p).length, serialize.connect p⟩

variable (codec : Codec)

/-- A round of the proxy. -/
def handleProxyDealActor : ReadRound := fun l st =>
  match readFrame l st with
  | none => .ended
  | some (l, rest) =>
      if l.proto = coroActorConnect then
        l.got (l.reply coroActorConnack (codec.serialize.connack ⟨true⟩))
          ((codec.deserialize.connect l.deserializePack).map .connect) rest
      else if l.proto = coroActorRequest then
        l.got l ((codec.deserialize.request l.deserializePack).map .request) rest
      else if l.proto = coroActorResponse then
        match codec.deserialize.response l.deserializePack with
        | none => .aborted
        | some p =>
            .next ⟨l.proto, some (.response p)⟩ (l.reply coroActorResponse (codec.serialize.response p)) rest
      else .next ⟨l.proto, none⟩ l rest

/-- A round of an actor process. -/
def handleActorInternal : ReadRound := fun l st =>
  match readFrame l st with
  | none => .ended
  | some (l, rest) =>
      if l.proto = coroActorRequest then
        l.got l ((codec.deserialize.request l.deserializePack).map .request) rest
      else if l.proto = coroActorResponse then
        l.got l ((codec.deserialize.response l.deserializePack).map .response) rest
      else .next ⟨l.proto, none⟩ l rest

/-- The read of the CONNACK: `proto` and the length in one read, and the pack into the string that held the
CONNECT. -/
def readConnack (l : Locals) (st : Stream UInt8) : Option (Locals × Stream UInt8) := do
  let (header, st) ← asyncRead 5 st
  let length := header.drop 1
  let serializePack := resize l.deserializePack (networkToHostLong length)
  let (serializePack, st) ← asyncRead serializePack.length st
  some (⟨header.headD l.proto, length, serializePack⟩, st)

/-- All that an actor process reads: the CONNACK, and then the loop with locals of its own. -/
def handleActorNotifyProxy (n : Nat) (l l' : Locals) (st : Stream UInt8) : Option (List Received × Stream UInt8) :=
  match readConnack l st with
  | none => some ([], st)
  | some (l, rest) =>
      if l.proto ≠ coroActorConnack then none
      else
        match codec.deserialize.connack l.deserializePack with
        | none => none
        | some ack =>
            let out : Received := ⟨l.proto, some (.connack ack)⟩
            if ack.result = false then some ([out], rest)
            else (readLoop (handleActorInternal codec) n l' rest).map fun r => (out :: r.1, r.2)

namespace Pack

/-- The serialized pack fits the length. -/
def Sized (p : Pack) : Prop := (p.frame codec.serialize).payload.length < UInt32.size

def bytes (p : Pack) : List UInt8 := (p.frame codec.serialize).bytes

/-- What the proxy makes of it: it has no case for CONNACK. -/
def atProxy (p : Pack) : Received :=
  ⟨(p.frame codec.serialize).proto, match p with
    | .connack _ => none
    | .connect _ | .request _ | .response _ => some p⟩

/-- What the loop of an actor process makes of it: it has no case for CONNECT and CONNACK. -/
def atActor (p : Pack) : Received :=
  ⟨(p.frame codec.serialize).proto, match p with
    | .connect _ | .connack _ => none
    | .request _ | .response _ => some p⟩

end Pack

variable {codec}

theorem readFrame_over {l : Locals} {st : Stream UInt8} (hst : st.flatten = []) : readFrame l st = none := by
  rw [readFrame_eq, asyncRead_of_short (by rw [hst]; exact Nat.one_pos)]
  rfl

theorem reads_proxy (hinv : codec.deserialize.Inverts codec.serialize) :
    Reads (handleProxyDealActor codec) (Pack.bytes codec) (Pack.Sized codec) (Pack.atProxy codec) where
  whole l st p more hsize hst := by
    obtain ⟨rest, hread, hrest⟩ := readFrame_whole (l := l) hsize hst
    unfold handleProxyDealActor
    rw [hread]
    cases p with
    | connect p => exact ⟨_, rest, Locals.got_map .connect (hinv.connect p), hrest⟩
    | connack p => exact ⟨_, rest, rfl, hrest⟩
    | request p => exact ⟨_, rest, Locals.got_map .request (hinv.request p), hrest⟩
    | response p =>
        have hpack : codec.deserialize.response (codec.serialize.response p) = some p := hinv.response p
        refine ⟨(⟨coroActorResponse, hostToNetworkLong (codec.serialize.response p).length,
          codec.serialize.response p⟩ : Locals).reply coroActorResponse (codec.serialize.response p),
          rest, ?_, hrest⟩
        simp only [Pack.frame, hpack]
        rfl
  cut l st p hsize hpre hne := by
    unfold handleProxyDealActor
    rw [readFrame_cut hsize hpre hne]
  finished l st hst := by
    unfold handleProxyDealActor
    rw [readFrame_over hst]

theorem reads_internal (hinv : codec.deserialize.Inverts codec.serialize) :
    Reads (handleActorInternal codec) (Pack.bytes codec) (Pack.Sized codec) (Pack.atActor codec) where
  whole l st p more hsize hst := by
    obtain ⟨rest, hread, hrest⟩ := readFrame_whole (l := l) hsize hst
    unfold handleActorInternal
    rw [hread]
    cases p with
    | connect p => exact ⟨_, rest, rfl, hrest⟩
    | connack p => exact ⟨_, rest, rfl, hrest⟩
    | request p => exact ⟨_, rest, Locals.got_map .request (hinv.request p), hrest⟩
    | response p => exact ⟨_, rest, Locals.got_map .response (hinv.response p), hrest⟩
  cut l st p hsize hpre hne := by
    unfold handleActorInternal
    rw [readFrame_cut hsize hpre hne]
  finished l st hst := by
    unfold handleActorInternal
    rw [readFrame_over hst]

/-- The CONNACK is read like any frame, but in two reads. -/
theorem readConnack_eq (l : Locals) (st : Stream UInt8) : readConnack l st =
    (asyncRead 5 st).bind fun header =>
      (asyncRead (networkToHostLong (header.1.drop 1)) header.2).bind fun data =>
        some (⟨header.1.headD l.proto, header.1.drop 1, data.1⟩, data.2) := by
  simp only [readConnack, resize_length]
  rfl

theorem Frame.header_append (f : Frame) :
    f.bytes = (f.proto :: hostToNetworkLong f.payload.length) ++ f.payload := rfl

theorem readConnack_whole {f : Frame} {l : Locals} {st : Stream UInt8} {more : List UInt8}
    (hsize : f.payload.length < UInt32.size) (hst : st.flatten = f.bytes ++ more) :
    ∃ rest, readConnack l st = some (⟨f.proto, hostToNetworkLong f.payload.length, f.payload⟩, rest) ∧
      rest.flatten = more := by
  rw [Frame.header_append, List.append_assoc] at hst
  obtain ⟨st1, hheader, h1⟩ := asyncRead_of_append hst
  obtain ⟨rest, hdata, hrest⟩ := asyncRead_of_append h1
  refine ⟨rest, ?_, hrest⟩
  rw [readConnack_eq, show (5 : Nat) = (f.proto :: hostToNetworkLong f.payload.length).length from rfl, hheader,
    Option.bind_some, List.drop_succ_cons, List.drop_zero, networkToHostLong_hostToNetworkLong hsize, hdata]
  rfl

theorem readConnack_cut {f : Frame} {l : Locals} {st : Stream UInt8} (hsize : f.payload.length < UInt32.size)
    (hpre : st.flatten <+: f.bytes) (hne : st.flatten ≠ f.bytes) : readConnack l st = none := by
  rw [Frame.header_append] at hpre hne
  rw [readConnack_eq, show (5 : Nat) = (f.proto :: hostToNetworkLong f.payload.length).length from rfl]
  rcases asyncRead_of_cut hpre hne with hnone | ⟨st1, hheader, hpre1, hne1⟩
  · rw [hnone]
    rfl
  rw [hheader, Option.bind_some, List.drop_succ_cons, List.drop_zero, networkToHostLong_hostToNetworkLong hsize]
  rw [← List.append_nil f.payload] at hpre1 hne1
  rcases asyncRead_of_cut hpre1 hne1 with hnone | ⟨st2, -, hpre2, hne2⟩
  · rw [hnone]
    rfl
  · exact absurd (List.prefix_nil.mp hpre2) hne2

/-- The CONNACK that the proxy writes, and what comes after it. -/
theorem handleActorNotifyProxy_whole (hinv : codec.deserialize.Inverts codec.serialize) {ps : List Pack}
    {part : List UInt8} {n : Nat} {l l' : Locals} {st : Stream UInt8} (hack : Pack.Sized codec (.connack ⟨true⟩))
    (hsize : ∀ p ∈ ps, p.Sized codec) (hcut : Cut (Pack.bytes codec) (Pack.Sized codec) part)
    (hst : st.flatten = (Pack.connack ⟨true⟩ :: ps).flatMap (Pack.bytes codec) ++ part) (hn : ps.length < n) :
    ∃ rest, handleActorNotifyProxy codec n l l' st =
        some (⟨coroActorConnack, some (.connack ⟨true⟩)⟩ :: ps.map (Pack.atActor codec), rest) ∧
      rest.flatten = part := by
  rw [List.flatMap_cons, List.append_assoc] at hst
  obtain ⟨st', hread, hst'⟩ := readConnack_whole (l := l) hack hst
  obtain ⟨rest, hloop, hrest⟩ := (reads_internal hinv).readLoop (l := l') hsize hcut hst' hn
  refine ⟨rest, ?_, hrest⟩
  unfold handleActorNotifyProxy
  rw [hread]
  simp [Pack.frame, hinv.connack, hloop]

/-- **Framing round trip.** Packs that are written one after the other, each as the write sites write it, are
read as the same protos and packs in the same order, in whatever pieces the stream arrives: by the loop of
the proxy, and, after the CONNACK, by the loop of an actor process. The loops consume exactly the frames that
are whole; a frame that is cut leaves nothing behind. -/
theorem framing_round_trip (hinv : codec.deserialize.Inverts codec.serialize) {ps : List Pack} {part : List UInt8}
    (hsize : ∀ p ∈ ps, p.Sized codec) (hcut : Cut (Pack.bytes codec) (Pack.Sized codec) part) :
    (∀ w : WriteSite, w.bytes codec.serialize = w.pack.bytes codec ∧
      if w.toProxy then (w.pack.atProxy codec).pack = some w.pack
      else w.pack = .connack ⟨true⟩ ∨ (w.pack.atActor codec).pack = some w.pack) ∧
    (∀ n l st, ps.length < n → st.flatten = ps.flatMap (Pack.bytes codec) ++ part →
      ∃ rest, readLoop (handleProxyDealActor codec) n l st = some (ps.map (Pack.atProxy codec), rest) ∧
        rest.flatten = part) ∧
    ∀ n l l' st, ps.length < n → Pack.Sized codec (.connack ⟨true⟩) →
      (st.flatten = (Pack.connack ⟨true⟩ :: ps).flatMap (Pack.bytes codec) ++ part →
        ∃ rest, handleActorNotifyProxy codec n l l' st =
            some (⟨coroActorConnack, some (.connack ⟨true⟩)⟩ :: ps.map (Pack.atActor codec), rest) ∧
          rest.flatten = part) ∧
      (st.flatten <+: Pack.bytes codec (.connack ⟨true⟩) → st.flatten ≠ Pack.bytes codec (.connack ⟨true⟩) →
        handleActorNotifyProxy codec n l l' st = some ([], st)) := by
  refine ⟨fun w => ⟨w.bytes_eq codec.serialize, ?_⟩, fun n l st hn hst => ?_,
    fun n l l' st hn hack => ⟨fun hst => ?_, ?_⟩⟩
  · cases w with
    | handleProxyDealActorConnect => exact Or.inl rfl
    | handleProxyDealActorResponse | handleProxyHandleRequest => exact Or.inr rfl
    | handleActorNotifyProxy | send | handleMessage => rfl
  · exact (reads_proxy hinv).readLoop hsize hcut hst hn
  · exact handleActorNotifyProxy_whole hinv hack hsize hcut hst hn
  · intro hpre hne
    unfold handleActorNotifyProxy
    rw [readConnack_cut hack hpre hne]

/-- A RESPONSE and the beginning of a CONNECT that arrive in three pieces. -/
theorem framing_round_trip_sample : ∃ rest,
    readLoop (handleProxyDealActor Sample.codec) 2 ⟨0, [], []⟩
      [[4, 0, 0], [0, 16, 0, 1, 1, 0, 1, 0, 49, 1, 0, 97, 9], [1, 1, 0, 7, 8, 1, 0]] =
      some ([⟨coroActorResponse, some (.response ⟨2, [49], [97], ⟨9, [7, 8]⟩⟩)⟩], rest) ∧
    rest.flatten = [1, 0] := by
  have hsize : ∀ p ∈ [Pack.response ⟨2, [49], [97], ⟨9, [7, 8]⟩⟩], p.Sized Sample.codec := by
    intro p hp
    rw [List.mem_singleton.mp hp]
    unfold Pack.Sized
    decide
  have hcut : Cut (Pack.bytes Sample.codec) (Pack.Sized Sample.codec) [1, 0] :=
    Or.inr ⟨.connect ⟨0, []⟩, by unfold Pack.Sized; decide, by decide, by decide⟩
  exact (framing_round_trip Sample.codec_inverts hsize hcut).2.1 2 _ _ (by decide) (by decide)

end CoroActor.Link
