import CoroActor.Library.Framing
import CoroActor.Library.Reading
import CoroActor.Protocol

/-! The frames on the unix sockets between the proxy and the actor processes: what the write sites put
there, and how one frame is read. -/

namespace CoroActor.Link

open Reading

inductive Pack where
  | connect (p : CoroActorConnect)
  | connack (p : CoroActorConnack)
  | request (p : CoroActorRequest)
  | response (p : CoroActorResponse)
  deriving DecidableEq

def Pack.frame (serialize : StructPack) : Pack → Frame
  | .connect p => ⟨coroActorConnect, serialize.connect p⟩
  | .connack p => ⟨coroActorConnack, serialize.connack p⟩
  | .request p => ⟨coroActorRequest, serialize.request p⟩
  | .response p => ⟨coroActorResponse, serialize.response p⟩

/-- The write sites: of an actor process `handle_actor_notify_proxy`, `send` and `handle_message`, of the
proxy the CONNECT and RESPONSE cases of `handle_proxy_deal_actor` and `handle_proxy_handle_request`. -/
inductive WriteSite where
  | handleActorNotifyProxy (pid : Pid) (actorName : StdString)
  | send (pid : Pid) (callId serviceName : StdString) (requestPack : CoroActorPack)
  | handleMessage (pid : Pid) (callId serviceName : StdString) (respPack : CoroActorPack)
  | handleProxyDealActorConnect
  | handleProxyDealActorResponse (pack : CoroActorResponse)
  | handleProxyHandleRequest (pack : CoroActorRequest)

/-- The three buffers that a site writes: `proto`, the length as four bytes in network order, and the
serialized pack. -/
def writeBuf (proto : UInt8) (serializePack : StdString) : List UInt8 :=
  [proto] ++ hostToNetworkLong serializePack.length ++ serializePack

namespace WriteSite

/-- What the site writes. -/
def bytes (serialize : StructPack) : WriteSite → List UInt8
  | .handleActorNotifyProxy pid actorName => writeBuf coroActorConnect (serialize.connect ⟨pid, actorName⟩)
  | .send pid callId serviceName requestPack =>
      writeBuf coroActorRequest (serialize.request ⟨pid, callId, serviceName, requestPack⟩)
  | .handleMessage pid callId serviceName respPack =>
      writeBuf coroActorResponse (serialize.response ⟨pid, callId, serviceName, respPack⟩)
  | .handleProxyDealActorConnect => writeBuf coroActorConnack (serialize.connack ⟨true⟩)
  | .handleProxyDealActorResponse pack => writeBuf coroActorResponse (serialize.response pack)
  | .handleProxyHandleRequest pack => writeBuf coroActorRequest (serialize.request pack)

def pack : WriteSite → Pack
  | .handleActorNotifyProxy pid actorName => .connect ⟨pid, actorName⟩
  | .send pid callId serviceName requestPack => .request ⟨pid, callId, serviceName, requestPack⟩
  | .handleMessage pid callId serviceName respPack => .response ⟨pid, callId, serviceName, respPack⟩
  | .handleProxyDealActorConnect => .connack ⟨true⟩
  | .handleProxyDealActorResponse pack => .response pack
  | .handleProxyHandleRequest pack => .request pack

/-- The site is in an actor process, and the proxy reads what it writes. -/
def toProxy : WriteSite → Bool
  | .handleActorNotifyProxy .. | .send .. | .handleMessage .. => true
  | .handleProxyDealActorConnect | .handleProxyDealActorResponse _ | .handleProxyHandleRequest _ => false

/-- All sites agree on the format. -/
theorem bytes_eq (serialize : StructPack) (w : WriteSite) : w.bytes serialize = (w.pack.frame serialize).bytes := by
  cases w <;> rfl

end WriteSite

/-- The locals of a read loop. `length` holds the four bytes in network order. -/
structure Locals where
  proto : UInt8
  length : List UInt8
  deserializePack : StdString

/-- `std::string::resize`. -/
def resize (s : StdString) (n : Nat) : StdString := s.take n ++ List.replicate (n - s.length) 0

theorem resize_length (s : StdString) (n : Nat) : (resize s n).length = n := by
  rw [resize, List.length_append, List.length_take, List.length_replicate]
  omega

/-- The three reads of a round. Each fills its buffer, whatever that held before. -/
def readFrame (l : Locals) (st : Stream UInt8) : Option (Locals × Stream UInt8) := do
  let (proto, st) ← asyncRead 1 st
  let (length, st) ← asyncRead 4 st
  let deserializePack := resize l.deserializePack (networkToHostLong length)
  let (deserializePack, st) ← asyncRead deserializePack.length st
  some (⟨proto.headD l.proto, length, deserializePack⟩, st)

variable {f : Frame} {st : Stream UInt8} {l : Locals}

theorem readFrame_eq (l : Locals) (st : Stream UInt8) : readFrame l st =
    (asyncRead 1 st).bind fun proto =>
      (asyncRead 4 proto.2).bind fun length =>
        (asyncRead (networkToHostLong length.1) length.2).bind fun data =>
          some (⟨proto.1.headD l.proto, length.1, data.1⟩, data.2) := by
  simp only [readFrame, resize_length]
  rfl

theorem Frame.bytes_append (f : Frame) (more : List UInt8) :
    f.bytes ++ more = [f.proto] ++ (hostToNetworkLong f.payload.length ++ (f.payload ++ more)) := by
  simp [Frame.bytes]

/-- The length says where a frame ends. -/
theorem Frame.prefixFree : Framing.PrefixFree Frame.bytes fun f => f.payload.length < UInt32.size := by
  intro f g s t hf hg h
  rw [Frame.bytes_append, Frame.bytes_append] at h
  obtain ⟨hproto, hrest⟩ := List.append_inj h rfl
  obtain ⟨hlength, hdata⟩ := List.append_inj hrest rfl
  have hsize : f.payload.length = g.payload.length := by
    rw [← networkToHostLong_hostToNetworkLong hf, hlength, networkToHostLong_hostToNetworkLong hg]
  obtain ⟨hpayload, hst⟩ := List.append_inj hdata hsize
  refine ⟨?_, hst⟩
  cases f
  cases g
  rw [Frame.mk.injEq]
  exact ⟨List.head_eq_of_cons_eq hproto, hpayload⟩

/-- A frame that is there whole is read, and nothing after it. -/
theorem readFrame_whole {more : List UInt8} (hsize : f.payload.length < UInt32.size)
    (hst : st.flatten = f.bytes ++ more) :
    ∃ rest, readFrame l st = some (⟨f.proto, hostToNetworkLong f.payload.length, f.payload⟩, rest) ∧
      rest.flatten = more := by
  rw [Frame.bytes_append] at hst
  obtain ⟨st1, hproto, h1⟩ := asyncRead_of_append hst
  obtain ⟨st2, hlength, h2⟩ := asyncRead_of_append h1
  obtain ⟨rest, hdata, hrest⟩ := asyncRead_of_append h2
  rw [hostToNetworkLong_length] at hlength
  refine ⟨rest, ?_, hrest⟩
  rw [readFrame_eq, show (1 : Nat) = [f.proto].length from rfl, hproto, Option.bind_some, hlength, Option.bind_some,
    networkToHostLong_hostToNetworkLong hsize, hdata]
  rfl

/-- A frame that is cut is not read. -/
theorem readFrame_cut (hsize : f.payload.length < UInt32.size) (hpre : st.flatten <+: f.bytes)
    (hne : st.flatten ≠ f.bytes) : readFrame l st = none := by
  rw [← List.append_nil f.bytes, Frame.bytes_append, List.append_nil] at hpre hne
  rw [readFrame_eq, show (1 : Nat) = [f.proto].length from rfl]
  rcases asyncRead_of_cut hpre hne with hnone | ⟨st1, hproto, hpre1, hne1⟩
  · rw [hnone]
    rfl
  rw [hproto, Option.bind_some, ← hostToNetworkLong_length f.payload.length]
  rcases asyncRead_of_cut hpre1 hne1 with hnone | ⟨st2, hlength, hpre2, hne2⟩
  · rw [hnone]
    rfl
  rw [hlength, Option.bind_some, networkToHostLong_hostToNetworkLong hsize]
  rw [← List.append_nil f.payload] at hpre2 hne2
  rcases asyncRead_of_cut hpre2 hne2 with hnone | ⟨st3, -, hpre3, hne3⟩
  · rw [hnone]
    rfl
  · exact absurd (List.prefix_nil.mp hpre3) hne3

/-- Both libraries that the packs go through. -/
structure Codec where
  serialize : StructPack
  deserialize : StructUnpack

/-! ### A codec to run

Numbers go as ones and a zero, strings after their length. The concrete streams of the development use
it. -/

namespace Sample

def nat (n : Nat) : StdString := List.replicate n 1 ++ [0]

def int : Int → StdString
  | .ofNat n => 0 :: nat n
  | .negSucc n => 1 :: nat n

def str (s : StdString) : StdString := nat s.length ++ s

def readNat : StdString → Option (Nat × StdString)
  | [] => none
  | b :: bs => if b = 0 then some (0, bs) else (readNat bs).map fun r => (r.1 + 1, r.2)

def readInt : StdString → Option (Int × StdString)
  | [] => none
  | b :: bs => (readNat bs).map fun r => (if b = 0 then .ofNat r.1 else .negSucc r.1, r.2)

def readStr (bs : StdString) : Option (StdString × StdString) :=
  (readNat bs).map fun r => (r.2.take r.1, r.2.drop r.1)

@[simp] theorem readNat_nat (n : Nat) (more : StdString) : readNat (nat n ++ more) = some (n, more) := by
  induction n with
  | zero => rfl
  | succ n ih =>
      rw [nat, List.replicate_succ, List.cons_append, List.cons_append, readNat, if_neg (by decide), ← nat, ih]
      rfl

@[simp] theorem readInt_int (z : Int) (more : StdString) : readInt (int z ++ more) = some (z, more) := by
  cases z with
  | ofNat n => simp [int, readInt]
  | negSucc n => simp [int, readInt]

@[simp] theorem readStr_str (s more : StdString) : readStr (str s ++ more) = some (s, more) := by
  simp [str, readStr]

@[simp] theorem readStr_str_nil (s : StdString) : readStr (str s) = some (s, []) := by
  simpa using readStr_str s []

/-- `call_id`, `service_name` and the pack of a REQUEST or a RESPONSE, after the pid. -/
def call (pid : Pid) (callId serviceName : StdString) (pack : CoroActorPack) : StdString :=
  int pid ++ (str callId ++ (str serviceName ++ (pack.type :: str pack.value)))

def readCall {α : Type} (mk : Pid → StdString → StdString → CoroActorPack → α) (bs : StdString) : Option α := do
  let (pid, bs) ← readInt bs
  let (callId, bs) ← readStr bs
  let (serviceName, bs) ← readStr bs
  let type ← bs.head?
  let (value, _) ← readStr bs.tail
  some (mk pid callId serviceName ⟨type, value⟩)

@[simp] theorem readCall_call {α : Type} (mk : Pid → StdString → StdString → CoroActorPack → α) (pid : Pid)
    (callId serviceName : StdString) (pack : CoroActorPack) :
    readCall mk (call pid callId serviceName pack) = some (mk pid callId serviceName pack) := by
  simp [readCall, call]

def codec : Codec where
  serialize :=
    { connect := fun p => int p.pid ++ str p.name
      connack := fun p => [if p.result then 1 else 0]
      request := fun p => call p.pid p.callId p.serviceName p.requestPack
      response := fun p => call p.pid p.callId p.serviceName p.responsePack }
  deserialize :=
    { connect := fun bs => do
        let (pid, bs) ← readInt bs
        let (name, _) ← readStr bs
        some ⟨pid, name⟩
      connack := fun bs => bs.head?.map fun b => ⟨b = 1⟩
      request := readCall .mk
      response := readCall .mk }

theorem codec_inverts : codec.deserialize.Inverts codec.serialize where
  connect p := by simp [codec]
  connack p := by
    obtain ⟨result⟩ := p
    cases result <;> rfl
  request p := by simp [codec]
  response p := by simp [codec]

end Sample

end CoroActor.Link
