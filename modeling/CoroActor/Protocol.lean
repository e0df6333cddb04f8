import Mathlib.Data.List.Basic

/-! The packs that the proxy and the actor processes exchange, and the frames they travel in:
`coro_actor_pack.h`, `coro_actor_protocol.h`, and the write sites, which all send one byte of protocol,
four bytes of length in network order and the serialized pack. -/

namespace CoroActor

/-- `std::string`, a sequence of bytes. -/
abbrev StdString := List UInt8

/-- `pid_t`. -/
abbrev Pid := Int

/-- A string literal of the source. -/
def ascii (s : String) : StdString := s.toList.map fun c => c.toNat.toUInt8

structure CoroActorPack where
  type : UInt8
  value : StdString
  deriving DecidableEq

structure CoroActorConnect where
  pid : Pid
  name : StdString
  deriving DecidableEq

structure CoroActorConnack where
  result : Bool
  deriving DecidableEq

structure CoroActorRequest where
  pid : Pid
  callId : StdString
  serviceName : StdString
  requestPack : CoroActorPack
  deriving DecidableEq

structure CoroActorResponse where
  pid : Pid
  callId : StdString
  serviceName : StdString
  responsePack : CoroActorPack
  deriving DecidableEq

def coroActorConnect : UInt8 := 0x01
def coroActorConnack : UInt8 := 0x02
def coroActorRequest : UInt8 := 0x03
def coroActorResponse : UInt8 := 0x04

/-- `struct_pack::serialize` on the four packs. The library is not part of the repository. -/
structure StructPack where
  connect : CoroActorConnect → StdString
  connack : CoroActorConnack → StdString
  request : CoroActorRequest → StdString
  response : CoroActorResponse → StdString

/-- `struct_pack::deserialize` for the four packs. -/
structure StructUnpack where
  connect : StdString → Option CoroActorConnect
  connack : StdString → Option CoroActorConnack
  request : StdString → Option CoroActorRequest
  response : StdString → Option CoroActorResponse

/-- `deserialize` inverts `serialize`. -/
structure StructUnpack.Inverts (unpack : StructUnpack) (pack : StructPack) : Prop where
  connect : ∀ p, unpack.connect (pack.connect p) = some p
  connack : ∀ p, unpack.connack (pack.connack p) = some p
  request : ∀ p, unpack.request (pack.request p) = some p
  response : ∀ p, unpack.response (pack.response p) = some p

/-- A frame that a write site hands to `asio::async_write`: the protocol byte and the serialized
pack. -/
structure Frame where
  proto : UInt8
  payload : StdString
  deriving DecidableEq

/-- `host_to_network_long` of a length that was converted to `uint32_t`: the four low bytes, most
significant first. -/
def hostToNetworkLong (length : Nat) : List UInt8 :=
  [(length >>> 24).toUInt8, (length >>> 16).toUInt8, (length >>> 8).toUInt8, length.toUInt8]

/-- `network_to_host_long` of the bytes that were read. -/
def networkToHostLong (bytes : List UInt8) : Nat := bytes.foldl (fun n b => n * 256 + b.toNat) 0

theorem hostToNetworkLong_length (length : Nat) : (hostToNetworkLong length).length = 4 := rfl

theorem networkToHostLong_hostToNetworkLong {length : Nat} (h : length < UInt32.size) :
    networkToHostLong (hostToNetworkLong length) = length := by
  have hsize : length < 4294967296 := h
  simp only [networkToHostLong, hostToNetworkLong, List.foldl_cons, List.foldl_nil, Nat.toUInt8,
    UInt8.toNat_ofNat', Nat.shiftRight_eq_div_pow]
  omega

theorem hostToNetworkLong_networkToHostLong {bytes : List UInt8} (h : bytes.length = 4) :
    hostToNetworkLong (networkToHostLong bytes) = bytes ∧ networkToHostLong bytes < UInt32.size := by
  obtain ⟨a, b, c, d, rfl⟩ := List.length_eq_four.mp h
  have ha := a.toNat_lt
  have hb := b.toNat_lt
  have hc := c.toNat_lt
  have hd := d.toNat_lt
  simp only [networkToHostLong, hostToNetworkLong, List.foldl_cons, List.foldl_nil, Nat.toUInt8,
    Nat.shiftRight_eq_div_pow, List.cons.injEq, ← UInt8.toNat_inj, UInt8.toNat_ofNat', and_true, UInt32.size]
  omega

/-- `host_to_network_short` of a length that was converted to `uint16_t`. -/
def hostToNetworkShort (length : Nat) : List UInt8 := [(length >>> 8).toUInt8, length.toUInt8]

/-- `network_to_host_short` of the bytes that were read. -/
def networkToHostShort (bytes : List UInt8) : Nat := bytes.foldl (fun n b => n * 256 + b.toNat) 0

theorem hostToNetworkShort_length (length : Nat) : (hostToNetworkShort length).length = 2 := rfl

theorem networkToHostShort_hostToNetworkShort {length : Nat} (h : length < UInt16.size) :
    networkToHostShort (hostToNetworkShort length) = length := by
  have hsize : length < 65536 := h
  simp only [networkToHostShort, hostToNetworkShort, List.foldl_cons, List.foldl_nil, Nat.toUInt8,
    UInt8.toNat_ofNat', Nat.shiftRight_eq_div_pow]
  omega

theorem hostToNetworkShort_networkToHostShort {bytes : List UInt8} (h : bytes.length = 2) :
    hostToNetworkShort (networkToHostShort bytes) = bytes ∧ networkToHostShort bytes < UInt16.size := by
  obtain ⟨a, b, rfl⟩ := List.length_eq_two.mp h
  have ha := a.toNat_lt
  have hb := b.toNat_lt
  simp only [networkToHostShort, hostToNetworkShort, List.foldl_cons, List.foldl_nil, Nat.toUInt8,
    Nat.shiftRight_eq_div_pow, List.cons.injEq, ← UInt8.toNat_inj, UInt8.toNat_ofNat', and_true, UInt16.size]
  omega

/-- `write_buf`: the three buffers one after the other. -/
def Frame.bytes (f : Frame) : List UInt8 :=
  f.proto :: hostToNetworkLong f.payload.length ++ f.payload

theorem Frame.bytes_ne_nil (f : Frame) : f.bytes ≠ [] :=
  List.cons_ne_nil _ _

end CoroActor
