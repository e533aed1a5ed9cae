import Mitosis.Network.Bytes

/-!
# RPC message headers of `os_network::rpc`

Every RPC message starts with a `MsgHeader`: the kind of message (its marker), the length of
the payload that follows the header, and the stub of its kind: the session to answer and the
function to call for a request, the status for a reply, the session of the sender for a
connect. The factories of `header_factory` write a header, and for a request or a connect the
value after it, into a message buffer.

The header travels as its memory image (`memcpy`). Rust chooses the layout; the image here is
one layout of the size Rust gives, 40 bytes: the `repr(u64)` enum `RPCMeta` as its tag and two
words, then the payload length, then the marker byte and padding. Both ends of a connection
use the same layout, which is all the RPC layer relies on. Bytes that are the image of no
header (a tag or a marker out of range, undefined in Rust) decode to `None` and `Illegal`.
-/
namespace OsNetwork

/-- `CallStub`: the session the reply goes to, and the function called. -/
structure CallStub where
  sessionId : UInt64
  rpcId : UInt64
  deriving DecidableEq, Repr

/-- `ConnectStub`: the session the connecting end names itself by. -/
structure ConnectStub where
  sessionId : UInt64
  deriving DecidableEq, Repr

/-- `ReplyStatus`, a `repr(u8)` enum: `Ok = 1`, `NotExist = 3`. -/
inductive ReplyStatus
  | ok
  | notExist
  deriving DecidableEq, Repr

/-- `RPCMeta`, the stub of each kind of message. -/
inductive RPCMeta
  | request (s : CallStub)
  | reply (s : ReplyStatus)
  | connect (s : ConnectStub)
  | none
  deriving DecidableEq, Repr

/-- `ReqType`, a `repr(u8)` enum: `Illegal = 4` (the default), `Connect = 0`, `Request = 1`,
`Reply = 2`, `DisConnect = 3`. -/
inductive ReqType
  | illegal
  | connect
  | request
  | reply
  | disConnect
  deriving DecidableEq, Repr

/-- `MsgHeader`; its field `meta` is `rpcMeta` here, `meta` being a keyword of Lean. -/
structure MsgHeader where
  marker : ReqType
  payload : UInt64
  rpcMeta : RPCMeta
  deriving DecidableEq, Repr

/-- The derived `Default`: an illegal marker, no payload and no stub. -/
instance : Inhabited MsgHeader := ⟨⟨.illegal, 0, .none⟩⟩

namespace ReplyStatus

def toU8 : ReplyStatus → UInt8
  | ok => 1
  | notExist => 3

/-- The status of a byte; a byte that is no discriminant reads as `Ok`. -/
def ofU8 (b : UInt8) : ReplyStatus := if b = 3 then notExist else ok

@[simp] theorem ofU8_toU8 (s : ReplyStatus) : ofU8 s.toU8 = s := by
  cases s <;> rfl

end ReplyStatus

namespace ReqType

def toU8 : ReqType → UInt8
  | illegal => 4
  | connect => 0
  | request => 1
  | reply => 2
  | disConnect => 3

/-- The marker of a byte; a byte that is no discriminant reads as `Illegal`. -/
def ofU8 (b : UInt8) : ReqType :=
  if b = 0 then connect else if b = 1 then request else if b = 2 then reply
  else if b = 3 then disConnect else illegal

@[simp] theorem ofU8_toU8 (t : ReqType) : ofU8 t.toU8 = t := by
  cases t <;> rfl

end ReqType

namespace RPCMeta

/-- The `repr(u64)` image: the tag in declaration order, then the fields of the variant. -/
def toWords : RPCMeta → UInt64 × UInt64 × UInt64
  | request s => (0, s.sessionId, s.rpcId)
  | reply s => (1, s.toU8.toUInt64, 0)
  | connect s => (2, s.sessionId, 0)
  | none => (3, 0, 0)

def ofWords (w : UInt64 × UInt64 × UInt64) : RPCMeta :=
  if w.1 = 0 then request ⟨w.2.1, w.2.2⟩
  else if w.1 = 1 then reply (ReplyStatus.ofU8 w.2.1.toUInt8)
  else if w.1 = 2 then connect ⟨w.2.1⟩
  else none

@[simp] theorem ofWords_toWords (m : RPCMeta) : ofWords m.toWords = m := by
  cases m <;> simp [toWords, ofWords]

end RPCMeta

instance : Pod MsgHeader :=
  Pod.ofEquiv (fun h => (h.rpcMeta.toWords, h.payload, h.marker.toU8, ({} : Pod.Pad 7)))
    (fun t => ⟨ReqType.ofU8 t.2.2.1, t.2.1, RPCMeta.ofWords t.1⟩)
    (fun h => by simp)

@[simp] theorem size_msgHeader : Pod.size MsgHeader = 40 := rfl

namespace MsgHeader

def genConnectStub (sessionId payload : UInt64) : MsgHeader :=
  ⟨.connect, payload, .connect ⟨sessionId⟩⟩

def genCallStub (sessionId rpcId payload : UInt64) : MsgHeader :=
  ⟨.request, payload, .request ⟨sessionId, rpcId⟩⟩

def genReplyStub (status : ReplyStatus) (sz : UInt64) : MsgHeader :=
  ⟨.reply, sz, .reply status⟩

def getCallStub (self : MsgHeader) : Option CallStub :=
  match self.rpcMeta with
  | .request s => some s
  | _ => none

def getConnectStub (self : MsgHeader) : Option ConnectStub :=
  match self.rpcMeta with
  | .connect s => some s
  | _ => none

def getReplyStub (self : MsgHeader) : Option ReplyStatus :=
  match self.rpcMeta with
  | .reply s => some s
  | _ => none

def getMarker (self : MsgHeader) : ReqType := self.marker

def getPayload (self : MsgHeader) : UInt64 := self.payload

def isReply (self : MsgHeader) : Bool := self.marker == .reply

end MsgHeader

/-! ## The factories -/

section Factories

variable {T : Type} [Pod T]

/-- What the two request factories write: the header at the head of the buffer, then the
value `size_of::<MsgHeader>()` bytes further; the number of bytes written, or `none` as soon
as one of the two does not fit, the header having been written by then if it fit. -/
def serializeStub (header : MsgHeader) (val : T) (msg : BytesMut) (m : Memory) :
    Option ℕ × Memory :=
  match msg.memcpySerializeAt 0 header m with
  | (some n, m) =>
    match msg.memcpySerializeAt (Pod.size MsgHeader) val m with
    | (some k, m) => (some (n + k), m)
    | (none, m) => (none, m)
  | (none, m) => (none, m)

/-- A buffer with room for both: the header and the value side by side at its head. -/
theorem serializeStub_of_le (header : MsgHeader) (val : T) {msg : BytesMut} (m : Memory)
    (h : Pod.size MsgHeader + Pod.size T ≤ msg.len) :
    serializeStub header val msg m =
      (some (Pod.size MsgHeader + Pod.size T),
        m.write msg.ptr (Pod.toBytes header ++ Pod.toBytes val)) := by
  have hhead : Pod.size MsgHeader ≤ msg.len := by omega
  have hval : Pod.size T ≤ (msg.advance (Pod.size MsgHeader)).len := by
    rw [BytesMut.advance_len]; omega
  have hfront : msg.memcpySerializeAt 0 header m =
      (some (Pod.size MsgHeader), m.write msg.ptr (Pod.toBytes header)) := by
    simp only [BytesMut.memcpySerializeAt, BytesMut.truncateHeader_zero]
    exact BytesMut.memcpySerialize_of_le msg header m hhead
  have hback : msg.memcpySerializeAt (Pod.size MsgHeader) val (m.write msg.ptr (Pod.toBytes header)) =
      (some (Pod.size T), m.write msg.ptr (Pod.toBytes header ++ Pod.toBytes val)) := by
    rw [BytesMut.memcpySerializeAt, BytesMut.truncateHeader_of_le msg _ hhead]
    simp only
    rw [BytesMut.memcpySerialize_of_le _ val _ hval, BytesMut.advance_ptr,
      Memory.write_write_of_eq _ _ _ _ _ (by rw [Pod.length_toBytes])]
  simp only [serializeStub, hfront, hback]

/-- `ConnectStubFactory`, the session id of the connecting end. -/
structure ConnectStubFactory where
  sessionId : UInt64

def ConnectStubFactory.new (id : UInt64) : ConnectStubFactory := ⟨id⟩

/-- `generate(meta, msg)`: the connect header for a payload of the meta's size, and the meta. -/
def ConnectStubFactory.generate (self : ConnectStubFactory) (val : T) (msg : BytesMut)
    (m : Memory) : Option ℕ × Memory :=
  serializeStub (MsgHeader.genConnectStub self.sessionId (UInt64.ofNat (Pod.size T))) val msg m

/-- `CallStubFactory`: the session the reply goes to, and the function. -/
structure CallStubFactory where
  sessionId : UInt64
  rpcId : UInt64

def CallStubFactory.new (id rpcId : UInt64) : CallStubFactory := ⟨id, rpcId⟩

/-- `generate(arg, msg)`: the call header for a payload of `size_of::<T>()`, and the argument. -/
def CallStubFactory.generate (self : CallStubFactory) (val : T) (msg : BytesMut) (m : Memory) :
    Option ℕ × Memory :=
  serializeStub (MsgHeader.genCallStub self.sessionId self.rpcId (UInt64.ofNat (Pod.size T)))
    val msg m

end Factories

/-- `ReplyStubFactory`: the status and the length of the payload the callback wrote. -/
structure ReplyStubFactory where
  status : ReplyStatus
  payload : UInt64

namespace ReplyStubFactory

def new (status : ReplyStatus) (sz : UInt64) : ReplyStubFactory := ⟨status, sz⟩

def getPayload (self : ReplyStubFactory) : UInt64 := self.payload

/-- `generate(msg)`: only the header; the payload is already in the buffer behind it. -/
def generate (self : ReplyStubFactory) (msg : BytesMut) (m : Memory) : Option ℕ × Memory :=
  msg.memcpySerializeAt 0 (MsgHeader.genReplyStub self.status self.payload) m

theorem generate_of_le (self : ReplyStubFactory) {msg : BytesMut} (m : Memory)
    (h : Pod.size MsgHeader ≤ msg.len) :
    self.generate msg m = (some (Pod.size MsgHeader),
      m.write msg.ptr (Pod.toBytes (MsgHeader.genReplyStub self.status self.payload))) := by
  simp only [generate, BytesMut.memcpySerializeAt, BytesMut.truncateHeader_zero]
  exact BytesMut.memcpySerialize_of_le msg _ m h

end ReplyStubFactory

end OsNetwork
