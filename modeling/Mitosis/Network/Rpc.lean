import Mitosis.Network.RpcHeader
import Mitosis.Network.Datagram
import Mitosis.Lib.RecvQueue
import Mitosis.Lib.Future

/-!
# The UD transport, the service and the hook of `os_network::rpc`

An RPC end is a `UDReceiver`, the receive queue of a UD queue pair with the message buffers
posted to it, and a table of sessions, each a UD endpoint to send to with a message buffer of
its own. The server end is an `RPCHook`: each poll takes one received message, parses its
header and dispatches on its marker, creating the session of a connect and answering it, or
running the function a request names and sending its answer on the session the request
names. At the end of a poll the message buffer goes back to the receive queue.

The NIC and its driver are parameters (`UDNic`): resolving a hyper meta to an endpoint, which
may fail, and whether the send queue takes a datagram. What the NIC does when a datagram
arrives is `UDReceiver.deliver`. A poll that panics (a `todo!`, a failed allocation) gives
the outer `Except String`; the errors `poll` returns through `?` are `HookError`.

Left out: the pending counts of the UD sends, with the signaled flag and the waits on the
send queue they decide (the completions of UD sends are not modelled), the errors of the
receive queue itself (`Error::inner`), and the counters of `RPCAnalysis`.
-/
namespace OsNetwork

/-! ## UD endpoints, sessions and receivers -/

/-- `DatagramEndpoint`: a UD queue pair in the fabric, named by its number. -/
structure DatagramEndpoint where
  qpn : ℕ
  deriving DecidableEq, Repr

/-- `UDHyperMeta`: what an end sends so that the other end can reach it. -/
structure UDHyperMeta where
  gid : List.Vector UInt8 16
  serviceId : UInt64
  qdHint : UInt64
  localPort : UInt8
  deriving DecidableEq

instance : Pod UDHyperMeta :=
  Pod.ofEquiv (fun h => (h.gid, h.serviceId, h.qdHint, h.localPort, ({} : Pod.Pad 7)))
    (fun t => ⟨t.1, t.2.1, t.2.2.1, t.2.2.2.1⟩) (fun _ => rfl)

@[simp] theorem size_udHyperMeta : Pod.size UDHyperMeta = 40 := rfl

/-- The parts of the NIC and its driver the RPC layer calls and does not contain. -/
structure UDNic where
  /-- `MetaFactory::create_meta`: the endpoint a hyper meta describes, found through the
  subnet's path record and a query to the other end; either may fail. -/
  createMeta : UDHyperMeta → Option DatagramEndpoint
  /-- `post_datagram`: whether the send queue takes a send of `sz` bytes to an endpoint. -/
  postDatagram : DatagramEndpoint → ℕ → Bool

/-- A datagram on its way: the endpoint it is sent to and its bytes. -/
structure Datagram where
  dst : DatagramEndpoint
  bytes : List UInt8
  deriving DecidableEq

/-- `UDSession`: the endpoint it sends to. -/
structure UDSession where
  endpoint : DatagramEndpoint
  deriving DecidableEq

/-- `UDSession::post`: a send of the first `sz` bytes of a message buffer to the session's
endpoint; the datagram, if the send queue takes it. -/
def UDSession.post (self : UDSession) (nic : UDNic) (req : UDMsg) (sz : ℕ) (m : Memory) :
    Option Datagram :=
  if nic.postDatagram self.endpoint sz then some ⟨self.endpoint, m.read req.bytes.ptr sz⟩
  else none

/-- `UDReceiver`: the message buffers posted to its queue pair, `msg_queues`, oldest first,
with the number of them the NIC has filled and the receiver not yet polled for. -/
abbrev UDReceiver : Type := RecvQueue UDMsg

namespace UDReceiver

/-- `HEADER`: the global routing header in front of every received datagram. -/
def header : ℕ := 40

/-- `MTU`. -/
def mtu : ℕ := 4096

theorem mtu_lt : mtu < 2 ^ 64 := by decide

/-- `post_recv_buf`. -/
def postRecvBuf (self : UDReceiver) (buf : UDMsg) : UDReceiver := RecvQueue.post self buf

/-- `poll`: a receive completion gives the oldest posted buffer; its status is not read. -/
def poll (self : UDReceiver) : Future.Async UDMsg × UDReceiver :=
  match RecvQueue.poll self with
  | (some msg, q) => (.ready msg, q)
  | (none, q) => (.notReady, q)

/-- What the NIC does with a datagram that reaches the receiver: the routing header and the
datagram's bytes go into the oldest empty buffer, which completes. A datagram longer than
that buffer completes it with a length error and writes nothing; with no buffer posted the
datagram is lost. -/
def deliver (self : UDReceiver) (grh : List.Vector UInt8 40) (bytes : List UInt8) (m : Memory) :
    UDReceiver × Memory :=
  match self.nextEmpty with
  | none => (self, m)
  | some buf =>
    (RecvQueue.fill self,
      if header + bytes.length ≤ buf.len then m.write buf.bytes.ptr (grh.toList ++ bytes) else m)

theorem poll_of_filled_eq_zero {self : UDReceiver} (h : self.filled = 0) :
    self.poll = (.notReady, self) := by
  simp [poll, RecvQueue.poll_of_filled_eq_zero h]

theorem poll_eq_ready {self q : UDReceiver} {msg : UDMsg} (h : self.poll = (.ready msg, q)) :
    RecvQueue.poll self = (some msg, q) := by
  unfold poll at h
  split at h <;> simp_all

theorem poll_eq_notReady {self q : UDReceiver} (h : self.poll = (.notReady, q)) :
    q = self := by
  unfold poll at h
  split at h
  · simp at h
  · rename_i q' hq
    simp only [Prod.mk.injEq, true_and] at h
    subst h
    exact (RecvQueue.poll_eq_none hq).2

theorem poll_of_cons {self : UDReceiver} {msg : UDMsg} {rest : List UDMsg}
    (hb : self.bufs = msg :: rest) (hk : 0 < self.filled) :
    self.poll = (.ready msg, ⟨rest, self.filled - 1, by
      have := self.filled_le; simp [hb] at this; omega⟩) := by
  simp [poll, RecvQueue.poll, hk, hb]

theorem deliver_of_nextEmpty {self : UDReceiver} {buf : UDMsg} (hb : self.nextEmpty = some buf)
    (grh : List.Vector UInt8 40) {bytes : List UInt8} (hlen : header + bytes.length ≤ buf.len)
    (m : Memory) :
    self.deliver grh bytes m = (RecvQueue.fill self, m.write buf.bytes.ptr (grh.toList ++ bytes)) := by
  simp [deliver, hb, hlen]

@[simp] theorem bufs_postRecvBuf (self : UDReceiver) (buf : UDMsg) :
    (self.postRecvBuf buf).bufs = self.bufs ++ [buf] := rfl

@[simp] theorem filled_postRecvBuf (self : UDReceiver) (buf : UDMsg) :
    (self.postRecvBuf buf).filled = self.filled := rfl

theorem poll_fill_of_empty {self : UDReceiver} {buf : UDMsg} {rest : List UDMsg}
    (hb : self.bufs = buf :: rest) (hf : self.filled = 0) :
    ∃ q, poll (RecvQueue.fill self) = (.ready buf, q) ∧ q.bufs = rest ∧ q.filled = 0 := by
  have hfill : (RecvQueue.fill self).filled = 1 := by
    rw [RecvQueue.filled_fill, if_pos (by rw [hb, hf]; simp), hf]
  exact ⟨_, poll_of_cons (by rw [RecvQueue.bufs_fill, hb]) (by rw [hfill]; omega), rfl,
    by simp [hfill]⟩

@[simp] theorem bufs_deliver (self : UDReceiver) (grh : List.Vector UInt8 40) (bytes : List UInt8)
    (m : Memory) : (self.deliver grh bytes m).1.bufs = self.bufs := by
  unfold deliver; split <;> simp

end UDReceiver

/-! ## The service -/

/-- A registered function: from the argument window and the output window, in memory, the
length of the answer it wrote into the output window. -/
abbrev Callback : Type := BytesMut → BytesMut → Memory → UInt64 × Memory

/-- `Service`: the registered functions by id. -/
structure Service where
  callbacks : UInt64 → Option Callback

namespace Service

def new : Service := ⟨fun _ => none⟩

/-- `register`: refused, and nothing changes, when the id already has a function. -/
def register (self : Service) (id : UInt64) (callback : Callback) : Bool × Service :=
  if (self.callbacks id).isSome then (false, self)
  else (true, ⟨Function.update self.callbacks id (some callback)⟩)

/-- `execute`: run the function of the id, if there is one. -/
def execute (self : Service) (id : UInt64) (input output : BytesMut) (m : Memory) :
    Option UInt64 × Memory :=
  match self.callbacks id with
  | some func => (some (func input output m).1, (func input output m).2)
  | none => (none, m)

theorem execute_of_callbacks {self : Service} {id : UInt64} {func : Callback}
    (h : self.callbacks id = some func) (input output : BytesMut) (m : Memory) :
    self.execute id input output m = (some (func input output m).1, (func input output m).2) := by
  simp [execute, h]

theorem execute_of_callbacks_none {self : Service} {id : UInt64} (h : self.callbacks id = none)
    (input output : BytesMut) (m : Memory) : self.execute id input output m = (none, m) := by
  simp [execute, h]

/-- A registration either is refused, the id having a function already and the service
staying as it was, or it is taken and gives the id its function, every other id keeping its
own. -/
theorem callbacks_register (self : Service) (id : UInt64) (callback : Callback) (id' : UInt64) :
    ((self.register id callback).1 = false ∧ (self.callbacks id).isSome ∧
        (self.register id callback).2 = self) ∨
      ((self.register id callback).1 = true ∧ self.callbacks id = none ∧
        (self.register id callback).2.callbacks id' =
          if id' = id then some callback else self.callbacks id') := by
  unfold register
  by_cases h : (self.callbacks id).isSome
  · exact .inl ⟨by simp [h], h, by simp [h]⟩
  · refine .inr ⟨by simp [h], Option.not_isSome_iff_eq_none.mp h, ?_⟩
    simp only [h, Bool.false_eq_true, if_false]
    by_cases hid : id' = id
    · subst hid; simp
    · simp [hid]

/-- Registrations one after the other, as the worker makes them at its start. -/
def registerAll (self : Service) : List (UInt64 × Callback) → Service
  | [] => self
  | (id, callback) :: rest => (self.register id callback).2.registerAll rest

/-- After a sequence of registrations an id runs the function it had before, or else the
first one registered for it: every later registration of the id is refused. -/
theorem callbacks_registerAll (self : Service) (regs : List (UInt64 × Callback)) (id : UInt64) :
    (self.registerAll regs).callbacks id =
      (self.callbacks id).or ((regs.find? fun r => r.1 == id).map Prod.snd) := by
  induction regs generalizing self with
  | nil => simp [registerAll]
  | cons reg rest ih =>
    obtain ⟨id', callback⟩ := reg
    rw [registerAll, ih]
    by_cases hid : id' = id
    · subst hid
      rcases callbacks_register self id' callback id' with ⟨-, hsome, h⟩ | ⟨-, hnone, h⟩
      · -- refused: the id keeps the function it has
        obtain ⟨f, hf⟩ := Option.isSome_iff_exists.mp hsome
        simp [h, hf]
      · simp [h, hnone]
    · rcases callbacks_register self id' callback id with ⟨-, -, h⟩ | ⟨-, -, h⟩
      · simp [h, hid]
      · simp [h, Ne.symm hid, hid]

end Service

/-! ## The hook -/

/-- An RPC end `E` on its machine: the end, the machine's memory, the state of its allocator
of registered memory, and the datagrams its queue pairs have sent, oldest first. -/
structure OnHost (E A : Type) where
  rpc : E
  mem : Memory
  alloc : A
  sent : List Datagram

/-- `RPCHook`: the service, the transport, and the connected sessions by the id their caller
chose, each with the buffer its replies are written in. -/
structure RPCHook where
  service : Service
  transport : UDReceiver
  connectedSessions : UInt64 → Option (UDSession × UDMsg)

/-- The kinds of `hook::Error` a poll returns. -/
inductive HookError
  | corrupted
  | sessionCreationError
  | notConnected
  | fatal
  deriving DecidableEq, Repr

namespace RPCHook

variable {A : Type} (nic : UDNic)

/-- `send_reply`: the reply header at the head of the session's buffer, behind which the
callback has written the payload, and a send of both to the session's endpoint. -/
def sendReply (sessionId : UInt64) (reply : ReplyStubFactory) (s : OnHost RPCHook A) :
    Except String (Except HookError Unit × OnHost RPCHook A) :=
  match s.rpc.connectedSessions sessionId with
  | none => pure (.error .sessionCreationError, s)
  | some (session, buf) => do
    let n ← unwrap (reply.generate buf.getBytesMut s.mem).1
    let mem := (reply.generate buf.getBytesMut s.mem).2
    match session.post nic buf (reply.getPayload.toNat + n) mem with
    | some d => pure (.ok (), { s with mem, sent := s.sent ++ [d] })
    | none => pure (.error .fatal, { s with mem })

/-- The parse at the top of `poll`: behind the transport's `HEADER` bytes the message header
(the default one when the buffer is too short for it) and the window of the header's payload
length right behind the header. -/
def parseMsg (msg : UDMsg) (m : Memory) : Except HookError (MsgHeader × BytesMut) :=
  match msg.bytes.truncateHeader UDReceiver.header with
  | none => .error .corrupted
  | some msgHeaderBytes =>
    let msgHeader : MsgHeader :=
      ((msgHeaderBytes.memcpyDeserialize m : Option (MsgHeader × ℕ)).map Prod.fst).getD default
    match (msgHeaderBytes.truncateHeader (Pod.size MsgHeader)).bind
        (·.cloneAndResize msgHeader.getPayload.toNat) with
    | none => .error .corrupted
    | some rpcArgs => .ok (msgHeader, rpcArgs)

variable (mr : MrAllocator A)

/-- The `Connect` arm: a session not yet connected is created from the hyper meta in the
arguments, with a buffer of `MTU` bytes, and answered; a second connect of one id is an
error. -/
def handleConnect (stub : ConnectStub) (rpcArgs : BytesMut) (s : OnHost RPCHook A) :
    Except String (Except HookError Unit × OnHost RPCHook A) :=
  if (s.rpc.connectedSessions stub.sessionId).isSome then pure (.error .sessionCreationError, s)
  else
    match (rpcArgs.memcpyDeserialize s.mem : Option (UDHyperMeta × ℕ)) with
    | none => pure (.error .corrupted, s)
    | some (sessionMeta, _) =>
      match nic.createMeta sessionMeta with
      | none => pure (.error .sessionCreationError, s)
      | some connectMeta => do
        -- the UD factory's `create` cannot fail; the allocation of the buffer panics if it does
        let (sessionBuf, alloc) ← UDMsg.new mr UDReceiver.mtu UDReceiver.mtu_lt 0 s.alloc
        let s := { s with
          rpc := { s.rpc with
            connectedSessions := Function.update s.rpc.connectedSessions stub.sessionId
              (some (⟨connectMeta⟩, sessionBuf)) }
          alloc }
        sendReply nic stub.sessionId (ReplyStubFactory.new .ok 0) s

/-- The `Request` arm: the function runs with the arguments and the session buffer behind
its header as output, and its answer, or `NotExist` for an unknown id, goes back on the
session the request names. -/
def handleRequest (stub : CallStub) (rpcArgs : BytesMut) (s : OnHost RPCHook A) :
    Except String (Except HookError Unit × OnHost RPCHook A) :=
  match s.rpc.connectedSessions stub.sessionId with
  | none => pure (.error .notConnected, s)
  | some (_, outBuf) => do
    let outBuf ← unwrap (outBuf.getBytesMut.truncateHeader (Pod.size MsgHeader))
    let (replyPayload, mem) := s.rpc.service.execute stub.rpcId rpcArgs outBuf s.mem
    let s := { s with mem }
    match replyPayload with
    | some size => sendReply nic stub.sessionId (ReplyStubFactory.new .ok size) s
    | none => sendReply nic stub.sessionId (ReplyStubFactory.new .notExist 0) s

/-- The dispatch on the marker; a stub of the wrong kind is a corrupted message, a disconnect
is not implemented (`todo!`), and any other marker is only logged. -/
def dispatch (msgHeader : MsgHeader) (rpcArgs : BytesMut) (s : OnHost RPCHook A) :
    Except String (Except HookError Unit × OnHost RPCHook A) :=
  match msgHeader.getMarker with
  | .connect =>
    match msgHeader.getConnectStub with
    | none => pure (.error .corrupted, s)
    | some stub => handleConnect nic mr stub rpcArgs s
  | .request =>
    match msgHeader.getCallStub with
    | none => pure (.error .corrupted, s)
    | some stub => handleRequest nic stub rpcArgs s
  | .disConnect => throw "not yet implemented"
  | _ => pure (.ok (), s)

/-- `poll`: take a received message, parse and dispatch it, and post its buffer back. Every
error of the parse and the dispatch returns at once, before the buffer is posted back. -/
def poll (s : OnHost RPCHook A) :
    Except String (Except HookError (Future.Async Unit) × OnHost RPCHook A) :=
  match s.rpc.transport.poll with
  | (.notReady, _) => pure (.ok .notReady, s)
  | (.ready msg, transport) =>
    let s := { s with rpc := { s.rpc with transport } }
    match parseMsg msg s.mem with
    | .error e => pure (.error e, s)
    | .ok (msgHeader, rpcArgs) => do
      match ← dispatch nic mr msgHeader rpcArgs s with
      | (.error e, s) => pure (.error e, s)
      | (.ok (), s) =>
        pure (.ok (.ready ()), { s with rpc := { s.rpc with transport := s.rpc.transport.postRecvBuf msg } })

/-! ### What each part of a poll keeps -/

variable {nic mr}

theorem rpc_sendReply {sessionId : UInt64} {reply : ReplyStubFactory} {s s' : OnHost RPCHook A}
    {r : Except HookError Unit} (h : sendReply nic sessionId reply s = .ok (r, s')) :
    s'.rpc = s.rpc := by
  unfold sendReply at h
  split at h
  · cases h; rfl
  · obtain ⟨n, -, h⟩ := bind_eq_ok.mp h
    dsimp only at h
    split at h <;> cases h <;> rfl

/-- A request changes the memory and the datagrams sent, and nothing of the hook. -/
theorem rpc_handleRequest {stub : CallStub} {rpcArgs : BytesMut} {s s' : OnHost RPCHook A}
    {r : Except HookError Unit} (h : handleRequest nic stub rpcArgs s = .ok (r, s')) :
    s'.rpc = s.rpc := by
  unfold handleRequest at h
  split at h
  · cases h; rfl
  · obtain ⟨outBuf, -, h⟩ := bind_eq_ok.mp h
    dsimp only at h
    split at h <;>
    · have := rpc_sendReply h
      exact this

/-- A connect may add a session, and changes neither the service nor the transport. -/
theorem transport_handleConnect {stub : ConnectStub} {rpcArgs : BytesMut}
    {s s' : OnHost RPCHook A} {r : Except HookError Unit}
    (h : handleConnect nic mr stub rpcArgs s = .ok (r, s')) :
    s'.rpc.transport = s.rpc.transport ∧ s'.rpc.service = s.rpc.service := by
  unfold handleConnect at h
  split at h
  · cases h; exact ⟨rfl, rfl⟩
  split at h
  · cases h; exact ⟨rfl, rfl⟩
  split at h
  · cases h; exact ⟨rfl, rfl⟩
  obtain ⟨⟨buf, a⟩, -, h⟩ := bind_eq_ok.mp h
  rw [rpc_sendReply h]
  exact ⟨rfl, rfl⟩

/-- The dispatch changes neither the service nor the transport. -/
theorem transport_dispatch {msgHeader : MsgHeader} {rpcArgs : BytesMut} {s s' : OnHost RPCHook A}
    {r : Except HookError Unit} (h : dispatch nic mr msgHeader rpcArgs s = .ok (r, s')) :
    s'.rpc.transport = s.rpc.transport ∧ s'.rpc.service = s.rpc.service := by
  unfold dispatch at h
  split at h
  · split at h
    · cases h; exact ⟨rfl, rfl⟩
    · exact transport_handleConnect h
  · split at h
    · cases h; exact ⟨rfl, rfl⟩
    · rw [rpc_handleRequest h]; exact ⟨rfl, rfl⟩
  · cases h
  · cases h; exact ⟨rfl, rfl⟩

/-- What a poll can do with the receive queue: find nothing and change nothing, or take the
oldest received message and then either post its buffer back and answer that it is done, or
fail without posting it back. The service stays as it was. -/
theorem poll_cases {s s' : OnHost RPCHook A} {r : Except HookError (Future.Async Unit)}
    (h : poll nic mr s = .ok (r, s')) :
    (r = .ok .notReady ∧ s' = s) ∨
      ∃ msg q, s.rpc.transport.poll = (.ready msg, q) ∧ s'.rpc.service = s.rpc.service ∧
        (r = .ok (.ready ()) ∧ s'.rpc.transport = q.postRecvBuf msg ∨
          ∃ e, r = .error e ∧ s'.rpc.transport = q) := by
  unfold poll at h
  split at h
  · cases h; exact .inl ⟨rfl, rfl⟩
  rename_i msg q hq
  refine .inr ⟨msg, q, hq, ?_⟩
  dsimp only at h
  split at h
  · cases h; exact ⟨rfl, .inr ⟨_, rfl, rfl⟩⟩
  obtain ⟨⟨r₁, s₁⟩, hd, h⟩ := bind_eq_ok.mp h
  obtain ⟨htransport, hservice⟩ := transport_dispatch hd
  rcases r₁ with e | ⟨⟩
  · cases h; exact ⟨hservice, .inr ⟨e, rfl, htransport⟩⟩
  · cases h; exact ⟨hservice, .inl ⟨rfl, congrArg (UDReceiver.postRecvBuf · msg) htransport⟩⟩

/-! ### A request of a connected session -/

/-- A message whose header stands behind the routing header, with its payload after it in
the buffer, parses into that header and the window of its payload. -/
theorem parseMsg_of_stores {msg : UDMsg} {m : Memory} {header : MsgHeader}
    (hs : m.Stores (msg.bytes.ptr + UDReceiver.header) (Pod.toBytes header))
    (hlen : UDReceiver.header + Pod.size MsgHeader + header.payload.toNat ≤ msg.bytes.len) :
    parseMsg msg m = .ok (header, ⟨msg.bytes.ptr + UDReceiver.header + Pod.size MsgHeader,
      header.payload.toNat, header.payload.toNat_lt⟩) := by
  have h₁ : UDReceiver.header ≤ msg.bytes.len := by omega
  have h₂ : Pod.size MsgHeader ≤ (msg.bytes.advance UDReceiver.header).len := by
    rw [BytesMut.advance_len]; omega
  have h₃ : header.payload.toNat ≤
      ((msg.bytes.advance UDReceiver.header).advance (Pod.size MsgHeader)).len := by
    simp only [BytesMut.advance_len]; omega
  unfold parseMsg
  rw [BytesMut.truncateHeader_of_le _ _ h₁]
  simp only [BytesMut.memcpyDeserialize_of_stores _ m header hs h₂, Option.map_some,
    Option.getD_some]
  rw [BytesMut.truncateHeader_of_le _ _ h₂, Option.bind_some, MsgHeader.getPayload,
    BytesMut.cloneAndResize_of_le _ h₃]
  rfl

/-- A reply on a connected session whose send the queue takes: the header is written at the
head of the session's buffer, and the datagram is that header and the payload behind it. -/
theorem sendReply_of_post {sessionId : UInt64} {reply : ReplyStubFactory} {s : OnHost RPCHook A}
    {session : UDSession} {buf : UDMsg}
    (hs : s.rpc.connectedSessions sessionId = some (session, buf))
    (hlen : Pod.size MsgHeader ≤ buf.len)
    (hpost : nic.postDatagram session.endpoint (reply.payload.toNat + Pod.size MsgHeader) = true) :
    sendReply nic sessionId reply s = .ok (.ok (), { s with
      mem := s.mem.write buf.bytes.ptr
        (Pod.toBytes (MsgHeader.genReplyStub reply.status reply.payload))
      sent := s.sent ++ [⟨session.endpoint,
        Pod.toBytes (MsgHeader.genReplyStub reply.status reply.payload) ++
          s.mem.read (buf.bytes.ptr + Pod.size MsgHeader) reply.payload.toNat⟩] }) := by
  have hread := Memory.read_write_prefix s.mem buf.bytes.ptr reply.payload.toNat
    (Pod.toBytes (MsgHeader.genReplyStub reply.status reply.payload))
  rw [Pod.length_toBytes, Nat.add_comm] at hread
  simp only [sendReply, hs, ReplyStubFactory.generate_of_le _ _ hlen, unwrap_some, ok_bind,
    UDSession.post, ReplyStubFactory.getPayload, UDMsg.getBytesMut, hpost, if_true, hread]
  rfl

/-- A request of a connected session runs the function of its id, if there is one, with the
session's buffer behind its header as output, and replies with the answer's length, or with
`NotExist` and no payload. -/
theorem handleRequest_of_session {stub : CallStub} {rpcArgs : BytesMut} {s : OnHost RPCHook A}
    {session : UDSession} {buf : UDMsg}
    (hs : s.rpc.connectedSessions stub.sessionId = some (session, buf))
    (hlen : Pod.size MsgHeader ≤ buf.len) :
    handleRequest nic stub rpcArgs s =
      sendReply nic stub.sessionId
        (match (s.rpc.service.execute stub.rpcId rpcArgs (buf.bytes.advance (Pod.size MsgHeader))
          s.mem).1 with
        | some size => ReplyStubFactory.new .ok size
        | none => ReplyStubFactory.new .notExist 0)
        { s with mem := (s.rpc.service.execute stub.rpcId rpcArgs
          (buf.bytes.advance (Pod.size MsgHeader)) s.mem).2 } := by
  simp only [handleRequest, hs, UDMsg.getBytesMut, BytesMut.truncateHeader_of_le _ _ hlen,
    unwrap_some, ok_bind]
  split <;> rfl

/-- A poll whose message parses and whose dispatch succeeds posts the buffer back. -/
theorem poll_of_dispatch {s : OnHost RPCHook A} {msg : UDMsg} {q : UDReceiver}
    (hq : s.rpc.transport.poll = (.ready msg, q)) {msgHeader : MsgHeader} {rpcArgs : BytesMut}
    (hp : parseMsg msg s.mem = .ok (msgHeader, rpcArgs)) {s₁ : OnHost RPCHook A}
    (hd : dispatch nic mr msgHeader rpcArgs { s with rpc := { s.rpc with transport := q } } =
      .ok (.ok (), s₁)) :
    poll nic mr s = .ok (.ok (.ready ()),
      { s₁ with rpc := { s₁.rpc with transport := s₁.rpc.transport.postRecvBuf msg } }) := by
  unfold poll
  rw [hq]
  dsimp only
  rw [hp]
  simp only [hd, ok_bind]
  rfl

/-- A request whose session is connected: the poll runs the function of its id on the
argument window, replies on the session with the function's answer behind the reply header
(or with `NotExist` and nothing behind it), and posts the buffer back. -/
theorem poll_of_request {s : OnHost RPCHook A} {msg : UDMsg} {q : UDReceiver}
    (hq : s.rpc.transport.poll = (.ready msg, q)) {sessionId rpcId sz : UInt64}
    (hs : s.mem.Stores (msg.bytes.ptr + UDReceiver.header)
      (Pod.toBytes (MsgHeader.genCallStub sessionId rpcId sz)))
    (hlen : UDReceiver.header + Pod.size MsgHeader + sz.toNat ≤ msg.bytes.len)
    {session : UDSession} {buf : UDMsg}
    (hss : s.rpc.connectedSessions sessionId = some (session, buf))
    (hsl : Pod.size MsgHeader ≤ buf.len) :
    let args : BytesMut :=
      ⟨msg.bytes.ptr + UDReceiver.header + Pod.size MsgHeader, sz.toNat, sz.toNat_lt⟩
    let result := s.rpc.service.execute rpcId args (buf.bytes.advance (Pod.size MsgHeader)) s.mem
    let reply := match result.1 with
      | some size => ReplyStubFactory.new .ok size
      | none => ReplyStubFactory.new .notExist 0
    nic.postDatagram session.endpoint (reply.payload.toNat + Pod.size MsgHeader) = true →
    poll nic mr s = .ok (.ok (.ready ()), { s with
      rpc := { s.rpc with transport := q.postRecvBuf msg }
      mem := result.2.write buf.bytes.ptr
        (Pod.toBytes (MsgHeader.genReplyStub reply.status reply.payload))
      sent := s.sent ++ [⟨session.endpoint,
        Pod.toBytes (MsgHeader.genReplyStub reply.status reply.payload) ++
          result.2.read (buf.bytes.ptr + Pod.size MsgHeader) reply.payload.toNat⟩] }) := by
  intro args result reply hpost
  let s₁ : OnHost RPCHook A := { s with rpc := { s.rpc with transport := q } }
  have hd : dispatch nic mr (MsgHeader.genCallStub sessionId rpcId sz) args s₁ =
      handleRequest nic ⟨sessionId, rpcId⟩ args s₁ := rfl
  have hr : handleRequest nic ⟨sessionId, rpcId⟩ args s₁ = _ := handleRequest_of_session hss hsl
  have hsend : sendReply nic sessionId reply { s₁ with mem := result.2 } = _ :=
    sendReply_of_post hss hsl hpost
  exact poll_of_dispatch hq (parseMsg_of_stores hs hlen) ((hd.trans hr).trans hsend)

/-- A request from a session the hook does not know fails, and the poll returns before it
posts the buffer back. -/
theorem poll_of_unknown_session {s : OnHost RPCHook A} {msg : UDMsg} {q : UDReceiver}
    (hq : s.rpc.transport.poll = (.ready msg, q)) {sessionId rpcId sz : UInt64}
    (hs : s.mem.Stores (msg.bytes.ptr + UDReceiver.header)
      (Pod.toBytes (MsgHeader.genCallStub sessionId rpcId sz)))
    (hlen : UDReceiver.header + Pod.size MsgHeader + sz.toNat ≤ msg.bytes.len)
    (hss : s.rpc.connectedSessions sessionId = none) :
    poll nic mr s = .ok (.error .notConnected, { s with rpc := { s.rpc with transport := q } }) := by
  unfold poll
  rw [hq]
  dsimp only
  rw [parseMsg_of_stores hs hlen]
  simp only [dispatch, MsgHeader.getMarker, MsgHeader.genCallStub, MsgHeader.getCallStub,
    handleRequest, hss]
  rfl

/-! ### A connect, and a disconnect -/

/-- A connect for an id not yet connected, whose hyper meta the NIC resolves, while the
allocator has a buffer: the session is created with a buffer of `MTU` bytes and answered with
an `Ok` reply that carries no payload. -/
theorem handleConnect_of_fresh {stub : ConnectStub} {rpcArgs : BytesMut} {s : OnHost RPCHook A}
    (hfresh : s.rpc.connectedSessions stub.sessionId = none) {hyperMeta : UDHyperMeta}
    (hs : s.mem.Stores rpcArgs.ptr (Pod.toBytes hyperMeta)) (hlen : Pod.size UDHyperMeta ≤ rpcArgs.len)
    {ep : DatagramEndpoint} (hmeta : nic.createMeta hyperMeta = some ep)
    {va : ℕ} {pa : UInt64} {alloc : A}
    (halloc : mr.mrNew UDReceiver.mtu s.alloc = some ((va, pa), alloc))
    (hpost : nic.postDatagram ep (Pod.size MsgHeader) = true) :
    handleConnect nic mr stub rpcArgs s = .ok (.ok (), { s with
      rpc := { s.rpc with
        connectedSessions := Function.update s.rpc.connectedSessions stub.sessionId
          (some (⟨ep⟩, ⟨pa, ⟨va, UDReceiver.mtu, UDReceiver.mtu_lt⟩, 0⟩)) }
      mem := s.mem.write va (Pod.toBytes (MsgHeader.genReplyStub .ok 0))
      alloc
      sent := s.sent ++ [⟨ep, Pod.toBytes (MsgHeader.genReplyStub .ok 0)⟩] }) := by
  let sbuf : UDMsg := ⟨pa, ⟨va, UDReceiver.mtu, UDReceiver.mtu_lt⟩, 0⟩
  let s₁ : OnHost RPCHook A := { s with
    rpc := { s.rpc with
      connectedSessions := Function.update s.rpc.connectedSessions stub.sessionId
        (some (⟨ep⟩, sbuf)) }
    alloc }
  have hss : s₁.rpc.connectedSessions stub.sessionId = some (⟨ep⟩, sbuf) := by simp [s₁]
  have hreply : sendReply nic stub.sessionId (ReplyStubFactory.new .ok 0) s₁ = _ :=
    @sendReply_of_post A nic stub.sessionId (ReplyStubFactory.new .ok 0) s₁ ⟨ep⟩ sbuf hss
      (show Pod.size MsgHeader ≤ UDReceiver.mtu by decide) hpost
  simp only [handleConnect, hfresh, Option.isSome_none, Bool.false_eq_true, if_false,
    BytesMut.memcpyDeserialize_of_stores _ _ _ hs hlen, hmeta,
    UDMsg.new_of_mrNew UDReceiver.mtu_lt 0 halloc, ok_bind]
  rw [hreply]
  simp [s₁, sbuf, ReplyStubFactory.new]

/-- A connect message behind the routing header, with the hyper meta of the connecting end
after it, for an id not yet connected: the poll creates the session to the endpoint the NIC
resolves from the hyper meta, answers on it, and posts the buffer back. -/
theorem poll_of_connect {s : OnHost RPCHook A} {msg : UDMsg} {q : UDReceiver}
    (hq : s.rpc.transport.poll = (.ready msg, q)) {sessionId : UInt64} {hyperMeta : UDHyperMeta}
    (hs : s.mem.Stores (msg.bytes.ptr + UDReceiver.header)
      (Pod.toBytes (MsgHeader.genConnectStub sessionId (UInt64.ofNat (Pod.size UDHyperMeta))) ++
        Pod.toBytes hyperMeta))
    (hlen : UDReceiver.header + Pod.size MsgHeader + Pod.size UDHyperMeta ≤ msg.bytes.len)
    (hfresh : s.rpc.connectedSessions sessionId = none)
    {ep : DatagramEndpoint} (hmeta : nic.createMeta hyperMeta = some ep)
    {va : ℕ} {pa : UInt64} {alloc : A}
    (halloc : mr.mrNew UDReceiver.mtu s.alloc = some ((va, pa), alloc))
    (hpost : nic.postDatagram ep (Pod.size MsgHeader) = true) :
    poll nic mr s = .ok (.ok (.ready ()), { s with
      rpc := { s.rpc with
        transport := q.postRecvBuf msg
        connectedSessions := Function.update s.rpc.connectedSessions sessionId
          (some (⟨ep⟩, ⟨pa, ⟨va, UDReceiver.mtu, UDReceiver.mtu_lt⟩, 0⟩)) }
      mem := s.mem.write va (Pod.toBytes (MsgHeader.genReplyStub .ok 0))
      alloc
      sent := s.sent ++ [⟨ep, Pod.toBytes (MsgHeader.genReplyStub .ok 0)⟩] }) := by
  rw [Memory.stores_append, Pod.length_toBytes] at hs
  let header := MsgHeader.genConnectStub sessionId (UInt64.ofNat (Pod.size UDHyperMeta))
  have hpay : header.payload.toNat = Pod.size UDHyperMeta := rfl
  have hparse := parseMsg_of_stores hs.1 (by rw [hpay]; exact hlen)
  let args : BytesMut := ⟨msg.bytes.ptr + UDReceiver.header + Pod.size MsgHeader,
    header.payload.toNat, header.payload.toNat_lt⟩
  let s₁ : OnHost RPCHook A := { s with rpc := { s.rpc with transport := q } }
  have hd : dispatch nic mr header args s₁ = handleConnect nic mr ⟨sessionId⟩ args s₁ := rfl
  have hc : handleConnect nic mr ⟨sessionId⟩ args s₁ = _ :=
    @handleConnect_of_fresh A nic mr ⟨sessionId⟩ args s₁ hfresh hyperMeta hs.2
      (le_of_eq hpay.symm) ep hmeta va pa alloc halloc hpost
  exact poll_of_dispatch hq hparse (hd.trans hc)

/-- A second connect of an id fails with `SessionCreationError`, and the poll returns before
it posts the buffer back. -/
theorem poll_of_connected_connect {s : OnHost RPCHook A} {msg : UDMsg} {q : UDReceiver}
    (hq : s.rpc.transport.poll = (.ready msg, q)) {sessionId sz : UInt64}
    (hs : s.mem.Stores (msg.bytes.ptr + UDReceiver.header)
      (Pod.toBytes (MsgHeader.genConnectStub sessionId sz)))
    (hlen : UDReceiver.header + Pod.size MsgHeader + sz.toNat ≤ msg.bytes.len)
    (hss : (s.rpc.connectedSessions sessionId).isSome) :
    poll nic mr s =
      .ok (.error .sessionCreationError, { s with rpc := { s.rpc with transport := q } }) := by
  unfold poll
  rw [hq]
  dsimp only
  rw [parseMsg_of_stores hs hlen]
  simp only [dispatch, MsgHeader.getMarker, MsgHeader.genConnectStub, MsgHeader.getConnectStub,
    handleConnect, hss, if_true]
  rfl

/-- A disconnect, whatever its stub, is a panic of the poll (`todo!()`): a peer that sends one
stops the hook's thread. -/
theorem poll_of_disconnect {s : OnHost RPCHook A} {msg : UDMsg} {q : UDReceiver}
    (hq : s.rpc.transport.poll = (.ready msg, q)) {sz : UInt64} {stub : RPCMeta}
    (hs : s.mem.Stores (msg.bytes.ptr + UDReceiver.header)
      (Pod.toBytes (⟨.disConnect, sz, stub⟩ : MsgHeader)))
    (hlen : UDReceiver.header + Pod.size MsgHeader + sz.toNat ≤ msg.bytes.len) :
    poll nic mr s = .error "not yet implemented" := by
  unfold poll
  rw [hq]
  dsimp only
  rw [parseMsg_of_stores hs hlen]
  rfl

/-! ### What a poll can panic on, and the sessions it creates -/

/-- A reply panics only when the session's buffer has no room for the reply header. -/
theorem sendReply_eq_error {sessionId : UInt64} {reply : ReplyStubFactory} {s : OnHost RPCHook A}
    {msg : String} (h : sendReply nic sessionId reply s = .error msg) :
    ∃ p, s.rpc.connectedSessions sessionId = some p ∧ p.2.len < Pod.size MsgHeader := by
  unfold sendReply at h
  split at h
  · cases h
  rename_i session buf hs
  refine ⟨(session, buf), hs, Nat.lt_of_not_le fun hlen => ?_⟩
  have hle : Pod.size MsgHeader ≤ buf.getBytesMut.len := hlen
  rw [ReplyStubFactory.generate_of_le _ _ hle, unwrap_some, ok_bind] at h
  dsimp only at h
  split at h <;> cases h

/-- A request panics only when the session's buffer has no room for the reply header. -/
theorem handleRequest_eq_error {stub : CallStub} {rpcArgs : BytesMut} {s : OnHost RPCHook A}
    {msg : String} (h : handleRequest nic stub rpcArgs s = .error msg) :
    ∃ p, s.rpc.connectedSessions stub.sessionId = some p ∧ p.2.len < Pod.size MsgHeader := by
  unfold handleRequest at h
  split at h
  · cases h
  rename_i session outBuf hs
  refine ⟨(session, outBuf), hs, Nat.lt_of_not_le fun hlen => ?_⟩
  rw [UDMsg.getBytesMut, BytesMut.truncateHeader_of_le _ _ hlen, unwrap_some, ok_bind] at h
  have hreply : ∃ reply, sendReply nic stub.sessionId reply { s with mem :=
      (s.rpc.service.execute stub.rpcId rpcArgs (outBuf.bytes.advance (Pod.size MsgHeader))
        s.mem).2 } = .error msg := by
    dsimp only at h
    split at h
    · exact ⟨_, h⟩
    · exact ⟨_, h⟩
  obtain ⟨reply, hr⟩ := hreply
  obtain ⟨p, hp, hl⟩ := sendReply_eq_error hr
  rw [show p = (session, outBuf) from Option.some.inj (hp.symm.trans hs)] at hl
  exact absurd hlen (Nat.not_le_of_lt hl)

/-- A connect panics only when the allocator has no buffer of `MTU` bytes: the buffer it gives
the new session has room for the reply header. -/
theorem handleConnect_eq_error {stub : ConnectStub} {rpcArgs : BytesMut} {s : OnHost RPCHook A}
    {msg : String} (h : handleConnect nic mr stub rpcArgs s = .error msg) :
    mr.mrNew UDReceiver.mtu s.alloc = none := by
  unfold handleConnect at h
  split at h
  · cases h
  split at h
  · cases h
  split at h
  · cases h
  cases hm : mr.mrNew UDReceiver.mtu s.alloc with
  | none => rfl
  | some r =>
    obtain ⟨⟨va, pa⟩, a⟩ := r
    rw [UDMsg.new_of_mrNew UDReceiver.mtu_lt 0 hm, ok_bind] at h
    obtain ⟨p, hp, hl⟩ := sendReply_eq_error h
    simp only [Function.update_self, Option.some.injEq] at hp
    rw [← hp] at hl
    exact absurd hl (show ¬ UDReceiver.mtu < Pod.size MsgHeader by decide)

/-- The dispatch panics on a disconnect, on a connect while the allocator has no buffer, and
on a request of a session whose buffer has no room for a reply header. -/
theorem dispatch_eq_error {msgHeader : MsgHeader} {rpcArgs : BytesMut} {s : OnHost RPCHook A}
    {msg : String} (h : dispatch nic mr msgHeader rpcArgs s = .error msg) :
    msgHeader.marker = .disConnect ∨
      (msgHeader.marker = .connect ∧ mr.mrNew UDReceiver.mtu s.alloc = none) ∨
      ∃ id p, s.rpc.connectedSessions id = some p ∧ p.2.len < Pod.size MsgHeader := by
  unfold dispatch at h
  split at h
  · rename_i hm
    split at h
    · cases h
    · exact .inr (.inl ⟨hm, handleConnect_eq_error h⟩)
  · split at h
    · cases h
    · exact .inr (.inr ⟨_, handleRequest_eq_error h⟩)
  · rename_i hm
    exact .inl hm
  · cases h

/-- A poll panics only on a message it takes and parses, which is a disconnect, or a connect
while the allocator has no buffer, or a request of a session whose buffer has no room for a
reply header. -/
theorem poll_eq_error {s : OnHost RPCHook A} {msg : String} (h : poll nic mr s = .error msg) :
    ∃ m q header args, s.rpc.transport.poll = (.ready m, q) ∧
      parseMsg m s.mem = .ok (header, args) ∧
      (header.marker = .disConnect ∨
        (header.marker = .connect ∧ mr.mrNew UDReceiver.mtu s.alloc = none) ∨
        ∃ id p, s.rpc.connectedSessions id = some p ∧ p.2.len < Pod.size MsgHeader) := by
  unfold poll at h
  split at h
  · cases h
  rename_i m q hq
  dsimp only at h
  split at h
  · cases h
  rename_i header args hp
  refine ⟨m, q, header, args, hq, hp, ?_⟩
  rcases bind_eq_error.mp h with hd | ⟨⟨r, s₁⟩, -, hr⟩
  · have hcause := dispatch_eq_error hd
    exact hcause
  · rcases r with e | ⟨⟩ <;> cases hr

/-- A connect keeps the sessions, or adds one with a buffer of `MTU` bytes. -/
theorem sessions_handleConnect {stub : ConnectStub} {rpcArgs : BytesMut}
    {s s' : OnHost RPCHook A} {r : Except HookError Unit}
    (h : handleConnect nic mr stub rpcArgs s = .ok (r, s')) :
    s'.rpc.connectedSessions = s.rpc.connectedSessions ∨
      ∃ ep buf, buf.len = UDReceiver.mtu ∧ s'.rpc.connectedSessions =
        Function.update s.rpc.connectedSessions stub.sessionId (some (ep, buf)) := by
  unfold handleConnect at h
  split at h
  · cases h; exact .inl rfl
  split at h
  · cases h; exact .inl rfl
  split at h
  · cases h; exact .inl rfl
  obtain ⟨⟨buf, a⟩, hnew, h⟩ := bind_eq_ok.mp h
  rw [rpc_sendReply h]
  exact .inr ⟨_, buf, UDMsg.len_of_new hnew, rfl⟩

/-- A dispatch keeps the sessions, or adds one with a buffer of `MTU` bytes. -/
theorem sessions_dispatch {msgHeader : MsgHeader} {rpcArgs : BytesMut} {s s' : OnHost RPCHook A}
    {r : Except HookError Unit} (h : dispatch nic mr msgHeader rpcArgs s = .ok (r, s')) :
    s'.rpc.connectedSessions = s.rpc.connectedSessions ∨
      ∃ id ep buf, buf.len = UDReceiver.mtu ∧ s'.rpc.connectedSessions =
        Function.update s.rpc.connectedSessions id (some (ep, buf)) := by
  unfold dispatch at h
  split at h
  · split at h
    · cases h; exact .inl rfl
    · rcases sessions_handleConnect h with he | ⟨ep, buf, hl, he⟩
      · exact .inl he
      · exact .inr ⟨_, ep, buf, hl, he⟩
  · split at h
    · cases h; exact .inl rfl
    · exact .inl (by rw [rpc_handleRequest h])
  · cases h
  · cases h; exact .inl rfl

/-- A poll keeps the sessions, or adds one with a buffer of `MTU` bytes: those of its dispatch,
which posting the buffer back does not touch. -/
theorem sessions_poll {s s' : OnHost RPCHook A} {r : Except HookError (Future.Async Unit)}
    (h : poll nic mr s = .ok (r, s')) :
    s'.rpc.connectedSessions = s.rpc.connectedSessions ∨
      ∃ id ep buf, buf.len = UDReceiver.mtu ∧ s'.rpc.connectedSessions =
        Function.update s.rpc.connectedSessions id (some (ep, buf)) := by
  unfold poll at h
  split at h
  · cases h; exact .inl rfl
  dsimp only at h
  split at h
  · cases h; exact .inl rfl
  obtain ⟨⟨r₁, s₁⟩, hd, h⟩ := bind_eq_ok.mp h
  have hs₁ := sessions_dispatch hd
  rcases r₁ with e | ⟨⟩ <;> cases h <;> exact hs₁

end RPCHook

end OsNetwork
