import Mitosis.Network.Rpc

/-!
# The RPC caller of `os_network::rpc`

A `Caller` is the client end: one receiver that all its sessions share, and its sessions by
the id its user chose, each with the buffer its requests are written in. `sync_call` writes a
request into the session's buffer and sends it; `connect` sends a connect message on a new
session and keeps the session; `poll` takes the oldest received message and gives its reply
payload, or fails when it is no `Ok` reply. The reply carries no trace of the request it
answers: the caller takes whatever message its receiver has oldest.

Left out, as in the hook: the pending counts of the sends and the wait on the send queue they
decide (after more than eight pending requests), and the errors of the receive queue itself.
-/
namespace OsNetwork

/-- `Caller`: the receiver, and the sessions with their request buffers. -/
structure Caller where
  innerReceiver : UDReceiver
  connectedSessions : UInt64 → Option (UDSession × UDMsg)

/-- The kinds of `CallError` a poll returns. -/
inductive CallError
  | noID
  | fatal
  deriving DecidableEq, Repr

namespace Caller

variable {A : Type} (nic : UDNic)

def new (inner : UDReceiver) : Caller := ⟨inner, fun _ => none⟩

def sessionConnected (self : Caller) (sessionId : UInt64) : Bool :=
  (self.connectedSessions sessionId).isSome

/-- `register_recv_buf`. -/
def registerRecvBuf (self : Caller) (msg : UDMsg) : Caller :=
  { self with innerReceiver := self.innerReceiver.postRecvBuf msg }

/-- `sync_call`: the request, `my_session_id` as the session to answer, written into the
session's buffer and sent; `true` when the send queue takes it. A session that is not
connected, and a buffer too short for the request, are panics. -/
def syncCall {T : Type} [Pod T] (sessionId mySessionId rpcId : UInt64) (arg : T)
    (s : OnHost Caller A) : Except String (Bool × OnHost Caller A) := do
  let (session, msg) ← expect (s.rpc.connectedSessions sessionId) "failed to get session"
  let reqSz ← unwrap ((CallStubFactory.new mySessionId rpcId).generate arg msg.getBytesMut s.mem).1
  let mem := ((CallStubFactory.new mySessionId rpcId).generate arg msg.getBytesMut s.mem).2
  match session.post nic msg reqSz mem with
  | some d => pure (true, { s with mem, sent := s.sent ++ [d] })
  | none => pure (false, { s with mem })

variable (mr : MrAllocator A)

/-- `connect`: the connect message, with the hyper meta through which the hook reaches this
end, sent on the new session from a fresh buffer of `MTU` bytes, which the session then
keeps. The wait for the send's completion always ends well: the send is signaled, and the
completions of UD sends are not modelled. -/
def connect (sessionId mySessionId : UInt64) (session : UDSession) (hyperMeta : UDHyperMeta)
    (s : OnHost Caller A) : Except String (Bool × OnHost Caller A) := do
  let buf ← UDMsg.new mr UDReceiver.mtu UDReceiver.mtu_lt 0 s.alloc
  let msgBuf := buf.1
  let alloc := buf.2
  let reqSz ← unwrap ((ConnectStubFactory.new mySessionId).generate hyperMeta
    msgBuf.getBytesMut s.mem).1
  let mem := ((ConnectStubFactory.new mySessionId).generate hyperMeta msgBuf.getBytesMut s.mem).2
  match session.post nic msgBuf reqSz mem with
  | none => pure (false, { s with mem, alloc })
  | some d =>
    pure (true, { s with
      rpc := { s.rpc with
        connectedSessions := Function.update s.rpc.connectedSessions sessionId
          (some (session, msgBuf)) }
      mem, alloc, sent := s.sent ++ [d] })

/-- `poll`: the oldest received message; for an `Ok` reply, its buffer and the window of its
payload. A `NotExist` reply and a message that is no reply are errors, and the buffer goes
with them. -/
def poll (s : OnHost Caller A) :
    Except String (Except CallError (Future.Async (UDMsg × BytesMut)) × OnHost Caller A) :=
  match s.rpc.innerReceiver.poll with
  | (.notReady, _) => pure (.ok .notReady, s)
  | (.ready msg, innerReceiver) => do
    let s := { s with rpc := { s.rpc with innerReceiver } }
    let msgHeaderBytes ← unwrap (msg.bytes.truncateHeader UDReceiver.header)
    let msgHeader : MsgHeader :=
      ((msgHeaderBytes.memcpyDeserialize s.mem : Option (MsgHeader × ℕ)).map Prod.fst).getD default
    if msgHeader.isReply then
      match msgHeader.getReplyStub with
      | some .ok => do
        let bytes ← unwrap (msgHeaderBytes.truncateHeader (Pod.size MsgHeader))
        let reply ← unwrap (bytes.cloneAndResize msgHeader.getPayload.toNat)
        pure (.ok (.ready (msg, reply)), s)
      | some .notExist => pure (.error .noID, s)
      | none => pure (.error .fatal, s)
    else pure (.error .fatal, s)

@[simp] theorem innerReceiver_registerRecvBuf (self : Caller) (msg : UDMsg) :
    (self.registerRecvBuf msg).innerReceiver = self.innerReceiver.postRecvBuf msg := rfl

@[simp] theorem connectedSessions_registerRecvBuf (self : Caller) (msg : UDMsg) :
    (self.registerRecvBuf msg).connectedSessions = self.connectedSessions := rfl

variable {nic mr}

/-- What a poll can do with the receiver: find nothing and change nothing, or take the
oldest message, which it either hands out with the payload of an `Ok` reply or drops with an
error. Nothing else of the caller changes, nor the memory. -/
theorem poll_cases {s s' : OnHost Caller A}
    {r : Except CallError (Future.Async (UDMsg × BytesMut))} (h : poll s = .ok (r, s')) :
    (r = .ok .notReady ∧ s' = s) ∨
      ∃ msg q, s.rpc.innerReceiver.poll = (.ready msg, q) ∧
        s' = { s with rpc := { s.rpc with innerReceiver := q } } ∧
        ((∃ reply, r = .ok (.ready (msg, reply))) ∨ ∃ e, r = .error e) := by
  unfold poll at h
  split at h
  · cases h; exact .inl ⟨rfl, rfl⟩
  rename_i msg q hq
  refine .inr ⟨msg, q, hq, ?_⟩
  dsimp only at h
  obtain ⟨msgHeaderBytes, -, h⟩ := bind_eq_ok.mp h
  split at h
  · split at h
    · obtain ⟨bytes, -, h⟩ := bind_eq_ok.mp h
      obtain ⟨reply, -, h⟩ := bind_eq_ok.mp h
      cases h; exact ⟨rfl, .inl ⟨reply, rfl⟩⟩
    · cases h; exact ⟨rfl, .inr ⟨_, rfl⟩⟩
    · cases h; exact ⟨rfl, .inr ⟨_, rfl⟩⟩
  · cases h; exact ⟨rfl, .inr ⟨_, rfl⟩⟩

/-! ### A call on a connected session, and its reply -/

/-- A call on a connected session whose buffer has room for the request: the header and the
argument are written at the head of the buffer, and, when the send queue takes it, the
datagram is exactly those bytes. -/
theorem syncCall_of_session {T : Type} [Pod T] {sessionId mySessionId rpcId : UInt64} (arg : T)
    {s : OnHost Caller A} {session : UDSession} {msg : UDMsg}
    (hs : s.rpc.connectedSessions sessionId = some (session, msg))
    (hlen : Pod.size MsgHeader + Pod.size T ≤ msg.len)
    (hpost : nic.postDatagram session.endpoint (Pod.size MsgHeader + Pod.size T) = true) :
    syncCall nic sessionId mySessionId rpcId arg s = .ok (true, { s with
      mem := s.mem.write msg.bytes.ptr (Pod.toBytes (MsgHeader.genCallStub mySessionId rpcId
        (UInt64.ofNat (Pod.size T))) ++ Pod.toBytes arg)
      sent := s.sent ++ [⟨session.endpoint, Pod.toBytes (MsgHeader.genCallStub mySessionId rpcId
        (UInt64.ofNat (Pod.size T))) ++ Pod.toBytes arg⟩] }) := by
  have hread := Memory.read_write_self s.mem msg.bytes.ptr
    (Pod.toBytes (MsgHeader.genCallStub mySessionId rpcId (UInt64.ofNat (Pod.size T))) ++
      Pod.toBytes arg)
  simp only [List.length_append, Pod.length_toBytes] at hread
  simp only [syncCall, hs, expect_some, ok_bind, CallStubFactory.generate, CallStubFactory.new,
    UDMsg.getBytesMut, serializeStub_of_le _ _ _ hlen, unwrap_some, UDSession.post, hpost,
    if_true, hread]
  rfl

/-- A connect while the allocator has a buffer and the send queue takes the message: the
connect header and the hyper meta are written at the head of the new buffer and sent on the
session, which the caller keeps from then on, with that buffer for its requests. -/
theorem connect_of_post {sessionId mySessionId : UInt64} {session : UDSession}
    {hyperMeta : UDHyperMeta} {s : OnHost Caller A} {va : ℕ} {pa : UInt64} {alloc : A}
    (halloc : mr.mrNew UDReceiver.mtu s.alloc = some ((va, pa), alloc))
    (hpost : nic.postDatagram session.endpoint (Pod.size MsgHeader + Pod.size UDHyperMeta) = true) :
    let bytes := Pod.toBytes (MsgHeader.genConnectStub mySessionId
      (UInt64.ofNat (Pod.size UDHyperMeta))) ++ Pod.toBytes hyperMeta
    connect nic mr sessionId mySessionId session hyperMeta s = .ok (true, { s with
      rpc := { s.rpc with
        connectedSessions := Function.update s.rpc.connectedSessions sessionId
          (some (session, ⟨pa, ⟨va, UDReceiver.mtu, UDReceiver.mtu_lt⟩, 0⟩)) }
      mem := s.mem.write va bytes
      alloc
      sent := s.sent ++ [⟨session.endpoint, bytes⟩] }) := by
  intro bytes
  have hread := Memory.read_write_self s.mem va bytes
  simp only [bytes, List.length_append, Pod.length_toBytes] at hread
  have hser := @serializeStub_of_le UDHyperMeta _
    (MsgHeader.genConnectStub mySessionId (UInt64.ofNat (Pod.size UDHyperMeta))) hyperMeta
    ⟨va, UDReceiver.mtu, UDReceiver.mtu_lt⟩ s.mem
    (show Pod.size MsgHeader + Pod.size UDHyperMeta ≤ UDReceiver.mtu by decide)
  simp only [connect, UDMsg.new_of_mrNew UDReceiver.mtu_lt 0 halloc, ok_bind,
    ConnectStubFactory.generate, ConnectStubFactory.new, UDMsg.getBytesMut, hser, unwrap_some,
    UDSession.post, hpost, if_true, hread]
  rfl

/-- The oldest message, an `Ok` reply whose payload fits in its buffer, is handed out with
the window of its payload. -/
theorem poll_of_ok_reply {s : OnHost Caller A} {msg : UDMsg} {q : UDReceiver}
    (hq : s.rpc.innerReceiver.poll = (.ready msg, q)) {sz : UInt64}
    (hs : s.mem.Stores (msg.bytes.ptr + UDReceiver.header)
      (Pod.toBytes (MsgHeader.genReplyStub .ok sz)))
    (hlen : UDReceiver.header + Pod.size MsgHeader + sz.toNat ≤ msg.bytes.len) :
    poll s = .ok (.ok (.ready (msg,
      ⟨msg.bytes.ptr + UDReceiver.header + Pod.size MsgHeader, sz.toNat, sz.toNat_lt⟩)),
      { s with rpc := { s.rpc with innerReceiver := q } }) := by
  have h₁ : UDReceiver.header ≤ msg.bytes.len := by omega
  have h₂ : Pod.size MsgHeader ≤ (msg.bytes.advance UDReceiver.header).len := by
    rw [BytesMut.advance_len]; omega
  have h₃ : sz.toNat ≤ ((msg.bytes.advance UDReceiver.header).advance (Pod.size MsgHeader)).len := by
    simp only [BytesMut.advance_len]; omega
  unfold poll
  rw [hq]
  simp only [BytesMut.truncateHeader_of_le _ _ h₁, unwrap_some, ok_bind,
    BytesMut.memcpyDeserialize_of_stores _ _ _ hs h₂, Option.map_some, Option.getD_some]
  simp only [MsgHeader.isReply, MsgHeader.genReplyStub, MsgHeader.getReplyStub,
    MsgHeader.getPayload, BytesMut.truncateHeader_of_le _ _ h₂, unwrap_some, ok_bind,
    BytesMut.cloneAndResize_of_le _ h₃]
  rfl

/-- The oldest message, a `NotExist` reply, is an error, and its buffer goes with it. -/
theorem poll_of_notExist_reply {s : OnHost Caller A} {msg : UDMsg} {q : UDReceiver}
    (hq : s.rpc.innerReceiver.poll = (.ready msg, q)) {sz : UInt64}
    (hs : s.mem.Stores (msg.bytes.ptr + UDReceiver.header)
      (Pod.toBytes (MsgHeader.genReplyStub .notExist sz)))
    (hlen : UDReceiver.header + Pod.size MsgHeader ≤ msg.bytes.len) :
    poll s = .ok (.error .noID, { s with rpc := { s.rpc with innerReceiver := q } }) := by
  have h₁ : UDReceiver.header ≤ msg.bytes.len := by omega
  have h₂ : Pod.size MsgHeader ≤ (msg.bytes.advance UDReceiver.header).len := by
    rw [BytesMut.advance_len]; omega
  unfold poll
  rw [hq]
  simp only [BytesMut.truncateHeader_of_le _ _ h₁, unwrap_some, ok_bind,
    BytesMut.memcpyDeserialize_of_stores _ _ _ hs h₂, Option.map_some, Option.getD_some]
  rfl

end Caller

/-! ## What a poll does with the buffer it takes -/

theorem bufs_of_poll_ready {r q : UDReceiver} {msg : UDMsg} (h : r.poll = (.ready msg, q)) :
    0 < r.filled ∧ r.bufs = msg :: q.bufs := by
  obtain ⟨hk, hb, -⟩ := RecvQueue.poll_eq_some (UDReceiver.poll_eq_ready h)
  exact ⟨hk, hb⟩

/-- A poll of the hook that fails after taking a message does not post its buffer back: the
receive queue keeps only the buffers behind it, one fewer than before. Only a poll that
succeeds posts the buffer back, behind the others. A poll of the caller that fails drops the
buffer it took in the same way. -/
theorem poll_error_drops_buffer {A : Type} :
    (∀ (nic : UDNic) (mr : MrAllocator A) (s s' : OnHost RPCHook A) (e : HookError),
      RPCHook.poll nic mr s = .ok (.error e, s') →
        0 < s.rpc.transport.filled ∧ s'.rpc.transport.bufs = s.rpc.transport.bufs.tail) ∧
    (∀ (nic : UDNic) (mr : MrAllocator A) (s s' : OnHost RPCHook A),
      RPCHook.poll nic mr s = .ok (.ok (.ready ()), s') →
        ∃ msg, s.rpc.transport.bufs = msg :: s.rpc.transport.bufs.tail ∧
          s'.rpc.transport.bufs = s.rpc.transport.bufs.tail ++ [msg]) ∧
    (∀ (s s' : OnHost Caller A) (e : CallError), Caller.poll s = .ok (.error e, s') →
        0 < s.rpc.innerReceiver.filled ∧
          s'.rpc.innerReceiver.bufs = s.rpc.innerReceiver.bufs.tail) := by
  refine ⟨fun nic mr s s' e h => ?_, fun nic mr s s' h => ?_, fun s s' e h => ?_⟩
  · rcases RPCHook.poll_cases h with ⟨hr, -⟩ | ⟨msg, q, hq, -, ⟨hr, -⟩ | ⟨e', -, ht⟩⟩
    · cases hr
    · cases hr
    · obtain ⟨hk, hb⟩ := bufs_of_poll_ready hq
      exact ⟨hk, by rw [ht, hb, List.tail_cons]⟩
  · rcases RPCHook.poll_cases h with ⟨hr, -⟩ | ⟨msg, q, hq, -, ⟨-, ht⟩ | ⟨e', hr, -⟩⟩
    · cases hr
    · obtain ⟨-, hb⟩ := bufs_of_poll_ready hq
      exact ⟨msg, by rw [hb, List.tail_cons], by rw [ht, hb, List.tail_cons]; rfl⟩
    · cases hr
  · rcases Caller.poll_cases h with ⟨hr, -⟩ | ⟨msg, q, hq, hs', ⟨reply, hr⟩ | -⟩
    · cases hr
    · cases hr
    · obtain ⟨hk, hb⟩ := bufs_of_poll_ready hq
      exact ⟨hk, by rw [hs', hb, List.tail_cons]⟩

/-- Two receive queues of two buffers, each with a message in its oldest: at the hook, a
request from session 9, which it does not know; at the caller, a `NotExist` reply. Each poll
fails, and each receive queue is left with one buffer. -/
theorem poll_error_drops_buffer_unknown_session :
    let b₁ : UDMsg := ⟨0, ⟨0x1000, 4096, by decide⟩, 0⟩
    let b₂ : UDMsg := ⟨0, ⟨0x2000, 4096, by decide⟩, 0⟩
    let nic : UDNic := ⟨fun _ => none, fun _ _ => true⟩
    let mr : MrAllocator Unit := ⟨fun _ _ => none⟩
    let hook : OnHost RPCHook Unit := ⟨⟨Service.new, ⟨[b₁, b₂], 1, by decide⟩, fun _ => none⟩,
      Memory.write (fun _ => 0) (0x1000 + UDReceiver.header)
        (Pod.toBytes (MsgHeader.genCallStub 9 1 0)), (), []⟩
    let caller : OnHost Caller Unit := ⟨⟨⟨[b₁, b₂], 1, by decide⟩, fun _ => none⟩,
      Memory.write (fun _ => 0) (0x1000 + UDReceiver.header)
        (Pod.toBytes (MsgHeader.genReplyStub .notExist 0)), (), []⟩
    (∃ hook', RPCHook.poll nic mr hook = .ok (.error .notConnected, hook') ∧
      hook'.rpc.transport.bufs = [b₂]) ∧
    (∃ caller', Caller.poll caller = .ok (.error .noID, caller') ∧
      caller'.rpc.innerReceiver.bufs = [b₂]) := by
  intro b₁ b₂ nic mr hook caller
  have hhook : RPCHook.poll nic mr hook = .ok (.error .notConnected, _) :=
    RPCHook.poll_of_unknown_session (UDReceiver.poll_of_cons rfl (by decide))
      (Memory.stores_write _ _ _) (by decide) rfl
  have hcaller : Caller.poll caller = .ok (.error .noID, _) :=
    Caller.poll_of_notExist_reply (UDReceiver.poll_of_cons rfl (by decide))
      (Memory.stores_write _ _ _) (by decide)
  exact ⟨⟨_, hhook, (poll_error_drops_buffer.1 nic mr hook _ _ hhook).2⟩,
    ⟨_, hcaller, (poll_error_drops_buffer.2.2 caller _ _ hcaller).2⟩⟩

end OsNetwork
