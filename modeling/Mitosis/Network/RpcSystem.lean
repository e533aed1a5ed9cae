import Mitosis.Network.RpcCaller

/-!
# A caller and a hook on a UD fabric

The system is one `Caller` and one `RPCHook`, each on its machine, with the datagrams each has
sent that have not yet arrived, and the time. Between two polls of the caller the rest of the
system moves by one tick of a schedule: a datagram arrives at the receiver it was sent to,
any one of those sent and in any order (a datagram to another endpoint leaves the system), the
hook's worker polls once, or time passes. A poll that panics stops the hook's machine.

`call` is the use the system calls make of a caller: `sync_call`, then
`block_on(TimeoutWRef::new(caller, timeout))` through the schedule, and on a reply the buffer
registered again. The main results here are the round trip of a call on a connected session
(the hook parses the request the caller wrote, runs the function of its id on the argument,
and the caller gets the function's answer), and that a call takes whatever reply its receiver
holds first, whoever it was meant for.
-/
namespace OsNetwork

/-- The fabric between the two ends: the queue pairs of the caller's receiver and of the
hook's, and the global routing header the NIC puts in front of a received datagram. -/
structure Fabric where
  clientAddr : DatagramEndpoint
  serverAddr : DatagramEndpoint
  grh : List.Vector UInt8 40

/-- The caller and the hook on their machines, whether the hook's machine has stopped on a
panic, and the time. -/
structure RpcSystem (A B : Type) where
  client : OnHost Caller A
  server : OnHost RPCHook B
  serverHalted : Bool
  now : ℕ

/-- What happens between two polls of the caller. -/
inductive Tick
  /-- The hook's worker polls it once. -/
  | serverPoll
  /-- The `i`-th datagram the caller has sent and that is still on its way arrives. -/
  | toServer (i : ℕ)
  /-- The `i`-th datagram the hook has sent and that is still on its way arrives. -/
  | toClient (i : ℕ)
  /-- Time passes. -/
  | elapse (d : ℕ)
  deriving DecidableEq, Repr

/-- How a call through `syscall_nil_rpc` or `syscall_resume_w_rpc` ends: the request was not
sent, the wait failed or timed out, or a reply came, of which the window of the payload. -/
inductive CallOutcome
  | notSent
  | failed (e : Future.TimeoutError CallError)
  | replied (reply : BytesMut)
  deriving DecidableEq

namespace RpcSystem

variable {A B : Type} (nic : UDNic) (mr : MrAllocator B) (fab : Fabric)

/-- A datagram arrives at the hook's receiver, if it is sent there. -/
def arriveAtServer (d : Datagram) (sys : RpcSystem A B) : RpcSystem A B :=
  if d.dst = fab.serverAddr then
    { sys with server := { sys.server with
        rpc := { sys.server.rpc with
          transport := (sys.server.rpc.transport.deliver fab.grh d.bytes sys.server.mem).1 }
        mem := (sys.server.rpc.transport.deliver fab.grh d.bytes sys.server.mem).2 } }
  else sys

/-- A datagram arrives at the caller's receiver, if it is sent there. -/
def arriveAtClient (d : Datagram) (sys : RpcSystem A B) : RpcSystem A B :=
  if d.dst = fab.clientAddr then
    { sys with client := { sys.client with
        rpc := { sys.client.rpc with
          innerReceiver := (sys.client.rpc.innerReceiver.deliver fab.grh d.bytes sys.client.mem).1 }
        mem := (sys.client.rpc.innerReceiver.deliver fab.grh d.bytes sys.client.mem).2 } }
  else sys

/-- One tick. The worker logs the errors of its polls and goes on. -/
def tick : Tick → RpcSystem A B → RpcSystem A B
  | .serverPoll, sys =>
    if sys.serverHalted then sys
    else
      match RPCHook.poll nic mr sys.server with
      | .ok (_, server) => { sys with server }
      | .error _ => { sys with serverHalted := true }
  | .toServer i, sys =>
    match sys.client.sent[i]? with
    | none => sys
    | some d =>
      arriveAtServer fab d { sys with client := { sys.client with sent := sys.client.sent.eraseIdx i } }
  | .toClient i, sys =>
    match sys.server.sent[i]? with
    | none => sys
    | some d =>
      arriveAtClient fab d { sys with server := { sys.server with sent := sys.server.sent.eraseIdx i } }
  | .elapse d, sys => { sys with now := sys.now + d }

/-- The caller's poll, in the system. -/
def pollClient (sys : RpcSystem A B) :
    Except String (Except CallError (Future.Async (UDMsg × BytesMut)) × RpcSystem A B) := do
  let (r, client) ← Caller.poll sys.client
  pure (r, { sys with client })

/-- `sync_call`, then `block_on(TimeoutWRef::new(caller, timeout))` while the system moves by
the schedule, and on a reply `register_recv_buf(msg)`; `none` when the schedule ends before
the wait does. -/
def call {T : Type} [Pod T] (sessionId mySessionId rpcId : UInt64) (arg : T) (timeout : ℕ)
    (sched : List Tick) (sys : RpcSystem A B) :
    Except String (Option (CallOutcome × RpcSystem A B × List Tick)) := do
  let (sent, client) ← Caller.syncCall nic sessionId mySessionId rpcId arg sys.client
  let sys := { sys with client }
  if !sent then return some (.notSent, sys, sched)
  let deadline := sys.now + timeout
  match ← Future.blockOn (Future.timeoutPoll pollClient fun sys => decide (deadline ≤ sys.now))
      (tick nic mr fab) sched sys with
  | none => pure none
  | some (.error e, sys, rest) => pure (some (.failed e, sys, rest))
  | some (.ok (msg, reply), sys, rest) =>
    pure (some (.replied reply,
      { sys with client := { sys.client with rpc := sys.client.rpc.registerRecvBuf msg } }, rest))

/-! ### Ticks -/

variable {nic mr fab}

theorem tick_toServer_of_getElem? {sys : RpcSystem A B} {i : ℕ} {d : Datagram}
    (h : sys.client.sent[i]? = some d) :
    tick nic mr fab (.toServer i) sys =
      arriveAtServer fab d { sys with client := { sys.client with sent := sys.client.sent.eraseIdx i } } := by
  simp [tick, h]

theorem tick_toClient_of_getElem? {sys : RpcSystem A B} {i : ℕ} {d : Datagram}
    (h : sys.server.sent[i]? = some d) :
    tick nic mr fab (.toClient i) sys =
      arriveAtClient fab d { sys with server := { sys.server with sent := sys.server.sent.eraseIdx i } } := by
  simp [tick, h]

theorem tick_serverPoll_of_poll {sys : RpcSystem A B} (hh : sys.serverHalted = false)
    {r : Except HookError (Future.Async Unit)} {server : OnHost RPCHook B}
    (hp : RPCHook.poll nic mr sys.server = .ok (r, server)) :
    tick nic mr fab .serverPoll sys = { sys with server } := by
  simp [tick, hh, hp]

theorem arriveAtServer_of_nextEmpty {d : Datagram} {sys : RpcSystem A B}
    (hd : d.dst = fab.serverAddr) {buf : UDMsg} (hb : sys.server.rpc.transport.nextEmpty = some buf)
    (hlen : UDReceiver.header + d.bytes.length ≤ buf.len) :
    arriveAtServer fab d sys = { sys with server := { sys.server with
      rpc := { sys.server.rpc with transport := RecvQueue.fill sys.server.rpc.transport }
      mem := sys.server.mem.write buf.bytes.ptr (fab.grh.toList ++ d.bytes) } } := by
  simp [arriveAtServer, hd, UDReceiver.deliver_of_nextEmpty hb _ hlen]

theorem arriveAtClient_of_nextEmpty {d : Datagram} {sys : RpcSystem A B}
    (hd : d.dst = fab.clientAddr) {buf : UDMsg}
    (hb : sys.client.rpc.innerReceiver.nextEmpty = some buf)
    (hlen : UDReceiver.header + d.bytes.length ≤ buf.len) :
    arriveAtClient fab d sys = { sys with client := { sys.client with
      rpc := { sys.client.rpc with innerReceiver := RecvQueue.fill sys.client.rpc.innerReceiver }
      mem := sys.client.mem.write buf.bytes.ptr (fab.grh.toList ++ d.bytes) } } := by
  simp [arriveAtClient, hd, UDReceiver.deliver_of_nextEmpty hb _ hlen]

theorem pollClient_of_poll {sys : RpcSystem A B}
    {r : Except CallError (Future.Async (UDMsg × BytesMut))} {client : OnHost Caller A}
    (h : Caller.poll sys.client = .ok (r, client)) : pollClient sys = .ok (r, { sys with client }) := by
  simp only [pollClient, h, ok_bind]
  rfl

theorem pollClient_of_filled_eq_zero {sys : RpcSystem A B}
    (h : sys.client.rpc.innerReceiver.filled = 0) : pollClient sys = .ok (.ok .notReady, sys) := by
  have hp : Caller.poll sys.client = .ok (.ok .notReady, sys.client) := by
    simp only [Caller.poll, UDReceiver.poll_of_filled_eq_zero h]
    rfl
  exact pollClient_of_poll hp

/-! ### The wait of a call -/

/-- A call whose request is sent waits through the schedule; a reply ends it, its buffer
registered again. -/
theorem call_of_reply {T : Type} [Pod T] {sessionId mySessionId rpcId : UInt64} {arg : T}
    {timeout : ℕ} {sched rest : List Tick} {sys sys₁ : RpcSystem A B} {client : OnHost Caller A}
    (hsync : Caller.syncCall nic sessionId mySessionId rpcId arg sys.client = .ok (true, client))
    {msg : UDMsg} {reply : BytesMut}
    (hwait : Future.blockOn (Future.timeoutPoll pollClient fun s => decide (sys.now + timeout ≤ s.now))
      (tick nic mr fab) sched { sys with client } = .ok (some (.ok (msg, reply), sys₁, rest))) :
    call nic mr fab sessionId mySessionId rpcId arg timeout sched sys =
      .ok (some (.replied reply,
        { sys₁ with client := { sys₁.client with rpc := sys₁.client.rpc.registerRecvBuf msg } }, rest)) := by
  simp only [call, hsync, ok_bind]
  simp only [Bool.not_true, Bool.false_eq_true, if_false]
  rw [hwait]
  rfl

/-- A call whose request is sent and whose wait fails or times out. -/
theorem call_of_failed {T : Type} [Pod T] {sessionId mySessionId rpcId : UInt64} {arg : T}
    {timeout : ℕ} {sched rest : List Tick} {sys sys₁ : RpcSystem A B} {client : OnHost Caller A}
    (hsync : Caller.syncCall nic sessionId mySessionId rpcId arg sys.client = .ok (true, client))
    {e : Future.TimeoutError CallError}
    (hwait : Future.blockOn (Future.timeoutPoll pollClient fun s => decide (sys.now + timeout ≤ s.now))
      (tick nic mr fab) sched { sys with client } = .ok (some (.error e, sys₁, rest))) :
    call nic mr fab sessionId mySessionId rpcId arg timeout sched sys =
      .ok (some (.failed e, sys₁, rest)) := by
  simp only [call, hsync, ok_bind]
  simp only [Bool.not_true, Bool.false_eq_true, if_false]
  rw [hwait]
  rfl

theorem blockOn_cons_of_notReady {deadline : ℕ} {t : Tick} {ts : List Tick} {sys : RpcSystem A B}
    (hf : (tick nic mr fab t sys).client.rpc.innerReceiver.filled = 0)
    (hd : (tick nic mr fab t sys).now < deadline) :
    Future.blockOn (Future.timeoutPoll pollClient fun s => decide (deadline ≤ s.now))
        (tick nic mr fab) (t :: ts) sys =
      Future.blockOn (Future.timeoutPoll pollClient fun s => decide (deadline ≤ s.now))
        (tick nic mr fab) ts (tick nic mr fab t sys) := by
  apply Future.blockOn_cons_notReady
  rw [Future.timeoutPoll_notReady (pollClient_of_filled_eq_zero hf)]
  simp [Nat.not_le.mpr hd]

theorem blockOn_cons_of_elapsed {deadline : ℕ} {t : Tick} {ts : List Tick} {sys : RpcSystem A B}
    (hf : (tick nic mr fab t sys).client.rpc.innerReceiver.filled = 0)
    (hd : deadline ≤ (tick nic mr fab t sys).now) :
    Future.blockOn (Future.timeoutPoll pollClient fun s => decide (deadline ≤ s.now))
        (tick nic mr fab) (t :: ts) sys = .ok (some (.error .elapsed, tick nic mr fab t sys, ts)) := by
  apply Future.blockOn_cons_error
  rw [Future.timeoutPoll_notReady (pollClient_of_filled_eq_zero hf)]
  simp [hd]

/-! ### The round trip of a call -/

theorem stores_of_arrival (m : Memory) (p : ℕ) (grh : List.Vector UInt8 40) (header : MsgHeader)
    (rest : List UInt8) :
    (m.write p (grh.toList ++ (Pod.toBytes header ++ rest))).Stores (p + UDReceiver.header)
        (Pod.toBytes header) ∧
      (m.write p (grh.toList ++ (Pod.toBytes header ++ rest))).Stores
        (p + UDReceiver.header + Pod.size MsgHeader) rest := by
  have h := Memory.stores_write m p (grh.toList ++ (Pod.toBytes header ++ rest))
  rw [Memory.stores_append, Memory.stores_append, List.Vector.toList_length,
    Pod.length_toBytes] at h
  exact ⟨h.2.1, h.2.2⟩

theorem tick_toServer_last {sys : RpcSystem A B} {pre : List Datagram} {d : Datagram}
    (h : sys.client.sent = pre ++ [d]) :
    tick nic mr fab (.toServer pre.length) sys =
      arriveAtServer fab d { sys with client := { sys.client with sent := pre } } := by
  have hd : sys.client.sent[pre.length]? = some d := by simp [h]
  rw [tick_toServer_of_getElem? hd, h, List.eraseIdx_append_of_length_le (le_refl _)]
  simp

theorem tick_toClient_last {sys : RpcSystem A B} {pre : List Datagram} {d : Datagram}
    (h : sys.server.sent = pre ++ [d]) :
    tick nic mr fab (.toClient pre.length) sys =
      arriveAtClient fab d { sys with server := { sys.server with sent := pre } } := by
  have hd : sys.server.sent[pre.length]? = some d := by simp [h]
  rw [tick_toClient_of_getElem? hd, h, List.eraseIdx_append_of_length_le (le_refl _)]
  simp

variable (mr) in
/-- The first two ticks of a round trip: the request the caller sent last reaches the hook's
receive queue, empty until then, and the hook's poll serves it, while the caller has nothing
to poll. The hook's reply is on its way to the session's endpoint. -/
theorem blockOn_request_served {sys : RpcSystem A B} {pre : List Datagram}
    {sessionId rpcId sz : UInt64} {rest : List UInt8}
    (hsent : sys.client.sent =
      pre ++ [⟨fab.serverAddr, Pod.toBytes (MsgHeader.genCallStub sessionId rpcId sz) ++ rest⟩])
    {rbuf : UDMsg} {rs : List UDMsg} (hsb : sys.server.rpc.transport.bufs = rbuf :: rs)
    (hsf : sys.server.rpc.transport.filled = 0)
    (hrl : UDReceiver.header + (Pod.size MsgHeader + rest.length) ≤ rbuf.len)
    (hpay : sz.toNat ≤ rest.length) {session : UDSession} {sbuf : UDMsg}
    (hss : sys.server.rpc.connectedSessions sessionId = some (session, sbuf))
    (hsl : Pod.size MsgHeader ≤ sbuf.len) (hh : sys.serverHalted = false)
    (hcf : sys.client.rpc.innerReceiver.filled = 0) {deadline : ℕ} (hd : sys.now < deadline)
    (ts : List Tick) :
    let M₀ := sys.server.mem.write rbuf.bytes.ptr
      (fab.grh.toList ++ (Pod.toBytes (MsgHeader.genCallStub sessionId rpcId sz) ++ rest))
    let args : BytesMut :=
      ⟨rbuf.bytes.ptr + UDReceiver.header + Pod.size MsgHeader, sz.toNat, sz.toNat_lt⟩
    let result := sys.server.rpc.service.execute rpcId args
      (sbuf.bytes.advance (Pod.size MsgHeader)) M₀
    let reply := match result.1 with
      | some size => ReplyStubFactory.new .ok size
      | none => ReplyStubFactory.new .notExist 0
    nic.postDatagram session.endpoint (reply.payload.toNat + Pod.size MsgHeader) = true →
    ∃ sys₃ : RpcSystem A B,
      Future.blockOn (Future.timeoutPoll pollClient fun s => decide (deadline ≤ s.now))
          (tick nic mr fab) (.toServer pre.length :: .serverPoll :: ts) sys =
        Future.blockOn (Future.timeoutPoll pollClient fun s => decide (deadline ≤ s.now))
          (tick nic mr fab) ts sys₃ ∧
      sys₃.client = { sys.client with sent := pre } ∧ sys₃.now = sys.now ∧
      sys₃.server.sent = sys.server.sent ++ [⟨session.endpoint,
        Pod.toBytes (MsgHeader.genReplyStub reply.status reply.payload) ++
          result.2.read (sbuf.bytes.ptr + Pod.size MsgHeader) reply.payload.toNat⟩] := by
  intro M₀ args result reply hpost
  let S₂ : RpcSystem A B := { sys with
    client := { sys.client with sent := pre }
    server := { sys.server with
      rpc := { sys.server.rpc with transport := RecvQueue.fill sys.server.rpc.transport }
      mem := M₀ } }
  have hnext : ({ sys with client := { sys.client with sent := pre } } : RpcSystem A B).server.rpc.transport.nextEmpty =
      some rbuf := by
    simp [RecvQueue.nextEmpty, hsb, hsf]
  have h₁ : tick nic mr fab (.toServer pre.length) sys = S₂ := by
    rw [tick_toServer_last hsent, arriveAtServer_of_nextEmpty rfl hnext (by simpa using hrl)]
  rw [blockOn_cons_of_notReady (by rw [h₁]; exact hcf) (by rw [h₁]; exact hd), h₁]
  have hfill : (RecvQueue.fill sys.server.rpc.transport).filled = 1 := by
    rw [RecvQueue.filled_fill, if_pos (by rw [hsb, hsf]; simp), hsf]
  have hbufs : (RecvQueue.fill sys.server.rpc.transport).bufs = rbuf :: rs := by
    rw [RecvQueue.bufs_fill, hsb]
  have hq := UDReceiver.poll_of_cons hbufs (by rw [hfill]; omega)
  have hs := (stores_of_arrival sys.server.mem rbuf.bytes.ptr fab.grh
    (MsgHeader.genCallStub sessionId rpcId sz) rest).1
  have hlen : UDReceiver.header + Pod.size MsgHeader + sz.toNat ≤ rbuf.bytes.len := by
    unfold UDMsg.len at hrl; omega
  have hp : RPCHook.poll nic mr S₂.server = _ :=
    RPCHook.poll_of_request (s := S₂.server) hq hs hlen hss hsl hpost
  have h₂ : tick nic mr fab .serverPoll S₂ = _ :=
    tick_serverPoll_of_poll (show S₂.serverHalted = false from hh) hp
  rw [blockOn_cons_of_notReady (by rw [h₂]; exact hcf) (by rw [h₂]; exact hd), h₂]
  exact ⟨_, rfl, rfl, rfl, rfl⟩

/-- A reply the hook sent last reaches the caller's receive queue, empty until then. -/
theorem tick_reply_arrives {sys : RpcSystem A B} {pre : List Datagram} {status : ReplyStatus}
    {sz : UInt64} {payload : List UInt8}
    (hsent : sys.server.sent =
      pre ++ [⟨fab.clientAddr, Pod.toBytes (MsgHeader.genReplyStub status sz) ++ payload⟩])
    {b : UDMsg} {bs : List UDMsg} (hcb : sys.client.rpc.innerReceiver.bufs = b :: bs)
    (hcf : sys.client.rpc.innerReceiver.filled = 0)
    (hfit : UDReceiver.header + (Pod.size MsgHeader + payload.length) ≤ b.len) :
    tick nic mr fab (.toClient pre.length) sys = { sys with
      client := { sys.client with
        rpc := { sys.client.rpc with innerReceiver := RecvQueue.fill sys.client.rpc.innerReceiver }
        mem := sys.client.mem.write b.bytes.ptr
          (fab.grh.toList ++ (Pod.toBytes (MsgHeader.genReplyStub status sz) ++ payload)) }
      server := { sys.server with sent := pre } } := by
  have hnext : ({ sys with server := { sys.server with sent := pre } } : RpcSystem A B).client.rpc.innerReceiver.nextEmpty =
      some b := by
    simp [RecvQueue.nextEmpty, hcb, hcf]
  rw [tick_toClient_last hsent, arriveAtClient_of_nextEmpty rfl hnext (by simpa using hfit)]

theorem poll_fill_of_filled_eq_zero {q : UDReceiver} {b : UDMsg} {bs : List UDMsg}
    (hcb : q.bufs = b :: bs) (hcf : q.filled = 0) :
    ∃ q', UDReceiver.poll (RecvQueue.fill q) = (.ready b, q') := by
  have hfill : (RecvQueue.fill q).filled = 1 := by
    rw [RecvQueue.filled_fill, if_pos (by rw [hcb, hcf]; simp), hcf]
  have hbufs : (RecvQueue.fill q).bufs = b :: bs := by rw [RecvQueue.bufs_fill, hcb]
  exact ⟨_, UDReceiver.poll_of_cons hbufs (by rw [hfill]; omega)⟩

variable (nic mr) in
/-- The last tick of a round trip with an `Ok` reply: the wait ends with the reply's buffer
and the window of its payload, which holds what the hook sent behind the reply header. -/
theorem blockOn_ok_reply {sys : RpcSystem A B} {pre : List Datagram} {sz : UInt64}
    {payload : List UInt8}
    (hsent : sys.server.sent =
      pre ++ [⟨fab.clientAddr, Pod.toBytes (MsgHeader.genReplyStub .ok sz) ++ payload⟩])
    {b : UDMsg} {bs : List UDMsg} (hcb : sys.client.rpc.innerReceiver.bufs = b :: bs)
    (hcf : sys.client.rpc.innerReceiver.filled = 0)
    (hfit : UDReceiver.header + (Pod.size MsgHeader + payload.length) ≤ b.len)
    (hpay : sz.toNat = payload.length) (expired : RpcSystem A B → Bool) (ts : List Tick) :
    ∃ sys₄ : RpcSystem A B,
      Future.blockOn (Future.timeoutPoll pollClient expired) (tick nic mr fab)
          (.toClient pre.length :: ts) sys =
        .ok (some (.ok (b, ⟨b.bytes.ptr + UDReceiver.header + Pod.size MsgHeader, sz.toNat,
          sz.toNat_lt⟩), sys₄, ts)) ∧
      sys₄.client.mem.read (b.bytes.ptr + UDReceiver.header + Pod.size MsgHeader) sz.toNat =
        payload := by
  obtain ⟨q', hq⟩ := poll_fill_of_filled_eq_zero hcb hcf
  have hs := stores_of_arrival sys.client.mem b.bytes.ptr fab.grh
    (MsgHeader.genReplyStub .ok sz) payload
  have hlen : UDReceiver.header + Pod.size MsgHeader + sz.toNat ≤ b.bytes.len := by
    unfold UDMsg.len at hfit; omega
  have ht : tick nic mr fab (.toClient pre.length) sys = _ := tick_reply_arrives hsent hcb hcf hfit
  have hp := pollClient_of_poll (Caller.poll_of_ok_reply (s := (tick nic mr fab
    (.toClient pre.length) sys).client) (by rw [ht]; exact hq) (by rw [ht]; exact hs.1) hlen)
  refine ⟨_, Future.blockOn_cons_ready (Future.timeoutPoll_ready hp), ?_⟩
  rw [ht]
  have h₂ := hs.2
  unfold Memory.Stores at h₂
  rw [hpay]
  exact h₂

variable (nic mr) in
/-- The last tick of a round trip with a `NotExist` reply: the wait ends with the error. -/
theorem blockOn_notExist_reply {sys : RpcSystem A B} {pre : List Datagram} {sz : UInt64}
    {payload : List UInt8}
    (hsent : sys.server.sent =
      pre ++ [⟨fab.clientAddr, Pod.toBytes (MsgHeader.genReplyStub .notExist sz) ++ payload⟩])
    {b : UDMsg} {bs : List UDMsg} (hcb : sys.client.rpc.innerReceiver.bufs = b :: bs)
    (hcf : sys.client.rpc.innerReceiver.filled = 0)
    (hfit : UDReceiver.header + (Pod.size MsgHeader + payload.length) ≤ b.len)
    (expired : RpcSystem A B → Bool) (ts : List Tick) :
    ∃ sys₄ : RpcSystem A B,
      Future.blockOn (Future.timeoutPoll pollClient expired) (tick nic mr fab)
          (.toClient pre.length :: ts) sys = .ok (some (.error (.inner .noID), sys₄, ts)) := by
  obtain ⟨q', hq⟩ := poll_fill_of_filled_eq_zero hcb hcf
  have hs := stores_of_arrival sys.client.mem b.bytes.ptr fab.grh
    (MsgHeader.genReplyStub .notExist sz) payload
  have hlen : UDReceiver.header + Pod.size MsgHeader ≤ b.bytes.len := by
    unfold UDMsg.len at hfit; omega
  have ht : tick nic mr fab (.toClient pre.length) sys = _ := tick_reply_arrives hsent hcb hcf hfit
  have hp := pollClient_of_poll (Caller.poll_of_notExist_reply (s := (tick nic mr fab
    (.toClient pre.length) sys).client) (by rw [ht]; exact hq) (by rw [ht]; exact hs.1) hlen)
  exact ⟨_, Future.blockOn_cons_error (Future.timeoutPoll_error hp)⟩

/-- The round trip of a call on a session connected at both ends, the caller's session to the
hook and the hook's session for the caller under the id the caller names itself by, with the
request and its reply each arriving when the other end's receive queue is empty, and every
send taken. The hook parses the request the caller wrote into the call stub and the
argument; it runs the function registered first for the id, and the caller's wait ends with
that function's answer, byte for byte, or with `NoID` when no function is registered. -/
theorem call_round_trip {T : Type} [Pod T] {sys : RpcSystem A B}
    {sessionId mySessionId rpcId : UInt64} (arg : T) {cbuf sbuf rbuf b : UDMsg}
    {rs bs : List UDMsg} (regs : List (UInt64 × Callback))
    (hreg : sys.server.rpc.service = Service.new.registerAll regs)
    (hcs : sys.client.rpc.connectedSessions sessionId = some (⟨fab.serverAddr⟩, cbuf))
    (hcl : Pod.size MsgHeader + Pod.size T ≤ cbuf.len)
    (hss : sys.server.rpc.connectedSessions mySessionId = some (⟨fab.clientAddr⟩, sbuf))
    (hsl : Pod.size MsgHeader ≤ sbuf.len)
    (hsb : sys.server.rpc.transport.bufs = rbuf :: rs) (hsf : sys.server.rpc.transport.filled = 0)
    (hrl : UDReceiver.header + (Pod.size MsgHeader + Pod.size T) ≤ rbuf.len)
    (hcb : sys.client.rpc.innerReceiver.bufs = b :: bs)
    (hcf : sys.client.rpc.innerReceiver.filled = 0)
    (hh : sys.serverHalted = false) {timeout : ℕ} (ht : 0 < timeout)
    (hpost : ∀ ep sz, nic.postDatagram ep sz = true) :
    let header := MsgHeader.genCallStub mySessionId rpcId (UInt64.ofNat (Pod.size T))
    let M₀ := sys.server.mem.write rbuf.bytes.ptr
      (fab.grh.toList ++ (Pod.toBytes header ++ Pod.toBytes arg))
    let args : BytesMut := ⟨rbuf.bytes.ptr + UDReceiver.header + Pod.size MsgHeader, Pod.size T,
      by have := cbuf.bytes.len_lt; unfold UDMsg.len at hcl; omega⟩
    let out := sbuf.bytes.advance (Pod.size MsgHeader)
    let sched := [Tick.toServer sys.client.sent.length, .serverPoll,
      .toClient sys.server.sent.length]
    RPCHook.parseMsg rbuf M₀ = .ok (header, args) ∧ M₀.read args.ptr args.len = Pod.toBytes arg ∧
    (∀ cb, (regs.find? fun r => r.1 == rpcId).map Prod.snd = some cb →
      UDReceiver.header + (Pod.size MsgHeader + (cb args out M₀).1.toNat) ≤ b.len →
      ∃ sys', call nic mr fab sessionId mySessionId rpcId arg timeout sched sys =
          .ok (some (.replied ⟨b.bytes.ptr + UDReceiver.header + Pod.size MsgHeader,
            (cb args out M₀).1.toNat, (cb args out M₀).1.toNat_lt⟩, sys', [])) ∧
        sys'.client.mem.read (b.bytes.ptr + UDReceiver.header + Pod.size MsgHeader)
            (cb args out M₀).1.toNat =
          (cb args out M₀).2.read out.ptr (cb args out M₀).1.toNat) ∧
    ((regs.find? fun r => r.1 == rpcId) = none →
      UDReceiver.header + Pod.size MsgHeader ≤ b.len →
      ∃ sys', call nic mr fab sessionId mySessionId rpcId arg timeout sched sys =
        .ok (some (.failed (.inner .noID), sys', []))) := by
  intro header M₀ args out sched
  have hT : Pod.size T < 2 ^ 64 := by
    have := cbuf.bytes.len_lt; unfold UDMsg.len at hcl; omega
  have hsz : (UInt64.ofNat (Pod.size T)).toNat = Pod.size T := UInt64.toNat_ofNat_of_lt' hT
  have hwin : (⟨rbuf.bytes.ptr + UDReceiver.header + Pod.size MsgHeader,
      (UInt64.ofNat (Pod.size T)).toNat, UInt64.toNat_lt _⟩ : BytesMut) = args :=
    BytesMut.mk_eq_mk hsz _ _
  have hs := stores_of_arrival sys.server.mem rbuf.bytes.ptr fab.grh header (Pod.toBytes arg)
  have hparse : RPCHook.parseMsg rbuf M₀ = .ok (header, args) := by
    have hlen : UDReceiver.header + Pod.size MsgHeader + header.payload.toNat ≤ rbuf.bytes.len := by
      show _ + _ + (UInt64.ofNat (Pod.size T)).toNat ≤ _
      rw [hsz]; unfold UDMsg.len at hrl; omega
    rw [RPCHook.parseMsg_of_stores hs.1 hlen]
    exact congrArg (fun w => Except.ok (header, w)) hwin
  have hargs : M₀.read args.ptr args.len = Pod.toBytes arg := by
    have h₂ := hs.2
    unfold Memory.Stores at h₂
    rwa [Pod.length_toBytes] at h₂
  obtain ⟨c₁, hsync, hc₁⟩ : ∃ c₁, Caller.syncCall nic sessionId mySessionId rpcId arg sys.client =
      .ok (true, c₁) ∧ c₁.sent = sys.client.sent ++ [⟨fab.serverAddr,
        Pod.toBytes header ++ Pod.toBytes arg⟩] ∧ c₁.rpc = sys.client.rpc :=
    ⟨_, Caller.syncCall_of_session arg hcs hcl (hpost _ _), rfl, rfl⟩
  have hserved := blockOn_request_served mr
    (show ({ sys with client := c₁ } : RpcSystem A B).client.sent = _ from hc₁.1) hsb hsf
    (by simpa using hrl) (by rw [hsz, Pod.length_toBytes]) hss hsl hh (by rw [hc₁.2]; exact hcf)
    (Nat.lt_add_of_pos_right ht) [.toClient sys.server.sent.length] (hpost _ _)
  rw [hwin] at hserved
  have hcallbacks : sys.server.rpc.service.callbacks rpcId =
      (regs.find? fun r => r.1 == rpcId).map Prod.snd := by
    rw [hreg, Service.callbacks_registerAll]
    rfl
  refine ⟨hparse, hargs, ?_, ?_⟩
  · intro cb hcb' hfit
    rw [hcb'] at hcallbacks
    simp only [Service.execute_of_callbacks hcallbacks] at hserved
    dsimp only [ReplyStubFactory.new] at hserved
    obtain ⟨sys₃, hw, hc₃, -, hsent₃⟩ := hserved
    obtain ⟨sys₄, hw₄, hread⟩ := blockOn_ok_reply nic mr hsent₃
      (by rw [hc₃, hc₁.2]; exact hcb) (by rw [hc₃, hc₁.2]; exact hcf)
      (by rw [Memory.length_read]; exact hfit) (Memory.length_read _ _ _).symm _ []
    exact ⟨_, call_of_reply hsync (hw.trans hw₄), hread⟩
  · intro hnone hfit
    rw [hnone] at hcallbacks
    simp only [Service.execute_of_callbacks_none hcallbacks] at hserved
    dsimp only [ReplyStubFactory.new] at hserved
    obtain ⟨sys₃, hw, hc₃, -, hsent₃⟩ := hserved
    obtain ⟨sys₄, hw₄⟩ := blockOn_notExist_reply nic mr hsent₃
      (by rw [hc₃, hc₁.2]; exact hcb) (by rw [hc₃, hc₁.2]; exact hcf)
      (by rw [Memory.length_read]; exact hfit) _ []
    exact ⟨_, call_of_failed hsync (hw.trans hw₄)⟩

/-- An echo of eight bytes through session 5 of the caller, which the hook knows as session
7: the caller gets the argument back. -/
theorem call_round_trip_echo :
    let fab : Fabric := ⟨⟨1⟩, ⟨2⟩, ⟨List.replicate 40 0, rfl⟩⟩
    let nic : UDNic := ⟨fun _ => none, fun _ _ => true⟩
    let mr : MrAllocator Unit := ⟨fun _ _ => none⟩
    let echo : Callback := fun input output m => (8, m.write output.ptr (m.read input.ptr 8))
    let buf : ℕ → UDMsg := fun p => ⟨0, ⟨p, 4096, by omega⟩, 0⟩
    let sys₀ : RpcSystem Unit Unit :=
      ⟨⟨⟨⟨[buf 0x1000], 0, by decide⟩, fun id => if id = 5 then some (⟨fab.serverAddr⟩, buf 0x3000)
          else none⟩, fun _ => 0, (), []⟩,
        ⟨⟨Service.new.registerAll [(1, echo)], ⟨[buf 0x8000], 0, by decide⟩,
          fun id => if id = 7 then some (⟨fab.clientAddr⟩, buf 0x9000) else none⟩,
          fun _ => 0, (), []⟩, false, 0⟩
    ∃ sys', call nic mr fab 5 7 1 (42 : UInt64) 10 [.toServer 0, .serverPoll, .toClient 0] sys₀ =
        .ok (some (.replied ⟨0x1000 + UDReceiver.header + Pod.size MsgHeader, 8, by decide⟩, sys',
          [])) ∧
      sys'.client.mem.read (0x1000 + UDReceiver.header + Pod.size MsgHeader) 8 =
        Pod.toBytes (42 : UInt64) := by
  intro fab nic mr echo buf sys₀
  obtain ⟨-, hargs, hok, -⟩ := @call_round_trip Unit Unit nic mr fab UInt64 _ sys₀ 5 7 1 42
    (buf 0x3000) (buf 0x9000) (buf 0x8000) (buf 0x1000) [] [] [(1, echo)] rfl rfl (by decide) rfl
    (by decide) rfl rfl (by decide) rfl rfl rfl 10 (by decide) (fun _ _ => rfl)
  obtain ⟨sys', hcall, hread⟩ := hok echo rfl (by decide)
  refine ⟨sys', hcall, hread.trans ?_⟩
  rw [← hargs]
  exact Memory.read_write_self _ _ _

/-! ### A message waiting in the caller's receiver -/

/-- The oldest buffer of the caller's receiver holds a message, and the bytes of the buffer are
`R`. -/
def HoldsFront (msg : UDMsg) (rest : List UDMsg) (R : List UInt8) (sys : RpcSystem A B) : Prop :=
  sys.client.rpc.innerReceiver.bufs = msg :: rest ∧ 0 < sys.client.rpc.innerReceiver.filled ∧
    sys.client.mem.read msg.bytes.ptr msg.bytes.len = R

/-- An arrival at the caller goes into a buffer behind the oldest filled one, which keeps its
message and its bytes when the buffers behind it do not overlap it. -/
theorem holdsFront_arriveAtClient {msg : UDMsg} {rest : List UDMsg} {R : List UInt8}
    (hdr : ∀ b ∈ rest, b.bytes.Disjoint msg.bytes) (d : Datagram) {sys : RpcSystem A B}
    (h : HoldsFront msg rest R sys) : HoldsFront msg rest R (arriveAtClient fab d sys) := by
  obtain ⟨hb, hk, hR⟩ := h
  unfold arriveAtClient
  split
  swap
  · exact ⟨hb, hk, hR⟩
  unfold UDReceiver.deliver
  split
  · exact ⟨hb, hk, hR⟩
  rename_i buf hnext
  -- the buffer filled is one behind the oldest, since that one is already filled
  have hmem : buf ∈ rest := by
    obtain ⟨j, hj⟩ := Nat.exists_eq_succ_of_ne_zero (Nat.pos_iff_ne_zero.mp hk)
    rw [RecvQueue.nextEmpty, hb, hj, List.getElem?_cons_succ] at hnext
    exact List.mem_of_getElem? hnext
  refine ⟨by rw [RecvQueue.bufs_fill]; exact hb, by rw [RecvQueue.filled_fill]; split <;> omega, ?_⟩
  split
  · rw [← hR]
    exact BytesMut.read_write_of_disjoint (hdr buf hmem) _ (by
      rw [List.length_append, List.Vector.toList_length]; unfold UDMsg.len at *; simp_all [UDReceiver.header])
  · exact hR

/-- No tick takes the oldest filled buffer from the caller or changes its bytes. -/
theorem holdsFront_tick {msg : UDMsg} {rest : List UDMsg} {R : List UInt8}
    (hdr : ∀ b ∈ rest, b.bytes.Disjoint msg.bytes) (t : Tick) {sys : RpcSystem A B}
    (h : HoldsFront msg rest R sys) : HoldsFront msg rest R (tick nic mr fab t sys) := by
  cases t with
  | serverPoll =>
    dsimp only [tick]
    split
    · exact h
    · split <;> exact h
  | toServer i =>
    dsimp only [tick]
    split
    · exact h
    · unfold arriveAtServer
      split <;> exact h
  | toClient i =>
    dsimp only [tick]
    split
    · exact h
    · exact holdsFront_arriveAtClient hdr _ h
  | elapse d => exact h

/-- A call whose caller already holds an `Ok` reply, in the oldest buffer of its receiver,
when the call is made: whatever the call's session, function and argument, and whatever the
schedule, the wait ends at its first poll with that reply, whose payload is the bytes the
buffer held before the call's request was even sent. The buffers must not overlap: the
request's buffer and those behind the reply's are apart from it. -/
theorem call_takes_waiting_reply {T : Type} [Pod T] {sys : RpcSystem A B}
    {sessionId mySessionId rpcId : UInt64} (arg : T) {session : UDSession} {cbuf msg : UDMsg}
    {rest : List UDMsg} (hcs : sys.client.rpc.connectedSessions sessionId = some (session, cbuf))
    (hcl : Pod.size MsgHeader + Pod.size T ≤ cbuf.len)
    (hpost : nic.postDatagram session.endpoint (Pod.size MsgHeader + Pod.size T) = true)
    (hb : sys.client.rpc.innerReceiver.bufs = msg :: rest)
    (hk : 0 < sys.client.rpc.innerReceiver.filled) {sz : UInt64}
    (hs : sys.client.mem.Stores (msg.bytes.ptr + UDReceiver.header)
      (Pod.toBytes (MsgHeader.genReplyStub .ok sz)))
    (hlen : UDReceiver.header + Pod.size MsgHeader + sz.toNat ≤ msg.bytes.len)
    (hdc : cbuf.bytes.Disjoint msg.bytes) (hdr : ∀ b ∈ rest, b.bytes.Disjoint msg.bytes)
    (timeout : ℕ) (t : Tick) (ts : List Tick) :
    ∃ sys', call nic mr fab sessionId mySessionId rpcId arg timeout (t :: ts) sys =
        .ok (some (.replied ⟨msg.bytes.ptr + UDReceiver.header + Pod.size MsgHeader, sz.toNat,
          sz.toNat_lt⟩, sys', ts)) ∧
      sys'.client.mem.read (msg.bytes.ptr + UDReceiver.header + Pod.size MsgHeader) sz.toNat =
        sys.client.mem.read (msg.bytes.ptr + UDReceiver.header + Pod.size MsgHeader) sz.toNat := by
  obtain ⟨c₁, hsync, hc₁⟩ : ∃ c₁, Caller.syncCall nic sessionId mySessionId rpcId arg sys.client =
      .ok (true, c₁) ∧ c₁.rpc = sys.client.rpc ∧ c₁.mem = sys.client.mem.write cbuf.bytes.ptr
        (Pod.toBytes (MsgHeader.genCallStub mySessionId rpcId (UInt64.ofNat (Pod.size T))) ++
          Pod.toBytes arg) :=
    ⟨_, Caller.syncCall_of_session arg hcs hcl hpost, rfl, rfl⟩
  -- the request's write leaves the reply's buffer, and no tick takes the reply or touches it
  have h₁ : HoldsFront msg rest (sys.client.mem.read msg.bytes.ptr msg.bytes.len)
      { sys with client := c₁ } := by
    refine ⟨by rw [hc₁.1]; exact hb, by rw [hc₁.1]; exact hk, ?_⟩
    rw [hc₁.2]
    exact BytesMut.read_write_of_disjoint hdc _ (by simpa [UDMsg.len] using hcl)
  have h₂ : HoldsFront msg rest _ (tick nic mr fab t { sys with client := c₁ }) :=
    holdsFront_tick hdr t h₁
  obtain ⟨hb₂, hk₂, hR₂⟩ := h₂
  have hs₂ : (tick nic mr fab t { sys with client := c₁ }).client.mem.Stores
      (msg.bytes.ptr + UDReceiver.header) (Pod.toBytes (MsgHeader.genReplyStub .ok sz)) := by
    unfold Memory.Stores at hs ⊢
    rw [Pod.length_toBytes] at hs ⊢
    rw [Memory.read_eq_of_read_eq hR₂ (by omega) (by simp at hlen ⊢; omega), hs]
  have hp := pollClient_of_poll
    (Caller.poll_of_ok_reply (s := (tick nic mr fab t { sys with client := c₁ }).client)
      (UDReceiver.poll_of_cons hb₂ hk₂) hs₂ hlen)
  refine ⟨_, call_of_reply hsync (Future.blockOn_cons_ready (Future.timeoutPoll_ready hp)), ?_⟩
  exact Memory.read_eq_of_read_eq hR₂ (by omega) (by omega)

/-- A call on session 5 whose wait ends before the reply to it arrives, the reply then
arriving: the next call, with argument `2`, takes that reply as its own at its first poll, and
gets back the `1` of the call before. -/
theorem call_takes_waiting_reply_after_timeout :
    let fab : Fabric := ⟨⟨1⟩, ⟨2⟩, ⟨List.replicate 40 0, rfl⟩⟩
    let nic : UDNic := ⟨fun _ => none, fun _ _ => true⟩
    let mr : MrAllocator Unit := ⟨fun _ _ => none⟩
    let echo : Callback := fun input output m => (8, m.write output.ptr (m.read input.ptr 8))
    let buf : ℕ → UDMsg := fun p => ⟨0, ⟨p, UDReceiver.mtu, UDReceiver.mtu_lt⟩, 0⟩
    let sys₀ : RpcSystem Unit Unit :=
      ⟨⟨⟨⟨[buf 0x1000, buf 0x2000], 0, Nat.zero_le _⟩,
          fun id => if id = 5 then some (⟨fab.serverAddr⟩, buf 0x3000) else none⟩,
          fun _ => 0, (), []⟩,
        ⟨⟨Service.new.registerAll [(1, echo)], ⟨[buf 0x8000], 0, Nat.zero_le _⟩,
          fun id => if id = 7 then some (⟨fab.clientAddr⟩, buf 0x9000) else none⟩,
          fun _ => 0, (), []⟩, false, 0⟩
    ∃ sys₁ sys', call nic mr fab 5 7 1 (1 : UInt64) 10 [.toServer 0, .serverPoll, .elapse 10]
        sys₀ = .ok (some (.failed .elapsed, sys₁, [])) ∧
      call nic mr fab 5 7 1 (2 : UInt64) 10 [.elapse 1] (tick nic mr fab (.toClient 0) sys₁) =
        .ok (some (.replied ⟨0x1000 + UDReceiver.header + Pod.size MsgHeader, 8, by decide⟩, sys',
          [])) ∧
      sys'.client.mem.read (0x1000 + UDReceiver.header + Pod.size MsgHeader) 8 =
        Pod.toBytes (1 : UInt64) := by
  intro fab nic mr echo buf sys₀
  -- the first call: the hook serves it, but its reply is still on the way when the wait ends
  obtain ⟨c₁, hsync, hc₁⟩ : ∃ c₁, Caller.syncCall nic 5 7 1 (1 : UInt64) sys₀.client =
      .ok (true, c₁) ∧ c₁.sent = [] ++ [⟨fab.serverAddr,
        Pod.toBytes (MsgHeader.genCallStub 7 1 (UInt64.ofNat (Pod.size UInt64))) ++
          Pod.toBytes (1 : UInt64)⟩] ∧ c₁.rpc = sys₀.client.rpc :=
    ⟨_, Caller.syncCall_of_session _ rfl (by decide) rfl, rfl, rfl⟩
  have hpost : ∀ ep n, nic.postDatagram ep n = true := fun _ _ => rfl
  have hserved := blockOn_request_served mr
    (show ({ sys₀ with client := c₁ } : RpcSystem Unit Unit).client.sent = _ from hc₁.1) rfl rfl
    (by decide) (by decide) rfl (by decide) rfl (by rw [hc₁.2])
    (Nat.lt_add_of_pos_right (show 0 < 10 by decide)) [.elapse 10] (hpost _ _)
  have hcallbacks : sys₀.server.rpc.service.callbacks 1 = some echo := rfl
  simp only [Service.execute_of_callbacks hcallbacks] at hserved
  dsimp only [ReplyStubFactory.new] at hserved
  obtain ⟨sys₃, hw, hc₃, hnow₃, hsent₃⟩ := hserved
  -- the caller's receiver is as it was before the call, with nothing in it
  have hrpc₃ : sys₃.client.rpc = sys₀.client.rpc := by rw [hc₃, hc₁.2]
  have hel := @blockOn_cons_of_elapsed Unit Unit nic mr fab (sys₀.now + 10) (.elapse 10) [] sys₃
    (by show sys₃.client.rpc.innerReceiver.filled = 0; rw [hrpc₃])
    (by show _ ≤ sys₃.now + 10; rw [hnow₃])
  have hcall₁ := call_of_failed hsync (hw.trans hel)
  dsimp only [echo] at hsent₃
  have hsent₄ : (tick nic mr fab (.elapse 10) sys₃).server.sent = ([] : List Datagram) ++
      [⟨fab.clientAddr, Pod.toBytes (MsgHeader.genReplyStub .ok 8) ++ Pod.toBytes (1 : UInt64)⟩] := by
    show sys₃.server.sent = _
    rw [hsent₃]
    rfl
  have harr : tick nic mr fab (.toClient 0) (tick nic mr fab (.elapse 10) sys₃) = _ :=
    tick_reply_arrives hsent₄
      (by show sys₃.client.rpc.innerReceiver.bufs = buf 0x1000 :: [buf 0x2000]; rw [hrpc₃])
      (by show sys₃.client.rpc.innerReceiver.filled = 0; rw [hrpc₃])
      (by decide)
  obtain ⟨sys', hcall₂, hread⟩ := @call_takes_waiting_reply Unit Unit nic mr fab UInt64 _
    (tick nic mr fab (.toClient 0) (tick nic mr fab (.elapse 10) sys₃)) 5 7 1 2 ⟨fab.serverAddr⟩
    (buf 0x3000) (buf 0x1000) [buf 0x2000]
    (by rw [harr]; show sys₃.client.rpc.connectedSessions 5 = _; rw [hrpc₃]; rfl) (by decide) rfl
    (by rw [harr, RecvQueue.bufs_fill]; show sys₃.client.rpc.innerReceiver.bufs = _; rw [hrpc₃])
    (by rw [harr]; show 0 < (RecvQueue.fill sys₃.client.rpc.innerReceiver).filled; rw [hrpc₃]
        exact Nat.zero_lt_one)
    8 (by rw [harr]; exact (stores_of_arrival _ _ _ _ _).1) (by decide) (by decide) (by decide) 10
    (.elapse 1) []
  refine ⟨_, sys', hcall₁, hcall₂, hread.trans ?_⟩
  have hs := (stores_of_arrival (tick nic mr fab (.elapse 10) sys₃).client.mem (buf 0x1000).bytes.ptr
    fab.grh (MsgHeader.genReplyStub .ok 8) (Pod.toBytes (1 : UInt64))).2
  unfold Memory.Stores at hs
  rw [harr]
  exact hs
end RpcSystem

end OsNetwork
