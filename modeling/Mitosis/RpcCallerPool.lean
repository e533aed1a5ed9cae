import Mitosis.Network.RpcSystem

/-!
# Connecting a caller of the pool to a remote hook

`CallerPool::connect_session_at` connects the caller of one CPU to the RPC hook of another
machine: it resolves the hook's hyper meta into an endpoint, refuses a session id the caller
has already, sends the connect message with the caller's own hyper meta, and blocks on the
caller, with no deadline, until an answer arrives, whose buffer it registers again. Here the
caller of the pool and the remote hook are the two ends of an `RpcSystem`, and the wait runs
through the system's schedule.

The main result is the handshake: when the two hyper metas resolve to the two receivers, a
connect of a session new at both ends, whose message and answer each arrive, ends with the
session at the caller, its request buffer of `MTU` bytes, and the session of the same caller
at the hook, under the id the caller names itself by, with its reply buffer of `MTU` bytes;
both receive queues are as they were, up to the order of their buffers. These are the
sessions a call needs (`RpcSystem.call`).
-/
namespace Mitosis

open OsNetwork

namespace CallerPool

variable {A B : Type} (nic : UDNic) (callerMr : MrAllocator A) (mr : MrAllocator B)
  (fab : Fabric)

/-- `connect_session_at(idx, session_id, my_session_id, meta)`, with `meta` as `remoteMeta`,
for the caller of the system. `myMeta` is the hyper meta the pool builds for that caller from
its context's GID, its own service id and queue hint, and the port of the new session. The
answer is `none` when the meta does not resolve or the session is connected already; the
`unwrap` of a refused send and the `expect` of a failed wait are panics. The wait has no
deadline: `none` as a whole when the schedule ends before an answer. -/
def connectSessionAt (sessionId mySessionId : UInt64) (remoteMeta myMeta : UDHyperMeta)
    (sched : List Tick) (sys : RpcSystem A B) :
    Except String (Option (Option Unit × RpcSystem A B × List Tick)) :=
  match nic.createMeta remoteMeta with
  | none => pure (some (none, sys, sched))
  | some ep =>
    if sys.client.rpc.sessionConnected sessionId then pure (some (none, sys, sched))
    else do
      -- the UD factory's `create` cannot fail
      let r ← Caller.connect nic callerMr sessionId mySessionId ⟨ep⟩ myMeta sys.client
      if !r.1 then throw "called Result::unwrap() on an Err value"
      match ← Future.blockOn RpcSystem.pollClient (RpcSystem.tick nic mr fab) sched
          { sys with client := r.2 } with
      | none => pure none
      | some (.error _, _, _) => throw "should succeed"
      | some (.ok (msg, _), sys, rest) =>
        pure (some (some (),
          { sys with client := { sys.client with rpc := sys.client.rpc.registerRecvBuf msg } },
          rest))

variable {nic callerMr mr fab}

/-- A connect that is sent waits through the schedule, and an answer ends the wait, its
buffer registered again. -/
theorem connectSessionAt_of_answer {sessionId mySessionId : UInt64}
    {remoteMeta myMeta : UDHyperMeta} {sched rest : List Tick} {sys sys₁ : RpcSystem A B}
    {ep : DatagramEndpoint} (hmeta : nic.createMeta remoteMeta = some ep)
    (hcon : sys.client.rpc.connectedSessions sessionId = none) {client : OnHost Caller A}
    (hsent : Caller.connect nic callerMr sessionId mySessionId ⟨ep⟩ myMeta sys.client =
      .ok (true, client))
    {msg : UDMsg} {reply : BytesMut}
    (hwait : Future.blockOn RpcSystem.pollClient (RpcSystem.tick nic mr fab) sched
      { sys with client } = .ok (some (.ok (msg, reply), sys₁, rest))) :
    connectSessionAt nic callerMr mr fab sessionId mySessionId remoteMeta myMeta sched sys =
      .ok (some (some (),
        { sys₁ with client := { sys₁.client with rpc := sys₁.client.rpc.registerRecvBuf msg } },
        rest)) := by
  have hc : sys.client.rpc.sessionConnected sessionId = false := by
    simp [Caller.sessionConnected, hcon]
  simp only [connectSessionAt, hmeta, hc, Bool.false_eq_true, if_false, hsent, ok_bind,
    Bool.not_true, if_false]
  rw [hwait]
  rfl

theorem blockOn_cons_of_idle {t : Tick} {ts : List Tick} {sys : RpcSystem A B}
    (hf : (RpcSystem.tick nic mr fab t sys).client.rpc.innerReceiver.filled = 0) :
    Future.blockOn RpcSystem.pollClient (RpcSystem.tick nic mr fab) (t :: ts) sys =
      Future.blockOn RpcSystem.pollClient (RpcSystem.tick nic mr fab) ts
        (RpcSystem.tick nic mr fab t sys) :=
  Future.blockOn_cons_notReady (RpcSystem.pollClient_of_filled_eq_zero hf)

/-- The first two ticks of the handshake: the connect the caller sent last reaches the hook's
receive queue, empty until then, and the hook's poll creates the session of the caller and
answers on it, while the caller has nothing to poll. -/
theorem blockOn_connect_served {sys : RpcSystem A B} {pre : List Datagram}
    {mySessionId : UInt64} {myMeta : UDHyperMeta}
    (hsent : sys.client.sent = pre ++ [⟨fab.serverAddr,
      Pod.toBytes (MsgHeader.genConnectStub mySessionId (UInt64.ofNat (Pod.size UDHyperMeta))) ++
        Pod.toBytes myMeta⟩])
    {rbuf : UDMsg} {rs : List UDMsg} (hsb : sys.server.rpc.transport.bufs = rbuf :: rs)
    (hsf : sys.server.rpc.transport.filled = 0)
    (hrl : UDReceiver.header + (Pod.size MsgHeader + Pod.size UDHyperMeta) ≤ rbuf.len)
    (hss : sys.server.rpc.connectedSessions mySessionId = none)
    (hmy : nic.createMeta myMeta = some fab.clientAddr) {va : ℕ} {pa : UInt64} {alloc : B}
    (hsa : mr.mrNew UDReceiver.mtu sys.server.alloc = some ((va, pa), alloc))
    (hh : sys.serverHalted = false) (hcf : sys.client.rpc.innerReceiver.filled = 0)
    (hpost : ∀ ep sz, nic.postDatagram ep sz = true) (ts : List Tick) :
    ∃ sys₃ : RpcSystem A B,
      Future.blockOn RpcSystem.pollClient (RpcSystem.tick nic mr fab)
          (.toServer pre.length :: .serverPoll :: ts) sys =
        Future.blockOn RpcSystem.pollClient (RpcSystem.tick nic mr fab) ts sys₃ ∧
      sys₃.client = { sys.client with sent := pre } ∧
      sys₃.server.rpc.service = sys.server.rpc.service ∧
      sys₃.server.rpc.transport.bufs = rs ++ [rbuf] ∧ sys₃.server.rpc.transport.filled = 0 ∧
      sys₃.server.rpc.connectedSessions = Function.update sys.server.rpc.connectedSessions
        mySessionId (some (⟨fab.clientAddr⟩, ⟨pa, ⟨va, UDReceiver.mtu, UDReceiver.mtu_lt⟩, 0⟩)) ∧
      sys₃.server.sent = sys.server.sent ++
        [⟨fab.clientAddr, Pod.toBytes (MsgHeader.genReplyStub .ok 0)⟩] ∧
      sys₃.serverHalted = sys.serverHalted := by
  let header := MsgHeader.genConnectStub mySessionId (UInt64.ofNat (Pod.size UDHyperMeta))
  let S₂ : RpcSystem A B := { sys with
    client := { sys.client with sent := pre }
    server := { sys.server with
      rpc := { sys.server.rpc with transport := RecvQueue.fill sys.server.rpc.transport }
      mem := sys.server.mem.write rbuf.bytes.ptr
        (fab.grh.toList ++ (Pod.toBytes header ++ Pod.toBytes myMeta)) } }
  have hnext : ({ sys with client := { sys.client with sent := pre } } :
      RpcSystem A B).server.rpc.transport.nextEmpty = some rbuf := by
    simp [RecvQueue.nextEmpty, hsb, hsf]
  have h₁ : RpcSystem.tick nic mr fab (.toServer pre.length) sys = S₂ := by
    rw [RpcSystem.tick_toServer_last hsent,
      RpcSystem.arriveAtServer_of_nextEmpty rfl hnext (by simpa using hrl)]
  rw [blockOn_cons_of_idle (by rw [h₁]; exact hcf), h₁]
  obtain ⟨q, hq, hqb, hqf⟩ := UDReceiver.poll_fill_of_empty hsb hsf
  have hs := RpcSystem.stores_of_arrival sys.server.mem rbuf.bytes.ptr fab.grh header
    (Pod.toBytes myMeta)
  have hmsg : S₂.server.mem.Stores (rbuf.bytes.ptr + UDReceiver.header)
      (Pod.toBytes header ++ Pod.toBytes myMeta) := by
    rw [Memory.stores_append, Pod.length_toBytes]
    exact hs
  have hp : RPCHook.poll nic mr S₂.server = _ :=
    RPCHook.poll_of_connect (s := S₂.server) hq hmsg (by unfold UDMsg.len at hrl; omega) hss hmy
      hsa (hpost _ _)
  have h₂ : RpcSystem.tick nic mr fab .serverPoll S₂ = _ :=
    RpcSystem.tick_serverPoll_of_poll (show S₂.serverHalted = false from hh) hp
  rw [blockOn_cons_of_idle (by rw [h₂]; exact hcf), h₂]
  exact ⟨_, rfl, rfl, rfl, by simp [hqb], by simp [hqf], rfl, rfl, rfl⟩

/-- The last tick of the handshake: the answer the hook sent last reaches the caller's receive
queue, empty until then, and ends the wait with the buffer it fills. -/
theorem blockOn_answer_arrives {sys : RpcSystem A B} {pre : List Datagram}
    (hsent : sys.server.sent =
      pre ++ [⟨fab.clientAddr, Pod.toBytes (MsgHeader.genReplyStub .ok 0)⟩])
    {b : UDMsg} {bs : List UDMsg} (hcb : sys.client.rpc.innerReceiver.bufs = b :: bs)
    (hcf : sys.client.rpc.innerReceiver.filled = 0)
    (hbl : UDReceiver.header + Pod.size MsgHeader ≤ b.len) (ts : List Tick) :
    ∃ (sys₄ : RpcSystem A B) (reply : BytesMut),
      Future.blockOn RpcSystem.pollClient (RpcSystem.tick nic mr fab)
          (.toClient pre.length :: ts) sys = .ok (some (.ok (b, reply), sys₄, ts)) ∧
      sys₄.client.rpc.connectedSessions = sys.client.rpc.connectedSessions ∧
      sys₄.client.rpc.innerReceiver.bufs = bs ∧ sys₄.client.rpc.innerReceiver.filled = 0 ∧
      sys₄.client.sent = sys.client.sent ∧ sys₄.server = { sys.server with sent := pre } ∧
      sys₄.serverHalted = sys.serverHalted := by
  have hsent' : sys.server.sent =
      pre ++ [⟨fab.clientAddr, Pod.toBytes (MsgHeader.genReplyStub .ok 0) ++ []⟩] := by
    rw [List.append_nil]; exact hsent
  have ht : RpcSystem.tick nic mr fab (.toClient pre.length) sys = _ :=
    RpcSystem.tick_reply_arrives hsent' hcb hcf (by simpa using hbl)
  obtain ⟨q, hq, hqb, hqf⟩ := UDReceiver.poll_fill_of_empty hcb hcf
  have hs := RpcSystem.stores_of_arrival sys.client.mem b.bytes.ptr fab.grh
    (MsgHeader.genReplyStub .ok 0) []
  have hp := RpcSystem.pollClient_of_poll (Caller.poll_of_ok_reply
    (s := (RpcSystem.tick nic mr fab (.toClient pre.length) sys).client) (by rw [ht]; exact hq)
    (by rw [ht]; exact hs.1) (by unfold UDMsg.len at hbl; simp; omega))
  refine ⟨_, _, Future.blockOn_cons_ready hp, ?_, hqb, hqf, ?_, ?_, ?_⟩
  · rw [ht]
  · rw [ht]
  · rw [ht]
  · rw [ht]

/-- The handshake. A connect of a session that neither end has yet, on a fabric where the
hook's hyper meta resolves to the hook's receiver and the caller's to the caller's, both
allocators have a buffer and every send is taken, with the connect arriving when the hook's
receive queue is empty and the answer when the caller's is: the connect ends well, with the
session at the caller towards the hook and a request buffer of `MTU` bytes, and the caller's
session at the hook, under `my_session_id`, towards the caller with a reply buffer of `MTU`
bytes. Every other session of either end is as it was, and the hook's functions; each receive
queue has all its buffers back, empty, the one used last; nothing is left on its way. -/
theorem connectSessionAt_connects_both_ends {sys : RpcSystem A B}
    {sessionId mySessionId : UInt64} {remoteMeta myMeta : UDHyperMeta}
    (hremote : nic.createMeta remoteMeta = some fab.serverAddr)
    (hmy : nic.createMeta myMeta = some fab.clientAddr)
    (hcon : sys.client.rpc.connectedSessions sessionId = none)
    (hss : sys.server.rpc.connectedSessions mySessionId = none)
    {cva sva : ℕ} {cpa spa : UInt64} {calloc : A} {salloc : B}
    (hca : callerMr.mrNew UDReceiver.mtu sys.client.alloc = some ((cva, cpa), calloc))
    (hsa : mr.mrNew UDReceiver.mtu sys.server.alloc = some ((sva, spa), salloc))
    {rbuf b : UDMsg} {rs bs : List UDMsg}
    (hsb : sys.server.rpc.transport.bufs = rbuf :: rs) (hsf : sys.server.rpc.transport.filled = 0)
    (hrl : UDReceiver.header + (Pod.size MsgHeader + Pod.size UDHyperMeta) ≤ rbuf.len)
    (hcb : sys.client.rpc.innerReceiver.bufs = b :: bs)
    (hcf : sys.client.rpc.innerReceiver.filled = 0)
    (hbl : UDReceiver.header + Pod.size MsgHeader ≤ b.len)
    (hh : sys.serverHalted = false) (hpost : ∀ ep sz, nic.postDatagram ep sz = true) :
    ∃ sys' : RpcSystem A B,
      connectSessionAt nic callerMr mr fab sessionId mySessionId remoteMeta myMeta
          [.toServer sys.client.sent.length, .serverPoll, .toClient sys.server.sent.length] sys =
        .ok (some (some (), sys', [])) ∧
      sys'.client.rpc.connectedSessions = Function.update sys.client.rpc.connectedSessions
        sessionId (some (⟨fab.serverAddr⟩, ⟨cpa, ⟨cva, UDReceiver.mtu, UDReceiver.mtu_lt⟩, 0⟩)) ∧
      sys'.server.rpc.connectedSessions = Function.update sys.server.rpc.connectedSessions
        mySessionId (some (⟨fab.clientAddr⟩, ⟨spa, ⟨sva, UDReceiver.mtu, UDReceiver.mtu_lt⟩, 0⟩)) ∧
      sys'.server.rpc.service = sys.server.rpc.service ∧
      sys'.client.rpc.innerReceiver.bufs = bs ++ [b] ∧ sys'.client.rpc.innerReceiver.filled = 0 ∧
      sys'.server.rpc.transport.bufs = rs ++ [rbuf] ∧ sys'.server.rpc.transport.filled = 0 ∧
      sys'.client.sent = sys.client.sent ∧ sys'.server.sent = sys.server.sent ∧
      sys'.serverHalted = false := by
  obtain ⟨c₁, hsend, hsent₁, hrpc₁⟩ : ∃ c₁ : OnHost Caller A,
      Caller.connect nic callerMr sessionId mySessionId ⟨fab.serverAddr⟩ myMeta sys.client =
        .ok (true, c₁) ∧
      c₁.sent = sys.client.sent ++ [⟨fab.serverAddr, Pod.toBytes (MsgHeader.genConnectStub
        mySessionId (UInt64.ofNat (Pod.size UDHyperMeta))) ++ Pod.toBytes myMeta⟩] ∧
      c₁.rpc = { sys.client.rpc with
        connectedSessions := Function.update sys.client.rpc.connectedSessions sessionId
          (some (⟨fab.serverAddr⟩, ⟨cpa, ⟨cva, UDReceiver.mtu, UDReceiver.mtu_lt⟩, 0⟩)) } :=
    ⟨_, Caller.connect_of_post hca (hpost _ _), rfl, rfl⟩
  obtain ⟨sys₃, hw₃, hc₃, hsv₃, htb₃, htf₃, hss₃, hsent₃, hh₃⟩ :=
    @blockOn_connect_served A B nic mr fab { sys with client := c₁ } _ _ _ hsent₁ _ _ hsb hsf hrl
      hss hmy _ _ _ hsa hh (by rw [hrpc₁]; exact hcf) hpost [.toClient sys.server.sent.length]
  obtain ⟨sys₄, reply, hw₄, hcs₄, hcb₄, hcf₄, hcsent₄, hserver₄, hh₄⟩ :=
    @blockOn_answer_arrives A B nic mr fab _ _ hsent₃ _ _ (by rw [hc₃, hrpc₁]; exact hcb)
      (by rw [hc₃, hrpc₁]; exact hcf) hbl []
  refine ⟨_, connectSessionAt_of_answer hremote hcon hsend (hw₃.trans hw₄), ?_, ?_, ?_, ?_, ?_,
    ?_, ?_, ?_, ?_, ?_⟩
  · simp [hcs₄, hc₃, hrpc₁]
  · simp [hserver₄, hss₃]
  · simp [hserver₄, hsv₃]
  · simp [hcb₄]
  · simp [hcf₄]
  · simp [hserver₄, htb₃]
  · simp [hserver₄, htf₃]
  · simp [hcsent₄, hc₃]
  · simp [hserver₄]
  · rw [hh₄, hh₃, hh]

/-- The caller connects its session 5 to a hook that knows it as session 7: after the
handshake each end has the session, towards the other's receiver. -/
theorem connectSessionAt_connects_both_ends_fresh :
    let fab : Fabric := ⟨⟨1⟩, ⟨2⟩, ⟨List.replicate 40 0, rfl⟩⟩
    let nic : UDNic := ⟨fun h => if h.serviceId = 1 then some ⟨2⟩ else some ⟨1⟩, fun _ _ => true⟩
    let mr : MrAllocator ℕ := ⟨fun n a => some ((a, 0), a + n)⟩
    let hyperMeta : UInt64 → UDHyperMeta := fun id => ⟨⟨List.replicate 16 0, rfl⟩, id, 0, 1⟩
    let buf : ℕ → UDMsg := fun p => ⟨0, ⟨p, UDReceiver.mtu, UDReceiver.mtu_lt⟩, 0⟩
    let sys₀ : RpcSystem ℕ ℕ :=
      ⟨⟨⟨⟨[buf 0x1000], 0, Nat.zero_le _⟩, fun _ => none⟩, fun _ => 0, 0x5000, []⟩,
        ⟨⟨Service.new, ⟨[buf 0x8000], 0, Nat.zero_le _⟩, fun _ => none⟩, fun _ => 0, 0x9000, []⟩,
        false, 0⟩
    ∃ sys', connectSessionAt nic mr mr fab 5 7 (hyperMeta 1) (hyperMeta 0)
        [.toServer 0, .serverPoll, .toClient 0] sys₀ = .ok (some (some (), sys', [])) ∧
      sys'.client.rpc.connectedSessions 5 =
        some (⟨⟨2⟩⟩, ⟨0, ⟨0x5000, UDReceiver.mtu, UDReceiver.mtu_lt⟩, 0⟩) ∧
      sys'.server.rpc.connectedSessions 7 =
        some (⟨⟨1⟩⟩, ⟨0, ⟨0x9000, UDReceiver.mtu, UDReceiver.mtu_lt⟩, 0⟩) := by
  intro fab nic mr hyperMeta buf sys₀
  obtain ⟨sys', hconn, hcs, hss, -⟩ :=
    @connectSessionAt_connects_both_ends ℕ ℕ nic mr mr fab sys₀ 5 7 (hyperMeta 1) (hyperMeta 0)
      rfl rfl rfl rfl 0x5000 0x9000 0 0 (0x5000 + UDReceiver.mtu) (0x9000 + UDReceiver.mtu) rfl rfl
      (buf 0x8000) (buf 0x1000) [] [] rfl rfl (by decide) rfl rfl (by decide) rfl (fun _ _ => rfl)
  exact ⟨sys', hconn, by rw [hcs]; rfl, by rw [hss]; rfl⟩

end CallerPool

end Mitosis
