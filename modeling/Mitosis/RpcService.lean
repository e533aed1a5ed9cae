import Mitosis.Network.Rpc

/-!
# The RPC worker threads of `rpc_service`

Each RPC thread of MITOSIS (`Service::worker`) creates an `RPCHook` on the UD queue pair of
its NIC, registers the three functions of `rpc_handlers` under their `RPCId`, posts `2048`
receive buffers of `4096` bytes, and then polls the hook until it is told to stop, logging the
error of every poll that fails and going on. Its receive queue is filled by the NIC with the
datagrams that reach it, at any time and in any number; a `Worker` here is the thread with its
hook and its log, and a run is any sequence of arrivals and passes of the loop. A schedule
that ends is the thread told to stop.

The results are over every run of the worker:
* the buffers it holds and the errors it has logged always add up to the `2048` it posted:
  each failed poll costs exactly one buffer, and nothing else does (`worker_conserves_buffers`);
* a panic, which stops the thread, comes only from a `DisConnect` message or from a connect
  for which the allocator has no memory left (`worker_halts_only_on_disconnect_or_oom`); the
  `unwrap`s on the session buffers never fail, as the hook gives every session a buffer of
  `MTU` bytes (`SessionBufs`).

`handle_echo` and `handle_descriptor_addr_lookup` are parameters: the first panics on an
output window too short for its text, which a `Callback` does not express, and the second
reads the descriptors of the shadow process service. The yield of the loop after
`YIELD_THRESHOLD` passes only gives up the CPU, and is left out.
-/
namespace Mitosis

open OsNetwork

/-- `RPCId`, a `repr(usize)` enum: the functions a worker serves. -/
inductive RPCId
  | nil
  | echo
  | query
  deriving DecidableEq, Repr

/-- The discriminants: `Nil = 1`, `Echo = 2`, `Query = 3`. -/
def RPCId.toU64 : RPCId → UInt64
  | nil => 1
  | echo => 2
  | query => 3

/-- `handle_nil`: an answer of 64 bytes, of which it writes none. -/
def handleNil : Callback := fun _ _ m => (64, m)

namespace RpcService

variable {A : Type}

/-- The number of receive buffers a worker posts at its start. -/
def recvBufs : ℕ := 2048

/-- Their size, `UDMsg::new(4096, 0, ..)`. -/
def recvBufSize : ℕ := 4096

theorem recvBufSize_lt : recvBufSize < 2 ^ 64 := by decide

/-- The registrations of the worker, in its order; `echo` and `lookup` stand for
`handle_echo` and `handle_descriptor_addr_lookup`. -/
def callbacks (echo lookup : Callback) : List (UInt64 × Callback) :=
  [(RPCId.nil.toU64, handleNil), (RPCId.echo.toU64, echo), (RPCId.query.toU64, lookup)]

/-- `for _ in 0..n { post_msg_buf(UDMsg::new(4096, 0, ..)) }`: a buffer allocated, which panics
when the allocator has none, and posted. -/
def postMsgBufs (mr : MrAllocator A) : ℕ → OnHost RPCHook A → Except String (OnHost RPCHook A)
  | 0, s => pure s
  | n + 1, s => do
    let buf ← UDMsg.new mr recvBufSize recvBufSize_lt 0 s.alloc
    postMsgBufs mr n { s with
      rpc := { s.rpc with transport := s.rpc.transport.postRecvBuf buf.1 }
      alloc := buf.2 }

/-- The start of `Service::worker` on its machine: the hook `RPCHook::new` of the server UD,
with no function, no session and nothing posted, the functions registered, and `2048` buffers
posted. -/
def start (mr : MrAllocator A) (echo lookup : Callback) (mem : Memory) (alloc : A) :
    Except String (OnHost RPCHook A) :=
  postMsgBufs mr recvBufs
    ⟨⟨Service.new.registerAll (callbacks echo lookup), RecvQueue.empty, fun _ => none⟩,
      mem, alloc, []⟩

/-! ### The start -/

section Start

/-- The functions of a started worker: `handle_nil`, the echo and the lookup under their ids,
and none under any other id. -/
theorem callbacks_registerAll_callbacks (echo lookup : Callback) (id : UInt64) :
    (Service.new.registerAll (callbacks echo lookup)).callbacks id =
      if id = 1 then some handleNil else if id = 2 then some echo
      else if id = 3 then some lookup else none := by
  rw [Service.callbacks_registerAll]
  by_cases h1 : id = 1
  · subst h1; rfl
  by_cases h2 : id = 2
  · subst h2; rfl
  by_cases h3 : id = 3
  · subst h3; rfl
  simp [Service.new, callbacks, RPCId.toU64, h1, h2, h3, Ne.symm h1, Ne.symm h2, Ne.symm h3]

variable {mr : MrAllocator A}

/-- Posts that all get their buffer add `n` buffers of `4096` bytes behind those posted, none
of them filled, and change nothing else of the hook, nor the memory or what was sent. -/
theorem postMsgBufs_eq_ok {n : ℕ} {s s' : OnHost RPCHook A} (h : postMsgBufs mr n s = .ok s') :
    ∃ bufs, s'.rpc.transport.bufs = s.rpc.transport.bufs ++ bufs ∧ bufs.length = n ∧
      (∀ b ∈ bufs, b.len = recvBufSize) ∧ s'.rpc.transport.filled = s.rpc.transport.filled ∧
      s'.rpc.service = s.rpc.service ∧ s'.rpc.connectedSessions = s.rpc.connectedSessions ∧
      s'.mem = s.mem ∧ s'.sent = s.sent := by
  induction n generalizing s with
  | zero =>
    cases h
    exact ⟨[], by simp, rfl, by simp, rfl, rfl, rfl, rfl, rfl⟩
  | succ n ih =>
    obtain ⟨⟨buf, a⟩, hnew, h⟩ := bind_eq_ok.mp h
    obtain ⟨bufs, hb, hl, hsz, hf, hsv, hss, hm, hsent⟩ := ih h
    refine ⟨buf :: bufs, ?_, by simp [hl], ?_, hf, hsv, hss, hm, hsent⟩
    · rw [hb]; simp
    · intro b hmem
      rcases List.mem_cons.mp hmem with rfl | hmem
      · exact UDMsg.len_of_new hnew
      · exact hsz b hmem

theorem postMsgBufs_isOk (hmr : ∀ a, (mr.mrNew recvBufSize a).isSome) :
    ∀ (n : ℕ) (s : OnHost RPCHook A), ∃ s', postMsgBufs mr n s = .ok s'
  | 0, s => ⟨s, rfl⟩
  | n + 1, s => by
    obtain ⟨⟨⟨va, pa⟩, a⟩, hm⟩ := Option.isSome_iff_exists.mp (hmr s.alloc)
    obtain ⟨s', h⟩ := postMsgBufs_isOk hmr n { s with
      rpc := { s.rpc with transport := s.rpc.transport.postRecvBuf ⟨pa, ⟨va, recvBufSize,
        recvBufSize_lt⟩, 0⟩ }
      alloc := a }
    exact ⟨s', by simp only [postMsgBufs, UDMsg.new_of_mrNew recvBufSize_lt 0 hm, ok_bind, h]⟩

/-- A worker starts whenever the allocator has a buffer at each of its requests, with `2048`
empty buffers of `4096` bytes posted, `handle_nil`, the echo and the lookup registered under
their ids and nothing else, no session, and nothing sent. -/
theorem start_spec (hmr : ∀ a, (mr.mrNew recvBufSize a).isSome) (echo lookup : Callback)
    (mem : Memory) (alloc : A) :
    ∃ hook, start mr echo lookup mem alloc = .ok hook ∧
      hook.rpc.transport.bufs.length = recvBufs ∧ hook.rpc.transport.filled = 0 ∧
      (∀ b ∈ hook.rpc.transport.bufs, b.len = recvBufSize) ∧
      (∀ id, hook.rpc.service.callbacks id =
        if id = 1 then some handleNil else if id = 2 then some echo
        else if id = 3 then some lookup else none) ∧
      (∀ id, hook.rpc.connectedSessions id = none) ∧ hook.mem = mem ∧ hook.sent = [] := by
  obtain ⟨hook, h⟩ := postMsgBufs_isOk hmr recvBufs
    ⟨⟨Service.new.registerAll (callbacks echo lookup), RecvQueue.empty, fun _ => none⟩,
      mem, alloc, []⟩
  obtain ⟨bufs, hb, hl, hsz, hf, hsv, hss, hm, hsent⟩ := postMsgBufs_eq_ok h
  refine ⟨hook, h, by simp [hb, hl], hf, fun b hmem => hsz b (by simpa [hb] using hmem),
    fun id => by rw [hsv, callbacks_registerAll_callbacks], fun id => by rw [hss], hm, hsent⟩

end Start

/-- A worker thread: its hook on its machine, the errors its polls returned, oldest first, as
it logs them, and whether a panic has stopped it. -/
structure Worker (A : Type) where
  hook : OnHost RPCHook A
  log : List HookError
  halted : Bool

/-- What happens to a worker between two checks of `should_stop`. -/
inductive Event
  /-- A datagram reaches the worker's receiver. -/
  | arrive (bytes : List UInt8)
  /-- One pass of the loop: a poll of the hook. -/
  | poll
  deriving DecidableEq

namespace Worker

variable (nic : UDNic) (mr : MrAllocator A) (grh : List.Vector UInt8 40)

/-- The NIC puts a datagram into the receive queue, whether or not the thread still runs. -/
def arrive (bytes : List UInt8) (w : Worker A) : Worker A :=
  { w with hook := { w.hook with
      rpc := { w.hook.rpc with transport := (w.hook.rpc.transport.deliver grh bytes w.hook.mem).1 }
      mem := (w.hook.rpc.transport.deliver grh bytes w.hook.mem).2 } }

/-- A pass of the loop: the poll's error is logged and the loop goes on, whatever the poll
answered; a panic stops the thread. -/
def poll (w : Worker A) : Worker A :=
  if w.halted then w
  else
    match RPCHook.poll nic mr w.hook with
    | .ok (.ok _, hook) => { w with hook }
    | .ok (.error e, hook) => { w with hook, log := w.log ++ [e] }
    | .error _ => { w with halted := true }

def step : Event → Worker A → Worker A
  | .arrive bytes, w => arrive grh bytes w
  | .poll, w => poll nic mr w

/-- A run of the worker through a schedule of events. -/
def run (evs : List Event) (w : Worker A) : Worker A :=
  evs.foldl (fun w e => step nic mr grh e w) w

end Worker

/-- `Service::worker`: the start, then the loop through the schedule. -/
def worker (nic : UDNic) (mr : MrAllocator A) (grh : List.Vector UInt8 40)
    (echo lookup : Callback) (mem : Memory) (alloc : A) (evs : List Event) :
    Except String (Worker A) := do
  let hook ← start mr echo lookup mem alloc
  pure (Worker.run nic mr grh evs ⟨hook, [], false⟩)

/-- Every session of the hook has a buffer with room for a reply header. -/
def SessionBufs (s : OnHost RPCHook A) : Prop :=
  ∀ id p, s.rpc.connectedSessions id = some p → Pod.size MsgHeader ≤ p.2.len

/-- What a poll of the hook panics on when its sessions have room: the message it takes is a
disconnect, or a connect while the allocator has no buffer of `MTU` bytes left. -/
def PanicCause (mr : MrAllocator A) (s : OnHost RPCHook A) : Prop :=
  ∃ msg q header args, s.rpc.transport.poll = (.ready msg, q) ∧
    RPCHook.parseMsg msg s.mem = .ok (header, args) ∧
    (header.marker = .disConnect ∨
      header.marker = .connect ∧ mr.mrNew UDReceiver.mtu s.alloc = none)

section Hook

variable {nic : UDNic} {mr : MrAllocator A} {s s' : OnHost RPCHook A}

/-- A poll keeps every session buffer roomy: the only buffer it gives a session is a new one
of `MTU` bytes. -/
theorem sessionBufs_of_poll (hs : SessionBufs s) {r : Except HookError (Future.Async Unit)}
    (h : RPCHook.poll nic mr s = .ok (r, s')) : SessionBufs s' := by
  intro id p hp
  rcases RPCHook.sessions_poll h with he | ⟨id', ep, buf, hl, he⟩
  · rw [he] at hp
    exact hs id p hp
  · rw [he] at hp
    by_cases hid : id = id'
    · subst hid
      rw [Function.update_self, Option.some.injEq] at hp
      rw [← hp]
      show Pod.size MsgHeader ≤ buf.len
      rw [hl]
      decide
    · rw [Function.update_of_ne hid] at hp
      exact hs id p hp

theorem panicCause_of_poll_eq_error (hs : SessionBufs s) {msg : String}
    (h : RPCHook.poll nic mr s = .error msg) : PanicCause mr s := by
  obtain ⟨m, q, header, args, hq, hp, hc⟩ := RPCHook.poll_eq_error h
  refine ⟨m, q, header, args, hq, hp, ?_⟩
  rcases hc with hd | hc | ⟨id, p, hid, hl⟩
  · exact .inl hd
  · exact .inr hc
  · exact absurd (hs id p hid) (Nat.not_le_of_lt hl)

end Hook

/-! ### Runs of a worker -/

namespace Worker

variable {nic : UDNic} {mr : MrAllocator A} {grh : List.Vector UInt8 40}

@[simp] theorem run_nil (w : Worker A) : run nic mr grh [] w = w := rfl

@[simp] theorem run_cons (e : Event) (evs : List Event) (w : Worker A) :
    run nic mr grh (e :: evs) w = run nic mr grh evs (step nic mr grh e w) := rfl

@[simp] theorem bufs_arrive (bytes : List UInt8) (w : Worker A) :
    (arrive grh bytes w).hook.rpc.transport.bufs = w.hook.rpc.transport.bufs := by
  simp [arrive]

@[simp] theorem log_arrive (bytes : List UInt8) (w : Worker A) :
    (arrive grh bytes w).log = w.log := rfl

@[simp] theorem halted_arrive (bytes : List UInt8) (w : Worker A) :
    (arrive grh bytes w).halted = w.halted := rfl

@[simp] theorem connectedSessions_arrive (bytes : List UInt8) (w : Worker A) :
    (arrive grh bytes w).hook.rpc.connectedSessions = w.hook.rpc.connectedSessions := rfl

@[simp] theorem sent_arrive (bytes : List UInt8) (w : Worker A) :
    (arrive grh bytes w).hook.sent = w.hook.sent := rfl

/-- A datagram that reaches a worker whose buffers are all empty lands in the oldest one,
behind the transport's header, and the next poll of the receiver takes that buffer. -/
theorem arrive_of_empty {w : Worker A} {b : UDMsg} {rest : List UDMsg}
    (hb : w.hook.rpc.transport.bufs = b :: rest) (hf : w.hook.rpc.transport.filled = 0)
    {bytes : List UInt8} (hlen : UDReceiver.header + bytes.length ≤ b.len) :
    (arrive grh bytes w).hook.mem.Stores (b.bytes.ptr + UDReceiver.header) bytes ∧
      ∃ q, (arrive grh bytes w).hook.rpc.transport.poll = (.ready b, q) ∧ q.bufs = rest ∧
        q.filled = 0 := by
  have hnext : w.hook.rpc.transport.nextEmpty = some b := by simp [RecvQueue.nextEmpty, hb, hf]
  have hdeliver := UDReceiver.deliver_of_nextEmpty hnext grh hlen w.hook.mem
  obtain ⟨q, hq, hqb, hqf⟩ := UDReceiver.poll_fill_of_empty hb hf
  have hw := Memory.stores_write w.hook.mem b.bytes.ptr (grh.toList ++ bytes)
  rw [Memory.stores_append, List.Vector.toList_length] at hw
  simp only [arrive, hdeliver]
  exact ⟨hw.2, q, hq, hqb, hqf⟩

/-- What a pass of the loop does: nothing once the thread has stopped; otherwise the hook's
poll, whose error, if it returns one, is logged, or a panic, which stops the thread. -/
theorem poll_cases (w : Worker A) :
    (w.halted = true ∧ poll nic mr w = w) ∨
      (w.halted = false ∧ ∃ a hook, RPCHook.poll nic mr w.hook = .ok (.ok a, hook) ∧
        poll nic mr w = { w with hook }) ∨
      (w.halted = false ∧ ∃ e hook, RPCHook.poll nic mr w.hook = .ok (.error e, hook) ∧
        poll nic mr w = { w with hook, log := w.log ++ [e] }) ∨
      (w.halted = false ∧ ∃ msg, RPCHook.poll nic mr w.hook = .error msg ∧
        poll nic mr w = { w with halted := true }) := by
  cases hw : w.halted
  · rcases hp : RPCHook.poll nic mr w.hook with msg | ⟨e | a, hook⟩
    · exact .inr (.inr (.inr ⟨rfl, msg, rfl, by simp [poll, hw, hp]⟩))
    · exact .inr (.inr (.inl ⟨rfl, e, hook, rfl, by simp [poll, hw, hp]⟩))
    · exact .inr (.inl ⟨rfl, a, hook, rfl, by simp [poll, hw, hp]⟩)
  · exact .inl ⟨rfl, by simp [poll, hw]⟩

/-- A pass of the loop keeps the buffers held and the errors logged adding up: a served poll
posts back the buffer it took, a failed one drops it and logs one error. -/
theorem bufs_add_log_poll (w : Worker A) :
    (poll nic mr w).hook.rpc.transport.bufs.length + (poll nic mr w).log.length =
      w.hook.rpc.transport.bufs.length + w.log.length := by
  rcases @poll_cases A nic mr w with ⟨-, h⟩ | ⟨-, a, hook, hp, h⟩ | ⟨-, e, hook, hp, h⟩ |
    ⟨-, msg, -, h⟩
  · rw [h]
  · rw [h]
    rcases RPCHook.poll_cases hp with ⟨-, rfl⟩ | ⟨m, q, hq, -, ⟨-, ht⟩ | ⟨e', hr, -⟩⟩
    · rfl
    · obtain ⟨-, hb, -⟩ := RecvQueue.poll_eq_some (UDReceiver.poll_eq_ready hq)
      simp only [ht, UDReceiver.bufs_postRecvBuf, hb, List.length_append, List.length_cons,
        List.length_nil]
    · cases hr
  · rw [h]
    rcases RPCHook.poll_cases hp with ⟨hr, -⟩ | ⟨m, q, hq, -, ⟨hr, -⟩ | ⟨e', -, ht⟩⟩
    · cases hr
    · cases hr
    · obtain ⟨-, hb, -⟩ := RecvQueue.poll_eq_some (UDReceiver.poll_eq_ready hq)
      simp only [ht, hb, List.length_append, List.length_cons, List.length_nil]
      omega
  · rw [h]

theorem bufs_add_log_run (evs : List Event) (w : Worker A) :
    (run nic mr grh evs w).hook.rpc.transport.bufs.length + (run nic mr grh evs w).log.length =
      w.hook.rpc.transport.bufs.length + w.log.length := by
  induction evs generalizing w with
  | nil => rfl
  | cons e evs ih =>
    rw [run_cons, ih]
    cases e with
    | arrive bytes => simp [step]
    | poll => exact bufs_add_log_poll w

/-- Every step keeps the session buffers roomy. -/
theorem sessionBufs_step {w : Worker A} (hs : SessionBufs w.hook) (e : Event) :
    SessionBufs (step nic mr grh e w).hook := by
  cases e with
  | arrive bytes => exact hs
  | poll =>
    rcases @poll_cases A nic mr w with ⟨-, h⟩ | ⟨-, a, hook, hp, h⟩ | ⟨-, e, hook, hp, h⟩ |
      ⟨-, msg, -, h⟩
    · rw [step, h]; exact hs
    · rw [step, h]; exact sessionBufs_of_poll hs hp
    · rw [step, h]; exact sessionBufs_of_poll hs hp
    · rw [step, h]; exact hs

/-- The panic of a run: a run in which a running thread with roomy session buffers stops has a
pass that polls a disconnect, or a connect while the allocator has no buffer. -/
theorem halted_run {w : Worker A} (hs : SessionBufs w.hook) (hw : w.halted = false)
    (evs : List Event) (h : (run nic mr grh evs w).halted = true) :
    ∃ evs₁ evs₂, evs = evs₁ ++ .poll :: evs₂ ∧ (run nic mr grh evs₁ w).halted = false ∧
      PanicCause mr (run nic mr grh evs₁ w).hook := by
  induction evs generalizing w with
  | nil => rw [run_nil, hw] at h; cases h
  | cons e evs ih =>
    by_cases hh : (step nic mr grh e w).halted = true
    · -- this pass stopped the thread: it is a poll, and it panicked
      cases e with
      | arrive bytes => rw [step, halted_arrive, hw] at hh; cases hh
      | poll =>
        rcases @poll_cases A nic mr w with ⟨hw', -⟩ | ⟨-, a, hook, -, hp⟩ | ⟨-, e, hook, -, hp⟩ |
          ⟨-, msg, hp, -⟩
        · rw [hw] at hw'; cases hw'
        · rw [step, hp, hw] at hh; cases hh
        · rw [step, hp, hw] at hh; cases hh
        · exact ⟨[], evs, rfl, hw, panicCause_of_poll_eq_error hs hp⟩
    · obtain ⟨evs₁, evs₂, rfl, h₁, h₂⟩ :=
        ih (sessionBufs_step hs e) (Bool.eq_false_iff.mpr hh) (by rw [← run_cons]; exact h)
      exact ⟨e :: evs₁, evs₂, rfl, h₁, h₂⟩

end Worker

/-! ### The worker -/

variable {nic : UDNic} {mr : MrAllocator A} {grh : List.Vector UInt8 40}

/-- Over every run of a worker that started, the buffers it holds and the errors it has logged
add up to the `2048` buffers it posted: each poll that fails loses the buffer it took, and
nothing else loses one. -/
theorem worker_conserves_buffers {echo lookup : Callback} {mem : Memory} {alloc : A}
    {evs : List Event} {w : Worker A} (h : worker nic mr grh echo lookup mem alloc evs = .ok w) :
    w.hook.rpc.transport.bufs.length + w.log.length = recvBufs := by
  obtain ⟨hook, hstart, hw⟩ := bind_eq_ok.mp h
  cases hw
  obtain ⟨bufs, hb, hl, -⟩ := postMsgBufs_eq_ok hstart
  rw [Worker.bufs_add_log_run, hb]
  simp [hl]

/-- A request from a session the worker never connected: the pass that polls it logs the
error and loses the buffer the request came in, and the count holds. -/
theorem worker_conserves_buffers_unknown_session :
    let nic : UDNic := ⟨fun _ => none, fun _ _ => true⟩
    let mr : MrAllocator ℕ := ⟨fun n a => some ((a, 0), a + n)⟩
    let grh : List.Vector UInt8 40 := ⟨List.replicate 40 0, rfl⟩
    let evs : List Event := [.arrive (Pod.toBytes (MsgHeader.genCallStub 7 1 0)), .poll]
    ∃ w, worker nic mr grh handleNil handleNil (fun _ => 0) 0 evs = .ok w ∧
      w.log = [.notConnected] ∧ w.hook.rpc.transport.bufs.length = recvBufs - 1 ∧
      w.hook.rpc.transport.bufs.length + w.log.length = recvBufs := by
  intro nic mr grh evs
  obtain ⟨hook, hstart, hl, hf, hsz, -, hss, -⟩ :=
    @start_spec ℕ mr (fun _ => rfl) handleNil handleNil (fun _ => 0) 0
  have h : worker nic mr grh handleNil handleNil (fun _ => 0) 0 evs =
      .ok (Worker.run nic mr grh evs ⟨hook, [], false⟩) := by
    simp only [worker, hstart, ok_bind]
    rfl
  obtain ⟨b, rest, hb⟩ := List.exists_cons_of_length_pos (show 0 < hook.rpc.transport.bufs.length
    by rw [hl]; decide)
  have hblen : b.len = recvBufSize := hsz b (by rw [hb]; exact List.mem_cons_self)
  have hrest : rest.length = recvBufs - 1 := by
    rw [hb, List.length_cons] at hl
    omega
  obtain ⟨hs, q, hq, hqb, -⟩ := @Worker.arrive_of_empty ℕ grh ⟨hook, [], false⟩ b rest hb hf
    (Pod.toBytes (MsgHeader.genCallStub 7 1 0)) (by rw [hblen]; decide)
  have hp := @RPCHook.poll_of_unknown_session ℕ nic mr _ b q hq 7 1 0 hs
    (by unfold UDMsg.len recvBufSize at hblen; rw [hblen]; decide) (hss 7)
  have hw : Worker.run nic mr grh evs ⟨hook, [], false⟩ =
      Worker.poll nic mr (Worker.arrive grh (Pod.toBytes (MsgHeader.genCallStub 7 1 0))
        ⟨hook, [], false⟩) := rfl
  have hlog : (Worker.run nic mr grh evs ⟨hook, [], false⟩).log = [.notConnected] := by
    simp [hw, Worker.poll, hp]
  have hbufs : (Worker.run nic mr grh evs ⟨hook, [], false⟩).hook.rpc.transport.bufs.length =
      recvBufs - 1 := by
    simp [hw, Worker.poll, hp, hqb, hrest]
  exact ⟨_, h, hlog, hbufs, worker_conserves_buffers h⟩

/-- A worker that started stops only on a disconnect, or on a connect while its allocator has
no buffer of `MTU` bytes left: in every run that ends with the thread stopped, the pass that
stopped it polled such a message, the thread running until then. The `unwrap`s of the replies
never fail, on session buffers the hook made itself. -/
theorem worker_halts_only_on_disconnect_or_oom {echo lookup : Callback} {mem : Memory}
    {alloc : A} {evs : List Event} {w : Worker A}
    (h : worker nic mr grh echo lookup mem alloc evs = .ok w) (hw : w.halted = true) :
    ∃ evs₁ evs₂ w₁, evs = evs₁ ++ .poll :: evs₂ ∧
      worker nic mr grh echo lookup mem alloc evs₁ = .ok w₁ ∧ w₁.halted = false ∧
      PanicCause mr w₁.hook := by
  obtain ⟨hook, hstart, hrun⟩ := bind_eq_ok.mp h
  cases hrun
  obtain ⟨-, -, -, -, -, -, hss, -⟩ := postMsgBufs_eq_ok hstart
  have hs : SessionBufs hook := fun id p hp => by
    rw [hss] at hp
    cases hp
  obtain ⟨evs₁, evs₂, rfl, h₁, h₂⟩ := Worker.halted_run hs rfl evs hw
  exact ⟨evs₁, evs₂, _, rfl, by simp only [worker, hstart, ok_bind]; rfl, h₁, h₂⟩

/-- A disconnect is the first datagram a worker gets: the pass that polls it stops the
thread. -/
theorem worker_halts_only_on_disconnect_or_oom_disconnect :
    let nic : UDNic := ⟨fun _ => none, fun _ _ => true⟩
    let mr : MrAllocator ℕ := ⟨fun n a => some ((a, 0), a + n)⟩
    let grh : List.Vector UInt8 40 := ⟨List.replicate 40 0, rfl⟩
    let evs : List Event := [.arrive (Pod.toBytes (⟨.disConnect, 0, .none⟩ : MsgHeader)), .poll]
    ∃ w, worker nic mr grh handleNil handleNil (fun _ => 0) 0 evs = .ok w ∧ w.halted = true ∧
      ∃ evs₁ evs₂ w₁, evs = evs₁ ++ .poll :: evs₂ ∧
        worker nic mr grh handleNil handleNil (fun _ => 0) 0 evs₁ = .ok w₁ ∧ w₁.halted = false ∧
        PanicCause mr w₁.hook := by
  intro nic mr grh evs
  obtain ⟨hook, hstart, hl, hf, hsz, -⟩ :=
    @start_spec ℕ mr (fun _ => rfl) handleNil handleNil (fun _ => 0) 0
  have h : worker nic mr grh handleNil handleNil (fun _ => 0) 0 evs =
      .ok (Worker.run nic mr grh evs ⟨hook, [], false⟩) := by
    simp only [worker, hstart, ok_bind]
    rfl
  obtain ⟨b, rest, hb⟩ := List.exists_cons_of_length_pos (show 0 < hook.rpc.transport.bufs.length
    by rw [hl]; decide)
  have hblen : b.len = recvBufSize := hsz b (by rw [hb]; exact List.mem_cons_self)
  let header : MsgHeader := ⟨.disConnect, 0, .none⟩
  let w₁ := Worker.arrive grh (Pod.toBytes header) ⟨hook, [], false⟩
  obtain ⟨hs, q, hq, -⟩ := @Worker.arrive_of_empty ℕ grh ⟨hook, [], false⟩ b rest hb hf
    (Pod.toBytes header) (by rw [hblen]; decide)
  have hp := @RPCHook.poll_of_disconnect ℕ nic mr w₁.hook b q hq 0 .none hs
    (by unfold UDMsg.len recvBufSize at hblen; rw [hblen]; decide)
  have hhalt : (Worker.run nic mr grh evs ⟨hook, [], false⟩).halted = true := by
    show (Worker.run nic mr grh [] (Worker.poll nic mr w₁)).halted = true
    simp [Worker.poll, w₁, hp]
  exact ⟨_, h, hhalt, worker_halts_only_on_disconnect_or_oom h hhalt⟩

end RpcService

end Mitosis
