import Mitosis.Network.Bytes
import Mitosis.Lib.WorkQueue
import Mitosis.Lib.Future

/-!
# DC connections of `os_network::rdma`

A `DCConn` is a handle on a queue pair of the NIC; its clones share the queue pair. A
request names a local memory region and a byte range of it, whether it is signaled, the
operation, the remote key and address, and the target. The NIC runs a queue pair as a
`WorkQueue`: `post` appends to its send queue, the NIC executes requests in order and leaves
a completion (`ib_wc`) for each signaled one, and `poll` takes the oldest completion.

The NIC is outside the repository. Whether it takes a posted request is a parameter
(`accepts`); `post_send_dc_read` fails otherwise.
-/
namespace OsNetwork

/-- `DCConn`: the queue pair it posts to and polls, named by the NIC's handle for it. -/
structure DCConn where
  dc : ℕ
  deriving DecidableEq, Repr

/-- A DC target of the NIC (KRdmaKit's `DCTarget`): its port, its DC key and its number. -/
structure DCTarget where
  portNum : UInt8
  dcKey : UInt64
  dctNum : UInt32
  deriving DecidableEq, Repr

/-- `RDMAOp`. -/
inductive RDMAOp
  | read
  | write
  deriving DecidableEq, Repr

/-- `DCReqPayload`: the local memory region (its start address) and the byte range of it,
whether the request is signaled, the operation, the remote key, the remote address, and the
target's endpoint (named by its handle). -/
structure DCReqPayload where
  mr : ℕ
  range : ℕ × ℕ
  signaled : Bool
  op : RDMAOp
  rkey : UInt32
  raddr : UInt64
  endpoint : ℕ
  deriving DecidableEq, Repr

/-- A work completion, `ib_wc`, with its status; `IB_WC_SUCCESS` is `0`. -/
structure IbWc where
  status : ℕ
  deriving DecidableEq, Repr

/-- `KRdmaKit::DatapathError`: a post the NIC refused, a failed poll, and the timeout the
repository's own polling loops report. -/
inductive DatapathError
  | postSendError
  | pollCQError
  | timeoutError
  deriving DecidableEq, Repr

/-- `KRdmaKit::ControlpathError`; the code only unwraps it, so its content is left out. -/
structure ControlpathError where
  deriving DecidableEq, Repr

/-- A queue pair as the NIC runs it: requests posted and not yet executed, and completions
not yet polled. -/
abbrev Qp := WorkQueue.Queue DCReqPayload IbWc

/-- The NIC, which the repository drives but does not contain: whether it registers `len`
bytes at a kernel address as a memory region, and whether it takes a request posted to a
queue pair. -/
structure Nic where
  registers : ℕ → ℕ → Bool
  accepts : Qp → DCReqPayload → Bool

/-- A NIC that registers every region and takes every post. -/
structure Nic.Reliable (nic : Nic) : Prop where
  registers : ∀ va len, nic.registers va len = true
  accepts : ∀ q req, nic.accepts q req = true

/-- `Result::unwrap`: a panic on `Err`. -/
def unwrapResult {ε α : Type} : Except ε α → Except String α
  | .ok a => .ok a
  | .error _ => .error "called Result::unwrap() on an Err value"

@[simp] theorem unwrapResult_ok {ε α : Type} (a : α) : unwrapResult (.ok a : Except ε α) = .ok a :=
  rfl

@[simp] theorem unwrapResult_error {ε α : Type} (e : ε) :
    unwrapResult (.error e : Except ε α) = .error "called Result::unwrap() on an Err value" :=
  rfl

theorem unwrapResult_eq_ok {ε α : Type} {x : Except ε α} {a : α} (h : unwrapResult x = .ok a) :
    x = .ok a := by
  cases x with
  | error e => cases h
  | ok b =>
    rw [unwrapResult_ok, Except.ok.injEq] at h
    rw [h]

/-- `MemoryRegion::new_from_raw`: the region of `len` bytes at the kernel address `va`, named
by that address. -/
def MemoryRegion.newFromRaw (nic : Nic) (va len : ℕ) : Except ControlpathError ℕ :=
  if nic.registers va len then .ok va else .error ⟨⟩

theorem MemoryRegion.newFromRaw_of_registers {nic : Nic} {va len : ℕ}
    (h : nic.registers va len = true) : MemoryRegion.newFromRaw nic va len = .ok va := by
  simp [newFromRaw, h]

namespace DCConn

/-- `Conn::post`: the request joins the send queue when the NIC takes it. -/
def post (nic : Nic) (q : Qp) (req : DCReqPayload) : Except DatapathError Qp :=
  if nic.accepts q req then .ok (WorkQueue.post q req) else .error .postSendError

theorem post_of_accepts {nic : Nic} {q : Qp} {req : DCReqPayload} (h : nic.accepts q req = true) :
    post nic q req = .ok (WorkQueue.post q req) := by
  simp [post, h]

theorem post_of_not_accepts {nic : Nic} {q : Qp} {req : DCReqPayload}
    (h : nic.accepts q req = false) : post nic q req = .error .postSendError := by
  simp [post, h]

theorem post_eq_ok {nic : Nic} {q q' : Qp} {r : DCReqPayload} (h : post nic q r = .ok q') :
    q' = WorkQueue.post q r := by
  unfold post at h
  split at h
  · exact (Except.ok.inj h).symm
  · cases h

end DCConn

/-! ## Waiting for completions -/

/-- A queue pair and the microseconds that have passed: what a wait on one connection reads. -/
structure Link where
  qp : Qp
  now : ℕ

/-- What happens between two polls: the NIC executes the oldest posted request, leaving a
completion with `status` when the request is signaled, or time passes. -/
inductive LinkEvent
  | execute (status : ℕ)
  | elapse (usec : ℕ)
  deriving DecidableEq, Repr

namespace Link

def tick : LinkEvent → Link → Link
  | .execute status, l => { l with qp := WorkQueue.execute DCReqPayload.signaled ⟨status⟩ l.qp }
  | .elapse usec, l => { l with now := l.now + usec }

@[simp] theorem outstanding_tick (e : LinkEvent) (l : Link) :
    WorkQueue.outstanding DCReqPayload.signaled (l.tick e).qp =
      WorkQueue.outstanding DCReqPayload.signaled l.qp := by
  cases e with
  | execute status => exact WorkQueue.outstanding_execute _ _
  | elapse usec => rfl

/-- The link after the requests `extra` joined its send queue. -/
def withPosted (l : Link) (extra : List DCReqPayload) : Link :=
  { l with qp := { l.qp with sq := l.qp.sq ++ extra } }

@[simp] theorem withPosted_nil (l : Link) : l.withPosted [] = l := by
  simp [withPosted]

@[simp] theorem cq_withPosted (l : Link) (extra : List DCReqPayload) :
    (l.withPosted extra).qp.cq = l.qp.cq := rfl

@[simp] theorem sq_withPosted (l : Link) (extra : List DCReqPayload) :
    (l.withPosted extra).qp.sq = l.qp.sq ++ extra := rfl

@[simp] theorem now_withPosted (l : Link) (extra : List DCReqPayload) :
    (l.withPosted extra).now = l.now := rfl

theorem tick_execute_post {l : Link} (hsq : l.qp.sq = []) {r : DCReqPayload}
    (hr : r.signaled = true) (status : ℕ) :
    ({ l with qp := WorkQueue.post l.qp r } : Link).tick (.execute status) =
      { l with qp := ⟨[], l.qp.cq ++ [(r, ⟨status⟩)]⟩ } := by
  simp only [tick, WorkQueue.execute_post_of_sq_nil hsq hr]

theorem post_withPosted (l : Link) (r : DCReqPayload) (extra : List DCReqPayload) :
    ({ l with qp := WorkQueue.post l.qp r } : Link).withPosted extra = l.withPosted (r :: extra) := by
  simp [withPosted, WorkQueue.post]

end Link

namespace DCConn

/-- `<DCConn as Future>::poll`: the oldest completion of the queue pair, whatever its
status. -/
def poll (qp : Qp) : Except String (Except DatapathError (Future.Async IbWc) × Qp) :=
  match WorkQueue.poll qp with
  | (some (_, wc), qp) => pure (.ok (.ready wc), qp)
  | (none, qp) => pure (.ok .notReady, qp)

theorem poll_of_cq_nil {qp : Qp} (h : qp.cq = []) : poll qp = .ok (.ok .notReady, qp) := by
  simp [poll, WorkQueue.poll, h, pure, Except.pure]

theorem poll_of_cq_cons {qp : Qp} {e : DCReqPayload × IbWc} {rest : List (DCReqPayload × IbWc)}
    (h : qp.cq = e :: rest) : poll qp = .ok (.ok (.ready e.2), { qp with cq := rest }) := by
  simp [poll, WorkQueue.poll, h, pure, Except.pure]

end DCConn

/-- `os_network::rdma::Err`: a completion whose status is not `IB_WC_SUCCESS`, or an error of
the data path. -/
inductive Err
  | wcErr (status : ℕ)
  | datapathError (e : DatapathError)
  deriving DecidableEq, Repr

namespace DCRemoteDevice

/-- `DCRemoteDevice::read`: a signaled READ of `size` bytes at the remote `addr` into the local
memory at `dst`, posted on the connection; the region is registered first, and a refusal
panics. -/
def read (nic : Nic) (loc : ℕ) (addr : UInt64) (rkey : UInt32) (dst size : ℕ) (l : Link) :
    Except String (Except DatapathError Link) := do
  let mr ← unwrapResult (MemoryRegion.newFromRaw nic dst size)
  let payload : DCReqPayload := ⟨mr, (0, size), true, .read, rkey, addr, loc⟩
  pure ((DCConn.post nic l.qp payload).map fun qp => { l with qp })

theorem read_of_reliable {nic : Nic} (hnic : nic.Reliable) (loc : ℕ) (addr : UInt64) (rkey : UInt32)
    (dst size : ℕ) (l : Link) :
    read nic loc addr rkey dst size l =
      .ok (.ok { l with qp := WorkQueue.post l.qp ⟨dst, (0, size), true, .read, rkey, addr, loc⟩ }) := by
  simp [read, MemoryRegion.newFromRaw_of_registers (hnic.registers _ _),
    DCConn.post_of_accepts (hnic.accepts _ _), pure, Except.pure]
  rfl

/-- `<DCRemoteDevice as Future>::poll`: a completion whose status is not success is an
error. -/
def poll (l : Link) : Except String (Except Err (Future.Async IbWc) × Link) := do
  let (r, qp) ← DCConn.poll l.qp
  let l := { l with qp }
  match r with
  | .ok (.ready wc) =>
    pure (if wc.status = 0 then .ok (.ready wc) else .error (.wcErr wc.status), l)
  | .ok .notReady => pure (.ok .notReady, l)
  | .error e => pure (.error (.datapathError e), l)

theorem poll_of_cq_nil {l : Link} (h : l.qp.cq = []) : poll l = .ok (.ok .notReady, l) := by
  simp only [poll, DCConn.poll_of_cq_nil h]
  rfl

theorem poll_of_cq_cons {l : Link} {e : DCReqPayload × IbWc} {rest : List (DCReqPayload × IbWc)}
    (h : l.qp.cq = e :: rest) :
    poll l = .ok (if e.2.status = 0 then .ok (.ready e.2) else .error (.wcErr e.2.status),
      { l with qp := { l.qp with cq := rest } }) := by
  simp only [poll, DCConn.poll_of_cq_cons h]
  rfl

theorem poll_cases {l l' : Link} {r : Except Err (Future.Async IbWc)} (h : poll l = .ok (r, l')) :
    (l.qp.cq = [] ∧ r = .ok .notReady ∧ l' = l) ∨
      ∃ e rest, l.qp.cq = e :: rest ∧ l' = { l with qp := { l.qp with cq := rest } } ∧
        r = if e.2.status = 0 then .ok (.ready e.2) else .error (.wcErr e.2.status) := by
  rcases hcq : l.qp.cq with _ | ⟨e, rest⟩
  · rw [poll_of_cq_nil hcq, Except.ok.injEq, Prod.mk.injEq] at h
    exact .inl ⟨rfl, h.1.symm, h.2.symm⟩
  · rw [poll_of_cq_cons hcq, Except.ok.injEq, Prod.mk.injEq] at h
    exact .inr ⟨e, rest, rfl, h.2.symm, h.1.symm⟩

end DCRemoteDevice

theorem outstanding_of_cq_cons {q : Qp} {e : DCReqPayload × IbWc} {rest : List (DCReqPayload × IbWc)}
    (h : q.cq = e :: rest) :
    WorkQueue.outstanding DCReqPayload.signaled q =
      e.1 :: WorkQueue.outstanding DCReqPayload.signaled { q with cq := rest } :=
  WorkQueue.outstanding_poll (by simp [WorkQueue.poll, h])

end OsNetwork
