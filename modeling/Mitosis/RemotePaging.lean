import Mitosis.Network.Rdma
import Mitosis.Network.Datagram
import Mitosis.RemoteMapping.PageStructures

/-!
# The remote paging service and the DC pools

`AccessInfo` is what a child needs to read its parent's memory: the address handle of the
parent's DC target and the remote key. `DCPool` holds the DC connections of the kernel:
the per-CPU pool of the synchronous service, read by index, and the async pool of the
prefetchers, a stack that `pop_one_qp` takes from and `push_one_qp` gives back to.

A one-sided read of the synchronous service posts a signaled READ on the CPU's connection and
blocks on it under a `Timeout`, polling it through `DCRemoteDevice`. The poll takes the oldest
completion of the queue pair, and nothing ties a completion to the request that the read
posted: a read that times out leaves its request owed a completion, and the next read on the
connection takes that completion as its own (`remoteRead_takes_oldest_completion`).
-/
namespace Mitosis
open OsNetwork

/-- `TIMEOUT_USEC`: one second. -/
def timeoutUsec : ℕ := 1000000

/-- The address handle of the parent's DC target (a `DatagramEndpoint`, named by its
handle), the remote key of its memory and the parent's machine id. -/
structure AccessInfo where
  accessHandler : ℕ
  rkey : UInt32
  macId : ℕ
  deriving DecidableEq, Repr

/-- A pool of DC connections, `Vec<BoxedLockBundler<DCConn>>`. -/
structure DCPool where
  pool : List DCConn
  deriving DecidableEq, Repr

namespace DCPool

/-- `get_dc_qp`: the connection at an index. -/
def getDcQp (self : DCPool) (idx : ℕ) : Option DCConn := self.pool[idx]?

/-- `pop_one_qp`: `Vec::pop`, the connection pushed last. -/
def popOneQp (self : DCPool) : Option DCConn × DCPool :=
  (self.pool.getLast?, ⟨self.pool.dropLast⟩)

/-- `push_one_qp`. -/
def pushOneQp (self : DCPool) (qp : DCConn) : DCPool := ⟨self.pool ++ [qp]⟩

theorem popOneQp_of_ne_nil {self : DCPool} (h : self.pool ≠ []) :
    self.popOneQp = (some (self.pool.getLast h), ⟨self.pool.dropLast⟩) := by
  simp [popOneQp, List.getLast?_eq_some_getLast h]

@[simp] theorem popOneQp_pushOneQp (self : DCPool) (qp : DCConn) :
    (self.pushOneQp qp).popOneQp = (some qp, self) := by
  simp [popOneQp, pushOneQp]

theorem popOneQp_of_nil {self : DCPool} (h : self.pool = []) : self.popOneQp = (none, self) := by
  cases self
  simp_all [popOneQp]

@[simp] theorem length_pushOneQp (self : DCPool) (qp : DCConn) :
    (self.pushOneQp qp).pool.length = self.pool.length + 1 := by
  simp [pushOneQp]

end DCPool

/-! ## One-sided reads of the synchronous service -/

namespace RemotePagingService

/-- The wait of a read: `block_on` of `Timeout::new(remote_device, usec)`, whose deadline is
`usec` after the wait starts. `sched` is what the NIC and the clock do between the polls. -/
def waitDevice (usec : ℕ) (sched : List LinkEvent) (l : Link) :
    Except String (Option (Except (Future.TimeoutError Err) IbWc × Link × List LinkEvent)) :=
  Future.blockOn (Future.timeoutPoll DCRemoteDevice.poll fun l' => decide (l.now + usec ≤ l'.now))
    Link.tick sched l

/-- How `remote_read` reports the end of its wait: an elapsed deadline is
`DatapathError::TimeoutError`. -/
def readResult : Except (Future.TimeoutError Err) IbWc → Except Err Unit
  | .ok _ => .ok ()
  | .error .elapsed => .error (.datapathError .timeoutError)
  | .error (.inner e) => .error e

/-- `RemotePagingService::remote_read` of the DC build: a READ of `sz` bytes at the decoded
address `src` into `dst`, on the CPU's connection `l`, and its wait under `TIMEOUT_USEC`.
`none` is a wait that has not ended when the schedule does. -/
def remoteRead (nic : Nic) (dst : ℕ) (src : UInt64) (sz : ℕ) (accessInfo : AccessInfo)
    (sched : List LinkEvent) (l : Link) :
    Except String (Option (Except Err Unit × Link × List LinkEvent)) := do
  match ← DCRemoteDevice.read nic accessInfo.accessHandler (PhysAddr.decode src) accessInfo.rkey
      dst sz l with
  | .error e => pure (some (.error (.datapathError e), l, sched))
  | .ok l =>
    let r ← waitDevice timeoutUsec sched l
    pure (r.map fun (r, l, sched) => (readResult r, l, sched))

/-- The request `remote_read` posts. -/
def readPayload (dst : ℕ) (src : UInt64) (sz : ℕ) (accessInfo : AccessInfo) : DCReqPayload :=
  ⟨dst, (0, sz), true, .read, accessInfo.rkey, PhysAddr.decode src, accessInfo.accessHandler⟩

/-- `RemotePagingService::remote_descriptor_fetch` of the DC build: a READ of the `sz` bytes of
the parent's descriptor at `pa` into the buffer `RMemory::new` gave, through the endpoint
`DatagramEndpoint::new` made (a failure panics), and its wait under ten times
`TIMEOUT_USEC`, whose expiry reaches `unimplemented!()`. -/
def remoteDescriptorFetch (nic : Nic) (point : Except ControlpathError ℕ) (pa : UInt64)
    (rkey : UInt32) (descriptorBuf : UDMsg) (sz : ℕ) (sched : List LinkEvent) (l : Link) :
    Except String (Option (Except Err UDMsg × Link × List LinkEvent)) := do
  let point ← unwrapResult point
  match ← DCRemoteDevice.read nic point pa rkey descriptorBuf.bytes.ptr sz l with
  | .error e => pure (some (.error (.datapathError e), l, sched))
  | .ok l =>
    match ← waitDevice (10 * timeoutUsec) sched l with
    | none => pure none
    | some (.ok _, l, sched) => pure (some (.ok descriptorBuf, l, sched))
    | some (.error .elapsed, _, _) => throw "not implemented"
    | some (.error (.inner e), l, sched) => pure (some (.error e, l, sched))

/-- How a wait ends, with the requests owed a completion after it: the deadline passed and
they are the same, or a completion came, a success or an error status, and the oldest request
is no longer owed one, since every poll takes the oldest completion. The wait is a run of
ticks and polls that were not ready, each of which keeps the requests owed a completion, and
one last poll. -/
theorem waitDevice_cases {usec : ℕ} {sched sched' : List LinkEvent} {l l' : Link}
    {r : Except (Future.TimeoutError Err) IbWc}
    (h : waitDevice usec sched l = .ok (some (r, l', sched'))) :
    (r = .error .elapsed ∧ WorkQueue.outstanding DCReqPayload.signaled l'.qp =
        WorkQueue.outstanding DCReqPayload.signaled l.qp) ∨
      ((∃ wc, r = .ok wc) ∨ (∃ status, r = .error (.inner (.wcErr status)))) ∧
        WorkQueue.outstanding DCReqPayload.signaled l'.qp =
          (WorkQueue.outstanding DCReqPayload.signaled l.qp).tail := by
  let R : Link → Prop := fun s => WorkQueue.outstanding DCReqPayload.signaled s.qp =
    WorkQueue.outstanding DCReqPayload.signaled l.qp
  have htick : ∀ t s, R s → R (Link.tick t s) := fun t s hs => (Link.outstanding_tick t s).trans hs
  have hpoll : ∀ s s', R s →
      Future.timeoutPoll DCRemoteDevice.poll (fun l' => decide (l.now + usec ≤ l'.now)) s =
        .ok (.ok .notReady, s') → R s' := by
    intro s s' hs hp
    obtain ⟨r₀, hp₀, hr⟩ := Future.timeoutPoll_eq_ok hp
    rcases DCRemoteDevice.poll_cases hp₀ with ⟨-, -, rfl⟩ | ⟨e, rest, -, -, rfl⟩
    · exact hs
    · rcases hr with ⟨h₀, -⟩ | ⟨-, h₁⟩
      · split at h₀ <;> cases h₀
      · split at h₁ <;> cases h₁
  obtain ⟨s₀, hs₀, hlast⟩ := Future.blockOn_last R htick hpoll sched l rfl h
  obtain ⟨r₀, hp₀, hr⟩ := Future.timeoutPoll_eq_ok hlast
  rcases DCRemoteDevice.poll_cases hp₀ with ⟨-, rfl, rfl⟩ | ⟨e, rest, hcq, rfl, rfl⟩
  · -- no completion: the wait ended because the deadline passed
    rcases hr with ⟨-, hr⟩ | ⟨hne, -⟩
    · refine .inl ⟨?_, hs₀⟩
      split at hr <;> cases r <;> simp_all [Except.map]
    · exact absurd rfl hne
  · -- the oldest completion was taken
    refine .inr ⟨?_, by rw [← hs₀, outstanding_of_cq_cons hcq]; rfl⟩
    rcases hr with ⟨h₀, -⟩ | ⟨-, h₁⟩
    · split at h₀ <;> cases h₀
    · split at h₁ <;> cases r <;> simp_all [Except.map, Except.mapError]

theorem remoteRead_of_reliable {nic : Nic} (hnic : nic.Reliable) (dst : ℕ) (src : UInt64) (sz : ℕ)
    (accessInfo : AccessInfo) (sched : List LinkEvent) (l : Link) :
    remoteRead nic dst src sz accessInfo sched l = (do
      let r ← waitDevice timeoutUsec sched
        { l with qp := WorkQueue.post l.qp (readPayload dst src sz accessInfo) }
      pure (r.map fun (r, l, sched) => (readResult r, l, sched))) := by
  rw [remoteRead, DCRemoteDevice.read_of_reliable hnic, ok_bind]
  rfl

/-- On an idle connection whose NIC executes the READ next with `status`, `remote_read` ends on
that completion, and fails unless the status is success. -/
theorem remoteRead_of_completion {nic : Nic} (hnic : nic.Reliable) (dst : ℕ) (src : UInt64)
    (sz : ℕ) (accessInfo : AccessInfo) {l : Link} (hsq : l.qp.sq = []) (hcq : l.qp.cq = [])
    (status : ℕ) :
    remoteRead nic dst src sz accessInfo [.execute status] l =
      .ok (some (if status = 0 then .ok () else .error (.wcErr status),
        { l with qp := ⟨[], []⟩ }, [])) := by
  have htick := Link.tick_execute_post hsq (r := readPayload dst src sz accessInfo) rfl status
  have hpoll := @DCRemoteDevice.poll_of_cq_cons
    { l with qp := ⟨[], l.qp.cq ++ [(readPayload dst src sz accessInfo, ⟨status⟩)]⟩ }
    (readPayload dst src sz accessInfo, ⟨status⟩) [] (by simp [hcq])
  rw [remoteRead_of_reliable hnic, waitDevice]
  by_cases h0 : status = 0
  · -- a successful completion is the READ's answer
    rw [if_pos h0] at hpoll
    rw [Future.blockOn_cons_ready (by rw [htick]; exact Future.timeoutPoll_ready hpoll), if_pos h0]
    rfl
  · -- any other status is `WCErr`, which `remote_read` passes on
    rw [if_neg h0] at hpoll
    rw [Future.blockOn_cons_error (by rw [htick]; exact Future.timeoutPoll_error hpoll), if_neg h0]
    rfl

end RemotePagingService

open RemotePagingService in
/-- A read takes the oldest completion of the connection as its own. A read that times out
leaves its request owed a completion; a read that succeeds has consumed the completion of the
oldest request owed one, so after a read timed out, the next read on the connection succeeds
on the earlier read's completion while its own request is still owed one. The descriptor
fetch panics when its deadline passes with no completion. -/
theorem remoteRead_takes_oldest_completion (nic : Nic) (hnic : nic.Reliable) :
    (∀ dst src sz accessInfo sched l r l' sched',
      remoteRead nic dst src sz accessInfo sched l = .ok (some (r, l', sched')) →
      (r = .error (.datapathError .timeoutError) →
        WorkQueue.outstanding DCReqPayload.signaled l'.qp =
          WorkQueue.outstanding DCReqPayload.signaled l.qp ++ [readPayload dst src sz accessInfo]) ∧
      (r = .ok () →
        WorkQueue.outstanding DCReqPayload.signaled l'.qp =
          (WorkQueue.outstanding DCReqPayload.signaled l.qp ++
            [readPayload dst src sz accessInfo]).tail)) ∧
    (∀ point pa rkey descriptorBuf sz (l : Link) ts, l.qp.cq = [] →
      remoteDescriptorFetch nic (.ok point) pa rkey descriptorBuf sz
        (.elapse (10 * timeoutUsec) :: ts) l = .error "not implemented") := by
  constructor
  · intro dst src sz accessInfo sched l r l' sched' hres
    rw [remoteRead_of_reliable hnic] at hres
    obtain ⟨w, hw, hres⟩ := bind_eq_ok.mp hres
    obtain ⟨⟨r₀, l₁, sched₁⟩, rfl, hmap⟩ := Option.map_eq_some_iff.mp (Except.ok.inj hres)
    simp only [Prod.mk.injEq] at hmap
    obtain ⟨rfl, rfl, rfl⟩ := hmap
    have hpost : WorkQueue.outstanding DCReqPayload.signaled
        (WorkQueue.post l.qp (readPayload dst src sz accessInfo)) =
        WorkQueue.outstanding DCReqPayload.signaled l.qp ++ [readPayload dst src sz accessInfo] := by
      simp [WorkQueue.outstanding_post, readPayload]
    rcases waitDevice_cases hw with ⟨rfl, hout⟩ | ⟨hdone, hout⟩
    · -- the deadline passed: the request is still owed its completion
      exact ⟨fun _ => hout.trans hpost, fun h => by cases h⟩
    · -- a completion came: the oldest owed one is gone
      refine ⟨fun h => ?_, fun _ => hout.trans (by rw [hpost])⟩
      rcases hdone with ⟨wc, rfl⟩ | ⟨status, rfl⟩ <;> cases h
  · intro point pa rkey descriptorBuf sz l ts hcq
    have hwait : waitDevice (10 * timeoutUsec) (.elapse (10 * timeoutUsec) :: ts)
        { l with qp := WorkQueue.post l.qp ⟨descriptorBuf.bytes.ptr, (0, sz), true, .read, rkey, pa,
          point⟩ } =
        .ok (some (.error .elapsed, { l with qp := WorkQueue.post l.qp ⟨descriptorBuf.bytes.ptr,
          (0, sz), true, .read, rkey, pa, point⟩, now := l.now + 10 * timeoutUsec }, ts)) := by
      unfold waitDevice
      apply Future.blockOn_cons_error
      rw [Future.timeoutPoll_notReady (DCRemoteDevice.poll_of_cq_nil (by simpa [Link.tick] using hcq))]
      simp [Link.tick]
    simp [remoteDescriptorFetch, DCRemoteDevice.read_of_reliable hnic, hwait]
    rfl

/-- A read of `0x5000` times out; the NIC executes it after that, and a read of `0x6000`
succeeds on its completion while its own request is still owed one. -/
theorem remoteRead_takes_oldest_completion_late_reply :
    let nic : Nic := ⟨fun _ _ => true, fun _ _ => true⟩
    let accessInfo : AccessInfo := ⟨1, 7, 1⟩
    let p₁ := RemotePagingService.readPayload 0x1000 0x5000 4096 accessInfo
    let p₂ := RemotePagingService.readPayload 0x2000 0x6000 4096 accessInfo
    let l₁ : Link := ⟨WorkQueue.post WorkQueue.empty p₁, timeoutUsec⟩
    let l₂ : Link := ⟨WorkQueue.post WorkQueue.empty p₂, timeoutUsec⟩
    nic.Reliable ∧
      RemotePagingService.remoteRead nic 0x1000 0x5000 4096 accessInfo [.elapse timeoutUsec]
        ⟨WorkQueue.empty, 0⟩ = .ok (some (.error (.datapathError .timeoutError), l₁, [])) ∧
      RemotePagingService.remoteRead nic 0x2000 0x6000 4096 accessInfo [.elapse 0]
        (l₁.tick (.execute 0)) = .ok (some (.ok (), l₂, [])) ∧
      WorkQueue.outstanding DCReqPayload.signaled l₂.qp = [p₂] ∧
      WorkQueue.outstanding DCReqPayload.signaled l₂.qp =
        (WorkQueue.outstanding DCReqPayload.signaled (l₁.tick (.execute 0)).qp ++ [p₂]).tail := by
  dsimp only
  have hnic : Nic.Reliable ⟨fun _ _ => true, fun _ _ => true⟩ := ⟨fun _ _ => rfl, fun _ _ => rfl⟩
  exact ⟨hnic, rfl, rfl, by decide, ((remoteRead_takes_oldest_completion _ hnic).1 0x2000 0x6000
    4096 ⟨1, 7, 1⟩ [.elapse 0]
    (Link.tick (.execute 0) ⟨WorkQueue.post WorkQueue.empty
      (RemotePagingService.readPayload 0x1000 0x5000 4096 ⟨1, 7, 1⟩), timeoutUsec⟩) (.ok ())
    ⟨WorkQueue.post WorkQueue.empty (RemotePagingService.readPayload 0x2000 0x6000 4096 ⟨1, 7, 1⟩),
      timeoutUsec⟩ [] rfl).2 rfl⟩

end Mitosis
