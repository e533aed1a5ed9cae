import Mitosis.Descriptors.Child
import Mitosis.RemoteMapping.X86Crate

/-!
# How a child fetches its pages

A page fault of a resumed child looks the faulting address up in the child's remote page
table (`lookup_pg_table`). An unmapped address falls back to a fresh page when the faulting
VMA is an anonymous VMA of the descriptor, and to `SIGSEGV` otherwise; a mapped one is read
from the parent by `read_remote_page`, which the two builds implement differently.

Without prefetching, `read_remote_page` is one `RemotePagingService::remote_read` of the
decoded address into a new page, on the CPU's connection. With prefetching, the slot of the
address is read first. A slot with the `Prefetch` bit is either `K_MAGIC_IN_PREFETCH`, whose
READ is in flight and which is waited for by polling the prefetcher, or a page the prefetcher
has filled; that page is handed out and the slot is cleared. Any other slot is read from the
parent into a new page on the CPU's connection, and while that READ is in flight the
prefetcher is given the slots after it and is polled once. The wait of that read polls the
connection itself, not `DCRemoteDevice`.

An eager resume reads every page of a VMA in batches of twelve: one READ per mapped address,
of which only the last of the batch is signaled and waited for.

The NIC moves between the polls of a wait, by the events of a schedule; a wait still going
when the schedule ends gives `none`. The page allocator and the NIC are parameters.
-/
namespace Mitosis
open OsNetwork X86_64

/-- `PREFETCH_STEP`: the slots the fault path hands to the prefetcher. -/
def prefetchStep : ℕ := 1

/-- What a fault of the prefetch build reads and writes: the prefetcher with its connection,
the child's page tables and the page allocator, and the CPU's connection with the time. -/
structure FaultState (A : Type) where
  exec : ExecState A
  link : Link

/-- What happens between two polls of the prefetch build: the NIC moves on the prefetcher's
connection or on the CPU's one, or time passes. -/
inductive FaultEvent
  | prefetch (e : LinkEvent)
  | sync (e : LinkEvent)
  deriving DecidableEq, Repr

/-- A connection polled as a future, as `TimeoutWRef::new(dc_qp, ..)` polls it: every
completion is ready, whatever its status. -/
def pollLink (l : Link) : Except String (Except DatapathError (Future.Async IbWc) × Link) := do
  let (r, qp) ← DCConn.poll l.qp
  pure (r, { l with qp })

namespace FaultState

variable {A : Type}

def tick : FaultEvent → FaultState A → FaultState A
  | .prefetch e, s => { s with exec := s.exec.tick e }
  | .sync e, s => { s with link := s.link.tick e }

@[simp] theorem tables_tick (e : FaultEvent) (s : FaultState A) :
    (s.tick e).exec.tables = s.exec.tables := by
  cases e <;> simp [tick]

end FaultState

/-! ## The prefetch build -/

namespace ChildDescriptor

variable {A : Type}

/-- The loop of `poll_prefetcher`: poll the prefetcher until it is not ready; an error
panics. Each round that is ready takes a completion, so `fuel` rounds more than the
completions there are end the loop. -/
def pollPrefetcherLoop : ℕ → ExecState A → Except String (ExecState A)
  | 0, s => pure s
  | n + 1, s => do
    let (r, s) ← DCAsyncPrefetcher.poll s
    match r with
    | .ok (.ready _) => pollPrefetcherLoop n s
    | .ok .notReady => pure s
    | .error _ => throw "not implemented"

/-- `poll_prefetcher`. -/
def pollPrefetcher (s : ExecState A) : Except String (ExecState A) :=
  pollPrefetcherLoop (s.qp.cq.length + 1) s

/-- The wait loop of `read_remote_page` on a slot whose READ is in flight: while the slot
holds `K_MAGIC_IN_PREFETCH`, poll the prefetcher and read the slot again. -/
def waitPrefetched (pt idx : ℕ) : List FaultEvent → FaultState A →
    Except String (Option (ℕ × FaultState A × List FaultEvent))
  | ts, s =>
    if (s.exec.tables.get pt).entries idx ≠ kMagicInPrefetch.toNat then
      pure (some ((s.exec.tables.get pt).entries idx, s, ts))
    else match ts with
      | [] => pure none
      | t :: ts => do
        let s := s.tick t
        let exec ← pollPrefetcher s.exec
        waitPrefetched pt idx ts { s with exec }

/-- The poll of the main read's wait, `TimeoutWRef::new(dc_qp, ..)`: the CPU's connection
itself. -/
def pollDcQp (s : FaultState A) :
    Except String (Except DatapathError (Future.Async IbWc) × FaultState A) := do
  let (r, link) ← pollLink s.link
  pure (r, { s with link })

theorem waitPrefetched_of_ne {pt idx : ℕ} {s : FaultState A}
    (hne : (s.exec.tables.get pt).entries idx ≠ kMagicInPrefetch.toNat) (ts : List FaultEvent) :
    waitPrefetched pt idx ts s = .ok (some ((s.exec.tables.get pt).entries idx, s, ts)) := by
  unfold waitPrefetched
  rw [if_pos hne]
  rfl

/-- The wait of the prefetch build on an idle connection whose NIC executes the READ just posted:
it ends on that completion, whatever its status. -/
theorem waitDcQp_of_posted {s : FaultState A} (hsq : s.link.qp.sq = []) (hcq : s.link.qp.cq = [])
    {r : DCReqPayload} (hr : r.signaled = true) (expired : FaultState A → Bool) (status : ℕ) :
    Future.blockOn (Future.timeoutPoll pollDcQp expired) FaultState.tick [.sync (.execute status)]
        { s with link := { s.link with qp := WorkQueue.post s.link.qp r } } =
      .ok (some (.ok ⟨status⟩, { s with link := { s.link with qp := ⟨[], []⟩ } }, [])) := by
  apply Future.blockOn_cons_ready
  apply Future.timeoutPoll_ready
  simp only [FaultState.tick, Link.tick_execute_post hsq hr, hcq, List.nil_append, pollDcQp,
    pollLink, DCConn.poll_of_cq_cons (rfl : (⟨[], [(r, ⟨status⟩)]⟩ : Qp).cq = [(r, ⟨status⟩)]),
    ok_bind]
  rfl

section

variable [Paging] (alloc : PageAllocator A) (nic : Nic)

/-- `read_remote_page` of the prefetch build, for the slot `(pt, idx)` of the faulting
address. `none` in the answer is a failed read, whose page is freed. -/
def readRemotePageAt (pt idx : ℕ) (accessInfo : AccessInfo) (sched : List FaultEvent)
    (s : FaultState A) : Except String (Option (Option ℕ × FaultState A × List FaultEvent)) := do
  let remotePa := (s.exec.tables.get pt).entries idx
  if (PhysAddr.new (UInt64.ofNat remotePa)).isPrefetch then
    -- prefetched, or in flight: wait for the prefetcher, hand the page out, clear the slot
    match ← waitPrefetched pt idx sched s with
    | none => pure none
    | some (remotePa, s, sched) =>
      let page := PhysAddr.decode (UInt64.ofNat remotePa)
      let tables := s.exec.tables.modify pt fun t => t.set idx 0
      pure (some (some page.toNat, { s with exec := { s.exec with tables } }, sched))
  else
    let (newPage, pages) := alloc.pmemAllocPage s.exec.pages
    let newPageVa := alloc.pmemPageToVirt newPage
    let mr ← unwrapResult (MemoryRegion.newFromRaw nic newPageVa 4096)
    let payload : DCReqPayload := ⟨mr, (0, 4096), true, .read, accessInfo.rkey,
      PhysAddr.decode (UInt64.ofNat remotePa), accessInfo.accessHandler⟩
    let qp ← unwrapResult (DCConn.post nic s.link.qp payload)
    -- the slots after this one are prefetched while the READ is in flight
    let exec ← DCAsyncPrefetcher.executeReqs alloc nic (stepPrefetcher prefetchStep)
      (RemotePageTableIter.newFromL1 pt idx) { s.exec with pages }
    let exec ← pollPrefetcher exec
    let s : FaultState A := ⟨exec, { s.link with qp }⟩
    let deadline := s.link.now + timeoutUsec
    match ← Future.blockOn (Future.timeoutPoll pollDcQp fun s => decide (deadline ≤ s.link.now))
        FaultState.tick sched s with
    | none => pure none
    | some (.ok _, s, sched) => pure (some (some newPage, s, sched))
    | some (.error _, s, sched) => pure (some (none, s, sched))

omit [Paging] in
theorem readRemotePageAt_of_prefetched {pt idx : ℕ}
    (accessInfo : AccessInfo) (sched : List FaultEvent) {s : FaultState A}
    (hpre : (PhysAddr.new (UInt64.ofNat ((s.exec.tables.get pt).entries idx))).isPrefetch = true)
    (hne : (s.exec.tables.get pt).entries idx ≠ kMagicInPrefetch.toNat) :
    readRemotePageAt alloc nic pt idx accessInfo sched s =
      .ok (some (some (PhysAddr.decode (UInt64.ofNat ((s.exec.tables.get pt).entries idx))).toNat,
        { s with exec := { s.exec with tables := s.exec.tables.modify pt fun t => t.set idx 0 } },
        sched)) := by
  simp only [readRemotePageAt, hpre, ↓reduceIte, waitPrefetched_of_ne hne, ok_bind]
  rfl

omit [Paging] in
/-- A fault of the prefetch build at a slot that is not prefetched, on an idle connection whose
NIC executes its READ with `status`: the fault gets the new page, whatever the status. -/
theorem readRemotePageAt_of_completion {nic : Nic} (hnic : nic.Reliable) {pt idx : ℕ}
    {accessInfo : AccessInfo} {s : FaultState A} {e₁ e₂ : ExecState A}
    (hsq : s.link.qp.sq = []) (hcq : s.link.qp.cq = [])
    (hslot : (PhysAddr.new (UInt64.ofNat ((s.exec.tables.get pt).entries idx))).isPrefetch = false)
    (hexec : DCAsyncPrefetcher.executeReqs alloc nic (stepPrefetcher prefetchStep)
      (RemotePageTableIter.newFromL1 pt idx)
      { s.exec with pages := (alloc.pmemAllocPage s.exec.pages).2 } = .ok e₁)
    (hpoll : pollPrefetcher e₁ = .ok e₂) (status : ℕ) :
    readRemotePageAt alloc nic pt idx accessInfo [.sync (.execute status)] s =
      .ok (some (some (alloc.pmemAllocPage s.exec.pages).1,
        ⟨e₂, { s.link with qp := ⟨[], []⟩ }⟩, [])) := by
  have hwait := waitDcQp_of_posted (s := ⟨e₂, s.link⟩) hsq hcq
    (r := ⟨alloc.pmemPageToVirt (alloc.pmemAllocPage s.exec.pages).1, (0, 4096), true, .read,
      accessInfo.rkey, PhysAddr.decode (UInt64.ofNat ((s.exec.tables.get pt).entries idx)),
      accessInfo.accessHandler⟩) rfl
    (fun s' => decide (s.link.now + timeoutUsec ≤ s'.link.now)) status
  simp only [readRemotePageAt, hslot, Bool.false_eq_true, ↓reduceIte,
    MemoryRegion.newFromRaw_of_registers (hnic.registers _ _), unwrapResult_ok, ok_bind,
    DCConn.post_of_accepts (hnic.accepts _ _), hexec, hpoll]
  rw [hwait]
  rfl

/-- `read_remote_page` of the prefetch build: the slot of the address, then
`readRemotePageAt`; an address with no level-one table reads nothing. -/
def readRemotePage (pageTable : RemotePageTable) (remoteVa : VirtAddrType)
    (accessInfo : AccessInfo) (sched : List FaultEvent) (s : FaultState A) :
    Except String (Option (Option ℕ × FaultState A × List FaultEvent)) := do
  let addr ← VirtAddr.new remoteVa
  match pageTable.findL1PageIdx s.exec.tables addr with
  | none => pure (some (none, s, sched))
  | some (pt, idx) => readRemotePageAt alloc nic pt idx accessInfo sched s

end

/-! ## The build without prefetching -/

section

variable {P : Type} [Paging] (alloc : PageAllocator A) (nic : Nic)

/-- `read_remote_page` without the prefetch feature: the value the table holds for the
address, read from the parent into a new page by `remote_read`. `pmem_page_to_phy` and the
`bd_phys_to_virt` of the read name the page by its kernel address. -/
def readRemotePageOnDemand (des : ChildDescriptor P) (h : Heap PageTable)
    (remoteVa : VirtAddrType) (accessInfo : AccessInfo) (sched : List LinkEvent) (s : Link × A) :
    Except String (Option (Option ℕ × (Link × A) × List LinkEvent)) := do
  let some remotePa ← des.lookupPgTable h remoteVa | pure (some (none, s, sched))
  let (newPage, pages) := alloc.pmemAllocPage s.2
  match ← RemotePagingService.remoteRead nic (alloc.pmemPageToVirt newPage) remotePa 4096
      accessInfo sched s.1 with
  | none => pure none
  | some (.ok (), l, sched) => pure (some (some newPage, (l, pages), sched))
  | some (.error _, l, sched) => pure (some (none, (l, pages), sched))

/-- A fault without prefetching at a mapped address, on an idle connection whose NIC executes
the READ with `status`: the fault gets the new page exactly when the status is success. -/
theorem readRemotePageOnDemand_of_completion (hnic : nic.Reliable) {des : ChildDescriptor P}
    {h : Heap PageTable} {remoteVa : VirtAddrType} {v : PhyAddrType}
    (hv : des.lookupPgTable h remoteVa = .ok (some v)) (accessInfo : AccessInfo) {l : Link}
    (hsq : l.qp.sq = []) (hcq : l.qp.cq = []) (a : A) (status : ℕ) :
    readRemotePageOnDemand alloc nic des h remoteVa accessInfo [.execute status] (l, a) =
      .ok (some (if status = 0 then some (alloc.pmemAllocPage a).1 else none,
        ({ l with qp := ⟨[], []⟩ }, (alloc.pmemAllocPage a).2), [])) := by
  simp only [readRemotePageOnDemand, hv, ok_bind,
    RemotePagingService.remoteRead_of_completion hnic _ _ _ _ hsq hcq]
  by_cases h0 : status = 0
  · simp only [h0, ↓reduceIte]
    rfl
  · simp only [h0, ↓reduceIte]
    rfl

/-- The loop of `batch_read_remote_pages` from index `i` of a batch of `len` addresses: a READ
of the value the table holds into a new page for every mapped address, the one at the last
index signaled and waited for. A refused post is only logged. -/
def batchReadLoop (des : ChildDescriptor P) (h : Heap PageTable) (accessInfo : AccessInfo)
    (len : ℕ) : ℕ → List VirtAddrType → List LinkEvent → Link × A →
      Except String (Option (List (Option ℕ) × (Link × A) × List LinkEvent))
  | _, [], sched, s => pure (some ([], s, sched))
  | i, remoteVa :: rest, sched, s => do
    match ← des.lookupPgTable h remoteVa with
    | none =>
      let some (res, s, sched) ← batchReadLoop des h accessInfo len (i + 1) rest sched s
        | pure none
      pure (some (none :: res, s, sched))
    | some remotePa =>
      let (newPage, pages) := alloc.pmemAllocPage s.2
      let mr ← unwrapResult (MemoryRegion.newFromRaw nic (alloc.pmemPageToVirt newPage) 4096)
      let payload : DCReqPayload := ⟨mr, (0, 4096), i == len - 1, .read, accessInfo.rkey, remotePa,
        accessInfo.accessHandler⟩
      let l : Link := match DCConn.post nic s.1.qp payload with
        | .ok qp => { s.1 with qp }
        | .error _ => s.1
      if i == len - 1 then
        let deadline := l.now + timeoutUsec
        let some (r, l, sched) ← Future.blockOn
            (Future.timeoutPoll pollLink fun l => decide (deadline ≤ l.now)) Link.tick sched l
          | pure none
        let page := match r with
          | .ok _ => some newPage
          | .error _ => none
        let some (res, s, sched) ← batchReadLoop des h accessInfo len (i + 1) rest sched (l, pages)
          | pure none
        pure (some (page :: res, s, sched))
      else
        let some (res, s, sched) ← batchReadLoop des h accessInfo len (i + 1) rest sched (l, pages)
          | pure none
        pure (some (some newPage :: res, s, sched))

/-- `batch_read_remote_pages`. -/
def batchReadRemotePages (des : ChildDescriptor P) (h : Heap PageTable)
    (addrList : List VirtAddrType) (accessInfo : AccessInfo) (sched : List LinkEvent)
    (s : Link × A) : Except String (Option (List (Option ℕ) × (Link × A) × List LinkEvent)) :=
  batchReadLoop alloc nic des h accessInfo addrList.length 0 addrList sched s

end

/-- A round before the last of the batch passes what the rest answers through, behind its own
answer. -/
theorem batchReadLoop_cont (p : Option ℕ) (g : List (Option ℕ) × (Link × A) × List LinkEvent →
      List (Option ℕ) × (Link × A) × List LinkEvent)
    (e : Except String (Option (List (Option ℕ) × (Link × A) × List LinkEvent))) :
    (do
      let some (res, s, sched) ← e.map (Option.map g) | pure none
      pure (some (p :: res, s, sched)) :
        Except String (Option (List (Option ℕ) × (Link × A) × List LinkEvent))) =
      e.map (Option.map fun r => (p :: (g r).1, (g r).2)) := by
  rcases e with _ | _ | r
  · rfl
  · rfl
  · rfl

section Batch

variable {P : Type} [Paging] {alloc : PageAllocator A} {nic : Nic}

/-- The value the table holds for an address of the batch, when it holds one. -/
def rawValue (des : ChildDescriptor P) (h : Heap PageTable) (x : VirtAddrType) :
    Option PhyAddrType :=
  match des.lookupPgTable h x with
  | .ok (some v) => some v
  | _ => none

/-- The rounds of a batch before its last index, on a NIC that takes every request: none of
them waits, each mapped address posts an unsignaled READ of 4096 bytes at the value the table
holds and answers a page, and what follows runs on the link with those READs posted. The
induction is on the addresses of those rounds. -/
theorem batchReadLoop_append (hnic : nic.Reliable) {des : ChildDescriptor P}
    {h : Heap PageTable} {accessInfo : AccessInfo} {len : ℕ} :
    ∀ (xs : List VirtAddrType) (i : ℕ) (sched : List LinkEvent) (l : Link) (a : A),
      i + xs.length < len → (∀ x ∈ xs, ∃ o, des.lookupPgTable h x = .ok o) →
      ∃ answers extra a₁,
        (∀ r ∈ extra, r.signaled = false ∧ r.range = (0, 4096) ∧ r.op = .read) ∧
        extra.map DCReqPayload.raddr = xs.filterMap (rawValue des h) ∧
        List.Forall₂ (fun x o => (∃ v, des.lookupPgTable h x = .ok (some v)) ↔ o.isSome)
          xs answers ∧
        ∀ rest, batchReadLoop alloc nic des h accessInfo len i (xs ++ rest) sched (l, a) =
          (batchReadLoop alloc nic des h accessInfo len (i + xs.length) rest sched
            (l.withPosted extra, a₁)).map (Option.map fun r => (answers ++ r.1, r.2))
  | [], i, sched, l, a, _, _ =>
    ⟨[], [], a, by simp, by simp, .nil, fun rest => by
      simp only [List.nil_append, List.length_nil, Nat.add_zero, Link.withPosted_nil]
      rcases batchReadLoop alloc nic des h accessInfo len i rest sched (l, a) with _ | _ | r <;> rfl⟩
  | x :: xs, i, sched, l, a, hlen, hok => by
    have hi : (i == len - 1) = false := by
      simp only [List.length_cons] at hlen
      simp only [beq_eq_false_iff_ne]
      omega
    have hlen' : i + 1 + xs.length < len := by simp only [List.length_cons] at hlen; omega
    have hidx : i + 1 + xs.length = i + (x :: xs).length := by simp only [List.length_cons]; omega
    have hok' : ∀ y ∈ xs, ∃ o, des.lookupPgTable h y = .ok o :=
      fun y hy => hok y (List.mem_cons_of_mem x hy)
    obtain ⟨o, hx⟩ := hok x List.mem_cons_self
    rcases o with _ | v
    · -- an unmapped address answers `None` and posts nothing
      obtain ⟨answers, extra, a₁, hextra, hraw, hans, hrest⟩ :=
        batchReadLoop_append hnic xs (i + 1) sched l a hlen' hok'
      refine ⟨none :: answers, extra, a₁, hextra, by simp [hraw, rawValue, hx],
        .cons (by simp [hx]) hans, fun rest => ?_⟩
      simp only [List.cons_append, batchReadLoop, hx, ok_bind]
      rw [hrest, hidx, batchReadLoop_cont]
    · -- a mapped address posts an unsignaled READ of its value, and does not wait
      obtain ⟨answers, extra, a₁, hextra, hraw, hans, hrest⟩ :=
        batchReadLoop_append hnic xs (i + 1) sched
          { l with qp := WorkQueue.post l.qp ⟨alloc.pmemPageToVirt (alloc.pmemAllocPage a).1,
            (0, 4096), false, .read, accessInfo.rkey, v, accessInfo.accessHandler⟩ }
          (alloc.pmemAllocPage a).2 hlen' hok'
      refine ⟨some (alloc.pmemAllocPage a).1 :: answers,
        ⟨alloc.pmemPageToVirt (alloc.pmemAllocPage a).1, (0, 4096), false, .read,
          accessInfo.rkey, v, accessInfo.accessHandler⟩ :: extra, a₁, ?_,
        by simp [hraw, rawValue, hx], .cons (by simp [hx]) hans, fun rest => ?_⟩
      · intro r hr
        rcases List.mem_cons.mp hr with rfl | hr
        · exact ⟨rfl, rfl, rfl⟩
        · exact hextra r hr
      · simp only [List.cons_append, batchReadLoop, hx, ok_bind,
          MemoryRegion.newFromRaw_of_registers (hnic.registers _ _), unwrapResult_ok,
          DCConn.post_of_accepts (hnic.accepts _ _), hi, Bool.false_eq_true, ↓reduceIte]
        rw [hrest, hidx, Link.post_withPosted, batchReadLoop_cont]

theorem batchReadLoop_of_unmapped {des : ChildDescriptor P} {h : Heap PageTable}
    {accessInfo : AccessInfo} {len i : ℕ} {last : VirtAddrType}
    (hlast : des.lookupPgTable h last = .ok none) (sched : List LinkEvent) (s : Link × A) :
    batchReadLoop alloc nic des h accessInfo len i [last] sched s = .ok (some ([none], s, sched)) := by
  simp only [batchReadLoop, hlast, ok_bind]
  rfl

end Batch

/-- The page addresses of `(start..start + size).step_by(4096)`. -/
def pageAddrs (start size : VirtAddrType) : List VirtAddrType :=
  (List.range ((size.toNat + 4095) / 4096)).map fun k => start + UInt64.ofNat (4096 * k)

/-- The batching of `eager_fetch_vma`: an address joins the buffer, and a buffer of `len`
addresses is read and cleared; what is left at the end is read last. -/
def eagerBatches (len : ℕ) : List VirtAddrType → List VirtAddrType → List (List VirtAddrType)
  | [], buf => if buf.isEmpty then [] else [buf]
  | addr :: rest, buf =>
    let buf := if buf.length < len then buf ++ [addr] else buf
    if len == buf.length then buf :: eagerBatches len rest [] else eagerBatches len rest buf

/-- The batches of `eager_fetch_vma` cover its addresses once, in order, each batch holding one
to `len` of them. The induction is on the addresses; the buffer it carries stays below `len`. -/
theorem eagerBatches_cover {len : ℕ} (hlen : 0 < len) :
    ∀ (xs buf : List VirtAddrType), buf.length < len →
      (eagerBatches len xs buf).flatten = buf ++ xs ∧
        ∀ b ∈ eagerBatches len xs buf, 0 < b.length ∧ b.length ≤ len
  | [], buf, hbuf => by
    by_cases hb : buf = []
    · simp [eagerBatches, hb]
    · have hpos : 0 < buf.length := List.length_pos_iff.mpr hb
      simp [eagerBatches, hb, hpos, hbuf.le]
  | addr :: rest, buf, hbuf => by
    have hpush : (if buf.length < len then buf ++ [addr] else buf) = buf ++ [addr] := if_pos hbuf
    have hfull : (buf ++ [addr]).length ≤ len := by simp; omega
    simp only [eagerBatches, hpush]
    by_cases hflush : (len == (buf ++ [addr]).length) = true
    · -- the buffer is full: it is one batch, and the rest starts from an empty buffer
      obtain ⟨hcov, hsize⟩ := eagerBatches_cover hlen rest [] (by simpa using hlen)
      rw [if_pos hflush, List.flatten_cons, hcov]
      refine ⟨by simp, ?_⟩
      rintro b (_ | ⟨_, hb⟩)
      · simp only [List.length_append, List.length_singleton] at hfull ⊢
        omega
      · exact hsize b hb
    · have hlt : (buf ++ [addr]).length < len := by
        simp only [beq_iff_eq] at hflush
        omega
      obtain ⟨hcov, hsize⟩ := eagerBatches_cover hlen rest (buf ++ [addr]) hlt
      rw [if_neg hflush]
      exact ⟨by simpa using hcov, hsize⟩

/-- Eager resume reads a VMA in batches of one to 12 page addresses that cover it once, in order.
But a batch whose last address is unmapped answers a page for every mapped address without
waiting: the call takes no completion from the queue and leaves no more owed than before, since
none of its READs is signaled, so nothing it returns says a READ has landed. -/
theorem eager_batch_answers_before_any_completion {P : Type} [Paging]
    {alloc : PageAllocator A} {nic : Nic} (hnic : nic.Reliable) :
    (∀ start size : VirtAddrType,
      (eagerBatches 12 (pageAddrs start size) []).flatten = pageAddrs start size ∧
        ∀ b ∈ eagerBatches 12 (pageAddrs start size) [], 0 < b.length ∧ b.length ≤ 12) ∧
    ∀ (des : ChildDescriptor P) (h : Heap PageTable) (accessInfo : AccessInfo)
      (xs : List VirtAddrType) (last : VirtAddrType) (sched : List LinkEvent) (l : Link) (a : A),
      (∀ x ∈ xs, ∃ o, des.lookupPgTable h x = .ok o) → des.lookupPgTable h last = .ok none →
      ∃ res l' a', batchReadRemotePages alloc nic des h (xs ++ [last]) accessInfo sched (l, a) =
          .ok (some (res, (l', a'), sched)) ∧
        l'.qp.cq = l.qp.cq ∧
        WorkQueue.outstanding DCReqPayload.signaled l'.qp =
          WorkQueue.outstanding DCReqPayload.signaled l.qp ∧
        List.Forall₂ (fun x o => (∃ v, des.lookupPgTable h x = .ok (some v)) → o.isSome)
          (xs ++ [last]) res := by
  refine ⟨fun start size => by simpa using eagerBatches_cover (by decide) _ [] (by decide),
    fun des h accessInfo xs last sched l a hok hlast => ?_⟩
  obtain ⟨answers, extra, a₁, hextra, -, hans, hrest⟩ :=
    batchReadLoop_append hnic xs 0 sched l a (show 0 + xs.length < (xs ++ [last]).length by simp) hok
  -- the READs the batch posts are all unsignaled, so they add nothing to what is owed
  have hfilter : extra.filter DCReqPayload.signaled = [] :=
    List.filter_eq_nil_iff.mpr fun r hr => by simp [(hextra r hr).1]
  refine ⟨answers ++ [none], l.withPosted extra, a₁, ?_, rfl, ?_, ?_⟩
  · rw [batchReadRemotePages, hrest, Nat.zero_add, batchReadLoop_of_unmapped hlast]
    rfl
  · simp only [WorkQueue.outstanding, Link.cq_withPosted, Link.sq_withPosted, List.filter_append,
      hfilter, List.append_nil]
  · exact List.rel_append (hans.imp fun _ _ hx => hx.mp) (.cons (by simp [hlast]) .nil)

theorem lookupPgTable_sparse_tail :
    ∃ T h, (RemotePageTable.new Heap.empty).1.map (RemotePageTable.new Heap.empty).2
        ⟨0x1000, by decide⟩ ⟨0x5000⟩ = .ok (none, T, h) ∧
      let des : ChildDescriptor Unit :=
        ⟨⟨⟨List.replicate 21 0, rfl⟩, 0, 0⟩, T, [], ⟨0, 0, ⟨List.replicate 16 0, rfl⟩, 0, 0, 0, 0, 0⟩, ()⟩
      des.lookupPgTable h 0x1000 = .ok (some 0x5000) ∧ des.lookupPgTable h 0x2000 = .ok none :=
  ⟨_, _, rfl, rfl, rfl⟩

/-- The batch `[0x1000, 0x2000]`, whose last address is unmapped, answers a page for `0x1000`
without taking a completion or owing one. -/
theorem eager_batch_answers_before_any_completion_sparse_tail :
    ∃ T h, (RemotePageTable.new Heap.empty).1.map (RemotePageTable.new Heap.empty).2
        ⟨0x1000, by decide⟩ ⟨0x5000⟩ = .ok (none, T, h) ∧
      let des : ChildDescriptor Unit :=
        ⟨⟨⟨List.replicate 21 0, rfl⟩, 0, 0⟩, T, [], ⟨0, 0, ⟨List.replicate 16 0, rfl⟩, 0, 0, 0, 0, 0⟩, ()⟩
      let alloc : PageAllocator ℕ := ⟨fun n => (n, n + 1), id⟩
      let nic : Nic := ⟨fun _ _ => true, fun _ _ => true⟩
      let l : Link := ⟨WorkQueue.empty, 0⟩
      nic.Reliable ∧ des.lookupPgTable h 0x1000 = .ok (some 0x5000) ∧
        (∀ x ∈ [0x1000], ∃ o, des.lookupPgTable h x = .ok o) ∧
        des.lookupPgTable h 0x2000 = .ok none ∧
        ∃ res l' a', des.batchReadRemotePages alloc nic h ([0x1000] ++ [0x2000]) ⟨3, 0, 1⟩ []
            (l, 0x8000) = .ok (some (res, (l', a'), [])) ∧
          l'.qp.cq = l.qp.cq ∧
          WorkQueue.outstanding DCReqPayload.signaled l'.qp =
            WorkQueue.outstanding DCReqPayload.signaled l.qp ∧
          List.Forall₂ (fun x o => (∃ v, des.lookupPgTable h x = .ok (some v)) → o.isSome)
            ([0x1000] ++ [0x2000]) res := by
  obtain ⟨T, h, hmap, hmapped, hlast⟩ := lookupPgTable_sparse_tail
  have hnic : Nic.Reliable ⟨fun _ _ => true, fun _ _ => true⟩ := ⟨fun _ _ => rfl, fun _ _ => rfl⟩
  have hok : ∀ x ∈ [(0x1000 : VirtAddrType)], ∃ o, ChildDescriptor.lookupPgTable
      ⟨⟨⟨List.replicate 21 0, rfl⟩, 0, 0⟩, T, [], ⟨0, 0, ⟨List.replicate 16 0, rfl⟩, 0, 0, 0, 0, 0⟩,
        ()⟩ h x = .ok o := by
    simpa using ⟨_, hmapped⟩
  exact ⟨T, h, hmap, hnic, hmapped, hok, hlast,
    (@eager_batch_answers_before_any_completion ℕ Unit _ ⟨fun n => (n, n + 1), id⟩ _ hnic).2 _ h
      ⟨3, 0, 1⟩ [0x1000] 0x2000 [] ⟨WorkQueue.empty, 0⟩ 0x8000 hok hlast⟩

/-- Eager resume reads the values the table holds as they are. Every READ a batch posts before
its last index is of 4096 bytes at the value the table holds for its address, flag bits and
all, while `remote_read` of a value, the on-demand path, reads at its decoded address; the two
differ on every value that carries the `ReadOnly` flag. -/
theorem batch_reads_undecoded_values {P : Type} [Paging] {alloc : PageAllocator A} {nic : Nic}
    (hnic : nic.Reliable) :
    (∀ (des : ChildDescriptor P) (h : Heap PageTable) (accessInfo : AccessInfo)
      (xs rest : List VirtAddrType) (sched : List LinkEvent) (l : Link) (a : A),
      rest ≠ [] → (∀ x ∈ xs, ∃ o, des.lookupPgTable h x = .ok o) →
      ∃ extra a₁ answers,
        extra.map DCReqPayload.raddr = xs.filterMap (rawValue des h) ∧
        (∀ r ∈ extra, r.range = (0, 4096) ∧ r.op = .read) ∧
        batchReadRemotePages alloc nic des h (xs ++ rest) accessInfo sched (l, a) =
          (batchReadLoop alloc nic des h accessInfo (xs ++ rest).length xs.length rest sched
            (l.withPosted extra, a₁)).map (Option.map fun r => (answers ++ r.1, r.2))) ∧
    (∀ (dst : ℕ) (v : UInt64) (accessInfo : AccessInfo) (sched : List LinkEvent) (l : Link),
      RemotePagingService.remoteRead nic dst v 4096 accessInfo sched l = (do
        let r ← RemotePagingService.waitDevice timeoutUsec sched
          (l.withPosted [⟨dst, (0, 4096), true, .read, accessInfo.rkey, PhysAddr.decode v,
            accessInfo.accessHandler⟩])
        pure (r.map fun (r, l, sched) => (RemotePagingService.readResult r, l, sched)))) ∧
    ∀ v : UInt64, (PhysAddr.new v).isRo = true → PhysAddr.decode v ≠ v := by
  refine ⟨fun des h accessInfo xs rest sched l a hrest hok => ?_,
    fun dst v accessInfo sched l => ?_, fun v hv => PhysAddr.decode_ne_of_isRo hv⟩
  · have hlen : 0 + xs.length < (xs ++ rest).length := by
      have : 0 < rest.length := List.length_pos_iff.mpr hrest
      simp only [List.length_append]
      omega
    obtain ⟨answers, extra, a₁, hextra, hraw, -, hloop⟩ :=
      batchReadLoop_append hnic xs 0 sched l a hlen hok
    refine ⟨extra, a₁, answers, hraw, fun r hr => ⟨(hextra r hr).2.1, (hextra r hr).2.2⟩, ?_⟩
    rw [batchReadRemotePages, hloop, Nat.zero_add]
  · -- `remote_read` posts one signaled READ, of `readPayload`, before its wait
    rw [RemotePagingService.remoteRead_of_reliable hnic]
    rfl

theorem lookupPgTable_read_only_entry :
    ∃ T h, (RemotePageTable.new Heap.empty).1.map (RemotePageTable.new Heap.empty).2
        ⟨0x1000, by decide⟩ ⟨0x5004⟩ = .ok (none, T, h) ∧
      let des : ChildDescriptor Unit :=
        ⟨⟨⟨List.replicate 21 0, rfl⟩, 0, 0⟩, T, [], ⟨0, 0, ⟨List.replicate 16 0, rfl⟩, 0, 0, 0, 0, 0⟩, ()⟩
      des.lookupPgTable h 0x1000 = .ok (some 0x5004) :=
  ⟨_, _, rfl, rfl⟩

/-- The batch `[0x1000, 0x2000]` over an entry `0x5004` posts a READ at `0x5004`, where the
on-demand path reads at `0x5000`. -/
theorem batch_reads_undecoded_values_read_only :
    ∃ T h, (RemotePageTable.new Heap.empty).1.map (RemotePageTable.new Heap.empty).2
        ⟨0x1000, by decide⟩ ⟨0x5004⟩ = .ok (none, T, h) ∧
      let des : ChildDescriptor Unit :=
        ⟨⟨⟨List.replicate 21 0, rfl⟩, 0, 0⟩, T, [], ⟨0, 0, ⟨List.replicate 16 0, rfl⟩, 0, 0, 0, 0, 0⟩, ()⟩
      let alloc : PageAllocator ℕ := ⟨fun n => (n, n + 1), id⟩
      let nic : Nic := ⟨fun _ _ => true, fun _ _ => true⟩
      nic.Reliable ∧ des.lookupPgTable h 0x1000 = .ok (some 0x5004) ∧
        (PhysAddr.new 0x5004).isRo = true ∧ PhysAddr.decode 0x5004 = 0x5000 ∧
        ∃ extra a₁ answers,
          extra.map DCReqPayload.raddr = [0x5004] ∧
          (∀ r ∈ extra, r.range = (0, 4096) ∧ r.op = .read) ∧
          des.batchReadRemotePages alloc nic h ([0x1000] ++ [0x2000]) ⟨3, 0, 1⟩ []
              (⟨WorkQueue.empty, 0⟩, 0x8000) =
            (batchReadLoop alloc nic des h ⟨3, 0, 1⟩ ([0x1000] ++ [0x2000]).length [0x1000].length
              [0x2000] [] ((⟨WorkQueue.empty, 0⟩ : Link).withPosted extra, a₁)).map
              (Option.map fun r => (answers ++ r.1, r.2)) := by
  obtain ⟨T, h, hmap, hmapped⟩ := lookupPgTable_read_only_entry
  dsimp only at hmapped
  have hnic : Nic.Reliable ⟨fun _ _ => true, fun _ _ => true⟩ := ⟨fun _ _ => rfl, fun _ _ => rfl⟩
  have hok : ∀ x ∈ [(0x1000 : VirtAddrType)], ∃ o, ChildDescriptor.lookupPgTable
      ⟨⟨⟨List.replicate 21 0, rfl⟩, 0, 0⟩, T, [], ⟨0, 0, ⟨List.replicate 16 0, rfl⟩, 0, 0, 0, 0, 0⟩,
        ()⟩ h x = .ok o := by
    simpa using ⟨_, hmapped⟩
  obtain ⟨extra, a₁, answers, hraw, hread, hbatch⟩ :=
    (@batch_reads_undecoded_values ℕ Unit _ ⟨fun n => (n, n + 1), id⟩ _ hnic).1 _ h ⟨3, 0, 1⟩
      [0x1000] [0x2000] [] ⟨WorkQueue.empty, 0⟩ 0x8000 (by simp) hok
  exact ⟨T, h, hmap, hnic, hmapped, by decide, by decide, extra, a₁, answers,
    by simp only [hraw, List.filterMap_cons, List.filterMap_nil, rawValue, hmapped], hread, hbatch⟩

/-- Only the build without prefetching honours the status of a completion. The prefetcher's
poll fills the slot of the oldest pending request with its encoded page, whatever the status;
a fault of the prefetch build on a slot not prefetched gets its page, whatever the status;
a fault without prefetching gets its page only on success. -/
theorem fetch_paths_disagree_on_failed_completions {P : Type} [Paging]
    {alloc : PageAllocator A} {nic : Nic} (hnic : nic.Reliable) :
    (∀ (s : ExecState A) (r : DCReqPayload) (status : ℕ) (rest : List (DCReqPayload × IbWc))
      (v : ReplyEntry) (vs : List ReplyEntry),
      s.qp.cq = (r, ⟨status⟩) :: rest → s.prefetcher.pendingQueues = v :: vs →
      (PhysAddr.new (UInt64.ofNat v.userPage)).bottomBit = false →
      DCAsyncPrefetcher.poll s = .ok (.ok (.ready v.userPage), { s with
        qp := { s.qp with cq := rest },
        prefetcher := { s.prefetcher with pendingQueues := vs },
        tables := s.tables.modify v.pt fun pt => pt.set v.idx
          (PhysAddr.encode (UInt64.ofNat v.userPage) PhysAddrBitFlag.prefetch.toU64).toNat })) ∧
    (∀ (pt idx : ℕ) (accessInfo : AccessInfo) (s : FaultState A) (e₁ e₂ : ExecState A)
      (status : ℕ),
      s.link.qp.sq = [] → s.link.qp.cq = [] →
      (PhysAddr.new (UInt64.ofNat ((s.exec.tables.get pt).entries idx))).isPrefetch = false →
      DCAsyncPrefetcher.executeReqs alloc nic (stepPrefetcher prefetchStep)
        (RemotePageTableIter.newFromL1 pt idx)
        { s.exec with pages := (alloc.pmemAllocPage s.exec.pages).2 } = .ok e₁ →
      pollPrefetcher e₁ = .ok e₂ →
      readRemotePageAt alloc nic pt idx accessInfo [.sync (.execute status)] s =
        .ok (some (some (alloc.pmemAllocPage s.exec.pages).1,
          ⟨e₂, { s.link with qp := ⟨[], []⟩ }⟩, []))) ∧
    ∀ (des : ChildDescriptor P) (h : Heap PageTable) (remoteVa : VirtAddrType) (v : PhyAddrType)
      (accessInfo : AccessInfo) (l : Link) (a : A) (status : ℕ),
      des.lookupPgTable h remoteVa = .ok (some v) → l.qp.sq = [] → l.qp.cq = [] →
      readRemotePageOnDemand alloc nic des h remoteVa accessInfo [.execute status] (l, a) =
        .ok (some (if status = 0 then some (alloc.pmemAllocPage a).1 else none,
          ({ l with qp := ⟨[], []⟩ }, (alloc.pmemAllocPage a).2), [])) :=
  ⟨fun _ _ _ _ _ _ hcq hpend hbit => DCAsyncPrefetcher.poll_of_cq_cons hcq hpend hbit,
    fun _ _ _ _ _ _ status hsq hcq hslot hexec hpoll =>
      readRemotePageAt_of_completion alloc hnic hsq hcq hslot hexec hpoll status,
    fun _ _ _ _ accessInfo _ a status hv hsq hcq =>
      readRemotePageOnDemand_of_completion alloc nic hnic hv accessInfo hsq hcq a status⟩

set_option maxRecDepth 20000 in
/-- The first fault at `0x1000` of the table mapping it to `0x5000`: its slot, which is not
prefetched, and the prefetch the fault path then starts, which finds no slot after it. -/
theorem readRemotePageAt_first_fault_run :
    ∃ T h, (RemotePageTable.new Heap.empty).1.map (RemotePageTable.new Heap.empty).2
        ⟨0x1000, by decide⟩ ⟨0x5000⟩ = .ok (none, T, h) ∧
      ∃ pt, T.findL1PageIdx h ⟨0x1000, by decide⟩ = some (pt, 1) ∧
        (PhysAddr.new (UInt64.ofNat ((h.get pt).entries 1))).isPrefetch = false ∧
        DCAsyncPrefetcher.executeReqs (⟨fun n => (n, n + 1), id⟩ : PageAllocator ℕ)
          ⟨fun _ _ => true, fun _ _ => true⟩ (stepPrefetcher prefetchStep)
          (RemotePageTableIter.newFromL1 pt 1)
          ⟨DCAsyncPrefetcher.newFromRaw ⟨0⟩ ⟨0, 0, 0⟩, h, WorkQueue.empty, 0x8001⟩ =
          .ok ⟨DCAsyncPrefetcher.newFromRaw ⟨0⟩ ⟨0, 0, 0⟩, h, WorkQueue.empty, 0x8001⟩ ∧
        (⟨⟨⟨List.replicate 21 0, rfl⟩, 0, 0⟩, T, [], ⟨0, 0, ⟨List.replicate 16 0, rfl⟩, 0, 0, 0, 0, 0⟩,
          ()⟩ : ChildDescriptor Unit).lookupPgTable h 0x1000 = .ok (some 0x5000) :=
  ⟨_, _, rfl, _, rfl, rfl, rfl, rfl⟩

/-- A completion with the error status `10` (`IB_WC_REM_ACCESS_ERR`): the prefetcher fills the
slot of its request, the prefetch build's fault at `0x1000` gets its page, and the fault
without prefetching gets none. -/
theorem fetch_paths_disagree_on_failed_completions_access_error :
    ∃ T h, (RemotePageTable.new Heap.empty).1.map (RemotePageTable.new Heap.empty).2
        ⟨0x1000, by decide⟩ ⟨0x5000⟩ = .ok (none, T, h) ∧
      ∃ pt, T.findL1PageIdx h ⟨0x1000, by decide⟩ = some (pt, 1) ∧
      let alloc : PageAllocator ℕ := ⟨fun n => (n, n + 1), id⟩
      let nic : Nic := ⟨fun _ _ => true, fun _ _ => true⟩
      let p₀ := DCAsyncPrefetcher.newFromRaw ⟨0⟩ ⟨0, 0, 0⟩
      let des : ChildDescriptor Unit :=
        ⟨⟨⟨List.replicate 21 0, rfl⟩, 0, 0⟩, T, [], ⟨0, 0, ⟨List.replicate 16 0, rfl⟩, 0, 0, 0, 0, 0⟩, ()⟩
      let r₀ : DCReqPayload := ⟨0x9000, (0, 4096), true, .read, 0, 0x6000, 0⟩
      nic.Reliable ∧
        DCAsyncPrefetcher.poll
            ⟨{ p₀ with pendingQueues := [⟨pt, 2, 0x9000⟩] }, h, ⟨[], [(r₀, ⟨10⟩)]⟩, 0x8001⟩ =
          .ok (.ok (.ready 0x9000), ⟨p₀, h.modify pt fun t => t.set 2
            (PhysAddr.encode (UInt64.ofNat 0x9000) PhysAddrBitFlag.prefetch.toU64).toNat,
            ⟨[], []⟩, 0x8001⟩) ∧
        readRemotePageAt alloc nic pt 1 ⟨3, 0, 1⟩ [.sync (.execute 10)]
            ⟨⟨p₀, h, WorkQueue.empty, 0x8000⟩, ⟨WorkQueue.empty, 0⟩⟩ =
          .ok (some (some 0x8000, ⟨⟨p₀, h, WorkQueue.empty, 0x8001⟩, ⟨⟨[], []⟩, 0⟩⟩, [])) ∧
        des.readRemotePageOnDemand alloc nic h 0x1000 ⟨3, 0, 1⟩ [.execute 10]
            (⟨WorkQueue.empty, 0⟩, 0x8000) =
          .ok (some (none, (⟨⟨[], []⟩, 0⟩, 0x8001), [])) := by
  obtain ⟨T, h, hmap, pt, hpt, hslot, hexec, hlookup⟩ := readRemotePageAt_first_fault_run
  have hnic : Nic.Reliable ⟨fun _ _ => true, fun _ _ => true⟩ := ⟨fun _ _ => rfl, fun _ _ => rfl⟩
  have hbit : (PhysAddr.new (UInt64.ofNat 0x9000)).bottomBit = false := by decide
  obtain ⟨hpoll, hfault, hdemand⟩ :=
    @fetch_paths_disagree_on_failed_completions ℕ Unit _ ⟨fun n => (n, n + 1), id⟩ _ hnic
  refine ⟨T, h, hmap, pt, hpt, hnic, hpoll _ _ 10 [] ⟨pt, 2, 0x9000⟩ [] rfl rfl hbit,
    hfault pt 1 ⟨3, 0, 1⟩ ⟨⟨_, h, WorkQueue.empty, 0x8000⟩, ⟨WorkQueue.empty, 0⟩⟩ _ _ 10 rfl rfl
      hslot hexec rfl,
    hdemand _ h 0x1000 0x5000 ⟨3, 0, 1⟩ ⟨WorkQueue.empty, 0⟩ 0x8000 10 hlookup rfl rfl⟩

end ChildDescriptor

/-! ## The page fault handler -/

/-- How a fault is resolved: a page read from the parent, a fresh page for an anonymous VMA, or
`SIGSEGV`. -/
inductive FaultOutcome
  | remote (page : ℕ)
  | anonymous (page : ℕ)
  | sigsegv
  deriving DecidableEq, Repr

section

variable [Paging] {P σ E : Type}

/-- `MitosisSysCallHandler::handle_page_fault` without the page cache, for either build:
`read` is the build's `read_remote_page`, `tables` the page tables it reads, `allocPage` the
allocator, and `vmaStart` the start of the faulting VMA. -/
def handlePageFault (des : ChildDescriptor P) (tables : σ → Heap PageTable)
    (allocPage : σ → ℕ × σ)
    (read : VirtAddrType → List E → σ → Except String (Option (Option ℕ × σ × List E)))
    (vmaStart faultAddr : VirtAddrType) (sched : List E) (s : σ) :
    Except String (Option (FaultOutcome × σ × List E)) := do
  let phyAddr ← des.lookupPgTable (tables s) faultAddr
  let some (newPage, s, sched) ← (if phyAddr.isNone then pure (some (none, s, sched))
      else read faultAddr sched s)
    | pure none
  match newPage with
  | some page => pure (some (.remote page, s, sched))
  | none =>
    if des.vma.any fun vd => vd.isAnonymous && vmaStart == vd.getStart then
      let (page, s) := allocPage s
      pure (some (.anonymous page, s, sched))
    else pure (some (.sigsegv, s, sched))

variable {des : ChildDescriptor P} {tables : σ → Heap PageTable} {allocPage : σ → ℕ × σ}
  {read : VirtAddrType → List E → σ → Except String (Option (Option ℕ × σ × List E))}
  {vmaStart faultAddr : VirtAddrType} {sched : List E} {s : σ}

theorem handlePageFault_of_unmapped (hp : des.lookupPgTable (tables s) faultAddr = .ok none) :
    handlePageFault des tables allocPage read vmaStart faultAddr sched s =
      .ok (some (if des.vma.any fun vd => vd.isAnonymous && vmaStart == vd.getStart then
        (.anonymous (allocPage s).1, (allocPage s).2, sched) else (.sigsegv, s, sched))) := by
  simp only [handlePageFault, hp, ok_bind, Option.isNone_none, ↓reduceIte]
  split <;> rfl

theorem handlePageFault_of_read {v : PhyAddrType} {page : ℕ} {s' : σ} {sched' : List E}
    (hp : des.lookupPgTable (tables s) faultAddr = .ok (some v))
    (hr : read faultAddr sched s = .ok (some (some page, s', sched'))) :
    handlePageFault des tables allocPage read vmaStart faultAddr sched s =
      .ok (some (.remote page, s', sched')) := by
  simp only [handlePageFault, hp, ok_bind, Option.isNone_some, Bool.false_eq_true, ↓reduceIte, hr]
  rfl

end

section

variable [Paging] {A P : Type} (alloc : PageAllocator A) (nic : Nic)

/-- `handle_page_fault` of the prefetch build: the page tables are the kernel heap the
prefetcher writes, and a mapped address is read by the prefetch `read_remote_page`. -/
def handlePageFaultPrefetch (des : ChildDescriptor P) (accessInfo : AccessInfo)
    (vmaStart faultAddr : VirtAddrType) (sched : List FaultEvent) (s : FaultState A) :
    Except String (Option (FaultOutcome × FaultState A × List FaultEvent)) :=
  handlePageFault des (fun s => s.exec.tables)
    (fun s => ((alloc.pmemAllocPage s.exec.pages).1,
      { s with exec := { s.exec with pages := (alloc.pmemAllocPage s.exec.pages).2 } }))
    (fun va sched s => ChildDescriptor.readRemotePage alloc nic des.pageTable va accessInfo sched s)
    vmaStart faultAddr sched s

/-- `handle_page_fault` without prefetching: the page tables `h` are never written, and a
mapped address is read by `remote_read`. -/
def handlePageFaultOnDemand (des : ChildDescriptor P) (h : Heap PageTable)
    (accessInfo : AccessInfo) (vmaStart faultAddr : VirtAddrType) (sched : List LinkEvent)
    (s : Link × A) : Except String (Option (FaultOutcome × (Link × A) × List LinkEvent)) :=
  handlePageFault des (fun _ => h)
    (fun s => ((alloc.pmemAllocPage s.2).1, (s.1, (alloc.pmemAllocPage s.2).2)))
    (fun va sched s => ChildDescriptor.readRemotePageOnDemand alloc nic des h va accessInfo sched s)
    vmaStart faultAddr sched s

variable {alloc nic}

theorem handlePageFaultPrefetch_of_unmapped {des : ChildDescriptor P} (accessInfo : AccessInfo)
    (vmaStart : VirtAddrType) {a : VirtAddrType} (sched : List FaultEvent) {s : FaultState A}
    (hp : des.lookupPgTable s.exec.tables a = .ok none) :
    handlePageFaultPrefetch alloc nic des accessInfo vmaStart a sched s =
      .ok (some (if des.vma.any fun vd => vd.isAnonymous && vmaStart == vd.getStart then
        (.anonymous (alloc.pmemAllocPage s.exec.pages).1,
          { s with exec := { s.exec with pages := (alloc.pmemAllocPage s.exec.pages).2 } }, sched)
        else (.sigsegv, s, sched))) := by
  unfold handlePageFaultPrefetch
  exact handlePageFault_of_unmapped hp

end

/-- Handing out a prefetched page changes how the next fault at its page is resolved. In the
prefetch build, a fault at an address whose slot holds a page the prefetcher has filled gets
that page and clears the slot; every later fault at the address then finds it unmapped and
gets the anonymous fallback or `SIGSEGV`, never a page of the parent. Without prefetching the
table is never written: a fault at a mapped address whose READ completes gets its page and
leaves the connection idle, so every repeated fault at it is read again. -/
theorem prefetch_fault_forgets_handed_out_page [Paging] {A P : Type} (alloc : PageAllocator A)
    {nic : Nic} (hnic : nic.Reliable) (accessInfo : AccessInfo) :
    (∀ (des : ChildDescriptor P) (vmaStart a : VirtAddrType) (va : VirtAddr) (s : FaultState A)
      (pt idx : ℕ) (sched : List FaultEvent),
      VirtAddr.new a = .ok va → WF des.pageTable s.exec.tables →
      des.pageTable.findL1PageIdx s.exec.tables va = some (pt, idx) →
      (PhysAddr.new (UInt64.ofNat ((s.exec.tables.get pt).entries idx))).isPrefetch = true →
      (s.exec.tables.get pt).entries idx ≠ kMagicInPrefetch.toNat →
      ∃ s₁, handlePageFaultPrefetch alloc nic des accessInfo vmaStart a sched s =
          .ok (some (.remote (PhysAddr.decode (UInt64.ofNat ((s.exec.tables.get pt).entries idx))).toNat,
            s₁, sched)) ∧
        ∀ sched', ∃ o s₂, handlePageFaultPrefetch alloc nic des accessInfo vmaStart a sched' s₁ =
          .ok (some (o, s₂, sched')) ∧ ∀ p, o ≠ .remote p) ∧
    ∀ (des : ChildDescriptor P) (h : Heap PageTable) (vmaStart a : VirtAddrType) (v : PhyAddrType)
      (l : Link) (a₀ : A),
      des.lookupPgTable h a = .ok (some v) → l.qp.sq = [] → l.qp.cq = [] →
      handlePageFaultOnDemand alloc nic des h accessInfo vmaStart a [.execute 0] (l, a₀) =
        .ok (some (.remote (alloc.pmemAllocPage a₀).1,
          ({ l with qp := ⟨[], []⟩ }, (alloc.pmemAllocPage a₀).2), [])) := by
  refine ⟨fun des vmaStart a va s pt idx sched hva hwf hf hpre hne => ?_,
    fun des h vmaStart a v l a₀ hv hsq hcq => ?_⟩
  · have hw : (s.exec.tables.get pt).entries idx ≠ 0 := fun h0 =>
      PhysAddr.ne_zero_of_isPrefetch hpre (by rw [h0]; rfl)
    refine ⟨{ s with exec := { s.exec with tables := s.exec.tables.modify pt fun t => t.set idx 0 } },
      ?_, fun sched' => ?_⟩
    · -- the first fault reads the filled slot, which `read_remote_page` hands out
      refine handlePageFault_of_read ((ChildDescriptor.lookupPgTable_of_findL1PageIdx hva hf).trans
        (by rw [if_neg hw])) ?_
      simp only [ChildDescriptor.readRemotePage, hva, ok_bind, hf]
      exact ChildDescriptor.readRemotePageAt_of_prefetched alloc nic accessInfo sched hpre hne
    · -- the cleared slot makes the address unmapped for every later fault
      have hzero : RemotePageTable.slotValue des.pageTable
          (s.exec.tables.modify pt fun t => t.set idx 0) va = 0 := by
        rw [RemotePageTable.slotValue_set_leaf hwf hf 0 va, if_pos rfl]
      have hnone : des.lookupPgTable (s.exec.tables.modify pt fun t => t.set idx 0) a = .ok none := by
        simp only [ChildDescriptor.lookupPgTable, hva, ok_bind, RemotePageTable.translate_eq, hzero,
          ↓reduceIte, Option.map_none]
        rfl
      have hfall := @handlePageFaultPrefetch_of_unmapped _ _ _ alloc nic des accessInfo vmaStart a
        sched' { s with exec := { s.exec with tables := s.exec.tables.modify pt fun t => t.set idx 0 } }
        hnone
      rw [hfall]
      split
      · exact ⟨_, _, rfl, fun p => by simp⟩
      · exact ⟨_, _, rfl, fun p => by simp⟩
  · exact handlePageFault_of_read hv
      (ChildDescriptor.readRemotePageOnDemand_of_completion alloc nic hnic hv accessInfo hsq hcq a₀ 0)

theorem findL1PageIdx_prefetched_slot :
    ∃ T h, (RemotePageTable.new Heap.empty).1.map (RemotePageTable.new Heap.empty).2
        ⟨0x1000, by decide⟩ ⟨0x9001⟩ = .ok (none, T, h) ∧
      ∃ pt, T.findL1PageIdx h ⟨0x1000, by decide⟩ = some (pt, 1) ∧ (h.get pt).entries 1 = 0x9001 ∧
        (⟨⟨⟨List.replicate 21 0, rfl⟩, 0, 0⟩, T, [], ⟨0, 0, ⟨List.replicate 16 0, rfl⟩, 0, 0, 0, 0, 0⟩,
          ()⟩ : ChildDescriptor Unit).lookupPgTable h 0x1000 = .ok (some 0x9001) :=
  ⟨_, _, rfl, _, rfl, rfl, rfl⟩

/-- Two faults at `0x1000` of a child with no VMA whose slot holds the filled page `0x9000`: the
prefetch build hands the page out and then finds the address unmapped; without prefetching,
the fault reads the page from the parent. -/
theorem prefetch_fault_forgets_handed_out_page_refault :
    ∃ T h, (RemotePageTable.new Heap.empty).1.map (RemotePageTable.new Heap.empty).2
        ⟨0x1000, by decide⟩ ⟨0x9001⟩ = .ok (none, T, h) ∧
      ∃ pt, T.findL1PageIdx h ⟨0x1000, by decide⟩ = some (pt, 1) ∧
      let alloc : PageAllocator ℕ := ⟨fun n => (n, n + 1), id⟩
      let nic : Nic := ⟨fun _ _ => true, fun _ _ => true⟩
      let des : ChildDescriptor Unit :=
        ⟨⟨⟨List.replicate 21 0, rfl⟩, 0, 0⟩, T, [], ⟨0, 0, ⟨List.replicate 16 0, rfl⟩, 0, 0, 0, 0, 0⟩, ()⟩
      let s : FaultState ℕ :=
        ⟨⟨DCAsyncPrefetcher.newFromRaw ⟨0⟩ ⟨0, 0, 0⟩, h, WorkQueue.empty, 0x8000⟩, ⟨WorkQueue.empty, 0⟩⟩
      nic.Reliable ∧ VirtAddr.new 0x1000 = .ok ⟨0x1000, by decide⟩ ∧
        WF des.pageTable s.exec.tables ∧ (s.exec.tables.get pt).entries 1 = 0x9001 ∧
        (PhysAddr.new (UInt64.ofNat ((s.exec.tables.get pt).entries 1))).isPrefetch = true ∧
        (s.exec.tables.get pt).entries 1 ≠ kMagicInPrefetch.toNat ∧
        (∃ s₁, handlePageFaultPrefetch alloc nic des ⟨3, 0, 1⟩ 0 0x1000 [] s =
            .ok (some (.remote (PhysAddr.decode (UInt64.ofNat ((s.exec.tables.get pt).entries 1))).toNat,
              s₁, [])) ∧
          ∀ sched', ∃ o s₂, handlePageFaultPrefetch alloc nic des ⟨3, 0, 1⟩ 0 0x1000 sched' s₁ =
            .ok (some (o, s₂, sched')) ∧ ∀ p, o ≠ .remote p) ∧
        des.lookupPgTable h 0x1000 = .ok (some 0x9001) ∧
        handlePageFaultOnDemand alloc nic des h ⟨3, 0, 1⟩ 0 0x1000 [.execute 0]
            (⟨WorkQueue.empty, 0⟩, 0x8000) =
          .ok (some (.remote 0x8000, (⟨⟨[], []⟩, 0⟩, 0x8001), [])) := by
  obtain ⟨T, h, hmap, pt, hpt, hval, hlookup⟩ := findL1PageIdx_prefetched_slot
  have hnic : Nic.Reliable ⟨fun _ _ => true, fun _ _ => true⟩ := ⟨fun _ _ => rfl, fun _ _ => rfl⟩
  have hwf : WF T h :=
    (Reached.map (Reached.new heapWF_empty interior_empty) hmap).treeWF.wf
  have hpre : (PhysAddr.new (UInt64.ofNat ((h.get pt).entries 1))).isPrefetch = true := by
    rw [hval]; rfl
  have hne : (h.get pt).entries 1 ≠ kMagicInPrefetch.toNat := by rw [hval]; decide
  obtain ⟨hfault, hdemand⟩ := prefetch_fault_forgets_handed_out_page
    (⟨fun n => (n, n + 1), id⟩ : PageAllocator ℕ) hnic (P := Unit) ⟨3, 0, 1⟩
  exact ⟨T, h, hmap, pt, hpt, hnic, rfl, hwf, hval, hpre, hne,
    hfault _ 0 0x1000 ⟨0x1000, by decide⟩ _ pt 1 [] rfl hwf hpt hpre hne, hlookup,
    hdemand _ h 0 0x1000 0x9001 ⟨WorkQueue.empty, 0⟩ 0x8000 hlookup rfl rfl⟩

end Mitosis
