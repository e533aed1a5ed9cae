import Mitosis.RemotePaging
import Mitosis.RemoteMapping.Iter
import Mitosis.Prefetcher.Strategies

/-!
# The asynchronous prefetcher

A `DCAsyncPrefetcher` owns one DC connection and a FIFO of the prefetch requests it has
posted and not yet seen complete. Each entry names the level-one slot the request will
fill and the local page that receives the data.

`execute_reqs` draws requests from a page-table iterator through a strategy and, for each,
reads the slot again: a slot whose bottom bit is set is left; otherwise it is marked
`K_MAGIC_IN_PREFETCH`, a local page is allocated, a signaled READ of the remote page into it
is posted, and the slot and page join the FIFO. The page allocator and the NIC are outside
the repository and are parameters.

On a reached table the requests name distinct slots, so each is read again as the iterator
found it: every request is executed, in order.
-/
namespace Mitosis
open OsNetwork X86_64

/-- A posted prefetch: the level-one table `pt` and index `idx` of the slot to update, and
the local page (a `struct page` pointer) that receives the remote page. -/
structure ReplyEntry where
  pt : ℕ
  idx : ℕ
  userPage : ℕ
  deriving DecidableEq, Repr

structure DCAsyncPrefetcher where
  conn : DCConn
  pendingQueues : List ReplyEntry
  accessInfo : AccessInfo
  deriving DecidableEq, Repr

namespace DCAsyncPrefetcher

/-- `new_from_raw`: no request pending. -/
def newFromRaw (conn : DCConn) (accessInfo : AccessInfo) : DCAsyncPrefetcher :=
  ⟨conn, [], accessInfo⟩

def numPending (self : DCAsyncPrefetcher) : ℕ := self.pendingQueues.length

end DCAsyncPrefetcher

/-! ## Executing requests -/

/-- The kernel's page allocator: `pmem_alloc_page` hands out a page (a `struct page`
pointer), and `pmem_page_to_virt` gives its kernel address. -/
structure PageAllocator (A : Type) where
  pmemAllocPage : A → ℕ × A
  pmemPageToVirt : ℕ → ℕ

namespace PageAllocator

variable {A : Type} (alloc : PageAllocator A)

/-- The first `n` pages the allocator hands out from `a`, and its state after them. -/
def allocPages : ℕ → A → List ℕ × A
  | 0, a => ([], a)
  | n + 1, a =>
    let (u, a) := alloc.pmemAllocPage a
    let (us, a) := allocPages n a
    (u :: us, a)

@[simp] theorem allocPages_zero (a : A) : alloc.allocPages 0 a = ([], a) := rfl

@[simp] theorem allocPages_succ (n : ℕ) (a : A) :
    alloc.allocPages (n + 1) a =
      ((alloc.pmemAllocPage a).1 :: (alloc.allocPages n (alloc.pmemAllocPage a).2).1,
        (alloc.allocPages n (alloc.pmemAllocPage a).2).2) := rfl

end PageAllocator

/-- What `execute_reqs` reads and writes besides its requests: the prefetcher, the page tables
its requests point into, the queue pair of its connection, and the page allocator. -/
structure ExecState (A : Type) where
  prefetcher : DCAsyncPrefetcher
  tables : Heap PageTable
  qp : Qp
  pages : A

/-- A strategy, `Prefetch<N>` for page entries: the requests it draws from an iterator, given
the iterator's `next` and its start. -/
abbrev Strategy (N : ℕ) : Type :=
  (RemotePageTableIter → Option PageEntry × RemotePageTableIter) → RemotePageTableIter →
    PrefetchRequests PageEntry N

/-- `StepPrefetcher::<PageEntry, N>::new()`. The iterator yields at most one entry for each of
the `ENTRY_COUNT ^ 4` virtual pages, so one item more bounds the source's unbounded loop. -/
def stepPrefetcher (N : ℕ) : Strategy N := fun next =>
  StepPrefetcher.generateRequest next PageEntry.needPrefetch N (entryCount ^ levelCount + 1)

/-- `ConstPrefetcher::<PageEntry, N>::new()`. -/
def constPrefetcher (N : ℕ) : Strategy N := fun next =>
  ConstPrefetcher.generateRequest next PageEntry.needPrefetch N

namespace DCAsyncPrefetcher

variable {A : Type} (alloc : PageAllocator A) (nic : Nic)

/-- One round of the loop of `execute_reqs`, on the request `req`. -/
def executeReq (s : ExecState A) (req : PageEntry) : Except String (ExecState A) := do
  let phyaddr := PhysAddr.new (UInt64.ofNat ((s.tables.get req.page).entries req.index))
  -- prefetched, or at least in the list
  if phyaddr.bottomBit then return s
  let remotePa := phyaddr.realAddr
  let tables := s.tables.modify req.page fun pt => pt.set req.index kMagicInPrefetch.toNat
  let (userPage, pages) := alloc.pmemAllocPage s.pages
  let newPageVa := alloc.pmemPageToVirt userPage
  let mr ← unwrapResult (MemoryRegion.newFromRaw nic newPageVa 4096)
  let payload : DCReqPayload := ⟨mr, (0, 4096), true, .read, s.prefetcher.accessInfo.rkey,
    remotePa, s.prefetcher.accessInfo.accessHandler⟩
  let qp ← unwrapResult (DCConn.post nic s.qp payload)
  return ⟨{ s.prefetcher with
      pendingQueues := s.prefetcher.pendingQueues ++ [⟨req.page, req.index, userPage⟩] },
    tables, qp, pages⟩

/-- `execute_reqs`: the requests the strategy draws from `iter`, executed in order. -/
def executeReqs {N : ℕ} (strategy : Strategy N) (iter : RemotePageTableIter) (s : ExecState A) :
    Except String (ExecState A) :=
  (strategy (RemotePageTableIter.next s.tables) iter).inner.foldlM (executeReq alloc nic) s

variable {alloc nic}

theorem executeReq_of_bottomBit {s : ExecState A} {req : PageEntry}
    (hb : (PhysAddr.new (UInt64.ofNat ((s.tables.get req.page).entries req.index))).bottomBit) :
    executeReq alloc nic s req = .ok s := by
  simp [executeReq, hb, pure, Except.pure]

/-- A slot whose bottom bit is clear is marked, and a READ of the address it held into a fresh
page is posted and recorded. -/
theorem executeReq_of_not_bottomBit (hnic : nic.Reliable) {s : ExecState A} {req : PageEntry}
    (hb : (PhysAddr.new (UInt64.ofNat ((s.tables.get req.page).entries req.index))).bottomBit =
      false) :
    executeReq alloc nic s req = .ok ⟨{ s.prefetcher with
        pendingQueues := s.prefetcher.pendingQueues ++
          [⟨req.page, req.index, (alloc.pmemAllocPage s.pages).1⟩] },
      s.tables.modify req.page (fun pt => pt.set req.index kMagicInPrefetch.toNat),
      WorkQueue.post s.qp ⟨alloc.pmemPageToVirt (alloc.pmemAllocPage s.pages).1, (0, 4096), true,
        .read, s.prefetcher.accessInfo.rkey,
        (PhysAddr.new (UInt64.ofNat ((s.tables.get req.page).entries req.index))).realAddr,
        s.prefetcher.accessInfo.accessHandler⟩,
      (alloc.pmemAllocPage s.pages).2⟩ := by
  simp [executeReq, hb, MemoryRegion.newFromRaw_of_registers (hnic.registers _ _),
    DCConn.post_of_accepts (hnic.accepts _ _)]

theorem executeReq_of_refused {s : ExecState A} {req : PageEntry}
    (hb : (PhysAddr.new (UInt64.ofNat ((s.tables.get req.page).entries req.index))).bottomBit =
      false)
    (hreg : ∀ va len, nic.registers va len = true) (hrefuse : ∀ q r, nic.accepts q r = false) :
    executeReq alloc nic s req = .error "called Result::unwrap() on an Err value" := by
  simp [executeReq, hb, MemoryRegion.newFromRaw_of_registers (hreg _ _),
    DCConn.post_of_not_accepts (hrefuse _ _)]

/-! ## A run of requests on distinct slots -/

theorem entries_get_modify_set_of_ne (h : Heap PageTable) {p i v q j : ℕ} (hne : (q, j) ≠ (p, i)) :
    ((h.modify p fun t => t.set i v).get q).entries j = (h.get q).entries j := by
  by_cases hq : q = p
  · subst hq
    have hj : j ≠ i := fun hj => hne (by rw [hj])
    cases hp : h.read q <;> simp [Heap.get, hp, hj]
  · rw [Heap.get_modify_of_ne _ _ hq]

/-- The table at `p` with those of its slots that `keys` names marked `K_MAGIC_IN_PREFETCH`. -/
def markInPrefetch (keys : List (ℕ × ℕ)) (p : ℕ) (t : PageTable) : PageTable :=
  { t with entries := fun i => if (p, i) ∈ keys then kMagicInPrefetch.toNat else t.entries i }

@[simp] theorem markInPrefetch_nil (p : ℕ) : markInPrefetch [] p = id := by
  funext t
  simp [markInPrefetch]

/-- Marking a first slot is a write into its table. -/
theorem markInPrefetch_cons (keys : List (ℕ × ℕ)) (q i p : ℕ) :
    markInPrefetch ((q, i) :: keys) p = if p = q then
      markInPrefetch keys p ∘ fun t => t.set i kMagicInPrefetch.toNat else markInPrefetch keys p := by
  funext t
  by_cases hp : p = q
  · subst hp
    simp only [markInPrefetch, List.mem_cons, Prod.mk.injEq, true_and, if_true, PageTable.set,
      Function.comp_apply]
    congr 1
    funext j
    by_cases hj : j = i <;> simp [hj]
  · simp [markInPrefetch, hp]

variable (alloc) in
/-- What executing `reqs` from `s` leaves in `s'`, each request naming its own slot, in the
order of `reqs`: the allocator has handed out one page per request; the slot of each request
and no other is marked `K_MAGIC_IN_PREFETCH`; one signaled READ per request, of the address in
the request into its page, has joined the send queue; and one entry per request has joined
`pending_queues`. -/
structure Prefetched (s s' : ExecState A) (reqs : List PageEntry) : Prop where
  pages : s'.pages = (alloc.allocPages reqs.length s.pages).2
  tables : ∀ p, s'.tables.read p =
    (s.tables.read p).map (markInPrefetch (reqs.map fun e => (e.page, e.index)) p)
  next : s'.tables.next = s.tables.next
  qp : s'.qp = ⟨s.qp.sq ++ List.zipWith (fun e u => (⟨alloc.pmemPageToVirt u, (0, 4096), true,
      .read, s.prefetcher.accessInfo.rkey, e.addr.realAddr,
      s.prefetcher.accessInfo.accessHandler⟩ : DCReqPayload)) reqs
      (alloc.allocPages reqs.length s.pages).1, s.qp.cq⟩
  prefetcher : s'.prefetcher = { s.prefetcher with
    pendingQueues := s.prefetcher.pendingQueues ++ List.zipWith (fun e u => (⟨e.page, e.index, u⟩ :
      ReplyEntry)) reqs (alloc.allocPages reqs.length s.pages).1 }

theorem prefetched_nil (s : ExecState A) : Prefetched alloc s s [] where
  pages := rfl
  tables := fun p => by simp
  next := rfl
  qp := by simp
  prefetcher := by simp

/-- A request executed first, then the rest. -/
theorem Prefetched.cons (hnic : nic.Reliable) {s s₁ s' : ExecState A} {e : PageEntry}
    {rest : List PageEntry}
    (hv : e.addr = PhysAddr.new (UInt64.ofNat ((s.tables.get e.page).entries e.index)))
    (hb : e.addr.bottomBit = false) (hstep : executeReq alloc nic s e = .ok s₁)
    (hp : Prefetched alloc s₁ s' rest) : Prefetched alloc s s' (e :: rest) := by
  rw [executeReq_of_not_bottomBit hnic (hv ▸ hb), Except.ok.injEq] at hstep
  subst hstep
  obtain ⟨hpages, htables, hnext, hqp, hpre⟩ := hp
  refine ⟨by simpa using hpages, fun p => ?_, by simpa using hnext, ?_, ?_⟩
  · rw [htables p, Heap.read_modify]
    by_cases hpe : p = e.page
    · subst hpe
      cases s.tables.read e.page <;> simp [markInPrefetch_cons]
    · simp [hpe, markInPrefetch_cons]
  · rw [hqp, ← hv]
    simp
  · rw [hpre]
    simp

variable (alloc nic) in
/-- Requests on distinct slots, each with the value its slot holds and that value's bottom
bit clear, are all executed, in order. The induction is on the requests; a write into the
slot of one leaves the value of every later one. -/
theorem foldlM_executeReq (hnic : nic.Reliable) : ∀ (reqs : List PageEntry) (s : ExecState A),
    (reqs.map fun e => (e.page, e.index)).Nodup → (∀ e ∈ reqs, e.needPrefetch = true) →
    (∀ e ∈ reqs, e.addr = PhysAddr.new (UInt64.ofNat ((s.tables.get e.page).entries e.index))) →
      ∃ s', reqs.foldlM (executeReq alloc nic) s = .ok s' ∧ Prefetched alloc s s' reqs
  | [], s, _, _, _ => ⟨s, rfl, prefetched_nil s⟩
  | e :: rest, s, hnd, hneed, hv => by
    have hve := hv e (List.mem_cons_self ..)
    have hb : e.addr.bottomBit = false := by
      simpa [PageEntry.needPrefetch] using hneed e (List.mem_cons_self ..)
    obtain ⟨s₁, hstep⟩ : ∃ s₁, executeReq alloc nic s e = .ok s₁ :=
      ⟨_, executeReq_of_not_bottomBit hnic (hve ▸ hb)⟩
    have htables : s₁.tables = s.tables.modify e.page fun pt => pt.set e.index kMagicInPrefetch.toNat := by
      rw [executeReq_of_not_bottomBit hnic (hve ▸ hb), Except.ok.injEq] at hstep
      rw [← hstep]
    rw [List.map_cons, List.nodup_cons] at hnd
    -- the later requests are on other slots, which the first write leaves
    have hv' : ∀ e' ∈ rest,
        e'.addr = PhysAddr.new (UInt64.ofNat ((s₁.tables.get e'.page).entries e'.index)) := by
      intro e' he'
      have hne : (e'.page, e'.index) ≠ (e.page, e.index) := fun heq =>
        hnd.1 (heq ▸ List.mem_map_of_mem he')
      rw [htables, entries_get_modify_set_of_ne _ hne]
      exact hv e' (List.mem_cons_of_mem _ he')
    obtain ⟨s', hrun, hp⟩ := foldlM_executeReq hnic rest s₁ hnd.2
      (fun e' he' => hneed e' (List.mem_cons_of_mem _ he')) hv'
    refine ⟨s', ?_, hp.cons hnic hve hb hstep⟩
    rw [List.foldlM_cons, hstep]
    exact hrun

/-- Requests drawn in order from the entries the iterator yields for the slots of a tree, each
needing a prefetch, are all executed: they name distinct slots and carry their values. -/
theorem foldlM_executeReq_of_sublist (hnic : nic.Reliable) {T : RemotePageTable}
    {h : Heap PageTable} (hwf : WF T h) {reqs : List PageEntry}
    (hsub : reqs.Sublist ((T.slots h).map (Slot.toEntry h)))
    (hneed : ∀ e ∈ reqs, e.needPrefetch = true) (s : ExecState A) (hs : s.tables = h) :
    ∃ s', reqs.foldlM (executeReq alloc nic) s = .ok s' ∧ Prefetched alloc s s' reqs := by
  subst hs
  refine foldlM_executeReq alloc nic hnic reqs s ?_ hneed fun e he => ?_
  · have hnd := (hsub.map fun e => (e.page, e.index)).nodup
    rw [List.map_map] at hnd
    exact hnd (RemotePageTable.nodup_slots_table_index hwf)
  · obtain ⟨x, -, rfl⟩ := List.mem_map.mp (hsub.subset he)
    rfl

end DCAsyncPrefetcher

section

variable [Paging]

/-- `execute_reqs` from the slot of an address of a reached table, with a NIC that takes every
post. Let `pgs` be the strictly increasing list of the virtual pages whose slot holds a
non-zero value, and the candidates the entries of the pages of `pgs` after the address's. With
`StepPrefetcher` the requests are the first `N` candidates whose value has the bottom bit
clear; with `ConstPrefetcher` those of the first `N` candidates. Each request is executed in
order: its slot is marked, a READ of its value into a fresh page is posted, and it joins
`pending_queues`; no other slot changes. -/
theorem executeReqs_prefetches_next_slots {T : RemotePageTable} {h : Heap PageTable}
    (hr : Reached T h) {A : Type} (alloc : PageAllocator A) {nic : Nic} (hnic : nic.Reliable)
    (self : DCAsyncPrefetcher) (q : Qp) (pages : A) (N : ℕ) :
    ∃ pgs : List ℕ, pgs.Pairwise (· < ·) ∧ (∀ pg, pg ∈ pgs ↔ pg < 2 ^ 36 ∧ T.pageValue h pg ≠ 0) ∧
      ∀ a pt i, T.findL1PageIdx h a = some (pt, i) →
        (∃ s', DCAsyncPrefetcher.executeReqs alloc nic (stepPrefetcher N)
            (RemotePageTableIter.newFromL1 pt i) ⟨self, h, q, pages⟩ = .ok s' ∧
          DCAsyncPrefetcher.Prefetched alloc ⟨self, h, q, pages⟩ s'
            ((((pgs.filter (RemotePageTable.vpn a < ·)).map (T.pageEntry h)).filter
              PageEntry.needPrefetch).take N)) ∧
        (∃ s', DCAsyncPrefetcher.executeReqs alloc nic (constPrefetcher N)
            (RemotePageTableIter.newFromL1 pt i) ⟨self, h, q, pages⟩ = .ok s' ∧
          DCAsyncPrefetcher.Prefetched alloc ⟨self, h, q, pages⟩ s'
            ((((pgs.filter (RemotePageTable.vpn a < ·)).map (T.pageEntry h)).take N).filter
              PageEntry.needPrefetch)) := by
  have hT := hr.treeWF
  refine ⟨(T.slots h).map Slot.page, List.pairwise_map.mpr (T.pairwise_slots h),
    fun pg => RemotePageTable.mem_map_page_slots, fun a pt i hf => ?_⟩
  rw [RemotePageTable.map_pageEntry_filter]
  have hl := RemotePageTableIter.yields_after hT hf
  have hsub : (((T.slots h).filter fun s => RemotePageTable.vpn a < s.page).map
      (Slot.toEntry h)).Sublist ((T.slots h).map (Slot.toEntry h)) :=
    List.filter_sublist.map _
  -- the iterator ends before the strategy's bound
  have hlen : (((T.slots h).filter fun s => RemotePageTable.vpn a < s.page).map
      (Slot.toEntry h)).length < entryCount ^ levelCount + 1 := by
    have hslots := T.length_slots_le h
    have hfilter := List.length_filter_le (fun s => decide (RemotePageTable.vpn a < s.page))
      (T.slots h)
    simp only [List.length_map, entryCount, levelCount]
    omega
  constructor
  · simp only [DCAsyncPrefetcher.executeReqs, stepPrefetcher]
    rw [StepPrefetcher.generateRequest_inner hl hlen]
    exact DCAsyncPrefetcher.foldlM_executeReq_of_sublist hnic hT.wf
      (((List.take_sublist _ _).trans List.filter_sublist).trans hsub)
      (fun e he => (List.mem_filter.mp (List.mem_of_mem_take he)).2) _ rfl
  · simp only [DCAsyncPrefetcher.executeReqs, constPrefetcher]
    rw [ConstPrefetcher.generateRequest_inner hl]
    exact DCAsyncPrefetcher.foldlM_executeReq_of_sublist hnic hT.wf
      ((List.filter_sublist.trans (List.take_sublist _ _)).trans hsub)
      (fun e he => (List.mem_filter.mp he).2) _ rfl

end

/-- The hypotheses are met by a table with a page in each of two level-one tables, where a
slot is found, and a NIC that takes every post. -/
theorem executeReqs_prefetches_next_slots_two_tables :
    ∃ T h, Reached T h ∧ T.pageValue h 1 = 0x5000 ∧ T.pageValue h 512 = 0x6000 ∧
      (∃ a pt i, T.findL1PageIdx h a = some (pt, i)) ∧
      Nic.Reliable ⟨fun _ _ => true, fun _ _ => true⟩ ∧
      ∃ pgs : List ℕ, pgs.Pairwise (· < ·) ∧
        (∀ pg, pg ∈ pgs ↔ pg < 2 ^ 36 ∧ T.pageValue h pg ≠ 0) ∧
        ∀ a pt i, T.findL1PageIdx h a = some (pt, i) →
          (∃ s', DCAsyncPrefetcher.executeReqs (⟨fun n => (n, n + 1), id⟩ : PageAllocator ℕ)
              ⟨fun _ _ => true, fun _ _ => true⟩ (stepPrefetcher 2)
              (RemotePageTableIter.newFromL1 pt i)
              ⟨DCAsyncPrefetcher.newFromRaw ⟨0⟩ ⟨0, 0, 0⟩, h, WorkQueue.empty, 1⟩ = .ok s' ∧
            DCAsyncPrefetcher.Prefetched ⟨fun n => (n, n + 1), id⟩
              ⟨DCAsyncPrefetcher.newFromRaw ⟨0⟩ ⟨0, 0, 0⟩, h, WorkQueue.empty, 1⟩ s'
              ((((pgs.filter (RemotePageTable.vpn a < ·)).map (T.pageEntry h)).filter
                PageEntry.needPrefetch).take 2)) ∧
          (∃ s', DCAsyncPrefetcher.executeReqs (⟨fun n => (n, n + 1), id⟩ : PageAllocator ℕ)
              ⟨fun _ _ => true, fun _ _ => true⟩ (constPrefetcher 2)
              (RemotePageTableIter.newFromL1 pt i)
              ⟨DCAsyncPrefetcher.newFromRaw ⟨0⟩ ⟨0, 0, 0⟩, h, WorkQueue.empty, 1⟩ = .ok s' ∧
            DCAsyncPrefetcher.Prefetched ⟨fun n => (n, n + 1), id⟩
              ⟨DCAsyncPrefetcher.newFromRaw ⟨0⟩ ⟨0, 0, 0⟩, h, WorkQueue.empty, 1⟩ s'
              ((((pgs.filter (RemotePageTable.vpn a < ·)).map (T.pageEntry h)).take 2).filter
                PageEntry.needPrefetch)) := by
  obtain ⟨T, h, hr, hv₁, hv₂, -, pt₁, -, -, -, -, a, hf⟩ := reached_two_level_one_tables
  have hnic : Nic.Reliable ⟨fun _ _ => true, fun _ _ => true⟩ := ⟨fun _ _ => rfl, fun _ _ => rfl⟩
  exact ⟨T, h, hr, hv₁, hv₂, ⟨a, pt₁, 1, hf⟩, hnic,
    executeReqs_prefetches_next_slots hr _ hnic _ _ _ 2⟩

/-! ## Completions of the prefetches -/

namespace ExecState

variable {A : Type}

/-- What the NIC does on the prefetcher's connection between two polls: it executes the
oldest request, with the status of its completion, or nothing happens there. -/
def tick : LinkEvent → ExecState A → ExecState A
  | .execute status, s => { s with qp := WorkQueue.execute DCReqPayload.signaled ⟨status⟩ s.qp }
  | .elapse _, s => s

@[simp] theorem tables_tick (e : LinkEvent) (s : ExecState A) : (s.tick e).tables = s.tables := by
  cases e <;> rfl

@[simp] theorem prefetcher_tick (e : LinkEvent) (s : ExecState A) :
    (s.tick e).prefetcher = s.prefetcher := by
  cases e <;> rfl

@[simp] theorem pages_tick (e : LinkEvent) (s : ExecState A) : (s.tick e).pages = s.pages := by
  cases e <;> rfl

end ExecState

namespace DCAsyncPrefetcher

variable {A : Type}

/-- `<DCAsyncPrefetcher as Future>::poll`: a completion on the connection, whatever its
status, belongs to the oldest pending request, whose slot gets the request's page encoded with
the `Prefetch` flag; the page is the answer. A completion with no request pending fails the
`unwrap`, and a page whose bottom bit is set fails the assertion. -/
def poll (s : ExecState A) : Except String (Except DatapathError (Future.Async ℕ) × ExecState A) := do
  let (r, qp) ← DCConn.poll s.qp
  let s := { s with qp }
  match r with
  | .ok (.ready _) =>
    let v ← unwrap s.prefetcher.pendingQueues.head?
    if (PhysAddr.new (UInt64.ofNat v.userPage)).bottomBit then
      throw "assertion failed: PhysAddr::new(v.user_page as _).bottom_bit() == false"
    let tables := s.tables.modify v.pt fun pt =>
      pt.set v.idx (PhysAddr.encode (UInt64.ofNat v.userPage) PhysAddrBitFlag.prefetch.toU64).toNat
    pure (.ok (.ready v.userPage), { s with
      prefetcher := { s.prefetcher with pendingQueues := s.prefetcher.pendingQueues.tail },
      tables })
  | .ok .notReady => pure (.ok .notReady, s)
  | .error e => pure (.error e, s)

/-- `drain_connections`: poll until no request is pending, then give the connection. The NIC
moves between the rounds of the loop; `none` is a loop that has not ended when the schedule
does. -/
def drainConnections : List LinkEvent → ExecState A →
    Except String (Option (Except DatapathError DCConn × ExecState A × List LinkEvent))
  | ts, s =>
    if s.prefetcher.pendingQueues = [] then pure (some (.ok s.prefetcher.conn, s, ts)) else
    match ts with
    | [] => pure none
    | t :: ts => do
      let (r, s) ← poll (s.tick t)
      match r with
      | .error e => pure (some (.error e, s, ts))
      | .ok _ => drainConnections ts s

theorem poll_of_cq_nil {s : ExecState A} (h : s.qp.cq = []) : poll s = .ok (.ok .notReady, s) := by
  simp only [poll, DCConn.poll_of_cq_nil h]
  rfl

/-- A completion fills the slot of the oldest pending request, whatever its status. -/
theorem poll_of_cq_cons {s : ExecState A} {e : DCReqPayload × IbWc}
    {rest : List (DCReqPayload × IbWc)} (hcq : s.qp.cq = e :: rest) {v : ReplyEntry}
    {vs : List ReplyEntry} (hpend : s.prefetcher.pendingQueues = v :: vs)
    (hbit : (PhysAddr.new (UInt64.ofNat v.userPage)).bottomBit = false) :
    poll s = .ok (.ok (.ready v.userPage), { s with
      qp := { s.qp with cq := rest },
      prefetcher := { s.prefetcher with pendingQueues := vs },
      tables := s.tables.modify v.pt fun pt =>
        pt.set v.idx (PhysAddr.encode (UInt64.ofNat v.userPage) PhysAddrBitFlag.prefetch.toU64).toNat }) := by
  simp only [poll, DCConn.poll_of_cq_cons hcq, hpend, List.head?_cons, unwrap_some, hbit,
    ok_bind, Bool.false_eq_true, ↓reduceIte, List.tail_cons]
  rfl

end DCAsyncPrefetcher

end Mitosis
