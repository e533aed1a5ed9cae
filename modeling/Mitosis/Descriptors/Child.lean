import Mitosis.Descriptors.Parent
import Mitosis.RemoteMapping.PageTable
import Mitosis.Prefetcher.Executor

/-!
# The child descriptor

A child resumes from a `ChildDescriptor`: the parent's registers, VMAs and machine info,
and a remote page table that maps every page the parent recorded. There are two ways to
build one. `ChildDescriptor::deserialize` decodes the parent's wire format and parses the
compact tables inline, without `CompactPageTable::deserialize`, mapping each entry as it
reads it. `ParentDescriptor::to_descriptor` converts a parent descriptor in memory. Both
map entry `(offset, value)` of a VMA starting at `start` at
`VirtAddr::new(offset as u64 + start)`.

The prefetch build also gives the child a prefetcher. `deserialize` pops a connection of
the async DC pool and makes the access info of the parent's machine, and returns `None`
when either fails. `to_descriptor` panics in the same cases. `AccessInfo::new` builds an
RDMA address handle in the driver, so it is a parameter here.
-/
namespace Mitosis
open OsNetwork X86_64

/-- The descriptor a child resumes from. `P` is what the prefetch build adds, its
prefetcher; the other builds have `Unit`. -/
structure ChildDescriptor (P : Type) where
  regs : RegDescriptor
  pageTable : RemotePageTable
  vma : List VMADescriptor
  machineInfo : RDMADescriptor
  prefetcher : P

section

variable [Paging]

/-- `VirtAddr::new(offset as VirtAddrType + start)`, the address of an entry of a VMA's
compact table; the `u64` addition is checked. -/
def entryAddr (offset : Offset) (start : VirtAddrType) : Except String VirtAddr := do
  let addr ← checkedAdd offset.toNat start.toNat
  VirtAddr.new (UInt64.ofNat addr)

namespace ChildDescriptor

variable {P : Type}

/-- `lookup_pg_table`: the value the table holds for an address's page. -/
def lookupPgTable (self : ChildDescriptor P) (h : Heap PageTable) (virt : VirtAddrType) :
    Except String (Option PhyAddrType) := do
  let addr ← VirtAddr.new virt
  pure ((self.pageTable.translate h addr).map PhysAddr.asU64)

theorem lookupPgTable_of_findL1PageIdx {self : ChildDescriptor P} {h : Heap PageTable}
    {virt : VirtAddrType} {addr : VirtAddr} (hva : VirtAddr.new virt = .ok addr) {pt idx : ℕ}
    (hf : self.pageTable.findL1PageIdx h addr = some (pt, idx)) :
    self.lookupPgTable h virt =
      .ok (if (h.get pt).entries idx = 0 then none else some (UInt64.ofNat ((h.get pt).entries idx))) := by
  by_cases hz : (h.get pt).entries idx = 0 <;>
    simp [lookupPgTable, hva, RemotePageTable.translate, hf, hz, PhysAddr.asU64, PhysAddr.new,
      pure, Except.pure]

/-- The page loop of `deserialize`: `page_num` unaligned `(u32, u64)` entries, each mapped
as soon as it is read. The answer of `map` is dropped. -/
def deserializePages (m : Memory) (vmaStart : VirtAddrType) :
    ℕ → BytesMut → RemotePageTable → Heap PageTable →
      Except String (Option (BytesMut × RemotePageTable × Heap PageTable))
  | 0, cur, pt, h => pure (some (cur, pt, h))
  | n + 1, cur, pt, h => do
    let virt : Offset := cur.readUnalignedAtHead m
    let some cur := cur.truncateHeader (Pod.size Offset) | pure none
    let phy : Value := cur.readUnalignedAtHead m
    let some cur := cur.truncateHeader (Pod.size Value) | pure none
    let addr ← entryAddr virt vmaStart
    let (_, pt, h) ← pt.map h addr (PhysAddr.new phy)
    deserializePages m vmaStart n cur pt h

/-- The VMA loop of `deserialize`: `count` VMA descriptors, each followed by its compact
table: the entry count, the pad after an odd count (the block of
`CompactPageTable::deserialize`, repeated inline), and the entries. -/
def deserializeVmas (m : Memory) : ℕ → BytesMut → RemotePageTable → Heap PageTable →
    Except String (Option (List VMADescriptor × BytesMut × RemotePageTable × Heap PageTable))
  | 0, cur, pt, h => pure (some ([], cur, pt, h))
  | n + 1, cur, pt, h => do
    let some (vma : VMADescriptor) := Serialize.deserialize cur m | pure none
    let some cur := cur.truncateHeader (Serialize.serializationBufLen vma) | pure none
    let vmaStart := vma.getStart
    let some ((pageNum : UInt64), off) := cur.memcpyDeserialize m | pure none
    let some cur := cur.truncateHeader off | pure none
    let some cur := CompactPageTable.deserializePad pageNum.toNat cur m | pure none
    let some (cur, pt, h) ← deserializePages m vmaStart pageNum.toNat cur pt h | pure none
    let some (vmas, cur, pt, h) ← deserializeVmas m n cur pt h | pure none
    pure (some (vma :: vmas, cur, pt, h))

/-- What every build of `deserialize` decodes: the registers, the VMAs with their pages
mapped into a new remote page table, and the machine info. -/
def deserializeParts (bytes : BytesMut) (m : Memory) (h : Heap PageTable) :
    Except String (Option
      (RegDescriptor × RemotePageTable × List VMADescriptor × RDMADescriptor × Heap PageTable)) := do
  let cur ← unwrap (bytes.truncateHeader 0)
  let some (regs : RegDescriptor) := Serialize.deserialize cur m | pure none
  let some cur := cur.truncateHeader (Serialize.serializationBufLen regs) | pure none
  let some ((count : UInt64), off) := cur.memcpyDeserialize m | pure none
  let some cur := cur.truncateHeader off | pure none
  let (pt, h) := RemotePageTable.new h
  let some (vmas, cur, pt, h) ← deserializeVmas m count.toNat cur pt h | pure none
  let some (machineInfo : RDMADescriptor) := Serialize.deserialize cur m | pure none
  pure (some (regs, pt, vmas, machineInfo, h))

/-- `ChildDescriptor::deserialize` without the prefetch feature. -/
def deserialize (bytes : BytesMut) (m : Memory) (h : Heap PageTable) :
    Except String (Option (ChildDescriptor Unit × Heap PageTable)) := do
  let some (regs, pageTable, vma, machineInfo, h) ← deserializeParts bytes m h | pure none
  pure (some (⟨regs, pageTable, vma, machineInfo, ()⟩, h))

/-- `ChildDescriptor::deserialize` of the prefetch build: the prefetcher gets a connection
popped from the async DC pool and the access info of the parent's machine. -/
def deserializePrefetch (accessInfoNew : RDMADescriptor → Option AccessInfo) (bytes : BytesMut)
    (m : Memory) (h : Heap PageTable) (pool : DCPool) :
    Except String (Option (ChildDescriptor DCAsyncPrefetcher × Heap PageTable) × DCPool) := do
  let some (regs, pageTable, vma, machineInfo, h) ← deserializeParts bytes m h
    | pure (none, pool)
  let (some prefetchConn, pool) := pool.popOneQp | pure (none, pool)
  let some accessInfo := accessInfoNew machineInfo | pure (none, pool)
  pure (some (⟨regs, pageTable, vma, machineInfo,
    DCAsyncPrefetcher.newFromRaw prefetchConn accessInfo⟩, h), pool)

/-- Once the parts are decoded and the pool holds a connection, the last connection is
popped, and the descriptor is built exactly when the access info is made. -/
theorem deserializePrefetch_of_parts {accessInfoNew : RDMADescriptor → Option AccessInfo}
    {bytes : BytesMut} {m : Memory} {h h' : Heap PageTable} {pool : DCPool} {regs : RegDescriptor}
    {pageTable : RemotePageTable} {vma : List VMADescriptor} {machineInfo : RDMADescriptor}
    (hparts : deserializeParts bytes m h = .ok (some (regs, pageTable, vma, machineInfo, h')))
    (hpool : pool.pool ≠ []) :
    deserializePrefetch accessInfoNew bytes m h pool =
      .ok ((accessInfoNew machineInfo).map fun accessInfo => (⟨regs, pageTable, vma, machineInfo,
        DCAsyncPrefetcher.newFromRaw (pool.pool.getLast hpool) accessInfo⟩, h'),
        ⟨pool.pool.dropLast⟩) := by
  rw [deserializePrefetch, hparts]
  simp only [bind, Except.bind, DCPool.popOneQp_of_ne_nil hpool]
  cases accessInfoNew machineInfo <;> rfl

/-- The connections `deserialize` takes: at most one, and one for a decoded descriptor. -/
theorem deserializePrefetch_pool {accessInfoNew : RDMADescriptor → Option AccessInfo}
    {bytes : BytesMut} {m : Memory} {h : Heap PageTable} {pool pool' : DCPool}
    {r : Option (ChildDescriptor DCAsyncPrefetcher × Heap PageTable)}
    (hd : deserializePrefetch accessInfoNew bytes m h pool = .ok (r, pool')) :
    pool'.pool.length ≤ pool.pool.length ∧
      (r.isSome → pool'.pool.length + 1 = pool.pool.length) := by
  obtain ⟨parts, hparts, hd'⟩ := bind_eq_ok.mp hd
  rcases parts with _ | ⟨regs, pt, vma, mi, h₁⟩
  · -- the parts do not decode: nothing is popped
    simp only [pure, Except.pure, Except.ok.injEq, Prod.mk.injEq] at hd'
    obtain ⟨rfl, rfl⟩ := hd'
    simp
  by_cases hpool : pool.pool = []
  · rw [deserializePrefetch, hparts] at hd
    simp only [bind, Except.bind, DCPool.popOneQp_of_nil hpool, pure, Except.pure,
      Except.ok.injEq, Prod.mk.injEq] at hd
    obtain ⟨rfl, rfl⟩ := hd
    simp
  · rw [deserializePrefetch_of_parts hparts hpool, Except.ok.injEq, Prod.mk.injEq] at hd
    obtain ⟨-, rfl⟩ := hd
    have hpos : 0 < pool.pool.length := List.length_pos_iff.mpr hpool
    simp only [List.length_dropLast]
    omega

end ChildDescriptor

namespace ParentDescriptor

/-- The inner loop of `to_descriptor`: map every entry of one compact table. -/
def mapEntries (start : VirtAddrType) : List (Offset × Value) → RemotePageTable →
    Heap PageTable → Except String (RemotePageTable × Heap PageTable)
  | [], pt, h => pure (pt, h)
  | (offset, phyAddr) :: rest, pt, h => do
    let addr ← entryAddr offset start
    let (_, pt, h) ← pt.map h addr (PhysAddr.new phyAddr)
    mapEntries start rest pt h

/-- The outer loop of `to_descriptor` over `page_table.iter().enumerate()`, reading the
start of `vma[vma_idx]`. -/
def mapTables (vmas : List VMADescriptor) : ℕ → List CompactPageTable → RemotePageTable →
    Heap PageTable → Except String (RemotePageTable × Heap PageTable)
  | _, [], pt, h => pure (pt, h)
  | vmaIdx, vmaPgTable :: rest, pt, h => do
    let vma ← index vmas vmaIdx
    let (pt, h) ← mapEntries vma.getStart vmaPgTable.innerPgTable pt h
    mapTables vmas (vmaIdx + 1) rest pt h

/-- `to_descriptor` without the prefetch feature. -/
def toDescriptor (self : ParentDescriptor) (h : Heap PageTable) :
    Except String (ChildDescriptor Unit × Heap PageTable) := do
  let (pageTable, h) := RemotePageTable.new h
  let (pageTable, h) ← mapTables self.vma 0 self.pageTable pageTable h
  pure (⟨self.regs, pageTable, self.vma, self.machineInfo, ()⟩, h)

/-- `to_descriptor` of the prefetch build: a panic when the async pool is empty or the
access info cannot be made. -/
def toDescriptorPrefetch (accessInfoNew : RDMADescriptor → Option AccessInfo)
    (self : ParentDescriptor) (h : Heap PageTable) (pool : DCPool) :
    Except String (ChildDescriptor DCAsyncPrefetcher × Heap PageTable × DCPool) := do
  let (pageTable, h) := RemotePageTable.new h
  let (pageTable, h) ← mapTables self.vma 0 self.pageTable pageTable h
  let (conn, pool) := pool.popOneQp
  let prefetchConn ← expect conn "failed to create prefetcher"
  let accessInfo ← unwrap (accessInfoNew self.machineInfo)
  pure (⟨self.regs, pageTable, self.vma, self.machineInfo,
    DCAsyncPrefetcher.newFromRaw prefetchConn accessInfo⟩, h, pool)

end ParentDescriptor

end

end Mitosis
