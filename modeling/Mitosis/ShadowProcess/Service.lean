import Mitosis.Descriptors.ParentRoundTrip
import Mitosis.ShadowProcess.Vma
import Mitosis.Network.Datagram

/-!
# The shadow process service of the parent

Preparing a process for a remote fork (`add_myself_copy`, `add_myself_cow`) takes a DC target
from the `DCTargetPool`, builds the shadow process and its descriptor, serializes the
descriptor into a buffer of the `MemPool`, and registers the bundle under a key.
`handle_descriptor_addr_lookup` later advertises the buffer's RDMA address and the recorded
length, and the child reads that many bytes.

The pool's buffers have `MAX_KMALLOC_SZ` bytes, a constant of KRdmaKit, `C` here. `serialize`
refuses a buffer shorter than the descriptor and writes nothing; `ProcessBundler::new` ignores
its answer and records the length the descriptor needs, not what was written.

The registry, a `HashMap`, is an association list with distinct keys (`AList`).
-/
namespace Mitosis
open OsNetwork

/-! ## The pool of descriptor buffers -/

/-- `MemPool`: buffers of `MAX_KMALLOC_SZ` (`C`) bytes, and how many a refill makes. -/
structure MemPool (C : ℕ) where
  pool : List UDMsg
  capacity : ℕ
  len_eq : ∀ b ∈ pool, b.len = C

namespace MemPool

variable {A : Type} (mr : MrAllocator A) {C : ℕ} (hC : C < 2 ^ 64)

/-- `fill_up`: `len` new buffers of `MAX_KMALLOC_SZ` bytes pushed. -/
def fillUp : ℕ → MemPool C → A → Except String (MemPool C × A)
  | 0, self, a => .ok (self, a)
  | n + 1, self, a =>
    match h : UDMsg.new mr C hC 0 a with
    | .ok (msg, a) => fillUp n ⟨self.pool ++ [msg], self.capacity, fun b hb => by
        rcases List.mem_append.mp hb with hb | hb
        · exact self.len_eq b hb
        · rw [List.mem_singleton.mp hb]
          exact UDMsg.len_of_new h⟩ a
    | .error e => .error e

def isEmpty (self : MemPool C) : Bool := self.pool.length == 0

/-- `pop_one`: the buffer pushed last, after a refill of `capacity` buffers when the pool is
empty; `unwrap` panics when it is still empty. -/
def popOne (self : MemPool C) (a : A) : Except String (UDMsg × MemPool C × A) := do
  let (self, a) ← if self.isEmpty then self.fillUp mr hC self.capacity a else pure (self, a)
  let msg ← unwrap self.pool.getLast?
  pure (msg, ⟨self.pool.dropLast, self.capacity,
    fun b hb => self.len_eq b (List.mem_of_mem_dropLast hb)⟩, a)

/-- `MemPool::new`: `pool_len` buffers. -/
def new (poolLen : ℕ) (a : A) : Except String (MemPool C × A) :=
  fillUp mr hC poolLen ⟨[], poolLen, fun _ hb => absurd hb (List.not_mem_nil)⟩ a

theorem popOne_of_getLast_eq {self : MemPool C} {b : UDMsg} (h : self.pool.getLast? = some b)
    (a : A) : self.popOne mr hC a = .ok (b, ⟨self.pool.dropLast, self.capacity,
      fun b hb => self.len_eq b (List.mem_of_mem_dropLast hb)⟩, a) := by
  have hne : self.isEmpty = false := by
    simpa [isEmpty] using List.ne_nil_of_mem (List.mem_of_getLast? h)
  simp [popOne, hne, h]

end MemPool

/-! ## DC targets -/

/-- KRdmaKit's `DatagramMeta`: the address of a queue pair in the fabric. -/
structure DatagramMeta where
  lid : UInt16
  gid : IbGid
  deriving DecidableEq

/-- `DCTargetMeta`: a DC target, the NIC it is on, the remote key of that NIC's memory, and its
address (the field `meta`, a keyword of Lean). -/
structure DCTargetMeta where
  target : DCTarget
  nicIdx : ℕ
  rkey : UInt32
  datagramMeta : DatagramMeta
  deriving DecidableEq

/-- `DCTargetPool`, a stack of DC targets. -/
structure DCTargetPool where
  pool : List DCTargetMeta

namespace DCTargetPool

/-- `DCTargetPool::new`: `init_dc_targets` targets, the `i`-th made by the driver on NIC
`i % num_nics_used`; a failure to make one panics. The pool is always `Some`. -/
def new (createTarget : ℕ → Except String DCTargetMeta) (initDcTargets : ℕ) :
    Except String (Option DCTargetPool) := do
  let pool ← (List.range initDcTargets).mapM createTarget
  pure (some ⟨pool⟩)

/-- `pop_one`: `Vec::pop`. -/
def popOne (self : DCTargetPool) : Option DCTargetMeta × DCTargetPool :=
  (self.pool.getLast?, ⟨self.pool.dropLast⟩)

theorem length_of_new {createTarget : ℕ → Except String DCTargetMeta} {n : ℕ}
    {pool : DCTargetPool} (h : new createTarget n = .ok (some pool)) : pool.pool.length = n := by
  unfold new at h
  cases hm : (List.range n).mapM createTarget with
  | error e => simp [hm] at h
  | ok l =>
    simp only [hm, ok_bind, pure, Except.pure, Except.ok.injEq, Option.some.injEq] at h
    subst h
    exact (length_of_mapM_ok hm).trans List.length_range

end DCTargetPool

/-- The descriptor `new_from_dc_target_pool` fills from a target's metadata; the service id
is deprecated and `0`. -/
def DCTargetMeta.toDescriptor (dcTargetMeta : DCTargetMeta) (macId : UInt64) : RDMADescriptor :=
  ⟨0, dcTargetMeta.target.portNum, dcTargetMeta.datagramMeta.gid, dcTargetMeta.datagramMeta.lid,
    dcTargetMeta.rkey, dcTargetMeta.target.dcKey, dcTargetMeta.target.dctNum, macId⟩

namespace RDMADescriptor

/-- `new_from_dc_target_pool`: a target popped from the pool and the descriptor that names it;
`expect` panics on an empty pool although the result is an `Option`. -/
def newFromDcTargetPool (service : DCTargetPool) (macId : UInt64) :
    Except String (Option (DCTarget × RDMADescriptor) × DCTargetPool) := do
  let (dcTargetMeta, service) := service.popOne
  let dcTargetMeta ← expect dcTargetMeta "failed to create a DCTarget from the pool"
  pure (some (dcTargetMeta.target, dcTargetMeta.toDescriptor macId), service)

theorem newFromDcTargetPool_of_getLast_eq {service : DCTargetPool} {t : DCTargetMeta}
    (h : service.pool.getLast? = some t) (macId : UInt64) :
    newFromDcTargetPool service macId =
      .ok (some (t.target, t.toDescriptor macId), ⟨service.pool.dropLast⟩) := by
  simp [newFromDcTargetPool, DCTargetPool.popOne, h]

theorem newFromDcTargetPool_nil (macId : UInt64) :
    newFromDcTargetPool ⟨[]⟩ macId = .error "failed to create a DCTarget from the pool" := by
  simp [newFromDcTargetPool, DCTargetPool.popOne, expect]

end RDMADescriptor

/-! ## Bundles and the registry -/

/-- `ProcessBundler`: the shadow process (its descriptor), the buffer holding the serialized
descriptor, the recorded length, and the DC targets it keeps alive. -/
structure ProcessBundler where
  process : ParentDescriptor
  serializedBuf : UDMsg
  serializedBufLen : ℕ
  boundDcTargets : List DCTarget

namespace ProcessBundler

variable {A : Type} (mr : MrAllocator A) {C : ℕ} (hC : C < 2 ^ 64)

/-- `ProcessBundler::new`: serialize the descriptor into a pool buffer; whether `serialize`
succeeded is not looked at, and the length recorded is `serialization_buf_len`. -/
def new (process : ParentDescriptor) (targets : DCTarget) (pool : MemPool C) (a : A)
    (m : Memory) : Except String (ProcessBundler × MemPool C × A × Memory) := do
  let len := process.serializationBufLen
  let (buf, pool, a) ← pool.popOne mr hC a
  let (_, m) ← process.serialize buf.getBytesMut m
  pure (⟨process, buf, len, [targets]⟩, pool, a, m)

def getSerializeBufSz (self : ProcessBundler) : ℕ := self.serializedBuf.len

end ProcessBundler

/-- `ShadowProcessService`: the prepared processes by key. -/
structure ShadowProcessService where
  registeredProcesses : AList fun _ : ℕ => ProcessBundler

namespace ShadowProcessService

def new : ShadowProcessService := ⟨∅⟩

def queryDescriptorBuf (self : ShadowProcessService) (key : ℕ) : Option (UDMsg × ℕ) :=
  (self.registeredProcesses.lookup key).map fun s => (s.serializedBuf, s.serializedBufLen)

def queryDescriptor (self : ShadowProcessService) (key : ℕ) : Option ParentDescriptor :=
  (self.registeredProcesses.lookup key).map fun s => s.process

def unregister (self : ShadowProcessService) (key : ℕ) : ShadowProcessService :=
  ⟨self.registeredProcesses.erase key⟩

end ShadowProcessService

/-- The state of the parent's kernel that preparing a process reads and writes: the registry,
the pool of descriptor buffers and the allocator it refills from, the DC target pool, and
kernel memory. -/
structure ParentKernel (C : ℕ) (A : Type) where
  sps : ShadowProcessService
  memPool : MemPool C
  mrs : A
  dcTargets : DCTargetPool
  mem : Memory

namespace ShadowProcessService

variable {A : Type} (mr : MrAllocator A) {C : ℕ} (hC : C < 2 ^ 64) (macId : UInt64)

/-- The body `add_myself_copy` and `add_myself_cow` share; `newProcess` is the constructor of
the shadow process, from the descriptor of the popped target. A taken key is refused. -/
def addMyself (newProcess : RDMADescriptor → Except String ParentDescriptor) (key : ℕ)
    (s : ParentKernel C A) : Except String (Option ℕ × ParentKernel C A) := do
  if key ∈ s.sps.registeredProcesses then return (none, s)
  let (res, dcTargets) ← RDMADescriptor.newFromDcTargetPool s.dcTargets macId
  let some (target, descriptor) := res | return (none, { s with dcTargets })
  let process ← newProcess descriptor
  let (bundler, memPool, mrs, mem) ← ProcessBundler.new mr hC process target s.memPool s.mrs s.mem
  let ret := bundler.getSerializeBufSz
  return (some ret, ⟨⟨s.sps.registeredProcesses.insert key bundler⟩, memPool, mrs, dcTargets, mem⟩)

/-- `add_myself_copy`: the VMAs of the current task, with their page walks, and its registers
are read by `ShadowProcess::new_copy`. -/
def addMyselfCopy (copyPage : VirtAddrType → Option PhyAddrType)
    (vmas : List (VMA × List (Pte × VirtAddrType))) (regs : RegDescriptor) (key : ℕ)
    (s : ParentKernel C A) : Except String (Option ℕ × ParentKernel C A) :=
  addMyself mr hC macId (ShadowProcess.newCopy copyPage vmas regs) key s

/-- `add_myself_cow`. -/
def addMyselfCow (vmas : List (VMA × List (Pte × VirtAddrType))) (regs : RegDescriptor)
    (key : ℕ) (s : ParentKernel C A) : Except String (Option ℕ × ParentKernel C A) :=
  addMyself mr hC macId (ShadowProcess.newCow vmas regs) key s

end ShadowProcessService

/-! ## The descriptor lookup -/

/-- `DescriptorLookupReply`: where the descriptor is and how long, and how to reach the
parent's DC target. -/
structure DescriptorLookupReply where
  pa : UInt64
  sz : ℕ
  ready : Bool
  rkey : UInt32
  lid : UInt32
  gid : IbGid
  dctNum : UInt32
  dcKey : UInt64
  deriving DecidableEq

/-- `handle_descriptor_addr_lookup` for a decoded key, with the DC target of the current CPU
and the remote key of its context: `none` is the null reply of an unknown key. -/
def handleDescriptorAddrLookup (sps : ShadowProcessService) (dcTarget : DCTarget)
    (dcMeta : DatagramMeta) (rkey : UInt32) (key : ℕ) : Option DescriptorLookupReply :=
  (sps.queryDescriptorBuf key).map fun (addr, len) =>
    ⟨addr.getPa, len, true, rkey, dcMeta.lid.toUInt32, dcMeta.gid, dcTarget.dctNum,
      dcTarget.dcKey⟩

/-! ## What a prepared process registers -/

theorem ParentDescriptor.serialize_of_lt {p : ParentDescriptor} {bytes : BytesMut}
    (h : bytes.len < p.serializationBufLen) (m : Memory) : p.serialize bytes m = .ok (false, m) := by
  simp [ParentDescriptor.serialize, h, pure, Except.pure]

namespace ShadowProcessService

variable {A : Type} {mr : MrAllocator A} {C : ℕ} {hC : C < 2 ^ 64} {macId : UInt64}

@[simp] theorem queryDescriptorBuf_insert (self : ShadowProcessService) (key : ℕ)
    (b : ProcessBundler) :
    (⟨self.registeredProcesses.insert key b⟩ : ShadowProcessService).queryDescriptorBuf key =
      some (b.serializedBuf, b.serializedBufLen) := by
  simp [queryDescriptorBuf, AList.lookup_insert]

/-- With a fresh key, a DC target and a buffer in the pool, the process built from the last
target's descriptor is bundled with the last buffer and registered, whatever `serialize`
answers; the call returns the buffer's length. -/
theorem addMyself_of_fresh (newProcess : RDMADescriptor → Except String ParentDescriptor)
    {key : ℕ} {s : ParentKernel C A} (hfresh : key ∉ s.sps.registeredProcesses)
    {t : DCTargetMeta} (ht : s.dcTargets.pool.getLast? = some t) {buf : UDMsg}
    (hb : s.memPool.pool.getLast? = some buf) {p : ParentDescriptor}
    (hp : newProcess (t.toDescriptor macId) = .ok p) {ok : Bool} {m' : Memory}
    (hser : p.serialize buf.getBytesMut s.mem = .ok (ok, m')) :
    addMyself mr hC macId newProcess key s = .ok (some C,
      ⟨⟨s.sps.registeredProcesses.insert key ⟨p, buf, p.serializationBufLen, [t.target]⟩⟩,
        ⟨s.memPool.pool.dropLast, s.memPool.capacity,
          fun b hb => s.memPool.len_eq b (List.mem_of_mem_dropLast hb)⟩,
        s.mrs, ⟨s.dcTargets.pool.dropLast⟩, m'⟩) := by
  have hlen : buf.len = C := s.memPool.len_eq buf (List.mem_of_getLast? hb)
  simp only [addMyself, hfresh, if_false, RDMADescriptor.newFromDcTargetPool_of_getLast_eq ht,
    ok_bind, hp, ProcessBundler.new, MemPool.popOne_of_getLast_eq mr hC hb, hser, pure_bind,
    ProcessBundler.getSerializeBufSz, hlen]
  rfl

/-- A descriptor that fits the pool's buffers is registered serialized: the recorded length is
at most the buffer's, the buffer holds the descriptor's image, and the lookup advertises that
length. -/
theorem addMyself_registers_serialized (newProcess : RDMADescriptor → Except String ParentDescriptor)
    {key : ℕ} {s : ParentKernel C A} (hfresh : key ∉ s.sps.registeredProcesses)
    {t : DCTargetMeta} (ht : s.dcTargets.pool.getLast? = some t) {buf : UDMsg}
    (hb : s.memPool.pool.getLast? = some buf) {p : ParentDescriptor}
    (hp : newProcess (t.toDescriptor macId) = .ok p)
    (hlen : p.vma.length = p.pageTable.length) (hfit : p.serializationBufLen ≤ C) :
    ∃ s', addMyself mr hC macId newProcess key s = .ok (some C, s') ∧
      s'.sps.queryDescriptorBuf key = some (buf, p.serializationBufLen) ∧
      p.serializationBufLen ≤ buf.len ∧ s'.mem.Stores buf.bytes.ptr p.image := by
  have hbuf : buf.len = C := s.memPool.len_eq buf (List.mem_of_getLast? hb)
  have hser := ParentDescriptor.serialize_eq p buf.getBytesMut s.mem hlen
    (by rw [UDMsg.getBytesMut, ← UDMsg.len, hbuf]; exact hfit)
  refine ⟨_, addMyself_of_fresh newProcess hfresh ht hb hp hser, ?_, ?_, ?_⟩
  · simp only [queryDescriptorBuf, AList.lookup_insert, Option.map_some]
  · rw [hbuf]; exact hfit
  · -- reduce the projection first: unifying through it unfolds the image
    dsimp only
    rw [UDMsg.getBytesMut]
    exact Memory.stores_write _ _ _

/-- A descriptor longer than the pool's buffers is registered all the same: `serialize` refuses
the buffer and writes nothing, the bundle records the length the descriptor needs, and the
lookup advertises that length, more bytes than the buffer has. -/
theorem addMyself_registers_unserialized (newProcess : RDMADescriptor → Except String ParentDescriptor)
    {key : ℕ} {s : ParentKernel C A} (hfresh : key ∉ s.sps.registeredProcesses)
    {t : DCTargetMeta} (ht : s.dcTargets.pool.getLast? = some t) {buf : UDMsg}
    (hb : s.memPool.pool.getLast? = some buf) {p : ParentDescriptor}
    (hp : newProcess (t.toDescriptor macId) = .ok p) (hbig : C < p.serializationBufLen)
    (dcTarget : DCTarget) (dcMeta : DatagramMeta) (rkey : UInt32) :
    ∃ s', addMyself mr hC macId newProcess key s = .ok (some C, s') ∧
      s'.sps.queryDescriptorBuf key = some (buf, p.serializationBufLen) ∧ buf.len = C ∧
      C < p.serializationBufLen ∧ s'.mem = s.mem ∧
      (handleDescriptorAddrLookup s'.sps dcTarget dcMeta rkey key).map DescriptorLookupReply.sz =
        some p.serializationBufLen := by
  have hbuf : buf.len = C := s.memPool.len_eq buf (List.mem_of_getLast? hb)
  have hser := ParentDescriptor.serialize_of_lt
    (by rw [UDMsg.getBytesMut, ← UDMsg.len, hbuf]; exact hbig : buf.getBytesMut.len < _) s.mem
  refine ⟨_, addMyself_of_fresh newProcess hfresh ht hb hp hser, ?_, hbuf, hbig, rfl, ?_⟩
  · simp only [queryDescriptorBuf, AList.lookup_insert, Option.map_some]
  · simp only [handleDescriptorAddrLookup, queryDescriptorBuf, AList.lookup_insert, Option.map_some]

end ShadowProcessService

/-- The failing input: buffers of 256 bytes, and a task of one VMA with no present page, whose
descriptor needs 304. -/
theorem addMyselfCow_registers_unserialized_one_vma :
    let buf : UDMsg := ⟨0x2000, ⟨0x1000, 256, by decide⟩, 0⟩
    let t : DCTargetMeta := ⟨⟨1, 0, 0⟩, 0, 0, ⟨0, ⟨List.replicate 16 0, rfl⟩⟩⟩
    let s : ParentKernel 256 Unit :=
      ⟨ShadowProcessService.new, ⟨[buf], 1, fun b hb => by rw [List.mem_singleton.mp hb]; rfl⟩, (),
        ⟨[t]⟩, fun _ => 0⟩
    let vmas : List (VMA × List (Pte × VirtAddrType)) := [(⟨0x1000, 0x2000, 0, 0, true, false⟩, [])]
    let regs : RegDescriptor := ⟨⟨List.replicate 21 0, rfl⟩, 0, 0⟩
    let p : ParentDescriptor := ⟨regs, [⟨[]⟩], vmas.map (·.1.generateDescriptor), t.toDescriptor 0⟩
    1 ∉ s.sps.registeredProcesses ∧ s.dcTargets.pool.getLast? = some t ∧
      s.memPool.pool.getLast? = some buf ∧ ShadowProcess.newCow vmas regs (t.toDescriptor 0) = .ok p ∧
      256 < p.serializationBufLen ∧
      ∃ s', ShadowProcessService.addMyselfCow ⟨fun _ _ => none⟩ (by decide) 0 vmas regs 1 s =
          .ok (some 256, s') ∧
        s'.sps.queryDescriptorBuf 1 = some (buf, p.serializationBufLen) ∧ buf.len = 256 ∧
        256 < p.serializationBufLen ∧ s'.mem = s.mem ∧
        (handleDescriptorAddrLookup s'.sps t.target t.datagramMeta 0 1).map DescriptorLookupReply.sz =
          some p.serializationBufLen := by
  intro buf t s vmas regs p
  have hfresh : 1 ∉ s.sps.registeredProcesses := AList.notMem_empty 1
  have hp : ShadowProcess.newCow vmas regs (t.toDescriptor 0) = .ok p := rfl
  have hbig : 256 < p.serializationBufLen := by decide
  exact ⟨hfresh, rfl, rfl, hp, hbig,
    ShadowProcessService.addMyself_registers_unserialized _ hfresh rfl rfl hp hbig _ _ _⟩

end Mitosis
