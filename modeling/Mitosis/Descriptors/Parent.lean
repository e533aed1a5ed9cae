import Mitosis.Descriptors.Records

/-!
# The parent descriptor and its wire format

`ParentDescriptor::serialize` writes the registers, the number of VMAs, then for every VMA
its descriptor followed by its compact page table, and finally the RDMA descriptor. A
compact page table is its entry count, a four-byte pad when the count is odd, and the
entries as unaligned `(u32 offset, u64 value)` pairs. The writer advances its cursor by
`serialization_buf_len` of each part; the reader advances by what it decoded.
-/
namespace Mitosis
open OsNetwork

/-- `VirtAddrType` and `PhyAddrType` are `u64`. -/
abbrev VirtAddrType : Type := UInt64

abbrev PhyAddrType : Type := UInt64

/-- Page offsets inside a VMA are stored as `u32`. -/
abbrev Offset : Type := UInt32

abbrev Value : Type := PhyAddrType

/-- A condensed page table of one VMA: `(offset, value)` pairs in the order recorded. -/
structure CompactPageTable where
  innerPgTable : List (Offset × Value)
  deriving DecidableEq, Repr

/-- `Vec::index`: a panic past the end. -/
def index {α : Type} (l : List α) (i : ℕ) : Except String α :=
  match l[i]? with
  | some a => .ok a
  | none => .error "index out of bounds"

/-- The pad test written at each of the four places that handle a compact table:
`size_of::<Offset>() < size_of::<VirtAddrType>() && count % 2 == 1`. -/
def needsPad (count : ℕ) : Bool :=
  decide (Pod.size Offset < Pod.size VirtAddrType) && count % 2 == 1

namespace CompactPageTable

def tableLen (self : CompactPageTable) : ℕ := self.innerPgTable.length

def addOne (self : CompactPageTable) (offset : Offset) (val : Value) : CompactPageTable :=
  ⟨self.innerPgTable ++ [(offset, val)]⟩

def serializationBufLen (self : CompactPageTable) : ℕ :=
  let base := Pod.size UInt64 + self.innerPgTable.length * (Pod.size Offset + Pod.size Value)
  if needsPad self.tableLen then base + Pod.size UInt32 else base

/-- The pad block of `serialize`: four zero bytes after an odd count. -/
def serializePad (count : ℕ) (cur : BytesMut) (m : Memory) : Except String (BytesMut × Memory) :=
  if needsPad count then do
    let (sz, m) := cur.memcpySerializeAt 0 (0 : UInt32) m
    let sz ← unwrap sz
    let cur ← unwrap (cur.truncateHeader sz)
    pure (cur, m)
  else pure (cur, m)

/-- The pad block of `deserialize`: skip the four bytes after an odd count. -/
def deserializePad (count : ℕ) (cur : BytesMut) (m : Memory) : Option BytesMut :=
  if needsPad count then do
    let ((_ : UInt32), off) ← cur.memcpyDeserialize m
    cur.truncateHeader off
  else pure cur

/-- The entry loop of `serialize`: each field is written unaligned at the cursor. -/
def serializeEntries : List (Offset × Value) → BytesMut → Memory →
    Except String (BytesMut × Memory)
  | [], cur, m => .ok (cur, m)
  | (offset, paddr) :: rest, cur, m => do
    let (sz0, m) := cur.writeUnalignedAtHead offset m
    let cur ← unwrap (cur.truncateHeader sz0)
    let (sz0, m) := cur.writeUnalignedAtHead paddr m
    let cur ← unwrap (cur.truncateHeader sz0)
    serializeEntries rest cur m

def serialize (self : CompactPageTable) (bytes : BytesMut) (m : Memory) :
    Except String (Bool × Memory) := do
  if bytes.len < self.serializationBufLen then return (false, m)
  let cur ← unwrap (bytes.truncateHeader 0)
  let (sz, m) := cur.memcpySerializeAt 0 (UInt64.ofNat self.innerPgTable.length) m
  let sz ← unwrap sz
  let cur ← unwrap (cur.truncateHeader sz)
  let (cur, m) ← serializePad self.tableLen cur m
  let (_, m) ← serializeEntries self.innerPgTable cur m
  return (true, m)

/-- The entry loop of `deserialize`: unaligned reads, each followed by a checked advance. -/
def deserializeEntries (m : Memory) : ℕ → BytesMut → Option (List (Offset × Value) × BytesMut)
  | 0, cur => some ([], cur)
  | n + 1, cur => do
    let virt : Offset := cur.readUnalignedAtHead m
    let cur ← cur.truncateHeader (Pod.size Offset)
    let phy : Value := cur.readUnalignedAtHead m
    let cur ← cur.truncateHeader (Pod.size Value)
    let (res, cur) ← deserializeEntries m n cur
    some ((virt, phy) :: res, cur)

/-- `truncate_header(0).unwrap()` is the window itself (`BytesMut.truncateHeader_zero`). -/
def deserialize (bytes : BytesMut) (m : Memory) : Option CompactPageTable := do
  let cur := bytes
  let ((count : UInt64), off) ← cur.memcpyDeserialize m
  let cur ← cur.truncateHeader off
  let cur ← deserializePad count.toNat cur m
  let (res, _) ← deserializeEntries m count.toNat cur
  some ⟨res⟩

end CompactPageTable

/-- The descriptor the parent publishes; `pageTable[i]` belongs to `vma[i]`. -/
structure ParentDescriptor where
  regs : RegDescriptor
  pageTable : List CompactPageTable
  vma : List VMADescriptor
  machineInfo : RDMADescriptor
  deriving DecidableEq

namespace ParentDescriptor

def vmaPgTableSerializationBufLen (self : ParentDescriptor) : ℕ :=
  self.pageTable.foldl (fun result t => result + t.serializationBufLen) (Pod.size UInt64)

def serializationBufLen (self : ParentDescriptor) : ℕ :=
  Serialize.serializationBufLen self.regs + self.vmaPgTableSerializationBufLen +
    Pod.size UInt64 + self.vma.length * Pod.size VMADescriptor +
    Serialize.serializationBufLen self.machineInfo

/-- The loop of `serialize` over `page_table.iter().enumerate()`, reading `vma[i]`. -/
def serializeTables (vmas : List VMADescriptor) : ℕ → List CompactPageTable → BytesMut →
    Memory → Except String (BytesMut × Memory)
  | _, [], cur, m => .ok (cur, m)
  | i, vmaPgTable :: rest, cur, m => do
    let vma ← index vmas i
    let (_, m) := Serialize.serialize vma cur m
    let cur ← unwrap (cur.truncateHeader (Serialize.serializationBufLen vma))
    let (_, m) ← vmaPgTable.serialize cur m
    let cur ← unwrap (cur.truncateHeader vmaPgTable.serializationBufLen)
    serializeTables vmas (i + 1) rest cur m

def serialize (self : ParentDescriptor) (bytes : BytesMut) (m : Memory) :
    Except String (Bool × Memory) := do
  if bytes.len < self.serializationBufLen then return (false, m)
  let cur ← unwrap (bytes.truncateHeader 0)
  let (_, m) := Serialize.serialize self.regs cur m
  let cur ← unwrap (cur.truncateHeader (Serialize.serializationBufLen self.regs))
  let (sz, m) := cur.memcpySerializeAt 0 (UInt64.ofNat self.pageTable.length) m
  let sz ← unwrap sz
  let cur ← unwrap (cur.truncateHeader sz)
  assertEq self.vma.length self.pageTable.length
  let (cur, m) ← serializeTables self.vma 0 self.pageTable cur m
  let (_, m) := Serialize.serialize self.machineInfo cur m
  return (true, m)

/-- The loop of `deserialize`: a VMA descriptor, then its compact table, `count` times. -/
def deserializeTables (m : Memory) : ℕ → BytesMut →
    Option (List VMADescriptor × List CompactPageTable × BytesMut)
  | 0, cur => some ([], [], cur)
  | n + 1, cur => do
    let vma : VMADescriptor ← Serialize.deserialize cur m
    let cur ← cur.truncateHeader (Serialize.serializationBufLen vma)
    let vmaPgTable ← CompactPageTable.deserialize cur m
    let cur ← cur.truncateHeader vmaPgTable.serializationBufLen
    let (vmas, pt, cur) ← deserializeTables m n cur
    some (vma :: vmas, vmaPgTable :: pt, cur)

def deserialize (bytes : BytesMut) (m : Memory) : Option ParentDescriptor := do
  let cur := bytes
  let regs : RegDescriptor ← Serialize.deserialize cur m
  let cur ← cur.truncateHeader (Serialize.serializationBufLen regs)
  let ((count : UInt64), off) ← cur.memcpyDeserialize m
  let cur ← cur.truncateHeader off
  let (vmas, pt, cur) ← deserializeTables m count.toNat cur
  let machineInfo ← Serialize.deserialize cur m
  some ⟨regs, pt, vmas, machineInfo⟩

end ParentDescriptor

end Mitosis
