import Mitosis.Descriptors.Parent
import Mitosis.RemoteMapping.PageStructures

/-!
# The shadow process and its page-table generators

To prepare a fork, the parent's shadow process describes each of its VMAs: a
`VMADescriptor` and a compact table. A generator walks the VMA's present pages and
records, for the page at `addr`, the entry `((addr - start) as u32, value)`, where `start`
is the start of the VMA. `VMACOWPTGenerator` records the physical address of the page,
flagged read-only when its entry is not writable, and write-protects the entries of a
writable VMA first. `VMACopyPTGenerator` copies the page and records the physical address
of the copy.

The page walk is the kernel's `walk_page_range`, so the walk of a VMA is an input here: the
entries it hands to `handle_pte_entry`, in order. A page table entry is its raw value and
the kernel's writable bit. `Copy4KPage::new` allocates and fills a kernel page, so it is a
parameter that gives the physical address of the copy.
-/
namespace Mitosis
open OsNetwork

/-- `X86_64_PTE_HIGHER_BIT_MASK`: `~(((long) 1 << 63) >> 11)`, which clears bits 52 to 63. -/
def x8664PteHigherBitMask : UInt64 := ~~~(((1 : Int64) <<< 63) >>> 11).toUInt64

/-- `PAGE_MASK` of 4 KiB pages. -/
def pageMask : UInt64 := ~~~(4096 - 1)

/-- A page table entry of the parent: its raw value, and whether the kernel's `pte_write`
holds of it. -/
structure Pte where
  val : UInt64
  write : Bool
  deriving DecidableEq, Repr

/-- `pmem_get_phy_from_pte`: the page frame address the entry holds. -/
def pmemGetPhyFromPte (pte : Pte) : PhyAddrType := pte.val &&& pageMask &&& x8664PteHigherBitMask

/-- `pmem_clear_pte_write`. -/
def pmemClearPteWrite (pte : Pte) : Pte := { pte with write := false }

/-- `pmem_check_pte_write`. -/
def pmemCheckPteWrite (pte : Pte) : Bool := pte.write

/-- The fields of a kernel `vm_area_struct` that the shadow process reads: `vm_start`,
`vm_end`, `vm_flags`, `vm_page_prot`, whether `vm_ops` is null, and whether `vm_flags`
holds `VM_WRITE` or `VM_MAYWRITE` (bits of the kernel headers). -/
structure VMA where
  vmStart : VirtAddrType
  vmEnd : VirtAddrType
  vmFlags : UInt64
  vmPageProt : UInt64
  vmOpsNull : Bool
  writeFlags : Bool
  deriving DecidableEq, Repr

namespace VMA

def getStart (self : VMA) : VirtAddrType := self.vmStart

def getEnd (self : VMA) : VirtAddrType := self.vmEnd

/-- `generate_descriptor`. -/
def generateDescriptor (self : VMA) : VMADescriptor :=
  ⟨(self.getStart, self.getEnd), self.vmFlags, self.vmPageProt, self.vmOpsNull⟩

end VMA

/-- A VMA of the shadow process; `is_cow` says which generator describes it. -/
structure ShadowVMA where
  vmaInner : VMA
  isCow : Bool
  deriving DecidableEq, Repr

/-- `ShadowVMA::has_write_permission`. -/
def ShadowVMA.hasWritePermission (self : ShadowVMA) : Bool := self.vmaInner.writeFlags

/-- The entry both generators append for the page at `addr`:
`add_one((addr as VirtAddrType - start) as _, value)`, a checked `u64` subtraction cast to
the `u32` offset. -/
def recordEntry (vma : ShadowVMA) (innerFlat : CompactPageTable) (addr : VirtAddrType)
    (value : Value) : Except String CompactPageTable := do
  let start := vma.vmaInner.getStart
  let offset ← checkedSub addr.toNat start.toNat
  pure (innerFlat.addOne (UInt32.ofNat offset) value)

namespace VMACOWPTGenerator

/-- The value recorded for a present entry: its frame address, flagged read-only when the
entry is not writable once a writable VMA has been write-protected. -/
def entryValue (vma : ShadowVMA) (pte : Pte) : Value :=
  let phyAddr := pmemGetPhyFromPte pte
  let pte := if vma.hasWritePermission then pmemClearPteWrite pte else pte
  if pmemCheckPteWrite pte = false then PhysAddr.encode phyAddr PhysAddrBitFlag.readOnly.toU64
  else phyAddr

/-- `handle_pte_entry` of the copy-on-write generator; it also returns the entry, which a
writable VMA write-protects. -/
def handlePteEntry (vma : ShadowVMA) (innerFlat : CompactPageTable) (pte : Pte)
    (addr : VirtAddrType) : Except String (CompactPageTable × Pte) := do
  if pmemGetPhyFromPte pte > 0 then
    let pte' := if vma.hasWritePermission then pmemClearPteWrite pte else pte
    let innerFlat ← recordEntry vma innerFlat addr (entryValue vma pte)
    pure (innerFlat, pte')
  else pure (innerFlat, pte)

/-- `generate`: `handle_pte_entry` on every entry of the walk, in order. -/
def generate (vma : ShadowVMA) : List (Pte × VirtAddrType) → CompactPageTable →
    Except String CompactPageTable
  | [], innerFlat => pure innerFlat
  | (pte, addr) :: rest, innerFlat => do
    let (innerFlat, _) ← handlePteEntry vma innerFlat pte addr
    generate vma rest innerFlat

end VMACOWPTGenerator

namespace VMACopyPTGenerator

/-- `handle_pte_entry` of the copy generator: `copyPage addr` is the physical address of a
fresh copy of the page, `None` when no page can be allocated. -/
def handlePteEntry (copyPage : VirtAddrType → Option PhyAddrType) (vma : ShadowVMA)
    (innerFlat : CompactPageTable) (pte : Pte) (addr : VirtAddrType) :
    Except String CompactPageTable := do
  if pmemGetPhyFromPte pte > 0 then
    let copiedPage ← expect (copyPage addr) "Fail to copy from user space"
    recordEntry vma innerFlat addr copiedPage
  else pure innerFlat

def generate (copyPage : VirtAddrType → Option PhyAddrType) (vma : ShadowVMA) :
    List (Pte × VirtAddrType) → CompactPageTable → Except String CompactPageTable
  | [], innerFlat => pure innerFlat
  | (pte, addr) :: rest, innerFlat => do
    let innerFlat ← handlePteEntry copyPage vma innerFlat pte addr
    generate copyPage vma rest innerFlat

end VMACopyPTGenerator

namespace ShadowProcess

/-- The parent descriptor of `ShadowProcess::new_cow`: a VMA descriptor and a compact table
for every VMA, each VMA given with the walk of its page table. -/
def newCow (vmas : List (VMA × List (Pte × VirtAddrType))) (regs : RegDescriptor)
    (rdmaDescriptor : RDMADescriptor) : Except String ParentDescriptor := do
  let vmaPageTable ← vmas.mapM fun (vma, walk) =>
    VMACOWPTGenerator.generate ⟨vma, true⟩ walk ⟨[]⟩
  pure ⟨regs, vmaPageTable, vmas.map (·.1.generateDescriptor), rdmaDescriptor⟩

/-- The parent descriptor of `ShadowProcess::new_copy`. -/
def newCopy (copyPage : VirtAddrType → Option PhyAddrType)
    (vmas : List (VMA × List (Pte × VirtAddrType))) (regs : RegDescriptor)
    (rdmaDescriptor : RDMADescriptor) : Except String ParentDescriptor := do
  let vmaPageTable ← vmas.mapM fun (vma, walk) =>
    VMACopyPTGenerator.generate copyPage ⟨vma, false⟩ walk ⟨[]⟩
  pure ⟨regs, vmaPageTable, vmas.map (·.1.generateDescriptor), rdmaDescriptor⟩

end ShadowProcess

end Mitosis
