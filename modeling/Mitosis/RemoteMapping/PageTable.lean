import Mitosis.RemoteMapping.PageStructures
import Mitosis.RemoteMapping.X86

/-!
# The remote page table

`RemotePageTable` emulates the four-level page table of x86-64 for 4 KiB pages: a boxed
level-four table and the number of mapped entries. `map` and `force_map` build the path
to the level-one table of an address on demand (`create_table` allocates a missing table
below an entry), and `translate` follows the same path without building it
(`lookup_table` stops at a null entry). All tables live in one heap, which every operation
takes and returns.
-/
namespace Mitosis
open OsNetwork X86_64

/-- A boxed level-four table and the number of mapped entries. -/
structure RemotePageTable where
  l4PageTable : ℕ
  cnt : ℕ

/-- `lookup_table`: the table below entry `index` of `*src`, if that entry is not null. -/
def lookupTable (h : Heap PageTable) (index src : ℕ) : Option ℕ :=
  let res := (h.get src).entries index
  if res = 0 then none else some res

/-- `create_table`: the table below entry `index` of `*src`, allocated there first when
the entry is null. -/
def createTable (h : Heap PageTable) (index src : ℕ) : Except String (ℕ × Heap PageTable) :=
  let nextLevel := (h.get src).entries index
  if nextLevel = 0 then do
    let (nextLevel, h) ← PageTable.newFromUpper h src index
    pure (nextLevel, h.modify src fun pt => pt.set index nextLevel)
  else pure (nextLevel, h)

namespace RemotePageTable

/-- `RemotePageTable::new`: a boxed empty level-four table and no mapping. -/
def new (h : Heap PageTable) : RemotePageTable × Heap PageTable :=
  let (l4, h) := h.alloc default
  (⟨l4, 0⟩, h)

def len (self : RemotePageTable) : ℕ := self.cnt

/-- `RemotePageTable::is_empty`: every entry of the level-four table is zero. -/
def isEmpty (self : RemotePageTable) (h : Heap PageTable) : Bool :=
  (List.range entryCount).all fun i => (h.get self.l4PageTable).entries i == 0

variable [Paging]

/-- `find_l1_page_idx`: the level-one table of an address and the index of its entry. -/
def findL1PageIdx (self : RemotePageTable) (h : Heap PageTable) (addr : VirtAddr) :
    Option (ℕ × ℕ) := do
  let entry := Page.containingAddress addr
  let l3Pt ← lookupTable h entry.p4Index.toUsize self.l4PageTable
  let l2Pt ← lookupTable h entry.p3Index.toUsize l3Pt
  let l1Pt ← lookupTable h entry.p2Index.toUsize l2Pt
  some (l1Pt, entry.p1Index.toUsize)

def translate (self : RemotePageTable) (h : Heap PageTable) (addr : VirtAddr) :
    Option PhysAddr := do
  let (pt, index) ← self.findL1PageIdx h addr
  let v := (h.get pt).entries index
  if v ≠ 0 then some (PhysAddr.new (UInt64.ofNat v)) else none

/-- `map_to_the_l1`: build the path to the level-one table of a page. -/
def mapToTheL1 (self : RemotePageTable) (h : Heap PageTable) (entry : Page) :
    Except String (ℕ × Heap PageTable) := do
  let (l3Pt, h) ← createTable h entry.p4Index.toUsize self.l4PageTable
  let (l2Pt, h) ← createTable h entry.p3Index.toUsize l3Pt
  createTable h entry.p2Index.toUsize l2Pt

/-- `map`: store `phy` in an empty slot and count it; a slot already in use is returned
and kept. -/
def map (self : RemotePageTable) (h : Heap PageTable) (addr : VirtAddr) (phy : PhysAddr) :
    Except String (Option PhysAddr × RemotePageTable × Heap PageTable) := do
  let entry := Page.containingAddress addr
  let (l1Pt, h) ← self.mapToTheL1 h entry
  let res := (h.get l1Pt).entries entry.p1Index.toUsize
  if res = 0 then
    let h := h.modify l1Pt fun pt => pt.set entry.p1Index.toUsize phy.asU64.toNat
    let cnt ← checkedAdd self.cnt 1
    return (none, { self with cnt }, h)
  return (some (PhysAddr.new (UInt64.ofNat res)), self, h)

/-- `force_map`: overwrite the slot, counting it when it was empty. -/
def forceMap (self : RemotePageTable) (h : Heap PageTable) (addr : VirtAddr) (phy : PhysAddr) :
    Except String (RemotePageTable × Heap PageTable) := do
  let entry := Page.containingAddress addr
  let (l1Pt, h) ← self.mapToTheL1 h entry
  let res := (h.get l1Pt).entries entry.p1Index.toUsize
  let h := h.modify l1Pt fun pt => pt.set entry.p1Index.toUsize phy.asU64.toNat
  if res = 0 then
    let cnt ← checkedAdd self.cnt 1
    return ({ self with cnt }, h)
  return (self, h)

end RemotePageTable

end Mitosis
