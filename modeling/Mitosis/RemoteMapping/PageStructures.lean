import Mitosis.Lib.Heap
import Mitosis.Network.Bytes

/-!
# Page tables of the remote mapping and the encoding of their entries

A `PageTable` is one level of the remote page table: 512 entries, its level, and a
back-pointer to the table above it with the index of the entry there that points to it.
An entry of a level-one table holds a value, the others hold a pointer to the table below
or `0`. Tables live in the kernel heap (`Heap PageTable`); a pointer is a heap address.

Entries are `u64` in the source and natural numbers here; the pointers and values written
into them are below `2 ^ 64`. The index operators `pt[i]` are `entries i`: every index the
code passes is a `PageTableIndex` or an index that `find_valid_entry` returned, so below
`ENTRY_COUNT`, and the bound check of the array never fails.

A level-one value is a remote physical address, or a local page with the low three bits
used as flags (`PhysAddrBitFlag`).
-/
namespace Mitosis
open OsNetwork

/-- The slot value of a page whose prefetch read is in flight. -/
def kMagicInPrefetch : UInt64 := 1

/-- The number of entries in a page table. -/
def entryCount : ℕ := 512

inductive PhysAddrBitFlag
  | empty
  | prefetch
  | cache
  | readOnly
  deriving DecidableEq, Repr

namespace PhysAddrBitFlag

/-- The discriminant: `Empty = 0b0000`, `Prefetch = 0b0001`, `Cache = 0b0010`,
`ReadOnly = 0b0100`. -/
def toU64 : PhysAddrBitFlag → UInt64
  | empty => 0
  | prefetch => 1
  | cache => 2
  | readOnly => 4

def mask : UInt64 := prefetch.toU64 ||| cache.toU64 ||| readOnly.toU64

@[simp] theorem mask_eq : mask = 7 := rfl

end PhysAddrBitFlag

/-- The repository's own `PhysAddr`, a `u64` with no range check. -/
structure PhysAddr where
  val : UInt64
  deriving DecidableEq, Repr

namespace PhysAddr

def new (addr : UInt64) : PhysAddr := ⟨addr⟩

def asU64 (self : PhysAddr) : UInt64 := self.val

/-- Clear the three flag bits. -/
def decode (addr : UInt64) : UInt64 := addr &&& ~~~PhysAddrBitFlag.mask

/-- Set the flag bits of `flag` on a page address. -/
def encode (pageAddr flag : UInt64) : UInt64 := pageAddr ||| (flag &&& PhysAddrBitFlag.mask)

def isPrefetch (self : PhysAddr) : Bool :=
  self.val &&& PhysAddrBitFlag.prefetch.toU64 == PhysAddrBitFlag.prefetch.toU64

def isCache (self : PhysAddr) : Bool :=
  self.val &&& PhysAddrBitFlag.cache.toU64 == PhysAddrBitFlag.cache.toU64

def isRo (self : PhysAddr) : Bool :=
  self.val &&& PhysAddrBitFlag.readOnly.toU64 == PhysAddrBitFlag.readOnly.toU64

def bottomBit (self : PhysAddr) : Bool := self.isPrefetch

def realAddr (self : PhysAddr) : UInt64 := decode self.val

/-- The local `struct page` pointer a flagged value carries. -/
def convertToPage (self : PhysAddr) : UInt64 := self.realAddr

@[simp] theorem asU64_new (addr : UInt64) : (new addr).asU64 = addr := rfl

@[simp] theorem new_asU64 (self : PhysAddr) : new self.asU64 = self := rfl

theorem ne_zero_of_isPrefetch {v : UInt64} (h : (new v).isPrefetch = true) : v ≠ 0 := by
  rintro rfl
  exact absurd h (by decide)

theorem decode_ne_of_isRo {v : UInt64} (h : (new v).isRo = true) : decode v ≠ v := by
  have hro : v &&& 4 = 4 := by simpa [isRo, new, PhysAddrBitFlag.toU64] using h
  intro he
  have hclear : decode v &&& 4 = 0 := by
    have h74 : (~~~7 : UInt64) &&& 4 = 0 := by decide
    rw [decode, PhysAddrBitFlag.mask_eq, UInt64.and_assoc, h74, UInt64.and_zero]
  rw [he, hro] at hclear
  exact absurd hclear (by decide)

end PhysAddr

/-- The level of a table: `One` holds values, the others pointers. -/
inductive PageTableLevel
  | one
  | two
  | three
  | four
  deriving DecidableEq, Repr

namespace PageTableLevel

def nextLowerLevel : PageTableLevel → Option PageTableLevel
  | four => some three
  | three => some two
  | two => some one
  | one => none

/-- The discriminant, `self as u8`: `One = 1` to `Four = 4`. -/
def toNat : PageTableLevel → ℕ
  | one => 1
  | two => 2
  | three => 3
  | four => 4

@[simp] theorem toNat_one : one.toNat = 1 := rfl

@[simp] theorem toNat_two : two.toNat = 2 := rfl

@[simp] theorem toNat_three : three.toNat = 3 := rfl

@[simp] theorem toNat_four : four.toNat = 4 := rfl

theorem nextLowerLevel_eq_some_iff {l l' : PageTableLevel} :
    l.nextLowerLevel = some l' ↔ l'.toNat + 1 = l.toNat := by
  cases l <;> cases l' <;> decide

theorem nextLowerLevel_eq_none_iff {l : PageTableLevel} : l.nextLowerLevel = none ↔ l = one := by
  cases l <;> decide

theorem one_le_toNat (l : PageTableLevel) : 1 ≤ l.toNat := by
  cases l <;> decide

theorem toNat_eq_one_iff {l : PageTableLevel} : l.toNat = 1 ↔ l = one := by
  cases l <;> decide

end PageTableLevel

/-- One table: `entries : [u64; 512]`, its level, the table above and the index of the
entry there that points here. -/
structure PageTable where
  entries : ℕ → ℕ
  level : PageTableLevel
  upperLevel : ℕ
  upperLevelIndex : ℕ

namespace PageTable

/-- `PageTable::new`: an empty table. -/
def new (level : PageTableLevel) (upper idx : ℕ) : PageTable := ⟨fun _ => 0, level, upper, idx⟩

/-- `Default`: an empty level-four table with a null back-pointer. -/
instance : Inhabited PageTable := ⟨new .four 0 0⟩

def getLevel (self : PageTable) : PageTableLevel := self.level

def getUpperLevelPage (self : PageTable) : ℕ := self.upperLevel

def getUpperLevelPageIndex (self : PageTable) : ℕ := self.upperLevelIndex

/-- `pt[index] = value`. -/
def set (self : PageTable) (index value : ℕ) : PageTable :=
  { self with entries := Function.update self.entries index value }

/-- `PageTable::find_valid_entry`: the first non-zero entry from `startIdx` on. -/
def findValidEntry (self : PageTable) (startIdx : ℕ) : Option ℕ :=
  (List.range' startIdx (entryCount - startIdx)).find? fun i => self.entries i != 0

/-- `PageTable::new_from_upper`: box an empty table one level below `*src`, with its
back-pointer set to `(src, idx)`. -/
def newFromUpper (h : Heap PageTable) (src idx : ℕ) : Except String (ℕ × Heap PageTable) := do
  let level ← unwrap (h.get src).getLevel.nextLowerLevel
  pure (h.alloc (new level src idx))

@[simp] theorem entries_new (level : PageTableLevel) (upper idx i : ℕ) :
    (new level upper idx).entries i = 0 := rfl

@[simp] theorem level_new (level : PageTableLevel) (upper idx : ℕ) :
    (new level upper idx).level = level := rfl

@[simp] theorem upperLevel_new (level : PageTableLevel) (upper idx : ℕ) :
    (new level upper idx).upperLevel = upper := rfl

@[simp] theorem upperLevelIndex_new (level : PageTableLevel) (upper idx : ℕ) :
    (new level upper idx).upperLevelIndex = idx := rfl

@[simp] theorem entries_default (i : ℕ) : (default : PageTable).entries i = 0 := rfl

@[simp] theorem entries_set (self : PageTable) (index value i : ℕ) :
    (self.set index value).entries i = if i = index then value else self.entries i := by
  simp [set, Function.update_apply]

@[simp] theorem level_set (self : PageTable) (index value : ℕ) :
    (self.set index value).level = self.level := rfl

@[simp] theorem upperLevel_set (self : PageTable) (index value : ℕ) :
    (self.set index value).upperLevel = self.upperLevel := rfl

@[simp] theorem upperLevelIndex_set (self : PageTable) (index value : ℕ) :
    (self.set index value).upperLevelIndex = self.upperLevelIndex := rfl

theorem newFromUpper_eq {h : Heap PageTable} {src : ℕ} {level : PageTableLevel} (idx : ℕ)
    (hl : (h.get src).level.nextLowerLevel = some level) :
    newFromUpper h src idx = .ok (h.alloc (new level src idx)) := by
  simp [newFromUpper, getLevel, hl]

theorem newFromUpper_of_one {h : Heap PageTable} {src : ℕ} (idx : ℕ)
    (hl : (h.get src).level = .one) : newFromUpper h src idx =
      .error "called Option::unwrap() on a None value" := by
  simp [newFromUpper, getLevel, hl, PageTableLevel.nextLowerLevel]

end PageTable

end Mitosis
