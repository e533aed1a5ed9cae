import Mathlib

/-!
# Virtual addresses and 4 KiB pages of the `x86_64` crate

The remote mapping names pages and table indices with the `x86_64` crate, a dependency
outside the repository. Its data types are modelled as documented: a `VirtAddr` is a
canonical `u64` (bits 48 to 63 repeat bit 47), a 4 KiB `Page` is named by its aligned start
address, and a `PageTableIndex` is below 512. The functions the repository calls are the
parameters of the model, collected in `Paging` together with the documented behaviour the
code relies on: `VirtAddr::new` keeps a canonical value and panics on a value whose bits 47
to 63 are neither all clear, nor all set, nor clear but for bit 47; the start of the page
containing an address is that address rounded down to 4 KiB; and the four indices of a
page are bits 39..47, 30..38, 21..29 and 12..20 of its start.

The second half proves, from these laws alone, that a page is determined by its four
indices.
-/
namespace X86_64

/-- `addr.get_bits(47..64)` is `0` or `0x1ffff`. -/
def Canonical (addr : UInt64) : Prop := addr >>> 47 = 0 ∨ addr >>> 47 = 0x1ffff

instance (addr : UInt64) : Decidable (Canonical addr) :=
  inferInstanceAs (Decidable (_ ∨ _))

theorem toNat_shiftRight_47 (addr : UInt64) : (addr >>> 47).toNat = addr.toNat / 2 ^ 47 := by
  simp [UInt64.toNat_shiftRight, Nat.shiftRight_eq_div_pow]

theorem canonical_iff (addr : UInt64) :
    Canonical addr ↔ addr.toNat < 2 ^ 47 ∨ 2 ^ 64 - 2 ^ 47 ≤ addr.toNat := by
  have hlt := addr.toNat_lt
  rw [Canonical, ← UInt64.toNat_inj, ← UInt64.toNat_inj, toNat_shiftRight_47]
  simp only [UInt64.toNat_zero, UInt64.reduceToNat]
  omega

/-- `x86_64::VirtAddr`; every value of it is canonical. -/
structure VirtAddr where
  val : UInt64
  canonical : Canonical val
  deriving DecidableEq

theorem VirtAddr.ext_val {a b : VirtAddr} (h : a.val = b.val) : a = b := by
  cases a; cases b; cases h; rfl

/-- A nine-bit index into a page table; `usize::from` of it is `toUsize`. -/
structure PageTableIndex where
  val : UInt16
  lt : val.toNat < 512
  deriving DecidableEq

def PageTableIndex.toUsize (self : PageTableIndex) : ℕ := self.val.toNat

theorem PageTableIndex.eq_of_toUsize_eq {i j : PageTableIndex} (h : i.toUsize = j.toUsize) :
    i = j := by
  cases i; cases j
  simp only [toUsize, UInt16.toNat_inj] at h
  simp [h]

/-- `Page<Size4KiB>`: a page named by its start address, which is 4 KiB aligned. -/
structure Page where
  startAddress : VirtAddr
  aligned : startAddress.val.toNat % 4096 = 0
  deriving DecidableEq

theorem Page.ext_val {p q : Page} (h : p.startAddress.val = q.startAddress.val) : p = q := by
  cases p; cases q; cases VirtAddr.ext_val h; rfl

/-- The functions of the crate the repository calls, with their documented behaviour. -/
class Paging where
  /-- `VirtAddr::new` -/
  virtAddrNew : UInt64 → Except String VirtAddr
  /-- `Page::containing_address` -/
  pageContaining : VirtAddr → Page
  /-- `Page::p4_index` -/
  pageP4Index : Page → PageTableIndex
  /-- `Page::p3_index` -/
  pageP3Index : Page → PageTableIndex
  /-- `Page::p2_index` -/
  pageP2Index : Page → PageTableIndex
  /-- `Page::p1_index` -/
  pageP1Index : Page → PageTableIndex
  virtAddrNew_of_canonical : ∀ addr (h : Canonical addr), virtAddrNew addr = .ok ⟨addr, h⟩
  virtAddrNew_panics : ∀ addr : UInt64, addr >>> 47 ≠ 0 → addr >>> 47 ≠ 1 →
    addr >>> 47 ≠ 0x1ffff → ∃ msg, virtAddrNew addr = .error msg
  toNat_pageContaining : ∀ a,
    (pageContaining a).startAddress.val.toNat = a.val.toNat / 4096 * 4096
  toUsize_pageP4Index : ∀ pg, (pageP4Index pg).toUsize = pg.startAddress.val.toNat / 2 ^ 39 % 512
  toUsize_pageP3Index : ∀ pg, (pageP3Index pg).toUsize = pg.startAddress.val.toNat / 2 ^ 30 % 512
  toUsize_pageP2Index : ∀ pg, (pageP2Index pg).toUsize = pg.startAddress.val.toNat / 2 ^ 21 % 512
  toUsize_pageP1Index : ∀ pg, (pageP1Index pg).toUsize = pg.startAddress.val.toNat / 2 ^ 12 % 512

variable [Paging]

abbrev VirtAddr.new (addr : UInt64) : Except String VirtAddr := Paging.virtAddrNew addr

namespace Page

abbrev containingAddress (address : VirtAddr) : Page := Paging.pageContaining address

abbrev p4Index (self : Page) : PageTableIndex := Paging.pageP4Index self

abbrev p3Index (self : Page) : PageTableIndex := Paging.pageP3Index self

abbrev p2Index (self : Page) : PageTableIndex := Paging.pageP2Index self

abbrev p1Index (self : Page) : PageTableIndex := Paging.pageP1Index self

theorem containingAddress_startAddress (pg : Page) : containingAddress pg.startAddress = pg := by
  apply ext_val
  rw [← UInt64.toNat_inj, Paging.toNat_pageContaining]
  have := pg.aligned
  omega

theorem containingAddress_eq_iff (a b : VirtAddr) :
    containingAddress a = containingAddress b ↔ a.val.toNat / 4096 = b.val.toNat / 4096 := by
  constructor
  · intro h
    have hv := congrArg (fun p : Page => p.startAddress.val.toNat) h
    simp only [Paging.toNat_pageContaining] at hv
    omega
  · intro h
    apply ext_val
    rw [← UInt64.toNat_inj, Paging.toNat_pageContaining, Paging.toNat_pageContaining, h]

theorem containingAddress_div (a : VirtAddr) :
    (containingAddress a).startAddress.val.toNat / 4096 = a.val.toNat / 4096 := by
  rw [Paging.toNat_pageContaining]
  omega

@[simp] theorem toUsize_p1Index (a : VirtAddr) :
    (containingAddress a).p1Index.toUsize = a.val.toNat / 2 ^ 12 % 512 := by
  rw [p1Index, Paging.toUsize_pageP1Index, Paging.toNat_pageContaining]
  omega

@[simp] theorem toUsize_p2Index (a : VirtAddr) :
    (containingAddress a).p2Index.toUsize = a.val.toNat / 2 ^ 21 % 512 := by
  rw [p2Index, Paging.toUsize_pageP2Index, Paging.toNat_pageContaining]
  omega

@[simp] theorem toUsize_p3Index (a : VirtAddr) :
    (containingAddress a).p3Index.toUsize = a.val.toNat / 2 ^ 30 % 512 := by
  rw [p3Index, Paging.toUsize_pageP3Index, Paging.toNat_pageContaining]
  omega

@[simp] theorem toUsize_p4Index (a : VirtAddr) :
    (containingAddress a).p4Index.toUsize = a.val.toNat / 2 ^ 39 % 512 := by
  rw [p4Index, Paging.toUsize_pageP4Index, Paging.toNat_pageContaining]
  omega

/-- Two canonical addresses lie in one page exactly when their four table indices agree:
the indices hold bits 12 to 47, and canonicity fixes bits 48 to 63 from bit 47. -/
theorem containingAddress_eq_iff_indices (a b : VirtAddr) :
    containingAddress a = containingAddress b ↔
      (containingAddress a).p4Index = (containingAddress b).p4Index ∧
      (containingAddress a).p3Index = (containingAddress b).p3Index ∧
      (containingAddress a).p2Index = (containingAddress b).p2Index ∧
      (containingAddress a).p1Index = (containingAddress b).p1Index := by
  have index_eq : ∀ i j : PageTableIndex, i = j ↔ i.toUsize = j.toUsize :=
    fun _ _ => ⟨congrArg _, PageTableIndex.eq_of_toUsize_eq⟩
  have ha := (canonical_iff _).mp a.canonical
  have hb := (canonical_iff _).mp b.canonical
  have hla := a.val.toNat_lt
  have hlb := b.val.toNat_lt
  simp only [index_eq, toUsize_p1Index, toUsize_p2Index, toUsize_p3Index, toUsize_p4Index,
    containingAddress_eq_iff]
  omega

end Page

end X86_64
