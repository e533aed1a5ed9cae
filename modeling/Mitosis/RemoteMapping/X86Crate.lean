import Mitosis.RemoteMapping.X86

/-!
# The code of the `x86_64` crate behind `Paging`

The functions of the crate (version 0.14.9) that `Paging` abstracts, as the crate writes
them, and the proof that they have the documented behaviour `Paging` asks for. The model is
generic in `Paging`; this instance only runs its theorems on concrete inputs with the real
functions.
-/
namespace X86_64.Crate

/-- The value of `VirtAddr::new_truncate`: `((addr << 16) as i64 >> 16) as u64`, which
copies bit 47 into bits 48 to 63. -/
def signExtend (addr : UInt64) : UInt64 := ((addr <<< 16).toInt64 >>> 16).toUInt64

theorem toNat_signExtend (addr : UInt64) : (signExtend addr).toNat =
    if addr.toNat / 2 ^ 47 % 2 = 1 then addr.toNat % 2 ^ 48 + (2 ^ 64 - 2 ^ 48)
    else addr.toNat % 2 ^ 48 := by
  unfold signExtend
  rw [← UInt64.toNat_toBitVec]
  have h16 : UInt64.toBitVec 16 % 64 = 16#64 := by decide
  have h16' : (Int64.toBitVec 16).smod 64 = 16#64 := by decide
  simp only [Int64.toBitVec_toUInt64, Int64.toBitVec_shiftRight, UInt64.toBitVec_toInt64,
    UInt64.toBitVec_shiftLeft, BitVec.sshiftRight_eq', BitVec.toNat_sshiftRight,
    BitVec.msb_eq_decide, h16, h16', BitVec.toNat_ofNat]
  have hlt := addr.toNat_lt
  simp only [Nat.shiftRight_eq_div_pow, show (16 % 2 ^ 64 : ℕ) = 16 from rfl]
  norm_num
  split_ifs <;> omega

theorem canonical_signExtend (addr : UInt64) : Canonical (signExtend addr) := by
  rw [canonical_iff, toNat_signExtend]
  split_ifs <;> omega

theorem signExtend_of_canonical {addr : UInt64} (h : Canonical addr) : signExtend addr = addr := by
  rw [canonical_iff] at h
  have hlt := addr.toNat_lt
  rw [← UInt64.toNat_inj, toNat_signExtend]
  split_ifs <;> omega

/-- `x86_64::align_down`: clear the bits below `align`. The crate asserts that `align` is a
power of two; the only caller passes `4096`. -/
def alignDown (addr align : UInt64) : UInt64 := addr &&& ~~~(align - 1)

theorem toNat_alignDown_4096 (addr : UInt64) :
    (alignDown addr 4096).toNat = addr.toNat / 4096 * 4096 := by
  unfold alignDown
  have hlt := addr.toNat_lt
  rw [UInt64.toNat_and, UInt64.toNat_not, show (4096 - 1 : UInt64).toNat = 4095 from rfl,
    show (UInt64.size - 1 - 4095 : ℕ) = 2 ^ 64 - (2 ^ 12 - 1 + 1) from rfl,
    show (4096 : ℕ) = 2 ^ 12 from rfl, ← Nat.shiftLeft_eq, ← Nat.shiftRight_eq_div_pow]
  apply Nat.eq_of_testBit_eq
  intro i
  rw [Nat.testBit_and, Nat.testBit_two_pow_sub_succ (by norm_num), Nat.testBit_two_pow_sub_one,
    Nat.testBit_shiftLeft, Nat.testBit_shiftRight]
  by_cases hi : 12 ≤ i
  · rw [show 12 + (i - 12) = i by omega]
    by_cases h64 : i < 64
    · simp [hi, h64]
    · have hbit : addr.toNat.testBit i = false :=
        Nat.testBit_lt_two_pow (lt_of_lt_of_le hlt (Nat.pow_le_pow_right (by norm_num) (by omega)))
      simp [hbit]
  · have hlow : i < 12 := by omega
    simp [hi, hlow]

/-- `PageTableIndex::new_truncate`: keep the low nine bits. -/
def newTruncateIndex (index : UInt16) : PageTableIndex :=
  ⟨index % 512, by rw [UInt16.toNat_mod]; exact Nat.mod_lt _ (by decide)⟩

theorem toUsize_newTruncateIndex (x : UInt64) :
    (newTruncateIndex x.toUInt16).toUsize = x.toNat % 512 := by
  rw [PageTableIndex.toUsize, newTruncateIndex, UInt16.toNat_mod, UInt64.toNat_toUInt16]
  exact Nat.mod_mod_of_dvd _ (by decide)

/-- `VirtAddr::new_truncate`. -/
def newTruncate (addr : UInt64) : VirtAddr := ⟨signExtend addr, canonical_signExtend addr⟩

/-- `VirtAddr::try_new`. -/
def tryNew (addr : UInt64) : Option VirtAddr :=
  if h : Canonical addr then some ⟨addr, h⟩
  else if addr >>> 47 = 1 then some (newTruncate addr)
  else none

/-- `VirtAddr::new`: a panic where `try_new` fails. -/
def virtAddrNew (addr : UInt64) : Except String VirtAddr :=
  match tryNew addr with
  | some v => .ok v
  | none => .error "address passed to VirtAddr::new must not contain any data in bits 48 to 64"

/-- `VirtAddr::align_down`. -/
def virtAddrAlignDown (self : VirtAddr) (align : UInt64) : VirtAddr :=
  newTruncate (alignDown self.val align)

/-- `Page::containing_address`. -/
def containingAddress (address : VirtAddr) : Page :=
  ⟨virtAddrAlignDown address 4096, by
    have hc := (canonical_iff _).mp address.canonical
    have hlt := address.val.toNat_lt
    have hcan : Canonical (alignDown address.val 4096) := by
      rw [canonical_iff, toNat_alignDown_4096]; omega
    simp only [virtAddrAlignDown, newTruncate, signExtend_of_canonical hcan, toNat_alignDown_4096]
    omega⟩

/-- `VirtAddr::p1_index` to `p4_index` on the start of the page. -/
def p1Index (self : Page) : PageTableIndex :=
  newTruncateIndex (self.startAddress.val >>> 12).toUInt16

def p2Index (self : Page) : PageTableIndex :=
  newTruncateIndex (self.startAddress.val >>> 12 >>> 9).toUInt16

def p3Index (self : Page) : PageTableIndex :=
  newTruncateIndex (self.startAddress.val >>> 12 >>> 9 >>> 9).toUInt16

def p4Index (self : Page) : PageTableIndex :=
  newTruncateIndex (self.startAddress.val >>> 12 >>> 9 >>> 9 >>> 9).toUInt16

theorem virtAddrNew_panics (addr : UInt64) (h0 : addr >>> 47 ≠ 0) (h1 : addr >>> 47 ≠ 1)
    (hf : addr >>> 47 ≠ 0x1ffff) : ∃ msg, virtAddrNew addr = .error msg := by
  have hnc : ¬Canonical addr := by rintro (h | h) <;> contradiction
  exact ⟨"address passed to VirtAddr::new must not contain any data in bits 48 to 64",
    by simp [virtAddrNew, tryNew, hnc, h1]⟩

theorem toNat_containingAddress (a : VirtAddr) :
    (containingAddress a).startAddress.val.toNat = a.val.toNat / 4096 * 4096 := by
  have hc := (canonical_iff _).mp a.canonical
  have hlt := a.val.toNat_lt
  have hcan : Canonical (alignDown a.val 4096) := by
    rw [canonical_iff, toNat_alignDown_4096]; omega
  simp only [containingAddress, virtAddrAlignDown, newTruncate, signExtend_of_canonical hcan,
    toNat_alignDown_4096]

/-- The crate's functions have the behaviour `Paging` documents. -/
instance paging : Paging where
  virtAddrNew := virtAddrNew
  pageContaining := containingAddress
  pageP4Index := p4Index
  pageP3Index := p3Index
  pageP2Index := p2Index
  pageP1Index := p1Index
  virtAddrNew_of_canonical addr h := by simp [virtAddrNew, tryNew, h]
  virtAddrNew_panics := virtAddrNew_panics
  toNat_pageContaining := toNat_containingAddress
  toUsize_pageP4Index pg := by
    rw [p4Index, toUsize_newTruncateIndex]
    simp [UInt64.toNat_shiftRight, Nat.shiftRight_eq_div_pow, Nat.div_div_eq_div_mul]
  toUsize_pageP3Index pg := by
    rw [p3Index, toUsize_newTruncateIndex]
    simp [UInt64.toNat_shiftRight, Nat.shiftRight_eq_div_pow, Nat.div_div_eq_div_mul]
  toUsize_pageP2Index pg := by
    rw [p2Index, toUsize_newTruncateIndex]
    simp [UInt64.toNat_shiftRight, Nat.shiftRight_eq_div_pow, Nat.div_div_eq_div_mul]
  toUsize_pageP1Index pg := by
    rw [p1Index, toUsize_newTruncateIndex]
    simp [UInt64.toNat_shiftRight, Nat.shiftRight_eq_div_pow]

end X86_64.Crate
