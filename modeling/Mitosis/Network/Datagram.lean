import Mitosis.Network.Rdma

/-!
# Datagram messages of `os_network::datagram`

A `UDMsg` is a buffer of kernel memory registered with the NIC: the window of its bytes, the
RDMA address through which a remote reader reaches it, and the immediate value sent with it.
`MemoryRegion::new` allocates and registers the memory; it belongs to the NIC's driver and is
a parameter here, an allocator that may fail.
-/
namespace OsNetwork

/-- `MemoryRegion::new(context, size)`: allocate and register `size` bytes, giving their kernel
address and their RDMA address, or fail; `A` is the state of the allocator. -/
structure MrAllocator (A : Type) where
  mrNew : ℕ → A → Option ((ℕ × UInt64) × A)

/-- `UDMsg`: the RDMA address of the region, the window of its bytes, and the immediate. -/
structure UDMsg where
  rdmaAddr : UInt64
  bytes : BytesMut
  imm : UInt32
  deriving DecidableEq

namespace UDMsg

variable {A : Type}

/-- `UDMsg::new`: a registered buffer of `size` bytes; the allocation is expected to
succeed. -/
def new (mr : MrAllocator A) (size : ℕ) (hsize : size < 2 ^ 64) (imm : UInt32) (a : A) :
    Except String (UDMsg × A) := do
  let ((va, pa), a) ← expect (mr.mrNew size a) "Memory allocation should succeed."
  pure (⟨pa, ⟨va, size, hsize⟩, imm⟩, a)

def getPa (self : UDMsg) : UInt64 := self.rdmaAddr

def len (self : UDMsg) : ℕ := self.bytes.len

def getBytesMut (self : UDMsg) : BytesMut := self.bytes

theorem len_of_new {mr : MrAllocator A} {size : ℕ} {hsize : size < 2 ^ 64} {imm : UInt32}
    {a a' : A} {msg : UDMsg} (h : new mr size hsize imm a = .ok (msg, a')) : msg.len = size := by
  unfold new at h
  cases hm : mr.mrNew size a with
  | none => simp [hm, expect] at h
  | some r =>
    simp only [hm, expect_some, ok_bind] at h
    cases h
    rfl

theorem new_of_mrNew {mr : MrAllocator A} {size : ℕ} (hsize : size < 2 ^ 64) (imm : UInt32)
    {a a' : A} {va : ℕ} {pa : UInt64} (h : mr.mrNew size a = some ((va, pa), a')) :
    new mr size hsize imm a = .ok (⟨pa, ⟨va, size, hsize⟩, imm⟩, a') := by
  simp [new, h]

end UDMsg

end OsNetwork
