import Mitosis.Network.Bytes

/-!
# The fixed-size descriptor records

`RegDescriptor`, `VMADescriptor` and `RDMADescriptor` use the default `Serialize`
methods, so on the wire each is its in-memory image, copied by `memcpy`. The layouts
below have the size `core::mem::size_of` gives for each record (184, 40 and 56 bytes).
The order of fields inside an image is the compiler's choice; no code of the descriptors
looks inside an image, it only copies it and reads it back.
-/
namespace Mitosis

/-- `pt_regs` of the x86-64 kernel: 21 machine words, generated from the kernel headers. -/
abbrev StackRegisters : Type := List.Vector UInt64 21

/-- The registers of the forked task. -/
structure RegDescriptor where
  others : StackRegisters
  fs : UInt64
  gs : UInt64
  deriving DecidableEq

instance : Pod RegDescriptor :=
  Pod.ofEquiv (fun r => (r.others, r.fs, r.gs)) (fun t => ⟨t.1, t.2.1, t.2.2⟩) (fun _ => rfl)

/-- One VMA of the parent: its address range `[start, end)`, its flags and protection
bits, and whether it is anonymous. -/
structure VMADescriptor where
  range : UInt64 × UInt64
  flags : UInt64
  prot : UInt64
  isAnonymous : Bool
  deriving DecidableEq, Repr

namespace VMADescriptor

def getStart (self : VMADescriptor) : UInt64 := self.range.1

def getEnd (self : VMADescriptor) : UInt64 := self.range.2

end VMADescriptor

instance : Pod VMADescriptor :=
  Pod.ofEquiv (fun v => (v.range, v.flags, v.prot, v.isAnonymous, ({} : Pod.Pad 7)))
    (fun t => ⟨t.1, t.2.1, t.2.2.1, t.2.2.2.1⟩) (fun _ => rfl)

/-- `ib_gid`, a sixteen-byte union, seen as its raw bytes. -/
abbrev IbGid : Type := List.Vector UInt8 16

/-- How to reach the parent over RDMA. -/
structure RDMADescriptor where
  serviceId : UInt64
  portNum : UInt8
  gid : IbGid
  lid : UInt16
  rkey : UInt32
  dctKey : UInt64
  dctNum : UInt32
  macId : UInt64
  deriving DecidableEq

instance : Pod RDMADescriptor :=
  Pod.ofEquiv
    (fun d => (d.serviceId, d.portNum, d.gid, d.lid, d.rkey, d.dctKey, d.dctNum, d.macId,
      ({} : Pod.Pad 5)))
    (fun t => ⟨t.1, t.2.1, t.2.2.1, t.2.2.2.1, t.2.2.2.2.1, t.2.2.2.2.2.1, t.2.2.2.2.2.2.1,
      t.2.2.2.2.2.2.2.1⟩)
    (fun _ => rfl)

@[simp] theorem size_regDescriptor : Pod.size RegDescriptor = 184 := rfl

@[simp] theorem size_vmaDescriptor : Pod.size VMADescriptor = 40 := rfl

@[simp] theorem size_rdmaDescriptor : Pod.size RDMADescriptor = 56 := rfl

end Mitosis
