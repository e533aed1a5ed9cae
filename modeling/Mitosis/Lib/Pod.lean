import Mathlib

/-!
# Plain data copied byte for byte

A type is `Pod` when a value is written as a fixed number of bytes and read back from
exactly those bytes. This is what `core::ptr::copy_nonoverlapping` of one value does on
x86-64, and what an unaligned read or write of a scalar does. Integers are laid out little
endian. Composite records are built from their fields with `Pod.prod` and `Pod.ofEquiv`;
padding bytes are written as zeros and ignored when read back.
-/
namespace Pod

/-- The `w` little-endian bytes of `n`, dropping what does not fit. -/
def toListLE : ℕ → ℕ → List UInt8
  | 0, _ => []
  | w + 1, n => UInt8.ofNat (n % 256) :: toListLE w (n / 256)

/-- The number whose little-endian bytes are the list. -/
def ofListLE : List UInt8 → ℕ
  | [] => 0
  | b :: bs => b.toNat + 256 * ofListLE bs

@[simp] theorem length_toListLE (w n : ℕ) : (toListLE w n).length = w := by
  induction w generalizing n with
  | zero => rfl
  | succ w ih => simp [toListLE, ih]

theorem ofListLE_toListLE (w n : ℕ) : ofListLE (toListLE w n) = n % 256 ^ w := by
  induction w generalizing n with
  | zero => simp [toListLE, ofListLE, Nat.mod_one]
  | succ w ih =>
    have hb : (UInt8.ofNat (n % 256)).toNat = n % 256 := by
      rw [UInt8.toNat_ofNat']
      exact Nat.mod_eq_of_lt (by omega)
    simp only [toListLE, ofListLE, hb, ih, pow_succ']
    rw [Nat.mod_mul]

theorem ofListLE_toListLE_of_lt {w n : ℕ} (h : n < 256 ^ w) :
    ofListLE (toListLE w n) = n := by
  rw [ofListLE_toListLE, Nat.mod_eq_of_lt h]

end Pod

/-- Values copied as a fixed-size byte image: writing gives `size` bytes, and reading those
bytes back gives the value. -/
class Pod (α : Type) where
  size : ℕ
  toBytes : α → List UInt8
  ofBytes : List UInt8 → α
  length_toBytes : ∀ a, (toBytes a).length = size
  ofBytes_toBytes : ∀ a, ofBytes (toBytes a) = a

namespace Pod

attribute [simp] Pod.length_toBytes Pod.ofBytes_toBytes

variable {α β : Type}

theorem ofBytes_take_toBytes_append [Pod α] (a : α) (rest : List UInt8) :
    ofBytes ((toBytes a ++ rest).take (size α)) = a := by
  rw [← length_toBytes a, List.take_left]
  simp

theorem drop_toBytes_append [Pod α] (a : α) (rest : List UInt8) :
    (toBytes a ++ rest).drop (size α) = rest := by
  rw [← length_toBytes a, List.drop_left]

instance : Pod UInt8 where
  size := 1
  toBytes b := [b]
  ofBytes l := l.headD 0
  length_toBytes _ := rfl
  ofBytes_toBytes _ := rfl

instance : Pod UInt16 where
  size := 2
  toBytes x := toListLE 2 x.toNat
  ofBytes l := UInt16.ofNat (ofListLE l)
  length_toBytes _ := length_toListLE _ _
  ofBytes_toBytes x := by
    rw [ofListLE_toListLE_of_lt (by simpa using x.toNat_lt), UInt16.ofNat_toNat]

instance : Pod UInt32 where
  size := 4
  toBytes x := toListLE 4 x.toNat
  ofBytes l := UInt32.ofNat (ofListLE l)
  length_toBytes _ := length_toListLE _ _
  ofBytes_toBytes x := by
    rw [ofListLE_toListLE_of_lt (by simpa using x.toNat_lt), UInt32.ofNat_toNat]

instance : Pod UInt64 where
  size := 8
  toBytes x := toListLE 8 x.toNat
  ofBytes l := UInt64.ofNat (ofListLE l)
  length_toBytes _ := length_toListLE _ _
  ofBytes_toBytes x := by
    rw [ofListLE_toListLE_of_lt (by simpa using x.toNat_lt), UInt64.ofNat_toNat]

@[simp] theorem size_uint8 : size UInt8 = 1 := rfl

@[simp] theorem size_uint16 : size UInt16 = 2 := rfl

@[simp] theorem size_uint32 : size UInt32 = 4 := rfl

@[simp] theorem size_uint64 : size UInt64 = 8 := rfl

/-- A Rust `bool` is one byte holding `0` or `1`. -/
instance : Pod Bool where
  size := 1
  toBytes b := [if b then 1 else 0]
  ofBytes l := l.headD 0 != 0
  length_toBytes _ := rfl
  ofBytes_toBytes b := by cases b <;> rfl

/-- `n` bytes of padding: written as zeros, never read. -/
structure Pad (n : ℕ) where
  deriving DecidableEq, Repr

instance (n : ℕ) : Pod (Pad n) where
  size := n
  toBytes _ := List.replicate n 0
  ofBytes _ := {}
  length_toBytes _ := List.length_replicate
  ofBytes_toBytes _ := rfl

/-- Two images side by side, as the fields of a `repr(C)`-like record. -/
instance prod [Pod α] [Pod β] : Pod (α × β) where
  size := size α + size β
  toBytes p := toBytes p.1 ++ toBytes p.2
  ofBytes l := (ofBytes (l.take (size α)), ofBytes (l.drop (size α)))
  length_toBytes p := by simp
  ofBytes_toBytes p := by
    simp only [ofBytes_take_toBytes_append, drop_toBytes_append, ofBytes_toBytes]

/-- The image of each element of a fixed-length array, in order. -/
instance vector [Pod α] : (n : ℕ) → Pod (List.Vector α n)
  | 0 =>
    { size := 0
      toBytes _ := []
      ofBytes _ := List.Vector.nil
      length_toBytes _ := rfl
      ofBytes_toBytes v := v.eq_nil.symm }
  | n + 1 =>
    let tail := vector n
    { size := size α + tail.size
      toBytes v := toBytes v.head ++ tail.toBytes v.tail
      ofBytes l := List.Vector.cons (ofBytes (l.take (size α))) (tail.ofBytes (l.drop (size α)))
      length_toBytes v := by simp [tail.length_toBytes]
      ofBytes_toBytes v := by
        simp only [ofBytes_take_toBytes_append, drop_toBytes_append, tail.ofBytes_toBytes]
        exact List.Vector.cons_head_tail v }

/-- A record laid out as another `Pod` type, given the conversions between them. -/
@[reducible] def ofEquiv [Pod β] (f : α → β) (g : β → α) (h : ∀ a, g (f a) = a) : Pod α where
  size := size β
  toBytes a := toBytes (f a)
  ofBytes l := g (ofBytes l)
  length_toBytes a := length_toBytes (f a)
  ofBytes_toBytes a := by simp [h]

end Pod
