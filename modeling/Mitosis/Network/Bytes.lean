import Mitosis.Lib.Memory

/-!
# `os_network::bytes` and `os_network::serialize`

A `BytesMut` is a raw window `(ptr, len)` into kernel memory. Cutting a header off moves
the window forward; the checked copies (`memcpy_serialize`, `memcpy_deserialize`) compare
the size of the value with the window first, while the unaligned accessors read or write
at the head without looking at `len`. Writes return the new memory.

A Rust panic (a failed `unwrap`, an `assert_eq!`) ends the run: functions that can panic
return `Except String`, with the panic message as the error.
-/
namespace OsNetwork

/-- `Option::unwrap`: a panic on `None`. -/
def unwrap {α : Type} : Option α → Except String α
  | some a => .ok a
  | none => .error "called Option::unwrap() on a None value"

@[simp] theorem unwrap_some {α : Type} (a : α) : unwrap (some a) = .ok a := rfl

@[simp] theorem unwrap_none {α : Type} : unwrap (none : Option α) = .error
    "called Option::unwrap() on a None value" := rfl

@[simp] theorem ok_bind {ε α β : Type} (a : α) (f : α → Except ε β) :
    (Except.ok a >>= f) = f a := rfl

@[simp] theorem error_bind {ε α β : Type} (e : ε) (f : α → Except ε β) :
    (Except.error e >>= f) = .error e := rfl

theorem bind_eq_ok {ε α β : Type} {x : Except ε α} {f : α → Except ε β} {b : β} :
    x >>= f = .ok b ↔ ∃ a, x = .ok a ∧ f a = .ok b := by
  cases x with
  | error e => simp only [error_bind, reduceCtorEq, false_and, exists_false]
  | ok a => simp

theorem bind_eq_error {ε α β : Type} {x : Except ε α} {f : α → Except ε β} {e : ε} :
    x >>= f = .error e ↔ x = .error e ∨ ∃ a, x = .ok a ∧ f a = .error e := by
  cases x with
  | error e' => simp
  | ok a => simp

theorem mapM_of_ok {ε α β : Type} {f : α → Except ε β} {g : α → β} :
    ∀ {l : List α}, (∀ x ∈ l, f x = .ok (g x)) → l.mapM f = .ok (l.map g)
  | [], _ => rfl
  | x :: l, h => by
    rw [List.mapM_cons, h x List.mem_cons_self,
      mapM_of_ok fun y hy => h y (List.mem_cons_of_mem _ hy)]
    rfl

/-- A loop over a list that succeeds has one value for each element. -/
theorem length_of_mapM_ok {ε α β : Type} {f : α → Except ε β} :
    ∀ {l : List α} {r : List β}, l.mapM f = .ok r → r.length = l.length
  | [], r, h => by
    cases h
    rfl
  | x :: l, r, h => by
    rw [List.mapM_cons, bind_eq_ok] at h
    obtain ⟨b, -, h⟩ := h
    rw [bind_eq_ok] at h
    obtain ⟨bs, hbs, h⟩ := h
    cases h
    simp [length_of_mapM_ok hbs]

/-- `Option::expect`: a panic with the given message on `None`. -/
def expect {α : Type} (o : Option α) (msg : String) : Except String α :=
  match o with
  | some a => .ok a
  | none => .error msg

@[simp] theorem expect_some {α : Type} (a : α) (msg : String) : expect (some a) msg = .ok a := rfl

/-- `assert_eq!` on two lengths. -/
def assertEq (a b : ℕ) : Except String Unit :=
  if a = b then .ok () else .error "assertion failed: left == right"

/-- `a + b` on `u64` or `usize` with overflow checks on, as the crates are built: a panic
past `2 ^ 64 - 1`. -/
def checkedAdd (a b : ℕ) : Except String ℕ :=
  if a + b < 2 ^ 64 then .ok (a + b) else .error "attempt to add with overflow"

theorem checkedAdd_of_lt {a b : ℕ} (h : a + b < 2 ^ 64) : checkedAdd a b = .ok (a + b) := by
  rw [checkedAdd, if_pos h]

/-- `a - b` on `u64` with overflow checks: a panic below zero. -/
def checkedSub (a b : ℕ) : Except String ℕ :=
  if b ≤ a then .ok (a - b) else .error "attempt to subtract with overflow"

theorem checkedSub_of_le {a b : ℕ} (h : b ≤ a) : checkedSub a b = .ok (a - b) := by
  rw [checkedSub, if_pos h]

/-- A window of `len` bytes starting at address `ptr`; its length is a `usize`. -/
structure BytesMut where
  ptr : ℕ
  len : ℕ
  len_lt : len < 2 ^ 64
  deriving DecidableEq

namespace BytesMut

variable {T : Type} [Pod T]

/-- The window moved forward by `off` bytes. -/
def advance (self : BytesMut) (off : ℕ) : BytesMut :=
  ⟨self.ptr + off, self.len - off, by have := self.len_lt; omega⟩

/-- Drop the first `off` bytes of the window, if it has that many. -/
def truncateHeader (self : BytesMut) (off : ℕ) : Option BytesMut :=
  if self.len ≥ off then some (self.advance off) else none

/-- `clone_and_resize`: the first `sz` bytes of the window, if it has that many. -/
def cloneAndResize (self : BytesMut) (sz : ℕ) : Option BytesMut :=
  if h : self.len ≥ sz then some ⟨self.ptr, sz, Nat.lt_of_le_of_lt h self.len_lt⟩ else none

/-- Copy a value to the head of the window when it fits, returning its size. -/
def memcpySerialize (self : BytesMut) (v : T) (m : Memory) : Option ℕ × Memory :=
  if Pod.size T ≤ self.len then (some (Pod.size T), m.write self.ptr (Pod.toBytes v))
  else (none, m)

/-- `memcpy_serialize` after skipping `off` bytes. -/
def memcpySerializeAt (self : BytesMut) (off : ℕ) (v : T) (m : Memory) : Option ℕ × Memory :=
  match self.truncateHeader off with
  | some bytes => bytes.memcpySerialize v m
  | none => (none, m)

/-- Copy a value out of the head of the window when it fits, with its size. -/
def memcpyDeserialize (self : BytesMut) (m : Memory) : Option (T × ℕ) :=
  if Pod.size T ≤ self.len then some (Pod.ofBytes (m.read self.ptr (Pod.size T)), Pod.size T)
  else none

/-- `memcpy_deserialize` after skipping `off` bytes. -/
def memcpyDeserializeAt (self : BytesMut) (off : ℕ) (m : Memory) : Option (T × ℕ) :=
  match self.truncateHeader off with
  | some bytes => bytes.memcpyDeserialize m
  | none => none

/-- Write a value at the head without checking the window; returns its size. -/
def writeUnalignedAtHead (self : BytesMut) (src : T) (m : Memory) : ℕ × Memory :=
  (Pod.size T, m.write self.ptr (Pod.toBytes src))

/-- Read a value at the head without checking the window. -/
def readUnalignedAtHead (self : BytesMut) (m : Memory) : T :=
  Pod.ofBytes (m.read self.ptr (Pod.size T))

@[simp] theorem advance_ptr (self : BytesMut) (off : ℕ) : (self.advance off).ptr = self.ptr + off :=
  rfl

@[simp] theorem advance_len (self : BytesMut) (off : ℕ) : (self.advance off).len = self.len - off :=
  rfl

@[simp] theorem advance_zero (self : BytesMut) : self.advance 0 = self := rfl

@[simp] theorem advance_advance (self : BytesMut) (a b : ℕ) :
    (self.advance a).advance b = self.advance (a + b) := by
  simp only [advance, Nat.add_assoc, Nat.sub_sub]

theorem truncateHeader_of_le (self : BytesMut) (off : ℕ) (h : off ≤ self.len) :
    self.truncateHeader off = some (self.advance off) := by
  simp [truncateHeader, h]

theorem truncateHeader_eq_none (self : BytesMut) (off : ℕ) (h : self.len < off) :
    self.truncateHeader off = none := by
  simp [truncateHeader]; omega

@[simp] theorem truncateHeader_zero (self : BytesMut) : self.truncateHeader 0 = some self := by
  simp [truncateHeader_of_le]

theorem cloneAndResize_of_le (self : BytesMut) {sz : ℕ} (h : sz ≤ self.len) :
    self.cloneAndResize sz = some ⟨self.ptr, sz, Nat.lt_of_le_of_lt h self.len_lt⟩ := by
  simp [cloneAndResize, h]

theorem cloneAndResize_eq_none (self : BytesMut) {sz : ℕ} (h : self.len < sz) :
    self.cloneAndResize sz = none := by
  simp [cloneAndResize]; omega

theorem memcpySerialize_of_le (self : BytesMut) (v : T) (m : Memory)
    (h : Pod.size T ≤ self.len) :
    self.memcpySerialize v m = (some (Pod.size T), m.write self.ptr (Pod.toBytes v)) := by
  simp [memcpySerialize, h]

theorem memcpyDeserialize_of_stores (self : BytesMut) (m : Memory) (a : T)
    (hs : m.Stores self.ptr (Pod.toBytes a)) (h : Pod.size T ≤ self.len) :
    self.memcpyDeserialize m = some (a, Pod.size T) := by
  unfold Memory.Stores at hs
  rw [Pod.length_toBytes] at hs
  simp [memcpyDeserialize, h, hs]

theorem readUnalignedAtHead_of_stores (self : BytesMut) (m : Memory) (a : T)
    (hs : m.Stores self.ptr (Pod.toBytes a)) : (self.readUnalignedAtHead m : T) = a := by
  unfold Memory.Stores at hs
  rw [Pod.length_toBytes] at hs
  simp [readUnalignedAtHead, hs]

/-- `copy`: succeeds when the offset lies in the window, and then copies the payload's `len`
bytes to the head of the window. -/
def copy (self payload : BytesMut) (offset : ℕ) (m : Memory) : Bool × Memory :=
  if offset ≤ self.len then (true, m.write self.ptr (m.read payload.ptr payload.len))
  else (false, m)

theorem copy_of_le {self : BytesMut} {offset : ℕ} (h : offset ≤ self.len) (payload : BytesMut)
    (m : Memory) :
    self.copy payload offset m = (true, m.write self.ptr (m.read payload.ptr payload.len)) := by
  rw [copy, if_pos h]

theorem copy_of_lt {self : BytesMut} {offset : ℕ} (h : self.len < offset) (payload : BytesMut)
    (m : Memory) : self.copy payload offset m = (false, m) := by
  rw [copy, if_neg (Nat.not_le_of_lt h)]

/-- What `copy` does: it answers `true` exactly when the offset lies in the window; the
payload then stands at the head of the window, whatever the offset, and every byte outside
the `payload.len` bytes from the head keeps its value; a `false` answer changes nothing. -/
theorem copy_writes_payload_at_head (self payload : BytesMut) (offset : ℕ) (m : Memory) :
    ((self.copy payload offset m).1 = true ↔ offset ≤ self.len) ∧
      ((self.copy payload offset m).1 = true →
        (self.copy payload offset m).2.Stores self.ptr (m.read payload.ptr payload.len) ∧
        ∀ a, a < self.ptr ∨ self.ptr + payload.len ≤ a → (self.copy payload offset m).2 a = m a) ∧
      ((self.copy payload offset m).1 = false → (self.copy payload offset m).2 = m) := by
  by_cases hoff : offset ≤ self.len
  · -- the copy is made at the head, whatever the offset
    rw [copy_of_le hoff]
    refine ⟨iff_of_true rfl hoff, fun _ => ⟨Memory.stores_write _ _ _, fun a ha => ?_⟩,
      fun h => Bool.noConfusion h⟩
    exact Memory.write_apply_of_not_mem _ _ _ _ (by rwa [Memory.length_read])
  · rw [copy_of_lt (Nat.lt_of_not_le hoff)]
    exact ⟨iff_of_false Bool.false_ne_true hoff, fun h => absurd h Bool.false_ne_true, fun _ => rfl⟩

theorem mk_eq_mk {p n n' : ℕ} (h : n = n') (hn : n < 2 ^ 64) (hn' : n' < 2 ^ 64) :
    (⟨p, n, hn⟩ : BytesMut) = ⟨p, n', hn'⟩ := by
  subst h; rfl

/-- Two windows that share no byte. -/
def Disjoint (a b : BytesMut) : Prop := a.ptr + a.len ≤ b.ptr ∨ b.ptr + b.len ≤ a.ptr

instance (a b : BytesMut) : Decidable (a.Disjoint b) := inferInstanceAs (Decidable (_ ∨ _))

theorem read_write_of_disjoint {a b : BytesMut} (hd : a.Disjoint b) (m : Memory)
    {bs : List UInt8} (hlen : bs.length ≤ a.len) :
    (m.write a.ptr bs).read b.ptr b.len = m.read b.ptr b.len :=
  Memory.read_write_of_disjoint _ _ _ _ _ (by unfold Disjoint at hd; omega)

end BytesMut

/-- Four payload bytes copied at offset four into an eight-byte window: `copy` answers `true`
but writes them at the head, so the window's bytes from offset four on are not the
payload's. -/
theorem copy_at_offset_writes_head :
    let d : BytesMut := ⟨0, 8, by decide⟩
    let p : BytesMut := ⟨16, 4, by decide⟩
    let m : Memory := fun a => if 16 ≤ a then 1 else 0
    (((d.copy p 4 m).1 = true ↔ 4 ≤ d.len) ∧
      ((d.copy p 4 m).1 = true →
        (d.copy p 4 m).2.Stores d.ptr (m.read p.ptr p.len) ∧
        ∀ a, a < d.ptr ∨ d.ptr + p.len ≤ a → (d.copy p 4 m).2 a = m a) ∧
      ((d.copy p 4 m).1 = false → (d.copy p 4 m).2 = m)) ∧
    (d.copy p 4 m).1 = true ∧ (d.copy p 4 m).2.read 4 4 ≠ m.read 16 4 :=
  ⟨BytesMut.copy_writes_payload_at_head _ _ _ _, by decide, by decide⟩

/-! ## `LocalDevice`: reads and writes of local memory -/

namespace LocalDevice

/-- `LocalDevice::read`: `to.len()` bytes from the kernel address `addr` into the window `to`
(here `into`). -/
def read (addr : ℕ) (into : BytesMut) (m : Memory) : Memory :=
  (into.copy ⟨addr, into.len, into.len_lt⟩ 0 m).2

/-- `LocalDevice::write`: the payload to the `payload.len()` bytes at the kernel address
`addr`. -/
def write (addr : ℕ) (payload : BytesMut) (m : Memory) : Memory :=
  (BytesMut.copy ⟨addr, payload.len, payload.len_lt⟩ payload 0 m).2

theorem read_stores (addr : ℕ) (into : BytesMut) (m : Memory) :
    (read addr into m).Stores into.ptr (m.read addr into.len) := by
  rw [read, BytesMut.copy_of_le (Nat.zero_le _)]
  exact Memory.stores_write _ _ _

theorem write_stores (addr : ℕ) (payload : BytesMut) (m : Memory) :
    (write addr payload m).Stores addr (m.read payload.ptr payload.len) := by
  rw [write, BytesMut.copy_of_le (Nat.zero_le _)]
  exact Memory.stores_write _ _ _

end LocalDevice

/-! ## The default `Serialize` methods: a plain memory copy -/

namespace Serialize

variable {T : Type} [Pod T]

/-- Default `Serialize::serialize`: succeed when the value fits the window. -/
def serialize (v : T) (bytes : BytesMut) (m : Memory) : Bool × Memory :=
  let (r, m) := bytes.memcpySerialize v m
  (r.isSome, m)

/-- Default `Serialize::deserialize`. -/
def deserialize (bytes : BytesMut) (m : Memory) : Option T :=
  (bytes.memcpyDeserialize m).map Prod.fst

/-- Default `Serialize::serialization_buf_len`: `size_of::<Self>()`. -/
def serializationBufLen (_ : T) : ℕ := Pod.size T

@[simp] theorem serializationBufLen_eq (v : T) : serializationBufLen v = Pod.size T := rfl

theorem serialize_of_le (v : T) (bytes : BytesMut) (m : Memory) (h : Pod.size T ≤ bytes.len) :
    serialize v bytes m = (true, m.write bytes.ptr (Pod.toBytes v)) := by
  simp [serialize, BytesMut.memcpySerialize_of_le _ _ _ h]

theorem deserialize_of_stores (bytes : BytesMut) (m : Memory) (a : T)
    (hs : m.Stores bytes.ptr (Pod.toBytes a)) (h : Pod.size T ≤ bytes.len) :
    (deserialize bytes m : Option T) = some a := by
  simp [deserialize, BytesMut.memcpyDeserialize_of_stores _ _ a hs h]

end Serialize

end OsNetwork
