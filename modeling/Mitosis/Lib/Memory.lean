import Mitosis.Lib.Pod

/-!
# Byte-addressed memory

Memory is a byte at every address. A write stores a byte string at an address and
changes nothing outside it; a read returns the bytes at consecutive addresses. The lemmas
below say how reads and writes at adjacent or disjoint places compose, which is all the
cursor arithmetic of a serializer needs.
-/

/-- The contents of memory, one byte per address. -/
abbrev Memory : Type := ℕ → UInt8

namespace Memory

/-- The `n` bytes starting at address `p`. -/
def read (m : Memory) (p : ℕ) : ℕ → List UInt8
  | 0 => []
  | n + 1 => m p :: read m (p + 1) n

/-- Store the bytes at consecutive addresses starting at `p`. -/
def write (m : Memory) (p : ℕ) : List UInt8 → Memory
  | [] => m
  | b :: bs => write (Function.update m p b) (p + 1) bs

@[simp] theorem read_zero (m : Memory) (p : ℕ) : read m p 0 = [] := rfl

@[simp] theorem length_read (m : Memory) (p n : ℕ) : (read m p n).length = n := by
  induction n generalizing p with
  | zero => rfl
  | succ n ih => simp [read, ih]

theorem read_add (m : Memory) (p n k : ℕ) :
    read m p (n + k) = read m p n ++ read m (p + n) k := by
  induction n generalizing p with
  | zero => simp
  | succ n ih =>
    rw [Nat.add_right_comm, read, ih, read]
    simp [Nat.add_right_comm, Nat.add_assoc]

theorem take_read (m : Memory) (p n k : ℕ) (h : k ≤ n) :
    (read m p n).take k = read m p k := by
  obtain ⟨j, rfl⟩ := Nat.exists_eq_add_of_le h
  rw [read_add, List.take_left' (length_read m p k)]

theorem drop_read (m : Memory) (p n k : ℕ) (h : k ≤ n) :
    (read m p n).drop k = read m (p + k) (n - k) := by
  obtain ⟨j, rfl⟩ := Nat.exists_eq_add_of_le h
  rw [read_add, List.drop_left' (length_read m p k), Nat.add_sub_cancel_left]

theorem write_apply_of_not_mem (m : Memory) (p a : ℕ) (bs : List UInt8)
    (h : a < p ∨ p + bs.length ≤ a) : write m p bs a = m a := by
  induction bs generalizing m p with
  | nil => rfl
  | cons b bs ih =>
    have hne : a ≠ p := by simp at h; omega
    rw [write, ih _ _ (by simp at h; omega), Function.update_of_ne hne]

theorem read_write_of_disjoint (m : Memory) (p q n : ℕ) (bs : List UInt8)
    (h : q + n ≤ p ∨ p + bs.length ≤ q) : read (write m p bs) q n = read m q n := by
  induction n generalizing q with
  | zero => rfl
  | succ n ih =>
    rw [read, read, write_apply_of_not_mem _ _ _ _ (by omega), ih _ (by omega)]

theorem read_write_self (m : Memory) (p : ℕ) (bs : List UInt8) :
    read (write m p bs) p bs.length = bs := by
  induction bs generalizing m p with
  | nil => rfl
  | cons b bs ih =>
    rw [List.length_cons, read, write, ih, write_apply_of_not_mem _ _ _ _ (by omega),
      Function.update_self]

theorem write_append (m : Memory) (p : ℕ) (bs cs : List UInt8) :
    write (write m p bs) (p + bs.length) cs = write m p (bs ++ cs) := by
  induction bs generalizing m p with
  | nil => rfl
  | cons b bs ih =>
    rw [List.cons_append, write, write, List.length_cons, ← ih, Nat.add_assoc,
      Nat.add_comm 1 bs.length]

theorem write_write_of_eq (m : Memory) (p q : ℕ) (bs cs : List UInt8) (h : q = p + bs.length) :
    write (write m p bs) q cs = write m p (bs ++ cs) := by
  rw [h, write_append]

theorem read_write_prefix (m : Memory) (p k : ℕ) (bs : List UInt8) :
    read (write m p bs) p (bs.length + k) = bs ++ read m (p + bs.length) k := by
  rw [read_add, read_write_self, read_write_of_disjoint _ _ _ _ _ (by omega)]

/-- The bytes `bs` are stored at address `p`. -/
def Stores (m : Memory) (p : ℕ) (bs : List UInt8) : Prop := m.read p bs.length = bs

theorem stores_append (m : Memory) (p : ℕ) (bs cs : List UInt8) :
    Stores m p (bs ++ cs) ↔ Stores m p bs ∧ Stores m (p + bs.length) cs := by
  unfold Stores
  rw [List.length_append, read_add]
  constructor
  · intro h
    exact List.append_inj h (length_read m p _)
  · rintro ⟨h1, h2⟩
    rw [h1, h2]

theorem stores_write (m : Memory) (p : ℕ) (bs : List UInt8) : Stores (write m p bs) p bs :=
  read_write_self m p bs

theorem read_eq_of_read_eq {m m' : Memory} {p n : ℕ} (h : m'.read p n = m.read p n) {q k : ℕ}
    (hq : p ≤ q) (hk : q + k ≤ p + n) : m'.read q k = m.read q k := by
  have hsub : ∀ m : Memory, ((m.read p n).drop (q - p)).take k = m.read q k := fun m => by
    rw [drop_read _ _ _ _ (by omega), Nat.add_sub_cancel' hq, take_read _ _ _ _ (by omega)]
  rw [← hsub m', h, hsub m]

end Memory
