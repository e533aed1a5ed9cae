import Mathlib

/-!
# A heap of cells with a bump allocator

Cells of a type `α` live at nonzero addresses: address `0` is the null pointer and never
holds a cell. `alloc` places a cell at the first address that was never used, so an address
it returns differs from every address allocated before. `modify` rewrites the cell at an
address in place and leaves a free address free.

`get` reads through an address with a default for a free one. Code that dereferences a
dangling pointer has no meaning; the default makes such a read total, and a
well-formedness invariant of the client shows that it is never taken.
-/

/-- Cells at `1 .. next - 1` may be allocated; `0` and every address from `next` on are free. -/
structure Heap (α : Type) where
  cells : ℕ → Option α
  next : ℕ
  null_free : cells 0 = none
  next_pos : 0 < next
  fresh_free : ∀ p : ℕ, next ≤ p → cells p = none

namespace Heap

variable {α : Type}

/-- The heap with nothing allocated. -/
def empty : Heap α := ⟨fun _ => none, 1, rfl, Nat.one_pos, fun _ _ => rfl⟩

/-- The cell at `p`, if one is allocated there. -/
def read (h : Heap α) (p : ℕ) : Option α := h.cells p

/-- The cell at `p`, or the default value where `p` is free. -/
def get [Inhabited α] (h : Heap α) (p : ℕ) : α := (h.read p).getD default

/-- Allocate a cell holding `a` at the first unused address; return that address. -/
def alloc (h : Heap α) (a : α) : ℕ × Heap α :=
  (h.next,
    { cells := fun q => if q = h.next then some a else h.cells q
      next := h.next + 1
      null_free := by simp [h.null_free, Nat.ne_of_lt h.next_pos]
      next_pos := Nat.succ_pos _
      fresh_free := fun p hp => by simp [show p ≠ h.next by omega, h.fresh_free p (by omega)] })

/-- Apply `f` to the cell at `p`; nothing happens where `p` is free. -/
def modify (h : Heap α) (p : ℕ) (f : α → α) : Heap α :=
  { cells := fun q => if q = p then (h.cells q).map f else h.cells q
    next := h.next
    null_free := by
      by_cases hp : 0 = p
      · subst hp; simp [h.null_free]
      · simp [hp, h.null_free]
    next_pos := h.next_pos
    fresh_free := fun q hq => by
      by_cases hp : q = p
      · subst hp; simp [h.fresh_free q hq]
      · simp [hp, h.fresh_free q hq] }

@[simp] theorem read_empty (p : ℕ) : (empty : Heap α).read p = none := rfl

@[simp] theorem next_empty : (empty : Heap α).next = 1 := rfl

@[simp] theorem read_zero (h : Heap α) : h.read 0 = none := h.null_free

theorem read_of_next_le (h : Heap α) {p : ℕ} (hp : h.next ≤ p) : h.read p = none :=
  h.fresh_free p hp

theorem pos_of_read (h : Heap α) {p : ℕ} {a : α} (hp : h.read p = some a) : 0 < p := by
  rcases Nat.eq_zero_or_pos p with rfl | hpos
  · simp at hp
  · exact hpos

theorem lt_next_of_read (h : Heap α) {p : ℕ} {a : α} (hp : h.read p = some a) : p < h.next := by
  by_contra hle
  rw [h.read_of_next_le (Nat.le_of_not_lt hle)] at hp
  cases hp

theorem get_of_read [Inhabited α] (h : Heap α) {p : ℕ} {a : α} (hp : h.read p = some a) :
    h.get p = a := by
  simp [get, hp]

theorem get_of_read_none [Inhabited α] (h : Heap α) {p : ℕ} (hp : h.read p = none) :
    h.get p = default := by
  simp [get, hp]

@[simp] theorem alloc_fst (h : Heap α) (a : α) : (h.alloc a).1 = h.next := rfl

@[simp] theorem next_alloc (h : Heap α) (a : α) : (h.alloc a).2.next = h.next + 1 := rfl

@[simp] theorem read_alloc (h : Heap α) (a : α) (q : ℕ) :
    (h.alloc a).2.read q = if q = h.next then some a else h.read q := rfl

@[simp] theorem get_alloc [Inhabited α] (h : Heap α) (a : α) (q : ℕ) :
    (h.alloc a).2.get q = if q = h.next then a else h.get q := by
  by_cases hq : q = h.next <;> simp [get, hq]

theorem read_alloc_fst (h : Heap α) : h.read h.next = none := h.read_of_next_le (Nat.le_refl _)

theorem alloc_fst_pos (h : Heap α) (a : α) : 0 < (h.alloc a).1 := h.next_pos

@[simp] theorem next_modify (h : Heap α) (p : ℕ) (f : α → α) : (h.modify p f).next = h.next := rfl

@[simp] theorem read_modify (h : Heap α) (p : ℕ) (f : α → α) (q : ℕ) :
    (h.modify p f).read q = if q = p then (h.read p).map f else h.read q := by
  by_cases hq : q = p
  · subst hq; simp [modify, read]
  · simp [modify, read, hq]

theorem read_modify_of_ne (h : Heap α) {p q : ℕ} (f : α → α) (hq : q ≠ p) :
    (h.modify p f).read q = h.read q := by
  simp [hq]

theorem get_modify_of_ne [Inhabited α] (h : Heap α) {p q : ℕ} (f : α → α) (hq : q ≠ p) :
    (h.modify p f).get q = h.get q := by
  simp [get, hq]

theorem get_modify [Inhabited α] (h : Heap α) {p : ℕ} {a : α} (hp : h.read p = some a)
    (f : α → α) (q : ℕ) : (h.modify p f).get q = if q = p then f a else h.get q := by
  by_cases hq : q = p
  · subst hq; simp [get, hp]
  · simp [get, hq]

end Heap
