import Mathlib

/-!
# Iterators as a state and a step

An iterator is a state and a `next` that yields an item or nothing and moves the state,
as `Iterator::next(&mut self)` does. `nextN n` collects the items of at most `n` calls,
stopping at the first that yields nothing. An iterator `Yields` a list when, for every
`n`, its first `n` items are the first `n` of the list: it yields the whole list, in order,
and then stops.

The rules here are the ones loops over iterators are proved with: how `Yields` unfolds on
an empty and on a non-empty list.
-/
namespace Iterator

variable {I T : Type} (next : I → Option T × I)

/-- The items of at most `n` calls of `next`, stopping at the first that yields nothing. -/
def nextN : ℕ → I → List T
  | 0, _ => []
  | n + 1, s =>
    match next s with
    | (none, _) => []
    | (some a, s') => a :: nextN n s'

/-- From `s` the iterator yields exactly `l`, and then nothing. -/
def Yields (s : I) (l : List T) : Prop := ∀ n, nextN next n s = l.take n

variable {next}

@[simp] theorem nextN_zero (s : I) : nextN next 0 s = [] := rfl

theorem nextN_succ_of_none {s s' : I} (h : next s = (none, s')) (n : ℕ) :
    nextN next (n + 1) s = [] := by
  simp [nextN, h]

theorem nextN_succ_of_some {s s' : I} {a : T} (h : next s = (some a, s')) (n : ℕ) :
    nextN next (n + 1) s = a :: nextN next n s' := by
  simp [nextN, h]

theorem yields_nil {s s' : I} (h : next s = (none, s')) : Yields next s [] := by
  intro n
  cases n with
  | zero => rfl
  | succ n => rw [nextN_succ_of_none h]; rfl

theorem yields_cons {s s' : I} {a : T} {l : List T} (h : next s = (some a, s'))
    (hl : Yields next s' l) : Yields next s (a :: l) := by
  intro n
  cases n with
  | zero => rfl
  | succ n => rw [nextN_succ_of_some h, hl n, List.take_succ_cons]

theorem Yields.next_none {s : I} (h : Yields next s []) : (next s).1 = none := by
  have h1 := h 1
  rcases hn : next s with ⟨_ | a, s'⟩
  · rfl
  · rw [nextN_succ_of_some hn] at h1; cases h1

/-- An iterator that yields `a :: l` answers `a` and then yields `l`. -/
theorem Yields.next_some {s : I} {a : T} {l : List T} (h : Yields next s (a :: l)) :
    ∃ s', next s = (some a, s') ∧ Yields next s' l := by
  rcases hn : next s with ⟨_ | b, s'⟩
  · have h1 := h 1
    rw [nextN_succ_of_none hn] at h1
    cases h1
  · have h1 := h 1
    rw [nextN_succ_of_some hn] at h1
    obtain rfl : b = a := by simpa using h1
    refine ⟨s', rfl, fun n => ?_⟩
    have hn1 := h (n + 1)
    rw [nextN_succ_of_some hn, List.take_succ_cons] at hn1
    exact List.cons_injective hn1

end Iterator
