import Mathlib

/-!
# Lists of blocks

A list sorted by a key whose elements each expand into a block of values, with the keys of
an element's block in the element's own window `[key * B, key * B + B)`, flattens into a
list sorted by key. Cut from the key `key x * B + m` on, the flattened list is the rest of
`x`'s block followed by the blocks of the elements after `x`. A strictly increasing list of
numbers below `n` has at most `n` elements.

These are the facts a traversal of a radix tree in key order rests on: the elements are the
nodes of one depth, the blocks their children.
-/
namespace Blocks

variable {α β : Type}

theorem pairwise_flatMap (key : α → ℕ) (k : β → ℕ) (B : ℕ) (f : α → List β) {l : List α}
    (hl : l.Pairwise fun x y => key x < key y) (hf : ∀ x ∈ l, (f x).Pairwise fun z w => k z < k w)
    (hblock : ∀ x ∈ l, ∀ z ∈ f x, k z / B = key x) :
    (l.flatMap f).Pairwise fun z w => k z < k w := by
  rw [List.pairwise_flatMap]
  refine ⟨hf, hl.imp_of_mem fun {x y} hx hy hxy z hz w hw => ?_⟩
  have hzw : k z / B < k w / B := by rw [hblock x hx z hz, hblock y hy w hw]; exact hxy
  exact Nat.lt_of_div_lt_div hzw

/-- In a list sorted by key, the elements after `x` are the ones with a larger key. -/
theorem filter_succ_le_of_eq_append (key : α → ℕ) {P R : List α} {x : α}
    (hl : (P ++ x :: R).Pairwise fun x y => key x < key y) :
    (P ++ x :: R).filter (fun y => key x + 1 ≤ key y) = R := by
  rw [List.pairwise_append, List.pairwise_cons] at hl
  obtain ⟨-, ⟨hxR, -⟩, hPx⟩ := hl
  have hP : P.filter (fun y => key x + 1 ≤ key y) = [] :=
    List.filter_eq_nil_iff.mpr fun p hp => by
      have := hPx p hp x List.mem_cons_self
      simp only [decide_eq_true_eq]; omega
  have hR : R.filter (fun y => key x + 1 ≤ key y) = R :=
    List.filter_eq_self.mpr fun r hr => by simpa using hxR r hr
  rw [List.filter_append, hP, List.filter_cons_of_neg (by simp), hR, List.nil_append]

/-- Cut from key `key x * B + m` on, with `m ≤ B`, the flattened list is the rest of `x`'s
block and then the blocks of the elements after `x`. -/
theorem filter_flatMap_from (key : α → ℕ) (k : β → ℕ) {B : ℕ} (hB : 0 < B) (f : α → List β)
    {l : List α} (hl : l.Pairwise fun x y => key x < key y)
    (hblock : ∀ x ∈ l, ∀ z ∈ f x, k z / B = key x) {x : α} (hx : x ∈ l) {m : ℕ} (hm : m ≤ B) :
    (l.flatMap f).filter (fun z => key x * B + m ≤ k z) =
      (f x).filter (fun z => key x * B + m ≤ k z) ++
        (l.filter fun y => key x + 1 ≤ key y).flatMap f := by
  obtain ⟨P, R, rfl⟩ := List.mem_iff_append.mp hx
  rw [filter_succ_le_of_eq_append key hl]
  have hl' := hl
  rw [List.pairwise_append, List.pairwise_cons] at hl'
  obtain ⟨-, ⟨hxR, -⟩, hPx⟩ := hl'
  -- the blocks before `x` lie below its window, the blocks after it above
  have hP : (P.flatMap f).filter (fun z => key x * B + m ≤ k z) = [] := by
    refine List.filter_eq_nil_iff.mpr fun z hz => ?_
    obtain ⟨p, hp, hzp⟩ := List.mem_flatMap.mp hz
    have hkz : k z / B < key x := by
      rw [hblock p (List.mem_append_left _ hp) z hzp]
      exact hPx p hp x List.mem_cons_self
    have : k z < key x * B := (Nat.div_lt_iff_lt_mul hB).mp hkz
    simp only [decide_eq_true_eq]; omega
  have hR : (R.flatMap f).filter (fun z => key x * B + m ≤ k z) = R.flatMap f := by
    refine List.filter_eq_self.mpr fun z hz => ?_
    obtain ⟨r, hr, hzr⟩ := List.mem_flatMap.mp hz
    have hkz : key x + 1 ≤ k z / B := by
      rw [hblock r (List.mem_append_right _ (List.mem_cons_of_mem _ hr)) z hzr]
      exact hxR r hr
    have : (key x + 1) * B ≤ k z := (Nat.le_div_iff_mul_le hB).mp hkz
    simp only [decide_eq_true_eq, Nat.succ_mul] at this ⊢; omega
  simp [List.flatMap_append, List.filter_append, hP, hR]

/-- In a list sorted by key, cutting after the first element of a cut leaves the rest of
that cut. -/
theorem filter_succ_of_filter_eq_cons (k : β → ℕ) {l rest : List β} {c : ℕ} {z : β}
    (hl : l.Pairwise fun z w => k z < k w) (hcut : l.filter (fun w => c ≤ k w) = z :: rest) :
    l.filter (fun w => k z + 1 ≤ k w) = rest := by
  have hz : c ≤ k z := by
    have := List.mem_filter.mp (hcut ▸ List.mem_cons_self : z ∈ l.filter fun w => c ≤ k w)
    simpa using this.2
  have hsorted : (z :: rest).Pairwise fun z w => k z < k w := hcut ▸ hl.filter _
  have hsub : l.filter (fun w => k z + 1 ≤ k w) =
      (l.filter fun w => c ≤ k w).filter fun w => k z + 1 ≤ k w := by
    rw [List.filter_filter]
    refine List.filter_congr fun w _ => ?_
    by_cases hw : k z + 1 ≤ k w <;> simp [hw]; omega
  rw [hsub, hcut, List.filter_cons, if_neg (by simp)]
  exact List.filter_eq_self.mpr fun w hw => by
    simpa using Nat.succ_le_of_lt (List.rel_of_pairwise_cons hsorted hw)

theorem length_le_of_pairwise_lt {l : List ℕ} {n : ℕ} (hl : l.Pairwise (· < ·))
    (hn : ∀ x ∈ l, x < n) : l.length ≤ n := by
  have hnd : l.Nodup := hl.imp Nat.ne_of_lt
  calc l.length = l.toFinset.card := (List.toFinset_card_of_nodup hnd).symm
    _ ≤ (Finset.range n).card :=
      Finset.card_le_card fun x hx => Finset.mem_range.mpr (hn x (List.mem_toFinset.mp hx))
    _ = n := Finset.card_range n

end Blocks
