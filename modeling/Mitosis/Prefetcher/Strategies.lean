import Mitosis.Lib.Iterator

/-!
# Prefetch strategies

A strategy takes items from an iterator and collects those that need a prefetch into a
`PrefetchRequests` of at most `N`. `StepPrefetcher` goes on until it has `N` of them or the
iterator ends; `ConstPrefetcher` looks at the next `N` items only. Both are generic over the
iterator and its items, with `NeedPrefetch` as a predicate.

On an iterator that yields a list `l`, `StepPrefetcher` collects the first `N` items of `l`
that need a prefetch, and `ConstPrefetcher` those among the first `N` items of `l`. The loop
of `StepPrefetcher` has no bound in the source; here it has one, and any bound past the
length of `l` gives that result.
-/
namespace Mitosis

/-- `PrefetchRequests<T, N>`: the first `sz` cells of an array of `N`, as a list of at most
`N` requests in the order they were added. -/
structure PrefetchRequests (T : Type) (N : ℕ) where
  inner : List T
  length_le : inner.length ≤ N

namespace PrefetchRequests

variable {T : Type} {N : ℕ}

/-- `PrefetchRequests::new`: no request. -/
def new : PrefetchRequests T N := ⟨[], Nat.zero_le N⟩

def len (self : PrefetchRequests T N) : ℕ := self.inner.length

/-- `add`: append when there is room, and say whether it did; a full array is left as it is. -/
def add (self : PrefetchRequests T N) (data : T) : Bool × PrefetchRequests T N :=
  if h : self.inner.length < N then
    (true, ⟨self.inner ++ [data], by rw [List.length_append, List.length_singleton]; omega⟩)
  else (false, self)

@[simp] theorem inner_new : (new : PrefetchRequests T N).inner = [] := rfl

theorem inner_add_of_lt {self : PrefetchRequests T N} (data : T) (h : self.inner.length < N) :
    (self.add data).2.inner = self.inner ++ [data] := by
  simp [add, h]

theorem mem_inner_add {self : PrefetchRequests T N} {data e : T} (he : e ∈ (self.add data).2.inner) :
    e ∈ self.inner ∨ e = data := by
  unfold add at he
  split at he
  · simpa using he
  · exact .inl he

end PrefetchRequests

variable {I T : Type} (next : I → Option T × I) (needPrefetch : T → Bool) (N : ℕ)

namespace StepPrefetcher

/-- The loop of `StepPrefetcher::generate_request`: `count` items that need a prefetch are
added; take items until there are `N` or the iterator ends. `fuel` bounds the items taken. -/
def loop : ℕ → ℕ → PrefetchRequests T N → I → PrefetchRequests T N
  | 0, _, inner, _ => inner
  | fuel + 1, count, inner, src =>
    if count < N then
      match next src with
      | (some v, src) =>
        if needPrefetch v then loop fuel (count + 1) (inner.add v).2 src
        else loop fuel count inner src
      | (none, _) => inner
    else inner

/-- `StepPrefetcher::generate_request`, taking at most `fuel` items. -/
def generateRequest (fuel : ℕ) (src : I) : PrefetchRequests T N :=
  loop next needPrefetch N fuel 0 .new src

variable {next needPrefetch N}

/-- From an iterator that yields `l`, the loop adds the first items of `l` that need a prefetch
until it has `N`. The induction is on `l`. -/
theorem loop_inner : ∀ (l : List T) (fuel count : ℕ) (inner : PrefetchRequests T N) (src : I),
    Iterator.Yields next src l → l.length < fuel → inner.inner.length = count →
      (loop next needPrefetch N fuel count inner src).inner =
        inner.inner ++ (l.filter needPrefetch).take (N - count) := by
  intro l
  induction l with
  | nil =>
    intro fuel count inner src hl hfuel hcount
    obtain ⟨fuel, rfl⟩ : ∃ f, fuel = f + 1 := ⟨fuel - 1, by simp at hfuel; omega⟩
    obtain ⟨src', hnone⟩ : ∃ s', next src = (none, s') := ⟨_, Prod.ext hl.next_none rfl⟩
    by_cases hc : count < N
    · simp [loop, hc, hnone]
    · simp [loop, hc]
  | cons a l ih =>
    intro fuel count inner src hl hfuel hcount
    obtain ⟨fuel, rfl⟩ : ∃ f, fuel = f + 1 := ⟨fuel - 1, by simp at hfuel; omega⟩
    obtain ⟨src', hsome, hl'⟩ := hl.next_some
    have hfuel' : l.length < fuel := by simp at hfuel; omega
    by_cases hc : count < N
    · by_cases hv : needPrefetch a
      · -- `a` is added, and there is room for it
        have hadd := PrefetchRequests.inner_add_of_lt a (hcount ▸ hc : inner.inner.length < N)
        have hrest := ih fuel (count + 1) (inner.add a).2 src' hl' hfuel' (by simp [hadd, hcount])
        obtain ⟨k, hk⟩ : ∃ k, N - count = k + 1 := ⟨N - count - 1, by omega⟩
        simp only [loop, hc, if_true, hsome, hv, hrest, hadd, List.filter_cons_of_pos hv, hk,
          List.take_succ_cons, List.append_assoc, List.singleton_append]
        congr 3
        omega
      · simp only [loop, hc, if_true, hsome, hv, Bool.false_eq_true, if_false,
          ih fuel count inner src' hl' hfuel' hcount, List.filter_cons_of_neg hv]
    · simp [loop, hc, show N - count = 0 by omega]

/-- Every request is an item the iterator yielded: a property of all its items holds of every
request. The induction is on the fuel. -/
theorem forall_mem_loop {P : T → Prop} (hP : ∀ src v src', next src = (some v, src') → P v) :
    ∀ (fuel count : ℕ) (inner : PrefetchRequests T N) (src : I), (∀ e ∈ inner.inner, P e) →
      ∀ e ∈ (loop next needPrefetch N fuel count inner src).inner, P e := by
  intro fuel
  induction fuel with
  | zero => intro _ inner _ hinner; exact hinner
  | succ fuel ih =>
    intro count inner src hinner
    unfold loop
    split
    · rcases hn : next src with ⟨_ | v, src'⟩
      · exact hinner
      · dsimp only
        split
        · refine ih _ _ src' fun e he => ?_
          rcases PrefetchRequests.mem_inner_add he with he | rfl
          · exact hinner e he
          · exact hP src _ src' hn
        · exact ih _ _ src' hinner
    · exact hinner

theorem generateRequest_inner {l : List T} {src : I} (hl : Iterator.Yields next src l) {fuel : ℕ}
    (hfuel : l.length < fuel) :
    (generateRequest next needPrefetch N fuel src).inner = (l.filter needPrefetch).take N := by
  rw [generateRequest]
  simpa using loop_inner l fuel 0 .new src hl hfuel rfl

end StepPrefetcher

namespace ConstPrefetcher

/-- The loop `for _ in 0..N` of `ConstPrefetcher::generate_request`, with `k` rounds left. -/
def loop : ℕ → PrefetchRequests T N → I → PrefetchRequests T N
  | 0, inner, _ => inner
  | k + 1, inner, src =>
    match next src with
    | (some v, src) => loop k (if needPrefetch v then (inner.add v).2 else inner) src
    | (none, _) => inner

/-- `ConstPrefetcher::generate_request`. -/
def generateRequest (src : I) : PrefetchRequests T N := loop next needPrefetch N N .new src

variable {next needPrefetch N}

/-- With `k` rounds left and room for `k` more, the loop adds those of the next `k` items that
need a prefetch. The induction is on `k`. -/
theorem loop_inner : ∀ (k : ℕ) (l : List T) (inner : PrefetchRequests T N) (src : I),
    Iterator.Yields next src l → inner.inner.length + k ≤ N →
      (loop next needPrefetch N k inner src).inner = inner.inner ++ (l.take k).filter needPrefetch := by
  intro k
  induction k with
  | zero => intro l inner src _ _; simp [loop]
  | succ k ih =>
    intro l inner src hl hroom
    cases l with
    | nil =>
      obtain ⟨src', hnone⟩ : ∃ s', next src = (none, s') := ⟨_, Prod.ext hl.next_none rfl⟩
      simp [loop, hnone]
    | cons a l =>
      obtain ⟨src', hsome, hl'⟩ := hl.next_some
      by_cases hv : needPrefetch a
      · have hadd := PrefetchRequests.inner_add_of_lt a (by omega : inner.inner.length < N)
        have hrest := ih l (inner.add a).2 src' hl' (by rw [hadd]; simp; omega)
        simp [loop, hsome, hv, hrest, hadd]
      · simp [loop, hsome, hv, ih l inner src' hl' (by omega)]

/-- Every request is an item the iterator yielded. The induction is on the rounds left. -/
theorem forall_mem_loop {P : T → Prop} (hP : ∀ src v src', next src = (some v, src') → P v) :
    ∀ (k : ℕ) (inner : PrefetchRequests T N) (src : I), (∀ e ∈ inner.inner, P e) →
      ∀ e ∈ (loop next needPrefetch N k inner src).inner, P e := by
  intro k
  induction k with
  | zero => intro inner _ hinner; exact hinner
  | succ k ih =>
    intro inner src hinner
    unfold loop
    rcases hn : next src with ⟨_ | v, src'⟩
    · exact hinner
    · refine ih _ src' fun e he => ?_
      split at he
      · rcases PrefetchRequests.mem_inner_add he with he | rfl
        · exact hinner e he
        · exact hP src _ src' hn
      · exact hinner e he

theorem generateRequest_inner {l : List T} {src : I} (hl : Iterator.Yields next src l) :
    (generateRequest next needPrefetch N src).inner = (l.take N).filter needPrefetch := by
  rw [generateRequest]
  simpa using loop_inner N l .new src hl (by simp)

end ConstPrefetcher

end Mitosis
