import Mathlib

/-!
# Runs of operation sequences and their simulation by a specification

A machine applies operations one at a time, each of which may fail (`Except`); a
specification applies the same operations to an abstract state and never fails. A step
simulation says that from a state satisfying the invariant every step succeeds, keeps the
invariant, and answers and moves as the specification does, seen through an abstraction
function and an answer map. `run_simulates` lifts it to every run.

The invariant is indexed by the number of operations still to come, so that a bounded
resource, such as a counter that must not overflow, can be part of it.

The second half is the specification this development needs: a partial map in which a
stored zero counts as no binding, with an insertion that keeps an existing binding and an
overwriting one, and the lookup in a list of pairwise different keys.
-/
namespace Simulation

variable {O S A R Q ε : Type}

/-- Apply the operations in order and collect the answers; the first failure ends the run. -/
def run (step : O → S → Except ε (R × S)) : List O → S → Except ε (List R × S)
  | [], s => .ok ([], s)
  | o :: os, s => do
    let (r, s) ← step o s
    let (rs, s) ← run step os s
    pure (r :: rs, s)

/-- The specification's run: no failure. -/
def runSpec (spec : O → A → Q × A) : List O → A → List Q × A
  | [], a => ([], a)
  | o :: os, a =>
    let (q, a) := spec o a
    let (qs, a) := runSpec spec os a
    (q :: qs, a)

/-- One step of the machine matches one step of the specification. `inv n s` is the
invariant of a state with `n` operations still to run. -/
def StepSimulation (step : O → S → Except ε (R × S)) (spec : O → A → Q × A) (abs : S → A)
    (answer : R → Q) (inv : ℕ → S → Prop) : Prop :=
  ∀ n o s, inv (n + 1) s → ∃ r s', step o s = .ok (r, s') ∧ inv n s' ∧
    answer r = (spec o (abs s)).1 ∧ abs s' = (spec o (abs s)).2

@[simp] theorem run_nil (step : O → S → Except ε (R × S)) (s : S) : run step [] s = .ok ([], s) :=
  rfl

theorem run_cons_of_ok {step : O → S → Except ε (R × S)} {o : O} {s s' : S} {r : R}
    (h : step o s = .ok (r, s')) (os : List O) :
    run step (o :: os) s = (run step os s').map fun (rs, t) => (r :: rs, t) := by
  simp only [run, h, bind, Except.bind]
  cases run step os s' <;> rfl

theorem run_append (step : O → S → Except ε (R × S)) (os₁ os₂ : List O) (s : S) :
    run step (os₁ ++ os₂) s = (do
      let (rs₁, s) ← run step os₁ s
      let (rs₂, s) ← run step os₂ s
      pure (rs₁ ++ rs₂, s)) := by
  induction os₁ generalizing s with
  | nil =>
    show run step os₂ s = (fun a => ([] ++ a.1, a.2)) <$> run step os₂ s
    simp
  | cons o os ih => simp [run, ih]

/-- A property every successful step keeps holds at the end of every successful run. -/
theorem run_invariant {step : O → S → Except ε (R × S)} {I : S → Prop}
    (hstep : ∀ o s r s', I s → step o s = .ok (r, s') → I s') :
    ∀ (os : List O) (s : S) (rs : List R) (s' : S), I s → run step os s = .ok (rs, s') → I s'
  | [], s, rs, s', hI, hrun => by
    simp only [run_nil, Except.ok.injEq, Prod.mk.injEq] at hrun
    exact hrun.2 ▸ hI
  | o :: os, s, rs, s', hI, hrun => by
    simp only [run, bind, Except.bind] at hrun
    split at hrun
    · cases hrun
    rename_i p hp
    split at hrun
    · cases hrun
    rename_i q hq
    simp only [pure, Except.pure, Except.ok.injEq, Prod.mk.injEq] at hrun
    rw [← hrun.2]
    exact run_invariant hstep os p.2 q.1 q.2 (hstep o s p.1 p.2 hI hp) hq

@[simp] theorem runSpec_nil (spec : O → A → Q × A) (a : A) : runSpec spec [] a = ([], a) := rfl

@[simp] theorem runSpec_cons (spec : O → A → Q × A) (o : O) (os : List O) (a : A) :
    runSpec spec (o :: os) a =
      ((spec o a).1 :: (runSpec spec os (spec o a).2).1, (runSpec spec os (spec o a).2).2) := rfl

/-- A step simulation lifts to every run: the machine does not fail, ends in the invariant,
and its answers and final state are the specification's. -/
theorem run_simulates {step : O → S → Except ε (R × S)} {spec : O → A → Q × A} {abs : S → A}
    {answer : R → Q} {inv : ℕ → S → Prop} (hsim : StepSimulation step spec abs answer inv) :
    ∀ (os : List O) (s : S), inv os.length s → ∃ rs s', run step os s = .ok (rs, s') ∧
      inv 0 s' ∧ rs.map answer = (runSpec spec os (abs s)).1 ∧
      abs s' = (runSpec spec os (abs s)).2 := by
  intro os
  induction os with
  | nil => intro s hs; exact ⟨[], s, rfl, hs, rfl, rfl⟩
  | cons o os ih =>
    intro s hs
    obtain ⟨r, s₁, hstep, hinv₁, hans, habs⟩ := hsim os.length o s hs
    obtain ⟨rs, s', hrun, hinv', hanss, habs'⟩ := ih s₁ hinv₁
    refine ⟨r :: rs, s', ?_, hinv', ?_, ?_⟩
    · rw [run_cons_of_ok hstep, hrun]; rfl
    · rw [runSpec_cons, List.map_cons, hans, hanss, habs]
    · rw [runSpec_cons, habs', habs]

theorem StepSimulation.project {B : Type} {step : O → S → Except ε (R × S)} {spec : O → A → Q × A}
    {spec' : O → B → Q × B} {abs' : S → B} {answer : R → Q} {inv : ℕ → S → Prop} (π : B → A)
    (hπ : ∀ o b, (spec' o b).1 = (spec o (π b)).1 ∧ π (spec' o b).2 = (spec o (π b)).2)
    (hsim : StepSimulation step spec' abs' answer inv) :
    StepSimulation step spec (π ∘ abs') answer inv := by
  intro n o s hs
  obtain ⟨r, s', hstep, hinv, hans, habs⟩ := hsim n o s hs
  obtain ⟨hπ₁, hπ₂⟩ := hπ o (abs' s)
  exact ⟨r, s', hstep, hinv, hans.trans hπ₁, by rw [Function.comp_apply, habs, hπ₂, Function.comp_apply]⟩

/-- The specification that also counts the operations that `counts` accepts in the state
they meet. -/
def counting (spec : O → A → Q × A) (counts : O → A → Prop) [∀ o a, Decidable (counts o a)] :
    O → A × ℕ → Q × (A × ℕ)
  | o, (a, n) => ((spec o a).1, ((spec o a).2, if counts o a then n + 1 else n))

theorem runSpec_counting (spec : O → A → Q × A) (counts : O → A → Prop)
    [∀ o a, Decidable (counts o a)] (os : List O) (a : A) (n : ℕ) :
    (runSpec (counting spec counts) os (a, n)).1 = (runSpec spec os a).1 ∧
      (runSpec (counting spec counts) os (a, n)).2.1 = (runSpec spec os a).2 := by
  induction os generalizing a n with
  | nil => exact ⟨rfl, rfl⟩
  | cons o os ih =>
    obtain ⟨ih₁, ih₂⟩ := ih (spec o a).2 (if counts o a then n + 1 else n)
    exact ⟨by simp only [runSpec_cons, counting, ih₁], by simp only [runSpec_cons, counting, ih₂]⟩

theorem StepSimulation.of_counting {step : O → S → Except ε (R × S)}
    {spec : O → A → Q × A} {counts : O → A → Prop} [∀ o a, Decidable (counts o a)]
    {abs' : S → A × ℕ} {answer : R → Q} {inv : ℕ → S → Prop}
    (hsim : StepSimulation step (counting spec counts) abs' answer inv) :
    StepSimulation step spec (Prod.fst ∘ abs') answer inv :=
  hsim.project Prod.fst fun _ _ => ⟨rfl, rfl⟩

end Simulation

namespace PartialMap

variable {K V : Type} [DecidableEq K] [Zero V] [DecidableEq V]

/-- The binding a stored value makes: none for zero. -/
def ofValue (v : V) : Option V := if v = 0 then none else some v

/-- Bind `k` to `v` where `k` is unbound and answer `none`; otherwise answer the binding
and change nothing. -/
def insertIfAbsent (m : K → Option V) (k : K) (v : V) : Option V × (K → Option V) :=
  match m k with
  | some cur => (some cur, m)
  | none => (none, Function.update m k (ofValue v))

/-- Bind `k` to `v` whatever it was bound to. -/
def insert (m : K → Option V) (k : K) (v : V) : K → Option V := Function.update m k (ofValue v)

@[simp] theorem ofValue_zero : ofValue (0 : V) = none := by simp [ofValue]

theorem ofValue_of_ne_zero {v : V} (h : v ≠ 0) : ofValue v = some v := by simp [ofValue, h]

@[simp] theorem ofValue_eq_none_iff (v : V) : ofValue v = none ↔ v = 0 := by
  by_cases h : v = 0 <;> simp [ofValue, h]

theorem insertIfAbsent_of_some {m : K → Option V} {k : K} {cur : V} (h : m k = some cur)
    (v : V) : insertIfAbsent m k v = (some cur, m) := by
  simp [insertIfAbsent, h]

theorem insertIfAbsent_of_none {m : K → Option V} {k : K} (h : m k = none) (v : V) :
    insertIfAbsent m k v = (none, insert m k v) := by
  simp [insertIfAbsent, insert, h]

theorem insert_apply (m : K → Option V) (k : K) (v : V) (k' : K) :
    insert m k v k' = if k' = k then ofValue v else m k' := by
  simp [insert, Function.update_apply]

/-- The keys bound in `m` are those of `S`. -/
def Support (m : K → Option V) (S : Finset K) : Prop := ∀ k, m k ≠ none ↔ k ∈ S

omit [DecidableEq K] [Zero V] [DecidableEq V] in
theorem support_empty : Support (fun _ : K => (none : Option V)) ∅ := by simp [Support]

theorem Support.insert {m : K → Option V} {S : Finset K} (hS : Support m S) (k : K) (v : V) :
    Support (insert m k v) (if v = 0 then S.erase k else Insert.insert k S) := by
  intro k'
  rw [insert_apply]
  by_cases hk : k' = k
  · subst hk
    by_cases hv : v = 0 <;> simp [hv, ofValue]
  · by_cases hv : v = 0 <;> simp [hv, hk, hS k']

theorem find?_key_eq_of_mem {α β : Type} [DecidableEq β] {l : List α} {key : α → β}
    (hnd : (l.map key).Nodup) {x : α} (hx : x ∈ l) :
    l.find? (fun y => key y = key x) = some x := by
  have hsome : (l.find? fun y => decide (key y = key x)).isSome :=
    List.find?_isSome.mpr ⟨x, hx, decide_eq_true rfl⟩
  obtain ⟨y, hy⟩ := Option.isSome_iff_exists.mp hsome
  have hkey : key y = key x := by simpa using List.find?_some hy
  rw [hy, List.inj_on_of_nodup_map hnd (List.mem_of_find?_eq_some hy) hx hkey]

end PartialMap
