import Mathlib

/-!
# Polled futures and blocking on them

A future is polled: each poll answers that its value is ready, that it is not ready yet,
or that it failed, and moves a state. A poll may also end the whole computation (a panic,
the outer `Except`). `blockOn` polls until the answer is not "not ready". Between two polls
the environment moves the state by one tick of a schedule; the schedule is finite, and a
wait that outlasts it has no result (`none`), with the unused ticks returned otherwise so
that waits compose.

The rules here are the ones the client proofs use: the equations of `blockOn`, an
invariant rule (`blockOn_inv`), and that the result of a wait is the answer of one poll at
a reachable state (`blockOn_last`).
-/
namespace Future

/-- A value that is ready, or not yet. -/
inductive Async (α : Type)
  | ready (a : α)
  | notReady
  deriving DecidableEq, Repr

variable {S T ε α : Type}

/-- Poll after each tick until the future is ready or fails; `none` when the ticks run out
first. -/
def blockOn (poll : S → Except String (Except ε (Async α) × S)) (tick : T → S → S) :
    List T → S → Except String (Option (Except ε α × S × List T))
  | [], _ => pure none
  | t :: ts, s => do
    let (r, s) ← poll (tick t s)
    match r with
    | .ok (.ready v) => pure (some (.ok v, s, ts))
    | .ok .notReady => blockOn poll tick ts s
    | .error e => pure (some (.error e, s, ts))

variable {poll : S → Except String (Except ε (Async α) × S)} {tick : T → S → S}

@[simp] theorem blockOn_nil (s : S) : blockOn poll tick [] s = pure none := rfl

theorem blockOn_cons_ready {t : T} {ts : List T} {s s' : S} {v : α}
    (h : poll (tick t s) = .ok (.ok (.ready v), s')) :
    blockOn poll tick (t :: ts) s = pure (some (.ok v, s', ts)) := by
  simp only [blockOn, h]
  rfl

theorem blockOn_cons_notReady {t : T} {ts : List T} {s s' : S}
    (h : poll (tick t s) = .ok (.ok .notReady, s')) :
    blockOn poll tick (t :: ts) s = blockOn poll tick ts s' := by
  simp only [blockOn, h]
  rfl

theorem blockOn_cons_error {t : T} {ts : List T} {s s' : S} {e : ε}
    (h : poll (tick t s) = .ok (.error e, s')) :
    blockOn poll tick (t :: ts) s = pure (some (.error e, s', ts)) := by
  simp only [blockOn, h]
  rfl

theorem blockOn_cons_panic {t : T} {ts : List T} {s : S} {msg : String}
    (h : poll (tick t s) = .error msg) : blockOn poll tick (t :: ts) s = .error msg := by
  simp only [blockOn, h]
  rfl

/-- An invariant kept by every tick and every poll holds when the wait ends. -/
theorem blockOn_inv (I : S → Prop) (htick : ∀ t s, I s → I (tick t s))
    (hpoll : ∀ s r s', I s → poll s = .ok (r, s') → I s') :
    ∀ (ts : List T) (s : S) {r : Except ε α} {s' : S} {ts' : List T}, I s →
      blockOn poll tick ts s = .ok (some (r, s', ts')) → I s'
  | [], _, _, _, _, _, h => by cases h
  | t :: ts, s, r, s', ts', hs, h => by
    have hs₁ := htick t s hs
    cases hp : poll (tick t s) with
    | error msg => rw [blockOn_cons_panic hp] at h; cases h
    | ok rs =>
      obtain ⟨r₁, s₁⟩ := rs
      have hs₂ := hpoll _ _ _ hs₁ hp
      rcases r₁ with e | (v | _)
      · rw [blockOn_cons_error hp] at h
        cases h
        exact hs₂
      · rw [blockOn_cons_ready hp] at h
        cases h
        exact hs₂
      · rw [blockOn_cons_notReady hp] at h
        exact blockOn_inv I htick hpoll ts s₁ hs₂ h

/-- A wait that ends is made of polls that were not ready and a last one that finished:
the result comes from a single poll, at a state reached by ticks and polls. -/
theorem blockOn_last (R : S → Prop) (htick : ∀ t s, R s → R (tick t s))
    (hpoll : ∀ s s', R s → poll s = .ok (.ok .notReady, s') → R s') :
    ∀ (ts : List T) (s : S) {r : Except ε α} {s' : S} {ts' : List T}, R s →
      blockOn poll tick ts s = .ok (some (r, s', ts')) →
      ∃ s₀, R s₀ ∧ poll s₀ = .ok (r.map Async.ready, s')
  | [], _, _, _, _, _, h => by cases h
  | t :: ts, s, r, s', ts', hs, h => by
    have hs₁ := htick t s hs
    cases hp : poll (tick t s) with
    | error msg => rw [blockOn_cons_panic hp] at h; cases h
    | ok rs =>
      obtain ⟨r₁, s₁⟩ := rs
      rcases r₁ with e | (v | _)
      · rw [blockOn_cons_error hp] at h
        cases h
        exact ⟨_, hs₁, hp⟩
      · rw [blockOn_cons_ready hp] at h
        cases h
        exact ⟨_, hs₁, hp⟩
      · rw [blockOn_cons_notReady hp] at h
        exact blockOn_last R htick hpoll ts s₁ (hpoll _ _ hs₁ hp) h

/-! ## A future under a deadline -/

/-- Why a wait under a deadline ended without a value: the future failed, or the deadline
passed first. -/
inductive TimeoutError (ε : Type)
  | inner (e : ε)
  | elapsed
  deriving DecidableEq, Repr

/-- A future under a deadline: the future is polled first, and only when it is not ready does
the deadline decide, `expired` of the state after the poll. -/
def timeoutPoll (poll : S → Except String (Except ε (Async α) × S)) (expired : S → Bool) :
    S → Except String (Except (TimeoutError ε) (Async α) × S) := fun s => do
  let (r, s) ← poll s
  match r with
  | .ok (.ready v) => pure (.ok (.ready v), s)
  | .ok .notReady => pure (if expired s then .error .elapsed else .ok .notReady, s)
  | .error e => pure (.error (.inner e), s)

variable {expired : S → Bool}

theorem timeoutPoll_ready {s s' : S} {v : α} (h : poll s = .ok (.ok (.ready v), s')) :
    timeoutPoll poll expired s = .ok (.ok (.ready v), s') := by
  simp only [timeoutPoll, h]
  rfl

theorem timeoutPoll_notReady {s s' : S} (h : poll s = .ok (.ok .notReady, s')) :
    timeoutPoll poll expired s =
      .ok (if expired s' then .error .elapsed else .ok .notReady, s') := by
  simp only [timeoutPoll, h]
  rfl

theorem timeoutPoll_error {s s' : S} {e : ε} (h : poll s = .ok (.error e, s')) :
    timeoutPoll poll expired s = .ok (.error (.inner e), s') := by
  simp only [timeoutPoll, h]
  rfl

/-- What one poll under the deadline does: the future's poll, whose answer is kept unless it
is "not ready", which the deadline turns into `elapsed` once it has passed. -/
theorem timeoutPoll_eq_ok {s s' : S} {r : Except (TimeoutError ε) (Async α)}
    (h : timeoutPoll poll expired s = .ok (r, s')) :
    ∃ r₀, poll s = .ok (r₀, s') ∧
      (r₀ = .ok .notReady ∧ r = (if expired s' then .error .elapsed else .ok .notReady) ∨
        r₀ ≠ .ok .notReady ∧ r = r₀.mapError .inner) := by
  unfold timeoutPoll at h
  cases hp : poll s with
  | error msg => simp [hp, bind, Except.bind] at h
  | ok rs =>
    obtain ⟨r₀, s₁⟩ := rs
    simp only [hp, bind, Except.bind] at h
    refine ⟨r₀, ?_⟩
    rcases r₀ with e | (v | _) <;>
      simp only [pure, Except.pure, Except.ok.injEq, Prod.mk.injEq] at h <;>
      obtain ⟨rfl, rfl⟩ := h
    · simp [Except.mapError]
    · simp [Except.mapError]
    · simp

end Future
