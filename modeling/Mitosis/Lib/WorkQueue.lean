import Mathlib

/-!
# A work queue with in-order completions

A device takes requests from a send queue in the order they were posted. Executing a
request yields an outcome; a signaled request also leaves a completion, the request with
its outcome, at the end of a completion queue, and a poller takes completions from its
front. An unsignaled request leaves nothing behind.

The requests still owed a completion are `outstanding`: the completions not yet taken,
then the signaled requests not yet executed. Posting a signaled request appends to it,
executing leaves it alone, and a poll that finds a completion takes its first request.
So the polls answer the signaled requests in the order they were posted, each once.
-/
namespace WorkQueue

/-- A send queue of posted requests and a completion queue of executed signaled ones. -/
structure Queue (R C : Type) where
  sq : List R
  cq : List (R × C)

variable {R C : Type} (signaled : R → Bool)

/-- The empty queue. -/
def empty : Queue R C := ⟨[], []⟩

/-- Post a request at the end of the send queue. -/
def post (q : Queue R C) (r : R) : Queue R C := { q with sq := q.sq ++ [r] }

/-- The device executes the oldest posted request with outcome `c`. -/
def execute (c : C) (q : Queue R C) : Queue R C :=
  match q.sq with
  | [] => q
  | r :: rest => ⟨rest, if signaled r then q.cq ++ [(r, c)] else q.cq⟩

/-- Take the oldest completion, if there is one. -/
def poll (q : Queue R C) : Option (R × C) × Queue R C :=
  match q.cq with
  | [] => (none, q)
  | e :: rest => (some e, { q with cq := rest })

/-- The signaled requests owed a completion, oldest first. -/
def outstanding (q : Queue R C) : List R := q.cq.map Prod.fst ++ q.sq.filter signaled

variable {signaled}

@[simp] theorem outstanding_empty : outstanding signaled (empty : Queue R C) = [] := rfl

@[simp] theorem post_cq (q : Queue R C) (r : R) : (post q r).cq = q.cq := rfl

@[simp] theorem post_sq (q : Queue R C) (r : R) : (post q r).sq = q.sq ++ [r] := rfl

theorem outstanding_post (q : Queue R C) (r : R) :
    outstanding signaled (post q r) =
      outstanding signaled q ++ if signaled r then [r] else [] := by
  by_cases hr : signaled r <;> simp [outstanding, post, List.filter_append, hr]

theorem outstanding_execute (c : C) (q : Queue R C) :
    outstanding signaled (execute signaled c q) = outstanding signaled q := by
  unfold execute
  split
  · rfl
  · rename_i r rest hsq
    by_cases hr : signaled r <;> simp [outstanding, hsq, hr]

theorem execute_cq (c : C) (q : Queue R C) :
    ∃ extra : List (R × C), (execute signaled c q).cq = q.cq ++ extra ∧
      extra.length ≤ 1 ∧ ∀ e ∈ extra, e.2 = c ∧ e.1 ∈ q.sq := by
  unfold execute
  split
  · exact ⟨[], by simp, by simp, by simp⟩
  · rename_i r rest hsq
    by_cases hr : signaled r
    · exact ⟨[(r, c)], by simp [hr], by simp, by simp [hsq]⟩
    · exact ⟨[], by simp [hr], by simp, by simp⟩

theorem execute_post_of_sq_nil {q : Queue R C} (hsq : q.sq = []) {r : R} (hr : signaled r = true)
    (c : C) : execute signaled c (post q r) = ⟨[], q.cq ++ [(r, c)]⟩ := by
  simp [execute, post, hsq, hr]

theorem poll_eq_none {q q' : Queue R C} (h : poll q = (none, q')) : q.cq = [] ∧ q' = q := by
  unfold poll at h
  split at h
  · rename_i hcq
    cases h
    exact ⟨hcq, rfl⟩
  · cases h

theorem poll_eq_some {q q' : Queue R C} {e : R × C} (h : poll q = (some e, q')) :
    q.cq = e :: q'.cq ∧ q'.sq = q.sq := by
  unfold poll at h
  split at h
  · cases h
  · rename_i e' rest hcq
    cases h
    exact ⟨hcq, rfl⟩

theorem outstanding_poll {q q' : Queue R C} {e : R × C} (h : poll q = (some e, q')) :
    outstanding signaled q = e.1 :: outstanding signaled q' := by
  obtain ⟨hcq, hsq⟩ := poll_eq_some h
  simp [outstanding, hcq, hsq]

end WorkQueue
