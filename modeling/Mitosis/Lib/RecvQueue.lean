import Mathlib

/-!
# Receive queues

A receive queue is what a host shares with a message-passing NIC: the buffers it has posted,
oldest first. An arriving message goes into the oldest posted buffer that is still empty, and
the host polls the completions to take the filled buffers back, oldest first. The queue is
therefore the list of posted buffers and the number of them, at its front, that hold a
message not yet taken.

What the proofs over such queues use: how each operation moves the buffers and the count,
that a poll gives back the oldest filled buffer whichever message filled it, and that filling
or posting behind a filled buffer leaves what the next poll gives.
-/

/-- Posted buffers, oldest first; the first `filled` of them hold a message not yet taken. -/
structure RecvQueue (β : Type) where
  bufs : List β
  filled : ℕ
  filled_le : filled ≤ bufs.length
  deriving DecidableEq

namespace RecvQueue

variable {β : Type}

/-- No buffer posted. -/
def empty : RecvQueue β := ⟨[], 0, le_refl _⟩

/-- Post a buffer behind the others. -/
def post (q : RecvQueue β) (b : β) : RecvQueue β :=
  ⟨q.bufs ++ [b], q.filled, by simpa using Nat.le_succ_of_le q.filled_le⟩

/-- The buffer the next message goes into: the oldest one still empty. -/
def nextEmpty (q : RecvQueue β) : Option β := q.bufs[q.filled]?

/-- A message arrives and fills the next empty buffer; with none, it is lost. -/
def fill (q : RecvQueue β) : RecvQueue β :=
  if h : q.filled < q.bufs.length then ⟨q.bufs, q.filled + 1, h⟩ else q

/-- Take the oldest filled buffer back, when a message has arrived. -/
def poll (q : RecvQueue β) : Option β × RecvQueue β :=
  if 0 < q.filled then
    (q.bufs.head?, ⟨q.bufs.tail, q.filled - 1, by have := q.filled_le; simp; omega⟩)
  else (none, q)

/-- The number of posted buffers still waiting for a message. -/
def free (q : RecvQueue β) : ℕ := q.bufs.length - q.filled

@[simp] theorem bufs_empty : (empty : RecvQueue β).bufs = [] := rfl

@[simp] theorem filled_empty : (empty : RecvQueue β).filled = 0 := rfl

@[simp] theorem bufs_post (q : RecvQueue β) (b : β) : (q.post b).bufs = q.bufs ++ [b] := rfl

@[simp] theorem filled_post (q : RecvQueue β) (b : β) : (q.post b).filled = q.filled := rfl

@[simp] theorem bufs_fill (q : RecvQueue β) : q.fill.bufs = q.bufs := by
  unfold fill; split <;> rfl

theorem filled_fill (q : RecvQueue β) :
    q.fill.filled = if q.filled < q.bufs.length then q.filled + 1 else q.filled := by
  unfold fill; split <;> rfl

theorem poll_of_filled_eq_zero {q : RecvQueue β} (h : q.filled = 0) : q.poll = (none, q) := by
  simp [poll, h]

theorem fst_poll (q : RecvQueue β) : q.poll.1 = if 0 < q.filled then q.bufs.head? else none := by
  unfold poll; split <;> rfl

@[simp] theorem bufs_poll (q : RecvQueue β) :
    q.poll.2.bufs = if 0 < q.filled then q.bufs.tail else q.bufs := by
  unfold poll; split <;> rfl

@[simp] theorem filled_poll (q : RecvQueue β) : q.poll.2.filled = q.filled - 1 := by
  unfold poll; split
  · rfl
  · simp only; omega

theorem poll_eq_some {q : RecvQueue β} {b : β} {q' : RecvQueue β} (h : q.poll = (some b, q')) :
    0 < q.filled ∧ q.bufs = b :: q'.bufs ∧ q'.filled = q.filled - 1 := by
  unfold poll at h
  split at h
  · rename_i hk
    obtain ⟨c, cs, hc⟩ := List.exists_cons_of_length_pos (Nat.lt_of_lt_of_le hk q.filled_le)
    simp only [hc, List.head?_cons, List.tail_cons, Prod.mk.injEq, Option.some.injEq] at h
    obtain ⟨rfl, rfl⟩ := h
    exact ⟨hk, hc, rfl⟩
  · simp at h

theorem poll_eq_none {q : RecvQueue β} {q' : RecvQueue β} (h : q.poll = (none, q')) :
    q.filled = 0 ∧ q' = q := by
  unfold poll at h
  split at h
  · rename_i hk
    obtain ⟨b, bs, hb⟩ := List.exists_cons_of_length_pos (Nat.lt_of_lt_of_le hk q.filled_le)
    simp [hb] at h
  · simp only [Prod.mk.injEq, true_and] at h
    exact ⟨by omega, h.symm⟩

theorem length_bufs_poll (q : RecvQueue β) :
    q.poll.2.bufs.length + (q.poll.1.map fun _ => 1).getD 0 = q.bufs.length := by
  rw [bufs_poll, fst_poll]
  by_cases hk : 0 < q.filled
  · obtain ⟨b, bs, hb⟩ := List.exists_cons_of_length_pos (Nat.lt_of_lt_of_le hk q.filled_le)
    simp [hk, hb]
  · simp [hk]

theorem fst_poll_fill {q : RecvQueue β} (h : 0 < q.filled) : q.fill.poll.1 = q.poll.1 := by
  have hk : 0 < q.fill.filled := by rw [filled_fill]; split <;> omega
  rw [fst_poll, fst_poll, if_pos hk, if_pos h, bufs_fill]

theorem fst_poll_post {q : RecvQueue β} (h : 0 < q.filled) (b : β) :
    (q.post b).poll.1 = q.poll.1 := by
  obtain ⟨c, cs, hc⟩ := List.exists_cons_of_length_pos (Nat.lt_of_lt_of_le h q.filled_le)
  simp [fst_poll, h, hc]

theorem nextEmpty_isSome {q : RecvQueue β} : q.nextEmpty.isSome ↔ q.filled < q.bufs.length := by
  simp [nextEmpty]

end RecvQueue
