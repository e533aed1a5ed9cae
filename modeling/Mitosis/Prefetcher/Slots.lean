import Mitosis.Descriptors.Fetch

/-!
# The life of a prefetched slot

A level-one slot of a resumed child holds `0`, a remote physical address (its `Prefetch` bit
clear), `K_MAGIC_IN_PREFETCH` while a prefetch READ into a local page is in flight, or that
local page with the `Prefetch` flag once the READ has completed. The prefetcher's
`pending_queues` records the slot and the page of each READ in flight, and `poll` pairs each
completion of its connection with the oldest entry, by their order alone.

`SlotsWF` is what keeps that pairing right: the pending entries name distinct slots, and
exactly the level-one slots in flight; the connection owes one completion per pending entry;
and each level-one slot with a page holds one that no other slot and no pending entry holds.
Every operation of the child's kernel on its prefetcher keeps it: `execute_reqs` with either
strategy, `poll`, `read_remote_page` of the prefetch build with its wait loop, its own
`execute_reqs` and `poll_prefetcher`, and the clearing of the slot it consumes, and
`drain_connections`, whatever the NIC does in between. So in every reachable state a poll
finds the entry of each completion, and a drained prefetcher leaves no slot in flight, which
the assertion of `PageTable::drop` requires, and an idle connection for the next child.

The page allocator is a parameter, and no operation here frees a page. What the proofs need
of it is said per operation: the pages it hands out there are distinct, aligned and not
null, and none of them is a page the prefetcher still holds.
-/
namespace Mitosis
open OsNetwork X86_64

/-! ## The values of a slot -/

/-- A `struct page` pointer as `pmem_alloc_page` hands it out when it does not fail: not null,
aligned to eight, a `u64`. -/
def PageAligned (u : ℕ) : Prop := 0 < u ∧ u % 8 = 0 ∧ u < 2 ^ 64

instance : DecidablePred PageAligned := fun u => inferInstanceAs (Decidable (0 < u ∧ _ ∧ _))

/-- The local page a slot value holds: a value with the `Prefetch` flag, other than
`K_MAGIC_IN_PREFETCH`, with its flags cleared. -/
def heldPage (v : ℕ) : Option ℕ :=
  if (PhysAddr.new (UInt64.ofNat v)).isPrefetch ∧ v ≠ kMagicInPrefetch.toNat then
    some (PhysAddr.decode (UInt64.ofNat v)).toNat
  else none

theorem toNat_kMagicInPrefetch : kMagicInPrefetch.toNat = 1 := rfl

/-- The flags of an aligned page with the `Prefetch` flag set, cleared again: the bits of
`8 * q` are those of `q` three places up. -/
private theorem eight_mul_add_one_and_mask {q : ℕ} (hq : q < 2 ^ 61) :
    (8 * q + 1) &&& (2 ^ 64 - 1 - 7) = 8 * q := by
  apply Nat.eq_of_testBit_eq
  intro j
  have hmask : 2 ^ 64 - 1 - 7 = 2 ^ 3 * (2 ^ 61 - 1) := by norm_num
  rw [Nat.testBit_and, hmask, Nat.testBit_two_pow_mul, show 8 * q + 1 = 2 ^ 3 * q + 1 by norm_num,
    Nat.testBit_two_pow_mul_add q (by norm_num : 1 < 2 ^ 3), show 8 * q = 2 ^ 3 * q by norm_num,
    Nat.testBit_two_pow_mul, Nat.testBit_two_pow_sub_one]
  by_cases hj : j < 3
  · simp [show ¬ 3 ≤ j by omega]
  · by_cases hj' : j - 3 < 61
    · simp [hj', show 3 ≤ j by omega]
    · -- above bit 63 neither side has a bit
      have hlt : q < 2 ^ (j - 3) :=
        lt_of_lt_of_le hq (Nat.pow_le_pow_right (by norm_num) (by omega))
      simp [hj', Nat.testBit_eq_false_of_lt hlt]

theorem toNat_encode_prefetch {u : ℕ} (hu : PageAligned u) :
    (PhysAddr.encode (UInt64.ofNat u) PhysAddrBitFlag.prefetch.toU64).toNat = u + 1 := by
  obtain ⟨-, h8, hlt⟩ := hu
  obtain ⟨q, rfl⟩ : ∃ q, u = 8 * q := ⟨u / 8, by omega⟩
  have hflag : PhysAddrBitFlag.prefetch.toU64 &&& PhysAddrBitFlag.mask = 1 := by decide
  rw [PhysAddr.encode, hflag, UInt64.toNat_or, UInt64.toNat_ofNat_of_lt' hlt, UInt64.toNat_one,
    show 8 * q = 2 ^ 3 * q by norm_num, ← Nat.two_pow_add_eq_or_of_lt (by norm_num : 1 < 2 ^ 3)]

/-- The low bit of a value, as `is_prefetch` and `bottom_bit` read it. -/
theorem isPrefetch_ofNat (v : ℕ) :
    (PhysAddr.new (UInt64.ofNat v)).isPrefetch = decide (v % 2 = 1) := by
  have hbit : (UInt64.ofNat v &&& 1).toNat = v % 2 := by
    rw [UInt64.toNat_and, UInt64.toNat_one, Nat.and_one_is_mod, UInt64.toNat_ofNat',
      Nat.mod_mod_of_dvd]
    norm_num
  simp only [PhysAddr.isPrefetch, PhysAddr.new, PhysAddrBitFlag.toU64]
  by_cases hv : v % 2 = 1
  · simp only [hv, decide_true, beq_iff_eq]
    exact UInt64.toNat_inj.mp (by rw [hbit, hv]; rfl)
  · simp only [hv, decide_false, beq_eq_false_iff_ne, ne_eq]
    intro h
    rw [h] at hbit
    exact hv hbit.symm

theorem bottomBit_of_aligned {u : ℕ} (hu : PageAligned u) :
    (PhysAddr.new (UInt64.ofNat u)).bottomBit = false := by
  rw [PhysAddr.bottomBit, isPrefetch_ofNat, decide_eq_false_iff_not]
  have := hu.2.1
  omega

/-- A page that `poll` wrote into a slot is the page the slot holds. -/
theorem heldPage_encode_prefetch {u : ℕ} (hu : PageAligned u) :
    heldPage (PhysAddr.encode (UInt64.ofNat u) PhysAddrBitFlag.prefetch.toU64).toNat = some u := by
  obtain ⟨hpos, h8, hlt⟩ := hu
  obtain ⟨q, rfl⟩ : ∃ q, u = 8 * q := ⟨u / 8, by omega⟩
  have hdecode : (PhysAddr.decode (UInt64.ofNat (8 * q + 1))).toNat = 8 * q := by
    rw [PhysAddr.decode, PhysAddrBitFlag.mask_eq, UInt64.toNat_and, UInt64.toNat_not,
      UInt64.toNat_ofNat_of_lt' (show 8 * q + 1 < 2 ^ 64 by omega)]
    exact eight_mul_add_one_and_mask (by omega)
  rw [toNat_encode_prefetch ⟨hpos, h8, hlt⟩, heldPage, if_pos, hdecode]
  rw [isPrefetch_ofNat, toNat_kMagicInPrefetch, decide_eq_true_eq]
  omega

theorem encode_prefetch_ne_magic {u : ℕ} (hu : PageAligned u) :
    (PhysAddr.encode (UInt64.ofNat u) PhysAddrBitFlag.prefetch.toU64).toNat ≠
      kMagicInPrefetch.toNat := by
  rw [toNat_encode_prefetch hu, toNat_kMagicInPrefetch]
  have := hu.1
  omega

theorem heldPage_magic : heldPage kMagicInPrefetch.toNat = none := by
  simp [heldPage]

theorem heldPage_of_isPrefetch_eq_false {v : ℕ}
    (h : (PhysAddr.new (UInt64.ofNat v)).isPrefetch = false) : heldPage v = none := by
  simp [heldPage, h]

theorem heldPage_zero : heldPage 0 = none := heldPage_of_isPrefetch_eq_false rfl

theorem bottomBit_magic : (PhysAddr.new (UInt64.ofNat kMagicInPrefetch.toNat)).bottomBit = true :=
  rfl

/-! ## Slots of the tables -/

/-- The slot a pending entry fills. -/
def ReplyEntry.slot (v : ReplyEntry) : ℕ × ℕ := (v.pt, v.idx)

/-- A write into a slot: a table that exists gets the value there, and nothing else changes. -/
theorem get_modify_set (h : Heap PageTable) (p i v q : ℕ) :
    (h.modify p fun t => t.set i v).get q =
      if q = p ∧ (h.read p).isSome then (h.get q).set i v else h.get q := by
  cases hp : h.read p with
  | none =>
    have hread : (h.modify p fun t => t.set i v).read q = h.read q := by
      by_cases hq : q = p
      · subst hq; simp [hp]
      · exact Heap.read_modify_of_ne _ _ hq
    simp [Heap.get, hread]
  | some t =>
    rw [Heap.get_modify _ hp]
    by_cases hq : q = p
    · subst hq; simp [h.get_of_read hp]
    · simp [hq]

theorem isSome_read_of_entries_ne_zero {h : Heap PageTable} {p i : ℕ}
    (hne : (h.get p).entries i ≠ 0) : (h.read p).isSome := by
  cases hr : h.read p with
  | none => exact absurd (by simp [h.get_of_read_none hr]) hne
  | some _ => rfl

namespace ExecState

variable {A : Type}

/-- The value of a slot. -/
def slotValue (s : ExecState A) (x : ℕ × ℕ) : ℕ := (s.tables.get x.1).entries x.2

/-- A slot of a level-one table. -/
def LevelOne (s : ExecState A) (x : ℕ × ℕ) : Prop := (s.tables.get x.1).level = .one

/-- The pages the prefetcher holds: in a level-one slot, or in a pending entry. -/
def Live (s : ExecState A) (u : ℕ) : Prop :=
  (∃ x, s.LevelOne x ∧ heldPage (s.slotValue x) = some u) ∨
    ∃ v ∈ s.prefetcher.pendingQueues, v.userPage = u

section Write

variable {s s' : ExecState A} {p i v : ℕ}

theorem levelOne_of_write (ht : s'.tables = s.tables.modify p fun t => t.set i v) (x : ℕ × ℕ) :
    s'.LevelOne x ↔ s.LevelOne x := by
  simp only [LevelOne, ht, get_modify_set]
  split <;> rfl

theorem slotValue_of_write (ht : s'.tables = s.tables.modify p fun t => t.set i v)
    (hp : (s.tables.read p).isSome) (x : ℕ × ℕ) :
    s'.slotValue x = if x = (p, i) then v else s.slotValue x := by
  obtain ⟨q, j⟩ := x
  simp only [slotValue, ht, get_modify_set, hp, and_true, Prod.mk.injEq]
  by_cases hq : q = p
  · subst hq
    by_cases hj : j = i <;> simp [hj]
  · simp [hq]

theorem slotValue_of_write_or (ht : s'.tables = s.tables.modify p fun t => t.set i v)
    (x : ℕ × ℕ) : s'.slotValue x = s.slotValue x ∨ x = (p, i) ∧ s'.slotValue x = v := by
  cases hp : s.tables.read p with
  | none =>
    left
    simp only [slotValue, ht, get_modify_set, hp, Option.isSome_none, Bool.false_eq_true,
      and_false, if_false]
  | some _ =>
    rw [slotValue_of_write ht (by simp [hp]) x]
    by_cases hx : x = (p, i) <;> simp [hx]

end Write

end ExecState

/-! ## What the allocator hands out -/

namespace PageAllocator

variable {A : Type} {alloc : PageAllocator A}

variable (alloc) in
/-- The next `n` pages the allocator hands out from `a` are distinct aligned pages, none of
which `live` holds. -/
def FreshFor (live : ℕ → Prop) (n : ℕ) (a : A) : Prop :=
  (alloc.allocPages n a).1.Nodup ∧ ∀ u ∈ (alloc.allocPages n a).1, PageAligned u ∧ ¬ live u

variable (alloc) in
theorem allocPages_prefix : ∀ {m n : ℕ} (a : A), m ≤ n →
    (alloc.allocPages m a).1 <+: (alloc.allocPages n a).1
  | 0, _, _, _ => by simp
  | m + 1, n + 1, a, h => by
    simp only [allocPages_succ]
    exact List.cons_prefix_cons.mpr ⟨rfl, allocPages_prefix _ (by omega)⟩

variable {live : ℕ → Prop} {n : ℕ} {a : A}

theorem FreshFor.head (h : alloc.FreshFor live (n + 1) a) :
    PageAligned (alloc.pmemAllocPage a).1 ∧ ¬ live (alloc.pmemAllocPage a).1 :=
  h.2 _ (by simp)

theorem FreshFor.tail (h : alloc.FreshFor live (n + 1) a) :
    alloc.FreshFor (fun u => live u ∨ u = (alloc.pmemAllocPage a).1) n
      (alloc.pmemAllocPage a).2 := by
  obtain ⟨hnd, hall⟩ := h
  simp only [allocPages_succ, List.nodup_cons, List.mem_cons, forall_eq_or_imp] at hnd hall
  refine ⟨hnd.2, fun u hu => ⟨(hall.2 u hu).1, ?_⟩⟩
  rintro (hl | rfl)
  · exact (hall.2 u hu).2 hl
  · exact hnd.1 hu

theorem FreshFor.mono {live' : ℕ → Prop} {m : ℕ} (h : alloc.FreshFor live n a) (hmn : m ≤ n)
    (hl : ∀ u, live' u → live u) : alloc.FreshFor live' m a := by
  have hpre := alloc.allocPages_prefix a hmn
  exact ⟨h.1.sublist hpre.sublist, fun u hu =>
    ⟨(h.2 u (hpre.subset hu)).1, fun hu' => (h.2 u (hpre.subset hu)).2 (hl u hu')⟩⟩

end PageAllocator

/-! ## The invariant -/

namespace ExecState

variable {A : Type}

theorem heldPage_of_write_none {s s' : ExecState A} {p i v : ℕ}
    (ht : s'.tables = s.tables.modify p fun t => t.set i v) (hv : heldPage v = none) {x : ℕ × ℕ}
    {w : ℕ} (h : heldPage (s'.slotValue x) = some w) : heldPage (s.slotValue x) = some w := by
  rcases slotValue_of_write_or ht x with hx | ⟨-, hx⟩
  · rwa [hx] at h
  · rw [hx, hv] at h
    cases h

/-- The slot invariant of a prefetcher and the tables its entries point into. -/
structure SlotsWF (s : ExecState A) : Prop where
  /-- The pending entries name distinct slots, -/
  nodup : (s.prefetcher.pendingQueues.map ReplyEntry.slot).Nodup
  /-- each of them in flight, -/
  pending_magic : ∀ v ∈ s.prefetcher.pendingQueues,
    s.slotValue v.slot = kMagicInPrefetch.toNat
  /-- and every level-one slot in flight is one of them. -/
  magic_pending : ∀ x, s.LevelOne x → s.slotValue x = kMagicInPrefetch.toNat →
    x ∈ s.prefetcher.pendingQueues.map ReplyEntry.slot
  /-- The connection owes one completion per pending entry. -/
  outstanding : (WorkQueue.outstanding DCReqPayload.signaled s.qp).length =
    s.prefetcher.pendingQueues.length
  /-- No two level-one slots hold one page, -/
  held_unique : ∀ x y u, s.LevelOne x → s.LevelOne y → heldPage (s.slotValue x) = some u →
    heldPage (s.slotValue y) = some u → x = y
  /-- and none holds the page of a pending entry. -/
  held_not_pending : ∀ x, s.LevelOne x → ∀ v ∈ s.prefetcher.pendingQueues,
    heldPage (s.slotValue x) ≠ some v.userPage
  /-- The pending entries have distinct pages, each as the allocator hands them out. -/
  pages_nodup : (s.prefetcher.pendingQueues.map ReplyEntry.userPage).Nodup
  pending_aligned : ∀ v ∈ s.prefetcher.pendingQueues, PageAligned v.userPage

/-- A prefetcher with nothing pending on an idle connection, over tables whose level-one slots
hold no `Prefetch` flag: what `new_from_raw` starts from, on a table of remote addresses. -/
theorem slotsWF_init {s : ExecState A} (hp : s.prefetcher.pendingQueues = [])
    (hq : WorkQueue.outstanding DCReqPayload.signaled s.qp = [])
    (hflag : ∀ x, s.LevelOne x → (PhysAddr.new (UInt64.ofNat (s.slotValue x))).isPrefetch = false) :
    SlotsWF s where
  nodup := by simp [hp]
  pending_magic := by simp [hp]
  magic_pending x hx hm := absurd (hflag x hx) (by rw [hm]; decide)
  outstanding := by simp [hp, hq]
  held_unique x _ _ hx _ hu := by simp [heldPage_of_isPrefetch_eq_false (hflag x hx)] at hu
  held_not_pending := by simp [hp]
  pages_nodup := by simp [hp]
  pending_aligned := by simp [hp]

variable {s : ExecState A}

theorem SlotsWF.isSome_read (hwf : s.SlotsWF) {v : ReplyEntry}
    (hv : v ∈ s.prefetcher.pendingQueues) : (s.tables.read v.pt).isSome :=
  isSome_read_of_entries_ne_zero (i := v.idx)
    (show s.slotValue v.slot ≠ 0 by rw [hwf.pending_magic v hv]; decide)

theorem SlotsWF.not_mem_of_bottomBit (hwf : s.SlotsWF) {x : ℕ × ℕ}
    (hb : (PhysAddr.new (UInt64.ofNat (s.slotValue x))).bottomBit = false) :
    x ∉ s.prefetcher.pendingQueues.map ReplyEntry.slot := by
  intro hx
  obtain ⟨v, hv, rfl⟩ := List.mem_map.mp hx
  rw [hwf.pending_magic v hv, bottomBit_magic] at hb
  cases hb

theorem SlotsWF.not_mem_of_ne_magic (hwf : s.SlotsWF) {x : ℕ × ℕ}
    (hx : s.slotValue x ≠ kMagicInPrefetch.toNat) :
    x ∉ s.prefetcher.pendingQueues.map ReplyEntry.slot := by
  intro hmem
  obtain ⟨v, hv, rfl⟩ := List.mem_map.mp hmem
  exact hx (hwf.pending_magic v hv)

theorem SlotsWF.pendingQueues_eq_nil (hwf : s.SlotsWF) (hsq : s.qp.sq = []) (hcq : s.qp.cq = []) :
    s.prefetcher.pendingQueues = [] := by
  have hout := hwf.outstanding
  simp only [WorkQueue.outstanding, hsq, hcq, List.map_nil, List.filter_nil,
    List.append_nil, List.length_nil] at hout
  exact List.length_eq_zero_iff.mp hout.symm

theorem SlotsWF.congr (hwf : s.SlotsWF) {s' : ExecState A} (ht : s'.tables = s.tables)
    (hp : s'.prefetcher = s.prefetcher) (hq : s'.qp = s.qp) : s'.SlotsWF := by
  obtain ⟨pf, tb, q, pg⟩ := s
  obtain ⟨pf', tb', q', pg'⟩ := s'
  simp only at ht hp hq
  subst ht hp hq
  exact ⟨hwf.nodup, hwf.pending_magic, hwf.magic_pending, hwf.outstanding, hwf.held_unique,
    hwf.held_not_pending, hwf.pages_nodup, hwf.pending_aligned⟩

theorem slotsWF_tick (hwf : s.SlotsWF) (t : LinkEvent) : (s.tick t).SlotsWF := by
  cases t with
  | execute status =>
    exact { hwf with
      outstanding := by simpa [tick, WorkQueue.outstanding_execute] using hwf.outstanding }
  | elapse _ => exact hwf

/-- Clearing a slot that is not in flight keeps the invariant: no entry names it, and `0` holds
no page. -/
theorem slotsWF_clear (hwf : s.SlotsWF) {x : ℕ × ℕ} (hx : s.slotValue x ≠ kMagicInPrefetch.toNat)
    {s' : ExecState A} (ht : s'.tables = s.tables.modify x.1 fun t => t.set x.2 0)
    (hp : s'.prefetcher = s.prefetcher) (hq : s'.qp = s.qp) : s'.SlotsWF := by
  have hlev := levelOne_of_write ht
  have hold : ∀ y w, heldPage (s'.slotValue y) = some w → heldPage (s.slotValue y) = some w :=
    fun _ _ hw => heldPage_of_write_none ht heldPage_zero hw
  have hnx := hwf.not_mem_of_ne_magic hx
  refine ⟨hp ▸ hwf.nodup, fun v hv => ?_, fun y hy hm => ?_, hp ▸ hq ▸ hwf.outstanding,
    fun y z w hy hz hwy hwz => hwf.held_unique y z w ((hlev y).mp hy) ((hlev z).mp hz)
      (hold y w hwy) (hold z w hwz),
    fun y hy v hv hw => hwf.held_not_pending y ((hlev y).mp hy) v (hp ▸ hv) (hold y _ hw),
    hp ▸ hwf.pages_nodup, fun v hv => hwf.pending_aligned v (hp ▸ hv)⟩
  · rw [hp] at hv
    rcases slotValue_of_write_or ht v.slot with he | ⟨he, -⟩
    · rw [he]
      exact hwf.pending_magic v hv
    · exact absurd ((show v.slot = x from he) ▸ List.mem_map_of_mem hv) hnx
  · rw [hp]
    rcases slotValue_of_write_or ht y with he | ⟨-, he⟩
    · exact hwf.magic_pending y ((hlev y).mp hy) (he ▸ hm)
    · rw [he] at hm
      cases hm

end ExecState

/-! ## One round of `execute_reqs` -/

namespace DCAsyncPrefetcher

variable {A : Type} {alloc : PageAllocator A} {nic : Nic} {s s' : ExecState A}

/-- What one round of `execute_reqs` can do: leave a slot whose bottom bit is set, or mark the
slot, take a page from the allocator, post one signaled READ and record the entry. -/
theorem executeReq_eq_ok {req : PageEntry} (h : executeReq alloc nic s req = .ok s') :
    (PhysAddr.new (UInt64.ofNat (s.slotValue (req.page, req.index)))).bottomBit = true ∧ s' = s ∨
    (PhysAddr.new (UInt64.ofNat (s.slotValue (req.page, req.index)))).bottomBit = false ∧
      ∃ r : DCReqPayload, r.signaled = true ∧
        s' = ⟨{ s.prefetcher with pendingQueues := s.prefetcher.pendingQueues ++
            [⟨req.page, req.index, (alloc.pmemAllocPage s.pages).1⟩] },
          s.tables.modify req.page (fun pt => pt.set req.index kMagicInPrefetch.toNat),
          WorkQueue.post s.qp r, (alloc.pmemAllocPage s.pages).2⟩ := by
  cases hb : (PhysAddr.new (UInt64.ofNat (s.slotValue (req.page, req.index)))).bottomBit with
  | true =>
    rw [executeReq_of_bottomBit hb] at h
    exact .inl ⟨rfl, (Except.ok.inj h).symm⟩
  | false =>
    simp only [ExecState.slotValue] at hb
    simp only [executeReq, hb, Bool.false_eq_true, if_false] at h
    obtain ⟨mr, -, h⟩ := bind_eq_ok.mp h
    obtain ⟨qp, hqp, h⟩ := bind_eq_ok.mp h
    refine .inr ⟨rfl, ⟨mr, (0, 4096), true, .read, s.prefetcher.accessInfo.rkey,
      (PhysAddr.new (UInt64.ofNat ((s.tables.get req.page).entries req.index))).realAddr,
      s.prefetcher.accessInfo.accessHandler⟩, rfl, ?_⟩
    rw [← DCConn.post_eq_ok (unwrapResult_eq_ok hqp)]
    exact (Except.ok.inj h).symm

/-- A round of `execute_reqs` on a slot of a table that exists, with a fresh aligned page from
the allocator, keeps the invariant. A slot it marks was not in flight and held no page. -/
theorem slotsWF_executeReq (hwf : s.SlotsWF) {req : PageEntry}
    (hp : (s.tables.read req.page).isSome) (hu : PageAligned (alloc.pmemAllocPage s.pages).1)
    (hl : ¬ s.Live (alloc.pmemAllocPage s.pages).1) (h : executeReq alloc nic s req = .ok s') :
    s'.SlotsWF := by
  rcases executeReq_eq_ok h with ⟨-, rfl⟩ | ⟨hb, r, hr, rfl⟩
  · exact hwf
  set x₀ : ℕ × ℕ := (req.page, req.index)
  set u := (alloc.pmemAllocPage s.pages).1
  set s₁ : ExecState A := ⟨{ s.prefetcher with pendingQueues := s.prefetcher.pendingQueues ++
    [⟨req.page, req.index, u⟩] }, s.tables.modify req.page (fun pt => pt.set req.index
      kMagicInPrefetch.toNat), WorkQueue.post s.qp r, (alloc.pmemAllocPage s.pages).2⟩
  have ht : s₁.tables = s.tables.modify req.page fun pt => pt.set req.index kMagicInPrefetch.toNat :=
    rfl
  have hval := ExecState.slotValue_of_write ht hp
  have hlev := ExecState.levelOne_of_write ht
  have hslots : s₁.prefetcher.pendingQueues.map ReplyEntry.slot =
      s.prefetcher.pendingQueues.map ReplyEntry.slot ++ [x₀] := by
    simp [s₁, x₀, ReplyEntry.slot]
  have hx₀ := hwf.not_mem_of_bottomBit hb
  have hold : ∀ x w, heldPage (s₁.slotValue x) = some w → heldPage (s.slotValue x) = some w :=
    fun _ _ hw => ExecState.heldPage_of_write_none ht heldPage_magic hw
  have hlive : ∀ x w, s.LevelOne x → heldPage (s.slotValue x) = some w → w ≠ u := by
    rintro x w hx hw rfl
    exact hl (.inl ⟨x, hx, hw⟩)
  refine ⟨?_, ?_, ?_, ?_, ?_, ?_, ?_, ?_⟩
  · rw [hslots, ← List.concat_eq_append]
    exact hwf.nodup.concat hx₀
  · intro v hv
    rw [hval]
    split
    · rfl
    · simp only [s₁, List.mem_append, List.mem_singleton] at hv
      rcases hv with hv | rfl
      · exact hwf.pending_magic v hv
      · exact absurd rfl ‹_›
  · intro x hx hm
    rw [hslots]
    by_cases hxx : x = x₀
    · exact List.mem_append_right _ (List.mem_singleton.mpr hxx)
    · rw [hval, if_neg hxx] at hm
      exact List.mem_append_left _ (hwf.magic_pending x ((hlev x).mp hx) hm)
  · simp [s₁, WorkQueue.outstanding_post, hr, hwf.outstanding]
  · intro x y w hx hy hwx hwy
    exact hwf.held_unique x y w ((hlev x).mp hx) ((hlev y).mp hy) (hold x w hwx) (hold y w hwy)
  · intro x hx v hv hw
    have hx' := (hlev x).mp hx
    simp only [s₁, List.mem_append, List.mem_singleton] at hv
    rcases hv with hv | rfl
    · exact hwf.held_not_pending x hx' v hv (hold x _ hw)
    · exact hlive x _ hx' (hold x _ hw) rfl
  · have hpages : s₁.prefetcher.pendingQueues.map ReplyEntry.userPage =
        s.prefetcher.pendingQueues.map ReplyEntry.userPage ++ [u] := by
      simp [s₁]
    rw [hpages, ← List.concat_eq_append]
    refine hwf.pages_nodup.concat fun hmem => hl (.inr ?_)
    obtain ⟨v, hv, hvu⟩ := List.mem_map.mp hmem
    exact ⟨v, hv, hvu⟩
  · intro v hv
    simp only [s₁, List.mem_append, List.mem_singleton] at hv
    rcases hv with hv | rfl
    · exact hwf.pending_aligned v hv
    · exact hu

/-- A round of `execute_reqs` leaves the allocator, or takes one page from it, which is all the
prefetcher holds that it did not hold before. -/
theorem live_executeReq {req : PageEntry} (h : executeReq alloc nic s req = .ok s') :
    s'.pages = s.pages ∧ (∀ w, s'.Live w → s.Live w) ∨
      s'.pages = (alloc.pmemAllocPage s.pages).2 ∧
        ∀ w, s'.Live w → s.Live w ∨ w = (alloc.pmemAllocPage s.pages).1 := by
  rcases executeReq_eq_ok h with ⟨-, rfl⟩ | ⟨-, r, -, rfl⟩
  · exact .inl ⟨rfl, fun _ hw => hw⟩
  refine .inr ⟨rfl, ?_⟩
  rintro w (⟨x, hx, hw⟩ | ⟨v, hv, rfl⟩)
  · exact .inl (.inl ⟨x, (ExecState.levelOne_of_write rfl x).mp hx,
      ExecState.heldPage_of_write_none rfl heldPage_magic hw⟩)
  · simp only [List.mem_append, List.mem_singleton] at hv
    rcases hv with hv | rfl
    · exact .inl (.inr ⟨v, hv, rfl⟩)
    · exact .inr rfl

theorem isSome_read_executeReq {req : PageEntry} (h : executeReq alloc nic s req = .ok s')
    {p : ℕ} (hp : (s.tables.read p).isSome) : (s'.tables.read p).isSome := by
  rcases executeReq_eq_ok h with ⟨-, rfl⟩ | ⟨-, r, -, rfl⟩
  · exact hp
  · simp only [Heap.read_modify]
    split
    · rename_i hpq
      subst hpq
      simpa using hp
    · exact hp

/-- The rounds of `execute_reqs` on requests in tables that exist, with at most `k` of them
and the next `k` pages of the allocator fresh, keep the invariant. The induction is on the
requests; a round that takes a page leaves the rest of the run fresh for what it holds then. -/
theorem slotsWF_foldlM_executeReq : ∀ (reqs : List PageEntry) (k : ℕ) {s s' : ExecState A},
    reqs.length ≤ k → alloc.FreshFor s.Live k s.pages →
    (∀ e ∈ reqs, (s.tables.read e.page).isSome) → s.SlotsWF →
    reqs.foldlM (executeReq alloc nic) s = .ok s' → s'.SlotsWF
  | [], _, s, s', _, _, _, hwf, h => by
    rw [List.foldlM_nil] at h
    cases h
    exact hwf
  | e :: rest, k, s, s', hk, hfresh, hp, hwf, h => by
    obtain ⟨k, rfl⟩ : ∃ k', k = k' + 1 := ⟨k - 1, by simp at hk; omega⟩
    rw [List.foldlM_cons] at h
    obtain ⟨s₁, h₁, hrest⟩ := bind_eq_ok.mp h
    obtain ⟨hu, hl⟩ := hfresh.head
    have hwf₁ := slotsWF_executeReq hwf (hp e (List.mem_cons_self ..)) hu hl h₁
    refine slotsWF_foldlM_executeReq rest k (by simp at hk; omega) ?_
      (fun e' he' => isSome_read_executeReq h₁ (hp e' (List.mem_cons_of_mem _ he'))) hwf₁ hrest
    rcases live_executeReq h₁ with ⟨hpg, hlive⟩ | ⟨hpg, hlive⟩
    · rw [hpg]
      exact hfresh.mono (by omega) hlive
    · rw [hpg]
      exact hfresh.tail.mono le_rfl hlive

end DCAsyncPrefetcher

namespace RemotePageTableIter

theorem entries_ne_zero_of_findValidEntry {t : PageTable} {c i : ℕ}
    (h : t.findValidEntry c = some i) : t.entries i ≠ 0 := by
  simpa using List.find?_some h

/-- Every entry the loop of `next` yields names a slot whose value is not zero. The induction
is on the budget of the loop. -/
theorem nextLoop_ne_zero {h : Heap PageTable} : ∀ (fuel : ℕ) (it : RemotePageTableIter)
    {e : PageEntry} {it' : RemotePageTableIter}, nextLoop h fuel it = (some e, it') →
    (h.get e.page).entries e.index ≠ 0
  | 0, _, _, _, hn => by simp [nextLoop] at hn
  | fuel + 1, it, e, it', hn => by
    cases hf : (if it.curIdx + 1 ≥ (entryCount : ℤ) then none
        else (h.get it.curPage).findValidEntry (it.curIdx + 1).toNat) with
    | some i =>
      rw [nextLoop_of_found it hf] at hn
      simp only [Prod.mk.injEq, Option.some.injEq] at hn
      obtain ⟨rfl, -⟩ := hn
      split at hf
      · cases hf
      · exact entries_ne_zero_of_findValidEntry hf
    | none =>
      rw [nextLoop_of_not_found it hf] at hn
      split at hn
      · cases hn
      · exact nextLoop_ne_zero fuel _ hn

end RemotePageTableIter

theorem isSome_read_of_mem_strategy {N : ℕ} {strategy : Strategy N}
    (hs : strategy = stepPrefetcher N ∨ strategy = constPrefetcher N) (h : Heap PageTable)
    (iter : RemotePageTableIter) :
    ∀ e ∈ (strategy (RemotePageTableIter.next h) iter).inner, (h.read e.page).isSome := by
  let P : PageEntry → Prop := fun e => (h.read e.page).isSome
  have hP : ∀ src v src', RemotePageTableIter.next h src = (some v, src') → P v :=
    fun src v _ hn => isSome_read_of_entries_ne_zero (RemotePageTableIter.nextLoop_ne_zero _ src hn)
  rcases hs with rfl | rfl
  · exact StepPrefetcher.forall_mem_loop hP _ _ _ _ (by simp)
  · exact ConstPrefetcher.forall_mem_loop hP _ _ _ (by simp)

namespace DCAsyncPrefetcher

variable {A : Type} {alloc : PageAllocator A} {nic : Nic} {s s' : ExecState A}

theorem slotsWF_executeReqs (hwf : s.SlotsWF) {N : ℕ} {strategy : Strategy N}
    (hs : strategy = stepPrefetcher N ∨ strategy = constPrefetcher N) (iter : RemotePageTableIter)
    (hfresh : alloc.FreshFor s.Live N s.pages)
    (h : executeReqs alloc nic strategy iter s = .ok s') : s'.SlotsWF :=
  slotsWF_foldlM_executeReq _ N (strategy _ iter).length_le hfresh
    (isSome_read_of_mem_strategy hs s.tables iter) hwf h

end DCAsyncPrefetcher

/-! ## Polls and drains -/

namespace DCAsyncPrefetcher

variable {A : Type} {s s' : ExecState A}

/-- What a poll can do: find no completion and change nothing, or take the oldest completion
and fill the slot of the oldest entry with its page. -/
theorem poll_eq_ok {r : Except DatapathError (Future.Async ℕ)} (h : poll s = .ok (r, s')) :
    s.qp.cq = [] ∧ s' = s ∨
    ∃ e rest v vs, s.qp.cq = e :: rest ∧ s.prefetcher.pendingQueues = v :: vs ∧
      s' = { s with
        qp := { s.qp with cq := rest },
        prefetcher := { s.prefetcher with pendingQueues := vs },
        tables := s.tables.modify v.pt fun pt =>
          pt.set v.idx (PhysAddr.encode (UInt64.ofNat v.userPage) PhysAddrBitFlag.prefetch.toU64).toNat } := by
  cases hcq : s.qp.cq with
  | nil =>
    rw [poll_of_cq_nil hcq] at h
    exact .inl ⟨rfl, (Prod.mk.inj (Except.ok.inj h)).2.symm⟩
  | cons e rest =>
    cases hp : s.prefetcher.pendingQueues with
    | nil => simp [poll, DCConn.poll_of_cq_cons hcq, hp] at h
    | cons v vs =>
      cases hbit : (PhysAddr.new (UInt64.ofNat v.userPage)).bottomBit with
      | true =>
        simp [poll, DCConn.poll_of_cq_cons hcq, hp, hbit] at h
        cases h
      | false =>
        rw [poll_of_cq_cons hcq hp hbit] at h
        exact .inr ⟨e, rest, v, vs, rfl, rfl, (Prod.mk.inj (Except.ok.inj h)).2.symm⟩

/-- A poll keeps the invariant. A completion belongs to the oldest entry, whose slot alone is in
flight for it and whose page no one else holds: the slot now holds that page. -/
theorem slotsWF_poll (hwf : s.SlotsWF) {r : Except DatapathError (Future.Async ℕ)}
    (h : poll s = .ok (r, s')) : s'.SlotsWF := by
  rcases poll_eq_ok h with ⟨-, rfl⟩ | ⟨e, rest, v, vs, hcq, hp, rfl⟩
  · exact hwf
  have hv : v ∈ s.prefetcher.pendingQueues := hp ▸ List.mem_cons_self ..
  have hu := hwf.pending_aligned v hv
  set s₁ : ExecState A := { s with
    qp := { s.qp with cq := rest },
    prefetcher := { s.prefetcher with pendingQueues := vs },
    tables := s.tables.modify v.pt fun pt =>
      pt.set v.idx (PhysAddr.encode (UInt64.ofNat v.userPage) PhysAddrBitFlag.prefetch.toU64).toNat }
  have ht : s₁.tables = s.tables.modify v.pt fun pt =>
      pt.set v.idx (PhysAddr.encode (UInt64.ofNat v.userPage) PhysAddrBitFlag.prefetch.toU64).toNat :=
    rfl
  have hval : ∀ x, s₁.slotValue x = if x = v.slot then
      (PhysAddr.encode (UInt64.ofNat v.userPage) PhysAddrBitFlag.prefetch.toU64).toNat
      else s.slotValue x :=
    ExecState.slotValue_of_write ht (hwf.isSome_read hv)
  have hlev := ExecState.levelOne_of_write ht
  have hnd := hwf.nodup
  have hpg := hwf.pages_nodup
  rw [hp, List.map_cons, List.nodup_cons] at hnd hpg
  -- the slot of `v` now holds `v`'s page; every other slot keeps its value
  have hheld : ∀ x w, heldPage (s₁.slotValue x) = some w →
      x = v.slot ∧ w = v.userPage ∨ x ≠ v.slot ∧ heldPage (s.slotValue x) = some w := by
    intro x w hw
    rw [hval] at hw
    split at hw
    · rename_i hx
      rw [heldPage_encode_prefetch hu, Option.some.injEq] at hw
      exact .inl ⟨hx, hw.symm⟩
    · exact .inr ⟨‹_›, hw⟩
  refine ⟨hnd.2, fun w hw => ?_, fun x hx hm => ?_, ?_, fun x y w hx hy hwx hwy => ?_,
    fun x hx w hw hwx => ?_, hpg.2, fun w hw => hwf.pending_aligned w (hp ▸ List.mem_cons_of_mem _ hw)⟩
  · -- the other entries name other slots, still in flight
    have hne : w.slot ≠ v.slot := fun he => hnd.1 (he ▸ List.mem_map_of_mem hw)
    rw [hval, if_neg hne]
    exact hwf.pending_magic w (hp ▸ List.mem_cons_of_mem _ hw)
  · have hne : x ≠ v.slot := by
      rintro rfl
      rw [hval, if_pos rfl] at hm
      exact encode_prefetch_ne_magic hu hm
    rw [hval, if_neg hne] at hm
    have hmem := hwf.magic_pending x ((hlev x).mp hx) hm
    rw [hp, List.map_cons, List.mem_cons] at hmem
    exact hmem.resolve_left hne
  · have hout := hwf.outstanding
    simp only [WorkQueue.outstanding, hcq, hp, List.map_cons, List.cons_append, List.length_cons]
      at hout
    simpa [s₁, WorkQueue.outstanding] using hout
  · have hv' := hwf.held_not_pending
    rcases hheld x w hwx with ⟨hxv, hxw⟩ | ⟨-, hx'⟩ <;>
      rcases hheld y w hwy with ⟨hyv, hyw⟩ | ⟨-, hy'⟩
    · exact hxv.trans hyv.symm
    · exact absurd (hxw ▸ hy') (hv' y ((hlev y).mp hy) v hv)
    · exact absurd (hyw ▸ hx') (hv' x ((hlev x).mp hx) v hv)
    · exact hwf.held_unique x y w ((hlev x).mp hx) ((hlev y).mp hy) hx' hy'
  · rcases hheld x _ hwx with ⟨-, he⟩ | ⟨-, hx'⟩
    · exact hpg.1 (he ▸ List.mem_map_of_mem hw)
    · exact hwf.held_not_pending x ((hlev x).mp hx) w (hp ▸ List.mem_cons_of_mem _ hw) hx'

/-- A poll never panics: a completion always finds its entry, whose page is aligned. -/
theorem poll_ok_of_slotsWF (hwf : s.SlotsWF) : ∃ r s', poll s = .ok (.ok r, s') := by
  cases hcq : s.qp.cq with
  | nil => exact ⟨_, _, poll_of_cq_nil hcq⟩
  | cons e rest =>
    cases hp : s.prefetcher.pendingQueues with
    | nil =>
      have hout := hwf.outstanding
      simp [WorkQueue.outstanding, hcq, hp] at hout
    | cons v vs =>
      have hu := hwf.pending_aligned v (hp ▸ List.mem_cons_self ..)
      exact ⟨_, _, poll_of_cq_cons hcq hp (bottomBit_of_aligned hu)⟩

/-- `drain_connections` keeps the invariant, and a drain that gives the connection back leaves
nothing pending. The induction is on the schedule. -/
theorem slotsWF_drainConnections (ts : List LinkEvent) {s : ExecState A}
    {r : Except DatapathError DCConn} {s' : ExecState A} {ts' : List LinkEvent}
    (hwf : s.SlotsWF) (h : drainConnections ts s = .ok (some (r, s', ts'))) :
    s'.SlotsWF ∧ ∀ conn, r = .ok conn → s'.prefetcher.pendingQueues = [] := by
  induction ts generalizing s with
  | nil =>
    unfold drainConnections at h
    split at h
    · rename_i hnil
      cases h
      exact ⟨hwf, fun _ _ => hnil⟩
    · cases h
  | cons t ts ih =>
    unfold drainConnections at h
    split at h
    · rename_i hnil
      cases h
      exact ⟨hwf, fun _ _ => hnil⟩
    · obtain ⟨⟨r₁, s₁⟩, hp, h⟩ := bind_eq_ok.mp h
      have hwf₁ := slotsWF_poll (ExecState.slotsWF_tick hwf t) hp
      rcases r₁ with e | _
      · cases h
        exact ⟨hwf₁, fun _ he => by cases he⟩
      · exact ih hwf₁ h

theorem drainConnections_of_pendingQueues_nil {s : ExecState A}
    (hp : s.prefetcher.pendingQueues = []) (ts : List LinkEvent) :
    drainConnections ts s = .ok (some (.ok s.prefetcher.conn, s, ts)) := by
  unfold drainConnections
  rw [if_pos hp]
  rfl

/-- A round of the drain while a request is pending, the NIC executing one request of the
connection: counting each posted request twice and each waiting completion once, the work left
goes down, by the execute when a request is posted, and otherwise by the poll, which then finds
the completion owed to the oldest pending entry. -/
theorem work_poll_tick_lt {s s' : ExecState A} (hwf : s.SlotsWF)
    (hp : s.prefetcher.pendingQueues ≠ []) (status : ℕ)
    {r : Except DatapathError (Future.Async ℕ)} (h : poll (s.tick (.execute status)) = .ok (r, s')) :
    2 * s'.qp.sq.length + s'.qp.cq.length < 2 * s.qp.sq.length + s.qp.cq.length := by
  -- the poll keeps the posted requests and takes one completion, if there is one
  have hpoll : s'.qp.sq = (s.tick (.execute status)).qp.sq ∧
      s'.qp.cq.length ≤ (s.tick (.execute status)).qp.cq.length ∧
      ((s.tick (.execute status)).qp.cq ≠ [] →
        s'.qp.cq.length < (s.tick (.execute status)).qp.cq.length) := by
    rcases poll_eq_ok h with ⟨hcq, rfl⟩ | ⟨e, rest, v, vs, hcq, -, rfl⟩
    · exact ⟨rfl, le_rfl, fun hne => absurd hcq hne⟩
    · simp [hcq]
  obtain ⟨hsq', hle, hlt⟩ := hpoll
  cases hsq : s.qp.sq with
  | cons q rest =>
    have hsq₁ : (s.tick (.execute status)).qp.sq = rest := by
      simp [ExecState.tick, WorkQueue.execute, hsq]
    have hcq₁ : (s.tick (.execute status)).qp.cq.length ≤ s.qp.cq.length + 1 := by
      simp only [ExecState.tick, WorkQueue.execute, hsq]
      split <;> simp
    rw [hsq', hsq₁]
    simp only [List.length_cons]
    omega
  | nil =>
    have ht : (s.tick (.execute status)).qp = s.qp := by
      simp [ExecState.tick, WorkQueue.execute, hsq]
    -- nothing posted: the completion owed to the oldest pending entry is waiting
    have hcq : s.qp.cq ≠ [] := fun hnil => hp (hwf.pendingQueues_eq_nil hsq hnil)
    rw [ht] at hsq' hlt
    rw [hsq', hsq]
    have := hlt hcq
    simp only [List.length_nil]
    omega

/-- `drain_connections` ends: in a state of the invariant, when the NIC executes one request of
the connection in each round, each with a status of its own, the drain gives the connection
back, with nothing pending, within twice as many rounds as requests are posted and one more per
completion waiting. No round fails or panics on the way. -/
theorem drainConnections_returns_conn {s : ExecState A} (hwf : s.SlotsWF) {statuses : List ℕ}
    (hn : 2 * s.qp.sq.length + s.qp.cq.length ≤ statuses.length) (ts : List LinkEvent) :
    ∃ s' ts', drainConnections (statuses.map LinkEvent.execute ++ ts) s =
        .ok (some (.ok s.prefetcher.conn, s', ts')) ∧ s'.prefetcher.pendingQueues = [] := by
  induction statuses generalizing s with
  | nil =>
    -- no work left: the connection owes nothing, so nothing is pending
    rw [List.length_nil] at hn
    have hsq : s.qp.sq = [] := List.eq_nil_of_length_eq_zero (by omega)
    have hcq : s.qp.cq = [] := List.eq_nil_of_length_eq_zero (by omega)
    have hp := hwf.pendingQueues_eq_nil hsq hcq
    exact ⟨s, ts, drainConnections_of_pendingQueues_nil hp ts, hp⟩
  | cons status statuses ih =>
    by_cases hp : s.prefetcher.pendingQueues = []
    · exact ⟨s, _, drainConnections_of_pendingQueues_nil hp _, hp⟩
    have hwf₁ := ExecState.slotsWF_tick hwf (.execute status)
    obtain ⟨r, s₁, hpoll⟩ := poll_ok_of_slotsWF hwf₁
    have hlt := work_poll_tick_lt hwf hp status hpoll
    have hconn : s₁.prefetcher.conn = s.prefetcher.conn := by
      rcases poll_eq_ok hpoll with ⟨-, rfl⟩ | ⟨-, -, -, -, -, -, rfl⟩ <;> rfl
    rw [List.length_cons] at hn
    obtain ⟨s', ts', hd, hp'⟩ := ih (slotsWF_poll hwf₁ hpoll) (by omega)
    refine ⟨s', ts', ?_, hp'⟩
    unfold drainConnections
    rw [if_neg hp, List.map_cons, List.cons_append]
    simp only [hpoll, ok_bind]
    rw [← hconn]
    exact hd

/-- A prefetch posted for the one slot of a level-one table, and a drain while the NIC
completes it with `IB_WC_REM_ACCESS_ERR`: the drain gives the connection back. -/
theorem drainConnections_returns_conn_after_prefetch :
    let s₀ : ExecState ℕ := ⟨DCAsyncPrefetcher.newFromRaw ⟨0⟩ ⟨0, 0, 0⟩,
      (Heap.empty.alloc ((PageTable.new .one 0 0).set 0 0x6000)).2, WorkQueue.empty, 0x8000⟩
    ∃ s₁, executeReq ⟨fun n => (n, n + 1), id⟩ ⟨fun _ _ => true, fun _ _ => true⟩ s₀
        ⟨1, 0, PhysAddr.new 0x6000⟩ = .ok s₁ ∧ s₁.prefetcher.pendingQueues ≠ [] ∧ s₁.SlotsWF ∧
      ∃ s' ts', drainConnections ([10, 0].map LinkEvent.execute ++ []) s₁ =
          .ok (some (.ok s₁.prefetcher.conn, s', ts')) ∧ s'.prefetcher.pendingQueues = [] := by
  intro s₀
  -- the one level-one table is at address 1; every other address reads a level-four default
  have hflag : ∀ x, s₀.LevelOne x →
      (PhysAddr.new (UInt64.ofNat (s₀.slotValue x))).isPrefetch = false := by
    rintro ⟨p, i⟩ hx
    by_cases hp : p = 1
    · subst hp
      by_cases hi : i = 0
      · subst hi
        simp [s₀, ExecState.slotValue, PageTable.entries_set]
        rfl
      · simp [s₀, ExecState.slotValue, PageTable.entries_set, hi]
        rfl
    · simp [s₀, ExecState.LevelOne, hp] at hx
      cases hx
  have hwf₀ : s₀.SlotsWF := ExecState.slotsWF_init rfl rfl hflag
  have hlive : ¬ s₀.Live 0x8000 := by
    rintro (⟨x, hx, hh⟩ | ⟨v, hv, -⟩)
    · rw [heldPage_of_isPrefetch_eq_false (hflag x hx)] at hh
      cases hh
    · cases hv
  obtain ⟨s₁, hex, hpend⟩ : ∃ s₁, executeReq ⟨fun n => (n, n + 1), id⟩
      ⟨fun _ _ => true, fun _ _ => true⟩ s₀ ⟨1, 0, PhysAddr.new 0x6000⟩ = .ok s₁ ∧
      s₁.prefetcher.pendingQueues ≠ [] ∧ 2 * s₁.qp.sq.length + s₁.qp.cq.length ≤ 2 :=
    ⟨_, by dsimp only [s₀]; rfl, by decide, by decide⟩
  have hwf₁ : s₁.SlotsWF := DCAsyncPrefetcher.slotsWF_executeReq hwf₀ rfl (by decide) hlive hex
  have hn : 2 * s₁.qp.sq.length + s₁.qp.cq.length ≤ [10, 0].length := hpend.2
  exact ⟨s₁, hex, hpend.1, hwf₁, drainConnections_returns_conn hwf₁ hn []⟩

end DCAsyncPrefetcher

/-! ## The fault path -/

namespace ChildDescriptor

variable {A : Type}

/-- The loop of `poll_prefetcher` keeps the invariant. The induction is on the rounds. -/
theorem slotsWF_pollPrefetcherLoop : ∀ (n : ℕ) {s s' : ExecState A}, s.SlotsWF →
    pollPrefetcherLoop n s = .ok s' → s'.SlotsWF
  | 0, _, _, hwf, h => by
    cases h
    exact hwf
  | n + 1, _, _, hwf, h => by
    unfold pollPrefetcherLoop at h
    obtain ⟨⟨r, s₁⟩, hp, h⟩ := bind_eq_ok.mp h
    have hwf₁ := DCAsyncPrefetcher.slotsWF_poll hwf hp
    rcases r with _ | (_ | _)
    · cases h
    · exact slotsWF_pollPrefetcherLoop n hwf₁ h
    · cases h
      exact hwf₁

theorem slotsWF_pollPrefetcher {s s' : ExecState A} (hwf : s.SlotsWF)
    (h : pollPrefetcher s = .ok s') : s'.SlotsWF :=
  slotsWF_pollPrefetcherLoop _ hwf h

theorem slotsWF_tick_fault {s : FaultState A} (hwf : s.exec.SlotsWF) (t : FaultEvent) :
    (s.tick t).exec.SlotsWF := by
  cases t with
  | prefetch e => exact ExecState.slotsWF_tick hwf e
  | sync _ => exact hwf

/-- The wait loop of `read_remote_page` keeps the invariant, and ends on a slot that is no
longer in flight, whose value it gives. The induction is on the schedule. -/
theorem slotsWF_waitPrefetched {pt idx : ℕ} (ts : List FaultEvent) {s : FaultState A} {v : ℕ}
    {s' : FaultState A} {ts' : List FaultEvent} (hwf : s.exec.SlotsWF)
    (h : waitPrefetched pt idx ts s = .ok (some (v, s', ts'))) :
    s'.exec.SlotsWF ∧ v = s'.exec.slotValue (pt, idx) ∧ v ≠ kMagicInPrefetch.toNat := by
  induction ts generalizing s with
  | nil =>
    unfold waitPrefetched at h
    split at h
    · rename_i hne
      cases h
      exact ⟨hwf, rfl, hne⟩
    · cases h
  | cons t ts ih =>
    unfold waitPrefetched at h
    split at h
    · rename_i hne
      cases h
      exact ⟨hwf, rfl, hne⟩
    · -- still in flight: the NIC moves, the prefetcher is polled, and the slot is read again
      dsimp only at h
      obtain ⟨exec, hp, h⟩ := bind_eq_ok.mp h
      exact ih (slotsWF_pollPrefetcher (slotsWF_tick_fault hwf t) hp) h

theorem exec_of_pollDcQp {s s' : FaultState A} {r : Except DatapathError (Future.Async IbWc)}
    (h : pollDcQp s = .ok (r, s')) : s'.exec = s.exec := by
  unfold pollDcQp at h
  obtain ⟨⟨r₁, l⟩, -, h⟩ := bind_eq_ok.mp h
  cases h
  rfl

theorem slotsWF_blockOn_dcQp {expired : FaultState A → Bool} {sched sched' : List FaultEvent}
    {s s' : FaultState A} {r : Except (Future.TimeoutError DatapathError) IbWc}
    (hwf : s.exec.SlotsWF)
    (h : Future.blockOn (Future.timeoutPoll pollDcQp expired) FaultState.tick sched s =
      .ok (some (r, s', sched'))) : s'.exec.SlotsWF :=
  Future.blockOn_inv (fun s => s.exec.SlotsWF) (fun t _ hs => slotsWF_tick_fault hs t)
    (fun _ _ _ hs hp => by
      obtain ⟨r₀, hp₀, -⟩ := Future.timeoutPoll_eq_ok hp
      rw [exec_of_pollDcQp hp₀]
      exact hs) sched s hwf h

variable [Paging] {alloc : PageAllocator A} {nic : Nic}

omit [Paging] in
/-- `read_remote_page` of the prefetch build keeps the invariant, when the next two pages of
the allocator, for the fault's own READ and the prefetch after it, are fresh. On a slot with
the flag it waits until the slot is no longer in flight and clears it; on any other it makes
its own READ, prefetches the slots after it and polls the prefetcher. -/
theorem slotsWF_readRemotePageAt {pt idx : ℕ} {accessInfo : AccessInfo}
    {sched sched' : List FaultEvent} {s s' : FaultState A} {r : Option ℕ} (hwf : s.exec.SlotsWF)
    (hfresh : alloc.FreshFor s.exec.Live (prefetchStep + 1) s.exec.pages)
    (h : readRemotePageAt alloc nic pt idx accessInfo sched s = .ok (some (r, s', sched'))) :
    s'.exec.SlotsWF := by
  unfold readRemotePageAt at h
  dsimp only at h
  split at h
  · obtain ⟨w, hw, h⟩ := bind_eq_ok.mp h
    rcases w with _ | ⟨v, s₁, sched₁⟩
    · cases h
    · obtain ⟨hwf₁, rfl, hne⟩ := slotsWF_waitPrefetched sched hwf hw
      cases h
      exact ExecState.slotsWF_clear hwf₁ hne rfl rfl rfl
  · rcases hpa : alloc.pmemAllocPage s.exec.pages with ⟨newPage, pages⟩
    simp only [hpa] at h
    obtain ⟨mr, -, h⟩ := bind_eq_ok.mp h
    obtain ⟨qp, -, h⟩ := bind_eq_ok.mp h
    obtain ⟨exec₁, hexec₁, h⟩ := bind_eq_ok.mp h
    obtain ⟨exec₂, hexec₂, h⟩ := bind_eq_ok.mp h
    obtain ⟨w, hw, h⟩ := bind_eq_ok.mp h
    -- the fault's own page is the first of the two; the prefetch may take the second
    have hfresh₁ : alloc.FreshFor s.exec.Live prefetchStep pages := by
      have ht := hfresh.tail
      rw [hpa] at ht
      exact ht.mono le_rfl fun _ hu => .inl hu
    have hwf₁ := DCAsyncPrefetcher.slotsWF_executeReqs (s := { s.exec with pages })
      (hwf.congr rfl rfl rfl) (.inl rfl) _ hfresh₁ hexec₁
    have hwf₂ := slotsWF_pollPrefetcher hwf₁ hexec₂
    rcases w with _ | ⟨res, s₃, sched₃⟩
    · cases h
    · have hwf₃ := slotsWF_blockOn_dcQp (s := ⟨exec₂, _⟩) hwf₂ hw
      rcases res with _ | _
      · cases h
        exact hwf₃
      · cases h
        exact hwf₃

/-- `read_remote_page` of the prefetch build, from the address. -/
theorem slotsWF_readRemotePage {pageTable : RemotePageTable} {remoteVa : VirtAddrType}
    {accessInfo : AccessInfo} {sched sched' : List FaultEvent} {s s' : FaultState A}
    {r : Option ℕ} (hwf : s.exec.SlotsWF)
    (hfresh : alloc.FreshFor s.exec.Live (prefetchStep + 1) s.exec.pages)
    (h : readRemotePage alloc nic pageTable remoteVa accessInfo sched s =
      .ok (some (r, s', sched'))) : s'.exec.SlotsWF := by
  unfold readRemotePage at h
  obtain ⟨addr, -, h⟩ := bind_eq_ok.mp h
  split at h
  · cases h
    exact hwf
  · exact slotsWF_readRemotePageAt hwf hfresh h

end ChildDescriptor

/-! ## Every interleaving -/

namespace FaultState

variable {A : Type}

/-- The states the kernel reaches with a resumed child's prefetcher, one operation at a time
in any order, from a fresh prefetcher on an idle connection over a table of remote addresses.
An operation that allocates pages gets them from the allocator, which hands out aligned pages
that the prefetcher does not hold: as many as the strategy's `N` for `execute_reqs`, two for
`read_remote_page`. -/
inductive Reachable [Paging] (alloc : PageAllocator A) (nic : Nic) : FaultState A → Prop
  | init {s : FaultState A} : s.exec.prefetcher.pendingQueues = [] →
      WorkQueue.outstanding DCReqPayload.signaled s.exec.qp = [] →
      (∀ x, s.exec.LevelOne x →
        (PhysAddr.new (UInt64.ofNat (s.exec.slotValue x))).isPrefetch = false) →
      Reachable alloc nic s
  | executeReqs {s : FaultState A} {N : ℕ} {strategy : Strategy N} {e : ExecState A}
      (iter : RemotePageTableIter) : Reachable alloc nic s →
      strategy = stepPrefetcher N ∨ strategy = constPrefetcher N →
      alloc.FreshFor s.exec.Live N s.exec.pages →
      DCAsyncPrefetcher.executeReqs alloc nic strategy iter s.exec = .ok e →
      Reachable alloc nic { s with exec := e }
  | poll {s : FaultState A} {r : Except DatapathError (Future.Async ℕ)} {e : ExecState A} :
      Reachable alloc nic s → DCAsyncPrefetcher.poll s.exec = .ok (r, e) →
      Reachable alloc nic { s with exec := e }
  | readRemotePage {s s' : FaultState A} (pageTable : RemotePageTable) (remoteVa : VirtAddrType)
      (accessInfo : AccessInfo) {sched sched' : List FaultEvent} {r : Option ℕ} :
      Reachable alloc nic s → alloc.FreshFor s.exec.Live (prefetchStep + 1) s.exec.pages →
      ChildDescriptor.readRemotePage alloc nic pageTable remoteVa accessInfo sched s =
        .ok (some (r, s', sched')) →
      Reachable alloc nic s'
  | drainConnections {s : FaultState A} {ts ts' : List LinkEvent}
      {r : Except DatapathError DCConn} {e : ExecState A} : Reachable alloc nic s →
      DCAsyncPrefetcher.drainConnections ts s.exec = .ok (some (r, e, ts')) →
      Reachable alloc nic { s with exec := e }
  | tick {s : FaultState A} (t : FaultEvent) : Reachable alloc nic s → Reachable alloc nic (s.tick t)

variable [Paging] {alloc : PageAllocator A} {nic : Nic}

theorem Reachable.slotsWF {s : FaultState A} (hs : Reachable alloc nic s) : s.exec.SlotsWF := by
  induction hs with
  | init hp hq hflag => exact ExecState.slotsWF_init hp hq hflag
  | executeReqs iter _ hstrat hfresh he ih =>
    exact DCAsyncPrefetcher.slotsWF_executeReqs ih hstrat iter hfresh he
  | poll _ hp ih => exact DCAsyncPrefetcher.slotsWF_poll ih hp
  | readRemotePage _ _ _ _ hfresh hr ih => exact ChildDescriptor.slotsWF_readRemotePage ih hfresh hr
  | drainConnections _ hd ih => exact (DCAsyncPrefetcher.slotsWF_drainConnections _ ih hd).1
  | tick t _ ih => exact ChildDescriptor.slotsWF_tick_fault ih t

/-- In every state the kernel reaches with a prefetcher: the pending entries name distinct
slots; a level-one slot is in flight exactly when an entry names it; the connection owes one
completion per entry; a page in a level-one slot is in no other level-one slot and in no
entry. So a poll never panics, and a drain that gives the connection back leaves it owing
nothing and no level-one slot in flight. -/
theorem prefetch_slots_consistent {s : FaultState A} (hs : Reachable alloc nic s) :
    (s.exec.prefetcher.pendingQueues.map ReplyEntry.slot).Nodup ∧
    (∀ x, s.exec.LevelOne x → (s.exec.slotValue x = kMagicInPrefetch.toNat ↔
      x ∈ s.exec.prefetcher.pendingQueues.map ReplyEntry.slot)) ∧
    (WorkQueue.outstanding DCReqPayload.signaled s.exec.qp).length =
      s.exec.prefetcher.pendingQueues.length ∧
    (∀ x u, s.exec.LevelOne x → heldPage (s.exec.slotValue x) = some u →
      (∀ y, s.exec.LevelOne y → heldPage (s.exec.slotValue y) = some u → y = x) ∧
        ∀ v ∈ s.exec.prefetcher.pendingQueues, v.userPage ≠ u) ∧
    (∃ r e, DCAsyncPrefetcher.poll s.exec = .ok (.ok r, e)) ∧
    ∀ ts conn e ts', DCAsyncPrefetcher.drainConnections ts s.exec = .ok (some (.ok conn, e, ts')) →
      WorkQueue.outstanding DCReqPayload.signaled e.qp = [] ∧
        ∀ x, e.LevelOne x → e.slotValue x ≠ kMagicInPrefetch.toNat := by
  have hwf := hs.slotsWF
  refine ⟨hwf.nodup, fun x hx => ⟨hwf.magic_pending x hx, fun hmem => ?_⟩,
    hwf.outstanding, fun x u hx hu => ⟨fun y hy hu' => hwf.held_unique y x u hy hx hu' hu,
      fun v hv he => hwf.held_not_pending x hx v hv (he ▸ hu)⟩,
    DCAsyncPrefetcher.poll_ok_of_slotsWF hwf, fun ts conn e ts' hd => ?_⟩
  · obtain ⟨v, hv, rfl⟩ := List.mem_map.mp hmem
    exact hwf.pending_magic v hv
  · -- a drain that ends with the connection leaves nothing pending
    obtain ⟨hwf', hnil⟩ := DCAsyncPrefetcher.slotsWF_drainConnections ts hwf hd
    have hp := hnil conn rfl
    refine ⟨List.eq_nil_of_length_eq_zero (by rw [hwf'.outstanding, hp]; rfl), fun x hx hm => ?_⟩
    have hmem := hwf'.magic_pending x hx hm
    rw [hp] at hmem
    cases hmem

end FaultState

set_option maxRecDepth 20000 in
/-- A fresh prefetcher over one level-one table whose slots `1` to `3` hold remote addresses:
`execute_reqs` with `ConstPrefetcher` puts the three in flight with the pages `0x8000`,
`0x8008` and `0x8010`, the NIC completes the first READ and a poll fills its slot. In the state
reached, two distinct slots are in flight and the filled page is held by its slot alone. -/
theorem prefetch_slots_consistent_two_pending :
    let alloc : PageAllocator ℕ := ⟨fun n => (n, n + 8), id⟩
    let nic : Nic := ⟨fun _ _ => true, fun _ _ => true⟩
    let h : Heap PageTable := (Heap.empty.alloc (⟨fun i => if i = 1 then 0x5000 else
      if i = 2 then 0x6000 else if i = 3 then 0x7000 else 0, .one, 0, 0⟩ : PageTable)).2
    let e₀ : ExecState ℕ := ⟨DCAsyncPrefetcher.newFromRaw ⟨0⟩ ⟨0, 0, 0⟩, h, WorkQueue.empty, 0x8000⟩
    ∃ e₁ e₃, DCAsyncPrefetcher.executeReqs alloc nic (constPrefetcher 3)
        (RemotePageTableIter.newFromL1 1 0) e₀ = .ok e₁ ∧
      DCAsyncPrefetcher.poll (e₁.tick (.execute 0)) = .ok (.ok (.ready 0x8000), e₃) ∧
      FaultState.Reachable alloc nic ⟨e₃, ⟨WorkQueue.empty, 0⟩⟩ ∧
      e₃.prefetcher.pendingQueues.map ReplyEntry.slot = [(1, 2), (1, 3)] ∧
      heldPage (e₃.slotValue (1, 1)) = some 0x8000 ∧
      (e₃.prefetcher.pendingQueues.map ReplyEntry.slot).Nodup ∧
      (∀ y, e₃.LevelOne y → heldPage (e₃.slotValue y) = some 0x8000 → y = (1, 1)) ∧
      (∀ v ∈ e₃.prefetcher.pendingQueues, v.userPage ≠ 0x8000) ∧
      ∃ r e', DCAsyncPrefetcher.poll e₃ = .ok (.ok r, e') := by
  intro alloc nic h e₀
  have hval : ∀ x, e₀.slotValue x = 0x5000 ∨ e₀.slotValue x = 0x6000 ∨ e₀.slotValue x = 0x7000 ∨
      e₀.slotValue x = 0 := by
    rintro ⟨p, i⟩
    simp only [e₀, h, ExecState.slotValue, Heap.get, Heap.read, Heap.alloc, Heap.empty]
    by_cases hp : p = 1
    · simp only [hp, if_true, Option.getD_some]
      split_ifs <;> simp
    · simp [hp]
  have hflag : ∀ x, e₀.LevelOne x →
      (PhysAddr.new (UInt64.ofNat (e₀.slotValue x))).isPrefetch = false := by
    intro x _
    rcases hval x with hx | hx | hx | hx <;> rw [hx] <;> rfl
  have hfresh : alloc.FreshFor e₀.Live 3 e₀.pages := by
    refine ⟨by decide, fun u hu => ?_⟩
    have hal : PageAligned u := by
      simp only [PageAllocator.allocPages_succ, PageAllocator.allocPages_zero, List.mem_cons,
        List.not_mem_nil, or_false] at hu
      rcases hu with rfl | rfl | rfl <;> decide
    refine ⟨hal, ?_⟩
    rintro (⟨x, -, hx⟩ | ⟨v, hv, -⟩)
    · rcases hval x with h | h | h | h <;> rw [h] at hx <;> cases hx
    · cases hv
  -- the strategy takes the three slots; each is put in flight with the next fresh page
  let m : ℕ := kMagicInPrefetch.toNat
  let req : ℕ → UInt64 → DCReqPayload := fun u ra => ⟨u, (0, 4096), true, .read, 0, ra, 0⟩
  let e₁ : ExecState ℕ := ⟨{ e₀.prefetcher with
      pendingQueues := [⟨1, 1, 0x8000⟩, ⟨1, 2, 0x8008⟩, ⟨1, 3, 0x8010⟩] },
    ((h.modify 1 fun t => t.set 1 m).modify 1 fun t => t.set 2 m).modify 1 fun t => t.set 3 m,
    WorkQueue.post (WorkQueue.post (WorkQueue.post WorkQueue.empty (req 0x8000 0x5000))
      (req 0x8008 0x6000)) (req 0x8010 0x7000), 0x8018⟩
  have hreqs : (constPrefetcher 3 (RemotePageTableIter.next e₀.tables)
      (RemotePageTableIter.newFromL1 1 0)).inner = [⟨1, 1, PhysAddr.new (UInt64.ofNat 0x5000)⟩,
        ⟨1, 2, PhysAddr.new (UInt64.ofNat 0x6000)⟩, ⟨1, 3, PhysAddr.new (UInt64.ofNat 0x7000)⟩] := by
    dsimp only [e₀, h]
    rfl
  have hexec : DCAsyncPrefetcher.executeReqs alloc nic (constPrefetcher 3)
      (RemotePageTableIter.newFromL1 1 0) e₀ = .ok e₁ := by
    rw [DCAsyncPrefetcher.executeReqs, hreqs]
    dsimp only [e₀, e₁, h, m, req, alloc, nic]
    rfl
  -- the NIC completes the oldest READ, and the poll fills its slot with the page
  have hcq : (e₁.tick (.execute 0)).qp.cq = [(req 0x8000 0x5000, ⟨0⟩)] := rfl
  have hpend : (e₁.tick (.execute 0)).prefetcher.pendingQueues =
      ⟨1, 1, 0x8000⟩ :: [⟨1, 2, 0x8008⟩, ⟨1, 3, 0x8010⟩] := rfl
  have hpoll := DCAsyncPrefetcher.poll_of_cq_cons hcq hpend (by decide)
  have hr₁ : FaultState.Reachable alloc nic ⟨e₁, ⟨WorkQueue.empty, 0⟩⟩ :=
    FaultState.Reachable.executeReqs (s := ⟨e₀, ⟨WorkQueue.empty, 0⟩⟩) _
      (FaultState.Reachable.init rfl rfl hflag) (.inr rfl) hfresh hexec
  have hr₃ := FaultState.Reachable.poll (FaultState.Reachable.tick (.prefetch (.execute 0)) hr₁) hpoll
  have hheld : heldPage (((e₁.tables.modify 1 fun pt => pt.set 1
      (PhysAddr.encode (UInt64.ofNat 0x8000) PhysAddrBitFlag.prefetch.toU64).toNat).get 1).entries 1) =
      some 0x8000 := by
    obtain ⟨t, ht⟩ : ∃ t, e₁.tables.read 1 = some t := by
      dsimp only [e₁, h]
      exact ⟨_, rfl⟩
    rw [Heap.get_modify _ ht, if_pos rfl, PageTable.entries_set, if_pos rfl]
    exact heldPage_encode_prefetch (by decide)
  obtain ⟨ha, -, -, hd, hnext, -⟩ := FaultState.prefetch_slots_consistent hr₃
  exact ⟨e₁, _, hexec, hpoll, hr₃, rfl, hheld, ha, (hd (1, 1) 0x8000 rfl hheld).1,
    (hd (1, 1) 0x8000 rfl hheld).2, hnext⟩
end Mitosis