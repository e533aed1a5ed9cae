import Mitosis.Syscall.Handler
import Mitosis.Descriptors.ChildRoundTrip
import Mitosis.RemoteMapping.Copy

/-!
# Resuming a child and closing its handler

`syscall_resume_w_rpc` asks the parent's machine where the descriptor of a prepared process
lies, fetches it with a one-sided read and decodes it; the handler keeps the decoded
descriptor in `resume_related` until it is dropped. The RPC query and the fetch are a
parameter here: the buffer that holds the descriptor, or a failure, which returns `-1`. What
follows the fetch is modelled as the source has it: the decoder of the build, the access info
of the parent's machine, and, in the page-cache build, the table cached under the resume's
key, which replaces the decoded one by a copy.

Dropping the handler caches a copy of its table under the key it resumed from (page-cache
build), drains the prefetcher and gives its connection back to the async pool (prefetch
build), and unregisters a prepared process.

The decoder writes only into the table it builds, so a table cached before a resume still
translates as it did when the resume installs it.
-/
namespace Mitosis
open OsNetwork X86_64

/-! ## The decoder writes only into the table it builds -/

section Frame

variable [Paging] {C : RemotePageTable} {h : Heap PageTable}

/-- A new table is separate from every tree of the heap it is allocated in, which translates
as before. -/
theorem separate_new (hC : TreeWF C h) :
    Separate (RemotePageTable.new h).1 C (RemotePageTable.new h).2 ∧
      C.translate (RemotePageTable.new h).2 = C.translate h := by
  have hroot : (RemotePageTable.new h).2.read (RemotePageTable.new h).1.l4PageTable =
      some default := by
    simp [RemotePageTable.new]
  have hE : ∀ y, Owns C.l4PageTable h y →
      ((RemotePageTable.new h).2.get y).entries = (h.get y).entries := by
    intro y hy
    obtain ⟨u, hu⟩ := hC.wf.read_of_owns hy
    have hlt := h.lt_next_of_read hu
    simp [RemotePageTable.new, Nat.ne_of_lt hlt]
  have hnew := treeWF_new hC.wf.heap hC.interior
  refine ⟨⟨hnew, hC.of_shape hnew.wf.heap hnew.interior fun x s hx => ?_, fun y hyN hyC => ?_⟩,
    translate_eq_of_owns hE⟩
  · have hlt : x < h.next := by
      obtain ⟨t, ht, -⟩ := shape_eq_some.mp hx
      exact h.lt_next_of_read ht
    simpa [RemotePageTable.new, Nat.ne_of_lt hlt] using hx
  · -- the new root has no entry, so it reaches itself only
    obtain ⟨p, -, hw⟩ := hyN
    have hy : y = h.next := by
      cases p with
      | nil => simpa [RemotePageTable.new] using hw.symm
      | cons i p =>
        have hstop : lookupTable (RemotePageTable.new h).2 i
            (RemotePageTable.new h).1.l4PageTable = none :=
          lookupTable_eq_none_iff.mpr (by rw [Heap.get_of_read _ hroot]; rfl)
        rw [walk_cons, hstop] at hw
        cases hw
    rw [owns_iff_of_entries_eq hE] at hyC
    obtain ⟨u, hu⟩ := hC.wf.read_of_owns hyC
    have := h.lt_next_of_read hu
    omega

/-- The page loop maps into its own table only. The induction is on the number of entries;
each `map` keeps the tables separate. -/
theorem deserializePages_separate (m : Memory) (vmaStart : VirtAddrType) :
    ∀ (n : ℕ) {cur : BytesMut} {pt : RemotePageTable} {h : Heap PageTable}
      {r : BytesMut × RemotePageTable × Heap PageTable}, Separate pt C h →
      ChildDescriptor.deserializePages m vmaStart n cur pt h = .ok (some r) →
      Separate r.2.1 C r.2.2 ∧ C.translate r.2.2 = C.translate h
  | 0, cur, pt, h, r, hs, hd => by
    simp only [ChildDescriptor.deserializePages, pure, Except.pure, Except.ok.injEq,
      Option.some.injEq] at hd
    subst hd
    exact ⟨hs, rfl⟩
  | n + 1, cur, pt, h, r, hs, hd => by
    rw [ChildDescriptor.deserializePages] at hd
    split at hd
    · split at hd
      · obtain ⟨addr, -, hd⟩ := bind_eq_ok.mp hd
        obtain ⟨⟨res, pt₁, h₁⟩, hm, hd⟩ := bind_eq_ok.mp hd
        obtain ⟨hs₁, ht₁⟩ := hs.map_left hm
        obtain ⟨hs', ht'⟩ := deserializePages_separate m vmaStart n hs₁ hd
        exact ⟨hs', ht'.trans ht₁⟩
      · simp [pure, Except.pure] at hd
    · simp [pure, Except.pure] at hd

/-- The VMA loop maps into its own table only. The induction is on the number of VMAs. -/
theorem deserializeVmas_separate (m : Memory) :
    ∀ (n : ℕ) {cur : BytesMut} {pt : RemotePageTable} {h : Heap PageTable}
      {r : List VMADescriptor × BytesMut × RemotePageTable × Heap PageTable}, Separate pt C h →
      ChildDescriptor.deserializeVmas m n cur pt h = .ok (some r) →
      Separate r.2.2.1 C r.2.2.2 ∧ C.translate r.2.2.2 = C.translate h
  | 0, cur, pt, h, r, hs, hd => by
    simp only [ChildDescriptor.deserializeVmas, pure, Except.pure, Except.ok.injEq,
      Option.some.injEq] at hd
    subst hd
    exact ⟨hs, rfl⟩
  | n + 1, cur, pt, h, r, hs, hd => by
    rw [ChildDescriptor.deserializeVmas] at hd
    split at hd
    case h_2 => simp [pure, Except.pure] at hd
    split at hd
    case h_2 => simp [pure, Except.pure] at hd
    split at hd
    case h_2 => simp [pure, Except.pure] at hd
    split at hd
    case h_2 => simp [pure, Except.pure] at hd
    split at hd
    case h_2 => simp [pure, Except.pure] at hd
    obtain ⟨r₁, hp, hd⟩ := bind_eq_ok.mp hd
    rcases r₁ with _ | ⟨cur₁, pt₁, h₁⟩
    · simp [pure, Except.pure] at hd
    obtain ⟨hs₁, ht₁⟩ := deserializePages_separate m _ _ hs hp
    obtain ⟨r₂, hv, hd⟩ := bind_eq_ok.mp hd
    rcases r₂ with _ | ⟨vmas, cur₂, pt₂, h₂⟩
    · simp [pure, Except.pure] at hd
    simp only [pure, Except.pure, Except.ok.injEq, Option.some.injEq] at hd
    subst hd
    obtain ⟨hs₂, ht₂⟩ := deserializeVmas_separate m n hs₁ hv
    exact ⟨hs₂, ht₂.trans ht₁⟩

/-- What every build decodes: a new table, separate from every tree of the old heap, which
translates as before. -/
theorem deserializeParts_separate {bytes : BytesMut} {m : Memory}
    {r : RegDescriptor × RemotePageTable × List VMADescriptor × RDMADescriptor × Heap PageTable}
    (hC : TreeWF C h) (hd : ChildDescriptor.deserializeParts bytes m h = .ok (some r)) :
    Separate r.2.1 C r.2.2.2.2 ∧ C.translate r.2.2.2.2 = C.translate h := by
  rw [ChildDescriptor.deserializeParts] at hd
  obtain ⟨cur, -, hd⟩ := bind_eq_ok.mp hd
  split at hd
  case h_2 => simp [pure, Except.pure] at hd
  split at hd
  case h_2 => simp [pure, Except.pure] at hd
  split at hd
  case h_2 => simp [pure, Except.pure] at hd
  split at hd
  case h_2 => simp [pure, Except.pure] at hd
  obtain ⟨hs₀, ht₀⟩ := separate_new hC
  rcases hnew : RemotePageTable.new h with ⟨pt₀, h₀⟩
  rw [hnew] at hd hs₀ ht₀
  obtain ⟨r₁, hv, hd⟩ := bind_eq_ok.mp hd
  rcases r₁ with _ | ⟨vmas, cur₁, pt₁, h₁⟩
  · simp [pure, Except.pure] at hd
  obtain ⟨hs₁, ht₁⟩ := deserializeVmas_separate m _ hs₀ hv
  dsimp only at hd
  split at hd
  case h_2 => simp [pure, Except.pure] at hd
  simp only [pure, Except.pure, Except.ok.injEq, Option.some.injEq] at hd
  subst hd
  exact ⟨hs₁, ht₁.trans ht₀⟩

/-- Without the prefetch feature, the decoded table is separate from every tree of the old
heap, which translates as before. -/
theorem deserialize_separate {bytes : BytesMut} {m : Memory} {d : ChildDescriptor Unit}
    {h' : Heap PageTable} (hC : TreeWF C h)
    (hd : ChildDescriptor.deserialize bytes m h = .ok (some (d, h'))) :
    Separate d.pageTable C h' ∧ C.translate h' = C.translate h := by
  rw [ChildDescriptor.deserialize] at hd
  obtain ⟨r, hp, hd⟩ := bind_eq_ok.mp hd
  rcases r with _ | ⟨regs, pt, vma, mi, h₁⟩
  · simp [pure, Except.pure] at hd
  simp only [pure, Except.pure, Except.ok.injEq, Option.some.injEq, Prod.mk.injEq] at hd
  obtain ⟨rfl, rfl⟩ := hd
  exact deserializeParts_separate hC hp

/-- The same in the prefetch build, whatever the pool. -/
theorem deserializePrefetch_separate (accessInfoNew : RDMADescriptor → Option AccessInfo)
    {bytes : BytesMut} {m : Memory} {pool pool' : DCPool} {d : ChildDescriptor DCAsyncPrefetcher}
    {h' : Heap PageTable} (hC : TreeWF C h)
    (hd : ChildDescriptor.deserializePrefetch accessInfoNew bytes m h pool =
      .ok (some (d, h'), pool')) :
    Separate d.pageTable C h' ∧ C.translate h' = C.translate h := by
  rw [ChildDescriptor.deserializePrefetch] at hd
  obtain ⟨r, hp, hd⟩ := bind_eq_ok.mp hd
  rcases r with _ | ⟨regs, pt, vma, mi, h₁⟩
  · simp [pure, Except.pure] at hd
  dsimp only at hd
  split at hd
  case h_2 => simp [pure, Except.pure] at hd
  split at hd
  case h_2 => simp [pure, Except.pure] at hd
  simp only [pure, Except.pure, Except.ok.injEq, Option.some.injEq, Prod.mk.injEq] at hd
  obtain ⟨⟨rfl, rfl⟩, -⟩ := hd
  exact deserializeParts_separate hC hp

theorem copy_translate {T : RemotePageTable} (hT : TreeWF T h) (a : VirtAddr) :
    (T.copy h).1.translate (T.copy h).2 a = T.translate h a := by
  rw [RemotePageTable.translate_eq, RemotePageTable.translate_eq,
    RemotePageTable.slotValue_eq_pageValue, RemotePageTable.slotValue_eq_pageValue,
    RemotePageTable.copy_pageValue hT]

end Frame

/-! ## The page cache -/

/-- `RemotePageTableCache`: the kernel's map from a key to a cached page table. -/
structure RemotePageTableCache where
  store : AList fun _ : ℕ => RemotePageTable

namespace RemotePageTableCache

def empty : RemotePageTableCache := ⟨∅⟩

/-- `gen_cache_key`: the key is the handler id; the machine id is not part of it. -/
def genCacheKey (_remoteMacId handlerId : ℕ) : ℕ := handlerId

def lookup (self : RemotePageTableCache) (remoteMacId handlerId : ℕ) : Option RemotePageTable :=
  self.store.lookup (genCacheKey remoteMacId handlerId)

def insert (self : RemotePageTableCache) (remoteMacId handlerId : ℕ) (value : RemotePageTable) :
    RemotePageTableCache :=
  ⟨self.store.insert (genCacheKey remoteMacId handlerId) value⟩

def num (self : RemotePageTableCache) : ℕ := self.store.entries.length

@[simp] theorem lookup_insert_self (self : RemotePageTableCache) (m m' hid : ℕ)
    (v : RemotePageTable) : (self.insert m hid v).lookup m' hid = some v := by
  simp [lookup, insert, genCacheKey]

theorem lookup_insert_of_ne (self : RemotePageTableCache) {hid hid' : ℕ} (hne : hid' ≠ hid)
    (m m' : ℕ) (v : RemotePageTable) : (self.insert m hid v).lookup m' hid' = self.lookup m' hid' := by
  simp [lookup, insert, genCacheKey, AList.lookup_insert_ne hne]

end RemotePageTableCache

/-! ## Resume and drop -/

/-- `ResumeDataStruct`: what a resume keeps, generic in the prefetcher of the build. -/
structure ResumeDataStruct (P : Type) where
  handlerId : ℕ
  remoteMacId : ℕ
  descriptor : ChildDescriptor P
  accessInfo : AccessInfo

/-- `pg_table_entry_cnt`. -/
def ResumeDataStruct.pgTableEntryCnt {P : Type} (self : ResumeDataStruct P) : ℕ :=
  self.descriptor.pageTable.len

/-- The kernel state that resumes and drops share: the heap of page tables, the page cache,
the async DC pool of the prefetchers and the registry of prepared processes. -/
structure ChildKernel where
  heap : Heap PageTable
  ptCache : RemotePageTableCache
  dcPoolAsync : DCPool
  sps : ShadowProcessService

/-- What the features of a build change in resume and drop: `ChildDescriptor::deserialize`
(the prefetch build pops a connection from the async pool), `drain_connections` of the
prefetcher when the handler is dropped (prefetch build only), and whether the page cache is
compiled in. -/
structure Build (P : Type) where
  deserialize : BytesMut → Memory → ChildKernel →
    Except String (Option (ChildDescriptor P) × ChildKernel)
  drainConnections : Option (P → Except DatapathError DCConn)
  pageCache : Bool

section Handler

variable {P : Type} (build : Build P) (accessInfoNew : RDMADescriptor → Option AccessInfo)

/-- The page-cache step of the resume: a table cached under the key replaces the decoded one,
by a copy. -/
def installCached (machineId handlerId : ℕ) (des : ChildDescriptor P) (k : ChildKernel) :
    ChildDescriptor P × ChildKernel :=
  if build.pageCache then
    match k.ptCache.lookup machineId handlerId with
    | some cached =>
      let (pageTable, heap) := cached.copy k.heap
      ({ des with pageTable }, { k with heap })
    | none => (des, k)
  else (des, k)

/-- What `syscall_resume_w_rpc` does once the descriptor is fetched: decode it, make the access
info of the parent's machine, install the cached table of the key and keep the descriptor.
`apply_to`, which loads the registers and the VMAs into the task, is not modelled. -/
def resumeFetched (machineId handlerId : ℕ) (bytes : BytesMut) (m : Memory)
    (self : CallerData (ResumeDataStruct P)) (k : ChildKernel) :
    Except String (ℤ × CallerData (ResumeDataStruct P) × ChildKernel) := do
  -- the decoder's effect on the kernel (a connection popped from the pool) stays when it
  -- decodes nothing
  let (des, k) ← build.deserialize bytes m k
  let some des := des | pure (-1, self, k)
  let some accessInfo := accessInfoNew des.machineInfo | pure (-1, self, k)
  let (des, k) := installCached build machineId handlerId des k
  pure (0, { self with resumeRelated := some ⟨handlerId, machineId, des, accessInfo⟩ }, k)

/-- `syscall_resume_w_rpc`: a handler resumes once. `fetched` is what the RPC query and the
one-sided read of the descriptor gave: the buffer that holds it, or nothing when one of them
failed, which returns `-1`. -/
def syscallResumeWRpc (machineId handlerId : ℕ) (fetched : Option (BytesMut × Memory))
    (self : CallerData (ResumeDataStruct P)) (k : ChildKernel) :
    Except String (ℤ × CallerData (ResumeDataStruct P) × ChildKernel) :=
  if self.resumeRelated.isSome then pure (-1, self, k) else
  match fetched with
  | none => pure (-1, self, k)
  | some (bytes, m) => resumeFetched build accessInfoNew machineId handlerId bytes m self k

/-- `cache_my_pt`: in the page-cache build, a copy of the table of a resumed handler is cached
under the key of its parent. -/
def cacheMyPt (self : CallerData (ResumeDataStruct P)) (k : ChildKernel) : ChildKernel :=
  if build.pageCache then
    match self.resumeRelated with
    | some r =>
      let (pgTable, heap) := r.descriptor.pageTable.copy k.heap
      { k with heap, ptCache := k.ptCache.insert r.remoteMacId r.handlerId pgTable }
    | none => k
  else k

/-- The prefetch part of `drop`: a drained connection goes back to the async pool, and one
that fails to drain does not. -/
def returnQp (self : CallerData (ResumeDataStruct P)) (k : ChildKernel) : ChildKernel :=
  match build.drainConnections, self.resumeRelated with
  | some drainConnections, some r =>
    match drainConnections r.descriptor.prefetcher with
    | .ok conn => { k with dcPoolAsync := k.dcPoolAsync.pushOneQp conn }
    | .error _ => k
  | _, _ => k

/-- `Drop for MitosisSysCallHandler`: cache the table, give the connection back, unregister a
prepared process. Freeing the eagerly fetched pages is not modelled. -/
def dropHandler (self : CallerData (ResumeDataStruct P)) (k : ChildKernel) : ChildKernel :=
  let k := cacheMyPt build self k
  let k := returnQp build self k
  { k with sps := self.unregisterPrepared k.sps }

variable {build accessInfoNew}

@[simp] theorem returnQp_heap (self : CallerData (ResumeDataStruct P)) (k : ChildKernel) :
    (returnQp build self k).heap = k.heap := by
  unfold returnQp
  split
  · split <;> rfl
  · rfl

@[simp] theorem returnQp_ptCache (self : CallerData (ResumeDataStruct P)) (k : ChildKernel) :
    (returnQp build self k).ptCache = k.ptCache := by
  unfold returnQp
  split
  · split <;> rfl
  · rfl

theorem dropHandler_of_pageCache (hpc : build.pageCache = true)
    {self : CallerData (ResumeDataStruct P)} {r : ResumeDataStruct P}
    (hr : self.resumeRelated = some r) (k : ChildKernel) :
    (dropHandler build self k).heap = (r.descriptor.pageTable.copy k.heap).2 ∧
      (dropHandler build self k).ptCache =
        k.ptCache.insert r.remoteMacId r.handlerId (r.descriptor.pageTable.copy k.heap).1 := by
  simp [dropHandler, cacheMyPt, hpc, hr]

/-- A resume of a fresh handler that returns `0` decoded a descriptor, made the access info,
and keeps the result of the page-cache step. -/
theorem syscallResumeWRpc_eq_zero {machineId handlerId : ℕ} {fetched : Option (BytesMut × Memory)}
    {self self' : CallerData (ResumeDataStruct P)} {k k' : ChildKernel}
    (hres : syscallResumeWRpc build accessInfoNew machineId handlerId fetched self k =
      .ok (0, self', k')) :
    ∃ bytes m des k₁ ai, fetched = some (bytes, m) ∧
      build.deserialize bytes m k = .ok (some des, k₁) ∧ accessInfoNew des.machineInfo = some ai ∧
      self'.resumeRelated = some ⟨handlerId, machineId,
        (installCached build machineId handlerId des k₁).1, ai⟩ ∧
      k' = (installCached build machineId handlerId des k₁).2 := by
  unfold syscallResumeWRpc at hres
  split at hres
  · simp [pure, Except.pure] at hres
  rcases fetched with _ | ⟨bytes, m⟩
  · simp [pure, Except.pure] at hres
  simp only [resumeFetched] at hres
  obtain ⟨⟨r, k₁⟩, hd, hres⟩ := bind_eq_ok.mp hres
  rcases r with _ | des
  · simp [pure, Except.pure] at hres
  dsimp only at hres
  split at hres
  case h_2 => simp [pure, Except.pure] at hres
  rename_i ai hai
  simp only [pure, Except.pure, Except.ok.injEq, Prod.mk.injEq] at hres
  obtain ⟨-, rfl, rfl⟩ := hres
  exact ⟨bytes, m, des, k₁, ai, rfl, hd, hai, rfl, rfl⟩

/-- The converse: a fresh handler whose descriptor decodes and whose access info is made
resumes, with `0`. -/
theorem syscallResumeWRpc_of_decoded {machineId handlerId : ℕ} {bytes : BytesMut} {m : Memory}
    {self : CallerData (ResumeDataStruct P)} {k k₁ : ChildKernel} {des : ChildDescriptor P}
    {ai : AccessInfo} (hfresh : self.resumeRelated = none)
    (hd : build.deserialize bytes m k = .ok (some des, k₁))
    (hai : accessInfoNew des.machineInfo = some ai) :
    syscallResumeWRpc build accessInfoNew machineId handlerId (some (bytes, m)) self k =
      .ok (0, { self with resumeRelated := some ⟨handlerId, machineId,
        (installCached build machineId handlerId des k₁).1, ai⟩ },
        (installCached build machineId handlerId des k₁).2) := by
  simp only [syscallResumeWRpc, hfresh, Option.isSome_none, Bool.false_eq_true, if_false,
    resumeFetched, hd, bind, Except.bind, hai]
  rfl

/-- A fresh handler whose descriptor does not decode, or whose access info fails, is refused
with `-1`; the kernel is the one the decoder left. -/
theorem syscallResumeWRpc_of_undecoded {machineId handlerId : ℕ} {bytes : BytesMut} {m : Memory}
    {self : CallerData (ResumeDataStruct P)} {k k₁ : ChildKernel}
    {r : Option (ChildDescriptor P)} (hfresh : self.resumeRelated = none)
    (hd : build.deserialize bytes m k = .ok (r, k₁))
    (hr : r = none ∨ ∃ des, r = some des ∧ accessInfoNew des.machineInfo = none) :
    syscallResumeWRpc build accessInfoNew machineId handlerId (some (bytes, m)) self k =
      .ok (-1, self, k₁) := by
  simp only [syscallResumeWRpc, hfresh, Option.isSome_none, Bool.false_eq_true, if_false,
    resumeFetched, hd, bind, Except.bind]
  rcases hr with rfl | ⟨des, rfl, hai⟩
  · rfl
  · simp only [hai]
    rfl

end Handler

section Builds

variable [Paging]

namespace Build

/-- The build without prefetching. -/
def onDemand (pageCache : Bool) : Build Unit where
  deserialize bytes m k := do
    let r ← ChildDescriptor.deserialize bytes m k.heap
    pure (match r with
      | some (d, heap) => (some d, { k with heap })
      | none => (none, k))
  drainConnections := none
  pageCache := pageCache

/-- The prefetch build, with `AccessInfo::new` and the prefetcher's `drain_connections`. -/
def prefetch (accessInfoNew : RDMADescriptor → Option AccessInfo)
    (drainConnections : DCAsyncPrefetcher → Except DatapathError DCConn) (pageCache : Bool) :
    Build DCAsyncPrefetcher where
  deserialize bytes m k := do
    let (r, dcPoolAsync) ←
      ChildDescriptor.deserializePrefetch accessInfoNew bytes m k.heap k.dcPoolAsync
    pure (match r with
      | some (d, heap) => (some d, { k with heap, dcPoolAsync })
      | none => (none, { k with dcPoolAsync }))
  drainConnections := some drainConnections
  pageCache := pageCache

/-- The decoder of a build writes only into the table it builds: every tree of the heap stays a
tree and translates as before, and the page cache is left alone. -/
def KeepsTables {P : Type} (build : Build P) : Prop :=
  ∀ bytes m k d k' C, build.deserialize bytes m k = .ok (some d, k') → TreeWF C k.heap →
    TreeWF C k'.heap ∧ C.translate k'.heap = C.translate k.heap ∧ k'.ptCache = k.ptCache

theorem onDemand_deserialize {pageCache : Bool} {bytes : BytesMut} {m : Memory} {k : ChildKernel}
    {d : ChildDescriptor Unit} {heap : Heap PageTable}
    (hd : ChildDescriptor.deserialize bytes m k.heap = .ok (some (d, heap))) :
    (onDemand pageCache).deserialize bytes m k = .ok (some d, { k with heap }) := by
  simp only [onDemand, hd]
  rfl

theorem onDemand_keepsTables (pageCache : Bool) : (onDemand pageCache).KeepsTables := by
  intro bytes m k d k' C hd hC
  simp only [onDemand] at hd
  obtain ⟨r, hr, hd⟩ := bind_eq_ok.mp hd
  rcases r with _ | ⟨d₁, heap⟩
  · simp [pure, Except.pure] at hd
  simp only [pure, Except.pure, Except.ok.injEq, Prod.mk.injEq, Option.some.injEq] at hd
  obtain ⟨rfl, rfl⟩ := hd
  obtain ⟨hs, ht⟩ := deserialize_separate hC hr
  exact ⟨hs.right, ht, rfl⟩

theorem prefetch_keepsTables (accessInfoNew : RDMADescriptor → Option AccessInfo)
    (drainConnections : DCAsyncPrefetcher → Except DatapathError DCConn) (pageCache : Bool) :
    (prefetch accessInfoNew drainConnections pageCache).KeepsTables := by
  intro bytes m k d k' C hd hC
  simp only [prefetch] at hd
  obtain ⟨⟨r, pool⟩, hr, hd⟩ := bind_eq_ok.mp hd
  rcases r with _ | ⟨d₁, heap⟩
  · simp [pure, Except.pure] at hd
  simp only [pure, Except.pure, Except.ok.injEq, Prod.mk.injEq, Option.some.injEq] at hd
  obtain ⟨rfl, rfl⟩ := hd
  obtain ⟨hs, ht⟩ := deserializePrefetch_separate accessInfoNew hC hr
  exact ⟨hs.right, ht, rfl⟩

end Build

variable {P : Type} {build : Build P} {accessInfoNew : RDMADescriptor → Option AccessInfo}

/-- The page cache is keyed by the handler id alone. In the page-cache build, when a handler
that resumed from `(m₁, hid)` is dropped, a later resume from `(m₂, hid)` that returns `0`
installs a copy of the table the first child had, for every machine `m₂`: its table translates
every address as the first child's table did when the child was dropped, whatever the
descriptor fetched for `(m₂, hid)` holds. -/
theorem resume_installs_table_of_other_machine (hpc : build.pageCache = true)
    (hkeep : build.KeepsTables) {self₁ : CallerData (ResumeDataStruct P)}
    {r₁ : ResumeDataStruct P} (hr₁ : self₁.resumeRelated = some r₁) {k : ChildKernel}
    (hT : TreeWF r₁.descriptor.pageTable k.heap) (m₂ : ℕ) (fetched : Option (BytesMut × Memory))
    {self₂ self₂' : CallerData (ResumeDataStruct P)} {k₂ : ChildKernel}
    (hres : syscallResumeWRpc build accessInfoNew m₂ r₁.handlerId fetched self₂
      (dropHandler build self₁ k) = .ok (0, self₂', k₂)) :
    ∃ r₂, self₂'.resumeRelated = some r₂ ∧ r₂.remoteMacId = m₂ ∧ r₂.handlerId = r₁.handlerId ∧
      ∀ a, r₂.descriptor.pageTable.translate k₂.heap a =
        r₁.descriptor.pageTable.translate k.heap a := by
  obtain ⟨hheap, hcache⟩ := dropHandler_of_pageCache hpc hr₁ k
  obtain ⟨bytes, m, des, k₁, ai, -, hd, -, hself, rfl⟩ := syscallResumeWRpc_eq_zero hres
  -- the first child's copy is a tree of the heap after the drop, and stays one through the
  -- decoding of the second descriptor
  set C := (r₁.descriptor.pageTable.copy k.heap).1
  have hC : TreeWF C (dropHandler build self₁ k).heap := hheap ▸ (RemotePageTable.copy_treeWF hT).2
  obtain ⟨hC₁, htr₁, hcache₁⟩ := hkeep _ _ _ _ _ C hd hC
  have hlookup : k₁.ptCache.lookup m₂ r₁.handlerId = some C := by
    rw [hcache₁, hcache, RemotePageTableCache.lookup_insert_self]
  refine ⟨_, hself, rfl, rfl, fun a => ?_⟩
  simp only [installCached, hpc, if_true, hlookup]
  calc (C.copy k₁.heap).1.translate (C.copy k₁.heap).2 a
      = C.translate k₁.heap a := copy_translate hC₁ a
    _ = C.translate (dropHandler build self₁ k).heap a := by rw [htr₁]
    _ = r₁.descriptor.pageTable.translate k.heap a := by rw [hheap]; exact copy_translate hT a

end Builds

/-- A child resumed from machine `1` under handler `7` with an empty table is dropped; a
resume from machine `2` under handler `7`, whose fetched descriptor maps `0x1000` to `0x5000`,
installs the cached empty table instead. -/
theorem resume_installs_table_of_other_machine_two_parents :
    let T₁ := (RemotePageTable.new Heap.empty).1
    let k : ChildKernel := ⟨(RemotePageTable.new Heap.empty).2, RemotePageTableCache.empty, ⟨[]⟩,
      ShadowProcessService.new⟩
    let mi : RDMADescriptor := ⟨73, 1, ⟨List.replicate 16 0, rfl⟩, 0, 0xdeadbeaf, 0, 0, 0⟩
    let r₁ : ResumeDataStruct Unit :=
      ⟨7, 1, ⟨⟨⟨List.replicate 21 0, rfl⟩, 0, 0⟩, T₁, [], mi, ()⟩, ⟨0, 0, 1⟩⟩
    let self₁ : CallerData (ResumeDataStruct Unit) :=
      { (CallerData.default : CallerData (ResumeDataStruct Unit)) with resumeRelated := some r₁ }
    let p₂ : ParentDescriptor := ⟨⟨⟨List.replicate 21 0, rfl⟩, 0, 0⟩, [⟨[(0, 0x5000)]⟩],
      [⟨(0x1000, 0x2000), 0, 0, true⟩], mi⟩
    let bytes : BytesMut := ⟨0, 328, by decide⟩
    let fetched := some (bytes, Memory.write (fun _ => 0) bytes.ptr p₂.image)
    (Build.onDemand true).pageCache = true ∧ (Build.onDemand true).KeepsTables ∧
      self₁.resumeRelated = some r₁ ∧ TreeWF r₁.descriptor.pageTable k.heap ∧
      ∃ self₂' k₂, syscallResumeWRpc (Build.onDemand true) (fun _ => some ⟨0, 0, 2⟩) 2 7 fetched
          CallerData.default (dropHandler (Build.onDemand true) self₁ k) = .ok (0, self₂', k₂) ∧
        ∃ r₂, self₂'.resumeRelated = some r₂ ∧ r₂.remoteMacId = 2 ∧ r₂.handlerId = r₁.handlerId ∧
          ∀ a, r₂.descriptor.pageTable.translate k₂.heap a =
            r₁.descriptor.pageTable.translate k.heap a := by
  intro T₁ k mi r₁ self₁ p₂ bytes fetched
  have hT : TreeWF r₁.descriptor.pageTable k.heap := treeWF_new heapWF_empty interior_empty
  have hwf : HeapWF (dropHandler (Build.onDemand true) self₁ k).heap := by
    rw [(dropHandler_of_pageCache rfl (rfl : self₁.resumeRelated = some r₁) k).1]
    exact (RemotePageTable.copy_treeWF hT).2.wf.heap
  have hlen : p₂.vma.length = p₂.pageTable.length := rfl
  have hbuf : p₂.serializationBufLen ≤ bytes.len := by decide
  obtain ⟨m', hser, c, hc, hd, -⟩ := ChildDescriptor.deserialize_translate_eq p₂ hlen
    (by decide) (by decide) bytes hbuf (fun _ => 0) hwf
  rw [ParentDescriptor.serialize_eq p₂ bytes _ hlen hbuf, Except.ok.injEq, Prod.mk.injEq] at hser
  rw [← hser.2] at hd
  have hres : syscallResumeWRpc (Build.onDemand true) (fun _ => some ⟨0, 0, 2⟩) 2 7 fetched
      CallerData.default (dropHandler (Build.onDemand true) self₁ k) = .ok (0, _, _) :=
    syscallResumeWRpc_of_decoded rfl (Build.onDemand_deserialize hd) rfl
  exact ⟨rfl, Build.onDemand_keepsTables true, rfl, hT, _, _, hres,
    resume_installs_table_of_other_machine rfl (Build.onDemand_keepsTables true) rfl hT 2 fetched
      hres⟩

end Mitosis
