import Mitosis.Syscall.Resume

/-!
# The open files of the device and the connections of the async pool

Each `open` of the device makes a `MitosisSysCallHandler` with a default `CallerData`, the
`ResumeRemote` ioctl runs `syscall_resume_w_rpc` on it, and the release of the file drops it.
In the prefetch build a resumed descriptor holds a prefetcher, and the prefetcher holds a
connection popped from the async DC pool by `ChildDescriptor::deserialize`; the drop gives the
connection back once `drain_connections` returns it. `qps` counts the connections of the pool
and those the open files hold.

No file operation adds to the count (`qps_run_le`). Two lose a connection: a resume whose
descriptor pops one but whose `AccessInfo::new` fails, inside `deserialize` or in
`syscall_resume_w_rpc` after it, drops the descriptor; and a drop whose `drain_connections`
fails does not push the connection back.
-/
namespace Mitosis
open OsNetwork X86_64

/-- The handlers of the open files, by file number; a released file is `none`. -/
structure Files (P : Type) where
  handlers : List (Option (CallerData (ResumeDataStruct P)))
  kernel : ChildKernel

/-- The file operations of the device on the resume path. -/
inductive FileOp
  | openFile
  | resumeRemote (fd machineId handlerId : ℕ) (fetched : Option (BytesMut × Memory))
  | release (fd : ℕ)

namespace Files

section Step

variable {P : Type} (build : Build P) (accessInfoNew : RDMADescriptor → Option AccessInfo)

/-- One file operation. `open` answers the new file's number; an ioctl or a release of a file
that is not open is refused with `-1` and changes nothing. -/
def step : FileOp → Files P → Except String (ℤ × Files P)
  | .openFile, s => pure (s.handlers.length, ⟨s.handlers ++ [some CallerData.default], s.kernel⟩)
  | .resumeRemote fd machineId handlerId fetched, s =>
    match s.handlers[fd]? with
    | some (some c) => do
      let (ret, c, kernel) ←
        syscallResumeWRpc build accessInfoNew machineId handlerId fetched c s.kernel
      pure (ret, ⟨s.handlers.set fd (some c), kernel⟩)
    | _ => pure (-1, s)
  | .release fd, s =>
    match s.handlers[fd]? with
    | some (some c) => pure (0, ⟨s.handlers.set fd none, dropHandler build c s.kernel⟩)
    | _ => pure (-1, s)

/-- Whether an open file holds a resumed descriptor, and with it, in the prefetch build, a
prefetcher and its connection. -/
def holdsDescriptor : Option (CallerData (ResumeDataStruct P)) → Bool
  | some c => c.resumeRelated.isSome
  | none => false

/-- The open files that hold a descriptor. -/
def live (s : Files P) : ℕ := s.handlers.countP holdsDescriptor

/-- The connections of the async pool and those the open files hold. -/
def qps (s : Files P) : ℕ := s.kernel.dcPoolAsync.pool.length + live s

end Step

private theorem countP_set_of_getElem? {α : Type} {p : α → Bool} {l : List α} {i : ℕ} {x : α}
    (hx : l[i]? = some x) (y : α) :
    (l.set i y).countP p + (if p x then 1 else 0) = l.countP p + (if p y then 1 else 0) := by
  obtain ⟨hi, rfl⟩ := List.getElem?_eq_some_iff.mp hx
  have hle : (if p l[i] then 1 else 0) ≤ l.countP p := by
    split
    · exact List.countP_pos_iff.mpr ⟨l[i], List.getElem_mem hi, ‹_›⟩
    · exact Nat.zero_le _
  rw [List.countP_set hi]
  omega

section Counting

variable {P : Type} {build : Build P} {accessInfoNew : RDMADescriptor → Option AccessInfo}

theorem live_set {s : Files P} {fd : ℕ} {c : Option (CallerData (ResumeDataStruct P))}
    (hc : s.handlers[fd]? = some c) (kernel : ChildKernel)
    (c' : Option (CallerData (ResumeDataStruct P))) :
    live ⟨s.handlers.set fd c', kernel⟩ + (if holdsDescriptor c then 1 else 0) =
      live s + (if holdsDescriptor c' then 1 else 0) :=
  countP_set_of_getElem? hc c'

@[simp] theorem installCached_dcPoolAsync (machineId handlerId : ℕ) (des : ChildDescriptor P)
    (k : ChildKernel) : (installCached build machineId handlerId des k).2.dcPoolAsync = k.dcPoolAsync := by
  unfold installCached
  split
  · split <;> rfl
  · rfl

@[simp] theorem cacheMyPt_dcPoolAsync (self : CallerData (ResumeDataStruct P)) (k : ChildKernel) :
    (cacheMyPt build self k).dcPoolAsync = k.dcPoolAsync := by
  unfold cacheMyPt
  split
  · split <;> rfl
  · rfl

theorem dropHandler_pool_le (self : CallerData (ResumeDataStruct P)) (k : ChildKernel) :
    (dropHandler build self k).dcPoolAsync.pool.length ≤
      k.dcPoolAsync.pool.length + (if self.resumeRelated.isSome then 1 else 0) := by
  simp only [dropHandler, returnQp]
  split
  · rename_i r _ hr
    split <;> simp [hr]
  · simp

theorem dropHandler_pool_of_drain_error {drain : P → Except DatapathError DCConn}
    (hdrain : build.drainConnections = some drain) {self : CallerData (ResumeDataStruct P)}
    {r : ResumeDataStruct P} (hr : self.resumeRelated = some r) {e : DatapathError}
    (he : drain r.descriptor.prefetcher = .error e) (k : ChildKernel) :
    (dropHandler build self k).dcPoolAsync = k.dcPoolAsync := by
  simp [dropHandler, returnQp, hdrain, hr, he]

end Counting

end Files

/-- What `deserialize` of a build does to the async pool: it takes at most one connection, and
one for every descriptor it decodes. -/
def Build.TakesOneQp {P : Type} (build : Build P) : Prop :=
  ∀ bytes m k r k', build.deserialize bytes m k = .ok (r, k') →
    k'.dcPoolAsync.pool.length ≤ k.dcPoolAsync.pool.length ∧
      (r.isSome → k'.dcPoolAsync.pool.length + 1 = k.dcPoolAsync.pool.length)

namespace Files

section Resume

variable {P : Type} {build : Build P} {accessInfoNew : RDMADescriptor → Option AccessInfo}

/-- A resume either leaves the handler as it was and takes at most one connection, or resumes
a fresh handler and takes exactly one. -/
theorem syscallResumeWRpc_pool (htake : build.TakesOneQp) {machineId handlerId : ℕ}
    {fetched : Option (BytesMut × Memory)} {self self' : CallerData (ResumeDataStruct P)}
    {k k' : ChildKernel} {ret : ℤ}
    (hres : syscallResumeWRpc build accessInfoNew machineId handlerId fetched self k =
      .ok (ret, self', k')) :
    (self' = self ∧ k'.dcPoolAsync.pool.length ≤ k.dcPoolAsync.pool.length) ∨
      (self.resumeRelated = none ∧ self'.resumeRelated.isSome ∧
        k'.dcPoolAsync.pool.length + 1 = k.dcPoolAsync.pool.length) := by
  unfold syscallResumeWRpc at hres
  split at hres
  · -- an already resumed handler is refused
    simp only [pure, Except.pure, Except.ok.injEq, Prod.mk.injEq] at hres
    obtain ⟨-, rfl, rfl⟩ := hres
    exact .inl ⟨rfl, le_rfl⟩
  rename_i hfresh
  rcases fetched with _ | ⟨bytes, m⟩
  · simp only [pure, Except.pure, Except.ok.injEq, Prod.mk.injEq] at hres
    obtain ⟨-, rfl, rfl⟩ := hres
    exact .inl ⟨rfl, le_rfl⟩
  simp only [resumeFetched] at hres
  obtain ⟨⟨r, k₁⟩, hd, hres⟩ := bind_eq_ok.mp hres
  obtain ⟨hle, hone⟩ := htake _ _ _ _ _ hd
  rcases r with _ | des
  · -- nothing decoded
    simp only [pure, Except.pure, Except.ok.injEq, Prod.mk.injEq] at hres
    obtain ⟨-, rfl, rfl⟩ := hres
    exact .inl ⟨rfl, hle⟩
  have hone := hone rfl
  dsimp only at hres
  split at hres
  · -- the access info is made: the handler resumes with the descriptor's connection
    simp only [pure, Except.pure, Except.ok.injEq, Prod.mk.injEq] at hres
    obtain ⟨-, rfl, rfl⟩ := hres
    refine .inr ⟨Option.not_isSome_iff_eq_none.mp hfresh, rfl, ?_⟩
    rw [installCached_dcPoolAsync]
    exact hone
  · -- the access info fails: the decoded descriptor and its connection are dropped
    simp only [pure, Except.pure, Except.ok.injEq, Prod.mk.injEq] at hres
    obtain ⟨-, rfl, rfl⟩ := hres
    exact .inl ⟨rfl, hle⟩

/-- No file operation adds a connection, in a build whose decoder takes one per descriptor.
The cases follow the operations: an `open` adds a handler that holds nothing, a resume moves at
most one connection from the pool to the handler, and a release moves at most the handler's
connection back. -/
theorem qps_step_le (htake : build.TakesOneQp) {o : FileOp} {s s' : Files P} {ret : ℤ}
    (hstep : step build accessInfoNew o s = .ok (ret, s')) : qps s' ≤ qps s := by
  cases o with
  | openFile =>
    simp only [step, pure, Except.pure, Except.ok.injEq, Prod.mk.injEq] at hstep
    obtain ⟨-, rfl⟩ := hstep
    simp [qps, live, holdsDescriptor, CallerData.default]
  | resumeRemote fd machineId handlerId fetched =>
    simp only [step] at hstep
    split at hstep
    · rename_i c hc
      obtain ⟨⟨ret', c', k'⟩, hres, hstep⟩ := bind_eq_ok.mp hstep
      simp only [pure, Except.pure, Except.ok.injEq, Prod.mk.injEq] at hstep
      obtain ⟨-, rfl⟩ := hstep
      have hlive := live_set hc k' (some c')
      simp only [qps, holdsDescriptor] at hlive ⊢
      rcases syscallResumeWRpc_pool htake hres with ⟨rfl, hle⟩ | ⟨hfresh, hsome, hone⟩
      · omega
      · simp only [hfresh, Option.isSome_none, hsome, Bool.false_eq_true, ↓reduceIte] at hlive
        omega
    · simp only [pure, Except.pure, Except.ok.injEq, Prod.mk.injEq] at hstep
      rw [← hstep.2]
  | release fd =>
    simp only [step] at hstep
    split at hstep
    · rename_i c hc
      simp only [pure, Except.pure, Except.ok.injEq, Prod.mk.injEq] at hstep
      obtain ⟨-, rfl⟩ := hstep
      have hlive := live_set hc (dropHandler build c s.kernel) none
      have hpool : (dropHandler build c s.kernel).dcPoolAsync.pool.length ≤
          s.kernel.dcPoolAsync.pool.length + (if c.resumeRelated.isSome then 1 else 0) :=
        dropHandler_pool_le c s.kernel
      simp only [qps, holdsDescriptor, Bool.false_eq_true, ↓reduceIte] at hlive hpool ⊢
      by_cases hr : c.resumeRelated.isSome <;> simp only [hr, ↓reduceIte] at hlive hpool <;> omega
    · simp only [pure, Except.pure, Except.ok.injEq, Prod.mk.injEq] at hstep
      rw [← hstep.2]

theorem qps_run_le (htake : build.TakesOneQp) (ops : List FileOp) {s s' : Files P}
    {rs : List ℤ} (hrun : Simulation.run (step build accessInfoNew) ops s = .ok (rs, s')) :
    qps s' ≤ qps s :=
  Simulation.run_invariant (I := fun t => qps t ≤ qps s)
    (fun _ _ _ _ hI hstep => (qps_step_le htake hstep).trans hI) ops s rs s' le_rfl hrun

end Resume

end Files

/-- A descriptor built from the access info of `machineInfo` is not built, or has an access
info that fails the second time, when one of the two fails. -/
private theorem decoded_none_or_accessInfo_none {P : Type}
    {accessInfoNew₁ accessInfoNew₂ : RDMADescriptor → Option AccessInfo}
    {machineInfo : RDMADescriptor} {f : AccessInfo → ChildDescriptor P}
    (hai : accessInfoNew₁ machineInfo = none ∨ accessInfoNew₂ machineInfo = none)
    (hf : ∀ a, (f a).machineInfo = machineInfo) :
    (accessInfoNew₁ machineInfo).map f = none ∨
      ∃ des, (accessInfoNew₁ machineInfo).map f = some des ∧
        accessInfoNew₂ des.machineInfo = none := by
  rcases h₁ : accessInfoNew₁ machineInfo with _ | a
  · exact .inl rfl
  · exact .inr ⟨f a, rfl, by rw [hf]; exact hai.resolve_left (by simp [h₁])⟩

section Prefetch

variable [Paging]

/-- The prefetch build's decoder pops one connection for every descriptor it decodes. -/
theorem Build.prefetch_takesOneQp (accessInfoNew : RDMADescriptor → Option AccessInfo)
    (drainConnections : DCAsyncPrefetcher → Except DatapathError DCConn) (pageCache : Bool) :
    (Build.prefetch accessInfoNew drainConnections pageCache).TakesOneQp := by
  intro bytes m k r k' hd
  simp only [Build.prefetch] at hd
  obtain ⟨⟨r₁, pool⟩, hr, hd⟩ := bind_eq_ok.mp hd
  obtain ⟨hle, hone⟩ := ChildDescriptor.deserializePrefetch_pool hr
  rcases r₁ with _ | ⟨d, heap⟩
  · simp only [pure, Except.pure, Except.ok.injEq, Prod.mk.injEq] at hd
    obtain ⟨rfl, rfl⟩ := hd
    exact ⟨hle, fun h => absurd h (by simp)⟩
  · simp only [pure, Except.pure, Except.ok.injEq, Prod.mk.injEq] at hd
    obtain ⟨rfl, rfl⟩ := hd
    exact ⟨hle, fun _ => hone rfl⟩

/-- Once the parts decode and the pool holds a connection, the prefetch build's decoder pops
it, whether or not the access info is made. -/
theorem Build.prefetch_deserialize_of_parts (accessInfoNew : RDMADescriptor → Option AccessInfo)
    (drainConnections : DCAsyncPrefetcher → Except DatapathError DCConn) (pageCache : Bool)
    {bytes : BytesMut} {m : Memory} {k : ChildKernel} {h' : Heap PageTable} {regs : RegDescriptor}
    {pageTable : RemotePageTable} {vma : List VMADescriptor} {machineInfo : RDMADescriptor}
    (hparts : ChildDescriptor.deserializeParts bytes m k.heap =
      .ok (some (regs, pageTable, vma, machineInfo, h')))
    (hpool : k.dcPoolAsync.pool ≠ []) :
    ∃ k₁, (Build.prefetch accessInfoNew drainConnections pageCache).deserialize bytes m k =
        .ok ((accessInfoNew machineInfo).map fun accessInfo => ⟨regs, pageTable, vma, machineInfo,
          DCAsyncPrefetcher.newFromRaw (k.dcPoolAsync.pool.getLast hpool) accessInfo⟩, k₁) ∧
      k₁.dcPoolAsync.pool = k.dcPoolAsync.pool.dropLast := by
  simp only [Build.prefetch, ChildDescriptor.deserializePrefetch_of_parts hparts hpool, bind,
    Except.bind]
  cases accessInfoNew machineInfo
  · exact ⟨_, rfl, rfl⟩
  · exact ⟨_, rfl, rfl⟩

/-- The connections of the prefetch build are not conserved. A resume of a fresh handler whose
descriptor decodes while the pool holds a connection, but whose `AccessInfo::new` fails inside
`deserialize` or in `syscall_resume_w_rpc` after it, returns `-1` and has lost the popped
connection; and the release of a resumed handler whose `drain_connections` fails loses the
connection its prefetcher held. In both, the pool and the open files together hold one
connection fewer. -/
theorem qps_lost_by_failed_resume_or_drain (accessInfoNew₁ accessInfoNew₂ : RDMADescriptor → Option AccessInfo)
    (drainConnections : DCAsyncPrefetcher → Except DatapathError DCConn) (pageCache : Bool)
    (s : Files DCAsyncPrefetcher) {fd : ℕ} {c : CallerData (ResumeDataStruct DCAsyncPrefetcher)}
    (hc : s.handlers[fd]? = some (some c)) :
    (∀ machineId handlerId bytes m regs pageTable vma machineInfo h', c.resumeRelated = none →
      ChildDescriptor.deserializeParts bytes m s.kernel.heap =
        .ok (some (regs, pageTable, vma, machineInfo, h')) →
      s.kernel.dcPoolAsync.pool ≠ [] →
      (accessInfoNew₁ machineInfo = none ∨ accessInfoNew₂ machineInfo = none) →
      ∃ s', Files.step (Build.prefetch accessInfoNew₁ drainConnections pageCache) accessInfoNew₂
          (.resumeRemote fd machineId handlerId (some (bytes, m))) s = .ok (-1, s') ∧
        Files.qps s' + 1 = Files.qps s) ∧
    (∀ r e, c.resumeRelated = some r → drainConnections r.descriptor.prefetcher = .error e →
      ∃ s', Files.step (Build.prefetch accessInfoNew₁ drainConnections pageCache) accessInfoNew₂
          (.release fd) s = .ok (0, s') ∧ Files.qps s' + 1 = Files.qps s) := by
  have hlive := Files.live_set hc
  constructor
  · intro machineId handlerId bytes m regs pageTable vma machineInfo h' hfresh hparts hpool hai
    obtain ⟨k₁, hd, hk₁⟩ := Build.prefetch_deserialize_of_parts accessInfoNew₁ drainConnections
      pageCache hparts hpool
    -- the decoder gives nothing, or a descriptor whose second access info fails
    have hr := decoded_none_or_accessInfo_none hai (f := fun accessInfo => ⟨regs, pageTable, vma,
      machineInfo, DCAsyncPrefetcher.newFromRaw (s.kernel.dcPoolAsync.pool.getLast hpool) accessInfo⟩)
      fun _ => rfl
    refine ⟨⟨s.handlers.set fd (some c), k₁⟩, ?_, ?_⟩
    · simp only [Files.step, hc, syscallResumeWRpc_of_undecoded hfresh hd hr, bind, Except.bind]
      rfl
    · have hpos : 0 < s.kernel.dcPoolAsync.pool.length := List.length_pos_iff.mpr hpool
      have h := hlive k₁ (some c)
      simp only [Files.qps, hk₁, List.length_dropLast] at h ⊢
      omega
  · intro r e hr he
    refine ⟨⟨s.handlers.set fd none, dropHandler (Build.prefetch accessInfoNew₁ drainConnections
      pageCache) c s.kernel⟩, by simp [Files.step, hc, pure, Except.pure], ?_⟩
    have h := hlive (dropHandler (Build.prefetch accessInfoNew₁ drainConnections pageCache) c
      s.kernel) none
    simp only [Files.holdsDescriptor, hr, Option.isSome_some, Bool.false_eq_true, ↓reduceIte] at h
    have hdrain : (Build.prefetch accessInfoNew₁ drainConnections pageCache).drainConnections =
        some drainConnections := rfl
    simp only [Files.qps, Files.dropHandler_pool_of_drain_error hdrain hr he]
    omega

end Prefetch

/-- One open file with a fresh handler and a pool of one connection. The descriptor the file
fetches has no VMA, and `AccessInfo::new` fails: the resume returns `-1` and the connection
is gone. -/
theorem qps_lost_by_failed_resume_one_file :
    let mi : RDMADescriptor := ⟨73, 1, ⟨List.replicate 16 0, rfl⟩, 0, 0xdeadbeaf, 0, 0, 0⟩
    let p : ParentDescriptor := ⟨⟨⟨List.replicate 21 0, rfl⟩, 0, 0⟩, [], [], mi⟩
    let bytes : BytesMut := ⟨0, 300, by decide⟩
    let m := Memory.write (fun _ => 0) bytes.ptr p.image
    let s : Files DCAsyncPrefetcher := ⟨[some CallerData.default],
      ⟨Heap.empty, RemotePageTableCache.empty, ⟨[⟨0⟩]⟩, ShadowProcessService.new⟩⟩
    s.handlers[0]? = some (some CallerData.default) ∧ Files.qps s = 1 ∧
      ∃ s', Files.step (Build.prefetch (fun _ => none) (fun _ => .error .pollCQError) false)
          (fun _ => none) (.resumeRemote 0 1 7 (some (bytes, m))) s = .ok (-1, s') ∧
        Files.qps s' + 1 = Files.qps s := by
  intro mi p bytes m s
  have hlen : p.vma.length = p.pageTable.length := rfl
  have hparts : ChildDescriptor.deserializeParts bytes m s.kernel.heap =
      .ok (some (p.regs, (RemotePageTable.new Heap.empty).1, [], mi,
        (RemotePageTable.new Heap.empty).2)) := by
    have hfit : p.image.length ≤ bytes.len := by
      rw [ParentDescriptor.length_image]
      decide
    rw [ChildDescriptor.deserializeParts_eq p hlen bytes m (Memory.stores_write _ _ _) hfit]
    rfl
  exact ⟨rfl, rfl, (qps_lost_by_failed_resume_or_drain _ _ _ false s rfl).1 1 7 bytes m _ _ _ _ _
    rfl hparts (by decide) (.inl rfl)⟩

end Mitosis
