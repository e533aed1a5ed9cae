import Mitosis.ShadowProcess.Service

/-!
# The system call handler: prepare, and the unregistration on close

Each open of the device makes a `MitosisSysCallHandler` with its own `CallerData`. A handler
prepares at most one process: `syscall_prepare` registers the calling task under a key, and
closing the handler (`drop`) unregisters it unless it is a ping image. The other work of
`drop` (caching the page table, draining the prefetcher, freeing eagerly fetched pages) reads
only what a resume left in `resume_related`, which a handler that only prepared has not got.

A prepare takes one DC target from the `DCTargetPool`; the unregistration drops the bundle
with its target and gives nothing back. So every prepare and close costs the pool a target
for good, and once the pool is empty the next prepare panics in
`new_from_dc_target_pool`'s `expect`.
-/
namespace Mitosis
open OsNetwork

/-- The task that makes a system call: its VMAs with their page walks, its registers, and the
copies of its pages that `ShadowProcess::new_copy` makes. -/
structure Task where
  vmas : List (VMA × List (Pte × VirtAddrType))
  regs : RegDescriptor
  copyPage : VirtAddrType → Option PhyAddrType

/-- The constructor of the shadow process the build uses: `new_cow` under the `cow` feature. -/
def Task.newProcess (task : Task) (cow : Bool) : RDMADescriptor → Except String ParentDescriptor :=
  if cow then ShadowProcess.newCow task.vmas task.regs
  else ShadowProcess.newCopy task.copyPage task.vmas task.regs

/-- `CallerData`, generic in what a resume records (`ResumeDataStruct`). -/
structure CallerData (R : Type) where
  pingImg : Bool
  preparedKey : Option ℕ
  faultPageCnt : ℕ
  resumeRelated : Option R

namespace CallerData

variable {R : Type}

/-- `CallerData::default`. -/
def default : CallerData R := ⟨false, none, 0, none⟩

/-- The unregistration of `MitosisSysCallHandler::drop`: a prepared process is unregistered
unless it is a ping image. -/
def unregisterPrepared (self : CallerData R) (sps : ShadowProcessService) : ShadowProcessService :=
  match self.preparedKey with
  | some k => if !self.pingImg then sps.unregister k else sps
  | none => sps

end CallerData

section

variable {R A : Type} (mr : MrAllocator A) {C : ℕ} (hC : C < 2 ^ 64) (macId : UInt64)
  (cow : Bool)

/-- `syscall_prepare`: a handler prepares once; the `cow` feature picks `add_myself_cow`. -/
def syscallPrepare (task : Task) (key : ℕ) (pingImg : Bool) (self : CallerData R)
    (k : ParentKernel C A) : Except String (ℤ × CallerData R × ParentKernel C A) := do
  if self.preparedKey.isSome then return (-1, self, k)
  let self := { self with pingImg }
  let add := if cow then ShadowProcessService.addMyselfCow mr hC macId task.vmas task.regs key k
    else ShadowProcessService.addMyselfCopy mr hC macId task.copyPage task.vmas task.regs key k
  let (res, k) ← add
  if res.isNone then return (-1, self, k)
  return (0, { self with preparedKey := some key }, k)

/-- A handler opened by `task`, prepared under `key` as no ping image, and closed; it holds no
resume data. -/
def prepareAndClose (task : Task) (key : ℕ) (k : ParentKernel C A) :
    Except String (ParentKernel C A) := do
  let (_, self, k) ← syscallPrepare mr hC macId cow task key false
    (CallerData.default : CallerData Unit) k
  pure { k with sps := self.unregisterPrepared k.sps }

end

/-! ## One prepare and close -/

theorem syscallPrepare_add {A : Type} {mr : MrAllocator A} {C : ℕ} {hC : C < 2 ^ 64}
    {macId : UInt64} (cow : Bool) (task : Task) (key : ℕ) (k : ParentKernel C A) :
    (if cow then ShadowProcessService.addMyselfCow mr hC macId task.vmas task.regs key k
      else ShadowProcessService.addMyselfCopy mr hC macId task.copyPage task.vmas task.regs key k) =
      ShadowProcessService.addMyself mr hC macId (task.newProcess cow) key k := by
  cases cow <;> rfl

theorem Task.vma_length_of_newProcess {task : Task} {cow : Bool} {d : RDMADescriptor}
    {p : ParentDescriptor} (h : task.newProcess cow d = .ok p) : p.vma.length = p.pageTable.length := by
  cases cow
  all_goals
    simp only [Task.newProcess, Bool.false_eq_true, if_false, if_true, ShadowProcess.newCow,
      ShadowProcess.newCopy, bind_eq_ok] at h
    obtain ⟨tables, htables, h⟩ := h
    cases h
    simp [length_of_mapM_ok htables]

theorem ParentDescriptor.serialize_ok {p : ParentDescriptor} (hlen : p.vma.length = p.pageTable.length)
    (bytes : BytesMut) (m : Memory) : ∃ ok m', p.serialize bytes m = .ok (ok, m') := by
  by_cases hfit : bytes.len < p.serializationBufLen
  · exact ⟨false, m, serialize_of_lt hfit m⟩
  · exact ⟨true, _, serialize_eq p bytes m hlen (by omega)⟩

theorem ShadowProcessService.unregister_insert {R : AList fun _ : ℕ => ProcessBundler} {key : ℕ}
    (h : key ∉ R) (b : ProcessBundler) :
    (⟨R.insert key b⟩ : ShadowProcessService).unregister key = ⟨R⟩ := by
  have hk : key ∉ R.entries.keys := fun hk => h (AList.mem_keys.mpr hk)
  simp only [unregister, ShadowProcessService.mk.injEq]
  apply AList.ext
  simp [AList.erase, List.kerase_cons_eq, List.kerase_of_notMem_keys hk]

section

variable {A : Type} {mr : MrAllocator A} {C : ℕ} {hC : C < 2 ^ 64} {macId : UInt64}
  {cow : Bool}

/-- A prepare and close with a fresh key, a DC target and a buffer leaves the registry as it
was and has taken the last target and the last buffer. -/
theorem prepareAndClose_eq {task : Task} {key : ℕ} {k : ParentKernel C A}
    (hfresh : key ∉ k.sps.registeredProcesses) {t : DCTargetMeta}
    (ht : k.dcTargets.pool.getLast? = some t) {buf : UDMsg} (hb : k.memPool.pool.getLast? = some buf)
    {p : ParentDescriptor} (hp : task.newProcess cow (t.toDescriptor macId) = .ok p) :
    ∃ k', prepareAndClose mr hC macId cow task key k = .ok k' ∧ k'.sps = k.sps ∧
      k'.dcTargets.pool = k.dcTargets.pool.dropLast ∧ k'.memPool.pool = k.memPool.pool.dropLast := by
  obtain ⟨ok, m', hser⟩ := ParentDescriptor.serialize_ok (Task.vma_length_of_newProcess hp)
    buf.getBytesMut k.mem
  have hadd : ShadowProcessService.addMyself mr hC macId (task.newProcess cow) key k = _ :=
    ShadowProcessService.addMyself_of_fresh _ hfresh ht hb hp hser
  refine ⟨⟨k.sps, ⟨k.memPool.pool.dropLast, k.memPool.capacity,
      fun b hb => k.memPool.len_eq b (List.mem_of_mem_dropLast hb)⟩, k.mrs,
      ⟨k.dcTargets.pool.dropLast⟩, m'⟩, ?_, rfl, rfl, rfl⟩
  simp only [prepareAndClose, syscallPrepare, CallerData.default, Option.isSome_none,
    Bool.false_eq_true, if_false, syscallPrepare_add, hadd, ok_bind, Option.isNone_some]
  simp only [pure_bind, CallerData.unregisterPrepared, Bool.not_false, if_true,
    ShadowProcessService.unregister_insert hfresh]
  rfl

theorem syscallPrepare_of_empty_pool {R : Type} {task : Task} {key : ℕ} {pingImg : Bool}
    {k : ParentKernel C A} (hfresh : key ∉ k.sps.registeredProcesses) (hpool : k.dcTargets.pool = []) :
    syscallPrepare mr hC macId cow task key pingImg (CallerData.default : CallerData R) k =
      .error "failed to create a DCTarget from the pool" := by
  simp only [syscallPrepare, CallerData.default, Option.isSome_none, Bool.false_eq_true, if_false,
    syscallPrepare_add]
  simp [ShadowProcessService.addMyself, hfresh, RDMADescriptor.newFromDcTargetPool,
    DCTargetPool.popOne, hpool, expect]

/-! ## Runs of prepares and closes -/

/-- Preparing and closing, one after another, as many processes as the DC target pool holds
empties the pool although no process stays registered, and the next prepare panics: each close
drops its bundle's target instead of giving it back, so the targets in the pool plus the
registered processes fall by one with every prepare and close. The induction is on the
cycles; each keeps the registry and takes the last target and the last buffer. -/
theorem prepare_close_exhausts_targets (cycles : List (Task × ℕ)) : ∀ (k : ParentKernel C A),
    cycles.length = k.dcTargets.pool.length → cycles.length ≤ k.memPool.pool.length →
    (∀ c ∈ cycles, c.2 ∉ k.sps.registeredProcesses) →
    (∀ c ∈ cycles, ∀ d, ∃ p, c.1.newProcess cow d = .ok p) →
      ∃ k', cycles.foldlM (fun k c => prepareAndClose mr hC macId cow c.1 c.2 k) k = .ok k' ∧
        k'.sps = k.sps ∧ k'.dcTargets.pool = [] ∧
        ∀ task key pingImg, key ∉ k'.sps.registeredProcesses →
          syscallPrepare mr hC macId cow task key pingImg (CallerData.default : CallerData Unit) k' =
            .error "failed to create a DCTarget from the pool" := by
  induction cycles with
  | nil =>
    intro k hlen _ _ _
    have hpool : k.dcTargets.pool = [] := List.length_eq_zero_iff.mp hlen.symm
    exact ⟨k, rfl, rfl, hpool, fun _ _ _ hfresh => syscallPrepare_of_empty_pool hfresh hpool⟩
  | cons c rest ih =>
    intro k hlen hbuf hfresh hbuild
    have hdc : k.dcTargets.pool ≠ [] := fun h => by simp [h] at hlen
    have hmp : k.memPool.pool ≠ [] := fun h => by simp [h] at hbuf
    obtain ⟨p, hp⟩ := hbuild c List.mem_cons_self
      ((k.dcTargets.pool.getLast hdc).toDescriptor macId)
    obtain ⟨k₁, hstep, hsps, hdc₁, hmp₁⟩ := prepareAndClose_eq (hfresh c List.mem_cons_self)
      (List.getLast?_eq_some_getLast hdc) (List.getLast?_eq_some_getLast hmp) hp
    -- the rest of the run starts from a registry as it was, with one target and one buffer less
    obtain ⟨k', hrun, hsps', hpool', hpanic⟩ := ih k₁
      (by rw [hdc₁, List.length_dropLast]; simp at hlen; omega)
      (by rw [hmp₁, List.length_dropLast]; simp at hbuf; omega)
      (fun c' hc' => hsps ▸ hfresh c' (List.mem_cons_of_mem _ hc'))
      (fun c' hc' => hbuild c' (List.mem_cons_of_mem _ hc'))
    refine ⟨k', ?_, hsps'.trans hsps, hpool', hpanic⟩
    rw [List.foldlM_cons, hstep, ok_bind]
    exact hrun

end

/-- The failing input: one DC target, one buffer, and one process prepared under key `1` and
closed; the next prepare, with nothing registered, panics. -/
theorem prepare_close_exhausts_targets_one :
    let buf : UDMsg := ⟨0x2000, ⟨0x1000, 256, by decide⟩, 0⟩
    let t : DCTargetMeta := ⟨⟨1, 0, 0⟩, 0, 0, ⟨0, ⟨List.replicate 16 0, rfl⟩⟩⟩
    let k : ParentKernel 256 Unit :=
      ⟨ShadowProcessService.new, ⟨[buf], 1, fun b hb => by rw [List.mem_singleton.mp hb]; rfl⟩, (),
        ⟨[t]⟩, fun _ => 0⟩
    let task : Task := ⟨[], ⟨⟨List.replicate 21 0, rfl⟩, 0, 0⟩, fun _ => none⟩
    let mr : MrAllocator Unit := ⟨fun _ _ => none⟩
    [(task, 1)].length = k.dcTargets.pool.length ∧ [(task, 1)].length ≤ k.memPool.pool.length ∧
      (∀ c ∈ [(task, 1)], c.2 ∉ k.sps.registeredProcesses) ∧
      (∀ c ∈ [(task, 1)], ∀ d, ∃ p, c.1.newProcess true d = .ok p) ∧
      ∃ k', [(task, 1)].foldlM (fun k c => prepareAndClose mr (by decide) 0 true c.1 c.2 k) k =
          .ok k' ∧ k'.sps = k.sps ∧ k'.dcTargets.pool = [] ∧
        ∀ task key pingImg, key ∉ k'.sps.registeredProcesses →
          syscallPrepare mr (by decide) 0 true task key pingImg (CallerData.default : CallerData Unit)
            k' = .error "failed to create a DCTarget from the pool" := by
  intro buf t k task mr
  have hfresh : ∀ c ∈ [(task, 1)], c.2 ∉ k.sps.registeredProcesses := fun c _ => AList.notMem_empty _
  have hbuild : ∀ c ∈ [(task, 1)], ∀ d, ∃ p, c.1.newProcess true d = .ok p := by
    intro c hc d
    rw [List.mem_singleton.mp hc]
    exact ⟨_, rfl⟩
  exact ⟨rfl, le_rfl, hfresh, hbuild,
    prepare_close_exhausts_targets [(task, 1)] k rfl le_rfl hfresh hbuild⟩

end Mitosis
