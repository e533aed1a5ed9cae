import Mitosis.ShadowProcess.Vma
import Mitosis.Descriptors.ChildRoundTrip

/-!
# From the parent's page walks to the child's page table

A generator records the page at `addr` of a VMA starting at `start` as the entry
`((addr - start) as u32, value)`; the child maps that entry at `offset as u64 + start`.
The two agree while `addr - start` fits the `u32` offset, so for every VMA of at most
4 GiB. For VMAs as the kernel keeps them (page-aligned bounds in the lower half, pairwise
disjoint), and walks that name distinct pages of their VMA, the child that
`ChildDescriptor::deserialize` makes from the serialized descriptor of `new_cow` or
`new_copy` translates every address of a VMA to the value recorded for its page, and to
nothing when the walk met no present entry there (`fork_translates_recorded`). Past 4 GiB
the offset wraps and a high page lands on a low one (`newCow_large_vma_loses_page`).
-/
namespace Mitosis
open OsNetwork X86_64

/-! ## What the kernel guarantees -/

namespace VMA

/-- A user VMA as the kernel keeps it: page-aligned bounds in the lower half of the
address space. -/
def UserRange (v : VMA) : Prop :=
  v.vmStart.toNat % 4096 = 0 ∧ v.vmEnd.toNat % 4096 = 0 ∧ v.vmEnd.toNat ≤ 2 ^ 47

instance (v : VMA) : Decidable v.UserRange := inferInstanceAs (Decidable (_ ∧ _))

/-- What `walk_page_range` hands to `handle_pte_entry`: distinct page-aligned addresses
of the VMA. -/
def WalkOf (v : VMA) (walk : List (Pte × VirtAddrType)) : Prop :=
  (∀ e ∈ walk, v.vmStart ≤ e.2 ∧ e.2 < v.vmEnd ∧ e.2.toNat % 4096 = 0) ∧
    (walk.map Prod.snd).Nodup

instance (v : VMA) (walk : List (Pte × VirtAddrType)) : Decidable (v.WalkOf walk) :=
  have : Decidable (∀ e ∈ walk, v.vmStart ≤ e.2 ∧ e.2 < v.vmEnd ∧ e.2.toNat % 4096 = 0) :=
    List.decidableBAll _ _
  inferInstanceAs (Decidable (_ ∧ _))

/-- Two VMAs do not overlap. -/
def Disjoint (v w : VMA) : Prop := v.vmEnd ≤ w.vmStart ∨ w.vmEnd ≤ v.vmStart

instance (v w : VMA) : Decidable (v.Disjoint w) := inferInstanceAs (Decidable (_ ∨ _))

theorem UserRange.page_mem {v : VMA} (hv : v.UserRange) {a : VirtAddrType}
    (h₁ : v.vmStart ≤ a) (h₂ : a < v.vmEnd) :
    v.vmStart.toNat / 4096 ≤ a.toNat / 4096 ∧ a.toNat / 4096 < v.vmEnd.toNat / 4096 := by
  have h₁' := UInt64.le_iff_toNat_le.mp h₁
  have h₂' := UInt64.lt_iff_toNat_lt.mp h₂
  have := hv.2.1
  exact ⟨Nat.div_le_div_right h₁', by omega⟩

/-- Addresses of two disjoint user VMAs lie in different pages. -/
theorem Disjoint.page_ne {v w : VMA} (hd : v.Disjoint w) (hv : v.UserRange) (hw : w.UserRange)
    {a b : VirtAddrType} (ha₁ : v.vmStart ≤ a) (ha₂ : a < v.vmEnd) (hb₁ : w.vmStart ≤ b)
    (hb₂ : b < w.vmEnd) : a.toNat / 4096 ≠ b.toNat / 4096 := by
  have ha := hv.page_mem ha₁ ha₂
  have hb := hw.page_mem hb₁ hb₂
  rcases hd with hd | hd
  · -- `v` ends where `w` starts or before
    have := Nat.div_le_div_right (c := 4096) (UInt64.le_iff_toNat_le.mp hd)
    omega
  · have := Nat.div_le_div_right (c := 4096) (UInt64.le_iff_toNat_le.mp hd)
    omega

end VMA

/-- The VMAs of a process and the walks of their page tables, as the kernel hands them to
the shadow process. -/
def KernelVMAs (vmas : List (VMA × List (Pte × VirtAddrType))) : Prop :=
  (∀ vw ∈ vmas, vw.1.UserRange ∧ vw.1.WalkOf vw.2) ∧ vmas.Pairwise fun x y => x.1.Disjoint y.1

instance (vmas : List (VMA × List (Pte × VirtAddrType))) : Decidable (KernelVMAs vmas) :=
  have : Decidable (∀ vw ∈ vmas, vw.1.UserRange ∧ vw.1.WalkOf vw.2) := List.decidableBAll _ _
  inferInstanceAs (Decidable (_ ∧ _))

/-! ## What the generators record -/

/-- The entries of a walk that a generator records: those that hold a frame. -/
def presentEntries (walk : List (Pte × VirtAddrType)) : List (Pte × VirtAddrType) :=
  walk.filter fun e => 0 < pmemGetPhyFromPte e.1

/-- The compact table a generator leaves for a walk of a VMA starting at `start`: the
entry `((addr - start) as u32, value e)` for every present entry `e` at `addr`, in order. -/
def recordedTable (start : VirtAddrType) (value : Pte × VirtAddrType → Value)
    (walk : List (Pte × VirtAddrType)) : List (Offset × Value) :=
  (presentEntries walk).map fun e => (UInt32.ofNat (e.2.toNat - start.toNat), value e)

/-- The parent descriptor a generator builds, for the value it records of each entry. -/
def recordedDescriptor (value : VMA → Pte × VirtAddrType → Value)
    (vmas : List (VMA × List (Pte × VirtAddrType))) (regs : RegDescriptor)
    (rdmaDescriptor : RDMADescriptor) : ParentDescriptor :=
  ⟨regs, vmas.map fun vw => ⟨recordedTable vw.1.getStart (value vw.1) vw.2⟩,
    vmas.map (·.1.generateDescriptor), rdmaDescriptor⟩

@[simp] theorem mem_presentEntries {e : Pte × VirtAddrType} {walk : List (Pte × VirtAddrType)} :
    e ∈ presentEntries walk ↔ e ∈ walk ∧ 0 < pmemGetPhyFromPte e.1 := by
  simp [presentEntries]

theorem recordedDescriptor_vma_length (value : VMA → Pte × VirtAddrType → Value)
    (vmas : List (VMA × List (Pte × VirtAddrType))) (regs : RegDescriptor)
    (rdmaDescriptor : RDMADescriptor) :
    (recordedDescriptor value vmas regs rdmaDescriptor).vma.length =
      (recordedDescriptor value vmas regs rdmaDescriptor).pageTable.length := by
  simp [recordedDescriptor]

@[simp] theorem presentEntries_cons (e : Pte × VirtAddrType) (walk : List (Pte × VirtAddrType)) :
    presentEntries (e :: walk) =
      if 0 < pmemGetPhyFromPte e.1 then e :: presentEntries walk else presentEntries walk := by
  by_cases hp : 0 < pmemGetPhyFromPte e.1 <;> simp [presentEntries, hp]

theorem recordEntry_of_le (vma : ShadowVMA) (t : CompactPageTable) {addr : VirtAddrType}
    (hle : vma.vmaInner.getStart ≤ addr) (v : Value) :
    recordEntry vma t addr v =
      .ok ⟨t.innerPgTable ++ [(UInt32.ofNat (addr.toNat - vma.vmaInner.getStart.toNat), v)]⟩ := by
  rw [recordEntry, checkedSub_of_le (UInt64.le_iff_toNat_le.mp hle)]
  rfl

theorem VMACOWPTGenerator.entryValue_ne_zero (vma : ShadowVMA) {pte : Pte}
    (hp : 0 < pmemGetPhyFromPte pte) : entryValue vma pte ≠ 0 := by
  have hne : pmemGetPhyFromPte pte ≠ 0 := fun h0 => by simp [h0] at hp
  have hor : pmemGetPhyFromPte pte ||| (PhysAddrBitFlag.readOnly.toU64 &&& PhysAddrBitFlag.mask) ≠ 0 :=
    fun h0 => hne (UInt64.or_eq_zero_iff.mp h0).1
  simp only [entryValue, PhysAddr.encode]
  split_ifs <;> assumption

theorem VMACOWPTGenerator.generate_eq (vma : ShadowVMA) (walk : List (Pte × VirtAddrType))
    (t : CompactPageTable) (hle : ∀ e ∈ walk, vma.vmaInner.getStart ≤ e.2) :
    generate vma walk t = .ok ⟨t.innerPgTable ++
      recordedTable vma.vmaInner.getStart (fun e => entryValue vma e.1) walk⟩ := by
  induction walk generalizing t with
  | nil => simp [generate, recordedTable, presentEntries]; rfl
  | cons e walk ih =>
    obtain ⟨pte, addr⟩ := e
    have hrest := fun t => ih t fun e he => hle e (List.mem_cons_of_mem _ he)
    by_cases hp : 0 < pmemGetPhyFromPte pte
    · -- a present entry is recorded, then the walk goes on
      have hrec := recordEntry_of_le vma t (hle _ List.mem_cons_self) (entryValue vma pte)
      simp only [generate, handlePteEntry, gt_iff_lt, if_pos hp, hrec, ok_bind, hrest]
      simp [recordedTable, hp]
    · simp only [generate, handlePteEntry, gt_iff_lt, if_neg hp, hrest]
      simp [recordedTable, hp]

theorem VMACopyPTGenerator.generate_eq (copyPage : VirtAddrType → Option PhyAddrType)
    (vma : ShadowVMA) (walk : List (Pte × VirtAddrType)) (t : CompactPageTable)
    (hle : ∀ e ∈ walk, vma.vmaInner.getStart ≤ e.2)
    (hcopy : ∀ e ∈ presentEntries walk, ∃ x, copyPage e.2 = some x) :
    generate copyPage vma walk t = .ok ⟨t.innerPgTable ++
      recordedTable vma.vmaInner.getStart (fun e => (copyPage e.2).getD 0) walk⟩ := by
  induction walk generalizing t with
  | nil => simp [generate, recordedTable, presentEntries]; rfl
  | cons e walk ih =>
    obtain ⟨pte, addr⟩ := e
    by_cases hp : 0 < pmemGetPhyFromPte pte
    · -- a present entry is copied and the copy recorded
      rw [presentEntries_cons, if_pos hp] at hcopy
      obtain ⟨x, hx⟩ := hcopy _ List.mem_cons_self
      have hrec := recordEntry_of_le vma t (hle _ List.mem_cons_self) x
      have hrest := fun t => ih t (fun e he => hle e (List.mem_cons_of_mem _ he))
        (fun e he => hcopy e (List.mem_cons_of_mem _ he))
      simp only [generate, handlePteEntry, gt_iff_lt, if_pos hp, hx, expect_some, ok_bind, hrec,
        hrest]
      simp [recordedTable, hp, hx]
    · rw [presentEntries_cons, if_neg hp] at hcopy
      have hrest := fun t => ih t (fun e he => hle e (List.mem_cons_of_mem _ he)) hcopy
      simp only [generate, handlePteEntry, gt_iff_lt, if_neg hp, hrest, pure_bind]
      simp [recordedTable, hp]

/-- The present entries of a walk lie in pairwise different pages. -/
theorem VMA.WalkOf.pages_nodup {v : VMA} {walk : List (Pte × VirtAddrType)} (hw : v.WalkOf walk) :
    ((presentEntries walk).map fun e => e.2.toNat / 4096).Nodup := by
  -- distinct page-aligned addresses name distinct pages
  have hinj : ∀ a ∈ walk.map Prod.snd, ∀ b ∈ walk.map Prod.snd,
      a.toNat / 4096 = b.toNat / 4096 → a = b := by
    intro a ha b hb hab
    obtain ⟨e, he, rfl⟩ := List.mem_map.mp ha
    obtain ⟨e', he', rfl⟩ := List.mem_map.mp hb
    have h₁ := (hw.1 e he).2.2
    have h₂ := (hw.1 e' he').2.2
    exact UInt64.toNat_inj.mp (by omega)
  have hall : (walk.map fun e => e.2.toNat / 4096).Nodup := by
    simpa [List.map_map, Function.comp_def] using hw.2.map_on hinj
  exact hall.sublist (List.filter_sublist.map _)

namespace ShadowProcess

variable (vmas : List (VMA × List (Pte × VirtAddrType))) (regs : RegDescriptor)
  (rdmaDescriptor : RDMADescriptor)

theorem newCow_eq (hle : ∀ vw ∈ vmas, ∀ e ∈ vw.2, vw.1.getStart ≤ e.2) :
    newCow vmas regs rdmaDescriptor = .ok (recordedDescriptor
      (fun v e => VMACOWPTGenerator.entryValue ⟨v, true⟩ e.1) vmas regs rdmaDescriptor) := by
  rw [newCow, mapM_of_ok fun vw hvw =>
    VMACOWPTGenerator.generate_eq ⟨vw.1, true⟩ vw.2 ⟨[]⟩ (hle vw hvw)]
  rfl

theorem newCopy_eq (copyPage : VirtAddrType → Option PhyAddrType)
    (hle : ∀ vw ∈ vmas, ∀ e ∈ vw.2, vw.1.getStart ≤ e.2)
    (hcopy : ∀ vw ∈ vmas, ∀ e ∈ presentEntries vw.2, ∃ x, copyPage e.2 = some x) :
    newCopy copyPage vmas regs rdmaDescriptor = .ok (recordedDescriptor
      (fun _ e => (copyPage e.2).getD 0) vmas regs rdmaDescriptor) := by
  rw [newCopy, mapM_of_ok fun vw hvw =>
    VMACopyPTGenerator.generate_eq copyPage ⟨vw.1, false⟩ vw.2 ⟨[]⟩ (hle vw hvw) (hcopy vw hvw)]
  rfl

end ShadowProcess

/-! ## The child maps what the walks recorded -/

theorem offset_toNat_add_start {start addr : VirtAddrType} (hle : start ≤ addr)
    (hlt : addr.toNat - start.toNat < 2 ^ 32) :
    (UInt32.ofNat (addr.toNat - start.toNat)).toNat + start.toNat = addr.toNat := by
  rw [UInt32.toNat_ofNat_of_lt' hlt]
  have := UInt64.le_iff_toNat_le.mp hle
  omega

theorem mappedEntriesOf_recordedTable {start : VirtAddrType} {value : Pte × VirtAddrType → Value}
    {walk : List (Pte × VirtAddrType)}
    (hrange : ∀ e ∈ walk, start ≤ e.2 ∧ e.2.toNat - start.toNat < 2 ^ 32) :
    ParentDescriptor.mappedEntriesOf start (recordedTable start value walk) =
      (presentEntries walk).map fun e => (e.2, value e) := by
  rw [ParentDescriptor.mappedEntriesOf, recordedTable, List.map_map]
  refine List.map_congr_left fun e he => ?_
  obtain ⟨hle, hlt⟩ := hrange e (mem_presentEntries.mp he).1
  simp only [Function.comp, offset_toNat_add_start hle hlt, UInt64.ofNat_toNat]

section

variable (value : VMA → Pte × VirtAddrType → Value) {vmas : List (VMA × List (Pte × VirtAddrType))}
  (regs : RegDescriptor) (rdmaDescriptor : RDMADescriptor)

theorem KernelVMAs.offsets_lt (hk : KernelVMAs vmas)
    (hsize : ∀ vw ∈ vmas, vw.1.vmEnd.toNat - vw.1.vmStart.toNat ≤ 2 ^ 32) :
    ∀ vw ∈ vmas, ∀ e ∈ vw.2, vw.1.vmStart ≤ e.2 ∧ e.2.toNat - vw.1.vmStart.toNat < 2 ^ 32 := by
  intro vw hvw e he
  obtain ⟨h₁, h₂, -⟩ := (hk.1 vw hvw).2.1 e he
  have := UInt64.lt_iff_toNat_lt.mp h₂
  have := UInt64.le_iff_toNat_le.mp h₁
  have := hsize vw hvw
  exact ⟨h₁, by omega⟩

theorem recordedDescriptor_mappedEntries
    (hrange : ∀ vw ∈ vmas, ∀ e ∈ vw.2, vw.1.vmStart ≤ e.2 ∧ e.2.toNat - vw.1.vmStart.toNat < 2 ^ 32) :
    (recordedDescriptor value vmas regs rdmaDescriptor).mappedEntries =
      vmas.flatMap fun vw => (presentEntries vw.2).map fun e => (e.2, value vw.1 e) := by
  simp only [ParentDescriptor.mappedEntries, recordedDescriptor, List.zip_map', List.flatMap_map]
  exact List.flatMap_congr fun vw hvw => mappedEntriesOf_recordedTable (hrange vw hvw)

/-- The entry addresses of a generator's descriptor are the walks' addresses, which lie in
the lower half. -/
theorem recordedDescriptor_entryAddrsCanonical (hk : KernelVMAs vmas)
    (hsize : ∀ vw ∈ vmas, vw.1.vmEnd.toNat - vw.1.vmStart.toNat ≤ 2 ^ 32) :
    (recordedDescriptor value vmas regs rdmaDescriptor).EntryAddrsCanonical := by
  intro vt hvt o ho
  simp only [recordedDescriptor, List.zip_map', List.mem_map] at hvt
  obtain ⟨vw, hvw, rfl⟩ := hvt
  obtain ⟨e, he, rfl⟩ := List.mem_map.mp ho
  have hmem := (mem_presentEntries.mp he).1
  obtain ⟨hle, hlt⟩ := hk.offsets_lt hsize vw hvw e hmem
  have hend := UInt64.lt_iff_toNat_lt.mp ((hk.1 vw hvw).2.1 e hmem).2.1
  have hlow := (hk.1 vw hvw).1.2.2
  dsimp only [VMADescriptor.getStart, VMA.generateDescriptor, VMA.getStart]
  rw [offset_toNat_add_start hle hlt, UInt64.ofNat_toNat, canonical_iff]
  exact ⟨by omega, .inl (by omega)⟩

/-- No two present entries of the walks of a process lie in one page. -/
theorem KernelVMAs.pages_nodup (hk : KernelVMAs vmas) :
    ((vmas.flatMap fun vw => (presentEntries vw.2).map fun e => (e.2, value vw.1 e)).map
      fun x => x.1.toNat / 4096).Nodup := by
  rw [List.map_flatMap, List.nodup_flatMap]
  refine ⟨fun vw hvw => ?_, hk.2.imp_of_mem fun {x y} hx hy hd => ?_⟩
  · simpa [List.map_map, Function.comp_def] using (hk.1 vw hvw).2.pages_nodup
  · -- the walks of two disjoint VMAs name pages of their own VMA
    intro k hkx hky
    simp only [List.map_map, List.mem_map, Function.comp] at hkx hky
    obtain ⟨e, he, rfl⟩ := hkx
    obtain ⟨e', he', hee'⟩ := hky
    obtain ⟨hx₁, hx₂, -⟩ := (hk.1 x hx).2.1 e (mem_presentEntries.mp he).1
    obtain ⟨hy₁, hy₂, -⟩ := (hk.1 y hy).2.1 e' (mem_presentEntries.mp he').1
    exact VMA.Disjoint.page_ne hd (hk.1 x hx).1 (hk.1 y hy).1 hx₁ hx₂ hy₁ hy₂ hee'.symm

end

section

variable [Paging]

/-- The child's table translates as the walks recorded: every address in the page of a
present entry to the value recorded for that entry, and every other address of a VMA to
nothing. -/
def TranslatesRecorded (value : VMA → Pte × VirtAddrType → Value)
    (vmas : List (VMA × List (Pte × VirtAddrType))) (T : RemotePageTable) (h : Heap PageTable) :
    Prop :=
  (∀ vw ∈ vmas, ∀ e ∈ presentEntries vw.2, ∀ b : VirtAddr, b.val.toNat / 4096 = e.2.toNat / 4096 →
    T.translate h b = some (PhysAddr.new (value vw.1 e))) ∧
  ∀ vw ∈ vmas, ∀ b : VirtAddr, vw.1.vmStart ≤ b.val → b.val < vw.1.vmEnd →
    (∀ e ∈ presentEntries vw.2, e.2.toNat / 4096 ≠ b.val.toNat / 4096) → T.translate h b = none

variable (value : VMA → Pte × VirtAddrType → Value) {vmas : List (VMA × List (Pte × VirtAddrType))}
  (regs : RegDescriptor) (rdmaDescriptor : RDMADescriptor)

/-- For VMAs of at most 4 GiB as the kernel keeps them, and non-zero recorded values, the
child of a generator's descriptor translates as the walks recorded. -/
theorem recordedDescriptor_translatesRecorded (hk : KernelVMAs vmas)
    (hsize : ∀ vw ∈ vmas, vw.1.vmEnd.toNat - vw.1.vmStart.toNat ≤ 2 ^ 32)
    (hvalue : ∀ vw ∈ vmas, ∀ e ∈ presentEntries vw.2, value vw.1 e ≠ 0) (bytes : BytesMut)
    (hbuf : (recordedDescriptor value vmas regs rdmaDescriptor).serializationBufLen ≤ bytes.len)
    (m : Memory) {h : Heap PageTable} (hwf : HeapWF h) :
    ∃ m', (recordedDescriptor value vmas regs rdmaDescriptor).serialize bytes m = .ok (true, m') ∧
      ∃ c hc, ChildDescriptor.deserialize bytes m' h = .ok (some (c, hc)) ∧
        TranslatesRecorded value vmas c.pageTable hc := by
  have hentries := recordedDescriptor_mappedEntries value regs rdmaDescriptor (hk.offsets_lt hsize)
  have hnd := hk.pages_nodup value
  rw [← hentries] at hnd
  obtain ⟨m', hser, c, hc, hdes, htr⟩ := ChildDescriptor.deserialize_translate_eq _
    (recordedDescriptor_vma_length value vmas regs rdmaDescriptor)
    (recordedDescriptor_entryAddrsCanonical value regs rdmaDescriptor hk hsize) hnd bytes hbuf m hwf
  refine ⟨m', hser, c, hc, hdes, ?_, ?_⟩
  · -- the lookup of a present entry's page finds that entry
    intro vw hvw e he b hb
    have hmem : (e.2, value vw.1 e) ∈
        (recordedDescriptor value vmas regs rdmaDescriptor).mappedEntries :=
      hentries ▸ List.mem_flatMap.mpr ⟨vw, hvw, List.mem_map.mpr ⟨e, he, rfl⟩⟩
    have hfind : (recordedDescriptor value vmas regs rdmaDescriptor).mappedEntries.find?
        (fun x => x.1.toNat / 4096 = e.2.toNat / 4096) = some (e.2, value vw.1 e) :=
      PartialMap.find?_key_eq_of_mem hnd hmem
    rw [htr b, hb, hfind, Option.bind_some, PartialMap.ofValue_of_ne_zero (hvalue vw hvw e he),
      Option.map_some]
  · -- an entry in the page of `b` comes from the VMA of `b`, which has none there
    intro vw hvw b hb₁ hb₂ hnone
    rw [htr b, List.find?_eq_none.mpr, Option.bind_none, Option.map_none]
    intro x hx hkey
    rw [hentries] at hx
    obtain ⟨w, hw, hxw⟩ := List.mem_flatMap.mp hx
    obtain ⟨e, he, rfl⟩ := List.mem_map.mp hxw
    have hpage : e.2.toNat / 4096 = b.val.toNat / 4096 := of_decide_eq_true hkey
    by_cases hsame : w = vw
    · exact hnone e (hsame ▸ he) hpage
    · have : Std.Symm fun x y : VMA × List (Pte × VirtAddrType) => x.1.Disjoint y.1 :=
        ⟨fun _ _ hd => Or.symm hd⟩
      obtain ⟨he₁, he₂, -⟩ := (hk.1 w hw).2.1 e (mem_presentEntries.mp he).1
      exact VMA.Disjoint.page_ne (hk.2.forall hw hvw hsame) (hk.1 w hw).1 (hk.1 vw hvw).1
        he₁ he₂ hb₁ hb₂ hpage

/-- Parent-to-child address preservation. For VMAs as the kernel keeps them, each of at most
4 GiB, with walks that name distinct pages of their VMA, `new_cow` succeeds, and so does
`new_copy` when every copy gets a non-zero frame. Serializing either descriptor into a
buffer of `serialization_buf_len` bytes or more and `ChildDescriptor::deserialize` give a
child whose table translates every address of a VMA to the value recorded for its page,
and to nothing when the walk met no present entry there. -/
theorem fork_translates_recorded (vmas : List (VMA × List (Pte × VirtAddrType)))
    (hk : KernelVMAs vmas) (hsize : ∀ vw ∈ vmas, vw.1.vmEnd.toNat - vw.1.vmStart.toNat ≤ 2 ^ 32)
    (regs : RegDescriptor) (rdmaDescriptor : RDMADescriptor) (m : Memory) {h : Heap PageTable}
    (hwf : HeapWF h) :
    (∃ p, ShadowProcess.newCow vmas regs rdmaDescriptor = .ok p ∧
      ∀ bytes : BytesMut, p.serializationBufLen ≤ bytes.len →
        ∃ m', p.serialize bytes m = .ok (true, m') ∧ ∃ c hc,
          ChildDescriptor.deserialize bytes m' h = .ok (some (c, hc)) ∧
          TranslatesRecorded (fun v e => VMACOWPTGenerator.entryValue ⟨v, true⟩ e.1) vmas
            c.pageTable hc) ∧
    ∀ copyPage : VirtAddrType → Option PhyAddrType,
      (∀ vw ∈ vmas, ∀ e ∈ presentEntries vw.2, ∃ x, copyPage e.2 = some x ∧ x ≠ 0) →
      ∃ p, ShadowProcess.newCopy copyPage vmas regs rdmaDescriptor = .ok p ∧
        ∀ bytes : BytesMut, p.serializationBufLen ≤ bytes.len →
          ∃ m', p.serialize bytes m = .ok (true, m') ∧ ∃ c hc,
            ChildDescriptor.deserialize bytes m' h = .ok (some (c, hc)) ∧
            TranslatesRecorded (fun _ e => (copyPage e.2).getD 0) vmas c.pageTable hc := by
  have hle : ∀ vw ∈ vmas, ∀ e ∈ vw.2, vw.1.getStart ≤ e.2 :=
    fun vw hvw e he => ((hk.1 vw hvw).2.1 e he).1
  refine ⟨⟨_, ShadowProcess.newCow_eq vmas regs rdmaDescriptor hle, fun bytes hbuf => ?_⟩,
    fun copyPage hcopy => ⟨_, ShadowProcess.newCopy_eq vmas regs rdmaDescriptor copyPage hle
      (fun vw hvw e he => (hcopy vw hvw e he).imp fun _ hx => hx.1), fun bytes hbuf => ?_⟩⟩
  · -- a present entry keeps its frame, flagged or not
    refine recordedDescriptor_translatesRecorded _ regs rdmaDescriptor hk hsize
      (fun vw _ e he => ?_) bytes hbuf m hwf
    exact VMACOWPTGenerator.entryValue_ne_zero _ (mem_presentEntries.mp he).2
  · -- a copied entry records its copy's frame
    refine recordedDescriptor_translatesRecorded _ regs rdmaDescriptor hk hsize
      (fun vw hvw e he => ?_) bytes hbuf m hwf
    obtain ⟨x, hx, hx0⟩ := hcopy vw hvw e he
    simpa [hx] using hx0

end

/-- A writable VMA whose walk meets a hole, and a read-only VMA above it, on the crate's
functions. -/
theorem fork_translates_recorded_two_vmas :
    let vmas : List (VMA × List (Pte × VirtAddrType)) :=
      [(⟨0x1000, 0x4000, 0, 0, true, true⟩,
          [(⟨0x5067, true⟩, 0x1000), (⟨0, false⟩, 0x2000), (⟨0x6025, false⟩, 0x3000)]),
        (⟨0x10000, 0x12000, 0, 0, false, false⟩, [(⟨0x7025, false⟩, 0x11000)])]
    let regs : RegDescriptor := ⟨⟨List.replicate 21 0, rfl⟩, 0, 0⟩
    let rdma : RDMADescriptor := ⟨73, 1, ⟨List.replicate 16 0, rfl⟩, 0, 0xdeadbeaf, 0, 0, 0⟩
    KernelVMAs vmas ∧ (∀ vw ∈ vmas, vw.1.vmEnd.toNat - vw.1.vmStart.toNat ≤ 2 ^ 32) ∧
      HeapWF Heap.empty ∧
      (∃ p, ShadowProcess.newCow vmas regs rdma = .ok p ∧
        ∀ bytes : BytesMut, p.serializationBufLen ≤ bytes.len →
          ∃ m', p.serialize bytes (fun _ => 0) = .ok (true, m') ∧ ∃ c hc,
            ChildDescriptor.deserialize bytes m' Heap.empty = .ok (some (c, hc)) ∧
            TranslatesRecorded (fun v e => VMACOWPTGenerator.entryValue ⟨v, true⟩ e.1) vmas
              c.pageTable hc) ∧
      ∀ copyPage : VirtAddrType → Option PhyAddrType,
        (∀ vw ∈ vmas, ∀ e ∈ presentEntries vw.2, ∃ x, copyPage e.2 = some x ∧ x ≠ 0) →
        ∃ p, ShadowProcess.newCopy copyPage vmas regs rdma = .ok p ∧
          ∀ bytes : BytesMut, p.serializationBufLen ≤ bytes.len →
            ∃ m', p.serialize bytes (fun _ => 0) = .ok (true, m') ∧ ∃ c hc,
              ChildDescriptor.deserialize bytes m' Heap.empty = .ok (some (c, hc)) ∧
              TranslatesRecorded (fun _ e => (copyPage e.2).getD 0) vmas c.pageTable hc :=
  ⟨by decide, by decide, heapWF_empty,
    fork_translates_recorded _ (by decide) (by decide) _ _ _ heapWF_empty⟩

/-- A VMA of 4 GiB and a page, whose walk meets its first and its last page, both present.
Both offsets are `0` as `u32`, so the child maps the first page twice and the last page not
at all. -/
theorem newCow_large_vma_loses_page :
    let vmas : List (VMA × List (Pte × VirtAddrType)) :=
      [(⟨0x1000, 0x100002000, 0, 0, true, false⟩,
        [(⟨0x5000, false⟩, 0x1000), (⟨0x6000, false⟩, 0x100001000)])]
    let regs : RegDescriptor := ⟨⟨List.replicate 21 0, rfl⟩, 0, 0⟩
    let rdma : RDMADescriptor := ⟨73, 1, ⟨List.replicate 16 0, rfl⟩, 0, 0xdeadbeaf, 0, 0, 0⟩
    let bytes : BytesMut := ⟨0, 4096, by decide⟩
    KernelVMAs vmas ∧ 0 < pmemGetPhyFromPte ⟨0x6000, false⟩ ∧
      ∃ p, ShadowProcess.newCow vmas regs rdma = .ok p ∧ p.serializationBufLen ≤ bytes.len ∧
        ∃ m', p.serialize bytes (fun _ => 0) = .ok (true, m') ∧
          (ChildDescriptor.deserialize bytes m' Heap.empty).map (fun r => r.map fun r =>
            r.1.pageTable.translate r.2 ⟨0x100001000, by decide⟩) = .ok (some none) := by
  intro vmas regs rdma bytes
  have hle : ∀ vw ∈ vmas, ∀ e ∈ vw.2, vw.1.getStart ≤ e.2 := by decide
  have hlen := recordedDescriptor_vma_length
    (fun v e => VMACOWPTGenerator.entryValue ⟨v, true⟩ e.1) vmas regs rdma
  have hbuf : (recordedDescriptor (fun v e => VMACOWPTGenerator.entryValue ⟨v, true⟩ e.1)
      vmas regs rdma).serializationBufLen ≤ bytes.len := by decide
  have hbuf' := ParentDescriptor.serializationBufLen_eq _ hlen
  refine ⟨by decide, by decide, _, ShadowProcess.newCow_eq vmas regs rdma hle, hbuf, _,
    ParentDescriptor.serialize_eq _ bytes _ hlen hbuf, ?_⟩
  rw [ChildDescriptor.deserialize_eq_toDescriptor _ hlen bytes _ (Memory.stores_write _ _ _)
    (by omega)]
  rfl

end Mitosis
