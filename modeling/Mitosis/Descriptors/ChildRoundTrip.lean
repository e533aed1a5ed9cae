import Mitosis.Descriptors.Child
import Mitosis.Descriptors.ParentRoundTrip
import Mitosis.RemoteMapping.PageMap
import Mitosis.RemoteMapping.X86Crate

/-!
# The child's decoder against `to_descriptor`

`ChildDescriptor::deserialize` parses the compact tables inline and maps each entry as it
reads it. On the image that `ParentDescriptor::serialize` stores, the inline parser reads
back each VMA descriptor, count, pad and entry where the writer put it. So it performs
exactly the `map`s of `to_descriptor`, in the same order, and panics where those panic
(`deserialize_eq_toDescriptor`). When every entry address is canonical, those `map`s are a
run of `map` operations of the remote page table. The counting simulation of
`RemotePageTable` then shows that such a run translates and counts the same in every
well-formed heap. An entry address that is not canonical makes both paths panic in
`VirtAddr::new` (`deserialize_noncanonical_panics`).
-/
namespace Mitosis
open OsNetwork X86_64

namespace ParentDescriptor

/-- Every entry address `offset + start` of the descriptor is a canonical `u64`. -/
def EntryAddrsCanonical (p : ParentDescriptor) : Prop :=
  ∀ vt ∈ p.vma.zip p.pageTable, ∀ e ∈ vt.2.innerPgTable,
    e.1.toNat + vt.1.getStart.toNat < 2 ^ 64 ∧
      Canonical (UInt64.ofNat (e.1.toNat + vt.1.getStart.toNat))

/-- Decided entry by entry: the quantifiers range over lists, not over all pairs. -/
instance (p : ParentDescriptor) : Decidable p.EntryAddrsCanonical :=
  have (vt : VMADescriptor × CompactPageTable) : Decidable (∀ e ∈ vt.2.innerPgTable,
      e.1.toNat + vt.1.getStart.toNat < 2 ^ 64 ∧
        Canonical (UInt64.ofNat (e.1.toNat + vt.1.getStart.toNat))) :=
    List.decidableBAll _ _
  List.decidableBAll _ _

/-- The addresses and values the child maps for a compact table of a VMA starting at
`start`: entry `(offset, value)` at `offset + start`. -/
def mappedEntriesOf (start : VirtAddrType) (es : List (Offset × Value)) : List (UInt64 × Value) :=
  es.map fun e => (UInt64.ofNat (e.1.toNat + start.toNat), e.2)

/-- The addresses and values the child maps for all tables, the first VMA's first. -/
def mappedEntries (p : ParentDescriptor) : List (UInt64 × Value) :=
  (p.vma.zip p.pageTable).flatMap fun vt => mappedEntriesOf vt.1.getStart vt.2.innerPgTable

theorem sum_tableLen_lt (p : ParentDescriptor) (hlen : p.vma.length = p.pageTable.length)
    (himg : p.image.length < 2 ^ 64) :
    (p.pageTable.map CompactPageTable.tableLen).sum < 2 ^ 64 := by
  have h12 := sum_tableLen_le p.vma p.pageTable hlen.ge
  have := length_image p
  omega

end ParentDescriptor

section

variable [Paging]

/-! ## The inline parser reads the parent's image -/

namespace ChildDescriptor

/-- On the image of a table's entries, the page loop reads each entry back and makes the
`map`s of the inner loop of `to_descriptor`. -/
theorem deserializePages_eq (m : Memory) (start : VirtAddrType) (es : List (Offset × Value))
    (cur : BytesMut) (pt : RemotePageTable) (h : Heap PageTable)
    (hs : m.Stores cur.ptr (es.flatMap CompactPageTable.entryImage))
    (hfit : (es.flatMap CompactPageTable.entryImage).length ≤ cur.len) :
    deserializePages m start es.length cur pt h =
      (fun s => some (cur.advance (es.flatMap CompactPageTable.entryImage).length, s)) <$>
        ParentDescriptor.mapEntries start es pt h := by
  induction es generalizing cur pt h with
  | nil => rfl
  | cons e es ih =>
    obtain ⟨offset, paddr⟩ := e
    have hlen : (((offset, paddr) :: es).flatMap CompactPageTable.entryImage).length =
        12 + (es.flatMap CompactPageTable.entryImage).length := by simp
    rw [hlen] at hfit ⊢
    simp only [List.flatMap_cons, CompactPageTable.entryImage, List.append_assoc] at hs
    obtain ⟨hoff, hs⟩ := (Memory.stores_append _ _ _ _).1 hs
    obtain ⟨hpaddr, hrest⟩ := (Memory.stores_append _ _ _ _).1 hs
    rw [Pod.length_toBytes, Pod.size_uint32] at hpaddr hrest
    rw [Pod.length_toBytes, Pod.size_uint64] at hrest
    have h4 : 4 ≤ cur.len := by omega
    have h8 : 8 ≤ (cur.advance 4).len := by simp only [BytesMut.advance_len]; omega
    have hpaddr' : m.Stores (cur.advance 4).ptr (Pod.toBytes paddr) := hpaddr
    have hrest' : m.Stores (cur.advance 12).ptr (es.flatMap CompactPageTable.entryImage) := by
      simpa [Nat.add_assoc] using hrest
    have hfit' : (es.flatMap CompactPageTable.entryImage).length ≤ (cur.advance 12).len := by
      simp only [BytesMut.advance_len]; omega
    simp only [List.length_cons, deserializePages, BytesMut.readUnalignedAtHead_of_stores _ _ offset hoff,
      Pod.size_uint32, BytesMut.truncateHeader_of_le _ _ h4,
      BytesMut.readUnalignedAtHead_of_stores _ _ paddr hpaddr', Pod.size_uint64,
      BytesMut.truncateHeader_of_le _ _ h8, BytesMut.advance_advance, ParentDescriptor.mapEntries]
    -- both loops compute the same address and make the same `map`
    rw [map_bind]
    refine bind_congr fun addr => ?_
    rw [map_bind]
    refine bind_congr fun r => ?_
    rw [ih _ _ _ hrest' hfit', BytesMut.advance_advance]

/-- On the image of the table loop of `serialize`, the VMA loop reads back each VMA
descriptor and compact table and makes the `map`s of the outer loop of `to_descriptor`. -/
theorem deserializeVmas_eq (m : Memory) (vmas : List VMADescriptor) (i : ℕ)
    (ts : List CompactPageTable) (cur : BytesMut) (pt : RemotePageTable) (h : Heap PageTable)
    (hlen : (vmas.drop i).length = ts.length)
    (hs : m.Stores cur.ptr (ParentDescriptor.tablesImage (vmas.drop i) ts))
    (hfit : (ParentDescriptor.tablesImage (vmas.drop i) ts).length ≤ cur.len) :
    deserializeVmas m ts.length cur pt h =
      (fun s => some (vmas.drop i,
          cur.advance (ParentDescriptor.tablesImage (vmas.drop i) ts).length, s)) <$>
        ParentDescriptor.mapTables vmas i ts pt h := by
  induction ts generalizing i cur pt h with
  | nil =>
    rw [List.length_eq_zero_iff.mp hlen]
    rfl
  | cons t ts ih =>
    have hlt : i < vmas.length := by simp at hlen; omega
    have hdrop : vmas.drop i = vmas[i] :: vmas.drop (i + 1) := List.drop_eq_getElem_cons hlt
    have hindex : index vmas i = pure vmas[i] := by simp [index, hlt]; rfl
    rw [hdrop] at hs hfit ⊢
    rw [hdrop, List.length_cons, List.length_cons, Nat.add_right_cancel_iff] at hlen
    simp only [ParentDescriptor.tablesImage, List.append_assoc, List.length_append,
      Pod.length_toBytes, size_vmaDescriptor] at hs hfit ⊢
    obtain ⟨hv, hs⟩ := (Memory.stores_append _ _ _ _).1 hs
    obtain ⟨ht, hrest⟩ := (Memory.stores_append _ _ _ _).1 hs
    rw [Pod.length_toBytes, size_vmaDescriptor] at ht hrest
    have himg := CompactPageTable.length_image t
    have hcount : (UInt64.ofNat t.tableLen).toNat = t.tableLen :=
      UInt64.toNat_ofNat_of_lt' (CompactPageTable.tableLen_lt t (cur.advance 40)
        (by simp only [BytesMut.advance_len]; omega))
    simp only [CompactPageTable.image, List.append_assoc] at ht
    obtain ⟨hc, ht⟩ := (Memory.stores_append _ _ _ _).1 ht
    obtain ⟨hp, he⟩ := (Memory.stores_append _ _ _ _).1 ht
    rw [Pod.length_toBytes, Pod.size_uint64] at hp he
    have hsplit : t.image.length = 8 + (CompactPageTable.padImage t.tableLen).length +
        (t.innerPgTable.flatMap CompactPageTable.entryImage).length := by
      simp only [CompactPageTable.image, List.length_append, Pod.length_toBytes, Pod.size_uint64]
    have h40 : 40 ≤ cur.len := by omega
    have h8 : 8 ≤ (cur.advance 40).len := by simp only [BytesMut.advance_len]; omega
    have hc' : m.Stores (cur.advance 40).ptr (Pod.toBytes (UInt64.ofNat t.tableLen)) := hc
    have hp' : m.Stores ((cur.advance 40).advance 8).ptr (CompactPageTable.padImage t.tableLen) := by
      simpa using hp
    have hpad : (CompactPageTable.padImage t.tableLen).length ≤ ((cur.advance 40).advance 8).len := by
      simp only [BytesMut.advance_len]; omega
    have he' : m.Stores (((cur.advance 40).advance 8).advance
        (CompactPageTable.padImage t.tableLen).length).ptr
        (t.innerPgTable.flatMap CompactPageTable.entryImage) := by
      simpa [Nat.add_assoc] using he
    have hent : (t.innerPgTable.flatMap CompactPageTable.entryImage).length ≤
        (((cur.advance 40).advance 8).advance (CompactPageTable.padImage t.tableLen).length).len := by
      simp only [BytesMut.advance_len]; omega
    have hrest' : m.Stores (cur.advance (40 + t.image.length)).ptr
        (ParentDescriptor.tablesImage (vmas.drop (i + 1)) ts) := by
      simpa [Nat.add_assoc] using hrest
    have hrec := fun pt h => ih (i + 1) (cur.advance (40 + t.image.length)) pt h hlen hrest'
      (by simp only [BytesMut.advance_len]; omega)
    simp only [CompactPageTable.tableLen] at hcount hc' hp' hpad he' hent
    simp only [List.length_cons, deserializeVmas,
      Serialize.deserialize_of_stores (T := VMADescriptor) _ _ _ hv h40,
      Serialize.serializationBufLen_eq, size_vmaDescriptor, BytesMut.truncateHeader_of_le _ _ h40,
      BytesMut.memcpyDeserialize_of_stores (T := UInt64) _ _ _ hc' h8, Pod.size_uint64,
      BytesMut.truncateHeader_of_le _ _ h8, hcount,
      CompactPageTable.deserializePad_eq _ _ _ hp' hpad,
      deserializePages_eq _ _ _ _ _ _ he' hent,
      ParentDescriptor.mapTables, hindex, pure_bind]
    rw [bind_map_left, map_bind]
    refine bind_congr fun s => ?_
    have hcur : (((cur.advance 40).advance 8).advance
        (CompactPageTable.padImage t.innerPgTable.length).length).advance
        (t.innerPgTable.flatMap CompactPageTable.entryImage).length =
        cur.advance (40 + t.image.length) := by
      simp only [BytesMut.advance_advance, hsplit, CompactPageTable.tableLen, Nat.add_assoc]
    rw [hcur]
    dsimp only
    rw [hrec, bind_map_left, ← bind_pure_comp]
    simp only [BytesMut.advance_advance, Nat.add_assoc]

/-- The inline decoder computes what `to_descriptor` computes from the decoded
descriptor: on the image of a parent descriptor, `deserialize` decodes its registers, VMAs
and machine info and builds its page table by the same `map`s, panicking where those do. -/
theorem deserializeParts_eq (p : ParentDescriptor) (hlen : p.vma.length = p.pageTable.length)
    (bytes : BytesMut) (m : Memory) (hs : m.Stores bytes.ptr p.image)
    (hfit : p.image.length ≤ bytes.len) (h : Heap PageTable) :
    deserializeParts bytes m h =
      (fun s => some (p.regs, s.1, p.vma, p.machineInfo, s.2)) <$>
        ParentDescriptor.mapTables p.vma 0 p.pageTable (RemotePageTable.new h).1
          (RemotePageTable.new h).2 := by
  have himg := ParentDescriptor.length_image p
  have hcount : (UInt64.ofNat p.pageTable.length).toNat = p.pageTable.length := by
    have htl := ParentDescriptor.length_tablesImage p.vma p.pageTable hlen.ge
    have := bytes.len_lt
    have hsmall : p.pageTable.length < 2 ^ 64 := by omega
    exact UInt64.toNat_ofNat_of_lt' hsmall
  simp only [ParentDescriptor.image, List.append_assoc] at hs
  obtain ⟨hr, hs⟩ := (Memory.stores_append _ _ _ _).1 hs
  obtain ⟨hc, hs⟩ := (Memory.stores_append _ _ _ _).1 hs
  obtain ⟨htab, hmi⟩ := (Memory.stores_append _ _ _ _).1 hs
  simp only [Pod.length_toBytes, size_regDescriptor, Pod.size_uint64] at hc htab hmi
  have h184 : 184 ≤ bytes.len := by omega
  have h8 : 8 ≤ (bytes.advance 184).len := by simp only [BytesMut.advance_len]; omega
  have hc' : m.Stores (bytes.advance 184).ptr (Pod.toBytes (UInt64.ofNat p.pageTable.length)) :=
    hc
  have htab' : m.Stores (bytes.advance (184 + 8)).ptr
      (ParentDescriptor.tablesImage (p.vma.drop 0) p.pageTable) := by
    simpa [Nat.add_assoc] using htab
  have hmi' : m.Stores
      ((bytes.advance (184 + 8)).advance
        (ParentDescriptor.tablesImage (p.vma.drop 0) p.pageTable).length).ptr
      (Pod.toBytes p.machineInfo) := by
    simpa [Nat.add_assoc] using hmi
  have h56 : Pod.size RDMADescriptor ≤ ((bytes.advance (184 + 8)).advance
      (ParentDescriptor.tablesImage (p.vma.drop 0) p.pageTable).length).len := by
    simp only [size_rdmaDescriptor, BytesMut.advance_len, List.drop_zero]; omega
  have hvmas := deserializeVmas_eq m p.vma 0 p.pageTable (bytes.advance (184 + 8))
    (RemotePageTable.new h).1 (RemotePageTable.new h).2 (by simpa using hlen) htab'
    (by simp only [List.drop_zero, BytesMut.advance_len]; omega)
  simp only [deserializeParts, BytesMut.truncateHeader_zero, unwrap_some, ok_bind,
    Serialize.deserialize_of_stores (T := RegDescriptor) _ _ _ hr h184,
    Serialize.serializationBufLen_eq, size_regDescriptor, BytesMut.truncateHeader_of_le _ _ h184,
    BytesMut.memcpyDeserialize_of_stores (T := UInt64) _ _ _ hc' h8, Pod.size_uint64,
    BytesMut.truncateHeader_of_le _ _ h8, BytesMut.advance_advance, hcount]
  rw [hvmas, bind_map_left, ← bind_pure_comp]
  simp only [List.drop_zero] at hmi' h56
  refine bind_congr fun s => ?_
  simp only [List.drop_zero, Serialize.deserialize_of_stores (T := RDMADescriptor) _ _ _ hmi' h56]

end ChildDescriptor

namespace ParentDescriptor

theorem toDescriptor_eq (p : ParentDescriptor) (h : Heap PageTable) :
    p.toDescriptor h = (fun s => ((⟨p.regs, s.1, p.vma, p.machineInfo, ()⟩ : ChildDescriptor Unit), s.2)) <$>
      mapTables p.vma 0 p.pageTable (RemotePageTable.new h).1 (RemotePageTable.new h).2 := by
  rw [toDescriptor, ← bind_pure_comp]

theorem toDescriptorPrefetch_eq (accessInfoNew : RDMADescriptor → Option AccessInfo)
    (p : ParentDescriptor) (h : Heap PageTable) {pool : DCPool} (hpool : pool.pool ≠ [])
    {ai : AccessInfo} (hai : accessInfoNew p.machineInfo = some ai) :
    p.toDescriptorPrefetch accessInfoNew h pool =
      (fun s => ((⟨p.regs, s.1, p.vma, p.machineInfo,
          DCAsyncPrefetcher.newFromRaw (pool.pool.getLast hpool) ai⟩ :
          ChildDescriptor DCAsyncPrefetcher), s.2, (⟨pool.pool.dropLast⟩ : DCPool))) <$>
        mapTables p.vma 0 p.pageTable (RemotePageTable.new h).1 (RemotePageTable.new h).2 := by
  rw [toDescriptorPrefetch, ← bind_pure_comp]
  refine bind_congr fun s => ?_
  simp only [DCPool.popOneQp_of_ne_nil hpool, hai, expect_some, unwrap_some, ok_bind]

end ParentDescriptor

namespace ChildDescriptor

theorem deserialize_eq_toDescriptor (p : ParentDescriptor)
    (hlen : p.vma.length = p.pageTable.length) (bytes : BytesMut) (m : Memory)
    (hs : m.Stores bytes.ptr p.image) (hfit : p.image.length ≤ bytes.len) (h : Heap PageTable) :
    deserialize bytes m h = some <$> p.toDescriptor h := by
  rw [deserialize, deserializeParts_eq p hlen bytes m hs hfit h, bind_map_left,
    ParentDescriptor.toDescriptor_eq, ← bind_pure_comp, ← bind_pure_comp, bind_assoc]
  rfl

/-- In the prefetch build, when the async pool has a connection and the access info can be
made, `deserialize` of the image of a parent descriptor is `to_descriptor` of it. -/
theorem deserializePrefetch_eq_toDescriptorPrefetch
    (accessInfoNew : RDMADescriptor → Option AccessInfo) (p : ParentDescriptor)
    (hlen : p.vma.length = p.pageTable.length) (bytes : BytesMut) (m : Memory)
    (hs : m.Stores bytes.ptr p.image) (hfit : p.image.length ≤ bytes.len) (h : Heap PageTable)
    {pool : DCPool} (hpool : pool.pool ≠ []) {ai : AccessInfo}
    (hai : accessInfoNew p.machineInfo = some ai) :
    deserializePrefetch accessInfoNew bytes m h pool =
      (fun r => (some (r.1, r.2.1), r.2.2)) <$> p.toDescriptorPrefetch accessInfoNew h pool := by
  rw [deserializePrefetch, deserializeParts_eq p hlen bytes m hs hfit h, bind_map_left,
    ParentDescriptor.toDescriptorPrefetch]
  simp only [map_bind]
  refine bind_congr fun s => ?_
  simp only [DCPool.popOneQp_of_ne_nil hpool, hai, expect_some, unwrap_some, ok_bind]
  rfl

end ChildDescriptor

/-! ## The `map`s as a run of the remote page table -/

theorem entryAddr_of_canonical {offset : Offset} {start : VirtAddrType}
    (hlt : offset.toNat + start.toNat < 2 ^ 64)
    (hc : Canonical (UInt64.ofNat (offset.toNat + start.toNat))) :
    entryAddr offset start = .ok ⟨_, hc⟩ := by
  rw [entryAddr, checkedAdd_of_lt hlt, ok_bind]
  exact Paging.virtAddrNew_of_canonical _ hc

namespace ParentDescriptor

/-- The `map`s that `to_descriptor` makes for the entries of one compact table, when no
entry address panics. -/
def entryOps (start : VirtAddrType) : List (Offset × Value) → Except String (List PageTableOp)
  | [] => pure []
  | (offset, phyAddr) :: rest => do
    let addr ← entryAddr offset start
    let ops ← entryOps start rest
    pure (PageTableOp.map addr (PhysAddr.new phyAddr) :: ops)

/-- The `map`s of all tables, the table of `vmas[i]` first. -/
def tableOps (vmas : List VMADescriptor) : ℕ → List CompactPageTable →
    Except String (List PageTableOp)
  | _, [] => pure []
  | i, t :: ts => do
    let vma ← index vmas i
    let ops ← entryOps vma.getStart t.innerPgTable
    let rest ← tableOps vmas (i + 1) ts
    pure (ops ++ rest)

theorem mapEntries_eq_run {start : VirtAddrType} {es : List (Offset × Value)}
    {ops : List PageTableOp} (hops : entryOps start es = .ok ops) (pt : RemotePageTable)
    (h : Heap PageTable) :
    mapEntries start es pt h = (fun r => r.2) <$> Simulation.run PageTableOp.step ops (pt, h) := by
  induction es generalizing ops pt h with
  | nil => cases hops; rfl
  | cons e es ih =>
    obtain ⟨offset, phyAddr⟩ := e
    cases ha : entryAddr offset start with
    | error msg => simp [entryOps, ha] at hops
    | ok addr =>
      cases hr : entryOps start es with
      | error msg => simp [entryOps, ha, hr] at hops
      | ok ops' =>
        simp only [entryOps, ha, hr, ok_bind] at hops
        cases hops
        simp only [mapEntries, ha, ok_bind, Simulation.run, PageTableOp.step, map_bind]
        refine bind_congr fun r => ?_
        rw [ih hr]
        simp only [map_pure, bind_pure_comp]

theorem mapTables_eq_run {vmas : List VMADescriptor} {i : ℕ} {ts : List CompactPageTable}
    {ops : List PageTableOp} (hops : tableOps vmas i ts = .ok ops) (pt : RemotePageTable)
    (h : Heap PageTable) :
    mapTables vmas i ts pt h = (fun r => r.2) <$> Simulation.run PageTableOp.step ops (pt, h) := by
  induction ts generalizing i ops pt h with
  | nil => cases hops; rfl
  | cons t ts ih =>
    cases hv : index vmas i with
    | error msg => simp [tableOps, hv] at hops
    | ok vma =>
      cases he : entryOps vma.getStart t.innerPgTable with
      | error msg => simp [tableOps, hv, he] at hops
      | ok ops₁ =>
        cases hr : tableOps vmas (i + 1) ts with
        | error msg => simp [tableOps, hv, he, hr] at hops
        | ok ops₂ =>
          simp only [tableOps, hv, he, hr, ok_bind] at hops
          cases hops
          simp only [mapTables, hv, ok_bind, mapEntries_eq_run he, Simulation.run_append,
            bind_map_left, map_bind]
          refine bind_congr fun r => ?_
          rw [ih hr]
          simp only [map_pure, bind_pure_comp]

theorem entryOps_of_canonical {start : VirtAddrType} {es : List (Offset × Value)}
    (hc : ∀ e ∈ es, e.1.toNat + start.toNat < 2 ^ 64 ∧
      Canonical (UInt64.ofNat (e.1.toNat + start.toNat))) :
    ∃ ops, entryOps start es = .ok ops ∧ (∀ o ∈ ops, o.IsMap) ∧
      ops.map (fun o => (o.addr.val, o.value)) = mappedEntriesOf start es := by
  induction es with
  | nil => exact ⟨[], rfl, by simp, rfl⟩
  | cons e es ih =>
    obtain ⟨offset, phyAddr⟩ := e
    obtain ⟨hlt, hcan⟩ := hc _ List.mem_cons_self
    obtain ⟨ops, hops, hmap, hentries⟩ := ih fun e he => hc e (List.mem_cons_of_mem _ he)
    refine ⟨PageTableOp.map ⟨_, hcan⟩ (PhysAddr.new phyAddr) :: ops, ?_, ?_, ?_⟩
    · simp only [entryOps, entryAddr_of_canonical hlt hcan, hops, ok_bind]
      rfl
    · simpa [PageTableOp.IsMap] using hmap
    · simp only [List.map_cons, hentries, mappedEntriesOf]
      rfl

theorem tableOps_of_canonical {vmas : List VMADescriptor} {i : ℕ} {ts : List CompactPageTable}
    (hlen : ts.length ≤ (vmas.drop i).length)
    (hc : ∀ vt ∈ (vmas.drop i).zip ts, ∀ e ∈ vt.2.innerPgTable,
      e.1.toNat + vt.1.getStart.toNat < 2 ^ 64 ∧
        Canonical (UInt64.ofNat (e.1.toNat + vt.1.getStart.toNat))) :
    ∃ ops, tableOps vmas i ts = .ok ops ∧ (∀ o ∈ ops, o.IsMap) ∧
      ops.map (fun o => (o.addr.val, o.value)) =
        ((vmas.drop i).zip ts).flatMap (fun vt => mappedEntriesOf vt.1.getStart vt.2.innerPgTable) ∧
      ops.length = (ts.map CompactPageTable.tableLen).sum := by
  induction ts generalizing i with
  | nil => exact ⟨[], rfl, by simp, by simp, rfl⟩
  | cons t ts ih =>
    have hlt : i < vmas.length := by simp at hlen; omega
    have hdrop : vmas.drop i = vmas[i] :: vmas.drop (i + 1) := List.drop_eq_getElem_cons hlt
    rw [hdrop] at hc hlen ⊢
    obtain ⟨ops₁, he, hmap₁, hentries₁⟩ := entryOps_of_canonical (hc _ List.mem_cons_self)
    obtain ⟨ops₂, hr, hmap₂, hentries₂, hlen₂⟩ := ih (Nat.le_of_succ_le_succ hlen)
      fun vt hvt => hc vt (List.mem_cons_of_mem _ hvt)
    have hlen₁ : ops₁.length = t.innerPgTable.length := by
      simpa [mappedEntriesOf] using congrArg List.length hentries₁
    refine ⟨ops₁ ++ ops₂, ?_, ?_, ?_, ?_⟩
    · simp only [tableOps, index, List.getElem?_eq_getElem hlt, ok_bind, he, hr]
      rfl
    · intro o ho
      rcases List.mem_append.mp ho with ho | ho
      · exact hmap₁ o ho
      · exact hmap₂ o ho
    · rw [List.map_append, hentries₁, hentries₂, List.zip_cons_cons, List.flatMap_cons]
    · simp [hlen₁, hlen₂, CompactPageTable.tableLen]

/-- With canonical entry addresses, building the child's table from `RemotePageTable::new`
in two well-formed heaps succeeds in both, and the two tables translate and count alike. -/
theorem mapTables_new_agree (p : ParentDescriptor) (hlen : p.vma.length = p.pageTable.length)
    (hcanon : p.EntryAddrsCanonical)
    (hbound : (p.pageTable.map CompactPageTable.tableLen).sum < 2 ^ 64)
    {h₁ h₂ : Heap PageTable} (hwf₁ : HeapWF h₁) (hwf₂ : HeapWF h₂) :
    ∃ T₁ h₁' T₂ h₂',
      mapTables p.vma 0 p.pageTable (RemotePageTable.new h₁).1 (RemotePageTable.new h₁).2 =
        .ok (T₁, h₁') ∧
      mapTables p.vma 0 p.pageTable (RemotePageTable.new h₂).1 (RemotePageTable.new h₂).2 =
        .ok (T₂, h₂') ∧
      (∀ a, T₁.translate h₁' a = T₂.translate h₂' a) ∧ T₁.len = T₂.len := by
  have hfit : p.pageTable.length ≤ (p.vma.drop 0).length := by simp [hlen]
  obtain ⟨ops, hops, -, -, hopslen⟩ := tableOps_of_canonical hfit (by rw [List.drop_zero]; exact hcanon)
  obtain ⟨rs₁, T₁, h₁', rs₂, T₂, h₂', hrun₁, hrun₂, htr, hcnt⟩ :=
    RemotePageTable.run_new_agree hwf₁ hwf₂ ops (by omega)
  refine ⟨T₁, h₁', T₂, h₂', ?_, ?_, htr, hcnt⟩
  · rw [mapTables_eq_run hops, hrun₁]; rfl
  · rw [mapTables_eq_run hops, hrun₂]; rfl

end ParentDescriptor

namespace ChildDescriptor

/-- A child descriptor has the parent's registers, VMAs and machine info, and a page table
that translates every address as the table of `d` and counts as many entries. -/
def AgreesWith {P Q : Type} (c : ChildDescriptor P) (hc : Heap PageTable) (p : ParentDescriptor)
    (d : ChildDescriptor Q) (hd : Heap PageTable) : Prop :=
  c.regs = p.regs ∧ c.vma = p.vma ∧ c.machineInfo = p.machineInfo ∧
    (∀ a, c.pageTable.translate hc a = d.pageTable.translate hd a) ∧
    c.pageTable.len = d.pageTable.len

/-- The child's inline decoder agrees with `to_descriptor`: for every parent descriptor with
one compact table per VMA whose entry addresses are canonical, and every buffer of at least
`serialization_buf_len` bytes, `serialize` succeeds and `deserialize` of the buffer returns
a child with the parent's registers, VMAs and machine info whose table translates and
counts as the table of `to_descriptor`, each built in any well-formed heap. In the prefetch
build the same holds once both sides find a connection in their async pool and make the
access info. -/
theorem deserialize_agrees_with_toDescriptor (p : ParentDescriptor)
    (hlen : p.vma.length = p.pageTable.length) (hcanon : p.EntryAddrsCanonical)
    (bytes : BytesMut) (hbuf : p.serializationBufLen ≤ bytes.len) (m : Memory)
    {hc hp : Heap PageTable} (hwfc : HeapWF hc) (hwfp : HeapWF hp) :
    ∃ m', p.serialize bytes m = .ok (true, m') ∧
      (∃ c hc' d hp', deserialize bytes m' hc = .ok (some (c, hc')) ∧
        p.toDescriptor hp = .ok (d, hp') ∧ c.AgreesWith hc' p d hp') ∧
      ∀ (accessInfoNew accessInfoNew' : RDMADescriptor → Option AccessInfo) (ai ai' : AccessInfo)
        (pool pool' : DCPool), accessInfoNew p.machineInfo = some ai → pool.pool ≠ [] →
        accessInfoNew' p.machineInfo = some ai' → pool'.pool ≠ [] →
        ∃ c hc' pool₁ d hp' pool₁',
          deserializePrefetch accessInfoNew bytes m' hc pool = .ok (some (c, hc'), pool₁) ∧
          p.toDescriptorPrefetch accessInfoNew' hp pool' = .ok (d, hp', pool₁') ∧
          c.AgreesWith hc' p d hp' := by
  have hbuf' := ParentDescriptor.serializationBufLen_eq p hlen
  have hs : (m.write bytes.ptr p.image).Stores bytes.ptr p.image := Memory.stores_write _ _ _
  have hfit : p.image.length ≤ bytes.len := by omega
  -- the entries fit the buffer, so the counter cannot overflow
  have hbound := ParentDescriptor.sum_tableLen_lt p hlen (by have := bytes.len_lt; omega)
  obtain ⟨T₁, h₁, T₂, h₂, hm₁, hm₂, htr, hcnt⟩ :=
    ParentDescriptor.mapTables_new_agree p hlen hcanon hbound hwfc hwfp
  refine ⟨m.write bytes.ptr p.image, ParentDescriptor.serialize_eq p bytes m hlen hbuf,
    ⟨⟨p.regs, T₁, p.vma, p.machineInfo, ()⟩, h₁, ⟨p.regs, T₂, p.vma, p.machineInfo, ()⟩, h₂,
      ?_, ?_, rfl, rfl, rfl, htr, hcnt⟩, ?_⟩
  · rw [deserialize_eq_toDescriptor p hlen bytes _ hs hfit, ParentDescriptor.toDescriptor_eq, hm₁]
    rfl
  · rw [ParentDescriptor.toDescriptor_eq, hm₂]
    rfl
  · intro accessInfoNew accessInfoNew' ai ai' pool pool' hai hpool hai' hpool'
    refine ⟨⟨p.regs, T₁, p.vma, p.machineInfo,
      DCAsyncPrefetcher.newFromRaw (pool.pool.getLast hpool) ai⟩, h₁, ⟨pool.pool.dropLast⟩,
      ⟨p.regs, T₂, p.vma, p.machineInfo, DCAsyncPrefetcher.newFromRaw (pool'.pool.getLast hpool') ai'⟩,
      h₂, ⟨pool'.pool.dropLast⟩, ?_, ?_, rfl, rfl, rfl, htr, hcnt⟩
    · rw [deserializePrefetch_eq_toDescriptorPrefetch accessInfoNew p hlen bytes _ hs hfit hc hpool hai,
        ParentDescriptor.toDescriptorPrefetch_eq accessInfoNew p hc hpool hai, hm₁]
      rfl
    · rw [ParentDescriptor.toDescriptorPrefetch_eq accessInfoNew' p hp hpool' hai', hm₂]
      rfl

/-- The child's table stands for the parent's entries. When the entry addresses are
canonical and no two of them fall in one page, `deserialize` of the serialized parent, in
any well-formed heap, translates every address to the value of the entry in its page, and
to nothing when there is none or its value is zero. -/
theorem deserialize_translate_eq (p : ParentDescriptor)
    (hlen : p.vma.length = p.pageTable.length) (hcanon : p.EntryAddrsCanonical)
    (hpages : (p.mappedEntries.map fun e => e.1.toNat / 4096).Nodup)
    (bytes : BytesMut) (hbuf : p.serializationBufLen ≤ bytes.len) (m : Memory)
    {h : Heap PageTable} (hwf : HeapWF h) :
    ∃ m', p.serialize bytes m = .ok (true, m') ∧ ∃ c hc,
      deserialize bytes m' h = .ok (some (c, hc)) ∧ ∀ a : VirtAddr,
        c.pageTable.translate hc a = ((p.mappedEntries.find? fun e =>
          e.1.toNat / 4096 = a.val.toNat / 4096).bind fun e => PartialMap.ofValue e.2).map
            PhysAddr.new := by
  have hbuf' := ParentDescriptor.serializationBufLen_eq p hlen
  have hfit : p.image.length ≤ bytes.len := by omega
  have hbound := ParentDescriptor.sum_tableLen_lt p hlen (by have := bytes.len_lt; omega)
  have hfit' : p.pageTable.length ≤ (p.vma.drop 0).length := by simp [hlen]
  obtain ⟨ops, hops, hmap, hentries, hopslen⟩ :=
    ParentDescriptor.tableOps_of_canonical hfit' (by rw [List.drop_zero]; exact hcanon)
  rw [List.drop_zero] at hentries
  -- an operation's page is named by bits 12 to 63 of the address of its entry
  have hkey : ∀ o : PageTableOp, o.page.startAddress.val.toNat / 4096 = o.addr.val.toNat / 4096 :=
    fun o => by rw [PageTableOp.page_eq, Page.containingAddress_div]
  have hnd : (ops.map PageTableOp.page).Nodup := by
    have hkeys : (ops.map PageTableOp.page).map (fun pg => pg.startAddress.val.toNat / 4096) =
        p.mappedEntries.map fun e => e.1.toNat / 4096 := by
      rw [ParentDescriptor.mappedEntries, ← hentries, List.map_map, List.map_map]
      exact List.map_congr_left fun o _ => hkey o
    exact List.Nodup.of_map _ (hkeys ▸ hpages)
  obtain ⟨rs, T, h', hrun, htr⟩ := RemotePageTable.run_new_maps hwf ops hmap hnd (by omega)
  refine ⟨_, ParentDescriptor.serialize_eq p bytes m hlen hbuf,
    ⟨p.regs, T, p.vma, p.machineInfo, ()⟩, h', ?_, fun a => ?_⟩
  · rw [deserialize_eq_toDescriptor p hlen bytes _ (Memory.stores_write _ _ _) hfit,
      ParentDescriptor.toDescriptor_eq, ParentDescriptor.mapTables_eq_run hops, hrun]
    rfl
  · rw [htr a, ParentDescriptor.mappedEntries, ← hentries, List.find?_map, Option.bind_map]
    congr 2
    refine List.find?_congr fun o _ => ?_
    simp only [Function.comp, PageTableOp.page_eq, Page.containingAddress_eq_iff]

end ChildDescriptor

end

/-- A parent descriptor with one VMA whose start, `2 ^ 48`, is not canonical: the child's
decoder panics in `VirtAddr::new` instead of returning a descriptor. -/
theorem deserialize_noncanonical_panics :
    let p : ParentDescriptor :=
      ⟨⟨⟨List.replicate 21 0, rfl⟩, 0, 0⟩, [⟨[(0, 0x5000)]⟩],
        [⟨(0x1000000000000, 0x1000000001000), 0, 0, true⟩],
        ⟨73, 1, ⟨List.replicate 16 0, rfl⟩, 0, 0xdeadbeaf, 0, 0, 0⟩⟩
    let bytes : BytesMut := ⟨0, 320, by decide⟩
    ∃ m', p.serialize bytes (fun _ => 0) = .ok (true, m') ∧
      ChildDescriptor.deserialize bytes m' Heap.empty =
        .error "address passed to VirtAddr::new must not contain any data in bits 48 to 64" := by
  intro p bytes
  have hlen : p.vma.length = p.pageTable.length := rfl
  have hbuf : p.serializationBufLen ≤ bytes.len := by decide
  have hbuf' := ParentDescriptor.serializationBufLen_eq p hlen
  refine ⟨_, ParentDescriptor.serialize_eq p bytes _ hlen hbuf, ?_⟩
  rw [ChildDescriptor.deserialize_eq_toDescriptor p hlen bytes _ (Memory.stores_write _ _ _)
    (by omega)]
  rfl

/-- A descriptor with one VMA at `0x1000` and two entries, on the crate's functions. -/
theorem deserialize_agrees_with_toDescriptor_one_vma :
    let p : ParentDescriptor :=
      ⟨⟨⟨List.replicate 21 0, rfl⟩, 0, 0⟩, [⟨[(0x10, 0x5000), (0x1008, 0x6000)]⟩],
        [⟨(0x1000, 0x3000), 0, 0, true⟩],
        ⟨73, 1, ⟨List.replicate 16 0, rfl⟩, 0, 0xdeadbeaf, 0, 0, 0⟩⟩
    let bytes : BytesMut := ⟨0, 328, by decide⟩
    p.vma.length = p.pageTable.length ∧ p.EntryAddrsCanonical ∧
      p.serializationBufLen ≤ bytes.len ∧ HeapWF Heap.empty ∧
      ∃ m', p.serialize bytes (fun _ => 0) = .ok (true, m') ∧
        (∃ c hc' d hp', ChildDescriptor.deserialize bytes m' Heap.empty = .ok (some (c, hc')) ∧
          p.toDescriptor Heap.empty = .ok (d, hp') ∧ c.AgreesWith hc' p d hp') ∧
        ∀ (accessInfoNew accessInfoNew' : RDMADescriptor → Option AccessInfo)
          (ai ai' : AccessInfo) (pool pool' : DCPool),
          accessInfoNew p.machineInfo = some ai → pool.pool ≠ [] →
          accessInfoNew' p.machineInfo = some ai' → pool'.pool ≠ [] →
          ∃ c hc' pool₁ d hp' pool₁',
            ChildDescriptor.deserializePrefetch accessInfoNew bytes m' Heap.empty pool =
              .ok (some (c, hc'), pool₁) ∧
            p.toDescriptorPrefetch accessInfoNew' Heap.empty pool' = .ok (d, hp', pool₁') ∧
            c.AgreesWith hc' p d hp' :=
  ⟨rfl, by decide, by decide, heapWF_empty,
    ChildDescriptor.deserialize_agrees_with_toDescriptor _ rfl (by decide) _ (by decide) _
      heapWF_empty heapWF_empty⟩

end Mitosis
