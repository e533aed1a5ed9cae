import Mitosis.Descriptors.Parent

/-!
# The parent descriptor round trip

Each writer is shown to store a fixed byte string, its image, and to move its cursor by the
image's length; each reader is shown to return the value whose image is stored at its
cursor, moving by the same length. The two cursor computations are independent in the
code (`serialization_buf_len` on the writer side, decoded sizes on the reader side), so the
images are where they are made to agree.
-/
namespace Mitosis
open OsNetwork

namespace CompactPageTable

/-- The bytes of one entry: the offset, then the value, unaligned. -/
def entryImage (e : Offset × Value) : List UInt8 := Pod.toBytes e.1 ++ Pod.toBytes e.2

/-- The pad after the count: four zero bytes when the count is odd. -/
def padImage (count : ℕ) : List UInt8 := if needsPad count then Pod.toBytes (0 : UInt32) else []

/-- What `serialize` writes for a table. -/
def image (self : CompactPageTable) : List UInt8 :=
  Pod.toBytes (UInt64.ofNat self.tableLen) ++ padImage self.tableLen ++
    self.innerPgTable.flatMap entryImage

@[simp] theorem length_entryImage (e : Offset × Value) : (entryImage e).length = 12 := by
  simp [entryImage]

theorem length_flatMap_entryImage (es : List (Offset × Value)) :
    (es.flatMap entryImage).length = es.length * 12 := by
  induction es with
  | nil => rfl
  | cons e es ih => simp [ih]; ring

theorem length_padImage (count : ℕ) : (padImage count).length = if needsPad count then 4 else 0 := by
  unfold padImage
  split <;> simp

theorem length_image (self : CompactPageTable) :
    self.image.length = self.serializationBufLen := by
  simp only [image, serializationBufLen, List.length_append, Pod.length_toBytes,
    length_padImage, length_flatMap_entryImage, tableLen]
  by_cases hp : needsPad self.innerPgTable.length
  · simp [hp]
    ring
  · simp [hp]

theorem serializePad_eq (count : ℕ) (cur : BytesMut) (m : Memory)
    (h : (padImage count).length ≤ cur.len) :
    serializePad count cur m =
      .ok (cur.advance (padImage count).length, m.write cur.ptr (padImage count)) := by
  unfold serializePad
  cases hp : needsPad count
  · simp [padImage, hp]
    rfl
  · have h4 : 4 ≤ cur.len := by simpa [length_padImage, hp] using h
    simp [padImage, hp, BytesMut.memcpySerializeAt,
      BytesMut.memcpySerialize_of_le (T := UInt32) cur 0 m h4,
      BytesMut.truncateHeader_of_le _ _ h4, bind, Except.bind, pure, Except.pure]

theorem serializeEntries_eq (es : List (Offset × Value)) (cur : BytesMut) (m : Memory)
    (h : (es.flatMap entryImage).length ≤ cur.len) :
    serializeEntries es cur m =
      .ok (cur.advance (es.flatMap entryImage).length, m.write cur.ptr (es.flatMap entryImage)) := by
  induction es generalizing cur m with
  | nil => rfl
  | cons e es ih =>
    obtain ⟨offset, paddr⟩ := e
    have hlen : (List.flatMap entryImage ((offset, paddr) :: es)).length =
        12 + (es.flatMap entryImage).length := by simp
    rw [hlen] at h
    have h4 : 4 ≤ cur.len := by omega
    have h8 : 8 ≤ (cur.advance 4).len := by simp only [BytesMut.advance_len]; omega
    have hstep : serializeEntries ((offset, paddr) :: es) cur m = serializeEntries es
        (cur.advance 12) ((m.write cur.ptr (Pod.toBytes offset)).write (cur.ptr + 4)
          (Pod.toBytes paddr)) := by
      simp only [serializeEntries, BytesMut.writeUnalignedAtHead, Pod.size_uint32,
        Pod.size_uint64, BytesMut.truncateHeader_of_le _ _ h4,
        BytesMut.truncateHeader_of_le _ _ h8, unwrap_some, bind, Except.bind,
        BytesMut.advance_advance]
      rfl
    rw [hstep, ih _ _ (by simp only [BytesMut.advance_len]; omega), hlen,
      BytesMut.advance_advance, Memory.write_write_of_eq _ _ _ _ _ (by simp),
      Memory.write_write_of_eq]
    · simp [entryImage]
    · simp

/-- `serialize` stores the image of the table when the window is long enough. -/
theorem serialize_eq (self : CompactPageTable) (bytes : BytesMut) (m : Memory)
    (h : self.serializationBufLen ≤ bytes.len) :
    self.serialize bytes m = .ok (true, m.write bytes.ptr self.image) := by
  have himg := length_image self
  have hsplit : self.image.length =
      8 + (padImage self.tableLen).length + (self.innerPgTable.flatMap entryImage).length := by
    simp only [image, List.length_append, Pod.length_toBytes, Pod.size_uint64]
  have h8 : 8 ≤ bytes.len := by omega
  have hpad : (padImage self.tableLen).length ≤ (bytes.advance 8).len := by
    simp only [BytesMut.advance_len]; omega
  have hent : (self.innerPgTable.flatMap entryImage).length ≤
      ((bytes.advance 8).advance (padImage self.tableLen).length).len := by
    simp only [BytesMut.advance_len]; omega
  have hfits : ¬ bytes.len < self.serializationBufLen := by omega
  simp only [serialize, hfits, if_false, BytesMut.truncateHeader_zero, unwrap_some,
    BytesMut.memcpySerializeAt, BytesMut.memcpySerialize_of_le (T := UInt64) _ _ _ h8,
    Pod.size_uint64, BytesMut.truncateHeader_of_le _ _ h8, serializePad_eq _ _ _ hpad,
    serializeEntries_eq _ _ _ hent, bind, Except.bind, pure, Except.pure]
  rw [BytesMut.advance_advance, Memory.write_write_of_eq _ _ _ _ _ (by simp; omega),
    Memory.write_write_of_eq _ _ _ _ _ (by simp)]
  rfl

theorem deserializePad_eq (count : ℕ) (cur : BytesMut) (m : Memory)
    (hs : m.Stores cur.ptr (padImage count)) (h : (padImage count).length ≤ cur.len) :
    deserializePad count cur m = some (cur.advance (padImage count).length) := by
  unfold deserializePad
  cases hp : needsPad count
  · simp [padImage, hp]
  · have h4 : 4 ≤ cur.len := by simpa [length_padImage, hp] using h
    simp only [padImage, hp, if_true] at hs ⊢
    simp [BytesMut.memcpyDeserialize_of_stores (T := UInt32) _ _ 0 hs h4,
      BytesMut.truncateHeader_of_le _ _ h4]

theorem deserializeEntries_eq (es : List (Offset × Value)) (cur : BytesMut) (m : Memory)
    (hs : m.Stores cur.ptr (es.flatMap entryImage)) (h : (es.flatMap entryImage).length ≤ cur.len) :
    deserializeEntries m es.length cur = some (es, cur.advance (es.flatMap entryImage).length) := by
  induction es generalizing cur with
  | nil => rfl
  | cons e es ih =>
    obtain ⟨offset, paddr⟩ := e
    have hlen : (List.flatMap entryImage ((offset, paddr) :: es)).length =
        12 + (es.flatMap entryImage).length := by simp
    rw [hlen] at h
    simp only [List.flatMap_cons, entryImage, List.append_assoc] at hs
    obtain ⟨hoff, hs⟩ := (Memory.stores_append _ _ _ _).1 hs
    obtain ⟨hpaddr, hrest⟩ := (Memory.stores_append _ _ _ _).1 hs
    have h4 : 4 ≤ cur.len := by omega
    have h8 : 8 ≤ (cur.advance 4).len := by simp only [BytesMut.advance_len]; omega
    rw [Pod.length_toBytes, Pod.size_uint32] at hpaddr hrest
    rw [Pod.length_toBytes, Pod.size_uint64] at hrest
    have hpaddr' : m.Stores (cur.advance 4).ptr (Pod.toBytes paddr) := hpaddr
    have hrest' : m.Stores (cur.advance 12).ptr (es.flatMap entryImage) := by
      simpa [Nat.add_assoc] using hrest
    have hstep : deserializeEntries m (es.length + 1) cur =
        (deserializeEntries m es.length (cur.advance 12)).bind
          (fun a => some ((offset, paddr) :: a.1, a.2)) := by
      simp only [deserializeEntries, BytesMut.readUnalignedAtHead_of_stores _ _ offset hoff,
        Pod.size_uint32, BytesMut.truncateHeader_of_le _ _ h4,
        BytesMut.readUnalignedAtHead_of_stores _ _ paddr hpaddr', Pod.size_uint64,
        BytesMut.truncateHeader_of_le _ _ h8, BytesMut.advance_advance, Option.bind_eq_bind,
        Option.bind_some]
    rw [List.length_cons, hstep, ih _ hrest' (by simp only [BytesMut.advance_len]; omega),
      Option.bind_some, BytesMut.advance_advance, hlen]

theorem tableLen_lt (self : CompactPageTable) (bytes : BytesMut)
    (h : self.image.length ≤ bytes.len) : self.tableLen < 2 ^ 64 := by
  have hlt := bytes.len_lt
  have hsplit : self.image.length =
      8 + (padImage self.tableLen).length + self.tableLen * 12 := by
    simp only [image, List.length_append, Pod.length_toBytes, Pod.size_uint64,
      length_flatMap_entryImage, tableLen]
  omega

/-- `deserialize` returns the table whose image is stored in the window. -/
theorem deserialize_eq (self : CompactPageTable) (bytes : BytesMut) (m : Memory)
    (hs : m.Stores bytes.ptr self.image) (h : self.image.length ≤ bytes.len) :
    deserialize bytes m = some self := by
  have hcount : (UInt64.ofNat self.tableLen).toNat = self.tableLen :=
    UInt64.toNat_ofNat_of_lt' (tableLen_lt self bytes h)
  have hsplit : self.image.length =
      8 + (padImage self.tableLen).length + (self.innerPgTable.flatMap entryImage).length := by
    simp only [image, List.length_append, Pod.length_toBytes, Pod.size_uint64]
  simp only [image, List.append_assoc] at hs
  obtain ⟨hc, hs⟩ := (Memory.stores_append _ _ _ _).1 hs
  obtain ⟨hp, he⟩ := (Memory.stores_append _ _ _ _).1 hs
  rw [Pod.length_toBytes, Pod.size_uint64] at hp he
  have h8 : 8 ≤ bytes.len := by omega
  have hp' : m.Stores (bytes.advance 8).ptr (padImage self.tableLen) := hp
  have hpad : (padImage self.tableLen).length ≤ (bytes.advance 8).len := by
    simp only [BytesMut.advance_len]; omega
  have hent : (self.innerPgTable.flatMap entryImage).length ≤
      ((bytes.advance 8).advance (padImage self.tableLen).length).len := by
    simp only [BytesMut.advance_len]; omega
  have he' : m.Stores ((bytes.advance 8).advance (padImage self.tableLen).length).ptr
      (self.innerPgTable.flatMap entryImage) := by
    simpa [Nat.add_assoc] using he
  have hentries := deserializeEntries_eq self.innerPgTable _ m he' hent
  simp only [tableLen] at hcount hpad hentries hp
  simp only [tableLen] at hp'
  simp only [deserialize, BytesMut.memcpyDeserialize_of_stores (T := UInt64) _ _ _ hc h8,
    Pod.size_uint64, BytesMut.truncateHeader_of_le _ _ h8, hcount,
    deserializePad_eq _ _ _ hp' hpad, hentries, Option.bind_eq_bind, Option.bind_some, tableLen]

end CompactPageTable

namespace ParentDescriptor

/-- What the table loop writes: each VMA descriptor followed by its compact table. -/
def tablesImage : List VMADescriptor → List CompactPageTable → List UInt8
  | v :: vs, t :: ts => Pod.toBytes v ++ t.image ++ tablesImage vs ts
  | _, _ => []

/-- What `serialize` writes for a descriptor. -/
def image (self : ParentDescriptor) : List UInt8 :=
  Pod.toBytes self.regs ++ Pod.toBytes (UInt64.ofNat self.pageTable.length) ++
    tablesImage self.vma self.pageTable ++ Pod.toBytes self.machineInfo

theorem length_tablesImage (vs : List VMADescriptor) (ts : List CompactPageTable)
    (h : ts.length ≤ vs.length) :
    (tablesImage vs ts).length = ts.length * 40 + (ts.map CompactPageTable.serializationBufLen).sum := by
  induction ts generalizing vs with
  | nil => cases vs <;> rfl
  | cons t ts ih =>
    cases vs with
    | nil => simp at h
    | cons v vs =>
      have hrec := ih vs (by simpa using h)
      simp only [tablesImage, List.length_append, Pod.length_toBytes,
        CompactPageTable.length_image, hrec, List.length_cons, List.map_cons, List.sum_cons,
        size_vmaDescriptor]
      ring

/-- Each table entry takes twelve bytes of the image. -/
theorem sum_tableLen_le (vs : List VMADescriptor) (ts : List CompactPageTable)
    (hlen : ts.length ≤ vs.length) :
    (ts.map CompactPageTable.tableLen).sum * 12 ≤ (tablesImage vs ts).length := by
  induction ts generalizing vs with
  | nil => simp
  | cons t ts ih =>
    cases vs with
    | nil => simp at hlen
    | cons v vs =>
      have hrec := ih vs (by simpa using hlen)
      have ht : t.tableLen * 12 ≤ t.image.length := by
        simp only [CompactPageTable.image, List.length_append, CompactPageTable.length_flatMap_entryImage,
          CompactPageTable.tableLen]
        omega
      simp only [tablesImage, List.length_append, List.map_cons, List.sum_cons]
      omega

theorem foldl_serializationBufLen (init : ℕ) (ts : List CompactPageTable) :
    ts.foldl (fun result t => result + t.serializationBufLen) init =
      init + (ts.map CompactPageTable.serializationBufLen).sum := by
  induction ts generalizing init with
  | nil => simp
  | cons t ts ih => simp only [List.foldl_cons, ih, List.map_cons, List.sum_cons]; ring

theorem vmaPgTableSerializationBufLen_eq (self : ParentDescriptor) :
    self.vmaPgTableSerializationBufLen =
      8 + (self.pageTable.map CompactPageTable.serializationBufLen).sum :=
  foldl_serializationBufLen _ _

theorem serializationBufLen_eq (self : ParentDescriptor)
    (hlen : self.vma.length = self.pageTable.length) :
    self.serializationBufLen = self.image.length + 8 := by
  simp only [serializationBufLen, image, vmaPgTableSerializationBufLen_eq,
    Serialize.serializationBufLen_eq, List.length_append, Pod.length_toBytes,
    length_tablesImage _ _ hlen.ge, size_vmaDescriptor, size_regDescriptor,
    size_rdmaDescriptor, hlen, Pod.size_uint64]
  ring

theorem serializeTables_eq (vmas : List VMADescriptor) (i : ℕ) (ts : List CompactPageTable)
    (cur : BytesMut) (m : Memory) (hi : i + ts.length ≤ vmas.length)
    (h : (tablesImage (vmas.drop i) ts).length ≤ cur.len) :
    serializeTables vmas i ts cur m =
      .ok (cur.advance (tablesImage (vmas.drop i) ts).length,
        m.write cur.ptr (tablesImage (vmas.drop i) ts)) := by
  induction ts generalizing i cur m with
  | nil => cases vmas.drop i <;> rfl
  | cons t ts ih =>
    have hlt : i < vmas.length := by simp at hi; omega
    have hdrop : vmas.drop i = vmas[i] :: vmas.drop (i + 1) := List.drop_eq_getElem_cons hlt
    have hindex : index vmas i = .ok vmas[i] := by simp [index, hlt]
    have hrest := ih (i + 1)
    rw [hdrop] at h ⊢
    have hlen : (tablesImage (vmas[i] :: vmas.drop (i + 1)) (t :: ts)).length =
        40 + t.serializationBufLen + (tablesImage (vmas.drop (i + 1)) ts).length := by
      simp only [tablesImage, List.length_append, Pod.length_toBytes,
        CompactPageTable.length_image]
      rfl
    rw [hlen] at h ⊢
    have h40 : 40 ≤ cur.len := by omega
    have ht : t.serializationBufLen ≤ (cur.advance 40).len := by
      simp only [BytesMut.advance_len]; omega
    have htail : (tablesImage (vmas.drop (i + 1)) ts).length ≤
        (cur.advance (40 + t.serializationBufLen)).len := by
      simp only [BytesMut.advance_len]; omega
    simp only [serializeTables, hindex,
      Serialize.serialize_of_le (T := VMADescriptor) _ _ _ h40,
      Serialize.serializationBufLen_eq, size_vmaDescriptor, BytesMut.truncateHeader_of_le _ _ h40,
      CompactPageTable.serialize_eq _ _ _ ht, BytesMut.truncateHeader_of_le _ _ ht,
      unwrap_some, bind, Except.bind, BytesMut.advance_advance]
    rw [hrest _ _ (by simp at hi ⊢; omega) htail, BytesMut.advance_advance,
      Memory.write_write_of_eq _ _ _ _ _ (by simp [CompactPageTable.length_image]; omega)]
    simp only [tablesImage, List.append_assoc]
    rw [Memory.write_write_of_eq _ _ _ _ _ (by simp)]

theorem deserializeTables_eq (vs : List VMADescriptor) (ts : List CompactPageTable)
    (cur : BytesMut) (m : Memory) (hlen : vs.length = ts.length)
    (hs : m.Stores cur.ptr (tablesImage vs ts)) (h : (tablesImage vs ts).length ≤ cur.len) :
    deserializeTables m ts.length cur = some (vs, ts, cur.advance (tablesImage vs ts).length) := by
  induction ts generalizing vs cur with
  | nil => cases vs <;> simp_all [tablesImage, deserializeTables]
  | cons t ts ih =>
    cases vs with
    | nil => simp at hlen
    | cons v vs =>
      simp only [tablesImage, List.append_assoc] at hs h ⊢
      obtain ⟨hv, hs⟩ := (Memory.stores_append _ _ _ _).1 hs
      obtain ⟨ht, hrest⟩ := (Memory.stores_append _ _ _ _).1 hs
      simp only [List.length_append, Pod.length_toBytes, size_vmaDescriptor,
        CompactPageTable.length_image] at h ht hrest ⊢
      have h40 : 40 ≤ cur.len := by omega
      have ht' : m.Stores (cur.advance 40).ptr t.image := ht
      have himg : t.image.length ≤ (cur.advance 40).len := by
        simp only [CompactPageTable.length_image, BytesMut.advance_len]; omega
      have hbuf : t.serializationBufLen ≤ (cur.advance 40).len := by
        simpa [CompactPageTable.length_image] using himg
      have hrest' : m.Stores (cur.advance (40 + t.serializationBufLen)).ptr
          (tablesImage vs ts) := by
        simpa [Nat.add_assoc] using hrest
      have hrec := ih vs _ (by simpa using hlen) hrest' (by simp only [BytesMut.advance_len]; omega)
      simp only [List.length_cons, deserializeTables,
        Serialize.deserialize_of_stores (T := VMADescriptor) _ _ _ hv h40,
        Serialize.serializationBufLen_eq, size_vmaDescriptor, BytesMut.truncateHeader_of_le _ _ h40,
        CompactPageTable.deserialize_eq _ _ _ ht' himg, BytesMut.truncateHeader_of_le _ _ hbuf,
        BytesMut.advance_advance, hrec, Option.bind_eq_bind, Option.bind_some, Nat.add_assoc]

theorem length_image (self : ParentDescriptor) :
    self.image.length = 248 + (tablesImage self.vma self.pageTable).length := by
  simp only [image, List.length_append, Pod.length_toBytes, size_regDescriptor,
    size_rdmaDescriptor, Pod.size_uint64]
  omega

/-- `serialize` stores the image of the descriptor in any window of
`serialization_buf_len` bytes; none of its `unwrap`s fails. -/
theorem serialize_eq (self : ParentDescriptor) (bytes : BytesMut) (m : Memory)
    (hlen : self.vma.length = self.pageTable.length) (h : self.serializationBufLen ≤ bytes.len) :
    self.serialize bytes m = .ok (true, m.write bytes.ptr self.image) := by
  have hbuf := serializationBufLen_eq self hlen
  have himg := length_image self
  have hfits : ¬ bytes.len < self.serializationBufLen := by omega
  have h184 : 184 ≤ bytes.len := by omega
  have h8 : 8 ≤ (bytes.advance 184).len := by simp only [BytesMut.advance_len]; omega
  have htables : (tablesImage (self.vma.drop 0) self.pageTable).length ≤
      (bytes.advance (184 + 8)).len := by
    simp only [List.drop_zero, BytesMut.advance_len]; omega
  have h56 : 56 ≤ (bytes.advance (184 + 8 + (tablesImage self.vma self.pageTable).length)).len := by
    simp only [BytesMut.advance_len]; omega
  simp only [serialize, hfits, if_false, BytesMut.truncateHeader_zero, unwrap_some,
    Serialize.serialize_of_le (T := RegDescriptor) _ _ _ h184, Serialize.serializationBufLen_eq,
    size_regDescriptor, BytesMut.truncateHeader_of_le _ _ h184, BytesMut.memcpySerializeAt,
    BytesMut.memcpySerialize_of_le (T := UInt64) _ _ _ h8, Pod.size_uint64,
    BytesMut.truncateHeader_of_le _ _ h8, BytesMut.advance_advance, assertEq, hlen, if_true,
    serializeTables_eq self.vma 0 self.pageTable _ _ (by simp [hlen]) htables, List.drop_zero,
    Serialize.serialize_of_le (T := RDMADescriptor) _ _ _ h56, bind, Except.bind, pure,
    Except.pure]
  rw [Memory.write_write_of_eq _ _ _ _ _ (by simp; omega),
    Memory.write_write_of_eq _ _ _ _ _ (by simp),
    Memory.write_write_of_eq _ _ _ _ _ (by simp)]
  simp [image]

/-- `deserialize` returns the descriptor whose image is stored in the window. -/
theorem deserialize_eq (self : ParentDescriptor) (bytes : BytesMut) (m : Memory)
    (hlen : self.vma.length = self.pageTable.length) (hs : m.Stores bytes.ptr self.image)
    (h : self.image.length ≤ bytes.len) : deserialize bytes m = some self := by
  have himg := length_image self
  have htl := length_tablesImage self.vma self.pageTable hlen.ge
  have hcount : (UInt64.ofNat self.pageTable.length).toNat = self.pageTable.length := by
    have hsmall : self.pageTable.length < 2 ^ 64 := by
      have := bytes.len_lt
      omega
    exact UInt64.toNat_ofNat_of_lt' hsmall
  simp only [image, List.append_assoc] at hs
  obtain ⟨hr, hs⟩ := (Memory.stores_append _ _ _ _).1 hs
  obtain ⟨hc, hs⟩ := (Memory.stores_append _ _ _ _).1 hs
  obtain ⟨htab, hmi⟩ := (Memory.stores_append _ _ _ _).1 hs
  simp only [Pod.length_toBytes, size_regDescriptor, Pod.size_uint64] at hc htab hmi
  have h184 : 184 ≤ bytes.len := by omega
  have h8 : 8 ≤ (bytes.advance 184).len := by simp only [BytesMut.advance_len]; omega
  have hc' : m.Stores (bytes.advance 184).ptr (Pod.toBytes (UInt64.ofNat self.pageTable.length)) :=
    hc
  have htab' : m.Stores (bytes.advance (184 + 8)).ptr (tablesImage self.vma self.pageTable) := by
    simpa [Nat.add_assoc] using htab
  have hmi' : m.Stores
      (bytes.advance (184 + 8 + (tablesImage self.vma self.pageTable).length)).ptr
      (Pod.toBytes self.machineInfo) := by
    simpa [Nat.add_assoc] using hmi
  have hrec := deserializeTables_eq self.vma self.pageTable _ m hlen htab'
    (by simp only [BytesMut.advance_len]; omega)
  simp only [deserialize, Serialize.deserialize_of_stores (T := RegDescriptor) _ _ _ hr h184,
    Serialize.serializationBufLen_eq, size_regDescriptor, BytesMut.truncateHeader_of_le _ _ h184,
    BytesMut.memcpyDeserialize_of_stores (T := UInt64) _ _ _ hc' h8, Pod.size_uint64,
    BytesMut.truncateHeader_of_le _ _ h8, BytesMut.advance_advance, hcount, hrec,
    Serialize.deserialize_of_stores (T := RDMADescriptor) _ _ _ hmi'
      (by simp only [size_rdmaDescriptor, BytesMut.advance_len]; omega),
    Option.bind_eq_bind, Option.bind_some]

/-- Descriptor round trip: for every descriptor with one compact table per VMA and every
window of at least `serialization_buf_len` bytes over any memory, `serialize` returns
`true` without panicking and `deserialize` of the same window returns the descriptor. -/
theorem serialize_then_deserialize (p : ParentDescriptor)
    (hlen : p.vma.length = p.pageTable.length) (bytes : BytesMut)
    (hbuf : p.serializationBufLen ≤ bytes.len) (m : Memory) :
    ∃ m', p.serialize bytes m = .ok (true, m') ∧ deserialize bytes m' = some p := by
  refine ⟨m.write bytes.ptr p.image, serialize_eq p bytes m hlen hbuf, ?_⟩
  have hbuf' := serializationBufLen_eq p hlen
  exact deserialize_eq p bytes _ hlen (Memory.stores_write _ _ _) (by omega)

/-- Round trip of a descriptor with one VMA whose table has an odd number of entries. -/
theorem serialize_then_deserialize_odd_table :
    let p : ParentDescriptor :=
      ⟨⟨⟨List.replicate 21 0, rfl⟩, 0, 0⟩, [⟨[(0x10, 4)]⟩], [⟨(0x1000, 0x3000), 0, 0, true⟩],
        ⟨73, 1, ⟨List.replicate 16 0, rfl⟩, 0, 0xdeadbeaf, 0, 0, 0⟩⟩
    let bytes : BytesMut := ⟨0, 320, by decide⟩
    p.vma.length = p.pageTable.length ∧ p.serializationBufLen ≤ bytes.len ∧
      ∃ m', p.serialize bytes (fun _ => 0) = .ok (true, m') ∧ deserialize bytes m' = some p :=
  ⟨by decide, by decide, serialize_then_deserialize _ (by decide) _ (by decide) _⟩

end ParentDescriptor

end Mitosis
