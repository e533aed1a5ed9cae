import Mitosis.Descriptors.Parent

/-!
# The flat page table and its wire format

`FlatPageTable` maps virtual addresses to physical ones in a hash map. `serialize` writes the
number of entries and then every `(vaddr, paddr)` pair as the map iterates, sixteen bytes each;
`deserialize` reads the count and as many pairs, each with two checked copies, and inserts
them into a new map.

The hash map's iteration order is not specified. The map is an association list here, and the
order of its entries stands for the iteration order: since every order of distinct keys is an
association list, the round trip below holds for every order. The decoder inserts the pairs
in the order it reads them, so it builds the map in the reverse order, which is the same map.
-/
namespace Mitosis
open OsNetwork

/-- `PageMap`: the hash map from virtual to physical addresses. -/
abbrev FlatPageMap : Type := AList fun _ : VirtAddrType => PhyAddrType

/-- `FlatPageTable(pub PageMap)`. -/
structure FlatPageTable where
  pageMap : FlatPageMap

namespace FlatPageTable

def new : FlatPageTable := ⟨∅⟩

/-- `add_one`: `HashMap::insert`, which replaces the value of a present key. -/
def addOne (self : FlatPageTable) (v : VirtAddrType) (p : PhyAddrType) : FlatPageTable :=
  ⟨self.pageMap.insert v p⟩

def len (self : FlatPageTable) : ℕ := self.pageMap.entries.length

def translate (self : FlatPageTable) (vaddr : VirtAddrType) : Option PhyAddrType :=
  self.pageMap.lookup vaddr

/-- `iter`: the entries in the map's iteration order. -/
def iter (self : FlatPageTable) : List (Σ _ : VirtAddrType, PhyAddrType) := self.pageMap.entries

/-- `calculate_serialization_buf_len`: sixteen bytes an entry and the `usize` count. -/
def calculateSerializationBufLen (_self : FlatPageTable) (len : ℕ) : ℕ :=
  (Pod.size VirtAddrType + Pod.size PhyAddrType) * len + Pod.size UInt64

def serializationBufLen (self : FlatPageTable) : ℕ := self.calculateSerializationBufLen self.len

/-- The entry loop of `serialize`: the address, then the value after it, then the cursor
moves past both. -/
def serializeEntries : List (Σ _ : VirtAddrType, PhyAddrType) → BytesMut → Memory →
    Except String Memory
  | [], _, m => .ok m
  | ⟨vaddr, paddr⟩ :: rest, cur, m => do
    let (sz0, m) := cur.memcpySerializeAt 0 vaddr m
    let sz0 ← unwrap sz0
    let (sz1, m) := cur.memcpySerializeAt sz0 paddr m
    let sz1 ← unwrap sz1
    let cur ← unwrap (cur.truncateHeader (sz0 + sz1))
    serializeEntries rest cur m

def serialize (self : FlatPageTable) (bytes : BytesMut) (m : Memory) :
    Except String (Bool × Memory) := do
  if bytes.len < self.serializationBufLen then return (false, m)
  let cur ← unwrap (bytes.truncateHeader 0)
  let (sz, m) := cur.memcpySerializeAt 0 (UInt64.ofNat self.len) m
  let sz ← unwrap sz
  let cur ← unwrap (cur.truncateHeader sz)
  let m ← serializeEntries self.iter cur m
  return (true, m)

/-- The entry loop of `deserialize`: each pair is inserted as soon as it is read. -/
def deserializeEntries (m : Memory) : ℕ → BytesMut → FlatPageMap → Option FlatPageMap
  | 0, _, res => some res
  | n + 1, cur, res => do
    let ((virt : VirtAddrType), sz0) ← cur.memcpyDeserializeAt 0 m
    let ((phy : PhyAddrType), sz1) ← cur.memcpyDeserializeAt sz0 m
    let res := res.insert virt phy
    let cur ← cur.truncateHeader (sz0 + sz1)
    deserializeEntries m n cur res

def deserialize (bytes : BytesMut) (m : Memory) : Option FlatPageTable := do
  let ((count : UInt64), off) ← bytes.memcpyDeserialize m
  let cur ← bytes.truncateHeader off
  let res ← deserializeEntries m count.toNat cur ∅
  some ⟨res⟩

/-! ## The round trip -/

/-- The bytes of one entry: the address, then the value. -/
def entryImage (e : Σ _ : VirtAddrType, PhyAddrType) : List UInt8 :=
  Pod.toBytes e.1 ++ Pod.toBytes e.2

/-- What `serialize` writes: the count, then the entries in the iteration order. -/
def image (self : FlatPageTable) : List UInt8 :=
  Pod.toBytes (UInt64.ofNat self.len) ++ self.iter.flatMap entryImage

@[simp] theorem length_entryImage (e : Σ _ : VirtAddrType, PhyAddrType) :
    (entryImage e).length = 16 := by
  simp [entryImage]

theorem length_flatMap_entryImage (es : List (Σ _ : VirtAddrType, PhyAddrType)) :
    (es.flatMap entryImage).length = 16 * es.length := by
  induction es with
  | nil => rfl
  | cons e es ih => simp [ih]; ring

theorem length_image (self : FlatPageTable) : self.image.length = self.serializationBufLen := by
  simp only [image, List.length_append, Pod.length_toBytes, length_flatMap_entryImage,
    serializationBufLen, calculateSerializationBufLen, iter, len, Pod.size_uint64]
  omega

/-- The entry loop stores the images of the entries one after the other. -/
theorem serializeEntries_eq (es : List (Σ _ : VirtAddrType, PhyAddrType)) (cur : BytesMut)
    (m : Memory) (h : (es.flatMap entryImage).length ≤ cur.len) :
    serializeEntries es cur m = .ok (m.write cur.ptr (es.flatMap entryImage)) := by
  induction es generalizing cur m with
  | nil => rfl
  | cons e es ih =>
    obtain ⟨vaddr, paddr⟩ := e
    have hlen : (List.flatMap entryImage (⟨vaddr, paddr⟩ :: es)).length =
        16 + (es.flatMap entryImage).length := by simp
    rw [hlen] at h
    have h8 : 8 ≤ cur.len := by omega
    have h8' : 8 ≤ (cur.advance 8).len := by simp only [BytesMut.advance_len]; omega
    have h16 : 8 + 8 ≤ cur.len := by omega
    have hstep : serializeEntries (⟨vaddr, paddr⟩ :: es) cur m = serializeEntries es
        (cur.advance 16) ((m.write cur.ptr (Pod.toBytes vaddr)).write (cur.ptr + 8)
          (Pod.toBytes paddr)) := by
      simp only [serializeEntries, BytesMut.memcpySerializeAt, BytesMut.truncateHeader_zero,
        BytesMut.memcpySerialize_of_le (T := UInt64) _ _ _ h8, Pod.size_uint64,
        BytesMut.truncateHeader_of_le _ _ h8, BytesMut.memcpySerialize_of_le (T := UInt64) _ _ _ h8',
        BytesMut.truncateHeader_of_le _ _ h16, unwrap_some, ok_bind, BytesMut.advance_ptr]
    rw [hstep, ih _ _ (by simp only [BytesMut.advance_len]; omega),
      Memory.write_write_of_eq _ _ _ _ _ (by simp), Memory.write_write_of_eq]
    · simp [entryImage]
    · simp

/-- `serialize` stores the image of the table when the window is long enough. -/
theorem serialize_eq (self : FlatPageTable) (bytes : BytesMut) (m : Memory)
    (h : self.serializationBufLen ≤ bytes.len) :
    self.serialize bytes m = .ok (true, m.write bytes.ptr self.image) := by
  have himg := length_image self
  have h8 : 8 ≤ bytes.len := by
    simp only [serializationBufLen, calculateSerializationBufLen, Pod.size_uint64] at h; omega
  have hent : (self.iter.flatMap entryImage).length ≤ (bytes.advance 8).len := by
    simp only [image, List.length_append, Pod.length_toBytes, Pod.size_uint64] at himg
    simp only [BytesMut.advance_len]; omega
  have hfits : ¬ bytes.len < self.serializationBufLen := by omega
  simp only [serialize, hfits, if_false, BytesMut.truncateHeader_zero, unwrap_some, ok_bind,
    BytesMut.memcpySerializeAt, BytesMut.memcpySerialize_of_le (T := UInt64) _ _ _ h8,
    Pod.size_uint64, BytesMut.truncateHeader_of_le _ _ h8, serializeEntries_eq _ _ _ hent,
    BytesMut.advance_ptr]
  rw [Memory.write_write_of_eq _ _ _ _ _ (by simp)]
  rfl

/-- Inserting entries with distinct keys one after the other: each key of the entries is
bound to its value, and every other key keeps its binding. -/
theorem lookup_foldl_insert (es : List (Σ _ : VirtAddrType, PhyAddrType)) (hes : es.NodupKeys)
    (res : FlatPageMap) (k : VirtAddrType) :
    (es.foldl (fun r e => r.insert e.1 e.2) res).lookup k = (es.dlookup k).or (res.lookup k) := by
  induction es generalizing res with
  | nil => simp
  | cons e es ih =>
    obtain ⟨a, v⟩ := e
    rw [List.nodupKeys_cons] at hes
    rw [List.foldl_cons, ih hes.2]
    by_cases hk : k = a
    · -- the key of the head is not among the others, so its own insert decides
      subst hk
      rw [List.dlookup_eq_none.mpr hes.1, AList.lookup_insert, List.dlookup_cons_eq]
      rfl
    · rw [AList.lookup_insert_ne hk, List.dlookup_cons_ne _ _ hk]

/-- Inserting entries with distinct keys that the map does not hold adds one entry each. -/
theorem length_foldl_insert (es : List (Σ _ : VirtAddrType, PhyAddrType)) (hes : es.NodupKeys)
    (res : FlatPageMap) (hfresh : ∀ e ∈ es, e.1 ∉ res) :
    (es.foldl (fun r e => r.insert e.1 e.2) res).entries.length =
      res.entries.length + es.length := by
  induction es generalizing res with
  | nil => rfl
  | cons e es ih =>
    rw [List.nodupKeys_cons] at hes
    have hnot : e.1 ∉ res := hfresh e List.mem_cons_self
    rw [List.foldl_cons, ih hes.2 _ fun e' he' => ?_, AList.entries_insert_of_notMem hnot]
    · simp; omega
    · -- a later key is neither in the map nor the head's
      rw [AList.mem_insert]
      rintro (heq | hmem)
      · exact hes.1 (heq ▸ List.mem_keys_of_mem he')
      · exact hfresh e' (List.mem_cons_of_mem _ he') hmem

/-- The entry loop reads back the entries whose images are stored at the cursor and inserts
them in the order it reads them. -/
theorem deserializeEntries_eq (es : List (Σ _ : VirtAddrType, PhyAddrType)) (cur : BytesMut)
    (m : Memory) (hs : m.Stores cur.ptr (es.flatMap entryImage))
    (h : (es.flatMap entryImage).length ≤ cur.len) (res : FlatPageMap) :
    deserializeEntries m es.length cur res =
      some (es.foldl (fun r e => r.insert e.1 e.2) res) := by
  induction es generalizing cur res with
  | nil => rfl
  | cons e es ih =>
    obtain ⟨vaddr, paddr⟩ := e
    have hlen : (List.flatMap entryImage (⟨vaddr, paddr⟩ :: es)).length =
        16 + (es.flatMap entryImage).length := by simp
    rw [hlen] at h
    simp only [List.flatMap_cons, entryImage, List.append_assoc] at hs
    obtain ⟨hv, hs⟩ := (Memory.stores_append _ _ _ _).1 hs
    obtain ⟨hp, hrest⟩ := (Memory.stores_append _ _ _ _).1 hs
    rw [Pod.length_toBytes, Pod.size_uint64] at hp hrest
    rw [Pod.length_toBytes, Pod.size_uint64] at hrest
    have h8 : 8 ≤ cur.len := by omega
    have h8' : 8 ≤ (cur.advance 8).len := by simp only [BytesMut.advance_len]; omega
    have h16 : 8 + 8 ≤ cur.len := by omega
    have hp' : m.Stores (cur.advance 8).ptr (Pod.toBytes paddr) := hp
    have hrest' : m.Stores (cur.advance 16).ptr (es.flatMap entryImage) := by
      simpa [Nat.add_assoc] using hrest
    have hstep : deserializeEntries m (es.length + 1) cur res =
        deserializeEntries m es.length (cur.advance 16) (res.insert vaddr paddr) := by
      simp only [deserializeEntries, BytesMut.memcpyDeserializeAt, BytesMut.truncateHeader_zero,
        BytesMut.memcpyDeserialize_of_stores (T := UInt64) _ _ _ hv h8, Pod.size_uint64,
        BytesMut.truncateHeader_of_le _ _ h8,
        BytesMut.memcpyDeserialize_of_stores (T := UInt64) _ _ _ hp' h8',
        BytesMut.truncateHeader_of_le _ _ h16, Option.bind_eq_bind, Option.bind_some]
    rw [List.length_cons, hstep, ih _ hrest' (by simp only [BytesMut.advance_len]; omega),
      List.foldl_cons]

/-- `deserialize` of the image of a table inserts its entries in their iteration order into
an empty map. -/
theorem deserialize_eq (self : FlatPageTable) (bytes : BytesMut) (m : Memory)
    (hs : m.Stores bytes.ptr self.image) (h : self.image.length ≤ bytes.len) :
    deserialize bytes m = some ⟨self.iter.foldl (fun r e => r.insert e.1 e.2) ∅⟩ := by
  have hsplit : self.image.length = 8 + (self.iter.flatMap entryImage).length := by
    simp only [image, List.length_append, Pod.length_toBytes, Pod.size_uint64]
  -- the count fits the `usize` it is stored in, since the image fits the window
  have hcount : (UInt64.ofNat self.len).toNat = self.len := by
    have hlt := bytes.len_lt
    rw [length_flatMap_entryImage] at hsplit
    have hsmall : self.len < 2 ^ 64 := by simp only [iter, len] at hsplit ⊢; omega
    exact UInt64.toNat_ofNat_of_lt' hsmall
  simp only [image] at hs
  obtain ⟨hc, he⟩ := (Memory.stores_append _ _ _ _).1 hs
  rw [Pod.length_toBytes, Pod.size_uint64] at he
  have h8 : 8 ≤ bytes.len := by omega
  have he' : m.Stores (bytes.advance 8).ptr (self.iter.flatMap entryImage) := he
  have hent := deserializeEntries_eq self.iter _ m he'
    (by simp only [BytesMut.advance_len]; omega) ∅
  simp only [iter, len] at hcount hent
  simp only [deserialize, BytesMut.memcpyDeserialize_of_stores (T := UInt64) _ _ _ hc h8,
    Pod.size_uint64, BytesMut.truncateHeader_of_le _ _ h8, len, hcount, hent, iter,
    Option.bind_eq_bind, Option.bind_some]

/-- The flat page table round trip, for every map and every iteration order: into a window of
at least `serialization_buf_len` bytes `serialize` succeeds, and `deserialize` of the window
gives a table that translates every address as the original and has its length. -/
theorem deserialize_serialize_same_map (t : FlatPageTable) (bytes : BytesMut)
    (hbuf : t.serializationBufLen ≤ bytes.len) (m : Memory) :
    ∃ m', t.serialize bytes m = .ok (true, m') ∧ ∃ u, deserialize bytes m' = some u ∧
      (∀ v, u.translate v = t.translate v) ∧ u.len = t.len := by
  have hfit : t.image.length ≤ bytes.len := by rw [length_image]; exact hbuf
  refine ⟨_, serialize_eq t bytes m hbuf, _,
    deserialize_eq t bytes _ (Memory.stores_write _ _ _) hfit, fun v => ?_, ?_⟩
  · -- the keys of a map are distinct, so each is bound to its own value
    simp only [translate, iter]
    rw [lookup_foldl_insert _ t.pageMap.nodupKeys, AList.lookup_empty, Option.or_none]
    rfl
  · simp only [len, iter]
    rw [length_foldl_insert _ t.pageMap.nodupKeys _ fun _ _ => AList.notMem_empty _,
      AList.empty_entries, List.length_nil, Nat.zero_add]

end FlatPageTable

/-- The unit test's table, `0xdeadbeaf ↦ 73` and `0xffff ↦ 64`, in a window of exactly
`serialization_buf_len` bytes. -/
theorem deserialize_serialize_same_map_test :
    let t := (FlatPageTable.new.addOne 0xdeadbeaf 73).addOne 0xffff 64
    let bytes : BytesMut := ⟨0, 40, by decide⟩
    t.serializationBufLen ≤ bytes.len ∧
      ∃ m', t.serialize bytes (fun _ => 0) = .ok (true, m') ∧ ∃ u,
        FlatPageTable.deserialize bytes m' = some u ∧
        (∀ v, u.translate v = t.translate v) ∧ u.len = t.len :=
  ⟨by decide, FlatPageTable.deserialize_serialize_same_map _ _ (by decide) _⟩

end Mitosis
