import Mitosis.Descriptors.Parent

/-!
# Where the decoders read

The decoders of the descriptors read the buffer in two ways. The checked copies
(`memcpy_deserialize` of the counts and pads) read only when the value fits the window. The
entry loops read each field with `read_unaligned_at_head`, which does not look at the window,
and only then cut the field off with `truncate_header`, which fails when the window is
shorter. A window that ends inside an entry is therefore read past its end before the decoder
returns `None`.

The decoders of the model return the value and not the places they read, so the reads are
listed here beside them, in the order the source makes them, with the same stopping points;
`deserializeEntries_isSome_iff` and `entriesReads_in_iff` say when the entry loop stops and
what it has read by then.
-/
namespace OsNetwork

/-- A read of `width` bytes at an address. -/
structure Read where
  addr : ℕ
  width : ℕ
  deriving DecidableEq, Repr

/-- The read lies in the window. -/
def Read.In (r : Read) (b : BytesMut) : Prop := b.ptr ≤ r.addr ∧ r.addr + r.width ≤ b.ptr + b.len

instance (r : Read) (b : BytesMut) : Decidable (r.In b) := inferInstanceAs (Decidable (_ ∧ _))

namespace BytesMut

/-- The read of a checked copy of a `T`: one read of its size when it fits, none otherwise. -/
def memcpyReads (T : Type) [Pod T] (self : BytesMut) : List Read :=
  if Pod.size T ≤ self.len then [⟨self.ptr, Pod.size T⟩] else []

/-- A window inside `b` that ends where `b` ends, as a cursor over `b` is. -/
def Suffix (cur b : BytesMut) : Prop := b.ptr ≤ cur.ptr ∧ cur.ptr + cur.len = b.ptr + b.len

theorem Suffix.refl (b : BytesMut) : Suffix b b := ⟨le_rfl, rfl⟩

theorem Suffix.advance {cur b : BytesMut} (hs : Suffix cur b) {off : ℕ} (h : off ≤ cur.len) :
    Suffix (cur.advance off) b := by
  obtain ⟨h₁, h₂⟩ := hs
  exact ⟨by simp; omega, by simp; omega⟩

theorem Suffix.read_in_iff {cur b : BytesMut} (hs : Suffix cur b) (w : ℕ) :
    (⟨cur.ptr, w⟩ : Read).In b ↔ w ≤ cur.len := by
  obtain ⟨h₁, h₂⟩ := hs
  simp only [Read.In]
  omega

end BytesMut

end OsNetwork

namespace Mitosis
open OsNetwork

namespace CompactPageTable

/-- The reads of the entry loop: each field at the head of the cursor, unchecked; the loop
stops at the first `truncate_header` that fails. -/
def entriesReads : ℕ → BytesMut → List Read
  | 0, _ => []
  | n + 1, cur => ⟨cur.ptr, Pod.size Offset⟩ :: match cur.truncateHeader (Pod.size Offset) with
    | none => []
    | some cur => ⟨cur.ptr, Pod.size Value⟩ :: match cur.truncateHeader (Pod.size Value) with
      | none => []
      | some cur => entriesReads n cur

/-- The reads of the pad block: a checked copy of a `u32` after an odd count. -/
def padReads (count : ℕ) (cur : BytesMut) : List Read :=
  if needsPad count then cur.memcpyReads UInt32 else []

/-- The reads of `CompactPageTable::deserialize`: the count, the pad, and the entries, each
part made only when the one before succeeded. -/
def deserializeReads (bytes : BytesMut) (m : Memory) : List Read :=
  bytes.memcpyReads UInt64 ++ match (bytes.memcpyDeserialize m : Option (UInt64 × ℕ)) with
    | none => []
    | some (count, off) => match bytes.truncateHeader off with
      | none => []
      | some cur => padReads count.toNat cur ++ match deserializePad count.toNat cur m with
        | none => []
        | some cur => entriesReads count.toNat cur

theorem deserializeEntries_succ_of_le (m : Memory) (n : ℕ) {cur : BytesMut} (h : 12 ≤ cur.len) :
    deserializeEntries m (n + 1) cur =
      (deserializeEntries m n (cur.advance 12)).map fun r =>
        ((cur.readUnalignedAtHead m, (cur.advance 4).readUnalignedAtHead m) :: r.1, r.2) := by
  have h4 : 4 ≤ cur.len := by omega
  have h8 : 8 ≤ (cur.advance 4).len := by simp only [BytesMut.advance_len]; omega
  simp only [deserializeEntries, Pod.size_uint32, Pod.size_uint64,
    BytesMut.truncateHeader_of_le _ _ h4, BytesMut.truncateHeader_of_le _ _ h8,
    BytesMut.advance_advance, Option.bind_eq_bind, Option.bind_some]
  cases deserializeEntries m n (cur.advance (4 + 8)) <;> rfl

theorem deserializeEntries_succ_of_lt (m : Memory) (n : ℕ) {cur : BytesMut} (h : cur.len < 12) :
    deserializeEntries m (n + 1) cur = none := by
  by_cases h4 : 4 ≤ cur.len
  · have h8 : (cur.advance 4).len < 8 := by simp only [BytesMut.advance_len]; omega
    simp only [deserializeEntries, Pod.size_uint32, Pod.size_uint64,
      BytesMut.truncateHeader_of_le _ _ h4, BytesMut.truncateHeader_eq_none _ _ h8,
      Option.bind_eq_bind, Option.bind_some, Option.bind_none]
  · simp only [deserializeEntries, Pod.size_uint32,
      BytesMut.truncateHeader_eq_none _ _ (Nat.lt_of_not_le h4), Option.bind_eq_bind,
      Option.bind_none]

/-- The entry loop succeeds exactly when the entries it is asked for fit the window. -/
theorem deserializeEntries_isSome_iff (m : Memory) :
    ∀ (n : ℕ) (cur : BytesMut), (deserializeEntries m n cur).isSome ↔ 12 * n ≤ cur.len
  | 0, cur => by simp [deserializeEntries]
  | n + 1, cur => by
    by_cases h : 12 ≤ cur.len
    · rw [deserializeEntries_succ_of_le m n h, Option.isSome_map,
        deserializeEntries_isSome_iff m n, BytesMut.advance_len]
      omega
    · rw [deserializeEntries_succ_of_lt m n (Nat.lt_of_not_le h)]
      simp only [Option.isSome_none, Bool.false_eq_true, false_iff]
      omega

theorem entriesReads_succ_of_le (n : ℕ) {cur : BytesMut} (h : 12 ≤ cur.len) :
    entriesReads (n + 1) cur =
      ⟨cur.ptr, 4⟩ :: ⟨cur.ptr + 4, 8⟩ :: entriesReads n (cur.advance 12) := by
  have h4 : 4 ≤ cur.len := by omega
  have h8 : 8 ≤ (cur.advance 4).len := by simp only [BytesMut.advance_len]; omega
  simp only [entriesReads, Pod.size_uint32, Pod.size_uint64,
    BytesMut.truncateHeader_of_le _ _ h4, BytesMut.truncateHeader_of_le _ _ h8,
    BytesMut.advance_advance, BytesMut.advance_ptr]

/-- An entry cut short by the end of the window is read past that end: the offset when fewer
than four bytes are left, the value otherwise. -/
theorem entriesReads_succ_of_lt (n : ℕ) {b cur : BytesMut} (hs : cur.Suffix b)
    (h : cur.len < 12) : ∃ r ∈ entriesReads (n + 1) cur, ¬ r.In b := by
  by_cases h4 : 4 ≤ cur.len
  · have h8 : (cur.advance 4).len < 8 := by simp only [BytesMut.advance_len]; omega
    refine ⟨⟨(cur.advance 4).ptr, 8⟩, ?_, fun hin => ?_⟩
    · simp only [entriesReads, Pod.size_uint32, Pod.size_uint64,
        BytesMut.truncateHeader_of_le _ _ h4, BytesMut.truncateHeader_eq_none _ _ h8]
      simp
    · have := ((hs.advance h4).read_in_iff 8).mp hin
      omega
  · refine ⟨⟨cur.ptr, 4⟩, ?_, fun hin => ?_⟩
    · simp [entriesReads]
    · have := (hs.read_in_iff 4).mp hin
      omega

/-- The entry loop reads inside `b` exactly when the entries it is asked for fit the cursor. -/
theorem entriesReads_in_iff {b : BytesMut} :
    ∀ (n : ℕ) {cur : BytesMut}, cur.Suffix b →
      ((∀ r ∈ entriesReads n cur, r.In b) ↔ 12 * n ≤ cur.len)
  | 0, cur, _ => by simp [entriesReads]
  | n + 1, cur, hs => by
    by_cases h : 12 ≤ cur.len
    · have h4 : 4 ≤ cur.len := by omega
      rw [entriesReads_succ_of_le n h, List.forall_mem_cons, List.forall_mem_cons,
        entriesReads_in_iff n (hs.advance h), hs.read_in_iff,
        ← BytesMut.advance_ptr, (hs.advance h4).read_in_iff]
      simp only [BytesMut.advance_len]
      omega
    · obtain ⟨r, hr, hout⟩ := entriesReads_succ_of_lt n hs (Nat.lt_of_not_le h)
      exact iff_of_false (fun hall => hout (hall r hr)) (by omega)

/-- The length of the pad block. -/
def padLen (count : ℕ) : ℕ := if needsPad count then 4 else 0

theorem deserializePad_of_le (count : ℕ) (cur : BytesMut) (m : Memory) (h : padLen count ≤ cur.len) :
    deserializePad count cur m = some (cur.advance (padLen count)) := by
  unfold deserializePad padLen at *
  cases hp : needsPad count
  · simp
  · have h4 : 4 ≤ cur.len := by simpa [hp] using h
    simp [BytesMut.memcpyDeserialize, h4, BytesMut.truncateHeader_of_le _ _ h4]

theorem padReads_in {b cur : BytesMut} (hs : cur.Suffix b) (count : ℕ) (h : padLen count ≤ cur.len) :
    ∀ r ∈ padReads count cur, r.In b := by
  unfold padReads padLen at *
  cases hp : needsPad count
  · simp
  · have h4 : Pod.size UInt32 ≤ cur.len := by simpa [hp] using h
    simp only [if_true, BytesMut.memcpyReads, h4, List.mem_singleton, forall_eq]
    exact (hs.read_in_iff _).mpr h4

/-- `CompactPageTable::deserialize` of a buffer whose count and pad it can read stays inside
the buffer exactly when it succeeds: when the count asks for more entries than the rest of
the buffer holds, it returns `None` after reading past the end of the buffer. -/
theorem deserialize_reads_in_iff_isSome (bytes : BytesMut) (m : Memory) (count : UInt64)
    (hc : (bytes.memcpyDeserialize m : Option (UInt64 × ℕ)) = some (count, 8))
    (hpad : 8 + padLen count.toNat ≤ bytes.len) :
    (∀ r ∈ deserializeReads bytes m, r.In bytes) ↔ (deserialize bytes m).isSome := by
  have h8 : 8 ≤ bytes.len := by omega
  have hs₈ := (BytesMut.Suffix.refl bytes).advance h8
  have hpad' : padLen count.toNat ≤ (bytes.advance 8).len := by
    simp only [BytesMut.advance_len]; omega
  have hs := hs₈.advance hpad'
  have hcount : (⟨bytes.ptr, Pod.size UInt64⟩ : Read).In bytes :=
    ((BytesMut.Suffix.refl bytes).read_in_iff _).mpr h8
  -- both sides come down to the entries fitting after the count and the pad
  have hreads : deserializeReads bytes m = ⟨bytes.ptr, Pod.size UInt64⟩ ::
      (padReads count.toNat (bytes.advance 8) ++
        entriesReads count.toNat ((bytes.advance 8).advance (padLen count.toNat))) := by
    simp only [deserializeReads, BytesMut.memcpyReads, Pod.size_uint64, if_pos h8, hc,
      BytesMut.truncateHeader_of_le _ _ h8, deserializePad_of_le _ _ _ hpad']
    rfl
  have hdes : (deserialize bytes m).isSome =
      (deserializeEntries m count.toNat ((bytes.advance 8).advance (padLen count.toNat))).isSome := by
    simp only [deserialize, hc, BytesMut.truncateHeader_of_le _ _ h8,
      deserializePad_of_le _ _ _ hpad', Option.bind_eq_bind, Option.bind_some]
    cases deserializeEntries m count.toNat ((bytes.advance 8).advance (padLen count.toNat)) <;> rfl
  rw [hreads, hdes, List.forall_mem_cons, List.forall_mem_append,
    entriesReads_in_iff _ hs, deserializeEntries_isSome_iff]
  exact ⟨fun h => h.2.2, fun h => ⟨hcount, padReads_in hs₈ _ hpad', h⟩⟩

end CompactPageTable

/-- A sixteen-byte buffer holding the count one: after the count and the pad four bytes are
left, the offset is read inside the buffer and the value past its end, and the decoder returns
`None`. -/
theorem deserialize_reads_in_iff_isSome_short :
    let bytes : BytesMut := ⟨0, 16, by decide⟩
    let m : Memory := fun a => if a = 0 then 1 else 0
    ((bytes.memcpyDeserialize m : Option (UInt64 × ℕ)) = some (1, 8) ∧
      8 + CompactPageTable.padLen (1 : UInt64).toNat ≤ bytes.len) ∧
    ((∀ r ∈ CompactPageTable.deserializeReads bytes m, r.In bytes) ↔
      (CompactPageTable.deserialize bytes m).isSome) ∧
    CompactPageTable.deserialize bytes m = none ∧
    (⟨16, 8⟩ : Read) ∈ CompactPageTable.deserializeReads bytes m ∧ ¬ (⟨16, 8⟩ : Read).In bytes :=
  ⟨⟨by decide, by decide⟩,
    CompactPageTable.deserialize_reads_in_iff_isSome _ _ 1 (by decide) (by decide),
    by decide, by decide, by decide⟩

end Mitosis
