import Mitosis.RemoteMapping.PageTable
import Mitosis.Lib.Simulation

/-!
# The remote page table refines a partial map from pages to values

The invariant is a property of the whole heap: every non-zero entry of a table above level
one points to an allocated table one level lower whose back-pointer names that entry
(`HeapWF`). Two facts follow. A walk of `lookup_table` steps from a level-four table goes
down one level per step, so the table that `find_l1_page_idx` returns is at level one; and
the back-pointers make the walk injective, so two addresses reach the same slot only when
their indices agree, that is, when they lie in one page.

`create_table` either finds its entry non-zero and changes nothing, or links a fresh empty
table into an empty entry (`Grows`). Neither changes the value any address reads
(`slotValue`): a walk that now goes through the new table ends in one of its zero entries.
The write of a slot at level one touches no table a walk reads before its last step. From
these, `map` and `force_map` act on slot values as insertion into a partial map, and the
simulation library lifts this to every sequence of operations.
-/
namespace Mitosis
open OsNetwork X86_64

variable {h h' : Heap PageTable}

/-! ## Shape and well-formedness of the heap -/

/-- The level and back-pointer of the table at `p`, if one is allocated there. -/
def shape (h : Heap PageTable) (p : ℕ) : Option (PageTableLevel × ℕ × ℕ) :=
  (h.read p).map fun t => (t.level, t.upperLevel, t.upperLevelIndex)

/-- Every non-zero entry of a table above level one points to a table one level lower whose
back-pointer names that entry. -/
def HeapWF (h : Heap PageTable) : Prop :=
  ∀ p t, h.read p = some t → t.level ≠ .one → ∀ i, t.entries i ≠ 0 →
    ∃ l, shape h (t.entries i) = some (l, p, i) ∧ l.toNat + 1 = t.level.toNat

/-- A well-formed remote page table: a well-formed heap and a level-four root. -/
structure WF (T : RemotePageTable) (h : Heap PageTable) : Prop where
  heap : HeapWF h
  root : ∃ r, h.read T.l4PageTable = some r ∧ r.level = .four

theorem shape_eq_some {p : ℕ} {s : PageTableLevel × ℕ × ℕ} :
    shape h p = some s ↔ ∃ t, h.read p = some t ∧ (t.level, t.upperLevel, t.upperLevelIndex) = s := by
  simp [shape]

theorem ne_next_of_shape {p : ℕ} {s : PageTableLevel × ℕ × ℕ} (hs : shape h p = some s) :
    p ≠ h.next := by
  obtain ⟨t, ht, -⟩ := shape_eq_some.mp hs
  exact Nat.ne_of_lt (h.lt_next_of_read ht)

@[simp] theorem shape_alloc (a : PageTable) (p : ℕ) :
    shape (h.alloc a).2 p =
      if p = h.next then some (a.level, a.upperLevel, a.upperLevelIndex) else shape h p := by
  by_cases hp : p = h.next <;> simp [shape, hp]

@[simp] theorem shape_modify_set (p i v : ℕ) :
    shape (h.modify p fun t => t.set i v) = shape h := by
  funext q
  by_cases hq : q = p
  · subst hq; cases hp : h.read q <;> simp [shape, hp]
  · simp [shape, hq]

theorem heapWF_empty : HeapWF Heap.empty := by
  intro p t hp
  simp at hp

theorem heapWF_alloc_new (hwf : HeapWF h) (l : PageTableLevel) (u i : ℕ) :
    HeapWF (h.alloc (PageTable.new l u i)).2 := by
  intro p t hp hl j hj
  rw [Heap.read_alloc] at hp
  split_ifs at hp with hpn
  · cases hp; simp at hj
  · obtain ⟨l', hs, hlev⟩ := hwf p t hp hl j hj
    exact ⟨l', by rw [shape_alloc, if_neg (ne_next_of_shape hs), hs], hlev⟩

/-- Linking a fresh table one level below `src` into entry `idx` keeps the heap well formed. -/
theorem heapWF_link (hwf : HeapWF h) {src : ℕ} {t : PageTable} (hsrc : h.read src = some t)
    {l : PageTableLevel} (hl : l.toNat + 1 = t.level.toNat) (idx : ℕ) :
    HeapWF ((h.alloc (PageTable.new l src idx)).2.modify src fun pt => pt.set idx h.next) := by
  have hsn : src ≠ h.next := Nat.ne_of_lt (h.lt_next_of_read hsrc)
  -- the shape of every old table survives both the allocation and the write
  have hold : ∀ x s, shape h x = some s →
      shape ((h.alloc (PageTable.new l src idx)).2.modify src fun pt => pt.set idx h.next) x =
        some s := by
    intro x s hs
    rw [shape_modify_set, shape_alloc, if_neg (ne_next_of_shape hs), hs]
  intro p t' hp hlv j hj
  rw [Heap.read_modify, Heap.read_alloc, Heap.read_alloc] at hp
  by_cases hps : p = src
  · subst hps
    simp only [if_true, if_neg hsn, hsrc, Option.map_some, Option.some.injEq] at hp
    subst hp
    by_cases hji : j = idx
    · subst hji
      refine ⟨l, ?_, by simpa using hl⟩
      simp
    · simp only [PageTable.entries_set, if_neg hji] at hj ⊢
      obtain ⟨l', hs, hlev⟩ := hwf p t hsrc (by simpa using hlv) j hj
      exact ⟨l', hold _ _ hs, by simpa using hlev⟩
  · simp only [if_neg hps] at hp
    by_cases hpn : p = h.next
    · simp only [if_pos hpn, Option.some.injEq] at hp
      subst hp; simp at hj
    · simp only [if_neg hpn] at hp
      obtain ⟨l', hs, hlev⟩ := hwf p t' hp hlv j hj
      exact ⟨l', hold _ _ hs, hlev⟩

/-- A write into a level-one table keeps the heap well formed. -/
theorem heapWF_set_leaf (hwf : HeapWF h) {l1 : ℕ} {t : PageTable} (hl1 : h.read l1 = some t)
    (hlev : t.level = .one) (i v : ℕ) : HeapWF (h.modify l1 fun pt => pt.set i v) := by
  intro p t' hp hlv j hj
  rw [Heap.read_modify] at hp
  by_cases hp1 : p = l1
  · subst hp1
    simp only [if_true, hl1, Option.map_some, Option.some.injEq] at hp
    subst hp
    exact absurd hlev (by simpa using hlv)
  · simp only [if_neg hp1] at hp
    obtain ⟨l', hs, hlev'⟩ := hwf p t' hp hlv j hj
    exact ⟨l', by rw [shape_modify_set]; exact hs, hlev'⟩

/-! ## Walks of `lookup_table` -/

/-- Follow `lookup_table` from `src` through the entries named by `path`. -/
def walk (h : Heap PageTable) : ℕ → List ℕ → Option ℕ
  | src, [] => some src
  | src, i :: is => (lookupTable h i src).bind fun next => walk h next is

@[simp] theorem walk_nil (src : ℕ) : walk h src [] = some src := rfl

theorem walk_cons (src i : ℕ) (is : List ℕ) :
    walk h src (i :: is) = (lookupTable h i src).bind fun next => walk h next is := rfl

theorem lookupTable_eq_some_iff {i src n : ℕ} :
    lookupTable h i src = some n ↔ (h.get src).entries i = n ∧ n ≠ 0 := by
  unfold lookupTable
  by_cases he : (h.get src).entries i = 0
  · simp only [he, if_true, reduceCtorEq, false_iff, not_and]
    intro hn; omega
  · simp only [he, if_false, Option.some.injEq]
    constructor
    · intro hn; exact ⟨hn, hn ▸ he⟩
    · exact fun hn => hn.1

theorem lookupTable_eq_none_iff {i src : ℕ} :
    lookupTable h i src = none ↔ (h.get src).entries i = 0 := by
  unfold lookupTable
  by_cases he : (h.get src).entries i = 0 <;> simp [he]

/-- The table below a non-zero entry, with the back-pointer to that entry. -/
theorem child_of_lookupTable (hwf : HeapWF h) {x i n : ℕ} {t : PageTable}
    (hx : h.read x = some t) (hl : t.level ≠ .one) (hn : lookupTable h i x = some n) :
    ∃ c, h.read n = some c ∧ c.level.toNat + 1 = t.level.toNat ∧ c.upperLevel = x ∧
      c.upperLevelIndex = i := by
  obtain ⟨he, hn0⟩ := lookupTable_eq_some_iff.mp hn
  rw [h.get_of_read hx] at he
  obtain ⟨l, hs, hlev⟩ := hwf x t hx hl i (he ▸ hn0)
  rw [he] at hs
  obtain ⟨c, hc, hshape⟩ := shape_eq_some.mp hs
  simp only [Prod.mk.injEq] at hshape
  exact ⟨c, hc, hshape.1 ▸ hlev, hshape.2.1, hshape.2.2⟩

theorem ne_one_of_length_lt {l : PageTableLevel} {is : List ℕ} {i : ℕ}
    (hlen : (i :: is).length < l.toNat) : l ≠ .one := by
  intro hl; subst hl; simp at hlen

/-- Each step of a walk goes one level down. -/
theorem walk_descends (hwf : HeapWF h) : ∀ (path : List ℕ) {x : ℕ} {t : PageTable},
    h.read x = some t → path.length < t.level.toNat → ∀ {y : ℕ}, walk h x path = some y →
      ∃ u, h.read y = some u ∧ u.level.toNat + path.length = t.level.toNat := by
  intro path
  induction path with
  | nil =>
    intro x t hx _ y hy
    cases hy
    exact ⟨t, hx, rfl⟩
  | cons i is ih =>
    intro x t hx hlen y hy
    rw [walk_cons, Option.bind_eq_some_iff] at hy
    obtain ⟨n, hn, hy⟩ := hy
    obtain ⟨c, hc, hlev, -, -⟩ := child_of_lookupTable hwf hx (ne_one_of_length_lt hlen) hn
    obtain ⟨u, hu, hulev⟩ := ih hc (by simp at hlen; omega) hy
    exact ⟨u, hu, by simp; omega⟩

/-- A walk reads only tables above level one, so a heap that agrees with `h` on those
tables gives the same walks. -/
theorem walk_congr (hwf : HeapWF h)
    (hE : ∀ x t j, h.read x = some t → t.level ≠ .one → (h'.get x).entries j = t.entries j) :
    ∀ (path : List ℕ) {x : ℕ} {t : PageTable}, h.read x = some t → path.length < t.level.toNat →
      walk h' x path = walk h x path := by
  intro path
  induction path with
  | nil => intro x t _ _; rfl
  | cons i is ih =>
    intro x t hx hlen
    have hl := ne_one_of_length_lt hlen
    have hlk : lookupTable h' i x = lookupTable h i x := by
      simp only [lookupTable, hE x t i hx hl, h.get_of_read hx]
    rw [walk_cons, walk_cons, hlk]
    cases hn : lookupTable h i x with
    | none => rfl
    | some n =>
      obtain ⟨c, hc, hlev, -, -⟩ := child_of_lookupTable hwf hx hl hn
      exact ih hc (by simp at hlen; omega)

/-- `h'` is `h` with the empty entry `idx` of `src` now pointing to a fresh empty table `n`. -/
structure Grows (h h' : Heap PageTable) (src idx n : ℕ) : Prop where
  ne_zero : n ≠ 0
  was_zero : (h.get src).entries idx = 0
  entries_eq : ∀ x j, (h'.get x).entries j = if x = src ∧ j = idx then n else (h.get x).entries j
  fresh : ∀ j, (h'.get n).entries j = 0

/-- After a table grows, a walk reaches what it reached before, or it failed before and now
ends at the new table. -/
theorem walk_grows {src idx n : ℕ} (hg : Grows h h' src idx n) : ∀ (path : List ℕ) (x : ℕ),
    walk h' x path = walk h x path ∨ (walk h x path = none ∧ walk h' x path = some n) := by
  intro path
  induction path with
  | nil => intro x; exact .inl rfl
  | cons i is ih =>
    intro x
    by_cases hxi : x = src ∧ i = idx
    · -- the walk crosses the new link: it failed before, and now enters the empty table
      obtain ⟨rfl, rfl⟩ := hxi
      have hold : lookupTable h i x = none := lookupTable_eq_none_iff.mpr hg.was_zero
      have hnew : lookupTable h' i x = some n :=
        lookupTable_eq_some_iff.mpr ⟨by simp [hg.entries_eq], hg.ne_zero⟩
      rw [walk_cons, walk_cons, hold, hnew]
      cases is with
      | nil => exact .inr ⟨rfl, rfl⟩
      | cons j js =>
        left
        have hstop : lookupTable h' j n = none := lookupTable_eq_none_iff.mpr (hg.fresh j)
        simp [walk_cons, hstop]
    · have hlk : lookupTable h' i x = lookupTable h i x := by
        simp only [lookupTable, hg.entries_eq, if_neg hxi]
      rw [walk_cons, walk_cons, hlk]
      cases lookupTable h i x with
      | none => exact .inl rfl
      | some m => exact ih m

/-! ## `create_table` -/

/-- Linking a fresh table below an empty entry is a growth of the heap. -/
theorem grows_link {src idx : ℕ} {t : PageTable} (hsrc : h.read src = some t)
    (he : t.entries idx = 0) (l : PageTableLevel) :
    Grows h ((h.alloc (PageTable.new l src idx)).2.modify src fun pt => pt.set idx h.next)
      src idx h.next := by
  have hsn : src ≠ h.next := Nat.ne_of_lt (h.lt_next_of_read hsrc)
  have hsrc1 : (h.alloc (PageTable.new l src idx)).2.read src = some t := by
    rw [Heap.read_alloc, if_neg hsn, hsrc]
  have hfree : h.get h.next = default := h.get_of_read_none h.read_alloc_fst
  refine ⟨by have := h.next_pos; omega, by rw [h.get_of_read hsrc, he], ?_, ?_⟩
  · intro x j
    rw [Heap.get_modify _ hsrc1]
    by_cases hx : x = src
    · subst hx
      by_cases hj : j = idx
      · simp [hj]
      · simp [hj, h.get_of_read hsrc]
    · by_cases hxn : x = h.next
      · subst hxn; simp [hx, hfree]
      · simp [hx, hxn]
  · intro j
    rw [Heap.get_modify _ hsrc1, if_neg (Ne.symm hsn), Heap.get_alloc, if_pos rfl]
    rfl

/-- `create_table` below a table above level one: it returns the table linked below entry
`idx`, allocating it when the entry is null, and it only ever adds. -/
theorem createTable_spec (hwf : HeapWF h) {src : ℕ} {t : PageTable} (hsrc : h.read src = some t)
    (hl : t.level ≠ .one) (idx : ℕ) :
    ∃ c h', createTable h idx src = .ok (c, h') ∧ HeapWF h' ∧ lookupTable h' idx src = some c ∧
      (∀ x s, shape h x = some s → shape h' x = some s) ∧
      (∀ j x n, lookupTable h j x = some n → lookupTable h' j x = some n) ∧
      (h' = h ∨ Grows h h' src idx c) := by
  by_cases he : t.entries idx = 0
  · -- a null entry: a table one level lower is allocated and linked
    obtain ⟨l, hlow⟩ : ∃ l, t.level.nextLowerLevel = some l := by
      cases hn : t.level.nextLowerLevel with
      | none => exact absurd (PageTableLevel.nextLowerLevel_eq_none_iff.mp hn) hl
      | some l => exact ⟨l, rfl⟩
    have hg := grows_link hsrc he l
    refine ⟨h.next, _, ?_, heapWF_link hwf hsrc (PageTableLevel.nextLowerLevel_eq_some_iff.mp hlow) idx,
      lookupTable_eq_some_iff.mpr ⟨by simp [hg.entries_eq], hg.ne_zero⟩, ?_, ?_, .inr hg⟩
    · simp only [createTable, h.get_of_read hsrc, he, if_true]
      rw [PageTable.newFromUpper_eq idx (by rw [h.get_of_read hsrc]; exact hlow)]
      rfl
    · intro x s hs
      rw [shape_modify_set, shape_alloc, if_neg (ne_next_of_shape hs), hs]
    · intro j x n hn
      obtain ⟨hen, hn0⟩ := lookupTable_eq_some_iff.mp hn
      have hxj : ¬(x = src ∧ j = idx) := by
        rintro ⟨rfl, rfl⟩
        exact hn0 (hen ▸ hg.was_zero)
      exact lookupTable_eq_some_iff.mpr ⟨by rw [hg.entries_eq, if_neg hxj, hen], hn0⟩
  · -- the entry already points to a table: nothing changes
    refine ⟨t.entries idx, h, ?_, hwf, lookupTable_eq_some_iff.mpr ⟨by rw [h.get_of_read hsrc], he⟩,
      fun _ _ hs => hs, fun _ _ _ hn => hn, .inl rfl⟩
    simp [createTable, h.get_of_read hsrc, he]
    rfl

theorem parent_eq_of_lookupTable (hwf : HeapWF h) {x y i j n : ℕ} {t u : PageTable}
    (hx : h.read x = some t) (hxl : t.level ≠ .one) (hy : h.read y = some u)
    (hyl : u.level ≠ .one) (hi : lookupTable h i x = some n) (hj : lookupTable h j y = some n) :
    x = y ∧ i = j := by
  obtain ⟨c, hc, -, hcx, hci⟩ := child_of_lookupTable hwf hx hxl hi
  obtain ⟨c', hc', -, hcy, hcj⟩ := child_of_lookupTable hwf hy hyl hj
  rw [hc, Option.some.injEq] at hc'
  subst hc'
  exact ⟨hcx.symm.trans hcy, hci.symm.trans hcj⟩

theorem ne_one_of_one_lt {l : PageTableLevel} (hl : 1 < l.toNat) : l ≠ .one := by
  rintro rfl; simp at hl

theorem upper_tables {T : RemotePageTable} (hwf : WF T h) {i4 i3 x3 x2 : ℕ}
    (h4 : lookupTable h i4 T.l4PageTable = some x3) (h3 : lookupTable h i3 x3 = some x2) :
    ∃ t3 t2, h.read x3 = some t3 ∧ t3.level ≠ .one ∧ h.read x2 = some t2 ∧ t2.level ≠ .one := by
  obtain ⟨r, hr, hr4⟩ := hwf.root
  obtain ⟨t3, ht3, hlev3, -, -⟩ := child_of_lookupTable hwf.heap hr (ne_one_of_one_lt (by simp [hr4])) h4
  rw [hr4, PageTableLevel.toNat_four] at hlev3
  have ht31 : t3.level ≠ .one := ne_one_of_one_lt (by omega)
  obtain ⟨t2, ht2, hlev2, -, -⟩ := child_of_lookupTable hwf.heap ht3 ht31 h3
  exact ⟨t3, t2, ht3, ht31, ht2, ne_one_of_one_lt (by omega)⟩

/-- A write into a level-one table keeps the table well formed. -/
theorem wf_set_leaf {T : RemotePageTable} (hwf : WF T h) {l1 : ℕ} {u : PageTable}
    (hu : h.read l1 = some u) (hu1 : u.level = .one) (i v : ℕ) :
    WF T (h.modify l1 fun pt => pt.set i v) := by
  obtain ⟨r, hr, hr4⟩ := hwf.root
  have hrl : T.l4PageTable ≠ l1 := by
    rintro hrl
    rw [hrl, hu, Option.some.injEq] at hr
    rw [hr] at hu1
    rw [hu1] at hr4
    cases hr4
  exact ⟨heapWF_set_leaf hwf.heap hu hu1 i v, r, by rw [Heap.read_modify_of_ne _ _ hrl, hr], hr4⟩

theorem wf_with_cnt {T : RemotePageTable} (hwf : WF T h) (cnt : ℕ) : WF { T with cnt } h :=
  ⟨hwf.heap, hwf.root⟩

/-! ## Slots of addresses -/

section

variable [Paging]

/-- The indices of levels four, three and two of an address's page. -/
def upperIndices (a : VirtAddr) : List ℕ :=
  [(Page.containingAddress a).p4Index.toUsize, (Page.containingAddress a).p3Index.toUsize,
    (Page.containingAddress a).p2Index.toUsize]

theorem findL1PageIdx_eq_walk (T : RemotePageTable) (h : Heap PageTable) (a : VirtAddr) :
    T.findL1PageIdx h a = (walk h T.l4PageTable (upperIndices a)).map
      fun pt => (pt, (Page.containingAddress a).p1Index.toUsize) := by
  simp only [RemotePageTable.findL1PageIdx, upperIndices, walk_cons, walk_nil, Option.map_bind,
    Function.comp_def, Option.map_some]
  rfl

theorem findL1PageIdx_congr (T : RemotePageTable) (h : Heap PageTable) {a b : VirtAddr}
    (hab : Page.containingAddress a = Page.containingAddress b) :
    T.findL1PageIdx h a = T.findL1PageIdx h b := by
  simp only [RemotePageTable.findL1PageIdx, hab]

/-- The table `find_l1_page_idx` returns is a level-one table. -/
theorem findL1PageIdx_level {T : RemotePageTable} (hwf : WF T h) {a : VirtAddr} {pt i : ℕ}
    (hf : T.findL1PageIdx h a = some (pt, i)) : ∃ u, h.read pt = some u ∧ u.level = .one := by
  rw [findL1PageIdx_eq_walk, Option.map_eq_some_iff] at hf
  obtain ⟨y, hy, hyi⟩ := hf
  simp only [Prod.mk.injEq] at hyi
  obtain ⟨r, hr, hr4⟩ := hwf.root
  obtain ⟨u, hu, hlev⟩ := walk_descends hwf.heap _ hr (by simp [upperIndices, hr4]) hy
  refine ⟨u, hyi.1 ▸ hu, ?_⟩
  rw [← PageTableLevel.toNat_eq_one_iff]
  simp only [upperIndices, hr4, List.length_cons, List.length_nil, PageTableLevel.toNat_four] at hlev
  omega

/-- The entry an address reads: the slot of its page, `0` where the walk stops. -/
def RemotePageTable.slotValue (T : RemotePageTable) (h : Heap PageTable) (a : VirtAddr) : ℕ :=
  match T.findL1PageIdx h a with
  | some (pt, i) => (h.get pt).entries i
  | none => 0

namespace RemotePageTable

theorem slotValue_of_findL1PageIdx {T : RemotePageTable} {a : VirtAddr} {pt i : ℕ}
    (hf : T.findL1PageIdx h a = some (pt, i)) : T.slotValue h a = (h.get pt).entries i := by
  simp [slotValue, hf]

theorem slotValue_congr (T : RemotePageTable) (h : Heap PageTable) {a b : VirtAddr}
    (hab : Page.containingAddress a = Page.containingAddress b) :
    T.slotValue h a = T.slotValue h b := by
  simp only [slotValue, findL1PageIdx_congr T h hab]

theorem translate_eq (T : RemotePageTable) (h : Heap PageTable) (a : VirtAddr) :
    T.translate h a =
      if T.slotValue h a = 0 then none else some (PhysAddr.new (UInt64.ofNat (T.slotValue h a))) := by
  unfold translate slotValue
  cases T.findL1PageIdx h a with
  | none => rfl
  | some s =>
    obtain ⟨pt, i⟩ := s
    by_cases hz : (h.get pt).entries i = 0 <;> simp [hz]

/-- A table growing anywhere below the root changes no slot value. -/
theorem slotValue_grows {T : RemotePageTable} (hwf : WF T h) {src idx n : ℕ} {t : PageTable}
    (hsrc : h.read src = some t) (hl : t.level ≠ .one) (hg : Grows h h' src idx n)
    (b : VirtAddr) : T.slotValue h' b = T.slotValue h b := by
  unfold slotValue
  rw [findL1PageIdx_eq_walk, findL1PageIdx_eq_walk]
  rcases walk_grows hg (upperIndices b) T.l4PageTable with heq | ⟨hold, hnew⟩
  · rw [heq]
    cases hw : walk h T.l4PageTable (upperIndices b) with
    | none => rfl
    | some y =>
      -- the walk ends at level one, so not at `src`
      obtain ⟨u, hu, hlev⟩ := findL1PageIdx_level hwf
        (by rw [findL1PageIdx_eq_walk, hw]; rfl : T.findL1PageIdx h b = some (y, _))
      have hys : y ≠ src := by
        rintro rfl
        rw [hsrc, Option.some.injEq] at hu
        exact hl (hu ▸ hlev)
      simp only [Option.map_some, hg.entries_eq, hys, false_and, if_false]
  · rw [hold, hnew]
    simp [hg.fresh]

/-- Two addresses reach one slot only when they lie in one page: the back-pointers of the
tables on the way name the indices of levels two, three and four. -/
theorem eq_of_findL1PageIdx_eq {T : RemotePageTable} (hwf : WF T h) {a b : VirtAddr} {s : ℕ × ℕ}
    (ha : T.findL1PageIdx h a = some s) (hb : T.findL1PageIdx h b = some s) :
    Page.containingAddress a = Page.containingAddress b := by
  obtain ⟨r, hr, hr4⟩ := hwf.root
  have hr1 : r.level ≠ .one := by rw [hr4]; decide
  have index_eq : ∀ i j : PageTableIndex, i.toUsize = j.toUsize → i = j := fun i j hij => by
    cases i; cases j
    simp only [PageTableIndex.toUsize, UInt16.toNat_inj] at hij
    simp [hij]
  rw [findL1PageIdx_eq_walk, Option.map_eq_some_iff] at ha hb
  obtain ⟨l1, hwa, rfl⟩ := ha
  obtain ⟨m1, hwb, hbs⟩ := hb
  simp only [Prod.mk.injEq] at hbs
  obtain ⟨rfl, hp1⟩ := hbs
  simp only [upperIndices, walk_cons, walk_nil, Option.bind_eq_some_iff, Option.some.injEq] at hwa hwb
  obtain ⟨l3, ha3, l2, ha2, l1', ha1, rfl⟩ := hwa
  obtain ⟨m3, hb3, m2, hb2, m1', hb1, hm⟩ := hwb
  subst hm
  obtain ⟨t3, t2, ht3, ht31, ht2, ht21⟩ := upper_tables hwf ha3 ha2
  obtain ⟨u3, u2, hu3, hu31, hu2, hu21⟩ := upper_tables hwf hb3 hb2
  -- climb from the common level-one table back to the root
  obtain ⟨rfl, hp2⟩ := parent_eq_of_lookupTable hwf.heap ht2 ht21 hu2 hu21 ha1 hb1
  obtain ⟨rfl, hp3⟩ := parent_eq_of_lookupTable hwf.heap ht3 ht31 hu3 hu31 ha2 hb2
  obtain ⟨-, hp4⟩ := parent_eq_of_lookupTable hwf.heap hr hr1 hr hr1 ha3 hb3
  exact (Page.containingAddress_eq_iff_indices a b).mpr
    ⟨index_eq _ _ hp4, index_eq _ _ hp3, index_eq _ _ hp2, index_eq _ _ hp1.symm⟩

/-- A path step of `map_to_the_l1` from a table above level one, seen from the root: the
table stays well formed, the next table is linked, and no address reads a different value. -/
theorem createTable_step {T : RemotePageTable} (hwf : WF T h) {src : ℕ} {t : PageTable}
    (hsrc : h.read src = some t) (hl : t.level ≠ .one) (idx : ℕ) :
    ∃ c h', createTable h idx src = .ok (c, h') ∧ WF T h' ∧ lookupTable h' idx src = some c ∧
      (∃ u, h'.read c = some u ∧ u.level.toNat + 1 = t.level.toNat) ∧
      (∀ j x n, lookupTable h j x = some n → lookupTable h' j x = some n) ∧
      ∀ b, T.slotValue h' b = T.slotValue h b := by
  obtain ⟨c, h', hc, hwf', hlk, hshape, hpres, hgrow⟩ := createTable_spec hwf.heap hsrc hl idx
  have hkeep : ∀ x u, h.read x = some u → ∃ u', h'.read x = some u' ∧ u'.level = u.level := by
    intro x u hx
    obtain ⟨u', hu', hs⟩ := shape_eq_some.mp (hshape x _ (shape_eq_some.mpr ⟨u, hx, rfl⟩))
    exact ⟨u', hu', (Prod.mk.injEq _ _ _ _ ▸ hs).1⟩
  obtain ⟨r, hr, hr4⟩ := hwf.root
  obtain ⟨r', hr', hr'4⟩ := hkeep _ r hr
  obtain ⟨t', ht', ht'l⟩ := hkeep src t hsrc
  obtain ⟨u, hu, hulev, -, -⟩ := child_of_lookupTable hwf' ht' (ht'l ▸ hl) hlk
  refine ⟨c, h', hc, ⟨hwf', r', hr', hr'4.trans hr4⟩, hlk, ⟨u, hu, ht'l ▸ hulev⟩, hpres, ?_⟩
  rcases hgrow with rfl | hg
  · exact fun _ => rfl
  · exact slotValue_grows hwf hsrc hl hg

/-- `map_to_the_l1` builds the whole path of an address's page: afterwards
`find_l1_page_idx` finds its slot, and no address reads a different value. -/
theorem mapToTheL1_spec {T : RemotePageTable} (hwf : WF T h) (a : VirtAddr) :
    ∃ l1 h', T.mapToTheL1 h (Page.containingAddress a) = .ok (l1, h') ∧ WF T h' ∧
      T.findL1PageIdx h' a = some (l1, (Page.containingAddress a).p1Index.toUsize) ∧
      ∀ b, T.slotValue h' b = T.slotValue h b := by
  obtain ⟨r, hr, hr4⟩ := hwf.root
  obtain ⟨l3, h1, hc1, hwf1, hlk1, ⟨u3, hu3, hlev3⟩, -, hslot1⟩ :=
    createTable_step hwf hr (by rw [hr4]; decide) (Page.containingAddress a).p4Index.toUsize
  rw [hr4, PageTableLevel.toNat_four] at hlev3
  obtain ⟨l2, h2, hc2, hwf2, hlk2, ⟨u2, hu2, hlev2⟩, hpres2, hslot2⟩ :=
    createTable_step hwf1 hu3 (ne_one_of_one_lt (by omega)) (Page.containingAddress a).p3Index.toUsize
  obtain ⟨l1, h3, hc3, hwf3, hlk3, -, hpres3, hslot3⟩ :=
    createTable_step hwf2 hu2 (ne_one_of_one_lt (by omega)) (Page.containingAddress a).p2Index.toUsize
  refine ⟨l1, h3, ?_, hwf3, ?_, fun b => by rw [hslot3, hslot2, hslot1]⟩
  · simp only [mapToTheL1, hc1, hc2, hc3, bind, Except.bind]
  · -- the links made by the first two steps survive the later ones
    have w4 := hpres3 _ _ _ (hpres2 _ _ _ hlk1)
    have w3 := hpres3 _ _ _ hlk2
    rw [findL1PageIdx_eq_walk]
    simp only [upperIndices, walk_cons, w4, w3, hlk3, Option.bind_some, walk_nil, Option.map_some]

/-- Writing the slot of `a`'s page changes the value read at exactly the addresses of that
page. -/
theorem slotValue_set_leaf {T : RemotePageTable} (hwf : WF T h) {a : VirtAddr} {l1 i : ℕ}
    (hf : T.findL1PageIdx h a = some (l1, i)) (v : ℕ) (b : VirtAddr) :
    T.slotValue (h.modify l1 fun pt => pt.set i v) b =
      if Page.containingAddress b = Page.containingAddress a then v else T.slotValue h b := by
  obtain ⟨u, hu, hu1⟩ := findL1PageIdx_level hwf hf
  obtain ⟨r, hr, hr4⟩ := hwf.root
  -- the written table is at level one, below every table a walk reads
  have hE : ∀ x t j, h.read x = some t → t.level ≠ .one →
      ((h.modify l1 fun pt => pt.set i v).get x).entries j = t.entries j := by
    intro x t j hx hxl
    have hx1 : x ≠ l1 := by
      rintro rfl
      rw [hu, Option.some.injEq] at hx
      exact hxl (hx ▸ hu1)
    rw [Heap.get_modify h hu, if_neg hx1, h.get_of_read hx]
  have hfind : T.findL1PageIdx (h.modify l1 fun pt => pt.set i v) b = T.findL1PageIdx h b := by
    rw [findL1PageIdx_eq_walk, findL1PageIdx_eq_walk,
      walk_congr hwf.heap hE _ hr (by simp [upperIndices, hr4])]
  cases hb : T.findL1PageIdx h b with
  | none =>
    have hab : Page.containingAddress b ≠ Page.containingAddress a := by
      intro hab
      rw [findL1PageIdx_congr T h hab, hf] at hb
      cases hb
    simp [slotValue, hfind, hb, hab]
  | some s =>
    obtain ⟨l1', i'⟩ := s
    rw [slotValue_of_findL1PageIdx (hfind.trans hb), slotValue_of_findL1PageIdx hb,
      Heap.get_modify h hu]
    by_cases hab : Page.containingAddress b = Page.containingAddress a
    · rw [findL1PageIdx_congr T h hab, hf] at hb
      cases hb
      simp [hab]
    · -- another page has another slot
      have hne : ¬(l1' = l1 ∧ i' = i) := by
        rintro ⟨rfl, rfl⟩
        exact hab (eq_of_findL1PageIdx_eq hwf hb hf)
      by_cases hx : l1' = l1
      · subst hx
        have hi : i' ≠ i := fun hi => hne ⟨rfl, hi⟩
        simp [hab, hi, h.get_of_read hu]
      · simp [hab, hx]

theorem slotValue_with_cnt (T : RemotePageTable) (h : Heap PageTable) (cnt : ℕ) :
    ({ T with cnt } : RemotePageTable).slotValue h = T.slotValue h := rfl

/-- `map` on a well-formed table: it answers what `translate` answered, and it stores `phy`
in the page's slot, and counts it, exactly when that slot read zero. -/
theorem map_spec {T : RemotePageTable} (hwf : WF T h) (hcnt : T.cnt + 1 < 2 ^ 64) (a : VirtAddr)
    (phy : PhysAddr) :
    ∃ T' h', T.map h a phy = .ok (T.translate h a, T', h') ∧ WF T' h' ∧
      T'.cnt = (if T.slotValue h a = 0 then T.cnt + 1 else T.cnt) ∧
      ∀ b, T'.slotValue h' b = if Page.containingAddress b = Page.containingAddress a ∧
        T.slotValue h a = 0 then phy.asU64.toNat else T.slotValue h b := by
  obtain ⟨l1, h1, hm, hwf1, hf1, hslot1⟩ := mapToTheL1_spec hwf a
  have hres : (h1.get l1).entries (Page.containingAddress a).p1Index.toUsize = T.slotValue h a := by
    rw [← hslot1 a, slotValue_of_findL1PageIdx hf1]
  obtain ⟨u, hu, hu1⟩ := findL1PageIdx_level hwf1 hf1
  by_cases hz : T.slotValue h a = 0
  · -- an empty slot: store and count
    refine ⟨{ T with cnt := T.cnt + 1 }, h1.modify l1 fun pt =>
      pt.set (Page.containingAddress a).p1Index.toUsize phy.asU64.toNat, ?_,
      wf_with_cnt (wf_set_leaf hwf1 hu hu1 _ _) _, by rw [if_pos hz], fun b => ?_⟩
    · simp only [map, hm, bind, Except.bind, hres, hz, if_true, checkedAdd_of_lt hcnt, translate_eq]
      rfl
    · rw [slotValue_with_cnt, slotValue_set_leaf hwf1 hf1, hslot1]
      simp [hz]
  · -- a slot in use: answer it, change nothing
    refine ⟨T, h1, ?_, hwf1, by rw [if_neg hz], fun b => ?_⟩
    · simp only [map, hm, bind, Except.bind, hres, hz, if_false, translate_eq]
      rfl
    · simp [hz, hslot1]

/-- `force_map` on a well-formed table: the page's slot now holds `phy`, counted when the
slot read zero. -/
theorem forceMap_spec {T : RemotePageTable} (hwf : WF T h) (hcnt : T.cnt + 1 < 2 ^ 64)
    (a : VirtAddr) (phy : PhysAddr) :
    ∃ T' h', T.forceMap h a phy = .ok (T', h') ∧ WF T' h' ∧
      T'.cnt = (if T.slotValue h a = 0 then T.cnt + 1 else T.cnt) ∧
      ∀ b, T'.slotValue h' b = if Page.containingAddress b = Page.containingAddress a then
        phy.asU64.toNat else T.slotValue h b := by
  obtain ⟨l1, h1, hm, hwf1, hf1, hslot1⟩ := mapToTheL1_spec hwf a
  have hres : (h1.get l1).entries (Page.containingAddress a).p1Index.toUsize = T.slotValue h a := by
    rw [← hslot1 a, slotValue_of_findL1PageIdx hf1]
  obtain ⟨u, hu, hu1⟩ := findL1PageIdx_level hwf1 hf1
  have hslot : ∀ b, T.slotValue (h1.modify l1 fun pt =>
      pt.set (Page.containingAddress a).p1Index.toUsize phy.asU64.toNat) b =
      if Page.containingAddress b = Page.containingAddress a then phy.asU64.toNat
      else T.slotValue h b := by
    intro b
    rw [slotValue_set_leaf hwf1 hf1, hslot1]
  by_cases hz : T.slotValue h a = 0
  · refine ⟨{ T with cnt := T.cnt + 1 }, h1.modify l1 fun pt =>
      pt.set (Page.containingAddress a).p1Index.toUsize phy.asU64.toNat, ?_,
      wf_with_cnt (wf_set_leaf hwf1 hu hu1 _ _) _, by rw [if_pos hz], hslot⟩
    simp only [forceMap, hm, bind, Except.bind, hres, hz, if_true, checkedAdd_of_lt hcnt]
    rfl
  · refine ⟨T, h1.modify l1 fun pt =>
      pt.set (Page.containingAddress a).p1Index.toUsize phy.asU64.toNat, ?_,
      wf_set_leaf hwf1 hu hu1 _ _, by rw [if_neg hz], hslot⟩
    simp only [forceMap, hm, bind, Except.bind, hres, hz, if_false]
    rfl

theorem findL1PageIdx_eq_iff {T : RemotePageTable} (hwf : WF T h) {a b : VirtAddr} {s s' : ℕ × ℕ}
    (ha : T.findL1PageIdx h a = some s) (hb : T.findL1PageIdx h b = some s') :
    s = s' ↔ Page.containingAddress a = Page.containingAddress b := by
  constructor
  · rintro rfl
    exact eq_of_findL1PageIdx_eq hwf ha hb
  · intro hab
    rw [findL1PageIdx_congr T h hab, hb, Option.some.injEq] at ha
    exact ha.symm

end RemotePageTable

end

end Mitosis