import Mitosis.RemoteMapping.Refinement
import Mitosis.Lib.Blocks

/-!
# The radix tree of a remote page table

A well-formed remote page table is a radix tree of depth four in the heap. Read off by
depth, it is a list of tables: the root at depth zero, and at each next depth the tables
below the non-zero entries of the tables before, in order (`tablesBelow`). Each table comes
with the number its path of indices names in base `ENTRY_COUNT`, and these numbers increase
along each list, since a child's number is its parent's times `ENTRY_COUNT` plus its index.
At depth three are the level-one tables; their non-zero entries, in the same order, are the
slots of the table in the order of their virtual pages (`RemotePageTable.slots`).

The iterator moves along these lists by the back-pointers, and it reaches every level-one
table only because no table of levels two and three is empty: `map_to_the_l1` links the
table below each table it creates before it returns. `Interior` says this of the whole
heap; `TreeWF` adds it, and a null back-pointer at the root, to `WF`. Every table reached
from `RemotePageTable::new` by `map`, `force_map` and writes into level-one slots
(`Reached`) satisfies it.
-/
namespace Mitosis
open OsNetwork X86_64

variable {h h' : Heap PageTable}

namespace PageTable

variable {β : Type}

/-- The non-zero entries of a table in index order, each made into an item by `f`. -/
def validEntries (t : PageTable) (f : ℕ → β) : List β :=
  ((List.range entryCount).filter fun i => t.entries i != 0).map f

theorem mem_validEntries {t : PageTable} {f : ℕ → β} {b : β} :
    b ∈ t.validEntries f ↔ ∃ i < entryCount, t.entries i ≠ 0 ∧ f i = b := by
  simp [validEntries, and_assoc]

theorem pairwise_validEntries (t : PageTable) {f : ℕ → β} {key : β → ℕ}
    (hkey : ∀ i j, i < j → key (f i) < key (f j)) :
    (t.validEntries f).Pairwise fun z w => key z < key w := by
  rw [validEntries, List.pairwise_map]
  exact (List.pairwise_lt_range.filter _).imp (hkey _ _)

theorem filter_range_ge {m n : ℕ} (hm : m ≤ n) :
    (List.range n).filter (fun i => m ≤ i) = List.range' m (n - m) := by
  have hsplit : List.range n = List.range' 0 m ++ List.range' m (n - m) := by
    have happend := @List.range'_append_1 0 m (n - m)
    rw [Nat.zero_add, Nat.add_sub_cancel' hm] at happend
    rw [List.range_eq_range', happend]
  rw [hsplit, List.filter_append,
    List.filter_eq_nil_iff.mpr fun i hi => by simp at hi ⊢; omega,
    List.filter_eq_self.mpr fun i hi => by simp at hi ⊢; omega, List.nil_append]

theorem validEntries_filter (t : PageTable) {f : ℕ → β} {key : β → ℕ} {c m : ℕ}
    (hkey : ∀ i, key (f i) = c * entryCount + i) (hm : m ≤ entryCount) :
    (t.validEntries f).filter (fun z => c * entryCount + m ≤ key z) =
      ((List.range' m (entryCount - m)).filter fun i => t.entries i != 0).map f := by
  rw [validEntries, List.filter_map, ← filter_range_ge hm, List.filter_filter, List.filter_filter]
  refine congrArg (List.map f) (List.filter_congr fun i _ => ?_)
  simp only [Function.comp_apply, hkey]
  by_cases hi : m ≤ i <;> simp [hi]

theorem head?_validEntries_filter (t : PageTable) (key : β → ℕ) {f : ℕ → β} {c m : ℕ}
    (hkey : ∀ i, key (f i) = c * entryCount + i) (hm : m ≤ entryCount) :
    ((t.validEntries f).filter (fun z => c * entryCount + m ≤ key z)).head? =
      (t.findValidEntry m).map f := by
  rw [validEntries_filter t hkey hm, List.head?_map, List.head?_filter, findValidEntry]

theorem findValidEntry_zero_isSome {t : PageTable} {i : ℕ} (hi : i < entryCount)
    (hne : t.entries i ≠ 0) : (t.findValidEntry 0).isSome := by
  rw [findValidEntry, List.find?_isSome]
  exact ⟨i, by simp [hi], by simpa using hne⟩

end PageTable

/-! ## Paths, and the tables at each depth -/

/-- The `d` entry indices, most significant first, that the number `b` names in base
`ENTRY_COUNT`. -/
def pathOf : ℕ → ℕ → List ℕ
  | 0, _ => []
  | d + 1, b => pathOf d (b / entryCount) ++ [b % entryCount]

@[simp] theorem length_pathOf : ∀ d b, (pathOf d b).length = d
  | 0, _ => rfl
  | d + 1, b => by simp [pathOf, length_pathOf d]

theorem walk_append (src : ℕ) (p q : List ℕ) :
    walk h src (p ++ q) = (walk h src p).bind fun x => walk h x q := by
  induction p generalizing src with
  | nil => simp
  | cons i p ih => simp [walk_cons, ih, Option.bind_assoc]

@[simp] theorem walk_singleton (src i : ℕ) : walk h src [i] = lookupTable h i src := by
  simp [walk_cons]

/-- The tables below the non-zero entries of a table, in index order, with their path
numbers: the table below entry `i` of a table whose number is `b` has number
`b * ENTRY_COUNT + i`. -/
def children (h : Heap PageTable) (x : ℕ × ℕ) : List (ℕ × ℕ) :=
  (h.get x.1).validEntries fun i => ((h.get x.1).entries i, x.2 * entryCount + i)

/-- The tables `d` levels below a table, in the order of their path numbers. -/
def tablesBelow (h : Heap PageTable) : ℕ → ℕ × ℕ → List (ℕ × ℕ)
  | 0, x => [x]
  | d + 1, x => (tablesBelow h d x).flatMap (children h)

@[simp] theorem tablesBelow_zero (x : ℕ × ℕ) : tablesBelow h 0 x = [x] := rfl

theorem tablesBelow_succ (d : ℕ) (x : ℕ × ℕ) :
    tablesBelow h (d + 1) x = (tablesBelow h d x).flatMap (children h) := rfl

theorem tablesBelow_succ' : ∀ (d : ℕ) (x : ℕ × ℕ),
    tablesBelow h (d + 1) x = (children h x).flatMap (tablesBelow h d)
  | 0, x => by
    simp only [tablesBelow_succ, tablesBelow_zero, List.flatMap_singleton]
    exact (List.flatMap_singleton' _).symm
  | d + 1, x => by
    rw [tablesBelow_succ, tablesBelow_succ' d x, List.flatMap_assoc]
    rfl

theorem mem_children {x y : ℕ × ℕ} :
    y ∈ children h x ↔ ∃ i < entryCount, lookupTable h i x.1 = some y.1 ∧ y.2 = x.2 * entryCount + i := by
  rw [children, PageTable.mem_validEntries]
  constructor
  · rintro ⟨i, hi, hne, rfl⟩
    exact ⟨i, hi, lookupTable_eq_some_iff.mpr ⟨rfl, hne⟩, rfl⟩
  · rintro ⟨i, hi, hlk, hy⟩
    obtain ⟨he, hne⟩ := lookupTable_eq_some_iff.mp hlk
    exact ⟨i, hi, he ▸ hne, Prod.ext he hy.symm⟩

theorem div_of_mem_children {x y : ℕ × ℕ} (hy : y ∈ children h x) : y.2 / entryCount = x.2 := by
  obtain ⟨i, hi, -, hy2⟩ := mem_children.mp hy
  simp only [entryCount] at hi hy2 ⊢
  omega

theorem pairwise_children (x : ℕ × ℕ) : (children h x).Pairwise fun y z => y.2 < z.2 :=
  PageTable.pairwise_validEntries _ fun i j hij => by simpa using hij

/-- The tables at depth `d` are those a walk along the path of a number below
`ENTRY_COUNT ^ d` reaches. -/
theorem mem_tablesBelow (r : ℕ) : ∀ (d : ℕ) (y : ℕ × ℕ),
    y ∈ tablesBelow h d (r, 0) ↔ y.2 < entryCount ^ d ∧ walk h r (pathOf d y.2) = some y.1
  | 0, y => by
    obtain ⟨y1, y2⟩ := y
    simp only [tablesBelow_zero, List.mem_singleton, Prod.mk.injEq, pow_zero, pathOf, walk_nil,
      Option.some.injEq]
    omega
  | d + 1, y => by
    rw [tablesBelow_succ, List.mem_flatMap, pathOf, walk_append]
    constructor
    · rintro ⟨x, hx, hy⟩
      obtain ⟨hxd, hxw⟩ := (mem_tablesBelow r d x).mp hx
      obtain ⟨i, hi, hlk, hy2⟩ := mem_children.mp hy
      have hdiv : y.2 / entryCount = x.2 := by simp only [entryCount] at hi hy2 ⊢; omega
      have hmod : y.2 % entryCount = i := by simp only [entryCount] at hi hy2 ⊢; omega
      refine ⟨?_, by rw [hdiv, hxw, Option.bind_some, hmod, walk_singleton, hlk]⟩
      rw [pow_succ, hy2]
      have hmul : x.2 * entryCount + entryCount ≤ entryCount ^ d * entryCount := by
        rw [← Nat.succ_mul]; exact Nat.mul_le_mul_right _ hxd
      omega
    · rintro ⟨hyd, hyw⟩
      rw [Option.bind_eq_some_iff] at hyw
      obtain ⟨x1, hx1, hlk⟩ := hyw
      rw [walk_singleton] at hlk
      refine ⟨(x1, y.2 / entryCount), (mem_tablesBelow r d _).mpr ⟨?_, hx1⟩, mem_children.mpr
        ⟨y.2 % entryCount, Nat.mod_lt _ (by decide), hlk, ?_⟩⟩
      · rw [pow_succ'] at hyd
        exact Nat.div_lt_of_lt_mul hyd
      · simp only [entryCount]; omega

theorem pairwise_tablesBelow : ∀ (d : ℕ) (x : ℕ × ℕ),
    (tablesBelow h d x).Pairwise fun y z => y.2 < z.2
  | 0, _ => List.pairwise_singleton _ _
  | d + 1, x =>
    Blocks.pairwise_flatMap Prod.snd Prod.snd entryCount (children h) (pairwise_tablesBelow d x)
      (fun y _ => pairwise_children y) fun _ _ _ hz => div_of_mem_children hz

theorem length_tablesBelow_le (r d : ℕ) : (tablesBelow h d (r, 0)).length ≤ entryCount ^ d := by
  have hlen := Blocks.length_le_of_pairwise_lt
    (List.pairwise_map.mpr (pairwise_tablesBelow (h := h) d (r, 0)))
    (n := entryCount ^ d) fun b hb => by
      obtain ⟨y, hy, rfl⟩ := List.mem_map.mp hb
      exact ((mem_tablesBelow r d y).mp hy).1
  simpa using hlen

/-! ## Slots -/

/-- A non-zero level-one slot: the virtual page number it maps, its table and its index. -/
structure Slot where
  page : ℕ
  table : ℕ
  index : ℕ
  deriving DecidableEq, Repr

/-- The non-zero slots of a level-one table, in index order, with their page numbers. -/
def slotsOf (h : Heap PageTable) (x : ℕ × ℕ) : List Slot :=
  (h.get x.1).validEntries fun i => ⟨x.2 * entryCount + i, x.1, i⟩

theorem mem_slotsOf {x : ℕ × ℕ} {s : Slot} :
    s ∈ slotsOf h x ↔ s.index < entryCount ∧ (h.get x.1).entries s.index ≠ 0 ∧ s.table = x.1 ∧
      s.page = x.2 * entryCount + s.index := by
  rw [slotsOf, PageTable.mem_validEntries]
  constructor
  · rintro ⟨i, hi, hne, rfl⟩
    exact ⟨hi, hne, rfl, rfl⟩
  · rintro ⟨hi, hne, ht, hp⟩
    exact ⟨s.index, hi, hne, by rw [← ht, ← hp]⟩

theorem div_of_mem_slotsOf {x : ℕ × ℕ} {s : Slot} (hs : s ∈ slotsOf h x) :
    s.page / entryCount = x.2 := by
  obtain ⟨hi, -, -, hp⟩ := mem_slotsOf.mp hs
  rw [hp]
  simp only [entryCount] at hi ⊢
  omega

namespace RemotePageTable

/-- The level-one tables of a remote page table, with their path numbers, in order. -/
def levelOneTables (T : RemotePageTable) (h : Heap PageTable) : List (ℕ × ℕ) :=
  tablesBelow h 3 (T.l4PageTable, 0)

/-- The non-zero level-one slots of a remote page table, in the order of their pages. -/
def slots (T : RemotePageTable) (h : Heap PageTable) : List Slot :=
  (T.levelOneTables h).flatMap (slotsOf h)

theorem pairwise_slots (T : RemotePageTable) (h : Heap PageTable) :
    (T.slots h).Pairwise fun s s' => s.page < s'.page :=
  Blocks.pairwise_flatMap Prod.snd Slot.page entryCount (slotsOf h) (pairwise_tablesBelow 3 _)
    (fun x _ => PageTable.pairwise_validEntries _ fun i j hij => by simpa using hij)
    fun _ _ _ hs => div_of_mem_slotsOf hs

/-- The page of a virtual page number: the level-one table its path reaches and its index,
if the path exists. -/
def pageSlot (T : RemotePageTable) (h : Heap PageTable) (pg : ℕ) : Option (ℕ × ℕ) :=
  (walk h T.l4PageTable (pathOf 3 (pg / entryCount))).map fun pt => (pt, pg % entryCount)

/-- The value a virtual page number reads: its slot's, `0` where its path stops. -/
def pageValue (T : RemotePageTable) (h : Heap PageTable) (pg : ℕ) : ℕ :=
  match T.pageSlot h pg with
  | some (pt, i) => (h.get pt).entries i
  | none => 0

theorem pageValue_of_pageSlot {T : RemotePageTable} {pg pt i : ℕ}
    (hs : T.pageSlot h pg = some (pt, i)) : T.pageValue h pg = (h.get pt).entries i := by
  simp [pageValue, hs]

/-- The slots are the pages whose slot holds a non-zero value. -/
theorem mem_slots {T : RemotePageTable} {s : Slot} :
    s ∈ T.slots h ↔ s.page < 2 ^ 36 ∧ T.pageSlot h s.page = some (s.table, s.index) ∧
      T.pageValue h s.page ≠ 0 := by
  rw [slots, levelOneTables, List.mem_flatMap]
  constructor
  · rintro ⟨x, hx, hs⟩
    obtain ⟨hxd, hxw⟩ := (mem_tablesBelow _ 3 x).mp hx
    obtain ⟨hi, hne, ht, hp⟩ := mem_slotsOf.mp hs
    have hdiv : s.page / entryCount = x.2 := by
      rw [hp]; simp only [entryCount] at hi ⊢; omega
    have hmod : s.page % entryCount = s.index := by
      rw [hp]; simp only [entryCount] at hi ⊢; omega
    have hslot : T.pageSlot h s.page = some (s.table, s.index) := by
      rw [pageSlot, hdiv, hxw, ht, hmod]; rfl
    refine ⟨?_, hslot, by rwa [pageValue_of_pageSlot hslot, ht]⟩
    rw [hp]
    simp only [entryCount] at hi hxd ⊢
    omega
  · rintro ⟨hpg, hslot, hne⟩
    rw [pageValue_of_pageSlot hslot] at hne
    rw [pageSlot, Option.map_eq_some_iff] at hslot
    obtain ⟨pt, hw, hpt⟩ := hslot
    simp only [Prod.mk.injEq] at hpt
    obtain ⟨rfl, hidx⟩ := hpt
    refine ⟨(s.table, s.page / entryCount), (mem_tablesBelow _ 3 _).mpr ⟨?_, hw⟩,
      mem_slotsOf.mpr ⟨?_, hne, rfl, ?_⟩⟩
    · simp only [entryCount]; omega
    · rw [← hidx]; exact Nat.mod_lt _ (by decide)
    · rw [← hidx]; simp only [entryCount]; omega


theorem mem_map_page_slots {T : RemotePageTable} {pg : ℕ} :
    pg ∈ (T.slots h).map Slot.page ↔ pg < 2 ^ 36 ∧ T.pageValue h pg ≠ 0 := by
  constructor
  · intro hpg
    obtain ⟨s, hs, rfl⟩ := List.mem_map.mp hpg
    exact ⟨(mem_slots.mp hs).1, (mem_slots.mp hs).2.2⟩
  · rintro ⟨hpg, hne⟩
    cases hslot : T.pageSlot h pg with
    | none => simp [pageValue, hslot] at hne
    | some s => exact List.mem_map.mpr ⟨⟨pg, s.1, s.2⟩, mem_slots.mpr ⟨hpg, hslot, hne⟩, rfl⟩

/-- The virtual page number of an address: its bits 12 to 47, which hold the four indices of
its page. -/
def vpn (a : VirtAddr) : ℕ := a.val.toNat / 4096 % 2 ^ 36

theorem vpn_lt (a : VirtAddr) : vpn a < 2 ^ 36 := Nat.mod_lt _ (by decide)

section

variable [Paging]

theorem pathOf_vpn (a : VirtAddr) : pathOf 3 (vpn a / entryCount) = upperIndices a := by
  simp only [pathOf, upperIndices, Page.toUsize_p4Index, Page.toUsize_p3Index,
    Page.toUsize_p2Index, vpn, entryCount, List.nil_append, List.cons_append, List.cons.injEq,
    and_true]
  omega

theorem findL1PageIdx_eq_pageSlot (T : RemotePageTable) (h : Heap PageTable) (a : VirtAddr) :
    T.findL1PageIdx h a = T.pageSlot h (vpn a) := by
  rw [findL1PageIdx_eq_walk, pageSlot, pathOf_vpn, Page.toUsize_p1Index]
  simp only [vpn, entryCount]
  congr 2
  funext pt
  congr 1
  omega

theorem slotValue_eq_pageValue (T : RemotePageTable) (h : Heap PageTable) (a : VirtAddr) :
    T.slotValue h a = T.pageValue h (vpn a) := by
  rcases hs : T.pageSlot h (vpn a) with _ | ⟨pt, i⟩
  · simp [slotValue, pageValue, findL1PageIdx_eq_pageSlot, hs]
  · rw [slotValue_of_findL1PageIdx (by rw [findL1PageIdx_eq_pageSlot, hs]), pageValue_of_pageSlot hs]

end

end RemotePageTable

/-! ## The shape of the tree -/

theorem level_of_mem_tablesBelow {T : RemotePageTable} (hwf : WF T h) {d : ℕ} (hd : d ≤ 3)
    {x : ℕ × ℕ} (hx : x ∈ tablesBelow h d (T.l4PageTable, 0)) :
    ∃ t, h.read x.1 = some t ∧ t.level.toNat + d = 4 := by
  obtain ⟨r, hr, hr4⟩ := hwf.root
  obtain ⟨-, hw⟩ := (mem_tablesBelow _ d x).mp hx
  obtain ⟨u, hu, hlev⟩ := walk_descends hwf.heap _ hr (by simp [hr4]; omega) hw
  exact ⟨u, hu, by simpa [hr4] using hlev⟩

theorem parent_of_mem_children (hwf : HeapWF h) {u c : ℕ} {t : PageTable}
    (hu : h.read u = some t) (hl : t.level ≠ .one) {y : ℕ × ℕ} (hy : y ∈ children h (u, c)) :
    ∃ j < entryCount, y.2 = c * entryCount + j ∧ ∃ t', h.read y.1 = some t' ∧
      t'.level.toNat + 1 = t.level.toNat ∧ t'.upperLevel = u ∧ t'.upperLevelIndex = j := by
  obtain ⟨j, hj, hlk, hy2⟩ := mem_children.mp hy
  obtain ⟨t', ht', hlev, hup, hidx⟩ := child_of_lookupTable hwf hu hl hlk
  exact ⟨j, hj, hy2, t', ht', hlev, hup, hidx⟩

/-- Two numbers below `ENTRY_COUNT ^ d` whose paths from the root reach one table are one
number: a table is entered through one entry of one parent, which its back-pointer names.
The induction is on `d`, peeling the last index of each path. -/
theorem eq_of_walk_pathOf {T : RemotePageTable} (hwf : WF T h) : ∀ (d : ℕ), d ≤ 3 →
    ∀ {b b' y : ℕ}, b < entryCount ^ d → b' < entryCount ^ d →
      walk h T.l4PageTable (pathOf d b) = some y → walk h T.l4PageTable (pathOf d b') = some y →
        b = b'
  | 0, _, b, b', _, hb, hb', _, _ => by simp at hb hb'; omega
  | d + 1, hd, b, b', y, hb, hb', hy, hy' => by
    rw [pathOf, walk_append, Option.bind_eq_some_iff] at hy hy'
    obtain ⟨x, hx, hxy⟩ := hy
    obtain ⟨x', hx', hxy'⟩ := hy'
    rw [walk_singleton] at hxy hxy'
    -- the parents are at level `4 - d`, above level one
    obtain ⟨r, hr, hr4⟩ := hwf.root
    obtain ⟨t, ht, hlev⟩ := walk_descends hwf.heap _ hr (by simp [hr4]; omega) hx
    obtain ⟨t', ht', hlev'⟩ := walk_descends hwf.heap _ hr (by simp [hr4]; omega) hx'
    simp only [length_pathOf, hr4, PageTableLevel.toNat_four] at hlev hlev'
    obtain ⟨rfl, hmod⟩ := parent_eq_of_lookupTable hwf.heap ht (ne_one_of_one_lt (by omega)) ht'
      (ne_one_of_one_lt (by omega)) hxy hxy'
    rw [pow_succ'] at hb hb'
    have hdiv := eq_of_walk_pathOf hwf d (by omega) (Nat.div_lt_of_lt_mul hb)
      (Nat.div_lt_of_lt_mul hb') hx hx'
    rw [← Nat.div_add_mod b entryCount, ← Nat.div_add_mod b' entryCount, hdiv, hmod]

namespace RemotePageTable

/-- Distinct virtual pages have distinct slots. -/
theorem eq_of_pageSlot_eq {T : RemotePageTable} (hwf : WF T h) {pg pg' : ℕ} {x : ℕ × ℕ}
    (hpg : pg < 2 ^ 36) (hpg' : pg' < 2 ^ 36) (hs : T.pageSlot h pg = some x)
    (hs' : T.pageSlot h pg' = some x) : pg = pg' := by
  rw [pageSlot, Option.map_eq_some_iff] at hs hs'
  obtain ⟨pt, hw, rfl⟩ := hs
  obtain ⟨pt', hw', hx⟩ := hs'
  simp only [Prod.mk.injEq] at hx
  obtain ⟨rfl, hmod⟩ := hx
  have hdiv := eq_of_walk_pathOf hwf 3 le_rfl (by simp only [entryCount]; omega)
    (by simp only [entryCount]; omega) hw hw'
  rw [← Nat.div_add_mod pg entryCount, ← Nat.div_add_mod pg' entryCount, hdiv, hmod]

theorem nodup_slots_table_index {T : RemotePageTable} (hwf : WF T h) :
    ((T.slots h).map fun s => (s.table, s.index)).Nodup := by
  refine List.pairwise_map.mpr ((T.pairwise_slots h).imp_of_mem fun {s s'} hs hs' hlt heq => ?_)
  obtain ⟨hpg, hslot, -⟩ := mem_slots.mp hs
  obtain ⟨hpg', hslot', -⟩ := mem_slots.mp hs'
  rw [heq] at hslot
  exact absurd (eq_of_pageSlot_eq hwf hpg hpg' hslot hslot') (Nat.ne_of_lt hlt)

theorem length_slots_le (T : RemotePageTable) (h : Heap PageTable) :
    (T.slots h).length ≤ 2 ^ 36 := by
  have hlen := Blocks.length_le_of_pairwise_lt (List.pairwise_map.mpr (T.pairwise_slots h))
    (n := 2 ^ 36) fun pg hpg => (mem_map_page_slots.mp hpg).1
  simpa using hlen

end RemotePageTable

/-- No table of levels two and three but the one at `e` is empty. -/
def InteriorExcept (h : Heap PageTable) (e : ℕ) : Prop :=
  ∀ p t, p ≠ e → h.read p = some t → t.level ≠ .one → t.level ≠ .four →
    ∃ i < entryCount, t.entries i ≠ 0

/-- No table of levels two and three is empty. -/
def Interior (h : Heap PageTable) : Prop :=
  ∀ p t, h.read p = some t → t.level ≠ .one → t.level ≠ .four → ∃ i < entryCount, t.entries i ≠ 0

theorem interior_empty : Interior Heap.empty := by
  intro p t hp
  simp at hp

theorem Interior.except (hI : Interior h) (e : ℕ) : InteriorExcept h e :=
  fun p t _ hp => hI p t hp

theorem InteriorExcept.interior {e : ℕ} (hE : InteriorExcept h e) {u : PageTable}
    (he : h.read e = some u) (hu : u.level = .one) : Interior h := by
  intro p t hp h1 h4
  by_cases hpe : p = e
  · subst hpe
    rw [he, Option.some.injEq] at hp
    exact absurd (hp ▸ hu) h1
  · exact hE p t hpe hp h1 h4

theorem Interior.alloc_four (hI : Interior h) {t : PageTable} (ht : t.level = .four) :
    Interior (h.alloc t).2 := by
  intro p u hp h1 h4
  rw [Heap.read_alloc] at hp
  split_ifs at hp with hpn
  · cases hp; exact absurd ht h4
  · exact hI p u hp h1 h4

theorem Interior.modify_one (hI : Interior h) {l1 : ℕ} {u : PageTable} (hu : h.read l1 = some u)
    (hu1 : u.level = .one) (i v : ℕ) : Interior (h.modify l1 fun pt => pt.set i v) := by
  intro p t hp h1 h4
  rw [Heap.read_modify] at hp
  split_ifs at hp with hpl
  · subst hpl
    rw [hu, Option.map_some, Option.some.injEq] at hp
    subst hp
    exact absurd hu1 (by simpa using h1)
  · exact hI p t hp h1 h4

theorem children_ne_nil (hI : Interior h) {u c : ℕ} {t : PageTable} (hu : h.read u = some t)
    (h1 : t.level ≠ .one) (h4 : t.level ≠ .four) : children h (u, c) ≠ [] := by
  obtain ⟨i, hi, hne⟩ := hI u t hu h1 h4
  refine List.ne_nil_of_mem (a := ((h.get u).entries i, c * entryCount + i)) ?_
  rw [children, PageTable.mem_validEntries]
  exact ⟨i, hi, by rwa [h.get_of_read hu], rfl⟩

/-- Below a table of level `e + 1` other than a root there is a level-one table. -/
theorem tablesBelow_ne_nil (hwf : HeapWF h) (hI : Interior h) : ∀ (e : ℕ) (y : ℕ × ℕ)
    (t : PageTable), h.read y.1 = some t → t.level.toNat = e + 1 → e ≤ 2 → tablesBelow h e y ≠ []
  | 0, y, _, _, _, _ => List.cons_ne_nil _ _
  | e + 1, y, t, ht, hlev, he => by
    have h1 : t.level ≠ .one := fun h1 => by rw [h1] at hlev; simp at hlev
    have h4 : t.level ≠ .four := fun h4 => by rw [h4] at hlev; simp at hlev; omega
    obtain ⟨z, hz⟩ := List.exists_mem_of_ne_nil _ (children_ne_nil hI ht h1 h4 (c := y.2))
    obtain ⟨-, -, -, t', ht', hlev', -, -⟩ := parent_of_mem_children hwf ht h1 hz
    have hzne := tablesBelow_ne_nil hwf hI e z t' ht' (by omega) (by omega)
    rw [tablesBelow_succ']
    intro hnil
    rw [List.flatMap_eq_nil_iff] at hnil
    exact hzne (hnil z hz)

/-- A well-formed table whose tree the iterator walks: no table of levels two and three is
empty, and the root's back-pointer is null. -/
structure TreeWF (T : RemotePageTable) (h : Heap PageTable) : Prop where
  wf : WF T h
  interior : Interior h
  rootUpper : (h.get T.l4PageTable).upperLevel = 0

/-! ## Every reached table is a tree the iterator walks -/

/-- `create_table` below a table above level one: the table linked below the entry, made
and linked first when the entry is null. -/
theorem createTable_eq {src idx : ℕ} {t : PageTable} (hsrc : h.read src = some t)
    {l : PageTableLevel} (hl : t.level.nextLowerLevel = some l) :
    createTable h idx src = .ok (if t.entries idx = 0 then
      (h.next, (h.alloc (PageTable.new l src idx)).2.modify src fun pt => pt.set idx h.next)
      else (t.entries idx, h)) := by
  by_cases he : t.entries idx = 0
  · simp only [createTable, h.get_of_read hsrc, he, if_true]
    rw [PageTable.newFromUpper_eq idx (by rw [h.get_of_read hsrc]; exact hl)]
    rfl
  · simp [createTable, h.get_of_read hsrc, he]
    rfl

/-- `create_table` with the table at `src` the only one that may be empty: afterwards only
the table it returns may be. -/
theorem InteriorExcept.createTable {src idx c : ℕ} {t : PageTable} (hE : InteriorExcept h src)
    (hsrc : h.read src = some t) (hl : t.level ≠ .one) (hidx : idx < entryCount)
    (hc : createTable h idx src = .ok (c, h')) : InteriorExcept h' c := by
  obtain ⟨l, hlow⟩ : ∃ l, t.level.nextLowerLevel = some l := by
    cases hn : t.level.nextLowerLevel with
    | none => exact absurd (PageTableLevel.nextLowerLevel_eq_none_iff.mp hn) hl
    | some l => exact ⟨l, rfl⟩
  have hsn : src ≠ h.next := Nat.ne_of_lt (h.lt_next_of_read hsrc)
  rw [createTable_eq hsrc hlow] at hc
  by_cases he : t.entries idx = 0
  · -- a fresh table is linked into `src`, which is no longer empty
    rw [if_pos he] at hc
    cases hc
    intro p v hpc hp h1 h4
    rw [Heap.read_modify, Heap.read_alloc, Heap.read_alloc, if_neg hsn, hsrc] at hp
    by_cases hps : p = src
    · subst hps
      simp only [if_true, Option.map_some, Option.some.injEq] at hp
      subst hp
      exact ⟨idx, hidx, by simpa using Nat.pos_iff_ne_zero.mp h.next_pos⟩
    · simp only [if_neg hps, if_neg hpc] at hp
      exact hE p v hps hp h1 h4
  · -- the entry already links a table: nothing changes, and `src` is not empty
    rw [if_neg he] at hc
    cases hc
    intro p v hpc hp h1 h4
    by_cases hps : p = src
    · subst hps
      rw [hsrc, Option.some.injEq] at hp
      subst hp
      exact ⟨idx, hidx, he⟩
    · exact hE p v hps hp h1 h4

/-- One step of `map_to_the_l1` from a table above level one: the heap stays well formed,
only the table returned may be empty, old tables keep their shape, and the table returned is
one level lower. -/
theorem createTable_frame (hwf : HeapWF h) {src idx c : ℕ} {t : PageTable}
    (hsrc : h.read src = some t) (hl : t.level ≠ .one) (hidx : idx < entryCount)
    (hE : InteriorExcept h src) (hc : createTable h idx src = .ok (c, h')) :
    HeapWF h' ∧ InteriorExcept h' c ∧ (∀ x s, shape h x = some s → shape h' x = some s) ∧
      ∃ u, h'.read c = some u ∧ u.level.toNat + 1 = t.level.toNat := by
  obtain ⟨c', h₁, hc', hwf', hlk, hshape, -, -⟩ := createTable_spec hwf hsrc hl idx
  rw [hc] at hc'
  cases hc'
  obtain ⟨t', ht', hs⟩ := shape_eq_some.mp (hshape src _ (shape_eq_some.mpr ⟨t, hsrc, rfl⟩))
  simp only [Prod.mk.injEq] at hs
  obtain ⟨u, hu, hlev, -, -⟩ := child_of_lookupTable hwf' ht' (hs.1 ▸ hl) hlk
  exact ⟨hwf', hE.createTable hsrc hl hidx hc, hshape, u, hu, hs.1 ▸ hlev⟩

/-- A write into an entry changes no table's back-pointer. -/
@[simp] theorem upperLevel_get_modify_set (p i v q : ℕ) :
    ((h.modify p fun t => t.set i v).get q).upperLevel = (h.get q).upperLevel := by
  cases hp : h.read p with
  | none =>
    have hread : (h.modify p fun t => t.set i v).read q = h.read q := by
      by_cases hq : q = p
      · subst hq; simp [hp]
      · exact Heap.read_modify_of_ne _ _ hq
    simp only [Heap.get, hread]
  | some t =>
    rw [Heap.get_modify _ hp]
    split_ifs with hq
    · subst hq; simp [h.get_of_read hp]
    · rfl

theorem upperLevel_get_of_shape (hs : ∀ x s, shape h x = some s → shape h' x = some s) {p : ℕ}
    {t : PageTable} (hp : h.read p = some t) : (h'.get p).upperLevel = (h.get p).upperLevel := by
  obtain ⟨t', ht', heq⟩ := shape_eq_some.mp (hs p _ (shape_eq_some.mpr ⟨t, hp, rfl⟩))
  simp only [Prod.mk.injEq] at heq
  rw [h'.get_of_read ht', h.get_of_read hp, heq.2.1]

theorem treeWF_new (hwf : HeapWF h) (hI : Interior h) :
    TreeWF (RemotePageTable.new h).1 (RemotePageTable.new h).2 := by
  have hroot : (RemotePageTable.new h).2.read (RemotePageTable.new h).1.l4PageTable =
      some default := by
    simp [RemotePageTable.new]
  exact ⟨⟨heapWF_alloc_new hwf .four 0 0, default, hroot, rfl⟩, hI.alloc_four rfl,
    by rw [Heap.get_of_read _ hroot]; rfl⟩

section

variable [Paging]

/-- `map_to_the_l1` on a tree: no table of levels two and three is left empty, and old tables
keep their shape. -/
theorem mapToTheL1_frame {T : RemotePageTable} (hwf : WF T h) (hI : Interior h) {pg : Page}
    {l1 : ℕ} (hm : T.mapToTheL1 h pg = .ok (l1, h')) :
    Interior h' ∧ ∀ x s, shape h x = some s → shape h' x = some s := by
  obtain ⟨r, hr, hr4⟩ := hwf.root
  obtain ⟨⟨l3, h₁⟩, hc1, hm⟩ := bind_eq_ok.mp hm
  obtain ⟨⟨l2, h₂⟩, hc2, hc3⟩ := bind_eq_ok.mp hm
  obtain ⟨hwf1, hE1, hs1, u3, hu3, hlev3⟩ :=
    createTable_frame hwf.heap hr (by rw [hr4]; decide) pg.p4Index.lt (hI.except _) hc1
  rw [hr4, PageTableLevel.toNat_four] at hlev3
  obtain ⟨hwf2, hE2, hs2, u2, hu2, hlev2⟩ :=
    createTable_frame hwf1 hu3 (ne_one_of_one_lt (by omega)) pg.p3Index.lt hE1 hc2
  obtain ⟨-, hE3, hs3, u1, hu1, hlev1⟩ :=
    createTable_frame hwf2 hu2 (ne_one_of_one_lt (by omega)) pg.p2Index.lt hE2 hc3
  exact ⟨hE3.interior hu1 (PageTableLevel.toNat_eq_one_iff.mp (by omega)),
    fun x s hx => hs3 x s (hs2 x s (hs1 x s hx))⟩

namespace RemotePageTable

/-- What `map` does to the heap: `map_to_the_l1`, then a write into the page's slot or none. -/
theorem map_cases {T T' : RemotePageTable} {a : VirtAddr} {phy : PhysAddr}
    {r : Option PhysAddr} (hm : T.map h a phy = .ok (r, T', h')) :
    ∃ l1 h₁, T.mapToTheL1 h (Page.containingAddress a) = .ok (l1, h₁) ∧
      T'.l4PageTable = T.l4PageTable ∧ (h' = h₁ ∨
        h' = h₁.modify l1 fun pt => pt.set (Page.containingAddress a).p1Index.toUsize phy.asU64.toNat) := by
  obtain ⟨⟨l1, h₁⟩, hm1, hrest⟩ := bind_eq_ok.mp hm
  refine ⟨l1, h₁, hm1, ?_⟩
  dsimp only at hrest
  split_ifs at hrest
  · obtain ⟨cnt, -, hret⟩ := bind_eq_ok.mp hrest
    cases hret
    exact ⟨rfl, .inr rfl⟩
  · cases hrest
    exact ⟨rfl, .inl rfl⟩

/-- What `force_map` does to the heap: `map_to_the_l1`, then a write into the page's slot. -/
theorem forceMap_cases {T T' : RemotePageTable} {a : VirtAddr} {phy : PhysAddr}
    (hm : T.forceMap h a phy = .ok (T', h')) :
    ∃ l1 h₁, T.mapToTheL1 h (Page.containingAddress a) = .ok (l1, h₁) ∧
      T'.l4PageTable = T.l4PageTable ∧
        h' = h₁.modify l1 fun pt => pt.set (Page.containingAddress a).p1Index.toUsize phy.asU64.toNat := by
  obtain ⟨⟨l1, h₁⟩, hm1, hrest⟩ := bind_eq_ok.mp hm
  refine ⟨l1, h₁, hm1, ?_⟩
  dsimp only at hrest
  split_ifs at hrest
  · obtain ⟨cnt, -, hret⟩ := bind_eq_ok.mp hrest
    cases hret
    exact ⟨rfl, rfl⟩
  · cases hrest
    exact ⟨rfl, rfl⟩

end RemotePageTable

/-- After `map_to_the_l1` for `a`, no write or a write into `a`'s slot leaves a tree. -/
theorem TreeWF.after_mapToTheL1 {T T' : RemotePageTable} (hT : TreeWF T h) {a : VirtAddr}
    {l1 : ℕ} {h₁ : Heap PageTable} (hm : T.mapToTheL1 h (Page.containingAddress a) = .ok (l1, h₁))
    (hroot : T'.l4PageTable = T.l4PageTable) {v : ℕ}
    (hh : h' = h₁ ∨ h' = h₁.modify l1 fun pt => pt.set (Page.containingAddress a).p1Index.toUsize v) :
    TreeWF T' h' := by
  obtain ⟨l1', h₁', hm', hwf1, hf1, -⟩ := RemotePageTable.mapToTheL1_spec hT.wf a
  rw [hm] at hm'
  cases hm'
  obtain ⟨hI1, hs1⟩ := mapToTheL1_frame hT.wf hT.interior hm
  obtain ⟨r, hr, -⟩ := hT.wf.root
  have hup1 : (h₁.get T.l4PageTable).upperLevel = 0 := by
    rw [upperLevel_get_of_shape hs1 hr, hT.rootUpper]
  -- well-formedness reads nothing of the table but its root
  have hwf' : ∀ {h₂ : Heap PageTable}, WF T h₂ → WF T' h₂ := fun hw =>
    ⟨hw.heap, by rw [hroot]; exact hw.root⟩
  obtain ⟨u, hu, hu1⟩ := findL1PageIdx_level hwf1 hf1
  rcases hh with rfl | rfl
  · exact ⟨hwf' hwf1, hI1, by rw [hroot]; exact hup1⟩
  · exact ⟨hwf' (wf_set_leaf hwf1 hu hu1 _ _), hI1.modify_one hu hu1 _ _,
      by rw [hroot, upperLevel_get_modify_set]; exact hup1⟩

theorem TreeWF.write {T : RemotePageTable} (hT : TreeWF T h) {a : VirtAddr} {pt i : ℕ}
    (hf : T.findL1PageIdx h a = some (pt, i)) (v : ℕ) :
    TreeWF T (h.modify pt fun t => t.set i v) := by
  obtain ⟨u, hu, hu1⟩ := findL1PageIdx_level hT.wf hf
  exact ⟨wf_set_leaf hT.wf hu hu1 i v, hT.interior.modify_one hu hu1 i v,
    by rw [upperLevel_get_modify_set]; exact hT.rootUpper⟩

/-- The tables reached from `RemotePageTable::new` in a heap of well-formed trees by `map`,
`force_map`, and writes into the level-one slot of an address, as the fault path and the
prefetcher make. -/
inductive Reached : RemotePageTable → Heap PageTable → Prop
  | new {h : Heap PageTable} : HeapWF h → Interior h →
      Reached (RemotePageTable.new h).1 (RemotePageTable.new h).2
  | map {T T' : RemotePageTable} {h h' : Heap PageTable} {a : VirtAddr} {phy : PhysAddr}
      {r : Option PhysAddr} : Reached T h → T.map h a phy = .ok (r, T', h') → Reached T' h'
  | forceMap {T T' : RemotePageTable} {h h' : Heap PageTable} {a : VirtAddr} {phy : PhysAddr} :
      Reached T h → T.forceMap h a phy = .ok (T', h') → Reached T' h'
  | write {T : RemotePageTable} {h : Heap PageTable} {a : VirtAddr} {pt i : ℕ} (v : ℕ) :
      Reached T h → T.findL1PageIdx h a = some (pt, i) → Reached T (h.modify pt fun t => t.set i v)

theorem Reached.treeWF {T : RemotePageTable} (hr : Reached T h) : TreeWF T h := by
  induction hr with
  | new hwf hI => exact treeWF_new hwf hI
  | map _ hm ih =>
    obtain ⟨l1, h₁, hm1, hroot, hh⟩ := RemotePageTable.map_cases hm
    exact ih.after_mapToTheL1 hm1 hroot hh
  | forceMap _ hm ih =>
    obtain ⟨l1, h₁, hm1, hroot, hh⟩ := RemotePageTable.forceMap_cases hm
    exact ih.after_mapToTheL1 hm1 hroot (.inr hh)
  | write v _ hf ih => exact ih.write hf v

end

end Mitosis
