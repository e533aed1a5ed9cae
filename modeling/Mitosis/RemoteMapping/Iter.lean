import Mitosis.RemoteMapping.Tree
import Mitosis.Lib.Iterator
import Mitosis.RemoteMapping.X86Crate

/-!
# Iterating over the slots of a remote page table

`RemotePageTableIter` walks the level-one tables of a table from left to right. It scans the
current table from the index after the last entry it yielded; when the table has no valid
entry left it climbs the back-pointers to the next table of the same level
(`find_the_next_neighbour`) and scans that one from its start. `new` descends to the first
level-one table (`find_the_first_level_one_page`); `new_from_l1` starts after a given slot.

The loops of the source have no bound. Here each has one that a tree never reaches: a climb
or a descent passes at most the four levels, and a scan moves through at most the
`ENTRY_COUNT ^ 3` level-one tables a table has room for. On a tree (`TreeWF`) the climb from
a table finds the first table of its depth with a larger path number, a scan yields the first
slot at or past its cursor, and so the iterator yields the slots of the table in the order of
their pages.
-/
namespace Mitosis
open OsNetwork X86_64

/-- `PageEntry`: a level-one table, an index into it and the value found there. -/
structure PageEntry where
  page : ℕ
  index : ℕ
  addr : PhysAddr
  deriving DecidableEq, Repr

/-- `Default for PageEntry`: a null table, index `0` and value `0`. -/
instance : Inhabited PageEntry := ⟨⟨0, 0, PhysAddr.new 0⟩⟩

/-- `NeedPrefetch for PageEntry`: the bottom bit of the value is clear. -/
def PageEntry.needPrefetch (self : PageEntry) : Bool := self.addr.bottomBit == false

/-- `RemotePageTableIter`: the level-one table it is in, and the index of the entry it
yielded last, `-1` before the first (an `isize`). -/
structure RemotePageTableIter where
  curPage : ℕ
  curIdx : ℤ
  deriving DecidableEq, Repr

/-- The number of levels: a bound on every climb and descent of the iterator. -/
def levelCount : ℕ := 4

namespace RemotePageTableIter

variable (h : Heap PageTable)

/-- `find_the_first_level_one_page`: descend through the first valid entry of each table
until level one; nothing when a table on the way has no valid entry. -/
def findTheFirstLevelOnePage : ℕ → ℕ → Option ℕ
  | 0, _ => none
  | fuel + 1, cur =>
    if (h.get cur).getLevel ≠ .one then do
      let idx ← (h.get cur).findValidEntry 0
      findTheFirstLevelOnePage fuel ((h.get cur).entries idx)
    else some cur

/-- `find_the_next_neighbour`: the next table of the level of `src`, found through the
back-pointers; nothing past the last. -/
def findTheNextNeighbour : ℕ → ℕ → Option ℕ
  | 0, _ => none
  | fuel + 1, src =>
    if (h.get src).getUpperLevelPage = 0 then none
    else
      let upper := h.get (h.get src).getUpperLevelPage
      match upper.findValidEntry ((h.get src).getUpperLevelPageIndex + 1) with
      | some idx => some (upper.entries idx)
      | none => do
        -- the neighbour of the table above, entered at its first valid entry
        let upper ← findTheNextNeighbour fuel (h.get src).getUpperLevelPage
        let idx ← (h.get upper).findValidEntry 0
        some ((h.get upper).entries idx)

/-- The loop of `next`: scan the current table after `cur_idx`, and move to the next
level-one table while the current one has no valid entry left. -/
def nextLoop : ℕ → RemotePageTableIter → Option PageEntry × RemotePageTableIter
  | 0, it => (none, it)
  | fuel + 1, it =>
    let curIdx := it.curIdx + 1
    let found := if curIdx ≥ entryCount then none
      else (h.get it.curPage).findValidEntry curIdx.toNat
    match found with
    | some idx =>
      (some ⟨it.curPage, idx, PhysAddr.new (UInt64.ofNat ((h.get it.curPage).entries idx))⟩,
        ⟨it.curPage, idx⟩)
    | none =>
      match findTheNextNeighbour h levelCount it.curPage with
      | none => (none, ⟨it.curPage, -1⟩)
      | some nextPage => nextLoop fuel ⟨nextPage, -1⟩

/-- `Iterator::next`. -/
def next (it : RemotePageTableIter) : Option PageEntry × RemotePageTableIter :=
  nextLoop h (entryCount ^ 3) it

/-- `RemotePageTableIter::new`: at the first level-one table, before its first entry. -/
def new (T : RemotePageTable) : Option RemotePageTableIter :=
  (findTheFirstLevelOnePage h levelCount T.l4PageTable).map fun p => ⟨p, -1⟩

/-- `RemotePageTableIter::new_from_l1`: after entry `index` of the level-one table
`l4_page`. -/
def newFromL1 (l4Page index : ℕ) : RemotePageTableIter := ⟨l4Page, index⟩

end RemotePageTableIter

/-- The entry the iterator yields for a slot. -/
def Slot.toEntry (h : Heap PageTable) (s : Slot) : PageEntry :=
  ⟨s.table, s.index, PhysAddr.new (UInt64.ofNat ((h.get s.table).entries s.index))⟩

namespace RemotePageTable

/-- The entry of a virtual page: its slot and the value there. -/
def pageEntry (T : RemotePageTable) (h : Heap PageTable) (pg : ℕ) : PageEntry :=
  match T.pageSlot h pg with
  | some (pt, i) => ⟨pt, i, PhysAddr.new (UInt64.ofNat (T.pageValue h pg))⟩
  | none => default

end RemotePageTable

namespace PageTable

variable {β : Type}

theorem head?_validEntries (t : PageTable) (f : ℕ → β) :
    (t.validEntries f).head? = (t.findValidEntry 0).map f := by
  rw [validEntries, List.head?_map, List.head?_filter, findValidEntry, Nat.sub_zero,
    List.range_eq_range']

end PageTable

namespace RemotePageTableIter

variable {h : Heap PageTable} {T : RemotePageTable}

/-! ## The climb and the descent -/

/-- On a tree, the climb from a table at depth `d` finds the first table of that depth with
a larger path number. The induction is on the depth: the table above is at depth `d - 1`,
and the neighbour is its next child, or the first child of its own neighbour. -/
theorem findTheNextNeighbour_spec (hT : TreeWF T h) : ∀ (d : ℕ), d ≤ 3 →
    ∀ x ∈ tablesBelow h d (T.l4PageTable, 0), ∀ fuel, d + 1 ≤ fuel →
      findTheNextNeighbour h fuel x.1 =
        (((tablesBelow h d (T.l4PageTable, 0)).filter fun y => x.2 + 1 ≤ y.2).head?).map Prod.fst
  | 0, _, x, hx, fuel + 1, _ => by
    obtain rfl : x = (T.l4PageTable, 0) := by simpa using hx
    simp [findTheNextNeighbour, PageTable.getUpperLevelPage, hT.rootUpper]
  | d + 1, hd, x, hx, fuel + 1, hfuel => by
    rw [tablesBelow_succ, List.mem_flatMap] at hx
    obtain ⟨y, hy, hxy⟩ := hx
    obtain ⟨t, ht, hlev⟩ := level_of_mem_tablesBelow hT.wf (by omega) hy
    have ht1 : t.level ≠ .one := ne_one_of_one_lt (by omega)
    obtain ⟨j, hj, hx2, tx, htx, -, hup, hidx⟩ := parent_of_mem_children hT.wf.heap ht ht1 hxy
    have hy0 : y.1 ≠ 0 := Nat.pos_iff_ne_zero.mp (h.pos_of_read ht)
    -- the cut after `x` is the rest of `y`'s children, then the children of the tables after `y`
    have hcut := Blocks.filter_flatMap_from Prod.snd Prod.snd (by decide : 0 < entryCount)
      (children h) (pairwise_tablesBelow d _) (fun _ _ _ hz => div_of_mem_children hz) hy
      (m := j + 1) (by simpa [entryCount] using hj)
    have hx2' : x.2 + 1 = y.2 * entryCount + (j + 1) := by omega
    rw [tablesBelow_succ, hx2', hcut, List.head?_append]
    have hfirst : ((children h y).filter fun z => y.2 * entryCount + (j + 1) ≤ z.2).head? =
        ((h.get y.1).findValidEntry (j + 1)).map
          fun i => ((h.get y.1).entries i, y.2 * entryCount + i) :=
      PageTable.head?_validEntries_filter _ _ (fun _ => rfl) (by simpa [entryCount] using hj)
    simp only [findTheNextNeighbour, PageTable.getUpperLevelPage, PageTable.getUpperLevelPageIndex,
      h.get_of_read htx, hup, hidx, if_neg hy0]
    rw [hfirst]
    cases hfind : (h.get y.1).findValidEntry (j + 1) with
    | some i => rfl
    | none =>
      rw [findTheNextNeighbour_spec hT d (by omega) y hy fuel (by omega)]
      cases hrest : (tablesBelow h d (T.l4PageTable, 0)).filter (fun z => y.2 + 1 ≤ z.2) with
      | nil => rfl
      | cons z rest =>
        have hz := List.mem_filter.mp (hrest ▸ List.mem_cons_self : z ∈ _)
        obtain ⟨tz, htz, hlevz⟩ := level_of_mem_tablesBelow hT.wf (by omega) hz.1
        -- `z` lies past the root, so it is a table of level two or three
        have hd0 : d ≠ 0 := by
          rintro rfl
          have hz0 : z = (T.l4PageTable, 0) := by simpa using hz.1
          have hz2 := hz.2
          simp [hz0] at hz2
        have hz1 : tz.level ≠ .one := ne_one_of_one_lt (by omega)
        have hz4 : tz.level ≠ .four := fun h4 => by rw [h4] at hlevz; simp at hlevz; omega
        obtain ⟨i, hi, hne⟩ := hT.interior z.1 tz htz hz1 hz4
        obtain ⟨i0, hi0⟩ := Option.isSome_iff_exists.mp
          (PageTable.findValidEntry_zero_isSome (t := h.get z.1) hi (by rwa [h.get_of_read htz]))
        have hzfirst : (children h z).head? =
            some ((h.get z.1).entries i0, z.2 * entryCount + i0) := by
          rw [children, PageTable.head?_validEntries, hi0]; rfl
        obtain ⟨tail, htail⟩ := List.head?_eq_some_iff.mp hzfirst
        simp [htail, hi0]

/-- On a tree, the descent from a table of level `e + 1` reaches the first level-one table
below it. The induction is on `e`: the first valid entry leads to the first child, below
which there is a level-one table since no table of levels two and three is empty. -/
theorem findTheFirstLevelOnePage_spec (hT : TreeWF T h) : ∀ (e : ℕ), e ≤ 3 →
    ∀ (x : ℕ × ℕ) (t : PageTable), h.read x.1 = some t → t.level.toNat = e + 1 →
      ∀ fuel, e + 1 ≤ fuel → findTheFirstLevelOnePage h fuel x.1 = ((tablesBelow h e x).head?).map Prod.fst
  | 0, _, x, t, ht, hlev, fuel + 1, _ => by
    have ht1 : t.level = .one := PageTableLevel.toNat_eq_one_iff.mp hlev
    simp [findTheFirstLevelOnePage, PageTable.getLevel, h.get_of_read ht, ht1]
  | e + 1, he, x, t, ht, hlev, fuel + 1, hfuel => by
    have ht1 : t.level ≠ .one := ne_one_of_one_lt (by omega)
    have hfirst : (children h x).head? = ((h.get x.1).findValidEntry 0).map
        fun i => ((h.get x.1).entries i, x.2 * entryCount + i) :=
      PageTable.head?_validEntries _ _
    simp only [findTheFirstLevelOnePage, PageTable.getLevel, h.get_of_read ht, ne_eq, ht1,
      not_false_eq_true, if_true]
    rw [tablesBelow_succ', ← h.get_of_read ht]
    cases hfind : (h.get x.1).findValidEntry 0 with
    | none =>
      rw [hfind, Option.map_none, List.head?_eq_none_iff] at hfirst
      simp [hfirst]
    | some i =>
      rw [hfind, Option.map_some] at hfirst
      obtain ⟨tail, htail⟩ := List.head?_eq_some_iff.mp hfirst
      have hc : ((h.get x.1).entries i, x.2 * entryCount + i) ∈ children h x := by
        rw [htail]; exact List.mem_cons_self
      obtain ⟨-, -, -, t', ht', hlev', -, -⟩ := parent_of_mem_children hT.wf.heap ht ht1 hc
      have hne := tablesBelow_ne_nil hT.wf.heap hT.interior e _ t' ht' (by omega) (by omega)
      change findTheFirstLevelOnePage h fuel ((h.get x.1).entries i) = _
      rw [findTheFirstLevelOnePage_spec hT e (by omega) _ t' ht' (by omega) fuel (by omega), htail,
        List.flatMap_cons, List.head?_append_of_ne_nil _ hne]

theorem new_eq (hT : TreeWF T h) :
    new h T = ((T.levelOneTables h).head?).map fun y => ⟨y.1, -1⟩ := by
  obtain ⟨r, hr, hr4⟩ := hT.wf.root
  rw [new, findTheFirstLevelOnePage_spec hT 3 le_rfl (T.l4PageTable, 0) r hr (by simp [hr4])
    levelCount le_rfl, RemotePageTable.levelOneTables, Option.map_map]
  rfl

/-! ## The scan -/

/-- The iterator is at cursor `c`: in a level-one table of the tree, after index `cur_idx`,
with every slot from page `c` on still to come. -/
def At (T : RemotePageTable) (h : Heap PageTable) (it : RemotePageTableIter) (c : ℕ) : Prop :=
  ∃ b, (it.curPage, b) ∈ T.levelOneTables h ∧ -1 ≤ it.curIdx ∧ it.curIdx < entryCount ∧
    c = b * entryCount + (it.curIdx + 1).toNat

/-- One call of `next` from cursor `c`: it yields the first slot from `c` on and moves past
it, or yields nothing when there is none. -/
structure StepsFrom (T : RemotePageTable) (h : Heap PageTable)
    (r : Option PageEntry × RemotePageTableIter) (c : ℕ) : Prop where
  none_of_nil : (T.slots h).filter (fun s => c ≤ s.page) = [] → r.1 = none
  some_of_cons : ∀ s rest, (T.slots h).filter (fun s => c ≤ s.page) = s :: rest →
    r.1 = some (s.toEntry h) ∧ At T h r.2 (s.page + 1)

theorem StepsFrom.congr {r : Option PageEntry × RemotePageTableIter} {c c' : ℕ}
    (hc : (T.slots h).filter (fun s => c ≤ s.page) = (T.slots h).filter fun s => c' ≤ s.page)
    (hs : StepsFrom T h r c') : StepsFrom T h r c :=
  ⟨fun hnil => hs.none_of_nil (hc ▸ hnil), fun s rest hcons => hs.some_of_cons s rest (hc ▸ hcons)⟩

theorem nextLoop_of_found {fuel : ℕ} (it : RemotePageTableIter) {i : ℕ}
    (hf : (if it.curIdx + 1 ≥ (entryCount : ℤ) then none
      else (h.get it.curPage).findValidEntry (it.curIdx + 1).toNat) = some i) :
    nextLoop h (fuel + 1) it = (some ⟨it.curPage, i,
      PhysAddr.new (UInt64.ofNat ((h.get it.curPage).entries i))⟩, ⟨it.curPage, i⟩) := by
  rw [nextLoop, hf]

theorem nextLoop_of_not_found {fuel : ℕ} (it : RemotePageTableIter)
    (hf : (if it.curIdx + 1 ≥ (entryCount : ℤ) then none
      else (h.get it.curPage).findValidEntry (it.curIdx + 1).toNat) = none) :
    nextLoop h (fuel + 1) it = match findTheNextNeighbour h levelCount it.curPage with
      | none => (none, ⟨it.curPage, -1⟩)
      | some nextPage => nextLoop h fuel ⟨nextPage, -1⟩ := by
  rw [nextLoop, hf]

/-- The scan of a level-one table after `idx` finds the first of its slots past the cursor. -/
theorem found_eq {x b : ℕ} {idx : ℤ} (hlo : -1 ≤ idx) (hhi : idx < entryCount) :
    (if idx + 1 ≥ (entryCount : ℤ) then none else (h.get x).findValidEntry (idx + 1).toNat).map
        (fun i => (⟨b * entryCount + i, x, i⟩ : Slot)) =
      ((slotsOf h (x, b)).filter fun s => b * entryCount + (idx + 1).toNat ≤ s.page).head? := by
  have h512 : (entryCount : ℤ) = 512 := rfl
  split_ifs with hend
  · -- past the last index: no slot of the table is left
    symm
    rw [Option.map_none, List.head?_eq_none_iff, List.filter_eq_nil_iff]
    intro s hs
    obtain ⟨hi, -, -, hp⟩ := mem_slotsOf.mp hs
    have hm : (idx + 1).toNat = entryCount := by rw [h512] at hend hhi; simp [entryCount]; omega
    rw [hm]
    simpa [hp] using hi
  · have hm : (idx + 1).toNat ≤ entryCount := by
      rw [h512] at hend; simp only [entryCount]; omega
    exact (PageTable.head?_validEntries_filter (h.get x) Slot.page (c := b)
      (fun _ => rfl) hm).symm

/-- The loop of `next`, with one round per level-one table still to come. The induction is on
the budget: a round yields the first slot of the current table past the cursor, or moves to
the next level-one table, which leaves one table fewer to come. -/
theorem nextLoop_spec (hT : TreeWF T h) : ∀ (fuel x b : ℕ) (idx : ℤ),
    (x, b) ∈ T.levelOneTables h → -1 ≤ idx → idx < entryCount →
    ((T.levelOneTables h).filter fun y => b ≤ y.2).length ≤ fuel →
      StepsFrom T h (nextLoop h fuel ⟨x, idx⟩) (b * entryCount + (idx + 1).toNat) := by
  intro fuel
  induction fuel with
  | zero =>
    intro x b idx hx _ _ hfuel
    have hmem : (x, b) ∈ (T.levelOneTables h).filter fun y => b ≤ y.2 :=
      List.mem_filter.mpr ⟨hx, decide_eq_true (le_refl b)⟩
    exact absurd (List.length_pos_of_mem hmem) (by omega)
  | succ fuel ih =>
    intro x b idx hx hlo hhi hfuel
    have hsorted : (T.levelOneTables h).Pairwise fun y z => y.2 < z.2 := pairwise_tablesBelow 3 _
    have hblock : ∀ y ∈ T.levelOneTables h, ∀ s ∈ slotsOf h y, s.page / entryCount = y.2 :=
      fun _ _ _ hs => div_of_mem_slotsOf hs
    have hm : (idx + 1).toNat ≤ entryCount := by
      have h512 : (entryCount : ℤ) = 512 := rfl
      rw [h512] at hhi; simp only [entryCount]; omega
    -- the slots to come: the rest of this table's, then those of the tables after it
    have hcut : (T.slots h).filter (fun s => b * entryCount + (idx + 1).toNat ≤ s.page) =
        (slotsOf h (x, b)).filter (fun s => b * entryCount + (idx + 1).toNat ≤ s.page) ++
          ((T.levelOneTables h).filter fun y => b + 1 ≤ y.2).flatMap (slotsOf h) :=
      Blocks.filter_flatMap_from Prod.snd Slot.page (by decide) (slotsOf h) hsorted hblock hx hm
    have hfound := found_eq (h := h) (x := x) (b := b) hlo hhi
    cases hf : (if idx + 1 ≥ (entryCount : ℤ) then none
        else (h.get x).findValidEntry (idx + 1).toNat) with
    | some i =>
      rw [hf, Option.map_some] at hfound
      obtain ⟨tail, htail⟩ := List.head?_eq_some_iff.mp hfound.symm
      have hi : i < entryCount := by
        have hmem : (⟨b * entryCount + i, x, i⟩ : Slot) ∈ slotsOf h (x, b) :=
          (List.mem_filter.mp (htail ▸ List.mem_cons_self)).1
        exact (mem_slotsOf.mp hmem).1
      rw [htail, List.cons_append] at hcut
      rw [nextLoop_of_found ⟨x, idx⟩ hf]
      refine ⟨fun hnil => (by rw [hcut] at hnil; cases hnil), fun s rest hcons => ?_⟩
      rw [hcut, List.cons.injEq] at hcons
      obtain ⟨rfl, -⟩ := hcons
      refine ⟨rfl, b, hx, ?_⟩
      dsimp only
      exact ⟨by omega, by exact_mod_cast hi, by omega⟩
    | none =>
      rw [hf, Option.map_none] at hfound
      rw [List.head?_eq_none_iff.mp hfound.symm, List.nil_append] at hcut
      have hnb : findTheNextNeighbour h levelCount x =
          (((T.levelOneTables h).filter fun y => b + 1 ≤ y.2).head?).map Prod.fst :=
        findTheNextNeighbour_spec hT 3 le_rfl (x, b) hx levelCount le_rfl
      rw [nextLoop_of_not_found ⟨x, idx⟩ hf]
      cases hnext : (T.levelOneTables h).filter fun y => b + 1 ≤ y.2 with
      | nil =>
        rw [hnext] at hnb
        rw [hnext, List.flatMap_nil] at hcut
        simp only [List.head?_nil, Option.map_none] at hnb
        simp only [hnb]
        exact ⟨fun _ => rfl, fun s rest hcons => (by rw [hcut] at hcons; cases hcons)⟩
      | cons y rest =>
        have hy := List.mem_filter.mp (hnext ▸ List.mem_cons_self : y ∈ _)
        have hb : b + 1 ≤ y.2 := by simpa using hy.2
        have hrest : (T.levelOneTables h).filter (fun z => y.2 + 1 ≤ z.2) = rest :=
          Blocks.filter_succ_of_filter_eq_cons Prod.snd hsorted hnext
        have hcut' : (T.slots h).filter (fun s => y.2 * entryCount + 0 ≤ s.page) =
            (slotsOf h y).filter (fun s => y.2 * entryCount + 0 ≤ s.page) ++
              ((T.levelOneTables h).filter fun z => y.2 + 1 ≤ z.2).flatMap (slotsOf h) :=
          Blocks.filter_flatMap_from Prod.snd Slot.page (by decide) (slotsOf h) hsorted hblock hy.1
            (Nat.zero_le _)
        have hall : (slotsOf h y).filter (fun s => y.2 * entryCount + 0 ≤ s.page) = slotsOf h y :=
          List.filter_eq_self.mpr fun s hs => by simp [(mem_slotsOf.mp hs).2.2.2]
        rw [hall, hrest] at hcut'
        rw [hnext, List.flatMap_cons] at hcut
        rw [hnext] at hnb
        simp only [List.head?_cons, Option.map_some] at hnb
        simp only [hnb]
        have hlen : ((T.levelOneTables h).filter fun z => y.2 ≤ z.2).length ≤ fuel := by
          have hsub : (T.levelOneTables h).filter (fun z => y.2 ≤ z.2) =
              ((T.levelOneTables h).filter fun z => b ≤ z.2).filter fun z => y.2 ≤ z.2 := by
            rw [List.filter_filter]
            exact List.filter_congr fun z _ => by
              by_cases hz : y.2 ≤ z.2 <;> simp [hz]; omega
          have hlt : (((T.levelOneTables h).filter fun z => b ≤ z.2).filter
              fun z => y.2 ≤ z.2).length < ((T.levelOneTables h).filter fun z => b ≤ z.2).length :=
            List.length_filter_lt_length_iff_exists.mpr
              ⟨(x, b), List.mem_filter.mpr ⟨hx, decide_eq_true (le_refl b)⟩, by simp; omega⟩
          rw [hsub]
          omega
        have hstep := ih y.1 y.2 (-1) hy.1 le_rfl (by simp only [entryCount]; omega) hlen
        simp only [Int.reduceNeg, neg_add_cancel, Int.toNat_zero] at hstep
        exact StepsFrom.congr (hcut.trans hcut'.symm) hstep

theorem next_spec (hT : TreeWF T h) {it : RemotePageTableIter} {c : ℕ} (hat : At T h it c) :
    StepsFrom T h (next h it) c := by
  obtain ⟨b, hx, hlo, hhi, rfl⟩ := hat
  refine nextLoop_spec hT _ it.curPage b it.curIdx hx hlo hhi ?_
  calc ((T.levelOneTables h).filter fun y => b ≤ y.2).length
      ≤ (T.levelOneTables h).length := List.length_filter_le _ _
    _ ≤ entryCount ^ 3 := length_tablesBelow_le _ 3

/-- From a cursor the iterator yields the slots from the cursor on, in the order of their
pages, and then stops. The induction is on the slots still to come. -/
theorem yields_from (hT : TreeWF T h) (l : List Slot) : ∀ (c : ℕ) (it : RemotePageTableIter),
    At T h it c → (T.slots h).filter (fun s => c ≤ s.page) = l →
      Iterator.Yields (next h) it (l.map (Slot.toEntry h)) := by
  induction l with
  | nil =>
    intro c it hat hl
    have hnext : next h it = (none, (next h it).2) :=
      Prod.ext ((next_spec hT hat).none_of_nil hl) rfl
    exact Iterator.yields_nil hnext
  | cons s rest ih =>
    intro c it hat hl
    obtain ⟨hs, hat'⟩ := (next_spec hT hat).some_of_cons s rest hl
    have hrest := Blocks.filter_succ_of_filter_eq_cons Slot.page (T.pairwise_slots h) hl
    have hnext : next h it = (some (s.toEntry h), (next h it).2) := Prod.ext hs rfl
    exact Iterator.yields_cons hnext (ih _ _ hat' hrest)

/-- On a tree, `new` yields every slot in the order of its page; `new_from_l1` after a slot
yields the slots of the later pages. -/
theorem yields_slots (hT : TreeWF T h) :
    (∀ it, new h T = some it → Iterator.Yields (next h) it ((T.slots h).map (Slot.toEntry h))) ∧
      ∀ x b i, (x, b) ∈ T.levelOneTables h → i < entryCount →
        Iterator.Yields (next h) (newFromL1 x i)
          (((T.slots h).filter fun s => b * entryCount + i + 1 ≤ s.page).map (Slot.toEntry h)) := by
  refine ⟨fun it hnew => ?_, fun x b i hx hi => ?_⟩
  · rw [new_eq hT] at hnew
    obtain ⟨y, hy, rfl⟩ := Option.map_eq_some_iff.mp hnew
    have hy' : y ∈ T.levelOneTables h := List.mem_of_head? hy
    have hall : (T.slots h).filter (fun s => y.2 * entryCount + 0 ≤ s.page) = T.slots h := by
      refine List.filter_eq_self.mpr fun s hs => ?_
      obtain ⟨z, hz, hsz⟩ := List.mem_flatMap.mp hs
      have hyz : y.2 ≤ z.2 := by
        obtain ⟨tail, htail⟩ := List.head?_eq_some_iff.mp hy
        have hsorted : (y :: tail).Pairwise fun a b => a.2 < b.2 :=
          htail ▸ (pairwise_tablesBelow 3 _ : (T.levelOneTables h).Pairwise fun a b => a.2 < b.2)
        rcases List.mem_cons.mp (htail ▸ hz : z ∈ y :: tail) with rfl | hz'
        · exact le_rfl
        · exact Nat.le_of_lt (List.rel_of_pairwise_cons hsorted hz')
      have hp := (mem_slotsOf.mp hsz).2.2.2
      simp only [decide_eq_true_eq]
      have := Nat.mul_le_mul_right entryCount hyz
      omega
    exact yields_from hT _ _ _ ⟨y.2, hy', le_rfl, by simp [entryCount], by simp⟩ hall
  · refine yields_from hT _ _ _ ⟨b, hx, ?_⟩ rfl
    simp only [newFromL1]
    exact ⟨by omega, by exact_mod_cast hi, by omega⟩


/-- `new` finds no level-one table exactly when the root has no valid entry: below every
child of the root there is one. -/
theorem new_eq_none_iff (hT : TreeWF T h) :
    new h T = none ↔ ∀ i < entryCount, (h.get T.l4PageTable).entries i = 0 := by
  obtain ⟨r, hr, hr4⟩ := hT.wf.root
  rw [new_eq hT, Option.map_eq_none_iff, List.head?_eq_none_iff, RemotePageTable.levelOneTables,
    tablesBelow_succ', List.flatMap_eq_nil_iff]
  constructor
  · intro hnil i hi
    by_contra hne
    have hc : ((h.get T.l4PageTable).entries i, 0 * entryCount + i) ∈
        children h (T.l4PageTable, 0) := by
      rw [children, PageTable.mem_validEntries]
      exact ⟨i, hi, hne, rfl⟩
    obtain ⟨-, -, -, t', ht', hlev', -, -⟩ :=
      parent_of_mem_children hT.wf.heap hr (by rw [hr4]; decide) hc
    rw [hr4, PageTableLevel.toNat_four] at hlev'
    exact tablesBelow_ne_nil hT.wf.heap hT.interior 2 _ t' ht' (by omega) le_rfl (hnil _ hc)
  · intro hzero y hy
    rw [children, PageTable.mem_validEntries] at hy
    obtain ⟨i, hi, hne, -⟩ := hy
    exact absurd (hzero i hi) hne

end RemotePageTableIter

namespace RemotePageTable

theorem pageEntry_page {T : RemotePageTable} {h : Heap PageTable} {s : Slot} (hs : s ∈ T.slots h) :
    T.pageEntry h s.page = s.toEntry h := by
  have hslot := (mem_slots.mp hs).2.1
  simp only [pageEntry, hslot, pageValue_of_pageSlot hslot, Slot.toEntry]

theorem map_pageEntry_page {T : RemotePageTable} {h : Heap PageTable} {l : List Slot}
    (hl : ∀ s ∈ l, s ∈ T.slots h) : (l.map Slot.page).map (T.pageEntry h) = l.map (Slot.toEntry h) := by
  rw [List.map_map]
  exact List.map_congr_left fun s hs => pageEntry_page (hl s hs)

theorem pageEntry_addr (T : RemotePageTable) (h : Heap PageTable) (pg : ℕ) :
    (T.pageEntry h pg).addr = PhysAddr.new (UInt64.ofNat (T.pageValue h pg)) := by
  cases hslot : T.pageSlot h pg with
  | none => simp [pageEntry, pageValue, hslot]; rfl
  | some s => simp [pageEntry, pageValue, hslot]

end RemotePageTable

theorem RemotePageTableIter.yields_pages {T : RemotePageTable} {h : Heap PageTable}
    (hT : TreeWF T h) {it : RemotePageTableIter} (hit : new h T = some it) :
    Iterator.Yields (next h) it (((T.slots h).map Slot.page).map (T.pageEntry h)) := by
  rw [RemotePageTable.map_pageEntry_page fun s hs => hs]
  exact (yields_slots hT).1 it hit

theorem RemotePageTable.map_pageEntry_filter (T : RemotePageTable) (h : Heap PageTable)
    (a : VirtAddr) :
    (((T.slots h).map Slot.page).filter (RemotePageTable.vpn a < ·)).map (T.pageEntry h) =
      ((T.slots h).filter fun s => RemotePageTable.vpn a < s.page).map (Slot.toEntry h) := by
  rw [List.filter_map, map_pageEntry_page fun s hs => (List.mem_filter.mp hs).1]
  rfl

section

variable [Paging]

/-- On a tree, `new_from_l1` at the slot of an address yields the slots of the pages after the
address's page, in order. -/
theorem RemotePageTableIter.yields_after {T : RemotePageTable} {h : Heap PageTable}
    (hT : TreeWF T h) {a : VirtAddr} {pt i : ℕ} (hf : T.findL1PageIdx h a = some (pt, i)) :
    Iterator.Yields (next h) (newFromL1 pt i)
      (((T.slots h).filter fun s => RemotePageTable.vpn a < s.page).map (Slot.toEntry h)) := by
  rw [RemotePageTable.findL1PageIdx_eq_pageSlot, RemotePageTable.pageSlot,
    Option.map_eq_some_iff] at hf
  obtain ⟨pt', hw, hpt⟩ := hf
  simp only [Prod.mk.injEq] at hpt
  obtain ⟨rfl, rfl⟩ := hpt
  have hv := RemotePageTable.vpn_lt a
  have hx : (pt', RemotePageTable.vpn a / entryCount) ∈ T.levelOneTables h :=
    (mem_tablesBelow _ 3 _).mpr ⟨by simp only [entryCount]; omega, hw⟩
  have hyield := (yields_slots hT).2 pt' _ _ hx (Nat.mod_lt (RemotePageTable.vpn a) (by decide))
  have hcut : (T.slots h).filter (fun s => RemotePageTable.vpn a / entryCount * entryCount +
      RemotePageTable.vpn a % entryCount + 1 ≤ s.page) =
      (T.slots h).filter fun s => RemotePageTable.vpn a < s.page :=
    List.filter_congr fun s _ => by
      have := Nat.div_add_mod (RemotePageTable.vpn a) entryCount
      rw [Nat.mul_comm] at this
      simp only [decide_eq_decide]
      omega
  rwa [hcut] at hyield

/-- Iteration over a table reached from `RemotePageTable::new` is complete, ordered and has no
repeats. There is a strictly increasing list of the virtual pages whose slot holds a non-zero
value; `RemotePageTableIter::new` is `None` exactly when the root has no valid entry, and
otherwise yields the entry of each of those pages in order, with the slot's table, index and
value, and then stops; `new_from_l1` at the slot of an address yields those of the pages
after the address's page. -/
theorem iter_yields_slots_in_page_order {T : RemotePageTable} {h : Heap PageTable}
    (hr : Reached T h) :
    ∃ pgs : List ℕ, pgs.Pairwise (· < ·) ∧ (∀ pg, pg ∈ pgs ↔ pg < 2 ^ 36 ∧ T.pageValue h pg ≠ 0) ∧
      (RemotePageTableIter.new h T = none ↔ ∀ i < entryCount, (h.get T.l4PageTable).entries i = 0) ∧
      (RemotePageTableIter.new h T = none → pgs = []) ∧
      (∀ it, RemotePageTableIter.new h T = some it →
        Iterator.Yields (RemotePageTableIter.next h) it (pgs.map (T.pageEntry h))) ∧
      ∀ a pt i, T.findL1PageIdx h a = some (pt, i) →
        Iterator.Yields (RemotePageTableIter.next h) (RemotePageTableIter.newFromL1 pt i)
          ((pgs.filter (RemotePageTable.vpn a < ·)).map (T.pageEntry h)) := by
  have hT := hr.treeWF
  refine ⟨(T.slots h).map Slot.page, List.pairwise_map.mpr (T.pairwise_slots h),
    fun pg => RemotePageTable.mem_map_page_slots, RemotePageTableIter.new_eq_none_iff hT,
    fun hnone => ?_, fun it hit => RemotePageTableIter.yields_pages hT hit, fun a pt i hf => ?_⟩
  · -- no level-one table: no slot
    rw [RemotePageTableIter.new_eq hT, Option.map_eq_none_iff, List.head?_eq_none_iff] at hnone
    simp [RemotePageTable.slots, hnone]
  · rw [RemotePageTable.map_pageEntry_filter]
    exact RemotePageTableIter.yields_after hT hf

end

/-- A table the crate's `map` builds from a fresh one, with the page `0x5000` at `0x1000` and
`0x6000` at `0x200000`: one slot in each of two level-one tables, under a root whose first
entry is set. -/
theorem reached_two_level_one_tables :
    ∃ T h, Reached T h ∧ T.pageValue h 1 = 0x5000 ∧ T.pageValue h 512 = 0x6000 ∧
      (h.get T.l4PageTable).entries 0 ≠ 0 ∧
      ∃ pt₁ pt₂, pt₁ ≠ pt₂ ∧ T.pageSlot h 1 = some (pt₁, 1) ∧ T.pageSlot h 512 = some (pt₂, 0) ∧
        ∃ a, T.findL1PageIdx h a = some (pt₁, 1) := by
  obtain ⟨T₁, h₁, T, h, hm₁, hm₂, hv₁, hv₂, hl4, hne, hs₁, hs₂, hf⟩ : ∃ T₁ h₁ T h,
      (RemotePageTable.new Heap.empty).1.map (RemotePageTable.new Heap.empty).2
        ⟨0x1000, by decide⟩ ⟨0x5000⟩ = .ok (none, T₁, h₁) ∧
      T₁.map h₁ ⟨0x200000, by decide⟩ ⟨0x6000⟩ = .ok (none, T, h) ∧
      T.pageValue h 1 = 0x5000 ∧ T.pageValue h 512 = 0x6000 ∧
      (h.get T.l4PageTable).entries 0 ≠ 0 ∧ (4 : ℕ) ≠ 5 ∧
      T.pageSlot h 1 = some (4, 1) ∧ T.pageSlot h 512 = some (5, 0) ∧
      T.findL1PageIdx h ⟨0x1000, by decide⟩ = some (4, 1) :=
    ⟨_, _, _, _, rfl, rfl, rfl, rfl, by decide, by decide, rfl, rfl, rfl⟩
  have hr : Reached T h := ((Reached.new heapWF_empty interior_empty).map hm₁).map hm₂
  exact ⟨T, h, hr, hv₁, hv₂, hl4, 4, 5, hne, hs₁, hs₂, _, hf⟩

/-- The hypothesis is met by a table with a page in each of two level-one tables, where the
iterator starts and a slot is found. -/
theorem iter_yields_slots_in_page_order_two_tables :
    ∃ T h, Reached T h ∧ T.pageValue h 1 = 0x5000 ∧ T.pageValue h 512 = 0x6000 ∧
      RemotePageTableIter.new h T ≠ none ∧ (∃ a pt i, T.findL1PageIdx h a = some (pt, i)) ∧
      ∃ pgs : List ℕ, pgs.Pairwise (· < ·) ∧ (∀ pg, pg ∈ pgs ↔ pg < 2 ^ 36 ∧ T.pageValue h pg ≠ 0) ∧
        (RemotePageTableIter.new h T = none ↔
          ∀ i < entryCount, (h.get T.l4PageTable).entries i = 0) ∧
        (RemotePageTableIter.new h T = none → pgs = []) ∧
        (∀ it, RemotePageTableIter.new h T = some it →
          Iterator.Yields (RemotePageTableIter.next h) it (pgs.map (T.pageEntry h))) ∧
        ∀ a pt i, T.findL1PageIdx h a = some (pt, i) →
          Iterator.Yields (RemotePageTableIter.next h) (RemotePageTableIter.newFromL1 pt i)
            ((pgs.filter (RemotePageTable.vpn a < ·)).map (T.pageEntry h)) := by
  obtain ⟨T, h, hr, hv₁, hv₂, hl4, pt₁, -, -, -, -, a, hf⟩ := reached_two_level_one_tables
  obtain ⟨pgs, hsort, hmem, hnone, hnil, hall, hafter⟩ := iter_yields_slots_in_page_order hr
  have hstart : RemotePageTableIter.new h T ≠ none := fun hn =>
    hl4 (hnone.mp hn 0 (by decide))
  exact ⟨T, h, hr, hv₁, hv₂, hstart, ⟨a, pt₁, 1, hf⟩, pgs, hsort, hmem, hnone, hnil, hall, hafter⟩

end Mitosis
