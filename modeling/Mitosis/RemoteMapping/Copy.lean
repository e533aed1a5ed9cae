import Mitosis.RemoteMapping.Iter

/-!
# Copying a remote page table

`RemotePageTable::copy` boxes a deep copy of the level-four table and keeps the counter.
`PageTable::deep_copy` boxes a fresh table with the level and back-pointer of the one it
copies, copies the entries of a level-one table as they are, and replaces every other non-zero
entry by a deep copy of the table it points to, whose back-pointer it then re-aims at the new
entry.

A copy writes only cells it allocates, so the original reads what it read before. The copy's
cells form a tree of the same shape: each of its walks ends where the original's does, in a
level-one table with the same entries, and its back-pointers name its own tables. After the
copy the two tables share no table, and `map` and `force_map` on one write only tables of that
one or fresh ones (`Confined`): neither changes what the other translates.
-/
namespace Mitosis
open OsNetwork X86_64

namespace PageTable

/-- One round of the loop of `deep_copy`, for entry `idx` of `self`, into the new table at
`result`; `copy` is the recursive call. -/
def copyEntry (copy : Heap PageTable → ℕ → ℕ × Heap PageTable) (self : PageTable) (result : ℕ)
    (h : Heap PageTable) (idx : ℕ) : Heap PageTable :=
  match self.level with
  | .one => h.modify result fun pt => pt.set idx (self.entries idx)
  | _ =>
    if self.entries idx = 0 then h.modify result fun pt => pt.set idx 0
    else
      -- the source checks the pointer for null once more; a non-zero entry never is
      let (copyLevel, h) := copy h (self.entries idx)
      let h := h.modify copyLevel fun pt => { pt with upperLevel := result, upperLevelIndex := idx }
      h.modify result fun pt => pt.set idx copyLevel

/-- `PageTable::deep_copy` of the table at `src`. The source recurses down the pointers; here
the recursion is bounded by `fuel`, one for each level below. -/
def deepCopy : ℕ → Heap PageTable → ℕ → ℕ × Heap PageTable
  | 0, h, _ => (0, h)
  | fuel + 1, h, src =>
    let self := h.get src
    let (result, h) := h.alloc ⟨fun _ => 0, self.level, self.upperLevel, self.upperLevelIndex⟩
    (result, (List.range entryCount).foldl (copyEntry (deepCopy fuel) self result) h)

end PageTable

/-- `RemotePageTable::copy`: a deep copy of the level-four table and the same counter. -/
def RemotePageTable.copy (self : RemotePageTable) (h : Heap PageTable) :
    RemotePageTable × Heap PageTable :=
  let (l4PageTable, h) := PageTable.deepCopy levelCount h self.l4PageTable
  (⟨l4PageTable, self.cnt⟩, h)

variable {h h' h'' : Heap PageTable}

/-! ## What a walk reads -/

/-- A walk reads the entries of the tables it passes and nothing else: heaps that agree on
those give the same walk. The induction is on the path. -/
theorem walk_eq_of_entries_eq : ∀ (p : List ℕ) (x : ℕ),
    (∀ q y, q.length < p.length → walk h x q = some y → (h'.get y).entries = (h.get y).entries) →
      walk h' x p = walk h x p := by
  intro p
  induction p with
  | nil => intro x _; rfl
  | cons i is ih =>
    intro x hE
    have hlk : lookupTable h' i x = lookupTable h i x := by
      simp only [lookupTable, hE [] x (by simp) rfl]
    rw [walk_cons, walk_cons, hlk]
    cases hn : lookupTable h i x with
    | none => rfl
    | some n =>
      refine ih n fun q y hq hy => hE (i :: q) y (by simp; omega) ?_
      rw [walk_cons, hn]
      exact hy

/-- A heap that keeps every link of `h` keeps every walk of `h`. -/
theorem walk_of_lookupTable_mono
    (hlk : ∀ j x n, lookupTable h j x = some n → lookupTable h' j x = some n) :
    ∀ (p : List ℕ) {x y : ℕ}, walk h x p = some y → walk h' x p = some y := by
  intro p
  induction p with
  | nil => intro x y hy; exact hy
  | cons i is ih =>
    intro x y hy
    rw [walk_cons, Option.bind_eq_some_iff] at hy
    obtain ⟨n, hn, hy⟩ := hy
    rw [walk_cons, hlk i x n hn]
    exact ih hy

/-- Entry `i` of the table at the end of the walk `p` from `x`; zero when the walk fails. -/
def slotAt (h : Heap PageTable) (x : ℕ) (p : List ℕ) (i : ℕ) : ℕ :=
  ((walk h x p).map fun y => (h.get y).entries i).getD 0

@[simp] theorem slotAt_nil (x i : ℕ) : slotAt h x [] i = (h.get x).entries i := rfl

theorem slotAt_cons (x j : ℕ) (p : List ℕ) (i : ℕ) :
    slotAt h x (j :: p) i =
      if (h.get x).entries j = 0 then 0 else slotAt h ((h.get x).entries j) p i := by
  by_cases hz : (h.get x).entries j = 0 <;> simp [slotAt, walk_cons, lookupTable, hz]

theorem slotAt_eq_of_entries_eq {x : ℕ} {p : List ℕ} (i : ℕ)
    (hE : ∀ q y, q.length ≤ p.length → walk h x q = some y → (h'.get y).entries = (h.get y).entries) :
    slotAt h' x p i = slotAt h x p i := by
  have hw : walk h' x p = walk h x p :=
    walk_eq_of_entries_eq p x fun q y hq hy => hE q y (Nat.le_of_lt hq) hy
  unfold slotAt
  rw [hw]
  cases hy : walk h x p with
  | none => rfl
  | some y => simp [hE p y le_rfl hy]

theorem RemotePageTable.pageValue_eq_slotAt (T : RemotePageTable) (pg : ℕ) :
    T.pageValue h pg = slotAt h T.l4PageTable (pathOf 3 (pg / entryCount)) (pg % entryCount) := by
  cases hw : walk h T.l4PageTable (pathOf 3 (pg / entryCount)) with
  | none => simp [RemotePageTable.pageValue, RemotePageTable.pageSlot, slotAt, hw]
  | some y => simp [RemotePageTable.pageValue, RemotePageTable.pageSlot, slotAt, hw]

theorem lt_of_mem_pathOf : ∀ (d b j : ℕ), j ∈ pathOf d b → j < entryCount
  | 0, _, _, hj => by simp [pathOf] at hj
  | d + 1, b, j, hj => by
    rw [pathOf, List.mem_append, List.mem_singleton] at hj
    rcases hj with hj | rfl
    · exact lt_of_mem_pathOf d _ j hj
    · exact Nat.mod_lt _ (by decide)

/-! ## The tables a remote page table reaches -/

/-- The tables reached from the root `r`: those at the end of a walk of at most three steps. -/
def Owns (r : ℕ) (h : Heap PageTable) (y : ℕ) : Prop :=
  ∃ p : List ℕ, p.length ≤ 3 ∧ walk h r p = some y

theorem owns_root (r : ℕ) : Owns r h r := ⟨[], by simp, rfl⟩

theorem walk_eq_of_owns {r : ℕ} (hE : ∀ y, Owns r h y → (h'.get y).entries = (h.get y).entries)
    {p : List ℕ} (hp : p.length ≤ 3) : walk h' r p = walk h r p :=
  walk_eq_of_entries_eq p r fun q y hq hy => hE y ⟨q, by omega, hy⟩

theorem owns_iff_of_entries_eq {r : ℕ}
    (hE : ∀ y, Owns r h y → (h'.get y).entries = (h.get y).entries) (y : ℕ) :
    Owns r h' y ↔ Owns r h y := by
  constructor
  · rintro ⟨p, hp, hy⟩
    exact ⟨p, hp, (walk_eq_of_owns hE hp).symm.trans hy⟩
  · rintro ⟨p, hp, hy⟩
    exact ⟨p, hp, (walk_eq_of_owns hE hp).trans hy⟩

theorem pageValue_eq_of_owns {T : RemotePageTable}
    (hE : ∀ y, Owns T.l4PageTable h y → (h'.get y).entries = (h.get y).entries) (pg : ℕ) :
    T.pageValue h' pg = T.pageValue h pg := by
  rw [T.pageValue_eq_slotAt, T.pageValue_eq_slotAt]
  exact slotAt_eq_of_entries_eq _ fun q y hq hy =>
    hE y ⟨q, by rw [length_pathOf] at hq; omega, hy⟩

theorem WF.read_of_owns {T : RemotePageTable} (hwf : WF T h) {y : ℕ}
    (hy : Owns T.l4PageTable h y) : ∃ u, h.read y = some u := by
  obtain ⟨p, hp, hw⟩ := hy
  obtain ⟨r, hr, hr4⟩ := hwf.root
  obtain ⟨u, hu, -⟩ := walk_descends hwf.heap p hr (by rw [hr4]; simp; omega) hw
  exact ⟨u, hu⟩

section

variable [Paging]

theorem translate_eq_of_owns {T : RemotePageTable}
    (hE : ∀ y, Owns T.l4PageTable h y → (h'.get y).entries = (h.get y).entries) :
    T.translate h' = T.translate h := by
  funext a
  rw [RemotePageTable.translate_eq, RemotePageTable.translate_eq,
    RemotePageTable.slotValue_eq_pageValue, RemotePageTable.slotValue_eq_pageValue,
    pageValue_eq_of_owns hE]

end

/-! ## `map` writes only into the table it maps -/

/-- From `h` to `h'` only tables reached from `r` changed their entries, and every table that
`r` reaches in `h'` it reached in `h` or is new. -/
structure Confined (r : ℕ) (h h' : Heap PageTable) : Prop where
  next_le : h.next ≤ h'.next
  entries_eq : ∀ y, y < h.next → ¬ Owns r h y → (h'.get y).entries = (h.get y).entries
  owns : ∀ y, Owns r h' y → Owns r h y ∨ h.next ≤ y

theorem Confined.refl (r : ℕ) (h : Heap PageTable) : Confined r h h :=
  ⟨le_rfl, fun _ _ _ => rfl, fun _ hy => .inl hy⟩

theorem Confined.trans {r : ℕ} (hc : Confined r h h') (hc' : Confined r h' h'') :
    Confined r h h'' where
  next_le := hc.next_le.trans hc'.next_le
  entries_eq y hy hn := by
    -- a table `r` did not reach and that is not new, `r` does not reach in the middle
    have hn' : ¬ Owns r h' y := fun ho => by
      rcases hc.owns y ho with ho | hle
      · exact hn ho
      · omega
    rw [hc'.entries_eq y (by have := hc.next_le; omega) hn', hc.entries_eq y hy hn]
  owns y hy := by
    rcases hc'.owns y hy with ho | hle
    · exact hc.owns y ho
    · exact .inr (hc.next_le.trans hle)

theorem PageTable.exists_nextLowerLevel {t : PageTable} (hl : t.level ≠ .one) :
    ∃ l, t.level.nextLowerLevel = some l := by
  cases hn : t.level.nextLowerLevel with
  | none => exact absurd (PageTableLevel.nextLowerLevel_eq_none_iff.mp hn) hl
  | some l => exact ⟨l, rfl⟩

/-- `create_table` below a table that `r` reaches changes only that table; a table it links is
new. -/
theorem createTable_confined {r src idx c : ℕ} {t : PageTable}
    (hsrc : h.read src = some t) (hl : t.level ≠ .one) (hown : Owns r h src)
    (hc : createTable h idx src = .ok (c, h')) : Confined r h h' := by
  obtain ⟨l, hlow⟩ := PageTable.exists_nextLowerLevel hl
  rw [createTable_eq hsrc hlow] at hc
  by_cases he : t.entries idx = 0
  · -- a null entry: the heap grows below `src`
    rw [if_pos he] at hc
    cases hc
    have hg := grows_link hsrc he l
    refine ⟨by simp, fun y _ hn => ?_, fun y ⟨p, hp, hw⟩ => ?_⟩
    · have hys : y ≠ src := fun hys => hn (hys ▸ hown)
      funext j
      rw [hg.entries_eq, if_neg fun hyj => hys hyj.1]
    · rcases walk_grows hg p r with hsame | ⟨-, hnew⟩
      · exact .inl ⟨p, hp, hsame ▸ hw⟩
      · rw [hw, Option.some.injEq] at hnew
        exact .inr hnew.ge
  · rw [if_neg he] at hc
    cases hc
    exact Confined.refl r h

/-- A step of `map_to_the_l1` from a table the root reaches by `p`: it changes only tables the
root reaches, and the root then reaches the table it returns by one step more. -/
theorem createTable_owns (hwf : HeapWF h) {r src idx c : ℕ} {t : PageTable}
    (hsrc : h.read src = some t) (hl : t.level ≠ .one) {p : List ℕ} (hp : walk h r p = some src)
    (hlen : p.length ≤ 2) (hc : createTable h idx src = .ok (c, h')) :
    Confined r h h' ∧ HeapWF h' ∧ walk h' r (p ++ [idx]) = some c ∧
      ∃ u, h'.read c = some u ∧ u.level.toNat + 1 = t.level.toNat := by
  obtain ⟨c', h₁, hc', hwf', hlk, hshape, hpres, -⟩ := createTable_spec hwf hsrc hl idx
  rw [hc] at hc'
  cases hc'
  obtain ⟨t', ht', hs⟩ := shape_eq_some.mp (hshape src _ (shape_eq_some.mpr ⟨t, hsrc, rfl⟩))
  simp only [Prod.mk.injEq] at hs
  obtain ⟨u, hu, hlev, -, -⟩ := child_of_lookupTable hwf' ht' (hs.1 ▸ hl) hlk
  refine ⟨createTable_confined hsrc hl ⟨p, by omega, hp⟩ hc, hwf', ?_, u, hu, hs.1 ▸ hlev⟩
  rw [walk_append, walk_of_lookupTable_mono hpres p hp, Option.bind_some, walk_singleton, hlk]

/-- A write into a level-one table that the root reaches changes only that table and no walk. -/
theorem confined_set_leaf {T : RemotePageTable} (hwf : WF T h) {l1 : ℕ} {u : PageTable}
    (hu : h.read l1 = some u) (hu1 : u.level = .one) (hown : Owns T.l4PageTable h l1) (i v : ℕ) :
    Confined T.l4PageTable h (h.modify l1 fun pt => pt.set i v) := by
  obtain ⟨r, hr, hr4⟩ := hwf.root
  -- the written table is at level one, below every table a walk reads
  have hE : ∀ x t j, h.read x = some t → t.level ≠ .one →
      ((h.modify l1 fun pt => pt.set i v).get x).entries j = t.entries j := by
    intro x t j hx hxl
    have hx1 : x ≠ l1 := by
      rintro rfl
      rw [hu, Option.some.injEq] at hx
      exact hxl (hx ▸ hu1)
    rw [Heap.get_modify h hu, if_neg hx1, h.get_of_read hx]
  refine ⟨by simp, fun y _ hn => ?_, fun y ⟨p, hp, hw⟩ => .inl ⟨p, hp, ?_⟩⟩
  · have hy1 : y ≠ l1 := fun hy1 => hn (hy1 ▸ hown)
    rw [Heap.get_modify h hu, if_neg hy1]
  · rw [← walk_congr hwf.heap hE p hr (by rw [hr4]; simp; omega)]
    exact hw

section

variable [Paging]

/-- `map_to_the_l1` changes only tables the root reaches, and the root then reaches the
level-one table it returns along the page's first three indices. -/
theorem mapToTheL1_confined {T : RemotePageTable} (hwf : WF T h) {pg : Page} {l1 : ℕ}
    (hm : T.mapToTheL1 h pg = .ok (l1, h')) :
    Confined T.l4PageTable h h' ∧ HeapWF h' ∧
      walk h' T.l4PageTable [pg.p4Index.toUsize, pg.p3Index.toUsize, pg.p2Index.toUsize] = some l1 ∧
      ∃ u, h'.read l1 = some u ∧ u.level = .one := by
  obtain ⟨r, hr, hr4⟩ := hwf.root
  obtain ⟨⟨l3, h₁⟩, hc1, hm⟩ := bind_eq_ok.mp hm
  obtain ⟨⟨l2, h₂⟩, hc2, hc3⟩ := bind_eq_ok.mp hm
  obtain ⟨hC1, hwf1, hw1, u3, hu3, hlev3⟩ :=
    createTable_owns hwf.heap hr (by rw [hr4]; decide) (p := []) rfl (by simp) hc1
  rw [hr4, PageTableLevel.toNat_four] at hlev3
  obtain ⟨hC2, hwf2, hw2, u2, hu2, hlev2⟩ :=
    createTable_owns hwf1 hu3 (ne_one_of_one_lt (by omega)) hw1 (by simp) hc2
  obtain ⟨hC3, hwf3, hw3, u1, hu1, hlev1⟩ :=
    createTable_owns hwf2 hu2 (ne_one_of_one_lt (by omega)) hw2 (by simp) hc3
  exact ⟨(hC1.trans hC2).trans hC3, hwf3, by simpa using hw3, u1, hu1,
    PageTableLevel.toNat_eq_one_iff.mp (by omega)⟩

/-- `map` and `force_map`, which build the path and may write the slot, change only tables
the root reaches. -/
theorem confined_of_mapToTheL1 {T : RemotePageTable} (hwf : WF T h) {a : VirtAddr} {l1 : ℕ}
    {h₁ : Heap PageTable} (hm : T.mapToTheL1 h (Page.containingAddress a) = .ok (l1, h₁)) {v : ℕ}
    (hh : h' = h₁ ∨ h' = h₁.modify l1 fun pt => pt.set (Page.containingAddress a).p1Index.toUsize v) :
    Confined T.l4PageTable h h' := by
  obtain ⟨hC, -, hw, u, hu, hu1⟩ := mapToTheL1_confined hwf hm
  obtain ⟨l1', h₁', hm', hwf1, -, -⟩ := RemotePageTable.mapToTheL1_spec hwf a
  rw [hm] at hm'
  cases hm'
  rcases hh with rfl | rfl
  · exact hC
  · exact hC.trans (confined_set_leaf hwf1 hu hu1 ⟨_, by simp, hw⟩ _ v)

end

/-! ## The cells a deep copy builds -/

/-- The cells from `lo` up to `hi` hold trees: a table there above level one points only to
tables of the range, one level lower, whose back-pointers name the entry, and a table of
level two or three has a valid entry. -/
def Built (h : Heap PageTable) (lo hi : ℕ) : Prop :=
  ∀ y t, lo ≤ y → y < hi → h.read y = some t → t.level ≠ .one →
    (∀ i, t.entries i ≠ 0 → lo ≤ t.entries i ∧ t.entries i < hi ∧
      ∃ l, shape h (t.entries i) = some (l, y, i) ∧ l.toNat + 1 = t.level.toNat) ∧
    (t.level ≠ .four → ∃ i < entryCount, t.entries i ≠ 0)

theorem built_empty (h : Heap PageTable) (n : ℕ) : Built h n n :=
  fun _ _ hlo hhi => absurd hhi (by omega)

theorem Built.frame {lo hi : ℕ} (hb : Built h lo hi)
    (hE : ∀ y, lo ≤ y → y < hi → h'.read y = h.read y) : Built h' lo hi := by
  intro y t hlo hhi ht hl
  rw [hE y hlo hhi] at ht
  obtain ⟨hch, hne⟩ := hb y t hlo hhi ht hl
  refine ⟨fun i hi => ?_, hne⟩
  obtain ⟨hlo', hhi', l, hs, hlev⟩ := hch i hi
  refine ⟨hlo', hhi', l, ?_, hlev⟩
  rw [shape, hE _ hlo' hhi']
  exact hs

theorem Built.append {lo mid hi : ℕ} (hb : Built h lo mid) (hb' : Built h mid hi)
    (hlo : lo ≤ mid) (hhi : mid ≤ hi) : Built h lo hi := by
  intro y t hy hy' ht hl
  by_cases hm : y < mid
  · obtain ⟨hch, hne⟩ := hb y t hy hm ht hl
    refine ⟨fun i hi => ?_, hne⟩
    obtain ⟨h1, h2, rest⟩ := hch i hi
    exact ⟨h1, by omega, rest⟩
  · obtain ⟨hch, hne⟩ := hb' y t (by omega) hy' ht hl
    refine ⟨fun i hi => ?_, hne⟩
    obtain ⟨h1, h2, rest⟩ := hch i hi
    exact ⟨by omega, h2, rest⟩

/-- Re-aiming the back-pointer of a table that no table of the range points to keeps the
range built. -/
theorem Built.modify_upper {lo hi c : ℕ} {u : PageTable} (hb : Built h lo hi)
    (hc : h.read c = some u) (hu : u.upperLevel < lo) (up idx : ℕ) :
    Built (h.modify c fun pt => { pt with upperLevel := up, upperLevelIndex := idx }) lo hi := by
  intro y t hlo hhi ht hl
  obtain ⟨t₀, ht₀, hent, hlev⟩ :
      ∃ t₀, h.read y = some t₀ ∧ t.entries = t₀.entries ∧ t.level = t₀.level := by
    rw [Heap.read_modify] at ht
    by_cases hyc : y = c
    · rw [if_pos hyc, hc, Option.map_some, Option.some.injEq] at ht
      exact ⟨u, hyc ▸ hc, by rw [← ht], by rw [← ht]⟩
    · rw [if_neg hyc] at ht
      exact ⟨t, ht, rfl, rfl⟩
  rw [hent, hlev]
  obtain ⟨hch, hne⟩ := hb y t₀ hlo hhi ht₀ (hlev ▸ hl)
  refine ⟨fun i hi => ?_, hne⟩
  obtain ⟨h1, h2, l, hs, hl'⟩ := hch i hi
  -- the child is not `c`: its back-pointer is in the range, `c`'s is below it
  have hzc : t₀.entries i ≠ c := by
    intro hzc
    rw [hzc, shape, hc, Option.map_some, Option.some.injEq, Prod.mk.injEq, Prod.mk.injEq] at hs
    omega
  refine ⟨h1, h2, l, ?_, hl'⟩
  rw [shape, Heap.read_modify, if_neg hzc]
  exact hs

/-- A walk from a table of a built range, shorter than the table's level, stays in the range
and goes one level down at each step. The induction is on the path. -/
theorem Built.walk {lo hi : ℕ} (hb : Built h lo hi) : ∀ (q : List ℕ) {x : ℕ} {u : PageTable},
    lo ≤ x → x < hi → h.read x = some u → q.length < u.level.toNat → ∀ {y : ℕ},
      walk h x q = some y →
        lo ≤ y ∧ y < hi ∧ ∃ v, h.read y = some v ∧ v.level.toNat + q.length = u.level.toNat := by
  intro q
  induction q with
  | nil =>
    intro x u hlo hhi hx _ y hy
    cases hy
    exact ⟨hlo, hhi, u, hx, rfl⟩
  | cons i is ih =>
    intro x u hlo hhi hx hlen y hy
    rw [walk_cons, Option.bind_eq_some_iff] at hy
    obtain ⟨n, hn, hy⟩ := hy
    obtain ⟨hen, hn0⟩ := lookupTable_eq_some_iff.mp hn
    rw [h.get_of_read hx] at hen
    obtain ⟨hch, -⟩ := hb x u hlo hhi hx (ne_one_of_length_lt hlen)
    obtain ⟨h1, h2, l, hs, hlev⟩ := hch i (hen ▸ hn0)
    rw [hen] at h1 h2 hs
    obtain ⟨v', hv', hsv⟩ := shape_eq_some.mp hs
    simp only [Prod.mk.injEq] at hsv
    have hlen' : is.length < v'.level.toNat := by
      rw [hsv.1]; simp only [List.length_cons] at hlen; omega
    obtain ⟨hlo', hhi', v, hv, hvlev⟩ := ih h1 h2 hv' hlen' hy
    refine ⟨hlo', hhi', v, hv, ?_⟩
    rw [hsv.1] at hvlev
    simp only [List.length_cons]
    omega

theorem Built.slotAt_eq {lo hi x : ℕ} {u : PageTable} (hb : Built h lo hi) (hlo : lo ≤ x)
    (hhi : x < hi) (hx : h.read x = some u) {p : List ℕ} (hp : p.length < u.level.toNat)
    (hE : ∀ y, lo ≤ y → y < hi → (h'.get y).entries = (h.get y).entries) (i : ℕ) :
    slotAt h' x p i = slotAt h x p i :=
  slotAt_eq_of_entries_eq i fun q y hq hy =>
    have hy' := hb.walk q hlo hhi hx (by omega) hy
    hE y hy'.1 hy'.2.1

/-! ## One round of the loop of `deep_copy` -/

namespace PageTable

variable {copy : Heap PageTable → ℕ → ℕ × Heap PageTable} {self : PageTable} {result idx : ℕ}

theorem copyEntry_one (hl : self.level = .one) (h : Heap PageTable) :
    copyEntry copy self result h idx = h.modify result fun pt => pt.set idx (self.entries idx) := by
  simp only [copyEntry, hl]

theorem copyEntry_zero (hl : self.level ≠ .one) (he : self.entries idx = 0) (h : Heap PageTable) :
    copyEntry copy self result h idx = h.modify result fun pt => pt.set idx 0 := by
  cases hlev : self.level <;> simp_all [copyEntry]

theorem copyEntry_ptr (hl : self.level ≠ .one) (he : self.entries idx ≠ 0) (h : Heap PageTable) :
    copyEntry copy self result h idx =
      ((copy h (self.entries idx)).2.modify (copy h (self.entries idx)).1 fun pt =>
        { pt with upperLevel := result, upperLevelIndex := idx }).modify result fun pt =>
          pt.set idx (copy h (self.entries idx)).1 := by
  cases hlev : self.level <;> simp_all [copyEntry]

theorem deepCopy_succ (fuel : ℕ) (h : Heap PageTable) (src : ℕ) :
    deepCopy (fuel + 1) h src = (h.next, (List.range entryCount).foldl
      (copyEntry (deepCopy fuel) (h.get src) h.next)
        (h.alloc ⟨fun _ => 0, (h.get src).level, (h.get src).upperLevel,
          (h.get src).upperLevelIndex⟩).2) := rfl

end PageTable

/-! ## The loop of `deep_copy` -/

section Loop

variable {hs hk hk' : Heap PageTable} {t : PageTable} {dst : ℕ}

/-- The copy `e` that `deep_copy` made in `hk` of entry `j` of the table `t` of `hs`, into the
new table at `dst`: a level-one entry as it is, a null entry null, and below any other entry a
table after `dst`, one level lower, pointing back to the entry, with the slots of the table
the entry points to. -/
def CopiedEntry (hs hk : Heap PageTable) (t : PageTable) (dst j e : ℕ) : Prop :=
  (t.level = .one → e = t.entries j) ∧
  (t.level ≠ .one → t.entries j = 0 → e = 0) ∧
  (t.level ≠ .one → t.entries j ≠ 0 → dst < e ∧ e < hk.next ∧
    (∃ l, shape hk e = some (l, dst, j) ∧ l.toNat + 1 = t.level.toNat) ∧
    ∀ p i, p.length + 2 = t.level.toNat → (∀ k ∈ p, k < entryCount) → i < entryCount →
      slotAt hk e p i = slotAt hs (t.entries j) p i)

/-- A copied entry stays copied while the cells built after `dst` stay. -/
theorem CopiedEntry.frame {j e : ℕ} (hce : CopiedEntry hs hk t dst j e)
    (hb : Built hk (dst + 1) hk.next) (hE : ∀ y, dst + 1 ≤ y → y < hk.next → hk'.read y = hk.read y)
    (hn : hk.next ≤ hk'.next) : CopiedEntry hs hk' t dst j e := by
  obtain ⟨h1, h2, h3⟩ := hce
  refine ⟨h1, h2, fun hl he => ?_⟩
  obtain ⟨hlt, hlt', ⟨l, hsh, hlev⟩, hslot⟩ := h3 hl he
  obtain ⟨v, hv, hvs⟩ := shape_eq_some.mp hsh
  simp only [Prod.mk.injEq] at hvs
  refine ⟨hlt, by omega, ⟨l, by rw [shape, hE e (by omega) hlt']; exact hsh, hlev⟩,
    fun p i hp hpk hi => ?_⟩
  rw [← hslot p i hp hpk hi]
  exact hb.slotAt_eq (by omega) hlt' hv (by rw [hvs.1]; omega)
    (fun y hy hy' => by simp only [Heap.get, hE y hy hy']) i

/-- The state of the loop of `deep_copy` of the table `t` of `hs` into the table allocated at
`h.next`, after the entries `done`: cells below the copy as they were, the cells after it
built, and each entry of the copy null or copied. -/
structure CopyLoop (hs h : Heap PageTable) (t : PageTable) (hk : Heap PageTable) (done : List ℕ) :
    Prop where
  next_lt : h.next < hk.next
  old : ∀ y, y < h.next → hk.read y = h.read y
  built : Built hk (h.next + 1) hk.next
  dst : ∃ E, hk.read h.next = some ⟨E, t.level, t.upperLevel, t.upperLevelIndex⟩ ∧
    ∀ j, (j ∉ done → E j = 0) ∧ (j ∈ done → CopiedEntry hs hk t h.next j (E j))

theorem copyLoop_alloc (hs h : Heap PageTable) (t : PageTable) :
    CopyLoop hs h t (h.alloc ⟨fun _ => 0, t.level, t.upperLevel, t.upperLevelIndex⟩).2 [] where
  next_lt := by simp
  old y hy := by rw [Heap.read_alloc, if_neg (by omega)]
  built := by rw [Heap.next_alloc]; exact built_empty _ _
  dst := ⟨fun _ => 0, by simp, fun j => ⟨fun _ => rfl, fun hj => absurd hj List.not_mem_nil⟩⟩

theorem CopyLoop.frame {h : Heap PageTable} {done : List ℕ} (hl : CopyLoop hs h t hk done)
    (hE : ∀ y, y < hk.next → hk'.read y = hk.read y) (hn : hk.next ≤ hk'.next)
    (hb : Built hk' (h.next + 1) hk'.next) : CopyLoop hs h t hk' done := by
  obtain ⟨E, hE0, hEj⟩ := hl.dst
  have hlt := hl.next_lt
  refine ⟨by omega, fun y hy => by rw [hE y (by omega), hl.old y hy], hb,
    E, by rw [hE _ hl.next_lt]; exact hE0, fun j => ⟨(hEj j).1, fun hj => ?_⟩⟩
  exact ((hEj j).2 hj).frame hl.built (fun y _ hy => hE y hy) hn

/-- Writing the copy of entry `j` into the new table moves `j` to the entries done. -/
theorem CopyLoop.write {h : Heap PageTable} {done : List ℕ} {j v : ℕ} (hl : CopyLoop hs h t hk done)
    (hj : j ∉ done)
    (hv : CopiedEntry hs (hk.modify h.next fun pt => pt.set j v) t h.next j v) :
    CopyLoop hs h t (hk.modify h.next fun pt => pt.set j v) (done ++ [j]) := by
  obtain ⟨E, hE0, hEj⟩ := hl.dst
  have hkeep : ∀ y, h.next + 1 ≤ y → y < hk.next →
      (hk.modify h.next fun pt => pt.set j v).read y = hk.read y :=
    fun y hy _ => Heap.read_modify_of_ne _ _ (by omega)
  refine ⟨by simpa using hl.next_lt, fun y hy => ?_, ?_, Function.update E j v, ?_, fun k => ?_⟩
  · rw [Heap.read_modify_of_ne _ _ (by omega), hl.old y hy]
  · rw [Heap.next_modify]
    exact hl.built.frame hkeep
  · simp [Heap.read_modify, hE0, PageTable.set]
  · by_cases hkj : k = j
    · subst hkj
      simp only [Function.update_self]
      exact ⟨fun hk => absurd (List.mem_append_right _ (List.mem_singleton_self k)) hk, fun _ => hv⟩
    · simp only [Function.update_of_ne hkj, List.mem_append, List.mem_singleton, hkj, or_false]
      exact ⟨(hEj k).1, fun hk => ((hEj k).2 hk).frame hl.built hkeep (by simp)⟩

end Loop

@[simp] theorem entries_get_modify_upper (h : Heap PageTable) (c up idx y : ℕ) :
    ((h.modify c fun pt => { pt with upperLevel := up, upperLevelIndex := idx }).get y).entries =
      (h.get y).entries := by
  by_cases hy : y = c
  · subst hy
    cases hc : h.read y <;> simp [Heap.get, Heap.read_modify, hc]
  · simp [Heap.get, Heap.read_modify, hy]

/-- What `deep_copy` of the table at `src` of `hs`, made in the heap `h`, leaves: a table at
`h.next` with the level and back-pointer of the source and its null entries, the cells below
`h.next` as they were, the new cells built, and below the copy the slots of the source. -/
structure CopySpec (hs h h' : Heap PageTable) (src dst : ℕ) : Prop where
  dst_eq : dst = h.next
  next_lt : h.next < h'.next
  old : ∀ y, y < h.next → h'.read y = h.read y
  built : Built h' h.next h'.next
  root : ∃ E, h'.read dst = some ⟨E, (hs.get src).level, (hs.get src).upperLevel,
    (hs.get src).upperLevelIndex⟩ ∧ ∀ i < entryCount, (E i = 0 ↔ (hs.get src).entries i = 0)
  slot : ∀ p i, p.length + 1 = (hs.get src).level.toNat → (∀ k ∈ p, k < entryCount) →
    i < entryCount → slotAt h' dst p i = slotAt hs src p i

section Loop

variable {hs hk : Heap PageTable} {t : PageTable}

/-- The round of an entry that points to a table: the recursive copy `c` made in `hk₁`, its
back-pointer re-aimed at the entry, and the entry written. -/
theorem CopyLoop.copyChild {h hk₁ : Heap PageTable} {done : List ℕ} {j c : ℕ}
    (hl : CopyLoop hs h t hk done) (hj : j ∉ done) (hlev : t.level ≠ .one) (he : t.entries j ≠ 0)
    (hc : CopySpec hs hk hk₁ (t.entries j) c) (hup : (hs.get (t.entries j)).upperLevel < hk.next)
    (hclev : (hs.get (t.entries j)).level.toNat + 1 = t.level.toNat) :
    CopyLoop hs h t ((hk₁.modify c fun pt => { pt with upperLevel := h.next, upperLevelIndex := j }).modify
      h.next fun pt => pt.set j c) (done ++ [j]) := by
  set hk₂ := hk₁.modify c fun pt => { pt with upperLevel := h.next, upperLevelIndex := j } with hk₂_def
  obtain ⟨E', hE', -⟩ := hc.root
  have hcn : c = hk.next := hc.dst_eq
  have hlt := hl.next_lt
  have hlt₁ := hc.next_lt
  have hnext₂ : hk₂.next = hk₁.next := by rw [hk₂_def, Heap.next_modify]
  -- the new cells stay built: no new table points to `c`, whose back-pointer is outside them
  have hb₂ : Built hk₂ hk.next hk₂.next := by
    rw [hnext₂, hk₂_def]
    exact hc.built.modify_upper hE' (by simpa using hup) _ _
  have hkeep : ∀ y, y < hk.next → hk₂.read y = hk.read y := fun y hy => by
    rw [hk₂_def, Heap.read_modify_of_ne _ _ (by omega), hc.old y hy]
  have hloop₂ : CopyLoop hs h t hk₂ done :=
    hl.frame hkeep (by omega)
      ((hl.built.frame fun y _ hy => hkeep y hy).append hb₂ (by omega) (by omega))
  refine hloop₂.write hj ⟨fun h1 => absurd h1 hlev, fun _ h0 => absurd h0 he, fun _ _ => ?_⟩
  refine ⟨by omega, by simp only [Heap.next_modify]; omega,
    ⟨(hs.get (t.entries j)).level, ?_, hclev⟩, fun p i hp hpk hi => ?_⟩
  · rw [shape, Heap.read_modify_of_ne _ _ (by omega), hk₂_def, Heap.read_modify, if_pos rfl, hE']
    rfl
  · -- the slots below `c` read only the new cells, whose entries the two writes keep
    calc slotAt (hk₂.modify h.next fun pt => pt.set j c) c p i = slotAt hk₁ c p i := by
          refine hc.built.slotAt_eq (by omega) (by omega) hE'
            (by show p.length < (hs.get (t.entries j)).level.toNat; omega)
            (fun y hy _ => ?_) i
          rw [Heap.get_modify_of_ne _ _ (by omega), hk₂_def, entries_get_modify_upper]
      _ = slotAt hs (t.entries j) p i := hc.slot p i (by omega) hpk hi

end Loop

section Loop

variable {hs hk : Heap PageTable} {t : PageTable}

/-- The loop over a list of indices not yet done, given that the recursive call copies each
table the source points to. The induction is on the list. -/
theorem copyLoop_foldl {copy : Heap PageTable → ℕ → ℕ × Heap PageTable} {h : Heap PageTable}
    {src : ℕ} (hwf : HeapWF hs) (hsrc : hs.read src = some t) (hsh : hs.next ≤ h.next)
    (hagree : ∀ y, y < hs.next → h.read y = hs.read y)
    (hcopy : ∀ (hk : Heap PageTable) (e : ℕ) (t' : PageTable), hs.read e = some t' →
      t'.level.toNat + 1 = t.level.toNat → hs.next ≤ hk.next →
      (∀ y, y < hs.next → hk.read y = hs.read y) → CopySpec hs hk (copy hk e).2 e (copy hk e).1) :
    ∀ (l done : List ℕ) (hk : Heap PageTable), CopyLoop hs h t hk done → (∀ j ∈ l, j ∉ done) →
      l.Nodup → CopyLoop hs h t (l.foldl (PageTable.copyEntry copy t h.next) hk) (done ++ l)
  | [], done, hk, hl, _, _ => by simpa using hl
  | j :: l, done, hk, hl, hfresh, hnd => by
    rw [List.foldl_cons]
    have hj : j ∉ done := hfresh j List.mem_cons_self
    have hstep : CopyLoop hs h t (PageTable.copyEntry copy t h.next hk j) (done ++ [j]) := by
      by_cases hlev : t.level = .one
      · rw [PageTable.copyEntry_one hlev]
        exact hl.write hj ⟨fun _ => rfl, fun h1 => absurd hlev h1, fun h1 => absurd hlev h1⟩
      by_cases he : t.entries j = 0
      · rw [PageTable.copyEntry_zero hlev he]
        exact hl.write hj ⟨fun h1 => absurd h1 hlev, fun _ _ => rfl, fun _ h0 => absurd he h0⟩
      rw [PageTable.copyEntry_ptr hlev he]
      obtain ⟨l', hs', hlev'⟩ := hwf src t hsrc hlev j he
      obtain ⟨t', ht', hshape⟩ := shape_eq_some.mp hs'
      simp only [Prod.mk.injEq] at hshape
      have hlt := hl.next_lt
      have hsrc_lt := hs.lt_next_of_read hsrc
      have hagree' : ∀ y, y < hs.next → hk.read y = hs.read y := fun y hy => by
        rw [hl.old y (by omega), hagree y hy]
      refine hl.copyChild hj hlev he
        (hcopy hk _ t' ht' (by rw [hshape.1]; exact hlev') (by omega) hagree') ?_ ?_
      · rw [hs.get_of_read ht', hshape.2.1]
        omega
      · rw [hs.get_of_read ht', hshape.1]
        exact hlev'
    have hfresh' : ∀ k ∈ l, k ∉ done ++ [j] := fun k hk => by
      simp only [List.mem_append, List.mem_singleton, not_or]
      exact ⟨hfresh k (List.mem_cons_of_mem _ hk), fun hkj => (List.nodup_cons.mp hnd).1 (hkj ▸ hk)⟩
    have hrest := copyLoop_foldl hwf hsrc hsh hagree hcopy l (done ++ [j]) _ hstep hfresh'
      (List.nodup_cons.mp hnd).2
    rwa [List.append_assoc, List.singleton_append] at hrest

/-- After the whole loop the new table is the copy of the source. -/
theorem CopyLoop.copySpec {h h' : Heap PageTable} {src : ℕ}
    (hl : CopyLoop hs h (hs.get src) h' (List.range entryCount))
    (hne : (hs.get src).level ≠ .one → (hs.get src).level ≠ .four →
      ∃ i < entryCount, (hs.get src).entries i ≠ 0) :
    CopySpec hs h h' src h.next := by
  obtain ⟨E, hE0, hEj⟩ := hl.dst
  have hdone : ∀ j, j < entryCount → CopiedEntry hs h' (hs.get src) h.next j (E j) :=
    fun j hj => (hEj j).2 (List.mem_range.mpr hj)
  have hout : ∀ j, entryCount ≤ j → E j = 0 :=
    fun j hj => (hEj j).1 (by rw [List.mem_range]; omega)
  have hz : ∀ i < entryCount, (E i = 0 ↔ (hs.get src).entries i = 0) := by
    intro i hi
    obtain ⟨h1, h2, h3⟩ := hdone i hi
    by_cases hlev : (hs.get src).level = .one
    · rw [h1 hlev]
    by_cases he : (hs.get src).entries i = 0
    · simp [he, h2 hlev he]
    · have := (h3 hlev he).1
      simp only [he, iff_false]
      omega
  refine ⟨rfl, hl.next_lt, hl.old, ?_, ⟨E, hE0, hz⟩, ?_⟩
  · -- built: the new table, then the cells after it
    intro y u hy hy' hu hul
    by_cases hyd : y = h.next
    · subst hyd
      rw [hE0, Option.some.injEq] at hu
      subst hu
      refine ⟨fun i hi => ?_, fun h4 => ?_⟩
      · dsimp only at hi ⊢
        have hi' : i < entryCount := by
          by_contra hc
          exact hi (hout i (by omega))
        have he : (hs.get src).entries i ≠ 0 := fun he => hi ((hz i hi').mpr he)
        obtain ⟨hlt, hlt', ⟨l, hsh, hlev⟩, -⟩ := (hdone i hi').2.2 hul he
        exact ⟨by omega, hlt', l, hsh, hlev⟩
      · obtain ⟨i, hi, he⟩ := hne hul h4
        exact ⟨i, hi, fun hE => he ((hz i hi).mp hE)⟩
    · obtain ⟨hch, hn⟩ := hl.built y u (by omega) hy' hu hul
      refine ⟨fun i hi => ?_, hn⟩
      obtain ⟨h1, h2, rest⟩ := hch i hi
      exact ⟨by omega, h2, rest⟩
  · -- slots: the first index of the path, then the copied table below it
    intro p i hp hpk hi
    cases p with
    | nil =>
      have hlev : (hs.get src).level = .one :=
        PageTableLevel.toNat_eq_one_iff.mp (by simpa using hp.symm)
      rw [slotAt_nil, slotAt_nil, h'.get_of_read hE0]
      exact (hdone i hi).1 hlev
    | cons j p =>
      have hlev : (hs.get src).level ≠ .one := fun h1 => by
        rw [h1, PageTableLevel.toNat_one] at hp
        simp at hp
      have hj : j < entryCount := hpk j List.mem_cons_self
      rw [slotAt_cons, slotAt_cons, h'.get_of_read hE0]
      dsimp only
      obtain ⟨-, h2, h3⟩ := hdone j hj
      by_cases he : (hs.get src).entries j = 0
      · simp [he, h2 hlev he]
      · obtain ⟨hlt, -, -, hslot⟩ := h3 hlev he
        rw [if_neg (by omega), if_neg he]
        exact hslot p i (by simp only [List.length_cons] at hp; omega)
          (fun k hk => hpk k (List.mem_cons_of_mem _ hk)) hi

end Loop

/-- `deep_copy` with a level's worth of fuel copies a table of a well-formed heap whose tables
of levels two and three have valid entries, into any heap that extends it. The induction is
on the fuel: each round of the loop copies a table one level lower. -/
theorem deepCopy_spec {hs : Heap PageTable} (hwf : HeapWF hs) (hI : Interior hs) :
    ∀ (fuel : ℕ) (h : Heap PageTable) (src : ℕ) (t : PageTable), hs.read src = some t →
      t.level.toNat ≤ fuel → hs.next ≤ h.next → (∀ y, y < hs.next → h.read y = hs.read y) →
        CopySpec hs h (PageTable.deepCopy fuel h src).2 src (PageTable.deepCopy fuel h src).1 := by
  intro fuel
  induction fuel with
  | zero =>
    intro h src t _ hlev
    have := t.level.one_le_toNat
    omega
  | succ fuel ih =>
    intro h src t hsrc hlev hsh hagree
    have hself : h.get src = hs.get src := by
      rw [Heap.get, Heap.get, hagree src (hs.lt_next_of_read hsrc)]
    have hst : hs.get src = t := hs.get_of_read hsrc
    subst hst
    rw [PageTable.deepCopy_succ, hself]
    have hloop := copyLoop_foldl hwf hsrc hsh hagree
      (fun hk e t' he hlev' hn hag => ih hk e t' he (by omega) hn hag)
      (List.range entryCount) [] _ (copyLoop_alloc hs h (hs.get src)) (fun _ _ => List.not_mem_nil)
      List.nodup_range
    rw [List.nil_append] at hloop
    have hne : (hs.get src).level ≠ .one → (hs.get src).level ≠ .four →
        ∃ i < entryCount, (hs.get src).entries i ≠ 0 :=
      hI src _ hsrc
    -- reduce the pair first: unifying through it would unfold the loop
    dsimp only
    exact hloop.copySpec hne

/-! ## The copy of a tree -/

theorem TreeWF.of_shape {T : RemotePageTable} (hT : TreeWF T h) (hwf : HeapWF h')
    (hI : Interior h') (hs : ∀ x s, shape h x = some s → shape h' x = some s) : TreeWF T h' := by
  obtain ⟨r, hr, hr4⟩ := hT.wf.root
  obtain ⟨r', hr', hs'⟩ := shape_eq_some.mp (hs _ _ (shape_eq_some.mpr ⟨r, hr, rfl⟩))
  simp only [Prod.mk.injEq] at hs'
  exact ⟨⟨hwf, r', hr', hs'.1.trans hr4⟩, hI, by rw [upperLevel_get_of_shape hs hr, hT.rootUpper]⟩

section SelfCopy

variable {hs : Heap PageTable} {src dst : ℕ}

theorem CopySpec.shape_old (hc : CopySpec hs hs h' src dst) {x : ℕ}
    {s : PageTableLevel × ℕ × ℕ} (hx : shape hs x = some s) : shape h' x = some s := by
  obtain ⟨t, ht, -⟩ := shape_eq_some.mp hx
  rw [shape, hc.old x (hs.lt_next_of_read ht)]
  exact hx

theorem CopySpec.get_old (hc : CopySpec hs hs h' src dst) {y : ℕ} (hy : y < hs.next) :
    h'.get y = hs.get y := by
  rw [Heap.get, Heap.get, hc.old y hy]

theorem CopySpec.heapWF (hc : CopySpec hs hs h' src dst) (hwf : HeapWF hs) : HeapWF h' := by
  intro p t hp hl i hi
  by_cases hpo : p < hs.next
  · rw [hc.old p hpo] at hp
    obtain ⟨l, hsh, hlev⟩ := hwf p t hp hl i hi
    exact ⟨l, hc.shape_old hsh, hlev⟩
  · obtain ⟨hch, -⟩ := hc.built p t (by omega) (h'.lt_next_of_read hp) hp hl
    exact (hch i hi).2.2

theorem CopySpec.interior (hc : CopySpec hs hs h' src dst) (hI : Interior hs) : Interior h' := by
  intro p t hp h1 h4
  by_cases hpo : p < hs.next
  · rw [hc.old p hpo] at hp
    exact hI p t hp h1 h4
  · exact (hc.built p t (by omega) (h'.lt_next_of_read hp) hp h1).2 h4

end SelfCopy

namespace RemotePageTable

theorem copy_fst (T : RemotePageTable) (h : Heap PageTable) :
    (T.copy h).1 = ⟨(PageTable.deepCopy levelCount h T.l4PageTable).1, T.cnt⟩ := rfl

theorem copy_snd (T : RemotePageTable) (h : Heap PageTable) :
    (T.copy h).2 = (PageTable.deepCopy levelCount h T.l4PageTable).2 := rfl

variable {T : RemotePageTable}

theorem copy_spec (hT : TreeWF T h) :
    CopySpec h h (T.copy h).2 T.l4PageTable (T.copy h).1.l4PageTable := by
  obtain ⟨r, hr, hr4⟩ := hT.wf.root
  rw [copy_fst, copy_snd]
  exact deepCopy_spec hT.wf.heap hT.interior levelCount h T.l4PageTable r hr
    (by rw [hr4]; rfl) le_rfl fun _ _ => rfl

theorem copy_entries_old (hT : TreeWF T h) :
    ∀ y, Owns T.l4PageTable h y → ((T.copy h).2.get y).entries = (h.get y).entries := by
  intro y hy
  obtain ⟨u, hu⟩ := hT.wf.read_of_owns hy
  rw [(copy_spec hT).get_old (h.lt_next_of_read hu)]

/-- Both tables are trees of the heap after the copy. -/
theorem copy_treeWF (hT : TreeWF T h) :
    TreeWF T (T.copy h).2 ∧ TreeWF (T.copy h).1 (T.copy h).2 := by
  have hc := copy_spec hT
  have hwf := hc.heapWF hT.wf.heap
  have hI := hc.interior hT.interior
  obtain ⟨E, hE, -⟩ := hc.root
  obtain ⟨r, hr, hr4⟩ := hT.wf.root
  refine ⟨hT.of_shape hwf hI fun x s hx => hc.shape_old hx, ⟨hwf, _, hE, ?_⟩, hI, ?_⟩
  · rw [h.get_of_read hr, hr4]
  · rw [Heap.get_of_read _ hE]
    exact hT.rootUpper

theorem copy_owns_new (hT : TreeWF T h) {y : ℕ}
    (hy : Owns (T.copy h).1.l4PageTable (T.copy h).2 y) : h.next ≤ y := by
  have hc := copy_spec hT
  obtain ⟨p, hp, hw⟩ := hy
  obtain ⟨E, hE, -⟩ := hc.root
  obtain ⟨r, hr, hr4⟩ := hT.wf.root
  have hroot := hc.dst_eq
  obtain ⟨hlo, -⟩ := hc.built.walk p (by omega) (by rw [hroot]; exact hc.next_lt) hE
    (by rw [h.get_of_read hr, hr4]; simp; omega) hw
  exact hlo

theorem copy_pageValue (hT : TreeWF T h) (pg : ℕ) :
    (T.copy h).1.pageValue (T.copy h).2 pg = T.pageValue h pg := by
  have hc := copy_spec hT
  obtain ⟨r, hr, hr4⟩ := hT.wf.root
  rw [pageValue_eq_slotAt, pageValue_eq_slotAt]
  exact hc.slot _ _ (by rw [length_pathOf, h.get_of_read hr, hr4]; rfl) (lt_of_mem_pathOf 3 _)
    (Nat.mod_lt _ (by decide))

end RemotePageTable

/-! ## Two tables that share no table -/

/-- Two trees of one heap that reach no common table. -/
structure Separate (T C : RemotePageTable) (h : Heap PageTable) : Prop where
  left : TreeWF T h
  right : TreeWF C h
  disjoint : ∀ y, Owns T.l4PageTable h y → Owns C.l4PageTable h y → False

section Separate

variable {T C : RemotePageTable}

theorem Separate.symm (hs : Separate T C h) : Separate C T h :=
  ⟨hs.right, hs.left, fun y hC hT => hs.disjoint y hT hC⟩

theorem Separate.entries_of_confined (hs : Separate T C h) (hc : Confined T.l4PageTable h h') :
    ∀ y, Owns C.l4PageTable h y → (h'.get y).entries = (h.get y).entries := by
  intro y hy
  obtain ⟨u, hu⟩ := hs.right.wf.read_of_owns hy
  exact hc.entries_eq y (h.lt_next_of_read hu) fun hT => hs.disjoint y hT hy

/-- After a confined change of `T` that keeps the shapes of the tables, the new `T` and `C`
are separate still: `C` reaches what it reached, and `T` only those and new tables. -/
theorem Separate.after_left {T' : RemotePageTable} (hs : Separate T C h)
    (hc : Confined T.l4PageTable h h') (hT' : TreeWF T' h') (hroot : T'.l4PageTable = T.l4PageTable)
    (hshape : ∀ x s, shape h x = some s → shape h' x = some s) : Separate T' C h' := by
  have hE := hs.entries_of_confined hc
  refine ⟨hT', hs.right.of_shape hT'.wf.heap hT'.interior hshape, fun y hyT hyC => ?_⟩
  rw [owns_iff_of_entries_eq hE] at hyC
  rw [hroot] at hyT
  rcases hc.owns y hyT with hyT | hle
  · exact hs.disjoint y hyT hyC
  · obtain ⟨u, hu⟩ := hs.right.wf.read_of_owns hyC
    have := h.lt_next_of_read hu
    omega

variable [Paging]

theorem mapToTheL1_step {T' : RemotePageTable} (hT : TreeWF T h) {a : VirtAddr} {l1 : ℕ}
    {h₁ : Heap PageTable} (hm : T.mapToTheL1 h (Page.containingAddress a) = .ok (l1, h₁))
    (hroot : T'.l4PageTable = T.l4PageTable) {v : ℕ}
    (hh : h' = h₁ ∨ h' = h₁.modify l1 fun pt => pt.set (Page.containingAddress a).p1Index.toUsize v) :
    TreeWF T' h' ∧ Confined T.l4PageTable h h' ∧ ∀ x s, shape h x = some s → shape h' x = some s := by
  refine ⟨hT.after_mapToTheL1 hm hroot hh, confined_of_mapToTheL1 hT.wf hm hh, fun x s hx => ?_⟩
  have hs1 := (mapToTheL1_frame hT.wf hT.interior hm).2 x s hx
  rcases hh with rfl | rfl
  · exact hs1
  · rwa [shape_modify_set]

theorem Separate.map_left {T' : RemotePageTable} (hs : Separate T C h) {a : VirtAddr}
    {phy : PhysAddr} {r : Option PhysAddr} (hm : T.map h a phy = .ok (r, T', h')) :
    Separate T' C h' ∧ C.translate h' = C.translate h := by
  obtain ⟨l1, h₁, hm1, hroot, hh⟩ := RemotePageTable.map_cases hm
  obtain ⟨hT', hc, hshape⟩ := mapToTheL1_step hs.left hm1 hroot hh
  exact ⟨hs.after_left hc hT' hroot hshape, translate_eq_of_owns (hs.entries_of_confined hc)⟩

theorem Separate.forceMap_left {T' : RemotePageTable} (hs : Separate T C h) {a : VirtAddr}
    {phy : PhysAddr} (hm : T.forceMap h a phy = .ok (T', h')) :
    Separate T' C h' ∧ C.translate h' = C.translate h := by
  obtain ⟨l1, h₁, hm1, hroot, hh⟩ := RemotePageTable.forceMap_cases hm
  obtain ⟨hT', hc, hshape⟩ := mapToTheL1_step hs.left hm1 hroot (.inr hh)
  exact ⟨hs.after_left hc hT' hroot hshape, translate_eq_of_owns (hs.entries_of_confined hc)⟩

end Separate

section

variable [Paging]

/-- One `map` or `force_map` on either of two remote page tables in one heap. -/
inductive PairStep : RemotePageTable × RemotePageTable × Heap PageTable →
    RemotePageTable × RemotePageTable × Heap PageTable → Prop
  | mapLeft {T C T' : RemotePageTable} {h h' : Heap PageTable} {a : VirtAddr} {phy : PhysAddr}
      {r : Option PhysAddr} : T.map h a phy = .ok (r, T', h') → PairStep (T, C, h) (T', C, h')
  | forceMapLeft {T C T' : RemotePageTable} {h h' : Heap PageTable} {a : VirtAddr}
      {phy : PhysAddr} : T.forceMap h a phy = .ok (T', h') → PairStep (T, C, h) (T', C, h')
  | mapRight {T C C' : RemotePageTable} {h h' : Heap PageTable} {a : VirtAddr} {phy : PhysAddr}
      {r : Option PhysAddr} : C.map h a phy = .ok (r, C', h') → PairStep (T, C, h) (T, C', h')
  | forceMapRight {T C C' : RemotePageTable} {h h' : Heap PageTable} {a : VirtAddr}
      {phy : PhysAddr} : C.forceMap h a phy = .ok (C', h') → PairStep (T, C, h) (T, C', h')

/-- No `map` or `force_map` on one of two tables changes what the other translates. -/
def Independent (T C : RemotePageTable) (h : Heap PageTable) : Prop :=
  (∀ a phy r T' h', T.map h a phy = .ok (r, T', h') → C.translate h' = C.translate h) ∧
  (∀ a phy T' h', T.forceMap h a phy = .ok (T', h') → C.translate h' = C.translate h) ∧
  (∀ a phy r C' h', C.map h a phy = .ok (r, C', h') → T.translate h' = T.translate h) ∧
  (∀ a phy C' h', C.forceMap h a phy = .ok (C', h') → T.translate h' = T.translate h)

variable {T C : RemotePageTable}

theorem Separate.independent (hs : Separate T C h) : Independent T C h :=
  ⟨fun _ _ _ _ _ hm => (hs.map_left hm).2, fun _ _ _ _ hm => (hs.forceMap_left hm).2,
    fun _ _ _ _ _ hm => (hs.symm.map_left hm).2, fun _ _ _ _ hm => (hs.symm.forceMap_left hm).2⟩

theorem Separate.pairStep {s s' : RemotePageTable × RemotePageTable × Heap PageTable}
    (hs : Separate s.1 s.2.1 s.2.2) (hstep : PairStep s s') : Separate s'.1 s'.2.1 s'.2.2 := by
  cases hstep with
  | mapLeft hm => exact (hs.map_left hm).1
  | forceMapLeft hm => exact (hs.forceMap_left hm).1
  | mapRight hm => exact (hs.symm.map_left hm).1.symm
  | forceMapRight hm => exact (hs.symm.forceMap_left hm).1.symm

theorem Separate.run (hs : Separate T C h) {s : RemotePageTable × RemotePageTable × Heap PageTable}
    (hrun : Relation.ReflTransGen PairStep (T, C, h) s) : Separate s.1 s.2.1 s.2.2 := by
  induction hrun with
  | refl => exact hs
  | tail _ hstep ih => exact ih.pairStep hstep

end

/-! ## `copy` -/

namespace RemotePageTable

variable {T : RemotePageTable}

theorem copy_separate (hT : TreeWF T h) : Separate T (T.copy h).1 (T.copy h).2 := by
  obtain ⟨hT', hC⟩ := copy_treeWF hT
  refine ⟨hT', hC, fun y hyT hyC => ?_⟩
  rw [owns_iff_of_entries_eq (copy_entries_old hT)] at hyT
  obtain ⟨u, hu⟩ := hT.wf.read_of_owns hyT
  have := h.lt_next_of_read hu
  have := copy_owns_new hT hyC
  omega

/-- The copy's back-pointers name its own entries: the table below an entry of a table of the
copy points back to that entry, and neither table is one of the original's. -/
theorem copy_upperLevel (hT : TreeWF T h) {p : List ℕ} {x i y : ℕ} (hp : p.length < 3)
    (hx : walk (T.copy h).2 (T.copy h).1.l4PageTable p = some x)
    (hy : lookupTable (T.copy h).2 i x = some y) :
    ((T.copy h).2.get y).upperLevel = x ∧ ((T.copy h).2.get y).upperLevelIndex = i ∧
      ¬ Owns T.l4PageTable (T.copy h).2 x ∧ ¬ Owns T.l4PageTable (T.copy h).2 y := by
  have hs := copy_separate hT
  obtain ⟨r, hr, hr4⟩ := hs.right.wf.root
  obtain ⟨u, hu, hulev⟩ := walk_descends hs.right.wf.heap p hr (by rw [hr4]; simp; omega) hx
  rw [hr4, PageTableLevel.toNat_four] at hulev
  obtain ⟨c, hc, -, hcx, hci⟩ :=
    child_of_lookupTable hs.right.wf.heap hu (ne_one_of_one_lt (by omega)) hy
  have hyC : Owns (T.copy h).1.l4PageTable (T.copy h).2 y :=
    ⟨p ++ [i], by simp; omega, by rw [walk_append, hx, Option.bind_some, walk_singleton, hy]⟩
  rw [Heap.get_of_read _ hc]
  exact ⟨hcx, hci, fun hxT => hs.disjoint x hxT ⟨p, by omega, hx⟩, fun hyT => hs.disjoint y hyT hyC⟩

theorem copy_root_entries (hT : TreeWF T h) {i : ℕ} (hi : i < entryCount) :
    ((T.copy h).2.get (T.copy h).1.l4PageTable).entries i = 0 ↔
      (h.get T.l4PageTable).entries i = 0 := by
  obtain ⟨E, hE, hz⟩ := (copy_spec hT).root
  rw [Heap.get_of_read _ hE]
  exact hz i hi

/-- Iterating over the copy yields the pages and values of iterating over the original. -/
theorem copy_iterates (hT : TreeWF T h) :
    ∃ pgs : List ℕ,
      (RemotePageTableIter.new h T = none ↔
        RemotePageTableIter.new (T.copy h).2 (T.copy h).1 = none) ∧
      (∀ it, RemotePageTableIter.new h T = some it →
        Iterator.Yields (RemotePageTableIter.next h) it (pgs.map (T.pageEntry h))) ∧
      (∀ it, RemotePageTableIter.new (T.copy h).2 (T.copy h).1 = some it →
        Iterator.Yields (RemotePageTableIter.next (T.copy h).2) it
          (pgs.map ((T.copy h).1.pageEntry (T.copy h).2))) ∧
      pgs.map (fun pg => (pg, ((T.copy h).1.pageEntry (T.copy h).2 pg).addr)) =
        pgs.map fun pg => (pg, (T.pageEntry h pg).addr) := by
  have hC := (copy_treeWF hT).2
  -- the copy's pages are the original's: both are the sorted pages with a non-zero value
  have hpgs : ((T.copy h).1.slots (T.copy h).2).map Slot.page = (T.slots h).map Slot.page := by
    refine List.Pairwise.eq_of_mem_iff (List.pairwise_map.mpr (pairwise_slots _ _))
      (List.pairwise_map.mpr (pairwise_slots _ _)) fun pg => ?_
    rw [mem_map_page_slots, mem_map_page_slots, copy_pageValue hT]
  refine ⟨(T.slots h).map Slot.page, ?_, fun it hit => RemotePageTableIter.yields_pages hT hit,
    fun it hit => ?_, ?_⟩
  · rw [RemotePageTableIter.new_eq_none_iff hT, RemotePageTableIter.new_eq_none_iff hC]
    exact forall₂_congr fun i hi => (copy_root_entries hT hi).symm
  · rw [← hpgs]
    exact RemotePageTableIter.yields_pages hC hit
  · refine List.map_congr_left fun pg _ => ?_
    rw [pageEntry_addr, pageEntry_addr, copy_pageValue hT]

end RemotePageTable

section

variable [Paging]

/-- What `RemotePageTable::copy` is for, of the table `T` of `h` whose copy is `C` in `h'`:
`C` translates as `T` did and `T` still does, counts as many entries and iterates over the
same pages and values; the back-pointers of `C` name its own entries; and along any later run
of `map` and `force_map` on either, neither changes what the other translates. -/
structure FaithfulCopy (T : RemotePageTable) (h : Heap PageTable) (C : RemotePageTable)
    (h' : Heap PageTable) : Prop where
  translate_eq : ∀ a, C.translate h' a = T.translate h a
  original : ∀ a, T.translate h' a = T.translate h a
  len_eq : C.len = T.len
  iterates : ∃ pgs : List ℕ,
    (RemotePageTableIter.new h T = none ↔ RemotePageTableIter.new h' C = none) ∧
    (∀ it, RemotePageTableIter.new h T = some it →
      Iterator.Yields (RemotePageTableIter.next h) it (pgs.map (T.pageEntry h))) ∧
    (∀ it, RemotePageTableIter.new h' C = some it →
      Iterator.Yields (RemotePageTableIter.next h') it (pgs.map (C.pageEntry h'))) ∧
    pgs.map (fun pg => (pg, (C.pageEntry h' pg).addr)) = pgs.map fun pg => (pg, (T.pageEntry h pg).addr)
  upperLevel : ∀ p x i y, p.length < 3 → walk h' C.l4PageTable p = some x →
    lookupTable h' i x = some y →
      (h'.get y).upperLevel = x ∧ (h'.get y).upperLevelIndex = i ∧
        ¬ Owns T.l4PageTable h' x ∧ ¬ Owns T.l4PageTable h' y
  independent : ∀ T₁ C₁ h₁, Relation.ReflTransGen PairStep (T, C, h') (T₁, C₁, h₁) →
    Independent T₁ C₁ h₁

/-- `copy` of a table reached from `RemotePageTable::new` is a faithful, independent clone. -/
theorem copy_is_faithful_clone {T : RemotePageTable} {h : Heap PageTable} (hr : Reached T h) :
    FaithfulCopy T h (T.copy h).1 (T.copy h).2 := by
  have hT := hr.treeWF
  have hs := RemotePageTable.copy_separate hT
  refine ⟨fun a => ?_, fun a => ?_, rfl, RemotePageTable.copy_iterates hT,
    fun p x i y hp hx hy => RemotePageTable.copy_upperLevel hT hp hx hy,
    fun T₁ C₁ h₁ hrun => (hs.run hrun).independent⟩
  · -- the copy's slots are the original's
    rw [RemotePageTable.translate_eq, RemotePageTable.translate_eq,
      RemotePageTable.slotValue_eq_pageValue, RemotePageTable.slotValue_eq_pageValue,
      RemotePageTable.copy_pageValue hT]
  · rw [translate_eq_of_owns (RemotePageTable.copy_entries_old hT)]

end

/-- The hypothesis is met by a table with a page in each of two level-one tables. -/
theorem copy_is_faithful_clone_two_tables :
    ∃ T h, Reached T h ∧ T.pageValue h 1 = 0x5000 ∧ T.pageValue h 512 = 0x6000 ∧
      FaithfulCopy T h (T.copy h).1 (T.copy h).2 := by
  obtain ⟨T, h, hr, hv₁, hv₂, -⟩ := reached_two_level_one_tables
  exact ⟨T, h, hr, hv₁, hv₂, copy_is_faithful_clone hr⟩

end Mitosis
