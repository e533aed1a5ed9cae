import Mitosis.RemoteMapping.Refinement
import Mitosis.RemoteMapping.X86Crate

/-!
# What the remote page table stands for

A remote page table is a partial map from 4 KiB pages to non-zero `u64` values. `map`
binds an unbound page and otherwise answers its binding, `force_map` binds it whatever it
was bound to, and storing zero binds nothing. `view` reads the map a table stands for off
`translate`; the step lemmas of the refinement module make `map` and `force_map` a step
simulation of `PartialMap.insertIfAbsent` and `PartialMap.insert` through `view`, and the
simulation library lifts it to every sequence of operations from `RemotePageTable::new`.
-/
namespace Mitosis
open OsNetwork X86_64

theorem ofValue_eq (v : UInt64) :
    PartialMap.ofValue v = if v.toNat = 0 then none else some (UInt64.ofNat v.toNat) := by
  by_cases hv : v = 0
  · subst hv; simp
  · have hv' : v.toNat ≠ 0 := fun h0 => hv (UInt64.toNat_inj.mp (h0.trans UInt64.toNat_zero.symm))
    rw [PartialMap.ofValue_of_ne_zero hv, if_neg hv', UInt64.ofNat_toNat]

/-- The operations of a run: `map` and `force_map` at an address. -/
inductive PageTableOp
  | map (addr : VirtAddr) (phy : PhysAddr)
  | forceMap (addr : VirtAddr) (phy : PhysAddr)

namespace PageTableOp

/-- The address an operation names. -/
def addr : PageTableOp → VirtAddr
  | map addr _ => addr
  | forceMap addr _ => addr

/-- The value an operation stores. -/
def value : PageTableOp → UInt64
  | map _ phy => phy.asU64
  | forceMap _ phy => phy.asU64

/-- The operation is a `map`. -/
def IsMap : PageTableOp → Prop
  | map _ _ => True
  | forceMap _ _ => False

@[simp] theorem value_map (a : VirtAddr) (phy : PhysAddr) : (map a phy).value = phy.asU64 := rfl

end PageTableOp

section

variable [Paging]

/-- A partial map from pages to values. -/
abbrev PageMap : Type := Page → Option UInt64

namespace RemotePageTable

variable {h : Heap PageTable}

/-- The partial map a table stands for: what `translate` gives at each page. -/
def view (T : RemotePageTable) (h : Heap PageTable) : PageMap :=
  fun pg => (T.translate h pg.startAddress).map PhysAddr.asU64

theorem view_apply (T : RemotePageTable) (h : Heap PageTable) (pg : Page) :
    T.view h pg = if T.slotValue h pg.startAddress = 0 then none
      else some (UInt64.ofNat (T.slotValue h pg.startAddress)) := by
  rw [view, translate_eq]
  split_ifs <;> rfl

theorem view_containingAddress (T : RemotePageTable) (h : Heap PageTable) (a : VirtAddr) :
    T.view h (Page.containingAddress a) = (T.translate h a).map PhysAddr.asU64 := by
  rw [view, translate_eq, translate_eq,
    slotValue_congr T h (Page.containingAddress_startAddress (Page.containingAddress a))]

theorem translate_eq_view (T : RemotePageTable) (h : Heap PageTable) (a : VirtAddr) :
    T.translate h a = (T.view h (Page.containingAddress a)).map PhysAddr.new := by
  rw [view_containingAddress, Option.map_map]
  cases T.translate h a <;> rfl

theorem view_eq_none_iff (T : RemotePageTable) (h : Heap PageTable) (a : VirtAddr) :
    T.view h (Page.containingAddress a) = none ↔ T.slotValue h a = 0 := by
  rw [view_containingAddress, translate_eq]
  split_ifs with hz <;> simp [hz]

theorem view_of_slotValue {T T' : RemotePageTable} {h' : Heap PageTable} {v : UInt64}
    (P : Page → Prop) [DecidablePred P]
    (hslot : ∀ b, T'.slotValue h' b = if P (Page.containingAddress b) then v.toNat else T.slotValue h b) :
    T'.view h' = fun pg => if P pg then PartialMap.ofValue v else T.view h pg := by
  funext pg
  rw [view_apply, view_apply, hslot, Page.containingAddress_startAddress, ofValue_eq]
  by_cases hp : P pg <;> simp [hp]

end RemotePageTable

namespace PageTableOp

/-- One operation on a table and its heap; `force_map` answers nothing. -/
def step : PageTableOp → RemotePageTable × Heap PageTable →
    Except String (Option PhysAddr × (RemotePageTable × Heap PageTable))
  | map addr phy, (T, h) => T.map h addr phy
  | forceMap addr phy, (T, h) => (T.forceMap h addr phy).map fun s => (none, s)

/-- The same operation on the partial map. -/
def spec : PageTableOp → PageMap → Option UInt64 × PageMap
  | map addr phy, m => PartialMap.insertIfAbsent m (Page.containingAddress addr) phy.asU64
  | forceMap addr phy, m => (none, PartialMap.insert m (Page.containingAddress addr) phy.asU64)

/-- The page an operation acts on. -/
def page : PageTableOp → Page
  | map addr _ => Page.containingAddress addr
  | forceMap addr _ => Page.containingAddress addr

theorem page_eq (o : PageTableOp) : o.page = Page.containingAddress o.addr := by
  cases o <;> rfl

@[simp] theorem page_map (a : VirtAddr) (phy : PhysAddr) :
    (map a phy).page = Page.containingAddress a := rfl


/-- What `len` counts: an operation that meets its page unbound. -/
def Fresh (o : PageTableOp) (m : PageMap) : Prop := m o.page = none

instance (o : PageTableOp) (m : PageMap) : Decidable (Fresh o m) :=
  inferInstanceAs (Decidable (_ = none))

/-- A table with `n` operations still to run: well formed, with room to count them. -/
def Inv (n : ℕ) (s : RemotePageTable × Heap PageTable) : Prop :=
  WF s.1 s.2 ∧ s.1.cnt + n < 2 ^ 64

/-- Every operation is a step of the partial map seen through `view`, and `cnt` counts the
operations that meet their page unbound. -/
theorem stepSimulation_counting :
    Simulation.StepSimulation step (Simulation.counting spec Fresh)
      (fun s => (s.1.view s.2, s.1.cnt)) (Option.map PhysAddr.asU64) Inv := by
  rintro n o ⟨T, h⟩ ⟨hwf, hcnt⟩
  dsimp only at hwf hcnt ⊢
  cases o with
  | map a phy =>
    obtain ⟨T', h', hm, hwf', hcnt', hslot⟩ := T.map_spec hwf (by omega) a phy
    refine ⟨T.translate h a, (T', h'), hm, ⟨hwf', by rw [hcnt']; split <;> omega⟩, ?_⟩
    by_cases hz : T.slotValue h a = 0
    · -- an unbound page: the binding is made and counted
      have hnone : T.view h (Page.containingAddress a) = none :=
        (RemotePageTable.view_eq_none_iff T h a).mpr hz
      simp only [Simulation.counting, spec, Fresh, page, PartialMap.insertIfAbsent_of_none hnone,
        hnone, if_true, hcnt', hz]
      refine ⟨by rw [← RemotePageTable.view_containingAddress, hnone], ?_⟩
      rw [RemotePageTable.view_of_slotValue (fun pg => pg = Page.containingAddress a)
        (by simpa [hz] using hslot)]
      congr 1
      funext pg
      rw [PartialMap.insert_apply]
    · -- a bound page: the answer is its binding and nothing changes
      have hsome : T.view h (Page.containingAddress a) = some (UInt64.ofNat (T.slotValue h a)) := by
        rw [RemotePageTable.view_containingAddress, RemotePageTable.translate_eq, if_neg hz]; rfl
      simp only [Simulation.counting, spec, Fresh, page, PartialMap.insertIfAbsent_of_some hsome,
        hsome, reduceCtorEq, if_false, hcnt', hz]
      refine ⟨by rw [← RemotePageTable.view_containingAddress, hsome], ?_⟩
      rw [RemotePageTable.view_of_slotValue (v := phy.asU64) (fun _ => False) (by simpa [hz] using hslot)]
      simp
  | forceMap a phy =>
    obtain ⟨T', h', hm, hwf', hcnt', hslot⟩ := T.forceMap_spec hwf (by omega) a phy
    refine ⟨none, (T', h'), by simp [step, hm, Except.map], ⟨hwf', by rw [hcnt']; split <;> omega⟩,
      rfl, ?_⟩
    have hfresh : Fresh (forceMap a phy) (T.view h) ↔ T.slotValue h a = 0 :=
      RemotePageTable.view_eq_none_iff T h a
    simp only [Simulation.counting, spec, hcnt', if_congr hfresh rfl rfl]
    rw [RemotePageTable.view_of_slotValue (fun pg => pg = Page.containingAddress a) hslot]
    congr 1
    funext pg
    rw [PartialMap.insert_apply]

/-- A run of `map`s into pairwise different pages binds each unbound page it names to the
value stored there and changes nothing else. -/
theorem runSpec_maps_of_nodup (ops : List PageTableOp) (hmap : ∀ o ∈ ops, o.IsMap)
    (hnd : (ops.map page).Nodup) (m : PageMap) (pg : Page) :
    (Simulation.runSpec spec ops m).2 pg = match ops.find? (fun o => o.page = pg) with
      | some o => if m pg = none then PartialMap.ofValue o.value else m pg
      | none => m pg := by
  induction ops generalizing m with
  | nil => rfl
  | cons o os ih =>
    obtain ⟨a, phy, rfl⟩ : ∃ a phy, o = map a phy := by
      cases o with
      | map a phy => exact ⟨a, phy, rfl⟩
      | forceMap a phy => exact absurd (hmap _ List.mem_cons_self) id
    rw [List.map_cons, List.nodup_cons] at hnd
    rw [Simulation.runSpec_cons, ih (fun o ho => hmap o (List.mem_cons_of_mem _ ho)) hnd.2]
    -- the binding the first `map` makes is the one seen at its page
    have hins : (spec (map a phy) m).2 = if m (Page.containingAddress a) = none then
        PartialMap.insert m (Page.containingAddress a) phy.asU64 else m := by
      cases hm : m (Page.containingAddress a) with
      | none => simp [spec, PartialMap.insertIfAbsent_of_none hm]
      | some cur => simp [spec, PartialMap.insertIfAbsent_of_some hm]
    by_cases hpg : Page.containingAddress a = pg
    · subst hpg
      have hnone : os.find? (fun o => o.page = Page.containingAddress a) = none := by
        rw [List.find?_eq_none]
        intro o ho hpo
        exact hnd.1 (List.mem_map.mpr ⟨o, ho, of_decide_eq_true hpo⟩)
      simp only [hnone, hins, List.find?_cons, page_map, decide_true]
      split_ifs with hm <;> simp [PartialMap.insert_apply]
    · have hfind : (map a phy :: os).find? (fun o => o.page = pg) =
          os.find? (fun o => o.page = pg) := by
        simp [hpg]
      rw [hfind]
      have hkeep : (spec (map a phy) m).2 pg = m pg := by
        rw [hins]
        split_ifs <;> simp [PartialMap.insert_apply, Ne.symm hpg]
      rw [hkeep]

theorem runSpec_maps_empty (ops : List PageTableOp) (hmap : ∀ o ∈ ops, o.IsMap)
    (hnd : (ops.map page).Nodup) (pg : Page) :
    (Simulation.runSpec spec ops fun _ => none).2 pg =
      (ops.find? fun o => o.page = pg).bind fun o => PartialMap.ofValue o.value := by
  rw [runSpec_maps_of_nodup ops hmap hnd]
  cases ops.find? fun o => o.page = pg <;> simp

theorem stepSimulation :
    Simulation.StepSimulation step spec (fun s => s.1.view s.2) (Option.map PhysAddr.asU64) Inv :=
  stepSimulation_counting.of_counting

end PageTableOp

namespace RemotePageTable

/-- `RemotePageTable::new` in a well-formed heap: a well-formed table, counting nothing,
that stands for the empty map. -/
theorem new_spec {h : Heap PageTable} (hwf : HeapWF h) :
    WF (new h).1 (new h).2 ∧ (new h).1.cnt = 0 ∧ (new h).1.view (new h).2 = fun _ => none := by
  have hroot : (new h).2.read (new h).1.l4PageTable = some default := by
    simp [new]
  refine ⟨⟨heapWF_alloc_new hwf .four 0 0, default, hroot, rfl⟩, rfl, ?_⟩
  funext pg
  -- every entry of the new root is zero, so every walk stops at once
  have hstop : ∀ i, lookupTable (new h).2 i (new h).1.l4PageTable = none := fun i =>
    lookupTable_eq_none_iff.mpr (by rw [Heap.get_of_read _ hroot]; rfl)
  rw [view_apply, slotValue, findL1PageIdx_eq_walk, upperIndices, walk_cons, hstop]
  rfl

/-- From `RemotePageTable::new` in a well-formed heap, a run the counter can count succeeds,
and its answers, the map its table stands for and its `len` are those of the counting
specification, which does not see the heap. -/
theorem run_new_spec {h₀ : Heap PageTable} (hwf : HeapWF h₀) (ops : List PageTableOp)
    (hlen : ops.length < 2 ^ 64) :
    ∃ rs T h, Simulation.run PageTableOp.step ops (new h₀) = .ok (rs, T, h) ∧ WF T h ∧
      rs.map (Option.map PhysAddr.asU64) = (Simulation.runSpec
        (Simulation.counting PageTableOp.spec PageTableOp.Fresh) ops (fun _ => none, 0)).1 ∧
      (T.view h, T.len) = (Simulation.runSpec
        (Simulation.counting PageTableOp.spec PageTableOp.Fresh) ops (fun _ => none, 0)).2 := by
  obtain ⟨hwf₀, hcnt₀, hview₀⟩ := new_spec hwf
  obtain ⟨rs, ⟨T, h⟩, hrun, ⟨hwf', -⟩, hans, habs⟩ :=
    Simulation.run_simulates PageTableOp.stepSimulation_counting ops (new h₀)
      ⟨hwf₀, by rw [hcnt₀]; omega⟩
  rw [hview₀, hcnt₀] at hans habs
  exact ⟨rs, T, h, hrun, hwf', hans, habs⟩

/-- Runs of the same operations from `RemotePageTable::new` in two well-formed heaps
translate every address alike and count alike. -/
theorem run_new_agree {h₁ h₂ : Heap PageTable} (hwf₁ : HeapWF h₁) (hwf₂ : HeapWF h₂)
    (ops : List PageTableOp) (hlen : ops.length < 2 ^ 64) :
    ∃ rs₁ T₁ h₁' rs₂ T₂ h₂', Simulation.run PageTableOp.step ops (new h₁) = .ok (rs₁, T₁, h₁') ∧
      Simulation.run PageTableOp.step ops (new h₂) = .ok (rs₂, T₂, h₂') ∧
      (∀ a, T₁.translate h₁' a = T₂.translate h₂' a) ∧ T₁.len = T₂.len := by
  obtain ⟨rs₁, T₁, h₁', hrun₁, -, -, habs₁⟩ := run_new_spec hwf₁ ops hlen
  obtain ⟨rs₂, T₂, h₂', hrun₂, -, -, habs₂⟩ := run_new_spec hwf₂ ops hlen
  have hsame := habs₁.trans habs₂.symm
  simp only [Prod.mk.injEq] at hsame
  refine ⟨rs₁, T₁, h₁', rs₂, T₂, h₂', hrun₁, hrun₂, fun a => ?_, hsame.2⟩
  rw [translate_eq_view, translate_eq_view, hsame.1]

/-- From `RemotePageTable::new` in a well-formed heap, a run of `map`s into pairwise
different pages succeeds and translates every address to the value of the `map` into its
page, and to nothing when there is none. -/
theorem run_new_maps {h₀ : Heap PageTable} (hwf : HeapWF h₀) (ops : List PageTableOp)
    (hmap : ∀ o ∈ ops, o.IsMap) (hnd : (ops.map PageTableOp.page).Nodup)
    (hlen : ops.length < 2 ^ 64) :
    ∃ rs T h, Simulation.run PageTableOp.step ops (new h₀) = .ok (rs, T, h) ∧
      ∀ a, T.translate h a = ((ops.find? fun o => o.page = Page.containingAddress a).bind
        fun o => PartialMap.ofValue o.value).map PhysAddr.new := by
  obtain ⟨rs, T, h, hrun, -, -, habs⟩ := run_new_spec hwf ops hlen
  have hview : T.view h = (Simulation.runSpec PageTableOp.spec ops fun _ => none).2 :=
    (congrArg Prod.fst habs).trans (Simulation.runSpec_counting _ _ ops _ 0).2
  refine ⟨rs, T, h, hrun, fun a => ?_⟩
  rw [translate_eq_view, hview, PageTableOp.runSpec_maps_empty ops hmap hnd]

end RemotePageTable

/-- The remote page table refines a partial map from pages to values: from
`RemotePageTable::new` in a well-formed heap, any sequence of `map` and `force_map` that
the counter can count runs without a panic, answers as the partial map does, and leaves a
table whose `translate` is the partial map's binding of each address's page; two addresses
whose slots are found share a slot exactly when they lie in one page. -/
theorem refines_pageMap (h₀ : Heap PageTable) (hwf : HeapWF h₀) (ops : List PageTableOp)
    (hlen : ops.length < 2 ^ 64) :
    ∃ rs T h, Simulation.run PageTableOp.step ops (RemotePageTable.new h₀) = .ok (rs, T, h) ∧
      rs.map (Option.map PhysAddr.asU64) =
        (Simulation.runSpec PageTableOp.spec ops fun _ => none).1 ∧
      (∀ a, T.translate h a = ((Simulation.runSpec PageTableOp.spec ops fun _ => none).2
        (Page.containingAddress a)).map PhysAddr.new) ∧
      ∀ a b s s', T.findL1PageIdx h a = some s → T.findL1PageIdx h b = some s' →
        (s = s' ↔ Page.containingAddress a = Page.containingAddress b) := by
  obtain ⟨hwf₀, hcnt₀, hview₀⟩ := RemotePageTable.new_spec hwf
  obtain ⟨rs, ⟨T, h⟩, hrun, ⟨hwf', -⟩, hans, habs⟩ :=
    Simulation.run_simulates PageTableOp.stepSimulation ops (RemotePageTable.new h₀)
      ⟨hwf₀, by rw [hcnt₀]; omega⟩
  rw [hview₀] at hans habs
  refine ⟨rs, T, h, hrun, hans, fun a => ?_, fun a b s s' ha hb =>
    RemotePageTable.findL1PageIdx_eq_iff hwf' ha hb⟩
  rw [RemotePageTable.translate_eq_view, ← habs]

end

/-- Two `map`s into one page of the empty heap, on the crate's own functions. -/
theorem refines_pageMap_same_page :
    HeapWF Heap.empty ∧
      [PageTableOp.map ⟨0x1000, by decide⟩ ⟨0x5000⟩, .map ⟨0x1008, by decide⟩ ⟨0x6000⟩].length <
        2 ^ 64 ∧
      ∃ rs T h, Simulation.run PageTableOp.step
          [.map ⟨0x1000, by decide⟩ ⟨0x5000⟩, .map ⟨0x1008, by decide⟩ ⟨0x6000⟩]
          (RemotePageTable.new Heap.empty) = .ok (rs, T, h) ∧
        rs.map (Option.map PhysAddr.asU64) = (Simulation.runSpec PageTableOp.spec
          [.map ⟨0x1000, by decide⟩ ⟨0x5000⟩, .map ⟨0x1008, by decide⟩ ⟨0x6000⟩] fun _ => none).1 ∧
        (∀ a, T.translate h a = ((Simulation.runSpec PageTableOp.spec
          [.map ⟨0x1000, by decide⟩ ⟨0x5000⟩, .map ⟨0x1008, by decide⟩ ⟨0x6000⟩] fun _ => none).2
            (Page.containingAddress a)).map PhysAddr.new) ∧
        ∀ a b s s', T.findL1PageIdx h a = some s → T.findL1PageIdx h b = some s' →
          (s = s' ↔ Page.containingAddress a = Page.containingAddress b) :=
  ⟨heapWF_empty, by decide, refines_pageMap Heap.empty heapWF_empty _ (by decide)⟩

/-- The second `map` into the page finds the first value; `force_map` overwrites. -/
example : (Simulation.run PageTableOp.step
    [.map ⟨0x1000, by decide⟩ ⟨0x5000⟩, .map ⟨0x1008, by decide⟩ ⟨0x6000⟩,
      .forceMap ⟨0x1010, by decide⟩ ⟨0x7000⟩]
    (RemotePageTable.new Heap.empty)).map Prod.fst = .ok [none, some ⟨0x5000⟩, none] := by
  rfl

end Mitosis
