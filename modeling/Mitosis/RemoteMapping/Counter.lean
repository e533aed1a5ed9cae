import Mitosis.RemoteMapping.PageMap

/-!
# What `len` counts

`RemotePageTable::len` returns `cnt`, which `map` and `force_map` increase when the slot they
write held zero. The pages a table maps are those whose slot does not hold zero. The two
differ by the stores of a zero: one into an empty slot is counted and maps nothing, and a
`force_map` of zero over a mapped page unmaps it and is not taken off. On the partial map the
table stands for, `len` is the number of bound pages plus the number of such stores; the
refinement of the page-map module carries this to every run of the table itself.
-/
namespace Mitosis
open OsNetwork X86_64

section

variable [Paging]

namespace PageTableOp

/-- An operation that moves `len` away from the number of mapped pages: a `map` of zero into
an unbound page, or a `force_map` of zero. -/
def Drifts : PageTableOp → PageMap → Prop
  | map addr phy, m => phy.asU64 = 0 ∧ m (Page.containingAddress addr) = none
  | forceMap _ phy, _ => phy.asU64 = 0

instance (o : PageTableOp) (m : PageMap) : Decidable (Drifts o m) :=
  match o with
  | map _ _ => inferInstanceAs (Decidable (_ ∧ _))
  | forceMap _ _ => inferInstanceAs (Decidable (_ = _))

/-- The drifting operations of a run of the specification from `m`. -/
def driftCount : List PageTableOp → PageMap → ℕ
  | [], _ => 0
  | o :: os, m => (if Drifts o m then 1 else 0) + driftCount os (spec o m).2

/-- One operation: the bound pages before and the count it adds are the bound pages after
and whether it drifts. -/
theorem spec_support {o : PageTableOp} {m : PageMap} {S : Finset Page}
    (hS : PartialMap.Support m S) :
    ∃ S', PartialMap.Support (spec o m).2 S' ∧
      S.card + (if Fresh o m then 1 else 0) = S'.card + (if Drifts o m then 1 else 0) := by
  cases o with
  | map a phy =>
    by_cases hf : m (Page.containingAddress a) = none
    · -- an unbound page: the store binds it, unless it stores zero
      have hnot : Page.containingAddress a ∉ S := fun hin => (hS _).mpr hin hf
      rw [spec, PartialMap.insertIfAbsent_of_none hf]
      refine ⟨_, hS.insert _ _, ?_⟩
      by_cases hv : phy.asU64 = 0 <;>
        simp [hv, hf, Fresh, Drifts, Finset.card_insert_of_notMem hnot,
          Finset.erase_eq_of_notMem hnot]
    · obtain ⟨cur, hcur⟩ := Option.ne_none_iff_exists'.mp hf
      rw [spec, PartialMap.insertIfAbsent_of_some hcur]
      exact ⟨S, hS, by simp [Fresh, Drifts, hf]⟩
  | forceMap a phy =>
    refine ⟨_, hS.insert _ _, ?_⟩
    by_cases hf : m (Page.containingAddress a) = none
    · have hnot : Page.containingAddress a ∉ S := fun hin => (hS _).mpr hin hf
      by_cases hv : phy.asU64 = 0 <;>
        simp [hv, hf, page, Fresh, Drifts, Finset.card_insert_of_notMem hnot,
          Finset.erase_eq_of_notMem hnot]
    · -- a bound page: a zero unbinds it, and nothing is counted
      have hin : Page.containingAddress a ∈ S := (hS _).mp hf
      have hpos := Finset.card_pos.mpr ⟨_, hin⟩
      by_cases hv : phy.asU64 = 0 <;>
        simp [hv, hf, hin, page, Fresh, Drifts, Finset.card_erase_of_mem hin]
      omega

/-- Along a run of the counting specification, the bound pages and the count stay apart by
the drifting operations. The induction is on the run, each step by `spec_support`. -/
theorem runSpec_counting_support : ∀ (ops : List PageTableOp) (m : PageMap) (n : ℕ)
    (S : Finset Page), PartialMap.Support m S →
    ∃ S', PartialMap.Support (Simulation.runSpec (Simulation.counting spec Fresh) ops (m, n)).2.1 S' ∧
      S.card + (Simulation.runSpec (Simulation.counting spec Fresh) ops (m, n)).2.2 =
        S'.card + n + driftCount ops m
  | [], m, n, S, hS => ⟨S, hS, by simp [driftCount]⟩
  | o :: os, m, n, S, hS => by
    obtain ⟨S₁, hS₁, hstep⟩ := spec_support (o := o) hS
    obtain ⟨S', hS', hrun⟩ := runSpec_counting_support os _ (if Fresh o m then n + 1 else n) S₁ hS₁
    refine ⟨S', hS', ?_⟩
    simp only [Simulation.runSpec_cons, Simulation.counting, driftCount] at hrun ⊢
    split_ifs at hstep hrun ⊢ <;> omega

end PageTableOp

/-- `len` counts the mapped pages and the stores of zero that drift: from
`RemotePageTable::new` in a well-formed heap, every run of `map` and `force_map` that the
counter can count ends with a table whose `len` is the number of pages it translates plus
the number of `map`s of zero into an unmapped page and of `force_map`s of zero. -/
theorem len_eq_mapped_add_drifts (h₀ : Heap PageTable) (hwf : HeapWF h₀) (ops : List PageTableOp)
    (hlen : ops.length < 2 ^ 64) :
    ∃ rs T h, Simulation.run PageTableOp.step ops (RemotePageTable.new h₀) = .ok (rs, T, h) ∧
      ∃ S : Finset Page, (∀ pg, (T.translate h pg.startAddress).isSome ↔ pg ∈ S) ∧
        T.len = S.card + PageTableOp.driftCount ops fun _ => none := by
  obtain ⟨rs, T, h, hrun, -, -, habs⟩ := RemotePageTable.run_new_spec hwf ops hlen
  obtain ⟨S, hS, hcount⟩ :=
    PageTableOp.runSpec_counting_support ops (fun _ => none) 0 ∅ PartialMap.support_empty
  have hview := congrArg Prod.fst habs
  have hlen' := congrArg Prod.snd habs
  dsimp only at hview hlen'
  rw [← hview] at hS
  refine ⟨rs, T, h, hrun, S, fun pg => ?_, ?_⟩
  · rw [← hS pg, RemotePageTable.view, Option.ne_none_iff_isSome, Option.isSome_map]
  · simp only [Finset.card_empty, Nat.zero_add, Nat.add_zero] at hcount
    rw [hlen', hcount]

end

/-- One `map` of the zero address into an empty table: `len` is one, and no page is
mapped. -/
theorem len_eq_mapped_add_drifts_zero_map :
    HeapWF Heap.empty ∧ [PageTableOp.map ⟨0x1000, by decide⟩ ⟨0⟩].length < 2 ^ 64 ∧
      (∃ rs T h, Simulation.run PageTableOp.step [PageTableOp.map ⟨0x1000, by decide⟩ ⟨0⟩]
          (RemotePageTable.new Heap.empty) = .ok (rs, T, h) ∧
        ∃ S : Finset Page, (∀ pg, (T.translate h pg.startAddress).isSome ↔ pg ∈ S) ∧
          T.len = S.card + PageTableOp.driftCount [PageTableOp.map ⟨0x1000, by decide⟩ ⟨0⟩]
            fun _ => none) ∧
      PageTableOp.driftCount [PageTableOp.map ⟨0x1000, by decide⟩ ⟨0⟩] (fun _ => none) = 1 :=
  ⟨heapWF_empty, by decide, len_eq_mapped_add_drifts Heap.empty heapWF_empty _ (by decide),
    by decide⟩

end Mitosis
