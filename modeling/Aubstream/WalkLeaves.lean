import Aubstream.ReserveFrame

/-!
# The leaves that a walk makes

A Reserve or Clone walk without a supplied address keeps the leaves that it finds.
What holds of a leaf when it is made therefore holds of it when the walk ends.
-/

namespace WalkLeaves
open EntryBits PathTree PhysicalAllocator PageNodes PageWalker TreeShape WalkPhases Placement
  Translation PageEffect PageVisits MapCursor MapFrame ReserveFrame

variable {A : Type} [PhysicalAddressAllocator A] {c : WalkContext} {page : PageRequest}
  {s : Layout A} {t : Nodes} {g stop a size : Nat}

section Allocator
variable {P : A → Prop} (stable : ∀ a memoryBank size, P a →
  P (reservePhysicalMemory a memoryBank size size).2)
include stable

theorem placeTables_allocator (last : NodeKind) (level : Nat) (h : P s.allocator) :
    P (placeTables c last g level s).allocator := by
  induction level generalizing s with
  | zero => exact h
  | succ level ih =>
    unfold placeTables
    split
    · exact h
    · apply ih
      unfold placeTable
      simp only
      split
      · exact stable _ _ _ h
      · exact h

/-- A page only reserves, and aligns to the size. -/
theorem placePage_allocator (h : P s.allocator) : P (placePage c page s).1.allocator := by
  have htables := placeTables_allocator stable (c := c) (g := page.gfxAddress)
    (lastTable c s.nodes page.gfxAddress) (c.ppgtt.getNumLevels - 1) h
  unfold placePage
  simp only
  split
  · exact h
  · rw [placeRecord_allocator]
    unfold placeLeaf
    simp only
    split
    · exact htables
    · unfold newLeaf
      split
      · exact htables
      · split
        · exact htables
        · exact stable _ _ _ htables

end Allocator

/-- A missing leaf is made with the allocator as the tables above it leave it. -/
theorem placePage_makes (wf : Wf c.ppgtt.getNumLevels s.nodes) (hmode : c.mode ≠ .Expect)
    (unsupplied : s.physicalAddress = none) (idle : s.nodes (visitSlot c (page, s)) = none) :
    (placePage c page s).1.nodes (visitSlot c (page, s)) =
      some (newLeaf c page (lastTable c s.nodes page.gfxAddress).getPageSize none
        (placeTables c (lastTable c s.nodes page.gfxAddress) page.gfxAddress
          (c.ppgtt.getNumLevels - 1) s).allocator).1 := by
  have moving : ¬ (c.mode = .Expect ∧ s.nodes (leafSlot c.ppgtt.getNumLevels
      (lastTable c s.nodes page.gfxAddress) page.gfxAddress) = none) := fun h => hmode h.1
  have hslot := (placeTables_leafSlot wf page.gfxAddress).trans idle
  have hphys := (placeTables_physicalAddress c (lastTable c s.nodes page.gfxAddress)
    page.gfxAddress (c.ppgtt.getNumLevels - 1) s).trans unsupplied
  simp only [placePage, if_neg moving, placeRecord_nodes, placeLeaf, visitSlot, put_self, hslot,
    hphys, alignCursor]

/-- Between two pages of a walk that started on `t`; `made` holds of its own leaves. -/
structure MakeRun (c : WalkContext) (t : Nodes) (made : Path → PageNode → Prop)
    (g stop a size : Nat) (s : Layout A) : Prop where
  add : AddRun c t g stop a size s
  start : size = 0 ∨ PageStart (lastTable c t) g a
  made : ∀ q leaf, s.nodes q = some leaf → IsLeaf leaf.kind → t q = none → made q leaf

omit [PhysicalAddressAllocator A] in
theorem MakeRun.slot {made : Path → PageNode → Prop}
    (run : MakeRun c t made g stop page.gfxAddress size s) : visitSlot c (page, s) =
      slotFor c.ppgtt.getNumLevels (lastTable c t) page.gfxAddress := by
  rw [visitSlot, run.add.kinds]
  rfl

theorem makeRun_step {made : Path → PageNode → Prop} (wf₀ : Wf c.ppgtt.getNumLevels t)
    (wf : Wf c.ppgtt.getNumLevels s.nodes) (hmode : c.mode ≠ .Expect) (hsize : 0 < size)
    (hps : page.size = size)
    (makes : s.nodes (slotFor c.ppgtt.getNumLevels (lastTable c t) page.gfxAddress) = none →
      made (slotFor c.ppgtt.getNumLevels (lastTable c t) page.gfxAddress)
        (newLeaf c page (lastTable c t page.gfxAddress).getPageSize none
          (placeTables c (lastTable c t page.gfxAddress) page.gfxAddress
            (c.ppgtt.getNumLevels - 1) s).allocator).1)
    (run : MakeRun c t made g stop page.gfxAddress size s) :
    (placePage c page s).2 = min size ((lastTable c t page.gfxAddress).getPageSize -
        page.gfxAddress % (lastTable c t page.gfxAddress).getPageSize) ∧
      MakeRun c t made g stop (page.gfxAddress + (placePage c page s).2)
        (size - (placePage c page s).2) (placePage c page s).1 := by
  have hk := pageKinds_lastTable wf₀
  obtain ⟨hplaced, hpassed⟩ := placePage_placed page wf hmode
  have hmoved : (placePage c page s).2 = min size ((lastTable c t page.gfxAddress).getPageSize -
      page.gfxAddress % (lastTable c t page.gfxAddress).getPageSize) := by
    rw [hpassed, sizeThisIteration, hps, run.add.kinds]
  refine ⟨hmoved, addRun_step wf₀ wf hmode hsize hps run.add, ?_, ?_⟩
  · rw [hmoved]
    exact pageStart_next hk g page.gfxAddress size
  · intro q leaf hq hleaf hnone
    cases hold : s.nodes q with
    | some m =>
      rcases placePage_visited page wf (fun h => absurd h hmode) with ⟨hexpect, _⟩ | ⟨visited, _⟩
      · exact absurd hexpect hmode
      · have hm := visited.added run.add.unsupplied q m hold
        rw [hq, Option.some.injEq] at hm
        subst hm
        exact run.made q leaf hold hleaf hnone
    | none =>
      by_cases hslot : q = visitSlot c (page, s)
      · subst q
        rw [placePage_makes wf hmode run.add.unsupplied hold, Option.some.injEq] at hq
        subst hq
        rw [run.slot] at hold ⊢
        rw [run.add.kinds]
        exact makes hold
      · exact absurd hleaf (new_not_leaf hplaced hq hslot hold)

end WalkLeaves
