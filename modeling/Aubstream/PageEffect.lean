import Aubstream.Translation
import Aubstream.LastTables

/-!
# What placing one page changes

Outside Expect mode a page enters its leaf slot, and otherwise only adds the
tables of its path that are missing. The page sizes that later addresses find do
not depend on it.
-/

namespace PageEffect
open EntryBits PathTree PhysicalAllocator PageNodes PageWalker TreeShape WalkPhases LeafStep
  Placement Translation LastTables

variable {A : Type} [PhysicalAddressAllocator A]

/-- The cursor as a leaf finds it. -/
def leafCursor (last : NodeKind) (p : Option Nat) : Option Nat :=
  alignCursor (leafLevel last) (leafLevel last) last.getPageSize p

/-- The parts of a page's effect that do not concern the allocator. -/
structure Placed (c : WalkContext) (page : PageRequest) (s s' : Layout A) : Prop where
  leaf : ∃ leaf, s'.nodes (visitSlot c (page, s)) = some leaf ∧
    (∀ m, s.nodes (visitSlot c (page, s)) = some m → leaf.kind = m.kind) ∧
    (s.nodes (visitSlot c (page, s)) = none →
      leaf.kind = leafKind (lastTable c s.nodes page.gfxAddress).getPageSize) ∧
    ∀ p, leafCursor (lastTable c s.nodes page.gfxAddress) s.physicalAddress = some p →
      leaf.physicalAddress = p ∧ leaf.memoryBank = page.pageMemoryBank
  cursor : s'.physicalAddress = advanceCursor (lastTable c s.nodes page.gfxAddress).getPageSize
    (sizeThisIteration page (lastTable c s.nodes page.gfxAddress).getPageSize)
    (leafCursor (lastTable c s.nodes page.gfxAddress) s.physicalAddress)
  kept : ∀ y m, s.nodes y = some m → y ≠ visitSlot c (page, s) → s'.nodes y = some m
  new : ∀ y m, s'.nodes y = some m → y ≠ visitSlot c (page, s) → s.nodes y = some m ∨
    ∃ l, leafLevel (lastTable c s.nodes page.gfxAddress) < l ∧ l < c.ppgtt.getNumLevels ∧
      y = slotPath c.ppgtt.getNumLevels l page.gfxAddress ∧
      m.kind = tableKind c.ppgtt l c.requestedPageSize

omit [PhysicalAddressAllocator A] in
theorem placeRecord_physicalAddress {page : PageRequest} {last : NodeKind} {q : Path}
    {s : Layout A} {m : PageNode} (h : s.nodes q = some m) :
    (placeRecord page last q s).physicalAddress =
      advanceCursor last.getPageSize (sizeThisIteration page last.getPageSize)
        s.physicalAddress := by
  simp only [placeRecord, h]

omit [PhysicalAddressAllocator A] in
/-- The tables above a leaf are not in its slot. -/
theorem leafSlot_ne_table {c : WalkContext} {t : Nodes} (wf : Wf c.ppgtt.getNumLevels t) (g : Nat)
    {l : Nat} (h1 : leafLevel (lastTable c t g) < l) (h2 : l < c.ppgtt.getNumLevels) :
    leafSlot c.ppgtt.getNumLevels (lastTable c t g) g ≠ slotPath c.ppgtt.getNumLevels l g := by
  intro heq
  have hlen := congrArg List.length heq
  have hn := getNumLevels_ge c.ppgtt
  rcases lastTable_cases wf g with ⟨k, hl⟩ | hl <;> rw [hl] at hlen h1 <;>
    simp only [leafSlot, List.length_cons, slotPath_length, leafLevel, Pte, Pde] at hlen h1 <;>
    omega

/-- The tables above a leaf leave its slot alone. -/
theorem placeTables_leafSlot {c : WalkContext} {s : Layout A} (wf : Wf c.ppgtt.getNumLevels s.nodes)
    (g : Nat) : (placeTables c (lastTable c s.nodes g) g (c.ppgtt.getNumLevels - 1) s).nodes
      (leafSlot c.ppgtt.getNumLevels (lastTable c s.nodes g) g) =
    s.nodes (leafSlot c.ppgtt.getNumLevels (lastTable c s.nodes g) g) := by
  have hn := getNumLevels_ge c.ppgtt
  cases h : s.nodes (leafSlot c.ppgtt.getNumLevels (lastTable c s.nodes g) g) with
  | some m => exact placeTables_keeps c _ _ _ h
  | none =>
    rw [Option.eq_none_iff_forall_ne_some]
    intro m hm
    rcases placeTables_new c _ g _ s _ m (leafLevel_le wf g) hm with hold | ⟨l, h1, h2, h3, _⟩
    · rw [h] at hold
      cases hold
    · exact absurd h3 (leafSlot_ne_table wf g h1 (by omega))

theorem placePage_placed {c : WalkContext} (page : PageRequest) {s : Layout A}
    (wf : Wf c.ppgtt.getNumLevels s.nodes) (hmode : c.mode ≠ .Expect) :
    Placed c page s (placePage c page s).1 ∧
      (placePage c page s).2 =
        sizeThisIteration page (lastTable c s.nodes page.gfxAddress).getPageSize := by
  have hn := getNumLevels_ge c.ppgtt
  have hpage : placePage c page s = (placeRecord page (lastTable c s.nodes page.gfxAddress)
      (visitSlot c (page, s)) (placeLeaf c page (lastTable c s.nodes page.gfxAddress)
        (placeTables c (lastTable c s.nodes page.gfxAddress) page.gfxAddress
          (c.ppgtt.getNumLevels - 1) s)),
      sizeThisIteration page (lastTable c s.nodes page.gfxAddress).getPageSize) :=
    if_neg fun h => hmode h.1
  have hkeep : ∀ y m, s.nodes y = some m → (placeTables c (lastTable c s.nodes page.gfxAddress)
      page.gfxAddress (c.ppgtt.getNumLevels - 1) s).nodes y = some m :=
    fun y m hm => placeTables_keeps c _ _ _ hm
  have hnew := fun y m => placeTables_new c (lastTable c s.nodes page.gfxAddress) page.gfxAddress
    (c.ppgtt.getNumLevels - 1) s y m (leafLevel_le wf _)
  have hphys := placeTables_physicalAddress c (lastTable c s.nodes page.gfxAddress)
    page.gfxAddress (c.ppgtt.getNumLevels - 1) s
  have hslot := placeTables_leafSlot wf page.gfxAddress
  rw [hpage]
  refine ⟨?_, rfl⟩
  generalize placeTables c (lastTable c s.nodes page.gfxAddress) page.gfxAddress
    (c.ppgtt.getNumLevels - 1) s = s₁ at hkeep hnew hphys hslot
  have hcursor : (placeLeaf c page (lastTable c s.nodes page.gfxAddress) s₁).physicalAddress =
      leafCursor (lastTable c s.nodes page.gfxAddress) s.physicalAddress := by
    rw [← hphys]
    rfl
  have hnodes : ∀ y, y ≠ visitSlot c (page, s) →
      (placeLeaf c page (lastTable c s.nodes page.gfxAddress) s₁).nodes y = s₁.nodes y :=
    fun y hy => put_of_ne hy
  have hleaf : ∃ leaf, (placeLeaf c page (lastTable c s.nodes page.gfxAddress) s₁).nodes
      (visitSlot c (page, s)) = some leaf ∧
      (∀ m, s.nodes (visitSlot c (page, s)) = some m → leaf.kind = m.kind) ∧
      (s.nodes (visitSlot c (page, s)) = none →
        leaf.kind = leafKind (lastTable c s.nodes page.gfxAddress).getPageSize) ∧
      ∀ p, leafCursor (lastTable c s.nodes page.gfxAddress) s.physicalAddress = some p →
        leaf.physicalAddress = p ∧ leaf.memoryBank = page.pageMemoryBank := by
    refine ⟨_, put_self _ _ _, ?_, ?_, ?_⟩
    · intro m hm
      have h1 := hkeep _ m hm
      simp only [visitSlot] at h1
      simp only [h1]
      split
      · rfl
      · rfl
    · intro hnone
      have h1 := hslot.trans hnone
      simp only [h1]
      split
      · exact newLeaf_kind c page _ _ _
      · exact newLeaf_kind c page _ _ _
    · intro p hp
      rw [← hphys] at hp
      simp only [leafCursor] at hp
      simp only [hp, and_self]
  refine ⟨?_, ?_, ?_, ?_⟩
  · rw [placeRecord_nodes]
    exact hleaf
  · obtain ⟨leaf, hl, _⟩ := hleaf
    rw [placeRecord_physicalAddress hl, hcursor]
  · intro y m hm hy
    rw [placeRecord_nodes, hnodes y hy]
    exact hkeep y m hm
  · intro y m hm hy
    rw [placeRecord_nodes, hnodes y hy] at hm
    rcases hnew y m hm with h | ⟨l, hl1, hl2, hl3, hl4⟩
    · exact Or.inl h
    · exact Or.inr ⟨l, hl1, by omega, hl3, hl4⟩

omit [PhysicalAddressAllocator A] in
/-- The kind that an address finds, or would be given, below the page directory stays. -/
theorem Placed.lastTable {c : WalkContext} {page : PageRequest} {s s' : Layout A}
    (wf : Wf c.ppgtt.getNumLevels s.nodes) (h : Placed c page s s') (a : Nat) :
    WalkPhases.lastTable c s'.nodes a = WalkPhases.lastTable c s.nodes a := by
  have hn := getNumLevels_ge c.ppgtt
  have hlen : (slotPath c.ppgtt.getNumLevels Pde a).length + 1 = c.ppgtt.getNumLevels := by
    rw [slotPath_length]
    simp only [Pde]
    omega
  obtain ⟨leaf, hleaf, hkept, hnew, _⟩ := h.leaf
  by_cases hslot : slotPath c.ppgtt.getNumLevels Pde a = visitSlot c (page, s)
  · have h2MB : WalkPhases.lastTable c s.nodes page.gfxAddress = .page2MB := by
      rcases lastTable_cases wf page.gfxAddress with ⟨k, hk⟩ | hk
      · rw [visitSlot, hk] at hslot
        rw [hslot] at hlen
        simp only [leafSlot, List.length_cons, slotPath_length, Pde] at hlen
        omega
      · exact hk
    have hsame : slotPath c.ppgtt.getNumLevels Pde a =
        slotPath c.ppgtt.getNumLevels Pde page.gfxAddress := by
      rw [hslot, visitSlot, h2MB]
      rfl
    have hold : WalkPhases.lastTable c s.nodes a = .page2MB := by
      rw [← h2MB]
      unfold WalkPhases.lastTable
      rw [hsame]
    have hkind : leaf.kind = .page2MB := by
      cases hs : s.nodes (visitSlot c (page, s)) with
      | none =>
        rw [hnew hs, h2MB]
        rfl
      | some m =>
        rw [hkept m hs, ← hold]
        unfold WalkPhases.lastTable
        rw [hslot, hs]
    rw [hold]
    unfold WalkPhases.lastTable
    rw [hslot, hleaf]
    exact hkind
  · unfold WalkPhases.lastTable
    cases hs : s.nodes (slotPath c.ppgtt.getNumLevels Pde a) with
    | some m => rw [h.kept _ m hs hslot]
    | none =>
      cases hs' : s'.nodes (slotPath c.ppgtt.getNumLevels Pde a) with
      | none => rfl
      | some m =>
        rcases h.new _ m hs' hslot with hold | ⟨l, _, hl, heq, hk⟩
        · rw [hs] at hold
          cases hold
        · have hlevel := congrArg List.length heq
          simp only [slotPath_length, Pde] at hlevel
          obtain rfl : l = Pde := by
            simp only [Pde]
            omega
          exact hk

/-- The induction over the pages of a walk outside Expect mode, on the layout. `J` speaks of the
address, the bytes to go and the number of pages placed. -/
theorem walkPages_places {c : WalkContext} {J : Nat → Nat → Nat → Layout A → Prop}
    (hmode : c.mode ≠ .Expect)
    (visit : ∀ size index s page, Wf c.ppgtt.getNumLevels s.nodes → 0 < size →
      pageRequest c page.gfxAddress size index s.physicalAddress = some page →
      page.size = size → J page.gfxAddress size index s →
      J (page.gfxAddress + (placePage c page s).2) (size - (placePage c page s).2) (index + 1)
        (placePage c page s).1) :
    ∀ fuel g size index (w w' : WalkState A), size ≤ fuel → Wf c.ppgtt.getNumLevels w.nodes →
      walkPages c fuel g size index w = some w' → J g size index (layoutOf w) →
      Wf c.ppgtt.getNumLevels w'.nodes ∧ ∃ g' index', J g' 0 index' (layoutOf w') := by
  intro fuel
  induction fuel with
  | zero =>
    intro g size index w w' hfuel wf h hJ
    simp only [walkPages, Option.some.injEq] at h
    subst h
    obtain rfl : size = 0 := Nat.le_zero.mp hfuel
    exact ⟨wf, g, index, hJ⟩
  | succ fuel ih =>
    intro g size index w w' hfuel wf h hJ
    by_cases hz : size = 0
    · simp only [walkPages, if_pos hz, Option.some.injEq] at h
      subst h hz
      exact ⟨wf, g, index, hJ⟩
    · simp only [walkPages, if_neg hz, Option.bind_eq_some_iff] at h
      obtain ⟨page, hpage, h⟩ := h
      obtain ⟨rfl, hps⟩ := pageRequest_some hpage
      have hpos : 0 < page.size := by omega
      have expect : c.mode = .Expect → w.physicalAddress = none := fun hm => absurd hm hmode
      obtain ⟨hl, hp⟩ := walkPage_layout page wf expect
      have hmoves : (walkPage c page w).2 ≠ 0 := fun hstuck =>
        hmode (walkPage_stuck wf expect hpos hstuck).1
      rw [if_neg hmoves] at h
      have hnext := visit size index (layoutOf w) page (wf_layout.mpr wf) (Nat.pos_of_ne_zero hz)
        hpage hps hJ
      rw [← hl, ← hp] at hnext
      exact ih _ _ _ _ w' (by omega) (walkPage_wf page wf expect) h hnext

/-- A walk ends if every page of it has a request. -/
theorem walkPages_completes {c : WalkContext} {J : Nat → Nat → Nat → Layout A → Prop}
    (hmode : c.mode ≠ .Expect)
    (request : ∀ g size index s, 0 < size → J g size index s →
      ∃ page, pageRequest c g size index s.physicalAddress = some page)
    (visit : ∀ size index s page, Wf c.ppgtt.getNumLevels s.nodes → 0 < size →
      pageRequest c page.gfxAddress size index s.physicalAddress = some page →
      page.size = size → J page.gfxAddress size index s →
      J (page.gfxAddress + (placePage c page s).2) (size - (placePage c page s).2) (index + 1)
        (placePage c page s).1) :
    ∀ fuel g size index (w : WalkState A), Wf c.ppgtt.getNumLevels w.nodes →
      J g size index (layoutOf w) → ∃ w', walkPages c fuel g size index w = some w' := by
  intro fuel
  induction fuel with
  | zero => exact fun _ _ _ w _ _ => ⟨w, rfl⟩
  | succ fuel ih =>
    intro g size index w wf hJ
    by_cases hz : size = 0
    · exact ⟨w, by simp only [walkPages, if_pos hz]⟩
    · obtain ⟨page, hpage⟩ := request g size index (layoutOf w) (Nat.pos_of_ne_zero hz) hJ
      have hpage' : pageRequest c g size index w.physicalAddress = some page := hpage
      simp only [walkPages, if_neg hz, hpage', Option.bind_some]
      split
      · exact ⟨_, rfl⟩
      · obtain ⟨rfl, hps⟩ := pageRequest_some hpage
        have expect : c.mode = .Expect → w.physicalAddress = none := fun hm => absurd hm hmode
        obtain ⟨hl, hp⟩ := walkPage_layout page wf expect
        have hnext := visit size index (layoutOf w) page (wf_layout.mpr wf) (Nat.pos_of_ne_zero hz)
          hpage hps hJ
        rw [← hl, ← hp] at hnext
        exact ih _ _ _ _ (walkPage_wf page wf expect) hnext

end PageEffect
