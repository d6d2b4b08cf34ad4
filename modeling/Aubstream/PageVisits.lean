import Aubstream.PageEffect

/-!
# Visiting a page in any mode

An Expect walk stops at the first page that is not mapped. Every other page is
visited: its leaf stands in its slot afterwards and its record is appended.
-/

namespace PageVisits
open EntryBits PathTree PhysicalAllocator PageNodes PageWalker TreeShape WalkPhases LeafStep
  Placement Translation LastTables PageEffect

variable {A : Type} [PhysicalAddressAllocator A]

/-- The record of a leaf that a page has entered. -/
def pageRecord (page : PageRequest) (pageSize : Nat) (leaf : PageNode) : PageInfo :=
  ⟨leaf.physicalAddress + page.gfxAddress % pageSize, sizeThisIteration page pageSize,
    leaf.isLocalMemory, page.pageMemoryBank⟩

structure Visited (c : WalkContext) (page : PageRequest) (s s' : Layout A) : Prop where
  leaf : ∃ leaf, s'.nodes (visitSlot c (page, s)) = some leaf ∧ s'.entries = s.entries ++
    [pageRecord page (lastTable c s.nodes page.gfxAddress).getPageSize leaf]
  kept : ∀ y m, s.nodes y = some m → y ≠ visitSlot c (page, s) → s'.nodes y = some m
  added : s.physicalAddress = none → ∀ y m, s.nodes y = some m → s'.nodes y = some m
  kinds : ∀ a, lastTable c s'.nodes a = lastTable c s.nodes a
  read : c.mode = .Expect → s'.nodes = s.nodes

/-- Above a node on the way to an address no table is missing. -/
theorem slotPath_above {n l : Nat} {t : Nodes} (wf : Wf n t) {g : Nat} :
    ∀ k, l + k ≤ n → t (slotPath n l g) ≠ none → t (slotPath n (l + k) g) ≠ none := by
  intro k
  induction k with
  | zero => exact fun _ h => h
  | succ k ih =>
    intro hk h hnone
    refine ih (by omega) h ?_
    rw [slotPath_cons g (show l + k < n by omega)]
    exact wf.none_of_parent_none hnone

theorem region_of_leaf {c : WalkContext} {t : Nodes} (wf : Wf c.ppgtt.getNumLevels t) {g : Nat}
    (h : t (leafSlot c.ppgtt.getNumLevels (lastTable c t g) g) ≠ none) :
    t (slotPath c.ppgtt.getNumLevels Pde g) ≠ none := by
  rcases lastTable_cases wf g with ⟨k, hk⟩ | hk
  · rw [hk, leafSlot_pte] at h
    exact fun hnone => h (wf.none_of_parent_none hnone)
  · rw [hk] at h
    exact h

/-- A page whose leaf stands needs no table. -/
theorem placeTables_mapped {c : WalkContext} {s : Layout A} (wf : Wf c.ppgtt.getNumLevels s.nodes)
    (g : Nat) (h : s.nodes (leafSlot c.ppgtt.getNumLevels (lastTable c s.nodes g) g) ≠ none) :
    (placeTables c (lastTable c s.nodes g) g (c.ppgtt.getNumLevels - 1) s).nodes = s.nodes := by
  have hn := getNumLevels_ge c.ppgtt
  have hregion := region_of_leaf wf h
  funext y
  cases hy : s.nodes y with
  | some m => exact placeTables_keeps c _ _ _ hy
  | none =>
    cases hnew : (placeTables c (lastTable c s.nodes g) g (c.ppgtt.getNumLevels - 1) s).nodes y with
    | none => rfl
    | some m =>
      rcases placeTables_new c _ g _ s y m (leafLevel_le wf g) hnew with hold | ⟨l, h1, h2, rfl, _⟩
      · rw [hy] at hold
        cases hold
      · have habove := slotPath_above wf (l - Pde) (by simp only [Pde]; omega) hregion
        rw [show Pde + (l - Pde) = l by simp only [Pde]; omega] at habove
        exact absurd hy habove

theorem placeLeaf_kept {c : WalkContext} {page : PageRequest} {last : NodeKind} {s : Layout A}
    (hphys : s.physicalAddress = none) {y : Path} {m : PageNode} (h : s.nodes y = some m) :
    (placeLeaf c page last s).nodes y = some m := by
  unfold placeLeaf
  simp only [hphys, alignCursor]
  by_cases hy : y = leafSlot c.ppgtt.getNumLevels last page.gfxAddress
  · subst hy
    simp only [put_self, h]
  · rw [put_of_ne hy, h]

theorem placeLeaf_mapped {c : WalkContext} {page : PageRequest} {last : NodeKind} {s : Layout A}
    (hphys : s.physicalAddress = none)
    (h : s.nodes (leafSlot c.ppgtt.getNumLevels last page.gfxAddress) ≠ none) :
    (placeLeaf c page last s).nodes = s.nodes := by
  obtain ⟨m, hm⟩ := Option.ne_none_iff_exists'.mp h
  unfold placeLeaf
  simp only [hphys, alignCursor, hm]
  exact put_eq_self hm

theorem placeTables_entries (c : WalkContext) (last : NodeKind) (g level : Nat) (s : Layout A) :
    (placeTables c last g level s).entries = s.entries := by
  induction level generalizing s with
  | zero => rfl
  | succ level ih =>
    unfold placeTables
    split
    · rfl
    · rw [ih]
      unfold placeTable
      simp only
      split
      · rfl
      · rfl

/-- A page is visited, unless an Expect walk finds it missing. -/
theorem placePage_visited {c : WalkContext} (page : PageRequest) {s : Layout A}
    (wf : Wf c.ppgtt.getNumLevels s.nodes) (expect : c.mode = .Expect → s.physicalAddress = none) :
    (c.mode = .Expect ∧ s.nodes (visitSlot c (page, s)) = none ∧ placePage c page s = (s, 0)) ∨
    (Visited c page s (placePage c page s).1 ∧ (placePage c page s).2 =
      sizeThisIteration page (lastTable c s.nodes page.gfxAddress).getPageSize) := by
  by_cases hstuck : c.mode = .Expect ∧ s.nodes (visitSlot c (page, s)) = none
  · exact Or.inl ⟨hstuck.1, hstuck.2, if_pos hstuck⟩
  · right
    have hpage : placePage c page s = (placeRecord page (lastTable c s.nodes page.gfxAddress)
        (visitSlot c (page, s)) (placeLeaf c page (lastTable c s.nodes page.gfxAddress)
          (placeTables c (lastTable c s.nodes page.gfxAddress) page.gfxAddress
            (c.ppgtt.getNumLevels - 1) s)),
        sizeThisIteration page (lastTable c s.nodes page.gfxAddress).getPageSize) :=
      if_neg hstuck
    have hread : c.mode = .Expect → (placePage c page s).1.nodes = s.nodes := by
      intro hmode
      have hslot : s.nodes (visitSlot c (page, s)) ≠ none := fun h => hstuck ⟨hmode, h⟩
      have htables := placeTables_mapped wf page.gfxAddress hslot
      rw [hpage, placeRecord_nodes, placeLeaf_mapped, htables]
      · rw [placeTables_physicalAddress]
        exact expect hmode
      · rw [htables]
        exact hslot
    refine ⟨⟨?_, ?_, ?_, ?_, hread⟩, by rw [hpage]⟩
    · have hentries := placeTables_entries c (lastTable c s.nodes page.gfxAddress) page.gfxAddress
        (c.ppgtt.getNumLevels - 1) s
      rw [hpage, placeRecord_nodes]
      generalize placeTables c (lastTable c s.nodes page.gfxAddress) page.gfxAddress
        (c.ppgtt.getNumLevels - 1) s = s₁ at hentries ⊢
      obtain ⟨leaf, hleaf⟩ : ∃ leaf, (placeLeaf c page (lastTable c s.nodes page.gfxAddress)
          s₁).nodes (visitSlot c (page, s)) = some leaf := ⟨_, put_self _ _ _⟩
      refine ⟨leaf, hleaf, ?_⟩
      simp only [placeRecord, hleaf]
      rw [← hentries]
      rfl
    · intro y m hm hy
      obtain ⟨m', hm', _, hsame⟩ := placePage_keeps c page hm
      rw [hm', hsame hy]
    · intro hphys y m hm
      rw [hpage, placeRecord_nodes]
      refine placeLeaf_kept ?_ (placeTables_keeps c _ _ _ hm)
      rw [placeTables_physicalAddress]
      exact hphys
    · intro a
      by_cases hmode : c.mode = .Expect
      · rw [hread hmode]
      · exact (placePage_placed page wf hmode).1.lastTable wf a

/-- The induction over the pages of a walk in any mode. The walk ends behind its last page, or
before a page that an Expect walk misses. -/
theorem walkPages_visits {c : WalkContext} {J : Nat → Nat → Nat → Layout A → Prop}
    (visit : ∀ size index s page, Wf c.ppgtt.getNumLevels s.nodes →
      (c.mode = .Expect → s.physicalAddress = none) → 0 < size →
      pageRequest c page.gfxAddress size index s.physicalAddress = some page →
      page.size = size → Visited c page s (placePage c page s).1 →
      J page.gfxAddress size index s →
      J (page.gfxAddress + sizeThisIteration page (lastTable c s.nodes page.gfxAddress).getPageSize)
        (size - sizeThisIteration page (lastTable c s.nodes page.gfxAddress).getPageSize)
        (index + 1) (placePage c page s).1) :
    ∀ fuel g size index (w w' : WalkState A), size ≤ fuel → Wf c.ppgtt.getNumLevels w.nodes →
      (c.mode = .Expect → w.physicalAddress = none) →
      walkPages c fuel g size index w = some w' → J g size index (layoutOf w) →
      Wf c.ppgtt.getNumLevels w'.nodes ∧ ∃ g' size' index', J g' size' index' (layoutOf w') ∧
        (size' = 0 ∨ c.mode = .Expect ∧ (layoutOf w').nodes (leafSlot c.ppgtt.getNumLevels
          (lastTable c (layoutOf w').nodes g') g') = none) := by
  intro fuel
  induction fuel with
  | zero =>
    intro g size index w w' hfuel wf _ h hJ
    simp only [walkPages, Option.some.injEq] at h
    subst h
    exact ⟨wf, g, size, index, hJ, Or.inl (Nat.le_zero.mp hfuel)⟩
  | succ fuel ih =>
    intro g size index w w' hfuel wf expect h hJ
    by_cases hz : size = 0
    · simp only [walkPages, if_pos hz, Option.some.injEq] at h
      subst h
      exact ⟨wf, g, size, index, hJ, Or.inl hz⟩
    · simp only [walkPages, if_neg hz, Option.bind_eq_some_iff] at h
      obtain ⟨page, hpage, h⟩ := h
      obtain ⟨rfl, hps⟩ := pageRequest_some hpage
      have wf₀ : Wf c.ppgtt.getNumLevels (layoutOf w).nodes := wf_layout.mpr wf
      obtain ⟨hl, hp⟩ := walkPage_layout page wf expect
      rcases placePage_visited page wf₀ expect with ⟨hmode, hmissing, hstuck⟩ | ⟨hvisited, hpassed⟩
      · rw [hstuck] at hl hp
        rw [if_pos hp, Option.some.injEq] at h
        subst h
        refine ⟨walkPage_wf page wf expect, page.gfxAddress, size, index, ?_, Or.inr ⟨hmode, ?_⟩⟩
        · rw [hl]
          exact hJ
        · rw [hl]
          exact hmissing
      · have hpos := sizeThisIteration_pos (by omega : 0 < page.size)
          (lastTable_getPageSize_pos wf₀ page.gfxAddress)
        rw [hp, hpassed] at h
        rw [if_neg (by omega)] at h
        have hnext := visit size index (layoutOf w) page wf₀ expect (Nat.pos_of_ne_zero hz) hpage
          hps hvisited hJ
        rw [← hl] at hnext
        refine ih _ _ _ _ w' (by omega) (walkPage_wf page wf expect) ?_ h hnext
        intro hmode
        have hnone := placePage_physicalAddress_none c page (s := layoutOf w) (expect hmode)
        rw [← hl] at hnone
        exact hnone

end PageVisits
