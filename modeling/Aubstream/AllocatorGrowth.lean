import Aubstream.OwnedRuns
import Aubstream.WalkLeaves

/-!
# Allocators grow

No reservation and no free loses a block: it is in use or free for good.
-/

namespace AllocatorGrowth
open EntryBits PathTree PhysicalAllocator AllocatorBlocks PageNodes PageWalker FreeMemory TreeShape
  WalkPhases FreePhases Placement PageEffect WalkLeaves
open TableRuns hiding Op step

structure Grown (a a' : PhysicalAddressAllocatorSimple) : Prop where
  blocks : ∀ slot, ∀ e ∈ blocks (a.get slot), e ∈ blocks (a'.get slot)
  highWater : ∀ slot, (a.get slot).highWater ≤ (a'.get slot).highWater
  slots : ∀ memoryBank, a'.slotOf memoryBank = a.slotOf memoryBank

section Allocators
variable {a a' a'' : PhysicalAddressAllocatorSimple} {bits : Nat}

theorem alignedAlloc_blocks (s : SimpleAllocator bits) (size alignment : Nat) :
    ∀ e ∈ blocks s, e ∈ blocks (s.alignedAlloc size alignment).2 := by
  intro x hx
  unfold SimpleAllocator.alignedAlloc
  cases hf : s.freeAllocationsMap.find? fun e => e.2 = size with
  | some e =>
    simp only [blocks, List.mem_append, (multimapInsert_perm e _).mem_iff, List.mem_cons] at hx ⊢
    by_cases hxe : x = e
    · exact Or.inl (Or.inl hxe)
    · rcases hx with hx | hx
      · exact Or.inl (Or.inr hx)
      · exact Or.inr ((List.mem_erase_of_ne hxe).mpr hx)
  | none =>
    simp only [blocks, List.mem_append, (multimapInsert_perm _ _).mem_iff, List.mem_cons] at hx ⊢
    rcases hx with hx | hx
    · exact Or.inl (Or.inr hx)
    · exact Or.inr hx

theorem alignedFree_blocks (s : SimpleAllocator bits) (address : Nat) :
    ∀ e ∈ blocks s, e ∈ blocks (s.alignedFree address) := by
  intro x hx
  unfold SimpleAllocator.alignedFree
  split
  · rename_i e _
    simp only [blocks, List.mem_append, (multimapInsert_perm e _).mem_iff, List.mem_cons] at hx ⊢
    by_cases hxe : x = e
    · exact Or.inr (Or.inl hxe)
    · rcases hx with hx | hx
      · exact Or.inl ((List.mem_erase_of_ne hxe).mpr hx)
      · exact Or.inr (Or.inr hx)
  · exact hx

theorem Grown.refl (a : PhysicalAddressAllocatorSimple) : Grown a a :=
  ⟨fun _ _ h => h, fun _ => Nat.le_refl _, fun _ => rfl⟩

theorem Grown.trans (h : Grown a a') (h' : Grown a' a'') : Grown a a'' := by
  constructor
  · exact fun slot e he => h'.blocks slot e (h.blocks slot e he)
  · exact fun slot => Nat.le_trans (h.highWater slot) (h'.highWater slot)
  · exact fun memoryBank => (h'.slots memoryBank).trans (h.slots memoryBank)

theorem grown_reserve (a : PhysicalAddressAllocatorSimple) (memoryBank size alignment : Nat) :
    Grown a (a.reserve memoryBank size alignment).2 := by
  refine ⟨fun slot e he => ?_, reserve_highWater a memoryBank size alignment, slotOf_set a _ _⟩
  unfold PhysicalAddressAllocatorSimple.reserve
  by_cases hslot : slot = a.slotOf memoryBank
  · subst slot
    rw [get_set]
    exact alignedAlloc_blocks _ _ _ e he
  · rw [get_set_of_ne hslot]
    exact he

theorem grown_free (a : PhysicalAddressAllocatorSimple) (memoryBank address : Nat) :
    Grown a (a.free memoryBank address) := by
  refine ⟨fun slot e he => ?_, fun slot => (free_highWater a memoryBank address slot).ge,
    slotOf_set a _ _⟩
  unfold PhysicalAddressAllocatorSimple.free
  by_cases hslot : slot = a.slotOf memoryBank
  · subst slot
    rw [get_set]
    exact alignedFree_blocks _ _ e he
  · rw [get_set_of_ne hslot]
    exact he

theorem grown_destroyNode (a : PhysicalAddressAllocatorSimple) (n : PageNode) :
    Grown a (destroyNode a n) := by
  unfold destroyNode
  split
  · exact grown_free a _ _
  · exact .refl a

end Allocators

/-! ### Frees -/

section Frees
variable {A : Type} [PhysicalAddressAllocator A] {P : A → Prop}
  (stable : ∀ a n, P a → P (destroyNode a n)) {s : FreeState A}

omit [PhysicalAddressAllocator A] in
theorem clearAll_allocator (gpu : Gpu) (qs : List Path) (s : FreeState A) :
    (qs.foldl (fun s q => s.clearPs64 gpu q) s).allocator = s.allocator := by
  induction qs generalizing s with
  | nil => rfl
  | cons q rest ih =>
    rw [List.foldl_cons, ih]
    unfold FreeState.clearPs64
    split
    · rfl
    · rfl

include stable

theorem removePage_allocator (c : FreeContext) (pte : Path) (index g size : Nat)
    (h : P s.allocator) : P (removePage c pte index g size s).allocator := by
  unfold removePage
  split
  · exact h
  · simp only
    split
    · rw [clearAll_allocator]
      exact stable _ _ h
    · exact stable _ _ h

theorem pruneTable_allocator (level : Nat) (p : Path) (h : P s.allocator) :
    P (pruneTable level p s).allocator := by
  unfold pruneTable
  split
  · exact h
  · split
    · exact stable _ _ h
    · exact h

/-- A free only destroys nodes. -/
theorem freeMemory_allocator {ppgtt : PpgttKind} {t : Nodes} {a : A} (gpu : Gpu)
    (wf : Wf ppgtt.getNumLevels t) (g size : Nat) (h : P a) :
    P (freeMemory gpu ppgtt t a g size).1.allocator := by
  have rounds := (freePages_rule (c := ⟨ppgtt, gpu, g, g + size⟩) (P := fun _ _ s => P s.allocator)
    (fun g' size' s s' pageSize wf' _ h hpage => by
      rcases freePage_eq wf' g' size' with ⟨_, hf⟩ | ⟨m, _, _, hf⟩ | ⟨m, k, _, _, hf⟩
      · rw [hf] at hpage
        cases hpage
      · rw [hf, Option.some.injEq, Prod.mk.injEq] at hpage
        obtain ⟨rfl, _⟩ := hpage
        exact pruneTable_allocator stable _ _ (stable _ _ h)
      · rw [hf, Option.some.injEq, Prod.mk.injEq] at hpage
        obtain ⟨rfl, _⟩ := hpage
        exact pruneTable_allocator stable _ _ (removePage_allocator stable _ _ _ _ _ h)) size g size
    ⟨t, a, fun _ => []⟩ (Nat.le_refl _) wf h).2
  rcases rounds with ⟨_, _, h⟩ | ⟨_, _, _, _, h, _⟩
  · exact h
  · exact h

end Frees

variable {cfg : Config} {t : Nodes} {a : PhysicalAddressAllocatorSimple}

/-- A walk only reserves. -/
theorem walkMemory_allocator {A : Type} [PhysicalAddressAllocator A] {P : A → Prop}
    (stable : ∀ a memoryBank size, P a → P (reservePhysicalMemory a memoryBank size size).2) {a : A}
    {params : AllocationParams} {mode : WalkMode} {infos : List PageInfo} {phys : Option Nat}
    {w : WalkState A} (wf : Wf cfg.ppgtt.getNumLevels t) (hmode : mode ≠ .Expect)
    (h : walkMemory cfg.gpu cfg.enablePs64 cfg.ppgtt t a params mode infos phys = some w)
    (start : P a) : P w.allocator := by
  rcases walkMemory_some h with ⟨_, rfl⟩ | ⟨_, c, hc, hpages⟩
  · exact start
  · obtain ⟨_, hppgtt, rfl, _⟩ := walkContext_some hc
    rw [← hppgtt] at wf
    obtain ⟨_, _, _, later⟩ := walkPages_places (J := fun _ _ _ s => P s.allocator) hmode
      (fun _ _ _ _ _ _ _ _ here => placePage_allocator stable here) _ _ _ _ _ w (Nat.le_refl _) wf
      hpages start
    exact later

theorem grown_walk {params : AllocationParams} {mode : WalkMode} {infos : List PageInfo}
    {phys : Option Nat} {w : WalkState PhysicalAddressAllocatorSimple}
    (wf : Wf cfg.ppgtt.getNumLevels t) (hmode : mode ≠ .Expect)
    (h : walkMemory cfg.gpu cfg.enablePs64 cfg.ppgtt t a params mode infos phys = some w) :
    Grown a w.allocator :=
  walkMemory_allocator (fun a' memoryBank size h => h.trans (grown_reserve a' memoryBank size size))
    wf hmode h (.refl a)

theorem grown_freeMemory (wf : Wf cfg.ppgtt.getNumLevels t) (g size : Nat) :
    Grown a (freeMemory cfg.gpu cfg.ppgtt t a g size).1.allocator :=
  freeMemory_allocator (fun a' n h => h.trans (grown_destroyNode a' n)) cfg.gpu wf g size (.refl a)

/-! ### Blocks of the size of a table -/

/-- Whatever the alignment that a client asks for, a block of 4KB lies in one 4KB page. -/
def TableBlocksAligned (a : PhysicalAddressAllocatorSimple) : Prop :=
  ∀ slot, ∀ e ∈ blocks (a.get slot), e.2 = 4096 → 4096 ∣ e.1

theorem tableBlocksAligned_reserve (h : TableBlocksAligned a) (memoryBank : Nat) {size alignment : Nat}
    (small : size = 4096 → alignment ≤ 4096) :
    TableBlocksAligned (a.reserve memoryBank size alignment).2 := by
  intro slot e he hsize
  rcases BlockOwners.mem_blocks_reserve he with hold | ⟨x, rfl⟩
  · exact h slot e hold hsize
  · rw [Nat.max_eq_right (small hsize)]
    exact @AlignedBlocks.alignUp_dvd 64 12 x (by decide)

theorem tableBlocksAligned_destroyNode (n : PageNode) (h : TableBlocksAligned a) :
    TableBlocksAligned (destroyNode a n) := by
  unfold destroyNode
  split
  · exact fun slot e he => h slot e (BlockOwners.mem_blocks_free he)
  · exact h

theorem tableBlocksAligned_walk {params : AllocationParams} {mode : WalkMode}
    {infos : List PageInfo} {phys : Option Nat} {w : WalkState PhysicalAddressAllocatorSimple}
    (wf : Wf cfg.ppgtt.getNumLevels t) (hmode : mode ≠ .Expect)
    (h : walkMemory cfg.gpu cfg.enablePs64 cfg.ppgtt t a params mode infos phys = some w)
    (aligned : TableBlocksAligned a) : TableBlocksAligned w.allocator :=
  walkMemory_allocator (P := TableBlocksAligned)
    (fun _ memoryBank _ here => tableBlocksAligned_reserve here memoryBank fun hsize => hsize.le)
    wf hmode h aligned

theorem tableBlocksAligned_freeMemory (wf : Wf cfg.ppgtt.getNumLevels t) (g size : Nat)
    (aligned : TableBlocksAligned a) :
    TableBlocksAligned (freeMemory cfg.gpu cfg.ppgtt t a g size).1.allocator :=
  freeMemory_allocator (P := TableBlocksAligned)
    (fun _ n here => tableBlocksAligned_destroyNode n here) cfg.gpu wf g size aligned

end AllocatorGrowth
