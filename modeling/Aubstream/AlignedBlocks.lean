import Aubstream.AllocatorRuns
import Aubstream.BankIsolation

/-!
# Alignment of blocks

A new block is cut on a multiple of the alignment that is asked for. A free block
is handed out again by its size alone, with the alignment it was cut for.
-/

namespace AlignedBlocks
open PhysicalAllocator AllocatorBlocks BankIsolation Transitions

variable {bits : Nat}

/-- The lowest free block of the size, if there is one, lies on a multiple of the alignment. -/
def ReuseAligned (s : SimpleAllocator bits) (size alignment : Nat) : Prop :=
  ∀ e ∈ s.freeAllocationsMap, e.2 = size →
    (∀ e' ∈ s.freeAllocationsMap, e'.2 = size → e.1 ≤ e'.1) → max alignment 4096 ∣ e.1

/-- A multimap iterates in the order of its keys. -/
def Sorted (l : List (Nat × Nat)) : Prop := l.Pairwise fun e e' => e.1 ≤ e'.1

theorem sorted_multimapInsert {e : Nat × Nat} {l : List (Nat × Nat)} (h : Sorted l) :
    Sorted (multimapInsert e l) := by
  induction l with
  | nil => exact List.pairwise_singleton _ _
  | cons x rest ih =>
    obtain ⟨hx, hrest⟩ := List.pairwise_cons.mp h
    unfold multimapInsert
    split
    · rename_i hlt
      refine List.pairwise_cons.mpr ⟨fun y hy => ?_, h⟩
      rcases List.mem_cons.mp hy with rfl | hy
      · exact Nat.le_of_lt hlt
      · exact Nat.le_trans (Nat.le_of_lt hlt) (hx y hy)
    · rename_i hge
      refine List.pairwise_cons.mpr ⟨fun y hy => ?_, ih hrest⟩
      rcases List.mem_cons.mp ((multimapInsert_perm e rest).mem_iff.mp hy) with rfl | hy
      · exact Nat.le_of_not_lt hge
      · exact hx y hy

theorem sorted_erase {e : Nat × Nat} {l : List (Nat × Nat)} (h : Sorted l) : Sorted (l.erase e) :=
  h.sublist List.erase_sublist

/-- The first element of a size has the lowest address of that size. -/
theorem sorted_find?_le {l : List (Nat × Nat)} (h : Sorted l) {size : Nat} {e : Nat × Nat}
    (hfind : l.find? (fun e => e.2 = size) = some e) :
    ∀ e' ∈ l, e'.2 = size → e.1 ≤ e'.1 := by
  obtain ⟨_, before, after, rfl, hbefore⟩ := List.find?_eq_some_iff_append.mp hfind
  intro e' he' hsize
  obtain ⟨_, hafter, _⟩ := List.pairwise_append.mp h
  rcases List.mem_append.mp he' with hmem | hmem
  · exact absurd hsize (by simpa using hbefore e' hmem)
  · rcases List.mem_cons.mp hmem with rfl | hmem
    · exact Nat.le_refl _
    · exact (List.pairwise_cons.mp hafter).1 e' hmem

theorem sorted_step {s s' : SimpleAllocator bits} {o : AllocatorRuns.Op}
    (h : Sorted s.freeAllocationsMap) (done : AllocatorRuns.step s o = some s') :
    Sorted s'.freeAllocationsMap := by
  cases o with
  | alignedAlloc size alignment =>
    obtain rfl := Option.some.inj done
    unfold SimpleAllocator.alignedAlloc
    split
    · exact sorted_erase h
    · exact h
  | alignedFree address =>
    obtain rfl := Option.some.inj done
    unfold SimpleAllocator.alignedFree
    split
    · exact sorted_multimapInsert h
    · exact h

/-- `alignUp` rounds to a multiple of a power of two, which is left when the address is cut. -/
theorem alignUp_dvd {bits k x : Nat} (h : k ≤ bits) :
    2 ^ k ∣ SimpleAllocator.alignUp x (2 ^ k) % 2 ^ bits := by
  have hmod : SimpleAllocator.alignUp x (2 ^ k) = x + (2 ^ k - 1) - (x + (2 ^ k - 1)) % 2 ^ k := by
    rw [SimpleAllocator.alignUp, Nat.and_two_pow_sub_one_eq_mod]
  rw [Nat.dvd_mod_iff (Nat.pow_dvd_pow 2 h), hmod]
  exact Nat.dvd_sub_mod _

/-- The larger of a power of two and the size of a page. -/
theorem max_4096 (k : Nat) : max (2 ^ k) 4096 = 2 ^ max k 12 := by
  have hpage : (4096 : Nat) = 2 ^ 12 := rfl
  rw [hpage]
  rcases Nat.le_total k 12 with h | h
  · rw [Nat.max_eq_right h, Nat.max_eq_right (Nat.pow_le_pow_right (by decide) h)]
  · rw [Nat.max_eq_left h, Nat.max_eq_left (Nat.pow_le_pow_right (by decide) h)]

/-- One call: a fresh block is aligned, a reused one is as it is. -/
theorem alignedAlloc_aligned_iff (hbits : 12 ≤ bits) {s : SimpleAllocator bits}
    (sorted : Sorted s.freeAllocationsMap) (size : Nat) {k : Nat} (hk : k < bits) :
    max (2 ^ k) 4096 ∣ (s.alignedAlloc size (2 ^ k)).1 ↔ ReuseAligned s size (2 ^ k) := by
  unfold SimpleAllocator.alignedAlloc
  cases hf : s.freeAllocationsMap.find? fun e => e.2 = size with
  | some e =>
    have hmem := List.mem_of_find?_eq_some hf
    have hsize : e.2 = size := by simpa using List.find?_some hf
    have hlowest := sorted_find?_le sorted hf
    constructor
    · intro haligned e' he' hsize' hlowest'
      have hsame : e'.1 = e.1 := Nat.le_antisymm (hlowest' e hmem hsize) (hlowest e' he' hsize')
      rw [hsame]
      exact haligned
    · exact fun reuse => reuse e hmem hsize hlowest
  | none =>
    rw [List.find?_eq_none] at hf
    constructor
    · intro _ e he hsize
      exact absurd (by simpa using hsize) (hf e he)
    · intro _
      simp only [max_4096]
      exact alignUp_dvd (by omega)

theorem reach_sorted {firstAddress : Nat} {s : SimpleAllocator bits}
    (reached : Reach AllocatorRuns.step Any (.new firstAddress) s) :
    Sorted s.freeAllocationsMap := by
  induction reached with
  | start => exact List.Pairwise.nil
  | step _ _ done ih => exact sorted_step ih done

inductive PhysicalOp where
  | reservePhysicalMemory (memoryBank size alignment : Nat)
  | freePhysicalMemory (memoryBank address : Nat)

def physicalStep (a : PhysicalAddressAllocatorSimple) :
    PhysicalOp → Option PhysicalAddressAllocatorSimple
  | .reservePhysicalMemory memoryBank size alignment =>
    if HasAllocator a memoryBank then some (a.reserve memoryBank size alignment).2 else none
  | .freePhysicalMemory memoryBank address =>
    if HasAllocator a memoryBank then some (a.free memoryBank address) else none

/-- A call runs one allocator and leaves the others alone. -/
theorem physicalStep_get {a a' : PhysicalAddressAllocatorSimple} {o : PhysicalOp}
    (done : physicalStep a o = some a') (slot : Option Nat) :
    a'.get slot = a.get slot ∨ ∃ o', AllocatorRuns.step (a.get slot) o' = some (a'.get slot) := by
  have set_get : ∀ touched (s : SimpleAllocator 64),
      (a.set touched s).get slot = if slot = touched then s else a.get slot := by
    intro touched s
    cases touched <;> cases slot <;> simp [PhysicalAddressAllocatorSimple.set,
      PhysicalAddressAllocatorSimple.get]
  cases o with
  | reservePhysicalMemory memoryBank size alignment =>
    simp only [physicalStep] at done
    split at done
    · obtain rfl := Option.some.inj done
      simp only [PhysicalAddressAllocatorSimple.reserve, set_get]
      split
      · rename_i hslot
        exact Or.inr ⟨.alignedAlloc size alignment, by rw [hslot]; rfl⟩
      · exact Or.inl rfl
    · cases done
  | freePhysicalMemory memoryBank address =>
    simp only [physicalStep] at done
    split at done
    · obtain rfl := Option.some.inj done
      simp only [PhysicalAddressAllocatorSimple.free, set_get]
      split
      · rename_i hslot
        exact Or.inr ⟨.alignedFree address, by rw [hslot]; rfl⟩
      · exact Or.inl rfl
    · cases done

/-- Seen from one bank, a run of the whole is a run of its allocator. -/
theorem physicalReach_get {numberOfAllocators singleAllocatorSize : Nat} {localMemorySupport : Bool}
    {a : PhysicalAddressAllocatorSimple}
    (reached : Reach physicalStep Any
      (.new numberOfAllocators singleAllocatorSize localMemorySupport) a) (slot : Option Nat) :
    ∃ firstAddress, Reach AllocatorRuns.step Any (.new firstAddress) (a.get slot) := by
  induction reached with
  | start =>
    cases slot with
    | none => exact ⟨_, .start⟩
    | some i => exact ⟨_, .start⟩
  | step _ _ done ih =>
    obtain ⟨firstAddress, before⟩ := ih
    rcases physicalStep_get done slot with hsame | ⟨o', hstep⟩
    · rw [hsame]
      exact ⟨firstAddress, before⟩
    · exact ⟨firstAddress, before.step trivial hstep⟩

/-- After any history a block is aligned if and only if it is not a misaligned free one. -/
theorem alignment_honoured_iff (hbits : 12 ≤ bits) :
    (∀ (firstAddress : Nat) (s : SimpleAllocator bits),
      Reach AllocatorRuns.step Any (.new firstAddress) s → ∀ size k, k < bits →
        (max (2 ^ k) 4096 ∣ (s.alignedAlloc size (2 ^ k)).1 ↔ ReuseAligned s size (2 ^ k))) ∧
    ∀ (numberOfAllocators singleAllocatorSize : Nat) (localMemorySupport : Bool)
      (a : PhysicalAddressAllocatorSimple),
      Reach physicalStep Any (.new numberOfAllocators singleAllocatorSize localMemorySupport) a →
      ∀ memoryBank size k, k < 64 → HasAllocator a memoryBank →
        (max (2 ^ k) 4096 ∣ (a.reserve memoryBank size (2 ^ k)).1 ↔
          ReuseAligned (a.get (a.slotOf memoryBank)) size (2 ^ k)) := by
  constructor
  · intro firstAddress s reached size k hk
    exact alignedAlloc_aligned_iff hbits (reach_sorted reached) size hk
  · intro numberOfAllocators singleAllocatorSize localMemorySupport a reached memoryBank size k hk _
    obtain ⟨firstAddress, run⟩ := physicalReach_get reached (a.slotOf memoryBank)
    exact alignedAlloc_aligned_iff (by decide) (reach_sorted run) size hk

/-- A page that was freed, asked for on a 64KB boundary, and another one of a fresh size. -/
def freedPage : List PhysicalOp :=
  [.reservePhysicalMemory 0 0x1000 0x1000, .reservePhysicalMemory 0 0x1000 0x1000,
    .freePhysicalMemory 0 0x81000]

theorem freedPage_run : ∃ a, runAll physicalStep (.new 1 0x80000000 true) freedPage = some a ∧
    Reach physicalStep Any (.new 1 0x80000000 true) a ∧
    a.mainAllocator.freeAllocationsMap = [(0x81000, 0x1000)] :=
  ⟨_, rfl, runAll_reach freedPage .start rfl, rfl⟩

theorem alignment_honoured_freedPage :
    ∃ a, runAll physicalStep (.new 1 0x80000000 true) freedPage = some a ∧
      0x10000 ∣ (a.reserve 0 0x2000 0x10000).1 := by
  obtain ⟨a, hrun, reached, hfree⟩ := freedPage_run
  refine ⟨a, hrun, ((alignment_honoured_iff (by decide : 12 ≤ 64)).2 1 0x80000000 true a reached 0
    0x2000 16 (by decide) ?_).mpr ?_⟩
  · exact fun i hslot => by cases hslot
  · intro e he hsize
    have hmem : e ∈ a.mainAllocator.freeAllocationsMap := he
    rw [hfree, List.mem_singleton] at hmem
    rw [hmem] at hsize
    cases hsize

theorem not_alignment_honoured :
    ∃ a, runAll physicalStep (.new 1 0x80000000 true) freedPage = some a ∧
      ¬ max 0x10000 4096 ∣ (a.reserve 0 0x1000 0x10000).1 :=
  ⟨_, rfl, by decide⟩

end AlignedBlocks
