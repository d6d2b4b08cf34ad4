import Aubstream.AllocatorBlocks
import Aubstream.Transitions

/-!
# Runs of one allocator

Allocations and frees in any order, from an allocator without blocks. Only a
bump past the end of the address type is excluded.
-/

namespace AllocatorRuns
open PhysicalAllocator AllocatorBlocks Transitions

variable {bits : Nat}

inductive Op where
  | alignedAlloc (size alignment : Nat)
  | alignedFree (address : Nat)

def step (s : SimpleAllocator bits) : Op → Option (SimpleAllocator bits)
  | .alignedAlloc size alignment => some (s.alignedAlloc size alignment).2
  | .alignedFree address => some (s.alignedFree address)

/-- A free block of the size is reused, or the cursor has room for a new one. -/
def NoWrap (s : SimpleAllocator bits) (size alignment : Nat) : Prop :=
  (∃ e ∈ s.freeAllocationsMap, e.2 = size) ∨
    SimpleAllocator.alignUp s.nextAddress (max alignment 4096) + size < 2 ^ bits

def Allowed (s : SimpleAllocator bits) : Op → Prop
  | .alignedAlloc size alignment => 0 < size ∧ NoWrap s size alignment
  | .alignedFree _ => True

theorem alignedAlloc_room {s : SimpleAllocator bits} {size alignment : Nat}
    (room : s.highWater < 2 ^ bits) (noWrap : NoWrap s size alignment) :
    (s.alignedAlloc size alignment).2.highWater < 2 ^ bits := by
  unfold SimpleAllocator.alignedAlloc
  cases hf : s.freeAllocationsMap.find? fun e => e.2 = size with
  | some e => exact room
  | none =>
    rcases noWrap with ⟨e, he, hsize⟩ | hbump
    · rw [List.find?_eq_none] at hf
      exact absurd (by simpa using hsize) (hf e he)
    · exact Nat.max_lt.mpr ⟨room, hbump⟩

theorem alignedFree_mod (s : SimpleAllocator bits) (address : Nat) :
    s.alignedFree (address % 2 ^ bits) = s.alignedFree address := by
  simp only [SimpleAllocator.alignedFree, Nat.mod_mod]

/-- Freeing an address that no block in use has leaves the allocator alone. -/
theorem alignedFree_unknown {s : SimpleAllocator bits} {address : Nat}
    (unknown : ∀ e ∈ s.usedAllocationsMap, e.1 ≠ address % 2 ^ bits) :
    s.alignedFree address = s := by
  have hf : s.usedAllocationsMap.find? (fun e => e.1 = address % 2 ^ bits) = none := by
    rw [List.find?_eq_none]
    intro e he
    simpa using unknown e he
  simp only [SimpleAllocator.alignedFree, hf]

/-- A free either finds the block of its address or changes nothing. -/
theorem alignedFree_cases (s : SimpleAllocator bits) (address : Nat) :
    s.alignedFree address = s ∨
      ∃ e ∈ s.usedAllocationsMap, s.alignedFree address = s.alignedFree e.1 := by
  by_cases h : ∃ e ∈ s.usedAllocationsMap, e.1 = address % 2 ^ bits
  · obtain ⟨e, he, heq⟩ := h
    exact Or.inr ⟨e, he, by rw [heq, alignedFree_mod]⟩
  · exact Or.inl (alignedFree_unknown fun e he heq => h ⟨e, he, heq⟩)

theorem step_sound {base : Nat} {s s' : SimpleAllocator bits} {o : Op} (sound : Sound base s)
    (room : s.highWater < 2 ^ bits) (allowed : Allowed s o) (done : step s o = some s') :
    Sound base s' ∧ s'.highWater < 2 ^ bits := by
  cases o with
  | alignedAlloc size alignment =>
    obtain ⟨hsize, noWrap⟩ := allowed
    have hroom := alignedAlloc_room room noWrap
    obtain rfl := Option.some.inj done
    exact ⟨(alignedAlloc_sound sound hsize hroom).1, hroom⟩
  | alignedFree address =>
    obtain rfl := Option.some.inj done
    refine ⟨?_, by rw [alignedFree_highWater]; exact room⟩
    rcases alignedFree_cases s address with h | ⟨e, he, h⟩
    · rw [h]
      exact sound
    · rw [h]
      exact (alignedFree_sound sound he room).1

/-- No step loses a block. -/
theorem step_keeps {base : Nat} {s s' : SimpleAllocator bits} {o : Op} (sound : Sound base s)
    (room : s.highWater < 2 ^ bits) (done : step s o = some s') :
    ∀ e ∈ blocks s, e ∈ blocks s' := by
  intro x hx
  cases o with
  | alignedAlloc size alignment =>
    obtain rfl := Option.some.inj done
    unfold SimpleAllocator.alignedAlloc
    cases hf : s.freeAllocationsMap.find? fun e => e.2 = size with
    | some e =>
      simp only [blocks, List.mem_append, (multimapInsert_perm e _).mem_iff, List.mem_cons] at hx ⊢
      by_cases hxe : x = e
      · exact Or.inl (Or.inl hxe)
      · rcases hx with hx | hx
        · exact Or.inl (Or.inr hx)
        · exact Or.inr ((List.mem_erase_of_ne hxe).mpr hx)
    | none =>
      simp only [blocks, List.mem_append, (multimapInsert_perm _ _).mem_iff, List.mem_cons] at hx ⊢
      rcases hx with hx | hx
      · exact Or.inl (Or.inr hx)
      · exact Or.inr hx
  | alignedFree address =>
    obtain rfl := Option.some.inj done
    rcases alignedFree_cases s address with h | ⟨e, he, h⟩
    · rw [h]
      exact hx
    · obtain ⟨_, hused, hfree⟩ := alignedFree_sound sound he room
      rw [h]
      simp only [blocks, List.mem_append, hused, hfree] at hx ⊢
      by_cases hxe : x = e
      · exact Or.inr (Or.inl hxe)
      · rcases hx with hx | hx
        · exact Or.inl ⟨hx, hxe⟩
        · exact Or.inr (Or.inr hx)

theorem reach_sound {firstAddress : Nat} (first : firstAddress < 2 ^ bits)
    {s : SimpleAllocator bits} (reached : Reach step Allowed (.new firstAddress) s) :
    Sound firstAddress s ∧ s.highWater < 2 ^ bits :=
  reached.invariant (I := fun s => Sound firstAddress s ∧ s.highWater < 2 ^ bits)
    ⟨new_sound firstAddress, first⟩
    fun _ _ _ inv allowed done => step_sound inv.1 inv.2 allowed done

/-- What holds of the blocks between two calls, and what the next call does to them. -/
structure DisjointBlocks (firstAddress : Nat) (s : SimpleAllocator bits) : Prop where
  apart : (blocks s).Pairwise Apart
  oneList : ∀ e ∈ blocks s, e ∈ s.usedAllocationsMap ↔ e ∉ s.freeAllocationsMap
  bounds : ∀ e ∈ blocks s, firstAddress ≤ e.1 ∧ e.1 + e.2 ≤ s.nextAddress
  keeps : ∀ o s', step s o = some s' → ∀ e ∈ blocks s, e ∈ blocks s'
  returned : ∀ size alignment, Allowed s (.alignedAlloc size alignment) →
    ((s.alignedAlloc size alignment).1, size) ∈ (s.alignedAlloc size alignment).2.usedAllocationsMap ∧
    ∀ e ∈ s.usedAllocationsMap, Apart e ((s.alignedAlloc size alignment).1, size)
  unknown : ∀ address, (∀ e ∈ s.usedAllocationsMap, e.1 ≠ address % 2 ^ bits) →
    s.alignedFree address = s

/-- Every allocator that a run reaches keeps its blocks disjoint. -/
theorem simpleAllocator_disjointBlocks {firstAddress : Nat} (first : firstAddress < 2 ^ bits)
    {s : SimpleAllocator bits} (reached : Reach step Allowed (.new firstAddress) s) :
    DisjointBlocks firstAddress s := by
  obtain ⟨sound, room⟩ := reach_sound first reached
  refine ⟨sound.apart, ?_, sound.bounds, ?_, ?_, ?_⟩
  · intro e he
    constructor
    · exact fun hused => sound.not_free_of_used hused
    · intro hfree
      exact (List.mem_append.mp he).resolve_right hfree
  · exact fun o s' done => step_keeps sound room done
  · rintro size alignment ⟨hsize, noWrap⟩
    obtain ⟨sound', halloc⟩ :=
      alignedAlloc_sound sound hsize (alignedAlloc_room room noWrap)
    have hmem := (halloc.used _).mpr (Or.inl rfl)
    refine ⟨hmem, fun e he => ?_⟩
    refine sound'.apart_of_ne (List.mem_append_left _ ((halloc.used e).mpr (Or.inr he)))
      (List.mem_append_left _ hmem) ?_
    rintro rfl
    exact halloc.fresh he
  · exact fun address unknown => alignedFree_unknown unknown

/-- A block of the first page, given back and handed out again under another alignment. -/
def reuseRun : List Op :=
  [.alignedAlloc 0x1000 0x1000, .alignedAlloc 0x100 0x10000, .alignedFree 0x10000,
    .alignedFree 0x10000, .alignedAlloc 0x1000 0x10000]

theorem simpleAllocator_disjointBlocks_reuse :
    ∃ s : SimpleAllocator 64, runAll step (.new 0x10000) reuseRun = some s ∧
      DisjointBlocks 0x10000 s := by
  refine ⟨_, rfl, simpleAllocator_disjointBlocks (by decide) ?_⟩
  refine .step (.step (.step (.step (.step .start (o := .alignedAlloc 0x1000 0x1000) ?_ rfl)
    (o := .alignedAlloc 0x100 0x10000) ?_ rfl) (o := .alignedFree 0x10000) trivial rfl)
    (o := .alignedFree 0x10000) trivial rfl) (o := .alignedAlloc 0x1000 0x10000) ?_ rfl
  · exact ⟨by decide, Or.inr (by decide)⟩
  · exact ⟨by decide, Or.inr (by decide)⟩
  · exact ⟨by decide, Or.inl ⟨(0x10000, 0x1000), by decide, rfl⟩⟩

/-- A 32-bit allocator cuts the address it is asked to free, and finds a block there. -/
theorem not_alignedFree_unknown :
    ¬ ∀ (s : SimpleAllocator 32) (address : Nat), Reach step Allowed (.new 0) s →
      (∀ e ∈ s.usedAllocationsMap, e.1 ≠ address) → s.alignedFree address = s := by
  intro hall
  have reached : Reach step Allowed (.new 0)
      ((SimpleAllocator.new 0 : SimpleAllocator 32).alignedAlloc 0x1000 0x1000).2 :=
    .step .start (o := .alignedAlloc 0x1000 0x1000) ⟨by decide, Or.inr (by decide)⟩ rfl
  have hsame := hall _ (2 ^ 32) reached (by decide)
  exact absurd hsame (by decide)

end AllocatorRuns
