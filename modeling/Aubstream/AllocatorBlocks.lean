import Aubstream.PhysicalAllocator
import Mathlib.Data.List.Pairwise

/-!
# The blocks of an allocator

While no block runs past the end of the address type, the blocks in use and the
free ones are pairwise apart and lie between the first address and the cursor.
-/

namespace AllocatorBlocks
open PhysicalAllocator

def Apart (e e' : Nat × Nat) : Prop := e.1 + e.2 ≤ e'.1 ∨ e'.1 + e'.2 ≤ e.1

theorem Apart.symm {e e' : Nat × Nat} (h : Apart e e') : Apart e' e := Or.symm h

instance : Std.Symm Apart := ⟨fun _ _ => Apart.symm⟩

theorem apart_ne {e e' : Nat × Nat} (h : Apart e e') (pos : 0 < e.2) (pos' : 0 < e'.2) :
    e.1 ≠ e'.1 := by
  unfold Apart at h
  omega

theorem multimapInsert_perm (e : Nat × Nat) (l : List (Nat × Nat)) :
    (multimapInsert e l).Perm (e :: l) := by
  induction l with
  | nil => exact List.Perm.refl _
  | cons x rest ih =>
    unfold multimapInsert
    split
    · exact List.Perm.refl _
    · exact (ih.cons x).trans (List.Perm.swap e x rest)

theorem alignUp_ge (x a : Nat) : x ≤ SimpleAllocator.alignUp x a := by
  have hand : x + (a - 1) &&& (a - 1) ≤ a - 1 := Nat.and_le_right
  unfold SimpleAllocator.alignUp
  omega

variable {bits : Nat} {base size alignment address : Nat} {s : SimpleAllocator bits}

/-- Everything handed out, in use or free. -/
def blocks (s : SimpleAllocator bits) : List (Nat × Nat) :=
  s.usedAllocationsMap ++ s.freeAllocationsMap

structure Sound (base : Nat) (s : SimpleAllocator bits) : Prop where
  apart : (blocks s).Pairwise Apart
  positive : ∀ e ∈ blocks s, 0 < e.2
  bounds : ∀ e ∈ blocks s, base ≤ e.1 ∧ e.1 + e.2 ≤ s.nextAddress
  cursor : base ≤ s.nextAddress ∧ s.nextAddress ≤ s.highWater

theorem new_sound (base : Nat) : Sound base (SimpleAllocator.new base : SimpleAllocator bits) := by
  refine ⟨List.Pairwise.nil, ?_, ?_, Nat.le_refl _, Nat.le_refl _⟩
  · rintro e ⟨⟩
  · rintro e ⟨⟩

theorem alignedAlloc_highWater (s : SimpleAllocator bits) (size alignment : Nat) :
    s.highWater ≤ (s.alignedAlloc size alignment).2.highWater := by
  unfold SimpleAllocator.alignedAlloc
  split
  · exact Nat.le_refl _
  · exact Nat.le_max_left _ _

theorem alignedFree_highWater (s : SimpleAllocator bits) (address : Nat) :
    (s.alignedFree address).highWater = s.highWater := by
  unfold SimpleAllocator.alignedFree
  split
  · rfl
  · rfl

namespace Sound

theorem apart_of_ne (h : Sound base s) {e e' : Nat × Nat} (he : e ∈ blocks s)
    (he' : e' ∈ blocks s) (hne : e ≠ e') : Apart e e' :=
  h.apart.forall he he' hne

theorem nodup (h : Sound base s) : (blocks s).Nodup := by
  refine List.Pairwise.imp_of_mem (fun {e e'} he he' hapart => ?_) h.apart
  rintro rfl
  exact apart_ne hapart (h.positive e he) (h.positive e he) rfl

/-- An address belongs to one block. -/
theorem eq_of_address (h : Sound base s) {e e' : Nat × Nat} (he : e ∈ blocks s)
    (he' : e' ∈ blocks s) (same : e.1 = e'.1) : e = e' := by
  by_contra hne
  exact apart_ne (h.apart_of_ne he he' hne) (h.positive e he) (h.positive e' he') same

theorem not_free_of_used (h : Sound base s) {e : Nat × Nat} (he : e ∈ s.usedAllocationsMap) :
    e ∉ s.freeAllocationsMap :=
  fun hfree => (List.nodup_append.mp h.nodup).2.2 e he e hfree rfl

theorem of_perm (h : Sound base s) {s' : SimpleAllocator bits} (hperm : (blocks s').Perm (blocks s))
    (hnext : s'.nextAddress = s.nextAddress) (hwater : s'.highWater = s.highWater) :
    Sound base s' := by
  refine ⟨(hperm.pairwise_iff Apart.symm).mpr h.apart, ?_, ?_, ?_⟩
  · exact fun e he => h.positive e (hperm.mem_iff.mp he)
  · intro e he
    rw [hnext]
    exact h.bounds e (hperm.mem_iff.mp he)
  · rw [hnext, hwater]
    exact h.cursor

end Sound

/-- What one allocation does to the blocks. -/
structure Allocated (s s' : SimpleAllocator bits) (e : Nat × Nat) : Prop where
  used : ∀ x, x ∈ s'.usedAllocationsMap ↔ x = e ∨ x ∈ s.usedAllocationsMap
  fresh : e ∉ s.usedAllocationsMap
  free : ∀ x ∈ s'.freeAllocationsMap, x ∈ s.freeAllocationsMap

theorem alignedAlloc_sound (h : Sound base s) (hsize : 0 < size)
    (room : (s.alignedAlloc size alignment).2.highWater < 2 ^ bits) :
    Sound base (s.alignedAlloc size alignment).2 ∧
      Allocated s (s.alignedAlloc size alignment).2 ((s.alignedAlloc size alignment).1, size) := by
  unfold SimpleAllocator.alignedAlloc at room ⊢
  cases hf : s.freeAllocationsMap.find? fun e => e.2 = size with
  | some e =>
    have hmem := List.mem_of_find?_eq_some hf
    have hsize' : e.2 = size := by simpa using List.find?_some hf
    have hpair : (e.1, size) = e := by rw [← hsize']
    simp only [hpair]
    refine ⟨h.of_perm ?_ rfl rfl, ?_, fun hused => h.not_free_of_used hused hmem, ?_⟩
    · have h1 := (multimapInsert_perm e s.usedAllocationsMap).append_right
        (s.freeAllocationsMap.erase e)
      refine h1.trans (List.perm_middle.symm.trans ?_)
      exact (List.perm_cons_erase hmem).symm.append_left _
    · intro x
      rw [(multimapInsert_perm e s.usedAllocationsMap).mem_iff, List.mem_cons]
    · exact fun x hx => List.mem_of_mem_erase hx
  | none =>
    rw [hf] at room
    simp only at room ⊢
    have hge := alignUp_ge s.nextAddress (max alignment 4096)
    generalize SimpleAllocator.alignUp s.nextAddress (max alignment 4096) = x at room hge ⊢
    have hend : x + size < 2 ^ bits := Nat.lt_of_le_of_lt (Nat.le_max_right _ _) room
    rw [Nat.mod_eq_of_lt (by omega : x < 2 ^ bits), Nat.mod_eq_of_lt hend]
    have hperm := multimapInsert_perm (x, size) s.usedAllocationsMap
    have hall : ∀ y, y ∈ multimapInsert (x, size) s.usedAllocationsMap ++ s.freeAllocationsMap ↔
        y = (x, size) ∨ y ∈ blocks s := by
      intro y
      rw [List.mem_append, hperm.mem_iff, List.mem_cons, or_assoc, blocks, List.mem_append]
    refine ⟨⟨?_, ?_, ?_, ?_, ?_⟩, ?_, ?_, fun y hy => hy⟩
    · refine ((hperm.append_right s.freeAllocationsMap).pairwise_iff Apart.symm).mpr ?_
      refine List.pairwise_cons.mpr ⟨fun y hy => Or.inr ?_, h.apart⟩
      have hy' := (h.bounds y hy).2
      simp only
      omega
    · intro y hy
      rcases (hall y).mp hy with rfl | hy
      · exact hsize
      · exact h.positive y hy
    · intro y hy
      have hbase := h.cursor.1
      rcases (hall y).mp hy with rfl | hy
      · simp only
        omega
      · have hy' := h.bounds y hy
        simp only
        omega
    · have hbase := h.cursor.1
      simp only
      omega
    · exact Nat.le_max_right _ _
    · intro y
      rw [hperm.mem_iff, List.mem_cons]
    · intro hused
      have hle := (h.bounds _ (List.mem_append_left _ hused)).2
      simp only at hle
      omega

/-- Freeing the address of a block in use moves the block to the free list. -/
theorem alignedFree_sound (h : Sound base s) {e : Nat × Nat} (he : e ∈ s.usedAllocationsMap)
    (room : s.highWater < 2 ^ bits) :
    Sound base (s.alignedFree e.1) ∧
      (∀ x, x ∈ (s.alignedFree e.1).usedAllocationsMap ↔ x ∈ s.usedAllocationsMap ∧ x ≠ e) ∧
      ∀ x, x ∈ (s.alignedFree e.1).freeAllocationsMap ↔ x = e ∨ x ∈ s.freeAllocationsMap := by
  have hblock : e ∈ blocks s := List.mem_append_left _ he
  have hbits : e.1 % 2 ^ bits = e.1 := by
    have hle := (h.bounds e hblock).2
    have hwater := h.cursor.2
    exact Nat.mod_eq_of_lt (by omega)
  have hfind : s.usedAllocationsMap.find? (fun x => x.1 = e.1 % 2 ^ bits) = some e := by
    rw [hbits]
    cases hf : s.usedAllocationsMap.find? fun x => x.1 = e.1 with
    | none =>
      rw [List.find?_eq_none] at hf
      exact absurd (by simp) (hf e he)
    | some x =>
      have hx : x.1 = e.1 := by simpa using List.find?_some hf
      rw [h.eq_of_address (List.mem_append_left _ (List.mem_of_find?_eq_some hf)) hblock hx]
  unfold SimpleAllocator.alignedFree
  rw [hfind]
  have hnodup : s.usedAllocationsMap.Nodup := (List.nodup_append.mp h.nodup).1
  have hperm := multimapInsert_perm e s.freeAllocationsMap
  refine ⟨h.of_perm ?_ rfl rfl, ?_, ?_⟩
  · refine (hperm.append_left _).trans (List.perm_middle.trans ?_)
    exact ((List.perm_cons_erase he).symm.append_right s.freeAllocationsMap)
  · intro x
    rw [hnodup.mem_erase_iff, and_comm]
  · intro x
    rw [hperm.mem_iff, List.mem_cons]

/-! ### The banks of an allocator -/

abbrev Bank := Option Nat

/-- A block with the allocator it comes from. -/
abbrev Key := Bank × (Nat × Nat)

section Banks

variable {a : PhysicalAddressAllocatorSimple}

theorem get_set (a : PhysicalAddressAllocatorSimple) (slot : Bank) (s : SimpleAllocator 64) :
    (a.set slot s).get slot = s := by
  cases slot with
  | none => rfl
  | some i => simp [PhysicalAddressAllocatorSimple.set, PhysicalAddressAllocatorSimple.get]

theorem get_set_of_ne {slot slot' : Bank} (h : slot' ≠ slot) (s : SimpleAllocator 64) :
    (a.set slot s).get slot' = a.get slot' := by
  cases slot with
  | none =>
    cases slot' with
    | none => exact absurd rfl h
    | some i => rfl
  | some i =>
    cases slot' with
    | none => rfl
    | some j =>
      have hij : j ≠ i := fun heq => h (by rw [heq])
      simp [PhysicalAddressAllocatorSimple.set, PhysicalAddressAllocatorSimple.get, hij]

theorem slotOf_set (a : PhysicalAddressAllocatorSimple) (slot : Bank) (s : SimpleAllocator 64)
    (memoryBank : Nat) : (a.set slot s).slotOf memoryBank = a.slotOf memoryBank := by
  cases slot <;> rfl

def inUse (a : PhysicalAddressAllocatorSimple) : Set Key :=
  fun k => k.2 ∈ (a.get k.1).usedAllocationsMap

theorem mem_inUse {k : Key} : k ∈ inUse a ↔ k.2 ∈ (a.get k.1).usedAllocationsMap := Iff.rfl

/-- No bank has run out of 64-bit addresses. -/
def Unexhausted (a : PhysicalAddressAllocatorSimple) : Prop :=
  ∀ slot, (a.get slot).highWater < 2 ^ 64

def BanksSound (base : Bank → Nat) (a : PhysicalAddressAllocatorSimple) : Prop :=
  ∀ slot, Sound (base slot) (a.get slot)

theorem reserve_highWater (a : PhysicalAddressAllocatorSimple) (memoryBank size alignment : Nat)
    (slot : Bank) :
    (a.get slot).highWater ≤ ((a.reserve memoryBank size alignment).2.get slot).highWater := by
  unfold PhysicalAddressAllocatorSimple.reserve
  by_cases h : slot = a.slotOf memoryBank
  · subst h
    simp only [get_set]
    exact alignedAlloc_highWater _ _ _
  · simp only [get_set_of_ne h, Nat.le_refl]

theorem free_highWater (a : PhysicalAddressAllocatorSimple) (memoryBank address : Nat)
    (slot : Bank) :
    ((a.free memoryBank address).get slot).highWater = (a.get slot).highWater := by
  unfold PhysicalAddressAllocatorSimple.free
  by_cases h : slot = a.slotOf memoryBank
  · subst h
    rw [get_set, alignedFree_highWater]
  · rw [get_set_of_ne h]

/-- A reservation takes a block that was not in use out of its bank. -/
structure Reserved (a a' : PhysicalAddressAllocatorSimple) (k : Key) : Prop where
  used : ∀ x, x ∈ inUse a' ↔ x = k ∨ x ∈ inUse a
  fresh : k ∉ inUse a
  free : ∀ slot, ∀ e ∈ (a'.get slot).freeAllocationsMap, e ∈ (a.get slot).freeAllocationsMap
  slots : ∀ memoryBank, a'.slotOf memoryBank = a.slotOf memoryBank

theorem reserve_sound {base : Bank → Nat} (h : BanksSound base a) {memoryBank size alignment : Nat}
    (hsize : 0 < size) (room : Unexhausted (a.reserve memoryBank size alignment).2) :
    BanksSound base (a.reserve memoryBank size alignment).2 ∧
      Reserved a (a.reserve memoryBank size alignment).2
        (a.slotOf memoryBank, (a.reserve memoryBank size alignment).1, size) := by
  have hroom := room (a.slotOf memoryBank)
  unfold PhysicalAddressAllocatorSimple.reserve at hroom ⊢
  rw [get_set] at hroom
  obtain ⟨hsound, halloc⟩ := alignedAlloc_sound (h (a.slotOf memoryBank)) hsize hroom
  refine ⟨?_, ?_, ?_, ?_, ?_⟩
  · intro slot
    by_cases hslot : slot = a.slotOf memoryBank
    · subst hslot
      rw [get_set]
      exact hsound
    · rw [get_set_of_ne hslot]
      exact h slot
  · rintro ⟨slot, e⟩
    simp only [mem_inUse, Prod.mk.injEq]
    by_cases hslot : slot = a.slotOf memoryBank
    · subst hslot
      rw [get_set, halloc.used]
      simp
    · rw [get_set_of_ne hslot]
      simp [hslot]
  · exact halloc.fresh
  · intro slot e he
    by_cases hslot : slot = a.slotOf memoryBank
    · subst hslot
      rw [get_set] at he
      exact halloc.free e he
    · rw [get_set_of_ne hslot] at he
      exact he
  · exact slotOf_set a _ _

/-- Freeing gives one block in use back to the free list of its bank. -/
structure Returned (a a' : PhysicalAddressAllocatorSimple) (k : Key) : Prop where
  used : ∀ x, x ∈ inUse a' ↔ x ∈ inUse a ∧ x ≠ k
  free : ∀ slot e, e ∈ (a'.get slot).freeAllocationsMap ↔
    (slot, e) = k ∨ e ∈ (a.get slot).freeAllocationsMap
  slots : ∀ memoryBank, a'.slotOf memoryBank = a.slotOf memoryBank

theorem free_sound {base : Bank → Nat} (h : BanksSound base a) {memoryBank address size : Nat}
    (hused : (a.slotOf memoryBank, address, size) ∈ inUse a) (room : Unexhausted a) :
    BanksSound base (a.free memoryBank address) ∧
      Returned a (a.free memoryBank address) (a.slotOf memoryBank, address, size) := by
  obtain ⟨hsound, hinUse, hfree⟩ :=
    alignedFree_sound (h (a.slotOf memoryBank)) hused (room (a.slotOf memoryBank))
  unfold PhysicalAddressAllocatorSimple.free
  refine ⟨?_, ?_, ?_, ?_⟩
  · intro slot
    by_cases hslot : slot = a.slotOf memoryBank
    · subst hslot
      rw [get_set]
      exact hsound
    · rw [get_set_of_ne hslot]
      exact h slot
  · rintro ⟨slot, e⟩
    simp only [mem_inUse, ne_eq, Prod.mk.injEq]
    by_cases hslot : slot = a.slotOf memoryBank
    · subst hslot
      rw [get_set, hinUse]
      simp
    · rw [get_set_of_ne hslot]
      simp [hslot]
  · intro slot e
    rw [Prod.mk.injEq]
    by_cases hslot : slot = a.slotOf memoryBank
    · subst hslot
      rw [get_set, hfree]
      simp
    · rw [get_set_of_ne hslot]
      simp [hslot]
  · exact slotOf_set a _ _

/-- First address of each bank of a new allocator. -/
def firstAddress (singleAllocatorSize : Nat) (localMemorySupport : Bool) : Bank → Nat
  | none => reservedGGTTSpace
  | some i => max 0x1000 <| EntryBits.wrap64 <|
    (if localMemorySupport then singleAllocatorSize / 256 else 0) + i * singleAllocatorSize

theorem new_banksSound (numberOfAllocators singleAllocatorSize : Nat) (localMemorySupport : Bool) :
    BanksSound (firstAddress singleAllocatorSize localMemorySupport)
      (.new numberOfAllocators singleAllocatorSize localMemorySupport) := by
  rintro (_ | i)
  · exact new_sound _
  · exact new_sound _

end Banks

end AllocatorBlocks
