import Mathlib.Data.List.Induction
import Aubstream.SharedMemory

/-!
# What the translation table holds

The SHM4 allocator gives every page of a reservation a host page. A translation
reports the host address of a byte and how far the host memory goes on from there
without a gap: no more than is mapped, and no less.
-/

namespace HostTranslation
open SharedMemory

/-- A call of `mapSystemMemoryToPhysicalAddress`; `allocated` is the memory that `aligned_alloc`
returns where `p` is null. -/
structure MapCall where
  physAddress : Nat
  size : Nat
  isLocalMemory : Bool
  p : Nat
  allocated : Nat
  aligned : physAddress % 0x1000 = 0 ∧ size % 0x1000 = 0
  allocated_ne : allocated ≠ 0

/-- The loop over the entries; every page takes one unit of fuel. -/
def mapEntries : Nat → (Nat → Nat) → Nat → Nat → Nat → Nat → Nat
  | 0, traslationTable, _, _, _ => traslationTable
  | fuel + 1, traslationTable, entryNumber, size, p =>
    if size = 0 then traslationTable
    else mapEntries fuel (fun n => if n = entryNumber then p else traslationTable n)
      (entryNumber + 1) (size - 0x1000) (p + 0x1000)

namespace MapCall

/-- The host memory of the call. -/
def host (c : MapCall) : Nat := if c.p = 0 then c.allocated else c.p

theorem host_ne (c : MapCall) : c.host ≠ 0 := by
  unfold host
  split
  · exact c.allocated_ne
  · assumption

/-- The call maps this byte. -/
def Covers (c : MapCall) (isLocalMemory : Bool) (address : Nat) : Prop :=
  c.isLocalMemory = isLocalMemory ∧ c.physAddress ≤ address ∧ address < c.physAddress + c.size

instance (c : MapCall) (isLocalMemory : Bool) (address : Nat) :
    Decidable (c.Covers isLocalMemory address) := inferInstanceAs (Decidable (_ ∧ _ ∧ _))

end MapCall

def mapSystemMemoryToPhysicalAddress (tables : TranslationTable) (c : MapCall) : TranslationTable :=
  fun isLocalMemory => if isLocalMemory = c.isLocalMemory then
    mapEntries c.size (tables isLocalMemory) (c.physAddress / 0x1000) c.size c.host
  else tables isLocalMemory

/-- The tables start empty. -/
def mapAll (calls : List MapCall) : TranslationTable :=
  calls.foldl mapSystemMemoryToPhysicalAddress fun _ _ => 0

/-- Where a physical byte is stored: the latest call that maps it decides. -/
def storedAt (calls : List MapCall) (isLocalMemory : Bool) (address : Nat) : Option Nat :=
  (calls.reverse.find? fun c => c.Covers isLocalMemory address).map fun c =>
    c.host + (address - c.physAddress)

/-- The bytes from an address on are stored one behind the other. -/
def StoredFrom (calls : List MapCall) (isLocalMemory : Bool) (address size p : Nat) : Prop :=
  ∀ j, j < size → storedAt calls isLocalMemory (address + j) = some (p + j)

/-- What a translation of `size` bytes at an address reports of the calls so far. -/
structure SoundMaximal (calls : List MapCall) (isLocalMemory : Bool) (address size : Nat)
    (r : Nat × Nat) : Prop where
  null : r.1 = 0 ↔ storedAt calls isLocalMemory address = none
  sound : r.1 ≠ 0 → StoredFrom calls isLocalMemory address (min r.2 size) r.1
  whole : size ≤ r.2 ↔ ∃ p, StoredFrom calls isLocalMemory address size p
  maximal : r.2 < size → storedAt calls isLocalMemory (address + r.2) = none ∨
    0 < r.2 ∧ ∀ p, storedAt calls isLocalMemory (address + r.2 - 1) = some p →
      storedAt calls isLocalMemory (address + r.2) ≠ some (p + 1)

theorem mapEntries_apply {fuel : Nat} {table : Nat → Nat} {entryNumber size p : Nat}
    (enough : size ≤ fuel) (aligned : size % 0x1000 = 0) (n : Nat) :
    mapEntries fuel table entryNumber size p n =
      if entryNumber ≤ n ∧ n < entryNumber + size / 0x1000 then p + 0x1000 * (n - entryNumber)
      else table n := by
  induction fuel generalizing table entryNumber size p with
  | zero =>
    obtain rfl := Nat.le_zero.mp enough
    rw [if_neg (by omega)]
    rfl
  | succ fuel ih =>
    unfold mapEntries
    by_cases hz : size = 0
    · rw [if_pos hz, if_neg (by omega)]
    · rw [if_neg hz, ih (by omega) (by omega)]
      by_cases hfirst : n = entryNumber
      · rw [if_neg (by omega), if_pos hfirst, if_pos (by omega)]
        omega
      · by_cases hlater : entryNumber + 1 ≤ n ∧ n < entryNumber + 1 + (size - 0x1000) / 0x1000
        · rw [if_pos hlater, if_pos (by omega)]
          omega
        · rw [if_neg hlater, if_neg hfirst, if_neg (by omega)]

theorem storedAt_concat (calls : List MapCall) (c : MapCall) (isLocalMemory : Bool)
    (address : Nat) : storedAt (calls ++ [c]) isLocalMemory address =
      if c.Covers isLocalMemory address then some (c.host + (address - c.physAddress))
      else storedAt calls isLocalMemory address := by
  unfold storedAt
  rw [List.reverse_append, List.reverse_singleton, List.singleton_append, List.find?_cons]
  by_cases hcovers : c.Covers isLocalMemory address
  · simp [hcovers]
  · simp [hcovers]

theorem mapAll_concat (calls : List MapCall) (c : MapCall) :
    mapAll (calls ++ [c]) = mapSystemMemoryToPhysicalAddress (mapAll calls) c := by
  unfold mapAll
  rw [List.foldl_append]
  rfl

/-- The tables hold the latest calls. -/
theorem storedAt_eq (calls : List MapCall) (isLocalMemory : Bool) (address : Nat) :
    storedAt calls isLocalMemory address =
      if mapAll calls isLocalMemory (address / 0x1000) = 0 then none
      else some (hostAddress (mapAll calls) isLocalMemory address) := by
  induction calls using List.reverseRecOn with
  | nil => rfl
  | append_singleton calls c ih =>
    have haligned := c.aligned
    have hhost := c.host_ne
    rw [storedAt_concat, mapAll_concat, ih]
    simp only [hostAddress, mapSystemMemoryToPhysicalAddress]
    by_cases hlocal : isLocalMemory = c.isLocalMemory
    · simp only [if_pos hlocal, mapEntries_apply (Nat.le_refl _) haligned.2]
      by_cases hcovers : c.Covers isLocalMemory address
      · obtain ⟨_, hlow, hhigh⟩ := hcovers
        have hpage : c.physAddress / 0x1000 ≤ address / 0x1000 ∧
            address / 0x1000 < c.physAddress / 0x1000 + c.size / 0x1000 := by omega
        rw [if_pos ⟨hlocal.symm, hlow, hhigh⟩, if_pos hpage, if_neg (by omega)]
        congr 1
        omega
      · have hpage : ¬ (c.physAddress / 0x1000 ≤ address / 0x1000 ∧
            address / 0x1000 < c.physAddress / 0x1000 + c.size / 0x1000) := by
          rintro hpage
          apply hcovers
          refine ⟨hlocal.symm, ?_, ?_⟩ <;> omega
        rw [if_neg hcovers, if_neg hpage]
    · have hcovers : ¬ c.Covers isLocalMemory address := fun h => hlocal h.1.symm
      simp only [if_neg hlocal, if_neg hcovers]

/-- The check ends at the size or at the first page that does not follow the one before. -/
theorem continuousSize_stops {table : Nat → Nat} {fuel entryNumber expected size : Nat}
    (enough : size ≤ fuel) :
    let available := continuousSize table fuel entryNumber expected size
    (∀ k, 0x1000 * k < available → table (entryNumber + k) = expected + 0x1000 * k) ∧
      (available < size → available % 0x1000 = 0 ∧
        table (entryNumber + available / 0x1000) ≠ expected + available) := by
  induction fuel generalizing entryNumber expected size with
  | zero =>
    obtain rfl := Nat.le_zero.mp enough
    exact ⟨fun k hk => absurd hk (Nat.not_lt_zero _), fun h => absurd h (Nat.not_lt_zero _)⟩
  | succ fuel ih =>
    unfold continuousSize
    split
    · rename_i hstop
      refine ⟨fun k hk => absurd hk (Nat.not_lt_zero _), fun hpos => ⟨rfl, ?_⟩⟩
      rcases hstop with hz | hnext
      · omega
      · simpa using hnext
    · rename_i hgo
      obtain ⟨hz, hfirst⟩ := not_or.mp hgo
      rw [not_not] at hfirst
      obtain ⟨hpages, hstop⟩ := @ih (entryNumber + 1) (expected + 0x1000) (size - min 0x1000 size)
        (by omega)
      have hle := @continuousSize_le table fuel (entryNumber + 1) (expected + 0x1000)
        (size - min 0x1000 size)
      generalize continuousSize table fuel (entryNumber + 1) (expected + 0x1000)
        (size - min 0x1000 size) = rest at hpages hstop hle
      constructor
      · intro k hk
        cases k with
        | zero => simpa using hfirst
        | succ k =>
          have hpage := hpages k (by omega)
          rw [show entryNumber + (k + 1) = entryNumber + 1 + k by omega, hpage]
          omega
      · intro hshort
        obtain ⟨hmod, hnext⟩ := hstop (by omega)
        refine ⟨by omega, ?_⟩
        rw [show entryNumber + (min 0x1000 size + rest) / 0x1000 =
          entryNumber + 1 + rest / 0x1000 by omega]
        omega

section
variable {calls : List MapCall} {isLocalMemory : Bool} {address : Nat}

theorem translate_unmapped (size : Nat)
    (unmapped : mapAll calls isLocalMemory (address / 0x1000) = 0) :
    translatePhysicalAddressToSystemMemory (mapAll calls) address size isLocalMemory = (0, 0) := by
  unfold translatePhysicalAddressToSystemMemory
  rw [if_neg]
  exact not_not.mpr unmapped

theorem translate_pointer (size : Nat)
    (mapped : mapAll calls isLocalMemory (address / 0x1000) ≠ 0) :
    (translatePhysicalAddressToSystemMemory (mapAll calls) address size isLocalMemory).1 =
      hostAddress (mapAll calls) isLocalMemory address := by
  unfold translatePhysicalAddressToSystemMemory
  rw [if_pos mapped]
  rfl

/-- Everything that is reported as available follows the first byte. -/
theorem translate_stored (size : Nat)
    (mapped : mapAll calls isLocalMemory (address / 0x1000) ≠ 0) :
    StoredFrom calls isLocalMemory address
      (translatePhysicalAddressToSystemMemory (mapAll calls) address size isLocalMemory).2
      (hostAddress (mapAll calls) isLocalMemory address) := by
  intro j hj
  unfold translatePhysicalAddressToSystemMemory at hj
  rw [if_pos mapped] at hj
  simp only at hj
  obtain ⟨hpages, _⟩ := @continuousSize_stops (mapAll calls isLocalMemory)
    (size - min (0x1000 - address % 0x1000) size) (address / 0x1000 + 1)
    (mapAll calls isLocalMemory (address / 0x1000) + 0x1000) _ (Nat.le_refl _)
  simp only [storedAt_eq, hostAddress]
  by_cases hfirst : address % 0x1000 + j < 0x1000
  · rw [show (address + j) / 0x1000 = address / 0x1000 by omega, if_neg mapped]
    congr 1
    omega
  · obtain ⟨k, hk⟩ : ∃ k, (address + j) / 0x1000 = address / 0x1000 + 1 + k :=
      ⟨(address + j) / 0x1000 - address / 0x1000 - 1, by omega⟩
    rw [hk, hpages k (by omega), if_neg (by omega)]
    congr 1
    omega

/-- The first byte that is not available does not follow the one before. -/
theorem translate_stops {size : Nat}
    (mapped : mapAll calls isLocalMemory (address / 0x1000) ≠ 0)
    (short : (translatePhysicalAddressToSystemMemory (mapAll calls) address size
      isLocalMemory).2 < size) :
    0 < (translatePhysicalAddressToSystemMemory (mapAll calls) address size isLocalMemory).2 ∧
      storedAt calls isLocalMemory (address +
        (translatePhysicalAddressToSystemMemory (mapAll calls) address size isLocalMemory).2) ≠
      some (hostAddress (mapAll calls) isLocalMemory address +
        (translatePhysicalAddressToSystemMemory (mapAll calls) address size isLocalMemory).2) := by
  unfold translatePhysicalAddressToSystemMemory at short ⊢
  rw [if_pos mapped] at short ⊢
  obtain ⟨_, hstop⟩ := @continuousSize_stops (mapAll calls isLocalMemory)
    (size - min (0x1000 - address % 0x1000) size) (address / 0x1000 + 1)
    (mapAll calls isLocalMemory (address / 0x1000) + 0x1000) _ (Nat.le_refl _)
  simp only at short ⊢
  generalize continuousSize (mapAll calls isLocalMemory)
    (size - min (0x1000 - address % 0x1000) size) (address / 0x1000 + 1)
    (mapAll calls isLocalMemory (address / 0x1000) + 0x1000)
    (size - min (0x1000 - address % 0x1000) size) = available at short hstop ⊢
  obtain ⟨hmod, hnext⟩ := hstop (by omega)
  refine ⟨by omega, ?_⟩
  have hpage : (address + (0x1000 - address % 0x1000 + available)) / 0x1000 =
      address / 0x1000 + 1 + available / 0x1000 := by omega
  have hoffset : (address + (0x1000 - address % 0x1000 + available)) % 0x1000 = 0 := by omega
  simp only [storedAt_eq, hostAddress, hpage, hoffset]
  split
  · intro h
    cases h
  · intro h
    have hsame := Option.some.inj h
    omega

end

/-- A translation finds the host memory of the latest calls, all of it that follows on. -/
theorem translate_soundMaximal (calls : List MapCall) (isLocalMemory : Bool) (address size : Nat)
    (pos : 0 < size) : SoundMaximal calls isLocalMemory address size
      (translatePhysicalAddressToSystemMemory (mapAll calls) address size isLocalMemory) := by
  by_cases hmapped : mapAll calls isLocalMemory (address / 0x1000) = 0
  · rw [translate_unmapped size hmapped]
    have hnone : storedAt calls isLocalMemory address = none := by
      rw [storedAt_eq, if_pos hmapped]
    constructor
    · exact ⟨fun _ => hnone, fun _ => rfl⟩
    · exact fun h => absurd rfl h
    · constructor
      · intro h
        exact absurd pos (by omega)
      · rintro ⟨p, hall⟩
        have hfirst := hall 0 pos
        rw [Nat.add_zero, hnone] at hfirst
        cases hfirst
    · exact fun _ => Or.inl hnone
  · have hpointer := translate_pointer size hmapped
    have hstored := translate_stored size hmapped
    have hfirst : storedAt calls isLocalMemory address =
        some (hostAddress (mapAll calls) isLocalMemory address) := by
      rw [storedAt_eq, if_neg hmapped]
    have hstops := @translate_stops calls isLocalMemory address size hmapped
    generalize translatePhysicalAddressToSystemMemory (mapAll calls) address size isLocalMemory = r
      at hpointer hstored hstops ⊢
    constructor
    · constructor
      · intro hnull
        rw [hpointer, hostAddress] at hnull
        omega
      · intro hnone
        rw [hfirst] at hnone
        cases hnone
    · intro _ j hj
      rw [hpointer]
      exact hstored j (by omega)
    · constructor
      · exact fun hwhole => ⟨_, fun j hj => hstored j (by omega)⟩
      · rintro ⟨p, hall⟩
        by_contra hshort
        have hp : p = hostAddress (mapAll calls) isLocalMemory address := by
          have hzero := hall 0 pos
          rw [Nat.add_zero, hfirst] at hzero
          simpa using hzero.symm
        refine (hstops (by omega)).2 ?_
        rw [← hp]
        exact hall _ (by omega)
    · intro hshort
      obtain ⟨hpos, hnext⟩ := hstops hshort
      refine Or.inr ⟨hpos, fun p hbefore hafter => hnext ?_⟩
      have hlast := hstored (r.2 - 1) (by omega)
      rw [← Nat.add_sub_assoc hpos, hbefore] at hlast
      have hp := Option.some.inj hlast
      rw [hafter]
      congr 1
      omega

/-- Two calls on neighbouring pages; the second maps its page elsewhere in the host. -/
theorem translate_soundMaximal_gap :
    SoundMaximal [⟨0x1000, 0x2000, false, 0, 0x50000, by decide, by decide⟩,
        ⟨0x2000, 0x1000, false, 0x90000, 0x1000, by decide, by decide⟩] false 0x1800 0x1000
      (0x50800, 0x800) :=
  translate_soundMaximal _ false 0x1800 0x1000 (by decide)

end HostTranslation
