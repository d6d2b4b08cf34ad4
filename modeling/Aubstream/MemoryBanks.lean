import Aubstream.EntryBits

/-!
# Colouring a range over memory banks
-/

namespace MemoryBanks
open EntryBits

/-- `do { if (mask & memoryBanks) push(mask); mask <<= 1; } while (mask <= memoryBanks)`
in 32-bit arithmetic. `none` is a loop that has not ended within the fuel. -/
def singleBanksFrom (memoryBanks : Nat) : Nat → Nat → Option (List Nat)
  | 0, _ => none
  | fuel + 1, mask =>
    let next := mask * 2 % 2 ^ 32
    let here := if mask &&& memoryBanks ≠ 0 then [mask] else []
    if next ≤ memoryBanks then (singleBanksFrom memoryBanks fuel next).map (here ++ ·)
    else some here

/-- Below bit 31 the loop ends, whatever the mask. -/
theorem singleBanksFrom_isSome {memoryBanks : Nat} (hbanks : memoryBanks < 2 ^ 31) (k : Nat) :
    ∀ fuel, 31 < k + fuel → k < 31 → (singleBanksFrom memoryBanks fuel (2 ^ k)).isSome = true := by
  intro fuel
  induction fuel generalizing k with
  | zero => omega
  | succ fuel ih =>
    intro hfuel hk
    have hnext : 2 ^ k * 2 % 2 ^ 32 = 2 ^ (k + 1) := by
      rw [← Nat.pow_succ]
      exact Nat.mod_eq_of_lt (Nat.pow_lt_pow_right (by decide) (by omega))
    simp only [singleBanksFrom, hnext]
    split
    · rename_i hle
      have hlt : k + 1 < 31 := (Nat.pow_lt_pow_iff_right (by decide)).mp (Nat.lt_of_le_of_lt hle hbanks)
      rw [Option.isSome_map]
      exact ih (k + 1) (by omega) hlt
    · rfl

/-- With bit 31 set every shifted mask is small enough for another round. -/
theorem singleBanksFrom_none {memoryBanks : Nat} (hbanks : 2 ^ 31 ≤ memoryBanks) (fuel mask : Nat)
    (hmask : mask = 0 ∨ ∃ k, k < 32 ∧ mask = 2 ^ k) : singleBanksFrom memoryBanks fuel mask = none := by
  induction fuel generalizing mask with
  | zero => rfl
  | succ fuel ih =>
    have hnext : mask * 2 % 2 ^ 32 ≤ 2 ^ 31 ∧
        (mask * 2 % 2 ^ 32 = 0 ∨ ∃ k, k < 32 ∧ mask * 2 % 2 ^ 32 = 2 ^ k) := by
      rcases hmask with rfl | ⟨k, hk, rfl⟩
      · exact ⟨by decide, Or.inl rfl⟩
      · by_cases hlast : k = 31
        · subst hlast
          exact ⟨by decide, Or.inl rfl⟩
        · have hpow : 2 ^ k * 2 % 2 ^ 32 = 2 ^ (k + 1) := by
            rw [← Nat.pow_succ]
            exact Nat.mod_eq_of_lt (Nat.pow_lt_pow_right (by decide) (by omega))
          rw [hpow]
          exact ⟨Nat.pow_le_pow_right (by decide) (by omega), Or.inr ⟨k + 1, by omega, rfl⟩⟩
    simp only [singleBanksFrom, if_pos (Nat.le_trans hnext.1 hbanks), ih _ hnext.2, Option.map_none]

/-- The loop of the constructor finds the masks of the set bits from a bit on. -/
theorem singleBanksFrom_eq {memoryBanks : Nat} (hbanks : memoryBanks < 2 ^ 31) {fuel k : Nat}
    {banks : List Nat} (hk : k < 31)
    (h : singleBanksFrom memoryBanks fuel (2 ^ k) = some banks) :
    banks = ((List.range' k (31 - k)).filter memoryBanks.testBit).map (2 ^ ·) := by
  induction fuel generalizing k banks with
  | zero => cases h
  | succ fuel ih =>
    have hnext : 2 ^ k * 2 % 2 ^ 32 = 2 ^ (k + 1) := by
      rw [← Nat.pow_succ]
      exact Nat.mod_eq_of_lt (Nat.pow_lt_pow_right (by decide) (by omega))
    have hbit : (2 ^ k &&& memoryBanks ≠ 0) ↔ memoryBanks.testBit k = true := by
      rw [Nat.two_pow_and]
      have hpos := Nat.two_pow_pos k
      cases memoryBanks.testBit k <;> simp
    rw [show 31 - k = (31 - (k + 1)) + 1 by omega, List.range'_succ, List.filter_cons]
    have here : ∀ rest, (if 2 ^ k &&& memoryBanks ≠ 0 then [2 ^ k] else []) ++
        List.map (2 ^ ·) rest =
          List.map (2 ^ ·) (if memoryBanks.testBit k = true then k :: rest else rest) := by
      intro rest
      simp only [hbit]
      split <;> rfl
    simp only [singleBanksFrom, hnext] at h
    split at h
    · rename_i hle
      have hlt : k + 1 < 31 :=
        (Nat.pow_lt_pow_iff_right (by decide)).mp (Nat.lt_of_le_of_lt hle hbanks)
      obtain ⟨rest, hrest, rfl⟩ := Option.map_eq_some_iff.mp h
      rw [ih hlt hrest, here]
    · -- no bit is left
      rename_i hle
      obtain rfl := Option.some.inj h
      have hnone : (List.range' (k + 1) (31 - (k + 1))).filter memoryBanks.testBit = [] := by
        apply List.filter_eq_nil_iff.mpr
        intro j hj
        rw [List.mem_range'_1] at hj
        rw [Nat.testBit_eq_false_of_lt]
        · exact Bool.false_ne_true
        · exact Nat.lt_of_lt_of_le (Nat.lt_of_not_le hle) (Nat.pow_le_pow_right (by decide) hj.1)
      rw [hnone, ← here, List.map_nil, List.append_nil]

/-- Below bit 31 a mask has no other set bits. -/
theorem lt_of_testBit {memoryBanks k : Nat} (hbanks : memoryBanks < 2 ^ 31)
    (hk : memoryBanks.testBit k = true) : k < 31 := by
  by_contra hge
  rw [Nat.testBit_eq_false_of_lt] at hk
  · cases hk
  · exact Nat.lt_of_lt_of_le hbanks (Nat.pow_le_pow_right (by decide) (by omega))

/-- The one-bit masks of the set bits, in ascending order and each of them once. -/
structure SplitsMask (memoryBanks : Nat) (singleBanks : List Nat) : Prop where
  ascending : singleBanks.Pairwise (· < ·)
  member : ∀ bank, bank ∈ singleBanks ↔ ∃ k, memoryBanks.testBit k = true ∧ bank = 2 ^ k

theorem singleBanksFrom_splits {memoryBanks rounds : Nat} {singleBanks : List Nat}
    (hbanks : memoryBanks < 2 ^ 31) (h : singleBanksFrom memoryBanks rounds 1 = some singleBanks) :
    SplitsMask memoryBanks singleBanks := by
  have hall := @singleBanksFrom_eq memoryBanks hbanks rounds 0 singleBanks (by decide) h
  rw [← List.range_eq_range'] at hall
  subst hall
  constructor
  · rw [List.pairwise_map]
    apply List.Pairwise.imp _ (List.Pairwise.filter _ List.pairwise_lt_range)
    intro i j hij
    exact Nat.pow_lt_pow_right (by decide) hij
  · intro bank
    simp only [List.mem_map, List.mem_filter, List.mem_range]
    constructor
    · rintro ⟨k, ⟨_, hk⟩, rfl⟩
      exact ⟨k, hk, rfl⟩
    · rintro ⟨k, hk, rfl⟩
      exact ⟨k, ⟨lt_of_testBit hbanks hk, hk⟩, rfl⟩

structure MemoryBankHelper where
  initialGfxAddress : Nat
  colorSize : Nat
  singleBanks : List Nat
  deriving DecidableEq, Repr

/-- The constructor. A mask below bit 31 is passed within 33 rounds; with bit 31 set the
mask is shifted out to 0 and the loop never ends. -/
def MemoryBankHelper.new? (memoryBanks initialGfxAddress size : Nat) : Option MemoryBankHelper :=
  (singleBanksFrom memoryBanks 33 1).map fun singleBanks =>
    ⟨initialGfxAddress, if singleBanks.length = 0 then 1 else size / singleBanks.length,
      singleBanks⟩

theorem MemoryBankHelper.new?_isSome {memoryBanks : Nat} (hbanks : memoryBanks < 2 ^ 31)
    (initialGfxAddress size : Nat) :
    (MemoryBankHelper.new? memoryBanks initialGfxAddress size).isSome = true := by
  rw [MemoryBankHelper.new?, Option.isSome_map]
  exact singleBanksFrom_isSome hbanks 0 33 (by omega) (by omega)

theorem MemoryBankHelper.lt_of_new? {memoryBanks initialGfxAddress size : Nat}
    {h : MemoryBankHelper} (done : MemoryBankHelper.new? memoryBanks initialGfxAddress size = some h) :
    memoryBanks < 2 ^ 31 := by
  by_contra hbanks
  rw [MemoryBankHelper.new?, singleBanksFrom_none (by omega) 33 1 (Or.inr ⟨0, by omega, rfl⟩)] at done
  cases done

def MemoryBankHelper.getMemoryBank (h : MemoryBankHelper) (gfxAddress : Nat) : Nat :=
  match h.singleBanks with
  | [] => 0
  | [bank] => bank
  | banks =>
    let diff := wrap64 (gfxAddress + (2 ^ 64 - h.initialGfxAddress))
    banks.getD (diff / h.colorSize % banks.length) 0

/-- A request for local memory is given local memory at every address. -/
theorem MemoryBankHelper.getMemoryBank_ne_zero {memoryBanks initialGfxAddress size : Nat}
    {h : MemoryBankHelper} (done : MemoryBankHelper.new? memoryBanks initialGfxAddress size = some h)
    (hne : memoryBanks ≠ 0) (gfxAddress : Nat) : h.getMemoryBank gfxAddress ≠ 0 := by
  have hbanks := lt_of_new? done
  obtain ⟨banks, hloop, rfl⟩ := Option.map_eq_some_iff.mp done
  have splits := singleBanksFrom_splits hbanks hloop
  have hall : ∀ b ∈ banks, b ≠ 0 := by
    intro b hb
    obtain ⟨k, _, rfl⟩ := (splits.member b).mp hb
    exact (Nat.two_pow_pos k).ne'
  have hsome : banks ≠ [] := by
    obtain ⟨k, hk⟩ := Nat.exists_testBit_of_ne_zero hne
    exact List.ne_nil_of_mem ((splits.member _).mpr ⟨k, hk, rfl⟩)
  unfold getMemoryBank
  match banks, hsome, hall with
  | [bank], _, hall => exact hall bank (List.mem_singleton_self bank)
  | first :: second :: rest, _, hall =>
    have hlen : 0 < (first :: second :: rest).length := Nat.succ_pos _
    simp only
    rw [List.getD_eq_getElem _ _ (Nat.mod_lt _ hlen)]
    exact hall _ (List.getElem_mem _)

/-- The constructor ends exactly below bit 31, and then with the masks of the set bits. -/
theorem MemoryBankHelper.new?_splits_iff (memoryBanks : UInt32) :
    (∃ singleBanks, (∃ rounds, singleBanksFrom memoryBanks.toNat rounds 1 = some singleBanks) ∧
      (∀ initialGfxAddress size, ∃ helper, MemoryBankHelper.new? memoryBanks.toNat initialGfxAddress
        size = some helper ∧ helper.singleBanks = singleBanks) ∧
      SplitsMask memoryBanks.toNat singleBanks) ↔ memoryBanks.toNat < 2 ^ 31 := by
  constructor
  · rintro ⟨singleBanks, ⟨rounds, hloop⟩, _⟩
    by_contra hbanks
    have endless := singleBanksFrom_none (Nat.le_of_not_lt hbanks) rounds 1 (Or.inr ⟨0, by omega, rfl⟩)
    rw [endless] at hloop
    cases hloop
  · intro hbanks
    have ends := singleBanksFrom_isSome hbanks 0 33 (by omega) (by omega)
    obtain ⟨singleBanks, hloop⟩ := Option.isSome_iff_exists.mp ends
    refine ⟨singleBanks, ⟨33, hloop⟩, ?_, singleBanksFrom_splits hbanks hloop⟩
    intro initialGfxAddress size
    exact ⟨_, congrArg (Option.map _) hloop, rfl⟩

/-- `MEMORY_BANK_31`: the mask that is shifted out is never above the banks. -/
theorem MemoryBankHelper.not_new?_splits :
    ¬ ∀ memoryBanks : UInt32, ∃ singleBanks,
      (∃ rounds, singleBanksFrom memoryBanks.toNat rounds 1 = some singleBanks) ∧
        SplitsMask memoryBanks.toNat singleBanks := by
  intro hall
  obtain ⟨singleBanks, ⟨rounds, hloop⟩, _⟩ := hall 2147483648
  rw [singleBanksFrom_none (by decide) rounds 1 (Or.inr ⟨0, by omega, rfl⟩)] at hloop
  cases hloop

end MemoryBanks
