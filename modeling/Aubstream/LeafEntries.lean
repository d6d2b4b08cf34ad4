import Aubstream.MemoryBlocks

/-!
# What the entry of a page says

The hardware takes from an entry of a page where the page lies and in which memory.
The bits that the products add for cacheability stay out of both.
-/

namespace LeafEntries
open EntryBits PathTree PageNodes TreeShape Translation HardwareWalk AubPackets MemoryBlocks

/-- The memory that a page is in. -/
def leafRegion (entry : Nat) : Region :=
  if entry.testBit localMemoryBit then .localMemory else .systemMemory

/-- The address of a page, in the bits up to bit 51. -/
def pageFrame (pageSize entry : Nat) : Nat := entry % 2 ^ 52 / pageSize * pageSize

/-- Extra bits are below the bit for local memory or above the address. -/
def ExtraBitsApart (gpu : Gpu) : Prop :=
  ∀ params, gpu.getPPGTTExtraEntryBits params % 2 ^ 52 < 2 ^ localMemoryBit

/-! ### Products -/

section Products

def patIndexBit0 : Nat := toBitValue 3
def patIndexBit1 : Nat := toBitValue 4
def patIndexBit2 : Nat := toBitValue 7
def patIndexBit3 : Nat := toBitValue 62
def patIndexBit4 : Nat := toBitValue 61

def patIndex0 : Nat := 0
def patIndex2 : Nat := patIndexBit1
def patIndex3 : Nat := patIndexBit1 ||| patIndexBit0
def patIndex9 : Nat := patIndexBit3 ||| patIndexBit0
def patIndex12 : Nat := patIndexBit3 ||| patIndexBit2
def patIndex18 : Nat := patIndexBit4 ||| patIndexBit1

/-- `Gpu`; Gen12LP has no other. -/
def gpuExtraEntryBits (_ : AdditionalParams) : Nat := 0

def gpuDg2ExtraEntryBits (_ : AdditionalParams) : Nat := toBitValue atomicEnableBit

def gpuMtlExtraEntryBits (params : AdditionalParams) : Nat :=
  toBitValue atomicEnableBit ||| if params.uncached then patIndex2 else patIndex0

def gpuXeHpcCoreExtraEntryBits (params : AdditionalParams) : Nat :=
  toBitValue atomicEnableBit ||| if params.uncached then patIndex0 else patIndex3

/-- `GpuXe2HpgCore` and `GpuXe3Core`. -/
def gpuXe2HpgCoreExtraEntryBits (params : AdditionalParams) : Nat :=
  toBitValue atomicEnableBit |||
    if params.uncached then if params.compressionEnabled then patIndex12 else patIndex3
    else if params.compressionEnabled then patIndex9 else patIndex0

/-- With the setting `AppTransientForUncompressedCachedPages`. -/
def gpuXe3pCoreExtraEntryBits (appTransient : Bool) (params : AdditionalParams) : Nat :=
  toBitValue atomicEnableBit |||
    if params.uncached then if params.compressionEnabled then patIndex12 else patIndex3
    else if params.compressionEnabled then patIndex9 else if appTransient then patIndex18 else patIndex0

/-- `getPPGTTExtraEntryBits` of the products. -/
def products : List (AdditionalParams → Nat) :=
  [gpuExtraEntryBits, gpuDg2ExtraEntryBits, gpuMtlExtraEntryBits, gpuXeHpcCoreExtraEntryBits,
    gpuXe2HpgCoreExtraEntryBits, gpuXe3pCoreExtraEntryBits false, gpuXe3pCoreExtraEntryBits true]

theorem extraBitsApart_products {gpu : Gpu} (known : gpu.getPPGTTExtraEntryBits ∈ products) :
    ExtraBitsApart gpu := by
  have each : ∀ bits ∈ products, ∀ uncached compressionEnabled : Bool,
      bits ⟨compressionEnabled, uncached⟩ % 2 ^ 52 < 2 ^ localMemoryBit := by decide +kernel
  rintro ⟨compressionEnabled, uncached⟩
  exact each _ known uncached compressionEnabled

end Products

section Leaves
variable {gpu : Gpu} {m : PageNode}

/-- Beside the address a leaf's entry has only flags, and the bit of its memory. -/
theorem leaf_value (apart : ExtraBitsApart gpu) (leaf : IsLeaf m.kind) :
    ∃ flags, m.getEntryValue gpu = wrap64 (m.physicalAddress ||| flags) ∧ flags % 2 ^ 52 < 2 ^ 12 ∧
      flags.testBit localMemoryBit = m.isLocalMemory := by
  have extra := apart m.additionalAllocParams
  have clear : (gpu.getPPGTTExtraEntryBits m.additionalAllocParams).testBit localMemoryBit = false := by
    have low : ((gpu.getPPGTTExtraEntryBits m.additionalAllocParams) % 2 ^ 52).testBit localMemoryBit =
        false := Nat.testBit_lt_two_pow extra
    rw [Nat.testBit_mod_two_pow] at low
    simpa [localMemoryBit] using low
  have small : (gpu.getPPGTTExtraEntryBits m.additionalAllocParams) % 2 ^ 52 < 2 ^ 12 :=
    Nat.lt_trans extra (by decide)
  have either (on : Bool) (bit : Nat) (low : bit < 12) : PageNode.bitIf on bit % 2 ^ 52 < 2 ^ 12 := by
    cases on with
    | false => exact (by decide : 0 % 2 ^ 52 < 2 ^ 12)
    | true =>
      exact Nat.lt_of_le_of_lt (Nat.mod_le _ _) (Nat.pow_lt_pow_right (by decide) low)
  have sum {x y : Nat} (hx : x % 2 ^ 52 < 2 ^ 12) (hy : y % 2 ^ 52 < 2 ^ 12) :
      (x ||| y) % 2 ^ 52 < 2 ^ 12 := by
    rw [Nat.or_mod_two_pow]
    exact Nat.or_lt_two_pow hx hy
  have here : (PageNode.bitIf m.isLocalMemory localMemoryBit).testBit localMemoryBit =
      m.isLocalMemory := by
    cases m.isLocalMemory <;> decide
  have present : toBitValue presentBit % 2 ^ 52 < 2 ^ 12 := by decide
  have writable : toBitValue writableBit % 2 ^ 52 < 2 ^ 12 := by decide
  have large : toBitValue largePageSizeBit % 2 ^ 52 < 2 ^ 12 := by decide
  have others : (toBitValue presentBit).testBit localMemoryBit = false ∧
      (toBitValue writableBit).testBit localMemoryBit = false ∧
      (toBitValue largePageSizeBit).testBit localMemoryBit = false ∧
      (PageNode.bitIf m.ps64 ps64Bit).testBit localMemoryBit = false := by
    cases m.ps64 <;> decide
  obtain ⟨presentClear, writableClear, largeClear, ps64Clear⟩ := others
  have locality := either m.isLocalMemory localMemoryBit (by decide)
  have ps64 := either m.ps64 ps64Bit (by decide)
  cases kind : m.kind with
  | memory =>
    refine ⟨_, by rw [PageNode.getEntryValue, kind], ?_, ?_⟩
    · exact sum (sum (sum (sum writable present) locality) ps64) small
    · simp only [Nat.testBit_or, writableClear, presentClear, here, ps64Clear, clear, Bool.false_or,
        Bool.or_false]
  | page2MB =>
    refine ⟨_, by rw [PageNode.getEntryValue, kind], ?_, ?_⟩
    · exact sum (sum (sum (sum large writable) present) locality) small
    · simp only [Nat.testBit_or, largeClear, writableClear, presentClear, here, clear, Bool.false_or,
        Bool.or_false]
  | directory => rw [kind] at leaf; cases leaf
  | pte k => rw [kind] at leaf; cases leaf

/-- The hardware finds a page that is aligned to its size where the table has put it. -/
theorem leaf_decoded (apart : ExtraBitsApart gpu) (leaf : IsLeaf m.kind) {pageSize : Nat}
    (whole : 4096 ∣ pageSize) (aligned : pageSize ∣ m.physicalAddress) (small : m.physicalAddress < 2 ^ 52) :
    pageFrame pageSize (m.getEntryValue gpu) = m.physicalAddress ∧
      leafRegion (m.getEntryValue gpu) = regionOf m.memoryBank := by
  obtain ⟨flags, value, low, locality⟩ := leaf_value apart leaf
  obtain ⟨q, hq⟩ := whole.trans aligned
  constructor
  · have sum : m.getEntryValue gpu % 2 ^ 52 = m.physicalAddress + flags % 2 ^ 52 := by
      rw [value, wrap64, Nat.mod_mod_of_dvd _ (by decide : 2 ^ 52 ∣ 2 ^ 64), Nat.or_mod_two_pow,
        Nat.mod_eq_of_lt small]
      exact aligned_or (whole.trans aligned) low
    obtain ⟨k, hk⟩ := aligned
    obtain ⟨j, hj⟩ := whole
    rw [pageFrame, sum, hk]
    cases Nat.eq_zero_or_pos pageSize with
    | inl zero =>
      rw [zero]
      simp
    | inr pos =>
      have below : flags % 2 ^ 52 < pageSize := by
        have := Nat.le_of_dvd pos ⟨j, hj⟩
        omega
      rw [Nat.mul_add_div pos, Nat.div_eq_of_lt below, Nat.add_zero, Nat.mul_comm]
  · have bit : (m.getEntryValue gpu).testBit localMemoryBit = m.isLocalMemory := by
      have none : m.physicalAddress.testBit localMemoryBit = false := by
        rw [hq, show 4096 = 2 ^ 12 from rfl, Nat.testBit_two_pow_mul]
        simp [localMemoryBit]
      rw [value, wrap64, Nat.testBit_mod_two_pow, Nat.testBit_or, none, Bool.false_or, locality]
      simp [localMemoryBit]
    rw [leafRegion, bit]
    rfl

end Leaves

end LeafEntries
