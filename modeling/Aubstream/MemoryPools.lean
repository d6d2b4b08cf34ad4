import Aubstream.AubManager
import Aubstream.GroupSubmission
import Aubstream.StolenMemory

/-!
# Registers of the memory layout

The tile ranges tell each device which part of local memory is its own, and the
default memory pools tell it where its stolen memory is. Both are written in one
loop over the devices, with variables that go from one device to the next.
-/

namespace MemoryPools
open EntryBits GroupSubmission StolenMemory
open AubManager (mmioDeviceOffset wrap32)

def GB : Nat := 1024 * MB

section
variable (gb : Nat)

/-- `value` of one device. -/
def tileRangeWord (base : Nat) : Nat := wrap32 (gb <<< 8 ||| base <<< 1 ||| 1)

/-- The loop of `setMemoryBankSize`, with the number of devices that are left. -/
def tileRangeLoop : Nat → Nat → Nat → List MMIOWrite
  | 0, _, _ => []
  | left + 1, base, offset => (offset, tileRangeWord gb base) ::
      tileRangeLoop left (wrap64 (base + gb)) (wrap32 (offset + 4))

end

/-- `GpuXeCore::setMemoryBankSize`, which `GpuXe3pCore` inherits. -/
def setMemoryBankSize (deviceCount memoryBankSize : Nat) : List MMIOWrite :=
  if deviceCount = 1 then [] else tileRangeLoop (memoryBankSize / GB) deviceCount 0 0x4900

/-- What it asserts about the bank. With one device it has returned before. -/
def BankAsserted (deviceCount memoryBankSize : Nat) : Prop :=
  deviceCount ≠ 1 → 0 < memoryBankSize / GB ∧ memoryBankSize / GB < 128

/-- `countBits`, of a `uint16_t`. -/
def countBits (v : Nat) : Nat :=
  let r := ((v >>> 1) &&& 0x5555) + (v &&& 0x5555)
  let r := ((r >>> 2) &&& 0x3333) + (r &&& 0x3333)
  let r := ((r >>> 4) &&& 0x0f0f) + (r &&& 0x0f0f)
  let r := ((r >>> 8) &&& 0x0ff) + (r &&& 0x0ff)
  r &&& 0xff

/-- The banks in register `0x9118`. -/
def numL3Banks (val : Nat) : Nat := countBits (val >>> 16 % 2 ^ 16)

/-- The code of the first entry with the size. -/
def sizeToCode (mappings : List (Nat × Nat)) (size : Nat) : Nat :=
  ((mappings.find? fun mapping => mapping.2 == size).map Prod.fst).getD 0xff

def sizeToGMS (dataStolenMemorySize : Nat) : Nat :=
  sizeToCode (List.zip [0x00, 0x01, 0x02, 0x03, 0x04, 0xf0, 0xf1, 0xf2, 0xf3, 0xf4, 0xf5, 0xf6, 0xf7,
    0xf8, 0xf9, 0xfa, 0xfb, 0xfc, 0xfd, 0xfe] sizeToGMSMappings) dataStolenMemorySize

def sizeToPAVPC (wopcmMemorySize : Nat) : Nat :=
  sizeToCode (List.zip [0x0, 0x1, 0x2, 0x3, 0x5, 0x6] sizeToPAVPCMappings) wopcmMemorySize

/-- One thing that `initializeDefaultMemoryPools` does: a register, or a call of
`initializeFlatCcsBaseAddressMmio` or `initializeTileRangeMmio`. -/
inductive PoolStep where
  | mmio (write : MMIOWrite)
  | flatCcs (deviceIndex flatCcsBaseAddress size : Nat)
  | tileRange (deviceIndex lmemBaseAddress lmemSize : Nat)
  deriving DecidableEq

/-- The parts of `GpuXe2HpgCore`, `GpuXe3Core` and `GpuXe3pCore` that differ here: how the size of the
WOPCM is coded in its register, and which local banks there are. -/
structure PoolTraits where
  wopcmSizeBits : Nat → Nat
  isMemorySupported : Nat → Bool

/-- Also `GpuXe3Core`; its products and Lunar Lake have no local bank. -/
def xe2Traits (localMemory : Bool) : PoolTraits := ⟨fun _ => 0x180, fun i => localMemory && i == 0⟩

def xe3pTraits (localBanks : Nat) : PoolTraits :=
  ⟨fun wopcmSize => sizeToPAVPC wopcmSize <<< 7, fun i => decide (i < localBanks)⟩

section
variable (p : Product) (o : AubManagerOptions)

/-- The WOPCM base that is programmed, the same for each device. -/
def wopcmBase : Nat := wrap64 (o.memoryBankSize + (2 ^ 64 - getWOPCMSize p o))

variable (t : PoolTraits)

/-- The registers of one device before its flat CCS. -/
def poolWrites (i : Nat) : List MMIOWrite :=
  let register := fun offset => wrap32 (i * mmioDeviceOffset + offset)
  let dsm := getDSMBaseAddress p o i
  let rc6Base := wrap64 (o.memoryBankSize + (2 ^ 64 - 64 * 1024))
  [(register 0x1080c0, wrap32 dsm), (register 0x1080c4, wrap32 (dsm >>> 32)),
    (register 0x108040, 0xc0 ||| sizeToGMS (getDSMSize p o) <<< 8),
    (register 0xC050, 0x1f0000), (register 0xC340, 0x600002),
    (register 0x1082C0, wrap32 (wopcmBase p o ||| 0x5 ||| t.wopcmSizeBits (getWOPCMSize p o))),
    (register 0x1082C4, wrap32 (wopcmBase p o >>> 32)),
    (register 0xd48, wrap32 (rc6Base ||| 1)), (register 0xd4c, wrap32 (rc6Base >>> 32)),
    (register 0xd40, 0x80000001), (register 0x1083a0, 8 <<< 8 ||| 1)]

/-- `val` is what `readMMIO(0x9118)` gives. -/
def poolLoop (val : Nat) : List Nat → Nat → List PoolStep
  | [], _ => []
  | i :: devices, flatCcsSize =>
    (poolWrites p o t i).map .mmio ++
      if o.mode = .aubFile then poolLoop val devices flatCcsSize
      else if t.isMemorySupported i then
        if numL3Banks val = 0 then []
        else .flatCcs i (getBaseAddress p o i / numL3Banks val) (flatCcsSize / numL3Banks val) ::
          poolLoop val devices (flatCcsSize / numL3Banks val)
      else .flatCcs i (getBaseAddress p o i) flatCcsSize :: poolLoop val devices flatCcsSize

/-- `initializeDefaultMemoryPools` of the three classes. -/
def initializeDefaultMemoryPools (val : Nat) : List PoolStep :=
  if o.mode = .tbxShm3 then
    (List.range o.devicesCount).flatMap fun i =>
      .flatCcs i 0 0 :: if t.isMemorySupported i then [.tileRange i 0 0] else []
  else poolLoop p o t val (List.range o.devicesCount) (o.memoryBankSize / 512)

end

/-- What a step passes to `initializeFlatCcsBaseAddressMmio`. -/
def PoolStep.flatCcsCall : PoolStep → Option (Nat × Nat × Nat)
  | .flatCcs deviceIndex flatCcsBaseAddress size => some (deviceIndex, flatCcsBaseAddress, size)
  | _ => none

def flatCcsCalls (steps : List PoolStep) : List (Nat × Nat × Nat) :=
  steps.filterMap PoolStep.flatCcsCall

/-- `initializeFlatCcsBaseAddressMmio` of `GpuXe2HpgCore`, `GpuXe3Core` and `GpuNvlp`. -/
def initializeFlatCcsBaseAddressMmio (deviceIndex flatCcsBaseAddress size : Nat) :
    List MMIOWrite :=
  let register := fun offset => wrap32 (deviceIndex * mmioDeviceOffset + offset)
  let flatCcsSize := min (wrap32 (size / (128 * 1024))) 0x3FF
  let enable := if 0 < flatCcsSize then 1 else 0
  let mmioLow := wrap32 flatCcsBaseAddress ||| enable
  let mmioHigh := wrap32 (flatCcsBaseAddress >>> 32) ||| flatCcsSize <<< 14
  [(register 0x8800, mmioLow), (register 0x1344b0, mmioLow), (register 0x8804, mmioHigh),
    (register 0x1344b4, mmioHigh), (register 0x4910, enable), (register 0x384910, enable)]

/-- The fields of a tile-range word. -/
structure TileRange (deviceIndex memoryBankSize word : Nat) : Prop where
  base : word / 2 % 2 ^ 7 = deviceIndex * memoryBankSize / GB
  size : word / 2 ^ 8 = memoryBankSize / GB

/-- The registers of all devices hold the layout of their own device. -/
structure LayoutDecodes (p : Product) (o : AubManagerOptions) (t : PoolTraits) (val : Nat) :
    Prop where
  tileRange : o.devicesCount ≠ 1 → ∀ i, i < o.devicesCount →
    ∃ word, (setMemoryBankSize o.devicesCount o.memoryBankSize)[i]? = some (wrap32 (0x4900 + 4 * i), word) ∧
      TileRange i o.memoryBankSize word
  flatCcs : ∀ i, i < o.devicesCount →
    (flatCcsCalls (initializeDefaultMemoryPools p o t val))[i]? =
        some (i, getBaseAddress p o i / numL3Banks val, o.memoryBankSize / 512 / numL3Banks val) ∧
      getBaseAddress p o i / numL3Banks val % 64 = 0

/-- The base above the enable bit. -/
theorem baseBits (base : Nat) : (base <<< 1 ||| 1) = 2 * base + 1 := by
  rw [Nat.shiftLeft_eq, Nat.mul_comm]
  exact (Nat.two_pow_add_eq_or_of_lt (by decide : 1 < 2 ^ 1) base).symm

theorem tileRangeWord_base (gb base : Nat) :
    tileRangeWord gb base / 2 % 2 ^ 7 = base % 2 ^ 7 := by
  have hgb : gb <<< 8 % 2 ^ 8 = 0 := by
    rw [Nat.shiftLeft_eq]
    omega
  have hlow : tileRangeWord gb base % 2 ^ 8 = (2 * base + 1) % 2 ^ 8 := by
    unfold tileRangeWord wrap32
    rw [Nat.mod_mod_of_dvd _ (by decide), Nat.or_assoc, Nat.or_mod_two_pow, hgb, Nat.zero_or,
      baseBits]
  omega

/-- A base of seven bits stays out of the size. -/
theorem tileRangeWord_size {gb base : Nat} (hgb : gb < 2 ^ 7) (h : base < 2 ^ 7) :
    tileRangeWord gb base / 2 ^ 8 = gb := by
  have hword : (gb <<< 8 ||| (2 * base + 1)) = 2 ^ 8 * gb + (2 * base + 1) := by
    rw [Nat.shiftLeft_eq, Nat.mul_comm]
    exact (Nat.two_pow_add_eq_or_of_lt (by omega) gb).symm
  unfold tileRangeWord wrap32
  rw [Nat.or_assoc, baseBits, hword]
  omega

/-- The loop has come to a base and an offset, and goes on from there. -/
theorem tileRangeLoop_get (gb : Nat) {left i : Nat} (h : i < left) (base offset : Nat) :
    (tileRangeLoop gb left (wrap64 base) (wrap32 offset))[i]? =
      some (wrap32 (offset + 4 * i), tileRangeWord gb (wrap64 (base + i * gb))) := by
  induction left generalizing i base offset with
  | zero => omega
  | succ left ih =>
    have hbase : wrap64 (wrap64 base + gb) = wrap64 (base + gb) := Nat.mod_add_mod _ _ _
    have hoffset : wrap32 (wrap32 offset + 4) = wrap32 (offset + 4) := Nat.mod_add_mod _ _ _
    cases i with
    | zero => simp only [tileRangeLoop, List.getElem?_cons_zero, Nat.mul_zero, Nat.zero_mul,
        Nat.add_zero]
    | succ i =>
      simp only [tileRangeLoop, List.getElem?_cons_succ, hbase, hoffset]
      rw [ih (by omega), show offset + 4 + 4 * i = offset + 4 * (i + 1) by omega,
        show base + gb + i * gb = base + (i + 1) * gb by rw [Nat.succ_mul]; omega]

theorem setMemoryBankSize_get {deviceCount i : Nat} (several : deviceCount ≠ 1)
    (h : i < deviceCount) (memoryBankSize : Nat) :
    (setMemoryBankSize deviceCount memoryBankSize)[i]? = some (wrap32 (0x4900 + 4 * i),
      tileRangeWord (memoryBankSize / GB) (wrap64 (i * (memoryBankSize / GB)))) := by
  unfold setMemoryBankSize
  rw [if_neg several]
  have hget := tileRangeLoop_get (memoryBankSize / GB) h 0 0x4900
  rwa [Nat.zero_add] at hget

/-- A base in GB is a multiple of the size in GB until the rest of the bank adds up to one. -/
theorem mul_div_GB (i memoryBankSize : Nat) : i * memoryBankSize / GB =
    i * (memoryBankSize / GB) + i * (memoryBankSize % GB) / GB := by
  have hsplit : i * memoryBankSize =
      i * (memoryBankSize % GB) + i * (memoryBankSize / GB) * GB := by
    rw [Nat.mul_assoc, ← Nat.mul_add, Nat.mul_comm (memoryBankSize / GB) GB, Nat.mod_add_div]
  rw [hsplit, Nat.add_mul_div_right _ _ (by decide), Nat.add_comm]

/-- The word of a device decodes if and only if its base fits its field. -/
theorem tileRange_iff {deviceCount i memoryBankSize : Nat} (several : deviceCount ≠ 1)
    (h : i < deviceCount) (bank : memoryBankSize / GB < 128) :
    (∃ word, (setMemoryBankSize deviceCount memoryBankSize)[i]? = some (wrap32 (0x4900 + 4 * i), word) ∧
      TileRange i memoryBankSize word) ↔
      i * (memoryBankSize / GB) < 128 ∧ i * (memoryBankSize % GB) < GB := by
  have hget := setMemoryBankSize_get several h memoryBankSize
  have hfield := tileRangeWord_base (memoryBankSize / GB) (wrap64 (i * (memoryBankSize / GB)))
  have hGB : GB = 2 ^ 30 := rfl
  constructor
  · rintro ⟨word, hword, hbase, _⟩
    obtain rfl : tileRangeWord _ _ = word := congrArg Prod.snd (Option.some.inj (hget.symm.trans hword))
    rw [hfield, mul_div_GB, wrap64, Nat.mod_mod_of_dvd _ (by decide : 2 ^ 7 ∣ 2 ^ 64)] at hbase
    have hrest : i * (memoryBankSize % GB) / GB = 0 ∧ i * (memoryBankSize / GB) < 128 := by
      generalize i * (memoryBankSize % GB) / GB = rest at hbase ⊢
      omega
    refine ⟨hrest.2, ?_⟩
    exact (Nat.div_eq_zero_iff.mp hrest.1).resolve_left (by decide)
  · rintro ⟨hfits, hrest⟩
    have hwrap : wrap64 (i * (memoryBankSize / GB)) = i * (memoryBankSize / GB) :=
      Nat.mod_eq_of_lt (by omega)
    rw [hwrap] at hget hfield
    refine ⟨_, hget, ?_, tileRangeWord_size bank hfits⟩
    rw [hfield, mul_div_GB, Nat.div_eq_of_lt hrest,
      Nat.mod_eq_of_lt (b := 2 ^ 7) hfits, Nat.add_zero]

section
variable {p : Product} {o : AubManagerOptions} {t : PoolTraits} {val : Nat}

theorem flatCcsCalls_writes (writes : List MMIOWrite) (steps : List PoolStep) :
    flatCcsCalls (writes.map .mmio ++ steps) = flatCcsCalls steps := by
  have hnone : flatCcsCalls (writes.map .mmio) = [] := by
    induction writes with
    | nil => rfl
    | cons write writes ih => exact ih
  unfold flatCcsCalls at hnone ⊢
  rw [List.filterMap_append, hnone, List.nil_append]

/-- Each call passes the size that the call before it has left, once more divided. -/
theorem poolLoop_calls (live : o.mode ≠ .aubFile) (banks : numL3Banks val ≠ 0) (devices : List Nat)
    (supported : ∀ i ∈ devices, t.isMemorySupported i = true) (flatCcsSize j : Nat) :
    (flatCcsCalls (poolLoop p o t val devices flatCcsSize))[j]? = devices[j]?.map fun i =>
      (i, getBaseAddress p o i / numL3Banks val, flatCcsSize / numL3Banks val ^ (j + 1)) := by
  induction devices generalizing flatCcsSize j with
  | nil => rfl
  | cons i devices ih =>
    have hself := supported i List.mem_cons_self
    have hrest := ih (fun i' hi' => supported i' (List.mem_cons_of_mem _ hi'))
    have hcalls : flatCcsCalls (poolLoop p o t val (i :: devices) flatCcsSize) =
        (i, getBaseAddress p o i / numL3Banks val, flatCcsSize / numL3Banks val) ::
          flatCcsCalls (poolLoop p o t val devices (flatCcsSize / numL3Banks val)) := by
      rw [poolLoop, flatCcsCalls_writes, if_neg live, if_pos hself, if_neg banks]
      rfl
    rw [hcalls]
    cases j with
    | zero => simp only [List.getElem?_cons_zero, Option.map_some, Nat.zero_add, Nat.pow_one]
    | succ j =>
      rw [List.getElem?_cons_succ, List.getElem?_cons_succ, hrest, Nat.div_div_eq_div_mul,
        ← Nat.pow_succ']

theorem initializeDefaultMemoryPools_calls (live : o.mode ≠ .aubFile) (static : o.mode ≠ .tbxShm3)
    (banks : numL3Banks val ≠ 0) (supported : ∀ i, i < o.devicesCount → t.isMemorySupported i = true)
    {i : Nat} (h : i < o.devicesCount) :
    (flatCcsCalls (initializeDefaultMemoryPools p o t val))[i]? =
      some (i, getBaseAddress p o i / numL3Banks val,
        o.memoryBankSize / 512 / numL3Banks val ^ (i + 1)) := by
  unfold initializeDefaultMemoryPools
  rw [if_neg static, poolLoop_calls live banks _ fun i' hi' => supported i' (List.mem_range.mp hi'),
    List.getElem?_range h, Option.map_some]

end

/-- A size that is divided again stays the same only if it is 0 or there is one bank. -/
theorem div_pow_eq_iff {size n : Nat} (hn : 0 < n) :
    size / n ^ 2 = size / n ↔ n = 1 ∨ size < n := by
  rw [Nat.pow_two, ← Nat.div_div_eq_div_mul]
  constructor
  · intro heq
    by_contra hnot
    obtain ⟨hone, hle⟩ := not_or.mp hnot
    have hpos : 0 < size / n := Nat.div_pos (by omega) hn
    have hlt : size / n / n < size / n := Nat.div_lt_self hpos (by omega)
    omega
  · rintro (rfl | hsmall)
    · rw [Nat.div_one]
    · rw [Nat.div_eq_of_lt hsmall, Nat.zero_div]

theorem div_pow_eq {size n : Nat} (h : n = 1 ∨ size < n) (i : Nat) :
    size / n ^ (i + 1) = size / n := by
  rcases h with rfl | hsmall
  · rw [Nat.one_pow]
  · rw [Nat.pow_succ', ← Nat.div_div_eq_div_mul, Nat.div_eq_of_lt hsmall, Nat.zero_div]

/-- The bits below 64 of a quotient are 0 if and only if the remainder has none but those that the
division drops. -/
theorem div_mod_64 {base n : Nat} (hn : 0 < n) : base / n % 64 = 0 ↔ base % (n * 64) < n := by
  rw [← Nat.mod_mul_right_div_self, Nat.div_eq_zero_iff]
  omega

/-- The enable bit is apart from an aligned base, whose low half the register keeps. -/
theorem initializeFlatCcsBaseAddressMmio_low {deviceIndex flatCcsBaseAddress size : Nat}
    (aligned : flatCcsBaseAddress % 64 = 0) :
    ∃ enable mmioLow, enable < 2 ∧ mmioLow = wrap32 flatCcsBaseAddress + enable ∧
      (initializeFlatCcsBaseAddressMmio deviceIndex flatCcsBaseAddress size)[0]? =
        some (wrap32 (deviceIndex * mmioDeviceOffset + 0x8800), mmioLow) ∧
      (initializeFlatCcsBaseAddressMmio deviceIndex flatCcsBaseAddress size)[4]? =
        some (wrap32 (deviceIndex * mmioDeviceOffset + 0x4910), enable) := by
  have hor : ∀ enable, enable < 2 →
      (wrap32 flatCcsBaseAddress ||| enable) = wrap32 flatCcsBaseAddress + enable := by
    intro enable h
    have hsplit : wrap32 flatCcsBaseAddress = 2 ^ 6 * (wrap32 flatCcsBaseAddress / 2 ^ 6) := by
      unfold wrap32
      omega
    rw [hsplit]
    exact (Nat.two_pow_add_eq_or_of_lt (by omega) _).symm
  have henable : (if 0 < min (wrap32 (size / (128 * 1024))) 0x3FF then 1 else 0) < 2 := by
    split <;> decide
  exact ⟨_, _, henable, (hor _ henable), rfl, rfl⟩

/-- With several devices the bases in GB fit their field and lose no rest, the size is divided once,
and the quotients of the bases stay aligned. -/
structure LayoutFits (p : Product) (o : AubManagerOptions) (n : Nat) : Prop where
  tiles : o.devicesCount ≠ 1 → (o.devicesCount - 1) * (o.memoryBankSize / GB) < 128 ∧
    (o.devicesCount - 1) * (o.memoryBankSize % GB) < GB
  size : o.devicesCount = 1 ∨ n = 1 ∨ o.memoryBankSize / 512 < n
  aligned : ∀ i, i < o.devicesCount → getBaseAddress p o i % (n * 64) < n

/-- The registers decode to the layout if and only if it fits. -/
theorem layoutDecodes_iff (p : Product) (o : AubManagerOptions) (t : PoolTraits) (val : Nat)
    (device : 0 < o.devicesCount) (asserted : BankAsserted o.devicesCount o.memoryBankSize)
    (live : o.mode ≠ .aubFile) (static : o.mode ≠ .tbxShm3)
    (supported : ∀ i, i < o.devicesCount → t.isMemorySupported i = true)
    (banks : 1 ≤ numL3Banks val) :
    LayoutDecodes p o t val ↔ LayoutFits p o (numL3Banks val) := by
  have hcalls := @initializeDefaultMemoryPools_calls p o t val live static (by omega) supported
  constructor
  · intro decodes
    constructor
    · intro several
      have hlast := decodes.tileRange several (o.devicesCount - 1) (by omega)
      exact (tileRange_iff several (by omega) (asserted several).2).mp hlast
    · by_cases one : o.devicesCount = 1
      · exact Or.inl one
      · have hsecond := (decodes.flatCcs 1 (by omega)).1
        rw [hcalls (by omega)] at hsecond
        have hsize := congrArg (fun call => call.2.2) (Option.some.inj hsecond)
        exact Or.inr ((div_pow_eq_iff banks).mp hsize)
    · intro i h
      exact (div_mod_64 banks).mp (decodes.flatCcs i h).2
  · intro fits
    constructor
    · intro several i h
      obtain ⟨hbase, hrest⟩ := fits.tiles several
      refine (tileRange_iff several h (asserted several).2).mpr ⟨?_, ?_⟩
      · exact Nat.lt_of_le_of_lt (Nat.mul_le_mul_right _ (by omega)) hbase
      · exact Nat.lt_of_le_of_lt (Nat.mul_le_mul_right _ (by omega)) hrest
    · intro i h
      refine ⟨?_, (div_mod_64 banks).mpr (fits.aligned i h)⟩
      rw [hcalls h]
      rcases fits.size with one | small
      · obtain rfl : i = 0 := by omega
        rw [Nat.zero_add, Nat.pow_one]
      · rw [div_pow_eq small]

/-- Two devices with 1GB each. -/
def twoTiles : AubManagerOptions := ⟨2, 0x40000000, true, .tbx, 0, 0, by decide⟩

/-- One L3 bank. -/
theorem layoutDecodes_oneBank : LayoutDecodes gpuXe3pCore twoTiles (xe3pTraits 4) 0x10000 :=
  (layoutDecodes_iff gpuXe3pCore twoTiles (xe3pTraits 4) 0x10000 (by decide)
    (fun _ => by decide) (by decide) (by decide) (by decide) (by decide)).mpr
    ⟨fun _ => by decide, Or.inr (Or.inl (by decide)), by decide⟩

/-- With two L3 banks the second device is given a quarter of the size in place of a half. -/
theorem not_layoutDecodes :
    ¬ ∀ (p : Product) (o : AubManagerOptions) (t : PoolTraits) (val : Nat), 0 < o.devicesCount →
      BankAsserted o.devicesCount o.memoryBankSize → o.mode ≠ .aubFile → o.mode ≠ .tbxShm3 →
      (∀ i, i < o.devicesCount → t.isMemorySupported i = true) → 1 ≤ numL3Banks val →
      LayoutDecodes p o t val := by
  intro claim
  have hsecond := ((claim gpuXe3pCore twoTiles (xe3pTraits 4) 0x30000 (by decide) (fun _ => by decide)
    (by decide) (by decide) (by decide) (by decide)).flatCcs 1 (by decide)).1
  revert hsecond
  decide

end MemoryPools
