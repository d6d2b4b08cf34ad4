import Aubstream.PhysicalAllocator

/-!
# Stolen memory

The last part of each bank is not for the allocator: it holds the compression
data of the bank (flat CCS), the GTT (GSM) and the data stolen memory (DSM).
Its size depends on the product and on the options that a manager is created
with, which `create` checks.
-/

namespace StolenMemory
open EntryBits

def MB : Nat := 1024 * 1024

/-- What the classes of `Gpu` override here: the sizes in `sizeToGMSMappings` and
`sizeToPAVPCMappings`, the default WOPCM size, and whether `getGSMBaseAddress` is 0. -/
structure Product where
  dataStolenSizes : Option (List Nat)
  wopcmSizes : Option (List Nat)
  wopcmDefaultSize : Nat
  gsmAtZero : Bool
  table_valid : ∀ sizes, dataStolenSizes = some sizes → ∀ x ∈ sizes, x % MB = 0 ∧ x ≤ 2048 * MB
  wopcmDefault_pos : 0 < wopcmDefaultSize

def sizeToGMSMappings : List Nat :=
  [0 * MB, 32 * MB, 64 * MB, 96 * MB, 128 * MB, 4 * MB, 8 * MB, 12 * MB, 16 * MB, 20 * MB, 24 * MB,
    28 * MB, 32 * MB, 36 * MB, 40 * MB, 44 * MB, 48 * MB, 52 * MB, 56 * MB, 60 * MB]

def sizeToPAVPCMappings : List Nat := [1 * MB, 2 * MB, 4 * MB, 8 * MB, 16 * MB, 32 * MB]

theorem sizeToGMSMappings_valid (sizes : List Nat) (h : some sizeToGMSMappings = some sizes) :
    ∀ x ∈ sizes, x % MB = 0 ∧ x ≤ 2048 * MB := by
  obtain rfl := Option.some.inj h
  decide

/-- `GpuXeHpgCore`, `GpuXeCore` and `GpuXeHpcCore` keep what `Gpu` has. -/
def gpuXeCore : Product := ⟨none, none, 8 * MB, false, by simp, by decide⟩

def gpuGen12LP : Product := ⟨none, none, 8 * MB, true, by simp, by decide⟩

/-- Also `GpuXe3Core`. -/
def gpuXe2HpgCore : Product :=
  ⟨some sizeToGMSMappings, none, 8 * MB, false, sizeToGMSMappings_valid, by decide⟩

def gpuXe3pCore : Product :=
  ⟨some sizeToGMSMappings, some sizeToPAVPCMappings, 8 * MB, false, sizeToGMSMappings_valid,
    by decide⟩

def gpuNvlp : Product :=
  ⟨some sizeToGMSMappings, some sizeToPAVPCMappings, 16 * MB, false, sizeToGMSMappings_valid,
    by decide⟩

inductive StreamMode where
  | aubFile
  | tbx
  | aubFileAndTbx
  | tbxShm
  | tbxShm3
  | tbxShm4
  | aubFileAndShm
  | aubFileAndShm4
  deriving DecidableEq, Repr

/-- The options that concern memory sizes. An unset size is 0. -/
structure AubManagerOptions where
  devicesCount : Nat
  memoryBankSize : Nat
  localMemorySupported : Bool
  mode : StreamMode
  dataStolenMemorySize : Nat
  wopcmMemorySize : Nat
  memoryBankSize_lt : memoryBankSize < 2 ^ 64

def alignUp (size alignmentBits : Nat) : Nat :=
  wrap64 (size + (2 ^ alignmentBits - 1)) -
    wrap64 (size + (2 ^ alignmentBits - 1)) % 2 ^ alignmentBits

def alignDown (address alignmentBits : Nat) : Nat := address - address % 2 ^ alignmentBits

section
variable (p : Product) (o : AubManagerOptions)

def getWOPCMSize : Nat := if o.wopcmMemorySize ≠ 0 then o.wopcmMemorySize else p.wopcmDefaultSize

def getDSMSize : Nat :=
  if o.dataStolenMemorySize ≠ 0 then o.dataStolenMemorySize else getWOPCMSize p o

def getGSMSize : Nat := 8 * MB

def getFlatCCSSize (memoryBankSize : Nat) : Nat := alignUp (memoryBankSize / 256) 20

def getStolenMemorySize : Nat :=
  wrap64 (getFlatCCSSize o.memoryBankSize + getGSMSize + getDSMSize p o)

def isValidDataStolenMemorySize (dataStolenMemorySize : Nat) : Bool :=
  match p.dataStolenSizes with
  | some sizes => sizes.contains dataStolenMemorySize
  | none => dataStolenMemorySize % MB == 0 && decide (dataStolenMemorySize ≤ 2048 * MB)

def isValidWOPCMSize (wopcmSize : Nat) : Bool :=
  match p.wopcmSizes with
  | some sizes => sizes.contains wopcmSize
  | none => true

/-- `CreateStolenMemory` succeeds and `initialize` passes its checks. -/
def create : Bool :=
  decide (getStolenMemorySize p o ≤ o.memoryBankSize) &&
    isValidDataStolenMemorySize p (getDSMSize p o) && isValidWOPCMSize p (getWOPCMSize p o)

/-- `StolenMemoryInStaticStorage::getBaseAddress`. -/
def getBaseAddress (device : Nat) : Nat :=
  alignDown (wrap64 (wrap64 (o.memoryBankSize * (device + 1)) +
    (2 ^ 64 - getStolenMemorySize p o))) 20

def getDSMBaseAddress (device : Nat) : Nat :=
  wrap64 (getBaseAddress p o device + getStolenMemorySize p o + (2 ^ 64 - getDSMSize p o))

def getGSMBaseAddress (device : Nat) : Nat :=
  if p.gsmAtZero then 0 else wrap64 (getDSMBaseAddress p o device + (2 ^ 64 - getGSMSize))

inductive StolenPart where
  | flatCCS
  | gsm
  | dsm
  deriving DecidableEq, Repr

/-- Address and size of a part of a device's stolen memory. -/
def stolenRange (device : Nat) : StolenPart → Nat × Nat
  | .flatCCS => (getBaseAddress p o device, getFlatCCSSize o.memoryBankSize)
  | .gsm => (getGSMBaseAddress p o device, getGSMSize)
  | .dsm => (getDSMBaseAddress p o device, getDSMSize p o)

end

section
variable {p : Product} {o : AubManagerOptions}

theorem getDSMSize_pos : 0 < getDSMSize p o := by
  have hdefault := p.wopcmDefault_pos
  unfold getDSMSize getWOPCMSize
  split
  · omega
  · split
    · omega
    · exact hdefault

theorem getDSMSize_valid (h : isValidDataStolenMemorySize p (getDSMSize p o) = true) :
    getDSMSize p o % MB = 0 ∧ getDSMSize p o ≤ 2048 * MB := by
  unfold isValidDataStolenMemorySize at h
  cases hsizes : p.dataStolenSizes with
  | some sizes =>
    simp only [hsizes, List.contains_iff_mem] at h
    exact p.table_valid sizes hsizes _ h
  | none =>
    simpa only [hsizes, Bool.and_eq_true, beq_iff_eq, decide_eq_true_eq] using h

/-- What the checks of `create` leave of the sizes. -/
structure Sizes (p : Product) (o : AubManagerOptions) : Prop where
  parts : getStolenMemorySize p o =
    getFlatCCSSize o.memoryBankSize + getGSMSize + getDSMSize p o
  aligned : getStolenMemorySize p o % 2 ^ 20 = 0
  fits : getStolenMemorySize p o ≤ o.memoryBankSize
  dsm_pos : 0 < getDSMSize p o

theorem create_sizes (h : create p o = true) : Sizes p o := by
  have bounded := o.memoryBankSize_lt
  simp only [create, Bool.and_eq_true, decide_eq_true_eq] at h
  obtain ⟨⟨hfits, hvalid⟩, _⟩ := h
  obtain ⟨hdvd, hle⟩ := getDSMSize_valid hvalid
  have hflat : getFlatCCSSize o.memoryBankSize % 2 ^ 20 = 0 ∧
      getFlatCCSSize o.memoryBankSize < 2 ^ 57 := by
    unfold getFlatCCSSize alignUp wrap64
    omega
  simp only [MB] at hdvd hle
  have hparts : getStolenMemorySize p o =
      getFlatCCSSize o.memoryBankSize + getGSMSize + getDSMSize p o := by
    unfold getStolenMemorySize getGSMSize wrap64 MB
    omega
  refine ⟨hparts, ?_, hfits, getDSMSize_pos⟩
  rw [hparts]
  simp only [getGSMSize, MB]
  omega

/-- The end of a device's bank. -/
def bankEnd (o : AubManagerOptions) (device : Nat) : Nat := o.memoryBankSize * (device + 1)

/-- No bank ends behind the address type. -/
def InAddressSpace (o : AubManagerOptions) : Prop :=
  o.devicesCount * o.memoryBankSize ≤ 2 ^ 64

theorem bankEnd_le (space : InAddressSpace o) {device : Nat} (h : device < o.devicesCount) :
    bankEnd o device ≤ 2 ^ 64 := by
  refine Nat.le_trans ?_ space
  rw [bankEnd, Nat.mul_comm]
  exact Nat.mul_le_mul_right _ h

theorem bankEnd_mono {d d' : Nat} (h : d < d') : bankEnd o d + o.memoryBankSize ≤ bankEnd o d' := by
  unfold bankEnd
  rw [← Nat.mul_succ]
  exact Nat.mul_le_mul_left _ (by omega)

theorem getBaseAddress_eq (sizes : Sizes p o) (space : InAddressSpace o) {device : Nat}
    (h : device < o.devicesCount) :
    getBaseAddress p o device = bankEnd o device - getStolenMemorySize p o -
      (bankEnd o device - getStolenMemorySize p o) % 2 ^ 20 := by
  have hend := bankEnd_le space h
  have hfits := sizes.fits
  have hself : o.memoryBankSize ≤ bankEnd o device := Nat.le_mul_of_pos_right _ (by omega)
  have hpos := sizes.dsm_pos
  have hparts := sizes.parts
  unfold getBaseAddress alignDown wrap64
  rw [← bankEnd]
  omega

/-- Stolen memory lies in its bank, up to the alignment of its base. -/
theorem stolen_end (sizes : Sizes p o) (space : InAddressSpace o) {device : Nat}
    (h : device < o.devicesCount) :
    getBaseAddress p o device + getStolenMemorySize p o ≤ bankEnd o device := by
  have hfits := sizes.fits
  have hself : o.memoryBankSize ≤ bankEnd o device := Nat.le_mul_of_pos_right _ (by omega)
  rw [getBaseAddress_eq sizes space h]
  omega

/-- The stolen memory of a device lies below that of the next. -/
theorem stolen_before (sizes : Sizes p o) (space : InAddressSpace o) {d d' : Nat} (h : d < d')
    (h' : d' < o.devicesCount) :
    getBaseAddress p o d + getStolenMemorySize p o ≤ getBaseAddress p o d' := by
  have hmono := bankEnd_mono (o := o) h
  have hfits := sizes.fits
  have haligned := sizes.aligned
  have hself : o.memoryBankSize ≤ bankEnd o d := Nat.le_mul_of_pos_right _ (by omega)
  rw [getBaseAddress_eq sizes space (by omega), getBaseAddress_eq sizes space h']
  omega

theorem getDSMBaseAddress_eq (sizes : Sizes p o) (space : InAddressSpace o) {device : Nat}
    (h : device < o.devicesCount) : getDSMBaseAddress p o device =
      getBaseAddress p o device + getStolenMemorySize p o - getDSMSize p o := by
  have hend := stolen_end sizes space h
  have hbank := bankEnd_le space h
  have hparts := sizes.parts
  have hpos := sizes.dsm_pos
  unfold getDSMBaseAddress wrap64
  omega

theorem getGSMBaseAddress_eq (sizes : Sizes p o) (space : InAddressSpace o) {device : Nat}
    (h : device < o.devicesCount) (carved : p.gsmAtZero = false) :
    getGSMBaseAddress p o device =
      getBaseAddress p o device + getFlatCCSSize o.memoryBankSize := by
  have hend := stolen_end sizes space h
  have hbank := bankEnd_le space h
  have hparts := sizes.parts
  have hpos := sizes.dsm_pos
  unfold getGSMBaseAddress
  rw [carved, getDSMBaseAddress_eq sizes space h]
  simp only [getGSMSize, MB, wrap64, Bool.false_eq_true, if_false] at hparts ⊢
  omega

theorem stolenRange_inside (sizes : Sizes p o) (space : InAddressSpace o) {device : Nat}
    (h : device < o.devicesCount) {part : StolenPart}
    (carved : part = .gsm → p.gsmAtZero = false) :
    getBaseAddress p o device ≤ (stolenRange p o device part).1 ∧
      (stolenRange p o device part).1 + (stolenRange p o device part).2 ≤
        getBaseAddress p o device + getStolenMemorySize p o := by
  have hparts := sizes.parts
  cases part with
  | flatCCS =>
    simp only [stolenRange]
    omega
  | gsm =>
    simp only [stolenRange, getGSMBaseAddress_eq sizes space h (carved rfl)]
    omega
  | dsm =>
    simp only [stolenRange, getDSMBaseAddress_eq sizes space h]
    omega

/-- The parts of one device's stolen memory follow each other. -/
theorem stolenRange_apart (sizes : Sizes p o) (space : InAddressSpace o) {device : Nat}
    (h : device < o.devicesCount) {part part' : StolenPart}
    (carved : part = .gsm → p.gsmAtZero = false) (carved' : part' = .gsm → p.gsmAtZero = false)
    (hne : part ≠ part') :
    (stolenRange p o device part).1 + (stolenRange p o device part).2 ≤
        (stolenRange p o device part').1 ∨
      (stolenRange p o device part').1 + (stolenRange p o device part').2 ≤
        (stolenRange p o device part).1 := by
  have hparts := sizes.parts
  have hdsm := getDSMBaseAddress_eq sizes space h
  cases part <;> cases part' <;> simp only [stolenRange, ne_eq, not_true_eq_false, hdsm] at hne ⊢
  · rw [getGSMBaseAddress_eq sizes space h (carved' rfl)]
    omega
  · omega
  · rw [getGSMBaseAddress_eq sizes space h (carved rfl)]
    omega
  · rw [getGSMBaseAddress_eq sizes space h (carved rfl)]
    omega
  · omega
  · rw [getGSMBaseAddress_eq sizes space h (carved' rfl)]
    omega

end

end StolenMemory
