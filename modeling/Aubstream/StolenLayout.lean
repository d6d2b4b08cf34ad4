import Aubstream.MemoryPools

/-!
# Layout of the stolen memory

Flat CCS, GSM and DSM of a device fill its stolen memory, and the WOPCM is the top of
its DSM. The sizes are subtracted from the end of the bank one after another.
-/

namespace StolenLayout
open EntryBits StolenMemory MemoryPools

section
variable (p : Product) (o : AubManagerOptions)

def getWOPCMBaseAddress (device : Nat) : Nat :=
  wrap64 (getDSMBaseAddress p o device + getDSMSize p o + (2 ^ 64 - getWOPCMSize p o))

/-- The classes with a table of stolen sizes are those whose `initializeDefaultMemoryPools` programs
the WOPCM. -/
def programsWOPCM : Bool := p.dataStolenSizes.isSome

/-- The parts of a device's stolen memory follow each other in its bank, and its WOPCM is in its DSM. -/
structure InPlace (device : Nat) : Prop where
  gsm : getBaseAddress p o device + getFlatCCSSize o.memoryBankSize = getGSMBaseAddress p o device
  dsm : getGSMBaseAddress p o device + getGSMSize = getDSMBaseAddress p o device
  stolen : getDSMBaseAddress p o device + getDSMSize p o ≤
    getBaseAddress p o device + getStolenMemorySize p o
  aligned : getBaseAddress p o device % MB = 0 ∧ getGSMBaseAddress p o device % MB = 0 ∧
    getDSMBaseAddress p o device % MB = 0
  bank : device * o.memoryBankSize ≤ getBaseAddress p o device ∧
    getDSMBaseAddress p o device + getDSMSize p o ≤ (device + 1) * o.memoryBankSize
  wopcm : getDSMBaseAddress p o device ≤ getWOPCMBaseAddress p o device ∧
    getWOPCMBaseAddress p o device + getWOPCMSize p o ≤
      getDSMBaseAddress p o device + getDSMSize p o
  programmed : programsWOPCM p = true → wopcmBase p o = getWOPCMBaseAddress p o device

/-- The GSM is taken out of stolen memory, the WOPCM fits the DSM, the alignment leaves the stolen
memory in its bank and in the address space, and a programmed device is the first, with an aligned
bank. -/
structure Fits (device : Nat) : Prop where
  carved : p.gsmAtZero = false
  wopcm : getWOPCMSize p o ≤ getDSMSize p o
  bank : getStolenMemorySize p o + bankEnd o device % MB ≤ o.memoryBankSize
  space : bankEnd o device - bankEnd o device % MB - getWOPCMSize p o < 2 ^ 64
  programmed : programsWOPCM p = true → device = 0 ∧ o.memoryBankSize % MB = 0

end

section
variable {p : Product} {o : AubManagerOptions}

/-- The sizes as far as the layout depends on them. -/
structure Parts (p : Product) (o : AubManagerOptions) : Prop where
  parts : getStolenMemorySize p o =
    getFlatCCSSize o.memoryBankSize + getGSMSize + getDSMSize p o
  flat : getFlatCCSSize o.memoryBankSize % MB = 0 ∧ 0 < getFlatCCSSize o.memoryBankSize
  dsm : getDSMSize p o % MB = 0 ∧ getDSMSize p o ≤ 2048 * MB
  fits : getStolenMemorySize p o ≤ o.memoryBankSize

theorem create_parts (created : create p o = true) : Parts p o := by
  have sizes := create_sizes created
  have bounded := o.memoryBankSize_lt
  have hparts := sizes.parts
  have hfits := sizes.fits
  simp only [create, Bool.and_eq_true, decide_eq_true_eq] at created
  refine ⟨hparts, ?_, getDSMSize_valid created.1.2, hfits⟩
  have hgsm : getGSMSize = 8 * 2 ^ 20 := rfl
  unfold getFlatCCSSize alignUp wrap64 MB at *
  omega

theorem Parts.stolen_end (parts : Parts p o) (device : Nat) :
    getStolenMemorySize p o + bankEnd o device % MB ≤ bankEnd o device := by
  obtain ⟨hparts, ⟨hflat, _⟩, ⟨hdsm, _⟩, hfits⟩ := parts
  have hself : o.memoryBankSize ≤ bankEnd o device := Nat.le_mul_of_pos_right _ (by omega)
  have hgsm : getGSMSize = 8 * 2 ^ 20 := rfl
  unfold MB at *
  omega

/-- The base of the stolen memory, which may have wrapped. -/
theorem getBaseAddress_wrap (parts : Parts p o) (device : Nat) : getBaseAddress p o device =
    wrap64 (bankEnd o device - bankEnd o device % MB - getStolenMemorySize p o) := by
  obtain ⟨hparts, ⟨hflat, _⟩, ⟨hdsm, _⟩, hfits⟩ := parts
  have hself : o.memoryBankSize ≤ bankEnd o device := Nat.le_mul_of_pos_right _ (by omega)
  have bounded := o.memoryBankSize_lt
  have hgsm : getGSMSize = 8 * 2 ^ 20 := rfl
  have hMB : MB = 2 ^ 20 := rfl
  rw [hMB] at hflat hdsm ⊢
  unfold getBaseAddress alignDown wrap64
  rw [← bankEnd]
  omega

/-- Without wrapping the parts are found from the end of the bank, down to its alignment. -/
theorem bases_eq (parts : Parts p o) {device : Nat}
    (space : bankEnd o device - bankEnd o device % MB - getDSMSize p o < 2 ^ 64) :
    getBaseAddress p o device =
        bankEnd o device - bankEnd o device % MB - getStolenMemorySize p o ∧
      getDSMBaseAddress p o device = getBaseAddress p o device + getFlatCCSSize o.memoryBankSize +
        getGSMSize := by
  have hbase := getBaseAddress_wrap parts device
  obtain ⟨hparts, ⟨hflat, hpos⟩, ⟨hdsm, _⟩, hfits⟩ := parts
  have hself : o.memoryBankSize ≤ bankEnd o device := Nat.le_mul_of_pos_right _ (by omega)
  have hgsm : getGSMSize = 8 * 2 ^ 20 := rfl
  have hMB : MB = 2 ^ 20 := rfl
  rw [hMB] at space hbase hflat hdsm ⊢
  unfold getDSMBaseAddress wrap64 at *
  omega

/-- A stolen memory that is in its bank has not wrapped. -/
theorem space_of_bank (parts : Parts p o) {device : Nat}
    (bank : device * o.memoryBankSize ≤ getBaseAddress p o device) :
    getStolenMemorySize p o + bankEnd o device % MB ≤ o.memoryBankSize ∧
      bankEnd o device - bankEnd o device % MB - getStolenMemorySize p o < 2 ^ 64 := by
  rw [getBaseAddress_wrap parts device] at bank
  have hend : bankEnd o device = device * o.memoryBankSize + o.memoryBankSize := by
    rw [bankEnd, Nat.mul_comm, Nat.succ_mul]
  have bounded := o.memoryBankSize_lt
  have hend' := parts.stolen_end device
  generalize bankEnd o device % MB = rest at *
  unfold wrap64 at bank
  omega

/-- The end of the bank before a device, and its own. -/
theorem bankEnd_eq (o : AubManagerOptions) (device : Nat) :
    bankEnd o device = device * o.memoryBankSize + o.memoryBankSize := by
  rw [bankEnd, Nat.mul_comm, Nat.succ_mul]

theorem getWOPCMBaseAddress_eq (wide : getWOPCMSize p o < 2 ^ 64) {device : Nat}
    (small : getWOPCMSize p o ≤ getDSMSize p o)
    (space : getDSMBaseAddress p o device + getDSMSize p o - getWOPCMSize p o < 2 ^ 64) :
    getWOPCMBaseAddress p o device =
      getDSMBaseAddress p o device + getDSMSize p o - getWOPCMSize p o := by
  unfold getWOPCMBaseAddress wrap64
  omega

theorem wopcmBase_eq (wide : getWOPCMSize p o < 2 ^ 64)
    (small : getWOPCMSize p o ≤ o.memoryBankSize) :
    wopcmBase p o = o.memoryBankSize - getWOPCMSize p o := by
  have bounded := o.memoryBankSize_lt
  unfold wopcmBase wrap64
  omega

/-- A WOPCM at the end of the bank is in the first bank, which is then aligned. -/
theorem first_of_programmed (parts : Parts p o) {device : Nat}
    (h : bankEnd o device - bankEnd o device % MB = o.memoryBankSize) :
    device = 0 ∧ o.memoryBankSize % MB = 0 := by
  have hrest : bankEnd o device % MB < MB := Nat.mod_lt _ (by decide)
  have hparts := parts.parts
  have hfits := parts.fits
  have hgsm : getGSMSize = 8 * MB := rfl
  have hend := bankEnd_eq o device
  have hself : o.memoryBankSize ≤ bankEnd o device := by omega
  have hfirst : device = 0 := by
    by_contra hnot
    have hle : o.memoryBankSize ≤ device * o.memoryBankSize := Nat.le_mul_of_pos_left _ (by omega)
    omega
  subst hfirst
  rw [Nat.zero_mul, Nat.zero_add] at hend
  rw [hend] at h hrest
  exact ⟨rfl, by omega⟩

theorem InPlace.fits (parts : Parts p o) (wide : getWOPCMSize p o < 2 ^ 64) {device : Nat}
    (inPlace : InPlace p o device) : Fits p o device := by
  obtain ⟨hbank, hspace⟩ := space_of_bank parts inPlace.bank.1
  have hend := parts.stolen_end device
  have hgsm := inPlace.gsm
  have hdsm := inPlace.dsm
  have hwopcm := inPlace.wopcm
  have hbase := getBaseAddress_wrap parts device
  have hsizes := parts.parts
  have hflat := parts.flat
  have hdsmSize := parts.dsm
  have hsmall : getWOPCMSize p o ≤ getDSMSize p o := by omega
  have htop : getDSMBaseAddress p o device + getDSMSize p o =
      bankEnd o device - bankEnd o device % MB := by
    unfold wrap64 at hbase
    omega
  have hspace' : bankEnd o device - bankEnd o device % MB - getWOPCMSize p o < 2 ^ 64 := by
    have hwrap := hwopcm.1
    unfold getWOPCMBaseAddress wrap64 MB at *
    omega
  refine ⟨?_, hsmall, hbank, hspace', ?_⟩
  · by_contra hzero
    rw [getGSMBaseAddress, if_pos (by simpa using hzero)] at hgsm
    omega
  · intro programs
    have hprogrammed := inPlace.programmed programs
    rw [wopcmBase_eq wide (by omega), getWOPCMBaseAddress_eq wide hsmall (by omega)] at hprogrammed
    exact first_of_programmed parts (by omega)

theorem Fits.inPlace (parts : Parts p o) (wide : getWOPCMSize p o < 2 ^ 64) {device : Nat}
    (fits : Fits p o device) : InPlace p o device := by
  have hsmall := fits.wopcm
  have hspace := fits.space
  have hbank := fits.bank
  have hend := parts.stolen_end device
  have hbankEnd := bankEnd_eq o device
  have hsizes := parts.parts
  obtain ⟨hflat, _⟩ := parts.flat
  obtain ⟨hdsmSize, _⟩ := parts.dsm
  have hgsmSize : getGSMSize = 8 * MB := rfl
  obtain ⟨hbase, hdsm⟩ := @bases_eq p o parts device (by omega)
  have hgsm : getGSMBaseAddress p o device =
      getBaseAddress p o device + getFlatCCSSize o.memoryBankSize := by
    rw [getGSMBaseAddress, fits.carved, if_neg Bool.false_ne_true]
    unfold wrap64 MB at *
    omega
  have hwopcm := @getWOPCMBaseAddress_eq p o wide device hsmall (by omega)
  refine ⟨hgsm.symm, by omega, by omega, ?_, ?_, ?_, ?_⟩
  · rw [hgsm, hdsm, hbase]
    unfold MB at *
    omega
  · rw [Nat.succ_mul]
    omega
  · omega
  · intro programs
    obtain ⟨rfl, haligned⟩ := fits.programmed programs
    rw [Nat.zero_mul, Nat.zero_add] at hbankEnd
    rw [wopcmBase_eq wide (by omega), hwopcm]
    rw [hbankEnd] at hbase hend
    omega

end

/-- The layout of a device is in place if and only if it fits. -/
theorem inPlace_iff (p : Product) (o : AubManagerOptions) (created : create p o = true)
    (wide : getWOPCMSize p o < 2 ^ 64) (device : Nat) : InPlace p o device ↔ Fits p o device := by
  have parts := create_parts created
  constructor
  · exact fun inPlace => inPlace.fits parts wide
  · exact fun fits => fits.inPlace parts wide

/-- The first device of two. -/
theorem inPlace_first : InPlace gpuXe3pCore twoTiles 0 :=
  (inPlace_iff gpuXe3pCore twoTiles (by decide) (by decide) 0).mpr
    ⟨rfl, by decide, by decide, by decide, fun _ => by decide⟩

/-- The second device is given the WOPCM of the first. -/
theorem not_inPlace : ¬ ∀ (p : Product) (o : AubManagerOptions), create p o = true →
    getWOPCMSize p o < 2 ^ 64 → ∀ device, device < o.devicesCount → InPlace p o device := by
  intro claim
  have hprogrammed := (claim gpuXe3pCore twoTiles (by decide) (by decide) 1 (by decide)).programmed rfl
  revert hprogrammed
  decide

end StolenLayout
