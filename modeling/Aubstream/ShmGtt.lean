import Aubstream.StolenMemory
import Aubstream.GttEntries
import Aubstream.GroupSubmission

/-!
# GTT entries in shared memory

A GGTT in shared memory has its entries in the GSM of its device. The table knows
where that is, and its entries carry an offset of their own for each device, which
is for streams that address the GTTs of all devices through one aperture.
-/

namespace ShmGtt
open EntryBits PhysicalAllocator PageWalker GlobalGtt GttEntries GroupSubmission StolenMemory

/-- `localStolenStorage`: the memory from `aligned_alloc` that the third shared memory mode has for
its devices. -/
structure HeapStorage (p : Product) (o : AubManagerOptions) where
  localStolenStorage : Nat → Nat
  aligned : ∀ device, device < o.devicesCount → localStolenStorage device % MB = 0
  inside : ∀ device, device < o.devicesCount →
    localStolenStorage device + getStolenMemorySize p o ≤ 2 ^ 64

/-- The array of `setGGTTBaseAddresses`; the source asserts the number of devices. -/
def mmioDevice (device : Nat) : Nat := [0, 16 * MB, 32 * MB, 48 * MB].getD device 0

def gsmBase : Nat := 0x108100
def gsmBaseRem1 : Nat := 0x108108
def gsmBaseRem2 : Nat := 0x108110
def gsmBaseRem3 : Nat := 0x108118

/-- Both halves of a base, the upper one first. -/
def writeBase (register gttBase : Nat) : List MMIOWrite :=
  [(register + 4, gttBase / 2 ^ 32 % 2 ^ 32), (register, (gttBase &&& 0xFFF00000) % 2 ^ 32)]

/-- A GGTT and the offset of its table in the memory of its bank. -/
structure ShmGgtt where
  ggtt : GGTT
  gttTableOffset : Nat

section
variable {p : Product} {o : AubManagerOptions} (heap : HeapStorage p o)

/-- `stolenMemory->getBaseAddress`. -/
def stolenBaseAddress (device : Nat) : Nat :=
  if o.mode = .tbxShm3 then heap.localStolenStorage device else getBaseAddress p o device

/-- `Gpu::getGSMBaseAddress`, which no product of this core family overrides. -/
def gsmBaseAddress (device : Nat) : Nat :=
  wrap64 (wrap64 (stolenBaseAddress heap device + getStolenMemorySize p o +
    (2 ^ 64 - getDSMSize p o)) + (2 ^ 64 - getGSMSize))

/-- The base of another device, in a register of the first. -/
def writeRemoteBase (remote register device : Nat) : List MMIOWrite :=
  if remote = device then writeBase (mmioDevice 0 + register) (gsmBaseAddress heap remote) else []

/-- `GpuXeCore::setGGTTBaseAddresses`. -/
def setGGTTBaseAddresses (deviceCount : Nat) : List MMIOWrite :=
  (List.range deviceCount).flatMap fun device =>
    writeBase (mmioDevice device + gsmBase) (gsmBaseAddress heap device) ++
      (writeRemoteBase heap 1 gsmBaseRem1 device ++ (writeRemoteBase heap 2 gsmBaseRem2 device ++
        writeRemoteBase heap 3 gsmBaseRem3 device))

/-- The GGTT that `initialize` makes for a device whose page tables are in local memory. -/
def allocateGGTT (device : Nat) : ShmGgtt := ⟨⟨2 ^ device⟩, gsmBaseAddress heap device⟩

end

/-- Where `TbxShmStream::writeGttPages` writes an entry. -/
def entryLocation (ggtt : ShmGgtt) (e : PageEntryInfo) : Nat :=
  wrap64 (ggtt.gttTableOffset + e.physicalAddress)

/-- `TbxShmStream::writeGttPages`: the location and the value of each entry. -/
def writeGttPages (ggtt : ShmGgtt) (writeInfoTable : List PageEntryInfo) : List (Nat × Nat) :=
  writeInfoTable.map fun e => (entryLocation ggtt e, e.tableEntry)

/-- The base that a device's registers hold, if both halves are written once. -/
def programmedBase (writes : List MMIOWrite) (device : Nat) : Option Nat :=
  match valuesAt writes (mmioDevice device + gsmBase),
    valuesAt writes (mmioDevice device + gsmBase + 4) with
  | [lower], [upper] => some (qwordOf lower upper)
  | _, _ => none

section
variable {A : Type} [PhysicalAddressAllocator A] {p : Product} {o : AubManagerOptions}
  (heap : HeapStorage p o)

/-- What a walk of a device's GGTT gives the stream. -/
def walkEntries (device : Nat) (s : GttStreams A) (g size memoryBanks pageSize : Nat)
    (mode : WalkMode) : List PageEntryInfo :=
  (GlobalGtt.walkMemory (allocateGGTT heap device).ggtt s g size memoryBanks pageSize
    mode).ggttEntries

/-- Every entry of a walk of the device's GGTT is the one of a page index and lands in the slot of
that index in the device's GSM. -/
def LandsInGsm (A : Type) [PhysicalAddressAllocator A] (device : Nat) : Prop :=
  ∀ (s : GttStreams A) (g size memoryBanks pageSize : Nat) (mode : WalkMode),
    IsGttPageSize pageSize →
    ∀ e ∈ walkEntries heap device s g size memoryBanks pageSize mode,
      ∃ index page, e = entryOf (allocateGGTT heap device).ggtt index page ∧
        entryLocation (allocateGGTT heap device) e = gsmBaseAddress heap device + 8 * index ∧
        entryLocation (allocateGGTT heap device) e + 8 ≤ gsmBaseAddress heap device + getGSMSize

/-- No entry of a walk of one device's GGTT lands where one of the other's does. -/
def EntriesApart (A : Type) [PhysicalAddressAllocator A] (device device' : Nat) : Prop :=
  ∀ (s s' : GttStreams A) (g size memoryBanks pageSize g' size' memoryBanks' pageSize' : Nat)
    (mode mode' : WalkMode), IsGttPageSize pageSize → IsGttPageSize pageSize' →
    ∀ e ∈ walkEntries heap device s g size memoryBanks pageSize mode,
      ∀ e' ∈ walkEntries heap device' s' g' size' memoryBanks' pageSize' mode',
        entryLocation (allocateGGTT heap device) e ≠ entryLocation (allocateGGTT heap device') e'

/-- The GTT entries of all devices are where the devices look for them. -/
structure EntriesInGsm (A : Type) [PhysicalAddressAllocator A] : Prop where
  lands : ∀ device, device < o.devicesCount → LandsInGsm heap A device
  programmed : ∀ device, device < o.devicesCount →
    programmedBase (setGGTTBaseAddresses heap o.devicesCount) device =
      some (gsmBaseAddress heap device)
  apart : ∀ device device', device < o.devicesCount → device' < o.devicesCount →
    device ≠ device' → EntriesApart heap A device device'

end

/-- Outside the third shared memory mode it is the base of the stolen memory layout. -/
theorem gsmBaseAddress_eq {p : Product} {o : AubManagerOptions} (heap : HeapStorage p o)
    (static : o.mode ≠ .tbxShm3) (carved : p.gsmAtZero = false) (device : Nat) :
    gsmBaseAddress heap device = getGSMBaseAddress p o device := by
  simp only [gsmBaseAddress, stolenBaseAddress, if_neg static, getGSMBaseAddress, carved,
    Bool.false_eq_true, if_false, getDSMBaseAddress]

theorem mmioDevice_eq : ∀ device, device < 4 → mmioDevice device = device * 0x1000000 := by
  decide

/-- The mask keeps an aligned base whole. -/
theorem and_mask {base : Nat} (aligned : base % 2 ^ 20 = 0) :
    (base &&& 0xFFF00000) % 2 ^ 32 = base % 2 ^ 32 := by
  have hbase : base = (base / 2 ^ 20) <<< 20 := by
    rw [Nat.shiftLeft_eq]
    omega
  have hmask : (0xFFF00000 : Nat) = (2 ^ 12 - 1) <<< 20 := by decide
  rw [hmask, hbase, ← Nat.shiftLeft_and_distrib, Nat.and_two_pow_sub_one_eq_mod,
    Nat.shiftLeft_eq, Nat.shiftLeft_eq]
  omega

section
variable {p : Product} {o : AubManagerOptions} {heap : HeapStorage p o}

theorem gsmBaseAddress_aligned (created : create p o = true) {device : Nat}
    (h : device < o.devicesCount) : gsmBaseAddress heap device % 2 ^ 20 = 0 := by
  have sizes := create_sizes created
  have haligned := sizes.aligned
  have hparts := sizes.parts
  have hfits := sizes.fits
  have hbank := o.memoryBankSize_lt
  have hflat : getFlatCCSSize o.memoryBankSize % 2 ^ 20 = 0 := by
    unfold getFlatCCSSize alignUp wrap64
    omega
  have hstolen : stolenBaseAddress heap device % 2 ^ 20 = 0 := by
    unfold stolenBaseAddress
    split
    · exact heap.aligned device h
    · unfold getBaseAddress alignDown
      omega
  unfold gsmBaseAddress wrap64
  simp only [getGSMSize, MB] at hparts ⊢
  omega

theorem valuesAt_writeBase (register gttBase offset : Nat) : valuesAt (writeBase register gttBase) offset =
    (if register + 4 = offset then [gttBase / 2 ^ 32 % 2 ^ 32] else []) ++
      if register = offset then [(gttBase &&& 0xFFF00000) % 2 ^ 32] else [] :=
  valuesAt_pair _ _ _ _ _

theorem valuesAt_writeRemoteBase {remote register device : Nat} (low : gsmBase + 4 < register)
    (high : register + 4 < 0x1000000 + gsmBase) {device' offset : Nat} (h : device' < 4)
    (hoffset : offset ≤ 4) :
    valuesAt (writeRemoteBase heap remote register device) (mmioDevice device' + gsmBase + offset) =
      [] := by
  have hzero : mmioDevice 0 = 0 := rfl
  unfold writeRemoteBase
  split
  · rw [valuesAt_writeBase, mmioDevice_eq device' h, hzero]
    unfold gsmBase at low high ⊢
    rw [if_neg (by omega), if_neg (by omega), List.nil_append]
  · rfl

/-- Each device's registers are written once. -/
theorem valuesAt_setGGTTBaseAddresses {deviceCount device : Nat} (few : deviceCount ≤ 4)
    (h : device < deviceCount) :
    valuesAt (setGGTTBaseAddresses heap deviceCount) (mmioDevice device + gsmBase) =
        [(gsmBaseAddress heap device &&& 0xFFF00000) % 2 ^ 32] ∧
      valuesAt (setGGTTBaseAddresses heap deviceCount) (mmioDevice device + gsmBase + 4) =
        [gsmBaseAddress heap device / 2 ^ 32 % 2 ^ 32] := by
  have hremote : ∀ offset, offset ≤ 4 → ∀ j, j < deviceCount →
      valuesAt (writeBase (mmioDevice j + gsmBase) (gsmBaseAddress heap j) ++
        (writeRemoteBase heap 1 gsmBaseRem1 j ++ (writeRemoteBase heap 2 gsmBaseRem2 j ++
          writeRemoteBase heap 3 gsmBaseRem3 j))) (mmioDevice device + gsmBase + offset) =
      valuesAt (writeBase (mmioDevice j + gsmBase) (gsmBaseAddress heap j))
        (mmioDevice device + gsmBase + offset) := by
    intro offset hoffset j _
    rw [valuesAt_append, valuesAt_append, valuesAt_append,
      valuesAt_writeRemoteBase (by decide) (by decide) (by omega) hoffset,
      valuesAt_writeRemoteBase (by decide) (by decide) (by omega) hoffset,
      valuesAt_writeRemoteBase (by decide) (by decide) (by omega) hoffset]
    simp only [List.append_nil]
  have hdevice := mmioDevice_eq device (by omega)
  unfold setGGTTBaseAddresses
  constructor
  · rw [← Nat.add_zero (mmioDevice device + gsmBase), valuesAt_range, if_pos h]
    intro j hj
    rw [hremote 0 (by decide) j hj, valuesAt_writeBase, mmioDevice_eq j (by omega), hdevice,
      if_neg (by omega), List.nil_append]
    by_cases hsame : j = device
    · rw [hsame, if_pos (Nat.add_zero _).symm, if_pos rfl]
    · rw [if_neg (by omega), if_neg hsame]
  · rw [valuesAt_range, if_pos h]
    intro j hj
    rw [hremote 4 (by decide) j hj, valuesAt_writeBase, mmioDevice_eq j (by omega), hdevice]
    by_cases hsame : j = device
    · rw [hsame, if_pos rfl, if_neg (by omega), if_pos rfl, List.append_nil]
    · rw [if_neg (by omega), if_neg (by omega), if_neg hsame, List.append_nil]

theorem setGGTTBaseAddresses_programs (created : create p o = true) (few : o.devicesCount ≤ 4)
    {device : Nat} (h : device < o.devicesCount) :
    programmedBase (setGGTTBaseAddresses heap o.devicesCount) device =
      some (gsmBaseAddress heap device) := by
  obtain ⟨hlower, hupper⟩ := @valuesAt_setGGTTBaseAddresses p o heap o.devicesCount device few h
  have hlt : gsmBaseAddress heap device < 2 ^ 64 := Nat.mod_lt _ (by decide)
  have hmask := and_mask (@gsmBaseAddress_aligned p o heap created device h)
  unfold programmedBase
  rw [hlower, hupper]
  simp only
  generalize gsmBaseAddress heap device = base at hlt hmask ⊢
  rw [hmask, qwordOf, Nat.mod_eq_of_lt (a := base / 2 ^ 32) (by omega), Nat.mod_add_div]

end

theorem allocatorIndex_pow {fuel device : Nat} (h : device < fuel) :
    PhysicalAddressAllocatorSimple.allocatorIndex fuel (2 ^ device) = device := by
  induction fuel generalizing device with
  | zero => omega
  | succ fuel ih =>
    unfold PhysicalAddressAllocatorSimple.allocatorIndex
    cases device with
    | zero => rfl
    | succ device =>
      rw [if_pos (by omega), Nat.pow_succ, Nat.mul_div_cancel _ (by decide), ih (by omega)]

section
variable {A : Type} [PhysicalAddressAllocator A] {p : Product} {o : AubManagerOptions}
  {heap : HeapStorage p o}

/-- The offset of the table and that of the entry both count the device. -/
theorem entryLocation_eq {device : Nat} (h : device < 32) (index : Nat) (page : GttPage) :
    entryLocation (allocateGGTT heap device) (entryOf (allocateGGTT heap device).ggtt index page) =
      wrap64 (gsmBaseAddress heap device + (0x1000000 * device + 8 * index)) := by
  have hbank : (2 : Nat) ^ device ≠ 0 := Nat.ne_of_gt (Nat.two_pow_pos device)
  simp only [entryLocation, allocateGGTT, entryOf, GGTT.entryOffset, if_neg hbank,
    allocatorIndex_pow h]

theorem entryOf_index {ggtt : GGTT} {index index' : Nat} {page page' : GttPage}
    (h : entryOf ggtt index page = entryOf ggtt index' page') : index = index' := by
  have haddress := congrArg PageEntryInfo.physicalAddress h
  simp only [entryOf] at haddress
  omega

/-- The entries of a walk are those of indices of the table. -/
theorem walkEntries_index (device : Nat) (s : GttStreams A) (g size memoryBanks : Nat)
    {pageSize : Nat} (mode : WalkMode) (hsize : IsGttPageSize pageSize) :
    ∀ e ∈ walkEntries heap device s g size memoryBanks pageSize mode,
      ∃ index page, index < 2 ^ 20 ∧ e = entryOf (allocateGGTT heap device).ggtt index page := by
  obtain ⟨_, _, hJ, _⟩ := walkPages_rule (allocateGGTT heap device).ggtt s.isAubFileStreamPaused
    memoryBanks mode
    (J := fun _ _ w => ∀ e ∈ w.ggttEntries, ∃ index page, index < 2 ^ 20 ∧
      e = entryOf (allocateGGTT heap device).ggtt index page)
    (fun g' _ w _ _ _ hJ e he => by
      rcases List.mem_append.mp he with hold | hnew
      · exact hJ e hold
      · obtain ⟨i, hi, rfl⟩ := List.mem_map.mp hnew
        refine ⟨firstIndex pageSize g' + i, _, ?_, rfl⟩
        rw [List.mem_range] at hi
        rcases hsize with rfl | rfl
        · have hone : entriesToDump pageSize4KB = 1 := rfl
          simp only [firstIndex, GGTT.getIndex]
          omega
        · have hsixteen : entriesToDump pageSize64KB = 16 := rfl
          simp only [firstIndex, GGTT.getIndex, pageSize64KB] at hsixteen hi ⊢
          omega)
    (fun _ _ _ _ _ hJ => hJ) (fun _ _ _ _ hJ => hJ) size g size
    ⟨s.children, s.allocator, [], []⟩ (Or.inl (Nat.le_refl _)) (by simp)
  exact hJ

/-- The GSM of the first device ends inside the address space. -/
theorem gsmBaseAddress_first (created : create p o = true) (one : o.devicesCount = 1) :
    gsmBaseAddress heap 0 + getGSMSize ≤ 2 ^ 64 := by
  have sizes := create_sizes created
  have hparts := sizes.parts
  have hpos := sizes.dsm_pos
  have hbank := o.memoryBankSize_lt
  have hend : stolenBaseAddress heap 0 + getStolenMemorySize p o ≤ 2 ^ 64 := by
    unfold stolenBaseAddress
    split
    · exact heap.inside 0 (by omega)
    · have space : InAddressSpace o := by
        rw [InAddressSpace, one, Nat.one_mul]
        exact Nat.le_of_lt hbank
      exact Nat.le_trans (stolen_end sizes space (by omega)) (bankEnd_le space (by omega))
  unfold gsmBaseAddress wrap64
  omega

theorem landsInGsm_first (created : create p o = true) (one : o.devicesCount = 1) :
    LandsInGsm heap A 0 := by
  intro s g size memoryBanks pageSize mode hsize e he
  have hend := @gsmBaseAddress_first p o heap created one
  obtain ⟨index, page, hindex, rfl⟩ := walkEntries_index 0 s g size memoryBanks mode hsize e he
  refine ⟨index, page, rfl, ?_⟩
  rw [entryLocation_eq (by decide)]
  simp only [getGSMSize, MB, wrap64] at hend ⊢
  omega

/-- The first entry of the second device lands 16MB behind its slot. -/
theorem not_landsInGsm_second (a : A) : ¬ LandsInGsm heap A 1 := by
  intro lands
  obtain ⟨index, page, heq, hlocation, _⟩ := lands (start a) 0 4 0 pageSize4KB .Reserve (Or.inl rfl)
    _ List.mem_cons_self
  have hindex := entryOf_index heq
  have hlt : gsmBaseAddress heap 1 < 2 ^ 64 := Nat.mod_lt _ (by decide)
  rw [entryLocation_eq (by decide), ← hindex] at hlocation
  unfold wrap64 at hlocation
  omega

end

/-- The GTT entries of all devices are in their GSMs if and only if there is one device. -/
theorem entriesInGsm_iff {A : Type} [PhysicalAddressAllocator A] (a : A) (p : Product)
    (o : AubManagerOptions) (heap : HeapStorage p o) (created : create p o = true)
    (few : o.devicesCount ≤ 4) : EntriesInGsm heap A ↔ o.devicesCount ≤ 1 := by
  constructor
  · intro inGsm
    by_contra several
    exact not_landsInGsm_second a (inGsm.lands 1 (by omega))
  · intro one
    constructor
    · intro device h
      obtain rfl : device = 0 := by omega
      exact landsInGsm_first created (by omega)
    · exact fun device h => setGGTTBaseAddresses_programs created few h
    · intro device device' h h' hne
      omega

/-- A manager of one device with 256MB of memory, in the first shared memory mode. -/
def oneDevice : AubManagerOptions := ⟨1, 0x10000000, true, .tbxShm, 0, 0, by decide⟩

/-- The same with two devices. -/
def twoDevices : AubManagerOptions := ⟨2, 0x10000000, true, .tbxShm, 0, 0, by decide⟩

theorem entriesInGsm_oneDevice :
    EntriesInGsm (o := oneDevice) (p := gpuXeCore) ⟨fun _ => 0, fun _ _ => rfl, fun _ _ => by decide⟩
      PhysicalAddressAllocatorSimple :=
  (entriesInGsm_iff (PhysicalAddressAllocatorSimple.new 1 0x10000000 true) gpuXeCore oneDevice _
    (by decide) (by decide)).mpr (by decide)

/-- The second of two devices: its entry 0 lands 16MB behind the base of its GSM. -/
theorem not_entriesInGsm :
    ¬ ∀ (p : Product) (o : AubManagerOptions) (heap : HeapStorage p o), create p o = true →
      o.devicesCount ≤ 4 → EntriesInGsm heap PhysicalAddressAllocatorSimple := by
  intro claim
  have inGsm := claim gpuXeCore twoDevices ⟨fun _ => 0, fun _ _ => rfl, fun _ _ => by decide⟩
    (by decide) (by decide)
  exact not_landsInGsm_second (PhysicalAddressAllocatorSimple.new 2 0x10000000 true)
    (inGsm.lands 1 (by decide))

end ShmGtt
