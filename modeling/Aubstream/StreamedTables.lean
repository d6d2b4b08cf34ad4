import Aubstream.OwnedRuns
import Aubstream.FreeComplete
import Aubstream.WrittenPaths
import Aubstream.FaithfulMemory
import Aubstream.WrittenPages
import Aubstream.MemoryBlocks

/-!
# Page tables and the memory behind their stream

Page tables that share an allocator with a client are written through a stream
that is never paused. The simulator's memory is what the records leave there.
-/

namespace StreamedTables
open EntryBits PathTree PhysicalAllocator AllocatorBlocks PageNodes PageWalker TreeShape Translation
  FreeMemory FreePhases FreeRounds Reservations MapFrame Placement BlockOwners AubPackets AubManager
  WrittenPaths StreamedMemory MemoryBlocks WrittenPages
open FreeComplete hiding fourLevel
open TableRuns hiding Op step

/-- `reservations` are the blocks that clients were given; the source has no such list. -/
structure Simulation where
  ppgtts : List Nodes
  allocator : PhysicalAddressAllocatorSimple
  reservations : List Block
  image : Memory

/-- Calls for the table of one device. -/
inductive Call where
  | writeMemory (device : Nat) (params : AllocationParams)
  | reservePhysicalMemory (params : AllocationParams)
  | mapGpuVa (device physicalAddress : Nat) (params : AllocationParams)
  | freeMemory (device gfxAddress size : Nat)

/-- The root says where a table lies. -/
def bankOf (t : Nodes) : Nat := ((t []).map (·.memoryBank)).getD 0

def rootAddress (t : Nodes) : Nat := ((t []).map (·.physicalAddress)).getD 0

section
variable (m : AubManagerImp PhysicalAddressAllocatorSimple)

/-- The stream asks the table, not the manager, for `isLocalMemory`. -/
def forTable (t : Nodes) : AubManagerImp PhysicalAddressAllocatorSimple :=
  { m with pageTablesInLocalMemory := bankOf t != 0 }

/-- `AubStream::writeMemory` with no tables to clone to. -/
def writeTable (params : AllocationParams) (t : Nodes) (a : PhysicalAddressAllocatorSimple) :
    Option (Nodes × PhysicalAddressAllocatorSimple × List Record) :=
  (m.walk params .Reserve [] none t a).bind fun w =>
    (AubManagerImp.writeData (commit w) params w.entries).map fun data =>
      (commit w, w.allocator, (forTable m t).writePages w ++ data)

/-- One call of the stream. -/
def atDevice (f : Nodes → PhysicalAddressAllocatorSimple →
      Option (Nodes × PhysicalAddressAllocatorSimple × List Record)) (device : Nat)
    (s : Simulation) : Option Simulation :=
  (s.ppgtts[device]?).bind fun t => (f t s.allocator).map fun r =>
    ⟨s.ppgtts.set device r.1, r.2.1, s.reservations, storeRecords s.image r.2.2⟩

/-- A reservation that is refused changes nothing. `none`: the behaviour is undefined. -/
def call (s : Simulation) : Call → Option Simulation
  | .writeMemory device params => atDevice (writeTable m params) device s
  | .reservePhysicalMemory params =>
    match Reservations.reservePhysicalMemory m.tables.gpu s.allocator params with
    | none => some s
    | some (info, a) => some ⟨s.ppgtts, a, s.reservations ++ [⟨info.memoryBank, info.physicalAddress,
        sizePageAligned params.gfxAddress params.size info.pageSize⟩], s.image⟩
  | .mapGpuVa device physicalAddress params => atDevice (fun t =>
      (forTable m t).walkTable params .Reserve [] (some physicalAddress) t) device s
  | .freeMemory device gfxAddress size => atDevice (fun t =>
      (forTable m t).freeTable gfxAddress size t) device s

/-- Tables in their banks, and a memory of zeros. -/
def newSimulation (memoryBanks : List Nat) (numberOfAllocators singleAllocatorSize : Nat)
    (localMemorySupport : Bool) : Simulation :=
  let s := ManagerRuns.start memoryBanks numberOfAllocators singleAllocatorSize localMemorySupport
  ⟨s.ppgtts, s.allocator, [], blank⟩

end

/-- The walk of the hardware for an address, from the root of a table. -/
def hardwareWalk (n : Nat) (image : Memory) (t : Nodes) (x : Nat) : Option Nat :=
  HardwareWalk.walk (word image (regionOf (bankOf t))) x (n - 1) (rootAddress t)

/-- Where the hardware finds a leaf, there is one. -/
def NoPhantoms (n : Nat) (s : Simulation) : Prop :=
  ∀ t ∈ s.ppgtts, ∀ x entry, hardwareWalk n s.image t x = some entry → IsMapped n t x

/-! ### Records -/

section Records
variable {m : AubManagerImp PhysicalAddressAllocatorSimple} {t : Nodes}
  {w : WalkState PhysicalAddressAllocatorSimple} {record : Record} {image : Memory}

theorem entryRecord_writeEntries {addressSpace : AddressSpaceValues} {hint : Nat}
    {table : List PageEntryInfo} {r : Region} (hr : region addressSpace.value = r)
    (h : record ∈ writeEntries addressSpace hint table) : EntryRecord r record := by
  unfold writeEntries at h
  split at h
  · cases h
  · obtain rfl := List.mem_singleton.mp h
    exact hr

theorem region_of_table (t : Nodes) :
    region (if bankOf t != 0 then AddressSpaceValues.TraceLocal else .TraceNonlocal).value =
      regionOf (bankOf t) := by
  unfold regionOf
  cases bankOf t != 0
  · rfl
  · rfl

theorem entryRecord_writeLevel {legacy : AddressSpaceValues} {hint : Nat}
    {table : List PageEntryInfo} (hlegacy : region legacy.value = .systemMemory)
    (h : record ∈ (forTable m t).writeLevel legacy hint table) :
    EntryRecord (regionOf (bankOf t)) record := by
  unfold AubManagerImp.writeLevel at h
  simp only at h
  split at h
  · rename_i hsystem
    refine entryRecord_writeEntries ?_ h
    have hbank : (bankOf t != 0) = false := by
      rw [Bool.and_eq_true, Bool.not_eq_true', Bool.not_eq_true'] at hsystem
      exact hsystem.2
    rw [hlegacy, regionOf, hbank]
    rfl
  · exact entryRecord_writeEntries (region_of_table t) h

theorem entryRecord_writePages (h : record ∈ (forTable m t).writePages w) :
    EntryRecord (regionOf (bankOf t)) record := by
  simp only [AubManagerImp.writePages, AubManagerImp.writePageWalkEntries, List.mem_append,
    List.mem_map] at h
  rcases h with ⟨_, _, rfl⟩ | (((h | h) | h) | h) | h
  · trivial
  · split at h
    · exact entryRecord_writeEntries (region_of_table t) h
    · cases h
  · exact entryRecord_writeLevel rfl h
  · exact entryRecord_writeLevel rfl h
  · exact entryRecord_writeLevel rfl h
  · exact entryRecord_writeLevel rfl h

theorem entryRecord_writeFreed {r : FreeState PhysicalAddressAllocatorSimple × Bool}
    (h : record ∈ (forTable m t).writeFreed r) : EntryRecord (regionOf (bankOf t)) record := by
  unfold AubManagerImp.writeFreed at h
  split at h
  · simp only [List.mem_append] at h
    rcases h with (h | h) | h
    · exact entryRecord_writeLevel rfl h
    · exact entryRecord_writeLevel rfl h
    · exact entryRecord_writeEntries (region_of_table t) h
  · cases h

/-- What a walk writes is from its lists. -/
theorem entriesOf_writePages {e : PageEntryInfo} (h : e ∈ entriesOf (m.writePages w)) :
    ∃ l, e ∈ w.pageWalkEntries l := by
  have hpages : entriesOf (w.pages64KB.map Record.reserveContiguousPages) = [] := by
    rw [entriesOf, List.flatMap_map]
    exact List.flatMap_eq_nil_iff.mpr fun _ _ => rfl
  simp only [AubManagerImp.writePages, AubManagerImp.writePageWalkEntries, entriesOf_append, hpages,
    entriesOf_writeLevel, List.mem_append, List.not_mem_nil, false_or] at h
  rcases h with (((h | h) | h) | h) | h
  · split at h
    · rw [entriesOf_writeEntries] at h
      exact ⟨_, h⟩
    · cases h
  · exact ⟨_, h⟩
  · exact ⟨_, h⟩
  · exact ⟨_, h⟩
  · exact ⟨_, h⟩

theorem storeRecords_append (xs ys : List Record) :
    storeRecords image (xs ++ ys) = storeRecords (storeRecords image xs) ys := List.foldl_append

theorem storeRecords_writePages : storeRecords image ((forTable m t).writePages w) =
    storeEntries (regionOf (bankOf t)) image (entriesOf ((forTable m t).writePages w)) :=
  storeRecords_entries (regionOf_ne_gtt _) fun _ h => entryRecord_writePages h

theorem storeRecords_writeFreed (r : FreeState PhysicalAddressAllocatorSimple × Bool) :
    storeRecords image ((forTable m t).writeFreed r) =
      storeEntries (regionOf (bankOf t)) image (writtenEntries r) := by
  rw [storeRecords_entries (regionOf_ne_gtt _) fun _ h => entryRecord_writeFreed h,
    entriesOf_writeFreed]

end Records

end StreamedTables
