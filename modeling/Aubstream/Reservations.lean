import Aubstream.TableRuns

/-!
# Reservations of physical memory

`AubManagerImp::reservePhysicalMemory` hands a block to the client, and
`mapGpuVa` maps it later with the page size and the bank of the reservation.
-/

namespace Reservations
open EntryBits PhysicalAllocator PageNodes PageWalker

structure PhysicalAllocationInfo where
  physicalAddress : Nat
  size : Nat
  memoryBank : Nat
  pageSize : Nat
  deriving DecidableEq, Repr

/-- `CommandStreamerHelper::getSupportedPageSize`. -/
def getSupportedPageSize (gpu : Gpu) (memoryBank pageSize : Nat) : Nat :=
  if gpu.isMemorySupported memoryBank pageSize then pageSize
  else if pageSize = pageSize2MB then pageSize64KB
  else if pageSize = pageSize64KB then pageSize4KB
  else pageSize64KB

/-- `(gfxOffset + size + pageSize - 1) & ~(pageSize - 1)` with the offset of the address in its
page. -/
def sizePageAligned (gfxAddress size pageSize : Nat) : Nat :=
  wrap64 (gfxAddress % pageSize + size + pageSize - 1) / pageSize * pageSize

/-- The memory bank is a single bit or the system bank. -/
def isSingleBank (memoryBanks : Nat) : Bool := memoryBanks &&& (memoryBanks - 1) == 0

variable {A : Type} [PhysicalAddressAllocator A]

/-- `none` is the return value `false`. -/
def reservePhysicalMemory (gpu : Gpu) (a : A) (params : AllocationParams) :
    Option (PhysicalAllocationInfo × A) :=
  let pageSize := getSupportedPageSize gpu params.memoryBanks params.pageSize
  if params.size = 0 then none
  else if pageSize = 0 then none
  else if params.memoryBanks ≠ 0 ∧ isSingleBank params.memoryBanks = false then none
  else
    let r := PhysicalAddressAllocator.reservePhysicalMemory a params.memoryBanks
      (sizePageAligned params.gfxAddress params.size pageSize) pageSize
    some (⟨r.1, params.size, params.memoryBanks, pageSize⟩, r.2)

/-- The parameters that `AubManagerImp::mapGpuVa` hands to the walk. -/
def mapParams (gfxAddress size : Nat) (info : PhysicalAllocationInfo) : AllocationParams :=
  ⟨gfxAddress, none, size, info.memoryBank, 0, info.pageSize, noParams⟩

end Reservations
