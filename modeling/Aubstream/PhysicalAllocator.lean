import Aubstream.EntryBits

/-!
# Physical address allocators

`SimpleAllocator` keeps two multimaps from addresses to sizes and a bump cursor.
A multimap is the list of its elements in iteration order: keys ascend and an
insertion goes behind equal keys.
-/

namespace PhysicalAllocator
open EntryBits

/-- The virtual interface that page tables and clients are handed. -/
class PhysicalAddressAllocator (A : Type) where
  reservePhysicalMemory : A → Nat → Nat → Nat → Nat × A
  freePhysicalMemory : A → Nat → Nat → A

export PhysicalAddressAllocator (reservePhysicalMemory freePhysicalMemory)

def mainBank : Nat := 0

def multimapInsert (e : Nat × Nat) : List (Nat × Nat) → List (Nat × Nat)
  | [] => [e]
  | x :: rest => if e.1 < x.1 then e :: x :: rest else x :: multimapInsert e rest

/-- `bits` is the width of `AddressType`. `highWater` is not in the source and no function reads
it: it is the largest end of a block behind the cursor, before it is cut to that width, so that
running out of addresses can be stated. -/
structure SimpleAllocator (bits : Nat) where
  nextAddress : Nat
  usedAllocationsMap : List (Nat × Nat)
  freeAllocationsMap : List (Nat × Nat)
  highWater : Nat
  deriving DecidableEq, Repr

namespace SimpleAllocator

variable {bits : Nat}

def new (firstAddress : Nat) : SimpleAllocator bits := ⟨firstAddress, [], [], firstAddress⟩

/-- `(x + a - 1) & ~(a - 1)`. -/
def alignUp (x a : Nat) : Nat := x + (a - 1) - ((x + (a - 1)) &&& (a - 1))

def alignedAlloc (s : SimpleAllocator bits) (size alignment : Nat) :
    Nat × SimpleAllocator bits :=
  match s.freeAllocationsMap.find? fun e => e.2 = size with
  | some e => (e.1, { s with
      usedAllocationsMap := multimapInsert e s.usedAllocationsMap
      freeAllocationsMap := s.freeAllocationsMap.erase e })
  | none =>
    let physicalAddress := alignUp s.nextAddress (max alignment 4096) % 2 ^ bits
    (physicalAddress, { s with
      nextAddress := (physicalAddress + size) % 2 ^ bits
      usedAllocationsMap := multimapInsert (physicalAddress, size) s.usedAllocationsMap
      highWater := max s.highWater (alignUp s.nextAddress (max alignment 4096) + size) })

def alignedFree (s : SimpleAllocator bits) (address : Nat) : SimpleAllocator bits :=
  match s.usedAllocationsMap.find? fun e => e.1 = address % 2 ^ bits with
  | some e => { s with
      freeAllocationsMap := multimapInsert e s.freeAllocationsMap
      usedAllocationsMap := s.usedAllocationsMap.erase e }
  | none => s

end SimpleAllocator

def reservedGGTTSpace : Nat := 0x80000

/-- `allocators` is only read below `numberOfAllocators`, which the source asserts. -/
structure PhysicalAddressAllocatorSimple where
  mainAllocator : SimpleAllocator 64
  numberOfAllocators : Nat
  allocators : Nat → SimpleAllocator 64

namespace PhysicalAddressAllocatorSimple

/-- Bank `i` starts at `i * singleAllocatorSize`, behind the space kept for compression
when local memory is supported, and never at address 0. -/
def new (numberOfAllocators singleAllocatorSize : Nat) (localMemorySupport : Bool) :
    PhysicalAddressAllocatorSimple where
  mainAllocator := .new reservedGGTTSpace
  numberOfAllocators := numberOfAllocators
  allocators := fun i => .new <| max 0x1000 <| wrap64 <|
    (if localMemorySupport then singleAllocatorSize / 256 else 0) + i * singleAllocatorSize

/-- Shift the bank mask right until its lowest bit is set; 32 bounds the shifts. -/
def allocatorIndex : Nat → Nat → Nat
  | 0, _ => 0
  | fuel + 1, memoryBank =>
    if memoryBank % 2 = 0 then allocatorIndex fuel (memoryBank / 2) + 1 else 0

/-- The allocator that serves a bank: `none` is `mainAllocator`. -/
def slotOf (a : PhysicalAddressAllocatorSimple) (memoryBank : Nat) : Option Nat :=
  if memoryBank = 0 ∨ a.numberOfAllocators = 0 then none
  else some (allocatorIndex 32 memoryBank)

def get (a : PhysicalAddressAllocatorSimple) : Option Nat → SimpleAllocator 64
  | none => a.mainAllocator
  | some i => a.allocators i

def set (a : PhysicalAddressAllocatorSimple) (slot : Option Nat) (s : SimpleAllocator 64) :
    PhysicalAddressAllocatorSimple :=
  match slot with
  | none => { a with mainAllocator := s }
  | some i => { a with allocators := fun j => if j = i then s else a.allocators j }

def reserve (a : PhysicalAddressAllocatorSimple) (memoryBank size alignment : Nat) :
    Nat × PhysicalAddressAllocatorSimple :=
  let r := (a.get (a.slotOf memoryBank)).alignedAlloc size alignment
  (r.1, a.set (a.slotOf memoryBank) r.2)

def free (a : PhysicalAddressAllocatorSimple) (memoryBank address : Nat) :
    PhysicalAddressAllocatorSimple :=
  a.set (a.slotOf memoryBank) ((a.get (a.slotOf memoryBank)).alignedFree address)

end PhysicalAddressAllocatorSimple

instance : PhysicalAddressAllocator PhysicalAddressAllocatorSimple where
  reservePhysicalMemory := PhysicalAddressAllocatorSimple.reserve
  freePhysicalMemory := PhysicalAddressAllocatorSimple.free

end PhysicalAllocator
