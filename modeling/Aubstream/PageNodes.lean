import Aubstream.PathTree
import Aubstream.PhysicalAllocator

/-!
# Page-table nodes

One record stands for every class derived from `PageTable`; its kind stands for
the dynamic type. `PML5`, `PML4`, `PDP` and `PDE` differ only in the address bits
that select a child, which the loop level determines, so they share a kind.
-/

namespace PageNodes
open EntryBits PathTree PhysicalAllocator

inductive PteKind where
  | PTE4KB
  | PTE64KB
  | LegacyPTE64KB
  deriving DecidableEq, Repr

inductive NodeKind where
  | directory
  | pte (k : PteKind)
  | page2MB
  | memory
  deriving DecidableEq, Repr

/-- What the constructor reserved from the allocator. -/
structure Block where
  memoryBank : Nat
  physicalAddress : Nat
  size : Nat
  deriving DecidableEq, Repr

/-- `allocator` is `some` when the allocator pointer is not null. The source keeps
only the pointer; the block its constructor reserved is recorded with it so that
ownership can be stated. No function of the model reads the block. -/
structure PageNode where
  kind : NodeKind
  physicalAddress : Nat
  memoryBank : Nat
  allocator : Option Block
  additionalAllocParams : AdditionalParams
  ps64 : Bool
  pendingWrite : Bool
  deriving DecidableEq, Repr

abbrev Nodes := IndexTree PageNode

namespace PteKind

def getPageSize : PteKind → Nat
  | PTE4KB => pageSize4KB
  | PTE64KB => pageSize64KB
  | LegacyPTE64KB => pageSize64KB

/-- `(gfxAddress >> 12) & 0x1ff`, `(gfxAddress >> 16) & 0x1f` and
`(gfxAddress >> 12) & 0x1f0`. -/
def getIndex : PteKind → Nat → Nat
  | PTE4KB, gfxAddress => gfxAddress / 2 ^ 12 % 512
  | PTE64KB, gfxAddress => gfxAddress / 2 ^ 16 % 32
  | LegacyPTE64KB, gfxAddress => gfxAddress / 2 ^ 16 % 32 * 16

end PteKind

/-- `PML5`, `PML4`, `PDP` and `PDE` select a child by nine bits from bit
`12 + 9 * level` up. -/
def directoryIndex (level gfxAddress : Nat) : Nat := gfxAddress / 2 ^ (12 + 9 * level) % 512

def NodeKind.getIndex (kind : NodeKind) (level gfxAddress : Nat) : Nat :=
  match kind with
  | .pte k => k.getIndex gfxAddress
  | _ => directoryIndex level gfxAddress

/-- Page size of a last-level table or a 2MB page, 0 for every other node. -/
def NodeKind.getPageSize : NodeKind → Nat
  | .directory => 0
  | .pte k => k.getPageSize
  | .page2MB => pageSize2MB
  | .memory => 0

namespace PageNode

def isLocalMemory (n : PageNode) : Bool := n.memoryBank != 0

def bitIf (enable : Bool) (bit : Nat) : Nat := if enable then toBitValue bit else 0

def getEntryValue (gpu : Gpu) (n : PageNode) : Nat :=
  wrap64 <| n.physicalAddress ||| match n.kind with
  | .directory => toBitValue writableBit ||| toBitValue presentBit
  | .pte .PTE4KB => toBitValue writableBit ||| toBitValue presentBit
  | .pte .PTE64KB => toBitValue intermediatePageSizeBit ||| toBitValue writableBit |||
      toBitValue presentBit
  | .pte .LegacyPTE64KB => toBitValue legacyIntermediatePageSizeBit |||
      toBitValue writableBit ||| toBitValue presentBit
  | .page2MB => toBitValue largePageSizeBit ||| toBitValue writableBit |||
      toBitValue presentBit ||| bitIf n.isLocalMemory localMemoryBit |||
      gpu.getPPGTTExtraEntryBits n.additionalAllocParams
  | .memory => toBitValue writableBit ||| toBitValue presentBit |||
      bitIf n.isLocalMemory localMemoryBit ||| bitIf n.ps64 ps64Bit |||
      gpu.getPPGTTExtraEntryBits n.additionalAllocParams

def setPs64 (n : PageNode) (enable : Bool) : PageNode := { n with ps64 := enable }

def setPendingWrite (n : PageNode) (enable : Bool) : PageNode := { n with pendingWrite := enable }

end PageNode

def noParams : AdditionalParams := ⟨false, false⟩

section
variable {A : Type} [PhysicalAddressAllocator A]

/-- `PageTable(gpu, allocator, size, tableCount, memoryBank)`: a dedicated block of at
least 4KB, aligned to its size. -/
def constructNode (a : A) (kind : NodeKind) (size memoryBank : Nat)
    (params : AdditionalParams) : PageNode × A :=
  let size := max size 4096
  let r := reservePhysicalMemory a memoryBank size size
  (⟨kind, r.1, memoryBank, some ⟨memoryBank, r.1, size⟩, params, false, false⟩, r.2)

/-- `PageTable(gpu, physicalAddress, memoryBank, params)`: memory of another owner. -/
def foreignNode (kind : NodeKind) (physicalAddress memoryBank : Nat)
    (params : AdditionalParams) : PageNode :=
  ⟨kind, physicalAddress, memoryBank, none, params, false, false⟩

/-- `~PageTable`, for a node without children. -/
def destroyNode (a : A) (n : PageNode) : A :=
  match n.allocator with
  | some _ => freePhysicalMemory a n.memoryBank n.physicalAddress
  | none => a

end

/-- Page tables of a device: the class of the root. -/
inductive PpgttKind where
  | PML4
  | LegacyPML4
  | PML5
  deriving DecidableEq, Repr

namespace PpgttKind

def getNumLevels : PpgttKind → Nat
  | PML4 => 4
  | LegacyPML4 => 4
  | PML5 => 5

def getNumAddressBits : PpgttKind → Nat
  | PML4 => 48
  | LegacyPML4 => 48
  | PML5 => 57

/-- The 64KB table of the root's `PDE` class. -/
def pte64KB : PpgttKind → PteKind
  | LegacyPML4 => .LegacyPTE64KB
  | _ => .PTE64KB

end PpgttKind

/-- The node an interior `allocateChild` constructs at a loop level, and its size. -/
def tableKind (ppgtt : PpgttKind) (level pageSize : Nat) : NodeKind :=
  if level = Pde then
    if pageSize = pageSize2MB then .page2MB
    else if pageSize = pageSize64KB then .pte ppgtt.pte64KB
    else .pte .PTE4KB
  else .directory

def tableSize (level pageSize : Nat) : Nat :=
  if level = Pde ∧ pageSize = pageSize2MB then pageSize2MB else 4096

/-- Address from which a parent's entry for a child is read. -/
def entryAddress (t : Nodes) : Path → Nat
  | [] => 0
  | i :: p => match t p with
    | some parent => parent.physicalAddress + i * 8
    | none => 0

end PageNodes
