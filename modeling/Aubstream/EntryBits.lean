import Mathlib.Data.Nat.Bitwise

/-!
# Page-table entry bits and the parts of a GPU the walker asks for

The two virtual functions of `Gpu` that the page-table code calls are fields,
so every statement below is about every product the library supports.
-/

namespace EntryBits

def toBitValue (bit : Nat) : Nat := 2 ^ bit

def presentBit : Nat := 0
def writableBit : Nat := 1
def intermediatePageSizeBit : Nat := 6
def largePageSizeBit : Nat := 7
def ps64Bit : Nat := 8
def atomicEnableBit : Nat := 10
def legacyIntermediatePageSizeBit : Nat := 11
def localMemoryBit : Nat := 11

def pageSize4KB : Nat := 4096
def pageSize64KB : Nat := 65536
def pageSize2MB : Nat := 2 * 1024 * 1024

/-- `uint64_t` arithmetic. -/
def wrap64 (x : Nat) : Nat := x % 2 ^ 64

/-- `AllocationParams::AdditionalParams`, less its padding. -/
structure AdditionalParams where
  compressionEnabled : Bool
  uncached : Bool
  deriving DecidableEq, Repr

structure Gpu where
  getPPGTTExtraEntryBits : AdditionalParams → Nat
  isMemorySupported : Nat → Nat → Bool

/-- Loop levels of the page walk, the last level first. -/
def Pte : Nat := 0
def Pde : Nat := 1
def Pdp : Nat := 2
def Pml4 : Nat := 3
def Pml5 : Nat := 4

end EntryBits
