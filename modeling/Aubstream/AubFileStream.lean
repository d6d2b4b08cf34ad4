import Aubstream.AubPackets
import Aubstream.PageWalker

/-!
# What an AUB file gets for a write

`writeContiguousPages` and the two `writeDiscontiguousPages`, with the bytes that
they append to the file, and the same calls of `TbxStream`, which have an effect
on memory at once.
-/

namespace AubFileStream
open AubPackets PageWalker EntryBits

def maxDwordCount : Nat := 65535

def maxChunkSize : Nat := (maxDwordCount - sizeMemoryWriteHeader / 4) * 4

/-- The loop over chunks; every chunk takes one unit of fuel. -/
def writeChunks (addressSpace hint : Nat) : Nat → List UInt8 → Nat → List UInt8
  | 0, _, _ => []
  | fuel + 1, currentMemory, currentPhysAddress =>
    if currentMemory.length = 0 then []
    else
      let chunkSize := min currentMemory.length maxChunkSize
      let alignedBlockSize := (chunkSize + 3) / 4 * 4
      let dwordCount := (sizeMemoryWriteHeader + alignedBlockSize) / 4
      let remainder := chunkSize % 4
      memoryWriteHeader (dwordCount - 1) currentPhysAddress hint addressSpace chunkSize ++
        currentMemory.take chunkSize ++
        List.replicate (if remainder ≠ 0 then 4 - remainder else 0) 0 ++
        writeChunks addressSpace hint fuel (currentMemory.drop chunkSize)
          (wrap64 (currentPhysAddress + chunkSize))

def writeContiguousPages (memory : List UInt8) (physAddress addressSpace hint : Nat) : List UInt8 :=
  writeChunks addressSpace hint memory.length memory physAddress

def headerDwordCount : Nat := sizeDiscontiguousHeader / 4 - 1

/-- The locals of the loop over table entries; `pending` goes from `itorDumpStart` to
`itorCurrent`. -/
structure EntryToken where
  out : List UInt8
  dwordCount : Nat
  pairs : List (Nat × Nat)
  index : Nat
  pending : List PageEntryInfo

def EntryToken.new : EntryToken := ⟨[], 0, List.replicate maxEntries (0, 0), 0, []⟩

def entryData (entries : List PageEntryInfo) : List UInt8 := entries.flatMap fun e => qword e.tableEntry

section
variable (addressSpace hint : Nat)

def writeEntryToken (t : EntryToken) : List UInt8 :=
  t.out ++ (discontiguousHeader t.dwordCount t.index hint addressSpace t.pairs ++
    entryData t.pending)

def storeEntry (t : EntryToken) (writeInfo : PageEntryInfo) : EntryToken :=
  let dwordCount := 2
  let t := if maxEntries ≤ t.index ∨ 65535 < dwordCount + t.dwordCount then
      { t with out := writeEntryToken addressSpace hint t, dwordCount := 0, pending := [] }
    else t
  let t := if t.dwordCount = 0 then { t with dwordCount := headerDwordCount, index := 0 } else t
  { t with
    dwordCount := (t.dwordCount + dwordCount) % 2 ^ 16
    pairs := t.pairs.set t.index (wrap64 writeInfo.physicalAddress, 8)
    index := t.index + 1
    pending := t.pending ++ [writeInfo] }

/-- `writeDiscontiguousPages` of page table entries. -/
def writeDiscontiguousEntries (writeInfoTable : List PageEntryInfo) : List UInt8 :=
  match writeInfoTable with
  | [entry] =>
    writeContiguousPages (qword entry.tableEntry) entry.physicalAddress addressSpace hint
  | _ =>
    let t := writeInfoTable.foldl (storeEntry addressSpace hint) .new
    if t.index ≠ 0 then writeEntryToken addressSpace hint t else t.out

end

def maxDataDwordCount : Nat := maxDwordCount - headerDwordCount

def addressSpaceOf (isLocalMemory : Bool) : Nat :=
  if isLocalMemory then AddressSpaceValues.TraceLocal.value
  else AddressSpaceValues.TraceNonlocal.value

/-- The locals of the loop over pages; `pending` goes from `itorDumpStart` to `itorCurrent`, `ptr`
and `ptrDump` are offsets into the buffer. -/
structure PageToken where
  out : List UInt8
  dwordCount : Nat
  pairs : List (Nat × Nat)
  index : Nat
  pending : List PageInfo
  ptrDump : Nat
  ptr : Nat

def PageToken.new : PageToken := ⟨[], 0, List.replicate maxEntries (0, 0), 0, [], 0, 0⟩

def slice (memory : List UInt8) (ptr size : Nat) : List UInt8 := (memory.drop ptr).take size

section
variable (isLocalMemory : Bool) (memory : List UInt8) (hint : Nat)

/-- `unalignedSize`, `unalignedAddress` or `differentAddressSpace`. -/
def isSeparate (e : PageInfo) : Bool :=
  e.size % 4 ≠ 0 || e.physicalAddress % 4 ≠ 0 || isLocalMemory != e.isLocalMemory

/-- The dwords of a page, as a `uint32_t`. -/
def pageDwordCount (e : PageInfo) : Nat := (e.size + 3) / 4 * 4 / 4 % 2 ^ 32

def dumpPages : List PageInfo → Nat → List UInt8
  | [], _ => []
  | e :: rest, ptrDump =>
    (if isSeparate isLocalMemory e then [] else slice memory ptrDump e.size) ++
      dumpPages rest (ptrDump + e.size)

def flushDiscontiguousToken (t : PageToken) : PageToken :=
  if t.index = 0 then t
  else { t with
    out := t.out ++ (discontiguousHeader t.dwordCount t.index hint (addressSpaceOf isLocalMemory)
      t.pairs ++ dumpPages isLocalMemory memory t.pending t.ptrDump)
    dwordCount := 0
    index := 0
    pending := []
    ptrDump := t.ptrDump + (t.pending.map PageInfo.size).sum }

def storePage (t : PageToken) (writeInfo : PageInfo) : PageToken :=
  let dwordCount := pageDwordCount writeInfo
  if isSeparate isLocalMemory writeInfo ∨ maxDataDwordCount < dwordCount then
    let t := flushDiscontiguousToken isLocalMemory memory hint t
    { t with
      out := t.out ++ writeContiguousPages (slice memory t.ptr writeInfo.size)
        writeInfo.physicalAddress (addressSpaceOf writeInfo.isLocalMemory) hint
      pending := []
      ptrDump := t.ptr + writeInfo.size
      ptr := t.ptr + writeInfo.size }
  else
    let t := if t.dwordCount = 0 then { t with dwordCount := headerDwordCount, index := 0 } else t
    let t := if maxEntries ≤ t.index ∨ maxDwordCount < dwordCount + t.dwordCount then
        { flushDiscontiguousToken isLocalMemory memory hint t with dwordCount := headerDwordCount }
      else t
    { t with
      dwordCount := (t.dwordCount + dwordCount) % 2 ^ 16
      pairs := t.pairs.set t.index (wrap64 writeInfo.physicalAddress, writeInfo.size % 2 ^ 32)
      index := t.index + 1
      pending := t.pending ++ [writeInfo]
      ptr := t.ptr + writeInfo.size }

end

/-- `writeDiscontiguousPages` of a buffer; the source reads the first entry, so the table is not
empty. -/
def writeDiscontiguousPages (memory : List UInt8) (writeInfoTable : List PageInfo) (hint : Nat) :
    List UInt8 :=
  match writeInfoTable with
  | [] => []
  | [entry] => writeContiguousPages memory entry.physicalAddress (addressSpaceOf entry.isLocalMemory)
      hint
  | first :: rest =>
    (flushDiscontiguousToken first.isLocalMemory memory hint
      ((first :: rest).foldl (storePage first.isLocalMemory memory hint) .new)).out

end AubFileStream

namespace TbxStream
open AubPackets PageWalker

def writeGTT (m : Memory) (offset entry : Nat) : Memory := store m .gtt offset (qword entry)

def writeMemory (m : Memory) (physAddress : Nat) (memory : List UInt8) (isLocalMemory : Bool) :
    Memory :=
  store m (if isLocalMemory then .localMemory else .systemMemory) physAddress memory

def writeDiscontiguousEntries (m : Memory) (writeInfoTable : List PageEntryInfo)
    (addressSpace : AddressSpaceValues) : Memory :=
  if addressSpace = .TraceGttEntry then
    writeInfoTable.foldl (fun m e => writeGTT m (e.physicalAddress % 2 ^ 32) e.tableEntry) m
  else
    let isLocalMemory := decide (addressSpace = .TraceLocal)
    writeInfoTable.foldl
      (fun m e => writeMemory m e.physicalAddress (qword e.tableEntry) isLocalMemory) m

def writeDiscontiguousPages : Memory → List UInt8 → List PageInfo → Memory
  | m, _, [] => m
  | m, memory, e :: rest =>
    writeDiscontiguousPages (writeMemory m e.physicalAddress (memory.take e.size) e.isLocalMemory)
      (memory.drop e.size) rest

end TbxStream
