import Aubstream.AubPackets
import Aubstream.BitFields
import Aubstream.DualStreams

/-!
# AUB packets of registers, polls, regions and dumps

The packets of a fixed size that `AubFileStream` writes. Each is a header and a
structure of bit fields.
-/

namespace TracePackets
open AubPackets BitFields DualStreams

def registerPollSubOpcode : Nat := 0x2
def registerWriteSubOpcode : Nat := 0x3
def memoryPollSubOpcode : Nat := 0x5
def continuousRegionSubOpcode : Nat := 0xd
def dumpCompressSubOpcode : Nat := 0x10
def contextCreateSubOp : Nat := 0x14
def binaryDumpSubOp : Nat := 0x15

/-- `RegisterSizeValues` and `DataSizeValues`. -/
def Dword : Nat := 2

/-- A structure whose `dwordCount` is one less than its dwords. -/
def tracePacket (subOpcode dwordCount : Nat) (fields : Fields) : List UInt8 :=
  commandHeader dwordCount subOpcode ++ encode (4 * dwordCount) fields

def aubOpcode : Nat := 0x1

/-- `AubCmdHdr` of the older packets. -/
def aubHeader (DwordLength SubOp : Nat) : List UInt8 :=
  dword (DwordLength % 2 ^ 16 + 2 ^ 16 * SubOp + 2 ^ 23 * aubOpcode + 2 ^ 29 * instructionType)

/-- Their `DwordLength` is two less than their dwords. -/
def aubPacket (SubOp DwordLength : Nat) (fields : Fields) : List UInt8 :=
  aubHeader DwordLength SubOp ++ encode (4 * (DwordLength + 1)) fields

def registerWriteFields (offset value mask : Nat) : Fields :=
  [(32, offset), (4, 0), (4, 0), (8, 0), (4, Dword), (8, 0), (4, 0), (32, mask), (32, 0), (32, value)]

/-- From an `Ia` message source to a register of `Mmio` space. -/
def writeMMIO (offset value mask : UInt32) : List UInt8 :=
  tracePacket registerWriteSubOpcode 5 (registerWriteFields offset.toNat value.toNat mask.toNat)

def registerPollFields (registerOffset mask desiredValue pollNotEqual timeoutAction : Nat) : Fields :=
  [(32, registerOffset), (1, 0), (1, timeoutAction), (1, pollNotEqual), (1, 0), (4, 0), (8, 0),
    (4, Dword), (8, 0), (4, 0), (32, mask), (32, 0), (32, desiredValue)]

def registerPoll (registerOffset mask desiredValue : UInt32) (pollNotEqual : Bool)
    (timeoutAction : UInt32) : List UInt8 :=
  tracePacket registerPollSubOpcode 5 (registerPollFields registerOffset.toNat mask.toNat
    desiredValue.toNat pollNotEqual.toNat timeoutAction.toNat)

def memoryPollFields (physicalAddress addressSpace value compareMode : Nat) : Fields :=
  [(64, physicalAddress), (1, 0), (1, 0), (2, 0), (2, Dword), (2, 0), (1, 0), (1, 0), (3, compareMode),
    (7, 0), (8, 0), (4, addressSpace), (32, 0xFFFFFFFF), (32, 0xFFFFFFFF), (32, value)]

/-- Of the one entry; the source asserts that there is one, and that `compareMode` is one of
`ComparisonValues` but `Legacy`. -/
def memoryPoll (physicalAddress : UInt64) (isLocalMemory : Bool) (value compareMode : UInt32) :
    List UInt8 :=
  let addressSpace := if isLocalMemory then AddressSpaceValues.TraceLocal else .TraceNonlocal
  tracePacket memoryPollSubOpcode 6 (memoryPollFields physicalAddress.toNat addressSpace.value
    value.toNat compareMode.toNat)

def regionSize : Nat := 0x10000

def reserveContiguousPages (entries : List UInt64) : List UInt8 :=
  entries.flatMap fun page =>
    tracePacket continuousRegionSubOpcode 4 [(64, page.toNat), (64, regionSize)]

def contextCreateFields (handle sixtyFourBit : Nat) (pageDirPointer : Nat → Nat) : Fields :=
  [(32, handle), (1, 0), (1, sixtyFourBit), (30, 0), (64, pageDirPointer 0), (64, pageDirPointer 1),
    (64, pageDirPointer 2), (64, pageDirPointer 3)]

/-- What the packet has of a page table: its own address, or those of four children. -/
structure DumpContext where
  numAddressBits : Nat
  physicalAddress : UInt64
  children : Nat → Option UInt64

namespace DumpContext

def sixtyFourBit (ppgtt : DumpContext) : Bool := decide (48 ≤ ppgtt.numAddressBits)

def pageDirPointer (ppgtt : DumpContext) (i : Nat) : UInt64 :=
  if ppgtt.sixtyFourBit then if i = 0 then ppgtt.physicalAddress else 0
  else (ppgtt.children i).getD 0

end DumpContext

def declareContextForDumping (handleDumpContext : UInt32) (ppgtt : DumpContext) : List UInt8 :=
  aubPacket contextCreateSubOp 9 (contextCreateFields handleDumpContext.toNat
    ppgtt.sixtyFourBit.toNat fun i => (ppgtt.pageDirPointer i).toNat)

def binaryDumpFields (gttType gfxAddress size directoryHandle : Nat) : Fields :=
  [(64, gfxAddress), (64, size), (64, 1), (64, size), (4, 0), (2, gttType), (26, 0),
    (32, directoryHandle), (32, 0), (32, 0), (32, 0)]

def pageTableType : PageTableType → Nat
  | .PAGE_TABLE_GGTT => 0
  | .PAGE_TABLE_PPGTT => 1

/-- A buffer is a surface of height 1. -/
def dumpBufferBIN (gttType : PageTableType) (gfxAddress size : UInt64) (handleDumpContext : UInt32) :
    List UInt8 :=
  aubPacket binaryDumpSubOp 12 (binaryDumpFields (pageTableType gttType) gfxAddress.toNat size.toNat
    handleDumpContext.toNat)

structure SurfaceInfo where
  address : UInt64
  width : UInt32
  height : UInt32
  pitch : UInt32
  format : UInt32
  surftype : UInt32
  tilingType : UInt32
  compressed : Bool
  dumpType : UInt32
  useClearValue : Bool
  clearColorType : UInt32
  auxEncodingFormat : UInt32
  auxSurfaceWidth : UInt32
  auxSurfaceHeight : UInt32
  auxSurfacePitch : UInt32
  auxSurfaceQPitch : UInt32
  auxSurfaceTilingType : UInt32
  clearColorAddress : UInt64
  auxSurfaceAddress : UInt64

def AlgorithmValues.Lossless : Nat := 2
def AlgorithmValues.Uncompressed : Nat := 4
def ModeValues.Vertical : Nat := 0
def ModeValues.Horizontal : Nat := 1

def SurfaceInfo.algorithm (s : SurfaceInfo) : Nat :=
  if s.compressed then AlgorithmValues.Lossless else AlgorithmValues.Uncompressed

def SurfaceInfo.mode (s : SurfaceInfo) : Nat :=
  if s.compressed then ModeValues.Horizontal else ModeValues.Vertical

def surfaceFields (s : SurfaceInfo) : Fields :=
  [(64, s.address.toNat), (32, s.width.toNat), (32, s.height.toNat), (32, s.pitch.toNat),
    (12, s.format.toNat), (3, s.dumpType.toNat), (1, 0), (3, s.tilingType.toNat), (3, 0),
    (3, s.surftype.toNat), (3, 0), (2, 0), (1, 0), (1, s.useClearValue.toNat)]

def auxSurfaceFields (s : SurfaceInfo) : Fields :=
  [(64, s.auxSurfaceAddress.toNat), (32, s.auxSurfaceWidth.toNat), (32, s.auxSurfaceHeight.toNat),
    (32, s.auxSurfacePitch.toNat), (17, s.auxSurfaceQPitch.toNat), (4, 0),
    (3, s.auxSurfaceTilingType.toNat), (7, s.auxEncodingFormat.toNat), (1, 0)]

/-- Neither a block nor a tile nor a clear color is given. -/
def compressionFields (s : SurfaceInfo) : Fields :=
  [(8, 0), (8, 0), (8, 0), (1, s.mode), (3, s.algorithm), (4, 0), (32, 0), (32, 0), (32, 0), (32, 0),
    (32, 0), (32, 0), (32, 0)]

def directoryFields (gttType : PageTableType) (s : SurfaceInfo) (directoryHandle : UInt32) : Fields :=
  [(2, pageTableType gttType), (1, s.clearColorType.toNat), (29, 0), (32, directoryHandle.toNat),
    (64, s.clearColorAddress.toNat)]

/-- `CmdServicesMemTraceDumpCompress`. -/
def dumpCompressFields (gttType : PageTableType) (s : SurfaceInfo) (directoryHandle : UInt32) :
    Fields :=
  surfaceFields s ++ auxSurfaceFields s ++ compressionFields s ++
    directoryFields gttType s directoryHandle

def dumpSurface (gttType : PageTableType) (surfaceInfo : SurfaceInfo) (handleDumpContext : UInt32) :
    List UInt8 :=
  tracePacket dumpCompressSubOpcode 24 (dumpCompressFields gttType surfaceInfo handleDumpContext)

end TracePackets
