import Aubstream.ByteMemory
import Aubstream.PhysicalAllocator

/-!
# Hardware contexts

A context owns a ring buffer, an image of its registers (`pLRCA`) and, where the
engine has one, an indirect ring state (`pRingData`). Memory is addressed through
the GGTT.
-/

namespace HardwareContext
open ByteMemory EntryBits PhysicalAllocator

def wrap32 (x : Nat) : Nat := x % 2 ^ 32

def ringSize : Nat := 16384

def ringCtrl : Nat := (ringSize - 0x1000) ||| 1

/-- Dwords of a batch buffer jump, a fence store and the flush commands between them. -/
def commandDwords (flushCommands : List Nat) : Nat :=
  10 + flushCommands.length + flushCommands.length % 2

/-- `is64KBSupported` is `isMemorySupported(ggtt.getMemoryBank(), 65536)`. -/
structure CommandStreamerHelper where
  mmioEngine : Nat
  sizeLRCA : Nat
  is64KBSupported : Bool
  isRingDataEnabled : Bool
  memoryBasedPollForCompletion : Bool
  getPollForCompletionMask : Nat
  addFlushCommands : List Nat
  sizeLRCA_bounds : 0x2000 ≤ sizeLRCA ∧ sizeLRCA ≤ 0x11000
  shorter : 4 * commandDwords addFlushCommands < ringSize

/-- What the page table registers are loaded with. -/
inductive PageTableRoot where
  | pml (address : Nat)
  | pdps (pdp0 pdp1 pdp2 pdp3 : Nat)

def offsetContext : Nat := 0x1000
def offsetLRI0 : Nat := 0x4
def numRegsLRI0 : Nat := 14
def offsetLRI1 : Nat := 0x84
def numRegsLRI1 : Nat := 9
def offsetLRI2 : Nat := 0x104
def numRegsLRI2 : Nat := 1
def offsetRingRegisters : Nat := offsetLRI0 + 12
def offsetRingHead : Nat := 0x0
def offsetRingTail : Nat := 0x8
def offsetRingBase : Nat := 0x10
def offsetRingCtrl : Nat := 0x18
def offsetBbCurrentHeadReg : Nat := 0x20
def offsetPageTableRegisters : Nat := offsetLRI1 + 12
def offsetPDP0 : Nat := 0x30
def offsetPDP1 : Nat := 0x20
def offsetPDP2 : Nat := 0x10
def offsetPDP3 : Nat := 0x0
def getRingDataOffset : Nat := 0x8
def sizeRingData : Nat := 4096

def lriHeader (op numRegs : Nat) : Nat := op ||| (2 * numRegs - 1)

def registers (numRegs register value : Nat) : List Nat :=
  (List.replicate numRegs [register, value]).flatten

namespace CommandStreamerHelper

def alignment (cs : CommandStreamerHelper) : Nat := if cs.is64KBSupported then 65536 else 4096

def indirectRingState (cs : CommandStreamerHelper) : Nat :=
  if cs.isRingDataEnabled then 0x100010 else 0

def getInitialContextSaveRestoreCtrlValue (cs : CommandStreamerHelper) : Nat :=
  0x00090009 ||| cs.indirectRingState

def getRingContextSaveRestoreCtrlValue (cs : CommandStreamerHelper) : Nat :=
  0x00090008 ||| cs.indirectRingState

/-- A ring register of the block that starts at `base`: its address and its value. -/
def setRegister (cs : CommandStreamerHelper) (base offset register value : Nat) (p : Bytes) :
    Bytes :=
  setDwords p (base + offset) [cs.mmioEngine + register, value]

def setRingHead (cs : CommandStreamerHelper) (base ringHead : Nat) : Bytes → Bytes :=
  cs.setRegister base offsetRingHead 0x2034 ringHead

def setRingTail (cs : CommandStreamerHelper) (base ringTail : Nat) : Bytes → Bytes :=
  cs.setRegister base offsetRingTail 0x2030 ringTail

def setRingBase (cs : CommandStreamerHelper) (base ringBase : Nat) : Bytes → Bytes :=
  cs.setRegister base offsetRingBase 0x2038 ringBase

def setRingCtrl (cs : CommandStreamerHelper) (base value : Nat) : Bytes → Bytes :=
  cs.setRegister base offsetRingCtrl 0x203c value

def setBbCurrentHeadReg (cs : CommandStreamerHelper) (base : Nat) (p : Bytes) : Bytes :=
  setDwords p (base + offsetBbCurrentHeadReg) [cs.mmioEngine + 0x2168, 0, cs.mmioEngine + 0x2140, 0]

/-- `register` is the one for the upper half, the lower half's is 4 less. -/
def setPDP (cs : CommandStreamerHelper) (offset register address : Nat) (p : Bytes) : Bytes :=
  setDwords p (offsetContext + offsetPageTableRegisters + offset)
    [cs.mmioEngine + register, address / 2 ^ 32, cs.mmioEngine + (register - 4), address % 2 ^ 32]

def setPDP0 (cs : CommandStreamerHelper) : Nat → Bytes → Bytes := cs.setPDP offsetPDP0 0x2274
def setPDP1 (cs : CommandStreamerHelper) : Nat → Bytes → Bytes := cs.setPDP offsetPDP1 0x227c
def setPDP2 (cs : CommandStreamerHelper) : Nat → Bytes → Bytes := cs.setPDP offsetPDP2 0x2284
def setPDP3 (cs : CommandStreamerHelper) : Nat → Bytes → Bytes := cs.setPDP offsetPDP3 0x228c
def setPML (cs : CommandStreamerHelper) : Nat → Bytes → Bytes := cs.setPDP0

def setPageTables (cs : CommandStreamerHelper) : PageTableRoot → Bytes → Bytes
  | .pml address, p => cs.setPML address p
  | .pdps pdp0 pdp1 pdp2 pdp3, p =>
    cs.setPDP3 pdp3 <| cs.setPDP2 pdp2 <| cs.setPDP1 pdp1 <| cs.setPDP0 pdp0 p

def lrcaRegisters : Nat := offsetContext + offsetRingRegisters

/-- `CommandStreamerHelper::initialize`. -/
def initializeLRCA (cs : CommandStreamerHelper) (ppgtt : PageTableRoot) (flags : Nat) : Bytes :=
  let p : Bytes := fun _ => 0
  let p := setDwords p (offsetContext + offsetLRI0) <| lriHeader 0x11001000 numRegsLRI0 ::
    registers numRegsLRI0 (cs.mmioEngine + 0x2244)
      (cs.getInitialContextSaveRestoreCtrlValue ||| flags)
  let p := setDwords p (offsetContext + offsetLRI1) <| lriHeader 0x11001000 numRegsLRI1 ::
    registers numRegsLRI1 (cs.mmioEngine + 0x20d8) 0x00200020
  let p := setDwords p (offsetContext + offsetLRI2) <| lriHeader 0x11000000 numRegsLRI2 ::
    registers numRegsLRI2 (cs.mmioEngine + 0x2094) 0
  let p := cs.setRingHead lrcaRegisters 0 p
  let p := cs.setRingTail lrcaRegisters 0 p
  let p := cs.setRingBase lrcaRegisters 0 p
  let p := cs.setRingCtrl lrcaRegisters 0 p
  cs.setPageTables ppgtt (cs.setBbCurrentHeadReg lrcaRegisters p)

/-- `initializeRingData`, the dwords behind `INDIRECT_RING_STATE` in the LRCA. -/
def setIndirectRingState (cs : CommandStreamerHelper) (ringData : Nat) (p : Bytes) : Bytes :=
  setDwords p (offsetContext + offsetLRI1 + 20) [cs.mmioEngine + 0x2108, ringData]

/-- `initializeRingData`, the ring state. -/
def initializeRingData (cs : CommandStreamerHelper) (ggttRing : Nat) : Bytes :=
  let p : Bytes := setDword (fun _ => 0) 4 (lriHeader 0x11001000 5)
  let p := cs.setRingHead getRingDataOffset 0 p
  let p := cs.setRingTail getRingDataOffset 0 p
  let p := setDwords p (getRingDataOffset + offsetRingBase)
    [cs.mmioEngine + 0x2038, ggttRing, cs.mmioEngine + 0x2048, 0]
  let p := setDwords p (getRingDataOffset + offsetRingCtrl + 8) [cs.mmioEngine + 0x203c, ringCtrl]
  setDword p 68 (lriHeader 0x11001000 9)

def addBatchBufferJump (cs : CommandStreamerHelper) (gfxAddress : Nat) : List Nat :=
  [0x11000001, cs.mmioEngine + 0x2244, cs.getRingContextSaveRestoreCtrlValue,
    0x18800101, gfxAddress % 2 ^ 32, gfxAddress / 2 ^ 32]

end CommandStreamerHelper

def storeFenceValue (gfxAddress fenceValue : Nat) : List Nat :=
  [0x10400002, gfxAddress, 0, fenceValue]

/-- What a core family adds to an engine. -/
structure CoreTraits where
  is64KBSupported : Bool
  isRingDataEnabled : Bool
  memoryBasedPollForCompletion : Bool
  getPollForCompletionMask : Nat

section
variable (core : CoreTraits) (deviceIndex offsetEngine : Nat)

def miFlush : List Nat := [0x13000003, 0, 0, 0, 0]

def pipeControls (opcode flushBits invalidateBits : Nat) : List Nat :=
  [opcode, flushBits, 0, 0, 0, 0, opcode, invalidateBits, 0, 0, 0, 0]

/-- `CommandStreamerHelperBcs`, `Vcs`, `Vecs` and `LinkBcs`, which differ in their offset. -/
def commandStreamerHelperFlush : CommandStreamerHelper where
  mmioEngine := wrap32 (deviceIndex * 0x1000000 + offsetEngine)
  sizeLRCA := 0x2000
  is64KBSupported := core.is64KBSupported
  isRingDataEnabled := core.isRingDataEnabled
  memoryBasedPollForCompletion := core.memoryBasedPollForCompletion
  getPollForCompletionMask := core.getPollForCompletionMask
  addFlushCommands := miFlush
  sizeLRCA_bounds := by decide
  shorter := by decide

def commandStreamerHelperPipe (sizeLRCA opcode flushBits invalidateBits : Nat)
    (sizeLRCA_bounds : 0x2000 ≤ sizeLRCA ∧ sizeLRCA ≤ 0x11000) : CommandStreamerHelper where
  mmioEngine := wrap32 (deviceIndex * 0x1000000 + offsetEngine)
  sizeLRCA := sizeLRCA
  is64KBSupported := core.is64KBSupported
  isRingDataEnabled := core.isRingDataEnabled
  memoryBasedPollForCompletion := core.memoryBasedPollForCompletion
  getPollForCompletionMask := core.getPollForCompletionMask
  addFlushCommands := pipeControls opcode flushBits invalidateBits
  sizeLRCA_bounds := sizeLRCA_bounds
  shorter := show 4 * (10 + 12 + 12 % 2) < 16384 by decide

def commandStreamerHelperBcs := commandStreamerHelperFlush core deviceIndex 0x020000
def commandStreamerHelperVcs := commandStreamerHelperFlush core deviceIndex 0x1be000
def commandStreamerHelperVecs := commandStreamerHelperFlush core deviceIndex 0x1c6000

def bcsLinkEngineOffset (engineId : Nat) : Nat :=
  if 1 ≤ engineId ∧ engineId ≤ 8 then 0x3DC000 + engineId * 0x2000 else 2 ^ 32 - 1

def ccsEngineOffset (engineId : Nat) : Nat :=
  if engineId ≤ 2 then 0x018000 + engineId * 0x2000
  else if engineId = 3 then 0x024000 else 2 ^ 32 - 1

def commandStreamerHelperLinkBcs (engineId : Nat) :=
  commandStreamerHelperFlush core deviceIndex (bcsLinkEngineOffset engineId)

/-- `CommandStreamerHelperRcs` and `Cccs`. -/
def commandStreamerHelperRcs := commandStreamerHelperPipe core deviceIndex 0x000000 0x11000
  0x7a000004 0x101221 0x20100e3c (by decide)

def commandStreamerHelperCcs (engineId : Nat) :=
  commandStreamerHelperPipe core deviceIndex (ccsEngineOffset engineId) 0x2000
    0x7a000004 0x100220 0x20100e2c (by decide)

def commandStreamerHelperXe3pCoreCcs (engineId : Nat) :=
  commandStreamerHelperPipe core deviceIndex (ccsEngineOffset engineId) 0x2000
    0x7a001004 0x220 0x20000e2c (by decide)

end

inductive HostBuffer where
  | null
  | allocated (p : Bytes)
  | freed

structure HardwareContextImp where
  flags : Nat
  runAlone : Bool
  ppgtt : PageTableRoot
  ggttGlobalHWSP : Nat
  ggttContextFence : Nat
  ggttRing : Nat
  ggttLRCA : Nat
  ringData : Nat
  pLRCA : Option Bytes
  pRingData : HostBuffer
  ringTail : Nat
  contextFenceValue : Nat

def HardwareContextImp.new (flags : Nat) (runAlone : Bool) (ppgtt : PageTableRoot) :
    HardwareContextImp :=
  ⟨flags, runAlone, ppgtt, 2 ^ 32 - 1, 0, 2 ^ 32 - 1, 2 ^ 32 - 1, 2 ^ 32 - 1, none, .null, 0, 0⟩

def HardwareContextImp.getExpectedFence (c : HardwareContextImp) : Nat := c.contextFenceValue

inductive PollRequest where
  | registerPoll (registerOffset mask : Nat)
  | gttMemoryPoll (gfxAddress value : Nat)

/-- What happened to the ring; offsets count from `ggttRing`. -/
inductive RingEvent where
  | noops (submission offset size : Nat)
  | commands (submission offset size : Nat)
  | poll (request : PollRequest)
  | submitted (submission : Nat)

/-- Nothing is ever freed. -/
structure GfxAddressAllocator where
  allocator : SimpleAllocator 32
  nothingFree : allocator.freeAllocationsMap = []

/-- `ringEvents` (newest first, since the ring was allocated) and `submissions` are not in the
source. -/
structure HwState where
  context : HardwareContextImp
  gfxAddressAllocator : GfxAddressAllocator
  memory : Bytes
  ringEvents : List RingEvent
  submissions : Nat

namespace GfxAddressAllocator

theorem alignedAlloc_eq (a : GfxAddressAllocator) (size alignment : Nat) :
    (a.allocator.alignedAlloc size alignment).1 =
        SimpleAllocator.alignUp a.allocator.nextAddress (max alignment 4096) % 2 ^ 32 ∧
      (a.allocator.alignedAlloc size alignment).2.nextAddress =
        (SimpleAllocator.alignUp a.allocator.nextAddress (max alignment 4096) % 2 ^ 32 + size) %
          2 ^ 32 ∧
      (a.allocator.alignedAlloc size alignment).2.freeAllocationsMap = [] := by
  unfold SimpleAllocator.alignedAlloc
  simp only [a.nothingFree, List.find?_nil]
  exact ⟨trivial, trivial, trivial⟩

def alignedAlloc (a : GfxAddressAllocator) (size alignment : Nat) : Nat × GfxAddressAllocator :=
  ((a.allocator.alignedAlloc size alignment).1,
    ⟨(a.allocator.alignedAlloc size alignment).2, (a.alignedAlloc_eq size alignment).2.2⟩)

end GfxAddressAllocator

section
variable (cs : CommandStreamerHelper)

/-- `addBatchBufferJump`, `addFlushCommands`, `storeFenceValue` and the padding to qwords. -/
def ringCommands (c : HardwareContextImp) (gfxAddress : Nat) : List Nat :=
  let commands := cs.addBatchBufferJump gfxAddress ++ cs.addFlushCommands ++
    storeFenceValue c.ggttContextFence (wrap32 (c.contextFenceValue + 1))
  if commands.length % 2 ≠ 0 then commands ++ [0] else commands

def additionalBits (c : HardwareContextImp) : Nat := if c.runAlone then 0x800080 else c.flags

def initialLRCA (c : HardwareContextImp) (ggttRing : Nat) : Bytes :=
  cs.setRingCtrl CommandStreamerHelper.lrcaRegisters ringCtrl <|
    cs.setRingBase CommandStreamerHelper.lrcaRegisters ggttRing <|
    cs.setRingTail CommandStreamerHelper.lrcaRegisters 0 <|
    cs.setRingHead CommandStreamerHelper.lrcaRegisters 0 <|
    cs.initializeLRCA c.ppgtt (additionalBits c)

/-- `HardwareContextImp::initialize`. Writes without data only reserve pages; the ring's is one. -/
def initializeContext (s : HwState) : HwState :=
  if s.context.pLRCA.isSome then s
  else
    let hwsp := s.gfxAddressAllocator.alignedAlloc 4096 cs.alignment
    let fence := hwsp.2.alignedAlloc 4096 cs.alignment
    let ring := fence.2.alignedAlloc ringSize cs.alignment
    let lrca := ring.2.alignedAlloc cs.sizeLRCA cs.alignment
    let memory := writeBytes s.memory fence.1 4
      (setDword (fun _ => 0) 0 s.context.contextFenceValue)
    let pLRCA := initialLRCA cs s.context ring.1
    let context := { s.context with
      ggttGlobalHWSP := hwsp.1
      ggttContextFence := fence.1
      ggttRing := ring.1
      ggttLRCA := lrca.1 }
    if cs.isRingDataEnabled then
      let data := lrca.2.alignedAlloc sizeRingData cs.alignment
      let pLRCA := cs.setIndirectRingState data.1 pLRCA
      let pRingData := cs.initializeRingData ring.1
      { s with
        context := { context with
          ringData := data.1
          pLRCA := some pLRCA
          pRingData := .allocated pRingData }
        gfxAddressAllocator := data.2
        memory := writeBytes (writeBytes memory data.1 sizeRingData pRingData) lrca.1 cs.sizeLRCA
          pLRCA
        ringEvents := [] }
    else
      { s with
        context := { context with pLRCA := some pLRCA }
        gfxAddressAllocator := lrca.2
        memory := writeBytes memory lrca.1 cs.sizeLRCA pLRCA
        ringEvents := [] }

/-- `pRingData` keeps its value, so a second release deletes it again. -/
def release (s : HwState) : Option HwState :=
  match s.context.pRingData with
  | .freed => none
  | .null => some { s with context := { s.context with pLRCA := none } }
  | .allocated _ => some { s with context := { s.context with pLRCA := none, pRingData := .freed } }

def pollRequest (c : HardwareContextImp) : PollRequest :=
  if cs.memoryBasedPollForCompletion then .gttMemoryPoll c.ggttContextFence c.contextFenceValue
  else .registerPoll (cs.mmioEngine + 0x2234) cs.getPollForCompletionMask

def pollForCompletion (s : HwState) : HwState :=
  { s with ringEvents := .poll (pollRequest cs s.context) :: s.ringEvents }

/-- Fill the ring up with NOOPs when the commands do not fit behind the tail. -/
def wrapRing (sizeCommandsInBytes : Nat) (s : HwState) : HwState :=
  if ringSize ≤ s.context.ringTail + sizeCommandsInBytes then
    let sizeToNoop := ringSize - s.context.ringTail
    pollForCompletion cs { s with
      context := { s.context with ringTail := 0 }
      memory := writeBytes s.memory (s.context.ggttRing + s.context.ringTail) sizeToNoop fun _ => 0
      ringEvents := .noops (s.submissions + 1) s.context.ringTail sizeToNoop :: s.ringEvents }
  else s

def writeCommands (commands : List Nat) (s : HwState) : HwState :=
  { s with
    context := { s.context with
      contextFenceValue := wrap32 (s.context.contextFenceValue + 1)
      ringTail := s.context.ringTail + 4 * commands.length }
    memory := writeBytes s.memory (s.context.ggttRing + s.context.ringTail) (4 * commands.length)
      (setDwords (fun _ => 0) 0 commands)
    ringEvents :=
      .commands (s.submissions + 1) s.context.ringTail (4 * commands.length) :: s.ringEvents
    submissions := s.submissions + 1 }

/-- The registers at `base` of a host copy, as `overrideRingHead` has them updated. -/
def setRingRegisters (base : Nat) (overrideRingHead : Bool) (ringHead ringTail : Nat) (p : Bytes) :
    Bytes :=
  if overrideRingHead then cs.setRingTail base ringTail (cs.setRingHead base ringHead p)
  else cs.setRingTail base ringTail p

/-- The partial write of a host copy into the block at `gfxAddress`. -/
def writeRingRegisters (base : Nat) (overrideRingHead : Bool) (gfxAddress : Nat) (p : Bytes)
    (memory : Bytes) : Bytes :=
  let ringOffset := base + if overrideRingHead then offsetRingHead else offsetRingTail
  writeBytes memory (gfxAddress + ringOffset) (if overrideRingHead then 16 else 8)
    fun i => p (ringOffset + i)

def updateLRCA (overrideRingHead : Bool) (ringHead : Nat) (s : HwState) : Option HwState :=
  match s.context.pLRCA with
  | none => none
  | some p =>
    let p := setRingRegisters cs CommandStreamerHelper.lrcaRegisters overrideRingHead ringHead
      s.context.ringTail p
    some { s with
      context := { s.context with pLRCA := some p }
      memory := writeRingRegisters CommandStreamerHelper.lrcaRegisters overrideRingHead
        s.context.ggttLRCA p s.memory }

def updateRingData (overrideRingHead : Bool) (ringHead : Nat) (s : HwState) : Option HwState :=
  match s.context.pRingData with
  | .freed => none
  | .null => if cs.isRingDataEnabled then none else some s
  | .allocated p =>
    let p := setRingRegisters cs getRingDataOffset overrideRingHead ringHead s.context.ringTail p
    some { s with
      context := { s.context with pRingData := .allocated p }
      memory := if cs.isRingDataEnabled then
          writeRingRegisters getRingDataOffset overrideRingHead s.context.ringData p s.memory
        else s.memory }

/-- `none` where the source goes through a null or a dangling pointer. -/
def submitBatchBuffer (gfxAddress : Nat) (overrideRingHead : Bool) (s : HwState) :
    Option HwState := do
  let commands := ringCommands cs s.context gfxAddress
  let wrapped := wrapRing cs (4 * commands.length) s
  let s ← updateLRCA cs overrideRingHead wrapped.context.ringTail (writeCommands commands wrapped)
  let s ← updateRingData cs overrideRingHead wrapped.context.ringTail s
  return { s with ringEvents := .submitted s.submissions :: s.ringEvents }

end

end HardwareContext
