import Aubstream.ContextLifetimes
import Aubstream.GlobalGtt
import Aubstream.HardwareContext

/-!
# The contexts of a device and its GGTT

All contexts of a device take the blocks that they are initialized with from one
cursor, and the GGTT maps a page of a block when it is first written. Neither a
release nor a destruction gives anything back.
-/

namespace DeviceContexts
open ByteMemory PhysicalAllocator HardwareContext GlobalGtt Transitions
open ContextLifetimes (ContextPtr setAt)

/-- A context with its engine. The engines of a device agree on the pages that the GGTT's bank
supports. -/
structure EngineContext (is64KBSupported : Bool) where
  cs : CommandStreamerHelper
  sameBank : cs.is64KBSupported = is64KBSupported
  context : HardwareContextImp

structure Device (is64KBSupported : Bool) where
  gfxAddressAllocator : GfxAddressAllocator
  memory : Bytes
  gtt : GttStreams PhysicalAddressAllocatorSimple
  objects : ContextPtr → Option (EngineContext is64KBSupported)
  hwContexts : List ContextPtr
  nextContext : ContextPtr

/-- A call on a context; `destroy` is `releaseHardwareContext`. -/
inductive Call (is64KBSupported : Bool) where
  | create (cs : CommandStreamerHelper) (sameBank : cs.is64KBSupported = is64KBSupported)
      (flags : Nat) (runAlone : Bool) (ppgtt : PageTableRoot)
  | initializeContext (context : ContextPtr)
  | release (context : ContextPtr)
  | destroy (context : ContextPtr)

inductive Op (is64KBSupported : Bool) where
  | call (c : Call is64KBSupported)
  | managerOpen
  | managerClose

/-- The `writeMemory` calls of an initialization: addresses and sizes. -/
def initialWrites (cs : CommandStreamerHelper) (c : HardwareContextImp) : List (Nat × Nat) :=
  [(c.ggttGlobalHWSP, 4096), (c.ggttContextFence, 4), (c.ggttRing, ringSize)] ++
    (if cs.isRingDataEnabled then [(c.ringData, sizeRingData)] else []) ++
    [(c.ggttLRCA, cs.sizeLRCA)]

def writeAll (ggtt : GGTT) (pageSize : Nat) (gtt : GttStreams PhysicalAddressAllocatorSimple)
    (writes : List (Nat × Nat)) : GttStreams PhysicalAddressAllocatorSimple :=
  writes.foldl (fun gtt e => GlobalGtt.writeMemory ggtt gtt e.1 e.2 ggtt.memoryBank pageSize) gtt

namespace Device

section
variable {is64KBSupported : Bool} (ggtt : GGTT) (s : Device is64KBSupported)

def create (cs : CommandStreamerHelper) (sameBank : cs.is64KBSupported = is64KBSupported)
    (flags : Nat) (runAlone : Bool) (ppgtt : PageTableRoot) : Device is64KBSupported :=
  { s with
    objects := setAt s.objects s.nextContext (some ⟨cs, sameBank, .new flags runAlone ppgtt⟩)
    hwContexts := s.hwContexts ++ [s.nextContext]
    nextContext := s.nextContext + 1 }

/-- What a context sees of its device. -/
def hwState (x : EngineContext is64KBSupported) : HwState :=
  ⟨x.context, s.gfxAddressAllocator, s.memory, [], 0⟩

def initializeContext (c : ContextPtr) : Option (Device is64KBSupported) :=
  match s.objects c with
  | none => none
  | some x =>
    if x.context.pLRCA.isSome then some s
    else
      let h := HardwareContext.initializeContext x.cs (s.hwState x)
      some { s with
        gfxAddressAllocator := h.gfxAddressAllocator
        memory := h.memory
        gtt := writeAll ggtt x.cs.alignment s.gtt (initialWrites x.cs h.context)
        objects := setAt s.objects c (some { x with context := h.context }) }

/-- `none` where `pRingData` dangles. -/
def release (c : ContextPtr) : Option (Device is64KBSupported) :=
  match s.objects c with
  | none => none
  | some x => (HardwareContext.release (s.hwState x)).map fun h =>
    { s with objects := setAt s.objects c (some { x with context := h.context }) }

def destroy (c : ContextPtr) : Option (Device is64KBSupported) :=
  if c ∈ s.hwContexts then
    (release { s with hwContexts := s.hwContexts.erase c } c).map fun s =>
      { s with objects := setAt s.objects c none }
  else some s

def callStep : Call is64KBSupported → Option (Device is64KBSupported)
  | .create cs sameBank flags runAlone ppgtt => some (s.create cs sameBank flags runAlone ppgtt)
  | .initializeContext c => s.initializeContext ggtt c
  | .release c => s.release c
  | .destroy c => s.destroy c

/-- The calls that an operation comes to. -/
def calls : Op is64KBSupported → List (Call is64KBSupported)
  | .call c => [c]
  | .managerOpen => s.hwContexts.map .initializeContext
  | .managerClose => s.hwContexts.map .release

def step (o : Op is64KBSupported) : Option (Device is64KBSupported) :=
  runAll (callStep ggtt) s (s.calls o)

end

end Device

/-- A device without contexts; the physical allocator may have been used before. -/
def newDevice (is64KBSupported : Bool) (a : PhysicalAddressAllocatorSimple) :
    Device is64KBSupported :=
  ⟨⟨.new 0, rfl⟩, fun _ => 0, GlobalGtt.start a, fun _ => none, [], 0⟩

end DeviceContexts
