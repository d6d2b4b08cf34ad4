import Aubstream.PageNodes
import Aubstream.MemoryBanks

/-!
# The PPGTT page walk

`walkMemory` translates `PageTableWalker::walkMemory` for a release build. One
call of `walkLevel` is one round of the inner loop, one call of `walkPage` one
round of the outer loop. A walk that the source would not complete (an endless
bank loop, a clone list read past its end) has no result.

`emittedPending[level]` and `pendingNodes[level]` receive the same nodes at the
same places, so one list stands for both.
-/

namespace PageWalker
open EntryBits PathTree PhysicalAllocator PageNodes MemoryBanks

structure PageInfo where
  physicalAddress : Nat
  size : Nat
  isLocalMemory : Bool
  memoryBank : Nat
  deriving DecidableEq, Repr

structure PageEntryInfo where
  physicalAddress : Nat
  tableEntry : Nat
  deriving DecidableEq, Repr

/-- `memory` gives the byte at each offset, or is the null pointer. -/
structure AllocationParams where
  gfxAddress : Nat
  memory : Option (Nat → UInt8)
  size : Nat
  memoryBanks : Nat
  hint : Nat
  pageSize : Nat
  additionalParams : AdditionalParams

inductive WalkMode where
  | Reserve
  | Clone
  | Expect
  deriving DecidableEq, Repr

structure WalkState (A : Type) where
  nodes : Nodes
  allocator : A
  physicalAddress : Option Nat
  pageWalkEntries : Nat → List PageEntryInfo
  pendingNodes : Nat → List Path
  pages64KB : List Nat
  entries : List PageInfo

/-- What one call of `walkMemory` fixes before its loop. -/
structure WalkContext where
  gpu : Gpu
  ppgtt : PpgttKind
  mode : WalkMode
  allocationParams : AllocationParams
  pageInfos : List PageInfo
  requestedPageSize : Nat
  ps64Applicable : Bool
  bankHelper : MemoryBankHelper

def WalkContext.requestedLeafLevel (c : WalkContext) : Nat :=
  if c.requestedPageSize = pageSize2MB then Pde else Pte

/-- What one round of the outer loop fixes before its descent. -/
structure PageRequest where
  gfxAddress : Nat
  size : Nat
  pageMemoryBank : Nat
  clonePageInfo : Option PageInfo

def adjustPageSizeForHardwareSupport (gpu : Gpu) (pageSize memoryBanks : Nat) : Nat :=
  if pageSize = pageSize2MB ∧ gpu.isMemorySupported memoryBanks pageSize = false then
    pageSize64KB
  else pageSize

def ps64EntryFlags (gpu : Gpu) (n : PageNode) : Nat :=
  (n.getEntryValue gpu ^^^ n.physicalAddress) &&& (2 ^ 64 - 1 - toBitValue ps64Bit)

def isPs64GroupComplete (gpu : Gpu) (t : Nodes) (parent : Path) (hwBase : Nat) : Bool :=
  match t (hwBase :: parent) with
  | none => false
  | some c0 =>
    c0.physicalAddress % 65536 == 0 && (List.range 16).all fun i =>
      match t ((hwBase + i) :: parent) with
      | none => false
      | some ci => ci.physicalAddress == c0.physicalAddress + i * 4096 &&
          ps64EntryFlags gpu ci == ps64EntryFlags gpu c0

section
variable {A : Type} [PhysicalAddressAllocator A]

namespace WalkState

def put (w : WalkState A) (q : Path) (n : PageNode) : WalkState A :=
  { w with nodes := PathTree.put w.nodes q n }

/-- `pageWalkEntries[level].push_back({address of the entry, child->getEntryValue()})`. -/
def pushEntry (w : WalkState A) (gpu : Gpu) (level : Nat) (q : Path) : WalkState A :=
  match w.nodes q with
  | none => w
  | some n => { w with pageWalkEntries := fun l =>
      if l = level then w.pageWalkEntries l ++ [⟨entryAddress w.nodes q, n.getEntryValue gpu⟩]
      else w.pageWalkEntries l }

/-- `emittedPending[level].insert(child).second`. -/
def isNewPending (w : WalkState A) (level : Nat) (q : Path) : Bool :=
  match w.nodes q with
  | none => false
  | some n => n.pendingWrite && !(w.pendingNodes level).contains q

def pushPending (w : WalkState A) (level : Nat) (q : Path) : WalkState A :=
  { w with pendingNodes := fun l =>
      if l = level then w.pendingNodes l ++ [q] else w.pendingNodes l }

end WalkState

/-- A table of smaller pages stands where a 2MB page is requested. -/
def hasExistingPageTableConflict (child : Option PageNode) (level pageSize : Nat) : Bool :=
  match child with
  | none => false
  | some n => level == Pde && pageSize == pageSize2MB && n.kind.getPageSize != pageSize2MB

def isExisting2MB (level : Nat) (child : Option PageNode) : Bool :=
  match child with
  | none => false
  | some n => level == Pde && n.kind.getPageSize == pageSize2MB

/-- Page size and leaf level after the checks that precede the child's creation: an existing
last-level table or 2MB page fixes the size, an existing table overrules a 2MB request. -/
def planLevel (level : Nat) (parent : NodeKind) (child : Option PageNode)
    (pageSize leafLevel : Nat) : Nat × Nat :=
  let pageSize := match parent with
    | .pte k => k.getPageSize
    | _ => pageSize
  if isExisting2MB level child then (pageSize2MB, Pde)
  else if hasExistingPageTableConflict child level pageSize then (pageSize64KB, Pte)
  else (pageSize, leafLevel)

def roundUp2MB (x : Nat) : Nat := x - x % pageSize2MB + pageSize2MB

/-- A 64KB fallback may have left the physical cursor unaligned for a 2MB page. -/
def alignCursor (level leafLevel pageSize : Nat) : Option Nat → Option Nat
  | none => none
  | some p =>
    if level = leafLevel ∧ pageSize = pageSize2MB ∧ p % pageSize2MB ≠ 0 then
      some (wrap64 (roundUp2MB p))
    else some p

def leafKind (pageSize : Nat) : NodeKind := if pageSize = pageSize2MB then .page2MB else .memory

/-- The leaf put into an empty slot, and the allocator afterwards. -/
def newLeaf (c : WalkContext) (page : PageRequest) (pageSize : Nat)
    (physicalAddress : Option Nat) (a : A) : PageNode × A :=
  match page.clonePageInfo with
  | some info => (foreignNode (leafKind pageSize)
      (info.physicalAddress - info.physicalAddress % pageSize) info.memoryBank
      c.allocationParams.additionalParams, a)
  | none => match physicalAddress with
    | some p => (foreignNode (leafKind pageSize) p page.pageMemoryBank
        c.allocationParams.additionalParams, a)
    | none => constructNode a (leafKind pageSize) pageSize page.pageMemoryBank
        c.allocationParams.additionalParams

/-- The node put into an empty slot; an interior node stays in its parent's bank. -/
def newChild (c : WalkContext) (page : PageRequest) (level leafLevel pageSize : Nat)
    (parent : PageNode) (physicalAddress : Option Nat) (a : A) : PageNode × A :=
  if level = leafLevel then newLeaf c page pageSize physicalAddress a
  else constructNode a (tableKind c.ppgtt level pageSize) (tableSize level pageSize)
    parent.memoryBank noParams

/-- `if (!child)`: allocate the child, mark it pending and note 64KB system pages. -/
def createChild (c : WalkContext) (page : PageRequest) (level leafLevel pageSize : Nat)
    (parent : PageNode) (q : Path) (w : WalkState A) : WalkState A :=
  let r := newChild c page level leafLevel pageSize parent w.physicalAddress w.allocator
  { w with
    nodes := PathTree.put w.nodes q (r.1.setPendingWrite true)
    allocator := r.2
    pages64KB := if level = Pte ∧ c.mode = .Reserve ∧
        c.allocationParams.memoryBanks = mainBank ∧ pageSize = pageSize64KB then
      w.pages64KB ++ [r.1.physicalAddress] else w.pages64KB }

def needsRemap (n : PageNode) (physicalAddress memoryBank : Nat) : Bool :=
  n.physicalAddress != physicalAddress || n.memoryBank != memoryBank

/-- A supplied physical address overrides the leaf's address and bank in place. -/
def remapNode (n : PageNode) (physicalAddress memoryBank : Nat) : PageNode :=
  if needsRemap n physicalAddress memoryBank then
    { n with physicalAddress := physicalAddress, memoryBank := memoryBank, pendingWrite := true }
  else n

/-- The remapping step: the state after it and whether the leaf changed. -/
def remapChild (page : PageRequest) (level leafLevel : Nat) (q : Path) (w : WalkState A) :
    WalkState A × Bool :=
  match w.physicalAddress, w.nodes q with
  | some p, some n =>
    if level = leafLevel then
      (w.put q (remapNode n p page.pageMemoryBank), needsRemap n p page.pageMemoryBank)
    else (w, false)
  | _, _ => (w, false)

/-- The child of a level after creation and remapping, and whether its entry is new. -/
def enterChild (c : WalkContext) (page : PageRequest) (level leafLevel pageSize : Nat)
    (parent : PageNode) (q : Path) (w : WalkState A) : WalkState A × Bool :=
  let created := (w.nodes q).isNone
  let w := if created then createChild c page level leafLevel pageSize parent q w else w
  let r := remapChild page level leafLevel q w
  (r.1, created || r.2)

/-- Slot `q` of a group that has become complete. -/
def completeSlot (gpu : Gpu) (level : Nat) (q : Path) (w : WalkState A) : WalkState A :=
  match w.nodes q with
  | none => w
  | some ci =>
    let isNewPs64 := !ci.ps64
    let w := if isNewPs64 then w.put q ((ci.setPs64 true).setPendingWrite true) else w
    let isNewPending := w.isNewPending level q
    let w := if isNewPs64 || isNewPending then w.pushEntry gpu level q else w
    if isNewPending then w.pushPending level q else w

/-- Slot `q` of a complete group that has lost its consecutive addresses. -/
def downgradeSlot (gpu : Gpu) (level : Nat) (q : Path) (w : WalkState A) : WalkState A :=
  match w.nodes q with
  | none => w
  | some ci =>
    let w := (w.put q ((ci.setPs64 false).setPendingWrite true)).pushEntry gpu level q
    if w.isNewPending level q then w.pushPending level q else w

def groupSlots (parent : Path) (hwBase : Nat) : List Path :=
  (List.range 16).map fun i => (hwBase + i) :: parent

/-- The prediction that the rest of the walk will complete the group of slot `k`. -/
def willComplete (gpu : Gpu) (c0 : Option PageNode) (child : PageNode) (k size : Nat) : Bool :=
  let expectedPhysBase := wrap64 (child.physicalAddress + (2 ^ 64 - k * 4096))
  expectedPhysBase % 65536 == 0 && decide ((16 - k) * 4096 ≤ size) &&
    (k == 0 || match c0 with
      | none => false
      | some n0 => n0.physicalAddress == expectedPhysBase &&
          ps64EntryFlags gpu n0 == ps64EntryFlags gpu child)

/-- The last part of a level: emit the entry and note the pending node. -/
def emitAndTrack (gpu : Gpu) (level : Nat) (q : Path) (w : WalkState A) : WalkState A :=
  let isNew := w.isNewPending level q
  let w := w.pushEntry gpu level q
  if isNew then w.pushPending level q else w

/-- The `checkPs64` branch for the leaf `index` of the table at `parent`. -/
def updatePs64 (c : WalkContext) (page : PageRequest) (level : Nat) (parent : Path)
    (index : Nat) (wasPs64Group : Bool) (w : WalkState A) : WalkState A :=
  let hwBase := index - index % 16
  if isPs64GroupComplete c.gpu w.nodes parent hwBase then
    (groupSlots parent hwBase).foldl (fun w q => completeSlot c.gpu level q w) w
  else if wasPs64Group then
    (groupSlots parent hwBase).foldl (fun w q => downgradeSlot c.gpu level q w) w
  else
    match w.nodes (index :: parent) with
    | none => w
    | some child =>
      let w := if willComplete c.gpu (w.nodes (hwBase :: parent)) child (index % 16) page.size then
        w.put (index :: parent) ((child.setPs64 true).setPendingWrite true) else w
      emitAndTrack c.gpu level (index :: parent) w

/-- The branch without PS64: emit new, remapped and pending children. -/
def emitChild (c : WalkContext) (level : Nat) (q : Path) (emitEntry : Bool) (w : WalkState A) :
    WalkState A :=
  if emitEntry || w.physicalAddress.isSome || w.isNewPending level q then
    emitAndTrack c.gpu level q w
  else w

def checkPs64 (c : WalkContext) (level : Nat) (parent : NodeKind) : Bool :=
  c.ps64Applicable && level == Pte && parent.getPageSize == 4096

/-- The group at `hwBase` is complete and marked, as it stands before the child changes. -/
def isPs64Group (gpu : Gpu) (t : Nodes) (parent : Path) (hwBase : Nat) : Bool :=
  match t (hwBase :: parent) with
  | none => false
  | some c0 => c0.ps64 && isPs64GroupComplete gpu t parent hwBase

/-- `child` is the path of the current child, `none` when it is null. -/
structure LevelResult (A : Type) where
  state : WalkState A
  child : Option Path
  pageSize : Nat
  leafLevel : Nat
  broke : Bool

/-- One round of the inner loop. -/
def walkLevel (c : WalkContext) (page : PageRequest) (level : Nat) (parent : Path)
    (pageSize leafLevel : Nat) (w : WalkState A) : LevelResult A :=
  match w.nodes parent with
  | none => ⟨w, none, pageSize, leafLevel, true⟩
  | some parentNode =>
    let index := parentNode.kind.getIndex level page.gfxAddress
    let q := index :: parent
    let plan := planLevel level parentNode.kind (w.nodes q) pageSize leafLevel
    if isExisting2MB level (w.nodes q) && w.physicalAddress.isNone then
      ⟨w, some q, plan.1, plan.2, true⟩
    else
      let w := { w with physicalAddress := alignCursor level plan.2 plan.1 w.physicalAddress }
      let wasPs64Group := isPs64Group c.gpu w.nodes parent (index - index % 16)
      if (w.nodes q).isNone && c.mode == .Expect then ⟨w, none, plan.1, plan.2, true⟩
      else
        let r := enterChild c page level plan.2 plan.1 parentNode q w
        let w := if checkPs64 c level parentNode.kind then
            updatePs64 c page level parent index wasPs64Group r.1
          else emitChild c level q r.2 r.1
        ⟨w, some q, plan.1, plan.2, false⟩

/-- `while (level >= leafLevel)`, from `level` downwards. -/
def walkLevels (c : WalkContext) (page : PageRequest) : Nat → Path → Nat → Nat → WalkState A →
    LevelResult A
  | 0, parent, pageSize, leafLevel, w => walkLevel c page 0 parent pageSize leafLevel w
  | level + 1, parent, pageSize, leafLevel, w =>
    let r := walkLevel c page (level + 1) parent pageSize leafLevel w
    match r.child with
    | none => r
    | some q =>
      if r.broke || decide (level < r.leafLevel) then r
      else walkLevels c page level q r.pageSize r.leafLevel r.state

/-- The physical cursor behind a page; a 2MB page consumes a whole aligned block. -/
def advanceCursor (pageSize sizeThisIteration : Nat) : Option Nat → Option Nat
  | none => none
  | some p => some <| wrap64 <|
      if pageSize = pageSize2MB then roundUp2MB p else p + sizeThisIteration

/-- Record the page that the descent ended at. -/
def recordPage (page : PageRequest) (pageSize sizeThisIteration : Nat) (q : Path)
    (w : WalkState A) : WalkState A :=
  match w.nodes q with
  | none => w
  | some child => { w with
      entries := w.entries ++ [⟨child.physicalAddress + page.gfxAddress % pageSize,
        sizeThisIteration, child.isLocalMemory, page.pageMemoryBank⟩]
      physicalAddress := advanceCursor pageSize sizeThisIteration w.physicalAddress }

/-- Bytes of the request that lie in the page of its first address. -/
def sizeThisIteration (page : PageRequest) (pageSize : Nat) : Nat :=
  min page.size (pageSize - page.gfxAddress % pageSize)

/-- The bank and the clone record of a page; `none` past the end of the clone list. -/
def pageRequest (c : WalkContext) (gfxAddress size cloneIndex : Nat)
    (physicalAddress : Option Nat) : Option PageRequest :=
  let pageMemoryBank := if physicalAddress.isSome then c.allocationParams.memoryBanks
    else c.bankHelper.getMemoryBank gfxAddress
  if c.mode = .Clone then
    (c.pageInfos[cloneIndex]?).map fun info => ⟨gfxAddress, size, pageMemoryBank, some info⟩
  else some ⟨gfxAddress, size, pageMemoryBank, none⟩

/-- One round of the outer loop: the state and the number of bytes passed, 0 at a break. -/
def walkPage (c : WalkContext) (page : PageRequest) (w : WalkState A) : WalkState A × Nat :=
  let r := walkLevels c page (c.ppgtt.getNumLevels - 1) [] c.requestedPageSize
    c.requestedLeafLevel w
  match r.child with
  | none => (r.state, 0)
  | some q =>
    let passed := sizeThisIteration page r.pageSize
    (recordPage page r.pageSize passed q r.state, passed)

/-- `while (size > 0)`; every round passes at least one byte or breaks. -/
def walkPages (c : WalkContext) : Nat → Nat → Nat → Nat → WalkState A → Option (WalkState A)
  | 0, _, _, _, w => some w
  | fuel + 1, gfxAddress, size, cloneIndex, w =>
    if size = 0 then some w
    else (pageRequest c gfxAddress size cloneIndex w.physicalAddress).bind fun page =>
      let r := walkPage c page w
      if r.2 = 0 then some r.1
      else walkPages c fuel (gfxAddress + r.2) (size - r.2) (cloneIndex + 1) r.1

def WalkState.start (t : Nodes) (a : A) (physicalAddress : Option Nat) : WalkState A :=
  ⟨t, a, physicalAddress, fun _ => [], fun _ => [], [], []⟩

/-- The constants of a walk; `none` when the bank loop does not end. -/
def walkContext (gpu : Gpu) (enablePs64 : Bool) (ppgtt : PpgttKind) (params : AllocationParams)
    (mode : WalkMode) (pageInfos : List PageInfo) : Option WalkContext :=
  let pageSize := adjustPageSizeForHardwareSupport gpu params.pageSize params.memoryBanks
  let alignedStart := params.gfxAddress - params.gfxAddress % pageSize
  let end' := params.gfxAddress + params.size + pageSize - 1
  let sizePageAligned := wrap64 (end' - end' % pageSize - alignedStart)
  (MemoryBankHelper.new? params.memoryBanks alignedStart sizePageAligned).map fun helper =>
    ⟨gpu, ppgtt, mode, params, pageInfos, pageSize,
      enablePs64 && pageSize == 4096 && ppgtt.getNumLevels == 5, helper⟩

def walkMemory (gpu : Gpu) (enablePs64 : Bool) (ppgtt : PpgttKind) (t : Nodes) (a : A)
    (params : AllocationParams) (mode : WalkMode) (pageInfos : List PageInfo)
    (physicalAddress : Option Nat) : Option (WalkState A) :=
  if params.size = 0 then some (.start t a physicalAddress)
  else (walkContext gpu enablePs64 ppgtt params mode pageInfos).bind fun c =>
    walkPages c params.size params.gfxAddress params.size 0 (.start t a physicalAddress)

end

end PageWalker
