import Aubstream.TableRuns
import Aubstream.Reservations
import Aubstream.AubPackets
import Aubstream.PendingEntries

/-!
# The manager in AUB file mode

`AubManagerImp` keeps its page tables, its contexts and its CCS mode from one file
to the next. One call of the stream gives one record; comments are left out.
-/

namespace AubManager
open EntryBits PathTree PhysicalAllocator PageNodes PageWalker FreeMemory TableRuns Reservations
  AubPackets PendingEntries

def wrap32 (x : Nat) : Nat := x % 2 ^ 32

def mmioDeviceOffset : Nat := 16 * 1024 * 1024

/-- `tables` is `ppgtts[0]` when the data is written. -/
structure DataWrite where
  tables : Nodes
  gfxAddress : Nat
  size : Nat
  memory : Nat → UInt8
  writeInfoTable : List PageInfo
  hint : Nat

/-- `contextInitialization` stands for everything that one `initialize` writes. -/
inductive Record where
  | version (stepping device : Nat)
  | mmio (offset value mask : Nat)
  | reserveContiguousPages (address : Nat)
  | entries (addressSpace : AddressSpaceValues) (hint : Nat) (writeInfoTable : List PageEntryInfo)
  | contextInitialization (context : Nat) (bytes : List UInt8)
  | data (write : DataWrite)

/-- The host copy of the ring state; a release deletes it and keeps the pointer. -/
inductive RingData where
  | null
  | allocated
  | freed
  deriving DecidableEq

/-- `pLRCA`: the pointer is not null. -/
structure HwContext where
  id : Nat
  deviceIndex : Nat
  engine : Nat
  flags : Nat
  pLRCA : Bool
  pRingData : RingData

/-- `ccsCount` and `live` are what was configured and which contexts there were when the file was
opened. The source has neither. -/
structure File where
  name : String
  records : List Record
  ccsCount : Nat
  live : List Nat

/-- `failed`: opened again while open. The library then drops all writes, without an error that
the source looks for. -/
inductive FileHandle where
  | closed
  | opened (file : File)
  | failed (file : File)

structure MaskedMMIO where
  offset : Nat
  value : Nat
  mask : Nat

/-- What the manager is made with. The products' functions that write registers are the lists of
what they write; `initialize` of a context gives what it writes and the allocator afterwards. -/
structure AubManagerImp (A : Type) where
  tables : Config
  pageTablesInLocalMemory : Bool
  devicesCount : Nat
  stepping : Nat
  deviceId : Nat
  enableThrow : Bool
  initializeGlobalMMIO : List (Nat × Nat)
  setMemoryBankSize : List (Nat × Nat)
  initializeDefaultMemoryPools : List (Nat × Nat)
  MMIOListInjected : List MaskedMMIO
  isRingDataEnabled : Nat → Bool
  initializeContext : HwContext → A → List UInt8 × A

/-- The source has no `files`, the closed files, and no `lost`: the nodes of `ppgtts[0]` that were
there when a file was closed, or that a free changed before it gave up, and whose entries no write
has repeated since. -/
structure ManagerState (A : Type) where
  ppgtts : List Nodes
  allocator : A
  hwContexts : List HwContext
  ccsCount : Nat
  fileHandle : FileHandle
  tmpWriteBuffer : List Record
  files : List File
  lost : Path → Bool

def Record.table : Record → List PageEntryInfo
  | .entries _ _ writeInfoTable => writeInfoTable
  | _ => []

/-- The page table entries that records write. -/
def entriesOf (records : List Record) : List PageEntryInfo := records.flatMap Record.table

def writeEntries (addressSpace : AddressSpaceValues) (hint : Nat) (table : List PageEntryInfo) :
    List Record :=
  if table = [] then [] else [.entries addressSpace hint table]

def writeMMIOs (list : List (Nat × Nat)) : List Record :=
  list.map fun p => .mmio p.1 p.2 0xffffffff

def ccsModeValue (ccsCount : Nat) : Nat :=
  if ccsCount ≤ 1 then 0xFFF0000 else if ccsCount = 2 then 0xFFF0208 else 0xFFF0688

namespace DataTypeHintValues

def TraceNotype : Nat := 0
def TracePpgttLevel1 : Nat := 65
def TracePpgttLevel2 : Nat := 66
def TracePpgttLevel3 : Nat := 67
def TracePpgttLevel4 : Nat := 68
def TracePpgttLevel5 : Nat := 69

end DataTypeHintValues

/-- The context is not initialized twice, but a second release deletes the ring state again. -/
def HwContext.release (c : HwContext) : Option HwContext :=
  match c.pRingData with
  | .freed => none
  | .null => some { c with pLRCA := false }
  | .allocated => some { c with pLRCA := false, pRingData := .freed }

/-- After a write of `table`, with `t` in memory. -/
def stillLost (gpu : Gpu) (t : Nodes) (table : List PageEntryInfo) (lost : Path → Bool)
    (q : Path) : Bool :=
  match t q with
  | none => false
  | some m => lost q && !table.contains (entryOf gpu t q m)

/-- Between `t` and `t'`. -/
def entryChanged (gpu : Gpu) (t t' : Nodes) (q : Path) : Bool :=
  match t q, t' q with
  | some x, some y => x.getEntryValue gpu != y.getEntryValue gpu
  | _, _ => false

section
variable {A : Type}

namespace ManagerState

/-- `AubFileStream::write`. -/
def write (records : List Record) (s : ManagerState A) : ManagerState A :=
  match s.fileHandle with
  | .closed => { s with tmpWriteBuffer := s.tmpWriteBuffer ++ records }
  | .opened file => { s with fileHandle := .opened { file with records := file.records ++ records } }
  | .failed _ => s

/-- `AubFileStream::open`. -/
def openFile (name : String) (s : ManagerState A) : ManagerState A :=
  match s.fileHandle with
  | .closed =>
    { s with fileHandle := .opened ⟨name, [], s.ccsCount, s.hwContexts.map (·.id)⟩ }
  | .opened file => { s with fileHandle := .failed file }
  | .failed file => { s with fileHandle := .failed file }

/-- `AubFileStream::close`. -/
def closeFile (s : ManagerState A) : ManagerState A :=
  match s.fileHandle with
  | .closed => s
  | .opened file | .failed file => { s with
      fileHandle := .closed
      files := s.files ++ [file]
      lost := fun q => (s.ppgtts.head?.bind (· q)).isSome }

end ManagerState

/-- The end of `writePageWalkEntries`, for a stream that writes to a file alone. -/
def commit (w : WalkState A) : Nodes :=
  modifyAll w.nodes ((List.range 5).flatMap w.pendingNodes) (·.setPendingWrite false)

variable (m : AubManagerImp A)

namespace AubManagerImp

def injectMMIOs : List Record :=
  (List.range m.devicesCount).flatMap fun device => m.MMIOListInjected.map fun x =>
    .mmio (wrap32 (device * mmioDeviceOffset + x.offset)) x.value x.mask

def ccsModeMMIOs (ccsCount : Nat) : List Record :=
  (List.range m.devicesCount).map fun device =>
    .mmio (wrap32 (device * mmioDeviceOffset + 0x14804)) (ccsModeValue ccsCount) 0xffffffff

/-- `writePpgttLevel1`, `writePpgttLevel2` and the writes of `writePageWalkEntries`: a level has an
address space of its own where the entries are legacy ones. -/
def writeLevel (legacy : AddressSpaceValues) (hint : Nat) (table : List PageEntryInfo) :
    List Record :=
  let usePml5 := decide (48 < m.tables.ppgtt.getNumAddressBits)
  if !usePml5 && !m.pageTablesInLocalMemory then
    writeEntries legacy DataTypeHintValues.TraceNotype table
  else
    writeEntries (if m.pageTablesInLocalMemory then .TraceLocal else .TraceNonlocal) hint table

def writePageWalkEntries (pageWalkEntries : Nat → List PageEntryInfo) : List Record :=
  let usePml5 := decide (48 < m.tables.ppgtt.getNumAddressBits)
  (if usePml5 then writeEntries (if m.pageTablesInLocalMemory then .TraceLocal else .TraceNonlocal)
    DataTypeHintValues.TracePpgttLevel5 (pageWalkEntries Pml5) else []) ++
  m.writeLevel .TracePml4Entry DataTypeHintValues.TracePpgttLevel4 (pageWalkEntries Pml4) ++
  m.writeLevel .TracePhysicalPdpEntry DataTypeHintValues.TracePpgttLevel3 (pageWalkEntries Pdp) ++
  m.writeLevel .TracePpgttPdEntry DataTypeHintValues.TracePpgttLevel2 (pageWalkEntries Pde) ++
  m.writeLevel .TracePpgttEntry DataTypeHintValues.TracePpgttLevel1 (pageWalkEntries Pte)

/-- `AubStream::writePages` without its data. -/
def writePages (w : WalkState A) : List Record :=
  w.pages64KB.map .reserveContiguousPages ++ m.writePageWalkEntries w.pageWalkEntries

/-- The level 3 entries have no legacy address space here. -/
def writeFreed (r : FreeState A × Bool) : List Record :=
  if r.2 then
    m.writeLevel .TracePpgttEntry DataTypeHintValues.TracePpgttLevel1 (r.1.pageWalkEntries Pte) ++
    m.writeLevel .TracePpgttPdEntry DataTypeHintValues.TracePpgttLevel2 (r.1.pageWalkEntries Pde) ++
    writeEntries (if m.pageTablesInLocalMemory then .TraceLocal else .TraceNonlocal)
      DataTypeHintValues.TracePpgttLevel3 (r.1.pageWalkEntries Pdp)
  else []

/-- The state and whether the call throws. -/
def setCCSMode (ccsCount : Nat) (s : ManagerState A) : ManagerState A × Bool :=
  if s.hwContexts = [] then ({ s with ccsCount := ccsCount }.write (m.ccsModeMMIOs ccsCount), false)
  else (s, m.enableThrow)

/-- `HardwareContextImp::initialize`. -/
def initialize1 (c : HwContext) (a : A) : HwContext × A × List Record :=
  if c.pLRCA then (c, a, [])
  else
    let r := m.initializeContext c a
    ({ c with
        pLRCA := true
        pRingData := if m.isRingDataEnabled c.engine then .allocated else c.pRingData },
      r.2, [.contextInitialization c.id r.1])

def initializeAll : List HwContext → A → List HwContext × A × List Record
  | [], a => ([], a, [])
  | c :: rest, a =>
    let r := m.initialize1 c a
    let rs := initializeAll rest r.2.1
    (r.1 :: rs.1, rs.2.1, r.2.2 ++ rs.2.2)

/-- `for (auto &ctxt : hwContexts) ctxt->initialize()`. -/
def initializeContexts (s : ManagerState A) : ManagerState A :=
  let r := m.initializeAll s.hwContexts s.allocator
  { s with hwContexts := r.1, allocator := r.2.1 }.write r.2.2

/-- `AubFileStream::init`: the header, then what was written while no file was open. -/
def init (s : ManagerState A) : ManagerState A :=
  let s := s.write [.version m.stepping m.deviceId]
  { s.write s.tmpWriteBuffer with tmpWriteBuffer := [] }

/-- `AubManagerImp::open`. -/
def openAub (name : String) (s : ManagerState A) : ManagerState A :=
  let s := m.init (s.openFile name)
  let s := (s.write (writeMMIOs m.initializeGlobalMMIO)).write (writeMMIOs m.setMemoryBankSize)
  let r := m.setCCSMode s.ccsCount s
  if r.2 then r.1 else m.initializeContexts (r.1.write m.injectMMIOs)

end AubManagerImp

/-- `AubManagerImp::close`. -/
def closeAub (s : ManagerState A) : Option (ManagerState A) :=
  (s.hwContexts.mapM HwContext.release).map fun contexts =>
    { s with hwContexts := contexts }.closeFile

/-- One call of the stream for each table. -/
def eachTable (f : Nodes → A → Option (Nodes × A × List Record)) :
    List Nodes → A → Option (List Nodes × A × List Record)
  | [], a => some ([], a, [])
  | t :: rest, a => (f t a).bind fun r => (eachTable f rest r.2.1).map fun rs =>
      (r.1 :: rs.1, rs.2.1, r.2.2 ++ rs.2.2)

variable [PhysicalAddressAllocator A]

namespace AubManagerImp

def walk (params : AllocationParams) (mode : WalkMode) (pageInfos : List PageInfo)
    (physicalAddress : Option Nat) (t : Nodes) (a : A) : Option (WalkState A) :=
  walkMemory m.tables.gpu m.tables.enablePs64 m.tables.ppgtt t a params mode pageInfos
    physicalAddress

/-- A walk over one table, with the records of its entries. -/
def walkTable (params : AllocationParams) (mode : WalkMode) (pageInfos : List PageInfo)
    (physicalAddress : Option Nat) (t : Nodes) (a : A) : Option (Nodes × A × List Record) :=
  (m.walk params mode pageInfos physicalAddress t a).map fun w =>
    (commit w, w.allocator, m.writePages w)

def freeTable (gfxAddress size : Nat) (t : Nodes) (a : A) : Option (Nodes × A × List Record) :=
  let r := freeMemory m.tables.gpu m.tables.ppgtt t a gfxAddress size
  some (r.1.nodes, r.1.allocator, m.writeFreed r)

/-- `writeDiscontiguousPages` of data; an empty table is read at its first record. -/
def writeData (t : Nodes) (params : AllocationParams) (entries : List PageInfo) :
    Option (List Record) :=
  match params.memory with
  | none => some []
  | some memory => if entries = [] then none else
      some [.data ⟨t, params.gfxAddress, params.size, memory, entries, params.hint⟩]

/-- `AubStream::writeMemory` for the first table, `cloneMemory` for the others. -/
def writeTables (params : AllocationParams) : List Nodes → A →
    Option (List Nodes × A × List Record)
  | [], _ => none
  | t :: rest, a => (m.walk params .Reserve [] none t a).bind fun w =>
      (writeData (commit w) params w.entries).bind fun data =>
      (eachTable (m.walkTable params .Clone w.entries none) rest w.allocator).map fun rs =>
        (commit w :: rs.1, rs.2.1, m.writePages w ++ data ++ rs.2.2)

end AubManagerImp

/-- The state after the tables have changed and `r.2.2` was written. -/
def update (s : ManagerState A) (r : List Nodes × A × List Record) : ManagerState A :=
  { s with
    ppgtts := r.1
    allocator := r.2.1
    lost := match r.1 with
      | [] => s.lost
      | t :: _ => stillLost m.tables.gpu t (entriesOf r.2.2) s.lost }.write r.2.2

/-- A free that returns before the end of its range does not write the entries it has changed. -/
def giveUp (gfxAddress size : Nat) (s : ManagerState A) : ManagerState A :=
  match s.ppgtts with
  | [] => s
  | t :: _ =>
    let r := freeMemory m.tables.gpu m.tables.ppgtt t s.allocator gfxAddress size
    if r.2 then s
    else { s with lost := fun q => s.lost q || entryChanged m.tables.gpu t r.1.nodes q }

inductive Op where
  | openAub (name : String)
  | closeAub
  | createHardwareContext (device engine flags : Nat)
  | setCCSMode (ccsCount : Nat)
  | writeMemory2 (params : AllocationParams)
  | mapGpuVa (gfxAddress size : Nat) (info : PhysicalAllocationInfo)
  | freeMemory (gfxAddress size : Nat)

/-- `writeMemory2` hands the walk a page size that the hardware supports. -/
def supportedParams (params : AllocationParams) : AllocationParams :=
  { params with
    pageSize := getSupportedPageSize m.tables.gpu params.memoryBanks params.pageSize }

/-- A call that throws has had its effect up to there. `none`: the behaviour is undefined. -/
def step (s : ManagerState A) : Op → Option (ManagerState A)
  | .openAub name => some (m.openAub name s)
  | .closeAub => closeAub s
  | .createHardwareContext device engine flags =>
    if device < m.devicesCount then some { s with
      hwContexts := s.hwContexts ++ [⟨s.hwContexts.length, device, engine, flags, false, .null⟩] }
    else none
  | .setCCSMode ccsCount => some (m.setCCSMode ccsCount s).1
  | .writeMemory2 params =>
    (m.writeTables (supportedParams m params) s.ppgtts s.allocator).map (update m s)
  | .mapGpuVa gfxAddress size info =>
    (eachTable (m.walkTable (mapParams gfxAddress size info) .Reserve []
      (some info.physicalAddress)) s.ppgtts s.allocator).map (update m s)
  | .freeMemory gfxAddress size =>
    (eachTable (m.freeTable gfxAddress size) s.ppgtts s.allocator).map
      (update m (giveUp m gfxAddress size s))

/-- Table `i` of a device with local memory lies in bank `i`. -/
def newPpgtts : List Nat → A → List Nodes × A
  | [], a => ([], a)
  | device :: rest, a =>
    let t := newTables a (if m.pageTablesInLocalMemory then 2 ^ device else mainBank)
    let ts := newPpgtts rest t.allocator
    (t.nodes :: ts.1, ts.2)

/-- After `AubManagerImp::initialize`. -/
def start (a : A) : ManagerState A :=
  let r := newPpgtts m (List.range m.devicesCount) a
  ⟨r.1, r.2, [], 0, .closed, writeMMIOs m.initializeDefaultMemoryPools, [], fun _ => false⟩

end

/-- One device, with four-level page tables in its memory. -/
def plainManager : AubManagerImp PhysicalAddressAllocatorSimple where
  tables := ⟨plainGpu, false, .PML4⟩
  pageTablesInLocalMemory := true
  devicesCount := 1
  stepping := 0
  deviceId := 0
  enableThrow := false
  initializeGlobalMMIO := []
  setMemoryBankSize := []
  initializeDefaultMemoryPools := []
  MMIOListInjected := []
  isRingDataEnabled := fun _ => false
  initializeContext := fun _ a => ([], a)

def oneDword : AllocationParams := { request4KB 0x1000 4 with memory := some fun _ => 0 }

end AubManager
