import Aubstream.Reservations

/-!
# Runs of the manager and its contexts

The page tables of all devices share one allocator with the client. The manager
works on the tables of every device, a hardware context on those of its own.
-/

namespace ManagerRuns
open EntryBits PathTree PhysicalAllocator PageNodes PageWalker TreeShape Placement FreeMemory
  TableRuns Reservations Transitions

/-- `reservations` are the blocks that clients were given; the source has no such list. -/
structure Memory where
  ppgtts : List Nodes
  allocator : PhysicalAddressAllocatorSimple
  reservations : List Block

/-- `commit`: a stream has written entries and clears the flags of their nodes, by device. -/
inductive Op where
  | writeMemory2 (params : AllocationParams)
  | reservePhysicalMemory (params : AllocationParams)
  | mapGpuVa2 (physicalAddress : Nat) (params : AllocationParams)
  | freeMemory (gfxAddress size : Nat)
  | contextWriteMemory2 (device : Nat) (params : AllocationParams)
  | contextFreeMemory (device gfxAddress size : Nat)
  | commit (pendingNodes : Nat → List Path)

def Op.mapGpuVa (gfxAddress size : Nat) (info : PhysicalAllocationInfo) : Op :=
  .mapGpuVa2 info.physicalAddress (mapParams gfxAddress size info)

/-- The clone walks take a hint of 0 instead, which no walk reads. -/
def Op.writePageTableEntries (gfxAddress size memoryBanks hint pageSize : Nat) : Op :=
  .writeMemory2 ⟨gfxAddress, none, size, memoryBanks, hint, pageSize, noParams⟩

/-- `for (auto &ppgtt : ppgtts)`. -/
def eachTable (f : Nodes → PhysicalAddressAllocatorSimple →
      Option (Nodes × PhysicalAddressAllocatorSimple)) :
    List Nodes → PhysicalAddressAllocatorSimple →
      Option (List Nodes × PhysicalAddressAllocatorSimple)
  | [], a => some ([], a)
  | t :: rest, a => (f t a).bind fun r => (eachTable f rest r.2).map fun rs => (r.1 :: rs.1, rs.2)

/-- The table of one device. -/
def atTable (f : Nodes → PhysicalAddressAllocatorSimple →
      Option (Nodes × PhysicalAddressAllocatorSimple)) :
    Nat → List Nodes → PhysicalAddressAllocatorSimple →
      Option (List Nodes × PhysicalAddressAllocatorSimple)
  | _, [], _ => none
  | 0, t :: rest, a => (f t a).map fun r => (r.1 :: rest, r.2)
  | device + 1, t :: rest, a => (atTable f device rest a).map fun rs => (t :: rs.1, rs.2)

section
variable (cfg : Config)

def walkTable (params : AllocationParams) (mode : WalkMode) (pageInfos : List PageInfo)
    (physicalAddress : Option Nat) (t : Nodes) (a : PhysicalAddressAllocatorSimple) :
    Option (Nodes × PhysicalAddressAllocatorSimple) :=
  (walkMemory cfg.gpu cfg.enablePs64 cfg.ppgtt t a params mode pageInfos physicalAddress).map
    fun w => (w.nodes, w.allocator)

def freeTable (gfxAddress size : Nat) (t : Nodes) (a : PhysicalAddressAllocatorSimple) :
    Option (Nodes × PhysicalAddressAllocatorSimple) :=
  let r := freeMemory cfg.gpu cfg.ppgtt t a gfxAddress size
  some (r.1.nodes, r.1.allocator)

/-- `AubStream::writeMemory` for the first table, `cloneMemory` for the others. -/
def writeTables (params : AllocationParams) : List Nodes → PhysicalAddressAllocatorSimple →
    Option (List Nodes × PhysicalAddressAllocatorSimple)
  | [], _ => none
  | t :: rest, a =>
    (walkMemory cfg.gpu cfg.enablePs64 cfg.ppgtt t a params .Reserve [] none).bind fun w =>
      (eachTable (walkTable cfg params .Clone w.entries none) rest w.allocator).map fun rs =>
        (w.nodes :: rs.1, rs.2)

/-- `writeMemory2` hands the walk a page size that the hardware supports. -/
def supportedParams (params : AllocationParams) : AllocationParams :=
  { params with pageSize := getSupportedPageSize cfg.gpu params.memoryBanks params.pageSize }

/-- A reservation that is refused changes nothing. `none`: the behaviour is undefined. -/
def step (s : Memory) : Op → Option Memory
  | .writeMemory2 params => (writeTables cfg (supportedParams cfg params) s.ppgtts s.allocator).map
      fun r => { s with ppgtts := r.1, allocator := r.2 }
  | .reservePhysicalMemory params =>
    match Reservations.reservePhysicalMemory cfg.gpu s.allocator params with
    | none => some s
    | some (info, a) => some ⟨s.ppgtts, a, s.reservations ++ [⟨info.memoryBank, info.physicalAddress,
        sizePageAligned params.gfxAddress params.size info.pageSize⟩]⟩
  | .mapGpuVa2 physicalAddress params =>
    (eachTable (walkTable cfg params .Reserve [] (some physicalAddress)) s.ppgtts s.allocator).map
      fun r => { s with ppgtts := r.1, allocator := r.2 }
  | .freeMemory gfxAddress size =>
    (eachTable (freeTable cfg gfxAddress size) s.ppgtts s.allocator).map
      fun r => { s with ppgtts := r.1, allocator := r.2 }
  | .contextWriteMemory2 device params =>
    (atTable (walkTable cfg (supportedParams cfg params) .Reserve [] none) device s.ppgtts
      s.allocator).map fun r => { s with ppgtts := r.1, allocator := r.2 }
  | .contextFreeMemory device gfxAddress size =>
    (atTable (freeTable cfg gfxAddress size) device s.ppgtts s.allocator).map
      fun r => { s with ppgtts := r.1, allocator := r.2 }
  | .commit pendingNodes =>
    let ppgtts := s.ppgtts.mapIdx fun device t =>
      modifyAll t (pendingNodes device) (·.setPendingWrite false)
    some ⟨ppgtts, s.allocator, s.reservations⟩

/-- The tables of the devices, each in its bank. -/
def newPpgtts : List Nat → PhysicalAddressAllocatorSimple →
    List Nodes × PhysicalAddressAllocatorSimple
  | [], a => ([], a)
  | memoryBank :: rest, a =>
    let t := newTables a memoryBank
    let ts := newPpgtts rest t.allocator
    (t.nodes :: ts.1, ts.2)

/-- After `AubManagerImp::initialize`. -/
def start (memoryBanks : List Nat) (numberOfAllocators singleAllocatorSize : Nat)
    (localMemorySupport : Bool) : Memory :=
  let r := newPpgtts memoryBanks (.new numberOfAllocators singleAllocatorSize localMemorySupport)
  ⟨r.1, r.2, []⟩

end

section Shape
variable {cfg : Config} {ts : List Nodes} {a : PhysicalAddressAllocatorSimple}
  {P : Nodes → Prop} {f : Nodes → PhysicalAddressAllocatorSimple →
    Option (Nodes × PhysicalAddressAllocatorSimple)}
  {r : List Nodes × PhysicalAddressAllocatorSimple}

theorem eachTable_forall (each : ∀ t ∈ ts, ∀ a r, f t a = some r → P r.1)
    (h : eachTable f ts a = some r) : ∀ t ∈ r.1, P t := by
  induction ts generalizing a r with
  | nil =>
    simp only [eachTable, Option.some.injEq] at h
    subst h
    exact List.forall_mem_nil _
  | cons t rest ih =>
    simp only [eachTable, Option.bind_eq_some_iff, Option.map_eq_some_iff] at h
    obtain ⟨first, hfirst, later, hlater, rfl⟩ := h
    obtain ⟨ht, hrest⟩ := List.forall_mem_cons.mp each
    exact List.forall_mem_cons.mpr ⟨ht a first hfirst, ih hrest hlater⟩

theorem atTable_forall (each : ∀ t ∈ ts, ∀ r, f t a = some r → P r.1) (all : ∀ t ∈ ts, P t)
    {device : Nat} (h : atTable f device ts a = some r) : ∀ t ∈ r.1, P t := by
  induction ts generalizing device r with
  | nil => simp [atTable] at h
  | cons t rest ih =>
    obtain ⟨here, later⟩ := List.forall_mem_cons.mp each
    obtain ⟨ht, hrest⟩ := List.forall_mem_cons.mp all
    cases device with
    | zero =>
      simp only [atTable, Option.map_eq_some_iff] at h
      obtain ⟨first, hfirst, rfl⟩ := h
      exact List.forall_mem_cons.mpr ⟨here first hfirst, hrest⟩
    | succ device =>
      simp only [atTable, Option.map_eq_some_iff] at h
      obtain ⟨others, hothers, rfl⟩ := h
      exact List.forall_mem_cons.mpr ⟨ht, ih later hrest hothers⟩

/-- What the operations on one table keep of a tree. -/
abbrev Stable (cfg : Config) (P : Nodes → Prop) : Prop :=
  ∀ (s s' : PageTables PhysicalAddressAllocatorSimple) o, P s.nodes →
    TableRuns.step cfg s o = some s' → P s'.nodes

theorem walkTable_stable (stable : Stable cfg P) {params : AllocationParams} {mode : WalkMode}
    {infos : List PageInfo} (t : Nodes) (a : PhysicalAddressAllocatorSimple)
    (r : Nodes × PhysicalAddressAllocatorSimple) (ht : P t)
    (h : walkTable cfg params mode infos none t a = some r) : P r.1 := by
  obtain ⟨w, hw, rfl⟩ := Option.map_eq_some_iff.mp h
  refine stable ⟨t, a⟩ ⟨w.nodes, w.allocator⟩ (.walk params mode infos) ht ?_
  rw [TableRuns.step, runWalk, hw]
  rfl

theorem mapTable_stable (stable : Stable cfg P) {params : AllocationParams} {phys : Nat} (t : Nodes)
    (a : PhysicalAddressAllocatorSimple) (r : Nodes × PhysicalAddressAllocatorSimple) (ht : P t)
    (h : walkTable cfg params .Reserve [] (some phys) t a = some r) : P r.1 := by
  obtain ⟨w, hw, rfl⟩ := Option.map_eq_some_iff.mp h
  refine stable ⟨t, a⟩ ⟨w.nodes, w.allocator⟩ (.map params phys) ht ?_
  rw [TableRuns.step, runWalk, hw]
  rfl

theorem freeTable_stable (stable : Stable cfg P) {g size : Nat} (t : Nodes)
    (a : PhysicalAddressAllocatorSimple) (r : Nodes × PhysicalAddressAllocatorSimple) (ht : P t)
    (h : freeTable cfg g size t a = some r) : P r.1 := by
  simp only [freeTable, Option.some.injEq] at h
  subst h
  exact stable ⟨t, a⟩ (runFree cfg ⟨t, a⟩ g size) (.freeMemory g size) ht rfl

theorem writeTables_stable (stable : Stable cfg P) {params : AllocationParams} (all : ∀ t ∈ ts, P t)
    (h : writeTables cfg params ts a = some r) : ∀ t ∈ r.1, P t := by
  cases ts with
  | nil => cases h
  | cons t rest =>
    simp only [writeTables, Option.bind_eq_some_iff, Option.map_eq_some_iff] at h
    obtain ⟨w, hw, later, hlater, rfl⟩ := h
    obtain ⟨ht, hrest⟩ := List.forall_mem_cons.mp all
    refine List.forall_mem_cons.mpr ⟨?_,
      eachTable_forall (fun t mem a r => walkTable_stable stable t a r (hrest t mem)) hlater⟩
    refine @walkTable_stable cfg P stable params .Reserve [] t a (w.nodes, w.allocator) ht ?_
    rw [walkTable, hw]
    rfl

/-- Every table undergoes operations on one table. -/
theorem step_tables (stable : Stable cfg P) {s s' : Memory} {o : Op} (all : ∀ t ∈ s.ppgtts, P t)
    (h : step cfg s o = some s') : ∀ t ∈ s'.ppgtts, P t := by
  cases o with
  | writeMemory2 params =>
    obtain ⟨r, hr, rfl⟩ := Option.map_eq_some_iff.mp h
    exact writeTables_stable stable all hr
  | reservePhysicalMemory params =>
    simp only [step] at h
    split at h
    · cases h
      exact all
    · cases h
      exact all
  | mapGpuVa2 phys params =>
    obtain ⟨r, hr, rfl⟩ := Option.map_eq_some_iff.mp h
    exact eachTable_forall (fun t mem a r => mapTable_stable stable t a r (all t mem)) hr
  | freeMemory g size =>
    obtain ⟨r, hr, rfl⟩ := Option.map_eq_some_iff.mp h
    exact eachTable_forall (fun t mem a r => freeTable_stable stable t a r (all t mem)) hr
  | contextWriteMemory2 device params =>
    obtain ⟨r, hr, rfl⟩ := Option.map_eq_some_iff.mp h
    exact atTable_forall (fun t mem r => walkTable_stable stable t s.allocator r (all t mem)) all hr
  | contextFreeMemory device g size =>
    obtain ⟨r, hr, rfl⟩ := Option.map_eq_some_iff.mp h
    exact atTable_forall (fun t mem r => freeTable_stable stable t s.allocator r (all t mem)) all hr
  | commit pendingNodes =>
    simp only [step, Option.some.injEq] at h
    subst h
    intro t ht
    obtain ⟨device, hdevice, rfl⟩ := List.mem_mapIdx.mp ht
    exact stable ⟨_, s.allocator⟩ ⟨_, s.allocator⟩ (.commit (pendingNodes device))
      (all _ (List.getElem_mem hdevice)) rfl

/-- Every table that a run reaches is one that operations on one table reach. -/
theorem reach_tables (stable : Stable cfg P)
    (init : ∀ (a : PhysicalAddressAllocatorSimple) memoryBank, P (newTables a memoryBank).nodes)
    {ok : Memory → Op → Prop} {memoryBanks : List Nat}
    {numberOfAllocators singleAllocatorSize : Nat} {localMemorySupport : Bool} {s : Memory}
    (reached : Reach (step cfg) ok
      (start memoryBanks numberOfAllocators singleAllocatorSize localMemorySupport) s) :
    ∀ t ∈ s.ppgtts, P t := by
  have hnew : ∀ memoryBanks a, ∀ t ∈ (newPpgtts memoryBanks a).1, P t := by
    intro memoryBanks
    induction memoryBanks with
    | nil => exact fun _ => List.forall_mem_nil _
    | cons memoryBank rest ih =>
      exact fun a => List.forall_mem_cons.mpr ⟨init a memoryBank, ih _⟩
  exact reached.invariant (I := fun s => ∀ t ∈ s.ppgtts, P t) (hnew memoryBanks _)
    fun _ _ _ all _ h => step_tables stable all h

theorem reach_tables_wf {ok : Memory → Op → Prop} {memoryBanks : List Nat}
    {numberOfAllocators singleAllocatorSize : Nat} {localMemorySupport : Bool} {s : Memory}
    (reached : Reach (step cfg) ok
      (start memoryBanks numberOfAllocators singleAllocatorSize localMemorySupport) s) :
    ∀ t ∈ s.ppgtts, Wf cfg.ppgtt.getNumLevels t :=
  reach_tables (fun _ _ _ wf h => step_wf wf h) (newTables_wf cfg.ppgtt) reached

end Shape

end ManagerRuns
