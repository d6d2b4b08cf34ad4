import Aubstream.MirroredTables
import Aubstream.PhantomMappings

/-!
# The hardware's walk is the translation

In every run the memory behind the stream mirrors the tables of all devices, and so
the hardware finds for every address the leaf that the tables have, or none.
-/

namespace ExactTables
open EntryBits PathTree PhysicalAllocator AllocatorBlocks PageNodes PageWalker FreeMemory TreeShape
  WalkPhases FreePhases LastTables Placement Translation FreeRounds MapFrame MappedPages BlockOwners AubPackets
  AubManager WrittenPaths OwnedRuns PageAliasing StreamedMemory HardwareWalk EmittedEntries
  ClearedSlots LatestEntries FreedEntries FaithfulMemory WrittenPages MemoryBlocks AllocatorGrowth
  StreamedTables FaithfulCalls PhantomMappings MirroredTables TableAgreement Transitions
open FreeComplete hiding fourLevel
open TableRuns hiding Op step

/-- Every table is in memory as it is. -/
structure Exact (base : Bank → Nat) (cfg : Config) (s : Simulation) : Prop where
  good : Good base cfg s
  mirrored : ∀ t ∈ s.ppgtts, Mirrored cfg.gpu t (word s.image (regionOf (bankOf t)))

/-- With PS64 a mapping does not go around the end of the address space. -/
def Allowed (cfg : Config) (s : Simulation) : Call → Prop
  | .mapGpuVa device physicalAddress params =>
    FaithfulCalls.Allowed cfg s (.mapGpuVa device physicalAddress params) ∧
      (cfg.enablePs64 = true → params.pageSize = pageSize4KB → cfg.ppgtt = .PML5 →
        InSpace cfg.ppgtt.getNumLevels params.gfxAddress params.size)
  | c => FaithfulCalls.Allowed cfg s c

theorem Allowed.faithful {cfg : Config} {s : Simulation} {c : Call} (allowed : Allowed cfg s c) :
    FaithfulCalls.Allowed cfg s c := by
  cases c with
  | mapGpuVa device physicalAddress params => exact allowed.1
  | _ => exact allowed

/-- The data of a write, where its records say. -/
def storeData (image : AubPackets.Memory) (params : AllocationParams) (entries : List PageInfo) :
    AubPackets.Memory :=
  match params.memory with
  | none => image
  | some memory => TbxStream.writeDiscontiguousPages image (bytesOf memory params.size) entries

section
variable (m : AubManagerImp PhysicalAddressAllocatorSimple)

/-- The memory when the entries of a walk are written. -/
def entryImage (image : AubPackets.Memory) (t : Nodes)
    (w : WalkState PhysicalAddressAllocatorSimple) : AubPackets.Memory :=
  storeEntries (regionOf (bankOf t)) image (entriesOf ((forTable m t).writePages w))

end

section Calls
variable {base : Bank → Nat} {m : AubManagerImp PhysicalAddressAllocatorSimple}
  {s s' : Simulation} {device : Nat} {t t' : Nodes} {params : AllocationParams} {phys : Option Nat}
  {w : WalkState PhysicalAddressAllocatorSimple} {image' : AubPackets.Memory}
  {a' : PhysicalAddressAllocatorSimple}

/-- The tables of the other devices. -/
theorem mirrored_set {cfg : Config} (exact' : Exact base cfg s)
    (shape : ∀ t ∈ s.ppgtts, Wf cfg.ppgtt.getNumLevels t ∧ Inhabited t)
    (room : Unexhausted s.allocator)
    (changed : ChangedIn (tablesOf s.ppgtts) device a' s.image image')
    (here : Mirrored cfg.gpu t' (word image' (regionOf (bankOf t')))) :
    ∀ u ∈ s.ppgtts.set device t', Mirrored cfg.gpu u (word image' (regionOf (bankOf u))) := by
  intro u hu
  obtain ⟨other, hother⟩ := List.mem_iff_getElem?.mp hu
  by_cases heq : other = device
  · rcases List.mem_or_eq_of_mem_set hu with _ | rfl
    · subst other
      have inside := (List.getElem?_eq_some_iff.mp hother).1
      rw [List.length_set] at inside
      rw [List.getElem?_set_self inside] at hother
      obtain rfl := Option.some.inj hother
      exact here
    · exact here
  · rw [List.getElem?_set_ne (Ne.symm heq)] at hother
    have mem := List.mem_of_getElem? hother
    obtain rfl := tablesOf_of_getElem hother
    have own := exact'.good.own _ mem
    have aligned := tablesAligned_of_owned exact'.good.owned room exact'.good.aligned own
    refine mirrored_apart (shape _ mem).1 aligned own (fun x different => ?_) (exact'.mirrored _ mem)
    exact (changed _ x (regionOf_ne_gtt _) different).2 other heq

theorem walk_wf (wf : Wf m.tables.ppgtt.getNumLevels t) (inhabited : Inhabited t)
    (hw : m.walk params .Reserve [] phys t s.allocator = some w) :
    Wf m.tables.ppgtt.getNumLevels w.nodes := by
  have tree := (walk_tree m wf inhabited (by simp) hw).1
  rw [← wf_layout, commit_layout, wf_layout] at tree
  exact tree

/-- The tables of a walk, before its data is written. -/
theorem mirrored_entries (exact' : Exact base m.tables s) (ht : s.ppgtts[device]? = some t)
    (wf : Wf m.tables.ppgtt.getNumLevels t) (inhabited : Inhabited t)
    (walked : Walked base m.tables s device t phys w) (room' : Unexhausted w.allocator)
    (banks' : BanksApart base w.allocator)
    (space : phys ≠ none → m.tables.enablePs64 = true → params.pageSize = pageSize4KB →
      m.tables.ppgtt = .PML5 → InSpace m.tables.ppgtt.getNumLevels params.gfxAddress params.size)
    (hw : m.walk params .Reserve [] phys t s.allocator = some w) :
    Mirrored m.tables.gpu w.nodes (word (storeEntries (regionOf (bankOf t)) s.image
      (entriesOf ((forTable m t).writePages w))) (regionOf (bankOf t))) := by
  have wf' := walk_wf wf inhabited hw
  have tracked := walk_tracked m wf (fun expect => by cases expect) space hw
  have current := walk_current m wf (by simp) space hw
  exact mirrored_walk (m := forTable m t) rfl (regionOf_ne_gtt _) wf wf' (walked.tablesAligned room')
    (walked.tablesApart banks').slots walked.emits tracked current
    (exact'.mirrored t (List.mem_of_getElem? ht))

/-- What a write does. -/
theorem writeMemory_some (h : call m s (.writeMemory device params) = some s') :
    ∃ t w, s.ppgtts[device]? = some t ∧ m.walk params .Reserve [] none t s.allocator = some w ∧
      (params.memory ≠ none → w.entries ≠ []) ∧
      s' = ⟨s.ppgtts.set device (commit w), w.allocator, s.reservations,
        storeData (entryImage m s.image t w) params w.entries⟩ := by
  obtain ⟨t, r, ht, hr, rfl⟩ := atDevice_some h
  obtain ⟨w, hw, hlater⟩ := Option.bind_eq_some_iff.mp hr
  obtain ⟨data, hdata, rfl⟩ := Option.map_eq_some_iff.mp hlater
  refine ⟨t, w, ht, hw, ?_⟩
  rw [storeRecords_append, storeRecords_writePages]
  cases memory : params.memory with
  | none =>
    rw [AubManagerImp.writeData, memory] at hdata
    obtain rfl := Option.some.inj hdata
    exact ⟨fun some => absurd rfl some, by rw [storeData, memory]; rfl⟩
  | some f =>
    simp only [AubManagerImp.writeData, memory] at hdata
    split at hdata
    · cases hdata
    · rename_i entries
      obtain rfl := Option.some.inj hdata
      exact ⟨fun _ => entries, by rw [storeData, memory]; rfl⟩

/-- The memory of a write, after its entries and after its data. -/
theorem Walked.images {cfg : Config} (walked : Walked base cfg s device t none w)
    (good : Good base cfg s) (ht : s.ppgtts[device]? = some t) (wf : Wf cfg.ppgtt.getNumLevels t)
    (wf' : Wf cfg.ppgtt.getNumLevels w.nodes) (room' : Unexhausted w.allocator)
    (banks' : BanksApart base w.allocator)
    (hw : walkMemory cfg.gpu cfg.enablePs64 cfg.ppgtt t s.allocator params .Reserve [] none = some w)
    (data : params.memory ≠ none → ∀ x p, params.gfxAddress ≤ x →
      x < params.gfxAddress + params.size → pageAt cfg.ppgtt.getNumLevels t x = some p →
      IsData s (regionOf p.memoryBank) (p.physicalAddress + x % p.size))
    {image : AubPackets.Memory} {r : Region} {x : Nat}
    (different : storeData image params w.entries r x ≠ image r x) :
    InBlock w.allocator r x ∧
      ∀ d, ¬ TablePage (Function.update (tablesOf s.ppgtts) device w.nodes d) r x := by
  cases memory : params.memory with
  | none =>
    rw [storeData, memory] at different
    exact absurd rfl different
  | some f =>
    have overData := data (by rw [memory]; exact Option.some_ne_none f)
    have bytes := fun (e : PageInfo) (he : e ∈ w.entries) y h1 h2 =>
      @Walked.bytes base s device t params w cfg walked good ht wf wf' banks' hw overData e he y h1 h2
    rw [storeData, memory] at different
    by_contra outside
    refine different (writeDiscontiguousPages_outside
      (fun e he y h1 h2 => (bytes e he y h1 h2).1.fits walked.owned room') fun e he hr => ?_)
    by_contra inside
    exact outside (hr ▸ bytes e he x (by omega) (by omega))

theorem exact_writeMemory (exact' : Exact base m.tables s)
    (shape : ∀ t ∈ s.ppgtts, Wf m.tables.ppgtt.getNumLevels t ∧ Inhabited t)
    (allowed : FaithfulCalls.Allowed m.tables s (.writeMemory device params))
    (h : call m s (.writeMemory device params) = some s') (room' : Unexhausted s'.allocator)
    (banks' : BanksApart base s'.allocator) : Exact base m.tables s' := by
  have good' := good_writeMemory exact'.good shape allowed h room' banks'
  obtain ⟨t, w, ht, hw, -, rfl⟩ := writeMemory_some h
  obtain ⟨wf, inhabited⟩ := shape t (List.mem_of_getElem? ht)
  obtain ⟨supplied, overData⟩ := allowed t ht
  have walked := walked_of_walk exact'.good ht wf hw (keeps_walk wf (by simp) hw) room'
  have wf' := walk_wf wf inhabited hw
  have mirrored := mirrored_entries exact' ht wf inhabited walked room' banks'
    (fun some => absurd rfl some) hw
  have bank : bankOf (commit w) = bankOf t :=
    bankOf_of_grows wf (walked.emits.grows.trans (grows_of_layout (commit_layout w)))
  obtain ⟨-, changed⟩ := walked.entries exact'.good ht room' banks' (supplied.cases wf hw)
    fun e he => entriesOf_writePages (m := forTable m t) he
  have images := fun r x => @Walked.images base s device t params w m.tables walked exact'.good ht wf
    wf' room' banks' hw overData (entryImage m s.image t w) r x
  refine ⟨good', mirrored_set exact' shape (walked.keeps.room room') (changed.trans ?_) ?_⟩
  · intro r x _ different
    obtain ⟨inBlock, outside⟩ := images r x different
    refine ⟨inBlock, fun other hne => ?_⟩
    have page := outside other
    rw [Function.update_of_ne hne] at page
    exact page
  · rw [bank]
    refine mirrored_commit (mirrored_apart wf' (walked.tablesAligned room') walked.own (fun x different => ?_)
      mirrored)
    have page := (images _ x different).2 device
    rw [Function.update_self] at page
    exact page

theorem exact_mapGpuVa {physicalAddress : Nat} (exact' : Exact base m.tables s)
    (shape : ∀ t ∈ s.ppgtts, Wf m.tables.ppgtt.getNumLevels t ∧ Inhabited t)
    (allowed : Allowed m.tables s (.mapGpuVa device physicalAddress params))
    (h : call m s (.mapGpuVa device physicalAddress params) = some s')
    (room' : Unexhausted s'.allocator) (banks' : BanksApart base s'.allocator) :
    Exact base m.tables s' := by
  have good' := good_mapGpuVa exact'.good shape allowed.1 h room' banks'
  obtain ⟨t, r, ht, hr, rfl⟩ := atDevice_some h
  obtain ⟨w, hw, rfl⟩ := Option.map_eq_some_iff.mp hr
  obtain ⟨wf, inhabited⟩ := shape t (List.mem_of_getElem? ht)
  obtain ⟨small, both⟩ := allowed.1
  obtain ⟨supplied, maps⟩ := both t ht
  have walked := walked_of_walk exact'.good ht wf hw (keeps_map small wf maps hw) room'
  have mirrored := mirrored_entries exact' ht wf inhabited walked room' banks' (fun _ => allowed.2) hw
  have bank : bankOf (commit w) = bankOf t :=
    bankOf_of_grows wf (walked.emits.grows.trans (grows_of_layout (commit_layout w)))
  obtain ⟨-, changed⟩ := walked.entries exact'.good ht room' banks' (supplied.cases wf hw)
    fun e he => entriesOf_writePages (m := forTable m t) he
  refine ⟨good', ?_⟩
  rw [storeRecords_writePages]
  refine mirrored_set exact' shape (walked.keeps.room room') changed ?_
  rw [bank]
  exact mirrored_commit mirrored

/-- A free writes to slots of its table. -/
theorem writtenEntries_placed {cfg : Config} {g size : Nat} (wf : Wf cfg.ppgtt.getNumLevels t)
    (apart : SlotsApart t) {e : PageEntryInfo}
    (he : e ∈ writtenEntries (freeMemory cfg.gpu cfg.ppgtt t s.allocator g size)) :
    ∃ i p x, t p = some x ∧ hasIndex i x.kind ∧ e.physicalAddress = x.physicalAddress + i * 8 := by
  obtain ⟨-, cleared⟩ := @freeMemory_cleared _ _ cfg.gpu t cfg.ppgtt apart wf s.allocator g size
  have hemitted : e ∈ emitted (freeMemory cfg.gpu cfg.ppgtt t s.allocator g size).1 := by
    rw [writtenEntries] at he
    split at he
    · exact he
    · cases he
  obtain ⟨l, q, clears⟩ := cleared.slot_of_emitted hemitted
  obtain ⟨i, p, x, -, placed⟩ := clears.placed wf
  exact ⟨i, p, x, placed⟩

/-- The tables after a free whose entries are written. -/
theorem mirrored_freeTable {cfg : Config} {g size : Nat} (exact' : Exact base cfg s)
    (shape : ∀ t ∈ s.ppgtts, Wf cfg.ppgtt.getNumLevels t ∧ Inhabited t)
    (ht : s.ppgtts[device]? = some t)
    (allowed : Untouched cfg.ppgtt.getNumLevels t g size ∨
      ∀ x, g ≤ x → x < g + size → Live cfg.ppgtt.getNumLevels t g x)
    (room' : Unexhausted (freeMemory cfg.gpu cfg.ppgtt t s.allocator g size).1.allocator)
    (banks' : BanksApart base (freeMemory cfg.gpu cfg.ppgtt t s.allocator g size).1.allocator) :
    ∀ u ∈ s.ppgtts.set device (freeMemory cfg.gpu cfg.ppgtt t s.allocator g size).1.nodes,
      Mirrored cfg.gpu u (word (storeEntries (regionOf (bankOf t)) s.image
        (writtenEntries (freeMemory cfg.gpu cfg.ppgtt t s.allocator g size))) (regionOf (bankOf u))) := by
  have mem := List.mem_of_getElem? ht
  obtain ⟨wf, inhabited⟩ := shape t mem
  have keeps : Keeps t s.allocator (freeMemory cfg.gpu cfg.ppgtt t s.allocator g size).1.nodes
      (freeMemory cfg.gpu cfg.ppgtt t s.allocator g size).1.allocator := keeps_free wf g size
  have grown : Grown s.allocator (freeMemory cfg.gpu cfg.ppgtt t s.allocator g size).1.allocator :=
    grown_freeMemory wf g size
  have room : Unexhausted s.allocator := keeps.room room'
  have banks := banksApart_of_grown grown banks'
  have own : TablesOwn (bankOf t) (tablesOf s.ppgtts device) := by
    rw [tablesOf_of_getElem ht]
    exact exact'.good.own t mem
  have aligned := tablesAligned_of_owned exact'.good.owned room exact'.good.aligned own
  have apart := tablesApart_of_owned exact'.good.owned banks own
  rw [tablesOf_of_getElem ht] at aligned apart
  have touched := @nodes_of_stuck cfg s g size t wf inhabited allowed
  have placed := fun e => @writtenEntries_placed s t cfg g size wf apart.slots e
  have current := @freeMemory_current _ cfg.gpu t _ cfg.ppgtt wf s.allocator g size
  obtain ⟨wf', cleared⟩ := @freeMemory_cleared _ _ cfg.gpu t cfg.ppgtt apart.slots wf s.allocator g size
  generalize freeMemory cfg.gpu cfg.ppgtt t s.allocator g size = r at *
  have grows := grows_of_tracked cleared.tracked
  have bank := bankOf_of_grows wf' grows
  have changed : ChangedIn (tablesOf s.ppgtts) device s.allocator s.image
      (storeEntries (regionOf (bankOf t)) s.image (writtenEntries r)) := by
    refine changedIn_entries exact'.good.owned banks (own_tablesOf exact'.good.own)
      (regionOf_ne_gtt _) fun e he => ?_
    obtain ⟨i, p, x, hx, hi, haddress⟩ := placed e he
    rw [haddress, tablesOf_of_getElem ht]
    exact ⟨slot_fits aligned hx hi, fun y h1 h2 =>
      tablePage_of_slot (exact'.good.own t mem) hx hi h1 h2⟩
  refine mirrored_set exact' shape room changed ?_
  have mirrored := exact'.mirrored t mem
  rw [← bank]
  cases done : r.2 with
  | false =>
    rw [touched done, writtenEntries, done, if_neg Bool.false_ne_true]
    exact mirrored
  | true =>
    rw [writtenEntries, done, if_pos rfl]
    exact mirrored_free (regionOf_ne_gtt _) wf wf' aligned apart.slots cleared current mirrored

theorem exact_freeMemory {g size : Nat} (exact' : Exact base m.tables s)
    (shape : ∀ t ∈ s.ppgtts, Wf m.tables.ppgtt.getNumLevels t ∧ Inhabited t)
    (allowed : FaithfulCalls.Allowed m.tables s (.freeMemory device g size))
    (h : call m s (.freeMemory device g size) = some s') (room' : Unexhausted s'.allocator)
    (banks' : BanksApart base s'.allocator) : Exact base m.tables s' := by
  have good' := good_freeMemory exact'.good shape allowed h room' banks'
  obtain ⟨t, r, ht, hr, rfl⟩ := atDevice_some h
  simp only [AubManagerImp.freeTable, Option.some.injEq] at hr
  subst hr
  refine ⟨good', ?_⟩
  rw [storeRecords_writeFreed]
  exact mirrored_freeTable exact' shape ht (allowed t ht) room' banks'

theorem exact_call {c : Call} (exact' : Exact base m.tables s)
    (shape : ∀ t ∈ s.ppgtts, Wf m.tables.ppgtt.getNumLevels t ∧ Inhabited t)
    (allowed : Allowed m.tables s c) (h : call m s c = some s') (room' : Unexhausted s'.allocator)
    (banks' : BanksApart base s'.allocator) : Exact base m.tables s' := by
  cases c with
  | writeMemory device params => exact exact_writeMemory exact' shape allowed h room' banks'
  | reservePhysicalMemory params =>
    have good' := good_reservePhysicalMemory exact'.good allowed h room'
    cases hr : Reservations.reservePhysicalMemory m.tables.gpu s.allocator params with
    | none =>
      simp only [call, hr, Option.some.injEq] at h
      exact h ▸ exact'
    | some r =>
      simp only [call, hr, Option.some.injEq] at h
      subst h
      exact ⟨good', exact'.mirrored⟩
  | mapGpuVa device physicalAddress params => exact exact_mapGpuVa exact' shape allowed h room' banks'
  | freeMemory device g size => exact exact_freeMemory exact' shape allowed h room' banks'

end Calls

/-! ### Runs -/

/-- What the hardware finds for an address, with the size of its page. -/
def hardwarePage (n : Nat) (image : AubPackets.Memory) (t : Nodes) (x : Nat) : Option (Nat × Nat) :=
  walkPage (word image (regionOf (bankOf t))) x (n - 1) (rootAddress t)

/-- What the hardware finds is the leaf of the tables. -/
structure WalksExact (cfg : Config) (s : Simulation) : Prop where
  page : ∀ t ∈ s.ppgtts, ∀ x, hardwarePage cfg.ppgtt.getNumLevels s.image t x =
    (leafAt cfg.ppgtt.getNumLevels t x).map fun leaf =>
      (leaf.getEntryValue cfg.gpu, pageSizeAt cfg.ppgtt.getNumLevels t x)
  walk : ∀ t ∈ s.ppgtts, ∀ x, hardwareWalk cfg.ppgtt.getNumLevels s.image t x =
    (leafAt cfg.ppgtt.getNumLevels t x).map (·.getEntryValue cfg.gpu)

section Runs
variable {m : AubManagerImp PhysicalAddressAllocatorSimple} {base : Bank → Nat} {s : Simulation}
  {memoryBanks : List Nat} {numberOfAllocators singleAllocatorSize : Nat} {localMemorySupport : Bool}

/-- New tables have no slots to mirror. -/
theorem exact_start (room : Unexhausted (newSimulation memoryBanks numberOfAllocators
    singleAllocatorSize localMemorySupport).allocator) :
    Exact (firstAddress singleAllocatorSize localMemorySupport) m.tables
      (newSimulation memoryBanks numberOfAllocators singleAllocatorSize localMemorySupport) := by
  constructor
  · exact good_start room
  · intro t ht p x i y _ hy
    obtain ⟨a, memoryBank, rfl⟩ := newPpgtts_new ht
    rw [newTables] at hy
    exact absurd hy (by simp)

theorem reach_exact (reached : Reach (call m) (Allowed m.tables)
      (newSimulation memoryBanks numberOfAllocators singleAllocatorSize localMemorySupport) s) :
    (∀ t ∈ s.ppgtts, Wf m.tables.ppgtt.getNumLevels t ∧ Inhabited t) ∧
      (Unexhausted s.allocator →
        BanksApart (firstAddress singleAllocatorSize localMemorySupport) s.allocator →
        Exact (firstAddress singleAllocatorSize localMemorySupport) m.tables s) := by
  induction reached with
  | start =>
    refine ⟨fun t ht => ?_, fun room _ => exact_start room⟩
    obtain ⟨a, memoryBank, rfl⟩ := newPpgtts_new ht
    exact ⟨newTables_wf m.tables.ppgtt a memoryBank, FreeComplete.newTables_inhabited a memoryBank⟩
  | step reached allowed done ih =>
    obtain ⟨shape, exact'⟩ := ih
    obtain ⟨shape', grown⟩ := call_shape shape done
    refine ⟨shape', fun room' banks' => ?_⟩
    have room := fun slot => Nat.lt_of_le_of_lt (grown.highWater slot) (room' slot)
    exact exact_call (exact' room (banksApart_of_grown grown banks')) shape allowed done room' banks'

theorem hardwarePage_exact {cfg : Config}
    (shape : ∀ t ∈ s.ppgtts, Wf cfg.ppgtt.getNumLevels t ∧ Inhabited t)
    (room : Unexhausted s.allocator) (exact' : Exact base cfg s) {t : Nodes} (ht : t ∈ s.ppgtts)
    (x : Nat) : hardwarePage cfg.ppgtt.getNumLevels s.image t x =
      (leafAt cfg.ppgtt.getNumLevels t x).map fun leaf =>
        (leaf.getEntryValue cfg.gpu, pageSizeAt cfg.ppgtt.getNumLevels t x) := by
  obtain ⟨device, hdevice⟩ := List.mem_iff_getElem?.mp ht
  obtain ⟨wf, -⟩ := shape t ht
  obtain ⟨root, hroot, -⟩ := wf.root
  have own : TablesOwn (bankOf t) (tablesOf s.ppgtts device) := by
    rw [tablesOf_of_getElem hdevice]
    exact exact'.good.own t ht
  have aligned := tablesAligned_of_owned exact'.good.owned room exact'.good.aligned own
  rw [tablesOf_of_getElem hdevice] at aligned
  obtain ⟨k, hk⟩ := Nat.exists_eq_add_of_le (getNumLevels_ge cfg.ppgtt)
  have haddress : rootAddress t = root.physicalAddress := by
    rw [rootAddress, hroot]
    rfl
  have top : t (slotPath cfg.ppgtt.getNumLevels (2 + k + 2) x) = some root := by
    rw [hk, show 2 + k + 2 = 4 + k by omega, slotPath_root]
    exact hroot
  have levels : cfg.ppgtt.getNumLevels - 1 = 2 + k + 1 := by omega
  rw [hardwarePage, haddress, levels]
  exact walkPage_exact wf aligned (exact'.good.faithful t ht) (exact'.mirrored t ht) x (by omega) top

theorem walksExact_of_exact (shape : ∀ t ∈ s.ppgtts, Wf m.tables.ppgtt.getNumLevels t ∧ Inhabited t)
    (room : Unexhausted s.allocator) (exact' : Exact base m.tables s) : WalksExact m.tables s := by
  constructor
  · intro t ht x
    exact hardwarePage_exact shape room exact' ht x
  · intro t ht x
    have page := hardwarePage_exact shape room exact' ht x
    rw [hardwareWalk, ← walkPage_fst]
    change (hardwarePage _ _ _ _).map _ = _
    rw [page, Option.map_map]
    rfl

/-- In every run the hardware finds for every address of every device the leaf that the tables have, its
entry and the size of its page, and nothing where they have none. -/
theorem run_walksExact (m : AubManagerImp PhysicalAddressAllocatorSimple) (memoryBanks : List Nat)
    (numberOfAllocators singleAllocatorSize : Nat) (localMemorySupport : Bool) (s : Simulation)
    (reached : Reach (call m) (Allowed m.tables)
      (newSimulation memoryBanks numberOfAllocators singleAllocatorSize localMemorySupport) s)
    (room : Unexhausted s.allocator)
    (banks : BanksApart (firstAddress singleAllocatorSize localMemorySupport) s.allocator) :
    WalksExact m.tables s := by
  obtain ⟨shape, exact'⟩ := reach_exact reached
  exact walksExact_of_exact shape room (exact' room banks)

end Runs

set_option maxRecDepth 10000 in
/-- The run stays within the addresses of its one bank. -/
theorem writeAndFree_run : ∃ s, runAll (call plainManager)
    (newSimulation [0, 0] 2 0x100000000 false) writeAndFree = some s ∧ Unexhausted s.allocator ∧
      BanksApart (firstAddress 0x100000000 false) s.allocator := by
  have hmain : ((runAll (call plainManager) (newSimulation [0, 0] 2 0x100000000 false)
      writeAndFree).map fun s => s.allocator.mainAllocator.highWater) = some 0x87000 := by
    decide +kernel
  have hbanks (i : Nat) : (runAll (call plainManager) (newSimulation [0, 0] 2 0x100000000 false)
      writeAndFree).map (fun s => s.allocator.allocators i) =
        some ((newSimulation [0, 0] 2 0x100000000 false).allocator.allocators i) := rfl
  obtain ⟨s, hs, water⟩ := Option.map_eq_some_iff.mp hmain
  have banks (i : Nat) : s.allocator.allocators i =
      (newSimulation [0, 0] 2 0x100000000 false).allocator.allocators i := by
    have hi := hbanks i
    rw [hs, Option.map_some, Option.some.injEq] at hi
    exact hi
  refine ⟨s, hs, ?_, ?_⟩
  · rintro (_ | i)
    · change s.allocator.mainAllocator.highWater < 2 ^ 64
      rw [water]
      decide
    · change (s.allocator.allocators i).highWater < 2 ^ 64
      rw [banks]
      exact max_lt (by decide) (Nat.mod_lt _ (by decide))
  · intro i j _ used
    rw [banks] at used
    exact absurd rfl used

theorem run_walksExact_writeAndFree : ∃ s, runAll (call plainManager)
    (newSimulation [0, 0] 2 0x100000000 false) writeAndFree = some s ∧ WalksExact fourLevel s := by
  obtain ⟨s, hs, room, banks⟩ := writeAndFree_run
  have reached : Reach (call plainManager) (Allowed fourLevel)
      (newSimulation [0, 0] 2 0x100000000 false) s :=
    Reach.runAll writeAndFree .start writeAndFree_allowed hs
  exact ⟨s, hs, run_walksExact plainManager [0, 0] 2 0x100000000 false s reached room banks⟩

end ExactTables
