import Aubstream.ExactTables
import Aubstream.LeafEntries
import Aubstream.PageBytes

/-!
# The memory that the hardware sees

Through the tables in memory the hardware reads for an address the last byte that a
write has sent to where the address is mapped, whichever table that write went through.
-/

namespace GpuMemory
open EntryBits PathTree PhysicalAllocator AllocatorBlocks PageNodes PageWalker FreeMemory TreeShape
  WalkPhases FreePhases LastTables Placement Translation FreeRounds MapFrame MappedPages BlockOwners
  AubPackets AubManager WrittenPaths OwnedRuns PageAliasing StreamedMemory HardwareWalk EmittedEntries ClearedSlots
  FaithfulMemory WrittenPages MemoryBlocks AllocatorGrowth StreamedTables FaithfulCalls PhantomMappings
  MirroredTables ExactTables LeafEntries PageBytes TableAgreement Transitions
open FreeComplete hiding fourLevel
open TableRuns hiding Op step

/-- Where the hardware finds the byte of an address. -/
def gpuPlace (n : Nat) (image : AubPackets.Memory) (t : Nodes) (x : Nat) : Option (Region × Nat) :=
  (hardwarePage n image t x).map fun (entry, pageSize) =>
    (leafRegion entry, pageFrame pageSize entry + x % pageSize)

def gpuRead (n : Nat) (image : AubPackets.Memory) (t : Nodes) (x : Nat) : Option UInt8 :=
  (gpuPlace n image t x).map (cells image)

def InTables (s : Simulation) (q : Region × Nat) : Prop := ∃ t ∈ s.ppgtts, TablePage t q.1 q.2

/-- What a call sends to a place, the call's result given. -/
def sends (cfg : Config) (s' : Simulation) (q : Region × Nat) : Call → Option UInt8
  | .writeMemory device params => (s'.ppgtts[device]?).bind fun t => params.memory.bind fun memory =>
      lastOf (placeOf cfg.ppgtt.getNumLevels t) memory params.gfxAddress params.size q
  | _ => none

/-- `sent`: the last bytes that writes have sent to places, as long as no table lies there. -/
structure Traced where
  sim : Simulation
  sent : Region × Nat → UInt8 → Prop

def tracedCall (m : AubManagerImp PhysicalAddressAllocatorSimple) (s : Traced) (c : Call) :
    Option Traced :=
  (call m s.sim c).map fun s' => ⟨s', fun q b => ¬ InTables s' q ∧
    (sends m.tables s' q c = some b ∨ sends m.tables s' q c = none ∧ s.sent q b)⟩

/-- A page that an entry can name. -/
structure Nameable (p : MappedPage) : Prop where
  aligned : p.size ∣ p.physicalAddress
  small : p.physicalAddress + p.size ≤ 2 ^ 52

/-- The hardware reads what was sent. -/
def Shows (cfg : Config) (s : Traced) : Prop :=
  ∀ t ∈ s.sim.ppgtts, ∀ x p q b, pageAt cfg.ppgtt.getNumLevels t x = some p → Nameable p →
    placeOf cfg.ppgtt.getNumLevels t x = some q → s.sent q b →
    gpuRead cfg.ppgtt.getNumLevels s.sim.image t x = some b

/-! ### Places -/

section Places
variable {base : Bank → Nat} {cfg : Config} {s : Simulation} {t : Nodes} {x : Nat} {p : MappedPage}

/-- The hardware finds the place that the tables have. -/
theorem gpuPlace_exact (apart : ExtraBitsApart cfg.gpu) (walks : WalksExact cfg s) (ht : t ∈ s.ppgtts)
    (wf : Wf cfg.ppgtt.getNumLevels t) (hp : pageAt cfg.ppgtt.getNumLevels t x = some p)
    (nameable : Nameable p) : gpuPlace cfg.ppgtt.getNumLevels s.image t x =
      placeOf cfg.ppgtt.getNumLevels t x := by
  have hn := getNumLevels_ge cfg.ppgtt
  rw [placeOf, hp, Option.map_some]
  obtain ⟨leaf, hleaf, rfl⟩ := Option.map_eq_some_iff.mp hp
  obtain ⟨m, hm, hslot⟩ := Option.bind_eq_some_iff.mp hleaf
  have region := isRegion_of_regionAt wf hn hm
  have whole : 4096 ∣ pageSizeAt cfg.ppgtt.getNumLevels t x := by
    rw [pageSizeAt_of_region hm]
    exact region.page_dvd
  have pos : 0 < pageSizeAt cfg.ppgtt.getNumLevels t x := by
    rw [pageSizeAt_of_region hm]
    exact region.getPageSize_pos
  obtain ⟨aligned, small⟩ := nameable
  simp only [pageOf] at aligned small ⊢
  have inside := Nat.mod_lt x pos
  obtain ⟨frame, memory⟩ := leaf_decoded apart (isLeaf_of_leafAt wf hn hm hslot) whole aligned (by omega)
  rw [gpuPlace, walks.page t ht x, hleaf, Option.map_some, Option.map_some]
  simp only [frame, memory]
  rw [cell_of_lt (regionOf_ne_gtt _) (by omega)]

theorem placeOf_layout {n : Nat} {t t' : Nodes} (same : layout t' = layout t) (x : Nat) :
    placeOf n t' x = placeOf n t x := by
  rw [placeOf, placeOf, ← pageAt_layout n t', same, pageAt_layout]

theorem placeOf_ne_gtt {n : Nat} {q : Region × Nat} (h : placeOf n t x = some q) : q.1 ≠ .gtt := by
  obtain ⟨p, -, rfl⟩ := Option.map_eq_some_iff.mp h
  exact regionOf_ne_gtt _

end Places

/-! ### What a call changes -/

section Calls
variable {base : Bank → Nat} {m : AubManagerImp PhysicalAddressAllocatorSimple}
  {s s' : Simulation} {device : Nat} {t : Nodes} {params : AllocationParams} {phys : Option Nat}
  {w : WalkState PhysicalAddressAllocatorSimple} {q : Region × Nat}

/-- The entries of a walk go to the tables that it leaves. -/
theorem entryImage_outside (walked : Walked base m.tables s device t phys w)
    (room' : Unexhausted w.allocator) (outside : ¬ TablePage w.nodes q.1 q.2) :
    entryImage m s.image t w q.1 q.2 = s.image q.1 q.2 := by
  refine storeEntries_outside (regionOf_ne_gtt _) fun e he => ?_
  obtain ⟨l, hl⟩ := entriesOf_writePages (m := forTable m t) he
  obtain ⟨i, p, parent, _, hp, hi, _, haddress, _⟩ :=
    (walked.emits.entries l e hl).resolve_left List.not_mem_nil
  rw [haddress]
  refine ⟨slot_fits (walked.tablesAligned room') hp hi, fun same => ?_⟩
  by_contra inside
  have page := tablePage_of_slot walked.own hp hi (x := q.2) (by omega) (by omega)
  rw [← same] at page
  exact outside page

theorem tablePage_layout {t' : Nodes} (same : layout t' = layout t) {r : Region} {x : Nat}
    (page : TablePage t r x) : TablePage t' r x := by
  obtain ⟨p, y, hy, htable, hregion, low, high⟩ := page
  obtain ⟨y', hy', hcore⟩ := layout_eq_some (same.symm ▸ layout_some hy)
  have hkind : y.kind = y'.kind := congrArg (·.kind) hcore
  have haddress : y.physicalAddress = y'.physicalAddress := congrArg (·.physicalAddress) hcore
  have hbank : y.memoryBank = y'.memoryBank := congrArg (·.memoryBank) hcore
  exact ⟨p, y', hy', hkind ▸ htable, hbank ▸ hregion, haddress ▸ low, haddress ▸ high⟩

/-- A write changes outside tables what it sends. -/
theorem image_writeMemory (good : Good base m.tables s)
    (shape : ∀ t ∈ s.ppgtts, Wf m.tables.ppgtt.getNumLevels t ∧ Inhabited t)
    (h : call m s (.writeMemory device params) = some s') (room' : Unexhausted s'.allocator)
    (outside : ¬ InTables s' q) : s'.image q.1 q.2 =
      (sends m.tables s' q (.writeMemory device params)).getD (s.image q.1 q.2) := by
  obtain ⟨t, w, ht, hw, -, rfl⟩ := writeMemory_some h
  obtain ⟨wf, -⟩ := shape t (List.mem_of_getElem? ht)
  have walked := walked_of_walk good ht wf hw (keeps_walk wf (by simp) hw) room'
  have inside : device < s.ppgtts.length := (List.getElem?_eq_some_iff.mp ht).1
  have here : (s.ppgtts.set device (commit w))[device]? = some (commit w) :=
    List.getElem?_set_self inside
  have apart : ¬ TablePage w.nodes q.1 q.2 := fun page =>
    outside ⟨commit w, List.mem_of_getElem? here, tablePage_layout (commit_layout w) page⟩
  have entries := entryImage_outside walked room' apart
  simp only [sends, here, Option.bind_some]
  cases memory : params.memory with
  | none =>
    rw [storeData, memory, Option.bind_none, Option.getD_none]
    exact entries
  | some f =>
    have start : Stored (placeOf m.tables.ppgtt.getNumLevels w.nodes) f params.gfxAddress 0
        (cells (entryImage m s.image t w)) (cells (entryImage m s.image t w)) := fun q => rfl
    have stored := stored_writeDiscontiguousPages (chain_walk wf hw) start
    have same : placeOf m.tables.ppgtt.getNumLevels (commit w) =
        placeOf m.tables.ppgtt.getNumLevels w.nodes :=
      funext fun x => placeOf_layout (commit_layout w) x
    have data : (List.range (params.gfxAddress + params.size - (params.gfxAddress + 0))).map
        (fun k => f (0 + k)) = bytesOf f params.size := by
      rw [bytesOf, Nat.add_zero, Nat.add_sub_cancel_left]
      exact List.map_congr_left fun k _ => congrArg f (Nat.zero_add k)
    rw [data, Nat.add_sub_cancel_left] at stored
    rw [storeData, memory, Option.bind_some, same, ← entries]
    exact stored q

/-- Each byte of a write goes to a place outside tables. -/
theorem data_outside (exact' : Exact base m.tables s)
    (shape : ∀ t ∈ s.ppgtts, Wf m.tables.ppgtt.getNumLevels t ∧ Inhabited t)
    (allowed : FaithfulCalls.Allowed m.tables s (.writeMemory device params))
    (h : call m s (.writeMemory device params) = some s') (room' : Unexhausted s'.allocator)
    (banks' : BanksApart base s'.allocator) (data : params.memory ≠ none) {x : Nat}
    (h1 : params.gfxAddress ≤ x) (h2 : x < params.gfxAddress + params.size) :
    ∃ t' q, s'.ppgtts[device]? = some t' ∧ placeOf m.tables.ppgtt.getNumLevels t' x = some q ∧
      ¬ InTables s' q := by
  obtain ⟨t, w, ht, hw, -, rfl⟩ := writeMemory_some h
  obtain ⟨wf, inhabited⟩ := shape t (List.mem_of_getElem? ht)
  obtain ⟨-, overData⟩ := allowed t ht
  have walked := walked_of_walk exact'.good ht wf hw (keeps_walk wf (by simp) hw) room'
  have wf' := walk_wf wf inhabited hw
  obtain ⟨e, he, y, low, high, here⟩ := chain_covers (chain_walk wf hw) h1 h2
  obtain ⟨block, outside⟩ := walked.bytes exact'.good ht wf wf' banks' hw (overData data) he low high
  have inside : device < s.ppgtts.length := (List.getElem?_eq_some_iff.mp ht).1
  have short : y < 2 ^ 64 := block.fits walked.owned room'
  have region : pageRegion e ≠ .gtt := by
    rw [pageRegion]
    split
    · simp
    · simp
  rw [cell_of_lt region short] at here
  refine ⟨commit w, (pageRegion e, y), List.getElem?_set_self inside, ?_, ?_⟩
  · rw [placeOf_layout (commit_layout w)]
    exact here
  · rintro ⟨u, hu, page⟩
    obtain ⟨other, hother⟩ := List.mem_iff_getElem?.mp hu
    by_cases same : other = device
    · subst other
      rw [List.getElem?_set_self inside] at hother
      obtain rfl := Option.some.inj hother
      have old := outside device
      rw [Function.update_self] at old
      exact old (tablePage_layout (commit_layout w).symm page)
    · rw [List.getElem?_set_ne (Ne.symm same)] at hother
      have old := outside other
      rw [Function.update_of_ne same, tablesOf_of_getElem hother] at old
      exact old page

/-- What a call changes outside tables is what it sends. -/
theorem image_call (good : Good base m.tables s)
    (shape : ∀ t ∈ s.ppgtts, Wf m.tables.ppgtt.getNumLevels t ∧ Inhabited t) {c : Call}
    (allowed : FaithfulCalls.Allowed m.tables s c) (h : call m s c = some s')
    (room' : Unexhausted s'.allocator) (banks' : BanksApart base s'.allocator)
    (before : ¬ InTables s q) (outside : ¬ InTables s' q) :
    s'.image q.1 q.2 = (sends m.tables s' q c).getD (s.image q.1 q.2) := by
  cases c with
  | writeMemory device params => exact image_writeMemory good shape h room' outside
  | reservePhysicalMemory params =>
    cases hr : Reservations.reservePhysicalMemory m.tables.gpu s.allocator params with
    | none =>
      simp only [call, hr, Option.some.injEq] at h
      rw [← h]
      rfl
    | some r =>
      simp only [call, hr, Option.some.injEq] at h
      rw [← h]
      rfl
  | mapGpuVa device physicalAddress params =>
    obtain ⟨t, r, ht, hr, rfl⟩ := atDevice_some h
    obtain ⟨w, hw, rfl⟩ := Option.map_eq_some_iff.mp hr
    obtain ⟨wf, -⟩ := shape t (List.mem_of_getElem? ht)
    obtain ⟨small, both⟩ := allowed
    have walked := walked_of_walk good ht wf hw (keeps_map small wf (both t ht).2 hw) room'
    have inside : device < s.ppgtts.length := (List.getElem?_eq_some_iff.mp ht).1
    have here : (s.ppgtts.set device (commit w))[device]? = some (commit w) :=
      List.getElem?_set_self inside
    have apart : ¬ TablePage w.nodes q.1 q.2 := fun page =>
      outside ⟨commit w, List.mem_of_getElem? here, tablePage_layout (commit_layout w) page⟩
    rw [storeRecords_writePages]
    exact entryImage_outside walked room' apart
  | freeMemory device g size =>
    obtain ⟨t, r, ht, hr, rfl⟩ := atDevice_some h
    simp only [AubManagerImp.freeTable, Option.some.injEq] at hr
    subst hr
    have mem := List.mem_of_getElem? ht
    obtain ⟨wf, -⟩ := shape t mem
    have grown : Grown s.allocator (freeMemory m.tables.gpu m.tables.ppgtt t s.allocator g size).1.allocator :=
      grown_freeMemory wf g size
    have keeps : Keeps t s.allocator (freeMemory m.tables.gpu m.tables.ppgtt t s.allocator g size).1.nodes
        (freeMemory m.tables.gpu m.tables.ppgtt t s.allocator g size).1.allocator := keeps_free wf g size
    have own : TablesOwn (bankOf t) (tablesOf s.ppgtts device) := by
      rw [tablesOf_of_getElem ht]
      exact good.own t mem
    have aligned := tablesAligned_of_owned good.owned (keeps.room room') good.aligned own
    have apart := tablesApart_of_owned good.owned (banksApart_of_grown grown banks') own
    rw [tablesOf_of_getElem ht] at aligned apart
    rw [storeRecords_writeFreed]
    refine storeEntries_outside (regionOf_ne_gtt _) fun e he => ?_
    obtain ⟨i, p, x, hx, hi, haddress⟩ := writtenEntries_placed wf apart.slots he
    rw [haddress]
    refine ⟨slot_fits aligned hx hi, fun same => ?_⟩
    by_contra inside
    have page := tablePage_of_slot (good.own t mem) hx hi (x := q.2) (by omega) (by omega)
    rw [← same] at page
    exact before ⟨t, mem, page⟩

end Calls

/-! ### Runs -/

section Runs
variable {m : AubManagerImp PhysicalAddressAllocatorSimple} {base : Bank → Nat} {s : Traced}
  {memoryBanks : List Nat} {numberOfAllocators singleAllocatorSize : Nat} {localMemorySupport : Bool}

/-- Nothing is sent yet. -/
def newTraced (memoryBanks : List Nat) (numberOfAllocators singleAllocatorSize : Nat)
    (localMemorySupport : Bool) : Traced :=
  ⟨newSimulation memoryBanks numberOfAllocators singleAllocatorSize localMemorySupport,
    fun _ _ => False⟩

/-- What was sent is in memory. -/
def Kept (s : Traced) : Prop :=
  ∀ q b, s.sent q b → ¬ InTables s.sim q ∧ s.sim.image q.1 q.2 = b

theorem kept_call {s' : Traced} (kept : Kept s) (good : Good base m.tables s.sim)
    (shape : ∀ t ∈ s.sim.ppgtts, Wf m.tables.ppgtt.getNumLevels t ∧ Inhabited t) {c : Call}
    (allowed : FaithfulCalls.Allowed m.tables s.sim c) (h : tracedCall m s c = some s')
    (room' : Unexhausted s'.sim.allocator) (banks' : BanksApart base s'.sim.allocator) : Kept s' := by
  obtain ⟨sim, done, rfl⟩ := Option.map_eq_some_iff.mp h
  rintro q b ⟨outside, now | ⟨silent, earlier⟩⟩
  · cases c with
    | writeMemory device params =>
      have image := image_writeMemory good shape done room' outside
      rw [now] at image
      exact ⟨outside, image⟩
    | _ => cases now
  · obtain ⟨before, held⟩ := kept q b earlier
    refine ⟨outside, ?_⟩
    have image := image_call good shape allowed done room' banks' before outside
    rw [silent] at image
    exact image.trans held

/-- The place of each byte of a write, and what was sent there. -/
theorem sent_writeMemory {s' : Traced} {device : Nat} {params : AllocationParams} {f : Nat → UInt8}
    (exact' : Exact base m.tables s.sim)
    (shape : ∀ t ∈ s.sim.ppgtts, Wf m.tables.ppgtt.getNumLevels t ∧ Inhabited t)
    (allowed : FaithfulCalls.Allowed m.tables s.sim (.writeMemory device params))
    (done : tracedCall m s (.writeMemory device params) = some s') (data : params.memory = some f)
    (room' : Unexhausted s'.sim.allocator) (banks' : BanksApart base s'.sim.allocator) {t : Nodes}
    (ht : s'.sim.ppgtts[device]? = some t) {i : Nat} (hi : i < params.size) :
    ∃ q b, placeOf m.tables.ppgtt.getNumLevels t (params.gfxAddress + i) = some q ∧
      lastOf (placeOf m.tables.ppgtt.getNumLevels t) f params.gfxAddress params.size q = some b ∧
      s'.sent q b := by
  obtain ⟨sim, called, rfl⟩ := Option.map_eq_some_iff.mp done
  obtain ⟨t', q, ht', here, outside⟩ := data_outside exact' shape allowed called room' banks'
    (by rw [data]; simp) (Nat.le_add_right params.gfxAddress i) (Nat.add_lt_add_left hi _)
  obtain rfl := Option.some.inj (ht.symm.trans ht')
  obtain ⟨b, last⟩ := Option.ne_none_iff_exists'.mp (lastOf_ne_none (f := f) hi here)
  refine ⟨q, b, here, last, outside, Or.inl ?_⟩
  rw [sends, ht, Option.bind_some, data, Option.bind_some]
  exact last

theorem traced_sim {s' : Traced} {c : Call} (h : tracedCall m s c = some s') :
    call m s.sim c = some s'.sim := by
  obtain ⟨sim, done, rfl⟩ := Option.map_eq_some_iff.mp h
  exact done

theorem reach_kept (reached : Reach (tracedCall m) (fun s c => ExactTables.Allowed m.tables s.sim c)
      (newTraced memoryBanks numberOfAllocators singleAllocatorSize localMemorySupport) s) :
    Reach (call m) (ExactTables.Allowed m.tables)
      (newSimulation memoryBanks numberOfAllocators singleAllocatorSize localMemorySupport) s.sim ∧
      (Unexhausted s.sim.allocator →
        BanksApart (firstAddress singleAllocatorSize localMemorySupport) s.sim.allocator →
        Kept s) := by
  induction reached with
  | start => exact ⟨.start, fun _ _ q b sent => absurd sent not_false⟩
  | step reached allowed done ih =>
    obtain ⟨plain, kept⟩ := ih
    have called := traced_sim done
    refine ⟨plain.step allowed called, fun room' banks' => ?_⟩
    obtain ⟨shape, exact'⟩ := reach_exact plain
    obtain ⟨-, grown⟩ := call_shape shape called
    have room := fun slot => Nat.lt_of_le_of_lt (grown.highWater slot) (room' slot)
    have banks := banksApart_of_grown grown banks'
    exact kept_call (kept room banks) (exact' room banks).good shape allowed.faithful done room' banks'

/-- In every run the hardware reads at an address of any device, through the tables in memory, the last byte
that a write has sent to the place of that address, through whichever tables. -/
theorem run_shows (m : AubManagerImp PhysicalAddressAllocatorSimple) (memoryBanks : List Nat)
    (numberOfAllocators singleAllocatorSize : Nat) (localMemorySupport : Bool) (s : Traced)
    (apart : ExtraBitsApart m.tables.gpu)
    (reached : Reach (tracedCall m) (fun s c => ExactTables.Allowed m.tables s.sim c)
      (newTraced memoryBanks numberOfAllocators singleAllocatorSize localMemorySupport) s)
    (room : Unexhausted s.sim.allocator)
    (banks : BanksApart (firstAddress singleAllocatorSize localMemorySupport) s.sim.allocator) :
    Shows m.tables s := by
  obtain ⟨plain, kept⟩ := reach_kept reached
  obtain ⟨shape, exact'⟩ := reach_exact plain
  have walks := walksExact_of_exact shape room (exact' room banks)
  intro t ht x p q b hp nameable here sent
  rw [gpuRead, gpuPlace_exact apart walks ht (shape t ht).1 hp nameable, here, Option.map_some]
  exact congrArg some (kept room banks q b sent).2

end Runs

/-! ### Four bytes -/

def fourBytes : AllocationParams :=
  { systemRequest 0x1000 4 with memory := some fun i => UInt8.ofNat (i + 1) }

theorem fourBytes_allowed : FaithfulCalls.Allowed fourLevel (newSimulation [0, 0] 2 0x100000000 false)
    (.writeMemory 1 fourBytes) := by
  have unused : ∀ slot, ((newSimulation [0, 0] 2 0x100000000 false).allocator.get
      slot).freeAllocationsMap = [] := by
    rintro (_ | i)
    · rfl
    · rfl
  intro t ht
  constructor
  · refine Or.inr fun e he => ?_
    rw [unused] at he
    cases he
  · intro _ x p _ _ hp
    obtain ⟨a, memoryBank, rfl⟩ := newPpgtts_new (List.mem_of_getElem? ht)
    rw [pageAt, leafAt, regionAt_newTables (getNumLevels_ge fourLevel.ppgtt)] at hp
    cases hp

theorem fourBytes_run : ∃ s t, tracedCall plainManager (newTraced [0, 0] 2 0x100000000 false)
      (.writeMemory 1 fourBytes) = some s ∧ s.sim.ppgtts[1]? = some t ∧
      Unexhausted s.sim.allocator ∧ BanksApart (firstAddress 0x100000000 false) s.sim.allocator ∧
      ∀ i, i < 4 → (pageAt 4 t (0x1000 + i)).map (fun p => (p.physicalAddress, p.memoryBank, p.size)) =
        some (0x85000, 0, 0x1000) := by
  have main : (call plainManager (newSimulation [0, 0] 2 0x100000000 false)
      (.writeMemory 1 fourBytes)).map (fun s => s.allocator.mainAllocator.highWater) =
        some 0x86000 := by
    decide +kernel
  have others (i : Nat) : (call plainManager (newSimulation [0, 0] 2 0x100000000 false)
      (.writeMemory 1 fourBytes)).map (fun s => s.allocator.allocators i) =
        some ((newSimulation [0, 0] 2 0x100000000 false).allocator.allocators i) := rfl
  have pages : ∀ i, i < 4 → ((call plainManager (newSimulation [0, 0] 2 0x100000000 false)
      (.writeMemory 1 fourBytes)).bind fun s => (s.ppgtts[1]?).bind fun t =>
        (pageAt 4 t (0x1000 + i)).map fun p => (p.physicalAddress, p.memoryBank, p.size)) =
          some (0x85000, 0, 0x1000) := by
    decide +kernel
  obtain ⟨s, hs, water⟩ := Option.map_eq_some_iff.mp main
  have banks (i : Nat) : s.allocator.allocators i =
      (newSimulation [0, 0] 2 0x100000000 false).allocator.allocators i := by
    have hi := others i
    rw [hs, Option.map_some, Option.some.injEq] at hi
    exact hi
  simp only [hs, Option.bind_some] at pages
  obtain ⟨t, ht, -⟩ := Option.bind_eq_some_iff.mp (pages 0 (by decide))
  simp only [ht, Option.bind_some] at pages
  refine ⟨_, t, Option.map_eq_some_iff.mpr ⟨s, hs, rfl⟩, ht, ?_, ?_, pages⟩
  · rintro (_ | i)
    · change s.allocator.mainAllocator.highWater < 2 ^ 64
      rw [water]
      decide
    · change (s.allocator.allocators i).highWater < 2 ^ 64
      rw [banks]
      exact max_lt (by decide) (Nat.mod_lt _ (by decide))
  · intro i j _ used
    change blocks (s.allocator.allocators j) ≠ [] at used
    rw [banks] at used
    exact absurd rfl used

/-- The places of the four bytes, and what is there. -/
theorem fourBytes_sent : ∃ s t, tracedCall plainManager (newTraced [0, 0] 2 0x100000000 false)
      (.writeMemory 1 fourBytes) = some s ∧ s.sim.ppgtts[1]? = some t ∧
      Unexhausted s.sim.allocator ∧ BanksApart (firstAddress 0x100000000 false) s.sim.allocator ∧
      ∀ i, i < 4 → (∃ p, pageAt 4 t (0x1000 + i) = some p ∧ Nameable p) ∧
        placeOf 4 t (0x1000 + i) = some (.systemMemory, 0x85000 + i) ∧
        s.sent (.systemMemory, 0x85000 + i) (UInt8.ofNat (i + 1)) := by
  obtain ⟨s, t, done, ht, room, banks, pages⟩ := fourBytes_run
  have places : ∀ i, i < 4 → (∃ p, pageAt 4 t (0x1000 + i) = some p ∧ Nameable p) ∧
      placeOf 4 t (0x1000 + i) = some (.systemMemory, 0x85000 + i) := by
    intro i hi
    obtain ⟨p, hp, fields⟩ := Option.map_eq_some_iff.mp (pages i hi)
    obtain ⟨address, rest⟩ := Prod.mk.inj fields
    obtain ⟨bank, size⟩ := Prod.mk.inj rest
    refine ⟨⟨p, hp, ?_, ?_⟩, ?_⟩
    · rw [address, size]
      decide
    · rw [address, size]
      decide
    · rw [placeOf, hp, Option.map_some, address, size, bank]
      have offset : (0x1000 + i) % 0x1000 = i := by omega
      have small : cell .systemMemory (0x85000 + i) = 0x85000 + i :=
        cell_of_lt (by decide) (by omega)
      rw [offset]
      exact congrArg (fun y => some (Region.systemMemory, y)) small
  have new : Reach (call plainManager) (ExactTables.Allowed fourLevel)
      (newSimulation [0, 0] 2 0x100000000 false) (newSimulation [0, 0] 2 0x100000000 false) := .start
  obtain ⟨shape, exact'⟩ := reach_exact new
  have called := traced_sim done
  obtain ⟨-, grown⟩ := call_shape shape called
  have before := exact' (fun slot => Nat.lt_of_le_of_lt (grown.highWater slot) (room slot))
    (banksApart_of_grown grown banks)
  refine ⟨s, t, done, ht, room, banks, fun i hi => ?_⟩
  obtain ⟨named, here⟩ := places i hi
  refine ⟨named, here, ?_⟩
  have data : fourBytes.memory = some fun i => UInt8.ofNat (i + 1) := rfl
  obtain ⟨q, b, hq, last, sent⟩ := sent_writeMemory before shape fourBytes_allowed done data room
    banks ht hi
  obtain rfl := Option.some.inj (here.symm.trans hq)
  have value : lastOf (placeOf 4 t) (fun i => UInt8.ofNat (i + 1)) 0x1000 4
      (.systemMemory, 0x85000 + i) = some (UInt8.ofNat (i + 1)) :=
    lastOf_eq hi here fun j after inside same => by
      rw [(places j inside).2, Option.some.injEq, Prod.mk.injEq] at same
      omega
  obtain rfl := Option.some.inj (value.symm.trans last)
  exact sent

/-- The hardware reads the third byte. -/
theorem run_shows_fourBytes : ∃ s t, tracedCall plainManager (newTraced [0, 0] 2 0x100000000 false)
    (.writeMemory 1 fourBytes) = some s ∧ s.sim.ppgtts[1]? = some t ∧
      gpuRead 4 s.sim.image t 0x1002 = some 3 := by
  obtain ⟨s, t, done, ht, room, banks, bytes⟩ := fourBytes_sent
  have allowed : ExactTables.Allowed fourLevel (newTraced [0, 0] 2 0x100000000 false).sim
      (.writeMemory 1 fourBytes) := fourBytes_allowed
  obtain ⟨⟨p, hp, named⟩, here, sent⟩ := bytes 2 (by decide)
  exact ⟨s, t, done, ht, run_shows plainManager [0, 0] 2 0x100000000 false s
    (extraBitsApart_products List.mem_cons_self) (.step .start allowed done) room banks t
      (List.mem_of_getElem? ht) _ p _ _ hp named here sent⟩

end GpuMemory
