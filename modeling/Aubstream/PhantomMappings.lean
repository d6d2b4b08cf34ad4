import Aubstream.FaithfulCalls

/-!
# Mappings that only the memory has

A leaf that the hardware finds and the tables do not have: a free that gives up
has not written its zeros, a page that becomes a table brings what was written to
it, and a mapping can lead a write into a table. Other calls keep the memory
faithful to the tables, and the hardware's walk on them.
-/

namespace PhantomMappings
open EntryBits PathTree PhysicalAllocator AllocatorBlocks PageNodes PageWalker TreeShape WalkPhases
  FreeMemory FreePhases FreeRounds LastTables Translation MapFrame Placement MappedPages BlockOwners
  AubPackets AubManager WrittenPaths OwnedRuns PageAliasing StreamedMemory HardwareWalk
  EmittedEntries ClearedSlots FaithfulMemory WrittenPages AllocatorGrowth MemoryBlocks
  StreamedTables FaithfulCalls TableAgreement Transitions
open FreeComplete hiding fourLevel
open TableRuns hiding Op step

/-! ### Calls -/

section Calls
variable {base : Bank → Nat} {m : AubManagerImp PhysicalAddressAllocatorSimple}
  {s s' : Simulation} {device : Nat} {t : Nodes} {params : AllocationParams} {phys : Option Nat}
  {w : WalkState PhysicalAddressAllocatorSimple}

theorem atDevice_some {f : Nodes → PhysicalAddressAllocatorSimple →
      Option (Nodes × PhysicalAddressAllocatorSimple × List Record)}
    (h : atDevice f device s = some s') : ∃ t r, s.ppgtts[device]? = some t ∧
      f t s.allocator = some r ∧
      s' = ⟨s.ppgtts.set device r.1, r.2.1, s.reservations, storeRecords s.image r.2.2⟩ := by
  obtain ⟨t, ht, hr⟩ := Option.bind_eq_some_iff.mp h
  obtain ⟨r, hf, rfl⟩ := Option.map_eq_some_iff.mp hr
  exact ⟨t, r, ht, hf, rfl⟩

theorem good_writeMemory (good : Good base m.tables s)
    (shape : ∀ t ∈ s.ppgtts, Wf m.tables.ppgtt.getNumLevels t ∧ Inhabited t)
    (allowed : Allowed m.tables s (.writeMemory device params))
    (h : call m s (.writeMemory device params) = some s') (room' : Unexhausted s'.allocator)
    (banks' : BanksApart base s'.allocator) : Good base m.tables s' := by
  obtain ⟨t, r, ht, hr, rfl⟩ := atDevice_some h
  obtain ⟨w, hw, hlater⟩ := Option.bind_eq_some_iff.mp hr
  obtain ⟨data, hdata, rfl⟩ := Option.map_eq_some_iff.mp hlater
  have wf := (shape t (List.mem_of_getElem? ht)).1
  have wf' : Wf m.tables.ppgtt.getNumLevels w.nodes := by
    have hcommit := (walk_tree m wf (shape t (List.mem_of_getElem? ht)).2 (by simp) hw).1
    rw [← wf_layout, commit_layout, wf_layout] at hcommit
    exact hcommit
  obtain ⟨supplied, overData⟩ := allowed t ht
  have walked := walked_of_walk good ht wf hw (keeps_walk wf (by simp) hw) room'
  obtain ⟨faithful, changed⟩ := walked.entries good ht room' banks' (supplied.cases wf hw)
    fun e he => entriesOf_writePages he
  rw [storeRecords_append, storeRecords_writePages]
  unfold AubManagerImp.writeData at hdata
  cases hmemory : params.memory with
  | none =>
    rw [hmemory, Option.some.injEq] at hdata
    subst hdata
    exact walked.good good ht wf room' faithful changed
  | some memory =>
    simp only [hmemory] at hdata
    split at hdata
    · cases hdata
    · rw [Option.some.injEq] at hdata
      subst hdata
      obtain ⟨faithful', changed'⟩ := walked.data good ht wf wf' room' banks' hw
        (overData (by rw [hmemory]; simp)) _ (bytesOf memory params.size) faithful
      exact walked.good good ht wf room' faithful' (changed.trans changed')

theorem good_mapGpuVa {physicalAddress : Nat} (good : Good base m.tables s)
    (shape : ∀ t ∈ s.ppgtts, Wf m.tables.ppgtt.getNumLevels t ∧ Inhabited t)
    (allowed : Allowed m.tables s (.mapGpuVa device physicalAddress params))
    (h : call m s (.mapGpuVa device physicalAddress params) = some s')
    (room' : Unexhausted s'.allocator) (banks' : BanksApart base s'.allocator) :
    Good base m.tables s' := by
  obtain ⟨t, r, ht, hr, rfl⟩ := atDevice_some h
  obtain ⟨w, hw, rfl⟩ := Option.map_eq_some_iff.mp hr
  have wf := (shape t (List.mem_of_getElem? ht)).1
  obtain ⟨supplied, maps⟩ := allowed.2 t ht
  have walked := walked_of_walk good ht wf hw (keeps_map allowed.1 wf maps hw) room'
  obtain ⟨faithful, changed⟩ := walked.entries good ht room' banks' (supplied.cases wf hw)
    fun e he => entriesOf_writePages he
  rw [storeRecords_writePages]
  exact walked.good good ht wf room' faithful changed

theorem good_freeMemory {g size : Nat} (good : Good base m.tables s)
    (shape : ∀ t ∈ s.ppgtts, Wf m.tables.ppgtt.getNumLevels t ∧ Inhabited t)
    (allowed : Allowed m.tables s (.freeMemory device g size))
    (h : call m s (.freeMemory device g size) = some s') (room' : Unexhausted s'.allocator)
    (banks' : BanksApart base s'.allocator) : Good base m.tables s' := by
  obtain ⟨t, r, ht, hr, rfl⟩ := atDevice_some h
  simp only [AubManagerImp.freeTable, Option.some.injEq] at hr
  subst hr
  have mem := List.mem_of_getElem? ht
  obtain ⟨wf, inhabited⟩ := shape t mem
  rw [storeRecords_writeFreed]
  exact good_free good ht wf inhabited (allowed t ht) room' banks'

theorem sizePageAligned_small {g size pageSize : Nat}
    (h : Reservations.sizePageAligned g size pageSize = 4096) : pageSize ≤ 4096 := by
  unfold Reservations.sizePageAligned at h
  exact Nat.le_of_dvd (by decide) ⟨_, h.symm.trans (Nat.mul_comm _ _)⟩

theorem good_reservePhysicalMemory (good : Good base m.tables s)
    (allowed : Allowed m.tables s (.reservePhysicalMemory params))
    (h : call m s (.reservePhysicalMemory params) = some s') (room' : Unexhausted s'.allocator) :
    Good base m.tables s' := by
  cases hr : Reservations.reservePhysicalMemory m.tables.gpu s.allocator params with
  | none =>
    simp only [call, hr, Option.some.injEq] at h
    exact h ▸ good
  | some r =>
    obtain ⟨info, a⟩ := r
    simp only [call, hr, Option.some.injEq] at h
    subst h
    obtain ⟨reserves, hpage, _, hreserve⟩ := reservePhysicalMemory_some hr
    have grown : Grown s.allocator a := by
      have hgrown := grown_reserve s.allocator params.memoryBanks
        (Reservations.sizePageAligned params.gfxAddress params.size info.pageSize) info.pageSize
      rwa [hreserve] at hgrown
    have aligned : TableBlocksAligned a := by
      have haligned := @tableBlocksAligned_reserve s.allocator good.aligned params.memoryBanks
        (Reservations.sizePageAligned params.gfxAddress params.size info.pageSize) info.pageSize
        sizePageAligned_small
      rwa [hreserve] at haligned
    refine ⟨owned_reserve hr ?_ room' good.owned, aligned, good.own, ?_, good.faithful⟩
    · rw [hpage]
      exact allowed reserves
    · exact fun r x hr' hx => (good.written r x hr' hx).grow grown

theorem good_call {c : Call} (good : Good base m.tables s)
    (shape : ∀ t ∈ s.ppgtts, Wf m.tables.ppgtt.getNumLevels t ∧ Inhabited t)
    (allowed : Allowed m.tables s c) (h : call m s c = some s') (room' : Unexhausted s'.allocator)
    (banks' : BanksApart base s'.allocator) : Good base m.tables s' := by
  cases c with
  | writeMemory device params => exact good_writeMemory good shape allowed h room' banks'
  | reservePhysicalMemory params => exact good_reservePhysicalMemory good allowed h room'
  | mapGpuVa device physicalAddress params => exact good_mapGpuVa good shape allowed h room' banks'
  | freeMemory device g size => exact good_freeMemory good shape allowed h room' banks'

/-- Trees keep their shape, and the allocator its blocks, whether or not a call is allowed. -/
theorem call_shape {c : Call}
    (shape : ∀ t ∈ s.ppgtts, Wf m.tables.ppgtt.getNumLevels t ∧ Inhabited t)
    (h : call m s c = some s') :
    (∀ t ∈ s'.ppgtts, Wf m.tables.ppgtt.getNumLevels t ∧ Inhabited t) ∧
      Grown s.allocator s'.allocator := by
  have hset : ∀ (device : Nat) (t' : Nodes), Wf m.tables.ppgtt.getNumLevels t' ∧ Inhabited t' →
      ∀ t ∈ s.ppgtts.set device t', Wf m.tables.ppgtt.getNumLevels t ∧ Inhabited t := by
    intro device t' ht' t ht
    rcases List.mem_or_eq_of_mem_set ht with hold | rfl
    · exact shape t hold
    · exact ht'
  cases c with
  | writeMemory device params =>
    obtain ⟨t, r, ht, hr, rfl⟩ := atDevice_some h
    obtain ⟨w, hw, hlater⟩ := Option.bind_eq_some_iff.mp hr
    obtain ⟨data, _, rfl⟩ := Option.map_eq_some_iff.mp hlater
    obtain ⟨wf, inhabited⟩ := shape t (List.mem_of_getElem? ht)
    exact ⟨hset device _ (walk_tree m wf inhabited (by simp) hw), grown_walk wf (by simp) hw⟩
  | reservePhysicalMemory params =>
    cases hr : Reservations.reservePhysicalMemory m.tables.gpu s.allocator params with
    | none =>
      simp only [call, hr, Option.some.injEq] at h
      exact h ▸ ⟨shape, .refl _⟩
    | some r =>
      obtain ⟨info, a⟩ := r
      simp only [call, hr, Option.some.injEq] at h
      subst h
      obtain ⟨_, _, _, hreserve⟩ := reservePhysicalMemory_some hr
      have hgrown := grown_reserve s.allocator params.memoryBanks
        (Reservations.sizePageAligned params.gfxAddress params.size info.pageSize) info.pageSize
      rw [hreserve] at hgrown
      exact ⟨shape, hgrown⟩
  | mapGpuVa device physicalAddress params =>
    obtain ⟨t, r, ht, hr, rfl⟩ := atDevice_some h
    obtain ⟨w, hw, rfl⟩ := Option.map_eq_some_iff.mp hr
    obtain ⟨wf, inhabited⟩ := shape t (List.mem_of_getElem? ht)
    exact ⟨hset device _ (walk_tree (forTable m t) wf inhabited (by simp) hw),
      grown_walk wf (by simp) hw⟩
  | freeMemory device g size =>
    obtain ⟨t, r, ht, hr, rfl⟩ := atDevice_some h
    simp only [AubManagerImp.freeTable, Option.some.injEq] at hr
    subst hr
    obtain ⟨wf, inhabited⟩ := shape t (List.mem_of_getElem? ht)
    obtain ⟨wf', _, _, _, run, _⟩ := freePages_run (c := ⟨m.tables.ppgtt, m.tables.gpu, g, g + size⟩)
      (a := s.allocator) wf inhabited g size
    exact ⟨hset device _ ⟨wf', run.inhabited⟩, grown_freeMemory wf g size⟩

end Calls

/-! ### Runs -/

section Runs
variable {m : AubManagerImp PhysicalAddressAllocatorSimple} {base : Bank → Nat} {s : Simulation}
  {memoryBanks : List Nat} {numberOfAllocators singleAllocatorSize : Nat} {localMemorySupport : Bool}

theorem tablesOwn_newTables (a : PhysicalAddressAllocatorSimple) (memoryBank : Nat) :
    TablesOwn (bankOf (newTables a memoryBank).nodes) (newTables a memoryBank).nodes := by
  intro p x hx _
  by_cases hp : p = []
  · subst p
    simp only [newTables, if_true, Option.some.injEq] at hx
    subst hx
    exact ⟨rfl, rfl⟩
  · simp [newTables, hp] at hx

theorem tableBlocksAligned_start : TableBlocksAligned
    (newSimulation memoryBanks numberOfAllocators singleAllocatorSize localMemorySupport).allocator := by
  have hnew : ∀ memoryBanks a, TableBlocksAligned a →
      TableBlocksAligned (ManagerRuns.newPpgtts memoryBanks a).2 := by
    intro memoryBanks
    induction memoryBanks with
    | nil => exact fun _ h => h
    | cons memoryBank rest ih =>
      exact fun a h => ih _ (tableBlocksAligned_reserve h memoryBank fun _ => Nat.le_refl _)
  apply hnew
  rintro (_ | i) e he
  · cases he
  · cases he

theorem good_start (room : Unexhausted (newSimulation memoryBanks numberOfAllocators
    singleAllocatorSize localMemorySupport).allocator) :
    Good (firstAddress singleAllocatorSize localMemorySupport) m.tables
      (newSimulation memoryBanks numberOfAllocators singleAllocatorSize localMemorySupport) := by
  refine ⟨inv_start memoryBanks _ _ _ room, tableBlocksAligned_start, ?_, ?_, ?_⟩
  · intro t ht
    obtain ⟨a, memoryBank, rfl⟩ := newPpgtts_new ht
    exact tablesOwn_newTables a memoryBank
  · exact fun r x _ hx => absurd rfl hx
  · exact fun t _ p x i _ _ present => absurd rfl present

theorem reach_good (reached : Reach (call m) (Allowed m.tables)
      (newSimulation memoryBanks numberOfAllocators singleAllocatorSize localMemorySupport) s) :
    (∀ t ∈ s.ppgtts, Wf m.tables.ppgtt.getNumLevels t ∧ Inhabited t) ∧
      (Unexhausted s.allocator →
        BanksApart (firstAddress singleAllocatorSize localMemorySupport) s.allocator →
        Good (firstAddress singleAllocatorSize localMemorySupport) m.tables s) := by
  induction reached with
  | start =>
    refine ⟨fun t ht => ?_, fun room _ => good_start room⟩
    obtain ⟨a, memoryBank, rfl⟩ := newPpgtts_new ht
    exact ⟨newTables_wf m.tables.ppgtt a memoryBank, FreeComplete.newTables_inhabited a memoryBank⟩
  | step reached allowed done ih =>
    obtain ⟨shape, good⟩ := ih
    obtain ⟨shape', grown⟩ := call_shape shape done
    refine ⟨shape', fun room' banks' => ?_⟩
    have room := fun slot => Nat.lt_of_le_of_lt (grown.highWater slot) (room' slot)
    exact good_call (good room (banksApart_of_grown grown banks')) shape allowed done room' banks'

theorem noPhantoms_of_good (shape : ∀ t ∈ s.ppgtts, Wf m.tables.ppgtt.getNumLevels t ∧ Inhabited t)
    (room : Unexhausted s.allocator) (good : Good base m.tables s) :
    NoPhantoms m.tables.ppgtt.getNumLevels s := by
  intro t ht x entry hfound
  obtain ⟨device, hdevice⟩ := List.mem_iff_getElem?.mp ht
  have hn := getNumLevels_ge m.tables.ppgtt
  obtain ⟨wf, _⟩ := shape t ht
  obtain ⟨root, hroot, _⟩ := wf.root
  have own : TablesOwn (bankOf t) (tablesOf s.ppgtts device) := by
    rw [tablesOf_of_getElem hdevice]
    exact good.own t ht
  have aligned := tablesAligned_of_owned good.owned room good.aligned own
  rw [tablesOf_of_getElem hdevice] at aligned
  obtain ⟨k, hk⟩ := Nat.exists_eq_add_of_le hn
  have haddress : rootAddress t = root.physicalAddress := by rw [rootAddress, hroot]; rfl
  rw [hardwareWalk, haddress, hk, show 4 + k - 1 = (2 + k) + 1 by omega] at hfound
  refine @mapped_of_walk _ _ _ _ wf aligned (good.faithful t ht) x (2 + k) (by omega) root ?_ entry
    hfound
  rw [hk, show 2 + k + 2 = 4 + k by omega, slotPath_root]
  exact hroot

/-- In every run whose steps meet the condition, the hardware finds no leaf that the tables do not
have, unless a bank has outgrown its addresses. -/
theorem run_noPhantoms (m : AubManagerImp PhysicalAddressAllocatorSimple) (memoryBanks : List Nat)
    (numberOfAllocators singleAllocatorSize : Nat) (localMemorySupport : Bool) (s : Simulation)
    (reached : Reach (call m) (Allowed m.tables)
      (newSimulation memoryBanks numberOfAllocators singleAllocatorSize localMemorySupport) s)
    (room : Unexhausted s.allocator)
    (banks : BanksApart (firstAddress singleAllocatorSize localMemorySupport) s.allocator) :
    NoPhantoms m.tables.ppgtt.getNumLevels s := by
  obtain ⟨shape, good⟩ := reach_good reached
  exact noPhantoms_of_good shape room (good room banks)

end Runs

/-- Two pages of data, of which one is freed. -/
def writeAndFree : List Call :=
  [.writeMemory 1 { systemRequest 0x1000 0x2000 with memory := some fun _ => 1 },
    .freeMemory 1 0x1000 0x1000]

set_option maxRecDepth 10000 in
theorem writeAndFree_allowed : AllAlong (call plainManager) (Allowed fourLevel)
    (newSimulation [0, 0] 2 0x100000000 false) writeAndFree := by
  have unused : ∀ slot, ((newSimulation [0, 0] 2 0x100000000 false).allocator.get
      slot).freeAllocationsMap = [] := by
    rintro (_ | i)
    · rfl
    · rfl
  refine ⟨fun t ht => ⟨Or.inr fun e he => ?_, fun _ x p _ _ hp => ?_⟩,
    fun s hs => ⟨fun t ht => Or.inr ?_, fun _ _ => trivial⟩⟩
  · rw [unused] at he
    cases he
  · obtain ⟨a, memoryBank, rfl⟩ := newPpgtts_new (List.mem_of_getElem? ht)
    rw [pageAt, leafAt, regionAt_newTables (getNumLevels_ge fourLevel.ppgtt)] at hp
    cases hp
  · -- the second page keeps the table
    have hrun : ((call plainManager (newSimulation [0, 0] 2 0x100000000 false) (.writeMemory 1
        { systemRequest 0x1000 0x2000 with memory := some fun _ => 1 })).map fun s =>
          (s.ppgtts[1]?).map fun t => ((t [0, 0, 0]).map (·.kind), (t [2, 0, 0, 0]).isSome)) =
            some (some (some (.pte .PTE4KB), true)) := by
      decide +kernel
    rw [hs, Option.map_some, ht, Option.map_some, Option.some.injEq, Option.some.injEq,
      Prod.mk.injEq] at hrun
    obtain ⟨hkind, hleaf⟩ := hrun
    obtain ⟨x, hx, hk⟩ := Option.map_eq_some_iff.mp hkind
    obtain ⟨leaf, hleaf⟩ := Option.isSome_iff_exists.mp hleaf
    intro b _ hb
    refine ⟨0x2000, slotPath_congr (Nat.le_refl 1) (by omega), ?_, fun y _ hy hne => ?_⟩
    · have hregion : regionAt 4 t 0x2000 = some x := hx
      change leafAt 4 t 0x2000 ≠ none
      rw [leafAt_of_region hregion, hk]
      exact (show t [2, 0, 0, 0] ≠ none by rw [hleaf]; simp)
    · have hregion : regionAt 4 t b = some x := by
        rw [← regionAt_congr (g := 0x2000) (by omega)]
        exact hx
      change y / pageSizeAt 4 t b ≠ b / pageSizeAt 4 t b at hne
      rw [pageSizeAt_of_region hregion, hk] at hne
      simp only [NodeKind.getPageSize, PteKind.getPageSize, pageSize4KB] at hne
      omega

set_option maxRecDepth 10000 in
theorem run_noPhantoms_writeAndFree : ∃ s, runAll (call plainManager)
    (newSimulation [0, 0] 2 0x100000000 false) writeAndFree = some s ∧ NoPhantoms 4 s := by
  have hmain : ((runAll (call plainManager) (newSimulation [0, 0] 2 0x100000000 false)
      writeAndFree).map fun s => s.allocator.mainAllocator.highWater) = some 0x87000 := by
    decide +kernel
  have hbanks : ∀ i, (runAll (call plainManager) (newSimulation [0, 0] 2 0x100000000 false)
      writeAndFree).map (fun s => s.allocator.allocators i) =
        some ((newSimulation [0, 0] 2 0x100000000 false).allocator.allocators i) := fun i => rfl
  obtain ⟨s, hs, hwater⟩ := Option.map_eq_some_iff.mp hmain
  have banks : ∀ i, s.allocator.allocators i =
      (newSimulation [0, 0] 2 0x100000000 false).allocator.allocators i := by
    intro i
    have hi := hbanks i
    rw [hs, Option.map_some, Option.some.injEq] at hi
    exact hi
  refine ⟨s, hs, run_noPhantoms plainManager [0, 0] 2 0x100000000 false s
    (Reach.runAll writeAndFree .start writeAndFree_allowed hs) ?_ ?_⟩
  · rintro (_ | i)
    · change s.allocator.mainAllocator.highWater < 2 ^ 64
      rw [hwater]
      decide
    · change (s.allocator.allocators i).highWater < 2 ^ 64
      rw [banks]
      exact max_lt (by decide) (Nat.mod_lt _ (by decide))
  · intro i j _ hused
    rw [banks] at hused
    exact absurd rfl hused

/-- A page is freed together with a hole behind it. -/
def freeBehindPage : List Call :=
  [.writeMemory 0 { systemRequest 0x1000 4 with memory := some fun _ => 0 },
    .freeMemory 0 0x1000 0x2000]

set_option maxRecDepth 10000 in
/-- The tables are gone, but not the entries that lead to them. -/
theorem not_run_noPhantoms : ¬ ∀ s, Reach (call plainManager) Any
    (newSimulation [0] 1 0x100000000 false) s → NoPhantoms 4 s := by
  intro hall
  have hrun : ((runAll (call plainManager) (newSimulation [0] 1 0x100000000 false)
      freeBehindPage).map fun s => (s.ppgtts[0]?).map fun t =>
        ((hardwareWalk 4 s.image t 0x1000).isSome, (leafAt 4 t 0x1000).isNone)) =
          some (some (true, true)) := by
    decide +kernel
  obtain ⟨s, hs, hfacts⟩ := Option.map_eq_some_iff.mp hrun
  obtain ⟨t, ht, hboth⟩ := Option.map_eq_some_iff.mp hfacts
  rw [Prod.mk.injEq] at hboth
  obtain ⟨entry, hentry⟩ := Option.isSome_iff_exists.mp hboth.1
  have mapped := hall s (runAll_reach freeBehindPage .start hs) t (List.mem_of_getElem? ht) 0x1000
    entry hentry
  exact mapped (Option.isNone_iff_eq_none.mp hboth.2)

end PhantomMappings
