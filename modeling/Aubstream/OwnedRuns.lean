import Aubstream.BlockOwners
import Aubstream.ManagerRuns

/-!
# The manager's runs on physical blocks

The page tables of all devices share one allocator with the client. Whatever the
order of writes, reservations, mappings and frees, blocks stay with their owners,
unless a mapping moves a page that owns its block.
-/

namespace OwnedRuns
open EntryBits PathTree PhysicalAllocator AllocatorBlocks PageNodes PageWalker TreeShape Placement
  FreeMemory MapFrame Reservations BlockOwners ManagerRuns Transitions
open TableRuns hiding Op step

section
variable (cfg : Config)

/-- `reservePhysicalMemory` goes on to the allocator. -/
def Reserves (params : AllocationParams) : Prop :=
  params.size ≠ 0 ∧ getSupportedPageSize cfg.gpu params.memoryBanks params.pageSize ≠ 0 ∧
    (params.memoryBanks = 0 ∨ isSingleBank params.memoryBanks = true)

/-- A reservation is of at least one page after rounding in 64 bits, and a mapping, to a 64-bit
address, moves no page that owns its block. -/
def Allowed (s : Memory) : Op → Prop
  | .reservePhysicalMemory params => Reserves cfg params → 0 < sizePageAligned params.gfxAddress
      params.size (getSupportedPageSize cfg.gpu params.memoryBanks params.pageSize)
  | .mapGpuVa2 physicalAddress params => physicalAddress < 2 ^ 64 ∧
      ∀ t ∈ s.ppgtts, MapsOwned cfg.ppgtt.getNumLevels
        (pageKindAt cfg.ppgtt (adjustPageSizeForHardwareSupport cfg.gpu params.pageSize
          params.memoryBanks) t) t physicalAddress params.memoryBanks params.gfxAddress params.size
  | _ => True

end

def tablesOf (ts : List Nodes) : Tables := fun device => (ts[device]?).getD fun _ => none

/-- What ownership asks of a state. A block in use has one holder and a holder a block in use; a
node would give back just its block; a client's block is not free; blocks of one bank do not
overlap. -/
structure Ownership (s : Memory) : Prop where
  ledger : Ledger.Exclusive (holds (tablesOf s.ppgtts) s.reservations s.allocator) (inUse s.allocator)
  givesBack : ∀ t ∈ s.ppgtts, ∀ p n b, t p = some n → n.allocator = some b →
    destroyNode s.allocator n = s.allocator.free b.memoryBank b.physicalAddress ∧
      n.memoryBank = b.memoryBank ∧ n.physicalAddress = b.physicalAddress
  reserved : ∀ b ∈ s.reservations, (b.physicalAddress, b.size) ∉
    (s.allocator.get (s.allocator.slotOf b.memoryBank)).freeAllocationsMap
  apart : ∀ h h' k k', holds (tablesOf s.ppgtts) s.reservations s.allocator h = some k →
    holds (tablesOf s.ppgtts) s.reservations s.allocator h' = some k' → h ≠ h' → k.1 = k'.1 →
    Apart k.2 k'.2

/-! ### Lists of tables -/

section Lists
variable {base : Bank → Nat} {ts ts' rest : List Nodes} {t t' : Nodes} {reservations : List Block}
  {a a' a'' : PhysicalAddressAllocatorSimple}

theorem tablesOf_at (before : List Nodes) (t : Nodes) (rest : List Nodes) :
    tablesOf (before ++ t :: rest) before.length = t := by
  simp [tablesOf]

/-- Before their roots are constructed. -/
theorem tablesOf_idle (memoryBanks : List Nat) (device : Nat) :
    tablesOf (memoryBanks.map fun _ _ => none) device = fun _ => none := by
  unfold tablesOf
  rw [List.getElem?_map]
  cases memoryBanks[device]? with
  | none => rfl
  | some memoryBank => rfl

theorem tablesOf_put (before : List Nodes) (t t' : Nodes) (rest : List Nodes) :
    Function.update (tablesOf (before ++ t :: rest)) before.length t' =
      tablesOf (before ++ t' :: rest) := by
  funext device
  by_cases hd : device = before.length
  · subst device
    rw [Function.update_self, tablesOf_at]
  · rw [Function.update_of_ne hd]
    rcases Nat.lt_or_gt_of_ne hd with hlt | hgt
    · simp only [tablesOf, List.getElem?_append_left hlt]
    · obtain ⟨k, rfl⟩ := Nat.exists_eq_add_of_lt hgt
      simp [tablesOf, List.getElem?_append_right, Nat.add_assoc]

/-- What all tables together keep, whatever tables stand before them. -/
structure KeepsAll (ts : List Nodes) (a : PhysicalAddressAllocatorSimple) (ts' : List Nodes)
    (a' : PhysicalAddressAllocatorSimple) : Prop where
  room : Unexhausted a' → Unexhausted a
  owned : ∀ base before reservations, Unexhausted a' →
    Owned base (tablesOf (before ++ ts)) reservations a →
    Owned base (tablesOf (before ++ ts')) reservations a'
  aligned : PagesAligned a → PagesAligned a'

theorem KeepsAll.refl (ts : List Nodes) (a : PhysicalAddressAllocatorSimple) : KeepsAll ts a ts a :=
  ⟨id, fun _ _ _ _ h => h, id⟩

theorem KeepsAll.cons (first : Keeps t a t' a') (later : KeepsAll ts a' ts' a'') :
    KeepsAll (t :: ts) a (t' :: ts') a'' := by
  refine ⟨fun room => first.room (later.room room), ?_,
    fun aligned => later.aligned (first.aligned aligned)⟩
  intro base before reservations room owned
  have here : Owned base (tablesOf (before ++ t' :: ts)) reservations a' := by
    rw [← tablesOf_put before t t' ts]
    apply first.owned base _ reservations before.length (later.room room)
    rw [tablesOf_put]
    exact owned
  rw [List.append_cons] at here ⊢
  exact later.owned base (before ++ [t']) reservations room here

theorem eachTable_keeps {f : Nodes → PhysicalAddressAllocatorSimple →
      Option (Nodes × PhysicalAddressAllocatorSimple)}
    (each : ∀ t ∈ ts, ∀ a r, f t a = some r → Keeps t a r.1 r.2)
    {r : List Nodes × PhysicalAddressAllocatorSimple} (h : eachTable f ts a = some r) :
    KeepsAll ts a r.1 r.2 := by
  induction ts generalizing a r with
  | nil =>
    simp only [eachTable, Option.some.injEq] at h
    subst h
    exact .refl _ _
  | cons t rest ih =>
    simp only [eachTable, Option.bind_eq_some_iff, Option.map_eq_some_iff] at h
    obtain ⟨first, hfirst, later, hlater, rfl⟩ := h
    obtain ⟨ht, hrest⟩ := List.forall_mem_cons.mp each
    exact .cons (ht a first hfirst) (ih hrest hlater)

theorem atTable_keeps {f : Nodes → PhysicalAddressAllocatorSimple →
      Option (Nodes × PhysicalAddressAllocatorSimple)} {device : Nat}
    (each : ∀ t ∈ ts, ∀ a r, f t a = some r → Keeps t a r.1 r.2)
    {r : List Nodes × PhysicalAddressAllocatorSimple} (h : atTable f device ts a = some r) :
    KeepsAll ts a r.1 r.2 := by
  induction ts generalizing device r with
  | nil => simp [atTable] at h
  | cons t rest ih =>
    obtain ⟨ht, hrest⟩ := List.forall_mem_cons.mp each
    cases device with
    | zero =>
      simp only [atTable, Option.map_eq_some_iff] at h
      obtain ⟨first, hfirst, rfl⟩ := h
      exact .cons (ht a first hfirst) (.refl _ _)
    | succ device =>
      simp only [atTable, Option.map_eq_some_iff] at h
      obtain ⟨later, hlater, rfl⟩ := h
      exact .cons (.refl _ _) (ih hrest hlater)

theorem commit_keeps (pendingNodes : Nat → List Path) (ts : List Nodes)
    (a : PhysicalAddressAllocatorSimple) : KeepsAll ts a
      (ts.mapIdx fun device t => modifyAll t (pendingNodes device) (·.setPendingWrite false)) a := by
  induction ts generalizing pendingNodes with
  | nil => exact .refl _ _
  | cons t rest ih =>
    rw [List.mapIdx_cons]
    refine .cons (Keeps.of_ownership fun p => ?_) (ih fun device => pendingNodes (device + 1))
    rw [← ownership_layout, modifyAll_setPendingWrite_layout, ownership_layout]

theorem newPpgtts_keeps (memoryBanks : List Nat) (a : PhysicalAddressAllocatorSimple) :
    KeepsAll (memoryBanks.map fun _ _ => none) a (newPpgtts memoryBanks a).1
      (newPpgtts memoryBanks a).2 := by
  induction memoryBanks generalizing a with
  | nil => exact .refl _ _
  | cons memoryBank rest ih =>
    refine .cons ?_ (ih (newTables a memoryBank).allocator)
    exact @Keeps.construct a (fun _ => none) [] rfl .directory 4096 memoryBank noParams

end Lists

section Steps
variable {cfg : Config} {s s' : Memory} {base : Bank → Nat}

theorem walkTable_keeps {params : AllocationParams} {mode : WalkMode} {infos : List PageInfo}
    {t : Nodes} (wf : Wf cfg.ppgtt.getNumLevels t) (hmode : mode ≠ .Expect)
    (a : PhysicalAddressAllocatorSimple) (r : Nodes × PhysicalAddressAllocatorSimple)
    (h : walkTable cfg params mode infos none t a = some r) : Keeps t a r.1 r.2 := by
  obtain ⟨w, hw, rfl⟩ := Option.map_eq_some_iff.mp h
  exact keeps_walk wf hmode hw

theorem freeTable_keeps {g size : Nat} {t : Nodes} (wf : Wf cfg.ppgtt.getNumLevels t)
    (a : PhysicalAddressAllocatorSimple) (r : Nodes × PhysicalAddressAllocatorSimple)
    (h : freeTable cfg g size t a = some r) : Keeps t a r.1 r.2 := by
  simp only [freeTable, Option.some.injEq] at h
  subst h
  exact keeps_free wf g size

theorem writeTables_keeps {params : AllocationParams} {ts : List Nodes}
    {a : PhysicalAddressAllocatorSimple} {r : List Nodes × PhysicalAddressAllocatorSimple}
    (wf : ∀ t ∈ ts, Wf cfg.ppgtt.getNumLevels t) (h : writeTables cfg params ts a = some r) :
    KeepsAll ts a r.1 r.2 := by
  cases ts with
  | nil => cases h
  | cons t rest =>
    simp only [writeTables, Option.bind_eq_some_iff, Option.map_eq_some_iff] at h
    obtain ⟨w, hw, later, hlater, rfl⟩ := h
    obtain ⟨ht, hrest⟩ := List.forall_mem_cons.mp wf
    exact .cons (keeps_walk ht (by simp) hw)
      (eachTable_keeps (fun t mem => walkTable_keeps (hrest t mem) (by simp)) hlater)

theorem reservePhysicalMemory_some {a a' : PhysicalAddressAllocatorSimple}
    {params : AllocationParams} {info : PhysicalAllocationInfo}
    (h : Reservations.reservePhysicalMemory cfg.gpu a params = some (info, a')) :
    Reserves cfg params ∧
      info.pageSize = getSupportedPageSize cfg.gpu params.memoryBanks params.pageSize ∧
      info.memoryBank = params.memoryBanks ∧
      a.reserve params.memoryBanks (sizePageAligned params.gfxAddress params.size info.pageSize)
        info.pageSize = (info.physicalAddress, a') := by
  simp only [Reservations.reservePhysicalMemory] at h
  split at h
  · cases h
  · rename_i hsize
    split at h
    · cases h
    · rename_i hpage
      split at h
      · cases h
      · rename_i hbanks
        rw [Option.some.injEq, Prod.mk.injEq] at h
        obtain ⟨rfl, rfl⟩ := h
        refine ⟨⟨hsize, hpage, ?_⟩, rfl, rfl, rfl⟩
        by_cases hbank : params.memoryBanks = 0
        · exact Or.inl hbank
        · right
          by_contra hmany
          exact hbanks ⟨hbank, by simpa using hmany⟩

/-- A client is given a block of its own. -/
theorem owned_reserve {T : Tables} {reservations : List Block}
    {a a' : PhysicalAddressAllocatorSimple} {params : AllocationParams}
    {info : PhysicalAllocationInfo}
    (h : Reservations.reservePhysicalMemory cfg.gpu a params = some (info, a'))
    (pos : 0 < sizePageAligned params.gfxAddress params.size info.pageSize)
    (room : Unexhausted a') (owned : Owned base T reservations a) :
    Owned base T (reservations ++ [⟨info.memoryBank, info.physicalAddress,
      sizePageAligned params.gfxAddress params.size info.pageSize⟩]) a' := by
  obtain ⟨_, _, hbank, hreserve⟩ := reservePhysicalMemory_some h
  rw [← hbank] at hreserve
  have hsound := @reserve_sound a base owned.banks info.memoryBank _ info.pageSize pos
    (by rw [hreserve]; exact room)
  rw [hreserve] at hsound
  obtain ⟨banks, reserved⟩ := hsound
  have keys : key a' = key a := key_congr reserved.slots
  refine ⟨banks, ?_, owned.own⟩
  refine @Ledger.Exclusive.acquire _ _ _ _ _ _ owned.ledger (.reservation reservations.length) _ ?_
    reserved.fresh ?_ ?_ reserved.used
  · simp only [holds, block, List.getElem?_eq_none (Nat.le_refl _), Option.map_none]
  · rw [holds, block, List.getElem?_concat_length, keys]
    rfl
  · intro holder hholder
    rw [holds, holds, keys]
    cases holder with
    | node device p => rfl
    | reservation index =>
      have hne : index ≠ reservations.length := fun heq => hholder (by rw [heq])
      simp only [block]
      rcases Nat.lt_or_gt_of_ne hne with hlt | hgt
      · rw [List.getElem?_append_left hlt]
      · rw [List.getElem?_eq_none, List.getElem?_eq_none]
        · omega
        · rw [List.length_append, List.length_singleton]
          omega

theorem owned_start (numberOfAllocators singleAllocatorSize : Nat) (localMemorySupport : Bool)
    {T : Tables} (idle : ∀ device, T device = fun _ => none) :
    Owned (firstAddress singleAllocatorSize localMemorySupport) T []
      (.new numberOfAllocators singleAllocatorSize localMemorySupport) := by
  have nothing : ∀ holder, block T [] holder = none := by
    intro holder
    cases holder with
    | node device p =>
      rw [block, idle]
      rfl
    | reservation index => rfl
  refine ⟨new_banksSound _ _ _, ⟨?_, ?_, ?_⟩, ?_⟩
  · intro holder k hk
    rw [holds, nothing] at hk
    cases hk
  · intro holder holder' k hk
    rw [holds, nothing] at hk
    cases hk
  · rintro ⟨_ | i, e⟩ hk
    · cases hk
    · cases hk
  · intro device p n b hn
    rw [idle] at hn
    cases hn

/-- The blocks of a state, unless a bank has run out of addresses. -/
def Inv (base : Bank → Nat) (s : Memory) : Prop :=
  Unexhausted s.allocator → Owned base (tablesOf s.ppgtts) s.reservations s.allocator

theorem inv_start (memoryBanks : List Nat) (numberOfAllocators singleAllocatorSize : Nat)
    (localMemorySupport : Bool) : Inv (firstAddress singleAllocatorSize localMemorySupport)
      (start memoryBanks numberOfAllocators singleAllocatorSize localMemorySupport) := by
  intro room
  apply (newPpgtts_keeps memoryBanks _).owned _ [] [] room
  exact owned_start _ _ _ (tablesOf_idle memoryBanks)

/-- Every operation but a reservation. -/
theorem step_keeps {o : Op} (wf : ∀ t ∈ s.ppgtts, Wf cfg.ppgtt.getNumLevels t)
    (allowed : Allowed cfg s o) (noClient : ∀ params, o ≠ .reservePhysicalMemory params)
    (h : step cfg s o = some s') : KeepsAll s.ppgtts s.allocator s'.ppgtts s'.allocator ∧
      s'.reservations = s.reservations := by
  cases o with
  | writeMemory2 params =>
    obtain ⟨r, hr, rfl⟩ := Option.map_eq_some_iff.mp h
    exact ⟨writeTables_keeps wf hr, rfl⟩
  | reservePhysicalMemory params => exact absurd rfl (noClient params)
  | mapGpuVa2 phys params =>
    obtain ⟨r, hr, rfl⟩ := Option.map_eq_some_iff.mp h
    refine ⟨eachTable_keeps (fun t mem a r hr => ?_) hr, rfl⟩
    obtain ⟨w, hw, rfl⟩ := Option.map_eq_some_iff.mp hr
    exact keeps_map allowed.1 (wf t mem) (allowed.2 t mem) hw
  | freeMemory g size =>
    obtain ⟨r, hr, rfl⟩ := Option.map_eq_some_iff.mp h
    exact ⟨eachTable_keeps (fun t mem => freeTable_keeps (wf t mem)) hr, rfl⟩
  | contextWriteMemory2 device params =>
    obtain ⟨r, hr, rfl⟩ := Option.map_eq_some_iff.mp h
    exact ⟨atTable_keeps (fun t mem => walkTable_keeps (wf t mem) (by simp)) hr, rfl⟩
  | contextFreeMemory device g size =>
    obtain ⟨r, hr, rfl⟩ := Option.map_eq_some_iff.mp h
    exact ⟨atTable_keeps (fun t mem => freeTable_keeps (wf t mem)) hr, rfl⟩
  | commit pendingNodes =>
    simp only [step, Option.some.injEq] at h
    subst h
    exact ⟨commit_keeps pendingNodes _ _, rfl⟩

theorem inv_step {o : Op} (wf : ∀ t ∈ s.ppgtts, Wf cfg.ppgtt.getNumLevels t) (inv : Inv base s)
    (allowed : Allowed cfg s o) (h : step cfg s o = some s') : Inv base s' := by
  by_cases client : ∃ params, o = .reservePhysicalMemory params
  · obtain ⟨params, rfl⟩ := client
    cases hr : Reservations.reservePhysicalMemory cfg.gpu s.allocator params with
    | none =>
      simp only [step, hr, Option.some.injEq] at h
      exact h ▸ inv
    | some r =>
      simp only [step, hr, Option.some.injEq] at h
      subst h
      obtain ⟨reserves, hpage, _, hreserve⟩ := reservePhysicalMemory_some hr
      refine fun room => owned_reserve hr ?_ room (inv fun slot => ?_)
      · rw [hpage]
        exact allowed reserves
      · have hwater := reserve_highWater s.allocator params.memoryBanks
          (sizePageAligned params.gfxAddress params.size r.1.pageSize) r.1.pageSize slot
        rw [hreserve] at hwater
        exact Nat.lt_of_le_of_lt hwater (room slot)
  · obtain ⟨keeps, hreservations⟩ := step_keeps wf allowed (fun params heq => client ⟨params, heq⟩) h
    intro room
    rw [hreservations]
    exact keeps.owned base [] s.reservations room (inv (keeps.room room))

theorem ownership_of_owned (owned : Owned base (tablesOf s.ppgtts) s.reservations s.allocator) :
    Ownership s := by
  have held : ∀ {h k}, holds (tablesOf s.ppgtts) s.reservations s.allocator h = some k →
      k.2 ∈ (s.allocator.get k.1).usedAllocationsMap := fun hk => owned.ledger.held_used hk
  refine ⟨owned.ledger, ?_, ?_, ?_⟩
  · intro t ht p n b hn hb
    obtain ⟨device, hdevice⟩ := List.mem_iff_getElem?.mp ht
    have hown := owned.own device p n b (by simp only [tablesOf, hdevice, Option.getD_some, hn]) hb
    refine ⟨?_, hown⟩
    simp only [destroyNode, hb, hown]
    rfl
  · intro b hb
    obtain ⟨index, hindex⟩ := List.mem_iff_getElem?.mp hb
    have hk : holds (tablesOf s.ppgtts) s.reservations s.allocator (.reservation index) =
        some (key s.allocator b) := by
      rw [holds, block, hindex]
      rfl
    exact (owned.banks _).not_free_of_used (held hk)
  · intro h h' k k' hk hk' hne hslot
    have hused := List.mem_append_left (s.allocator.get k.1).freeAllocationsMap (held hk)
    have hused' := List.mem_append_left (s.allocator.get k'.1).freeAllocationsMap (held hk')
    rw [← hslot] at hused'
    refine (owned.banks k.1).apart_of_ne hused hused' fun heq => hne ?_
    have hkeys : k = k' := Prod.ext hslot heq
    exact owned.ledger.injective hk (hkeys ▸ hk')

theorem reach_owned {memoryBanks : List Nat} {numberOfAllocators singleAllocatorSize : Nat}
    {localMemorySupport : Bool}
    (reached : Reach (step cfg) (Allowed cfg)
      (start memoryBanks numberOfAllocators singleAllocatorSize localMemorySupport) s) :
    Inv (firstAddress singleAllocatorSize localMemorySupport) s := by
  induction reached with
  | start => exact inv_start memoryBanks _ _ _
  | step reached allowed done ih => exact inv_step (reach_tables_wf reached) ih allowed done

/-- In every run whose steps meet the condition, blocks stay with their owners. -/
theorem run_ownership (cfg : Config) (memoryBanks : List Nat)
    (numberOfAllocators singleAllocatorSize : Nat) (localMemorySupport : Bool) (s : Memory)
    (reached : Reach (step cfg) (Allowed cfg)
      (start memoryBanks numberOfAllocators singleAllocatorSize localMemorySupport) s)
    (room : Unexhausted s.allocator) : Ownership s :=
  ownership_of_owned (reach_owned reached room)

end Steps

theorem newPpgtts_new {memoryBanks : List Nat} {a : PhysicalAddressAllocatorSimple} {t : Nodes}
    (h : t ∈ (newPpgtts memoryBanks a).1) : ∃ (a' : PhysicalAddressAllocatorSimple) (memoryBank : Nat),
      t = (newTables a' memoryBank).nodes := by
  induction memoryBanks generalizing a with
  | nil => cases h
  | cons memoryBank rest ih =>
    rcases List.mem_cons.mp h with rfl | hrest
    · exact ⟨a, memoryBank, rfl⟩
    · exact ih hrest

theorem mapsOwned_newTables {n : Nat} (hn : 4 ≤ n) (kinds : Nat → NodeKind)
    (a : PhysicalAddressAllocatorSimple) (memoryBank phys bank g size : Nat) :
    MapsOwned n kinds (newTables a memoryBank).nodes phys bank g size := by
  intro x p leaf _ _ _ _ hleaf _
  rw [Translation.leafAt, regionAt_newTables hn] at hleaf
  cases hleaf

/-- A request in 4KB pages of system memory. -/
def systemRequest (gfxAddress size : Nat) : AllocationParams :=
  { request4KB gfxAddress size with memoryBanks := 0 }

/-- A client's block is mapped by two devices; pages are written behind it and freed with it. -/
def mapAndFree : List Op :=
  [.reservePhysicalMemory (systemRequest 0x1000 0x1000),
    .mapGpuVa 0x1000 0x1000 ⟨0x82000, 0x1000, 0, 0x1000⟩,
    .writeMemory2 (systemRequest 0x3000 0x2000), .freeMemory 0x1000 0x3000]

theorem mapAndFree_allowed :
    AllAlong (step fourLevel) (Allowed fourLevel) (start [0, 0] 2 0x100000000 false) mapAndFree := by
  refine ⟨fun _ => by decide, fun s h => ⟨⟨by decide, ?_⟩, fun _ _ => ⟨trivial, fun _ _ =>
    ⟨trivial, fun _ _ => trivial⟩⟩⟩⟩
  -- the reservation leaves the tables as they were created
  intro t ht
  have hnew : t ∈ (start [0, 0] 2 0x100000000 false).ppgtts := by
    simp only [step] at h
    split at h
    · cases h
      exact ht
    · cases h
      exact ht
  obtain ⟨a, memoryBank, rfl⟩ := newPpgtts_new hnew
  exact mapsOwned_newTables (by decide) _ a memoryBank _ _ _ _

/-- A state of the runs below, which use system memory only. -/
theorem unexhausted_of_main {s : Memory} (main : s.allocator.mainAllocator.highWater < 2 ^ 64)
    (banks : ∀ i, s.allocator.allocators i =
      (start [0, 0] 2 0x100000000 false).allocator.allocators i) : Unexhausted s.allocator := by
  rintro (_ | i)
  · exact main
  · change (s.allocator.allocators i).highWater < _
    rw [banks]
    exact max_lt (by decide) (Nat.mod_lt _ (by decide))

set_option maxRecDepth 10000 in
theorem run_ownership_mapAndFree : ∃ s, runAll (step fourLevel) (start [0, 0] 2 0x100000000 false)
    mapAndFree = some s ∧ Ownership s := by
  have hmain : ((runAll (step fourLevel) (start [0, 0] 2 0x100000000 false) mapAndFree).map fun s =>
      s.allocator.mainAllocator.highWater) = some 0x8b000 := by
    decide +kernel
  have hbanks : ∀ i, (runAll (step fourLevel) (start [0, 0] 2 0x100000000 false) mapAndFree).map
      (fun s => s.allocator.allocators i) =
        some ((start [0, 0] 2 0x100000000 false).allocator.allocators i) := fun i => rfl
  obtain ⟨s, hs, hwater⟩ := Option.map_eq_some_iff.mp hmain
  refine ⟨s, hs, run_ownership fourLevel [0, 0] 2 0x100000000 false s
    (Reach.runAll mapAndFree .start mapAndFree_allowed hs) (unexhausted_of_main ?_ fun i => ?_)⟩
  · rw [hwater]
    decide
  · have hi := hbanks i
    rw [hs, Option.map_some, Option.some.injEq] at hi
    exact hi

/-- A page that owns its block is mapped elsewhere and freed. -/
def mapOverPage : List Op :=
  [.writeMemory2 (systemRequest 0x1000 0x1000), .reservePhysicalMemory (systemRequest 0x2000 0x1000),
    .mapGpuVa 0x1000 0x1000 ⟨0x85000, 0x1000, 0, 0x1000⟩, .freeMemory 0x1000 0x1000]

/-- Freeing the page puts the client's block on the free list, not the page's own block. -/
theorem not_run_ownership : ¬ ∀ s, Reach (step fourLevel) Any (start [0] 1 0x100000000 false) s →
    Ownership s := by
  intro hall
  have hrun : ((runAll (step fourLevel) (start [0] 1 0x100000000 false) mapOverPage).map fun s =>
      (s.reservations, s.allocator.mainAllocator.freeAllocationsMap)) =
        some ([⟨0, 0x85000, 0x1000⟩], [(0x83000, 0x1000), (0x85000, 0x1000)]) := by
    decide +kernel
  obtain ⟨s, hs, hfacts⟩ := Option.map_eq_some_iff.mp hrun
  rw [Prod.mk.injEq] at hfacts
  obtain ⟨hreserved, hfree⟩ := hfacts
  have ownership := hall s (runAll_reach mapOverPage .start hs)
  apply ownership.reserved ⟨0, 0x85000, 0x1000⟩
  · rw [hreserved]
    exact List.mem_singleton.mpr rfl
  · have hslot : s.allocator.slotOf 0 = none := rfl
    rw [hslot]
    change (0x85000, 0x1000) ∈ s.allocator.mainAllocator.freeAllocationsMap
    rw [hfree]
    decide

end OwnedRuns
