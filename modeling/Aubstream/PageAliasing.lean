import Aubstream.MappedPages
import Aubstream.OwnedRuns

/-!
# Which pages map which memory

Pages of the first table lie in blocks of their own. Another table's page does
too, or it is a clone of the first table's page at its address and must not
outlive it.
-/

namespace PageAliasing
open EntryBits PathTree PhysicalAllocator AllocatorBlocks PageNodes PageWalker TreeShape Placement
  Translation WalkPhases FreeMemory MapFrame MappedPages BlockOwners ManagerRuns OwnedRuns
  TableAgreement Transitions
open FreeComplete hiding fourLevel
open TableRuns hiding Op step

/-- `P` holds between the first table and each other one. -/
def ForOthers (P : Nodes → Nodes → Prop) : List Nodes → Prop
  | [] => True
  | t₀ :: others => ∀ t ∈ others, P t₀ t

section
variable (cfg : Config)

/-- The client neither reserves nor maps. -/
def WithoutClient (_ : Memory) : Op → Prop
  | .reservePhysicalMemory _ => False
  | .mapGpuVa2 _ _ => False
  | _ => True

/-- Clones are good when they are made, and a free of the first table's page takes its clones. -/
def Allowed (s : Memory) : Op → Prop
  | .writeMemory2 params => ForOthers (Clonable cfg (supportedParams cfg params)) s.ppgtts
  | .freeMemory g size => ForOthers (fun t₀ t => ∀ x p, pageAt cfg.ppgtt.getNumLevels t x = some p →
      p.owned = none → Frees cfg.ppgtt.getNumLevels t₀ g size x →
      Frees cfg.ppgtt.getNumLevels t g size x) s.ppgtts
  | .contextFreeMemory device g size => device = 0 →
      ForOthers (fun t₀ t => ∀ x p, pageAt cfg.ppgtt.getNumLevels t x = some p →
        p.owned = none → ¬ Frees cfg.ppgtt.getNumLevels t₀ g size x) s.ppgtts
  | o => WithoutClient s o

end

/-- No page maps a free block, and pages that overlap are at one virtual address. Memory is local
or system memory, each with addresses of its own. -/
structure NoAliasing (n : Nat) (s : Memory) : Prop where
  notFree : ∀ t ∈ s.ppgtts, ∀ x p, pageAt n t x = some p → ∀ memoryBank,
    (memoryBank != 0) = p.isLocalMemory →
    ∀ e ∈ (s.allocator.get (s.allocator.slotOf memoryBank)).freeAllocationsMap,
      Apart (p.physicalAddress, p.size) e
  distinct : ∀ t ∈ s.ppgtts, ∀ t' ∈ s.ppgtts, ∀ x x' p p', pageAt n t x = some p →
    pageAt n t' x' = some p' → p.isLocalMemory = p'.isLocalMemory →
    ¬ Apart (p.physicalAddress, p.size) (p'.physicalAddress, p'.size) →
    p.size = p'.size ∧ x % addressSpace n / p.size = x' % addressSpace n / p.size

/-- What backs the page of another table at `x`. -/
def Backed (n : Nat) (t₀ : Nodes) (x : Nat) (p : MappedPage) : Prop :=
  p.Owns ∨ ∃ p₀, pageAt n t₀ x = some p₀ ∧ CloneOf p p₀

def Sharing (n : Nat) : List Nodes → Prop
  | [] => True
  | t₀ :: others => (∀ x p, pageAt n t₀ x = some p → p.Owns) ∧
      ∀ t ∈ others, ∀ x p, pageAt n t x = some p → Backed n t₀ x p

theorem Backed.mono {n : Nat} {t₀ t₀' : Nodes} {x : Nat} {p : MappedPage} (h : Backed n t₀ x p)
    (kept : p.owned = none → ∀ p₀, pageAt n t₀ x = some p₀ → pageAt n t₀' x = some p₀) :
    Backed n t₀' x p := by
  rcases h with owns | ⟨p₀, hp₀, clone⟩
  · exact Or.inl owns
  · exact Or.inr ⟨p₀, kept clone.owned p₀ hp₀, clone⟩

/-! ### Steps -/

section Steps
variable {cfg : Config} {ts : List Nodes} {a : PhysicalAddressAllocatorSimple}
  {params : AllocationParams} {device g size : Nat}
  {r : List Nodes × PhysicalAddressAllocatorSimple}

theorem sharing_write (wf : ∀ t ∈ ts, Wf cfg.ppgtt.getNumLevels t) (free : FreePagesAligned a)
    (clonable : ForOthers (Clonable cfg params) ts) (h : writeTables cfg params ts a = some r)
    (sharing : Sharing cfg.ppgtt.getNumLevels ts) : Sharing cfg.ppgtt.getNumLevels r.1 := by
  cases ts with
  | nil => cases h
  | cons t₀ others =>
    simp only [writeTables, Option.bind_eq_some_iff, Option.map_eq_some_iff] at h
    obtain ⟨w₀, hw₀, later, hlater, rfl⟩ := h
    obtain ⟨wf₀, hwf⟩ := List.forall_mem_cons.mp wf
    obtain ⟨hkept, hnew⟩ := reserve_pages wf₀ free hw₀
    obtain ⟨own, backed⟩ := sharing
    have owns : ∀ x p, pageAt cfg.ppgtt.getNumLevels w₀.nodes x = some p → p.Owns := by
      intro x p hp
      rcases hnew x p hp with hold | howns
      · exact own x p hold
      · exact howns
    refine ⟨owns, eachTable_forall (fun t mem a r hr x p hp => ?_) hlater⟩
    obtain ⟨w, hw, rfl⟩ := Option.map_eq_some_iff.mp hr
    have aligned : ∀ x p₀, pageAt cfg.ppgtt.getNumLevels w₀.nodes x = some p₀ →
        p₀.size ∣ p₀.physicalAddress := by
      intro x p₀ hp₀
      obtain ⟨_, _, _, hdvd⟩ := owns x p₀ hp₀
      exact hdvd
    rcases clone_pages wf₀ (hwf t mem) free hw₀ hw aligned (clonable t mem) x p hp with hold | hclone
    · exact (backed t mem x p hold).mono fun _ => hkept x
    · exact Or.inr hclone

theorem sharing_free (wf : ∀ t ∈ ts, Wf cfg.ppgtt.getNumLevels t ∧ LastTables.Inhabited t)
    (together : ForOthers (fun t₀ t => ∀ x p, pageAt cfg.ppgtt.getNumLevels t x = some p →
      p.owned = none → Frees cfg.ppgtt.getNumLevels t₀ g size x →
      Frees cfg.ppgtt.getNumLevels t g size x) ts)
    (h : eachTable (freeTable cfg g size) ts a = some r)
    (sharing : Sharing cfg.ppgtt.getNumLevels ts) : Sharing cfg.ppgtt.getNumLevels r.1 := by
  cases ts with
  | nil =>
    cases h
    trivial
  | cons t₀ others =>
    simp only [eachTable, Option.bind_eq_some_iff, Option.map_eq_some_iff] at h
    obtain ⟨first, hfirst, later, hlater, rfl⟩ := h
    obtain ⟨⟨wf₀, inhabited₀⟩, hwf⟩ := List.forall_mem_cons.mp wf
    obtain ⟨own, backed⟩ := sharing
    simp only [freeTable, Option.some.injEq] at hfirst
    subst hfirst
    refine ⟨fun x p hp => own x p ((freeMemory_pageAt a wf₀ inhabited₀ g size x p).mp hp).1,
      eachTable_forall (fun t mem a' r hr x p hp => ?_) hlater⟩
    simp only [freeTable, Option.some.injEq] at hr
    subst hr
    obtain ⟨hold, hleft⟩ := (freeMemory_pageAt a' (hwf t mem).1 (hwf t mem).2 g size x p).mp hp
    refine (backed t mem x p hold).mono fun howned p₀ hp₀ => ?_
    exact (freeMemory_pageAt a wf₀ inhabited₀ g size x p₀).mpr
      ⟨hp₀, fun frees => hleft (together t mem x p hold howned frees)⟩

theorem sharing_contextWrite (wf : ∀ t ∈ ts, Wf cfg.ppgtt.getNumLevels t)
    (free : FreePagesAligned a)
    (h : atTable (walkTable cfg params .Reserve [] none) device ts a = some r)
    (sharing : Sharing cfg.ppgtt.getNumLevels ts) : Sharing cfg.ppgtt.getNumLevels r.1 := by
  cases ts with
  | nil => simp [atTable] at h
  | cons t₀ others =>
    obtain ⟨wf₀, hwf⟩ := List.forall_mem_cons.mp wf
    obtain ⟨own, backed⟩ := sharing
    cases device with
    | zero =>
      simp only [atTable, Option.map_eq_some_iff] at h
      obtain ⟨first, hfirst, rfl⟩ := h
      obtain ⟨w, hw, rfl⟩ := Option.map_eq_some_iff.mp hfirst
      obtain ⟨hkept, hnew⟩ := reserve_pages wf₀ free hw
      refine ⟨fun x p hp => ?_, fun t mem x p hp => (backed t mem x p hp).mono fun _ => hkept x⟩
      rcases hnew x p hp with hold | howns
      · exact own x p hold
      · exact howns
    | succ device =>
      simp only [atTable, Option.map_eq_some_iff] at h
      obtain ⟨later, hlater, rfl⟩ := h
      refine ⟨own, atTable_forall (fun t mem r hr x p hp => ?_) backed hlater⟩
      obtain ⟨w, hw, rfl⟩ := Option.map_eq_some_iff.mp hr
      rcases (reserve_pages (hwf t mem) free hw).2 x p hp with hold | howns
      · exact backed t mem x p hold
      · exact Or.inl howns

theorem sharing_contextFree (wf : ∀ t ∈ ts, Wf cfg.ppgtt.getNumLevels t ∧ LastTables.Inhabited t)
    (unshared : device = 0 → ForOthers (fun t₀ t => ∀ x p,
      pageAt cfg.ppgtt.getNumLevels t x = some p → p.owned = none →
      ¬ Frees cfg.ppgtt.getNumLevels t₀ g size x) ts)
    (h : atTable (freeTable cfg g size) device ts a = some r)
    (sharing : Sharing cfg.ppgtt.getNumLevels ts) : Sharing cfg.ppgtt.getNumLevels r.1 := by
  cases ts with
  | nil => simp [atTable] at h
  | cons t₀ others =>
    obtain ⟨⟨wf₀, inhabited₀⟩, hwf⟩ := List.forall_mem_cons.mp wf
    obtain ⟨own, backed⟩ := sharing
    cases device with
    | zero =>
      simp only [atTable, Option.map_eq_some_iff] at h
      obtain ⟨first, hfirst, rfl⟩ := h
      simp only [freeTable, Option.some.injEq] at hfirst
      subst hfirst
      refine ⟨fun x p hp => own x p ((freeMemory_pageAt a wf₀ inhabited₀ g size x p).mp hp).1,
        fun t mem x p hp => (backed t mem x p hp).mono fun howned p₀ hp₀ => ?_⟩
      exact (freeMemory_pageAt a wf₀ inhabited₀ g size x p₀).mpr
        ⟨hp₀, unshared rfl t mem x p hp howned⟩
    | succ device =>
      simp only [atTable, Option.map_eq_some_iff] at h
      obtain ⟨later, hlater, rfl⟩ := h
      refine ⟨own, atTable_forall (fun t mem r hr x p hp => ?_) backed hlater⟩
      simp only [freeTable, Option.some.injEq] at hr
      subst hr
      exact backed t mem x p ((freeMemory_pageAt a (hwf t mem).1 (hwf t mem).2 g size x p).mp hp).1

theorem pageAt_commit (n : Nat) (t : Nodes) (pendingNodes : List Path) (x : Nat) :
    pageAt n (modifyAll t pendingNodes (·.setPendingWrite false)) x = pageAt n t x := by
  rw [← pageAt_layout, modifyAll_setPendingWrite_layout, pageAt_layout]

theorem sharing_commit (n : Nat) (pendingNodes : Nat → List Path) (sharing : Sharing n ts) :
    Sharing n (ts.mapIdx fun device t =>
      modifyAll t (pendingNodes device) (·.setPendingWrite false)) := by
  cases ts with
  | nil => trivial
  | cons t₀ others =>
    obtain ⟨own, backed⟩ := sharing
    rw [List.mapIdx_cons]
    refine ⟨fun x p hp => own x p ((pageAt_commit n t₀ _ x).symm.trans hp), ?_⟩
    intro t ht x p hp
    obtain ⟨device, hdevice, rfl⟩ := List.mem_mapIdx.mp ht
    rw [pageAt_commit] at hp
    refine (backed _ (List.getElem_mem hdevice) x p hp).mono fun _ p₀ hp₀ => ?_
    rw [pageAt_commit]
    exact hp₀

end Steps

section Runs
variable {cfg : Config} {s s' : Memory}

theorem sharing_step {o : Op}
    (wf : ∀ t ∈ s.ppgtts, Wf cfg.ppgtt.getNumLevels t ∧ LastTables.Inhabited t)
    (free : FreePagesAligned s.allocator) (allowed : Allowed cfg s o) (h : step cfg s o = some s')
    (sharing : Sharing cfg.ppgtt.getNumLevels s.ppgtts) :
    Sharing cfg.ppgtt.getNumLevels s'.ppgtts := by
  have hwf : ∀ t ∈ s.ppgtts, Wf cfg.ppgtt.getNumLevels t := fun t ht => (wf t ht).1
  cases o with
  | writeMemory2 params =>
    obtain ⟨r, hr, rfl⟩ := Option.map_eq_some_iff.mp h
    exact sharing_write hwf free allowed hr sharing
  | reservePhysicalMemory params => exact absurd allowed id
  | mapGpuVa2 phys params => exact absurd allowed id
  | freeMemory g size =>
    obtain ⟨r, hr, rfl⟩ := Option.map_eq_some_iff.mp h
    exact sharing_free wf allowed hr sharing
  | contextWriteMemory2 device params =>
    obtain ⟨r, hr, rfl⟩ := Option.map_eq_some_iff.mp h
    exact sharing_contextWrite hwf free hr sharing
  | contextFreeMemory device g size =>
    obtain ⟨r, hr, rfl⟩ := Option.map_eq_some_iff.mp h
    exact sharing_contextFree wf allowed hr sharing
  | commit pendingNodes =>
    simp only [step, Option.some.injEq] at h
    subst h
    exact sharing_commit _ pendingNodes sharing

/-- The client's operations aside, every operation is allowed where only ownership is at stake. -/
theorem Allowed.owned {o : Op} (h : Allowed cfg s o) :
    OwnedRuns.Allowed cfg s o ∧ ∀ params, o ≠ .reservePhysicalMemory params := by
  cases o with
  | reservePhysicalMemory params => exact absurd h id
  | mapGpuVa2 phys params => exact absurd h id
  | writeMemory2 params => exact ⟨trivial, by simp⟩
  | freeMemory g size => exact ⟨trivial, by simp⟩
  | contextWriteMemory2 device params => exact ⟨trivial, by simp⟩
  | contextFreeMemory device g size => exact ⟨trivial, by simp⟩
  | commit pendingNodes => exact ⟨trivial, by simp⟩

variable {memoryBanks : List Nat} {numberOfAllocators singleAllocatorSize : Nat}
  {localMemorySupport : Bool}

theorem pagesAligned_start : PagesAligned
    (start memoryBanks numberOfAllocators singleAllocatorSize localMemorySupport).allocator := by
  apply (newPpgtts_keeps memoryBanks _).aligned
  rintro (_ | i) e he
  · cases he
  · cases he

theorem sharing_start : Sharing cfg.ppgtt.getNumLevels
    (start memoryBanks numberOfAllocators singleAllocatorSize localMemorySupport).ppgtts := by
  have empty : ∀ t ∈ (start memoryBanks numberOfAllocators singleAllocatorSize
      localMemorySupport).ppgtts, ∀ x, pageAt cfg.ppgtt.getNumLevels t x = none := by
    intro t ht x
    obtain ⟨a, memoryBank, rfl⟩ := newPpgtts_new ht
    rw [pageAt, leafAt, regionAt_newTables (getNumLevels_ge cfg.ppgtt)]
    rfl
  generalize (start memoryBanks numberOfAllocators singleAllocatorSize
    localMemorySupport).ppgtts = ts at empty
  cases ts with
  | nil => trivial
  | cons t₀ others =>
    obtain ⟨first, rest⟩ := List.forall_mem_cons.mp empty
    constructor
    · intro x p hp
      rw [first] at hp
      cases hp
    · intro t ht x p hp
      rw [rest t ht] at hp
      cases hp

theorem reach_tables_shape (reached : Reach (step cfg) (Allowed cfg)
    (start memoryBanks numberOfAllocators singleAllocatorSize localMemorySupport) s) :
    ∀ t ∈ s.ppgtts, Wf cfg.ppgtt.getNumLevels t ∧ LastTables.Inhabited t :=
  reach_tables (P := fun t => Wf cfg.ppgtt.getNumLevels t ∧ LastTables.Inhabited t)
    (fun _ _ _ shape h => ⟨TableRuns.step_wf shape.1 h, step_inhabited shape.1 shape.2 h⟩)
    (fun a bank => ⟨newTables_wf cfg.ppgtt a bank, newTables_inhabited a bank⟩) reached

theorem reach_sharing (reached : Reach (step cfg) (Allowed cfg)
    (start memoryBanks numberOfAllocators singleAllocatorSize localMemorySupport) s) :
    PagesAligned s.allocator ∧ Sharing cfg.ppgtt.getNumLevels s.ppgtts := by
  induction reached with
  | start => exact ⟨pagesAligned_start, sharing_start⟩
  | step reached allowed done ih =>
    obtain ⟨aligned, sharing⟩ := ih
    have wf := reach_tables_shape reached
    obtain ⟨owned, noClient⟩ := allowed.owned
    have keeps := (step_keeps (fun t ht => (wf t ht).1) owned noClient done).1
    refine ⟨keeps.aligned aligned, sharing_step wf ?_ allowed done sharing⟩
    exact fun slot e he => aligned slot e (List.mem_append_right _ he)

end Runs

/-! ### Physical memory -/

section Banks
variable {base : Bank → Nat} {a : PhysicalAddressAllocatorSimple}

/-- No bank of local memory has grown into a later one that is in use. -/
def BanksApart (base : Bank → Nat) (a : PhysicalAddressAllocatorSimple) : Prop :=
  ∀ i j, i < j → blocks (a.allocators j) ≠ [] → (a.allocators i).highWater ≤ base (some j)

/-- Blocks of two banks of local memory. -/
theorem apart_of_banks (sound : BanksSound base a) (banks : BanksApart base a) {i j : Nat}
    (hij : i < j) {e e' : Nat × Nat} (he : e ∈ blocks (a.allocators i))
    (he' : e' ∈ blocks (a.allocators j)) : Apart e e' := by
  have hend := ((sound (some i)).bounds e he).2
  have hwater := (sound (some i)).cursor.2
  have hstart := ((sound (some j)).bounds e' he').1
  have hbanks := banks i j hij (List.ne_nil_of_mem he')
  simp only [PhysicalAddressAllocatorSimple.get] at hend hwater
  left
  omega

/-- Blocks of local memory, or of system memory. -/
theorem apart_of_ne (sound : BanksSound base a) (banks : BanksApart base a)
    {memoryBank memoryBank' : Nat} (same : (memoryBank != 0) = (memoryBank' != 0))
    {e e' : Nat × Nat} (he : e ∈ blocks (a.get (a.slotOf memoryBank)))
    (he' : e' ∈ blocks (a.get (a.slotOf memoryBank')))
    (hne : (a.slotOf memoryBank, e) ≠ (a.slotOf memoryBank', e')) : Apart e e' := by
  by_cases hslot : a.slotOf memoryBank = a.slotOf memoryBank'
  · rw [← hslot] at he' hne
    exact (sound _).apart_of_ne he he' fun heq => hne (by rw [heq])
  · by_cases hmain : memoryBank = 0 ∨ a.numberOfAllocators = 0
    · have hmain' : memoryBank' = 0 ∨ a.numberOfAllocators = 0 := by
        rcases hmain with rfl | hzero
        · exact Or.inl (by simpa using same.symm)
        · exact Or.inr hzero
      refine absurd ?_ hslot
      rw [PhysicalAddressAllocatorSimple.slotOf, PhysicalAddressAllocatorSimple.slotOf, if_pos hmain,
        if_pos hmain']
    · have hlocal' : ¬ (memoryBank' = 0 ∨ a.numberOfAllocators = 0) := by
        rintro (rfl | hzero)
        · exact hmain (Or.inl (by simpa using same))
        · exact hmain (Or.inr hzero)
      rw [PhysicalAddressAllocatorSimple.slotOf, if_neg hmain] at he hslot
      rw [PhysicalAddressAllocatorSimple.slotOf, if_neg hlocal'] at he' hslot
      rcases Nat.lt_or_gt_of_ne fun heq => hslot (congrArg some heq) with hlt | hgt
      · exact apart_of_banks sound banks hlt he he'
      · exact (apart_of_banks sound banks hgt he' he).symm

end Banks

section Owners
variable {n : Nat} {ts : List Nodes} {t : Nodes} {x : Nat} {p : MappedPage} {base : Bank → Nat}
  {reservations : List Block} {a : PhysicalAddressAllocatorSimple}

/-- The page's memory is that of a page with a block of its own at the same address. -/
theorem exists_owner (sharing : Sharing n ts) (ht : t ∈ ts) (hp : pageAt n t x = some p) :
    ∃ (device : Nat) (t' : Nodes), ts[device]? = some t' ∧ ∃ p', pageAt n t' x = some p' ∧ p'.Owns ∧
      p'.physicalAddress = p.physicalAddress ∧ p'.size = p.size ∧
      p'.isLocalMemory = p.isLocalMemory := by
  cases ts with
  | nil => cases ht
  | cons t₀ others =>
    obtain ⟨own, backed⟩ := sharing
    have itself : p.Owns → ∃ (device : Nat) (t' : Nodes), (t₀ :: others)[device]? = some t' ∧
        ∃ p', pageAt n t' x = some p' ∧ p'.Owns ∧ p'.physicalAddress = p.physicalAddress ∧
          p'.size = p.size ∧ p'.isLocalMemory = p.isLocalMemory := by
      intro owns
      obtain ⟨device, hdevice⟩ := List.mem_iff_getElem?.mp ht
      exact ⟨device, t, hdevice, p, hp, owns, rfl, rfl, rfl⟩
    rcases List.mem_cons.mp ht with rfl | hother
    · exact itself (own x p hp)
    · rcases backed t hother x p hp with owns | ⟨p₀, hp₀, clone⟩
      · exact itself owns
      · exact ⟨0, t₀, rfl, p₀, hp₀, own x p₀ hp₀, clone.address.symm, clone.size.symm,
          clone.isLocal.symm⟩

/-- A page with a block of its own is the block's holder. -/
theorem holds_of_page (owned : Owned base (tablesOf ts) reservations a) {device : Nat}
    (ht : ts[device]? = some t) (hp : pageAt n t x = some p) (owns : p.Owns) :
    ∃ q, pageSlot n t x = some q ∧ holds (tablesOf ts) reservations a (.node device q) =
      some (a.slotOf p.memoryBank, p.physicalAddress, p.size) := by
  obtain ⟨leaf, hleaf, rfl⟩ := Option.map_eq_some_iff.mp hp
  obtain ⟨m, hm, hslot⟩ := Option.bind_eq_some_iff.mp hleaf
  obtain ⟨b, hb, hsize, _⟩ := owns
  have htable : tablesOf ts device (leafSlot n m.kind x) = some leaf := by
    simp only [tablesOf, ht, Option.getD_some, hslot]
  obtain ⟨hbank, haddress⟩ := owned.own device _ leaf b htable hb
  refine ⟨_, pageSlot_of_region hm, ?_⟩
  rw [holds, block, htable, Option.bind_some]
  have hb' : leaf.allocator = some b := hb
  rw [hb', Option.map_some, key, hsize, ← hbank, ← haddress]
  rfl

theorem page_of_pageSlot (wf : Wf n t) (hn : 4 ≤ n) {x' : Nat}
    (hp : pageAt n t x = some p) (h : pageSlot n t x = pageSlot n t x') :
    x % addressSpace n / p.size = x' % addressSpace n / p.size := by
  obtain ⟨leaf, hleaf, rfl⟩ := Option.map_eq_some_iff.mp hp
  obtain ⟨m, hm, hslot⟩ := Option.bind_eq_some_iff.mp hleaf
  rw [pageSlot_of_region hm, eq_comm] at h
  obtain ⟨m', hm', heq⟩ := Option.map_eq_some_iff.mp h
  have hk := isRegion_of_regionAt wf hn hm
  have hpath := slotPath_of_leafSlot hk (isRegion_of_regionAt wf hn hm') heq.symm
  obtain rfl : m = m' := by
    simp only [regionAt, hpath] at hm
    exact Option.some.inj (hm.symm.trans hm')
  simp only [pageOf, pageSizeAt_of_region hm]
  exact pageNumber_of_slot hn hk heq.symm

end Owners

section Runs
variable {cfg : Config} {s : Memory} {base : Bank → Nat}

theorem noAliasing_of_sharing (wf : ∀ t ∈ s.ppgtts, Wf cfg.ppgtt.getNumLevels t)
    (owned : Owned base (tablesOf s.ppgtts) s.reservations s.allocator)
    (banks : BanksApart base s.allocator) (sharing : Sharing cfg.ppgtt.getNumLevels s.ppgtts) :
    NoAliasing cfg.ppgtt.getNumLevels s := by
  have used : ∀ {holder memoryBank e}, holds (tablesOf s.ppgtts) s.reservations s.allocator holder =
      some (s.allocator.slotOf memoryBank, e) →
      e ∈ (s.allocator.get (s.allocator.slotOf memoryBank)).usedAllocationsMap :=
    fun hk => owned.ledger.held_used hk
  constructor
  · intro t ht x p hp memoryBank hlocal e he
    obtain ⟨device, t₁, ht₁, p₁, hp₁, owns, haddress, hsize, hsame⟩ := exists_owner sharing ht hp
    obtain ⟨q, _, hk⟩ := holds_of_page owned ht₁ hp₁ owns
    rw [← haddress, ← hsize]
    refine apart_of_ne owned.banks banks (hsame.trans hlocal.symm)
      (List.mem_append_left _ (used hk)) (List.mem_append_right _ he) fun heq => ?_
    rw [Prod.mk.injEq] at heq
    have hused := used hk
    rw [heq.1, heq.2] at hused
    exact (owned.banks _).not_free_of_used hused he
  · intro t ht t' ht' x x' p p' hp hp' hlocal hoverlap
    obtain ⟨device, t₁, ht₁, p₁, hp₁, owns, haddress, hsize, hsame⟩ := exists_owner sharing ht hp
    obtain ⟨device', t₁', ht₁', p₁', hp₁', owns', haddress', hsize', hsame'⟩ :=
      exists_owner sharing ht' hp'
    obtain ⟨q, hq, hk⟩ := holds_of_page owned ht₁ hp₁ owns
    obtain ⟨q', hq', hk'⟩ := holds_of_page owned ht₁' hp₁' owns'
    rw [← haddress, ← hsize, ← haddress', ← hsize'] at hoverlap
    -- the owners have one block, so they are one node
    have hkeys : (s.allocator.slotOf p₁.memoryBank, p₁.physicalAddress, p₁.size) =
        (s.allocator.slotOf p₁'.memoryBank, p₁'.physicalAddress, p₁'.size) := by
      by_contra hne
      exact hoverlap (apart_of_ne owned.banks banks (hsame.trans (hlocal.trans hsame'.symm))
        (List.mem_append_left _ (used hk)) (List.mem_append_left _ (used hk')) hne)
    rw [← hkeys] at hk'
    have hholder := owned.ledger.injective hk hk'
    simp only [Holder.node.injEq] at hholder
    obtain ⟨rfl, rfl⟩ := hholder
    obtain rfl : t₁ = t₁' := Option.some.inj (ht₁.symm.trans ht₁')
    simp only [Prod.mk.injEq] at hkeys
    rw [← hsize, ← hsize']
    refine ⟨hkeys.2.2, page_of_pageSlot (wf t₁ (List.mem_of_getElem? ht₁))
      (getNumLevels_ge cfg.ppgtt) hp₁ (hq.trans hq'.symm)⟩

/-- In every run whose steps meet the condition, no page maps a free block and pages overlap only
at one virtual address, unless a bank has outgrown its addresses. -/
theorem run_noAliasing (cfg : Config) (memoryBanks : List Nat)
    (numberOfAllocators singleAllocatorSize : Nat) (localMemorySupport : Bool) (s : Memory)
    (reached : Reach (step cfg) (Allowed cfg)
      (start memoryBanks numberOfAllocators singleAllocatorSize localMemorySupport) s)
    (room : Unexhausted s.allocator)
    (banks : BanksApart (firstAddress singleAllocatorSize localMemorySupport) s.allocator) :
    NoAliasing cfg.ppgtt.getNumLevels s := by
  have owned := reach_owned (reached.mono fun _ _ allowed => allowed.owned.1) room
  exact noAliasing_of_sharing (reach_tables_wf reached) owned banks (reach_sharing reached).2

end Runs

theorem clonable_newTables (cfg : Config) (params : AllocationParams)
    (a a' : PhysicalAddressAllocatorSimple) (memoryBank memoryBank' : Nat) :
    Clonable cfg params (newTables a memoryBank).nodes (newTables a' memoryBank').nodes := by
  have hn := getNumLevels_ge cfg.ppgtt
  intro x _ _
  refine ⟨by simp only [pageKindAt, regionAt_newTables hn], fun p₀ hp₀ => ?_⟩
  rw [pageAt, leafAt, regionAt_newTables hn] at hp₀
  cases hp₀

/-- The second device has two clones and a page of its own, and frees a clone. -/
def cloneAndFree : List Op :=
  [.writeMemory2 (systemRequest 0x1000 0x2000), .contextWriteMemory2 1 (systemRequest 0x8000 0x1000),
    .contextFreeMemory 1 0x1000 0x1000]

theorem cloneAndFree_allowed :
    AllAlong (step fourLevel) (Allowed fourLevel) (start [0, 0] 2 0x100000000 false) cloneAndFree := by
  refine ⟨fun t ht => ?_, fun _ _ => ⟨trivial, fun _ _ => ⟨fun hdevice => ?_, fun _ _ => trivial⟩⟩⟩
  · obtain rfl := List.mem_singleton.mp ht
    exact clonable_newTables _ _ _ _ _ _
  · cases hdevice

set_option maxRecDepth 10000 in
theorem run_noAliasing_cloneAndFree : ∃ s, runAll (step fourLevel)
    (start [0, 0] 2 0x100000000 false) cloneAndFree = some s ∧ NoAliasing 4 s := by
  have hmain : ((runAll (step fourLevel) (start [0, 0] 2 0x100000000 false) cloneAndFree).map fun s =>
      s.allocator.mainAllocator.highWater) = some 0x8b000 := by
    decide +kernel
  have hbanks : ∀ i, (runAll (step fourLevel) (start [0, 0] 2 0x100000000 false) cloneAndFree).map
      (fun s => s.allocator.allocators i) =
        some ((start [0, 0] 2 0x100000000 false).allocator.allocators i) := fun i => rfl
  obtain ⟨s, hs, hwater⟩ := Option.map_eq_some_iff.mp hmain
  have banks : ∀ i, s.allocator.allocators i =
      (start [0, 0] 2 0x100000000 false).allocator.allocators i := by
    intro i
    have hi := hbanks i
    rw [hs, Option.map_some, Option.some.injEq] at hi
    exact hi
  refine ⟨s, hs, run_noAliasing fourLevel [0, 0] 2 0x100000000 false s
    (Reach.runAll cloneAndFree .start cloneAndFree_allowed hs) (unexhausted_of_main ?_ banks) ?_⟩
  · rw [hwater]
    decide
  · intro i j _ hused
    rw [banks] at hused
    exact absurd rfl hused

/-- Two neighbouring pages are freed together; the first device has another page below them. -/
def freeAcrossTables : List Op :=
  [.writeMemory2 (systemRequest 0x1fe000 0x1000), .writeMemory2 (systemRequest 0x200000 0x1000),
    .contextWriteMemory2 0 (systemRequest 0x1000 0x1000), .freeMemory 0x1fe000 0x3000]

/-- The second device's walk ends at the table that lost its only page, before the second clone. -/
theorem not_run_noAliasing : ¬ ∀ s, Reach (step fourLevel) WithoutClient
    (start [0, 0] 2 0x100000000 false) s → NoAliasing 4 s := by
  intro hall
  have hrun : ((runAll (step fourLevel) (start [0, 0] 2 0x100000000 false) freeAcrossTables).map
      fun s => ((s.ppgtts[1]?).bind fun t => (pageAt 4 t 0x200000).map fun p =>
        (p.isLocalMemory, p.physicalAddress, p.size),
        decide ((0x8a000, 0x1000) ∈ s.allocator.mainAllocator.freeAllocationsMap))) =
        some (some (false, 0x8a000, 0x1000), true) := by
    decide +kernel
  obtain ⟨s, hs, hfacts⟩ := Option.map_eq_some_iff.mp hrun
  rw [Prod.mk.injEq] at hfacts
  obtain ⟨hpage, hfree⟩ := hfacts
  obtain ⟨t, ht, hpage⟩ := Option.bind_eq_some_iff.mp hpage
  obtain ⟨p, hp, hfacts⟩ := Option.map_eq_some_iff.mp hpage
  simp only [Prod.mk.injEq] at hfacts
  obtain ⟨hlocal, haddress, hsize⟩ := hfacts
  have allowed : AllAlong (step fourLevel) WithoutClient (start [0, 0] 2 0x100000000 false)
      freeAcrossTables :=
    ⟨trivial, fun _ _ => ⟨trivial, fun _ _ => ⟨trivial, fun _ _ => ⟨trivial, fun _ _ => trivial⟩⟩⟩⟩
  have apart := (hall s (Reach.runAll freeAcrossTables .start allowed hs)).notFree t
    (List.mem_of_getElem? ht) 0x200000 p hp 0 hlocal.symm (0x8a000, 0x1000) (of_decide_eq_true hfree)
  rw [haddress, hsize] at apart
  simp [Apart] at apart

end PageAliasing
