import Aubstream.WalkLeaves
import Aubstream.WalkEntries
import Aubstream.AlignedBlocks
import Aubstream.ManagerRuns

/-!
# Agreement of the devices' page tables

The first table's walk records where each page of a write lies, and the clone
walks of the other tables read the records one for one. They agree afterwards if
they agreed about the write's pages before.
-/

namespace TableAgreement
open EntryBits PathTree PhysicalAllocator PageNodes PageWalker TreeShape WalkPhases Placement
  Translation PageEffect PageVisits MapCursor MapFrame ReserveFrame WalkLeaves WalkEntries
  AllocatorBlocks ManagerRuns Transitions
open TableRuns hiding Op step

/-! ### Alignment of new pages -/

/-- No free block of a page's size lies across two pages. -/
def FreePagesAligned (a : PhysicalAddressAllocatorSimple) : Prop :=
  ∀ slot, ∀ e ∈ (a.get slot).freeAllocationsMap, IsPageSize e.2 → e.2 ∣ e.1

theorem freePagesAligned_reserve (a : PhysicalAddressAllocatorSimple) (memoryBank size : Nat)
    (h : FreePagesAligned a) : FreePagesAligned (reservePhysicalMemory a memoryBank size size).2 := by
  intro slot e he
  change e ∈ ((a.reserve memoryBank size size).2.get slot).freeAllocationsMap at he
  unfold PhysicalAddressAllocatorSimple.reserve at he
  by_cases hslot : slot = a.slotOf memoryBank
  · subst slot
    rw [get_set] at he
    unfold SimpleAllocator.alignedAlloc at he
    split at he
    · exact h _ e (List.mem_of_mem_erase he)
    · exact h _ e he
  · rw [get_set_of_ne hslot] at he
    exact h slot e he

/-- A new page starts at a multiple of its size. -/
theorem constructNode_aligned {a : PhysicalAddressAllocatorSimple} (h : FreePagesAligned a)
    (kind : NodeKind) {size : Nat} (hsize : IsPageSize size) (memoryBank : Nat)
    (params : AdditionalParams) :
    size ∣ (constructNode a kind size memoryBank params).1.physicalAddress := by
  obtain ⟨k, hk, hk64, rfl⟩ := isPageSize_pow hsize
  have hmax : max (2 ^ k) 4096 = 2 ^ k := by rw [AlignedBlocks.max_4096, Nat.max_eq_left hk]
  change 2 ^ k ∣ (a.reserve memoryBank (max (2 ^ k) 4096) (max (2 ^ k) 4096)).1
  rw [hmax]
  unfold PhysicalAddressAllocatorSimple.reserve SimpleAllocator.alignedAlloc
  simp only
  split
  · rename_i e hf
    have hfound : e.2 = 2 ^ k := by simpa using List.find?_some hf
    rw [← hfound] at hsize ⊢
    exact h _ e (List.mem_of_find?_eq_some hf) hsize
  · rw [hmax]
    exact AlignedBlocks.alignUp_dvd hk64

/-! ### The records of the first table -/

/-- Bytes of a request up to `stop` that lie in the page of `b`. -/
def span (kinds : Nat → NodeKind) (stop b : Nat) : Nat :=
  min (stop - b) ((kinds b).getPageSize - b % (kinds b).getPageSize)

/-- A record as a clone walk reads it. -/
structure Describes (n : Nat) (kinds : Nat → NodeKind) (t : Nodes) (stop : Nat) (isLocal : Bool)
    (b : Nat) (e : PageInfo) : Prop where
  size : e.size = span kinds stop b
  bank : (e.memoryBank != 0) = isLocal
  leaf : ∃ leaf, t (slotFor n kinds b) = some leaf ∧
    e.physicalAddress = leaf.physicalAddress + b % (kinds b).getPageSize

/-- A page that a Reserve walk has made lies in a block of its own. -/
def NewPage (n : Nat) (kinds : Nat → NodeKind) (isLocal : Bool) (q : Path) (leaf : PageNode) : Prop :=
  leaf.isLocalMemory = isLocal ∧ ∀ b, q = slotFor n kinds b →
    (kinds b).getPageSize ∣ leaf.physicalAddress ∧
      ∃ owned, leaf.allocator = some owned ∧ owned.size = (kinds b).getPageSize

structure RecordRun (c : WalkContext) (t : Nodes) (isLocal : Bool) (g stop a size : Nat)
    (s : Layout PhysicalAddressAllocatorSimple) : Prop where
  make : MakeRun c t (NewPage c.ppgtt.getNumLevels (lastTable c t) isLocal) g stop a size s
  free : FreePagesAligned s.allocator
  records : Chain (Describes c.ppgtt.getNumLevels (lastTable c t) s.nodes stop isLocal) g s.entries a

section Walks
variable {c : WalkContext} {t : Nodes} {page : PageRequest} {g stop size index : Nat} {isLocal : Bool}
  {s : Layout PhysicalAddressAllocatorSimple}

theorem recordRun_step (wf₀ : Wf c.ppgtt.getNumLevels t) (wf : Wf c.ppgtt.getNumLevels s.nodes)
    (hmode : c.mode = .Reserve) (hlocal : ∀ x, (c.bankHelper.getMemoryBank x != 0) = isLocal)
    (hsize : 0 < size) (hps : page.size = size)
    (hpage : pageRequest c page.gfxAddress size index s.physicalAddress = some page)
    (run : RecordRun c t isLocal g stop page.gfxAddress size s) :
    RecordRun c t isLocal g stop (page.gfxAddress + (placePage c page s).2)
      (size - (placePage c page s).2) (placePage c page s).1 := by
  have hk := pageKinds_lastTable wf₀
  have hmode' : c.mode ≠ .Expect := by
    rw [hmode]
    simp
  obtain ⟨hga, hstop⟩ := run.make.add.bounds
  obtain ⟨hclone, hbank⟩ : page.clonePageInfo = none ∧ (page.pageMemoryBank != 0) = isLocal := by
    rw [pageRequest, run.make.add.unsupplied, hmode] at hpage
    simp only [Option.isSome_none, Bool.false_eq_true, if_false, reduceCtorEq, Option.some.injEq]
      at hpage
    rw [← hpage]
    exact ⟨rfl, hlocal _⟩
  have makes : NewPage c.ppgtt.getNumLevels (lastTable c t) isLocal
      (slotFor c.ppgtt.getNumLevels (lastTable c t) page.gfxAddress)
      (newLeaf c page (lastTable c t page.gfxAddress).getPageSize none
        (placeTables c (lastTable c t page.gfxAddress) page.gfxAddress
          (c.ppgtt.getNumLevels - 1) s).allocator).1 := by
    simp only [newLeaf, hclone]
    refine ⟨hbank, fun b hb => ?_⟩
    rw [← (region_of_slot wf₀ hb).2]
    have hpageSize := isPageSize_of_region (hk.region page.gfxAddress)
    refine ⟨constructNode_aligned ?_ _ hpageSize _ _, _, rfl, ?_⟩
    · exact placeTables_allocator freePagesAligned_reserve _ _ run.free
    · rcases hpageSize with h | h | h <;> rw [h] <;> rfl
  obtain ⟨hmoved, make⟩ := makeRun_step wf₀ wf hmode' hsize hps (fun _ => makes) run.make
  refine ⟨make, placePage_allocator freePagesAligned_reserve run.free, ?_⟩
  rcases placePage_visited page wf (fun h => absurd h hmode') with ⟨hexpect, _⟩ | ⟨visited, _⟩
  · exact absurd hexpect hmode'
  · obtain ⟨leaf, hleaf, hentries⟩ := visited.leaf
    rw [run.make.slot] at hleaf
    rw [run.make.add.kinds] at hentries
    have earlier : Chain (Describes c.ppgtt.getNumLevels (lastTable c t)
        (placePage c page s).1.nodes stop isLocal) g s.entries page.gfxAddress := by
      refine run.records.mono fun b e hb => ?_
      obtain ⟨x, hx, hfacts⟩ := hb.leaf
      exact ⟨hb.size, hb.bank, x, visited.added run.make.add.unsupplied _ x hx, hfacts⟩
    have hspan : (placePage c page s).2 = span (lastTable c t) stop page.gfxAddress := by
      rw [hmoved, span, ← hstop, Nat.add_sub_cancel_left]
    rw [hentries, hmoved, ← hps]
    refine earlier.append ⟨?_, hbank, leaf, hleaf, rfl⟩
    rw [← hspan, hmoved, ← hps]
    rfl

theorem recordRun_walk {a : PhysicalAddressAllocatorSimple}
    {w : WalkState PhysicalAddressAllocatorSimple} (wf : Wf c.ppgtt.getNumLevels t)
    (hmode : c.mode = .Reserve) (hlocal : ∀ x, (c.bankHelper.getMemoryBank x != 0) = isLocal)
    (free : FreePagesAligned a) (h : walkPages c size g size 0 (.start t a none) = some w) :
    Wf c.ppgtt.getNumLevels w.nodes ∧
      RecordRun c (layout t) isLocal g (g + size) (g + size) 0 (layoutOf w) := by
  have hstart : RecordRun c (layout t) isLocal g (g + size) g size (layoutOf (.start t a none)) := by
    refine ⟨⟨addRun_start c t a g size, Or.inr (Or.inl rfl), ?_⟩, free, rfl⟩
    intro q leaf hq _ hnone
    exact absurd (hq.symm.trans hnone) (by simp)
  obtain ⟨wf', g', _, run⟩ := walkPages_places
    (J := fun a' size' _ s => RecordRun c (layout t) isLocal g (g + size) a' size' s)
    (by rw [hmode]; simp)
    (fun size' index s page wf' hpos hpage hps run =>
      recordRun_step (wf_layout.mpr wf) wf' hmode hlocal hpos hps hpage run)
    size g size 0 (.start t a none) w (Nat.le_refl _) wf h hstart
  obtain rfl : g' = g + size := run.make.add.bounds.2
  exact ⟨wf', run⟩

/-! ### Clone walks -/

/-- A page that a clone walk has made owns nothing and is at the address of the first table's. -/
def Copy (n : Nat) (kinds : Nat → NodeKind) (t₀ : Nodes) (isLocal : Bool) (q : Path)
    (leaf : PageNode) : Prop :=
  leaf.allocator = none ∧ ∀ b leaf₀, q = slotFor n kinds b → t₀ q = some leaf₀ →
    (kinds b).getPageSize ∣ leaf₀.physicalAddress →
    leaf.physicalAddress = leaf₀.physicalAddress ∧ leaf.isLocalMemory = isLocal

/-- Between two pages of a clone walk over `t` the records up to here are used up. -/
structure CloneRun (c : WalkContext) (t t₀ : Nodes) (isLocal : Bool) (g stop a size index : Nat)
    (s : Layout PhysicalAddressAllocatorSimple) : Prop where
  make : MakeRun c t (Copy c.ppgtt.getNumLevels (lastTable c t) t₀ isLocal) g stop a size s
  position : startOf g c.pageInfos index = a

theorem startOf_succ {entries : List PageInfo} {e : PageInfo} (h : entries[index]? = some e) :
    startOf g entries (index + 1) = startOf g entries index + e.size := by
  simp [startOf, coveredSize, List.take_add_one, h, Nat.add_assoc]

/-- Records reach to the end of the request. -/
theorem exists_record {good : Nat → PageInfo → Prop} {entries : List PageInfo}
    (chain : Chain good g entries stop) (h : startOf g entries index < stop) :
    ∃ e, entries[index]? = some e := by
  by_contra hnone
  have hlen : entries.length ≤ index := by
    rw [← List.getElem?_eq_none_iff]
    cases he : entries[index]? with
    | none => rfl
    | some e => exact absurd ⟨e, he⟩ hnone
  rw [startOf, List.take_of_length_le hlen, ← chain.stop_eq] at h
  exact Nat.lt_irrefl _ h

variable {t₀ : Nodes} {kinds : Nat → NodeKind}

theorem cloneRun_request (hmode : c.mode = .Clone)
    (records : Chain (Describes c.ppgtt.getNumLevels kinds t₀ stop isLocal) g c.pageInfos stop)
    {a : Nat} (hsize : 0 < size) (run : CloneRun c t t₀ isLocal g stop a size index s) :
    ∃ page, pageRequest c a size index s.physicalAddress = some page := by
  have hbefore : startOf g c.pageInfos index < stop := by
    have hbounds := run.make.add.bounds
    rw [run.position]
    omega
  obtain ⟨e, he⟩ := exists_record records hbefore
  simp only [pageRequest, hmode, if_true, he, Option.map_some, Option.some.injEq, exists_eq']

theorem cloneRun_step (wf₀ : Wf c.ppgtt.getNumLevels t) (wf : Wf c.ppgtt.getNumLevels s.nodes)
    (hmode : c.mode = .Clone)
    (records : Chain (Describes c.ppgtt.getNumLevels kinds t₀ stop isLocal) g c.pageInfos stop)
    (same : ∀ x, g ≤ x → x < stop → lastTable c t x = kinds x)
    (hsize : 0 < size) (hps : page.size = size)
    (hpage : pageRequest c page.gfxAddress size index s.physicalAddress = some page)
    (run : CloneRun c t t₀ isLocal g stop page.gfxAddress size index s) :
    CloneRun c t t₀ isLocal g stop (page.gfxAddress + (placePage c page s).2)
      (size - (placePage c page s).2) (index + 1) (placePage c page s).1 := by
  have hk := pageKinds_lastTable wf₀
  obtain ⟨hga, hstop⟩ := run.make.add.bounds
  obtain ⟨info, hinfo, hclone⟩ : ∃ info, c.pageInfos[index]? = some info ∧
      page.clonePageInfo = some info := by
    rw [pageRequest, if_pos hmode] at hpage
    obtain ⟨info, hinfo, hrequest⟩ := Option.map_eq_some_iff.mp hpage
    refine ⟨info, hinfo, ?_⟩
    rw [← hrequest]
  obtain ⟨hcovers, hbank, x, hx, hphys⟩ := run.position ▸ records.get hinfo
  have hkind := same page.gfxAddress hga (by omega)
  rw [slotFor, ← hkind] at hx
  rw [← hkind] at hphys
  have makes : Copy c.ppgtt.getNumLevels (lastTable c t) t₀ isLocal
      (slotFor c.ppgtt.getNumLevels (lastTable c t) page.gfxAddress)
      (newLeaf c page (lastTable c t page.gfxAddress).getPageSize none
        (placeTables c (lastTable c t page.gfxAddress) page.gfxAddress
          (c.ppgtt.getNumLevels - 1) s).allocator).1 := by
    simp only [newLeaf, hclone]
    refine ⟨rfl, fun b leaf₀ hb hleaf₀ hdvd => ⟨?_, hbank⟩⟩
    obtain rfl : x = leaf₀ := Option.some.inj (hx.symm.trans hleaf₀)
    rw [← (region_of_slot wf₀ hb).2] at hdvd
    simp only [foreignNode, hphys]
    have hmod := Nat.mod_lt page.gfxAddress (hk.region page.gfxAddress).getPageSize_pos
    rw [Nat.add_mod, Nat.mod_eq_zero_of_dvd hdvd, Nat.zero_add, Nat.mod_mod, Nat.mod_mod,
      Nat.add_sub_cancel]
  obtain ⟨hmoved, make⟩ := makeRun_step wf₀ wf (by rw [hmode]; simp) hsize hps (fun _ => makes)
    run.make
  refine ⟨make, ?_⟩
  rw [startOf_succ hinfo, run.position, hcovers, hmoved, span, ← hkind, ← hstop,
    Nat.add_sub_cancel_left]

/-- A clone walk whose pages are those of the records ends, and makes copies. -/
theorem cloneRun_walk (a : PhysicalAddressAllocatorSimple) (wf : Wf c.ppgtt.getNumLevels t)
    (hmode : c.mode = .Clone)
    (records : Chain (Describes c.ppgtt.getNumLevels kinds t₀ (g + size) isLocal) g c.pageInfos
      (g + size))
    (same : ∀ x, g ≤ x → x < g + size → lastTable c (layout t) x = kinds x) :
    ∃ w, walkPages c size g size 0 (.start t a none) = some w ∧ Wf c.ppgtt.getNumLevels w.nodes ∧
      MakeRun c (layout t) (Copy c.ppgtt.getNumLevels (lastTable c (layout t)) t₀ isLocal) g
        (g + size) (g + size) 0 (layoutOf w) := by
  have hmode' : c.mode ≠ .Expect := by
    rw [hmode]
    simp
  have hstart : CloneRun c (layout t) t₀ isLocal g (g + size) g size 0
      (layoutOf (.start t a none)) := by
    refine ⟨⟨addRun_start c t a g size, Or.inr (Or.inl rfl), ?_⟩, rfl⟩
    intro q leaf hq _ hnone
    exact absurd (hq.symm.trans hnone) (by simp)
  have visit := fun size' index (s : Layout PhysicalAddressAllocatorSimple) page
      (wf' : Wf c.ppgtt.getNumLevels s.nodes) hpos hpage hps run =>
    @cloneRun_step c (layout t) page g (g + size) size' index isLocal s t₀ kinds
      (wf_layout.mpr wf) wf' hmode records same hpos hps hpage run
  obtain ⟨w, hw⟩ := walkPages_completes
    (J := fun a' size' index s => CloneRun c (layout t) t₀ isLocal g (g + size) a' size' index s)
    hmode' (fun _ _ _ _ hpos run => cloneRun_request hmode records hpos run) visit size g size 0
    (.start t a none) wf hstart
  obtain ⟨wf', g', _, run⟩ := walkPages_places
    (J := fun a' size' index s => CloneRun c (layout t) t₀ isLocal g (g + size) a' size' index s)
    hmode' visit size g size 0 (.start t a none) w (Nat.le_refl _) wf hw hstart
  obtain rfl : g' = g + size := run.make.add.bounds.2
  exact ⟨w, hw, wf', run.make⟩

end Walks

/-! ### Two tables -/

/-- What two tables must have in common at an address of a write: the page size, and a page of the
other table is the first one's. A page that only the first one has is about to be cloned; the
clone takes its address down to a multiple of the page size and its memory from the write. -/
structure AgreesAt (n : Nat) (isLocal : Bool) (kind₀ kind : NodeKind) (t₀ t : Nodes) (x : Nat) :
    Prop where
  kind : kind = kind₀
  known : ∀ leaf, leafAt n t x = some leaf → ∃ leaf₀, leafAt n t₀ x = some leaf₀ ∧
    leaf₀.physicalAddress = leaf.physicalAddress ∧ leaf₀.isLocalMemory = leaf.isLocalMemory
  cloned : ∀ leaf₀, leafAt n t₀ x = some leaf₀ → leafAt n t x = none →
    kind₀.getPageSize ∣ leaf₀.physicalAddress ∧ leaf₀.isLocalMemory = isLocal

/-- Both tables map an address to the same place. -/
def SameTranslation (n : Nat) (t₀ t : Nodes) (x : Nat) : Prop :=
  ∃ p bank₀ bank, translateVa n t₀ x = some (p, bank₀) ∧ translateVa n t x = some (p, bank) ∧
    (bank₀ != 0) = (bank != 0)

theorem AgreesAt.of_layout {n : Nat} {isLocal : Bool} {kind₀ kind : NodeKind} {t₀ t : Nodes} {x : Nat}
    (h : AgreesAt n isLocal kind₀ kind t₀ t x) :
    AgreesAt n isLocal kind₀ kind (layout t₀) (layout t) x := by
  refine ⟨h.kind, ?_, ?_⟩
  · intro leaf hleaf
    rw [leafAt_layout] at hleaf
    obtain ⟨m, hm, rfl⟩ := Option.map_eq_some_iff.mp hleaf
    obtain ⟨leaf₀, hleaf₀, hfacts⟩ := h.known m hm
    exact ⟨core leaf₀, by rw [leafAt_layout, hleaf₀]; rfl, hfacts⟩
  · intro leaf₀ hleaf₀ hnone
    rw [leafAt_layout] at hleaf₀ hnone
    obtain ⟨m, hm, rfl⟩ := Option.map_eq_some_iff.mp hleaf₀
    exact h.cloned m hm (Option.map_eq_none_iff.mp hnone)

section Pairs
variable {c₀ c : WalkContext} {t₀ t : Nodes} {g stop : Nat} {isLocal : Bool}
  {s₀ s : Layout PhysicalAddressAllocatorSimple}

theorem translateVa_of_slot {x : Nat} {leaf : PageNode} (wf : Wf c.ppgtt.getNumLevels t)
    (h : t (slotFor c.ppgtt.getNumLevels (lastTable c t) x) = some leaf) :
    translateVa c.ppgtt.getNumLevels t x =
      some (leaf.physicalAddress + x % (lastTable c t x).getPageSize, leaf.memoryBank) := by
  rw [← leafAt_before wf] at h
  have hsize := pageSizeAt_before (c := c) (t := t) (a := x) (by rw [h]; simp)
  rw [translateVa, h, hsize]
  rfl

/-- The two runs are at their ends. -/
theorem sameTranslation_of_runs (hppgtt : c.ppgtt = c₀.ppgtt) (wf₀ : Wf c₀.ppgtt.getNumLevels t₀)
    (wf : Wf c₀.ppgtt.getNumLevels t) (wf₀' : Wf c₀.ppgtt.getNumLevels s₀.nodes)
    (wf' : Wf c₀.ppgtt.getNumLevels s.nodes)
    (run₀ : MakeRun c₀ t₀ (NewPage c₀.ppgtt.getNumLevels (lastTable c₀ t₀) isLocal) g stop stop 0 s₀)
    (run : MakeRun c t (Copy c.ppgtt.getNumLevels (lastTable c t) s₀.nodes isLocal) g stop stop 0 s)
    {x : Nat} (h1 : g ≤ x) (h2 : x < stop)
    (agrees : AgreesAt c₀.ppgtt.getNumLevels isLocal (lastTable c₀ t₀ x) (lastTable c t x) t₀ t x) :
    SameTranslation c₀.ppgtt.getNumLevels s₀.nodes s.nodes x := by
  have hkinds₀ : lastTable c₀ s₀.nodes = lastTable c₀ t₀ := funext run₀.add.kinds
  have hkinds : lastTable c s.nodes = lastTable c t := funext run.add.kinds
  obtain ⟨leaf₀, hleaf₀⟩ := Option.ne_none_iff_exists'.mp (run₀.add.entered x h1 h2)
  obtain ⟨leaf, hleaf⟩ := Option.ne_none_iff_exists'.mp (run.add.entered x h1 h2)
  rw [← hppgtt] at wf wf' agrees ⊢
  have hslot : slotFor c.ppgtt.getNumLevels (lastTable c₀ t₀) x =
      slotFor c.ppgtt.getNumLevels (lastTable c t) x := by
    rw [slotFor, slotFor, agrees.kind]
  have hold := leafAt_before wf x
  have hold₀ := leafAt_before wf₀ x
  have hmade₀ := run₀.made _ leaf₀ hleaf₀ (by
    rw [← hkinds₀] at hleaf₀
    exact (isLeaf_of_slot wf₀' hleaf₀).2)
  have hmade := run.made _ leaf hleaf (by
    rw [← hkinds] at hleaf
    exact (isLeaf_of_slot wf' hleaf).2)
  have same : leaf₀.physicalAddress = leaf.physicalAddress ∧
      leaf₀.isLocalMemory = leaf.isLocalMemory := by
    have hcopy : t (slotFor c.ppgtt.getNumLevels (lastTable c t) x) = none →
        (lastTable c t x).getPageSize ∣ leaf₀.physicalAddress → leaf₀.isLocalMemory = isLocal →
        leaf₀.physicalAddress = leaf.physicalAddress ∧
          leaf₀.isLocalMemory = leaf.isLocalMemory := by
      intro hnone hdvd hlocal
      obtain ⟨hphys, hcopied⟩ := (hmade hnone).2 x leaf₀ rfl
        (by rw [← hslot, hppgtt]; exact hleaf₀) hdvd
      exact ⟨hphys.symm, hlocal.trans hcopied.symm⟩
    cases hm₀ : t₀ (slotFor c₀.ppgtt.getNumLevels (lastTable c₀ t₀) x) with
    | some m₀ =>
      -- the first table had the page
      obtain rfl : m₀ = leaf₀ := Option.some.inj ((run₀.add.kept _ _ hm₀).symm.trans hleaf₀)
      rw [hm₀] at hold₀
      cases hm : t (slotFor c.ppgtt.getNumLevels (lastTable c t) x) with
      | some m =>
        obtain rfl : m = leaf := Option.some.inj ((run.add.kept _ _ hm).symm.trans hleaf)
        obtain ⟨known, hknown, hfacts⟩ := agrees.known m (hold.trans hm)
        rw [hppgtt, hold₀, Option.some.injEq] at hknown
        rw [hknown]
        exact hfacts
      | none =>
        obtain ⟨hdvd, hlocal⟩ := agrees.cloned m₀ (by rw [hppgtt, hold₀]) (hold.trans hm)
        rw [← agrees.kind] at hdvd
        exact hcopy hm hdvd hlocal
    | none =>
      obtain ⟨hlocal, hpages⟩ := hmade₀ hm₀
      obtain ⟨hdvd, _⟩ := hpages x rfl
      rw [← agrees.kind] at hdvd
      cases hm : t (slotFor c.ppgtt.getNumLevels (lastTable c t) x) with
      | some m =>
        obtain ⟨known, hknown, _⟩ := agrees.known m (hold.trans hm)
        rw [hppgtt, hold₀, hm₀] at hknown
        cases hknown
      | none => exact hcopy hm hdvd hlocal
  rw [← hkinds₀] at hleaf₀
  rw [← hkinds] at hleaf
  refine ⟨leaf₀.physicalAddress + x % (lastTable c₀ s₀.nodes x).getPageSize, _, _, ?_, ?_, same.2⟩
  · rw [hppgtt]
    exact translateVa_of_slot wf₀' hleaf₀
  · rw [translateVa_of_slot wf' hleaf, hkinds, hkinds₀, agrees.kind, same.1]

end Pairs

section Writes
variable {cfg : Config} {params : AllocationParams} {t₀ t : Nodes}

/-- What a write with `params` asks of another table than the first. -/
def Agrees (cfg : Config) (params : AllocationParams) (t₀ t : Nodes) : Prop :=
  ∀ x, params.gfxAddress ≤ x → x < params.gfxAddress + params.size →
    AgreesAt cfg.ppgtt.getNumLevels (params.memoryBanks != 0)
      (pageKindAt cfg.ppgtt (adjustPageSizeForHardwareSupport cfg.gpu params.pageSize
        params.memoryBanks) t₀ x)
      (pageKindAt cfg.ppgtt (adjustPageSizeForHardwareSupport cfg.gpu params.pageSize
        params.memoryBanks) t x) t₀ t x

theorem bank_isLocal {gpu : Gpu} {enablePs64 : Bool} {ppgtt : PpgttKind} {mode : WalkMode}
    {infos : List PageInfo} {c : WalkContext}
    (h : walkContext gpu enablePs64 ppgtt params mode infos = some c) (x : Nat) :
    (c.bankHelper.getMemoryBank x != 0) = (params.memoryBanks != 0) := by
  obtain ⟨helper, hhelper, rfl⟩ := Option.map_eq_some_iff.mp h
  by_cases hbanks : params.memoryBanks = 0
  · rw [hbanks] at hhelper ⊢
    obtain ⟨banks, hloop, rfl⟩ := Option.map_eq_some_iff.mp hhelper
    have hnil : banks = [] := by
      have splits := MemoryBanks.singleBanksFrom_splits (by decide) hloop
      rw [List.eq_nil_iff_forall_not_mem]
      intro bank hbank
      obtain ⟨k, hk, _⟩ := (splits.member bank).mp hbank
      simp at hk
    subst hnil
    rfl
  · have hne := MemoryBanks.MemoryBankHelper.getMemoryBank_ne_zero hhelper hbanks x
    rw [bne_iff_ne.mpr hne, bne_iff_ne.mpr hbanks]

/-- The walk of the first table and a clone walk behind it, at their ends. -/
structure WalkPair (cfg : Config) (params : AllocationParams) (t₀ t : Nodes)
    (w₀ w : WalkState PhysicalAddressAllocatorSimple) (c₀ c : WalkContext) : Prop where
  ppgtt₀ : c₀.ppgtt = cfg.ppgtt
  ppgtt : c.ppgtt = cfg.ppgtt
  kinds₀ : lastTable c₀ (layout t₀) = pageKindAt cfg.ppgtt (adjustPageSizeForHardwareSupport cfg.gpu
    params.pageSize params.memoryBanks) t₀
  kinds : lastTable c (layout t) = pageKindAt cfg.ppgtt (adjustPageSizeForHardwareSupport cfg.gpu
    params.pageSize params.memoryBanks) t
  wf₀ : Wf c₀.ppgtt.getNumLevels (layout w₀.nodes)
  wf : Wf c₀.ppgtt.getNumLevels (layout w.nodes)
  run₀ : MakeRun c₀ (layout t₀) (NewPage c₀.ppgtt.getNumLevels (lastTable c₀ (layout t₀))
    (params.memoryBanks != 0)) params.gfxAddress (params.gfxAddress + params.size)
    (params.gfxAddress + params.size) 0 (layoutOf w₀)
  run : MakeRun c (layout t) (Copy c.ppgtt.getNumLevels (lastTable c (layout t)) (layout w₀.nodes)
    (params.memoryBanks != 0)) params.gfxAddress (params.gfxAddress + params.size)
    (params.gfxAddress + params.size) 0 (layoutOf w)

/-- A clone walk over the page sizes of the first table's walk. -/
theorem cloneMemory_runs {a a' : PhysicalAddressAllocatorSimple}
    {w₀ : WalkState PhysicalAddressAllocatorSimple} (wf₀ : Wf cfg.ppgtt.getNumLevels t₀)
    (wf : Wf cfg.ppgtt.getNumLevels t) (free : FreePagesAligned a) (hsize : params.size ≠ 0)
    (h₀ : walkMemory cfg.gpu cfg.enablePs64 cfg.ppgtt t₀ a params .Reserve [] none = some w₀)
    (same : ∀ x, params.gfxAddress ≤ x → x < params.gfxAddress + params.size →
      pageKindAt cfg.ppgtt (adjustPageSizeForHardwareSupport cfg.gpu params.pageSize
        params.memoryBanks) t x = pageKindAt cfg.ppgtt (adjustPageSizeForHardwareSupport cfg.gpu
        params.pageSize params.memoryBanks) t₀ x) :
    ∃ w c₀ c, walkMemory cfg.gpu cfg.enablePs64 cfg.ppgtt t a' params .Clone w₀.entries none =
        some w ∧ WalkPair cfg params t₀ t w₀ w c₀ c := by
  rcases walkMemory_some h₀ with ⟨hzero, _⟩ | ⟨_, c₀, hc₀, hpages₀⟩
  · exact absurd hzero hsize
  · obtain ⟨c, hc⟩ : ∃ c, walkContext cfg.gpu cfg.enablePs64 cfg.ppgtt params .Clone w₀.entries =
        some c := by
      obtain ⟨helper, hhelper, _⟩ := Option.map_eq_some_iff.mp hc₀
      exact ⟨_, by rw [walkContext, hhelper]; rfl⟩
    obtain ⟨_, hppgtt₀, hmode₀, _, _, hsize₀, _⟩ := walkContext_some hc₀
    obtain ⟨_, hppgtt, hmode, _, hinfos, hrequested, _⟩ := walkContext_some hc
    have hkinds : ∀ (c' : WalkContext) t', c'.ppgtt = cfg.ppgtt → c'.requestedPageSize =
        adjustPageSizeForHardwareSupport cfg.gpu params.pageSize params.memoryBanks →
        lastTable c' (layout t') = pageKindAt cfg.ppgtt (adjustPageSizeForHardwareSupport cfg.gpu
          params.pageSize params.memoryBanks) t' := by
      intro c' t' h1 h2
      funext x
      rw [lastTable_layout, lastTable_eq, h1, h2]
    have hkinds₀ := hkinds c₀ t₀ hppgtt₀ hsize₀
    have hkinds := hkinds c t hppgtt hrequested
    rw [← hppgtt₀] at wf₀ wf
    have hsame : c.ppgtt = c₀.ppgtt := hppgtt.trans hppgtt₀.symm
    obtain ⟨wf₀', run₀⟩ := recordRun_walk wf₀ hmode₀ (bank_isLocal hc₀) free hpages₀
    have records : Chain (Describes c.ppgtt.getNumLevels (lastTable c₀ (layout t₀))
        (layout w₀.nodes) (params.gfxAddress + params.size) (params.memoryBanks != 0))
        params.gfxAddress c.pageInfos (params.gfxAddress + params.size) := by
      rw [hsame, hinfos]
      exact run₀.records
    obtain ⟨w, hw, wf', run⟩ := cloneRun_walk a' (by rw [hsame]; exact wf) hmode records
      fun x h1 h2 => by
        rw [hkinds, hkinds₀]
        exact same x h1 h2
    refine ⟨w, c₀, c, ?_, hppgtt₀, hppgtt, hkinds₀, hkinds, wf_layout.mpr wf₀', ?_, run₀.make, run⟩
    · rw [walkMemory, if_neg hsize, hc, Option.bind_some]
      exact hw
    · rw [← hsame]
      exact wf_layout.mpr wf'

/-- A clone walk behind the first table's walk. -/
theorem cloneMemory_agrees {a a' : PhysicalAddressAllocatorSimple}
    {w₀ : WalkState PhysicalAddressAllocatorSimple} (wf₀ : Wf cfg.ppgtt.getNumLevels t₀)
    (wf : Wf cfg.ppgtt.getNumLevels t) (free : FreePagesAligned a)
    (h₀ : walkMemory cfg.gpu cfg.enablePs64 cfg.ppgtt t₀ a params .Reserve [] none = some w₀)
    (agrees : Agrees cfg params t₀ t) :
    ∃ w, walkMemory cfg.gpu cfg.enablePs64 cfg.ppgtt t a' params .Clone w₀.entries none = some w ∧
      ∀ x, params.gfxAddress ≤ x → x < params.gfxAddress + params.size →
        SameTranslation cfg.ppgtt.getNumLevels w₀.nodes w.nodes x := by
  by_cases hsize : params.size = 0
  · refine ⟨.start t a' none, ?_, fun x h1 h2 => ?_⟩
    · rw [walkMemory, if_pos hsize]
    · omega
  · obtain ⟨w, c₀, c, hw, pair⟩ := @cloneMemory_runs cfg params t₀ t a a' w₀ wf₀ wf free hsize h₀
      fun x h1 h2 => (agrees x h1 h2).kind
    refine ⟨w, hw, fun x h1 h2 => ?_⟩
    have hat := (agrees x h1 h2).of_layout
    rw [← pair.kinds₀, ← pair.kinds, ← pair.ppgtt₀] at hat
    rw [← pair.ppgtt₀] at wf₀ wf ⊢
    have h := sameTranslation_of_runs (pair.ppgtt.trans pair.ppgtt₀.symm) (wf_layout.mpr wf₀)
      (wf_layout.mpr wf) pair.wf₀ pair.wf pair.run₀ pair.run h1 h2 hat
    unfold SameTranslation at h ⊢
    simp only [layoutOf, translate_layout] at h
    exact h

/-- The clone walks of the other tables, one after the other. -/
theorem cloneTables_agree {a a' : PhysicalAddressAllocatorSimple}
    {w₀ : WalkState PhysicalAddressAllocatorSimple} (wf₀ : Wf cfg.ppgtt.getNumLevels t₀)
    (free : FreePagesAligned a)
    (h₀ : walkMemory cfg.gpu cfg.enablePs64 cfg.ppgtt t₀ a params .Reserve [] none = some w₀)
    (others : List Nodes) (wf : ∀ t ∈ others, Wf cfg.ppgtt.getNumLevels t)
    (agrees : ∀ t ∈ others, Agrees cfg params t₀ t) :
    ∃ r, eachTable (walkTable cfg params .Clone w₀.entries none) others a' = some r ∧
      ∀ t ∈ r.1, ∀ x, params.gfxAddress ≤ x → x < params.gfxAddress + params.size →
        SameTranslation cfg.ppgtt.getNumLevels w₀.nodes t x := by
  induction others generalizing a' with
  | nil => exact ⟨_, rfl, List.forall_mem_nil _⟩
  | cons t rest ih =>
    obtain ⟨ht, hrest⟩ := List.forall_mem_cons.mp wf
    obtain ⟨hat, hall⟩ := List.forall_mem_cons.mp agrees
    obtain ⟨w, hw, hsame⟩ := @cloneMemory_agrees cfg params t₀ t a a' w₀ wf₀ ht free h₀ hat
    obtain ⟨r, hr, hothers⟩ := @ih w.allocator hrest hall
    refine ⟨(w.nodes :: r.1, r.2), ?_, List.forall_mem_cons.mpr ⟨hsame, hothers⟩⟩
    simp only [eachTable, walkTable, hw, Option.map_some, Option.bind_some]
    rw [hr]
    rfl

/-- In every reachable state a write on which the tables agree completes, and they translate its
addresses alike. -/
theorem writeMemory2_agrees (cfg : Config) (memoryBanks : List Nat)
    (numberOfAllocators singleAllocatorSize : Nat) (localMemorySupport : Bool) (s : Memory)
    (reached : Reach (step cfg) Any
      (start memoryBanks numberOfAllocators singleAllocatorSize localMemorySupport) s)
    (params : AllocationParams) (banks : params.memoryBanks < 2 ^ 31)
    (free : FreePagesAligned s.allocator) (t₀ : Nodes) (others : List Nodes)
    (tables : s.ppgtts = t₀ :: others)
    (agrees : ∀ t ∈ others, Agrees cfg (supportedParams cfg params) t₀ t) :
    ∃ s' t₀' others', step cfg s (.writeMemory2 params) = some s' ∧ s'.ppgtts = t₀' :: others' ∧
      ∀ t ∈ others', ∀ x, params.gfxAddress ≤ x → x < params.gfxAddress + params.size →
        SameTranslation cfg.ppgtt.getNumLevels t₀' t x := by
  have wf := reach_tables_wf reached
  rw [tables] at wf
  obtain ⟨wf₀, hwf⟩ := List.forall_mem_cons.mp wf
  have hsome := @TableRuns.walkMemory_isSome PhysicalAddressAllocatorSimple _ cfg.gpu cfg.enablePs64
    cfg.ppgtt t₀ s.allocator (supportedParams cfg params) .Reserve [] none (by simp) banks
  obtain ⟨w₀, hw₀⟩ := Option.isSome_iff_exists.mp hsome
  obtain ⟨r, hr, hothers⟩ := @cloneTables_agree cfg (supportedParams cfg params) t₀ s.allocator
    w₀.allocator w₀ wf₀ free hw₀ others hwf agrees
  refine ⟨⟨w₀.nodes :: r.1, r.2, s.reservations⟩, w₀.nodes, r.1, ?_, rfl, hothers⟩
  simp only [step, tables, writeTables, hw₀, hr, Option.bind_some, Option.map_some]

end Writes

theorem freePagesAligned_newPpgtts (memoryBanks : List Nat) {a : PhysicalAddressAllocatorSimple}
    (h : FreePagesAligned a) : FreePagesAligned (newPpgtts memoryBanks a).2 := by
  induction memoryBanks generalizing a with
  | nil => exact h
  | cons memoryBank rest ih => exact ih (freePagesAligned_reserve a memoryBank 4096 h)

theorem freePagesAligned_start (memoryBanks : List Nat) (numberOfAllocators singleAllocatorSize : Nat)
    (localMemorySupport : Bool) : FreePagesAligned
      (start memoryBanks numberOfAllocators singleAllocatorSize localMemorySupport).allocator := by
  apply freePagesAligned_newPpgtts
  rintro (_ | i) e he
  · cases he
  · cases he

theorem agrees_newTables (cfg : Config) (params : AllocationParams)
    (a a' : PhysicalAddressAllocatorSimple) (memoryBank memoryBank' : Nat) :
    Agrees cfg params (newTables a memoryBank).nodes (newTables a' memoryBank').nodes := by
  have hn : 4 ≤ cfg.ppgtt.getNumLevels := getNumLevels_ge cfg.ppgtt
  intro x _ _
  refine ⟨?_, ?_, ?_⟩
  · simp only [pageKindAt, regionAt_newTables hn]
  · intro leaf hleaf
    rw [leafAt, regionAt_newTables hn] at hleaf
    cases hleaf
  · intro leaf₀ hleaf₀
    rw [leafAt, regionAt_newTables hn] at hleaf₀
    cases hleaf₀

/-- A first write of two devices. -/
theorem writeMemory2_agrees_new : ∃ s' t₀' others',
    step fourLevel (start [1, 2] 2 0x100000000 true) (.writeMemory2 (request4KB 0x1800 0x2000)) =
        some s' ∧ s'.ppgtts = t₀' :: others' ∧
      ∀ t ∈ others', ∀ x, 0x1800 ≤ x → x < 0x3800 → SameTranslation 4 t₀' t x := by
  refine writeMemory2_agrees fourLevel [1, 2] 2 0x100000000 true _ .start (request4KB 0x1800 0x2000)
    (by decide) (freePagesAligned_start _ _ _ _) _ _ rfl ?_
  intro t ht
  obtain rfl := List.mem_singleton.mp ht
  exact agrees_newTables _ _ _ _ _ _

/-- A 2MB page of a context on the first device: one record for two pages of the second device. -/
theorem not_writeMemory2_agrees : ¬ ∀ s params,
    Reach (step fourLevel) Any (start [1, 2] 2 0x100000000 true) s → params.memoryBanks < 2 ^ 31 →
    ∃ s', step fourLevel s (.writeMemory2 params) = some s' := by
  intro hall
  have hrun : ((step fourLevel (start [1, 2] 2 0x100000000 true) (.contextWriteMemory2 0
      { request4KB 0 0x1000 with pageSize := pageSize2MB })).map fun s =>
      (step fourLevel s (.writeMemory2 (request4KB 0 0x2000))).isSome) = some false := by
    decide +kernel
  obtain ⟨s, hs, hnone⟩ := Option.map_eq_some_iff.mp hrun
  obtain ⟨s', hs'⟩ := hall s (request4KB 0 0x2000) (.step .start trivial hs) (by decide)
  rw [hs'] at hnone
  cases hnone

end TableAgreement
