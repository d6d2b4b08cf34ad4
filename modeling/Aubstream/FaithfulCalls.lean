import Aubstream.StreamedTables

/-!
# Calls that keep memory faithful

New tables bring nothing along, data stays out of tables, and a free that gives up
has touched nothing: then the memory stays faithful to the tables of every device.
-/

namespace FaithfulCalls
open EntryBits PathTree PhysicalAllocator AllocatorBlocks PageNodes PageWalker TreeShape WalkPhases
  FreeMemory FreePhases FreeRounds LastTables Translation MapFrame Placement MappedPages BlockOwners
  AubPackets AubManager WrittenPaths OwnedRuns PageAliasing StreamedMemory HardwareWalk
  EmittedEntries ClearedSlots FaithfulMemory WrittenPages AllocatorGrowth MemoryBlocks
  StreamedTables TableAgreement Transitions
open FreeComplete hiding fourLevel
open TableRuns hiding Op step

/-- No free block of the size of a table has a present entry in it. -/
def CleanBlocks (s : Simulation) (memoryBank : Nat) : Prop :=
  ∀ e ∈ (s.allocator.get (s.allocator.slotOf memoryBank)).freeAllocationsMap, e.2 = 4096 →
    ∀ i, i < 512 → word s.image (regionOf memoryBank) (e.1 + i * 8) % 2 = 0

/-- The byte is in a block in use and not in a table. -/
def IsData (s : Simulation) (r : Region) (y : Nat) : Prop :=
  (∃ memoryBank e, regionOf memoryBank = r ∧
    e ∈ (s.allocator.get (s.allocator.slotOf memoryBank)).usedAllocationsMap ∧
    e.1 ≤ y ∧ y < e.1 + e.2) ∧ ∀ t ∈ s.ppgtts, ¬ TablePage t r y

/-- A free of the range comes to its end or to a missing table before it comes to a page. -/
def Untouched (n : Nat) (t : Nodes) (g size : Nat) : Prop :=
  ∃ stop, g ≤ stop ∧ stop ≤ g + size ∧ (stop < g + size → regionAt n t stop = none) ∧
    ∀ x, g ≤ x → x < stop → ¬ IsMapped n t x

section
variable (cfg : Config)

/-- A request on a table makes no new tables, or there are clean blocks for them. -/
def Supplied (s : Simulation) (t : Nodes) (params : AllocationParams) : Prop :=
  Tabled cfg.ppgtt.getNumLevels (pageKindAt cfg.ppgtt (adjustPageSizeForHardwareSupport cfg.gpu
    params.pageSize params.memoryBanks) t) t params.gfxAddress params.size ∨ CleanBlocks s (bankOf t)

/-- New tables come from clean blocks; data goes over pages that hold data; a reservation is of at
least one page after rounding in 64 bits; a mapping, to a 64-bit address, moves no page that owns
its block; a free passes its range or touches nothing. -/
def Allowed (s : Simulation) : Call → Prop
  | .writeMemory device params => ∀ t, s.ppgtts[device]? = some t → Supplied cfg s t params ∧
      (params.memory ≠ none → ∀ x p, params.gfxAddress ≤ x → x < params.gfxAddress + params.size →
        pageAt cfg.ppgtt.getNumLevels t x = some p →
        IsData s (regionOf p.memoryBank) (p.physicalAddress + x % p.size))
  | .reservePhysicalMemory params => Reserves cfg params → 0 < Reservations.sizePageAligned
      params.gfxAddress params.size
        (Reservations.getSupportedPageSize cfg.gpu params.memoryBanks params.pageSize)
  | .mapGpuVa device physicalAddress params => physicalAddress < 2 ^ 64 ∧
      ∀ t, s.ppgtts[device]? = some t → Supplied cfg s t params ∧
        MapsOwned cfg.ppgtt.getNumLevels (pageKindAt cfg.ppgtt (adjustPageSizeForHardwareSupport
          cfg.gpu params.pageSize params.memoryBanks) t) t physicalAddress params.memoryBanks
          params.gfxAddress params.size
  | .freeMemory device g size => ∀ t, s.ppgtts[device]? = some t →
      Untouched cfg.ppgtt.getNumLevels t g size ∨
        ∀ x, g ≤ x → x < g + size → Live cfg.ppgtt.getNumLevels t g x

end

/-- What a run keeps up. -/
structure Good (base : Bank → Nat) (cfg : Config) (s : Simulation) : Prop where
  owned : Owned base (tablesOf s.ppgtts) s.reservations s.allocator
  aligned : TableBlocksAligned s.allocator
  own : ∀ t ∈ s.ppgtts, TablesOwn (bankOf t) t
  written : ∀ r x, r ≠ .gtt → s.image r x ≠ 0 → InBlock s.allocator r x
  faithful : ∀ t ∈ s.ppgtts, Faithful cfg.gpu t (word s.image (regionOf (bankOf t)))

/-! ### Frees that touch nothing -/

section Untouched
variable {A : Type} [PhysicalAddressAllocator A] {gpu : Gpu} {ppgtt : PpgttKind} {t : Nodes}

theorem freeMemory_untouched (a : A) (wf : Wf ppgtt.getNumLevels t) (inhabited : Inhabited t)
    {g size : Nat} (untouched : Untouched ppgtt.getNumLevels t g size) :
    (freeMemory gpu ppgtt t a g size).1.nodes = t := by
  obtain ⟨stop, h1, h2, hstop, unmapped⟩ := untouched
  have hn := getNumLevels_ge ppgtt
  have rounds := (freePages_rule (c := ⟨ppgtt, gpu, g, g + size⟩)
    (P := fun g' size' (s : FreeState A) => g ≤ g' ∧ g' ≤ stop ∧ g' + size' = g + size ∧ s.nodes = t)
    (fun g' size' s s' pageSize wf' hsize ⟨hg, hle, hend, hnodes⟩ hpage => by
      obtain ⟨m, hm, rfl, _⟩ := freePage_leaves wf' hpage
      rw [hnodes] at hm
      have hlt : g' < stop := by
        refine Nat.lt_of_le_of_ne hle fun heq => ?_
        subst heq
        rw [hstop (by omega)] at hm
        cases hm
      have hk := isRegion_of_regionAt wf hn hm
      have hmod := Nat.mod_lt g' hk.getPageSize_pos
      refine ⟨by omega, ?_, by omega, ?_⟩
      · -- the address where tables end is not in this page
        by_contra hpast
        have hpage' := samePage (g := g') (a := stop) hk.getPageSize_pos hle (by omega)
        have hregion := regionAt_congr (n := ppgtt.getNumLevels) (t := t)
          (region_of_page hk.dvd hpage')
        rw [hm, hstop (by omega)] at hregion
        cases hregion
      · rw [← hnodes]
        refine freePage_unmapped wf' (hnodes ▸ inhabited) ?_ hpage
        rw [hnodes]
        exact unmapped g' hg hlt)
    size g size ⟨t, a, fun _ => []⟩ (Nat.le_refl _) wf ⟨Nat.le_refl _, h1, rfl, rfl⟩).2
  rcases rounds with ⟨_, _, _, _, _, h⟩ | ⟨_, _, _, _, ⟨_, _, _, h⟩, _⟩
  · exact h
  · exact h

end Untouched

/-! ### Trees that agree on tables -/

section Trees
variable {n memoryBank : Nat} {t t' : Nodes}

theorem grows_of_layout (same : layout t' = layout t) : Grows t t' := by
  intro q m hm
  obtain ⟨m', hm', hcore⟩ := layout_eq_some (same ▸ layout_some hm)
  exact ⟨m', hm', .of_core hcore.symm⟩

theorem grows_of_tracked {A : Type} {gpu : Gpu} {s : FreeState A} (tracked : Tracked gpu t s) :
    Grows s.nodes t := by
  intro q m hm
  obtain ⟨m₀, hm₀, heq⟩ := tracked.shrinks q m hm
  exact ⟨m₀, hm₀, .of_core (core_of_setPs64 heq).1.symm⟩

/-- Nodes that are left of other nodes. -/
theorem tablesOwn_of_grows (grows : Grows t' t) (own : TablesOwn memoryBank t) :
    TablesOwn memoryBank t' := by
  intro p m' hm' htable
  obtain ⟨m, hm, same⟩ := grows p m' hm'
  obtain ⟨haddress, hbank⟩ := same.table htable
  obtain ⟨hown, halloc⟩ := own p m hm (same.kind ▸ htable)
  rw [← haddress, ← hbank, ← same.allocator]
  exact ⟨hown, halloc⟩

theorem bankOf_of_grows (wf : Wf n t) (grows : Grows t t') : bankOf t' = bankOf t := by
  obtain ⟨root, hroot, hk⟩ := wf.root
  obtain ⟨root', hroot', same⟩ := grows [] root hroot
  have htable : ¬ IsLeaf root.kind := by
    rw [hk]
    exact fun hleaf => by cases hleaf
  rw [bankOf, bankOf, hroot, hroot', Option.map_some, Option.map_some, (same.table htable).2]

end Trees

/-! ### One table after a call -/

section Update
variable {base : Bank → Nat} {cfg : Config} {s : Simulation} {device : Nat} {t t' : Nodes}
  {a' : PhysicalAddressAllocatorSimple} {image' : AubPackets.Memory}

theorem tablesOf_of_getElem {ts : List Nodes} (ht : ts[device]? = some t) : tablesOf ts device = t := by
  rw [tablesOf, ht, Option.getD_some]

theorem tablesOf_set {ts : List Nodes} (ht : ts[device]? = some t) :
    tablesOf (ts.set device t') = Function.update (tablesOf ts) device t' := by
  have hlt := (List.getElem?_eq_some_iff.mp ht).1
  funext d
  by_cases hd : d = device
  · subst d
    rw [Function.update_self, tablesOf, List.getElem?_set_self hlt, Option.getD_some]
  · rw [Function.update_of_ne hd, tablesOf, tablesOf, List.getElem?_set_ne (Ne.symm hd)]

theorem own_tablesOf {ts : List Nodes} (own : ∀ t ∈ ts, TablesOwn (bankOf t) t) (d : Nat) :
    TablesOwn (bankOf (tablesOf ts d)) (tablesOf ts d) := by
  cases hd : ts[d]? with
  | none =>
    rw [tablesOf, hd]
    intro p m hm
    cases hm
  | some t =>
    rw [tablesOf_of_getElem hd]
    exact own t (List.mem_of_getElem? hd)

/-- The tables of the other devices are what they were, and so is their memory. -/
theorem good_set (good : Good base cfg s) (ht : s.ppgtts[device]? = some t)
    (keeps : Keeps t s.allocator t' a') (grown : Grown s.allocator a') (room' : Unexhausted a')
    (aligned' : TableBlocksAligned a') (own' : TablesOwn (bankOf t') t')
    (changed : ChangedIn (tablesOf s.ppgtts) device a' s.image image')
    (faithful' : Faithful cfg.gpu t' (word image' (regionOf (bankOf t')))) :
    Good base cfg ⟨s.ppgtts.set device t', a', s.reservations, image'⟩ := by
  have cases' : ∀ u ∈ s.ppgtts.set device t', u = t' ∨
      ∃ other, other ≠ device ∧ s.ppgtts[other]? = some u := by
    intro u hu
    obtain ⟨other, hother⟩ := List.mem_iff_getElem?.mp hu
    by_cases heq : other = device
    · subst other
      rw [List.getElem?_set_self (List.getElem?_eq_some_iff.mp ht).1, Option.some.injEq] at hother
      exact Or.inl hother.symm
    · rw [List.getElem?_set_ne (Ne.symm heq)] at hother
      exact Or.inr ⟨other, heq, hother⟩
  constructor
  · simp only [tablesOf_set ht]
    refine keeps.owned base _ s.reservations device room' ?_
    rw [← tablesOf_of_getElem ht, Function.update_eq_self]
    exact good.owned
  · exact aligned'
  · intro u hu
    rcases cases' u hu with rfl | ⟨other, _, hother⟩
    · exact own'
    · exact good.own u (List.mem_of_getElem? hother)
  · intro r x hr hx
    by_cases hsame : image' r x = s.image r x
    · exact (good.written r x hr (hsame ▸ hx)).grow grown
    · exact (changed r x hr hsame).1
  · intro u hu
    rcases cases' u hu with rfl | ⟨other, hne, hother⟩
    · exact faithful'
    · have mem := List.mem_of_getElem? hother
      obtain rfl := tablesOf_of_getElem hother
      have aligned := tablesAligned_of_owned good.owned (keeps.room room') good.aligned
        (good.own _ mem)
      exact faithful_apart aligned (good.own _ mem)
        (fun x hchange => (changed _ x (regionOf_ne_gtt _) hchange).2 other hne) (good.faithful _ mem)

end Update

/-! ### Walks -/

section Walks
variable {base : Bank → Nat} {m : AubManagerImp PhysicalAddressAllocatorSimple} {s : Simulation}
  {device : Nat} {t : Nodes} {params : AllocationParams} {phys : Option Nat}
  {w : WalkState PhysicalAddressAllocatorSimple}

/-- After a walk over the table of a device. -/
structure Walked (base : Bank → Nat) (cfg : Config) (s : Simulation) (device : Nat) (t : Nodes)
    (phys : Option Nat) (w : WalkState PhysicalAddressAllocatorSimple) : Prop where
  emits : Emits cfg.gpu (.start t s.allocator phys) w
  keeps : Keeps t s.allocator w.nodes w.allocator
  grown : Grown s.allocator w.allocator
  owned : Owned base (Function.update (tablesOf s.ppgtts) device w.nodes) s.reservations w.allocator
  aligned : TableBlocksAligned w.allocator
  own : TablesOwn (bankOf t) w.nodes

theorem walked_of_walk (good : Good base m.tables s) (ht : s.ppgtts[device]? = some t)
    (wf : Wf m.tables.ppgtt.getNumLevels t)
    (hw : m.walk params .Reserve [] phys t s.allocator = some w)
    (keeps : Keeps t s.allocator w.nodes w.allocator) (room' : Unexhausted w.allocator) :
    Walked base m.tables s device t phys w := by
  have emits := emits_walk wf (by simp) hw
  refine ⟨emits, keeps, grown_walk wf (by simp) hw, ?_,
    tableBlocksAligned_walk wf (by simp) hw good.aligned,
    emits.tables _ (good.own t (List.mem_of_getElem? ht))⟩
  refine keeps.owned base _ s.reservations device room' ?_
  rw [← tablesOf_of_getElem ht, Function.update_eq_self]
  exact good.owned

/-- A walk makes no new tables, or finds clean blocks. -/
theorem Supplied.cases (supplied : Supplied m.tables s t params)
    (wf : Wf m.tables.ppgtt.getNumLevels t)
    (hw : m.walk params .Reserve [] phys t s.allocator = some w) :
    (∀ p x, w.nodes p = some x → ¬ IsLeaf x.kind → t p ≠ none) ∨ CleanBlocks s (bankOf t) :=
  supplied.imp_left fun tabled => tables_of_tabled wf (by simp) tabled hw

variable {cfg : Config}

theorem Walked.block_kept (walked : Walked base cfg s device t phys w)
    (ht : s.ppgtts[device]? = some t) (h : Holder) (b : Block)
    (hb : block (tablesOf s.ppgtts) s.reservations h = some b) :
    block (Function.update (tablesOf s.ppgtts) device w.nodes) s.reservations h = some b := by
  apply block_of_grows walked.emits.grows
  rw [WalkState.start, ← tablesOf_of_getElem ht, Function.update_eq_self]
  exact hb

/-- The tables of all devices are where they should be. -/
theorem Walked.own_all (walked : Walked base cfg s device t phys w) (good : Good base cfg s)
    (d : Nat) : TablesOwn (if d = device then bankOf t else bankOf (tablesOf s.ppgtts d))
      (Function.update (tablesOf s.ppgtts) device w.nodes d) := by
  by_cases hd : d = device
  · subst d
    rw [if_pos rfl, Function.update_self]
    exact walked.own
  · rw [if_neg hd, Function.update_of_ne hd]
    exact own_tablesOf good.own d

theorem Walked.tablesAligned (walked : Walked base cfg s device t phys w)
    (room' : Unexhausted w.allocator) : TablesAligned w.nodes := by
  have h := @tablesAligned_of_owned base (Function.update (tablesOf s.ppgtts) device w.nodes)
    s.reservations device w.allocator (bankOf t) walked.owned room' walked.aligned
  rw [Function.update_self] at h
  exact h walked.own

theorem Walked.tablesApart (walked : Walked base cfg s device t phys w)
    (banks' : BanksApart base w.allocator) : TablesApart w.nodes := by
  have h := @tablesApart_of_owned base (Function.update (tablesOf s.ppgtts) device w.nodes)
    s.reservations device w.allocator (bankOf t) walked.owned banks'
  rw [Function.update_self] at h
  exact h walked.own

/-- The memory where a walk has put new tables has no present entries. -/
theorem Walked.fresh (walked : Walked base cfg s device t phys w) (good : Good base cfg s)
    (ht : s.ppgtts[device]? = some t) (room' : Unexhausted w.allocator)
    (banks' : BanksApart base w.allocator)
    (supplied : (∀ p x, w.nodes p = some x → ¬ IsLeaf x.kind → t p ≠ none) ∨
      CleanBlocks s (bankOf t))
    (p : Path) (x : PageNode) (i : Nat) (hx : w.nodes p = some x) (hidle : t p = none)
    (hi : hasIndex i x.kind) :
    word s.image (regionOf (bankOf t)) (x.physicalAddress + i * 8) % 2 = 0 := by
  rcases supplied with old | clean
  · exact absurd hidle (old p x hx (not_isLeaf_of_hasIndex hi))
  · have hself : Function.update (tablesOf s.ppgtts) device w.nodes device = w.nodes :=
      Function.update_self ..
    have own' : TablesOwn (bankOf t) (Function.update (tablesOf s.ppgtts) device w.nodes device) := by
      rw [hself]
      exact walked.own
    refine newTable_even good.owned walked.owned room' banks' walked.aligned walked.grown own'
      (walked.block_kept ht) (fun y hy => good.written _ y (regionOf_ne_gtt _) hy) clean (p := p) ?_ ?_
      hi
    · rw [hself]
      exact hx
    · rw [tablesOf_of_getElem ht]
      exact hidle

/-- A walk whose entries are written. -/
theorem Walked.entries (walked : Walked base cfg s device t phys w) (good : Good base cfg s)
    (ht : s.ppgtts[device]? = some t) (room' : Unexhausted w.allocator)
    (banks' : BanksApart base w.allocator)
    (supplied : (∀ p x, w.nodes p = some x → ¬ IsLeaf x.kind → t p ≠ none) ∨
      CleanBlocks s (bankOf t))
    {es : List PageEntryInfo} (hes : ∀ e ∈ es, ∃ l, e ∈ w.pageWalkEntries l) :
    Faithful cfg.gpu w.nodes
        (word (storeEntries (regionOf (bankOf t)) s.image es) (regionOf (bankOf t))) ∧
      ChangedIn (tablesOf s.ppgtts) device w.allocator s.image
        (storeEntries (regionOf (bankOf t)) s.image es) := by
  have hr := regionOf_ne_gtt (bankOf t)
  have aligned := walked.tablesAligned room'
  constructor
  · exact faithful_walk hr aligned (walked.tablesApart banks').slots walked.emits
      (walked.fresh good ht room' banks' supplied) (good.faithful t (List.mem_of_getElem? ht)) hes
  · have changed : ChangedIn (Function.update (tablesOf s.ppgtts) device w.nodes) device w.allocator
        s.image (storeEntries (regionOf (bankOf t)) s.image es) := by
      refine changedIn_entries walked.owned banks' (walked.own_all good) hr fun e he => ?_
      obtain ⟨l, hl⟩ := hes e he
      obtain ⟨i, p, parent, _, hp, hi, _, haddress, _⟩ :=
        (walked.emits.entries l e hl).resolve_left List.not_mem_nil
      rw [haddress, Function.update_self]
      exact ⟨slot_fits aligned hp hi, fun x h1 h2 => tablePage_of_slot walked.own hp hi h1 h2⟩
    exact changed.congr fun other hne => (Function.update_of_ne hne _ _).symm

/-- Data goes to blocks in use, and not into tables. -/
theorem Walked.bytes (walked : Walked base cfg s device t none w) (good : Good base cfg s)
    (ht : s.ppgtts[device]? = some t) (wf : Wf cfg.ppgtt.getNumLevels t)
    (wf' : Wf cfg.ppgtt.getNumLevels w.nodes) (banks' : BanksApart base w.allocator)
    (hw : walkMemory cfg.gpu cfg.enablePs64 cfg.ppgtt t s.allocator params .Reserve [] none = some w)
    (data : ∀ x p, params.gfxAddress ≤ x → x < params.gfxAddress + params.size →
      pageAt cfg.ppgtt.getNumLevels t x = some p →
      IsData s (regionOf p.memoryBank) (p.physicalAddress + x % p.size))
    {e : PageInfo} (he : e ∈ w.entries) {y : Nat} (h1 : e.physicalAddress ≤ y)
    (h2 : y < e.physicalAddress + e.size) :
    InBlock w.allocator (if e.isLocalMemory then .localMemory else .systemMemory) y ∧
      ∀ d, ¬ TablePage (Function.update (tablesOf s.ppgtts) device w.nodes d)
        (if e.isLocalMemory then .localMemory else .systemMemory) y := by
  have hn := getNumLevels_ge cfg.ppgtt
  have hself : Function.update (tablesOf s.ppgtts) device w.nodes device = w.nodes :=
    Function.update_self ..
  obtain ⟨x, p, hx1, hx2, hp, hlocal, rfl⟩ := bytes_of_records wf hw he h1 h2
  have hregion : (if e.isLocalMemory then Region.localMemory else .systemMemory) =
      regionOf p.memoryBank := by
    rw [← hlocal]
    rfl
  rw [hregion]
  rcases reserve_blocks wf hw hp with hold | ⟨b, hb, hsize⟩
  · obtain ⟨⟨memoryBank, b, hbank, hused, hb1, hb2⟩, outside⟩ := data x p hx1 hx2 hold
    refine ⟨InBlock.grow walked.grown
      ⟨memoryBank, b, hbank, List.mem_append_left _ hused, hb1, hb2⟩, fun d => ?_⟩
    by_cases hd : d = device
    · subst d
      rw [← hbank] at outside ⊢
      have own' : TablesOwn (bankOf t) (Function.update (tablesOf s.ppgtts) device w.nodes device) := by
        rw [hself]
        exact walked.own
      refine not_tablePage_walk good.owned walked.owned banks' walked.grown own'
        (walked.block_kept ht) ?_ hused hb1 hb2 ?_
      · rw [tablesOf_of_getElem ht, hself]
        exact walked.emits.grows
      · rw [tablesOf_of_getElem ht]
        exact outside t (List.mem_of_getElem? ht)
    · rw [Function.update_of_ne hd]
      cases hother : s.ppgtts[d]? with
      | none =>
        rw [tablesOf, hother]
        rintro ⟨_, _, hm, _⟩
        cases hm
      | some u =>
        rw [tablesOf_of_getElem hother]
        exact outside u (List.mem_of_getElem? hother)
  · obtain ⟨q, leaf, hleaf, hkind, held⟩ := page_held hn walked.owned (by rw [hself]; exact wf')
      (by rw [hself]; exact hp) hb hsize
    refine ⟨held.inBlock walked.owned, fun d => ?_⟩
    refine held.not_tablePage walked.owned banks' (walked.own_all good d) fun q' m heq hm => ?_
    rw [Holder.node.injEq] at heq
    obtain ⟨rfl, rfl⟩ := heq
    obtain rfl := Option.some.inj (hleaf.symm.trans hm)
    exact hkind

/-- A walk whose data is written. -/
theorem Walked.data (walked : Walked base cfg s device t none w) (good : Good base cfg s)
    (ht : s.ppgtts[device]? = some t) (wf : Wf cfg.ppgtt.getNumLevels t)
    (wf' : Wf cfg.ppgtt.getNumLevels w.nodes) (room' : Unexhausted w.allocator)
    (banks' : BanksApart base w.allocator)
    (hw : walkMemory cfg.gpu cfg.enablePs64 cfg.ppgtt t s.allocator params .Reserve [] none = some w)
    (data : ∀ x p, params.gfxAddress ≤ x → x < params.gfxAddress + params.size →
      pageAt cfg.ppgtt.getNumLevels t x = some p →
      IsData s (regionOf p.memoryBank) (p.physicalAddress + x % p.size))
    (image : AubPackets.Memory) (memory : List UInt8)
    (faithful : Faithful cfg.gpu w.nodes (word image (regionOf (bankOf t)))) :
    Faithful cfg.gpu w.nodes (word (TbxStream.writeDiscontiguousPages image memory w.entries)
        (regionOf (bankOf t))) ∧
      ChangedIn (tablesOf s.ppgtts) device w.allocator image
        (TbxStream.writeDiscontiguousPages image memory w.entries) := by
  have bytes := fun (e : PageInfo) (he : e ∈ w.entries) y h1 h2 =>
    @Walked.bytes base s device t params w cfg walked good ht wf wf' banks' hw data e he y h1 h2
  have written : ∀ r x, TbxStream.writeDiscontiguousPages image memory w.entries r x ≠ image r x →
      InBlock w.allocator r x ∧
        ∀ d, ¬ TablePage (Function.update (tablesOf s.ppgtts) device w.nodes d) r x := by
    intro r x hchange
    by_contra hno
    refine hchange (writeDiscontiguousPages_outside
      (fun e he y h1 h2 => (bytes e he y h1 h2).1.fits walked.owned room') fun e he hr => ?_)
    by_contra hin
    exact hno (hr ▸ bytes e he x (by omega) (by omega))
  constructor
  · refine faithful_apart (walked.tablesAligned room') walked.own (fun x hchange => ?_) faithful
    have outside := (written _ x hchange).2 device
    rw [Function.update_self] at outside
    exact outside
  · intro r x _ hchange
    obtain ⟨inBlock, outside⟩ := written r x hchange
    refine ⟨inBlock, fun other hne => ?_⟩
    have hother := outside other
    rw [Function.update_of_ne hne] at hother
    exact hother

/-- After the flags are cleared. -/
theorem Walked.good (walked : Walked base cfg s device t phys w) (good : Good base cfg s)
    (ht : s.ppgtts[device]? = some t) (wf : Wf cfg.ppgtt.getNumLevels t)
    (room' : Unexhausted w.allocator) {image' : AubPackets.Memory}
    (faithful : Faithful cfg.gpu w.nodes (word image' (regionOf (bankOf t))))
    (changed : ChangedIn (tablesOf s.ppgtts) device w.allocator s.image image') :
    Good base cfg ⟨s.ppgtts.set device (commit w), w.allocator, s.reservations, image'⟩ := by
  have same := commit_layout w
  have bank : bankOf (commit w) = bankOf t :=
    bankOf_of_grows wf (walked.emits.grows.trans (grows_of_layout same))
  have keeps : Keeps t s.allocator (commit w) w.allocator := by
    refine walked.keeps.trans (Keeps.of_ownership fun p => ?_)
    rw [← ownership_layout, same, ownership_layout]
  refine good_set good ht keeps walked.grown room' walked.aligned ?_ changed ?_
  · rw [bank]
    exact tablesOwn_of_grows (grows_of_layout same.symm) walked.own
  · rw [bank]
    exact faithful_of_layout same faithful

end Walks

/-! ### Frees -/

section Frees
variable {base : Bank → Nat} {cfg : Config} {s : Simulation} {device g size : Nat} {t : Nodes}

/-- A free that does not come to the end of its range has touched nothing. -/
theorem nodes_of_stuck (wf : Wf cfg.ppgtt.getNumLevels t) (inhabited : Inhabited t)
    (allowed : Untouched cfg.ppgtt.getNumLevels t g size ∨
      ∀ x, g ≤ x → x < g + size → Live cfg.ppgtt.getNumLevels t g x)
    (stuck : (freeMemory cfg.gpu cfg.ppgtt t s.allocator g size).2 = false) :
    (freeMemory cfg.gpu cfg.ppgtt t s.allocator g size).1.nodes = t := by
  rcases allowed with untouched | live
  · exact freeMemory_untouched s.allocator wf inhabited untouched
  · obtain ⟨_, hdone, _⟩ := freePages_run (c := ⟨cfg.ppgtt, cfg.gpu, g, g + size⟩)
      (a := s.allocator) wf inhabited g size
    rw [freeMemory, hdone.mpr live] at stuck
    cases stuck

theorem good_free (good : Good base cfg s) (ht : s.ppgtts[device]? = some t)
    (wf : Wf cfg.ppgtt.getNumLevels t) (inhabited : Inhabited t)
    (allowed : Untouched cfg.ppgtt.getNumLevels t g size ∨
      ∀ x, g ≤ x → x < g + size → Live cfg.ppgtt.getNumLevels t g x)
    (room' : Unexhausted (freeMemory cfg.gpu cfg.ppgtt t s.allocator g size).1.allocator)
    (banks' : BanksApart base (freeMemory cfg.gpu cfg.ppgtt t s.allocator g size).1.allocator) :
    Good base cfg ⟨s.ppgtts.set device (freeMemory cfg.gpu cfg.ppgtt t s.allocator g size).1.nodes,
      (freeMemory cfg.gpu cfg.ppgtt t s.allocator g size).1.allocator, s.reservations,
      storeEntries (regionOf (bankOf t)) s.image
        (writtenEntries (freeMemory cfg.gpu cfg.ppgtt t s.allocator g size))⟩ := by
  have mem := List.mem_of_getElem? ht
  have keeps : Keeps t s.allocator (freeMemory cfg.gpu cfg.ppgtt t s.allocator g size).1.nodes
      (freeMemory cfg.gpu cfg.ppgtt t s.allocator g size).1.allocator := keeps_free wf g size
  have grown : Grown s.allocator (freeMemory cfg.gpu cfg.ppgtt t s.allocator g size).1.allocator :=
    grown_freeMemory wf g size
  have aligned' := tableBlocksAligned_freeMemory (a := s.allocator) wf g size good.aligned
  have touched := @nodes_of_stuck cfg s g size t wf inhabited allowed
  have banks := banksApart_of_grown grown banks'
  have own : TablesOwn (bankOf t) (tablesOf s.ppgtts device) := by
    rw [tablesOf_of_getElem ht]
    exact good.own t mem
  have aligned := tablesAligned_of_owned good.owned (keeps.room room') good.aligned own
  have apart := tablesApart_of_owned good.owned banks own
  rw [tablesOf_of_getElem ht] at aligned apart
  obtain ⟨wf', cleared⟩ := @freeMemory_cleared _ _ cfg.gpu t cfg.ppgtt apart.slots wf s.allocator g size
  generalize freeMemory cfg.gpu cfg.ppgtt t s.allocator g size = r at *
  have grows := grows_of_tracked cleared.tracked
  have bank := bankOf_of_grows wf' grows
  refine good_set good ht keeps grown room' aligned' ?_ ?_ ?_
  · rw [← bank]
    exact tablesOwn_of_grows grows (good.own t mem)
  · refine ChangedIn.grow ?_ grown
    refine changedIn_entries good.owned banks (own_tablesOf good.own) (regionOf_ne_gtt _) fun e he => ?_
    have hemitted : e ∈ emitted r.1 := by
      unfold writtenEntries at he
      split at he
      · exact he
      · cases he
    obtain ⟨l, q, clears⟩ := cleared.slot_of_emitted hemitted
    obtain ⟨i, p, x, _, hx, hi, haddress⟩ := clears.placed wf
    rw [haddress, tablesOf_of_getElem ht]
    exact ⟨slot_fits aligned hx hi, fun y h1 h2 => tablePage_of_slot (good.own t mem) hx hi h1 h2⟩
  · rw [← bank]
    unfold writtenEntries
    split
    · exact faithful_free (regionOf_ne_gtt _) wf wf' aligned apart.slots cleared (good.faithful t mem)
    · rename_i hstuck
      rw [touched (by simpa using hstuck)]
      exact good.faithful t mem

end Frees

end FaithfulCalls
