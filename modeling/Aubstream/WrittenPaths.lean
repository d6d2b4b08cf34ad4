import Aubstream.AubManager
import Aubstream.PendingWalks
import Aubstream.FreeComplete
import Aubstream.WalkEntries

/-!
# The entries of a path

What the records of one walk or one free say about the entries of the nodes on the
way to an address. A walk writes what it creates or changes, and nothing else of
the path.
-/

namespace WrittenPaths
open EntryBits PathTree PhysicalAllocator PageNodes PageWalker FreeMemory TreeShape WalkPhases
  Placement Translation LastTables TableRuns PageEffect PageVisits MapCursor MapFrame FreeRounds
  FreeComplete PendingEntries PendingWalks Ps64Walk AubManager

/-- The nodes below the root on the way to the page of an address. -/
def OnPath (n : Nat) (t : Nodes) (a : Nat) (q : Path) : Prop :=
  q ≠ [] ∧ (q <:+ slotPath n Pde a ∨ pageSlot n t a = some q)

/-- The address is mapped, and the entries on the way to its page are among `written`. -/
structure PathWritten (gpu : Gpu) (n : Nat) (t : Nodes) (written : List PageEntryInfo) (a : Nat) :
    Prop where
  mapped : IsMapped n t a
  entries : ∀ q, OnPath n t a q → ∃ x, t q = some x ∧ entryOf gpu t q x ∈ written

/-- Every node that is not lost has its entry in `written`. -/
def Recorded (gpu : Gpu) (t : Nodes) (lost : Path → Bool) (written : List PageEntryInfo) : Prop :=
  ∀ q x, q ≠ [] → t q = some x → lost q = false → entryOf gpu t q x ∈ written

/-- From `t` to `t'` a node that is not lost has kept its entry, or `written` has its new one. -/
def Documented (gpu : Gpu) (t t' : Nodes) (lost : Path → Bool) (written : List PageEntryInfo) :
    Prop :=
  ∀ q y, q ≠ [] → t' q = some y → lost q = false →
    (∃ x, t q = some x ∧ entryOf gpu t' q y = entryOf gpu t q x) ∨ entryOf gpu t' q y ∈ written

/-- No table has gone or become another one. -/
def KindsKept (t t' : Nodes) : Prop := ∀ q x, t q = some x → ∃ y, t' q = some y ∧ y.kind = x.kind

theorem Documented.mono {gpu : Gpu} {t t' : Nodes} {lost lost' : Path → Bool}
    {written written' : List PageEntryInfo} (h : Documented gpu t t' lost written)
    (fewer : ∀ q, lost' q = false → lost q = false) (more : ∀ e ∈ written, e ∈ written') :
    Documented gpu t t' lost' written' :=
  fun q y hq hy hlost => (h q y hq hy (fewer q hlost)).imp_right (more _)

/-- What is written is appended, and what it repeats is no longer lost. -/
theorem Recorded.step {gpu : Gpu} {t t' : Nodes} {lost lost' : Path → Bool}
    {written table : List PageEntryInfo} (h : Recorded gpu t lost written)
    (more : ∀ q, lost' q = false → lost q = false) (documented : Documented gpu t t' lost' table) :
    Recorded gpu t' (stillLost gpu t' table lost') (written ++ table) := by
  intro q y hq hy hlost
  rw [List.mem_append]
  simp only [stillLost, hy, Bool.and_eq_false_iff, Bool.not_eq_false',
    List.contains_iff_mem] at hlost
  rcases hlost with hfresh | hrepeated
  · rcases documented q y hq hy hfresh with ⟨x, hx, heq⟩ | hnew
    · rw [heq]
      exact Or.inl (h q x hq hx (more q hfresh))
    · exact Or.inr hnew
  · exact Or.inr hrepeated

/-- A slot that was there is on the path that the address had. -/
theorem onPath_before {n : Nat} {t t' : Nodes} (wf : Wf n t) (kinds : KindsKept t t')
    {a : Nat} {q : Path} (h : OnPath n t' a q) (hq : t q ≠ none) : OnPath n t a q := by
  obtain ⟨hne, habove | hslot⟩ := h
  · exact ⟨hne, Or.inl habove⟩
  · obtain ⟨y, hy, hslot⟩ := Option.map_eq_some_iff.mp hslot
    cases hx : regionAt n t a with
    | some x =>
      obtain ⟨y', hy', hkind⟩ := kinds _ x hx
      obtain rfl : y' = y := Option.some.inj (hy'.symm.trans hy)
      refine ⟨hne, Or.inr ?_⟩
      rw [pageSlot_of_region hx, ← hkind, hslot]
    | none =>
      -- without its table the slot would be empty
      refine absurd ?_ hq
      rw [← hslot]
      cases hk : y.kind with
      | pte k => exact wf.none_of_parent_none hx
      | page2MB => exact hx
      | directory => exact hx
      | memory => exact hx

/-- The path of a mapped address has no holes. -/
theorem onPath_some {n : Nat} {t : Nodes} (wf : Wf n t) {a : Nat} (mapped : IsMapped n t a)
    {q : Path} (h : OnPath n t a q) : ∃ x, t q = some x := by
  obtain ⟨region, hregion⟩ := pageSizeAt_mapped mapped
  unfold IsMapped at mapped
  rw [leafAt_of_region hregion, Option.ne_none_iff_exists'] at mapped
  rcases h.2 with habove | hslot
  · refine Option.ne_none_iff_exists'.mp fun hnone => ?_
    obtain ⟨p, hp⟩ := habove
    have hbelow : ∀ p, t (p ++ q) = none := by
      intro p
      induction p with
      | nil => exact hnone
      | cons i p ih => exact wf.none_of_parent_none ih
    have hmissing := hbelow p
    rw [hp] at hmissing
    exact absurd (hregion.symm.trans hmissing) (by simp)
  · rw [pageSlot_of_region hregion, Option.some.injEq] at hslot
    rw [← hslot]
    exact mapped

theorem isMapped_layout {n : Nat} {t : Nodes} {a : Nat} :
    IsMapped n (layout t) a ↔ IsMapped n t a := by
  unfold IsMapped
  rw [leafAt_layout]
  simp

/-- The path of an address depends on kinds only. -/
theorem onPath_layout {n : Nat} {t : Nodes} {a : Nat} {q : Path} :
    OnPath n (layout t) a q ↔ OnPath n t a q := by
  unfold OnPath pageSlot
  rw [regionAt_layout, Option.map_map]
  rfl

/-- On a path where nothing was lost, all entries are written. -/
theorem pathWritten_step {gpu : Gpu} {n : Nat} {t t' : Nodes} {lost : Path → Bool}
    {written table : List PageEntryInfo} (wf : Wf n t) (wf' : Wf n t')
    (h : Recorded gpu t lost written) (documented : Documented gpu t t' (fun _ => false) table)
    (kinds : KindsKept t t') {a : Nat} (mapped : IsMapped n t' a)
    (fresh : ∀ q, OnPath n t a q → lost q = false) :
    PathWritten gpu n t' (written ++ table) a := by
  refine ⟨mapped, fun q hq => ?_⟩
  obtain ⟨y, hy⟩ := onPath_some wf' mapped hq
  refine ⟨y, hy, ?_⟩
  rw [List.mem_append]
  rcases documented q y hq.1 hy rfl with ⟨x, hx, heq⟩ | hnew
  · rw [heq]
    have hbefore := onPath_before wf kinds hq (by rw [hx]; simp)
    exact Or.inl (h q x hq.1 hx (fresh q hbefore))
  · exact Or.inr hnew

theorem PathWritten.mono {gpu : Gpu} {n : Nat} {t : Nodes} {written written' : List PageEntryInfo}
    {a : Nat} (h : PathWritten gpu n t written a) (more : ∀ e ∈ written, e ∈ written') :
    PathWritten gpu n t written' a := by
  refine ⟨h.mapped, fun q hq => ?_⟩
  obtain ⟨x, hx, hmem⟩ := h.entries q hq
  exact ⟨x, hx, more _ hmem⟩

@[simp] theorem entriesOf_nil : entriesOf [] = [] := rfl

@[simp] theorem entriesOf_append (rs rs' : List Record) :
    entriesOf (rs ++ rs') = entriesOf rs ++ entriesOf rs' := List.flatMap_append

@[simp] theorem entriesOf_writeEntries (addressSpace : AubPackets.AddressSpaceValues) (hint : Nat)
    (table : List PageEntryInfo) : entriesOf (writeEntries addressSpace hint table) = table := by
  unfold writeEntries
  split
  · rename_i h
    rw [h]
    rfl
  · simp [entriesOf, Record.table]

section
variable {A : Type} (m : AubManagerImp A)

@[simp] theorem entriesOf_writeLevel (legacy : AubPackets.AddressSpaceValues) (hint : Nat)
    (table : List PageEntryInfo) : entriesOf (m.writeLevel legacy hint table) = table := by
  unfold AubManagerImp.writeLevel
  simp only
  split
  · exact entriesOf_writeEntries _ _ _
  · exact entriesOf_writeEntries _ _ _

/-- All levels of the tree are written. -/
theorem mem_writePages {w : WalkState A} {l : Nat} (hl : l < m.tables.ppgtt.getNumLevels)
    {e : PageEntryInfo} (he : e ∈ w.pageWalkEntries l) : e ∈ entriesOf (m.writePages w) := by
  simp only [AubManagerImp.writePages, AubManagerImp.writePageWalkEntries, entriesOf_append,
    entriesOf_writeLevel, List.mem_append]
  right
  have hlevel : l = Pte ∨ l = Pde ∨ l = Pdp ∨ l = Pml4 ∨ l = Pml5 ∧ m.tables.ppgtt = .PML5 := by
    simp only [Pte, Pde, Pdp, Pml4, Pml5]
    cases hk : m.tables.ppgtt <;> rw [hk] at hl <;> simp only [PpgttKind.getNumLevels] at hl <;>
      simp <;> omega
  rcases hlevel with rfl | rfl | rfl | rfl | ⟨rfl, hk⟩
  · exact Or.inr he
  · exact Or.inl (Or.inr he)
  · exact Or.inl (Or.inl (Or.inr he))
  · exact Or.inl (Or.inl (Or.inl (Or.inr he)))
  · refine Or.inl (Or.inl (Or.inl (Or.inl ?_)))
    rw [hk]
    simp only [PpgttKind.getNumAddressBits, show (48 : Nat) < 57 by decide, decide_true, if_true,
      entriesOf_writeEntries]
    exact he

theorem entriesOf_writeFreed (r : FreeState A × Bool) :
    entriesOf (m.writeFreed r) = writtenEntries r := by
  unfold AubManagerImp.writeFreed writtenEntries
  split
  · simp only [entriesOf_append, entriesOf_writeLevel, entriesOf_writeEntries]
  · rfl

end

section
variable {A : Type} [PhysicalAddressAllocator A] (m : AubManagerImp A)

omit [PhysicalAddressAllocator A] in
theorem commit_layout (w : WalkState A) : layout (commit w) = layout w.nodes :=
  modifyAll_setPendingWrite_layout _ _ _

omit [PhysicalAddressAllocator A] in
/-- The flag is not part of an entry. -/
theorem commit_some {w : WalkState A} {q : Path} {y : PageNode} (h : commit w q = some y) (gpu : Gpu) :
    ∃ x, w.nodes q = some x ∧ entryOf gpu (commit w) q y = entryOf gpu w.nodes q x ∧
      y.kind = x.kind := by
  have haddress := entryAddress_layout (commit_layout w) q
  unfold commit modifyAll at h
  split at h
  · obtain ⟨x, hx, rfl⟩ := Option.map_eq_some_iff.mp h
    exact ⟨x, hx, by rw [entryOf, entryOf, haddress]; rfl, rfl⟩
  · exact ⟨y, h, by rw [entryOf, entryOf, haddress], rfl⟩

omit [PhysicalAddressAllocator A] in
/-- What a walk lists, it writes. -/
theorem listed_written {t : Nodes} {w : WalkState A}
    (tracked : PendingEntries.Tracked m.tables.gpu m.tables.ppgtt.getNumLevels t w) {q : Path}
    {x : PageNode} (hq : q ∈ w.pendingNodes (levelOf m.tables.ppgtt.getNumLevels q))
    (hx : w.nodes q = some x) :
    entryOf m.tables.gpu w.nodes q x ∈ entriesOf (m.writePages w) := by
  refine mem_writePages m ?_ ((tracked.slots q).emitted hq x hx).2
  obtain ⟨hdepth, hne⟩ := tracked.listed _ q hq
  have := List.length_pos_iff.mpr hne
  omega

omit [PhysicalAddressAllocator A] in
theorem documented_of_tracked {t : Nodes} {w : WalkState A}
    (tracked : PendingEntries.Tracked m.tables.gpu m.tables.ppgtt.getNumLevels t w) :
    Documented m.tables.gpu t (commit w) (fun _ => false) (entriesOf (m.writePages w)) := by
  intro q y hq hy _
  obtain ⟨x, hx, hentry, _⟩ := commit_some hy m.tables.gpu
  rw [hentry]
  by_cases hpending : q ∈ w.pendingNodes (levelOf m.tables.ppgtt.getNumLevels q)
  · exact Or.inr (listed_written m tracked hpending hx)
  · left
    have hsame := (tracked.slots q).same hpending
    rw [hx] at hsame
    refine ⟨x, hsame.symm, ?_⟩
    rw [entryOf, entryOf, (tracked.kept q (by rw [← hsame]; simp)).2]

/-- A walk keeps every table, and no leaf becomes a table. -/
theorem walk_keepsKinds {params : AllocationParams} {mode : WalkMode} {infos : List PageInfo}
    {phys : Option Nat} {t : Nodes} {a : A} {w : WalkState A}
    (wf : Wf m.tables.ppgtt.getNumLevels t) (expect : mode = .Expect → phys = none)
    (h : m.walk params mode infos phys t a = some w) : KindsKept t w.nodes := by
  rcases walkMemory_some h with ⟨_, rfl⟩ | ⟨_, c, hc, hpages⟩
  · exact fun q x hx => ⟨x, hx, rfl⟩
  · obtain ⟨_, hppgtt, hm, _⟩ := walkContext_some hc
    rw [← hppgtt] at wf
    obtain ⟨_, _, hkinds, _⟩ := walkPages_rule (P := fun _ w => KindsKept t w.nodes)
      (fun page _ w wf expect _ _ kinds q x hx => by
        obtain ⟨y, hy, hk⟩ := kinds q x hx
        obtain ⟨z, hz, hk'⟩ := @walkPage_keeps_kind _ _ _ page _ _ _ wf expect hy
        exact ⟨z, hz, hk'.trans hk⟩)
      (fun w w' _ hnodes _ _ kinds => by rwa [hnodes]) _ _ _ _ _ w wf
      (fun hexpect => expect (hm ▸ hexpect)) hpages
    exact hkinds fun q x hx => ⟨x, hx, rfl⟩

theorem walk_kinds {params : AllocationParams} {mode : WalkMode} {infos : List PageInfo}
    {phys : Option Nat} {t : Nodes} {a : A} {w : WalkState A}
    (wf : Wf m.tables.ppgtt.getNumLevels t) (hmode : mode ≠ .Expect)
    (h : m.walk params mode infos phys t a = some w) : KindsKept t (commit w) := by
  have hw := walk_keepsKinds m wf (fun hexpect => absurd hexpect hmode) h
  intro q x hx
  obtain ⟨y, hy, hk⟩ := hw q x hx
  cases hz : commit w q with
  | none =>
    have := congrFun (commit_layout w) q
    rw [layout_eq_none.mpr hz, layout_some hy] at this
    cases this
  | some z =>
    obtain ⟨y', hy', _, hk'⟩ := commit_some hz m.tables.gpu
    obtain rfl : y' = y := Option.some.inj (hy'.symm.trans hy)
    exact ⟨z, rfl, hk'.trans hk⟩

/-- The trees stay well formed, and no last-level table is empty. -/
theorem walk_tree {params : AllocationParams} {mode : WalkMode} {infos : List PageInfo}
    {phys : Option Nat} {t : Nodes} {a : A} {w : WalkState A}
    (wf : Wf m.tables.ppgtt.getNumLevels t) (inhabited : Inhabited t)
    (expect : mode = .Expect → phys = none) (h : m.walk params mode infos phys t a = some w) :
    Wf m.tables.ppgtt.getNumLevels (commit w) ∧ Inhabited (commit w) := by
  rw [← wf_layout, ← inhabited_layout, commit_layout, wf_layout, inhabited_layout]
  constructor
  · have hrun : runWalk m.tables ⟨t, a⟩ params mode infos phys = some ⟨w.nodes, w.allocator⟩ :=
      Option.map_eq_some_iff.mpr ⟨w, h, rfl⟩
    exact runWalk_wf wf expect hrun
  · rcases walkMemory_some h with ⟨_, rfl⟩ | ⟨_, c, hc, hpages⟩
    · exact inhabited
    · obtain ⟨_, hppgtt, hm, _⟩ := walkContext_some hc
      rw [← hppgtt] at wf
      exact walkPages_inhabited wf (fun hexpect => expect (hm ▸ hexpect)) hpages inhabited

/-- With a physical address and PS64 the request must not go around the end of the address
space. -/
theorem walk_tracked {params : AllocationParams} {mode : WalkMode} {infos : List PageInfo}
    {phys : Option Nat} {t : Nodes} {a : A} {w : WalkState A}
    (wf : Wf m.tables.ppgtt.getNumLevels t) (expect : mode = .Expect → phys = none)
    (space : phys ≠ none → m.tables.enablePs64 = true → params.pageSize = pageSize4KB →
      m.tables.ppgtt = .PML5 →
      InSpace m.tables.ppgtt.getNumLevels params.gfxAddress params.size)
    (h : m.walk params mode infos phys t a = some w) :
    PendingEntries.Tracked m.tables.gpu m.tables.ppgtt.getNumLevels t w := by
  rcases walkMemory_some h with ⟨_, rfl⟩ | ⟨_, c, hc, hpages⟩
  · exact tracked_start _ _ t a phys
  · obtain ⟨hgpu, hppgtt, hm, _⟩ := walkContext_some hc
    rw [← hgpu, ← hppgtt]
    rw [← hppgtt] at wf
    cases phys with
    | none => exact tracked_walk wf hpages
    | some p =>
      refine tracked_map wf (fun hexpect => ?_) (fun happ => ?_) hpages
      · cases expect (hm ▸ hexpect)
      · obtain ⟨henable, hpageSize, hkind⟩ := (ps64Applicable_iff hc).mp happ
        rw [hppgtt]
        exact space (by simp) henable hpageSize hkind

/-- A walk writes every entry that it changes. -/
theorem walk_documented {params : AllocationParams} {mode : WalkMode} {infos : List PageInfo}
    {phys : Option Nat} {t : Nodes} {a : A} {w : WalkState A}
    (wf : Wf m.tables.ppgtt.getNumLevels t) (hmode : mode ≠ .Expect)
    (space : phys ≠ none → m.tables.enablePs64 = true → params.pageSize = pageSize4KB →
      m.tables.ppgtt = .PML5 →
      InSpace m.tables.ppgtt.getNumLevels params.gfxAddress params.size)
    (h : m.walk params mode infos phys t a = some w) :
    Documented m.tables.gpu t (commit w) (fun _ => false) (entriesOf (m.writePages w)) :=
  documented_of_tracked m (walk_tracked m wf (fun hm => absurd hm hmode) space h)

/-- Between two pages of a walk that places its own leaves. -/
structure MappedRun (c : WalkContext) (g stop a size : Nat) (s : Layout A) : Prop where
  bounds : g ≤ a ∧ a + size = stop
  own : s.physicalAddress = none
  mapped : ∀ x, g ≤ x → x < a →
    s.nodes (slotFor c.ppgtt.getNumLevels (lastTable c s.nodes) x) ≠ none

theorem mappedRun_step {c : WalkContext} {g stop : Nat} {s : Layout A} {page : PageRequest}
    (wf : Wf c.ppgtt.getNumLevels s.nodes) (visited : Visited c page s (placePage c page s).1)
    (run : MappedRun c g stop page.gfxAddress page.size s) :
    MappedRun c g stop
      (page.gfxAddress + sizeThisIteration page (lastTable c s.nodes page.gfxAddress).getPageSize)
      (page.size - sizeThisIteration page (lastTable c s.nodes page.gfxAddress).getPageSize)
      (placePage c page s).1 := by
  have hk := pageKinds_lastTable wf
  have hpos := (hk.region page.gfxAddress).getPageSize_pos
  obtain ⟨hga, hstop⟩ := run.bounds
  have hpassed : sizeThisIteration page (lastTable c s.nodes page.gfxAddress).getPageSize =
      min page.size ((lastTable c s.nodes page.gfxAddress).getPageSize -
        page.gfxAddress % (lastTable c s.nodes page.gfxAddress).getPageSize) := rfl
  refine ⟨by omega, placePage_physicalAddress_none c page run.own, fun x h1 h2 => ?_⟩
  have hslot : slotFor c.ppgtt.getNumLevels (lastTable c (placePage c page s).1.nodes) x =
      slotFor c.ppgtt.getNumLevels (lastTable c s.nodes) x := by
    rw [slotFor, slotFor, visited.kinds]
  rw [hslot]
  by_cases hx : x < page.gfxAddress
  · obtain ⟨y, hy⟩ := Option.ne_none_iff_exists'.mp (run.mapped x h1 hx)
    rw [visited.added run.own _ y hy]
    simp
  · obtain ⟨leaf, hleaf, _⟩ := visited.leaf
    have hpage := samePage hpos (Nat.le_of_not_lt hx) (by omega : x < page.gfxAddress +
      ((lastTable c s.nodes page.gfxAddress).getPageSize -
        page.gfxAddress % (lastTable c s.nodes page.gfxAddress).getPageSize))
    have hsame : slotFor c.ppgtt.getNumLevels (lastTable c s.nodes) x =
        visitSlot c (page, s) := by
      unfold slotFor
      rw [kinds_of_page hk hpage]
      exact (leafSlot_congr (hk.region page.gfxAddress) hpage).symm
    rw [hsame, hleaf]
    simp

/-- Such a walk leaves its whole range mapped. -/
theorem walk_mapped {params : AllocationParams} {t : Nodes} {a : A} {w : WalkState A}
    (wf : Wf m.tables.ppgtt.getNumLevels t) (h : m.walk params .Reserve [] none t a = some w) {x : Nat}
    (h1 : params.gfxAddress ≤ x) (h2 : x < params.gfxAddress + params.size) :
    IsMapped m.tables.ppgtt.getNumLevels (commit w) x := by
  rw [← isMapped_layout, commit_layout]
  rcases walkMemory_some h with ⟨hzero, _⟩ | ⟨_, c, hc, hpages⟩
  · omega
  · obtain ⟨_, hppgtt, hmode, _⟩ := walkContext_some hc
    rw [← hppgtt] at wf ⊢
    obtain ⟨hwf, g', size', _, run, hstop⟩ := walkPages_visits
      (J := fun a' size' _ s => MappedRun c params.gfxAddress (params.gfxAddress + params.size)
        a' size' s)
      (fun size' index s page wf _ _ _ hps visited run => by
        subst hps
        exact mappedRun_step wf visited run)
      _ _ _ _ _ w (Nat.le_refl _) wf (fun hexpect => by rw [hmode] at hexpect; cases hexpect) hpages
      ⟨⟨Nat.le_refl _, rfl⟩, rfl, fun y hy1 hy2 => by omega⟩
    have hz : size' = 0 := by
      rcases hstop with hz | ⟨hexpect, _⟩
      · exact hz
      · rw [hmode] at hexpect
        cases hexpect
    have hbounds := run.bounds
    have hwf' : Wf c.ppgtt.getNumLevels (layoutOf w).nodes := wf_layout.mpr hwf
    have hleaf := run.mapped x h1 (by omega)
    unfold IsMapped
    exact fun hnone => hleaf ((leafAt_before hwf' x).symm.trans hnone)

/-- A free writes every entry that it changes, unless it gives up. -/
theorem free_documented {t : Nodes} {a : A} {g size : Nat} {lost : Path → Bool}
    (wf : Wf m.tables.ppgtt.getNumLevels t) (inhabited : Inhabited t)
    (h : (freeMemory m.tables.gpu m.tables.ppgtt t a g size).2 = true ∨ ∀ q, lost q = false →
      entryChanged m.tables.gpu t (freeMemory m.tables.gpu m.tables.ppgtt t a g size).1.nodes q =
        false) :
    Documented m.tables.gpu t (freeMemory m.tables.gpu m.tables.ppgtt t a g size).1.nodes lost
      (entriesOf (m.writeFreed (freeMemory m.tables.gpu m.tables.ppgtt t a g size))) := by
  obtain ⟨hwf, _, _, _, run, _⟩ := freePages_run (c := ⟨m.tables.ppgtt, m.tables.gpu, g, g + size⟩)
    (a := a) wf inhabited g size
  intro q y _ hy hlost
  obtain ⟨x, hx, _⟩ := run.tracked.shrinks q y hy
  have haddress : entryAddress (freeMemory m.tables.gpu m.tables.ppgtt t a g size).1.nodes q =
      entryAddress t q := by
    cases q with
    | nil => rfl
    | cons i p =>
      obtain ⟨parent, hp, _⟩ := hwf.parent i p y hy
      exact run.tracked.entryAddress_eq hp i
  rw [entryOf, haddress]
  by_cases hvalue : y.getEntryValue m.tables.gpu = x.getEntryValue m.tables.gpu
  · exact Or.inl ⟨x, hx, by rw [hvalue]; rfl⟩
  · rcases h with hpassed | hsame
    · right
      rw [entriesOf_writeFreed, writtenEntries, if_pos hpassed]
      exact run.tracked.values q y x hy hx hvalue
    · have := hsame q hlost
      simp only [entryChanged, hx, hy, bne_eq_false_iff_eq] at this
      exact absurd this.symm hvalue

end

end WrittenPaths
