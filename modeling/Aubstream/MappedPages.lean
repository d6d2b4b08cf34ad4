import Aubstream.FreeComplete
import Aubstream.TableAgreement

/-!
# Pages as addresses find them

Walks and frees by virtual address: which pages are there afterwards, where they
lie, and who owns the memory behind them.
-/

namespace MappedPages
open EntryBits PathTree PhysicalAllocator PageNodes PageWalker TreeShape WalkPhases Placement
  Translation MapFrame FreeMemory FreePhases FreeRounds FreeComplete WalkLeaves TableRuns TableAgreement

/-- `owned` is the block of a page that was constructed with the allocator. -/
structure MappedPage where
  physicalAddress : Nat
  memoryBank : Nat
  owned : Option Block
  size : Nat

def MappedPage.isLocalMemory (p : MappedPage) : Bool := p.memoryBank != 0

def pageOf (leaf : PageNode) (size : Nat) : MappedPage :=
  ⟨leaf.physicalAddress, leaf.memoryBank, leaf.allocator, size⟩

def pageAt (n : Nat) (t : Nodes) (x : Nat) : Option MappedPage :=
  (leafAt n t x).map fun leaf => pageOf leaf (pageSizeAt n t x)

/-- The page is a block that its node owns. -/
def MappedPage.Owns (p : MappedPage) : Prop :=
  ∃ b, p.owned = some b ∧ b.size = p.size ∧ p.size ∣ p.physicalAddress

theorem pageAt_layout (n : Nat) (t : Nodes) (x : Nat) : pageAt n (layout t) x = pageAt n t x := by
  rw [pageAt, pageAt, leafAt_layout, pageSizeAt_layout, Option.map_map]
  rfl

theorem pageAt_of_slot {c : WalkContext} {t : Nodes} (wf : Wf c.ppgtt.getNumLevels t) (x : Nat) :
    pageAt c.ppgtt.getNumLevels t x =
      (t (slotFor c.ppgtt.getNumLevels (lastTable c t) x)).map fun leaf =>
        pageOf leaf (lastTable c t x).getPageSize := by
  rw [pageAt]
  cases h : leafAt c.ppgtt.getNumLevels t x with
  | none =>
    rw [leafAt_before wf] at h
    rw [h]
    rfl
  | some leaf =>
    rw [pageSizeAt_before (c := c) (by rw [h]; simp)]
    rw [leafAt_before wf] at h
    rw [h]

theorem pageAt_congr {c : WalkContext} {t : Nodes} (wf : Wf c.ppgtt.getNumLevels t) {x b : Nat}
    (h : slotFor c.ppgtt.getNumLevels (lastTable c t) x =
      slotFor c.ppgtt.getNumLevels (lastTable c t) b) :
    pageAt c.ppgtt.getNumLevels t x = pageAt c.ppgtt.getNumLevels t b := by
  rw [pageAt_of_slot wf, pageAt_of_slot wf, h, (region_of_slot wf h).2]

/-! ### Walks -/

section Walks
variable {A : Type} {c : WalkContext} {t : Nodes} {made : Path → PageNode → Prop}
  {g stop a size x : Nat} {s : Layout A} {p : MappedPage}

theorem pageAt_kept (run : MakeRun c t made g stop a size s)
    (wf : Wf c.ppgtt.getNumLevels t) (wf' : Wf c.ppgtt.getNumLevels s.nodes)
    (h : pageAt c.ppgtt.getNumLevels t x = some p) :
    pageAt c.ppgtt.getNumLevels s.nodes x = some p := by
  have hkinds : lastTable c s.nodes = lastTable c t := funext run.add.kinds
  rw [pageAt_of_slot wf] at h
  obtain ⟨leaf, hleaf, rfl⟩ := Option.map_eq_some_iff.mp h
  rw [pageAt_of_slot wf', hkinds, run.add.kept _ leaf hleaf]
  rfl

/-- A page was there or is of the walk's making, for an address that the walk has passed. -/
theorem pageAt_cases (run : MakeRun c t made g stop a size s)
    (wf : Wf c.ppgtt.getNumLevels t) (wf' : Wf c.ppgtt.getNumLevels s.nodes)
    (h : pageAt c.ppgtt.getNumLevels s.nodes x = some p) :
    pageAt c.ppgtt.getNumLevels t x = some p ∨ pageAt c.ppgtt.getNumLevels t x = none ∧
      ∃ leaf b, p = pageOf leaf (lastTable c t x).getPageSize ∧
        made (slotFor c.ppgtt.getNumLevels (lastTable c t) x) leaf ∧ g ≤ b ∧ b < a ∧
        slotFor c.ppgtt.getNumLevels (lastTable c t) x =
          slotFor c.ppgtt.getNumLevels (lastTable c t) b := by
  have hkinds : lastTable c s.nodes = lastTable c t := funext run.add.kinds
  rw [pageAt_of_slot wf', hkinds] at h
  obtain ⟨leaf, hleaf, rfl⟩ := Option.map_eq_some_iff.mp h
  rw [pageAt_of_slot wf]
  cases hold : t (slotFor c.ppgtt.getNumLevels (lastTable c t) x) with
  | some m =>
    have hm := run.add.kept _ m hold
    rw [hleaf, Option.some.injEq] at hm
    subst hm
    exact Or.inl rfl
  | none =>
    have hkind : IsLeaf leaf.kind := by
      rw [← hkinds] at hleaf
      exact (isLeaf_of_slot wf' hleaf).2
    rcases run.add.new _ leaf hleaf hkind with hm | ⟨b, h1, h2, hb⟩
    · rw [hold] at hm
      cases hm
    · exact Or.inr ⟨rfl, leaf, b, rfl, run.made _ leaf hleaf hkind hold, h1, h2, hb⟩

end Walks

section Writes
variable {cfg : Config} {params : AllocationParams} {t₀ t : Nodes}
  {a a' : PhysicalAddressAllocatorSimple} {w₀ w : WalkState PhysicalAddressAllocatorSimple}

/-- A Reserve walk adds pages that own their blocks. -/
theorem reserve_pages (wf : Wf cfg.ppgtt.getNumLevels t) (free : FreePagesAligned a)
    (h : walkMemory cfg.gpu cfg.enablePs64 cfg.ppgtt t a params .Reserve [] none = some w) :
    (∀ x p, pageAt cfg.ppgtt.getNumLevels t x = some p →
      pageAt cfg.ppgtt.getNumLevels w.nodes x = some p) ∧
    ∀ x p, pageAt cfg.ppgtt.getNumLevels w.nodes x = some p →
      pageAt cfg.ppgtt.getNumLevels t x = some p ∨ p.Owns := by
  rcases walkMemory_some h with ⟨_, rfl⟩ | ⟨_, c, hc, hpages⟩
  · exact ⟨fun _ _ hp => hp, fun _ _ hp => Or.inl hp⟩
  · obtain ⟨_, hppgtt, hmode, _⟩ := walkContext_some hc
    rw [← hppgtt] at wf ⊢
    obtain ⟨wf', run⟩ := recordRun_walk wf hmode (bank_isLocal hc) free hpages
    have hkept := fun x p => @pageAt_kept _ _ _ _ _ _ _ _ x _ p run.make (wf_layout.mpr wf)
      (wf_layout.mpr wf')
    have hcases := fun x p => @pageAt_cases _ _ _ _ _ _ _ _ x _ p run.make (wf_layout.mpr wf)
      (wf_layout.mpr wf')
    simp only [layoutOf, pageAt_layout] at hkept hcases
    refine ⟨hkept, fun x p hp => ?_⟩
    rcases hcases x p hp with hold | ⟨_, leaf, _, rfl, ⟨_, hnew⟩, _⟩
    · exact Or.inl hold
    · obtain ⟨hdvd, b, hb, hsize⟩ := hnew x rfl
      exact Or.inr ⟨b, hb, hsize, hdvd⟩

/-- What a write with `params` asks of another table than the first so that its clones are good:
the page sizes are the same, and a page that is about to be cloned is in the memory of the write. -/
def Clonable (cfg : Config) (params : AllocationParams) (t₀ t : Nodes) : Prop :=
  ∀ x, params.gfxAddress ≤ x → x < params.gfxAddress + params.size →
    pageKindAt cfg.ppgtt (adjustPageSizeForHardwareSupport cfg.gpu params.pageSize
        params.memoryBanks) t x = pageKindAt cfg.ppgtt (adjustPageSizeForHardwareSupport cfg.gpu
        params.pageSize params.memoryBanks) t₀ x ∧
      ∀ p₀, pageAt cfg.ppgtt.getNumLevels t₀ x = some p₀ →
        pageAt cfg.ppgtt.getNumLevels t x = none → p₀.isLocalMemory = (params.memoryBanks != 0)

/-- `p` is `p₀` in the table of another device, which does not own it. -/
structure CloneOf (p p₀ : MappedPage) : Prop where
  owned : p.owned = none
  size : p.size = p₀.size
  isLocal : p.isLocalMemory = p₀.isLocalMemory
  address : p.physicalAddress = p₀.physicalAddress

/-- The first table's page for an address in a page that both walks have passed. -/
theorem page_of_pair {c₀ c : WalkContext} (pair : WalkPair cfg params t₀ t w₀ w c₀ c)
    (wf : Wf c.ppgtt.getNumLevels (layout t)) {x b : Nat}
    (h1 : params.gfxAddress ≤ b) (h2 : b < params.gfxAddress + params.size)
    (hkind : lastTable c (layout t) b = lastTable c₀ (layout t₀) b)
    (hslot : slotFor c.ppgtt.getNumLevels (lastTable c (layout t)) x =
      slotFor c.ppgtt.getNumLevels (lastTable c (layout t)) b) :
    slotFor c₀.ppgtt.getNumLevels (lastTable c₀ (layout t₀)) x =
        slotFor c₀.ppgtt.getNumLevels (lastTable c₀ (layout t₀)) b ∧
      ∃ leaf₀, layout w₀.nodes (slotFor c.ppgtt.getNumLevels (lastTable c (layout t)) x) = some leaf₀ ∧
        pageAt c₀.ppgtt.getNumLevels w₀.nodes x =
          some (pageOf leaf₀ (lastTable c (layout t) x).getPageSize) := by
  have hsame : c.ppgtt = c₀.ppgtt := pair.ppgtt.trans pair.ppgtt₀.symm
  have hkinds₀ : lastTable c₀ (layout w₀.nodes) = lastTable c₀ (layout t₀) :=
    funext pair.run₀.add.kinds
  obtain ⟨hpath, hkindx⟩ := region_of_slot wf hslot
  have hkind₀ : lastTable c₀ (layout t₀) x = lastTable c (layout t) x := by
    rw [hkindx, hkind, lastTable, lastTable, ← hsame, hpath]
  have hslotx : slotFor c₀.ppgtt.getNumLevels (lastTable c₀ (layout t₀)) x =
      slotFor c.ppgtt.getNumLevels (lastTable c (layout t)) x := by
    rw [slotFor, slotFor, hkind₀, hsame]
  have hslotb : slotFor c₀.ppgtt.getNumLevels (lastTable c₀ (layout t₀)) b =
      slotFor c.ppgtt.getNumLevels (lastTable c (layout t)) b := by
    rw [slotFor, slotFor, hkind, hsame]
  obtain ⟨leaf₀, hleaf₀⟩ := Option.ne_none_iff_exists'.mp (pair.run₀.add.entered b h1 h2)
  rw [hslotb, ← hslot] at hleaf₀
  refine ⟨hslotx.trans (hslot.trans hslotb.symm), leaf₀, hleaf₀, ?_⟩
  rw [← pageAt_layout, pageAt_of_slot pair.wf₀, hkinds₀, hslotx, hkind₀]
  have hleaf : layout w₀.nodes (slotFor c.ppgtt.getNumLevels (lastTable c (layout t)) x) =
    some leaf₀ := hleaf₀
  rw [hleaf]
  rfl

/-- A clone walk adds clones of the first table's pages. -/
theorem clone_pages (wf₀ : Wf cfg.ppgtt.getNumLevels t₀) (wf : Wf cfg.ppgtt.getNumLevels t)
    (free : FreePagesAligned a)
    (h₀ : walkMemory cfg.gpu cfg.enablePs64 cfg.ppgtt t₀ a params .Reserve [] none = some w₀)
    (h : walkMemory cfg.gpu cfg.enablePs64 cfg.ppgtt t a' params .Clone w₀.entries none = some w)
    (aligned : ∀ x p₀, pageAt cfg.ppgtt.getNumLevels w₀.nodes x = some p₀ →
      p₀.size ∣ p₀.physicalAddress) (clonable : Clonable cfg params t₀ t) :
    ∀ x p, pageAt cfg.ppgtt.getNumLevels w.nodes x = some p →
      pageAt cfg.ppgtt.getNumLevels t x = some p ∨
        ∃ p₀, pageAt cfg.ppgtt.getNumLevels w₀.nodes x = some p₀ ∧ CloneOf p p₀ := by
  by_cases hsize : params.size = 0
  · rw [walkMemory, if_pos hsize, Option.some.injEq] at h
    subst h
    exact fun x p hp => Or.inl hp
  obtain ⟨w', c₀, c, hw', pair⟩ := @cloneMemory_runs cfg params t₀ t a a' w₀ wf₀ wf free hsize h₀
    fun x h1 h2 => (clonable x h1 h2).1
  obtain rfl : w = w' := Option.some.inj (h.symm.trans hw')
  intro x p hp
  have hsame : c.ppgtt = c₀.ppgtt := pair.ppgtt.trans pair.ppgtt₀.symm
  unfold Clonable at clonable
  rw [← pair.kinds₀, ← pair.kinds, ← pair.ppgtt₀] at clonable
  rw [← pair.ppgtt₀] at wf₀ wf aligned hp ⊢
  have wfc : Wf c.ppgtt.getNumLevels (layout t) := by
    rw [hsame]
    exact wf_layout.mpr wf
  have wfc' : Wf c.ppgtt.getNumLevels (layout w.nodes) := by
    rw [hsame]
    exact pair.wf
  have hcases := @pageAt_cases _ _ _ _ _ _ _ _ x _ p pair.run wfc wfc'
  simp only [layoutOf, pageAt_layout, hsame] at hcases
  rcases hcases hp with hold | ⟨hnone, leaf, b, rfl, hcopy, h1, h2, hslot⟩
  · exact Or.inl hold
  · right
    obtain ⟨hkind, hlocal⟩ := clonable b h1 h2
    rw [← hsame] at hslot
    obtain ⟨hslot₀, leaf₀, hleaf₀, hpage₀⟩ := page_of_pair pair wfc h1 h2 hkind hslot
    rw [← hsame] at hcopy
    obtain ⟨hphys, hbank⟩ := hcopy.2 x leaf₀ rfl hleaf₀ (aligned x _ hpage₀)
    refine ⟨_, hpage₀, hcopy.1, rfl, ?_, hphys⟩
    -- the first table's page is new, or its memory is a matter of the condition
    have hlocal₀ : (pageOf leaf₀ (lastTable c (layout t) x).getPageSize).isLocalMemory =
        (params.memoryBanks != 0) := by
      rw [← pageAt_layout] at hpage₀
      rcases pageAt_cases pair.run₀ (wf_layout.mpr wf₀) pair.wf₀ hpage₀ with
        hold₀ | ⟨_, m, _, heq, ⟨hnew, _⟩, _⟩
      · rw [pageAt_congr (wf_layout.mpr wf₀) hslot₀, pageAt_layout] at hold₀
        refine hlocal _ hold₀ ?_
        rw [← hsame, ← pageAt_layout, ← pageAt_congr wfc hslot, pageAt_layout, hsame]
        exact hnone
      · rw [heq]
        exact hnew
    exact hbank.trans hlocal₀.symm

end Writes

/-! ### Frees -/

/-- A free of `size` bytes at `g` gets to `x`. -/
def Reaches (n : Nat) (t : Nodes) (g size x : Nat) : Prop :=
  g ≤ x ∧ x < g + size ∧ ∀ y, g ≤ y → y ≤ x → Live n t g y

/-- A free of `size` bytes at `g` enters the page of `b`. -/
def Frees (n : Nat) (t : Nodes) (g size b : Nat) : Prop :=
  ∃ x, Reaches n t g size x ∧ pageSlot n t x = pageSlot n t b

section Frees
variable {A : Type} {gpu : Gpu} {n : Nat} {t : Nodes} {s : FreeState A} {b : Nat} {p : MappedPage}

/-- A page that is left was there. -/
theorem pageAt_of_tracked (tracked : Tracked gpu t s) (h : pageAt n s.nodes b = some p) :
    pageAt n t b = some p ∧ ∃ q, pageSlot n t b = some q ∧ s.nodes q ≠ none := by
  obtain ⟨leaf, hleaf, rfl⟩ := Option.map_eq_some_iff.mp h
  obtain ⟨m, hm, hslot⟩ := Option.bind_eq_some_iff.mp hleaf
  obtain ⟨m₀, hm₀, hkind⟩ := region_of_tracked tracked hm
  obtain ⟨leaf₀, hleaf₀, heq⟩ := tracked.shrinks _ leaf hslot
  have hcore := (core_of_setPs64 heq).1
  rw [← hkind] at hslot hleaf₀
  refine ⟨?_, _, pageSlot_of_region hm₀, by rw [hslot]; simp⟩
  rw [pageAt, leafAt_of_region hm₀, hleaf₀, Option.map_some, pageSizeAt_of_region hm₀,
    pageSizeAt_of_region hm, hkind]
  have hpage := congrArg (fun leaf => pageOf leaf m.kind.getPageSize) hcore
  exact congrArg some hpage.symm

/-- A page stays with its leaf. -/
theorem pageAt_stays (wf : Wf n s.nodes) (tracked : Tracked gpu t s) (h : pageAt n t b = some p)
    (stays : ∀ q, pageSlot n t b = some q → s.nodes q ≠ none) : pageAt n s.nodes b = some p := by
  obtain ⟨leaf₀, hleaf₀, rfl⟩ := Option.map_eq_some_iff.mp h
  obtain ⟨m₀, hm₀, hslot₀⟩ := Option.bind_eq_some_iff.mp hleaf₀
  obtain ⟨leaf, hleaf⟩ := Option.ne_none_iff_exists'.mp (stays _ (pageSlot_of_region hm₀))
  obtain ⟨m, hm⟩ := region_of_leafSlot wf hleaf
  obtain ⟨m', hm', hkind⟩ := region_of_tracked tracked hm
  obtain rfl : m₀ = m' := Option.some.inj (hm₀.symm.trans hm')
  obtain ⟨leaf', hleaf', heq⟩ := tracked.shrinks _ leaf hleaf
  obtain rfl : leaf₀ = leaf' := Option.some.inj (hslot₀.symm.trans hleaf')
  have hcore := (core_of_setPs64 heq).1
  rw [hkind] at hleaf
  rw [pageAt, leafAt_of_region hm, hleaf, Option.map_some, pageSizeAt_of_region hm₀,
    pageSizeAt_of_region hm, hkind]
  have hpage := congrArg (fun leaf => pageOf leaf m.kind.getPageSize) hcore
  exact congrArg some hpage

end Frees

variable {A : Type} [PhysicalAddressAllocator A] {gpu : Gpu} {ppgtt : PpgttKind} {t : Nodes}

/-- Where a free ends: the addresses it has passed are those it reaches. -/
theorem freeMemory_run (a : A) (wf : Wf ppgtt.getNumLevels t) (inhabited : LastTables.Inhabited t)
    (g size : Nat) :
    Wf ppgtt.getNumLevels (freeMemory gpu ppgtt t a g size).1.nodes ∧
      ∃ stop size', FreeRun ⟨ppgtt, gpu, g, g + size⟩ t g (g + size) stop size'
          (freeMemory gpu ppgtt t a g size).1 ∧
        ∀ x, Reaches ppgtt.getNumLevels t g size x ↔ g ≤ x ∧ x < stop := by
  obtain ⟨hwf, h⟩ := freePages_rule (c := ⟨ppgtt, gpu, g, g + size⟩)
    (P := FreeRun ⟨ppgtt, gpu, g, g + size⟩ t g (g + size))
    (fun _ _ _ _ _ wf' hsize run h => freeRun_round wf wf' hsize run h) size g size
    ⟨t, a, fun _ => []⟩ (Nat.le_refl _) wf (freeRun_start inhabited g size)
  refine ⟨hwf, ?_⟩
  have passed : ∀ stop size', FreeRun ⟨ppgtt, gpu, g, g + size⟩ t g (g + size) stop size'
      (freeMemory gpu ppgtt t a g size).1 → ∀ x, g ≤ x → x < stop →
      Reaches ppgtt.getNumLevels t g size x := by
    intro stop size' run x h1 h2
    have hbounds := run.bounds
    exact ⟨h1, by omega, fun y hy1 hy2 => run.passed y hy1 (by omega)⟩
  rcases h with ⟨_, stop, run⟩ | ⟨_, stop, size', hpos, run, hnone⟩
  · refine ⟨stop, 0, run, fun x => ⟨fun reaches => ⟨reaches.1, ?_⟩, fun h => passed _ _ run x h.1 h.2⟩⟩
    have hbounds := run.bounds
    have hlt := reaches.2.1
    omega
  · refine ⟨stop, size', run, fun x => ⟨fun reaches => ⟨reaches.1, ?_⟩,
      fun h => passed _ _ run x h.1 h.2⟩⟩
    by_contra hge
    have live := reaches.2.2 stop run.bounds.1 (by omega)
    exact region_of_live wf hwf run hpos live hnone

/-- A free takes away the pages it enters, and no others. -/
theorem freeMemory_pageAt (a : A) (wf : Wf ppgtt.getNumLevels t) (inhabited : LastTables.Inhabited t)
    (g size b : Nat) (p : MappedPage) :
    pageAt ppgtt.getNumLevels (freeMemory gpu ppgtt t a g size).1.nodes b = some p ↔
      pageAt ppgtt.getNumLevels t b = some p ∧ ¬ Frees ppgtt.getNumLevels t g size b := by
  obtain ⟨hwf, stop, size', run, reaches⟩ := @freeMemory_run A _ gpu ppgtt t a wf inhabited g size
  constructor
  · intro h
    obtain ⟨hold, q, hq, hleft⟩ := pageAt_of_tracked run.tracked h
    refine ⟨hold, ?_⟩
    rintro ⟨x, hx, hslot⟩
    obtain ⟨h1, h2⟩ := (reaches x).mp hx
    exact hleft (run.gone q ⟨x, h1, h2, hslot.trans hq⟩)
  · rintro ⟨h, hnot⟩
    refine pageAt_stays hwf run.tracked h fun q hq => ?_
    obtain ⟨leaf, hleaf, _⟩ := Option.map_eq_some_iff.mp h
    obtain ⟨m, hm, hslot⟩ := Option.bind_eq_some_iff.mp hleaf
    obtain rfl : leafSlot ppgtt.getNumLevels m.kind b = q :=
      Option.some.inj ((pageSlot_of_region hm).symm.trans hq)
    refine run.kept _ leaf hslot (isLeaf_of_leafAt wf (getNumLevels_ge ppgtt) hm hslot) ?_
    rintro ⟨x, h1, h2, hx⟩
    exact hnot ⟨x, (reaches x).mpr ⟨h1, h2⟩, hx.trans hq.symm⟩

end MappedPages
