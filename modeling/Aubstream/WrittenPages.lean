import Aubstream.MappedPages
import Aubstream.ReserveFrame

/-!
# The tables and pages of a write

A walk makes tables only where an address of its range has none, and the records
of a write are parts of pages that the walk leaves in the tree.
-/

namespace WrittenPages
open EntryBits PathTree PhysicalAllocator PageNodes PageWalker TreeShape WalkPhases Placement
  Translation PageEffect PageVisits MapCursor MapFrame ReserveFrame WalkEntries WalkLeaves TableRuns
  MappedPages

/-- Every address of a range has the table that its page goes to. -/
def Tabled (n : Nat) (kinds : Nat → NodeKind) (t : Nodes) (g size : Nat) : Prop :=
  ∀ x, g ≤ x → x < g + size → t (slotPath n (leafLevel (kinds x) + 1) x) ≠ none

/-- Between two pages of a walk over a range that has its tables. -/
structure TabledRun (c : WalkContext) (t : Nodes) (g stop x size : Nat) {A : Type} (s : Layout A) :
    Prop where
  bounds : g ≤ x ∧ x + size = stop
  kinds : ∀ b, lastTable c s.nodes b = lastTable c t b
  old : ∀ y m, s.nodes y = some m → ¬ IsLeaf m.kind → t y ≠ none

/-- The byte of local or system memory that an address of the range is mapped to. -/
def ByteOf (n : Nat) (t : Nodes) (g size : Nat) (isLocalMemory : Bool) (y : Nat) : Prop :=
  ∃ x p, g ≤ x ∧ x < g + size ∧ pageAt n t x = some p ∧ p.isLocalMemory = isLocalMemory ∧
    y = p.physicalAddress + x % p.size

section
variable {A : Type} [PhysicalAddressAllocator A] {c : WalkContext} {page : PageRequest}
  {s : Layout A} {t : Nodes} {g stop size : Nat}

/-- The leaf that a page enters is one. -/
theorem visitSlot_isLeaf (wf : Wf c.ppgtt.getNumLevels s.nodes) (hmode : c.mode ≠ .Expect)
    {m : PageNode} (hm : (placePage c page s).1.nodes (visitSlot c (page, s)) = some m) :
    IsLeaf m.kind := by
  obtain ⟨leaf, hleaf, hkept, hnew, _⟩ := (placePage_placed page wf hmode).1.leaf
  obtain rfl := Option.some.inj (hm.symm.trans hleaf)
  cases hold : s.nodes (visitSlot c (page, s)) with
  | some x =>
    rw [hkept x hold]
    exact (isLeaf_of_slot wf hold).2
  | none =>
    rw [hnew hold]
    unfold leafKind
    split
    · exact .page2MB
    · exact .memory

theorem tabledRun_step (wf₀ : Wf c.ppgtt.getNumLevels t) (wf : Wf c.ppgtt.getNumLevels s.nodes)
    (hmode : c.mode ≠ .Expect)
    (tabled : Tabled c.ppgtt.getNumLevels (lastTable c t) t g (stop - g))
    (hsize : 0 < size) (hps : page.size = size)
    (run : TabledRun c t g stop page.gfxAddress size s) :
    TabledRun c t g stop (page.gfxAddress + (placePage c page s).2) (size - (placePage c page s).2)
      (placePage c page s).1 := by
  obtain ⟨hplaced, hpassed⟩ := placePage_placed page wf hmode
  obtain ⟨hga, hstop⟩ := run.bounds
  have hle : (placePage c page s).2 ≤ size := by
    rw [hpassed, sizeThisIteration, hps]
    exact Nat.min_le_left _ _
  refine ⟨by omega, ?_, ?_⟩
  · intro b
    rcases placePage_visited page wf (fun h => absurd h hmode) with ⟨hexpect, _⟩ | ⟨visited, _⟩
    · exact absurd hexpect hmode
    · exact (visited.kinds b).trans (run.kinds b)
  · intro y m hm htable
    by_cases hslot : y = visitSlot c (page, s)
    · rw [hslot] at hm
      exact absurd (visitSlot_isLeaf wf hmode hm) htable
    · rcases hplaced.new y m hm hslot with hold | ⟨l, h1, h2, rfl, _⟩
      · exact run.old y m hold htable
      · rw [run.kinds] at h1
        have hslot := tabled page.gfxAddress hga (by omega)
        have above := slotPath_above wf₀
          (l - (leafLevel (lastTable c t page.gfxAddress) + 1)) (by omega) hslot
        rwa [Nat.add_sub_cancel' h1] at above

/-- A walk over a range that has its tables makes none. -/
theorem tables_of_tabled {cfg : Config} {a : A} {params : AllocationParams} {mode : WalkMode}
    {infos : List PageInfo} {phys : Option Nat} {w : WalkState A}
    (wf : Wf cfg.ppgtt.getNumLevels t) (hmode : mode ≠ .Expect)
    (tabled : Tabled cfg.ppgtt.getNumLevels (pageKindAt cfg.ppgtt (adjustPageSizeForHardwareSupport
      cfg.gpu params.pageSize params.memoryBanks) t) t params.gfxAddress params.size)
    (h : walkMemory cfg.gpu cfg.enablePs64 cfg.ppgtt t a params mode infos phys = some w) :
    ∀ p m, w.nodes p = some m → ¬ IsLeaf m.kind → t p ≠ none := by
  rcases walkMemory_some h with ⟨_, rfl⟩ | ⟨_, c, hc, hpages⟩
  · intro p m hm _
    change t p = some m at hm
    rw [hm]
    simp
  · obtain ⟨_, hppgtt, rfl, _, _, hrequested, _⟩ := walkContext_some hc
    rw [← hppgtt] at wf tabled
    rw [← hrequested, ← lastTable_eq] at tabled
    have tabled' : Tabled c.ppgtt.getNumLevels (lastTable c (layout t)) (layout t) params.gfxAddress
        (params.gfxAddress + params.size - params.gfxAddress) := by
      intro x h1 h2 hnone
      rw [lastTable_layout] at hnone
      exact tabled x h1 (by omega) (layout_eq_none.mp hnone)
    obtain ⟨_, _, _, run⟩ := walkPages_places
      (J := fun x size _ s => TabledRun c (layout t) params.gfxAddress
        (params.gfxAddress + params.size) x size s) hmode
      (fun size index s page wf' hpos _ hps run =>
        tabledRun_step (wf_layout.mpr wf) wf' hmode tabled' hpos hps run)
      _ _ _ _ _ w (Nat.le_refl _) wf hpages
      ⟨⟨Nat.le_refl _, rfl⟩, fun _ => rfl,
        fun y m hm _ => by rw [show layout t y = some m from hm]; simp⟩
    intro p m hm htable hnone
    exact run.old p _ (layout_some hm) htable (layout_eq_none.mpr hnone)

/-- A page that a Reserve walk has made is a block of its own. -/
def OwnsBlock (n : Nat) (kinds : Nat → NodeKind) (q : Path) (leaf : PageNode) : Prop :=
  ∀ b, q = slotFor n kinds b →
    ∃ owned, leaf.allocator = some owned ∧ owned.size = (kinds b).getPageSize

theorem ownsBlock_step {index : Nat} (wf₀ : Wf c.ppgtt.getNumLevels t)
    (wf : Wf c.ppgtt.getNumLevels s.nodes) (hmode : c.mode = .Reserve) (hsize : 0 < size)
    (hps : page.size = size)
    (hpage : pageRequest c page.gfxAddress size index s.physicalAddress = some page)
    (run : MakeRun c t (OwnsBlock c.ppgtt.getNumLevels (lastTable c t)) g stop page.gfxAddress size s) :
    MakeRun c t (OwnsBlock c.ppgtt.getNumLevels (lastTable c t)) g stop
      (page.gfxAddress + (placePage c page s).2) (size - (placePage c page s).2)
      (placePage c page s).1 := by
  have hk := pageKinds_lastTable wf₀
  have hclone : page.clonePageInfo = none := by
    rw [pageRequest, run.add.unsupplied, hmode] at hpage
    simp only [Option.isSome_none, Bool.false_eq_true, if_false, reduceCtorEq, Option.some.injEq]
      at hpage
    rw [← hpage]
  refine (makeRun_step wf₀ wf (by rw [hmode]; simp) hsize hps (fun _ b hb => ?_) run).2
  rw [← (region_of_slot wf₀ hb).2]
  simp only [newLeaf, hclone]
  refine ⟨_, rfl, ?_⟩
  rcases isPageSize_of_region (hk.region page.gfxAddress) with h | h | h <;> rw [h] <;> rfl

/-- A page of a Reserve walk was there or is a block of its own, aligned or not. -/
theorem reserve_blocks {cfg : Config} {a : A} {params : AllocationParams} {w : WalkState A}
    (wf : Wf cfg.ppgtt.getNumLevels t)
    (h : walkMemory cfg.gpu cfg.enablePs64 cfg.ppgtt t a params .Reserve [] none = some w)
    {x : Nat} {p : MappedPage} (hp : pageAt cfg.ppgtt.getNumLevels w.nodes x = some p) :
    pageAt cfg.ppgtt.getNumLevels t x = some p ∨ ∃ b, p.owned = some b ∧ b.size = p.size := by
  rcases walkMemory_some h with ⟨_, rfl⟩ | ⟨_, c, hc, hpages⟩
  · exact Or.inl hp
  · obtain ⟨_, hppgtt, hmode, _⟩ := walkContext_some hc
    rw [← hppgtt] at wf hp ⊢
    obtain ⟨wf', _, _, run⟩ := walkPages_places
      (J := fun x size _ s => MakeRun c (layout t) (OwnsBlock c.ppgtt.getNumLevels
        (lastTable c (layout t))) params.gfxAddress (params.gfxAddress + params.size) x size s)
      (by rw [hmode]; simp)
      (fun size index s page wf' hpos hpage hps run =>
        ownsBlock_step (wf_layout.mpr wf) wf' hmode hpos hps hpage run)
      _ _ _ _ _ w (Nat.le_refl _) wf hpages
      ⟨addRun_start c t a params.gfxAddress params.size, Or.inr (Or.inl rfl),
        fun q leaf hq _ hnone => absurd (hq.symm.trans hnone) (by simp)⟩
    have hcases := @pageAt_cases _ _ _ _ _ _ _ _ x _ p run (wf_layout.mpr wf) (wf_layout.mpr wf')
    simp only [layoutOf, pageAt_layout] at hcases
    rcases hcases hp with hold | ⟨_, leaf, _, rfl, owns, _⟩
    · exact Or.inl hold
    · exact Or.inr (owns x rfl)

/-- The records of a write so far. -/
theorem records_step (wf₀ : Wf c.ppgtt.getNumLevels t) (wf : Wf c.ppgtt.getNumLevels s.nodes)
    (hmode : c.mode ≠ .Expect) (hsize : 0 < size) (hps : page.size = size)
    (run : AddRun c t g stop page.gfxAddress size s)
    (records : ∀ e ∈ s.entries, ∃ b, g ≤ b ∧ b + e.size ≤ stop ∧
      RecordOf c.ppgtt.getNumLevels (lastTable c t) s.nodes b e) :
    ∀ e ∈ (placePage c page s).1.entries, ∃ b, g ≤ b ∧ b + e.size ≤ stop ∧
      RecordOf c.ppgtt.getNumLevels (lastTable c t) (placePage c page s).1.nodes b e := by
  have hk := pageKinds_lastTable wf₀
  rcases placePage_visited page wf (fun h => absurd h hmode) with ⟨hexpect, _⟩ | ⟨visited, _⟩
  · exact absurd hexpect hmode
  · obtain ⟨hga, hstop⟩ := run.bounds
    obtain ⟨leaf, hleaf, hentries⟩ := visited.leaf
    rw [run.kinds] at hentries
    have hpos := (hk.region page.gfxAddress).getPageSize_pos
    have hmod := Nat.mod_lt page.gfxAddress hpos
    intro e he
    rw [hentries, List.mem_append, List.mem_singleton] at he
    rcases he with he | rfl
    · obtain ⟨b, h1, h2, hsize', hfits, x, hx, hfacts⟩ := records e he
      exact ⟨b, h1, h2, hsize', hfits, x, visited.added run.unsupplied _ x hx, hfacts⟩
    · refine ⟨page.gfxAddress, hga, ?_, ?_, ?_, leaf, ?_, rfl, rfl⟩
      · simp only [pageRecord, sizeThisIteration]
        omega
      · simp only [pageRecord, sizeThisIteration]
        omega
      · simp only [pageRecord, sizeThisIteration]
        omega
      · rw [slotFor, ← run.kinds]
        exact hleaf

/-- What a record covers is what addresses of the range are mapped to. -/
theorem bytes_of_records {cfg : Config} {a : A} {params : AllocationParams}
    {w : WalkState A} (wf : Wf cfg.ppgtt.getNumLevels t)
    (h : walkMemory cfg.gpu cfg.enablePs64 cfg.ppgtt t a params .Reserve [] none = some w)
    {e : PageInfo} (he : e ∈ w.entries) {y : Nat} (h1 : e.physicalAddress ≤ y)
    (h2 : y < e.physicalAddress + e.size) :
    ByteOf cfg.ppgtt.getNumLevels w.nodes params.gfxAddress params.size e.isLocalMemory y := by
  rcases walkMemory_some h with ⟨_, rfl⟩ | ⟨_, c, hc, hpages⟩
  · exact absurd he List.not_mem_nil
  · obtain ⟨_, hppgtt, hm, _⟩ := walkContext_some hc
    rw [← hppgtt] at wf ⊢
    have hmode : c.mode ≠ .Expect := by
      rw [hm]
      simp
    obtain ⟨wf', _, _, run, records⟩ := walkPages_places
      (J := fun x size _ s => AddRun c (layout t) params.gfxAddress
          (params.gfxAddress + params.size) x size s ∧ ∀ e ∈ s.entries, ∃ b, params.gfxAddress ≤ b ∧
        b + e.size ≤ params.gfxAddress + params.size ∧
        RecordOf c.ppgtt.getNumLevels (lastTable c (layout t)) s.nodes b e) hmode
      (fun size index s page wf' hpos _ hps run =>
        ⟨addRun_step (wf_layout.mpr wf) wf' hmode hpos hps run.1,
          records_step (wf_layout.mpr wf) wf' hmode hpos hps run.1 run.2⟩)
      _ _ _ _ _ w (Nat.le_refl _) wf hpages
      ⟨addRun_start c t a params.gfxAddress params.size, fun e he => absurd he List.not_mem_nil⟩
    have wf'' : Wf c.ppgtt.getNumLevels (layoutOf w).nodes := wf_layout.mpr wf'
    have hk := pageKinds_lastTable wf''
    obtain ⟨b, hb, hstop, hpos, hfits, leaf, hleaf, haddress, hlocal⟩ := records e he
    have hkinds : lastTable c (layoutOf w).nodes = lastTable c (layout t) := funext run.kinds
    rw [← hkinds] at hleaf hfits haddress
    -- the address is as far into its page as `y` is into the record's
    have hpage := samePage (g := b) (a := b + (y - e.physicalAddress)) (hk.region b).getPageSize_pos
      (by omega) (by omega)
    have hmod : (b + (y - e.physicalAddress)) % (lastTable c (layoutOf w).nodes b).getPageSize =
        b % (lastTable c (layoutOf w).nodes b).getPageSize + (y - e.physicalAddress) := by
      rw [Nat.add_mod, Nat.mod_eq_of_lt (a := y - e.physicalAddress) (by omega), Nat.mod_eq_of_lt]
      omega
    refine ⟨b + (y - e.physicalAddress), pageOf leaf (lastTable c (layoutOf w).nodes b).getPageSize,
      by omega, by omega, ?_, hlocal.symm, ?_⟩
    · have hslot : slotFor c.ppgtt.getNumLevels (lastTable c (layoutOf w).nodes)
          (b + (y - e.physicalAddress)) =
            slotFor c.ppgtt.getNumLevels (lastTable c (layoutOf w).nodes) b := by
        unfold slotFor
        rw [kinds_of_page hk hpage]
        exact (leafSlot_congr (hk.region b) hpage).symm
      have hsame := pageAt_congr wf'' hslot
      rw [pageAt_of_slot wf'' b, hleaf] at hsame
      simp only [layoutOf, pageAt_layout] at hsame
      exact hsame
    · simp only [pageOf]
      rw [hmod]
      omega

end

end WrittenPages
