import Aubstream.FreeRounds

/-!
# When freeing a range is complete

The loop passes the whole range when every table that an address of the range
needs outlives the pages freed before it. Otherwise it returns at the missing
table, the collected entries are lost, and the rest of the range stays mapped.
-/

namespace FreeComplete
open EntryBits PathTree PhysicalAllocator PageNodes PageWalker FreeMemory TreeShape WalkPhases
  FreePhases Placement Translation LastTables TableRuns FreeRounds Transitions

/-- The slot of the page that holds an address: none without a table or 2MB page for it. -/
def pageSlot (n : Nat) (t : Nodes) (a : Nat) : Option Path :=
  (regionAt n t a).map fun m => leafSlot n m.kind a

/-- A page of `t` entered between `start` and `g` has its leaf in slot `q`. -/
def Freed (n : Nat) (t : Nodes) (start g : Nat) (q : Path) : Prop :=
  ∃ y, start ≤ y ∧ y < g ∧ pageSlot n t y = some q

/-- Some mapped page under the last-level table of `a`, or the 2MB page of `a`, is not among the
pages that hold the addresses from `start` up to the page of `a`. -/
def Live (n : Nat) (t : Nodes) (start a : Nat) : Prop :=
  ∃ x, slotPath n Pde x = slotPath n Pde a ∧ IsMapped n t x ∧
    ∀ y, start ≤ y → y < a → y / pageSizeAt n t a ≠ a / pageSizeAt n t a →
      pageSlot n t y ≠ pageSlot n t x

variable {A : Type} [PhysicalAddressAllocator A]

/-- Between two rounds of a free that started on `t` at `start`. -/
structure FreeRun (c : FreeContext) (t : Nodes) (start stop g size : Nat) (s : FreeState A) :
    Prop where
  bounds : start ≤ g ∧ g + size = stop
  tracked : Tracked c.gpu t s
  inhabited : Inhabited s.nodes
  gone : ∀ q, Freed c.ppgtt.getNumLevels t start g q → s.nodes q = none
  kept : ∀ q m, t q = some m → IsLeaf m.kind → ¬ Freed c.ppgtt.getNumLevels t start g q →
    s.nodes q ≠ none
  aligned : size = 0 ∨ g = start ∨ ∀ m, regionAt c.ppgtt.getNumLevels t g = some m →
    m.kind.getPageSize ∣ g
  passed : ∀ a, start ≤ a → a < g → Live c.ppgtt.getNumLevels t start a

omit [PhysicalAddressAllocator A] in
theorem region_of_tracked {gpu : Gpu} {n : Nat} {t : Nodes} {s : FreeState A} {g : Nat}
    {m : PageNode} (h : Tracked gpu t s) (hm : regionAt n s.nodes g = some m) :
    ∃ m₀, regionAt n t g = some m₀ ∧ m₀.kind = m.kind := by
  obtain ⟨m₀, hm₀, heq⟩ := h.shrinks _ m hm
  have hcore := (core_of_setPs64 heq).1
  exact ⟨m₀, hm₀, (congrArg (·.kind) hcore).symm⟩

theorem pageSlot_of_region {n : Nat} {t : Nodes} {a : Nat} {m : PageNode}
    (h : regionAt n t a = some m) : pageSlot n t a = some (leafSlot n m.kind a) := by
  simp only [pageSlot, h, Option.map_some]

/-- The pages entered up to the end of a page are those entered before it and the page itself. -/
theorem freed_step {n : Nat} {t : Nodes} (wf : Wf n t) (hn : 4 ≤ n) {start g size : Nat}
    {m : PageNode} (hm : regionAt n t g = some m) (hg : start ≤ g) (hsize : 0 < size) {q : Path} :
    Freed n t start (g + min size (m.kind.getPageSize - g % m.kind.getPageSize)) q ↔
      Freed n t start g q ∨ q = leafSlot n m.kind g := by
  have hk := isRegion_of_regionAt wf hn hm
  have hpos := hk.getPageSize_pos
  have hmod := Nat.mod_lt g hpos
  constructor
  · rintro ⟨y, h1, h2, hq⟩
    by_cases hy : y < g
    · exact Or.inl ⟨y, h1, hy, hq⟩
    · right
      have hpage := samePage (g := g) (a := y) hpos (by omega) (by omega)
      have hregion := regionAt_congr (n := n) (t := t) (region_of_page hk.dvd hpage)
      rw [hm] at hregion
      rw [pageSlot_of_region hregion.symm, Option.some.injEq] at hq
      rw [← hq, leafSlot_congr hk hpage]
  · rintro (⟨y, h1, h2, hq⟩ | rfl)
    · exact ⟨y, h1, by omega, hq⟩
    · exact ⟨g, hg, by omega, pageSlot_of_region hm⟩

/-- An address for every slot of a last-level table. -/
theorem exists_address (k : PteKind) (n g : Nat) {i : Nat} (hi : hasIndex i (.pte k)) :
    ∃ x, slotPath n Pde x = slotPath n Pde g ∧ k.getIndex x = i := by
  have hoffset : ∀ d, d < 2 ^ 21 → (g / 2 ^ 21 * 2 ^ 21 + d) / 2 ^ 21 = g / 2 ^ 21 := by
    intro d hd
    omega
  cases k with
  | PTE4KB =>
    refine ⟨g / 2 ^ 21 * 2 ^ 21 + i * 4096, ?_, ?_⟩
    · refine slotPath_congr (Nat.le_refl 1) (hoffset _ ?_)
      simp only [hasIndex] at hi
      omega
    · simp only [hasIndex] at hi
      simp only [PteKind.getIndex]
      omega
  | PTE64KB =>
    refine ⟨g / 2 ^ 21 * 2 ^ 21 + i * 65536, ?_, ?_⟩
    · refine slotPath_congr (Nat.le_refl 1) (hoffset _ ?_)
      simp only [hasIndex] at hi
      omega
    · simp only [hasIndex] at hi
      simp only [PteKind.getIndex]
      omega
  | LegacyPTE64KB =>
    refine ⟨g / 2 ^ 21 * 2 ^ 21 + i * 4096, ?_, ?_⟩
    · refine slotPath_congr (Nat.le_refl 1) (hoffset _ ?_)
      simp only [hasIndex] at hi
      omega
    · simp only [hasIndex] at hi
      simp only [PteKind.getIndex]
      omega

omit [PhysicalAddressAllocator A] in
/-- A table or 2MB page that a free still finds has a mapped page below it, or is one. -/
theorem exists_mapped {gpu : Gpu} {n : Nat} {t : Nodes} {s : FreeState A} {g : Nat} {m : PageNode}
    (wf : Wf n s.nodes) (hn : 4 ≤ n) (tracked : Tracked gpu t s) (inhabited : Inhabited s.nodes)
    (hm : regionAt n s.nodes g = some m) :
    ∃ x q, slotPath n Pde x = slotPath n Pde g ∧ pageSlot n t x = some q ∧ IsMapped n t x ∧
      s.nodes q ≠ none := by
  obtain ⟨m₀, hm₀, hkind⟩ := region_of_tracked tracked hm
  have hslot : s.nodes (slotPath n Pde g) = some m := hm
  have mapped : ∀ x q, slotPath n Pde x = slotPath n Pde g → q = leafSlot n m.kind x →
      s.nodes q ≠ none → pageSlot n t x = some q ∧ IsMapped n t x := by
    rintro x q hx rfl hq
    have hregion : regionAt n t x = some m₀ := by
      simp only [regionAt, hx]
      exact hm₀
    refine ⟨by rw [pageSlot_of_region hregion, hkind], ?_⟩
    obtain ⟨leaf, hleaf⟩ := Option.ne_none_iff_exists'.mp hq
    obtain ⟨leaf₀, hleaf₀, _⟩ := tracked.shrinks _ leaf hleaf
    unfold IsMapped
    rw [leafAt_of_region hregion, hkind, hleaf₀]
    simp
  have hregion := isRegion_of_regionAt wf hn hm
  cases hk : m.kind with
  | pte k =>
    obtain ⟨i, hi⟩ := inhabited _ m k hslot hk
    obtain ⟨leaf, hleaf⟩ := Option.ne_none_iff_exists'.mp hi
    obtain ⟨parent, hparent, hindex⟩ := wf.parent _ _ _ hleaf
    rw [hslot, Option.some.injEq] at hparent
    rw [← hparent, hk] at hindex
    obtain ⟨x, hx, hxi⟩ := exists_address k n g hindex
    have hq : i :: slotPath n Pde g = leafSlot n m.kind x := by
      rw [hk]
      simp only [leafSlot, hx, hxi]
    obtain ⟨h1, h2⟩ := mapped x _ hx hq hi
    exact ⟨x, _, hx, h1, h2, hi⟩
  | page2MB =>
    have hq : slotPath n Pde g = leafSlot n m.kind g := by rw [hk]; rfl
    have hsome : s.nodes (slotPath n Pde g) ≠ none := by rw [hslot]; simp
    obtain ⟨h1, h2⟩ := mapped g _ rfl hq hsome
    exact ⟨g, _, rfl, h1, h2, hsome⟩
  | directory =>
    rw [hk] at hregion
    cases hregion
  | memory =>
    rw [hk] at hregion
    cases hregion

omit [PhysicalAddressAllocator A] in
/-- What the loop finds at its cursor tells whether the address is live. -/
theorem live_of_region {c : FreeContext} {t : Nodes} {start stop g size : Nat} {s : FreeState A}
    {m : PageNode} (wf : Wf c.ppgtt.getNumLevels s.nodes)
    (run : FreeRun c t start stop g size s)
    (hm : regionAt c.ppgtt.getNumLevels s.nodes g = some m) {a : Nat} (h1 : g ≤ a)
    (h2 : a < g + (m.kind.getPageSize - g % m.kind.getPageSize)) :
    Live c.ppgtt.getNumLevels t start a := by
  have hn := getNumLevels_ge c.ppgtt
  have hk := isRegion_of_regionAt wf hn hm
  have hpos := hk.getPageSize_pos
  have hpage := samePage hpos h1 h2
  have hregion := region_of_page hk.dvd hpage
  obtain ⟨m₀, hm₀, hkind⟩ := region_of_tracked run.tracked hm
  obtain ⟨x, q, hx, hslot, hmapped, hq⟩ := exists_mapped wf hn run.tracked run.inhabited hm
  refine ⟨x, ?_, hmapped, ?_⟩
  · rw [hx]
    exact slotPath_congr (Nat.le_refl 1) hregion
  · intro y hy1 hy2 hne heq
    have hsize : pageSizeAt c.ppgtt.getNumLevels t a = m.kind.getPageSize := by
      rw [pageSizeAt_of_region ((regionAt_congr hregion).symm.trans hm₀), hkind]
    rw [hsize] at hne
    have hlt : y < g := by
      by_contra hle
      exact hne ((samePage (g := g) hpos (by omega) (by omega)).symm.trans hpage)
    exact hq (run.gone q ⟨y, hy1, hlt, heq.trans hslot⟩)

omit [PhysicalAddressAllocator A] in
/-- A live address still has its table, or 2MB page, when the loop comes to it. -/
theorem region_of_live {c : FreeContext} {t : Nodes} {start stop g size : Nat} {s : FreeState A}
    (wf₀ : Wf c.ppgtt.getNumLevels t) (wf : Wf c.ppgtt.getNumLevels s.nodes)
    (run : FreeRun c t start stop g size s) (hsize : 0 < size) (live : Live c.ppgtt.getNumLevels t start g) :
    regionAt c.ppgtt.getNumLevels s.nodes g ≠ none := by
  have hn := getNumLevels_ge c.ppgtt
  obtain ⟨x, hx, hmapped, hbefore⟩ := live
  obtain ⟨m, hm⟩ : ∃ m, regionAt c.ppgtt.getNumLevels t x = some m := by
    refine Option.ne_none_iff_exists'.mp fun hnone => hmapped ?_
    simp only [leafAt, hnone, Option.bind_none]
  have hmg : regionAt c.ppgtt.getNumLevels t g = some m := by
    simp only [regionAt, ← hx]
    exact hm
  have hk := isRegion_of_regionAt wf₀ hn hm
  unfold IsMapped at hmapped
  rw [leafAt_of_region hm] at hmapped
  obtain ⟨leaf, hleaf⟩ := Option.ne_none_iff_exists'.mp hmapped
  have hfree : ¬ Freed c.ppgtt.getNumLevels t start g (leafSlot c.ppgtt.getNumLevels m.kind x) := by
    rintro ⟨y, h1, h2, hq⟩
    refine hbefore y h1 h2 ?_ (hq.trans (pageSlot_of_region hm).symm)
    rw [pageSizeAt_of_region hmg]
    rcases run.aligned with hzero | heq | hdvd
    · omega
    · omega
    · obtain ⟨d, hd⟩ := hdvd m hmg
      have hlt : y / m.kind.getPageSize < d := by
        rw [Nat.div_lt_iff_lt_mul hk.getPageSize_pos, Nat.mul_comm]
        omega
      have hgd : g / m.kind.getPageSize = d := by
        rw [hd]
        exact Nat.mul_div_cancel_left d hk.getPageSize_pos
      omega
  have hkept := run.kept _ leaf hleaf (isLeaf_of_leafAt wf₀ hn hm hleaf) hfree
  intro hnone
  refine hkept ?_
  have hslot : s.nodes (slotPath c.ppgtt.getNumLevels Pde x) = none := by
    rw [hx]
    exact hnone
  cases hkind : m.kind with
  | pte k => exact wf.none_of_parent_none hslot
  | page2MB => exact hslot
  | directory => exact hslot
  | memory => exact hslot

/-- Behind a page the cursor is aligned for the page it stands at. -/
theorem aligned_step {n : Nat} {t : Nodes} (wf : Wf n t) (hn : 4 ≤ n) {g : Nat} {m m' : PageNode}
    (hm : regionAt n t g = some m)
    (hm' : regionAt n t (g + (m.kind.getPageSize - g % m.kind.getPageSize)) = some m') :
    m'.kind.getPageSize ∣ g + (m.kind.getPageSize - g % m.kind.getPageSize) := by
  have hk := isRegion_of_regionAt wf hn hm
  refine pageEnd_aligned hk.getPageSize_pos hk.dvd (isRegion_of_regionAt wf hn hm').dvd ?_
  intro hregion
  rw [← regionAt_congr hregion, hm, Option.some.injEq] at hm'
  rw [hm']

theorem freeRun_round {c : FreeContext} {t : Nodes} {start stop g size pageSize : Nat}
    {s s' : FreeState A} (wf₀ : Wf c.ppgtt.getNumLevels t) (wf : Wf c.ppgtt.getNumLevels s.nodes)
    (hsize : 0 < size) (run : FreeRun c t start stop g size s)
    (h : freePage c g size s = some (s', pageSize)) :
    FreeRun c t start stop (g + min size (pageSize - g % pageSize))
      (size - min size (pageSize - g % pageSize)) s' := by
  have hn := getNumLevels_ge c.ppgtt
  obtain ⟨m, hm, rfl, hgone, hkept⟩ := freePage_leaves wf h
  obtain ⟨m₀, hm₀, hkind⟩ := region_of_tracked run.tracked hm
  have hstart := run.bounds.1
  have hstop := run.bounds.2
  have tracked := freePage_tracked rfl wf run.tracked h
  have freed : ∀ q, Freed c.ppgtt.getNumLevels t start
      (g + min size (m.kind.getPageSize - g % m.kind.getPageSize)) q ↔
        Freed c.ppgtt.getNumLevels t start g q ∨ q = leafSlot c.ppgtt.getNumLevels m.kind g := by
    intro q
    have := freed_step wf₀ hn hm₀ hstart hsize (q := q)
    rwa [hkind] at this
  have stays : ∀ q, s.nodes q = none → s'.nodes q = none := by
    intro q hq
    cases hq' : s'.nodes q with
    | none => rfl
    | some x =>
      have hshrinks := freePage_tracked rfl wf (tracked_refl c.gpu s) h
      obtain ⟨y, hy, _⟩ := hshrinks.shrinks q x hq'
      rw [hq] at hy
      cases hy
  refine ⟨⟨by omega, by omega⟩, tracked, freePage_inhabited wf h run.inhabited, ?_, ?_, ?_, ?_⟩
  · intro q hq
    rcases (freed q).mp hq with hq | rfl
    · exact stays q (run.gone q hq)
    · exact hgone
  · intro q y hy hleaf hq
    rw [freed, not_or] at hq
    obtain ⟨x, hx⟩ := Option.ne_none_iff_exists'.mp (run.kept q y hy hleaf hq.1)
    obtain ⟨y', hy', heq⟩ := run.tracked.shrinks q x hx
    rw [hy, Option.some.injEq] at hy'
    have hxk : x.kind = y'.kind := congrArg (·.kind) (core_of_setPs64 heq).1
    exact hkept q x hx (by rw [hxk, ← hy']; exact hleaf) hq.2
  · by_cases hpart : size ≤ m.kind.getPageSize - g % m.kind.getPageSize
    · left
      omega
    · right; right
      rw [Nat.min_eq_right (by omega)]
      intro m' hm'
      rw [← hkind] at hm' ⊢
      exact aligned_step wf₀ hn hm₀ hm'
  · intro a h1 h2
    by_cases ha : a < g
    · exact run.passed a h1 ha
    · exact live_of_region wf run hm (by omega) (by omega)

omit [PhysicalAddressAllocator A] in
theorem freeRun_start {c : FreeContext} {t : Nodes} {a : A} (inhabited : Inhabited t)
    (g size : Nat) : FreeRun c t g (g + size) g size (⟨t, a, fun _ => []⟩ : FreeState A) := by
  refine ⟨⟨Nat.le_refl _, rfl⟩, tracked_refl c.gpu ⟨t, a, fun _ => []⟩, inhabited, ?_, ?_, Or.inr (Or.inl rfl), ?_⟩
  · rintro q ⟨y, h1, h2, _⟩
    omega
  · intro q m hm _ _
    change t q ≠ none
    rw [hm]
    simp
  · intro a h1 h2
    omega

/-- The loop passes the whole range when all its addresses are live, and otherwise ends at a
missing table. -/
theorem freePages_run {c : FreeContext} {t : Nodes} {a : A} (wf : Wf c.ppgtt.getNumLevels t)
    (inhabited : Inhabited t) (g size : Nat) :
    let r := freePages c size g size ⟨t, a, fun _ => []⟩
    Wf c.ppgtt.getNumLevels r.1.nodes ∧
      (r.2 = true ↔ ∀ x, g ≤ x → x < g + size → Live c.ppgtt.getNumLevels t g x) ∧
      ∃ g' size', FreeRun c t g (g + size) g' size' r.1 ∧ (r.2 = true → size' = 0) := by
  obtain ⟨hwf, h⟩ := freePages_rule (c := c) (P := FreeRun c t g (g + size))
    (fun _ _ _ _ _ wf' hsize run h => freeRun_round wf wf' hsize run h) size g size
    ⟨t, a, fun _ => []⟩ (Nat.le_refl _) wf (freeRun_start inhabited g size)
  refine ⟨hwf, ?_⟩
  rcases h with ⟨hdone, g', run⟩ | ⟨hdone, g', size', hpos, run, hnone⟩
  · refine ⟨⟨fun _ x h1 h2 => run.passed x h1 ?_, fun _ => hdone⟩, g', 0, run, fun _ => rfl⟩
    have := run.bounds.2
    omega
  · have hbounds := run.bounds
    have hnot : ¬ (freePages c size g size ⟨t, a, fun _ => []⟩).2 = true := by
      rw [hdone]
      simp
    refine ⟨⟨fun h => absurd h hnot, fun hall => ?_⟩, g', size', run, fun h => absurd h hnot⟩
    exact absurd hnone (region_of_live wf hwf run hpos (hall g' hbounds.1 (by omega)))

/-- Nothing is removed where nothing is mapped. -/
theorem freePage_unmapped {c : FreeContext} {s s' : FreeState A} {g size pageSize : Nat}
    (wf : Wf c.ppgtt.getNumLevels s.nodes) (inhabited : Inhabited s.nodes)
    (unmapped : ¬ IsMapped c.ppgtt.getNumLevels s.nodes g)
    (h : freePage c g size s = some (s', pageSize)) : s'.nodes = s.nodes := by
  unfold IsMapped at unmapped
  rw [not_not] at unmapped
  rcases freePage_eq wf g size with ⟨_, hf⟩ | ⟨m, hs, hk, hf⟩ | ⟨m, k, hs, hk, hf⟩
  · rw [hf] at h
    cases h
  · rw [leafAt_of_region hs, hk] at unmapped
    exact absurd unmapped (by simp only [leafSlot, hs]; simp)
  · rw [hf, Option.some.injEq, Prod.mk.injEq] at h
    obtain ⟨rfl, _⟩ := h
    rw [leafAt_of_region hs, hk] at unmapped
    have hleaf : s.nodes (k.getIndex g :: slotPath c.ppgtt.getNumLevels Pde g) = none := unmapped
    have hremove : removePage c (slotPath c.ppgtt.getNumLevels Pde g) (k.getIndex g) g size s = s := by
      simp only [removePage, hleaf]
    obtain ⟨i, hi⟩ := inhabited _ m k hs hk
    rw [hremove, pruneTable_nodes, if_neg]
    rw [isEmpty_eq_true wf]
    exact fun hempty => hi (hempty i)

theorem freePages_unmapped {c : FreeContext} {t : Nodes} {a : A} (wf : Wf c.ppgtt.getNumLevels t)
    (inhabited : Inhabited t) {g size : Nat}
    (unmapped : ∀ x, g ≤ x → x < g + size → ¬ IsMapped c.ppgtt.getNumLevels t x) :
    (freePages c size g size ⟨t, a, fun _ => []⟩).1.nodes = t := by
  have h := freePages_rule (c := c)
    (P := fun g' size' (s : FreeState A) => g ≤ g' ∧ g' + size' = g + size ∧ s.nodes = t)
    (fun g' size' s s' pageSize wf' hsize ⟨h1, h2, h3⟩ hpage => by
      refine ⟨by omega, by omega, ?_⟩
      rw [← h3]
      refine freePage_unmapped wf' (h3 ▸ inhabited) ?_ hpage
      rw [h3]
      exact unmapped g' h1 (by omega))
    size g size ⟨t, a, fun _ => []⟩ (Nat.le_refl _) wf ⟨Nat.le_refl _, rfl, rfl⟩
  rcases h with ⟨_, ⟨_, _, _, _, h⟩ | ⟨_, _, _, _, ⟨_, _, h⟩, _⟩⟩
  · exact h
  · exact h

/-- What a complete and consistent free of `[g, g + size)` does. -/
structure Complete (gpu : Gpu) (n : Nat) (t : Nodes) (r : FreeState A × Bool) (g size : Nat) :
    Prop where
  unmapped : ∀ a, g ≤ a → a < g + size → translateVa n r.1.nodes a = none
  zeros : ∀ q, t q ≠ none → r.1.nodes q = none → ⟨entryAddress t q, 0⟩ ∈ writtenEntries r
  changed : ∀ q m m', t q = some m → r.1.nodes q = some m' →
    m'.getEntryValue gpu ≠ m.getEntryValue gpu →
      ⟨entryAddress r.1.nodes q, m'.getEntryValue gpu⟩ ∈ writtenEntries r ∨ m'.pendingWrite = true
  others : ∀ b, (∀ a q, g ≤ a → a < g + size → pageSlot n t a = some q → pageSlot n t b ≠ some q) →
    translateVa n r.1.nodes b = translateVa n t b

/-- No page of the range is mapped, or each address of it finds its table when the loop comes
to it. -/
def FreeCondition (n : Nat) (t : Nodes) (g size : Nat) : Prop :=
  (∀ a, g ≤ a → a < g + size → ¬ IsMapped n t a) ∨ ∀ a, g ≤ a → a < g + size → Live n t g a

theorem translate_eq_none {n : Nat} {t : Nodes} {g : Nat} :
    translateVa n t g = none ↔ leafAt n t g = none := by
  simp only [translateVa, Option.map_eq_none_iff]

theorem region_of_leafSlot {n : Nat} {t : Nodes} (wf : Wf n t) {kind : NodeKind} {b : Nat}
    {leaf : PageNode} (h : t (leafSlot n kind b) = some leaf) : ∃ m, regionAt n t b = some m := by
  refine Option.ne_none_iff_exists'.mp fun hnone => ?_
  have hslot : t (slotPath n Pde b) = none := hnone
  have hgone : t (leafSlot n kind b) = none := by
    cases kind with
    | pte k => exact wf.none_of_parent_none hslot
    | page2MB => exact hslot
    | directory => exact hslot
    | memory => exact hslot
  rw [h] at hgone
  cases hgone

omit [PhysicalAddressAllocator A] in
/-- A leaf that stays is found under the same address and translates to the same place. -/
theorem translate_kept {gpu : Gpu} {n : Nat} {t : Nodes} {s : FreeState A} (wf : Wf n s.nodes)
    (tracked : Tracked gpu t s) {b : Nat} {m : PageNode} (hm : regionAt n t b = some m)
    (kept : t (leafSlot n m.kind b) ≠ none → s.nodes (leafSlot n m.kind b) ≠ none) :
    translateVa n s.nodes b = translateVa n t b := by
  cases hleaf : t (leafSlot n m.kind b) with
  | none =>
    have h0 : translateVa n t b = none := by
      rw [translate_eq_none, leafAt_of_region hm, hleaf]
    rw [h0, translate_eq_none]
    cases hr : regionAt n s.nodes b with
    | none => simp only [leafAt, hr, Option.bind_none]
    | some m' =>
      obtain ⟨m₀, hm₀, hk⟩ := region_of_tracked tracked hr
      rw [hm, Option.some.injEq] at hm₀
      rw [leafAt_of_region hr, ← hk, ← hm₀]
      cases hs : s.nodes (leafSlot n m.kind b) with
      | none => rfl
      | some x =>
        obtain ⟨y, hy, _⟩ := tracked.shrinks _ x hs
        rw [hleaf] at hy
        cases hy
  | some leaf₀ =>
    obtain ⟨leaf, hs⟩ := Option.ne_none_iff_exists'.mp (kept (by rw [hleaf]; simp))
    obtain ⟨leaf', hleaf', heq⟩ := tracked.shrinks _ leaf hs
    rw [hleaf, Option.some.injEq] at hleaf'
    subst hleaf'
    obtain ⟨m', hr⟩ := region_of_leafSlot wf hs
    obtain ⟨m₀, hm₀, hk⟩ := region_of_tracked tracked hr
    rw [hm, Option.some.injEq] at hm₀
    subst hm₀
    have hcore := (core_of_setPs64 heq).1
    have hphys : leaf.physicalAddress = leaf₀.physicalAddress := congrArg (·.physicalAddress) hcore
    have hbank : leaf.memoryBank = leaf₀.memoryBank := congrArg (·.memoryBank) hcore
    simp only [translateVa, leafAt_of_region hm, leafAt_of_region hr, ← hk, hs, hleaf, Option.map_some,
      pageSizeAt_of_region hm, pageSizeAt_of_region hr, hphys, hbank]

omit [PhysicalAddressAllocator A] in
/-- The pages that a free does not come to keep their translation. -/
theorem freeRun_others {c : FreeContext} {t : Nodes} {start stop g size : Nat} {s : FreeState A}
    (wf₀ : Wf c.ppgtt.getNumLevels t) (wf : Wf c.ppgtt.getNumLevels s.nodes)
    (run : FreeRun c t start stop g size s) {b : Nat}
    (outside : ∀ a q, start ≤ a → a < stop → pageSlot c.ppgtt.getNumLevels t a = some q →
      pageSlot c.ppgtt.getNumLevels t b ≠ some q) :
    translateVa c.ppgtt.getNumLevels s.nodes b = translateVa c.ppgtt.getNumLevels t b := by
  have hn := getNumLevels_ge c.ppgtt
  cases hm : regionAt c.ppgtt.getNumLevels t b with
  | none =>
    have h0 : translateVa c.ppgtt.getNumLevels t b = none := by
      simp only [translateVa, leafAt, hm, Option.bind_none, Option.map_none]
    rw [h0, translate_eq_none]
    cases hr : regionAt c.ppgtt.getNumLevels s.nodes b with
    | none => simp only [leafAt, hr, Option.bind_none]
    | some m' =>
      obtain ⟨m₀, hm₀, _⟩ := region_of_tracked run.tracked hr
      rw [hm] at hm₀
      cases hm₀
  | some m =>
    refine translate_kept wf run.tracked hm fun hleaf => ?_
    obtain ⟨leaf, hleaf⟩ := Option.ne_none_iff_exists'.mp hleaf
    refine run.kept _ leaf hleaf (isLeaf_of_leafAt wf₀ hn hm hleaf) ?_
    rintro ⟨y, h1, h2, hq⟩
    have hbounds := run.bounds
    exact outside y _ h1 (by omega) hq (pageSlot_of_region hm)

/-- A free is complete exactly under its condition. -/
theorem complete_iff {gpu : Gpu} {ppgtt : PpgttKind} {t : Nodes} (a : A)
    (wf : Wf ppgtt.getNumLevels t) (inhabited : Inhabited t) (g size : Nat) :
    Complete gpu ppgtt.getNumLevels t (freeMemory gpu ppgtt t a g size) g size ↔
      FreeCondition ppgtt.getNumLevels t g size := by
  have hn := getNumLevels_ge ppgtt
  obtain ⟨hwf, hdone, g', size', run, hzero⟩ :=
    freePages_run (c := ⟨ppgtt, gpu, g, g + size⟩) (a := a) wf inhabited g size
  have hunmapped := @freePages_unmapped _ _ ⟨ppgtt, gpu, g, g + size⟩ _ a wf inhabited g size
  simp only at hwf hdone hunmapped
  unfold freeMemory
  generalize freePages ⟨ppgtt, gpu, g, g + size⟩ size g size ⟨t, a, fun _ => []⟩ = r
    at hwf hdone run hzero hunmapped
  have hothers := fun b => freeRun_others wf hwf run (b := b)
  constructor
  · intro h
    by_contra hnot
    unfold FreeCondition at hnot
    rw [not_or] at hnot
    obtain ⟨hmapped, hlive⟩ := hnot
    push Not at hmapped
    obtain ⟨x, h1, h2, hx⟩ := hmapped
    have hwritten : writtenEntries r = [] := by
      unfold writtenEntries
      rw [if_neg (fun hr => hlive (hdone.mp hr))]
    obtain ⟨m, hm⟩ : ∃ m, regionAt ppgtt.getNumLevels t x = some m := by
      refine Option.ne_none_iff_exists'.mp fun hnone => hx ?_
      simp only [leafAt, hnone, Option.bind_none]
    have hkept := translate_kept hwf run.tracked hm fun hleaf hgone => by
      have := h.zeros _ hleaf hgone
      rw [hwritten] at this
      cases this
    rw [h.unmapped x h1 h2] at hkept
    exact hx (translate_eq_none.mp hkept.symm)
  · rintro (hnone | hlive)
    · have hsame := hunmapped hnone
      refine ⟨?_, ?_, ?_, hothers⟩
      · intro x h1 h2
        rw [hsame, translate_eq_none]
        exact not_not.mp (hnone x h1 h2)
      · intro q ht hq
        rw [hsame] at hq
        exact absurd hq ht
      · intro q m m' hm hm' hne
        rw [hsame, hm, Option.some.injEq] at hm'
        exact absurd (hm' ▸ rfl) hne
    · have hcomplete := hdone.mpr hlive
      have hend : g' = g + size := by
        have := run.bounds.2
        rw [hzero hcomplete] at this
        exact this
      have hwritten : writtenEntries r = emitted r.1 := if_pos hcomplete
      refine ⟨?_, ?_, ?_, hothers⟩
      · intro x h1 h2
        rw [translate_eq_none]
        cases hr : regionAt ppgtt.getNumLevels r.1.nodes x with
        | none => simp only [leafAt, hr, Option.bind_none]
        | some m' =>
          obtain ⟨m, hm, hk⟩ := region_of_tracked run.tracked hr
          rw [leafAt_of_region hr, ← hk]
          exact run.gone _ ⟨x, h1, by omega, pageSlot_of_region hm⟩
      · intro q ht hq
        rw [hwritten]
        exact run.tracked.zeros q ht hq
      · intro q m m' hm hm' hne
        left
        have haddr : entryAddress r.1.nodes q = entryAddress t q := by
          cases q with
          | nil => rfl
          | cons i p =>
            obtain ⟨parent, hp, _⟩ := hwf.parent i p m' hm'
            exact run.tracked.entryAddress_eq hp i
        rw [hwritten, haddr]
        exact run.tracked.values q m' m hm' hm hne

theorem step_inhabited {cfg : Config} {s s' : PageTables A} {o : Op A}
    (wf : Wf cfg.ppgtt.getNumLevels s.nodes) (inhabited : Inhabited s.nodes)
    (h : step cfg s o = some s') : Inhabited s'.nodes := by
  have hwalk : ∀ params mode infos phys, (mode = .Expect → phys = none) →
      runWalk cfg s params mode infos phys = some s' → Inhabited s'.nodes := by
    intro params mode infos phys expect hw
    simp only [runWalk, Option.map_eq_some_iff] at hw
    obtain ⟨w, hw, rfl⟩ := hw
    rcases walkMemory_some hw with ⟨_, rfl⟩ | ⟨_, c, hc, hpages⟩
    · exact inhabited
    · obtain ⟨_, hppgtt, hmode, _⟩ := walkContext_some hc
      rw [← hppgtt] at wf
      exact walkPages_inhabited wf (fun hm => expect (hmode ▸ hm)) hpages inhabited
  cases o with
  | walk params mode infos => exact hwalk params mode infos none (fun _ => rfl) h
  | map params phys => exact hwalk params .Reserve [] (some phys) (fun hm => by cases hm) h
  | freeMemory g size =>
    simp only [step, Option.some.injEq] at h
    subst h
    obtain ⟨_, _, _, _, run, _⟩ := freePages_run (c := ⟨cfg.ppgtt, cfg.gpu, g, g + size⟩)
      (a := s.allocator) wf inhabited g size
    exact run.inhabited
  | commit qs =>
    simp only [step, Option.some.injEq] at h
    subst h
    rw [← inhabited_layout, modifyAll_setPendingWrite_layout, inhabited_layout]
    exact inhabited
  | others allocator =>
    simp only [step, Option.some.injEq] at h
    subst h
    exact inhabited

theorem newTables_inhabited (a : A) (bank : Nat) : Inhabited (newTables a bank).nodes := by
  intro q m k hm hk
  by_cases hq : q = []
  · subst q
    simp only [newTables, if_true, Option.some.injEq] at hm
    subst hm
    cases hk
  · simp [newTables, hq] at hm

theorem reach_inhabited {cfg : Config} {a : A} {bank : Nat} {ok : PageTables A → Op A → Prop}
    {s : PageTables A} (reached : Reach (step cfg) ok (newTables a bank) s) :
    Inhabited s.nodes :=
  (reached.invariant
    (I := fun s => Wf cfg.ppgtt.getNumLevels s.nodes ∧ Inhabited s.nodes)
    ⟨newTables_wf cfg.ppgtt a bank, newTables_inhabited a bank⟩
    fun _ _ _ ⟨wf, inhabited⟩ _ h => ⟨step_wf wf h, step_inhabited wf inhabited h⟩).2

/-- From every reachable state, `freeMemory` is complete and consistent exactly when no page of
the range is mapped or every address of the range is live. -/
theorem freeMemory_complete_iff (cfg : Config) (a : A) (bank : Nat) (s : PageTables A)
    (reached : Reach (step cfg) Any (newTables a bank) s) (g size : Nat) :
    Complete cfg.gpu cfg.ppgtt.getNumLevels s.nodes
      (freeMemory cfg.gpu cfg.ppgtt s.nodes s.allocator g size) g size ↔
      FreeCondition cfg.ppgtt.getNumLevels s.nodes g size :=
  complete_iff s.allocator (reach_wf reached) (reach_inhabited reached) g size

def fourLevel : Config := ⟨plainGpu, false, .PML4⟩

/-- Two mapped pages, one freed: the other keeps the table alive. -/
theorem freeMemory_complete_onePage :
    ∃ s, step fourLevel (newTables oneBank 1) (.walk (request4KB 0 0x2000) .Reserve []) = some s ∧
      Complete plainGpu 4 s.nodes
        (freeMemory plainGpu .PML4 s.nodes s.allocator 0 0x1000) 0 0x1000 := by
  have hrun : (step fourLevel (newTables oneBank 1) (.walk (request4KB 0 0x2000) .Reserve [])).map
      (fun s => ((s.nodes [0, 0, 0]).map (·.kind), (s.nodes [1, 0, 0, 0]).isSome)) =
        some (some (.pte .PTE4KB), true) := by
    decide +kernel
  obtain ⟨s, hs, hfacts⟩ := Option.map_eq_some_iff.mp hrun
  simp only [Prod.mk.injEq, Option.map_eq_some_iff, Option.isSome_iff_exists] at hfacts
  obtain ⟨⟨m, hm, hk⟩, leaf, hleaf⟩ := hfacts
  refine ⟨s, hs, ?_⟩
  refine (freeMemory_complete_iff fourLevel oneBank 1 s (.step .start trivial hs) 0 0x1000).mpr (Or.inr fun x _ hx => ⟨0x1000, ?_, ?_, ?_⟩)
  · exact slotPath_congr (Nat.le_refl 1) (by omega)
  · have hr : regionAt 4 s.nodes 0x1000 = some m := hm
    have hl : s.nodes (leafSlot 4 m.kind 0x1000) = some leaf := by
      rw [hk]
      exact hleaf
    change leafAt 4 s.nodes 0x1000 ≠ none
    rw [leafAt_of_region hr, hl]
    simp
  · intro y _ hy hne
    have hr : regionAt 4 s.nodes x = some m := by
      rw [← regionAt_congr (g := 0x1000) (by omega)]
      exact hm
    change y / pageSizeAt 4 s.nodes x ≠ x / pageSizeAt 4 s.nodes x at hne
    rw [pageSizeAt_of_region hr, hk] at hne
    simp only [NodeKind.getPageSize, PteKind.getPageSize, pageSize4KB] at hne
    omega

/-- A page and a hole behind it, freed together: the table goes with the page, the loop returns
at the hole, and the zero entries are lost. -/
theorem not_freeMemory_complete :
    ¬ ∀ s : PageTables PhysicalAddressAllocatorSimple,
      Reach (step fourLevel) Any (newTables oneBank 1) s →
      Complete plainGpu 4 s.nodes
        (freeMemory plainGpu .PML4 s.nodes s.allocator 0 0x2000) 0 0x2000 := by
  intro hall
  have hrun : (step fourLevel (newTables oneBank 1) (.walk (request4KB 0 0x1000) .Reserve [])).map
      (fun s => ((s.nodes [0, 0, 0, 0]).isSome,
        ((freeMemory plainGpu .PML4 s.nodes s.allocator 0 0x2000).1.nodes [0, 0, 0, 0]).isNone,
        writtenEntries (freeMemory plainGpu .PML4 s.nodes s.allocator 0 0x2000))) =
        some (true, true, []) := by
    decide +kernel
  obtain ⟨s, hs, hfacts⟩ := Option.map_eq_some_iff.mp hrun
  simp only [Prod.mk.injEq] at hfacts
  obtain ⟨hsome, hnone, hwritten⟩ := hfacts
  have hzero := (hall s (.step .start trivial hs)).zeros [0, 0, 0, 0]
    (Option.isSome_iff_ne_none.mp hsome) (Option.isNone_iff_eq_none.mp hnone)
  rw [hwritten] at hzero
  cases hzero

end FreeComplete
