import Aubstream.MapFrame

/-!
# Linear mappings

A mapping walk moves its physical cursor by the bytes passed, or by whole 2MB
pages. Behind a first page that is entered in its middle only the second rule
keeps the distance to the virtual address.
-/

namespace LinearMaps
open EntryBits PathTree PhysicalAllocator PageNodes PageWalker TreeShape WalkPhases Placement
  Translation TableRuns PageEffect MapCursor MapFrame Transitions MemoryBanks

/-- Physical address of the first byte of a request. -/
def firstByte (phys g pageSize : Nat) : Nat := phys + g % pageSize

/-- What each page of a request is mapped to in a linear mapping. -/
def LinearPages (kinds : Nat → NodeKind) (phys g size pageSize : Nat) : Prop :=
  ∀ a p, g ≤ a → a < g + size → PageStart kinds g a → IsTarget kinds phys g a p →
    (kinds a).getPageSize ∣ p ∧
      p + a % (kinds a).getPageSize = firstByte phys g pageSize + (a - g)

/-- The pages along a request for which the cursor keeps its distance: the offset in the first page
is the one in a page of the requested size, the pages are aligned as the physical range is, and
unless the first page is of 2MB or is the only one the request starts at a page. -/
structure CursorKeeps (kinds : Nat → NodeKind) (phys g size pageSize : Nat) : Prop where
  offset : g % (kinds g).getPageSize = g % pageSize
  start : g % pageSize = 0 ∨ (kinds g).getPageSize = pageSize2MB ∨
    g % (kinds g).getPageSize + size ≤ (kinds g).getPageSize
  aligned : ∀ a, g ≤ a → a < g + size →
    firstByte phys g pageSize % (kinds a).getPageSize = g % (kinds a).getPageSize
  fits : firstByte phys g pageSize + size ≤ 2 ^ 64

section
variable {kinds : Nat → NodeKind} (hk : PageKinds kinds) {phys g size pageSize : Nat}
include hk

theorem div_pageBase (a : Nat) :
    a / (kinds a).getPageSize = pageBase kinds a / (kinds a).getPageSize := by
  have hsplit := Nat.div_add_mod a (kinds a).getPageSize
  rw [pageBase, show a - a % (kinds a).getPageSize =
    (kinds a).getPageSize * (a / (kinds a).getPageSize) by omega,
    Nat.mul_div_cancel_left _ (hk.region a).getPageSize_pos]

/-- Where the page of an address is entered. -/
theorem pageStart_exists {a : Nat} (hga : g ≤ a) :
    ∃ b, g ≤ b ∧ b ≤ a ∧ PageStart kinds g b ∧ kinds b = kinds a ∧
      a / (kinds a).getPageSize = b / (kinds a).getPageSize := by
  have hpos := (hk.region a).getPageSize_pos
  have hbase : pageBase kinds a ≤ a := Nat.sub_le _ _
  by_cases hlow : g ≤ pageBase kinds a
  · have hdiv := div_pageBase hk a
    have hkind := kinds_of_page hk hdiv
    refine ⟨pageBase kinds a, hlow, hbase, Or.inr ?_, hkind, hdiv⟩
    rw [hkind]
    exact Nat.dvd_sub_mod a
  · have hdiv : a / (kinds a).getPageSize = g / (kinds a).getPageSize := by
      refine Nat.le_antisymm ?_ (Nat.div_le_div_right hga)
      rw [Nat.le_div_iff_mul_le hpos]
      have hsplit := Nat.div_add_mod a (kinds a).getPageSize
      rw [Nat.mul_comm] at hsplit
      unfold pageBase at hlow
      omega
    exact ⟨g, Nat.le_refl _, hga, Or.inl rfl, kinds_of_page hk hdiv, hdiv⟩

theorem kind_of_2MB {a : Nat} (h : (kinds a).getPageSize = pageSize2MB) : kinds a = .page2MB := by
  have hregion := hk.region a
  cases hka : kinds a with
  | pte k =>
    rw [hka] at h
    exact absurd h pte_getPageSize_ne_2MB
  | page2MB => rfl
  | directory =>
    rw [hka] at hregion
    cases hregion
  | memory =>
    rw [hka] at hregion
    cases hregion

omit hk in
theorem isTarget_lt {a p : Nat} (h : IsTarget kinds phys g a p) : p < 2 ^ 64 := by
  rcases h with ⟨_, rfl⟩ | ⟨f, _, _, rfl⟩ <;> exact Nat.mod_lt _ (by decide)

omit hk in
/-- The first page is mapped to the supplied address, or to the next 2MB page. -/
theorem firstPage_target {p : Nat} (h : IsTarget kinds phys g g p) :
    (kinds g ≠ .page2MB ∧ p = wrap64 phys) ∨
      (kinds g = .page2MB ∧ p = wrap64 (alignUp2MB phys)) := by
  rcases h with ⟨hnone, rfl⟩ | ⟨f, hf, hfg, rfl⟩
  · refine Or.inl ⟨hnone g (Nat.le_refl _) (Nat.le_refl _), ?_⟩
    rw [Nat.sub_self, Nat.add_zero]
  · obtain rfl : f = g := Nat.le_antisymm hfg hf.1
    refine Or.inr ⟨hf.2.1, ?_⟩
    rw [Nat.sub_self, Nat.sub_self, Nat.add_zero, Nat.add_zero]

/-- Before the first 2MB page the cursor has moved by the bytes passed. -/
theorem linear_small (keeps : CursorKeeps kinds phys g size pageSize) {a : Nat} (h1 : g ≤ a)
    (h2 : a < g + size) (start : PageStart kinds g a)
    (small : ∀ b, g ≤ b → b ≤ a → kinds b ≠ .page2MB) :
    (kinds a).getPageSize ∣ wrap64 (phys + (a - g)) ∧
      wrap64 (phys + (a - g)) + a % (kinds a).getPageSize =
        firstByte phys g pageSize + (a - g) := by
  obtain ⟨hoffset, hstart, haligned, hfits⟩ := keeps
  have hcong := haligned a h1 h2
  unfold firstByte at hcong hfits ⊢
  rw [wrap64, Nat.mod_eq_of_lt (by omega)]
  by_cases hag : a = g
  · subst hag
    rw [← hoffset] at hcong ⊢
    have hsum := Nat.sub_mod_eq_zero_of_mod_eq (hcong.trans (Nat.mod_mod _ _).symm)
    rw [Nat.add_sub_cancel] at hsum
    rw [Nat.sub_self, Nat.add_zero]
    exact ⟨Nat.dvd_of_mod_eq_zero hsum, rfl⟩
  · have hdvd := start.resolve_left hag
    have hzero : g % pageSize = 0 := by
      rcases hstart with h | h | h
      · exact h
      · exact absurd (kind_of_2MB hk h) (small g (Nat.le_refl _) h1)
      · exact absurd (pageSize_div hk (Nat.le_refl g) h1 (by omega) (Or.inr hdvd)) hag
    rw [hzero, Nat.add_zero] at hcong ⊢
    refine ⟨Nat.dvd_of_mod_eq_zero ?_, by rw [Nat.mod_eq_zero_of_dvd hdvd, Nat.add_zero]⟩
    rw [Nat.add_mod, hcong, ← Nat.add_mod, Nat.add_sub_cancel' h1]
    exact Nat.mod_eq_zero_of_dvd hdvd

/-- From the first 2MB page on the cursor follows the pages. -/
theorem linear_large (keeps : CursorKeeps kinds phys g size pageSize2MB)
    (block : pageSize2MB ∣ phys) {a f : Nat} (h2 : a < g + size) (start : PageStart kinds g a)
    (first : FirstLarge kinds g f) (hfa : f ≤ a) :
    (kinds a).getPageSize ∣ wrap64 (alignUp2MB (phys + (f - g)) +
        (pageBase kinds a - pageBase kinds f)) ∧
      wrap64 (alignUp2MB (phys + (f - g)) + (pageBase kinds a - pageBase kinds f)) +
          a % (kinds a).getPageSize = firstByte phys g pageSize2MB + (a - g) := by
  obtain ⟨hoffset, hstart, haligned, hfits⟩ := keeps
  have hgf := first.1
  have hbase : pageBase kinds f = f - f % pageSize2MB := by
    simp only [pageBase, first.2.1, NodeKind.getPageSize]
  have hdvd : (kinds a).getPageSize ∣ pageSize2MB := (hk.region a).dvd
  have hfirst := firstLarge_aligned hk first
  -- a first page that is smaller is followed by others, so the request starts at a page
  have hzero : f = g ∨ g % pageSize2MB = 0 := by
    by_cases hfg : f = g
    · exact Or.inl hfg
    · refine Or.inr ?_
      rcases hstart with h | h | h
      · exact h
      · exact absurd (kind_of_2MB hk h) (first.2.2 g (Nat.le_refl _) (by omega))
      · have hpage := samePage (hk.region g).getPageSize_pos hgf
          (by omega : f < g + ((kinds g).getPageSize - g % (kinds g).getPageSize))
        have hkind := kinds_of_page hk hpage
        rw [first.2.1] at hkind
        exact absurd hkind.symm (first.2.2 g (Nat.le_refl _) (by omega))
  have hpage : pageBase kinds a + a % (kinds a).getPageSize = a := by
    have := Nat.mod_le a (kinds a).getPageSize
    unfold pageBase
    omega
  have hmono : pageBase kinds f ≤ pageBase kinds a := by
    rcases start with rfl | hstart
    · rw [Nat.le_antisymm hfa hgf]
    · unfold pageBase
      rw [Nat.mod_eq_zero_of_dvd hstart]
      omega
  have hvalue : alignUp2MB (phys + (f - g)) + (pageBase kinds a - pageBase kinds f) +
      a % (kinds a).getPageSize = firstByte phys g pageSize2MB + (a - g) := by
    obtain ⟨d, rfl⟩ := block
    rw [hbase] at hmono ⊢
    unfold firstByte
    simp only [alignUp2MB, pageSize2MB] at hzero hfirst hmono ⊢
    omega
  rw [wrap64, Nat.mod_eq_of_lt (by omega)]
  refine ⟨?_, hvalue⟩
  refine Nat.dvd_add (hdvd.trans (Nat.dvd_of_mod_eq_zero (alignUp2MB_mod _)))
    (Nat.dvd_sub (Nat.dvd_sub_mod a) ?_)
  rw [hbase]
  exact hdvd.trans (Nat.dvd_sub_mod f)

/-- The cursor keeps its distance on every page. -/
theorem linearPages_of_keeps (block : pageSize ∣ phys)
    (large : ∀ a, g ≤ a → a < g + size → kinds a = .page2MB → pageSize = pageSize2MB)
    (keeps : CursorKeeps kinds phys g size pageSize) : LinearPages kinds phys g size pageSize := by
  rintro a p h1 h2 start (⟨small, rfl⟩ | ⟨f, first, hfa, rfl⟩)
  · exact linear_small hk keeps h1 h2 start small
  · obtain rfl := large f first.1 (by omega) first.2.1
    exact linear_large hk keeps block h2 start first hfa

omit hk in
/-- The offset in the first page of a linear mapping. -/
theorem offset_of_linear (hphys : phys < 2 ^ 64) (hsize : 0 < size)
    (large : ∀ a, g ≤ a → a < g + size → kinds a = .page2MB → pageSize = pageSize2MB)
    (linear : LinearPages kinds phys g size pageSize) :
    g % (kinds g).getPageSize = g % pageSize := by
  obtain ⟨p, target⟩ := isTarget_exists kinds phys (g := g) (a := g)
  obtain ⟨_, hvalue⟩ := linear g p (Nat.le_refl _) (by omega) (Or.inl rfl) target
  rcases firstPage_target target with ⟨_, rfl⟩ | ⟨h2MB, _⟩
  · rw [wrap64, Nat.mod_eq_of_lt hphys, Nat.sub_self, Nat.add_zero] at hvalue
    exact Nat.add_left_cancel hvalue
  · rw [large g (Nat.le_refl _) (by omega) h2MB, h2MB]
    rfl

/-- Behind a first page that is entered in its middle, only 2MB pages stay linear. -/
theorem start_of_linear (large : ∀ a, g ≤ a → a < g + size → kinds a = .page2MB →
      pageSize = pageSize2MB) (offset : g % (kinds g).getPageSize = g % pageSize)
    (linear : LinearPages kinds phys g size pageSize) :
    g % pageSize = 0 ∨ (kinds g).getPageSize = pageSize2MB ∨
      g % (kinds g).getPageSize + size ≤ (kinds g).getPageSize := by
  by_contra hnot
  rw [not_or, not_or] at hnot
  obtain ⟨hstart, hsmall, hpart⟩ := hnot
  have hpos := (hk.region g).getPageSize_pos
  have hmod := Nat.mod_lt g hpos
  have hpage : ∀ b, g ≤ b → b < g + ((kinds g).getPageSize - g % (kinds g).getPageSize) →
      kinds b = kinds g := fun b h1 h2 => kinds_of_page hk (samePage hpos h1 h2)
  have haligned := pageEnd_aligned (g := g) hpos (hk.region g).dvd (hk.region _).dvd fun hregion =>
    congrArg NodeKind.getPageSize (hk.uniform _ _ hregion).symm
  have hnext : kinds (g + ((kinds g).getPageSize - g % (kinds g).getPageSize)) ≠ .page2MB := by
    intro h2MB
    have hP := large _ (by omega) (by omega) h2MB
    have hregion : g / 2 ^ 21 =
        (g + ((kinds g).getPageSize - g % (kinds g).getPageSize)) / 2 ^ 21 := by
      rw [hP] at offset
      rcases isPageSize_of_region (hk.region g) with hps | hps | hps
      · rw [hps] at offset ⊢
        simp only [pageSize4KB, pageSize2MB] at offset ⊢
        omega
      · rw [hps] at offset ⊢
        simp only [pageSize64KB, pageSize2MB] at offset ⊢
        omega
      · exact absurd hps hsmall
    rw [← hk.uniform _ _ hregion] at h2MB
    exact hsmall (congrArg NodeKind.getPageSize h2MB)
  have target : IsTarget kinds phys g (g + ((kinds g).getPageSize - g % (kinds g).getPageSize))
      (wrap64 (phys + (g + ((kinds g).getPageSize - g % (kinds g).getPageSize) - g))) := by
    refine Or.inl ⟨fun b h1 h2 => ?_, rfl⟩
    rcases Nat.lt_or_eq_of_le h2 with hlt | rfl
    · rw [hpage b h1 hlt]
      exact fun h => hsmall (congrArg NodeKind.getPageSize h)
    · exact hnext
  obtain ⟨_, hvalue⟩ := linear _ _ (by omega) (by omega) (Or.inr haligned) target
  rw [Nat.mod_eq_zero_of_dvd haligned] at hvalue
  have hwrap : wrap64 (phys + (g + ((kinds g).getPageSize - g % (kinds g).getPageSize) - g)) ≤
      phys + (g + ((kinds g).getPageSize - g % (kinds g).getPageSize) - g) := Nat.mod_le _ _
  unfold firstByte at hvalue
  omega

/-- A linear mapping keeps the cursor's distance. -/
theorem keeps_of_linear (hphys : phys < 2 ^ 64) (hsize : 0 < size)
    (large : ∀ a, g ≤ a → a < g + size → kinds a = .page2MB → pageSize = pageSize2MB)
    (linear : LinearPages kinds phys g size pageSize) :
    CursorKeeps kinds phys g size pageSize := by
  have hoffset := offset_of_linear hphys hsize large linear
  refine ⟨hoffset, start_of_linear hk large hoffset linear, fun a h1 h2 => ?_, ?_⟩
  · obtain ⟨b, hb1, hb2, start, hkind, _⟩ := pageStart_exists hk h1
    obtain ⟨p, target⟩ := isTarget_exists kinds phys (g := g) (a := b)
    obtain ⟨⟨d, rfl⟩, hvalue⟩ := linear b p hb1 (by omega) start target
    rw [← hkind]
    have hb := Nat.div_add_mod b (kinds b).getPageSize
    have hsum : firstByte phys g pageSize + (kinds b).getPageSize * (b / (kinds b).getPageSize) =
        g + (kinds b).getPageSize * d := by omega
    have hcong := congrArg (· % (kinds b).getPageSize) hsum
    simpa only [Nat.add_mul_mod_self_left] using hcong
  · obtain ⟨b, hb1, hb2, start, hkind, hdiv⟩ :=
      pageStart_exists hk (Nat.le_add_right g (size - 1))
    obtain ⟨p, target⟩ := isTarget_exists kinds phys (g := g) (a := b)
    obtain ⟨hdvd, hvalue⟩ := linear b p hb1 (by omega) start target
    have hpos := (hk.region b).getPageSize_pos
    have hspace : (kinds b).getPageSize ∣ 2 ^ 64 :=
      (hk.region b).dvd.trans (Nat.pow_dvd_pow 2 (by decide))
    have hroom : p + (kinds b).getPageSize ≤ 2 ^ 64 := by
      obtain ⟨d, rfl⟩ := hdvd
      obtain ⟨m, hm⟩ := hspace
      have hlt := isTarget_lt target
      rw [hm] at hlt ⊢
      rw [← Nat.mul_succ]
      exact Nat.mul_le_mul_left _ (Nat.lt_of_mul_lt_mul_left hlt)
    rw [← hkind] at hdiv
    have hlast := Nat.div_add_mod (g + (size - 1)) (kinds b).getPageSize
    have hfirst := Nat.div_add_mod b (kinds b).getPageSize
    have hmod := Nat.mod_lt (g + (size - 1)) hpos
    rw [hdiv] at hlast
    omega

/-- The cursor keeps its distance exactly for linear mappings. -/
theorem linearPages_iff (hphys : phys < 2 ^ 64) (block : pageSize ∣ phys) (hsize : 0 < size)
    (large : ∀ a, g ≤ a → a < g + size → kinds a = .page2MB → pageSize = pageSize2MB) :
    LinearPages kinds phys g size pageSize ↔ CursorKeeps kinds phys g size pageSize :=
  ⟨keeps_of_linear hk hphys hsize large, linearPages_of_keeps hk block large⟩

end

theorem slotPath_period {n l x : Nat} (hl : l ≤ n) :
    slotPath n l (x + addressSpace n) = slotPath n l x := by
  obtain ⟨k, rfl⟩ : ∃ k, n = l + k := ⟨n - l, by omega⟩
  induction k generalizing l with
  | zero => rw [Nat.add_zero, slotPath_root, slotPath_root]
  | succ k ih =>
    have hlt : l < l + (k + 1) := by omega
    have hrest := ih (l := l + 1) (by omega)
    rw [show l + 1 + k = l + (k + 1) by omega] at hrest
    rw [slotPath_cons _ hlt, slotPath_cons _ hlt, hrest]
    congr 1
    have hspace : addressSpace (l + (k + 1)) = 2 ^ (12 + 9 * l) * (512 * 2 ^ (9 * k)) := by
      rw [addressSpace, show 12 + 9 * (l + (k + 1)) = 12 + 9 * l + (9 + 9 * k) by omega,
        Nat.pow_add, Nat.pow_add 2 9]
    rw [directoryIndex, directoryIndex, hspace, Nat.add_mul_div_left _ _ (Nat.two_pow_pos _),
      Nat.add_mul_mod_self_left]

/-- Addresses one address space apart are the same to the tables. -/
theorem translateVa_period {n : Nat} {t : Nodes} (wf : Wf n t) (hn : 4 ≤ n) (x : Nat) :
    translateVa n t (x + addressSpace n) = translateVa n t x := by
  have hregion : regionAt n t (x + addressSpace n) = regionAt n t x := by
    unfold regionAt
    rw [slotPath_period (by simp only [Pde]; omega)]
  unfold translateVa leafAt pageSizeAt
  rw [hregion]
  cases hm : regionAt n t x with
  | none => rfl
  | some m =>
    have hk := isRegion_of_regionAt wf hn hm
    have hmod : (x + addressSpace n) % m.kind.getPageSize = x % m.kind.getPageSize := by
      obtain ⟨d, hd⟩ := dvd_addressSpace hk n (by omega)
      rw [hd, Nat.add_mul_mod_self_left]
    have hslot : leafSlot n m.kind (x + addressSpace n) = leafSlot n m.kind x := by
      have hpath : slotPath n Pde (x + addressSpace n) = slotPath n Pde x :=
        slotPath_period (by simp only [Pde]; omega)
      have hspace : addressSpace n = 2 ^ 21 * 2 ^ (9 * (n - 1)) := by
        rw [addressSpace, ← Nat.pow_add]
        congr 1
        omega
      unfold leafSlot
      generalize m.kind = kind at hk ⊢
      cases hk with
      | pte k =>
        have hindex : k.getIndex (x + addressSpace n) = k.getIndex x := by
          rw [hspace]
          cases k <;> simp only [PteKind.getIndex] <;> omega
        simp only [hpath, hindex]
      | page2MB => exact hpath
    simp only [Option.bind_some, hslot, hmod]

/-- What a mapping is to do: every byte of the request is mapped at its distance from the first,
and the new leaves are aligned to their pages and in the bank that was asked for. -/
structure MapsLinearly (n : Nat) (t t' : Nodes) (params : AllocationParams) (phys : Nat) : Prop where
  linear : ∀ i, i < params.size → translateVa n t' (params.gfxAddress + i) =
    some (firstByte phys params.gfxAddress params.pageSize + i, params.memoryBanks)
  created : ∀ a leaf, leafAt n t a = none → leafAt n t' a = some leaf →
    pageSizeAt n t' a ∣ leaf.physicalAddress ∧ leaf.memoryBank = params.memoryBanks

theorem mapsLinearly_layout {n : Nat} {t t' : Nodes} {params : AllocationParams} {phys : Nat} :
    MapsLinearly n (layout t) (layout t') params phys ↔ MapsLinearly n t t' params phys := by
  constructor
  · rintro ⟨linear, created⟩
    refine ⟨fun i hi => by rw [← translate_layout, linear i hi], fun a leaf hnone hleaf => ?_⟩
    have h := created a (core leaf) (by rw [leafAt_layout, hnone]; rfl)
      (by rw [leafAt_layout, hleaf]; rfl)
    rw [pageSizeAt_layout] at h
    exact h
  · rintro ⟨linear, created⟩
    refine ⟨fun i hi => by rw [translate_layout, linear i hi], fun a leaf hnone hleaf => ?_⟩
    rw [leafAt_layout] at hnone hleaf
    obtain ⟨x, hx, rfl⟩ := Option.map_eq_some_iff.mp hleaf
    rw [pageSizeAt_layout]
    exact created a x (Option.map_eq_none_iff.mp hnone) hx

variable {A : Type} [PhysicalAddressAllocator A]

section
variable {c : WalkContext} {t : Nodes} {phys g' : Nat} {s : Layout A}

omit [PhysicalAddressAllocator A] in
/-- Where an address of an entered page is mapped to. -/
theorem translate_entered (wf₀ : Wf c.ppgtt.getNumLevels t) (wf : Wf c.ppgtt.getNumLevels s.nodes)
    {g size : Nat} (run : MapRun c t phys g (g + size) g' 0 s) {a b p : Nat} (h1 : g ≤ b)
    (h2 : b < g + size) (start : PageStart (lastTable c t) g b)
    (target : IsTarget (lastTable c t) phys g b p) (hkind : lastTable c t b = lastTable c t a)
    (hpage : a / (lastTable c t a).getPageSize = b / (lastTable c t a).getPageSize) :
    translateVa c.ppgtt.getNumLevels s.nodes a =
      some (p + a % (lastTable c t a).getPageSize, c.allocationParams.memoryBanks) := by
  obtain ⟨leaf, hleaf, hp, hbank⟩ := leafAt_entered wf run h1 h2 start target
  have hsame : leafAt c.ppgtt.getNumLevels s.nodes a = some leaf := by
    rw [leafAt_after wf run] at hleaf ⊢
    unfold slotFor at hleaf ⊢
    rw [← hleaf, hkind, leafSlot_congr (isRegion_lastTable wf₀ a) hpage]
  unfold translateVa
  rw [hsame, Option.map_some, hp, hbank, pageSizeAt_after run (by rw [hsame]; simp)]

omit [PhysicalAddressAllocator A] in
/-- A walk that enters every page once maps linearly if its cursor keeps its distance. -/
theorem mapsLinearly_iff (wf₀ : Wf c.ppgtt.getNumLevels t) (wf : Wf c.ppgtt.getNumLevels s.nodes)
    (run : MapRun c t phys c.allocationParams.gfxAddress
      (c.allocationParams.gfxAddress + c.allocationParams.size) g' 0 s)
    (unmapped : ∀ x, c.allocationParams.gfxAddress ≤ x →
      x < c.allocationParams.gfxAddress + c.allocationParams.size →
        leafAt c.ppgtt.getNumLevels t x = none) :
    MapsLinearly c.ppgtt.getNumLevels t s.nodes c.allocationParams phys ↔
      LinearPages (lastTable c t) phys c.allocationParams.gfxAddress c.allocationParams.size
        c.allocationParams.pageSize := by
  have hk := pageKinds_lastTable wf₀
  constructor
  · rintro ⟨linear, created⟩ a p h1 h2 start target
    obtain ⟨leaf, hleaf, hp, _⟩ := leafAt_entered wf run h1 h2 start target
    have htranslate := translate_entered wf₀ wf run h1 h2 start target rfl rfl
    have hbyte := linear (a - c.allocationParams.gfxAddress) (by omega)
    rw [Nat.add_sub_cancel' h1, htranslate, Option.some.injEq, Prod.mk.injEq] at hbyte
    have haligned := (created a leaf (unmapped a h1 h2) hleaf).1
    rw [pageSizeAt_after run (by rw [hleaf]; simp), hp] at haligned
    exact ⟨haligned, hbyte.1⟩
  · intro pages
    refine ⟨fun i hi => ?_, fun a leaf hnone hleaf => ?_⟩
    · obtain ⟨b, hb1, hb2, start, hkind, hdiv⟩ :=
        pageStart_exists hk (Nat.le_add_right c.allocationParams.gfxAddress i)
      obtain ⟨p, target⟩ := isTarget_exists (lastTable c t) phys
        (g := c.allocationParams.gfxAddress) (a := b)
      obtain ⟨_, hvalue⟩ := pages b p hb1 (by omega) start target
      rw [translate_entered wf₀ wf run hb1 (by omega) start target hkind hdiv]
      rw [hkind] at hvalue
      have hbyte := Nat.div_add_mod (c.allocationParams.gfxAddress + i)
        (lastTable c t (c.allocationParams.gfxAddress + i)).getPageSize
      have hfirst := Nat.div_add_mod b
        (lastTable c t (c.allocationParams.gfxAddress + i)).getPageSize
      rw [hdiv] at hbyte
      congr 2
      omega
    · by_cases hentered : Entered c t c.allocationParams.gfxAddress
        (c.allocationParams.gfxAddress + c.allocationParams.size)
        (slotFor c.ppgtt.getNumLevels (lastTable c t) a)
      · obtain ⟨v, h1, h2, start, hslot⟩ := hentered
        obtain ⟨_, hkind⟩ := region_of_slot wf₀ hslot
        obtain ⟨p, target⟩ := isTarget_exists (lastTable c t) phys
          (g := c.allocationParams.gfxAddress) (a := v)
        obtain ⟨leaf', hleaf', hp, hbank⟩ := leafAt_entered wf run h1 h2 start target
        rw [pageSizeAt_after run (by rw [hleaf]; simp), hkind]
        rw [leafAt_after wf run, hslot, ← leafAt_after wf run, hleaf', Option.some.injEq] at hleaf
        rw [← hleaf, hp, hbank]
        exact ⟨(pages v p h1 h2 start target).1, rfl⟩
      · rw [leafAt_unentered wf₀ wf run hentered, hnone] at hleaf
        cases hleaf

end

omit [PhysicalAddressAllocator A] in
/-- Two addresses of a page are mapped at their distance. -/
theorem translate_page {c : WalkContext} {t t' : Nodes} {a b p bank : Nat}
    (wf : Wf c.ppgtt.getNumLevels t') (hkind : lastTable c t' a = lastTable c t a)
    (hpage : a / (lastTable c t a).getPageSize = b / (lastTable c t a).getPageSize)
    (h : translateVa c.ppgtt.getNumLevels t' a = some (p, bank)) :
    translateVa c.ppgtt.getNumLevels t' b = some (p - a % (lastTable c t a).getPageSize +
      b % (lastTable c t a).getPageSize, bank) := by
  obtain ⟨leaf, hleaf, heq⟩ := Option.map_eq_some_iff.mp h
  rw [Prod.mk.injEq] at heq
  obtain ⟨m, hm⟩ := pageSizeAt_mapped (n := c.ppgtt.getNumLevels) (t := t') (a := a)
    (by rw [hleaf]; simp)
  have hsize := lastTable_of_region hm
  rw [hkind] at hsize
  have hk := isRegion_of_regionAt wf (getNumLevels_ge c.ppgtt) hm
  rw [hsize] at hpage
  have hm' : regionAt c.ppgtt.getNumLevels t' b = some m := by
    rw [← regionAt_congr (region_of_page hk.dvd hpage)]
    exact hm
  rw [pageSizeAt_of_region hm] at heq
  unfold translateVa
  rw [← leafAt_congr hk hm hpage, hleaf, Option.map_some, pageSizeAt_of_region hm', hsize, ← heq.1,
    ← heq.2, Nat.add_sub_cancel]

/-- A walk leaves the page kinds along every address as they are. -/
theorem walkPages_kinds {c : WalkContext} {t : Nodes} {a : A} {phys : Option Nat} {g size : Nat}
    {w : WalkState A} (wf : Wf c.ppgtt.getNumLevels t) (hmode : c.mode ≠ .Expect)
    (h : walkPages c size g size 0 (.start t a phys) = some w) :
    Wf c.ppgtt.getNumLevels w.nodes ∧
      ∀ b, lastTable c (layout w.nodes) b = lastTable c (layout t) b := by
  obtain ⟨hwf, _, _, hkinds⟩ := walkPages_places
    (J := fun _ _ _ s => ∀ b, lastTable c s.nodes b = lastTable c (layout t) b) hmode
    (fun size index s page wf' _ _ _ hkinds b =>
      ((placePage_placed page wf' hmode).1.lastTable wf' b).trans (hkinds b))
    size g size 0 (.start t a phys) w (Nat.le_refl _) wf h fun _ => rfl
  exact ⟨hwf, hkinds⟩

omit [PhysicalAddressAllocator A] in
/-- Where a request goes around the address space, two of its bytes share an address. -/
theorem pagesOnce_of_linear {c : WalkContext} {t t' : Nodes} {phys : Nat}
    (wf : Wf c.ppgtt.getNumLevels t') (wf₀ : Wf c.ppgtt.getNumLevels t)
    (hsize : 0 < c.allocationParams.size) (hkinds : ∀ b, lastTable c t' b = lastTable c t b)
    (linear : MapsLinearly c.ppgtt.getNumLevels t t' c.allocationParams phys) :
    PagesOnce c.ppgtt.getNumLevels (lastTable c t) c.allocationParams.gfxAddress
      c.allocationParams.size := by
  have hn := getNumLevels_ge c.ppgtt
  have hk := pageKinds_lastTable wf₀
  have hpos := (hk.region c.allocationParams.gfxAddress).getPageSize_pos
  have hspace : 0 < addressSpace c.ppgtt.getNumLevels := Nat.two_pow_pos _
  have hbytes := linear.linear
  unfold PagesOnce
  generalize c.allocationParams.gfxAddress = g at *
  by_contra hnot
  have hle := Nat.mod_le g (lastTable c t g).getPageSize
  have hmod := Nat.mod_lt g hpos
  have hroom := Nat.le_of_dvd hspace
    (dvd_addressSpace (hk.region g) c.ppgtt.getNumLevels (by omega))
  have hfirst := hbytes 0 hsize
  -- the byte one address space behind the start of the first page
  have hbyte := hbytes (addressSpace c.ppgtt.getNumLevels - g % (lastTable c t g).getPageSize)
    (by omega)
  rw [show g + (addressSpace c.ppgtt.getNumLevels - g % (lastTable c t g).getPageSize) =
      pageBase (lastTable c t) g + addressSpace c.ppgtt.getNumLevels by unfold pageBase; omega,
    translateVa_period wf hn] at hbyte
  rw [translate_page wf (hkinds g) (div_pageBase hk g) hfirst, Option.some.injEq,
    Prod.mk.injEq] at hbyte
  have hbase : pageBase (lastTable c t) g % (lastTable c t g).getPageSize = 0 :=
    Nat.mod_eq_zero_of_dvd (Nat.dvd_sub_mod g)
  omega

/-- A mapping walk over unmapped addresses, in terms of its context. -/
theorem walk_linear_iff {c : WalkContext} {t : Nodes} {a : A} {phys : Nat} {w : WalkState A}
    (wf : Wf c.ppgtt.getNumLevels t) (hmode : c.mode = .Reserve)
    (hsize : 0 < c.allocationParams.size) (hphys : phys < 2 ^ 64)
    (block : c.allocationParams.pageSize ∣ phys)
    (hrequested : c.requestedPageSize = c.allocationParams.pageSize)
    (unmapped : ∀ x, c.allocationParams.gfxAddress ≤ x →
      x < c.allocationParams.gfxAddress + c.allocationParams.size →
        ¬ IsMapped c.ppgtt.getNumLevels t x)
    (h : walkPages c c.allocationParams.size c.allocationParams.gfxAddress c.allocationParams.size 0
      (.start t a (some phys)) = some w) :
    MapsLinearly c.ppgtt.getNumLevels t w.nodes c.allocationParams phys ↔
      CursorKeeps (lastTable c t) phys c.allocationParams.gfxAddress c.allocationParams.size
        c.allocationParams.pageSize ∧
      PagesOnce c.ppgtt.getNumLevels (lastTable c t) c.allocationParams.gfxAddress
        c.allocationParams.size := by
  obtain ⟨hwf, hkinds⟩ := walkPages_kinds wf (by rw [hmode]; simp) h
  have hk := pageKinds_lastTable wf
  have hlayout : lastTable c (layout t) = lastTable c t := funext (lastTable_layout c t)
  have hunmapped : ∀ x, c.allocationParams.gfxAddress ≤ x →
      x < c.allocationParams.gfxAddress + c.allocationParams.size →
        leafAt c.ppgtt.getNumLevels (layout t) x = none := by
    intro x h1 h2
    rw [leafAt_layout, not_not.mp (unmapped x h1 h2)]
    rfl
  -- an unmapped 2MB page is one that the request itself would create
  have hlarge : ∀ x, c.allocationParams.gfxAddress ≤ x →
      x < c.allocationParams.gfxAddress + c.allocationParams.size → lastTable c t x = .page2MB →
        c.allocationParams.pageSize = pageSize2MB := by
    intro x h1 h2 hx
    have hnone := hunmapped x h1 h2
    rw [leafSlot_mapped (wf_layout.mpr wf), hlayout, hx, layout_eq_none] at hnone
    change t (slotPath c.ppgtt.getNumLevels Pde x) = none at hnone
    rw [lastTable, hnone] at hx
    rcases tableKind_cases c.ppgtt c.requestedPageSize with ⟨_, h2MB⟩ | ⟨⟨k, hpte⟩, _⟩
    · exact hrequested ▸ h2MB
    · rw [hpte] at hx
      cases hx
  rw [← linearPages_iff hk hphys block hsize hlarge, ← mapsLinearly_layout, ← hlayout]
  constructor
  · intro linear
    have once := pagesOnce_of_linear (wf_layout.mpr hwf) (wf_layout.mpr wf) hsize hkinds linear
    obtain ⟨_, g', run⟩ := mapRun_walk wf hmode hphys once h
    exact ⟨(mapsLinearly_iff (wf_layout.mpr wf) (wf_layout.mpr hwf) run hunmapped).mp linear, once⟩
  · rintro ⟨pages, once⟩
    obtain ⟨_, g', run⟩ := mapRun_walk wf hmode hphys once h
    exact (mapsLinearly_iff (wf_layout.mpr wf) (wf_layout.mpr hwf) run hunmapped).mpr pages

/-- `mapGpuVa` maps linearly exactly when the pages along the request let its cursor keep the
distance, none of them is entered twice and the bank loop ends. -/
theorem mapGpuVa_linear_iff (cfg : Config) (a : A) (bank : Nat) (s : PageTables A)
    (reached : Reach (step cfg) Any (newTables a bank) s) (params : AllocationParams) (phys : Nat)
    (supported : cfg.gpu.isMemorySupported params.memoryBanks params.pageSize = true)
    (hsize : 0 < params.size) (hphys : phys < 2 ^ 64) (block : params.pageSize ∣ phys)
    (unmapped : ∀ x, params.gfxAddress ≤ x → x < params.gfxAddress + params.size →
      ¬ IsMapped cfg.ppgtt.getNumLevels s.nodes x) :
    (∃ s', step cfg s (.map params phys) = some s' ∧
      MapsLinearly cfg.ppgtt.getNumLevels s.nodes s'.nodes params phys) ↔
      CursorKeeps (pageKindAt cfg.ppgtt params.pageSize s.nodes) phys params.gfxAddress params.size
        params.pageSize ∧
      PagesOnce cfg.ppgtt.getNumLevels (pageKindAt cfg.ppgtt params.pageSize s.nodes)
        params.gfxAddress params.size ∧
      params.memoryBanks < 2 ^ 31 := by
  have wf := reach_wf reached
  have hadjust : adjustPageSizeForHardwareSupport cfg.gpu params.pageSize params.memoryBanks =
      params.pageSize := by
    unfold adjustPageSizeForHardwareSupport
    rw [if_neg]
    rintro ⟨h2MB, hnot⟩
    rw [supported] at hnot
    cases hnot
  have hwalk : ∀ w, walkMemory cfg.gpu cfg.enablePs64 cfg.ppgtt s.nodes s.allocator params .Reserve
      [] (some phys) = some w → params.memoryBanks < 2 ^ 31 ∧
        (MapsLinearly cfg.ppgtt.getNumLevels s.nodes w.nodes params phys ↔
          CursorKeeps (pageKindAt cfg.ppgtt params.pageSize s.nodes) phys params.gfxAddress
            params.size params.pageSize ∧
          PagesOnce cfg.ppgtt.getNumLevels (pageKindAt cfg.ppgtt params.pageSize s.nodes)
            params.gfxAddress params.size) := by
    intro w hw
    rcases walkMemory_some hw with ⟨hzero, _⟩ | ⟨_, c, hc, hpages⟩
    · omega
    · have hbanks : params.memoryBanks < 2 ^ 31 := by
        simp only [walkContext, Option.map_eq_some_iff] at hc
        obtain ⟨helper, hhelper, _⟩ := hc
        exact MemoryBankHelper.lt_of_new? hhelper
      obtain ⟨_, hppgtt, hmode, hparams, _, hrequested, _⟩ := walkContext_some hc
      rw [hadjust] at hrequested
      have hkinds := lastTable_eq c s.nodes
      subst hparams
      rw [← hppgtt] at wf unmapped ⊢
      rw [← hrequested, ← hkinds, hrequested]
      exact ⟨hbanks, walk_linear_iff wf hmode hsize hphys block hrequested unmapped hpages⟩
  constructor
  · rintro ⟨s', hstep, linear⟩
    simp only [step, runWalk, Option.map_eq_some_iff] at hstep
    obtain ⟨w, hw, rfl⟩ := hstep
    obtain ⟨hbanks, hiff⟩ := hwalk w hw
    obtain ⟨keeps, once⟩ := hiff.mp linear
    exact ⟨keeps, once, hbanks⟩
  · rintro ⟨keeps, once, hbanks⟩
    have hreserve : WalkMode.Reserve ≠ .Clone := by simp
    obtain ⟨w, hw⟩ := Option.isSome_iff_exists.mp (walkMemory_isSome cfg.gpu cfg.enablePs64 cfg.ppgtt
      s.nodes s.allocator [] (some phys) hreserve hbanks)
    refine ⟨⟨w.nodes, w.allocator⟩, ?_, (hwalk w hw).2.mpr ⟨keeps, once⟩⟩
    simp only [step, runWalk, hw, Option.map_some]

theorem newTables_unmapped {n : Nat} (hn : 4 ≤ n) (a : A) (bank x : Nat) :
    ¬ IsMapped n (newTables a bank).nodes x := by
  unfold IsMapped leafAt
  rw [regionAt_newTables hn]
  simp

/-- Two pages of an empty table. -/
theorem mapGpuVa_linear_twoPages :
    ∃ s', step fourLevel (newTables oneBank 1) (.map (request4KB 0x1000 0x2000) 0x5000) = some s' ∧
      MapsLinearly 4 (newTables oneBank 1).nodes s'.nodes (request4KB 0x1000 0x2000) 0x5000 := by
  have hkinds : pageKindAt .PML4 pageSize4KB (newTables oneBank 1).nodes = fun _ => .pte .PTE4KB := by
    funext x
    simp only [pageKindAt]
    rw [regionAt_newTables (by decide)]
    rfl
  refine (mapGpuVa_linear_iff fourLevel oneBank 1 (newTables oneBank 1) .start
    (request4KB 0x1000 0x2000) 0x5000 rfl (by decide) (by decide) (by decide) fun x _ _ =>
      newTables_unmapped (by decide) oneBank 1 x).mpr ?_
  change CursorKeeps (pageKindAt .PML4 pageSize4KB (newTables oneBank 1).nodes) 0x5000 0x1000 0x2000
    pageSize4KB ∧ PagesOnce 4 (pageKindAt .PML4 pageSize4KB (newTables oneBank 1).nodes) 0x1000 0x2000 ∧
      (1 : Nat) < 2 ^ 31
  rw [hkinds]
  refine ⟨⟨rfl, Or.inl rfl, fun _ _ _ => rfl, by decide⟩, ?_, by decide⟩
  unfold PagesOnce
  decide +kernel

/-- A request from the middle of one 4KB page to the middle of the next: the second page is mapped
to the middle of a physical page. -/
theorem not_mapGpuVa_linear :
    ¬ ∀ (s : PageTables PhysicalAddressAllocatorSimple) (params : AllocationParams) (phys : Nat),
      Reach (step fourLevel) Any (newTables oneBank 1) s →
      fourLevel.gpu.isMemorySupported params.memoryBanks params.pageSize = true →
      IsPageSize params.pageSize → 0 < params.size → phys < 2 ^ 64 → params.pageSize ∣ phys →
      (∀ x, ¬ IsMapped 4 s.nodes x) →
      ∃ s', step fourLevel s (.map params phys) = some s' ∧
        MapsLinearly 4 s.nodes s'.nodes params phys := by
  intro hall
  obtain ⟨s', hstep, linear⟩ := hall (newTables oneBank 1) (request4KB 0x800 0x1000) 0x10000 .start
    rfl (Or.inl rfl) (by decide) (by decide) (by decide)
    fun x => newTables_unmapped (by decide) oneBank 1 x
  have hrun : (step fourLevel (newTables oneBank 1) (.map (request4KB 0x800 0x1000) 0x10000)).map
      (fun s' => translateVa 4 s'.nodes 0x1000) = some (some (0x10800, 1)) := by
    decide +kernel
  rw [hstep, Option.map_some, Option.some.injEq] at hrun
  have hbyte := linear.linear 0x800 (by decide)
  change translateVa 4 s'.nodes 0x1000 = some (0x11000, 1) at hbyte
  rw [hrun] at hbyte
  cases hbyte

end LinearMaps
