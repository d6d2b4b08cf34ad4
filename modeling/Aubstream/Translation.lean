import Aubstream.Placement

/-!
# The in-memory translation of an address

The page directory's child fixes the page size of a 2MB region, and with it the
slot of the leaf. Two addresses of one page have the same leaf.
-/

namespace Translation
open EntryBits PathTree PageNodes PageWalker TreeShape WalkPhases Placement

/-- What the page directory holds for an address: a last-level table or a 2MB page. -/
def regionAt (n : Nat) (t : Nodes) (g : Nat) : Option PageNode := t (slotPath n Pde g)

def pageSizeAt (n : Nat) (t : Nodes) (g : Nat) : Nat :=
  match regionAt n t g with
  | none => 0
  | some m => m.kind.getPageSize

def leafAt (n : Nat) (t : Nodes) (g : Nat) : Option PageNode :=
  (regionAt n t g).bind fun m => t (leafSlot n m.kind g)

/-- Physical address and memory bank behind a virtual address. -/
def translateVa (n : Nat) (t : Nodes) (g : Nat) : Option (Nat × Nat) :=
  (leafAt n t g).map fun leaf => (leaf.physicalAddress + g % pageSizeAt n t g, leaf.memoryBank)

def IsMapped (n : Nat) (t : Nodes) (g : Nat) : Prop := leafAt n t g ≠ none

/-- Kinds that stand in a slot of the page directory. -/
inductive IsRegion : NodeKind → Prop where
  | pte (k : PteKind) : IsRegion (.pte k)
  | page2MB : IsRegion .page2MB

theorem isRegion_of_regionAt {n : Nat} {t : Nodes} (wf : Wf n t) (hn : 4 ≤ n) {g : Nat}
    {m : PageNode} (h : regionAt n t g = some m) : IsRegion m.kind := by
  have hlen : (slotPath n Pde g).length + 1 = n := by
    rw [slotPath_length]
    simp only [Pde]
    omega
  rcases wf.table_of_length h hlen with ⟨k, hk⟩ | hk
  · rw [hk]
    exact .pte k
  · rw [hk]
    exact .page2MB

theorem isRegion_lastTable {c : WalkContext} {t : Nodes} (wf : Wf c.ppgtt.getNumLevels t)
    (g : Nat) : IsRegion (lastTable c t g) := by
  rcases lastTable_cases wf g with ⟨k, h⟩ | h
  · rw [h]
    exact .pte k
  · rw [h]
    exact .page2MB

theorem IsRegion.getPageSize_pos {kind : NodeKind} (h : IsRegion kind) : 0 < kind.getPageSize := by
  cases h with
  | pte k => exact TreeShape.getPageSize_pos
  | page2MB => decide

theorem IsRegion.dvd {kind : NodeKind} (h : IsRegion kind) : kind.getPageSize ∣ 2 ^ 21 := by
  cases h with
  | pte k => cases k <;> decide
  | page2MB => decide

theorem IsRegion.page_dvd {kind : NodeKind} (h : IsRegion kind) : 4096 ∣ kind.getPageSize := by
  cases h with
  | pte k => cases k <;> decide
  | page2MB => decide

/-- Pages do not cross the border of a 2MB region. -/
theorem region_of_page {size g g' : Nat} (hdvd : size ∣ 2 ^ 21) (h : g / size = g' / size) :
    g / 2 ^ 21 = g' / 2 ^ 21 := by
  obtain ⟨k, hk⟩ := hdvd
  rw [hk, ← Nat.div_div_eq_div_mul, ← Nat.div_div_eq_div_mul, h]

/-- The bytes of a page behind `g`. -/
theorem samePage {size g a : Nat} (hpos : 0 < size) (h1 : g ≤ a)
    (h2 : a < g + (size - g % size)) : g / size = a / size := by
  have hdiv := Nat.div_add_mod g size
  have hmod := Nat.mod_lt g hpos
  symm
  rw [Nat.div_eq_iff hpos]
  rw [Nat.mul_comm] at hdiv
  omega

/-- The end of a page is aligned for the page that follows. -/
theorem pageEnd_aligned {size size' g : Nat} (hpos : 0 < size) (hdvd : size ∣ 2 ^ 21)
    (hdvd' : size' ∣ 2 ^ 21)
    (same : g / 2 ^ 21 = (g + (size - g % size)) / 2 ^ 21 → size' = size) :
    size' ∣ g + (size - g % size) := by
  have hdiv := Nat.div_add_mod g size
  have hmod := Nat.mod_lt g hpos
  have hend : g + (size - g % size) = size * (g / size + 1) := by
    rw [Nat.mul_add, Nat.mul_one]
    omega
  by_cases hregion : g / 2 ^ 21 = (g + (size - g % size)) / 2 ^ 21
  · rw [same hregion, hend]
    exact Nat.dvd_mul_right _ _
  · obtain ⟨d, hd⟩ := hdvd
    refine hdvd'.trans ?_
    have hquot : g / 2 ^ 21 = g / size / d := by
      rw [hd, Nat.div_div_eq_div_mul]
    have hquot' : (g + (size - g % size)) / 2 ^ 21 = (g / size + 1) / d := by
      rw [hend, hd, ← Nat.div_div_eq_div_mul, Nat.mul_div_cancel_left _ hpos]
    rw [hquot, hquot', Nat.succ_div] at hregion
    rw [hend, hd]
    refine Nat.mul_dvd_mul_left _ ?_
    by_contra hnot
    rw [if_neg hnot] at hregion
    exact hregion rfl

theorem getIndex_congr {k : PteKind} {g g' : Nat} (h : g / k.getPageSize = g' / k.getPageSize) :
    k.getIndex g = k.getIndex g' := by
  cases k <;> simp only [PteKind.getPageSize, pageSize4KB, pageSize64KB] at h <;>
    simp only [PteKind.getIndex] <;> omega

/-- Addresses of one page share the slot of their leaf. -/
theorem leafSlot_congr {n : Nat} {kind : NodeKind} (hk : IsRegion kind) {g g' : Nat}
    (h : g / kind.getPageSize = g' / kind.getPageSize) : leafSlot n kind g = leafSlot n kind g' := by
  have hregion := slotPath_congr (n := n) (Nat.le_refl 1) (region_of_page hk.dvd h)
  cases hk with
  | pte k =>
    have hindex := getIndex_congr (k := k) h
    simp only [leafSlot, Pde, hregion, hindex]
  | page2MB => simp only [leafSlot, Pde, hregion]

theorem regionAt_congr {n : Nat} {t : Nodes} {g g' : Nat} (h : g / 2 ^ 21 = g' / 2 ^ 21) :
    regionAt n t g = regionAt n t g' := by
  simp only [regionAt, Pde, slotPath_congr (n := n) (Nat.le_refl 1) h]

theorem leafAt_of_region {n : Nat} {t : Nodes} {g : Nat} {m : PageNode}
    (h : regionAt n t g = some m) : leafAt n t g = t (leafSlot n m.kind g) := by
  simp only [leafAt, h, Option.bind_some]

theorem pageSizeAt_of_region {n : Nat} {t : Nodes} {g : Nat} {m : PageNode}
    (h : regionAt n t g = some m) : pageSizeAt n t g = m.kind.getPageSize := by
  simp only [pageSizeAt, h]

/-- Addresses of one page have the same leaf. -/
theorem leafAt_congr {n : Nat} {t : Nodes} {g g' : Nat} {m : PageNode} (hk : IsRegion m.kind)
    (hm : regionAt n t g = some m) (h : g / m.kind.getPageSize = g' / m.kind.getPageSize) :
    leafAt n t g = leafAt n t g' := by
  have hm' : regionAt n t g' = some m := by
    rw [← regionAt_congr (region_of_page hk.dvd h)]
    exact hm
  rw [leafAt_of_region hm, leafAt_of_region hm', leafSlot_congr hk h]

/-- Nodes that map memory. -/
inductive IsLeaf : NodeKind → Prop where
  | memory : IsLeaf .memory
  | page2MB : IsLeaf .page2MB

theorem isLeaf_of_leafAt {n : Nat} {t : Nodes} (wf : Wf n t) (hn : 4 ≤ n) {g : Nat}
    {m leaf : PageNode} (hm : regionAt n t g = some m)
    (hleaf : t (leafSlot n m.kind g) = some leaf) : IsLeaf leaf.kind := by
  have hk := isRegion_of_regionAt wf hn hm
  have hslot : t (slotPath n Pde g) = some m := hm
  cases hkind : m.kind with
  | pte k =>
    rw [hkind] at hleaf
    have hl : (leafSlot n (.pte k) g).length = n := by
      simp only [leafSlot, List.length_cons, slotPath_length, Pde]
      omega
    rw [wf.memory_of_length hleaf hl]
    exact .memory
  | page2MB =>
    rw [hkind] at hleaf
    simp only [leafSlot, hslot, Option.some.injEq] at hleaf
    rw [← hleaf, hkind]
    exact .page2MB
  | directory =>
    rw [hkind] at hk
    cases hk
  | memory =>
    rw [hkind] at hk
    cases hk

theorem lastTable_of_region {c : WalkContext} {t : Nodes} {g : Nat} {m : PageNode}
    (h : regionAt c.ppgtt.getNumLevels t g = some m) : lastTable c t g = m.kind := by
  simp only [regionAt] at h
  simp only [lastTable, h]

theorem leafSlot_mapped {c : WalkContext} {t : Nodes} (wf : Wf c.ppgtt.getNumLevels t) {g : Nat} :
    leafAt c.ppgtt.getNumLevels t g = t (leafSlot c.ppgtt.getNumLevels (lastTable c t g) g) := by
  cases h : regionAt c.ppgtt.getNumLevels t g with
  | some m => rw [leafAt_of_region h, lastTable_of_region h]
  | none =>
    have hnone : t (slotPath c.ppgtt.getNumLevels Pde g) = none := h
    simp only [leafAt, h, Option.bind_none]
    rcases lastTable_cases wf g with ⟨k, hk⟩ | hk
    · rw [hk]
      exact (wf.none_of_parent_none hnone).symm
    · rw [hk]
      exact hnone.symm

theorem regionAt_layout (n : Nat) (t : Nodes) (g : Nat) :
    regionAt n (layout t) g = (regionAt n t g).map core := rfl

theorem isLeaf_of_slot {c : WalkContext} {t : Nodes} (wf : Wf c.ppgtt.getNumLevels t) {g : Nat}
    {m : PageNode} (h : t (leafSlot c.ppgtt.getNumLevels (lastTable c t g) g) = some m) :
    leafAt c.ppgtt.getNumLevels t g = some m ∧ IsLeaf m.kind := by
  rw [← leafSlot_mapped wf] at h
  obtain ⟨r, hr, hleaf⟩ := Option.bind_eq_some_iff.mp h
  exact ⟨h, isLeaf_of_leafAt wf (getNumLevels_ge c.ppgtt) hr hleaf⟩

theorem leafAt_layout (n : Nat) (t : Nodes) (g : Nat) :
    leafAt n (layout t) g = (leafAt n t g).map core := by
  unfold leafAt
  rw [regionAt_layout]
  cases regionAt n t g with
  | none => rfl
  | some m => rfl

theorem pageSizeAt_layout (n : Nat) (t : Nodes) (g : Nat) :
    pageSizeAt n (layout t) g = pageSizeAt n t g := by
  unfold pageSizeAt
  rw [regionAt_layout]
  cases regionAt n t g with
  | none => rfl
  | some m => rfl

theorem translate_layout (n : Nat) (t : Nodes) (g : Nat) :
    translateVa n (layout t) g = translateVa n t g := by
  unfold translateVa
  rw [leafAt_layout, pageSizeAt_layout]
  cases leafAt n t g with
  | none => rfl
  | some leaf => rfl

/-- Slots tell the addresses of a table apart, up to its address space. -/
theorem slotPath_inj {n l : Nat} (hl : l ≤ n) {a b : Nat} (h : slotPath n l a = slotPath n l b) :
    a / 2 ^ (12 + 9 * l) % 2 ^ (9 * (n - l)) = b / 2 ^ (12 + 9 * l) % 2 ^ (9 * (n - l)) := by
  obtain ⟨k, rfl⟩ : ∃ k, n = l + k := ⟨n - l, by omega⟩
  induction k generalizing l with
  | zero => simp [Nat.mod_one]
  | succ k ih =>
    have hlt : l < l + (k + 1) := by omega
    rw [slotPath_cons a hlt, slotPath_cons b hlt] at h
    injection h with hindex hrest
    have hsum : l + (k + 1) = l + 1 + k := by omega
    rw [hsum] at hrest
    have hupper := ih (l := l + 1) (by omega) hrest
    have hpow : 2 ^ (12 + 9 * (l + 1)) = 2 ^ (12 + 9 * l) * 512 := by
      rw [show 12 + 9 * (l + 1) = 12 + 9 * l + 9 by omega, Nat.pow_add]
    have hpow' : 2 ^ (9 * (l + (k + 1) - l)) = 512 * 2 ^ (9 * (l + 1 + k - (l + 1))) := by
      rw [show 9 * (l + (k + 1) - l) = 9 + 9 * (l + 1 + k - (l + 1)) by omega, Nat.pow_add]
    rw [hpow, ← Nat.div_div_eq_div_mul, ← Nat.div_div_eq_div_mul] at hupper
    simp only [directoryIndex] at hindex
    rw [hpow', Nat.mod_mul, Nat.mod_mul, hindex, hupper]

end Translation
