import Aubstream.WalkEntries

/-!
# Reserving only adds

Without a supplied physical address a Reserve walk keeps every node it finds. The
leaves that it adds stand in the slots of the pages of its range.
-/

namespace ReserveFrame
open EntryBits PathTree PhysicalAllocator PageNodes PageWalker TreeShape WalkPhases Placement
  Translation TableRuns PageEffect PageVisits MapCursor MapFrame Transitions

variable {A : Type} [PhysicalAddressAllocator A]

/-- Between two pages of a Reserve or Clone walk that started on `t`. -/
structure AddRun (c : WalkContext) (t : Nodes) (g stop a size : Nat) (s : Layout A) : Prop where
  bounds : g ≤ a ∧ a + size = stop
  kinds : ∀ b, lastTable c s.nodes b = lastTable c t b
  unsupplied : s.physicalAddress = none
  kept : ∀ y m, t y = some m → s.nodes y = some m
  entered : ∀ b, g ≤ b → b < a → s.nodes (slotFor c.ppgtt.getNumLevels (lastTable c t) b) ≠ none
  new : ∀ y m, s.nodes y = some m → IsLeaf m.kind → t y = some m ∨
    ∃ b, g ≤ b ∧ b < a ∧ y = slotFor c.ppgtt.getNumLevels (lastTable c t) b

theorem addRun_step {c : WalkContext} {t : Nodes} {g stop size : Nat} {s : Layout A}
    {page : PageRequest} (wf₀ : Wf c.ppgtt.getNumLevels t) (wf : Wf c.ppgtt.getNumLevels s.nodes)
    (hmode : c.mode ≠ .Expect) (hsize : 0 < size) (hps : page.size = size)
    (run : AddRun c t g stop page.gfxAddress size s) :
    AddRun c t g stop (page.gfxAddress + (placePage c page s).2) (size - (placePage c page s).2)
      (placePage c page s).1 := by
  have hk := pageKinds_lastTable wf₀
  obtain ⟨hplaced, hpassed⟩ := placePage_placed page wf hmode
  rcases placePage_visited page wf (fun h => absurd h hmode) with ⟨hexpect, _⟩ | ⟨visited, _⟩
  · exact absurd hexpect hmode
  · obtain ⟨hga, hstop⟩ := run.bounds
    obtain ⟨leaf, hleaf, _⟩ := visited.leaf
    have hadded := visited.added run.unsupplied
    have hslot : visitSlot c (page, s) =
        slotFor c.ppgtt.getNumLevels (lastTable c t) page.gfxAddress := by
      rw [visitSlot, run.kinds]
      rfl
    have hpos := (hk.region page.gfxAddress).getPageSize_pos
    have hmod := Nat.mod_lt page.gfxAddress hpos
    have hmoved : (placePage c page s).2 = min size
        ((lastTable c t page.gfxAddress).getPageSize -
          page.gfxAddress % (lastTable c t page.gfxAddress).getPageSize) := by
      rw [hpassed, sizeThisIteration, hps, run.kinds]
    refine ⟨by omega, fun b => (visited.kinds b).trans (run.kinds b),
      placePage_physicalAddress_none c page run.unsupplied, ?_, ?_, ?_⟩
    · intro y m hm
      exact hadded y m (run.kept y m hm)
    · intro b h1 h2
      by_cases hb : b < page.gfxAddress
      · obtain ⟨m, hm⟩ := Option.ne_none_iff_exists'.mp (run.entered b h1 hb)
        rw [hadded _ m hm]
        simp
      · have hpage := samePage (g := page.gfxAddress) (a := b) hpos (by omega) (by omega)
        have hsame : slotFor c.ppgtt.getNumLevels (lastTable c t) b =
            slotFor c.ppgtt.getNumLevels (lastTable c t) page.gfxAddress := by
          unfold slotFor
          rw [kinds_of_page hk hpage]
          exact (leafSlot_congr (hk.region _) hpage).symm
        rw [hsame, ← hslot, hleaf]
        simp
    · intro y m hm hleafKind
      by_cases hy : y = visitSlot c (page, s)
      · exact Or.inr ⟨page.gfxAddress, hga, by omega, hy.trans hslot⟩
      · cases hold : s.nodes y with
        | none => exact absurd hleafKind (new_not_leaf hplaced hm hy hold)
        | some x =>
          have hx := hplaced.kept y x hold hy
          rw [hm, Option.some.injEq] at hx
          rcases run.new y m (hx ▸ hold) hleafKind with h | ⟨b, h1, h2, h3⟩
          · exact Or.inl h
          · exact Or.inr ⟨b, h1, by omega, h3⟩

/-- What a walk over `size` bytes at `g` may do to a table that it only extends: `t'` translates
what `t` does, and the whole range, and its other pages share an address with the range. -/
structure OnlyAdds (n : Nat) (t t' : Nodes) (g size : Nat) : Prop where
  kept : ∀ b, IsMapped n t b → IsMapped n t' b ∧ translateVa n t' b = translateVa n t b ∧
    pageSizeAt n t' b = pageSizeAt n t b
  mapped : ∀ b, g ≤ b → b < g + size → IsMapped n t' b
  new : ∀ b, IsMapped n t' b → ¬ IsMapped n t b → ∃ a, g ≤ a ∧ a < g + size ∧
    pageSizeAt n t' a = pageSizeAt n t' b ∧
    a % addressSpace n / pageSizeAt n t' b = b % addressSpace n / pageSizeAt n t' b

theorem isMapped_layout {n : Nat} {t : Nodes} {b : Nat} :
    IsMapped n (layout t) b ↔ IsMapped n t b := by
  unfold IsMapped
  rw [leafAt_layout]
  simp

theorem onlyAdds_layout {n : Nat} {t t' : Nodes} {g size : Nat}
    (h : OnlyAdds n (layout t) (layout t') g size) : OnlyAdds n t t' g size := by
  obtain ⟨h1, h2, h3⟩ := h
  simp only [isMapped_layout, translate_layout, pageSizeAt_layout] at h1 h2 h3
  exact ⟨h1, h2, h3⟩

/-- Addresses that share a slot lie, up to the address space, in one page. -/
theorem page_of_slotFor {c : WalkContext} {t : Nodes} (wf : Wf c.ppgtt.getNumLevels t) {a b : Nat}
    (h : slotFor c.ppgtt.getNumLevels (lastTable c t) a =
      slotFor c.ppgtt.getNumLevels (lastTable c t) b) :
    lastTable c t a = lastTable c t b ∧
      a % addressSpace c.ppgtt.getNumLevels / (lastTable c t b).getPageSize =
        b % addressSpace c.ppgtt.getNumLevels / (lastTable c t b).getPageSize := by
  obtain ⟨_, hkind⟩ := region_of_slot wf h
  unfold slotFor at h
  rw [hkind] at h
  exact ⟨hkind, pageNumber_of_slot (getNumLevels_ge c.ppgtt) (isRegion_lastTable wf b) h⟩

omit [PhysicalAddressAllocator A] in
theorem AddRun.onlyAdds {c : WalkContext} {t : Nodes} {g size g' : Nat} {s : Layout A}
    (wf₀ : Wf c.ppgtt.getNumLevels t) (wf : Wf c.ppgtt.getNumLevels s.nodes)
    (run : AddRun c t g (g + size) g' 0 s) :
    OnlyAdds c.ppgtt.getNumLevels t s.nodes g size := by
  have hn := getNumLevels_ge c.ppgtt
  have hkinds : lastTable c t = lastTable c s.nodes := by
    funext b
    exact (run.kinds b).symm
  obtain rfl : g' = g + size := run.bounds.2
  have hafter : ∀ b, leafAt c.ppgtt.getNumLevels s.nodes b =
      s.nodes (slotFor c.ppgtt.getNumLevels (lastTable c t) b) := by
    intro b
    rw [leafAt_before wf, hkinds]
  have hsize : ∀ b, IsMapped c.ppgtt.getNumLevels s.nodes b →
      pageSizeAt c.ppgtt.getNumLevels s.nodes b = (lastTable c t b).getPageSize := by
    intro b hb
    rw [pageSizeAt_before (c := c) hb, hkinds]
  have hmapped : ∀ b, g ≤ b → b < g + size → IsMapped c.ppgtt.getNumLevels s.nodes b := by
    intro b h1 h2
    unfold IsMapped
    rw [hafter]
    exact run.entered b h1 h2
  refine ⟨?_, hmapped, ?_⟩
  · intro b hb
    obtain ⟨leaf, hleaf⟩ := Option.ne_none_iff_exists'.mp hb
    have hleaf' : leafAt c.ppgtt.getNumLevels s.nodes b = some leaf := by
      rw [hafter]
      exact run.kept _ leaf ((leafAt_before wf₀ b).symm.trans hleaf)
    have hb' : IsMapped c.ppgtt.getNumLevels s.nodes b := by
      unfold IsMapped
      rw [hleaf']
      simp
    have hpage : pageSizeAt c.ppgtt.getNumLevels s.nodes b =
        pageSizeAt c.ppgtt.getNumLevels t b := by
      rw [hsize b hb', pageSizeAt_before (c := c) hb]
    refine ⟨hb', ?_, hpage⟩
    unfold translateVa
    rw [hleaf, hleaf', hpage]
  · intro b hb hfresh
    obtain ⟨leaf, hleaf⟩ := Option.ne_none_iff_exists'.mp hb
    obtain ⟨m, hm⟩ := pageSizeAt_mapped hb
    have hkind := isLeaf_of_leafAt wf hn hm ((leafAt_of_region hm).symm.trans hleaf)
    rcases run.new _ leaf ((hafter b).symm.trans hleaf) hkind with hold | ⟨a, h1, h2, hslot⟩
    · refine absurd ?_ hfresh
      unfold IsMapped
      rw [leafAt_before wf₀, hold]
      simp
    · obtain ⟨hsame, hpage⟩ := page_of_slotFor wf₀ hslot.symm
      refine ⟨a, h1, h2, ?_, ?_⟩
      · rw [hsize b hb, hsize a (hmapped a h1 h2), hsame]
      · rw [hsize b hb]
        exact hpage

omit [PhysicalAddressAllocator A] in
theorem addRun_start (c : WalkContext) (t : Nodes) (a : A) (g size : Nat) :
    AddRun c (layout t) g (g + size) g size (layoutOf (.start t a none)) := by
  refine ⟨⟨Nat.le_refl _, rfl⟩, fun _ => rfl, rfl, fun _ _ hm => hm, ?_, ?_⟩
  · intro b h1 h2
    omega
  · intro y m hm _
    exact Or.inl hm

theorem addRun_walk {c : WalkContext} {t : Nodes} {a : A} {g size : Nat} {w : WalkState A}
    (wf : Wf c.ppgtt.getNumLevels t) (hmode : c.mode ≠ .Expect)
    (h : walkPages c size g size 0 (.start t a none) = some w) :
    OnlyAdds c.ppgtt.getNumLevels t w.nodes g size := by
  have wf₀ := wf_layout.mpr wf
  obtain ⟨hwf, g', _, run⟩ := walkPages_places
    (J := fun a' size' _ s => AddRun c (layout t) g (g + size) a' size' s)
    hmode (fun size' index s page wf' hpos _ hps run => addRun_step wf₀ wf' hmode hpos hps run)
    size g size 0 (.start t a none) w (Nat.le_refl _) wf h (addRun_start c t a g size)
  exact onlyAdds_layout (run.onlyAdds wf₀ (wf_layout.mpr hwf))

end ReserveFrame
