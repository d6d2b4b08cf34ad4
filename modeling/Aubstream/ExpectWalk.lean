import Aubstream.TableRuns
import Aubstream.Translation
import Aubstream.Ps64Flags

/-!
# Expect walks

A walk that only reads still passes through the PS64 branch, which can set the
bit and the pending flag of the leaves it meets. Both only ever grow during such
a walk, so it changes nothing exactly when no page of it does.
-/

namespace ExpectWalk
open EntryBits PathTree PhysicalAllocator PageNodes PageWalker TreeShape WalkPhases LeafStep
  Placement Ps64Flags Translation TableRuns Transitions

def isPending (t : Nodes) (p : Path) : Bool := (t p).any (·.pendingWrite)

/-- The same layout, with flags that were set still set. -/
structure Grown (t t' : Nodes) : Prop where
  same : layout t' = layout t
  ps64 : ∀ p, flag t p = true → flag t' p = true
  pending : ∀ p, isPending t p = true → isPending t' p = true

theorem isPending_of_some {t : Nodes} {p : Path} {n : PageNode} (h : t p = some n) :
    isPending t p = n.pendingWrite := by
  simp [isPending, h]

/-- A tree is its layout and its two flags. -/
theorem nodes_ext {t t' : Nodes} (same : layout t' = layout t) (ps64 : ∀ p, flag t' p = flag t p)
    (pending : ∀ p, isPending t' p = isPending t p) : t' = t := by
  funext p
  cases h : t p with
  | none => exact layout_eq_none.mp ((congrFun same p).trans (layout_eq_none.mpr h))
  | some n =>
    have hl := congrFun same p
    rw [layout_some h] at hl
    obtain ⟨n', hn', hcore⟩ := layout_eq_some hl
    have hf := ps64 p
    have hp := pending p
    rw [flag_of_some h, flag_of_some hn'] at hf
    rw [isPending_of_some h, isPending_of_some hn'] at hp
    rw [hn']
    cases n
    cases n'
    simp only [core, PageNode.mk.injEq] at hcore hf hp
    simp only [hcore, hf, hp]

theorem Grown.refl (t : Nodes) : Grown t t := ⟨rfl, fun _ h => h, fun _ h => h⟩

theorem Grown.trans {t t' t'' : Nodes} (h : Grown t t') (h' : Grown t' t'') : Grown t t'' :=
  ⟨h'.same.trans h.same, fun p hp => h'.ps64 p (h.ps64 p hp),
    fun p hp => h'.pending p (h.pending p hp)⟩

theorem Grown.antisymm {t t' : Nodes} (h : Grown t t') (h' : Grown t' t) : t' = t :=
  nodes_ext h.same (fun p => Bool.eq_iff_iff.mpr ⟨h'.ps64 p, h.ps64 p⟩)
    fun p => Bool.eq_iff_iff.mpr ⟨h'.pending p, h.pending p⟩

/-- A flag that is set nowhere else is enough for growth. -/
theorem grown_put {t : Nodes} {q : Path} {n : PageNode} (h : t q = some n) :
    Grown t (put t q ((n.setPs64 true).setPendingWrite true)) := by
  refine ⟨layout_put_core h rfl, ?_, ?_⟩
  · intro p hp
    by_cases hq : p = q
    · subst p
      exact flag_of_some (put_self _ _ _)
    · simpa only [flag, put_of_ne hq] using hp
  · intro p hp
    by_cases hq : p = q
    · subst p
      exact isPending_of_some (put_self _ _ _)
    · simpa only [isPending, put_of_ne hq] using hp

theorem grown_mark (t : Nodes) (qs : List Path) : Grown t (modifyAll t qs markPs64) := by
  have keep : ∀ p n, t p = some n → ∃ n', modifyAll t qs markPs64 p = some n' ∧
      (n.ps64 = true → n'.ps64 = true) ∧ (n.pendingWrite = true → n'.pendingWrite = true) := by
    intro p n h
    by_cases hp : p ∈ qs
    · refine ⟨markPs64 n, by rw [modifyAll_of_mem hp, h]; rfl, ?_, ?_⟩
      · intro hn
        simp only [markPs64, hn, if_true]
      · intro hn
        unfold markPs64
        split
        · exact hn
        · rfl
    · exact ⟨n, (modifyAll_of_not_mem hp).trans h, id, id⟩
  refine ⟨layout_modifyAll core_markPs64 t qs, ?_, ?_⟩
  · intro p hp
    obtain ⟨n, hn, hf⟩ := some_of_flag hp
    obtain ⟨n', hn', h, _⟩ := keep p n hn
    rw [flag_of_some hn']
    exact h hf
  · intro p hp
    cases hn : t p with
    | none => simp [isPending, hn] at hp
    | some n =>
      obtain ⟨n', hn', _, h⟩ := keep p n hn
      rw [isPending_of_some hn']
      exact h (isPending_of_some hn ▸ hp)

/-- The PS64 branch leaves the tree as it is when slot `index` is read with `size` bytes to go:
a complete group is marked already, and so is a slot whose group the code expects to complete. -/
def Quiet (gpu : Gpu) (t : Nodes) (parent : Path) (index size : Nat) : Prop :=
  if isPs64GroupComplete gpu t parent (index - index % 16) = true then
    ∀ i, i < 16 → flag t ((index - index % 16 + i) :: parent) = true
  else ∀ child, t (index :: parent) = some child →
    willComplete gpu (t ((index - index % 16) :: parent)) child (index % 16) size = true →
      child.ps64 = true ∧ child.pendingWrite = true

/-- The PS64 branch where the leaf is neither created nor remapped. -/
def readUpdate (gpu : Gpu) (size : Nat) (parent : Path) (index : Nat) (t : Nodes) : Nodes :=
  ps64Update gpu size parent index (isPs64Group gpu t parent (index - index % 16)) t

theorem isPs64Group_of_incomplete {gpu : Gpu} {t : Nodes} {p : Path} {b : Nat}
    (h : ¬ isPs64GroupComplete gpu t p b = true) : isPs64Group gpu t p b = false := by
  rw [Bool.eq_false_iff]
  exact fun hg => h (isPs64Group_iff.mp hg).2

theorem readUpdate_grown (gpu : Gpu) (size : Nat) (parent : Path) (index : Nat) (t : Nodes) :
    Grown t (readUpdate gpu size parent index t) := by
  unfold readUpdate ps64Update
  simp only
  by_cases hc : isPs64GroupComplete gpu t parent (index - index % 16) = true
  · rw [if_pos hc]
    exact grown_mark t _
  · rw [if_neg hc, isPs64Group_of_incomplete hc, if_neg (by simp)]
    cases hs : t (index :: parent) with
    | none => exact Grown.refl t
    | some child =>
      simp only
      split
      · exact grown_put hs
      · exact Grown.refl t

theorem modifyAll_mark_eq {t : Nodes} {qs : List Path} (h : ∀ q ∈ qs, flag t q = true) :
    modifyAll t qs markPs64 = t := by
  funext p
  by_cases hp : p ∈ qs
  · obtain ⟨n, hn, hf⟩ := some_of_flag (h p hp)
    rw [modifyAll_of_mem hp, hn]
    simp only [Option.map_some, markPs64, hf, if_true]
  · exact modifyAll_of_not_mem hp

theorem flag_of_modifyAll_mark {t : Nodes} {qs : List Path} {q : Path} (hq : q ∈ qs)
    (hs : t q ≠ none) (h : modifyAll t qs markPs64 = t) : flag t q = true := by
  obtain ⟨n, hn⟩ := Option.ne_none_iff_exists'.mp hs
  have hmark := congrFun h q
  rw [modifyAll_of_mem hq, hn, Option.map_some, Option.some.injEq] at hmark
  rw [flag_of_some hn]
  by_contra hf
  have hps : (markPs64 n).ps64 = true := by simp [markPs64, hf, PageNode.setPs64, PageNode.setPendingWrite]
  rw [hmark] at hps
  exact hf hps

theorem readUpdate_eq_iff {gpu : Gpu} {size : Nat} {parent : Path} {index : Nat} {t : Nodes} :
    readUpdate gpu size parent index t = t ↔ Quiet gpu t parent index size := by
  unfold readUpdate ps64Update Quiet
  simp only
  by_cases hc : isPs64GroupComplete gpu t parent (index - index % 16) = true
  · rw [if_pos hc, if_pos hc]
    constructor
    · intro h i hi
      obtain ⟨_, _, _, hall⟩ := isPs64GroupComplete_iff.mp hc
      obtain ⟨ci, hci, _⟩ := hall i hi
      exact flag_of_modifyAll_mark (mem_groupSlots.mpr ⟨i, hi, rfl⟩) (by rw [hci]; simp) h
    · intro h
      refine modifyAll_mark_eq fun q hq => ?_
      obtain ⟨i, hi, rfl⟩ := mem_groupSlots.mp hq
      exact h i hi
  · rw [if_neg hc, if_neg hc, isPs64Group_of_incomplete hc, if_neg (by simp)]
    cases hs : t (index :: parent) with
    | none => simp
    | some child =>
      simp only [Option.some.injEq, forall_eq']
      by_cases hw : willComplete gpu (t ((index - index % 16) :: parent)) child (index % 16) size = true
      · rw [if_pos hw]
        constructor
        · intro h _
          have hself := congrFun h (index :: parent)
          rw [put_self, hs, Option.some.injEq] at hself
          rw [← hself]
          exact ⟨rfl, rfl⟩
        · intro h
          obtain ⟨h1, h2⟩ := h hw
          refine put_eq_self (hs.trans ?_)
          rw [Option.some.injEq]
          cases child
          simp only at h1 h2
          simp only [PageNode.setPs64, PageNode.setPendingWrite, h1, h2]
      · rw [if_neg hw]
        exact ⟨fun _ h => absurd h hw, fun _ => rfl⟩

variable {A : Type} [PhysicalAddressAllocator A]

/-- A page that is read: only the PS64 branch touches the tree. -/
def readNodes (c : WalkContext) (page : PageRequest) (m : PageNode) (t : Nodes) : Nodes :=
  if c.ps64Applicable = true ∧ m.kind = .pte .PTE4KB then
    readUpdate c.gpu page.size (slotPath c.ppgtt.getNumLevels Pde page.gfxAddress)
      (PteKind.PTE4KB.getIndex page.gfxAddress) t
  else t

/-- An existing leaf is entered without an override. -/
theorem leafNodes_read {c : WalkContext} {page : PageRequest} {last : NodeKind}
    {parent : PageNode} {w : WalkState A} {m leaf : PageNode}
    (hat : AtLevel c page last (leafLevel last) w) (hphys : w.physicalAddress = none)
    (hk : m.kind = last)
    (hp : w.nodes (slotPath c.ppgtt.getNumLevels (leafLevel last + 1) page.gfxAddress) = some parent)
    (hleaf : w.nodes (leafSlot c.ppgtt.getNumLevels last page.gfxAddress) = some leaf) :
    leafNodes c page last parent w = readNodes c page m w.nodes := by
  have hentered : enteredLeaf c page last.getPageSize
      (leafSlot c.ppgtt.getNumLevels last page.gfxAddress) (alignedState last w) = leaf := by
    simp only [enteredLeaf, providedLeaf, alignedState, hleaf, hphys, alignCursor, overrideLeaf]
  unfold leafNodes readNodes
  simp only [hentered, put_eq_self hleaf]
  rcases hat.last_cases with ⟨k, rfl⟩ | rfl
  · have hparent := hat.parent_kind_pte hp
    have hcheck : checkPs64 c (leafLevel (.pte k)) parent.kind = true ↔
        c.ps64Applicable = true ∧ m.kind = .pte .PTE4KB := by
      rw [checkPs64_iff, hparent, hk]
      simp only [leafLevel, true_and, NodeKind.getPageSize, getPageSize_4096, NodeKind.pte.injEq]
    by_cases h : c.ps64Applicable = true ∧ m.kind = .pte .PTE4KB
    · rw [if_pos (hcheck.mpr h), if_pos h]
      obtain rfl : k = .PTE4KB := by
        have hk' := hk.symm.trans h.2
        injection hk'
      rw [hparent]
      rfl
    · rw [if_neg (fun h' => h (hcheck.mp h')), if_neg h]
  · rw [if_neg, if_neg]
    · rw [hk]
      simp
    · rw [show leafLevel .page2MB = Pde from rfl, checkPs64_pde]
      simp

/-- One page of an Expect walk: a missing leaf ends the walk, an existing one is read. -/
theorem expectPage {c : WalkContext} (page : PageRequest) {w : WalkState A}
    (wf : Wf c.ppgtt.getNumLevels w.nodes) (hmode : c.mode = .Expect)
    (hphys : w.physicalAddress = none) :
    (walkPage c page w).1.allocator = w.allocator ∧
      (walkPage c page w).1.physicalAddress = none ∧
      ((¬ IsMapped c.ppgtt.getNumLevels w.nodes page.gfxAddress ∧ (walkPage c page w).2 = 0 ∧
          (walkPage c page w).1.nodes = w.nodes) ∨
        (IsMapped c.ppgtt.getNumLevels w.nodes page.gfxAddress ∧
          ∃ m, regionAt c.ppgtt.getNumLevels w.nodes page.gfxAddress = some m ∧
            (walkPage c page w).2 = sizeThisIteration page m.kind.getPageSize ∧
            (walkPage c page w).1.nodes = readNodes c page m w.nodes)) := by
  have h := walkPage_rule page
    (P := fun _ w' => w'.nodes = w.nodes ∧ w'.allocator = w.allocator ∧
      w'.physicalAddress = none) wf (fun _ => hphys) ?_ ⟨rfl, rfl, hphys⟩
  · rcases h with ⟨w', parent, hat, ⟨hn, ha, hph⟩, hp, hmissing, hw⟩ |
      ⟨w', _, _, ⟨hn, ha, hph⟩, _, hq, hw⟩
    · obtain ⟨leaf, hleaf⟩ := Option.ne_none_iff_exists'.mp fun hq => hmissing ⟨hq, hmode⟩
      have hmapped : IsMapped c.ppgtt.getNumLevels w.nodes page.gfxAddress := by
        rw [hn] at hleaf
        unfold IsMapped
        rw [leafSlot_mapped wf, hleaf]
        simp
      obtain ⟨m, hm⟩ : ∃ m, regionAt c.ppgtt.getNumLevels w.nodes page.gfxAddress = some m := by
        refine Option.ne_none_iff_exists'.mp fun hnone => hmapped ?_
        simp only [leafAt, hnone, Option.bind_none]
      have hk := lastTable_of_region hm
      rw [hw]
      refine ⟨?_, ?_, Or.inr ⟨hmapped, m, hm, by rw [hk], ?_⟩⟩
      · obtain ⟨e, p, pages, hframe⟩ := leafStep_frame c page
          (lastTable c w.nodes page.gfxAddress) parent w'
        rw [hframe]
        unfold recordPage
        simp only
        split
        · simp only [providedLeaf, alignedState, hleaf, ha]
        · simp only [providedLeaf, alignedState, hleaf, ha]
      · obtain ⟨e, p, pages, hframe⟩ := leafStep_frame c page
          (lastTable c w.nodes page.gfxAddress) parent w'
        rw [hframe]
        unfold recordPage
        simp only
        split
        · simp only [alignedState, hph, alignCursor]
        · simp only [alignedState, hph, alignCursor, advanceCursor]
      · rw [recordPage_nodes, leafStep_nodes, leafNodes_read hat hph hk.symm hp hleaf, hn]
    · rw [hw]
      refine ⟨ha, hph, Or.inl ⟨?_, rfl, hn⟩⟩
      rw [hn] at hq
      unfold IsMapped
      rw [leafSlot_mapped wf, hq]
      simp
  · rintro level w' parent _ _ _ hm ⟨h1, h2, h3⟩
    unfold tableStep
    rw [if_neg ?_]
    · obtain ⟨e, p, hframe⟩ := emitChild_frame c (level + 1)
        (slotPath c.ppgtt.getNumLevels (level + 1) page.gfxAddress) false w'
      rw [hframe]
      exact ⟨h1, h2, h3⟩
    · intro hnone
      exact hm ⟨Option.isNone_iff_eq_none.mp hnone, hmode⟩

/-- Every 4KB page that a read of `size` bytes from `g` meets before the first hole is quiet. -/
def ReadQuiet (gpu : Gpu) (n : Nat) (t : Nodes) (g size : Nat) : Prop :=
  ∀ a m, g ≤ a → a < g + size → (a = g ∨ 4096 ∣ a) →
    (∀ b, g ≤ b → b ≤ a → IsMapped n t b) → regionAt n t a = some m →
    m.kind = .pte .PTE4KB →
    Quiet gpu t (slotPath n Pde a) (PteKind.PTE4KB.getIndex a) (g + size - a)

theorem mapped_of_page {n : Nat} {t : Nodes} (wf : Wf n t) (hn : 4 ≤ n) {g a : Nat} {m : PageNode}
    (hm : regionAt n t g = some m) (h : g / m.kind.getPageSize = a / m.kind.getPageSize)
    (hmapped : IsMapped n t g) : IsMapped n t a := by
  unfold IsMapped at hmapped ⊢
  rwa [← leafAt_congr (isRegion_of_regionAt wf hn hm) hm h]

/-- A read is quiet when its first page is and the rest is. -/
theorem readQuiet_step {gpu : Gpu} {n : Nat} {t : Nodes} (wf : Wf n t) (hn : 4 ≤ n) {g size : Nat}
    {m : PageNode} (hsize : 0 < size) (hm : regionAt n t g = some m) (hmapped : IsMapped n t g) :
    let passed := min size (m.kind.getPageSize - g % m.kind.getPageSize)
    ReadQuiet gpu n t g size ↔
      (m.kind = .pte .PTE4KB → Quiet gpu t (slotPath n Pde g) (PteKind.PTE4KB.getIndex g) size) ∧
        ReadQuiet gpu n t (g + passed) (size - passed) := by
  intro passed
  have hk := isRegion_of_regionAt wf hn hm
  have hpos := hk.getPageSize_pos
  obtain ⟨d, hd⟩ := hk.page_dvd
  have hmod := Nat.mod_lt g hpos
  have hdiv := Nat.div_add_mod g m.kind.getPageSize
  have samePage : ∀ a, g ≤ a → a < g + (m.kind.getPageSize - g % m.kind.getPageSize) →
      g / m.kind.getPageSize = a / m.kind.getPageSize := by
    intro a h1 h2
    symm
    rw [Nat.div_eq_iff hpos]
    rw [Nat.mul_comm] at hdiv
    omega
  constructor
  · intro h
    refine ⟨fun hkind => ?_, ?_⟩
    · have h0 := h g m (Nat.le_refl g) (by omega) (Or.inl rfl)
        (fun b h1 h2 => by rwa [Nat.le_antisymm h2 h1]) hm hkind
      rwa [Nat.add_sub_cancel_left] at h0
    · intro a m' h1 h2 h3 h4 hm' hkind
      have hfull : passed = m.kind.getPageSize - g % m.kind.getPageSize := by omega
      have haligned : a = g ∨ 4096 ∣ a := by
        rcases h3 with h3 | h3
        · right
          refine ⟨d * (g / m.kind.getPageSize + 1), ?_⟩
          rw [h3, hfull, ← Nat.mul_assoc, ← hd, Nat.mul_add]
          omega
        · exact Or.inr h3
      have hall : ∀ b, g ≤ b → b ≤ a → IsMapped n t b := by
        intro b hb1 hb2
        by_cases hb : b < g + passed
        · exact mapped_of_page wf hn hm (samePage b hb1 (by omega)) hmapped
        · exact h4 b (by omega) hb2
      have := h a m' (by omega) (by omega) haligned hall hm' hkind
      rwa [show g + passed + (size - passed) - a = g + size - a by omega]
  · rintro ⟨hfirst, hrest⟩ a m' h1 h2 h3 h4 hm' hkind
    by_cases ha : a < g + passed
    · have hpage := samePage a h1 (by omega)
      have hsame : m' = m := by
        rw [← regionAt_congr (region_of_page hk.dvd hpage), hm, Option.some.injEq] at hm'
        exact hm'.symm
      subst hsame
      have hsize4 : m'.kind.getPageSize = 4096 := by
        rw [hkind]
        rfl
      rw [hsize4] at hpage hmod hdiv
      obtain rfl : a = g := by
        rcases h3 with h3 | ⟨e, he⟩
        · exact h3
        · have he' : a / 4096 = e := by omega
          omega
      rw [Nat.add_sub_cancel_left]
      exact hfirst hkind
    · have hb := hrest a m' (by omega) (by omega) (by
        rcases h3 with h3 | h3
        · left
          omega
        · exact Or.inr h3) (fun b hb1 hb2 => h4 b (by omega) hb2) hm' hkind
      rwa [show g + passed + (size - passed) - a = g + size - a by omega] at hb

omit [PhysicalAddressAllocator A] in
theorem readNodes_grown (c : WalkContext) (page : PageRequest) (m : PageNode) (t : Nodes) :
    Grown t (readNodes c page m t) := by
  unfold readNodes
  split
  · exact readUpdate_grown _ _ _ _ t
  · exact Grown.refl t

omit [PhysicalAddressAllocator A] in
theorem readNodes_eq_iff {c : WalkContext} {page : PageRequest} {m : PageNode} {t : Nodes} :
    readNodes c page m t = t ↔ (c.ps64Applicable = true → m.kind = .pte .PTE4KB →
      Quiet c.gpu t (slotPath c.ppgtt.getNumLevels Pde page.gfxAddress)
        (PteKind.PTE4KB.getIndex page.gfxAddress) page.size) := by
  unfold readNodes
  split
  · rename_i h
    rw [readUpdate_eq_iff]
    exact ⟨fun hq _ _ => hq, fun hq => hq h.1 h.2⟩
  · rename_i h
    exact ⟨fun _ happ hk => absurd ⟨happ, hk⟩ h, fun _ => rfl⟩

/-- The loop of an Expect walk: the allocator stays, flags grow, and nothing changes exactly when
the read is quiet in the tree that the loop starts on. -/
theorem expectPages {c : WalkContext} (hmode : c.mode = .Expect) :
    ∀ fuel g size index (w w' : WalkState A), Wf c.ppgtt.getNumLevels w.nodes →
      w.physicalAddress = none → size ≤ fuel → walkPages c fuel g size index w = some w' →
      w'.allocator = w.allocator ∧ Grown w.nodes w'.nodes ∧
        (w'.nodes = w.nodes ↔ (c.ps64Applicable = true →
          ReadQuiet c.gpu c.ppgtt.getNumLevels w.nodes g size)) := by
  intro fuel
  induction fuel with
  | zero =>
    intro g size index w w' _ _ hfuel h
    simp only [walkPages, Option.some.injEq] at h
    subst h
    refine ⟨rfl, Grown.refl _, fun _ _ a m h1 h2 => ?_, fun _ => rfl⟩
    omega
  | succ fuel ih =>
    intro g size index w w' wf hphys hfuel h
    by_cases hz : size = 0
    · simp only [walkPages, if_pos hz, Option.some.injEq] at h
      subst h
      refine ⟨rfl, Grown.refl _, fun _ _ a m h1 h2 => ?_, fun _ => rfl⟩
      omega
    · simp only [walkPages, if_neg hz, Option.bind_eq_some_iff] at h
      obtain ⟨page, hpage, h⟩ := h
      obtain ⟨rfl, rfl⟩ := pageRequest_some hpage
      have wf' := walkPage_wf page wf fun _ => hphys
      obtain ⟨ha, hp, ⟨hhole, hzero, hnodes⟩ | ⟨hmapped, m, hm, hpassed, hnodes⟩⟩ :=
        expectPage page wf hmode hphys
      · rw [if_pos hzero, Option.some.injEq] at h
        subst h
        rw [hnodes]
        refine ⟨ha, Grown.refl _, fun _ _ a m h1 _ _ h4 => ?_, fun _ => rfl⟩
        exact absurd (h4 page.gfxAddress (Nat.le_refl _) h1) hhole
      · have hn := getNumLevels_ge c.ppgtt
        have hpos := (isRegion_of_regionAt wf hn hm).getPageSize_pos
        have hmoves : 0 < (walkPage c page w).2 := by
          rw [hpassed]
          exact sizeThisIteration_pos (Nat.pos_of_ne_zero hz) hpos
        rw [if_neg (by omega)] at h
        obtain ⟨hb, hgrown, hiff⟩ := ih _ _ _ _ w' wf' hp (by omega) h
        have hfirst := readNodes_grown c page m w.nodes
        rw [← hnodes] at hfirst
        refine ⟨hb.trans ha, hfirst.trans hgrown, ?_⟩
        have hstep := @readQuiet_step c.gpu _ _ wf hn _ _ _ (Nat.pos_of_ne_zero hz) hm hmapped
        change ReadQuiet c.gpu c.ppgtt.getNumLevels w.nodes page.gfxAddress page.size ↔ _ ∧
          ReadQuiet c.gpu c.ppgtt.getNumLevels w.nodes
            (page.gfxAddress + sizeThisIteration page m.kind.getPageSize)
            (page.size - sizeThisIteration page m.kind.getPageSize) at hstep
        rw [← hpassed] at hstep
        constructor
        · intro hsame happ
          have hback : Grown (walkPage c page w).1.nodes w.nodes := hsame ▸ hgrown
          have hnone := hfirst.antisymm hback
          rw [hstep]
          refine ⟨readNodes_eq_iff.mp (hnodes ▸ hnone) happ, ?_⟩
          rw [hnone] at hiff
          exact hiff.mp hsame happ
        · intro hquiet
          have hnone : (walkPage c page w).1.nodes = w.nodes := by
            rw [hnodes, readNodes_eq_iff]
            exact fun happ => (hstep.mp (hquiet happ)).1
          rw [hnone] at hiff
          exact hiff.mpr fun happ => (hstep.mp (hquiet happ)).2

/-- The condition of an Expect walk: where the PS64 branch runs, the read is quiet. -/
def ReadsQuietly (cfg : Config) (s : PageTables A) (params : AllocationParams) : Prop :=
  cfg.enablePs64 = true → cfg.ppgtt = .PML5 → params.pageSize = pageSize4KB →
    ReadQuiet cfg.gpu 5 s.nodes params.gfxAddress params.size

/-- An Expect walk from a reachable state allocates nothing, and changes no node exactly when it
reads quietly. -/
theorem expectWalk_unchanged_iff (cfg : Config) (a : A) (bank : Nat) (s s' : PageTables A)
    (params : AllocationParams) (infos : List PageInfo)
    (reached : Reach (step cfg) Any (newTables a bank) s)
    (walk : step cfg s (.walk params .Expect infos) = some s') :
    (s'.nodes = s.nodes ∧ s'.allocator = s.allocator) ↔ ReadsQuietly cfg s params := by
  have wf := reach_wf reached
  simp only [step, runWalk, Option.map_eq_some_iff] at walk
  obtain ⟨w, hw, rfl⟩ := walk
  rcases walkMemory_some hw with ⟨hzero, rfl⟩ | ⟨_, c, hc, hpages⟩
  · refine ⟨fun _ _ _ _ a m h1 h2 => ?_, fun _ => ⟨rfl, rfl⟩⟩
    omega
  · obtain ⟨hgpu, hppgtt, hmode, _⟩ := walkContext_some hc
    rw [← hppgtt] at wf
    obtain ⟨ha, _, hiff⟩ := expectPages hmode _ _ _ _ (.start s.nodes s.allocator none) w wf rfl
      (Nat.le_refl _) hpages
    have happ := ps64Applicable_iff hc
    rw [hgpu, hppgtt] at hiff
    constructor
    · rintro ⟨hnodes, _⟩ henable hkind hsize
      have hquiet := hiff.mp hnodes (happ.mpr ⟨henable, hsize, hkind⟩)
      rw [hkind] at hquiet
      exact hquiet
    · intro hquiet
      refine ⟨hiff.mpr fun h => ?_, ha⟩
      obtain ⟨henable, hsize, hkind⟩ := happ.mp h
      rw [hkind]
      exact hquiet henable hkind hsize

/-- `expectMemory` reads in 64KB pages, out of reach of the PS64 branch. -/
def expectRequest (gfxAddress size : Nat) : AllocationParams :=
  ⟨gfxAddress, none, size, mainBank, 0, pageSize64KB, noParams⟩

def enablePs64 : Config := ⟨plainGpu, true, .PML5⟩

theorem expectMemory_unchanged :
    ∃ s s', step enablePs64 (newTables oneBank 1) (.map (request4KB 0 0x8000) 0x100000) = some s ∧
      step enablePs64 s (.walk (expectRequest 0 0x10000) .Expect []) = some s' ∧
      s'.nodes = s.nodes ∧ s'.allocator = s.allocator := by
  have hrun : ((step enablePs64 (newTables oneBank 1) (.map (request4KB 0 0x8000) 0x100000)).bind
      fun s => step enablePs64 s (.walk (expectRequest 0 0x10000) .Expect [])).isSome = true := by
    decide +kernel
  obtain ⟨s', hs'⟩ := Option.isSome_iff_exists.mp hrun
  obtain ⟨s, hs, hwalk⟩ := Option.bind_eq_some_iff.mp hs'
  refine ⟨s, s', hs, hwalk, ?_⟩
  have h := expectWalk_unchanged_iff enablePs64 oneBank 1 s s' (expectRequest 0 0x10000) []
    (.step .start trivial hs) hwalk
  exact h.mpr fun _ _ hsize => absurd hsize (by decide)

/-- A mapped slot 0 and a read of its group in 4KB pages: slot 0 is marked on the expectation
that the read completes the group, and the read then ends at slot 1. -/
theorem not_expectWalk_unchanged :
    ¬ ∀ s s' : PageTables PhysicalAddressAllocatorSimple, ∀ params,
      Reach (step enablePs64) Any (newTables oneBank 1) s →
      step enablePs64 s (.walk params .Expect []) = some s' → s'.nodes = s.nodes := by
  intro hall
  have hrun : ((step enablePs64 (newTables oneBank 1) (.map (request4KB 0 4096) 0x100000)).bind
      fun s => (step enablePs64 s (.walk (request4KB 0 0x10000) .Expect [])).map fun s' =>
        (flag s.nodes [0, 0, 0, 0, 0], flag s'.nodes [0, 0, 0, 0, 0])) = some (false, true) := by
    decide +kernel
  obtain ⟨s, hs, hwalk⟩ := Option.bind_eq_some_iff.mp hrun
  obtain ⟨s', hs', hflags⟩ := Option.map_eq_some_iff.mp hwalk
  have hsame := hall s s' _ (.step .start trivial hs) hs'
  rw [hsame, Prod.mk.injEq] at hflags
  rw [hflags.1] at hflags
  exact absurd hflags.2 (by decide)

end ExpectWalk
