import Aubstream.Placement
import Aubstream.FreePhases

/-!
# The PS64 flag through walks and frees

Whether a group of sixteen slots is complete depends on the layout only. The
flags themselves change in the PS64 branch of a leaf step and when a free breaks
a group.
-/

namespace Ps64Flags
open EntryBits PathTree PhysicalAllocator PageNodes PageWalker FreeMemory TreeShape WalkPhases
  LeafStep Placement FreePhases

/-- The PS64 bit of a slot; an empty slot has none. -/
def flag (t : Nodes) (p : Path) : Bool := (t p).any (·.ps64)

theorem flag_of_none {t : Nodes} {p : Path} (h : t p = none) : flag t p = false := by
  simp [flag, h]

theorem flag_of_some {t : Nodes} {p : Path} {n : PageNode} (h : t p = some n) :
    flag t p = n.ps64 := by
  simp [flag, h]

theorem some_of_flag {t : Nodes} {p : Path} (h : flag t p = true) :
    ∃ n, t p = some n ∧ n.ps64 = true := by
  cases hp : t p with
  | none =>
    rw [flag_of_none hp] at h
    cases h
  | some n => exact ⟨n, rfl, by rwa [flag_of_some hp] at h⟩

theorem bitIf_testBit_of_ne {enable : Bool} {bit i : Nat} (h : i ≠ bit) :
    (PageNode.bitIf enable bit).testBit i = false := by
  unfold PageNode.bitIf toBitValue
  split
  · rw [Nat.testBit_two_pow]
    exact decide_eq_false (Ne.symm h)
  · simp

/-- The flags of an entry leave the PS64 bit out. -/
theorem ps64EntryFlags_core (gpu : Gpu) (n : PageNode) :
    ps64EntryFlags gpu (core n) = ps64EntryFlags gpu n := by
  unfold ps64EntryFlags
  refine Nat.eq_of_testBit_eq fun i => ?_
  by_cases hi : i = 8
  · subst i
    have hmask : (2 ^ 64 - 1 - toBitValue ps64Bit).testBit 8 = false := by decide
    simp only [Nat.testBit_and, hmask, Bool.and_false]
  · have hentry : ((core n).getEntryValue gpu).testBit i = (n.getEntryValue gpu).testBit i := by
      have hbit := @bitIf_testBit_of_ne n.ps64 ps64Bit i hi
      have hzero := @bitIf_testBit_of_ne false ps64Bit i hi
      cases hk : n.kind with
      | memory =>
        simp only [PageNode.getEntryValue, core, hk, wrap64, Nat.testBit_mod_two_pow,
          Nat.testBit_or, PageNode.isLocalMemory, hbit, hzero]
      | pte k => cases k <;> simp only [PageNode.getEntryValue, core, hk]
      | directory => simp only [PageNode.getEntryValue, core, hk]
      | page2MB => simp only [PageNode.getEntryValue, core, hk, PageNode.isLocalMemory]
    have hphys : (core n).physicalAddress = n.physicalAddress := rfl
    simp only [Nat.testBit_and, Nat.testBit_xor, hentry, hphys]

/-- Completeness is a matter of the sixteen slots. -/
theorem isPs64GroupComplete_congr {gpu : Gpu} {t t' : Nodes} {p : Path} {b : Nat}
    (h : ∀ i, i < 16 → layout t ((b + i) :: p) = layout t' ((b + i) :: p)) :
    isPs64GroupComplete gpu t p b = isPs64GroupComplete gpu t' p b := by
  have key : ∀ i, i < 16 → (t ((b + i) :: p) = none ∧ t' ((b + i) :: p) = none) ∨
      ∃ m m', t ((b + i) :: p) = some m ∧ t' ((b + i) :: p) = some m' ∧
        m.physicalAddress = m'.physicalAddress ∧
        ps64EntryFlags gpu m = ps64EntryFlags gpu m' := by
    intro i hi
    have hl := h i hi
    cases ht : t ((b + i) :: p) with
    | none =>
      rw [layout_eq_none.mpr ht] at hl
      exact Or.inl ⟨rfl, layout_eq_none.mp hl.symm⟩
    | some m =>
      rw [layout_some ht] at hl
      obtain ⟨m', hm', hcore⟩ := layout_eq_some hl.symm
      refine Or.inr ⟨m, m', rfl, hm', ?_, ?_⟩
      · exact congrArg (·.physicalAddress) hcore
      · rw [← ps64EntryFlags_core gpu m, hcore, ps64EntryFlags_core]
  have h0 := key 0 (by omega)
  rw [Nat.add_zero] at h0
  unfold isPs64GroupComplete
  rcases h0 with ⟨h1, h2⟩ | ⟨m, m', h1, h2, hphys, hflags⟩
  · rw [h1, h2]
  · simp only [h1, h2, hphys]
    congr 1
    rw [Bool.eq_iff_iff, List.all_eq_true, List.all_eq_true]
    refine forall_congr' fun i => forall_congr' fun hi => ?_
    rcases key i (List.mem_range.mp hi) with ⟨h3, h4⟩ | ⟨x, x', h3, h4, hx, hxf⟩
    · rw [h3, h4]
    · rw [h3, h4]
      simp only [hx, hxf, hflags]

theorem isPs64GroupComplete_layout (gpu : Gpu) (t : Nodes) (p : Path) (b : Nat) :
    isPs64GroupComplete gpu (layout t) p b = isPs64GroupComplete gpu t p b := by
  refine isPs64GroupComplete_congr fun i _ => ?_
  cases h : t ((b + i) :: p) with
  | none => simp [layout, h]
  | some m => simp [layout, h, core_core]

theorem willComplete_core (gpu : Gpu) (c0 : Option PageNode) (child : PageNode) (k size : Nat) :
    willComplete gpu (c0.map core) (core child) k size = willComplete gpu c0 child k size := by
  cases c0 with
  | none => rfl
  | some n0 =>
    simp only [willComplete, Option.map_some, ps64EntryFlags_core]
    rfl

/-- What a complete group looks like. -/
theorem isPs64GroupComplete_iff {gpu : Gpu} {t : Nodes} {p : Path} {b : Nat} :
    isPs64GroupComplete gpu t p b = true ↔
      ∃ base flags, 65536 ∣ base ∧ ∀ i, i < 16 → ∃ ci, t ((b + i) :: p) = some ci ∧
        ci.physicalAddress = base + i * 4096 ∧ ps64EntryFlags gpu ci = flags := by
  unfold isPs64GroupComplete
  constructor
  · intro h
    cases h0 : t (b :: p) with
    | none =>
      rw [h0] at h
      cases h
    | some c0 =>
      rw [h0] at h
      simp only [Bool.and_eq_true, beq_iff_eq, List.all_eq_true, List.mem_range] at h
      refine ⟨c0.physicalAddress, ps64EntryFlags gpu c0, Nat.dvd_of_mod_eq_zero h.1, ?_⟩
      intro i hi
      have hall := h.2 i hi
      cases hc : t ((b + i) :: p) with
      | none =>
        rw [hc] at hall
        cases hall
      | some ci =>
        rw [hc] at hall
        simp only [Bool.and_eq_true, beq_iff_eq] at hall
        exact ⟨ci, rfl, hall.1, hall.2⟩
  · rintro ⟨base, flags, hbase, hall⟩
    obtain ⟨c0, h0, hp0, hf0⟩ := hall 0 (by omega)
    rw [Nat.add_zero] at h0
    rw [Nat.zero_mul, Nat.add_zero] at hp0
    rw [h0]
    simp only [Bool.and_eq_true, beq_iff_eq, List.all_eq_true, List.mem_range]
    refine ⟨by rw [hp0]; exact Nat.mod_eq_zero_of_dvd hbase, ?_⟩
    intro i hi
    obtain ⟨ci, hc, hp, hf⟩ := hall i hi
    rw [hc]
    simp only [Bool.and_eq_true, beq_iff_eq]
    exact ⟨by rw [hp, hp0], by rw [hf, hf0]⟩

theorem isPs64Group_congr {gpu : Gpu} {t t' : Nodes} {p : Path} {b : Nat}
    (h : ∀ i, i < 16 → t ((b + i) :: p) = t' ((b + i) :: p)) :
    isPs64Group gpu t p b = isPs64Group gpu t' p b := by
  have hcomplete := @isPs64GroupComplete_congr gpu t t' p b
    fun i hi => by simp only [layout, h i hi]
  have h0 := h 0 (by omega)
  rw [Nat.add_zero] at h0
  simp only [isPs64Group, h0, hcomplete]

theorem isPs64Group_iff {gpu : Gpu} {t : Nodes} {p : Path} {b : Nat} :
    isPs64Group gpu t p b = true ↔
      flag t (b :: p) = true ∧ isPs64GroupComplete gpu t p b = true := by
  unfold isPs64Group
  cases h : t (b :: p) with
  | none => simp [flag, h]
  | some c0 => simp [flag, h]

theorem flag_put_same {t : Nodes} {q : Path} {n : PageNode} (h : n.ps64 = flag t q) (p : Path) :
    flag (put t q n) p = flag t p := by
  by_cases hp : p = q
  · subst p
    rw [flag_of_some (put_self t q n), h]
  · simp only [flag, put_of_ne hp]

variable {A : Type} [PhysicalAddressAllocator A]

theorem newLeaf_ps64 (c : WalkContext) (page : PageRequest) (size : Nat) (p : Option Nat) (a : A) :
    (newLeaf c page size p a).1.ps64 = false := by
  unfold newLeaf
  split
  · rfl
  · split
    · rfl
    · rfl

theorem enteredLeaf_ps64 (c : WalkContext) (page : PageRequest) (size : Nat) (q : Path)
    (w : WalkState A) : (enteredLeaf c page size q w).ps64 = flag w.nodes q := by
  have hprovided : (providedLeaf c page size q w).1.ps64 = flag w.nodes q := by
    unfold providedLeaf
    cases hq : w.nodes q with
    | some n => exact (flag_of_some hq).symm
    | none => exact (newLeaf_ps64 c page size _ _).trans (flag_of_none hq).symm
  rw [← hprovided]
  unfold enteredLeaf overrideLeaf
  split
  · rfl
  · unfold remapNode
    split
    · rfl
    · rfl

/-- What a descent keeps for the flags: none changes, and no leaf does. -/
def SameFlags (c : WalkContext) (t : Nodes) (w : WalkState A) : Prop :=
  (∀ p, flag w.nodes p = flag t p) ∧ ∀ p, p.length = c.ppgtt.getNumLevels → w.nodes p = t p

theorem sameFlags_step (c : WalkContext) (page : PageRequest) (last : NodeKind) (t : Nodes) :
    TableStep c page last fun _ w => SameFlags (A := A) c t w := by
  intro level w parent hat _ _ _ ⟨hflags, hleaf⟩
  refine ⟨?_, ?_⟩
  · intro p
    rw [← hflags p, tableStep_nodes]
    split
    · rename_i hnone
      rw [Option.isNone_iff_eq_none] at hnone
      exact flag_put_same (flag_of_none hnone).symm p
    · rfl
  · intro p hp
    rw [← hleaf p hp, tableStep_nodes]
    split
    · refine put_of_ne ?_
      intro heq
      have hb := hat.below
      rw [heq, slotPath_length] at hp
      omega
    · rfl

theorem checkPs64_iff {c : WalkContext} {level : Nat} {kind : NodeKind} :
    checkPs64 c level kind = true ↔
      c.ps64Applicable = true ∧ level = Pte ∧ kind.getPageSize = 4096 := by
  simp [checkPs64, and_assoc]

theorem getPageSize_4096 {k : PteKind} : k.getPageSize = 4096 ↔ k = .PTE4KB := by
  cases k <;> simp [PteKind.getPageSize, pageSize4KB, pageSize64KB]

/-- How a placed page changes the flags: not at all outside the PS64 branch, and by `ps64Update`
on a tree with the old flags and the new layout inside it. -/
theorem walkPage_flags {c : WalkContext} (page : PageRequest) {w : WalkState A}
    (wf : Wf c.ppgtt.getNumLevels w.nodes) (expect : c.mode = .Expect → w.physicalAddress = none)
    (hmoves : (walkPage c page w).2 ≠ 0) :
    let parent := slotPath c.ppgtt.getNumLevels Pde page.gfxAddress
    let index := PteKind.PTE4KB.getIndex page.gfxAddress
    (¬ (c.ps64Applicable = true ∧ lastTable c w.nodes page.gfxAddress = .pte .PTE4KB) ∧
      ∀ p, flag (walkPage c page w).1.nodes p = flag w.nodes p) ∨
    (c.ps64Applicable = true ∧ lastTable c w.nodes page.gfxAddress = .pte .PTE4KB ∧
      ∃ t m child, (∀ p, flag t p = flag w.nodes p) ∧ t parent = some m ∧
        m.kind = .pte .PTE4KB ∧ t (index :: parent) = some child ∧
        layout t = layout (walkPage c page w).1.nodes ∧
        (walkPage c page w).1.nodes = ps64Update c.gpu page.size parent index
          (isPs64Group c.gpu w.nodes parent (index - index % 16)) t) := by
  have h := walkPage_rule page wf expect
    (sameFlags_step c page (lastTable c w.nodes page.gfxAddress) w.nodes) ⟨fun _ => rfl, fun _ _ => rfl⟩
  rcases h with ⟨w', parent, hat, ⟨hflags, hleaf⟩, hp, _, hw⟩ | ⟨w', _, _, _, _, _, hw⟩
  · generalize lastTable c w.nodes page.gfxAddress = last at hat hp hw ⊢
    have hnodes : (walkPage c page w).1.nodes = leafNodes c page last parent w' := by
      rw [hw, recordPage_nodes, leafStep_nodes]
    have hentered := enteredLeaf_ps64 c page last.getPageSize
      (leafSlot c.ppgtt.getNumLevels last page.gfxAddress) (alignedState last w')
    rw [hnodes]
    unfold leafNodes
    simp only
    by_cases hcheck : checkPs64 c (leafLevel last) parent.kind = true
    · right
      rw [if_pos hcheck]
      obtain ⟨happ, hlevel, hsize⟩ := checkPs64_iff.mp hcheck
      obtain ⟨k, rfl⟩ : ∃ k, last = .pte k := by
        rcases hat.last_cases with hk | rfl
        · exact hk
        · cases hlevel
      have hkind := hat.parent_kind_pte hp
      rw [hkind] at hsize
      have hk : k = .PTE4KB := getPageSize_4096.mp hsize
      subst hk
      rw [hkind]
      refine ⟨happ, rfl, _, parent, _, fun p => (flag_put_same hentered p).trans (hflags p), ?_,
        hkind, put_self _ _ _, ?_, ?_⟩
      · rw [put_of_ne]
        · exact hp
        · rw [leafSlot_pte]
          intro heq
          exact absurd (congrArg List.length heq) (by simp)
      · rw [layout_ps64Update]
        rfl
      · have hgroup : isPs64Group c.gpu w'.nodes (slotPath c.ppgtt.getNumLevels Pde page.gfxAddress)
            (PteKind.PTE4KB.getIndex page.gfxAddress -
              PteKind.PTE4KB.getIndex page.gfxAddress % 16) =
            isPs64Group c.gpu w.nodes (slotPath c.ppgtt.getNumLevels Pde page.gfxAddress)
            (PteKind.PTE4KB.getIndex page.gfxAddress -
              PteKind.PTE4KB.getIndex page.gfxAddress % 16) := by
          refine isPs64Group_congr fun i _ => hleaf _ ?_
          have hn := getNumLevels_ge c.ppgtt
          rw [List.length_cons, slotPath_length]
          simp only [Pde]
          omega
        rw [← hgroup]
        rfl
    · left
      rw [if_neg hcheck]
      refine ⟨?_, fun p => (flag_put_same hentered p).trans (hflags p)⟩
      rintro ⟨happ, rfl⟩
      exact hcheck (checkPs64_iff.mpr ⟨happ, rfl, by rw [hat.parent_kind_pte hp]; rfl⟩)
  · rw [hw] at hmoves
    exact absurd rfl hmoves

theorem flag_erase_unflagged {t : Nodes} {q : Path} (h : flag t q = false) (p : Path) :
    flag (erase t q) p = flag t p := by
  by_cases hp : p = q
  · subst p
    rw [flag_of_none (erase_self t q), h]
  · simp only [flag, erase_of_ne hp]

/-- The flags after a round that removes the leaf `q`: those of a broken group are cleared. -/
theorem removePage_flag (c : FreeContext) (pte : Path) (index g size : Nat) (s : FreeState A)
    (p : Path) :
    flag (removePage c pte index g size s).nodes p =
      if p = index :: pte then false
      else if flag s.nodes (index :: pte) = true ∧ p ∈ brokenSlots c pte index g size then false
      else flag s.nodes p := by
  have hcond : (∃ child, s.nodes (index :: pte) = some child ∧ child.ps64 = true) ↔
      flag s.nodes (index :: pte) = true := by
    constructor
    · rintro ⟨child, hc, hp⟩
      rw [flag_of_some hc, hp]
    · exact some_of_flag
  rw [removePage_nodes]
  simp only [hcond]
  by_cases hp : p = index :: pte
  · subst p
    rw [if_pos rfl]
    split
    · by_cases hm : index :: pte ∈ brokenSlots c pte index g size
      · rw [flag, modifyAll_of_mem hm, erase_self]
        rfl
      · rw [flag, modifyAll_of_not_mem hm, erase_self]
        rfl
    · exact flag_of_none (erase_self _ _)
  · rw [if_neg hp]
    by_cases hf : flag s.nodes (index :: pte) = true
    · rw [if_pos hf]
      by_cases hm : p ∈ brokenSlots c pte index g size
      · rw [if_pos ⟨hf, hm⟩, flag, modifyAll_of_mem hm]
        cases erase s.nodes (index :: pte) p <;> rfl
      · rw [if_neg (fun h => hm h.2), flag, modifyAll_of_not_mem hm, erase_of_ne hp]
        rfl
    · rw [if_neg hf, if_neg (fun h => hf h.1), flag, erase_of_ne hp]
      rfl

theorem removePage_layout (c : FreeContext) (pte : Path) (index g size : Nat) (s : FreeState A)
    {p : Path} (hp : p ≠ index :: pte) :
    layout (removePage c pte index g size s).nodes p = layout s.nodes p := by
  rw [removePage_nodes]
  split
  · rw [layout_modifyAll (fun n => core_setPs64 n false)]
    simp only [layout, erase_of_ne hp]
  · simp only [layout, erase_of_ne hp]

theorem pruneTable_flag {s : FreeState A} {level : Nat} {q : Path} (h : flag s.nodes q = false)
    (p : Path) : flag (pruneTable level q s).nodes p = flag s.nodes p := by
  rw [pruneTable_nodes]
  split
  · exact flag_erase_unflagged h p
  · rfl

theorem pruneTable_other (s : FreeState A) (level : Nat) {q p : Path} (h : p ≠ q) :
    (pruneTable level q s).nodes p = s.nodes p := by
  rw [pruneTable_nodes]
  split
  · exact erase_of_ne h
  · rfl

/-- A free changes nothing of a node that stays but its PS64 flag. -/
theorem removePage_shrinks (c : FreeContext) (pte : Path) (index g size : Nat) (s : FreeState A)
    {p : Path} {m : PageNode} (h : (removePage c pte index g size s).nodes p = some m) :
    ∃ m', s.nodes p = some m' ∧ core m' = core m := by
  have hl := layout_some h
  by_cases hp : p = index :: pte
  · subst p
    have hnone : layout (removePage c pte index g size s).nodes (index :: pte) = none := by
      rw [removePage_nodes]
      split
      · rw [layout_modifyAll (fun n => core_setPs64 n false)]
        simp [layout]
      · simp [layout]
    rw [hnone] at hl
    cases hl
  · rw [removePage_layout c pte index g size s hp] at hl
    obtain ⟨m', hm', hcore⟩ := layout_eq_some hl
    exact ⟨m', hm', hcore.symm⟩

theorem pruneTable_some {s : FreeState A} {level : Nat} {q p : Path} {m : PageNode}
    (h : (pruneTable level q s).nodes p = some m) : s.nodes p = some m := by
  rw [pruneTable_nodes] at h
  split at h
  · exact (erase_some h).2
  · exact h

end Ps64Flags
