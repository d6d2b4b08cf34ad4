import Aubstream.Ps64Flags

/-!
# PS64 groups through a walk

A group of sixteen 4KB slots is settled when none of its leaves carries PS64 or
when it is complete and all of them do. A walk sets the bit ahead of completion;
the groups stay settled when the placement of the walk fulfils each prediction.
-/

namespace Ps64Walk
open EntryBits PathTree PhysicalAllocator PageNodes PageWalker TreeShape WalkPhases LeafStep
  Placement Ps64Flags

def GroupUnmarked (t : Nodes) (p : Path) (b : Nat) : Prop :=
  ∀ i, i < 16 → flag t ((b + i) :: p) = false

def GroupMarked (t : Nodes) (p : Path) (b : Nat) : Prop :=
  ∀ i, i < 16 → flag t ((b + i) :: p) = true

def Settled (gpu : Gpu) (t : Nodes) (p : Path) (b : Nat) : Prop :=
  GroupUnmarked t p b ∨ (isPs64GroupComplete gpu t p b = true ∧ GroupMarked t p b)

def MarksIn4KB (t : Nodes) : Prop :=
  ∀ i p, flag t (i :: p) = true → ∃ m, t p = some m ∧ m.kind = .pte .PTE4KB

structure Ps64Inv (gpu : Gpu) (t : Nodes) : Prop where
  groups : ∀ p b, 16 ∣ b → Settled gpu t p b
  tables : MarksIn4KB t

instance (t : Nodes) (p : Path) (b : Nat) : Decidable (GroupMarked t p b) :=
  inferInstanceAs (Decidable (∀ i, i < 16 → flag t ((b + i) :: p) = true))

variable {A : Type} [PhysicalAddressAllocator A]

/-- First slot of the group that a 4KB visit enters. -/
def hwBaseOf (g : Nat) : Nat :=
  PteKind.PTE4KB.getIndex g - PteKind.PTE4KB.getIndex g % 16

/-- The code predicts that the group of a page will be completed: the page belongs to a 4KB
table, its group is not complete with it, is not a marked group of `t` that it breaks, and
passes the test on slot 0. -/
def predicts (c : WalkContext) (t : Nodes) (v : PageRequest × Layout A) : Bool :=
  let parent := slotPath c.ppgtt.getNumLevels Pde v.1.gfxAddress
  let index := PteKind.PTE4KB.getIndex v.1.gfxAddress
  let hwBase := hwBaseOf v.1.gfxAddress
  let after := (placePage c v.1 v.2).1.nodes
  decide (lastTable c v.2.nodes v.1.gfxAddress = .pte .PTE4KB) &&
    !isPs64GroupComplete c.gpu after parent hwBase &&
    !(decide (GroupMarked t parent hwBase) &&
      isPs64GroupComplete c.gpu v.2.nodes parent hwBase) &&
    match after (index :: parent) with
    | none => false
    | some child => willComplete c.gpu (after (hwBase :: parent)) child (index % 16) v.1.size

/-- Every prediction of the walk is true of the layout that the walk ends in. -/
def Fulfils (c : WalkContext) (t F : Nodes) (vs : List (PageRequest × Layout A)) : Prop :=
  ∀ v ∈ vs, predicts c t v = true →
    isPs64GroupComplete c.gpu F (slotPath c.ppgtt.getNumLevels Pde v.1.gfxAddress)
      (hwBaseOf v.1.gfxAddress) = true

/-- Between two pages of a walk that started on `t`: a group may be open when the walk will
complete it, and a group that was marked is still marked while it is complete. -/
structure WalkInv (c : WalkContext) (t F : Nodes) (rest : List PageRequest) (w : WalkState A) :
    Prop where
  final : (finalLayout c (layoutOf w) rest).nodes = F
  fulfils : Fulfils c t F (visits c (layoutOf w) rest)
  tables : MarksIn4KB w.nodes
  groups : ∀ p b, 16 ∣ b → Settled c.gpu w.nodes p b ∨
    (isPs64GroupComplete c.gpu F p b = true ∧
      ∃ v ∈ visits c (layoutOf w) rest, visitSlot c v ∈ groupSlots p b)
  kept : ∀ p b, 16 ∣ b → GroupMarked t p b →
    (∃ m, w.nodes p = some m ∧ m.kind = .pte .PTE4KB) ∧
      (isPs64GroupComplete c.gpu w.nodes p b = true → GroupMarked w.nodes p b)

theorem mem_groupSlots_cons {i b : Nat} {p x : Path} (hb : 16 ∣ b) :
    i :: x ∈ groupSlots p b ↔ x = p ∧ b = i - i % 16 := by
  rw [mem_groupSlots]
  constructor
  · rintro ⟨j, hj, heq⟩
    injection heq with hi hx
    exact ⟨hx, by omega⟩
  · rintro ⟨rfl, hbi⟩
    exact ⟨i % 16, by omega, by congr 1; omega⟩

theorem hwBaseOf_dvd (g : Nat) : 16 ∣ hwBaseOf g := by
  unfold hwBaseOf
  omega

theorem settled_congr {gpu : Gpu} {t t' : Nodes} {p : Path} {b : Nat}
    (hflag : ∀ i, i < 16 → flag t' ((b + i) :: p) = flag t ((b + i) :: p))
    (hlayout : GroupMarked t p b →
      ∀ i, i < 16 → layout t' ((b + i) :: p) = layout t ((b + i) :: p))
    (h : Settled gpu t p b) : Settled gpu t' p b := by
  rcases h with h | ⟨hc, hm⟩
  · exact Or.inl fun i hi => (hflag i hi).trans (h i hi)
  · exact Or.inr ⟨(isPs64GroupComplete_congr (hlayout hm)).trans hc,
      fun i hi => (hflag i hi).trans (hm i hi)⟩

/-- The slots of a marked group are leaves. -/
theorem marked_length {n : Nat} {t : Nodes} {p : Path} {i : Nat} (wf : Wf n t)
    (tables : MarksIn4KB t) (h : flag t (i :: p) = true) : p.length + 1 = n := by
  obtain ⟨m, hm, hk⟩ := tables i p h
  have hd := wf.depth p m hm
  rw [hk] at hd
  exact hd

theorem ps64Update_flag_of_not_mem {gpu : Gpu} {size : Nat} {parent : Path} {index : Nat}
    {was : Bool} {t : Nodes} {p : Path}
    (hp : p ∉ groupSlots parent (index - index % 16)) :
    flag (ps64Update gpu size parent index was t) p = flag t p := by
  unfold ps64Update
  simp only
  split
  · simp only [flag, modifyAll_of_not_mem hp]
  · split
    · simp only [flag, modifyAll_of_not_mem hp]
    · cases h : t (index :: parent) with
      | none => rfl
      | some child =>
        simp only
        split
        · have hne : p ≠ index :: parent := by
            intro heq
            subst heq
            exact hp ((mem_groupSlots_cons (by omega)).mpr ⟨rfl, rfl⟩)
          simp only [flag, put_of_ne hne]
        · rfl

theorem flag_modifyAll_mark {t : Nodes} {qs : List Path} {p : Path} (hp : p ∈ qs)
    (hs : t p ≠ none) : flag (modifyAll t qs markPs64) p = true := by
  obtain ⟨n, hn⟩ := Option.ne_none_iff_exists'.mp hs
  have h : modifyAll t qs markPs64 p = some (markPs64 n) := by
    rw [modifyAll_of_mem hp, hn]
    rfl
  rw [flag_of_some h]
  unfold markPs64
  split
  · assumption
  · rfl

theorem flag_modifyAll_unmark {t : Nodes} {qs : List Path} {p : Path} (hp : p ∈ qs) :
    flag (modifyAll t qs unmarkPs64) p = false := by
  unfold flag
  rw [modifyAll_of_mem hp]
  cases t p <;> rfl

theorem flag_modifyAll_setPendingWrite {t : Nodes} {qs : List Path} {b : Bool} (p : Path) :
    flag (modifyAll t qs (·.setPendingWrite b)) p = flag t p := by
  by_cases hp : p ∈ qs
  · unfold flag
    rw [modifyAll_of_mem hp]
    cases t p <;> rfl
  · unfold flag
    rw [modifyAll_of_not_mem hp]

theorem marks_setPendingWrite {t : Nodes} (tables : MarksIn4KB t) (qs : List Path) (b : Bool) :
    MarksIn4KB (modifyAll t qs (·.setPendingWrite b)) := by
  intro i p hmark
  rw [flag_modifyAll_setPendingWrite] at hmark
  obtain ⟨m, hm, hk⟩ := tables i p hmark
  by_cases hp : p ∈ qs
  · exact ⟨m.setPendingWrite b, (modifyAll_of_mem hp).trans (by rw [hm]; rfl), hk⟩
  · exact ⟨m, (modifyAll_of_not_mem hp).trans hm, hk⟩

theorem complete_some {gpu : Gpu} {t : Nodes} {p : Path} {b i : Nat}
    (h : isPs64GroupComplete gpu t p b = true) (hi : i < 16) : t ((b + i) :: p) ≠ none := by
  obtain ⟨base, flags, _, hall⟩ := isPs64GroupComplete_iff.mp h
  obtain ⟨ci, hc, _⟩ := hall i hi
  rw [hc]
  simp

/-- The group that a 4KB page enters, after the PS64 branch. -/
theorem enteredGroup_settled {gpu : Gpu} (size : Nat) {parent : Path} (index : Nat)
    {t₀ t : Nodes} {F : Prop}
    (hflags : ∀ p, flag t p = flag t₀ p)
    (before : Settled gpu t₀ parent (index - index % 16) ∨ F)
    (predicted : isPs64GroupComplete gpu t parent (index - index % 16) = false →
      isPs64Group gpu t₀ parent (index - index % 16) = false →
      ∀ child, t (index :: parent) = some child →
      willComplete gpu (t ((index - index % 16) :: parent)) child (index % 16) size = true → F) :
    let t' := ps64Update gpu size parent index (isPs64Group gpu t₀ parent (index - index % 16)) t
    Settled gpu t' parent (index - index % 16) ∨
      (isPs64GroupComplete gpu t parent (index - index % 16) = false ∧ F) := by
  have hmem : ∀ i, i < 16 → (index - index % 16 + i) :: parent ∈
      groupSlots parent (index - index % 16) := fun i hi => mem_groupSlots.mpr ⟨i, hi, rfl⟩
  unfold ps64Update
  simp only
  by_cases hc : isPs64GroupComplete gpu t parent (index - index % 16) = true
  · rw [if_pos hc]
    left; right
    refine ⟨?_, fun i hi => flag_modifyAll_mark (hmem i hi) (complete_some hc hi)⟩
    rw [← isPs64GroupComplete_layout, layout_modifyAll core_markPs64, isPs64GroupComplete_layout]
    exact hc
  · rw [if_neg hc]
    have hcf : isPs64GroupComplete gpu t parent (index - index % 16) = false := by
      simpa using hc
    by_cases hwas : isPs64Group gpu t₀ parent (index - index % 16) = true
    · rw [if_pos hwas]
      exact Or.inl (Or.inl fun i hi => flag_modifyAll_unmark (hmem i hi))
    · rw [if_neg hwas]
      have hrest : GroupUnmarked t parent (index - index % 16) ∨ F := by
        rcases before with (h | ⟨h1, h2⟩) | h
        · exact Or.inl fun i hi => (hflags _).trans (h i hi)
        · exact absurd (isPs64Group_iff.mpr ⟨h2 0 (by omega), h1⟩) hwas
        · exact Or.inr h
      cases hs : t (index :: parent) with
      | none => exact hrest.imp Or.inl fun h => ⟨hcf, h⟩
      | some child =>
        simp only
        split
        · rename_i hw
          exact Or.inr ⟨hcf, predicted hcf (by simpa using hwas) child hs hw⟩
        · exact hrest.imp Or.inl fun h => ⟨hcf, h⟩

omit [PhysicalAddressAllocator A] in
theorem visitSlot_4KB {c : WalkContext} {page : PageRequest} {s : Layout A}
    (h : lastTable c s.nodes page.gfxAddress = .pte .PTE4KB) :
    visitSlot c (page, s) = PteKind.PTE4KB.getIndex page.gfxAddress ::
      slotPath c.ppgtt.getNumLevels Pde page.gfxAddress := by
  simp only [visitSlot, h]
  rfl

omit [PhysicalAddressAllocator A] in
/-- A page that enters a slot below a 4KB table is a 4KB page. -/
theorem lastTable_of_visitSlot {c : WalkContext} {page : PageRequest} {s : Layout A} {i : Nat}
    {p : Path} {m : PageNode} (wf : Wf c.ppgtt.getNumLevels s.nodes)
    (hslot : visitSlot c (page, s) = i :: p) (hm : s.nodes p = some m)
    (hk : m.kind = .pte .PTE4KB) : lastTable c s.nodes page.gfxAddress = .pte .PTE4KB := by
  have hn := getNumLevels_ge c.ppgtt
  unfold visitSlot at hslot
  rcases lastTable_cases wf page.gfxAddress with ⟨k, hl⟩ | hl
  · rw [hl, leafSlot_pte] at hslot
    injection hslot with _ hp
    subst hp
    simp only [lastTable, hm, hk]
  · simp only [hl, leafSlot] at hslot
    have hlen := congrArg List.length hslot
    have hd := wf.depth p m hm
    rw [hk] at hd
    simp only [fitsDepth] at hd
    simp only [slotPath_length, Pde, List.length_cons] at hlen
    omega

theorem layout_leafDepth {c : WalkContext} {page : PageRequest} {w : WalkState A} {x : Path}
    (wf : Wf c.ppgtt.getNumLevels w.nodes) (expect : c.mode = .Expect → w.physicalAddress = none)
    (hx : x.length = c.ppgtt.getNumLevels) (hne : x ≠ visitSlot c (page, layoutOf w)) :
    layout (walkPage c page w).1.nodes x = layout w.nodes x := by
  have h := placePage_leafDepth c page (layoutOf w) hx hne
  rw [← (walkPage_layout page wf expect).1] at h
  exact h

theorem walkPage_keeps_kind {c : WalkContext} {page : PageRequest} {w : WalkState A} {p : Path}
    {m : PageNode} (wf : Wf c.ppgtt.getNumLevels w.nodes)
    (expect : c.mode = .Expect → w.physicalAddress = none) (h : w.nodes p = some m) :
    ∃ m', (walkPage c page w).1.nodes p = some m' ∧ m'.kind = m.kind := by
  obtain ⟨x, hx, hk, _⟩ := placePage_keeps c page (s := layoutOf w) (layout_some h)
  rw [← (walkPage_layout page wf expect).1] at hx
  obtain ⟨m', hm', rfl⟩ := layout_eq_some hx
  exact ⟨m', hm', hk⟩

theorem ps64Update_marked {gpu : Gpu} {size : Nat} {parent : Path} {index : Nat} {was : Bool}
    {t : Nodes} (h : isPs64GroupComplete gpu t parent (index - index % 16) = true) :
    GroupMarked (ps64Update gpu size parent index was t) parent (index - index % 16) := by
  unfold ps64Update
  simp only
  rw [if_pos h]
  exact fun i hi => flag_modifyAll_mark (mem_groupSlots.mpr ⟨i, hi, rfl⟩) (complete_some h hi)

/-- A page changes no flag of a group that it does not enter. -/
theorem walkPage_flag_frame {c : WalkContext} {page : PageRequest} {w : WalkState A}
    (wf : Wf c.ppgtt.getNumLevels w.nodes) (expect : c.mode = .Expect → w.physicalAddress = none)
    (hmoves : (walkPage c page w).2 ≠ 0) {p : Path} {b : Nat} (hb : 16 ∣ b)
    (hnot : visitSlot c (page, layoutOf w) ∉ groupSlots p b) {i : Nat} (hi : i < 16) :
    flag (walkPage c page w).1.nodes ((b + i) :: p) = flag w.nodes ((b + i) :: p) := by
  rcases walkPage_flags page wf expect hmoves with ⟨_, hflags⟩ |
    ⟨_, hlast, t, _, _, hflags, _, _, _, _, hnodes⟩
  · exact hflags _
  · rw [hnodes, ps64Update_flag_of_not_mem, hflags]
    intro hmem
    have hslot : visitSlot c (page, layoutOf w) = PteKind.PTE4KB.getIndex page.gfxAddress ::
        slotPath c.ppgtt.getNumLevels Pde page.gfxAddress :=
      visitSlot_4KB ((lastTable_layout c w.nodes page.gfxAddress).trans hlast)
    obtain ⟨rfl, hbi⟩ := (mem_groupSlots_cons (by omega)).mp hmem
    refine hnot ?_
    rw [hslot, mem_groupSlots_cons hb]
    exact ⟨rfl, by omega⟩

theorem walkPage_group_frame {c : WalkContext} {page : PageRequest} {w : WalkState A}
    (wf : Wf c.ppgtt.getNumLevels w.nodes) (expect : c.mode = .Expect → w.physicalAddress = none)
    {p : Path} {b : Nat} (hlen : p.length + 1 = c.ppgtt.getNumLevels)
    (hnot : visitSlot c (page, layoutOf w) ∉ groupSlots p b) {i : Nat} (hi : i < 16) :
    layout (walkPage c page w).1.nodes ((b + i) :: p) = layout w.nodes ((b + i) :: p) := by
  refine layout_leafDepth wf expect (by simpa using hlen) ?_
  intro heq
  exact hnot (heq ▸ mem_groupSlots.mpr ⟨i, hi, rfl⟩)

theorem walkPage_tables {c : WalkContext} {page : PageRequest} {w : WalkState A}
    (wf : Wf c.ppgtt.getNumLevels w.nodes) (expect : c.mode = .Expect → w.physicalAddress = none)
    (hmoves : (walkPage c page w).2 ≠ 0) (tables : MarksIn4KB w.nodes) :
    MarksIn4KB (walkPage c page w).1.nodes := by
  have old : ∀ i p, flag w.nodes (i :: p) = true →
      ∃ m, (walkPage c page w).1.nodes p = some m ∧ m.kind = .pte .PTE4KB := by
    intro i p h
    obtain ⟨m, hm, hk⟩ := tables i p h
    obtain ⟨m', hm', hk'⟩ := walkPage_keeps_kind wf expect hm
    exact ⟨m', hm', hk'.trans hk⟩
  intro i p h
  rcases walkPage_flags page wf expect hmoves with ⟨_, hflags⟩ |
    ⟨_, _, t, m, _, hflags, hm, hk, _, hlayout, hnodes⟩
  · exact old i p (hflags _ ▸ h)
  · by_cases hin : i :: p ∈ groupSlots (slotPath c.ppgtt.getNumLevels Pde page.gfxAddress)
        (hwBaseOf page.gfxAddress)
    · obtain ⟨rfl, _⟩ := (mem_groupSlots_cons (hwBaseOf_dvd _)).mp hin
      have hlm := layout_some hm
      rw [hlayout] at hlm
      obtain ⟨m', hm', hcore⟩ := layout_eq_some hlm
      have hkind : m.kind = m'.kind := congrArg (·.kind) hcore
      exact ⟨m', hm', hkind.symm.trans hk⟩
    · rw [hnodes, ps64Update_flag_of_not_mem hin, hflags] at h
      exact old i p h

omit [PhysicalAddressAllocator A] in
/-- Where PS64 applies, a page outside the PS64 branch enters no slot of a 4KB table. -/
theorem not_4KB_of_unchecked {c : WalkContext} {page : PageRequest} {w : WalkState A}
    (wf : Wf c.ppgtt.getNumLevels w.nodes)
    (hcheck : lastTable c w.nodes page.gfxAddress ≠ .pte .PTE4KB) {p : Path} {b : Nat}
    (hin : visitSlot c (page, layoutOf w) ∈ groupSlots p b) {m : PageNode}
    (hm : w.nodes p = some m) : m.kind ≠ .pte .PTE4KB := by
  intro hk
  obtain ⟨j, _, hslot⟩ := mem_groupSlots.mp hin
  refine hcheck ?_
  rw [← lastTable_layout]
  exact lastTable_of_visitSlot (s := layoutOf w) (wf_layout.mpr wf) hslot (layout_some hm) hk

/-- The group of a page that is not open any more when no later page enters it. -/
theorem still_entered {c : WalkContext} {w : WalkState A} {rest : List PageRequest} {F t : Nodes}
    {p : Path} {b : Nat} (hlen : p.length + 1 = c.ppgtt.getNumLevels)
    (hfinal : (finalLayout c (layoutOf w) rest).nodes = F) (hlayout : layout t = layout w.nodes)
    (hincomplete : isPs64GroupComplete c.gpu t p b = false)
    (hF : isPs64GroupComplete c.gpu F p b = true) :
    ∃ v ∈ visits c (layoutOf w) rest, visitSlot c v ∈ groupSlots p b := by
  by_contra hnone
  have hsame : ∀ i, i < 16 → layout t ((b + i) :: p) = layout F ((b + i) :: p) := by
    intro i hi
    have hkeep := finalLayout_leafDepth c (x := (b + i) :: p) (by simpa using hlen) rest
      (layoutOf w) fun v hv heq => hnone ⟨v, hv, heq ▸ mem_groupSlots.mpr ⟨i, hi, rfl⟩⟩
    rw [hfinal] at hkeep
    rw [hlayout]
    simp only [layout, layoutOf] at hkeep ⊢
    rw [hkeep, Option.map_map]
    rfl
  have hcongr := @isPs64GroupComplete_congr c.gpu _ _ _ _ hsame
  rw [hF, hincomplete] at hcongr
  cases hcongr

/-- The branch of the code that predicts is the one that `predicts` describes. -/
theorem predicts_of_branch {c : WalkContext} {page : PageRequest} {w : WalkState A} {t₀ t : Nodes}
    {x : PageNode} (wf : Wf c.ppgtt.getNumLevels w.nodes)
    (expect : c.mode = .Expect → w.physicalAddress = none)
    (hlast : lastTable c w.nodes page.gfxAddress = .pte .PTE4KB)
    (hlayout : layout t = layout (walkPage c page w).1.nodes)
    (hincomplete : isPs64GroupComplete c.gpu t (slotPath c.ppgtt.getNumLevels Pde page.gfxAddress)
      (hwBaseOf page.gfxAddress) = false)
    (hunbroken : ¬ (GroupMarked t₀ (slotPath c.ppgtt.getNumLevels Pde page.gfxAddress)
        (hwBaseOf page.gfxAddress) ∧
      isPs64GroupComplete c.gpu w.nodes (slotPath c.ppgtt.getNumLevels Pde page.gfxAddress)
        (hwBaseOf page.gfxAddress) = true))
    (hx : t (PteKind.PTE4KB.getIndex page.gfxAddress ::
      slotPath c.ppgtt.getNumLevels Pde page.gfxAddress) = some x)
    (hwill : willComplete c.gpu (t (hwBaseOf page.gfxAddress ::
        slotPath c.ppgtt.getNumLevels Pde page.gfxAddress)) x
      (PteKind.PTE4KB.getIndex page.gfxAddress % 16) page.size = true) :
    predicts c t₀ (page, layoutOf w) = true := by
  have hafter : (placePage c page (layoutOf w)).1.nodes = layout t := by
    rw [hlayout, ← (walkPage_layout page wf expect).1]
    rfl
  have hlast' : lastTable c (layoutOf w).nodes page.gfxAddress = .pte .PTE4KB :=
    (lastTable_layout c w.nodes page.gfxAddress).trans hlast
  have h0 : layout t (hwBaseOf page.gfxAddress ::
      slotPath c.ppgtt.getNumLevels Pde page.gfxAddress) =
      (t (hwBaseOf page.gfxAddress ::
        slotPath c.ppgtt.getNumLevels Pde page.gfxAddress)).map core := rfl
  have hbefore : isPs64GroupComplete c.gpu (layoutOf w).nodes
      (slotPath c.ppgtt.getNumLevels Pde page.gfxAddress) (hwBaseOf page.gfxAddress) =
      isPs64GroupComplete c.gpu w.nodes
        (slotPath c.ppgtt.getNumLevels Pde page.gfxAddress) (hwBaseOf page.gfxAddress) :=
    isPs64GroupComplete_layout c.gpu w.nodes _ _
  simp only [predicts, hafter, hlast', decide_true, Bool.true_and, isPs64GroupComplete_layout,
    hincomplete, Bool.not_false, layout_some hx, h0, willComplete_core, hwill, Bool.and_true,
    hbefore, Bool.not_eq_true', Bool.and_eq_false_iff, decide_eq_false_iff_not]
  rw [not_and_or] at hunbroken
  exact hunbroken.imp id (by simp)

/-- One page of a walk to which PS64 applies. -/
theorem walkPage_groups {c : WalkContext} {t₀ F : Nodes} {page : PageRequest}
    {rest : List PageRequest} {w : WalkState A} (wf : Wf c.ppgtt.getNumLevels w.nodes)
    (expect : c.mode = .Expect → w.physicalAddress = none) (hmoves : (walkPage c page w).2 ≠ 0)
    (applicable : c.ps64Applicable = true) (inv : WalkInv c t₀ F (page :: rest) w) :
    WalkInv c t₀ F rest (walkPage c page w).1 := by
  have hn := getNumLevels_ge c.ppgtt
  have hl := (walkPage_layout page wf expect).1
  have hvisits : visits c (layoutOf w) (page :: rest) =
      (page, layoutOf w) :: visits c (layoutOf (walkPage c page w).1) rest := by
    rw [hl]
    rfl
  have hfinal : (finalLayout c (layoutOf (walkPage c page w).1) rest).nodes = F := by
    rw [hl]
    exact inv.final
  have hparent : (slotPath c.ppgtt.getNumLevels Pde page.gfxAddress).length + 1 =
      c.ppgtt.getNumLevels := by
    rw [slotPath_length]
    simp only [Pde]
    omega
  refine ⟨hfinal, ?_, walkPage_tables wf expect hmoves inv.tables, ?_, ?_⟩
  · intro v hv
    exact inv.fulfils v (by rw [hvisits]; exact List.mem_cons_of_mem _ hv)
  · intro p b hb
    by_cases hin : visitSlot c (page, layoutOf w) ∈ groupSlots p b
    · rcases walkPage_flags page wf expect hmoves with ⟨hcheck, hflags⟩ |
        ⟨_, hlast, t, _, _, hflags, _, _, _, hlayout, hnodes⟩
      · left; left
        intro i hi
        by_contra hmark
        rw [Bool.not_eq_false, hflags] at hmark
        obtain ⟨m, hm, hk⟩ := inv.tables _ p hmark
        exact not_4KB_of_unchecked wf (fun h => hcheck ⟨applicable, h⟩) hin hm hk
      · rw [visitSlot_4KB ((lastTable_layout c w.nodes page.gfxAddress).trans hlast)] at hin
        obtain ⟨rfl, hbase⟩ := (mem_groupSlots_cons hb).mp hin
        obtain rfl : b = hwBaseOf page.gfxAddress := hbase
        have hbefore : Settled c.gpu w.nodes (slotPath c.ppgtt.getNumLevels Pde page.gfxAddress)
            (hwBaseOf page.gfxAddress) ∨ isPs64GroupComplete c.gpu F
              (slotPath c.ppgtt.getNumLevels Pde page.gfxAddress) (hwBaseOf page.gfxAddress) = true :=
          (inv.groups _ _ hb).imp id fun h => h.1
        have hpredicted : isPs64GroupComplete c.gpu t
              (slotPath c.ppgtt.getNumLevels Pde page.gfxAddress) (hwBaseOf page.gfxAddress) = false →
            isPs64Group c.gpu w.nodes (slotPath c.ppgtt.getNumLevels Pde page.gfxAddress)
              (hwBaseOf page.gfxAddress) = false →
            ∀ x, t (PteKind.PTE4KB.getIndex page.gfxAddress ::
                slotPath c.ppgtt.getNumLevels Pde page.gfxAddress) = some x →
              willComplete c.gpu (t (hwBaseOf page.gfxAddress ::
                slotPath c.ppgtt.getNumLevels Pde page.gfxAddress)) x
                (PteKind.PTE4KB.getIndex page.gfxAddress % 16) page.size = true →
              isPs64GroupComplete c.gpu F (slotPath c.ppgtt.getNumLevels Pde page.gfxAddress)
                (hwBaseOf page.gfxAddress) = true := by
          intro hincomplete hwas x hx hwill
          refine inv.fulfils (page, layoutOf w) (by rw [hvisits]; exact List.mem_cons_self)
            (predicts_of_branch wf expect hlast hlayout hincomplete ?_ hx hwill)
          rintro ⟨hmarked, hcomplete⟩
          have hflag0 : flag w.nodes (hwBaseOf page.gfxAddress ::
              slotPath c.ppgtt.getNumLevels Pde page.gfxAddress) = true :=
            (inv.kept _ _ hb hmarked).2 hcomplete 0 (by omega)
          rw [isPs64Group_iff.mpr ⟨hflag0, hcomplete⟩] at hwas
          cases hwas
        rcases enteredGroup_settled page.size (PteKind.PTE4KB.getIndex page.gfxAddress) hflags
          hbefore hpredicted with h | ⟨hincomplete, hF⟩
        · left
          rw [hnodes]
          exact h
        · exact Or.inr ⟨hF, still_entered hparent hfinal hlayout hincomplete hF⟩
    · rcases inv.groups p b hb with h | ⟨hF, v, hv, hg⟩
      · left
        refine settled_congr (fun i hi => walkPage_flag_frame wf expect hmoves hb hin hi)
          (fun hm i hi => ?_) h
        exact walkPage_group_frame wf expect (marked_length wf inv.tables (hm i hi)) hin hi
      · rw [hvisits] at hv
        rcases List.mem_cons.mp hv with rfl | hv
        · exact absurd hg hin
        · exact Or.inr ⟨hF, v, hv, hg⟩
  · intro p b hb hmarked
    obtain ⟨⟨m, hm, hk⟩, hkept⟩ := inv.kept p b hb hmarked
    obtain ⟨m', hm', hk'⟩ := @walkPage_keeps_kind _ _ _ page _ _ _ wf expect hm
    refine ⟨⟨m', hm', hk'.trans hk⟩, fun hcomplete => ?_⟩
    by_cases hin : visitSlot c (page, layoutOf w) ∈ groupSlots p b
    · rcases walkPage_flags page wf expect hmoves with ⟨hcheck, _⟩ |
        ⟨_, hlast, t, _, _, _, _, _, _, hlayout, hnodes⟩
      · exact absurd hk (not_4KB_of_unchecked wf (fun h => hcheck ⟨applicable, h⟩) hin hm)
      · rw [visitSlot_4KB ((lastTable_layout c w.nodes page.gfxAddress).trans hlast)] at hin
        obtain ⟨rfl, rfl⟩ := (mem_groupSlots_cons hb).mp hin
        rw [hnodes]
        refine ps64Update_marked ?_
        rw [← isPs64GroupComplete_layout, hlayout, isPs64GroupComplete_layout]
        exact hcomplete
    · have hd := wf.depth p m hm
      rw [hk] at hd
      have hold : isPs64GroupComplete c.gpu w.nodes p b = true := by
        rw [← hcomplete]
        exact (isPs64GroupComplete_congr fun i hi => walkPage_group_frame wf expect hd hin hi).symm
      exact fun i hi => (walkPage_flag_frame wf expect hmoves hb hin hi).trans (hkept hold i hi)

end Ps64Walk
