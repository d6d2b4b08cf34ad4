import Aubstream.PendingEntries
import Aubstream.Ps64Walk
import Aubstream.MapFrame

/-!
# What a walk emits

A table or a leaf is created pending and emitted at once. A supplied physical
address changes a leaf in place; the change is emitted too, unless the leaf
completes a group in which it is marked and listed already.
-/

namespace PendingWalks
open EntryBits PathTree PhysicalAllocator PageNodes PageWalker TreeShape WalkPhases LeafStep
  Placement Ps64Flags Ps64Walk Translation PendingEntries PageEffect MapCursor MapFrame TableRuns

/-- A slot without children may be filled without moving an entry. -/
def Childless (t : Nodes) (x : Path) : Prop := ∀ i, t (i :: x) = none

theorem childless_of_none {n : Nat} {t : Nodes} (wf : Wf n t) {x : Path} (h : t x = none) :
    Childless t x := fun _ => wf.none_of_parent_none h

theorem childless_of_leaf {n : Nat} {t : Nodes} (wf : Wf n t) {x : Path} {m : PageNode}
    (h : t x = some m) (leaf : IsLeaf m.kind) : Childless t x := by
  intro i
  refine wf.none_of_childless h ?_
  generalize m.kind = kind at leaf
  cases leaf <;> exact id

theorem entryAddress_put {t : Nodes} {x p : Path} {m : PageNode} (childless : Childless t x)
    (h : t p ≠ none) : entryAddress (put t x m) p = entryAddress t p := by
  cases p with
  | nil => rfl
  | cons i p =>
    have hne : p ≠ x := by
      rintro rfl
      exact h (childless i)
    simp only [entryAddress, put_of_ne hne]

section
variable {A : Type}

/-- A slot has been filled with `m`, and nothing has been emitted yet. -/
structure Filled (q : Path) (m : PageNode) (w w' : WalkState A) : Prop where
  nodes : w'.nodes = put w.nodes q m
  pendingNodes : w'.pendingNodes = w.pendingNodes
  pageWalkEntries : w'.pageWalkEntries = w.pageWalkEntries

theorem Filled.unmoved {q : Path} {m : PageNode} {w w' : WalkState A} (filled : Filled q m w w')
    (childless : Childless w.nodes q) (p : Path) (hp : w.nodes p ≠ none) :
    entryAddress w'.nodes p = entryAddress w.nodes p := by
  rw [filled.nodes]
  exact entryAddress_put childless hp

/-- A slot whose node has not changed is tracked as before. -/
theorem Filled.unchanged {gpu : Gpu} {n : Nat} {t : Nodes} {q p : Path} {m : PageNode}
    {w w' : WalkState A} (filled : Filled q m w w') (h : Tracked gpu n t w)
    (childless : Childless w.nodes q) (node : w'.nodes p = w.nodes p) :
    TrackedAt gpu t (levelOf n p) w' p := by
  refine (h.slots p).frame node (filled.unmoved childless p) (fun e he => ?_) ?_
  · rw [filled.pageWalkEntries]
    exact he
  · rw [filled.pendingNodes]

theorem Filled.enters {gpu : Gpu} {n : Nat} {t : Nodes} {q : Path} {m : PageNode}
    {w w' : WalkState A} {complete : Prop} (filled : Filled q m w w') (h : Tracked gpu n t w)
    (childless : Childless w.nodes q)
    (entered : TrackedAt gpu t (levelOf n q) w' q ∨ (m.pendingWrite = true ∧
      (complete → m.ps64 = false ∨ q ∉ w.pendingNodes (levelOf n q)))) :
    Enters gpu n t q complete w' := by
  refine ⟨?_, ?_, ?_, ?_⟩
  · intro p hp
    obtain ⟨hsome, haddress⟩ := h.kept p hp
    constructor
    · rw [filled.nodes]
      by_cases hpq : p = q
      · subst hpq
        simp
      · rwa [put_of_ne hpq]
    · rw [filled.unmoved childless p hsome, haddress]
  · intro p hp
    refine filled.unchanged h childless ?_
    rw [filled.nodes, put_of_ne hp]
  · rw [filled.pendingNodes]
    exact h.listed
  · refine entered.imp_right fun ⟨hpending, hfresh⟩ => ⟨m, ?_, hpending, ?_⟩
    · rw [filled.nodes, put_self]
    · rw [filled.pendingNodes]
      exact hfresh

theorem tracked_emitAndTrack {gpu : Gpu} {n level : Nat} {t : Nodes} {q : Path}
    {w : WalkState A} (h : Enters gpu n t q False w) (depth : q.length + level = n ∧ q ≠ []) :
    Tracked gpu n t (emitAndTrack gpu level q w) := by
  constructor
  · rw [emitAndTrack_nodes]
    exact h.kept
  · intro p
    by_cases hp : p = q
    · subst hp
      rcases h.entered with htracked | ⟨m, hm, hpending, _⟩
      · exact emitAndTrack_tracked htracked
      · rw [levelOf_slot depth.1]
        exact emitAndTrack_changed hm hpending
    · exact emitAndTrack_tracked (h.others p hp)
  · exact Listed.emitAndTrack h.listed depth

theorem Enters.tracked {gpu : Gpu} {n : Nat} {t : Nodes} {q : Path} {complete : Prop}
    {w : WalkState A} (h : Enters gpu n t q complete w)
    (entered : TrackedAt gpu t (levelOf n q) w q) : Tracked gpu n t w := by
  refine ⟨h.kept, ?_, h.listed⟩
  intro p
  by_cases hp : p = q
  · exact hp ▸ entered
  · exact h.others p hp

/-- The branch without PS64 emits what it is told to, and what is pending. -/
theorem tracked_emitChild {c : WalkContext} {n level : Nat} {t : Nodes} {q : Path} {flag : Bool}
    {w : WalkState A} (h : Enters c.gpu n t q False w) (depth : q.length + level = n ∧ q ≠ [])
    (told : flag = false → TrackedAt c.gpu t (levelOf n q) w q) :
    Tracked c.gpu n t (emitChild c level q flag w) := by
  unfold emitChild
  split
  · exact tracked_emitAndTrack h depth
  · rename_i hsilent
    simp only [Bool.or_eq_true, not_or, Bool.not_eq_true] at hsilent
    exact Enters.tracked h (told hsilent.1.1)

theorem Tracked.enters {gpu : Gpu} {n : Nat} {t : Nodes} {w : WalkState A}
    (h : Tracked gpu n t w) (q : Path) : Enters gpu n t q False w :=
  ⟨h.kept, fun p _ => h.slots p, h.listed, Or.inl (h.slots q)⟩

end

section
variable {A : Type} [PhysicalAddressAllocator A]

theorem slotPath_depth {c : WalkContext} {level : Nat} (g : Nat)
    (h : level < c.ppgtt.getNumLevels) :
    (slotPath c.ppgtt.getNumLevels level g).length + level = c.ppgtt.getNumLevels ∧
      slotPath c.ppgtt.getNumLevels level g ≠ [] := by
  constructor
  · rw [slotPath_length]
    omega
  · rw [slotPath_cons g h]
    exact List.cons_ne_nil _ _

/-- Passing a table on the way to the leaf. -/
theorem tracked_tableStep {c : WalkContext} {page : PageRequest} {last : NodeKind} {t : Nodes} :
    TableStep c page last fun _ (w : WalkState A) => Tracked c.gpu c.ppgtt.getNumLevels t w := by
  intro level w parent hat _ _ _ h
  have depth := slotPath_depth (c := c) page.gfxAddress hat.below
  generalize slotPath c.ppgtt.getNumLevels (level + 1) page.gfxAddress = q at depth
  unfold tableStep
  split
  · rename_i hnone
    have hnone := Option.isNone_iff_eq_none.mp hnone
    have filled : Filled q (newTable c (level + 1) parent w.allocator) w
        (createTable c (level + 1) parent q w) := ⟨rfl, rfl, rfl⟩
    refine tracked_emitChild (filled.enters h (childless_of_none hat.wf hnone) ?_) depth nofun
    exact Or.inr ⟨rfl, False.elim⟩
  · exact tracked_emitChild (Tracked.enters h q) depth fun _ => h.slots q

/-- The group of a marked slot is complete and marked throughout. -/
def GroupIntact (gpu : Gpu) (t : Nodes) : Path → Prop
  | [] => False
  | i :: p => isPs64GroupComplete gpu t p (i - i % 16) = true ∧ GroupMarked t p (i - i % 16)

/-- A walk that has listed a marked leaf comes to it again only while its group is intact. -/
def Steady (gpu : Gpu) (w : WalkState A) (q : Path) : Prop :=
  q ∈ w.pendingNodes Pte → flag w.nodes q = true → GroupIntact gpu w.nodes q

theorem remapNode_cases (m : PageNode) (p bank : Nat) :
    (needsRemap m p bank = false ∧ remapNode m p bank = m) ∨
      needsRemap m p bank = true ∧ (remapNode m p bank).pendingWrite = true := by
  unfold remapNode
  by_cases h : needsRemap m p bank = true
  · rw [if_pos h]
    exact Or.inr ⟨h, rfl⟩
  · rw [if_neg h]
    exact Or.inl ⟨Bool.eq_false_iff.mpr h, rfl⟩

/-- The entered leaf is the one that stood, or it is pending and announced. -/
theorem enteredLeaf_cases (c : WalkContext) (page : PageRequest) (size : Nat) (q : Path)
    (w : WalkState A) :
    w.nodes q = some (enteredLeaf c page size q w) ∨
    (enteredLeaf c page size q w).pendingWrite = true ∧ ((w.nodes q).isNone ||
        isOverridden page w.physicalAddress (providedLeaf c page size q w).1) = true := by
  cases hq : w.nodes q with
  | none =>
    refine Or.inr ⟨?_, rfl⟩
    have hprovided : (providedLeaf c page size q w).1.pendingWrite = true := by
      simp only [providedLeaf, hq]
      rfl
    unfold enteredLeaf overrideLeaf
    split
    · exact hprovided
    · rename_i p _
      rcases remapNode_cases (providedLeaf c page size q w).1 p page.pageMemoryBank with
        ⟨_, hsame⟩ | ⟨_, hpending⟩
      · rw [hsame, hprovided]
      · exact hpending
  | some m =>
    have hprovided : (providedLeaf c page size q w).1 = m := by simp only [providedLeaf, hq]
    simp only [enteredLeaf, hprovided, overrideLeaf, isOverridden, Option.isNone_some,
      Bool.false_or]
    cases w.physicalAddress with
    | none => exact Or.inl rfl
    | some p =>
      rcases remapNode_cases m p page.pageMemoryBank with ⟨_, hsame⟩ | ⟨hneeds, hpending⟩
      · exact Or.inl (congrArg some hsame.symm)
      · exact Or.inr ⟨hpending, hneeds⟩

/-- A change of an intact group's slot that keeps the group complete keeps the entry. -/
theorem enteredLeaf_entry {c : WalkContext} {page : PageRequest} {size i : Nat} {p : Path}
    {w : WalkState A} {m : PageNode} (slot : w.nodes (i :: p) = some m)
    (before : isPs64GroupComplete c.gpu w.nodes p (i - i % 16) = true)
    (after : isPs64GroupComplete c.gpu (put w.nodes (i :: p)
      (enteredLeaf c page size (i :: p) w)) p (i - i % 16) = true) :
    (enteredLeaf c page size (i :: p) w).getEntryValue c.gpu = m.getEntryValue c.gpu := by
  obtain ⟨haddress, hflags⟩ := complete_put slot before after
  have hkind := enteredLeaf_kind c page size (i :: p) w
  have hmark := enteredLeaf_ps64 c page size (i :: p) w
  rw [slot] at hkind
  rw [flag_of_some slot] at hmark
  refine entryValue_of_flags hkind haddress hmark ?_ hflags
  simp only [enteredLeaf, providedLeaf, slot, overrideLeaf]
  split
  · rfl
  · unfold remapNode
    split
    · rfl
    · rfl

omit [PhysicalAddressAllocator A] in
theorem leafSlot_depth {c : WalkContext} {page : PageRequest} {last : NodeKind} {w : WalkState A}
    (hat : AtLevel c page last (leafLevel last) w) :
    (leafSlot c.ppgtt.getNumLevels last page.gfxAddress).length + leafLevel last =
        c.ppgtt.getNumLevels ∧
      leafSlot c.ppgtt.getNumLevels last page.gfxAddress ≠ [] := by
  obtain ⟨i, _, hslot, _⟩ := leafSlot_parent hat
  have hb := hat.below
  rw [hslot]
  refine ⟨?_, List.cons_ne_nil _ _⟩
  rw [List.length_cons, slotPath_length]
  omega

omit [PhysicalAddressAllocator A] in
theorem leafSlot_childless {c : WalkContext} {page : PageRequest} {last : NodeKind}
    {w : WalkState A} (hat : AtLevel c page last (leafLevel last) w) :
    Childless w.nodes (leafSlot c.ppgtt.getNumLevels last page.gfxAddress) := by
  cases hq : w.nodes (leafSlot c.ppgtt.getNumLevels last page.gfxAddress) with
  | none => exact childless_of_none hat.wf hq
  | some m =>
    refine childless_of_leaf hat.wf hq ?_
    have depth := (leafSlot_depth hat).1
    rcases hat.last_cases with ⟨k, rfl⟩ | rfl
    · rw [hat.wf.memory_of_length hq (by simpa [leafLevel, Pte] using depth)]
      exact .memory
    · have hfixes := hat.fixes (Nat.le_refl 1)
      have hslot : w.nodes (slotPath c.ppgtt.getNumLevels Pde page.gfxAddress) = some m := hq
      simp only [lastTable, hslot] at hfixes
      rw [hfixes]
      exact .page2MB

/-- The leaf that the PS64 branch finds in its slot. -/
theorem enters_leaf {c : WalkContext} {page : PageRequest} {n size i : Nat} {p : Path} {t : Nodes}
    {w w' : WalkState A} (h : Tracked c.gpu n t w)
    (filled : Filled (i :: p) (enteredLeaf c page size (i :: p) w) w w')
    (childless : Childless w.nodes (i :: p)) (depth : (i :: p).length + Pte = n)
    (steady : w.physicalAddress ≠ none → Steady c.gpu w (i :: p)) :
    Enters c.gpu n t (i :: p) (isPs64GroupComplete c.gpu w'.nodes p (i - i % 16) = true) w' := by
  refine filled.enters h childless ?_
  have hnode : w'.nodes (i :: p) = some (enteredLeaf c page size (i :: p) w) := by
    rw [filled.nodes, put_self]
  rcases enteredLeaf_cases c page size (i :: p) w with hsame | ⟨hpending, _⟩
  · exact Or.inl (filled.unchanged h childless (hnode.trans hsame.symm))
  · by_cases hcomplete : isPs64GroupComplete c.gpu w'.nodes p (i - i % 16) = true
    · have hmark := enteredLeaf_ps64 c page size (i :: p) w
      by_cases hflag : flag w.nodes (i :: p) = true
      · by_cases hlisted : i :: p ∈ w.pendingNodes (levelOf n (i :: p))
        · refine Or.inl ?_
          obtain ⟨m, slot, _⟩ := some_of_flag hflag
          by_cases hphys : w.physicalAddress = none
          · refine filled.unchanged h childless (hnode.trans ?_)
            simp only [enteredLeaf, overrideLeaf, hphys, providedLeaf, slot]
          · have hlisted' : i :: p ∈ w.pendingNodes Pte := levelOf_slot depth ▸ hlisted
            have before := (steady hphys hlisted' hflag).1
            have value := enteredLeaf_entry slot before (filled.nodes ▸ hcomplete)
            refine .of_emitted hnode hpending (filled.pendingNodes ▸ hlisted) ?_
            rw [entryOf, filled.unmoved childless _ (by rw [slot]; simp), value,
              filled.pageWalkEntries]
            exact ((h.slots (i :: p)).emitted hlisted m slot).2
        · exact Or.inr ⟨hpending, fun _ => Or.inr hlisted⟩
      · rw [Bool.not_eq_true] at hflag
        exact Or.inr ⟨hpending, fun _ => Or.inl (hmark.trans hflag)⟩
    · exact Or.inr ⟨hpending, fun h => absurd h hcomplete⟩

theorem tracked_leafStep {c : WalkContext} {page : PageRequest} {last : NodeKind}
    {parent : PageNode} {t : Nodes} {w : WalkState A}
    (hat : AtLevel c page last (leafLevel last) w)
    (hp : w.nodes (slotPath c.ppgtt.getNumLevels (leafLevel last + 1) page.gfxAddress) = some parent)
    (h : Tracked c.gpu c.ppgtt.getNumLevels t w)
    (steady : c.ps64Applicable = true → w.physicalAddress ≠ none → leafLevel last = Pte →
      Steady c.gpu w (leafSlot c.ppgtt.getNumLevels last page.gfxAddress)) :
    Tracked c.gpu c.ppgtt.getNumLevels t (leafStep c page last parent w) := by
  have depth := leafSlot_depth hat
  have childless := leafSlot_childless hat
  unfold leafStep
  simp only
  split
  · exact h
  · obtain ⟨pages, henter⟩ := enterChild_leaf c page (leafLevel last) last.getPageSize parent
      (leafSlot c.ppgtt.getNumLevels last page.gfxAddress) (alignedState last w)
    simp only [alignedState] at henter
    rw [henter]
    have haligned : Tracked c.gpu c.ppgtt.getNumLevels t (alignedState last w) :=
      ⟨h.kept, fun p => ⟨(h.slots p).same, (h.slots p).emitted⟩, h.listed⟩
    split
    · rename_i hcheck
      obtain ⟨happ, hlevel, _⟩ := checkPs64_iff.mp hcheck
      obtain ⟨k, rfl⟩ : ∃ k, last = .pte k := by
        rcases hat.last_cases with hk | rfl
        · exact hk
        · cases hlevel
      rw [hat.parent_kind_pte hp]
      refine tracked_updatePs64 (enters_leaf (w := alignedState (.pte k) w) haligned ⟨rfl, rfl, rfl⟩
        childless depth.1 ?_) depth.1
      intro hphys
      refine steady happ (fun hnone => hphys ?_) hlevel
      simp only [alignedState, hnone, alignCursor]
    · have unchanged := enteredLeaf_cases c page last.getPageSize
        (leafSlot c.ppgtt.getNumLevels last page.gfxAddress) (alignedState last w)
      have entry : ∀ w' : WalkState A, Filled (leafSlot c.ppgtt.getNumLevels last page.gfxAddress)
          (enteredLeaf c page last.getPageSize
            (leafSlot c.ppgtt.getNumLevels last page.gfxAddress) (alignedState last w))
          (alignedState last w) w' →
          (alignedState last w).nodes (leafSlot c.ppgtt.getNumLevels last page.gfxAddress) =
            some (enteredLeaf c page last.getPageSize
              (leafSlot c.ppgtt.getNumLevels last page.gfxAddress) (alignedState last w)) →
          TrackedAt c.gpu t (levelOf c.ppgtt.getNumLevels
            (leafSlot c.ppgtt.getNumLevels last page.gfxAddress)) w'
            (leafSlot c.ppgtt.getNumLevels last page.gfxAddress) := by
        intro w' filled hsame
        refine filled.unchanged haligned childless ?_
        rw [filled.nodes, put_self, hsame]
      refine tracked_emitChild (Filled.enters (w := alignedState last w) ⟨rfl, rfl, rfl⟩ haligned
        childless ?_) depth ?_
      · exact unchanged.imp (entry _ ⟨rfl, rfl, rfl⟩) fun hnew => ⟨hnew.1, False.elim⟩
      · intro hquiet
        refine entry _ ⟨rfl, rfl, rfl⟩ (unchanged.resolve_right fun hnew => ?_)
        exact absurd (hnew.2.symm.trans hquiet) Bool.noConfusion

/-- The part of a walk's state that decides whether it is steady. -/
structure SameLeaves (n : Nat) (w w' : WalkState A) : Prop where
  physicalAddress : w'.physicalAddress = w.physicalAddress
  pendingNodes : w'.pendingNodes Pte = w.pendingNodes Pte
  nodes : ∀ p, p.length = n → w'.nodes p = w.nodes p

omit [PhysicalAddressAllocator A] in
theorem emitChild_pendingNodes {c : WalkContext} {level l : Nat} {q : Path} {flag : Bool}
    {w : WalkState A} (h : l ≠ level) :
    (emitChild c level q flag w).pendingNodes l = w.pendingNodes l := by
  have hemit : (emitAndTrack c.gpu level q w).pendingNodes l = w.pendingNodes l := by
    simp only [emitAndTrack]
    split
    · simp only [WalkState.pushPending, if_neg h, pushEntry_pendingNodes]
    · rw [pushEntry_pendingNodes]
  unfold emitChild
  split
  · exact hemit
  · rfl

theorem sameLeaves_tableStep {c : WalkContext} {page : PageRequest} {last : NodeKind}
    (w₀ : WalkState A) : TableStep c page last fun _ w => SameLeaves c.ppgtt.getNumLevels w₀ w := by
  intro level w parent hat _ _ _ h
  refine ⟨?_, ?_, ?_⟩
  · rw [tableStep_physicalAddress, h.physicalAddress]
  · rw [← h.pendingNodes]
    unfold tableStep
    split
    · exact emitChild_pendingNodes (Nat.succ_ne_zero level).symm
    · exact emitChild_pendingNodes (Nat.succ_ne_zero level).symm
  · intro p hp
    rw [← h.nodes p hp, tableStep_nodes]
    split
    · refine put_of_ne ?_
      rintro rfl
      have := (slotPath_depth (c := c) page.gfxAddress hat.below).1
      omega
    · rfl

omit [PhysicalAddressAllocator A] in
theorem SameLeaves.steady {gpu : Gpu} {n : Nat} {w w' : WalkState A} (h : SameLeaves n w w')
    {q : Path} (depth : q.length = n) (steady : Steady gpu w q) : Steady gpu w' q := by
  intro hlisted hflag
  have hnode := h.nodes q depth
  rw [flag, hnode] at hflag
  have hintact := steady (h.pendingNodes ▸ hlisted) hflag
  cases q with
  | nil => exact hintact
  | cons i p =>
    have hgroup : ∀ j, w'.nodes ((i - i % 16 + j) :: p) = w.nodes ((i - i % 16 + j) :: p) :=
      fun j => h.nodes _ (by simpa using depth)
    constructor
    · have hcongr := @isPs64GroupComplete_congr gpu w'.nodes w.nodes p (i - i % 16)
        fun j _ => by simp only [layout, hgroup j]
      exact hcongr.trans hintact.1
    · intro j hj
      rw [flag, hgroup]
      exact hintact.2 j hj

omit [PhysicalAddressAllocator A] in
theorem Tracked.recordPage {gpu : Gpu} {n : Nat} {t : Nodes} {w : WalkState A}
    (h : Tracked gpu n t w) (page : PageRequest) (pageSize passed : Nat) (q : Path) :
    Tracked gpu n t (recordPage page pageSize passed q w) := by
  unfold PageWalker.recordPage
  split
  · exact h
  · exact ⟨h.kept, fun p => ⟨(h.slots p).same, (h.slots p).emitted⟩, h.listed⟩

theorem tracked_walkPage {c : WalkContext} {page : PageRequest} {t : Nodes} {w : WalkState A}
    (wf : Wf c.ppgtt.getNumLevels w.nodes) (expect : c.mode = .Expect → w.physicalAddress = none)
    (h : Tracked c.gpu c.ppgtt.getNumLevels t w)
    (steady : c.ps64Applicable = true → w.physicalAddress ≠ none → Steady c.gpu w
      (leafSlot c.ppgtt.getNumLevels (lastTable c w.nodes page.gfxAddress) page.gfxAddress)) :
    Tracked c.gpu c.ppgtt.getNumLevels t (walkPage c page w).1 := by
  have hrule := walkPage_rule page
    (P := fun _ w' => Tracked c.gpu c.ppgtt.getNumLevels t w' ∧
      SameLeaves c.ppgtt.getNumLevels w w') wf expect
    (fun level w' parent hat hleaf hp hm ⟨h1, h2⟩ =>
      ⟨tracked_tableStep level w' parent hat hleaf hp hm h1,
        sameLeaves_tableStep w level w' parent hat hleaf hp hm h2⟩)
    ⟨h, rfl, rfl, fun _ _ => rfl⟩
  rcases hrule with ⟨w', parent, hat, ⟨h1, h2⟩, hp, _, hw⟩ | ⟨w', _, _, ⟨h1, _⟩, _, _, hw⟩
  · rw [hw]
    refine Tracked.recordPage (tracked_leafStep hat hp h1 ?_) page _ _ _
    intro happ hphys hlevel
    refine h2.steady ?_ (steady happ (h2.physicalAddress ▸ hphys))
    have depth := (leafSlot_depth hat).1
    rwa [hlevel] at depth
  · rw [hw]
    exact h1

/-- The induction over the pages of a walk outside Expect mode, on the walk's state. -/
theorem walkPages_runs {c : WalkContext} {J : Nat → Nat → WalkState A → Prop}
    (hmode : c.mode ≠ .Expect)
    (visit : ∀ page w, Wf c.ppgtt.getNumLevels w.nodes → 0 < page.size →
      J page.gfxAddress page.size w → J (page.gfxAddress + (walkPage c page w).2)
        (page.size - (walkPage c page w).2) (walkPage c page w).1) :
    ∀ fuel g size index (w w' : WalkState A), size ≤ fuel → Wf c.ppgtt.getNumLevels w.nodes →
      walkPages c fuel g size index w = some w' → J g size w → ∃ g', J g' 0 w' := by
  intro fuel
  induction fuel with
  | zero =>
    intro g size index w w' hfuel _ h hJ
    obtain rfl := Option.some.inj h
    obtain rfl : size = 0 := Nat.le_zero.mp hfuel
    exact ⟨g, hJ⟩
  | succ fuel ih =>
    intro g size index w w' hfuel wf h hJ
    by_cases hz : size = 0
    · simp only [walkPages, if_pos hz, Option.some.injEq] at h
      subst h hz
      exact ⟨g, hJ⟩
    · simp only [walkPages, if_neg hz, Option.bind_eq_some_iff] at h
      obtain ⟨page, hpage, h⟩ := h
      obtain ⟨rfl, rfl⟩ := pageRequest_some hpage
      have expect : c.mode = .Expect → w.physicalAddress = none := fun hm => absurd hm hmode
      have hmoves : (walkPage c page w).2 ≠ 0 := fun hstuck =>
        hmode (walkPage_stuck wf expect (Nat.pos_of_ne_zero hz) hstuck).1
      rw [if_neg hmoves] at h
      exact ih _ _ _ _ w' (by omega) (walkPage_wf page wf expect) h
        (visit page w wf (Nat.pos_of_ne_zero hz) hJ)

theorem walkPage_physicalAddress_none {c : WalkContext} (page : PageRequest) {w : WalkState A}
    (wf : Wf c.ppgtt.getNumLevels w.nodes) (h : w.physicalAddress = none) :
    (walkPage c page w).1.physicalAddress = none := by
  have hnone := placePage_physicalAddress_none c page (s := layoutOf w) h
  rw [← (walkPage_layout page wf fun _ => h).1] at hnone
  exact hnone

omit [PhysicalAddressAllocator A] in
theorem tracked_start (gpu : Gpu) (n : Nat) (t : Nodes) (a : A) (physicalAddress : Option Nat) :
    Tracked gpu n t (.start t a physicalAddress) :=
  ⟨fun _ h => ⟨h, rfl⟩, fun _ => ⟨fun _ => rfl, fun h => absurd h List.not_mem_nil⟩,
    fun _ _ h => absurd h List.not_mem_nil⟩

/-- The pages of a walk that places its own leaves, in any mode. -/
theorem tracked_walkPages {c : WalkContext} {t : Nodes} (fuel : Nat) :
    ∀ g size index (w w' : WalkState A), Wf c.ppgtt.getNumLevels w.nodes →
      w.physicalAddress = none → Tracked c.gpu c.ppgtt.getNumLevels t w →
      walkPages c fuel g size index w = some w' → Tracked c.gpu c.ppgtt.getNumLevels t w' := by
  induction fuel with
  | zero =>
    intro g size index w w' _ _ tracked h
    exact Option.some.inj h ▸ tracked
  | succ fuel ih =>
    intro g size index w w' wf hphys tracked h
    by_cases hz : size = 0
    · rw [walkPages, if_pos hz] at h
      exact Option.some.inj h ▸ tracked
    · simp only [walkPages, if_neg hz, Option.bind_eq_some_iff] at h
      obtain ⟨page, _, h⟩ := h
      have after : Tracked c.gpu c.ppgtt.getNumLevels t (walkPage c page w).1 :=
        tracked_walkPage wf (fun _ => hphys) tracked fun _ hsome => absurd hphys hsome
      split at h
      · exact Option.some.inj h ▸ after
      · exact ih _ _ _ _ w' (walkPage_wf page wf fun _ => hphys)
          (walkPage_physicalAddress_none page wf hphys) after h

/-- A walk that places its own leaves. -/
theorem tracked_walk {c : WalkContext} {t : Nodes} {a : A} {g size : Nat} {w : WalkState A}
    (wf : Wf c.ppgtt.getNumLevels t)
    (h : walkPages c size g size 0 (.start t a none) = some w) :
    Tracked c.gpu c.ppgtt.getNumLevels t w :=
  tracked_walkPages size g size 0 (.start t a none) w wf rfl (tracked_start _ _ t a none) h

omit [PhysicalAddressAllocator A] in
/-- A loop over slots lists none but them. -/
theorem foldl_listed {f : WalkState A → Path → WalkState A} {level : Nat}
    (body : ∀ w q l p, p ∈ (f w q).pendingNodes l → p ∈ w.pendingNodes l ∨ l = level ∧ p = q)
    (qs : List Path) {w : WalkState A} {l : Nat} {p : Path}
    (h : p ∈ (qs.foldl f w).pendingNodes l) : p ∈ w.pendingNodes l ∨ l = level ∧ p ∈ qs := by
  induction qs generalizing w with
  | nil => exact Or.inl h
  | cons q rest ih =>
    rcases ih h with hp | ⟨hl, hp⟩
    · rcases body w q l p hp with hp | ⟨hl, rfl⟩
      · exact Or.inl hp
      · exact Or.inr ⟨hl, List.mem_cons_self⟩
    · exact Or.inr ⟨hl, List.mem_cons_of_mem q hp⟩

omit [PhysicalAddressAllocator A] in
theorem completeSlot_listed {gpu : Gpu} {level l : Nat} {q p : Path} {w : WalkState A}
    (h : p ∈ (completeSlot gpu level q w).pendingNodes l) :
    p ∈ w.pendingNodes l ∨ l = level ∧ p = q := by
  cases hq : w.nodes q with
  | none =>
    rw [completeSlot_none hq] at h
    exact Or.inl h
  | some m =>
    rw [completeSlot_eq hq, mem_emitSlot_pending] at h
    exact h.imp_right fun ⟨hl, hp, _⟩ => ⟨hl, hp⟩

omit [PhysicalAddressAllocator A] in
theorem downgradeSlot_listed {gpu : Gpu} {level l : Nat} {q p : Path} {w : WalkState A}
    (h : p ∈ (downgradeSlot gpu level q w).pendingNodes l) :
    p ∈ w.pendingNodes l ∨ l = level ∧ p = q := by
  cases hq : w.nodes q with
  | none =>
    simp only [downgradeSlot, hq] at h
    exact Or.inl h
  | some m =>
    rw [downgradeSlot_eq hq, mem_emitAndTrack_pending] at h
    exact h.imp_right fun hnew => ⟨hnew.1, hnew.2.1⟩

omit [PhysicalAddressAllocator A] in
theorem updatePs64_listed {c : WalkContext} {page : PageRequest} {level l : Nat} {parent p : Path}
    {index : Nat} {was : Bool} {w : WalkState A}
    (h : p ∈ (updatePs64 c page level parent index was w).pendingNodes l) :
    p ∈ w.pendingNodes l ∨ p = index :: parent ∨
      p ∈ groupSlots parent (index - index % 16) ∧
        (isPs64GroupComplete c.gpu w.nodes parent (index - index % 16) = true ∨ was = true) := by
  unfold updatePs64 at h
  simp only at h
  split at h
  · rename_i hcomplete
    exact (foldl_listed (fun _ _ _ _ => completeSlot_listed) _ h).imp_right fun ⟨_, hp⟩ =>
      Or.inr ⟨hp, Or.inl hcomplete⟩
  · split at h
    · rename_i hwas
      exact (foldl_listed (fun _ _ _ _ => downgradeSlot_listed) _ h).imp_right fun ⟨_, hp⟩ =>
        Or.inr ⟨hp, Or.inr hwas⟩
    · split at h
      · exact Or.inl h
      · rcases mem_emitAndTrack_pending.mp h with hp | ⟨_, rfl, _⟩
        · refine Or.inl ?_
          split at hp
          · exact hp
          · exact hp
        · exact Or.inr (Or.inl rfl)

omit [PhysicalAddressAllocator A] in
theorem emitChild_listed {c : WalkContext} {level l : Nat} {q p : Path} {flag : Bool}
    {w : WalkState A} (h : p ∈ (emitChild c level q flag w).pendingNodes l) :
    p ∈ w.pendingNodes l ∨ p = q := by
  unfold emitChild at h
  split at h
  · exact (mem_emitAndTrack_pending.mp h).imp_right fun ⟨_, hp, _⟩ => hp
  · exact Or.inl h

theorem leafStep_listed {c : WalkContext} {page : PageRequest} {last : NodeKind}
    {parent : PageNode} {p : Path} {w : WalkState A}
    (hat : AtLevel c page last (leafLevel last) w)
    (hp : w.nodes (slotPath c.ppgtt.getNumLevels (leafLevel last + 1) page.gfxAddress) = some parent)
    (h : p ∈ (leafStep c page last parent w).pendingNodes Pte) :
    let above := slotPath c.ppgtt.getNumLevels Pde page.gfxAddress
    let hwBase := hwBaseOf page.gfxAddress
    p ∈ w.pendingNodes Pte ∨ p = leafSlot c.ppgtt.getNumLevels last page.gfxAddress ∨
      c.ps64Applicable = true ∧ last = .pte .PTE4KB ∧ p ∈ groupSlots above hwBase ∧
        (isPs64GroupComplete c.gpu (leafStep c page last parent w).nodes above hwBase = true ∨
          isPs64Group c.gpu w.nodes above hwBase = true) := by
  have hnodes := leafStep_nodes c page last parent w
  unfold leafStep at h
  simp only at h
  split at h
  · exact Or.inl h
  · obtain ⟨pages, henter⟩ := enterChild_leaf c page (leafLevel last) last.getPageSize parent
      (leafSlot c.ppgtt.getNumLevels last page.gfxAddress) (alignedState last w)
    simp only [alignedState] at henter
    rw [henter] at h
    split at h
    · rename_i hcheck
      obtain ⟨happ, hlevel, hsize⟩ := checkPs64_iff.mp hcheck
      obtain ⟨k, rfl⟩ : ∃ k, last = .pte k := by
        rcases hat.last_cases with hk | rfl
        · exact hk
        · cases hlevel
      have hkind := hat.parent_kind_pte hp
      rw [hkind] at hsize h
      obtain rfl : k = .PTE4KB := getPageSize_4096.mp hsize
      refine (updatePs64_listed h).imp_right (Or.imp_right ?_)
      rintro ⟨hmem, hgroup⟩
      refine ⟨happ, rfl, hmem, hgroup.imp_left fun hcomplete => ?_⟩
      simp only [leafNodes, hcheck, if_true] at hnodes
      rw [hnodes, ← isPs64GroupComplete_layout, layout_ps64Update, isPs64GroupComplete_layout]
      exact hcomplete
    · exact (emitChild_listed h).imp_right Or.inl

omit [PhysicalAddressAllocator A] in
theorem recordPage_pendingNodes (page : PageRequest) (pageSize passed : Nat) (q : Path)
    (w : WalkState A) : (recordPage page pageSize passed q w).pendingNodes = w.pendingNodes := by
  unfold recordPage
  split
  · rfl
  · rfl

/-- The leaves that a page lists: its own and, in the PS64 branch, those of a group that is complete
with it or was marked before it. -/
theorem walkPage_listed {c : WalkContext} {page : PageRequest} {w : WalkState A} {p : Path}
    (wf : Wf c.ppgtt.getNumLevels w.nodes) (expect : c.mode = .Expect → w.physicalAddress = none)
    (h : p ∈ (walkPage c page w).1.pendingNodes Pte) :
    let above := slotPath c.ppgtt.getNumLevels Pde page.gfxAddress
    let hwBase := hwBaseOf page.gfxAddress
    p ∈ w.pendingNodes Pte ∨
      p = leafSlot c.ppgtt.getNumLevels (lastTable c w.nodes page.gfxAddress) page.gfxAddress ∨
      c.ps64Applicable = true ∧ lastTable c w.nodes page.gfxAddress = .pte .PTE4KB ∧
        p ∈ groupSlots above hwBase ∧
        (isPs64GroupComplete c.gpu (walkPage c page w).1.nodes above hwBase = true ∨
          isPs64Group c.gpu w.nodes above hwBase = true) := by
  have hn := getNumLevels_ge c.ppgtt
  have hrule := walkPage_rule page (P := fun _ w' => SameLeaves c.ppgtt.getNumLevels w w') wf expect
    (sameLeaves_tableStep w) ⟨rfl, rfl, fun _ _ => rfl⟩
  rcases hrule with ⟨w', parent, hat, hsame, hp, _, hw⟩ | ⟨w', _, _, hsame, _, _, hw⟩
  · rw [hw, recordPage_pendingNodes] at h
    have hgroup : isPs64Group c.gpu w'.nodes (slotPath c.ppgtt.getNumLevels Pde page.gfxAddress)
        (hwBaseOf page.gfxAddress) = isPs64Group c.gpu w.nodes
        (slotPath c.ppgtt.getNumLevels Pde page.gfxAddress) (hwBaseOf page.gfxAddress) := by
      refine isPs64Group_congr fun i _ => hsame.nodes _ ?_
      rw [List.length_cons, slotPath_length]
      simp only [Pde]
      omega
    have hlisted := leafStep_listed hat hp h
    simp only [hsame.pendingNodes, hgroup] at hlisted
    rw [hw, recordPage_nodes]
    exact hlisted
  · rw [hw, hsame.pendingNodes] at h
    exact Or.inl h

/-- What a mapping walk has listed ahead of the pages in `visited`: leaves of 4KB tables, and in
intact groups where they are marked. -/
def SteadyAhead (gpu : Gpu) (visited : Path → Prop) (w : WalkState A) : Prop :=
  ∀ i p, i :: p ∈ w.pendingNodes Pte → ¬ visited (i :: p) →
    (∃ m, w.nodes p = some m ∧ m.kind = .pte .PTE4KB) ∧
      (flag w.nodes (i :: p) = true → GroupIntact gpu w.nodes (i :: p))

omit [PhysicalAddressAllocator A] in
theorem flag_ps64Update_broken {gpu : Gpu} {size index : Nat} {parent p : Path} {t : Nodes}
    (incomplete : ¬ isPs64GroupComplete gpu t parent (index - index % 16) = true)
    (hp : p ∈ groupSlots parent (index - index % 16)) :
    flag (ps64Update gpu size parent index true t) p = false := by
  simp only [ps64Update, if_neg incomplete, if_true, flag_modifyAll_unmark hp]

omit [PhysicalAddressAllocator A] in
theorem flag_ps64Update_open {gpu : Gpu} {size index : Nat} {parent p : Path} {t : Nodes}
    (incomplete : ¬ isPs64GroupComplete gpu t parent (index - index % 16) = true)
    (hp : p ≠ index :: parent) : flag (ps64Update gpu size parent index false t) p = flag t p := by
  simp only [ps64Update, if_neg incomplete, Bool.false_eq_true, if_false]
  split
  · rfl
  · split
    · simp only [flag, put_of_ne hp]
    · rfl

/-- A page that enters the group of a listed slot which it does not visit. -/
theorem group_after {c : WalkContext} {page : PageRequest} {w : WalkState A} {i : Nat} {p : Path}
    (wf : Wf c.ppgtt.getNumLevels w.nodes) (expect : c.mode = .Expect → w.physicalAddress = none)
    (hmoves : (walkPage c page w).2 ≠ 0) (applicable : c.ps64Applicable = true)
    (hlast : lastTable c w.nodes page.gfxAddress = .pte .PTE4KB)
    (hin : i :: p ∈ groupSlots (slotPath c.ppgtt.getNumLevels Pde page.gfxAddress)
      (hwBaseOf page.gfxAddress))
    (hother : i :: p ≠ PteKind.PTE4KB.getIndex page.gfxAddress ::
      slotPath c.ppgtt.getNumLevels Pde page.gfxAddress)
    (before : flag w.nodes (i :: p) = true →
      isPs64GroupComplete c.gpu (walkPage c page w).1.nodes
          (slotPath c.ppgtt.getNumLevels Pde page.gfxAddress) (hwBaseOf page.gfxAddress) = true ∨
        isPs64Group c.gpu w.nodes (slotPath c.ppgtt.getNumLevels Pde page.gfxAddress)
          (hwBaseOf page.gfxAddress) = true)
    (hflag : flag (walkPage c page w).1.nodes (i :: p) = true) :
    GroupIntact c.gpu (walkPage c page w).1.nodes (i :: p) := by
  obtain ⟨rfl, hbase⟩ := (mem_groupSlots_cons (hwBaseOf_dvd _)).mp hin
  rcases walkPage_flags page wf expect hmoves with ⟨hcheck, _⟩ |
    ⟨_, _, t, _, _, hflags, _, _, _, hlayout, hnodes⟩
  · exact absurd ⟨applicable, hlast⟩ hcheck
  · have hcomplete : isPs64GroupComplete c.gpu (walkPage c page w).1.nodes
        (slotPath c.ppgtt.getNumLevels Pde page.gfxAddress) (hwBaseOf page.gfxAddress) =
        isPs64GroupComplete c.gpu t
          (slotPath c.ppgtt.getNumLevels Pde page.gfxAddress) (hwBaseOf page.gfxAddress) := by
      rw [← isPs64GroupComplete_layout, ← hlayout, isPs64GroupComplete_layout]
    rw [GroupIntact, ← hbase, hcomplete]
    rw [hcomplete] at before
    rw [hnodes] at hflag ⊢
    by_cases hc : isPs64GroupComplete c.gpu t
        (slotPath c.ppgtt.getNumLevels Pde page.gfxAddress) (hwBaseOf page.gfxAddress) = true
    · exact ⟨hc, ps64Update_marked hc⟩
    · cases hwas : isPs64Group c.gpu w.nodes (slotPath c.ppgtt.getNumLevels Pde page.gfxAddress)
        (PteKind.PTE4KB.getIndex page.gfxAddress - PteKind.PTE4KB.getIndex page.gfxAddress % 16) with
      | true =>
        rw [hwas, flag_ps64Update_broken hc hin] at hflag
        cases hflag
      | false =>
        rw [hwas, flag_ps64Update_open hc hother, hflags] at hflag
        rcases before hflag with h | h
        · exact absurd h hc
        · exact absurd (hwas.symm.trans h) nofun

/-- A page of the PS64 branch leaves a 4KB table above its slot. -/
theorem table_after {c : WalkContext} {page : PageRequest} {w : WalkState A}
    (wf : Wf c.ppgtt.getNumLevels w.nodes) (expect : c.mode = .Expect → w.physicalAddress = none)
    (hmoves : (walkPage c page w).2 ≠ 0) (applicable : c.ps64Applicable = true)
    (hlast : lastTable c w.nodes page.gfxAddress = .pte .PTE4KB) :
    ∃ m, (walkPage c page w).1.nodes (slotPath c.ppgtt.getNumLevels Pde page.gfxAddress) = some m ∧
      m.kind = .pte .PTE4KB := by
  rcases walkPage_flags page wf expect hmoves with ⟨hcheck, _⟩ |
    ⟨_, _, t, m, _, _, hm, hk, _, hlayout, _⟩
  · exact absurd ⟨applicable, hlast⟩ hcheck
  · have hl := layout_some hm
    rw [hlayout] at hl
    obtain ⟨m', hm', hcore⟩ := layout_eq_some hl
    have hkind : m.kind = m'.kind := congrArg (·.kind) hcore
    exact ⟨m', hm', hkind.symm.trans hk⟩

theorem steadyAhead_step {c : WalkContext} {page : PageRequest} {w : WalkState A}
    {visited visited' : Path → Prop} (wf : Wf c.ppgtt.getNumLevels w.nodes)
    (expect : c.mode = .Expect → w.physicalAddress = none) (hmoves : (walkPage c page w).2 ≠ 0)
    (applicable : c.ps64Applicable = true)
    (advance : ∀ y, visited' y ↔ visited y ∨
      y = leafSlot c.ppgtt.getNumLevels (lastTable c w.nodes page.gfxAddress) page.gfxAddress)
    (h : SteadyAhead c.gpu visited w) : SteadyAhead c.gpu visited' (walkPage c page w).1 := by
  intro i p hlisted hnot
  rw [advance, not_or] at hnot
  have entered : lastTable c w.nodes page.gfxAddress = .pte .PTE4KB →
      i :: p ≠ PteKind.PTE4KB.getIndex page.gfxAddress ::
        slotPath c.ppgtt.getNumLevels Pde page.gfxAddress := by
    intro hlast
    have hother := hnot.2
    rwa [hlast, leafSlot_pte] at hother
  rcases walkPage_listed wf expect hlisted with hold | hslot | ⟨_, hlast, hin, hgroup⟩
  · obtain ⟨⟨m, hm, hk⟩, hintact⟩ := h i p hold hnot.1
    obtain ⟨m', hm', hk'⟩ := @walkPage_keeps_kind _ _ _ page _ _ _ wf expect hm
    refine ⟨⟨m', hm', hk'.trans hk⟩, fun hflag => ?_⟩
    have hself : i - i % 16 + i % 16 = i := by omega
    by_cases hin : visitSlot c (page, layoutOf w) ∈ groupSlots p (i - i % 16)
    · have hlast : lastTable c w.nodes page.gfxAddress = .pte .PTE4KB := by
        by_contra hcheck
        exact not_4KB_of_unchecked wf hcheck hin hm hk
      rw [visitSlot_4KB ((lastTable_layout c w.nodes page.gfxAddress).trans hlast)] at hin
      obtain ⟨rfl, hbase⟩ := (mem_groupSlots_cons (by omega)).mp hin
      have hbase' : hwBaseOf page.gfxAddress = i - i % 16 := hbase.symm
      refine group_after wf expect hmoves applicable hlast ?_ (entered hlast) ?_ hflag
      · exact (mem_groupSlots_cons (hwBaseOf_dvd _)).mpr ⟨rfl, hbase'⟩
      · intro hflag'
        obtain ⟨hcomplete, hmarked⟩ := hintact hflag'
        rw [hbase']
        exact Or.inr (isPs64Group_iff.mpr ⟨hmarked 0 (by decide), hcomplete⟩)
    · have hdvd : 16 ∣ i - i % 16 := by omega
      have hdepth := wf.depth p m hm
      rw [hk] at hdepth
      have hflags : ∀ j, j < 16 → flag (walkPage c page w).1.nodes ((i - i % 16 + j) :: p) =
          flag w.nodes ((i - i % 16 + j) :: p) :=
        fun j hj => walkPage_flag_frame wf expect hmoves hdvd hin hj
      have hold' := hflags (i % 16) (Nat.mod_lt _ (by decide))
      rw [hself] at hold'
      obtain ⟨hcomplete, hmarked⟩ := hintact (hold'.symm.trans hflag)
      constructor
      · have hcongr := @isPs64GroupComplete_congr c.gpu (walkPage c page w).1.nodes w.nodes p
          (i - i % 16) fun j hj => walkPage_group_frame wf expect hdepth hin hj
        exact hcongr.trans hcomplete
      · exact fun j hj => (hflags j hj).trans (hmarked j hj)
  · exact absurd hslot hnot.2
  · obtain ⟨rfl, _⟩ := (mem_groupSlots_cons (hwBaseOf_dvd _)).mp hin
    exact ⟨table_after wf expect hmoves applicable hlast,
      group_after wf expect hmoves applicable hlast hin (entered hlast) fun _ => hgroup⟩

/-- A page keeps the kinds that every address finds below the page directory. -/
theorem walkPage_kinds {c : WalkContext} (page : PageRequest) {w : WalkState A}
    (wf : Wf c.ppgtt.getNumLevels w.nodes) (hmode : c.mode ≠ .Expect) (b : Nat) :
    lastTable c (walkPage c page w).1.nodes b = lastTable c w.nodes b := by
  obtain ⟨hl, _⟩ := walkPage_layout page wf fun h => absurd h hmode
  have hplaced := (placePage_placed page (s := layoutOf w) (wf_layout.mpr wf) hmode).1
  rw [← lastTable_layout c w.nodes, ← lastTable_layout c (walkPage c page w).1.nodes]
  exact (congrArg (fun s => lastTable c s.nodes b) hl).trans (hplaced.lastTable (wf_layout.mpr wf) b)

theorem walkPage_passes {c : WalkContext} (page : PageRequest) {w : WalkState A}
    (wf : Wf c.ppgtt.getNumLevels w.nodes) (hmode : c.mode ≠ .Expect) :
    (walkPage c page w).2 = min page.size ((lastTable c w.nodes page.gfxAddress).getPageSize -
      page.gfxAddress % (lastTable c w.nodes page.gfxAddress).getPageSize) := by
  obtain ⟨_, hp⟩ := walkPage_layout page wf fun h => absurd h hmode
  obtain ⟨_, hpassed⟩ := placePage_placed page (s := layoutOf w) (wf_layout.mpr wf) hmode
  rw [hp, hpassed, sizeThisIteration]
  rw [show lastTable c (layoutOf w).nodes page.gfxAddress = lastTable c w.nodes page.gfxAddress from
    lastTable_layout c w.nodes _]

/-- Between two pages of a mapping walk that started on `t`. -/
structure MapEmission (c : WalkContext) (t : Nodes) (g stop a size : Nat) (w : WalkState A) :
    Prop where
  tracked : Tracked c.gpu c.ppgtt.getNumLevels t w
  bounds : g ≤ a ∧ a + size = stop
  kinds : ∀ b, lastTable c w.nodes b = lastTable c t b
  start : size = 0 ∨ PageStart (lastTable c t) g a
  ahead : c.ps64Applicable = true → SteadyAhead c.gpu (Entered c t g a) w

theorem mapEmission_step {c : WalkContext} {t : Nodes} {g stop : Nat} {w : WalkState A}
    {page : PageRequest} (wf₀ : Wf c.ppgtt.getNumLevels t) (wf : Wf c.ppgtt.getNumLevels w.nodes)
    (hmode : c.mode ≠ .Expect)
    (space : c.ps64Applicable = true → InSpace c.ppgtt.getNumLevels g (stop - g))
    (hsize : 0 < page.size) (run : MapEmission c t g stop page.gfxAddress page.size w) :
    MapEmission c t g stop (page.gfxAddress + (walkPage c page w).2)
      (page.size - (walkPage c page w).2) (walkPage c page w).1 := by
  have hk := pageKinds_lastTable wf₀
  have expect : c.mode = .Expect → w.physicalAddress = none := fun h => absurd h hmode
  have hmoves : (walkPage c page w).2 ≠ 0 := fun hstuck =>
    hmode (walkPage_stuck wf expect hsize hstuck).1
  have hkinds : ∀ b, lastTable c (walkPage c page w).1.nodes b = lastTable c t b :=
    fun b => (walkPage_kinds page wf hmode b).trans (run.kinds b)
  obtain ⟨hga, hstop⟩ := run.bounds
  have start := run.start.resolve_left (by omega)
  have hpos := (hk.region page.gfxAddress).getPageSize_pos
  have hmod := Nat.mod_lt page.gfxAddress hpos
  have hmoved := walkPage_passes page wf hmode
  rw [run.kinds] at hmoved
  have hslot : leafSlot c.ppgtt.getNumLevels (lastTable c w.nodes page.gfxAddress) page.gfxAddress =
      slotFor c.ppgtt.getNumLevels (lastTable c t) page.gfxAddress := by
    rw [run.kinds]
    rfl
  have hentered := fun y => entered_step wf₀ hga hsize start (y := y)
  rw [← hmoved] at hentered
  refine ⟨?_, ⟨by omega, by omega⟩, hkinds, ?_, ?_⟩
  · refine tracked_walkPage wf expect run.tracked fun happ _ => ?_
    rw [hslot]
    have hfresh : ¬ Entered c t g page.gfxAddress
        (slotFor c.ppgtt.getNumLevels (lastTable c t) page.gfxAddress) := by
      rintro ⟨b, h1, h2, hb, heq⟩
      have := slot_once wf₀ (pagesOnce_of_inSpace wf₀ (space happ)) hga (by omega) h1 (by omega) start hb heq
      omega
    have hahead := run.ahead happ
    generalize slotFor c.ppgtt.getNumLevels (lastTable c t) page.gfxAddress = q at hfresh
    intro hlisted hflag
    cases q with
    | nil => exact absurd (run.tracked.listed Pte [] hlisted).2 (not_not.mpr rfl)
    | cons i p => exact (hahead i p hlisted hfresh).2 hflag
  · rw [hmoved]
    exact pageStart_next hk g page.gfxAddress page.size
  · intro happ
    refine steadyAhead_step wf expect hmoves happ (fun y => ?_) (run.ahead happ)
    rw [hslot]
    exact hentered y

/-- A walk with a supplied physical address. -/
theorem tracked_map {c : WalkContext} {t : Nodes} {a : A} {phys g size : Nat} {w : WalkState A}
    (wf : Wf c.ppgtt.getNumLevels t) (hmode : c.mode ≠ .Expect)
    (space : c.ps64Applicable = true → InSpace c.ppgtt.getNumLevels g size)
    (h : walkPages c size g size 0 (.start t a (some phys)) = some w) :
    Tracked c.gpu c.ppgtt.getNumLevels t w := by
  obtain ⟨_, run⟩ := walkPages_runs (c := c)
    (J := fun b rest w => MapEmission c t g (g + size) b rest w) hmode
    (fun page w wf' hsize run => mapEmission_step wf wf' hmode
      (by rw [Nat.add_sub_cancel_left]; exact space) hsize run)
    size g size 0 (.start t a (some phys)) w (Nat.le_refl _) wf h
    ⟨tracked_start _ _ t a _, ⟨Nat.le_refl _, rfl⟩, fun _ => rfl, Or.inr (Or.inl rfl),
      fun _ _ _ hlisted => absurd hlisted List.not_mem_nil⟩
  exact run.tracked

end

end PendingWalks
