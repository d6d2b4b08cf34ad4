import Aubstream.WalkPhases
import Mathlib.Data.List.Nodup

/-!
# What entering a leaf does

The leaf is created or kept, a supplied physical address overrides it, and the
PS64 branch sets or clears the flag of its group. Everything else a leaf step
changes is emission.
-/

namespace LeafStep
open EntryBits PathTree PhysicalAllocator PageNodes PageWalker TreeShape WalkPhases

variable {A : Type} [PhysicalAddressAllocator A]

/-- The leaf before a supplied address overrides it, and the allocator afterwards. -/
def providedLeaf (c : WalkContext) (page : PageRequest) (size : Nat) (q : Path)
    (w : WalkState A) : PageNode × A :=
  match w.nodes q with
  | some n => (n, w.allocator)
  | none =>
    let r := newLeaf c page size w.physicalAddress w.allocator
    (r.1.setPendingWrite true, r.2)

def overrideLeaf (page : PageRequest) (physicalAddress : Option Nat) (n : PageNode) : PageNode :=
  match physicalAddress with
  | none => n
  | some p => remapNode n p page.pageMemoryBank

def isOverridden (page : PageRequest) (physicalAddress : Option Nat) (n : PageNode) : Bool :=
  match physicalAddress with
  | none => false
  | some p => needsRemap n p page.pageMemoryBank

/-- The leaf as the rest of the level finds it. -/
def enteredLeaf (c : WalkContext) (page : PageRequest) (size : Nat) (q : Path) (w : WalkState A) :
    PageNode :=
  overrideLeaf page w.physicalAddress (providedLeaf c page size q w).1

theorem enterChild_leaf (c : WalkContext) (page : PageRequest) (level size : Nat)
    (parent : PageNode) (q : Path) (w : WalkState A) :
    ∃ pages, enterChild c page level level size parent q w =
      ({ w with
          nodes := put w.nodes q (enteredLeaf c page size q w)
          allocator := (providedLeaf c page size q w).2
          pages64KB := pages },
        (w.nodes q).isNone ||
          isOverridden page w.physicalAddress (providedLeaf c page size q w).1) := by
  refine ⟨(enterChild c page level level size parent q w).1.pages64KB, ?_⟩
  cases hq : w.nodes q with
  | none =>
    cases hp : w.physicalAddress with
    | none =>
      simp only [enterChild, hq, Option.isNone_none, if_true, createChild, newChild, remapChild, hp,
        enteredLeaf, providedLeaf, overrideLeaf, isOverridden]
    | some p =>
      simp only [enterChild, hq, Option.isNone_none, if_true, createChild, newChild, remapChild, hp,
        enteredLeaf, providedLeaf, overrideLeaf, isOverridden, put_self, WalkState.put, put_put]
  | some n =>
    cases hp : w.physicalAddress with
    | none =>
      simp only [enterChild, hq, Option.isNone_some, Bool.false_eq_true, if_false, remapChild, hp,
        enteredLeaf, providedLeaf, overrideLeaf, isOverridden, put_eq_self hq, Bool.or_false]
      rw [← hp]
    | some p =>
      simp only [enterChild, hq, Option.isNone_some, Bool.false_eq_true, if_false, if_true,
        remapChild, hp, enteredLeaf, providedLeaf, overrideLeaf, isOverridden, WalkState.put,
        Bool.false_or]

def markPs64 (n : PageNode) : PageNode :=
  if n.ps64 then n else (n.setPs64 true).setPendingWrite true

def unmarkPs64 (n : PageNode) : PageNode := (n.setPs64 false).setPendingWrite true

/-- The tree after `updatePs64`. -/
def ps64Update (gpu : Gpu) (size : Nat) (parent : Path) (index : Nat) (wasPs64Group : Bool)
    (t : Nodes) : Nodes :=
  let hwBase := index - index % 16
  if isPs64GroupComplete gpu t parent hwBase then modifyAll t (groupSlots parent hwBase) markPs64
  else if wasPs64Group then modifyAll t (groupSlots parent hwBase) unmarkPs64
  else match t (index :: parent) with
    | none => t
    | some child =>
      if willComplete gpu (t (hwBase :: parent)) child (index % 16) size then
        put t (index :: parent) ((child.setPs64 true).setPendingWrite true)
      else t

theorem mem_groupSlots {parent p : Path} {hwBase : Nat} :
    p ∈ groupSlots parent hwBase ↔ ∃ i, i < 16 ∧ p = (hwBase + i) :: parent := by
  simp only [groupSlots, List.mem_map, List.mem_range]
  constructor
  · rintro ⟨i, hi, rfl⟩
    exact ⟨i, hi, rfl⟩
  · rintro ⟨i, hi, rfl⟩
    exact ⟨i, hi, rfl⟩

theorem groupSlots_nodup (parent : Path) (hwBase : Nat) : (groupSlots parent hwBase).Nodup := by
  refine List.Nodup.map ?_ List.nodup_range
  intro i j h
  simp only [List.cons.injEq, and_true] at h
  omega

omit [PhysicalAddressAllocator A] in
theorem completeSlot_frame (gpu : Gpu) (level : Nat) (q : Path) (w : WalkState A) :
    ∃ e p, completeSlot gpu level q w =
      { w with nodes := modify w.nodes q markPs64, pageWalkEntries := e, pendingNodes := p } := by
  cases hq : w.nodes q with
  | none =>
    refine ⟨w.pageWalkEntries, w.pendingNodes, ?_⟩
    simp only [completeSlot, hq]
    rw [modify_none hq]
  | some ci =>
    have hput : modify w.nodes q markPs64 =
        (if !ci.ps64 then w.put q ((ci.setPs64 true).setPendingWrite true) else w).nodes := by
      rw [modify_some hq, markPs64]
      cases ci.ps64 with
      | true => simp [put_eq_self hq]
      | false => simp [WalkState.put]
    rw [hput]
    simp only [completeSlot, hq]
    generalize hw' : (if !ci.ps64 then w.put q ((ci.setPs64 true).setPendingWrite true) else w) = w'
    have hw : w' = { w with nodes := w'.nodes } := by
      subst hw'
      split <;> rfl
    generalize hw'' : (if (!ci.ps64 || w'.isNewPending level q) = true then
      w'.pushEntry gpu level q else w') = w''
    have hw2 : ∃ e, w'' = { w' with pageWalkEntries := e } := by
      subst hw''
      split
      · exact pushEntry_frame gpu level q w'
      · exact ⟨_, rfl⟩
    obtain ⟨e, hw2⟩ := hw2
    split
    · refine ⟨e, (w''.pushPending level q).pendingNodes, ?_⟩
      rw [hw2, hw]
      rfl
    · refine ⟨e, w.pendingNodes, ?_⟩
      rw [hw2, hw]

omit [PhysicalAddressAllocator A] in
theorem downgradeSlot_frame (gpu : Gpu) (level : Nat) (q : Path) (w : WalkState A) :
    ∃ e p, downgradeSlot gpu level q w =
      { w with nodes := modify w.nodes q unmarkPs64, pageWalkEntries := e, pendingNodes := p } := by
  cases hq : w.nodes q with
  | none =>
    refine ⟨w.pageWalkEntries, w.pendingNodes, ?_⟩
    simp only [downgradeSlot, hq]
    rw [modify_none hq]
  | some ci =>
    obtain ⟨e, he⟩ := pushEntry_frame gpu level q (w.put q (unmarkPs64 ci))
    have hput : modify w.nodes q unmarkPs64 = put w.nodes q (unmarkPs64 ci) := modify_some hq
    simp only [unmarkPs64] at he hput
    rw [modify_some hq]
    simp only [downgradeSlot, hq, he]
    split
    · exact ⟨_, _, rfl⟩
    · exact ⟨_, _, rfl⟩

omit [PhysicalAddressAllocator A] in
/-- A loop over slots whose body modifies the slot and emits. -/
theorem foldl_frame {f : WalkState A → Path → WalkState A} {g : PageNode → PageNode}
    (body : ∀ w q, ∃ e p, f w q =
      { w with nodes := modify w.nodes q g, pageWalkEntries := e, pendingNodes := p })
    (qs : List Path) (w : WalkState A) :
    ∃ e p, qs.foldl f w =
      { w with
        nodes := qs.foldl (fun t q => modify t q g) w.nodes
        pageWalkEntries := e
        pendingNodes := p } := by
  induction qs generalizing w with
  | nil => exact ⟨w.pageWalkEntries, w.pendingNodes, rfl⟩
  | cons q rest ih =>
    obtain ⟨e, p, h⟩ := body w q
    obtain ⟨e', p', h'⟩ := ih (f w q)
    refine ⟨e', p', ?_⟩
    rw [List.foldl_cons, h', h]
    rfl

omit [PhysicalAddressAllocator A] in
theorem updatePs64_frame (c : WalkContext) (page : PageRequest) (level : Nat) (parent : Path)
    (index : Nat) (wasPs64Group : Bool) (w : WalkState A) :
    ∃ e p, updatePs64 c page level parent index wasPs64Group w =
      { w with
        nodes := ps64Update c.gpu page.size parent index wasPs64Group w.nodes
        pageWalkEntries := e
        pendingNodes := p } := by
  unfold updatePs64 ps64Update
  simp only
  split
  · rw [← foldl_modify (groupSlots_nodup _ _)]
    exact foldl_frame (fun w q => completeSlot_frame c.gpu level q w) _ w
  · split
    · rw [← foldl_modify (groupSlots_nodup _ _)]
      exact foldl_frame (fun w q => downgradeSlot_frame c.gpu level q w) _ w
    · cases hq : w.nodes (index :: parent) with
      | none => exact ⟨w.pageWalkEntries, w.pendingNodes, rfl⟩
      | some child =>
        simp only
        split
        · obtain ⟨e, p, h⟩ := emitAndTrack_frame c.gpu level (index :: parent)
            (w.put (index :: parent) ((child.setPs64 true).setPendingWrite true))
          exact ⟨e, p, h⟩
        · exact emitAndTrack_frame c.gpu level (index :: parent) w

/-- The state whose cursor is aligned for the leaf. -/
def alignedState (last : NodeKind) (w : WalkState A) : WalkState A :=
  { w with physicalAddress :=
      alignCursor (leafLevel last) (leafLevel last) last.getPageSize w.physicalAddress }

/-- The tree after `leafStep`. -/
def leafNodes (c : WalkContext) (page : PageRequest) (last : NodeKind) (parent : PageNode)
    (w : WalkState A) : Nodes :=
  let q := leafSlot c.ppgtt.getNumLevels last page.gfxAddress
  let t := put w.nodes q (enteredLeaf c page last.getPageSize q (alignedState last w))
  if checkPs64 c (leafLevel last) parent.kind then
    let index := parent.kind.getIndex (leafLevel last) page.gfxAddress
    ps64Update c.gpu page.size q.tail index
      (isPs64Group c.gpu w.nodes q.tail (index - index % 16)) t
  else t

theorem isExisting2MB_some {level : Nat} {child : Option PageNode}
    (h : isExisting2MB level child = true) : level = Pde ∧ ∃ n, child = some n := by
  cases child with
  | none => simp [isExisting2MB] at h
  | some n =>
    simp only [isExisting2MB, Bool.and_eq_true, beq_iff_eq] at h
    exact ⟨h.1, n, rfl⟩

theorem checkPs64_pde (c : WalkContext) (kind : NodeKind) : checkPs64 c Pde kind = false := by
  simp [checkPs64, Pde, Pte]

theorem leafStep_frame (c : WalkContext) (page : PageRequest) (last : NodeKind)
    (parent : PageNode) (w : WalkState A) :
    ∃ e p pages, leafStep c page last parent w =
      { nodes := leafNodes c page last parent w
        allocator := (providedLeaf c page last.getPageSize
          (leafSlot c.ppgtt.getNumLevels last page.gfxAddress) (alignedState last w)).2
        physicalAddress := (alignedState last w).physicalAddress
        pageWalkEntries := e
        pendingNodes := p
        pages64KB := pages
        entries := w.entries } := by
  unfold leafStep leafNodes
  simp only
  split
  · rename_i hkept
    rw [Bool.and_eq_true, Option.isNone_iff_eq_none] at hkept
    obtain ⟨hl, n, hn⟩ := isExisting2MB_some hkept.1
    refine ⟨w.pageWalkEntries, w.pendingNodes, w.pages64KB, ?_⟩
    have hput := put_eq_self hn
    rw [hl, checkPs64_pde]
    simp [enteredLeaf, providedLeaf, overrideLeaf, alignedState, alignCursor, hkept.2, hn, hput]
    rw [← hkept.2]
  · obtain ⟨pages, henter⟩ := enterChild_leaf c page (leafLevel last) last.getPageSize parent
      (leafSlot c.ppgtt.getNumLevels last page.gfxAddress) (alignedState last w)
    simp only [alignedState] at henter
    rw [henter]
    split
    · obtain ⟨e, p, h⟩ := updatePs64_frame c page (leafLevel last)
        (leafSlot c.ppgtt.getNumLevels last page.gfxAddress).tail
        (parent.kind.getIndex (leafLevel last) page.gfxAddress)
        (isPs64Group c.gpu w.nodes (leafSlot c.ppgtt.getNumLevels last page.gfxAddress).tail
          (parent.kind.getIndex (leafLevel last) page.gfxAddress -
            parent.kind.getIndex (leafLevel last) page.gfxAddress % 16))
        (enterChild c page (leafLevel last) (leafLevel last) last.getPageSize parent
          (leafSlot c.ppgtt.getNumLevels last page.gfxAddress) (alignedState last w)).1
      simp only [alignedState] at h
      rw [henter] at h
      exact ⟨e, p, pages, h⟩
    · obtain ⟨e, p, h⟩ := emitChild_frame c (leafLevel last)
        (leafSlot c.ppgtt.getNumLevels last page.gfxAddress)
        (enterChild c page (leafLevel last) (leafLevel last) last.getPageSize parent
          (leafSlot c.ppgtt.getNumLevels last page.gfxAddress) (alignedState last w)).2
        (enterChild c page (leafLevel last) (leafLevel last) last.getPageSize parent
          (leafSlot c.ppgtt.getNumLevels last page.gfxAddress) (alignedState last w)).1
      simp only [alignedState] at h
      rw [henter] at h
      exact ⟨e, p, pages, h⟩

end LeafStep
