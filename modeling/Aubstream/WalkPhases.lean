import Aubstream.TreeShape
import Aubstream.PageWalker

/-!
# The two phases of a page's descent

On a well-formed tree the inner loop first passes tables, creating the missing
ones, and then enters the leaf at the level that the last table fixes.
-/

namespace WalkPhases
open EntryBits PathTree PhysicalAllocator PageNodes PageWalker TreeShape

/-- What stands, or is about to be created, in the slot of the page directory. -/
def lastTable (c : WalkContext) (t : Nodes) (g : Nat) : NodeKind :=
  match t (slotPath c.ppgtt.getNumLevels Pde g) with
  | some m => m.kind
  | none => tableKind c.ppgtt Pde c.requestedPageSize

def leafLevel : NodeKind → Nat
  | .pte _ => Pte
  | _ => Pde

/-- The slot of the leaf for an address below, or at, the last table. -/
def leafSlot (n : Nat) (last : NodeKind) (g : Nat) : Path :=
  match last with
  | .pte k => k.getIndex g :: slotPath n Pde g
  | _ => slotPath n Pde g

variable {A : Type} [PhysicalAddressAllocator A]

def createTable (c : WalkContext) (level : Nat) (parent : PageNode) (q : Path) (w : WalkState A) :
    WalkState A :=
  let r := constructNode w.allocator (tableKind c.ppgtt level c.requestedPageSize)
    (tableSize level c.requestedPageSize) parent.memoryBank noParams
  { w with nodes := PathTree.put w.nodes q (r.1.setPendingWrite true), allocator := r.2 }

/-- A level passed on the way to the leaf. -/
def tableStep (c : WalkContext) (level : Nat) (parent : PageNode) (q : Path) (w : WalkState A) :
    WalkState A :=
  if (w.nodes q).isNone then emitChild c level q true (createTable c level parent q w)
  else emitChild c level q false w

/-- The level at which the leaf is entered. -/
def leafStep (c : WalkContext) (page : PageRequest) (last : NodeKind) (parent : PageNode)
    (w : WalkState A) : WalkState A :=
  let level := leafLevel last
  let q := leafSlot c.ppgtt.getNumLevels last page.gfxAddress
  if isExisting2MB level (w.nodes q) && w.physicalAddress.isNone then w
  else
    let w := { w with physicalAddress := alignCursor level level last.getPageSize w.physicalAddress }
    let r := enterChild c page level level last.getPageSize parent q w
    if checkPs64 c level parent.kind then
      let index := parent.kind.getIndex level page.gfxAddress
      updatePs64 c page level q.tail index (isPs64Group c.gpu w.nodes q.tail (index - index % 16)) r.1
    else emitChild c level q r.2 r.1

/-- The descent for a page stands before `level`. -/
structure AtLevel (c : WalkContext) (page : PageRequest) (last : NodeKind) (level : Nat)
    (w : WalkState A) : Prop where
  wf : Wf c.ppgtt.getNumLevels w.nodes
  below : level < c.ppgtt.getNumLevels
  above : leafLevel last ≤ level
  fixes : 1 ≤ level → lastTable c w.nodes page.gfxAddress = last
  parent : ∃ parent, w.nodes (slotPath c.ppgtt.getNumLevels (level + 1) page.gfxAddress) =
    some parent ∧ (level = 0 → parent.kind = last)
  expect : c.mode = .Expect → w.physicalAddress = none

@[simp] theorem getIndex_directory (level g : Nat) :
    NodeKind.directory.getIndex level g = directoryIndex level g := rfl

@[simp] theorem getIndex_pte (k : PteKind) (level g : Nat) :
    (NodeKind.pte k).getIndex level g = k.getIndex g := rfl

theorem alignCursor_of_ne {level leafLevel : Nat} (pageSize : Nat) (h : level ≠ leafLevel)
    (p : Option Nat) : alignCursor level leafLevel pageSize p = p := by
  cases p <;> simp [alignCursor, h]

theorem planLevel_missing (level pageSize leafLevel : Nat) :
    planLevel level .directory none pageSize leafLevel = (pageSize, leafLevel) := by
  simp [planLevel, isExisting2MB, hasExistingPageTableConflict]

theorem planLevel_above {level : Nat} (hl : 2 ≤ level) (child : Option PageNode)
    (pageSize leafLevel : Nat) :
    planLevel level .directory child pageSize leafLevel = (pageSize, leafLevel) := by
  have hne : level ≠ Pde := by simp only [Pde]; omega
  cases child <;> simp [planLevel, isExisting2MB, hasExistingPageTableConflict, hne]

theorem isExisting2MB_above {level : Nat} (hl : 2 ≤ level) (child : Option PageNode) :
    isExisting2MB level child = false := by
  have hne : level ≠ Pde := by simp only [Pde]; omega
  cases child <;> simp [isExisting2MB, hne]

theorem createChild_table {c : WalkContext} {page : PageRequest} {level leafLevel : Nat}
    (hleaf : level ≠ leafLevel) (hpte : level ≠ Pte) (parent : PageNode) (q : Path)
    (w : WalkState A) :
    createChild c page level leafLevel c.requestedPageSize parent q w =
      createTable c level parent q w := by
  simp [createChild, newChild, createTable, hleaf, hpte]

omit [PhysicalAddressAllocator A] in
theorem remapChild_table {page : PageRequest} {level leafLevel : Nat} (hleaf : level ≠ leafLevel)
    (q : Path) (w : WalkState A) : remapChild page level leafLevel q w = (w, false) := by
  simp only [remapChild]
  split
  · rw [if_neg hleaf]
  · rfl

/-- A level that is not the leaf's: the child is entered without touching the leaf fields. -/
theorem walkLevel_passes {c : WalkContext} {page : PageRequest} {level : Nat} {parent : Path}
    {pn : PageNode} {pageSize leafLevel ps ll : Nat} {w : WalkState A}
    (hp : w.nodes parent = some pn) (hk : pn.kind = .directory) (hl : 1 ≤ level)
    (hplan : planLevel level .directory (w.nodes (directoryIndex level page.gfxAddress :: parent))
      pageSize leafLevel = (ps, ll))
    (hexisting : isExisting2MB level (w.nodes (directoryIndex level page.gfxAddress :: parent)) =
      false)
    (hll : level ≠ ll)
    (hcreate : w.nodes (directoryIndex level page.gfxAddress :: parent) = none →
      ps = c.requestedPageSize) :
    walkLevel c page level parent pageSize leafLevel w =
      if (w.nodes (directoryIndex level page.gfxAddress :: parent)).isNone && c.mode == .Expect then
        ⟨w, none, ps, ll, true⟩
      else ⟨tableStep c level pn (directoryIndex level page.gfxAddress :: parent) w,
        some (directoryIndex level page.gfxAddress :: parent), ps, ll, false⟩ := by
  have hpte : level ≠ Pte := by simp only [Pte]; omega
  have hcheck : checkPs64 c level pn.kind = false := by simp [checkPs64, hpte]
  simp only [walkLevel, hp, hk, getIndex_directory, hplan, hexisting, Bool.false_and,
    Bool.false_eq_true, if_false, alignCursor_of_ne ps hll]
  rw [hk] at hcheck
  simp only [hcheck, Bool.false_eq_true, if_false]
  split
  · rfl
  · cases hn : w.nodes (directoryIndex level page.gfxAddress :: parent) with
    | none =>
      simp only [enterChild, tableStep, hn, Option.isNone_none, if_true, remapChild_table hll,
        Bool.or_false]
      rw [hcreate hn, createChild_table hll hpte]
    | some m =>
      simp only [enterChild, tableStep, hn, Option.isNone_some, Bool.false_eq_true, if_false,
        remapChild_table hll, Bool.or_false]

theorem tableKind_cases (ppgtt : PpgttKind) (pageSize : Nat) :
    (tableKind ppgtt Pde pageSize = .page2MB ∧ pageSize = pageSize2MB) ∨
      (∃ k, tableKind ppgtt Pde pageSize = .pte k) ∧ pageSize ≠ pageSize2MB := by
  simp only [tableKind, if_true]
  by_cases h2 : pageSize = pageSize2MB
  · exact Or.inl ⟨by rw [if_pos h2], h2⟩
  · refine Or.inr ⟨?_, h2⟩
    rw [if_neg h2]
    split
    · exact ⟨_, rfl⟩
    · exact ⟨_, rfl⟩

theorem getNumLevels_ge (ppgtt : PpgttKind) : 4 ≤ ppgtt.getNumLevels := by
  cases ppgtt <;> decide

theorem lastTable_cases {c : WalkContext} {t : Nodes} (wf : Wf c.ppgtt.getNumLevels t) (g : Nat) :
    (∃ k, lastTable c t g = .pte k) ∨ lastTable c t g = .page2MB := by
  have hn := getNumLevels_ge c.ppgtt
  unfold lastTable
  cases h : t (slotPath c.ppgtt.getNumLevels Pde g) with
  | none =>
    rcases tableKind_cases c.ppgtt c.requestedPageSize with ⟨h, _⟩ | ⟨h, _⟩
    · exact Or.inr h
    · exact Or.inl h
  | some m =>
    refine wf.table_of_length h ?_
    rw [slotPath_length]
    simp only [Pde]
    omega

namespace AtLevel

variable {c : WalkContext} {page : PageRequest} {last : NodeKind} {level : Nat} {w : WalkState A}

omit [PhysicalAddressAllocator A] in
theorem last_cases (h : AtLevel c page last level w) :
    (∃ k, last = .pte k) ∨ last = .page2MB := by
  by_cases hl : 1 ≤ level
  · rw [← h.fixes hl]
    exact lastTable_cases h.wf page.gfxAddress
  · have habove := h.above
    cases last with
    | pte k => exact Or.inl ⟨k, rfl⟩
    | page2MB => exact Or.inr rfl
    | directory => simp only [leafLevel, Pde] at habove; omega
    | memory => simp only [leafLevel, Pde] at habove; omega

omit [PhysicalAddressAllocator A] in
theorem parent_directory (h : AtLevel c page last level w) (hl : 1 ≤ level) {parent : PageNode}
    (hp : w.nodes (slotPath c.ppgtt.getNumLevels (level + 1) page.gfxAddress) = some parent) :
    parent.kind = .directory := by
  have hb := h.below
  refine h.wf.directory_of_length hp ?_
  rw [slotPath_length]
  omega

omit [PhysicalAddressAllocator A] in
theorem parent_kind_pte (h : AtLevel c page last 0 w) {parent : PageNode}
    (hp : w.nodes (slotPath c.ppgtt.getNumLevels 1 page.gfxAddress) = some parent) :
    parent.kind = last := by
  obtain ⟨x, hx, hk⟩ := h.parent
  rw [hx, Option.some.injEq] at hp
  exact hp ▸ hk rfl

end AtLevel

omit [PhysicalAddressAllocator A] in
theorem leafSlot_pte (n : Nat) (k : PteKind) (g : Nat) :
    leafSlot n (.pte k) g = k.getIndex g :: slotPath n Pde g := rfl

omit [PhysicalAddressAllocator A] in
theorem leafSlot_2MB {n : Nat} (g : Nat) (hn : 1 < n) :
    leafSlot n .page2MB g = directoryIndex Pde g :: slotPath n 2 g := slotPath_cons g hn

/-- The arguments with which the loop arrives at a level. -/
def LevelArgs (c : WalkContext) (level pageSize leafLevel : Nat) : Prop :=
  (1 ≤ level → pageSize = c.requestedPageSize ∧ leafLevel = c.requestedLeafLevel) ∧
    (level = 0 → leafLevel = Pte)

omit [PhysicalAddressAllocator A] in
/-- At the leaf level of a 2MB page the plan is a 2MB page. -/
theorem planLevel_2MB {c : WalkContext} {page : PageRequest} {w : WalkState A}
    (h : AtLevel c page .page2MB Pde w) :
    planLevel Pde .directory (w.nodes (slotPath c.ppgtt.getNumLevels Pde page.gfxAddress))
      c.requestedPageSize c.requestedLeafLevel = (pageSize2MB, Pde) := by
  have hf := h.fixes (Nat.le_refl 1)
  unfold lastTable at hf
  cases hs : w.nodes (slotPath c.ppgtt.getNumLevels Pde page.gfxAddress) with
  | none =>
    rw [hs] at hf
    rcases tableKind_cases c.ppgtt c.requestedPageSize with ⟨_, h2⟩ | ⟨⟨k, hk⟩, _⟩
    · rw [planLevel_missing, WalkContext.requestedLeafLevel, if_pos h2, h2]
    · rw [hk] at hf
      cases hf
  | some m =>
    rw [hs] at hf
    simp only at hf
    simp [planLevel, isExisting2MB, hf, NodeKind.getPageSize]

theorem walkLevel_leaf {c : WalkContext} {page : PageRequest} {last : NodeKind}
    {w : WalkState A} {ps ll : Nat} {parent : PageNode}
    (h : AtLevel c page last (leafLevel last) w)
    (hp : w.nodes (slotPath c.ppgtt.getNumLevels (leafLevel last + 1) page.gfxAddress) = some parent)
    (args : LevelArgs c (leafLevel last) ps ll)
    (hmissing : ¬ (w.nodes (leafSlot c.ppgtt.getNumLevels last page.gfxAddress) = none ∧
      c.mode = .Expect)) :
    let r := walkLevel c page (leafLevel last)
      (slotPath c.ppgtt.getNumLevels (leafLevel last + 1) page.gfxAddress) ps ll w
    r.state = leafStep c page last parent w ∧
      r.child = some (leafSlot c.ppgtt.getNumLevels last page.gfxAddress) ∧
      r.pageSize = last.getPageSize ∧ r.leafLevel = leafLevel last := by
  have hn := getNumLevels_ge c.ppgtt
  have hexpect : ((w.nodes (leafSlot c.ppgtt.getNumLevels last page.gfxAddress)).isNone &&
      c.mode == .Expect) = false := by
    rw [Bool.and_eq_false_iff]
    by_cases hm : c.mode = .Expect
    · left
      cases hs : w.nodes (leafSlot c.ppgtt.getNumLevels last page.gfxAddress) with
      | none => exact absurd ⟨hs, hm⟩ hmissing
      | some _ => rfl
    · right
      simp [hm]
  rcases h.last_cases with ⟨k, rfl⟩ | rfl
  · have hk := h.parent_kind_pte hp
    have hplan : planLevel Pte (.pte k) (w.nodes (k.getIndex page.gfxAddress ::
        slotPath c.ppgtt.getNumLevels Pde page.gfxAddress)) ps ll = (k.getPageSize, Pte) := by
      rw [args.2 rfl]
      cases w.nodes (k.getIndex page.gfxAddress :: slotPath c.ppgtt.getNumLevels Pde page.gfxAddress) <;>
        simp [planLevel, isExisting2MB, hasExistingPageTableConflict, Pte, Pde]
    have hex : isExisting2MB Pte (w.nodes (k.getIndex page.gfxAddress ::
        slotPath c.ppgtt.getNumLevels Pde page.gfxAddress)) = false := by
      cases w.nodes (k.getIndex page.gfxAddress :: slotPath c.ppgtt.getNumLevels Pde page.gfxAddress) <;>
        simp [isExisting2MB, Pte, Pde]
    rw [leafSlot_pte] at hexpect
    simp only [leafLevel, Pte, Nat.zero_add, Pde] at hp hplan hex hexpect
    simp [walkLevel, leafStep, leafLevel, leafSlot_pte, hp, hk, hplan, hex, hexpect,
      NodeKind.getPageSize, Pte, Pde]
  · have hk := h.parent_directory (Nat.le_refl 1) hp
    have hplan := planLevel_2MB h
    obtain ⟨hps, hll⟩ := args.1 (Nat.le_refl 1)
    subst hps; subst hll
    rw [leafSlot_2MB _ (by omega)] at hexpect
    rw [slotPath_cons _ (by simp only [Pde]; omega)] at hplan
    simp only [leafLevel, Pde, Nat.reduceAdd] at hp hplan hexpect
    have hslot := leafSlot_2MB (n := c.ppgtt.getNumLevels) page.gfxAddress (by omega)
    simp only [Pde] at hslot
    simp only [walkLevel, leafStep, leafLevel, hslot, hp, hk, hplan, hexpect, NodeKind.getPageSize,
      Pde, getIndex_directory, List.tail_cons]
    split <;> simp

/-- In Expect mode a missing leaf ends the descent. -/
theorem walkLevel_missing {c : WalkContext} {page : PageRequest} {last : NodeKind}
    {w : WalkState A} (ps ll : Nat) {parent : PageNode}
    (h : AtLevel c page last (leafLevel last) w)
    (hp : w.nodes (slotPath c.ppgtt.getNumLevels (leafLevel last + 1) page.gfxAddress) = some parent)
    (hs : w.nodes (leafSlot c.ppgtt.getNumLevels last page.gfxAddress) = none)
    (hm : c.mode = .Expect) :
    let r := walkLevel c page (leafLevel last)
      (slotPath c.ppgtt.getNumLevels (leafLevel last + 1) page.gfxAddress) ps ll w
    r.state = w ∧ r.child = none := by
  have hn := getNumLevels_ge c.ppgtt
  have hphys := h.expect hm
  have hw : { w with physicalAddress := (none : Option Nat) } = w := by rw [← hphys]
  rcases h.last_cases with ⟨k, rfl⟩ | rfl
  · have hk := h.parent_kind_pte hp
    rw [leafSlot_pte] at hs
    simp only [leafLevel, Pte, Nat.zero_add, Pde] at hp hs
    simp [walkLevel, leafLevel, hp, hk, hs, hm, hphys, isExisting2MB, alignCursor, Pte, hw]
  · have hk := h.parent_directory (Nat.le_refl 1) hp
    rw [leafSlot_2MB _ (by omega)] at hs
    simp only [leafLevel, Pde, Nat.reduceAdd] at hp hs
    simp [walkLevel, leafLevel, hp, hk, hs, hm, hphys, isExisting2MB, alignCursor, Pde, hw]

omit [PhysicalAddressAllocator A] in
theorem pushEntry_frame (gpu : Gpu) (level : Nat) (q : Path) (w : WalkState A) :
    ∃ e, w.pushEntry gpu level q = { w with pageWalkEntries := e } := by
  refine ⟨(w.pushEntry gpu level q).pageWalkEntries, ?_⟩
  cases h : w.nodes q <;> simp only [WalkState.pushEntry, h]

omit [PhysicalAddressAllocator A] in
/-- Emission touches the entries and the pending lists only. -/
theorem emitAndTrack_frame (gpu : Gpu) (level : Nat) (q : Path) (w : WalkState A) :
    ∃ e p, emitAndTrack gpu level q w = { w with pageWalkEntries := e, pendingNodes := p } := by
  obtain ⟨e, he⟩ := pushEntry_frame gpu level q w
  simp only [emitAndTrack, he]
  split
  · exact ⟨_, _, rfl⟩
  · exact ⟨_, _, rfl⟩

omit [PhysicalAddressAllocator A] in
theorem emitChild_frame (c : WalkContext) (level : Nat) (q : Path) (emitEntry : Bool)
    (w : WalkState A) :
    ∃ e p, emitChild c level q emitEntry w =
      { w with pageWalkEntries := e, pendingNodes := p } := by
  unfold emitChild
  split
  · exact emitAndTrack_frame c.gpu level q w
  · exact ⟨_, _, rfl⟩

/-- The node that `createTable` puts into the empty slot. -/
def newTable (c : WalkContext) (level : Nat) (parent : PageNode) (a : A) : PageNode :=
  (constructNode a (tableKind c.ppgtt level c.requestedPageSize)
    (tableSize level c.requestedPageSize) parent.memoryBank noParams).1.setPendingWrite true

theorem tableStep_nodes (c : WalkContext) (level : Nat) (parent : PageNode) (q : Path)
    (w : WalkState A) :
    (tableStep c level parent q w).nodes =
      if (w.nodes q).isNone then put w.nodes q (newTable c level parent w.allocator)
      else w.nodes := by
  unfold tableStep
  split
  · obtain ⟨e, p, h⟩ := emitChild_frame c level q true (createTable c level parent q w)
    rw [h]
    rfl
  · obtain ⟨e, p, h⟩ := emitChild_frame c level q false w
    rw [h]

theorem tableStep_physicalAddress (c : WalkContext) (level : Nat) (parent : PageNode) (q : Path)
    (w : WalkState A) : (tableStep c level parent q w).physicalAddress = w.physicalAddress := by
  unfold tableStep
  split
  · obtain ⟨e, p, h⟩ := emitChild_frame c level q true (createTable c level parent q w)
    rw [h]
    rfl
  · obtain ⟨e, p, h⟩ := emitChild_frame c level q false w
    rw [h]

theorem tableKind_fitsDepth {ppgtt : PpgttKind} {level pageSize n depth : Nat} (hl : 1 ≤ level)
    (hd : depth + level = n) : fitsDepth n depth (tableKind ppgtt level pageSize) := by
  by_cases h : level = Pde
  · subst h
    rcases tableKind_cases ppgtt pageSize with ⟨h, _⟩ | ⟨⟨k, h⟩, _⟩ <;> rw [h] <;> exact hd
  · have hk : tableKind ppgtt level pageSize = .directory := by simp only [tableKind, if_neg h]
    simp only [Pde] at h
    rw [hk]
    change depth + 2 ≤ n
    omega

theorem AtLevel.tableStep {c : WalkContext} {page : PageRequest} {last : NodeKind} {level : Nat}
    {w : WalkState A} {parent : PageNode} (h : AtLevel c page last (level + 1) w)
    (hleaf : leafLevel last < level + 1)
    (hp : w.nodes (slotPath c.ppgtt.getNumLevels (level + 1 + 1) page.gfxAddress) = some parent) :
    AtLevel c page last level
      (tableStep c (level + 1) parent (slotPath c.ppgtt.getNumLevels (level + 1) page.gfxAddress) w) := by
  have hb := h.below
  have hk := h.parent_directory (by omega) hp
  have hcons := slotPath_cons page.gfxAddress hb
  have hlen : (slotPath c.ppgtt.getNumLevels (level + 1 + 1) page.gfxAddress).length + 1 + (level + 1) =
      c.ppgtt.getNumLevels := by
    rw [slotPath_length]
    omega
  refine ⟨?_, by omega, by omega, ?_, ?_, ?_⟩
  · rw [tableStep_nodes]
    cases hs : w.nodes (slotPath c.ppgtt.getNumLevels (level + 1) page.gfxAddress) with
    | some m => simpa using h.wf
    | none =>
      simp only [Option.isNone_none, if_true]
      rw [hcons] at hs ⊢
      refine h.wf.put_child hp (hk ▸ directoryIndex_hasIndex _ _) ?_ hs
      exact tableKind_fitsDepth (by omega) hlen
  · intro hl
    rw [← h.fixes (by omega)]
    have hne : slotPath c.ppgtt.getNumLevels Pde page.gfxAddress ≠
        slotPath c.ppgtt.getNumLevels (level + 1) page.gfxAddress := by
      intro heq
      have := congrArg List.length heq
      simp only [slotPath_length, Pde] at this
      omega
    have hsame : (WalkPhases.tableStep c (level + 1) parent
        (slotPath c.ppgtt.getNumLevels (level + 1) page.gfxAddress) w).nodes
          (slotPath c.ppgtt.getNumLevels Pde page.gfxAddress) =
        w.nodes (slotPath c.ppgtt.getNumLevels Pde page.gfxAddress) := by
      rw [tableStep_nodes]
      split
      · rw [put_of_ne hne]
      · rfl
    simp only [lastTable, hsame]
  · rw [tableStep_nodes]
    cases hs : w.nodes (slotPath c.ppgtt.getNumLevels (level + 1) page.gfxAddress) with
    | some m =>
      refine ⟨m, by simpa using hs, ?_⟩
      intro hl
      subst hl
      have hf := h.fixes (Nat.le_refl 1)
      simp only [lastTable, Pde, Nat.zero_add] at hf hs
      rw [hs] at hf
      exact hf
    | none =>
      refine ⟨newTable c (level + 1) parent w.allocator, by simp, ?_⟩
      intro hl
      subst hl
      have hf := h.fixes (Nat.le_refl 1)
      simp only [lastTable, Pde, Nat.zero_add] at hf hs
      rw [hs] at hf
      exact hf
  · intro hm
    rw [tableStep_physicalAddress]
    exact h.expect hm

/-- What holds before `level` of a page's descent follows each of its table steps. -/
def TableStep (c : WalkContext) (page : PageRequest) (last : NodeKind)
    (P : Nat → WalkState A → Prop) : Prop :=
  ∀ level w parent, AtLevel c page last (level + 1) w → leafLevel last < level + 1 →
    w.nodes (slotPath c.ppgtt.getNumLevels (level + 1 + 1) page.gfxAddress) = some parent →
    ¬ (w.nodes (slotPath c.ppgtt.getNumLevels (level + 1) page.gfxAddress) = none ∧
      c.mode = .Expect) →
    P (level + 1) w →
    P level (tableStep c (level + 1) parent
      (slotPath c.ppgtt.getNumLevels (level + 1) page.gfxAddress) w)

/-- The descent ended at an entered leaf, from a state in which `P` held. -/
structure Entered (c : WalkContext) (page : PageRequest) (last : NodeKind)
    (P : Nat → WalkState A → Prop) (r : LevelResult A) : Prop where
  before : ∃ w parent, AtLevel c page last (leafLevel last) w ∧ P (leafLevel last) w ∧
    w.nodes (slotPath c.ppgtt.getNumLevels (leafLevel last + 1) page.gfxAddress) = some parent ∧
    ¬ (w.nodes (leafSlot c.ppgtt.getNumLevels last page.gfxAddress) = none ∧ c.mode = .Expect) ∧
    r.state = leafStep c page last parent w
  child : r.child = some (leafSlot c.ppgtt.getNumLevels last page.gfxAddress)
  pageSize : r.pageSize = last.getPageSize

/-- An Expect walk met a null child. -/
structure Missing (c : WalkContext) (page : PageRequest) (last : NodeKind)
    (P : Nat → WalkState A → Prop) (r : LevelResult A) : Prop where
  expect : c.mode = .Expect
  leaf : r.state.nodes (leafSlot c.ppgtt.getNumLevels last page.gfxAddress) = none
  before : ∃ level, AtLevel c page last level r.state ∧ P level r.state
  child : r.child = none

omit [PhysicalAddressAllocator A] in
theorem leafSlot_below {c : WalkContext} {page : PageRequest} {last : NodeKind} {level : Nat}
    {w : WalkState A} (h : AtLevel c page last level w) (hleaf : leafLevel last < level)
    (hs : w.nodes (slotPath c.ppgtt.getNumLevels level page.gfxAddress) = none) :
    w.nodes (leafSlot c.ppgtt.getNumLevels last page.gfxAddress) = none := by
  have hb := h.below
  have down : ∀ k, k + 1 ≤ level →
      w.nodes (slotPath c.ppgtt.getNumLevels (level - k) page.gfxAddress) = none := by
    intro k
    induction k with
    | zero => intro _; exact hs
    | succ k ih =>
      intro hk
      have hcons := slotPath_cons (n := c.ppgtt.getNumLevels) (l := level - (k + 1))
        page.gfxAddress (by omega)
      rw [show level - (k + 1) + 1 = level - k by omega] at hcons
      rw [hcons]
      exact h.wf.none_of_parent_none (ih (by omega))
  rcases h.last_cases with ⟨k, rfl⟩ | rfl
  · have hpde := down (level - 1) (by simp only [leafLevel, Pte] at hleaf; omega)
    rw [show level - (level - 1) = Pde by simp only [leafLevel, Pte] at hleaf; simp only [Pde]; omega]
      at hpde
    exact h.wf.none_of_parent_none hpde
  · have hpde := down (level - 1) (by simp only [leafLevel, Pde] at hleaf; omega)
    rw [show level - (level - 1) = Pde by simp only [leafLevel, Pde] at hleaf ⊢; omega] at hpde
    exact hpde

omit [PhysicalAddressAllocator A] in
theorem AtLevel.plan_pde {c : WalkContext} {page : PageRequest}
    {last : NodeKind} {w : WalkState A} (h : AtLevel c page last Pde w)
    (hleaf : leafLevel last < Pde) (child : Option PageNode)
    (hs : w.nodes (slotPath c.ppgtt.getNumLevels Pde page.gfxAddress) = child) :
    isExisting2MB Pde child = false ∧
    ∃ ps, planLevel Pde .directory child c.requestedPageSize c.requestedLeafLevel = (ps, Pte) ∧
      (child = none → ps = c.requestedPageSize) := by
  have hf := h.fixes (Nat.le_refl 1)
  obtain ⟨k, rfl⟩ : ∃ k, last = .pte k := by
    rcases h.last_cases with hk | rfl
    · exact hk
    · simp [leafLevel] at hleaf
  unfold lastTable at hf
  rw [hs] at hf
  cases child with
  | none =>
    refine ⟨rfl, c.requestedPageSize, ?_, fun _ => rfl⟩
    rcases tableKind_cases c.ppgtt c.requestedPageSize with ⟨h2, _⟩ | ⟨_, h2⟩
    · rw [h2] at hf
      cases hf
    · rw [planLevel_missing, WalkContext.requestedLeafLevel, if_neg h2]
  | some m =>
    simp only at hf
    have hne : k.getPageSize ≠ pageSize2MB := pte_getPageSize_ne_2MB
    refine ⟨by simp [isExisting2MB, hf, NodeKind.getPageSize, hne], ?_⟩
    by_cases h2 : c.requestedPageSize = pageSize2MB
    · exact ⟨pageSize64KB, by simp [planLevel, isExisting2MB, hasExistingPageTableConflict, hf,
        NodeKind.getPageSize, hne, h2], fun h => by cases h⟩
    · exact ⟨c.requestedPageSize, by simp [planLevel, isExisting2MB, hasExistingPageTableConflict,
        hf, NodeKind.getPageSize, hne, h2, WalkContext.requestedLeafLevel], fun h => by cases h⟩

omit [PhysicalAddressAllocator A] in
/-- What the plan of a table level is, for the arguments of the descent. -/
theorem AtLevel.plan {c : WalkContext} {page : PageRequest} {last : NodeKind} {level : Nat}
    {w : WalkState A} (h : AtLevel c page last (level + 1) w) (hleaf : leafLevel last < level + 1) :
    ∃ ps ll, planLevel (level + 1) .directory
        (w.nodes (slotPath c.ppgtt.getNumLevels (level + 1) page.gfxAddress))
        c.requestedPageSize c.requestedLeafLevel = (ps, ll) ∧
      isExisting2MB (level + 1)
        (w.nodes (slotPath c.ppgtt.getNumLevels (level + 1) page.gfxAddress)) = false ∧
      level + 1 ≠ ll ∧
      (w.nodes (slotPath c.ppgtt.getNumLevels (level + 1) page.gfxAddress) = none →
        ps = c.requestedPageSize) ∧ ll ≤ level ∧ LevelArgs c level ps ll := by
  cases level with
  | zero =>
    obtain ⟨hex, ps, hplan, hcreate⟩ := h.plan_pde hleaf _ rfl
    exact ⟨ps, Pte, hplan, hex, by decide, hcreate, Nat.le_refl _, fun h => by omega, fun _ => rfl⟩
  | succ level =>
    have hl : 2 ≤ level + 1 + 1 := by omega
    have hll : c.requestedLeafLevel ≤ 1 := by
      unfold WalkContext.requestedLeafLevel
      split <;> decide
    exact ⟨_, _, planLevel_above hl _ _ _, isExisting2MB_above hl _, by omega, fun _ => rfl,
      by omega, fun _ => ⟨rfl, rfl⟩, fun h => by omega⟩

/-- The induction over the levels of a descent: passing a table keeps `P`, and the descent ends
at an entered leaf or, in Expect mode, at a null child. -/
theorem walkLevels_rule {c : WalkContext} {page : PageRequest} {last : NodeKind}
    {P : Nat → WalkState A → Prop} (step : TableStep c page last P) :
    ∀ level (w : WalkState A) ps ll, AtLevel c page last level w → LevelArgs c level ps ll →
      P level w →
      let r := walkLevels c page level
        (slotPath c.ppgtt.getNumLevels (level + 1) page.gfxAddress) ps ll w
      Entered c page last P r ∨ Missing c page last P r := by
  intro level
  induction level with
  | zero =>
    intro w ps ll h args hP
    obtain ⟨parent, hp, _⟩ := h.parent
    have hlast : leafLevel last = 0 := Nat.le_zero.mp h.above
    rw [← hlast] at h args hp hP
    rw [show walkLevels c page 0 = walkLevel c page (leafLevel last) by rw [hlast]; rfl,
      show (0 : Nat) + 1 = leafLevel last + 1 by rw [hlast]]
    by_cases hm : w.nodes (leafSlot c.ppgtt.getNumLevels last page.gfxAddress) = none ∧
        c.mode = .Expect
    · obtain ⟨hs, hc⟩ := walkLevel_missing ps ll h hp hm.1 hm.2
      exact Or.inr ⟨hm.2, by rw [hs]; exact hm.1, ⟨leafLevel last, by rw [hs]; exact ⟨h, hP⟩⟩, hc⟩
    · obtain ⟨hs, hc, hps, _⟩ := walkLevel_leaf h hp args hm
      exact Or.inl ⟨⟨w, parent, h, hP, hp, hm, hs⟩, hc, hps⟩
  | succ level ih =>
    intro w ps ll h args hP
    obtain ⟨parent, hp, _⟩ := h.parent
    have hb := h.below
    by_cases hlast : leafLevel last = level + 1
    · rw [← hlast] at h args hp hP
      by_cases hm : w.nodes (leafSlot c.ppgtt.getNumLevels last page.gfxAddress) = none ∧
          c.mode = .Expect
      · obtain ⟨hs, hc⟩ := walkLevel_missing ps ll h hp hm.1 hm.2
        rw [hlast] at hs hc
        right
        simp only [walkLevels, hc]
        exact ⟨hm.2, by rw [hs]; exact hm.1, ⟨leafLevel last, by rw [hs]; exact ⟨h, hP⟩⟩, hc⟩
      · obtain ⟨hs, hc, hps, hll⟩ := walkLevel_leaf h hp args hm
        rw [hlast] at hs hc hps hll
        left
        have hstop : ∀ b : Bool, (b || decide (level < level + 1)) = true := by simp
        simp only [walkLevels, hc, hll, hstop, if_true]
        exact ⟨⟨w, parent, h, hP, hp, hm, hs⟩, hc, hps⟩
    · have hleaf : leafLevel last < level + 1 := Nat.lt_of_le_of_ne h.above hlast
      have hk := h.parent_directory (by omega) hp
      have hcons := slotPath_cons page.gfxAddress hb
      obtain ⟨hps, hll⟩ := args.1 (by omega)
      subst hps; subst hll
      obtain ⟨ps', ll', hplan, hex, hne, hcreate, hle, hargs⟩ := h.plan hleaf
      have hwl := walkLevel_passes hp hk (by omega) (hcons ▸ hplan) (hcons ▸ hex) hne
        (by rw [← hcons]; exact hcreate)
      rw [← hcons] at hwl
      by_cases hm : w.nodes (slotPath c.ppgtt.getNumLevels (level + 1) page.gfxAddress) = none ∧
          c.mode = .Expect
      · right
        rw [if_pos (by simp [hm.1, hm.2])] at hwl
        simp only [walkLevels, hwl]
        exact ⟨hm.2, leafSlot_below h hleaf hm.1, ⟨level + 1, h, hP⟩, rfl⟩
      · rw [if_neg ?_] at hwl
        · have hgo : (false || decide (level < ll')) = false := by
            simpa using hle
          simp only [walkLevels, hwl, hgo]
          exact ih _ _ _ (h.tableStep hleaf hp) hargs (step level w parent h hleaf hp hm hP)
        · intro hboth
          rw [Bool.and_eq_true, Option.isNone_iff_eq_none, beq_iff_eq] at hboth
          exact hm hboth

omit [PhysicalAddressAllocator A] in
theorem atLevel_top {c : WalkContext} {w : WalkState A} (page : PageRequest)
    (wf : Wf c.ppgtt.getNumLevels w.nodes) (expect : c.mode = .Expect → w.physicalAddress = none) :
    AtLevel c page (lastTable c w.nodes page.gfxAddress) (c.ppgtt.getNumLevels - 1) w := by
  have hn := getNumLevels_ge c.ppgtt
  refine ⟨wf, by omega, ?_, fun _ => rfl, ?_, expect⟩
  · rcases lastTable_cases wf page.gfxAddress with ⟨k, h⟩ | h <;> rw [h] <;>
      simp only [leafLevel, Pte, Pde] <;> omega
  · obtain ⟨r, hr, _⟩ := wf.root
    rw [Nat.sub_add_cancel (by omega), slotPath_root]
    exact ⟨r, hr, fun h => by omega⟩

/-- One round of the outer loop: a page entered from a state in which `P` held, or an Expect
walk that ends at a null child. -/
theorem walkPage_rule {c : WalkContext} (page : PageRequest) {w : WalkState A}
    {P : Nat → WalkState A → Prop} (wf : Wf c.ppgtt.getNumLevels w.nodes)
    (expect : c.mode = .Expect → w.physicalAddress = none)
    (step : TableStep c page (lastTable c w.nodes page.gfxAddress) P)
    (init : P (c.ppgtt.getNumLevels - 1) w) :
    let last := lastTable c w.nodes page.gfxAddress
    let q := leafSlot c.ppgtt.getNumLevels last page.gfxAddress
    (∃ w' parent, AtLevel c page last (leafLevel last) w' ∧ P (leafLevel last) w' ∧
      w'.nodes (slotPath c.ppgtt.getNumLevels (leafLevel last + 1) page.gfxAddress) = some parent ∧
      ¬ (w'.nodes q = none ∧ c.mode = .Expect) ∧
      walkPage c page w = (recordPage page last.getPageSize
        (sizeThisIteration page last.getPageSize) q (leafStep c page last parent w'),
        sizeThisIteration page last.getPageSize)) ∨
    (∃ w' level, AtLevel c page last level w' ∧ P level w' ∧ c.mode = .Expect ∧
      w'.nodes q = none ∧ walkPage c page w = (w', 0)) := by
  have hn := getNumLevels_ge c.ppgtt
  have h := walkLevels_rule step (c.ppgtt.getNumLevels - 1) w c.requestedPageSize
    c.requestedLeafLevel (atLevel_top page wf expect)
    ⟨fun _ => ⟨rfl, rfl⟩, fun h => by omega⟩ init
  rw [Nat.sub_add_cancel (by omega), slotPath_root] at h
  rcases h with ⟨⟨w', parent, hat, hP, hp, hm, hs⟩, hc, hps⟩ | ⟨hm, hleaf, ⟨level, hat, hP⟩, hc⟩
  · left
    refine ⟨w', parent, hat, hP, hp, hm, ?_⟩
    simp only [walkPage, hc, hps, hs]
  · right
    refine ⟨_, level, hat, hP, hm, hleaf, ?_⟩
    simp only [walkPage, hc]

end WalkPhases
