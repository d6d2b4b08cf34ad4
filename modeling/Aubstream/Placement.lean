import Aubstream.LeafStep

/-!
# Placement: where a walk puts pages

The purpose of a walk, without entries, PS64 and pending flags: each page of the
request gets tables where they are missing and a leaf that is kept, created or
overridden. `walkPage_layout` says that the page walk does exactly this.
-/

namespace Placement
open EntryBits PathTree PhysicalAllocator PageNodes PageWalker TreeShape WalkPhases LeafStep

/-- A node without the flags of its emission. -/
def core (n : PageNode) : PageNode := { n with ps64 := false, pendingWrite := false }

def layout (t : Nodes) : Nodes := fun p => (t p).map core

structure Layout (A : Type) where
  nodes : Nodes
  allocator : A
  physicalAddress : Option Nat
  entries : List PageInfo

variable {A : Type} [PhysicalAddressAllocator A]

def layoutOf (w : WalkState A) : Layout A :=
  ⟨layout w.nodes, w.allocator, w.physicalAddress, w.entries⟩

/-- A table in the slot of `g` at `level`, unless one stands there. -/
def placeTable (c : WalkContext) (g level : Nat) (s : Layout A) : Layout A :=
  let q := slotPath c.ppgtt.getNumLevels level g
  match s.nodes q, s.nodes (slotPath c.ppgtt.getNumLevels (level + 1) g) with
  | none, some parent =>
    let r := constructNode s.allocator (tableKind c.ppgtt level c.requestedPageSize)
      (tableSize level c.requestedPageSize) parent.memoryBank noParams
    { s with nodes := put s.nodes q r.1, allocator := r.2 }
  | _, _ => s

/-- The tables from `level` down to the one above the leaf. -/
def placeTables (c : WalkContext) (last : NodeKind) (g : Nat) : Nat → Layout A → Layout A
  | 0, s => s
  | level + 1, s =>
    if leafLevel last = level + 1 then s
    else placeTables c last g level (placeTable c g (level + 1) s)

def placeLeaf (c : WalkContext) (page : PageRequest) (last : NodeKind) (s : Layout A) : Layout A :=
  let q := leafSlot c.ppgtt.getNumLevels last page.gfxAddress
  let cursor := alignCursor (leafLevel last) (leafLevel last) last.getPageSize s.physicalAddress
  let r := match s.nodes q with
    | some n => (n, s.allocator)
    | none => newLeaf c page last.getPageSize cursor s.allocator
  let leaf := match cursor with
    | none => r.1
    | some p => { r.1 with physicalAddress := p, memoryBank := page.pageMemoryBank }
  { s with nodes := put s.nodes q leaf, allocator := r.2, physicalAddress := cursor }

/-- The record of a page, and the cursor behind it. -/
def placeRecord (page : PageRequest) (last : NodeKind) (q : Path) (s : Layout A) : Layout A :=
  let passed := sizeThisIteration page last.getPageSize
  match s.nodes q with
  | none => s
  | some child => { s with
      entries := s.entries ++ [⟨child.physicalAddress + page.gfxAddress % last.getPageSize, passed,
        child.isLocalMemory, page.pageMemoryBank⟩]
      physicalAddress := advanceCursor last.getPageSize passed s.physicalAddress }

/-- One page: the layout afterwards and the number of bytes passed, 0 for a missing page of an
Expect walk. -/
def placePage (c : WalkContext) (page : PageRequest) (s : Layout A) : Layout A × Nat :=
  let last := lastTable c s.nodes page.gfxAddress
  let q := leafSlot c.ppgtt.getNumLevels last page.gfxAddress
  if c.mode = .Expect ∧ s.nodes q = none then (s, 0)
  else (placeRecord page last q (placeLeaf c page last
    (placeTables c last page.gfxAddress (c.ppgtt.getNumLevels - 1) s)),
    sizeThisIteration page last.getPageSize)

/-- The pages of a request that a walk places, in order. -/
def placePages (c : WalkContext) : Nat → Nat → Nat → Nat → Layout A → Option (List PageRequest)
  | 0, _, _, _, _ => some []
  | fuel + 1, gfxAddress, size, cloneIndex, s =>
    if size = 0 then some []
    else (pageRequest c gfxAddress size cloneIndex s.physicalAddress).bind fun page =>
      let r := placePage c page s
      if r.2 = 0 then some []
      else (placePages c fuel (gfxAddress + r.2) (size - r.2) (cloneIndex + 1) r.1).map (page :: ·)

/-- The layout after placing a list of pages. -/
def finalLayout (c : WalkContext) (s : Layout A) (pages : List PageRequest) : Layout A :=
  pages.foldl (fun s page => (placePage c page s).1) s

/-- The pages with the layout that each of them finds. -/
def visits (c : WalkContext) : Layout A → List PageRequest → List (PageRequest × Layout A)
  | _, [] => []
  | s, page :: rest => (page, s) :: visits c (placePage c page s).1 rest

/-- The slot of the leaf that a visit enters. -/
def visitSlot (c : WalkContext) (v : PageRequest × Layout A) : Path :=
  leafSlot c.ppgtt.getNumLevels (lastTable c v.2.nodes v.1.gfxAddress) v.1.gfxAddress

theorem core_core (n : PageNode) : core (core n) = core n := rfl

@[simp] theorem core_setPendingWrite (n : PageNode) (b : Bool) :
    core (n.setPendingWrite b) = core n := rfl

@[simp] theorem core_setPs64 (n : PageNode) (b : Bool) : core (n.setPs64 b) = core n := rfl

@[simp] theorem core_kind (n : PageNode) : (core n).kind = n.kind := rfl

theorem core_markPs64 (n : PageNode) : core (markPs64 n) = core n := by
  unfold markPs64
  split
  · rfl
  · rfl

theorem core_unmarkPs64 (n : PageNode) : core (unmarkPs64 n) = core n := rfl

theorem layout_eq_none {t : Nodes} {q : Path} : layout t q = none ↔ t q = none := by
  simp [layout]

theorem layout_some {t : Nodes} {q : Path} {n : PageNode} (h : t q = some n) :
    layout t q = some (core n) := by
  simp [layout, h]

theorem layout_eq_some {t : Nodes} {q : Path} {n : PageNode} (h : layout t q = some n) :
    ∃ m, t q = some m ∧ n = core m := by
  simp only [layout, Option.map_eq_some_iff] at h
  obtain ⟨m, hm, rfl⟩ := h
  exact ⟨m, hm, rfl⟩

theorem layout_put (t : Nodes) (q : Path) (n : PageNode) :
    layout (put t q n) = put (layout t) q (core n) := by
  funext p
  by_cases hp : p = q
  · subst p
    simp [layout]
  · rw [put_of_ne hp]
    simp only [layout]
    rw [put_of_ne hp]

theorem layout_modifyAll {f : PageNode → PageNode} (hf : ∀ n, core (f n) = core n) (t : Nodes)
    (qs : List Path) : layout (modifyAll t qs f) = layout t := by
  funext p
  simp only [layout]
  by_cases hp : p ∈ qs
  · rw [modifyAll_of_mem hp, Option.map_map]
    congr 1
    funext n
    exact hf n
  · rw [modifyAll_of_not_mem hp]

theorem layout_put_core {t : Nodes} {q : Path} {m n : PageNode} (h : t q = some m)
    (hn : core n = core m) : layout (put t q n) = layout t := by
  rw [layout_put, hn]
  exact put_eq_self (layout_some h)

theorem wf_layout {n : Nat} {t : Nodes} : Wf n (layout t) ↔ Wf n t := by
  constructor
  · intro wf
    refine ⟨?_, ?_, ?_⟩
    · obtain ⟨r, hr, hk⟩ := wf.root
      obtain ⟨m, hm, rfl⟩ := layout_eq_some hr
      exact ⟨m, hm, hk⟩
    · intro p m hm
      exact wf.depth p (core m) (layout_some hm)
    · intro i p m hm
      obtain ⟨parent, hp, hi⟩ := wf.parent i p (core m) (layout_some hm)
      obtain ⟨x, hx, rfl⟩ := layout_eq_some hp
      exact ⟨x, hx, hi⟩
  · intro wf
    refine ⟨?_, ?_, ?_⟩
    · obtain ⟨r, hr, hk⟩ := wf.root
      exact ⟨core r, layout_some hr, hk⟩
    · intro p m hm
      obtain ⟨x, hx, rfl⟩ := layout_eq_some hm
      exact wf.depth p x hx
    · intro i p m hm
      obtain ⟨x, hx, rfl⟩ := layout_eq_some hm
      obtain ⟨parent, hp, hi⟩ := wf.parent i p x hx
      exact ⟨core parent, layout_some hp, hi⟩

theorem lastTable_layout (c : WalkContext) (t : Nodes) (g : Nat) :
    lastTable c (layout t) g = lastTable c t g := by
  unfold lastTable
  cases h : t (slotPath c.ppgtt.getNumLevels Pde g) with
  | none => rw [layout_eq_none.mpr h]
  | some m => rw [layout_some h]; rfl

theorem layout_ps64Update (gpu : Gpu) (size : Nat) (parent : Path) (index : Nat)
    (wasPs64Group : Bool) (t : Nodes) :
    layout (ps64Update gpu size parent index wasPs64Group t) = layout t := by
  unfold ps64Update
  simp only
  split
  · exact layout_modifyAll core_markPs64 t _
  · split
    · exact layout_modifyAll core_unmarkPs64 t _
    · cases h : t (index :: parent) with
      | none => rfl
      | some child =>
        simp only
        split
        · exact layout_put_core h rfl
        · rfl

theorem core_remapNode (n : PageNode) (p bank : Nat) :
    core (remapNode n p bank) = { core n with physicalAddress := p, memoryBank := bank } := by
  unfold remapNode
  split
  · rfl
  · rename_i h
    simp only [needsRemap, Bool.or_eq_true, bne_iff_ne, ne_eq, not_or, not_not] at h
    simp only [core, ← h.1, ← h.2]

theorem core_constructNode (a : A) (kind : NodeKind) (size bank : Nat)
    (params : AdditionalParams) :
    core (constructNode a kind size bank params).1 = (constructNode a kind size bank params).1 :=
  rfl

theorem core_newLeaf (c : WalkContext) (page : PageRequest) (size : Nat) (p : Option Nat) (a : A) :
    core (newLeaf c page size p a).1 = (newLeaf c page size p a).1 := by
  unfold newLeaf
  split
  · rfl
  · split
    · rfl
    · rfl

theorem tableStep_layout {c : WalkContext} {page : PageRequest} {level : Nat} {parent : PageNode}
    {w : WalkState A}
    (hp : w.nodes (slotPath c.ppgtt.getNumLevels (level + 1) page.gfxAddress) = some parent) :
    layoutOf (tableStep c level parent (slotPath c.ppgtt.getNumLevels level page.gfxAddress) w) =
      placeTable c page.gfxAddress level (layoutOf w) := by
  cases hs : w.nodes (slotPath c.ppgtt.getNumLevels level page.gfxAddress) with
  | some m =>
    obtain ⟨e, p, h⟩ := emitChild_frame c level
      (slotPath c.ppgtt.getNumLevels level page.gfxAddress) false w
    simp only [tableStep, hs, Option.isNone_some, Bool.false_eq_true, if_false, h, placeTable,
      layoutOf, layout_some hs]
  | none =>
    obtain ⟨e, p, h⟩ := emitChild_frame c level
      (slotPath c.ppgtt.getNumLevels level page.gfxAddress) true
      (createTable c level parent (slotPath c.ppgtt.getNumLevels level page.gfxAddress) w)
    simp only [tableStep, hs, Option.isNone_none, if_true, h]
    simp only [placeTable, layoutOf, layout_eq_none.mpr hs, layout_some hp, createTable, layout_put,
      core_setPendingWrite, core_constructNode]
    rfl

theorem leafStep_layout (c : WalkContext) (page : PageRequest) (last : NodeKind)
    (parent : PageNode) (w : WalkState A) :
    layoutOf (leafStep c page last parent w) = placeLeaf c page last (layoutOf w) := by
  obtain ⟨e, p, pages, h⟩ := leafStep_frame c page last parent w
  have hnodes : layout (leafNodes c page last parent w) =
      put (layout w.nodes) (leafSlot c.ppgtt.getNumLevels last page.gfxAddress)
        (core (enteredLeaf c page last.getPageSize
          (leafSlot c.ppgtt.getNumLevels last page.gfxAddress) (alignedState last w))) := by
    unfold leafNodes
    simp only
    split
    · rw [layout_ps64Update, layout_put]
    · rw [layout_put]
  rw [h]
  simp only [layoutOf, hnodes, placeLeaf, enteredLeaf, providedLeaf, alignedState]
  generalize alignCursor (leafLevel last) (leafLevel last) last.getPageSize w.physicalAddress = cursor
  cases hq : w.nodes (leafSlot c.ppgtt.getNumLevels last page.gfxAddress) with
  | some n =>
    simp only [layout_some hq, overrideLeaf]
    cases cursor with
    | none => rfl
    | some p => simp only [core_remapNode]
  | none =>
    simp only [layout_eq_none.mpr hq, overrideLeaf]
    cases cursor with
    | none => simp only [core_setPendingWrite, core_newLeaf]
    | some p => simp only [core_remapNode, core_setPendingWrite, core_newLeaf]

omit [PhysicalAddressAllocator A] in
theorem recordPage_layout (page : PageRequest) (last : NodeKind) (q : Path) (w : WalkState A) :
    layoutOf (recordPage page last.getPageSize (sizeThisIteration page last.getPageSize) q w) =
      placeRecord page last q (layoutOf w) := by
  unfold recordPage placeRecord
  cases hq : w.nodes q with
  | none => simp only [layoutOf, layout_eq_none.mpr hq]
  | some n =>
    simp only [layoutOf, layout_some hq]
    rfl

theorem placeTables_done (c : WalkContext) (last : NodeKind) (g : Nat) (s : Layout A) :
    placeTables c last g (leafLevel last) s = s := by
  cases h : leafLevel last with
  | zero => rfl
  | succ level => simp [placeTables, h]

/-- What a descent keeps: the tables still to be placed lead to the same layout, and an Expect
walk has changed nothing. -/
def OnTheWay (c : WalkContext) (page : PageRequest) (last : NodeKind) (s : Layout A)
    (level : Nat) (w : WalkState A) : Prop :=
  placeTables c last page.gfxAddress level (layoutOf w) =
      placeTables c last page.gfxAddress (c.ppgtt.getNumLevels - 1) s ∧
    (c.mode = .Expect → layoutOf w = s)

theorem onTheWay_step (c : WalkContext) (page : PageRequest) (last : NodeKind) (s : Layout A) :
    TableStep c page last (OnTheWay c page last s) := by
  intro level w parent _ hleaf hp hm ⟨hplace, hsame⟩
  rw [OnTheWay, tableStep_layout hp]
  refine ⟨?_, ?_⟩
  · rw [← hplace, placeTables, if_neg (by omega)]
  · intro hmode
    rw [← hsame hmode]
    cases hs : w.nodes (slotPath c.ppgtt.getNumLevels (level + 1) page.gfxAddress) with
    | none => exact absurd ⟨hs, hmode⟩ hm
    | some m => simp only [placeTable, layoutOf, layout_some hs]

/-- The page walk places pages. -/
theorem walkPage_layout {c : WalkContext} (page : PageRequest) {w : WalkState A}
    (wf : Wf c.ppgtt.getNumLevels w.nodes) (expect : c.mode = .Expect → w.physicalAddress = none) :
    layoutOf (walkPage c page w).1 = (placePage c page (layoutOf w)).1 ∧
      (walkPage c page w).2 = (placePage c page (layoutOf w)).2 := by
  have h := walkPage_rule page (P := OnTheWay c page (lastTable c w.nodes page.gfxAddress) (layoutOf w))
    wf expect (onTheWay_step _ _ _ _) ⟨rfl, fun _ => rfl⟩
  have hl : lastTable c (layoutOf w).nodes page.gfxAddress = lastTable c w.nodes page.gfxAddress :=
    lastTable_layout c w.nodes page.gfxAddress
  unfold placePage
  simp only [hl]
  rcases h with ⟨w', parent, _, ⟨hplace, hsame⟩, _, hm, hw⟩ | ⟨w', _, _, ⟨_, hsame⟩, hmode, hq, hw⟩
  · rw [hw, if_neg ?_]
    · rw [placeTables_done] at hplace
      refine ⟨?_, rfl⟩
      rw [recordPage_layout, leafStep_layout, hplace]
    · rintro ⟨hmode, hq⟩
      have hs := hsame hmode
      rw [← hs] at hq
      exact hm ⟨layout_eq_none.mp hq, hmode⟩
  · have hs := hsame hmode
    have hq' : (layoutOf w).nodes (leafSlot c.ppgtt.getNumLevels
        (lastTable c w.nodes page.gfxAddress) page.gfxAddress) = none := by
      rw [← hs]
      exact layout_eq_none.mpr hq
    rw [hw, if_pos ⟨hmode, hq'⟩]
    exact ⟨hs, rfl⟩

theorem newLeaf_kind (c : WalkContext) (page : PageRequest) (size : Nat) (p : Option Nat) (a : A) :
    (newLeaf c page size p a).1.kind = leafKind size := by
  unfold newLeaf
  split
  · rfl
  · split
    · rfl
    · rfl

omit [PhysicalAddressAllocator A] in
theorem remapNode_kind (n : PageNode) (p bank : Nat) : (remapNode n p bank).kind = n.kind := by
  unfold remapNode
  split
  · rfl
  · rfl

theorem enteredLeaf_kind (c : WalkContext) (page : PageRequest) (size : Nat) (q : Path)
    (w : WalkState A) :
    (enteredLeaf c page size q w).kind = match w.nodes q with
      | some n => n.kind
      | none => leafKind size := by
  have hprovided : (providedLeaf c page size q w).1.kind = match w.nodes q with
      | some n => n.kind
      | none => leafKind size := by
    unfold providedLeaf
    cases w.nodes q with
    | some n => rfl
    | none => exact newLeaf_kind c page size _ _
  rw [← hprovided]
  unfold enteredLeaf overrideLeaf
  split
  · rfl
  · exact remapNode_kind _ _ _

omit [PhysicalAddressAllocator A] in
/-- The slot of the leaf hangs below a node that indexes it, at the depth of the leaf's kind. -/
theorem leafSlot_parent {c : WalkContext} {page : PageRequest} {last : NodeKind} {w : WalkState A}
    (h : AtLevel c page last (leafLevel last) w) :
    ∃ i parent, leafSlot c.ppgtt.getNumLevels last page.gfxAddress =
        i :: slotPath c.ppgtt.getNumLevels (leafLevel last + 1) page.gfxAddress ∧
      w.nodes (slotPath c.ppgtt.getNumLevels (leafLevel last + 1) page.gfxAddress) = some parent ∧
      hasIndex i parent.kind ∧
      fitsDepth c.ppgtt.getNumLevels
        ((slotPath c.ppgtt.getNumLevels (leafLevel last + 1) page.gfxAddress).length + 1)
        (leafKind last.getPageSize) := by
  have hn := getNumLevels_ge c.ppgtt
  obtain ⟨parent, hp, _⟩ := h.parent
  rcases h.last_cases with ⟨k, rfl⟩ | rfl
  · refine ⟨k.getIndex page.gfxAddress, parent, rfl, hp, ?_, ?_⟩
    · rw [h.parent_kind_pte hp]
      exact PteKind.getIndex_hasIndex k page.gfxAddress
    · have hkind : leafKind (NodeKind.pte k).getPageSize = .memory :=
        if_neg (pte_getPageSize_ne_2MB (k := k))
      rw [hkind]
      simp only [fitsDepth, slotPath_length, leafLevel, Pte]
      omega
  · refine ⟨directoryIndex Pde page.gfxAddress, parent, leafSlot_2MB _ (by omega), hp, ?_, ?_⟩
    · rw [h.parent_directory (Nat.le_refl 1) hp]
      exact directoryIndex_hasIndex _ _
    · simp only [leafKind, NodeKind.getPageSize, if_true, fitsDepth, slotPath_length, leafLevel, Pde]
      omega

theorem leafNodes_wf {c : WalkContext} {page : PageRequest} {last : NodeKind} {parent : PageNode}
    {w : WalkState A} (h : AtLevel c page last (leafLevel last) w) :
    Wf c.ppgtt.getNumLevels (leafNodes c page last parent w) := by
  have hput : Wf c.ppgtt.getNumLevels
      (put w.nodes (leafSlot c.ppgtt.getNumLevels last page.gfxAddress)
        (enteredLeaf c page last.getPageSize (leafSlot c.ppgtt.getNumLevels last page.gfxAddress)
          (alignedState last w))) := by
    have hk := enteredLeaf_kind c page last.getPageSize
      (leafSlot c.ppgtt.getNumLevels last page.gfxAddress) (alignedState last w)
    cases hq : w.nodes (leafSlot c.ppgtt.getNumLevels last page.gfxAddress) with
    | some n =>
      simp only [alignedState, hq] at hk
      exact h.wf.put_same_kind hq hk
    | none =>
      simp only [alignedState, hq] at hk
      obtain ⟨i, parent, hslot, hp, hi, hd⟩ := leafSlot_parent h
      rw [hslot] at hq ⊢
      refine h.wf.put_child hp hi ?_ hq
      rw [← hslot]
      exact hk ▸ hd
  rw [← wf_layout] at hput ⊢
  unfold leafNodes
  simp only
  split
  · rw [layout_ps64Update]
    exact hput
  · exact hput

omit [PhysicalAddressAllocator A] in
theorem recordPage_nodes (page : PageRequest) (pageSize passed : Nat) (q : Path)
    (w : WalkState A) : (recordPage page pageSize passed q w).nodes = w.nodes := by
  unfold recordPage
  split
  · rfl
  · rfl

theorem leafStep_nodes (c : WalkContext) (page : PageRequest) (last : NodeKind)
    (parent : PageNode) (w : WalkState A) :
    (leafStep c page last parent w).nodes = leafNodes c page last parent w := by
  obtain ⟨e, p, pages, h⟩ := leafStep_frame c page last parent w
  rw [h]

theorem walkPage_wf {c : WalkContext} (page : PageRequest) {w : WalkState A}
    (wf : Wf c.ppgtt.getNumLevels w.nodes) (expect : c.mode = .Expect → w.physicalAddress = none) :
    Wf c.ppgtt.getNumLevels (walkPage c page w).1.nodes := by
  have h := walkPage_rule page (P := fun _ _ => True) wf expect
    (fun _ _ _ _ _ _ _ _ => trivial) trivial
  rcases h with ⟨w', parent, hat, _, _, _, hw⟩ | ⟨w', _, hat, _, _, _, hw⟩
  · rw [hw, recordPage_nodes, leafStep_nodes]
    exact leafNodes_wf hat
  · rw [hw]
    exact hat.wf

theorem placeTables_physicalAddress (c : WalkContext) (last : NodeKind) (g level : Nat)
    (s : Layout A) : (placeTables c last g level s).physicalAddress = s.physicalAddress := by
  induction level generalizing s with
  | zero => rfl
  | succ level ih =>
    unfold placeTables
    split
    · rfl
    · rw [ih]
      unfold placeTable
      simp only
      split
      · rfl
      · rfl

theorem placePage_physicalAddress_none (c : WalkContext) (page : PageRequest) {s : Layout A}
    (h : s.physicalAddress = none) : (placePage c page s).1.physicalAddress = none := by
  unfold placePage
  simp only
  split
  · exact h
  · have hleaf : (placeLeaf c page (lastTable c s.nodes page.gfxAddress)
        (placeTables c (lastTable c s.nodes page.gfxAddress) page.gfxAddress
          (c.ppgtt.getNumLevels - 1) s)).physicalAddress = none := by
      simp only [placeLeaf, placeTables_physicalAddress, h, alignCursor]
    unfold placeRecord
    simp only
    split
    · exact hleaf
    · rw [hleaf]
      rfl

theorem sizeThisIteration_pos {page : PageRequest} {pageSize : Nat} (hsize : 0 < page.size)
    (hps : 0 < pageSize) : 0 < sizeThisIteration page pageSize := by
  have hmod := Nat.mod_lt page.gfxAddress hps
  unfold sizeThisIteration
  omega

theorem lastTable_getPageSize_pos {c : WalkContext} {t : Nodes}
    (wf : Wf c.ppgtt.getNumLevels t) (g : Nat) : 0 < (lastTable c t g).getPageSize := by
  rcases lastTable_cases wf g with ⟨k, h⟩ | h
  · rw [h]
    exact getPageSize_pos
  · rw [h]
    decide

/-- A round that passes nothing is the end of an Expect walk, and changes no node. -/
theorem walkPage_stuck {c : WalkContext} {page : PageRequest} {w : WalkState A}
    (wf : Wf c.ppgtt.getNumLevels w.nodes) (expect : c.mode = .Expect → w.physicalAddress = none)
    (hsize : 0 < page.size) (hstuck : (walkPage c page w).2 = 0) :
    c.mode = .Expect ∧ (walkPage c page w).1.nodes = w.nodes ∧
      (walkPage c page w).1.allocator = w.allocator ∧ (walkPage c page w).1.entries = w.entries := by
  have h := walkPage_rule page
    (P := fun _ w' => c.mode = .Expect → w'.nodes = w.nodes ∧ w'.allocator = w.allocator ∧
      w'.entries = w.entries) wf expect ?_ (fun _ => ⟨rfl, rfl, rfl⟩)
  · rcases h with ⟨w', parent, _, _, _, _, hw⟩ | ⟨w', _, _, hP, hmode, _, hw⟩
    · rw [hw] at hstuck
      have hpos := sizeThisIteration_pos hsize (lastTable_getPageSize_pos wf page.gfxAddress)
      simp only at hstuck
      omega
    · rw [hw]
      exact ⟨hmode, hP hmode⟩
  · intro level w' parent _ _ _ hm hP hmode
    obtain ⟨h1, h2, h3⟩ := hP hmode
    unfold tableStep
    rw [if_neg ?_]
    · obtain ⟨e, p, hframe⟩ := emitChild_frame c (level + 1)
        (slotPath c.ppgtt.getNumLevels (level + 1) page.gfxAddress) false w'
      rw [hframe]
      exact ⟨h1, h2, h3⟩
    · intro hnone
      exact hm ⟨Option.isNone_iff_eq_none.mp hnone, hmode⟩

theorem pageRequest_some {c : WalkContext} {g size index : Nat} {p : Option Nat}
    {page : PageRequest} (h : pageRequest c g size index p = some page) :
    page.gfxAddress = g ∧ page.size = size := by
  simp only [pageRequest] at h
  by_cases hmode : c.mode = .Clone
  · rw [if_pos hmode, Option.map_eq_some_iff] at h
    obtain ⟨info, _, rfl⟩ := h
    exact ⟨rfl, rfl⟩
  · rw [if_neg hmode, Option.some.injEq] at h
    subst h
    exact ⟨rfl, rfl⟩

/-- The induction over the pages of a walk. `P` speaks of the pages still to be placed; the walk
ends in the layout that placing all of them gives. -/
theorem walkPages_rule {c : WalkContext} {P : List PageRequest → WalkState A → Prop}
    (visit : ∀ page rest w, Wf c.ppgtt.getNumLevels w.nodes →
      (c.mode = .Expect → w.physicalAddress = none) → 0 < page.size → (walkPage c page w).2 ≠ 0 →
      P (page :: rest) w → P rest (walkPage c page w).1)
    (stuck : ∀ w w' : WalkState A, c.mode = .Expect → w'.nodes = w.nodes →
      w'.allocator = w.allocator → w'.entries = w.entries → P [] w → P [] w') :
    ∀ fuel g size index (w w' : WalkState A), Wf c.ppgtt.getNumLevels w.nodes →
      (c.mode = .Expect → w.physicalAddress = none) →
      walkPages c fuel g size index w = some w' →
      ∃ pages, placePages c fuel g size index (layoutOf w) = some pages ∧
        (P pages w → P [] w') ∧ Wf c.ppgtt.getNumLevels w'.nodes ∧
        layout w'.nodes = (finalLayout c (layoutOf w) pages).nodes ∧
        w'.allocator = (finalLayout c (layoutOf w) pages).allocator ∧
        w'.entries = (finalLayout c (layoutOf w) pages).entries := by
  intro fuel
  induction fuel with
  | zero =>
    intro g size index w w' wf _ h
    simp only [walkPages, Option.some.injEq] at h
    subst h
    exact ⟨[], rfl, id, wf, rfl, rfl, rfl⟩
  | succ fuel ih =>
    intro g size index w w' wf expect h
    by_cases hz : size = 0
    · simp only [walkPages, if_pos hz, Option.some.injEq] at h
      subst h
      exact ⟨[], by simp only [placePages, if_pos hz], id, wf, rfl, rfl, rfl⟩
    · simp only [walkPages, if_neg hz, Option.bind_eq_some_iff] at h
      obtain ⟨page, hpage, h⟩ := h
      obtain ⟨hpg, hps⟩ := pageRequest_some hpage
      have hpos : 0 < page.size := by omega
      obtain ⟨hl, hp⟩ := walkPage_layout page wf expect
      have hreq : pageRequest c g size index (layoutOf w).physicalAddress = some page := hpage
      by_cases hstuck : (walkPage c page w).2 = 0
      · rw [if_pos hstuck, Option.some.injEq] at h
        subst h
        obtain ⟨hmode, h1, h2, h3⟩ := walkPage_stuck wf expect hpos hstuck
        refine ⟨[], ?_, stuck w _ hmode h1 h2 h3, h1 ▸ wf, ?_, h2, h3⟩
        · simp only [placePages, if_neg hz, hreq, Option.bind_some, ← hp, if_pos hstuck]
        · rw [h1]
          rfl
      · rw [if_neg hstuck] at h
        have expect' : c.mode = .Expect → (walkPage c page w).1.physicalAddress = none := by
          intro hmode
          have hnone := placePage_physicalAddress_none c page (s := layoutOf w) (expect hmode)
          rw [← hl] at hnone
          exact hnone
        obtain ⟨rest, hrest, hP, hwf, hfinal⟩ := ih _ _ _ _ w' (walkPage_wf page wf expect) expect' h
        refine ⟨page :: rest, ?_, ?_, hwf, ?_⟩
        · simp only [placePages, if_neg hz, hreq, Option.bind_some, ← hp, if_neg hstuck, ← hl, hrest,
            Option.map_some]
        · intro hall
          exact hP (visit page rest w wf expect hpos hstuck hall)
        · rw [hl] at hfinal
          exact hfinal

theorem placeTables_leafDepth (c : WalkContext) (last : NodeKind) (g : Nat) {x : Path}
    (hx : x.length = c.ppgtt.getNumLevels) (level : Nat) (s : Layout A) :
    (placeTables c last g level s).nodes x = s.nodes x := by
  induction level generalizing s with
  | zero => rfl
  | succ level ih =>
    unfold placeTables
    split
    · rfl
    · rw [ih]
      have hn := getNumLevels_ge c.ppgtt
      have hne : x ≠ slotPath c.ppgtt.getNumLevels (level + 1) g := by
        intro heq
        rw [heq, slotPath_length] at hx
        omega
      unfold placeTable
      simp only
      split
      · exact put_of_ne hne
      · rfl

omit [PhysicalAddressAllocator A] in
theorem placeRecord_nodes (page : PageRequest) (last : NodeKind) (q : Path) (s : Layout A) :
    (placeRecord page last q s).nodes = s.nodes := by
  unfold placeRecord
  simp only
  split
  · rfl
  · rfl

omit [PhysicalAddressAllocator A] in
theorem placeRecord_allocator (page : PageRequest) (last : NodeKind) (q : Path) (s : Layout A) :
    (placeRecord page last q s).allocator = s.allocator := by
  unfold placeRecord
  simp only
  split
  · rfl
  · rfl

/-- Among the leaves, placing a page touches the one it enters. -/
theorem placePage_leafDepth (c : WalkContext) (page : PageRequest) (s : Layout A) {x : Path}
    (hx : x.length = c.ppgtt.getNumLevels) (hne : x ≠ visitSlot c (page, s)) :
    (placePage c page s).1.nodes x = s.nodes x := by
  unfold placePage
  simp only
  split
  · rfl
  · rw [placeRecord_nodes]
    exact (put_of_ne hne).trans (placeTables_leafDepth c _ _ hx _ s)

theorem finalLayout_leafDepth (c : WalkContext) {x : Path} (hx : x.length = c.ppgtt.getNumLevels)
    (pages : List PageRequest) (s : Layout A)
    (hne : ∀ v ∈ visits c s pages, x ≠ visitSlot c v) :
    (finalLayout c s pages).nodes x = s.nodes x := by
  induction pages generalizing s with
  | nil => rfl
  | cons page rest ih =>
    have hrest := ih (placePage c page s).1 fun v hv => hne v (List.mem_cons_of_mem _ hv)
    exact hrest.trans (placePage_leafDepth c page s hx (hne _ List.mem_cons_self))

theorem placeTable_keeps (c : WalkContext) (g level : Nat) {s : Layout A} {p : Path}
    {m : PageNode} (h : s.nodes p = some m) : (placeTable c g level s).nodes p = some m := by
  unfold placeTable
  simp only
  split
  · rename_i hnone _
    refine (put_of_ne ?_).trans h
    intro heq
    rw [← heq, h] at hnone
    cases hnone
  · exact h

theorem placeTables_keeps (c : WalkContext) (last : NodeKind) (g level : Nat) {s : Layout A}
    {p : Path} {m : PageNode} (h : s.nodes p = some m) :
    (placeTables c last g level s).nodes p = some m := by
  induction level generalizing s with
  | zero => exact h
  | succ level ih =>
    unfold placeTables
    split
    · exact h
    · exact ih (placeTable_keeps c g (level + 1) h)

/-- Placing a page keeps every node but the leaf it enters, and the kind of that one. -/
theorem placePage_keeps (c : WalkContext) (page : PageRequest) {s : Layout A} {p : Path}
    {m : PageNode} (h : s.nodes p = some m) :
    ∃ m', (placePage c page s).1.nodes p = some m' ∧ m'.kind = m.kind ∧
      (p ≠ visitSlot c (page, s) → m' = m) := by
  unfold placePage
  simp only
  split
  · exact ⟨m, h, rfl, fun _ => rfl⟩
  · rw [placeRecord_nodes]
    have ht := placeTables_keeps c (lastTable c s.nodes page.gfxAddress) page.gfxAddress
      (c.ppgtt.getNumLevels - 1) h
    by_cases hp : p = visitSlot c (page, s)
    · refine ⟨_, by rw [hp]; exact put_self _ _ _, ?_, fun hne => absurd hp hne⟩
      rw [hp] at ht
      simp only [visitSlot] at ht
      simp only [ht]
      split
      · rfl
      · rfl
    · exact ⟨m, (put_of_ne hp).trans ht, rfl, fun _ => rfl⟩

end Placement
