import Aubstream.PendingWalks

/-!
# The leaf entries of 64KB pages

A round of a walk writes at most one leaf entry of a table of 64KB pages: that of
the leaf it ends at. The leaf is new, or it was pending and not listed yet, or a
supplied physical address has overridden it. Only a new leaf's address is noted.
-/

namespace LeafWrites
open EntryBits PathTree PhysicalAllocator PageNodes PageWalker TreeShape WalkPhases LeafStep
  Placement Translation PageEffect Ps64Flags PendingEntries PendingWalks MapCursor MapFrame

/-- A written leaf entry and the physical address of its page. -/
structure LeafEntry where
  entry : PageEntryInfo
  page : Nat

/-- A walk has more entries and more noted pages than before. -/
structure WritesMore {A : Type} (w w' : WalkState A) : Prop where
  entries : ∀ l e, e ∈ w.pageWalkEntries l → e ∈ w'.pageWalkEntries l
  pages : ∀ p, p ∈ w.pages64KB → p ∈ w'.pages64KB

section
variable {A : Type} [PhysicalAddressAllocator A]

/-- The leaf entry of a 64KB page in system memory that a round writes. -/
def writtenLeaf (c : WalkContext) (page : PageRequest) (w : WalkState A) : Option LeafEntry :=
  let r := walkLevels c page (c.ppgtt.getNumLevels - 1) [] c.requestedPageSize
    c.requestedLeafLevel w
  match r.child with
  | none => none
  | some q => match r.state.nodes q with
    | none => none
    | some leaf =>
      if r.pageSize = pageSize64KB ∧ leaf.memoryBank = mainBank ∧
          r.state.pageWalkEntries Pte ≠ w.pageWalkEntries Pte then
        some ⟨entryOf c.gpu r.state.nodes q leaf, leaf.physicalAddress⟩
      else none

/-- The same of all rounds; the recursion is that of `walkPages`. -/
def writtenLeaves (c : WalkContext) : Nat → Nat → Nat → Nat → WalkState A → List LeafEntry
  | 0, _, _, _, _ => []
  | fuel + 1, gfxAddress, size, cloneIndex, w =>
    if size = 0 then []
    else match pageRequest c gfxAddress size cloneIndex w.physicalAddress with
      | none => []
      | some page =>
        let r := walkPage c page w
        (writtenLeaf c page w).toList ++ if r.2 = 0 then []
          else writtenLeaves c fuel (gfxAddress + r.2) (size - r.2) (cloneIndex + 1) r.1

end

/-- How a round comes to write the leaf entry of slot `q`. -/
inductive WriteCase {A : Type} [PhysicalAddressAllocator A] (c : WalkContext) (page : PageRequest)
    (w : WalkState A) (q : Path) (e : LeafEntry) : Prop where
  | created (missing : w.nodes q = none) (own : page.clonePageInfo = none)
      (system : page.pageMemoryBank = mainBank)
      (noted : c.mode = .Reserve → c.allocationParams.memoryBanks = mainBank →
        e.page ∈ (walkPage c page w).1.pages64KB)
  | cloned (info : PageInfo) (missing : w.nodes q = none) (record : page.clonePageInfo = some info)
      (system : info.memoryBank = mainBank)
      (address : e.page = info.physicalAddress - info.physicalAddress % pageSize64KB)
  | pending (n : PageNode) (standing : w.nodes q = some n) (cursor : w.physicalAddress = none)
      (system : n.memoryBank = mainBank) (pending : n.pendingWrite = true)
      (fresh : q ∉ w.pendingNodes Pte) (address : e.page = n.physicalAddress)
  | overridden (n : PageNode) (p : Nat) (standing : w.nodes q = some n)
      (cursor : w.physicalAddress = some p) (system : page.pageMemoryBank = mainBank)
      (address : e.page = p)

section
variable {A : Type}

theorem WritesMore.refl (w : WalkState A) : WritesMore w w := ⟨fun _ _ h => h, fun _ h => h⟩

theorem WritesMore.trans {w w' w'' : WalkState A} (h : WritesMore w w') (h' : WritesMore w' w'') :
    WritesMore w w'' :=
  ⟨fun l e he => h'.entries l e (h.entries l e he), fun p hp => h'.pages p (h.pages p hp)⟩

theorem writesMore_emitAndTrack (gpu : Gpu) (level : Nat) (q : Path) (w : WalkState A) :
    WritesMore w (emitAndTrack gpu level q w) := by
  constructor
  · exact fun l e he => mem_emitAndTrack_entries.mpr (Or.inl he)
  · obtain ⟨e, p, h⟩ := emitAndTrack_frame gpu level q w
    rw [h]
    exact fun _ hp => hp

theorem writesMore_completeSlot (gpu : Gpu) (level : Nat) (q : Path) (w : WalkState A) :
    WritesMore w (completeSlot gpu level q w) := by
  constructor
  · intro l e he
    cases hq : w.nodes q with
    | none => rwa [completeSlot_none hq]
    | some m =>
      rw [completeSlot_eq hq]
      exact mem_emitSlot_entries.mpr (Or.inl he)
  · obtain ⟨e, p, h⟩ := completeSlot_frame gpu level q w
    rw [h]
    exact fun _ hp => hp

theorem writesMore_downgradeSlot (gpu : Gpu) (level : Nat) (q : Path) (w : WalkState A) :
    WritesMore w (downgradeSlot gpu level q w) := by
  constructor
  · intro l e he
    cases hq : w.nodes q with
    | none => simpa only [downgradeSlot, hq] using he
    | some m =>
      rw [downgradeSlot_eq hq]
      exact mem_emitAndTrack_entries.mpr (Or.inl he)
  · obtain ⟨e, p, h⟩ := downgradeSlot_frame gpu level q w
    rw [h]
    exact fun _ hp => hp

end

section
variable {A : Type} [PhysicalAddressAllocator A]

omit [PhysicalAddressAllocator A] in
theorem writesMore_emitChild (c : WalkContext) (level : Nat) (q : Path) (emitEntry : Bool)
    (w : WalkState A) : WritesMore w (emitChild c level q emitEntry w) := by
  unfold emitChild
  split
  · exact writesMore_emitAndTrack c.gpu level q w
  · exact .refl w

omit [PhysicalAddressAllocator A] in
theorem writesMore_updatePs64 (c : WalkContext) (page : PageRequest) (level : Nat) (parent : Path)
    (index : Nat) (was : Bool) (w : WalkState A) :
    WritesMore w (updatePs64 c page level parent index was w) := by
  unfold updatePs64
  simp only
  split
  · exact List.foldlRecOn _ _ (.refl w) fun w' h q _ =>
      h.trans (writesMore_completeSlot c.gpu level q w')
  · split
    · exact List.foldlRecOn _ _ (.refl w) fun w' h q _ =>
        h.trans (writesMore_downgradeSlot c.gpu level q w')
    · cases w.nodes (index :: parent) with
      | none => exact .refl w
      | some child =>
        have emitted : ∀ w', WritesMore w w' →
            WritesMore w (emitAndTrack c.gpu level (index :: parent) w') :=
          fun w' h => h.trans (writesMore_emitAndTrack c.gpu level (index :: parent) w')
        apply emitted
        split
        · exact ⟨fun _ _ h => h, fun _ h => h⟩
        · exact .refl w

theorem writesMore_tableStep (c : WalkContext) (level : Nat) (parent : PageNode) (q : Path)
    (w : WalkState A) : WritesMore w (tableStep c level parent q w) := by
  unfold tableStep
  split
  · have hcreate : WritesMore w (createTable c level parent q w) :=
      ⟨fun _ _ h => h, fun _ h => h⟩
    exact hcreate.trans (writesMore_emitChild c level q true _)
  · exact writesMore_emitChild c level q false w

/-- A leaf that is created at the last level in Reserve mode, in system memory and of 64KB, is
noted. -/
theorem enterChild_pages64KB (c : WalkContext) (page : PageRequest) (level size : Nat)
    (parent : PageNode) (q : Path) (w : WalkState A) :
    (enterChild c page level level size parent q w).1.pages64KB =
      if w.nodes q = none ∧ level = Pte ∧ c.mode = .Reserve ∧
          c.allocationParams.memoryBanks = mainBank ∧ size = pageSize64KB then
        w.pages64KB ++ [(newLeaf c page size w.physicalAddress w.allocator).1.physicalAddress]
      else w.pages64KB := by
  have hremap : ∀ w' : WalkState A, (remapChild page level level q w').1.pages64KB =
      w'.pages64KB := by
    intro w'
    unfold remapChild
    split
    · rw [if_pos rfl]
      rfl
    · rfl
  simp only [enterChild, hremap]
  cases hq : w.nodes q with
  | none => simp only [Option.isNone_none, if_true, createChild, newChild, true_and]
  | some n => simp only [Option.isNone_some, Bool.false_eq_true, if_false, reduceCtorEq, false_and]

theorem writesMore_enterChild (c : WalkContext) (page : PageRequest) (level size : Nat)
    (parent : PageNode) (q : Path) (w : WalkState A) :
    WritesMore w (enterChild c page level level size parent q w).1 := by
  constructor
  · obtain ⟨pages, h⟩ := enterChild_leaf c page level size parent q w
    rw [h]
    exact fun _ _ he => he
  · intro p hp
    rw [enterChild_pages64KB]
    split
    · exact List.mem_append_left _ hp
    · exact hp

theorem writesMore_leafStep (c : WalkContext) (page : PageRequest) (last : NodeKind)
    (parent : PageNode) (w : WalkState A) : WritesMore w (leafStep c page last parent w) := by
  unfold leafStep
  simp only
  split
  · exact .refl w
  · have hcursor : WritesMore w (alignedState last w) := ⟨fun _ _ h => h, fun _ h => h⟩
    have henter := hcursor.trans (writesMore_enterChild c page (leafLevel last) last.getPageSize
      parent (leafSlot c.ppgtt.getNumLevels last page.gfxAddress) _)
    split
    · exact henter.trans (writesMore_updatePs64 ..)
    · exact henter.trans (writesMore_emitChild ..)

omit [PhysicalAddressAllocator A] in
theorem recordPage_writes (page : PageRequest) (pageSize passed : Nat) (q : Path)
    (w : WalkState A) :
    (recordPage page pageSize passed q w).pageWalkEntries = w.pageWalkEntries ∧
      (recordPage page pageSize passed q w).pages64KB = w.pages64KB := by
  unfold recordPage
  split
  · exact ⟨rfl, rfl⟩
  · exact ⟨rfl, rfl⟩

theorem writesMore_walkPage {c : WalkContext} (page : PageRequest) {w : WalkState A}
    (wf : Wf c.ppgtt.getNumLevels w.nodes) (hmode : c.mode ≠ .Expect) :
    WritesMore w (walkPage c page w).1 := by
  have hrule := walkPage_rule page (P := fun _ w' => WritesMore w w') wf
    (fun hexpect => absurd hexpect hmode)
    (fun level w' parent _ _ _ _ h => h.trans (writesMore_tableStep ..)) (.refl w)
  rcases hrule with ⟨w', parent, _, hmore, _, _, hw⟩ | ⟨_, _, _, _, hexpect, _, _⟩
  · have hleaf := hmore.trans (writesMore_leafStep c page
      (lastTable c w.nodes page.gfxAddress) parent w')
    obtain ⟨hentries, hpages⟩ := recordPage_writes page
      (lastTable c w.nodes page.gfxAddress).getPageSize
      (sizeThisIteration page (lastTable c w.nodes page.gfxAddress).getPageSize)
      (leafSlot c.ppgtt.getNumLevels (lastTable c w.nodes page.gfxAddress) page.gfxAddress)
      (leafStep c page (lastTable c w.nodes page.gfxAddress) parent w')
    rw [hw]
    exact ⟨hentries ▸ hleaf.entries, hpages ▸ hleaf.pages⟩
  · exact absurd hexpect hmode

/-- A table step emits at its own level. -/
theorem quiet_tableStep {c : WalkContext} {page : PageRequest} {last : NodeKind}
    (w₀ : WalkState A) : TableStep c page last fun _ (w : WalkState A) =>
      w.pageWalkEntries Pte = w₀.pageWalkEntries Pte ∧ w.pages64KB = w₀.pages64KB := by
  intro level w parent _ _ _ _ ⟨hentries, hpages⟩
  have emitted : ∀ (flag : Bool) (w' : WalkState A) q,
      (emitChild c (level + 1) q flag w').pageWalkEntries Pte = w'.pageWalkEntries Pte ∧
        (emitChild c (level + 1) q flag w').pages64KB = w'.pages64KB := by
    intro flag w' q
    have hne : Pte ≠ level + 1 := (Nat.succ_ne_zero level).symm
    constructor
    · have hpush : (w'.pushEntry c.gpu (level + 1) q).pageWalkEntries Pte =
          w'.pageWalkEntries Pte := by
        unfold WalkState.pushEntry
        split
        · rfl
        · simp only [if_neg hne]
      unfold emitChild emitAndTrack
      simp only
      split
      · split
        · exact hpush
        · exact hpush
      · rfl
    · obtain ⟨_, _, h⟩ := emitChild_frame c (level + 1) q flag w'
      rw [h]
  unfold tableStep
  split
  · obtain ⟨h1, h2⟩ := emitted true (createTable c (level + 1) parent
      (slotPath c.ppgtt.getNumLevels (level + 1) page.gfxAddress) w)
      (slotPath c.ppgtt.getNumLevels (level + 1) page.gfxAddress)
    exact ⟨h1.trans hentries, h2.trans hpages⟩
  · obtain ⟨h1, h2⟩ := emitted false w (slotPath c.ppgtt.getNumLevels (level + 1) page.gfxAddress)
    exact ⟨h1.trans hentries, h2.trans hpages⟩

/-- Entering a leaf of a table of 64KB pages. -/
theorem leafStep_64KB {c : WalkContext} {page : PageRequest} {k : PteKind} {parent : PageNode}
    (h64KB : k.getPageSize = pageSize64KB) (hkind : parent.kind = .pte k) (w : WalkState A) :
    leafStep c page (.pte k) parent w =
      emitChild c Pte (leafSlot c.ppgtt.getNumLevels (.pte k) page.gfxAddress)
        (enterChild c page Pte Pte pageSize64KB parent
          (leafSlot c.ppgtt.getNumLevels (.pte k) page.gfxAddress) w).2
        (enterChild c page Pte Pte pageSize64KB parent
          (leafSlot c.ppgtt.getNumLevels (.pte k) page.gfxAddress) w).1 := by
  have hcursor : alignCursor Pte Pte k.getPageSize w.physicalAddress = w.physicalAddress := by
    cases w.physicalAddress with
    | none => rfl
    | some p => exact leafCursor_pte k p
  have hcheck : checkPs64 c Pte (.pte k) = false := by
    refine Bool.eq_false_iff.mpr fun h => ?_
    have h4096 := (checkPs64_iff.mp h).2.2
    rw [NodeKind.getPageSize, h64KB] at h4096
    cases h4096
  have hexisting : ∀ child, isExisting2MB Pte child = false := by
    intro child
    refine Bool.eq_false_iff.mpr fun h => ?_
    exact absurd (isExisting2MB_some h).1 Nat.zero_ne_one
  simp only [leafStep, leafLevel, hexisting, Bool.false_and, Bool.false_eq_true, if_false, hkind,
    hcheck, NodeKind.getPageSize, hcursor]
  rw [h64KB]

/-- The new leaf of an empty slot. -/
theorem enteredLeaf_missing {c : WalkContext} {page : PageRequest} {q : Path} {w : WalkState A}
    (hq : w.nodes q = none) (clones : page.clonePageInfo ≠ none → w.physicalAddress = none) :
    (∃ info, page.clonePageInfo = some info ∧
      (enteredLeaf c page pageSize64KB q w).memoryBank = info.memoryBank ∧
      (enteredLeaf c page pageSize64KB q w).physicalAddress =
        info.physicalAddress - info.physicalAddress % pageSize64KB) ∨
    (page.clonePageInfo = none ∧
      (enteredLeaf c page pageSize64KB q w).memoryBank = page.pageMemoryBank ∧
      (enteredLeaf c page pageSize64KB q w).physicalAddress =
        (newLeaf c page pageSize64KB w.physicalAddress w.allocator).1.physicalAddress) := by
  cases hinfo : page.clonePageInfo with
  | some info =>
    have hphys := clones (by rw [hinfo]; simp)
    refine Or.inl ⟨info, rfl, ?_⟩
    simp only [enteredLeaf, hphys, overrideLeaf, providedLeaf, hq, newLeaf, hinfo, foreignNode,
      PageNode.setPendingWrite, and_self]
  | none =>
    refine Or.inr ⟨rfl, ?_⟩
    cases hphys : w.physicalAddress with
    | none =>
      simp only [enteredLeaf, hphys, overrideLeaf, providedLeaf, hq, newLeaf, hinfo, constructNode,
        PageNode.setPendingWrite, and_self]
    | some p =>
      simp only [enteredLeaf, hphys, overrideLeaf, providedLeaf, hq, newLeaf, hinfo, foreignNode,
        PageNode.setPendingWrite, remapNode, needsRemap, bne_self_eq_false, Bool.or_self,
        Bool.false_eq_true, if_false, and_self]

/-- What entering a leaf of a table of 64KB pages writes, where it writes an entry. -/
theorem leafStep_writes {c : WalkContext} {page : PageRequest} {k : PteKind} {parent leaf : PageNode}
    {w : WalkState A} (h64KB : k.getPageSize = pageSize64KB) (hkind : parent.kind = .pte k)
    (hleaf : (leafStep c page (.pte k) parent w).nodes
      (leafSlot c.ppgtt.getNumLevels (.pte k) page.gfxAddress) = some leaf)
    (writes : (leafStep c page (.pte k) parent w).pageWalkEntries Pte ≠ w.pageWalkEntries Pte) :
    leaf = enteredLeaf c page pageSize64KB
        (leafSlot c.ppgtt.getNumLevels (.pte k) page.gfxAddress) w ∧
      entryOf c.gpu (leafStep c page (.pte k) parent w).nodes
        (leafSlot c.ppgtt.getNumLevels (.pte k) page.gfxAddress) leaf ∈
          (leafStep c page (.pte k) parent w).pageWalkEntries Pte ∧
      (leafStep c page (.pte k) parent w).pages64KB =
        (if w.nodes (leafSlot c.ppgtt.getNumLevels (.pte k) page.gfxAddress) = none ∧ Pte = Pte ∧
            c.mode = .Reserve ∧ c.allocationParams.memoryBanks = mainBank ∧
            pageSize64KB = pageSize64KB then
          w.pages64KB ++ [(newLeaf c page pageSize64KB w.physicalAddress
            w.allocator).1.physicalAddress]
        else w.pages64KB) ∧
      (∀ n, w.nodes (leafSlot c.ppgtt.getNumLevels (.pte k) page.gfxAddress) = some n →
        w.physicalAddress = none → n.pendingWrite = true ∧
          leafSlot c.ppgtt.getNumLevels (.pte k) page.gfxAddress ∉ w.pendingNodes Pte) := by
  have hpages := enterChild_pages64KB c page Pte pageSize64KB parent
    (leafSlot c.ppgtt.getNumLevels (.pte k) page.gfxAddress) w
  obtain ⟨pages, henter⟩ := enterChild_leaf c page Pte pageSize64KB parent
    (leafSlot c.ppgtt.getNumLevels (.pte k) page.gfxAddress) w
  rw [leafStep_64KB h64KB hkind] at hleaf writes ⊢
  generalize leafSlot c.ppgtt.getNumLevels (.pte k) page.gfxAddress = q at *
  rw [henter] at hleaf writes hpages ⊢
  obtain ⟨e, p, hframe⟩ := emitChild_frame c Pte q ((w.nodes q).isNone ||
    isOverridden page w.physicalAddress (providedLeaf c page pageSize64KB q w).1)
    { w with
      nodes := put w.nodes q (enteredLeaf c page pageSize64KB q w)
      allocator := (providedLeaf c page pageSize64KB q w).2
      pages64KB := pages }
  have hentered : leaf = enteredLeaf c page pageSize64KB q w := by
    rw [hframe] at hleaf
    exact (Option.some.inj (hleaf.symm.trans (put_self _ _ _)))
  refine ⟨hentered, ?_, ?_, ?_⟩
  · unfold emitChild at writes ⊢
    split at writes
    · rename_i hemits
      rw [if_pos hemits, emitAndTrack_nodes]
      exact mem_emitAndTrack_entries.mpr (Or.inr ⟨rfl, leaf, by rw [hentered]; exact put_self _ _ _,
        rfl⟩)
    · exact absurd rfl writes
  · rw [hframe]
    exact hpages
  · intro n hn hphys
    unfold emitChild at writes
    split at writes
    · rename_i hemits
      simp only [hn, hphys, Option.isNone_some, isOverridden, Bool.false_or, Option.isSome_none]
        at hemits
      obtain ⟨⟨m, hm, hpending⟩, hfresh⟩ := isNewPending_iff.mp hemits
      have hsame : m = n := by
        have hm' := Option.some.inj (hm.symm.trans (put_self _ _ _))
        rw [hm']
        simp only [enteredLeaf, hphys, overrideLeaf, providedLeaf, hn]
      exact ⟨hsame ▸ hpending, hfresh⟩
    · exact absurd rfl writes

theorem getPageSize_64KB {kind : NodeKind} (h : IsRegion kind) (h64KB : kind.getPageSize = pageSize64KB) :
    ∃ k : PteKind, kind = .pte k ∧ k.getPageSize = pageSize64KB := by
  cases h with
  | pte k => exact ⟨k, rfl, h64KB⟩
  | page2MB => cases h64KB

/-- What a round writes, if it writes a leaf entry of a 64KB page in system memory. -/
theorem writtenLeaf_cases {c : WalkContext} {page : PageRequest} {w : WalkState A} {e : LeafEntry}
    (wf : Wf c.ppgtt.getNumLevels w.nodes) (hmode : c.mode ≠ .Expect)
    (clones : page.clonePageInfo ≠ none → w.physicalAddress = none)
    (h : writtenLeaf c page w = some e) :
    e.entry ∈ (walkPage c page w).1.pageWalkEntries Pte ∧
      (lastTable c w.nodes page.gfxAddress).getPageSize = pageSize64KB ∧
      WriteCase c page w (leafSlot c.ppgtt.getNumLevels (lastTable c w.nodes page.gfxAddress)
        page.gfxAddress) e := by
  have hn := getNumLevels_ge c.ppgtt
  have hrule := walkLevels_rule
    (P := fun _ w' => SameLeaves c.ppgtt.getNumLevels w w' ∧
      w'.pageWalkEntries Pte = w.pageWalkEntries Pte ∧ w'.pages64KB = w.pages64KB)
    (fun level w' parent hat hleaf hp hm ⟨h1, h2⟩ =>
      ⟨sameLeaves_tableStep w level w' parent hat hleaf hp hm h1,
        quiet_tableStep w level w' parent hat hleaf hp hm h2⟩)
    (c.ppgtt.getNumLevels - 1) w c.requestedPageSize c.requestedLeafLevel
    (atLevel_top page wf fun hexpect => absurd hexpect hmode)
    ⟨fun _ => ⟨rfl, rfl⟩, fun h => by omega⟩ ⟨⟨rfl, rfl, fun _ _ => rfl⟩, rfl, rfl⟩
  rw [Nat.sub_add_cancel (by omega), slotPath_root] at hrule
  rcases hrule with ⟨⟨w₁, parent, hat, ⟨hsame, hentries, hpages⟩, hp, _, hs⟩, hc, hps⟩ | missing
  · have hwalk : (walkPage c page w).1.pageWalkEntries = (walkLevels c page
        (c.ppgtt.getNumLevels - 1) [] c.requestedPageSize c.requestedLeafLevel
        w).state.pageWalkEntries ∧ (walkPage c page w).1.pages64KB = (walkLevels c page
        (c.ppgtt.getNumLevels - 1) [] c.requestedPageSize c.requestedLeafLevel
        w).state.pages64KB := by
      simp only [walkPage, hc]
      exact recordPage_writes ..
    simp only [writtenLeaf, hc, hps] at h
    rw [hwalk.1]
    split at h
    · cases h
    · rename_i leaf hleaf
      split at h
      · rename_i hwrites
        obtain ⟨h64KB, hsystem, hwrites⟩ := hwrites
        obtain rfl := Option.some.inj h
        obtain ⟨k, hlast, hk⟩ := getPageSize_64KB (isRegion_lastTable wf page.gfxAddress) h64KB
        rw [hlast] at hs hat hp hleaf ⊢
        have depth : (leafSlot c.ppgtt.getNumLevels (.pte k) page.gfxAddress).length =
            c.ppgtt.getNumLevels := (leafSlot_depth hat).1
        have hnode := hsame.nodes _ depth
        rw [hs] at hleaf hwrites hwalk ⊢
        rw [← hentries] at hwrites
        obtain ⟨hentered, hentry, hnoted, hpending⟩ :=
          leafStep_writes hk (hat.parent_kind_pte hp) hleaf hwrites
        refine ⟨hentry, hk, ?_⟩
        cases hq : w.nodes (leafSlot c.ppgtt.getNumLevels (.pte k) page.gfxAddress) with
        | none =>
          rw [hq] at hnode
          have hclones : page.clonePageInfo ≠ none → w₁.physicalAddress = none :=
            fun hne => hsame.physicalAddress.trans (clones hne)
          rcases @enteredLeaf_missing _ _ c page _ w₁ hnode hclones with
            ⟨info, hinfo, hbank, hphys⟩ | ⟨hinfo, hbank, hphys⟩
          · rw [← hentered] at hbank hphys
            exact .cloned info hq hinfo (hbank.symm.trans hsystem) hphys
          · rw [← hentered] at hbank hphys
            refine .created hq hinfo (hbank.symm.trans hsystem) fun hreserve hbanks => ?_
            rw [hwalk.2, hnoted, if_pos ⟨hnode, rfl, hreserve, hbanks, rfl⟩]
            exact List.mem_append_right _ (List.mem_singleton.mpr hphys)
        | some n =>
          rw [hq] at hnode
          cases hphys : w.physicalAddress with
          | none =>
            have hcursor := hsame.physicalAddress.trans hphys
            obtain ⟨hpend, hfresh⟩ := hpending n hnode hcursor
            have hkept : leaf = n := by
              simp only [hentered, enteredLeaf, hcursor, overrideLeaf, providedLeaf, hnode]
            exact .pending n hq hphys (hkept ▸ hsystem) hpend (hsame.pendingNodes ▸ hfresh)
              (congrArg PageNode.physicalAddress hkept)
          | some p =>
            have hcursor := hsame.physicalAddress.trans hphys
            obtain ⟨hbank, haddress⟩ : leaf.memoryBank = page.pageMemoryBank ∧
                leaf.physicalAddress = p := by
              simp only [hentered, enteredLeaf, hcursor, overrideLeaf, providedLeaf, hnode, remapNode,
                needsRemap]
              split
              · exact ⟨rfl, rfl⟩
              · rename_i hquiet
                simpa [and_comm] using hquiet
            exact .overridden n p hq hphys (hbank.symm.trans hsystem) haddress
      · cases h
  · exact absurd missing.expect hmode

end

end LeafWrites
