import Aubstream.HardwareWalk
import Aubstream.LeafWrites

/-!
# The entries that a walk collects

An entry goes to a slot of a table and says of the node there what the hardware
reads: where the table below is, or that a page is large. Both stay true for the
rest of the walk, which leaves tables where they are.
-/

namespace EmittedEntries
open EntryBits PathTree PhysicalAllocator PageNodes PageWalker TreeShape WalkPhases LeafStep
  Placement Translation Ps64Flags PendingEntries PendingWalks TableRuns HardwareWalk

/-- A walk changes the addresses and banks of pages, and of tables nothing but flags. -/
structure SameNode (m m' : PageNode) : Prop where
  kind : m'.kind = m.kind
  allocator : m'.allocator = m.allocator
  table : ¬ IsLeaf m.kind → m'.physicalAddress = m.physicalAddress ∧ m'.memoryBank = m.memoryBank

/-- Nodes stay. -/
def Grows (t t' : Nodes) : Prop := ∀ q m, t q = some m → ∃ m', t' q = some m' ∧ SameNode m m'

/-- A slot of a table. -/
def InTable (t : Nodes) (q : Path) : Prop :=
  ∃ i p parent, q = i :: p ∧ t p = some parent ∧ hasIndex i parent.kind

/-- The entry of a node in a slot. -/
def Emitted (gpu : Gpu) (t : Nodes) (e : PageEntryInfo) : Prop :=
  ∃ i p parent child, t p = some parent ∧ hasIndex i parent.kind ∧ t (i :: p) = some child ∧
    e.physicalAddress = parent.physicalAddress + i * 8 ∧ e.tableEntry < 2 ^ 64 ∧
    EntryFor gpu child e.tableEntry

/-- Tables own their pages in the bank of the root. -/
def TablesOwn (memoryBank : Nat) (t : Nodes) : Prop :=
  ∀ p m, t p = some m → ¬ IsLeaf m.kind → m.memoryBank = memoryBank ∧
    m.allocator = some ⟨memoryBank, m.physicalAddress, 4096⟩

/-- A part of a walk. -/
structure Emits {A : Type} (gpu : Gpu) (w w' : WalkState A) : Prop where
  grows : Grows w.nodes w'.nodes
  tables : ∀ memoryBank, TablesOwn memoryBank w.nodes → TablesOwn memoryBank w'.nodes
  entries : ∀ l e, e ∈ w'.pageWalkEntries l → e ∈ w.pageWalkEntries l ∨ Emitted gpu w'.nodes e

/-! ### Nodes -/

section Nodes
variable {gpu : Gpu} {t t' t'' : Nodes} {q : Path} {m m' m'' n : PageNode} {e : PageEntryInfo}

theorem not_isLeaf_of_hasIndex {i : Nat} {kind : NodeKind} (h : hasIndex i kind) : ¬ IsLeaf kind := by
  intro hleaf
  cases hleaf with
  | memory => exact h
  | page2MB => exact h

theorem SameNode.refl (m : PageNode) : SameNode m m := ⟨rfl, rfl, fun _ => ⟨rfl, rfl⟩⟩

theorem SameNode.trans (h : SameNode m m') (h' : SameNode m' m'') : SameNode m m'' := by
  refine ⟨h'.kind.trans h.kind, h'.allocator.trans h.allocator, fun htable => ?_⟩
  obtain ⟨haddress, hbank⟩ := h.table htable
  obtain ⟨haddress', hbank'⟩ := h'.table (h.kind ▸ htable)
  exact ⟨haddress'.trans haddress, hbank'.trans hbank⟩

theorem SameNode.of_core (h : core m' = core m) : SameNode m m' := by
  simp only [core, PageNode.mk.injEq] at h
  exact ⟨h.1, h.2.2.2.1, fun _ => ⟨h.2.1, h.2.2.1⟩⟩

/-- A leaf with another address or bank. -/
theorem SameNode.of_leaf (hkind : m'.kind = m.kind) (halloc : m'.allocator = m.allocator)
    (hleaf : IsLeaf m.kind) : SameNode m m' :=
  ⟨hkind, halloc, fun htable => absurd hleaf htable⟩

theorem Grows.refl (t : Nodes) : Grows t t := fun _ m hm => ⟨m, hm, .refl m⟩

theorem Grows.trans (h : Grows t t') (h' : Grows t' t'') : Grows t t'' := by
  intro q m hm
  obtain ⟨m', hm', same⟩ := h q m hm
  obtain ⟨m'', hm'', same'⟩ := h' q m' hm'
  exact ⟨m'', hm'', same.trans same'⟩

theorem Grows.inTable (h : Grows t t') (slot : InTable t q) : InTable t' q := by
  obtain ⟨i, p, parent, rfl, hp, hi⟩ := slot
  obtain ⟨parent', hp', same⟩ := h p parent hp
  exact ⟨i, p, parent', rfl, hp', same.kind ▸ hi⟩

theorem grows_put (h : ∀ m, t q = some m → SameNode m n) : Grows t (put t q n) := by
  intro p m hm
  by_cases hp : p = q
  · subst p
    exact ⟨n, put_self _ _ _, h m hm⟩
  · exact ⟨m, by rw [put_of_ne hp, hm], .refl m⟩

theorem tablesOwn_put {memoryBank : Nat} (h : TablesOwn memoryBank t)
    (here : ¬ IsLeaf n.kind → n.memoryBank = memoryBank ∧
      n.allocator = some ⟨memoryBank, n.physicalAddress, 4096⟩) :
    TablesOwn memoryBank (put t q n) := by
  intro p m hm htable
  by_cases hp : p = q
  · subst p
    rw [put_self, Option.some.injEq] at hm
    subst hm
    exact here htable
  · rw [put_of_ne hp] at hm
    exact h p m hm htable

/-- A node that replaces another owns what that owned. -/
theorem tablesOwn_put_same {memoryBank : Nat} (h : TablesOwn memoryBank t) (hq : t q = some m)
    (same : SameNode m n) : TablesOwn memoryBank (put t q n) := by
  refine tablesOwn_put h fun htable => ?_
  rw [same.kind] at htable
  obtain ⟨haddress, hbank⟩ := same.table htable
  obtain ⟨hm, hblock⟩ := h q m hq htable
  exact ⟨hbank.trans hm, by rw [same.allocator, hblock, haddress]⟩

theorem tableValue_congr (same : SameNode m m') (htable : ¬ IsLeaf m.kind) :
    m'.getEntryValue gpu = m.getEntryValue gpu := by
  have hkind := same.kind
  have haddress := (same.table htable).1
  unfold PageNode.getEntryValue
  rw [hkind, haddress]
  cases hk : m.kind with
  | directory => rfl
  | pte k =>
    cases k with
    | PTE4KB => rfl
    | PTE64KB => rfl
    | LegacyPTE64KB => rfl
  | page2MB => exact absurd (hk ▸ .page2MB) htable
  | memory => exact absurd (hk ▸ .memory) htable

theorem entryFor_self (gpu : Gpu) (m : PageNode) : EntryFor gpu m (m.getEntryValue gpu) := by
  refine ⟨fun _ => rfl, fun hk => ?_⟩
  have hbit : (toBitValue largePageSizeBit).testBit largePageSizeBit = true := by decide
  have hlow : largePageSizeBit < 64 := by decide
  simp only [PageNode.getEntryValue, hk, wrap64, Nat.testBit_mod_two_pow, hlow, Nat.testBit_or,
    hbit, decide_true, Bool.true_or, Bool.or_true, Bool.and_true]

theorem entryFor_mono {v : Nat} (same : SameNode m m') (h : EntryFor gpu m v) : EntryFor gpu m' v := by
  constructor
  · intro htable
    rw [same.kind] at htable
    rw [tableValue_congr same htable]
    exact h.table htable
  · intro hk
    exact h.large (same.kind.symm.trans hk)

theorem Emitted.mono (h : Emitted gpu t e) (grows : Grows t t') : Emitted gpu t' e := by
  obtain ⟨i, p, parent, child, hp, hi, hchild, haddress, hlt, hvalue⟩ := h
  obtain ⟨parent', hp', same⟩ := grows p parent hp
  obtain ⟨child', hchild', same'⟩ := grows _ child hchild
  refine ⟨i, p, parent', child', hp', same.kind ▸ hi, hchild', ?_, hlt, entryFor_mono same' hvalue⟩
  rw [(same.table (not_isLeaf_of_hasIndex hi)).1]
  exact haddress

/-- The entry that is read for a slot. -/
theorem emitted_entryOf (slot : InTable t q) (hq : t q = some m) : Emitted gpu t (entryOf gpu t q m) := by
  obtain ⟨i, p, parent, rfl, hp, hi⟩ := slot
  refine ⟨i, p, parent, m, hp, hi, hq, ?_, Nat.mod_lt _ (Nat.two_pow_pos 64), entryFor_self gpu m⟩
  simp only [entryOf, entryAddress, hp]

end Nodes

/-! ### Walks -/

section Steps
variable {A : Type} {gpu : Gpu} {w w' w'' : WalkState A} {q : Path}

theorem Emits.refl (w : WalkState A) : Emits gpu w w :=
  ⟨.refl _, fun _ h => h, fun _ _ he => Or.inl he⟩

theorem Emits.trans (h : Emits gpu w w') (h' : Emits gpu w' w'') : Emits gpu w w'' := by
  refine ⟨h.grows.trans h'.grows, fun bank own => h'.tables bank (h.tables bank own), ?_⟩
  intro l e he
  rcases h'.entries l e he with he' | emitted
  · exact (h.entries l e he').imp_right fun emitted => emitted.mono h'.grows
  · exact Or.inr emitted

/-- Nothing but entries and lists has changed. -/
theorem emits_of_entries (hnodes : w'.nodes = w.nodes)
    (entries : ∀ l e, e ∈ w'.pageWalkEntries l → e ∈ w.pageWalkEntries l ∨ Emitted gpu w.nodes e) :
    Emits gpu w w' := by
  refine ⟨?_, ?_, ?_⟩
  · rw [hnodes]
    exact .refl _
  · rw [hnodes]
    exact fun _ own => own
  · rw [hnodes]
    exact entries

theorem emits_of_put {n : PageNode} (hnodes : w'.nodes = put w.nodes q n)
    (same : ∀ m, w.nodes q = some m → SameNode m n)
    (new : ∀ bank, w.nodes q = none → TablesOwn bank w.nodes → ¬ IsLeaf n.kind →
      n.memoryBank = bank ∧ n.allocator = some ⟨bank, n.physicalAddress, 4096⟩)
    (entries : w'.pageWalkEntries = w.pageWalkEntries) : Emits gpu w w' := by
  refine ⟨?_, ?_, ?_⟩
  · rw [hnodes]
    exact grows_put same
  · intro bank own
    rw [hnodes]
    cases hq : w.nodes q with
    | none => exact tablesOwn_put own (new bank hq own)
    | some m => exact tablesOwn_put_same own hq (same m hq)
  · rw [entries]
    exact fun _ _ he => Or.inl he

theorem emits_emitAndTrack (level : Nat) (slot : InTable w.nodes q) :
    Emits gpu w (emitAndTrack gpu level q w) := by
  apply emits_of_entries (emitAndTrack_nodes gpu level q w)
  intro l e he
  rcases mem_emitAndTrack_entries.mp he with he | ⟨_, m, hm, rfl⟩
  · exact Or.inl he
  · exact Or.inr (emitted_entryOf slot hm)

theorem emits_emitSlot (level : Nat) (isNewPs64 : Bool) (slot : InTable w.nodes q) :
    Emits gpu w (emitSlot gpu level q isNewPs64 w) := by
  apply emits_of_entries (emitSlot_nodes gpu level q isNewPs64 w)
  intro l e he
  rcases mem_emitSlot_entries.mp he with he | ⟨_, _, m, hm, rfl⟩
  · exact Or.inl he
  · exact Or.inr (emitted_entryOf slot hm)

/-- A change of flags. -/
theorem emits_modify {f : PageNode → PageNode} (hf : ∀ m, core (f m) = core m) (q : Path) :
    Emits gpu w { w with nodes := modify w.nodes q f } := by
  cases hq : w.nodes q with
  | none =>
    rw [modify_none hq]
    exact .refl w
  | some m =>
    rw [modify_some hq]
    refine @emits_of_put _ _ _ _ q (f m) rfl ?_ ?_ rfl
    · intro m' hm'
      obtain rfl := Option.some.inj (hq.symm.trans hm')
      exact .of_core (hf m)
    · intro _ hnone
      rw [hq] at hnone
      cases hnone

theorem emits_completeSlot (level : Nat) (slot : InTable w.nodes q) :
    Emits gpu w (completeSlot gpu level q w) := by
  cases hq : w.nodes q with
  | none =>
    simp only [completeSlot, hq]
    exact .refl w
  | some m =>
    rw [completeSlot_eq hq]
    have marked := @emits_modify _ gpu w _ core_markPs64 q
    exact marked.trans (emits_emitSlot level _ (marked.grows.inTable slot))

theorem emits_downgradeSlot (level : Nat) (slot : InTable w.nodes q) :
    Emits gpu w (downgradeSlot gpu level q w) := by
  cases hq : w.nodes q with
  | none =>
    simp only [downgradeSlot, hq]
    exact .refl w
  | some m =>
    rw [downgradeSlot_eq hq]
    have unmarked := @emits_modify _ gpu w _ core_unmarkPs64 q
    exact unmarked.trans (emits_emitAndTrack level (unmarked.grows.inTable slot))

theorem emits_emitChild (c : WalkContext) (level : Nat) (emitEntry : Bool)
    (slot : InTable w.nodes q) : Emits c.gpu w (emitChild c level q emitEntry w) := by
  unfold emitChild
  split
  · exact emits_emitAndTrack level slot
  · exact .refl w

/-- A loop over slots of tables. -/
theorem emits_foldl {f : WalkState A → Path → WalkState A} {qs : List Path}
    (each : ∀ w' q, q ∈ qs → InTable w'.nodes q → Emits gpu w' (f w' q))
    (slots : ∀ q ∈ qs, InTable w.nodes q) : Emits gpu w (qs.foldl f w) := by
  refine List.foldlRecOn qs f (.refl w) fun w' h q hq => ?_
  exact h.trans (each w' q hq (h.grows.inTable (slots q hq)))

theorem emits_updatePs64 (c : WalkContext) (page : PageRequest) (level : Nat) {parent : Path}
    {index : Nat} (was : Bool) (slot : InTable w.nodes (index :: parent))
    (slots : ∀ q ∈ groupSlots parent (index - index % 16), InTable w.nodes q) :
    Emits c.gpu w (updatePs64 c page level parent index was w) := by
  unfold updatePs64
  simp only
  split
  · exact emits_foldl (fun _ _ _ => emits_completeSlot level) slots
  · split
    · exact emits_foldl (fun _ _ _ => emits_downgradeSlot level) slots
    · cases hq : w.nodes (index :: parent) with
      | none => exact .refl w
      | some child =>
        have emitted : ∀ w', Emits c.gpu w w' →
            Emits c.gpu w (emitAndTrack c.gpu level (index :: parent) w') :=
          fun w' h => h.trans (emits_emitAndTrack level (h.grows.inTable slot))
        apply emitted
        split
        · refine @emits_of_put _ _ _ _ (index :: parent) _ rfl ?_ ?_ rfl
          · intro m hm
            obtain rfl := Option.some.inj (hq.symm.trans hm)
            exact .of_core rfl
          · intro _ hnone
            rw [hq] at hnone
            cases hnone
        · exact .refl w

end Steps

section Pages
variable {A : Type} [PhysicalAddressAllocator A] {c : WalkContext} {page : PageRequest}
  {last : NodeKind} {w : WalkState A}

theorem emits_tableStep {level : Nat} {parent : PageNode} {p q : Path}
    (hp : w.nodes p = some parent) (htable : ¬ IsLeaf parent.kind) (slot : InTable w.nodes q) :
    Emits c.gpu w (tableStep c level parent q w) := by
  unfold tableStep
  split
  · rename_i hidle
    rw [Option.isNone_iff_eq_none] at hidle
    have created : Emits c.gpu w (createTable c level parent q w) := by
      refine @emits_of_put _ _ _ _ q (newTable c level parent w.allocator) rfl ?_ ?_ rfl
      · intro m hm
        rw [hidle] at hm
        cases hm
      · intro bank _ own hkind
        have hsize : tableSize level c.requestedPageSize = 4096 := by
          unfold tableSize
          refine if_neg fun h => hkind ?_
          change IsLeaf (tableKind c.ppgtt level c.requestedPageSize)
          rw [tableKind, if_pos h.1, if_pos h.2]
          exact .page2MB
        have hbank := (own p parent hp htable).1
        simp only [newTable, constructNode, PageNode.setPendingWrite, hsize, Nat.max_self, hbank,
          and_self]
    exact created.trans (emits_emitChild c level true (created.grows.inTable slot))
  · exact emits_emitChild c level false slot

omit [PhysicalAddressAllocator A] in
/-- What stands in the slot of a leaf is one. -/
theorem isLeaf_of_leafSlot (hat : AtLevel c page last (leafLevel last) w) {m : PageNode}
    (hm : w.nodes (leafSlot c.ppgtt.getNumLevels last page.gfxAddress) = some m) :
    IsLeaf m.kind := by
  have depth := (leafSlot_depth hat).1
  rcases hat.last_cases with ⟨k, rfl⟩ | rfl
  · rw [hat.wf.memory_of_length hm depth]
    exact .memory
  · have hfixes := hat.fixes (Nat.le_refl 1)
    have hslot : w.nodes (slotPath c.ppgtt.getNumLevels Pde page.gfxAddress) = some m := hm
    simp only [lastTable, hslot] at hfixes
    rw [hfixes]
    exact .page2MB

theorem enteredLeaf_allocator {q : Path} {m : PageNode} (size : Nat) (hq : w.nodes q = some m) :
    (enteredLeaf c page size q w).allocator = m.allocator := by
  simp only [enteredLeaf, providedLeaf, hq]
  unfold overrideLeaf
  split
  · rfl
  · unfold remapNode
    split
    · rfl
    · rfl

theorem leafKind_isLeaf (pageSize : Nat) : IsLeaf (leafKind pageSize) := by
  unfold leafKind
  split
  · exact .page2MB
  · exact .memory

theorem emits_leafStep {parent : PageNode} (hat : AtLevel c page last (leafLevel last) w)
    (hp : w.nodes (slotPath c.ppgtt.getNumLevels (leafLevel last + 1) page.gfxAddress) = some parent) :
    Emits c.gpu w (leafStep c page last parent w) := by
  obtain ⟨i, parent', hslot, hp', hi, _⟩ := leafSlot_parent hat
  obtain rfl : parent = parent' := Option.some.inj (hp.symm.trans hp')
  have slot : InTable w.nodes (leafSlot c.ppgtt.getNumLevels last page.gfxAddress) :=
    ⟨i, _, parent, hslot, hp, hi⟩
  unfold leafStep
  simp only
  split
  · exact .refl w
  · have aligned : Emits c.gpu w (alignedState last w) := emits_of_entries rfl fun _ _ he => Or.inl he
    obtain ⟨pages, henter⟩ := enterChild_leaf c page (leafLevel last) last.getPageSize parent
      (leafSlot c.ppgtt.getNumLevels last page.gfxAddress) (alignedState last w)
    have entered : Emits c.gpu w (enterChild c page (leafLevel last) (leafLevel last)
        last.getPageSize parent (leafSlot c.ppgtt.getNumLevels last page.gfxAddress)
        (alignedState last w)).1 := by
      have hkind := enteredLeaf_kind c page last.getPageSize
        (leafSlot c.ppgtt.getNumLevels last page.gfxAddress) (alignedState last w)
      simp only [alignedState] at hkind
      rw [henter]
      apply aligned.trans
      refine @emits_of_put _ _ _ _ (leafSlot c.ppgtt.getNumLevels last page.gfxAddress) _ rfl ?_ ?_ rfl
      · intro m hm
        have halloc := @enteredLeaf_allocator _ _ c page _ _ m last.getPageSize hm
        simp only [alignedState] at hm
        rw [hm] at hkind
        exact .of_leaf hkind halloc (isLeaf_of_leafSlot hat hm)
      · intro _ hnone _ htable
        simp only [alignedState] at hnone
        rw [hnone] at hkind
        exact absurd (hkind ▸ leafKind_isLeaf _) htable
    apply entered.trans
    split
    · rename_i hcheck
      obtain ⟨_, hlevel, h4KB⟩ := checkPs64_iff.mp hcheck
      obtain ⟨k, rfl⟩ : ∃ k, last = .pte k := by
        rcases hat.last_cases with hk | rfl
        · exact hk
        · cases hlevel
      have hkind := hat.parent_kind_pte hp
      rw [hkind] at h4KB ⊢
      obtain rfl : k = .PTE4KB := by
        cases k with
        | PTE4KB => rfl
        | PTE64KB => cases h4KB
        | LegacyPTE64KB => cases h4KB
      have hindex : PteKind.PTE4KB.getIndex page.gfxAddress < 512 := Nat.mod_lt _ (by decide)
      refine emits_updatePs64 c page _ _ (entered.grows.inTable slot) fun q hq => ?_
      obtain ⟨i, hi, rfl⟩ := mem_groupSlots.mp hq
      refine entered.grows.inTable ⟨_, _, parent, rfl, hp, ?_⟩
      rw [hkind]
      simp only [getIndex_pte, hasIndex]
      omega
    · exact emits_emitChild c _ _ (entered.grows.inTable slot)

theorem emits_walkPage (page : PageRequest) (wf : Wf c.ppgtt.getNumLevels w.nodes)
    (hmode : c.mode ≠ .Expect) : Emits c.gpu w (walkPage c page w).1 := by
  have hrule := walkPage_rule page (P := fun _ w' => Emits c.gpu w w') wf
    (fun hexpect => absurd hexpect hmode)
    (fun level w' parent hat hleaf hp _ emits => by
      have hkind := hat.parent_directory (by omega) hp
      refine emits.trans (emits_tableStep hp ?_ ⟨_, _, parent, slotPath_cons _ hat.below, hp, ?_⟩)
      · rw [hkind]
        exact not_isLeaf_of_hasIndex (directoryIndex_hasIndex 0 0)
      · rw [hkind]
        exact directoryIndex_hasIndex _ _) (.refl w)
  rcases hrule with ⟨w', parent, hat, emits, hp, _, hw⟩ | ⟨_, _, _, _, hexpect, _, _⟩
  · obtain ⟨hentries, _⟩ := LeafWrites.recordPage_writes page
      (lastTable c w.nodes page.gfxAddress).getPageSize
      (sizeThisIteration page (lastTable c w.nodes page.gfxAddress).getPageSize)
      (leafSlot c.ppgtt.getNumLevels (lastTable c w.nodes page.gfxAddress) page.gfxAddress)
      (leafStep c page (lastTable c w.nodes page.gfxAddress) parent w')
    rw [hw]
    refine (emits.trans (emits_leafStep hat hp)).trans (emits_of_entries ?_ ?_)
    · exact recordPage_nodes ..
    · rw [hentries]
      exact fun _ _ he => Or.inl he
  · exact absurd hexpect hmode

/-- The entries of a walk, on the tree that it leaves. -/
theorem emits_walk {gpu : Gpu} {enablePs64 : Bool} {ppgtt : PpgttKind} {t : Nodes} {a : A}
    {params : AllocationParams} {mode : WalkMode} {infos : List PageInfo} {phys : Option Nat}
    (wf : Wf ppgtt.getNumLevels t) (hmode : mode ≠ .Expect)
    (h : walkMemory gpu enablePs64 ppgtt t a params mode infos phys = some w) :
    Emits gpu (.start t a phys) w := by
  rcases walkMemory_some h with ⟨_, rfl⟩ | ⟨_, c, hc, hpages⟩
  · exact .refl _
  · obtain ⟨rfl, rfl, rfl, _⟩ := walkContext_some hc
    obtain ⟨_, emits⟩ := walkPages_runs (J := fun _ _ w => Emits c.gpu (.start t a phys) w) hmode
      (fun page w wf' _ emits => emits.trans (emits_walkPage page wf' hmode))
      _ _ _ _ _ w (Nat.le_refl _) wf hpages (.refl _)
    exact emits

end Pages

end EmittedEntries
