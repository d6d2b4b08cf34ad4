import Aubstream.FreedEntries
import Aubstream.FaithfulCalls

/-!
# Memory that mirrors tables

Every slot of a table in memory holds the entry of the node there. The walk of the
hardware is then the translation in the tables.
-/

namespace MirroredTables
open EntryBits PathTree PhysicalAllocator AllocatorBlocks PageNodes PageWalker FreeMemory TreeShape
  WalkPhases Placement Translation FreeRounds PendingEntries AubPackets AubManager WrittenPaths
  OwnedRuns StreamedMemory HardwareWalk EmittedEntries ClearedSlots LatestEntries FreedEntries
  FaithfulMemory MemoryBlocks AllocatorGrowth StreamedTables FaithfulCalls
open PageVisits (slotPath_above)

/-- The words of the slots are the entries of the nodes. -/
def Mirrored (gpu : Gpu) (t : Nodes) (read : Nat → Nat) : Prop :=
  ∀ p m i x, t p = some m → t (i :: p) = some x →
    read (m.physicalAddress + i * 8) = x.getEntryValue gpu

/-- The walk of the hardware, with the size of the page that it finds. -/
def walkPage (read : Nat → Nat) (x : Nat) : Nat → Nat → Option (Nat × Nat)
  | 0, _ => none
  | level + 1, table =>
    let entry := read (table + directoryIndex (level + 1) x * 8)
    if entry % 2 = 0 then none
    else if level = 0 then
      if entry.testBit largePageSizeBit then some (entry, pageSize2MB)
      else
        let leaf := read (tableAddress entry + (tableFormat entry).getIndex x * 8)
        if leaf % 2 = 0 then none else some (leaf, (tableFormat entry).getPageSize)
    else walkPage read x level (tableAddress entry)

/-! ### The walk of the hardware -/

theorem walkPage_fst (read : Nat → Nat) (x level table : Nat) :
    (walkPage read x level table).map (·.1) = walk read x level table := by
  induction level generalizing table with
  | zero => rfl
  | succ level ih =>
    simp only [walkPage, walk]
    split
    · rfl
    · split
      · split
        · rfl
        · split
          · rfl
          · rfl
      · exact ih _

section Walk
variable {gpu : Gpu} {n : Nat} {t : Nodes} {read : Nat → Nat} {m : PageNode}

/-- Every entry is present. -/
theorem getEntryValue_odd (gpu : Gpu) (m : PageNode) : m.getEntryValue gpu % 2 ≠ 0 := by
  have present : (m.getEntryValue gpu).testBit 0 = true := by
    have bit : (toBitValue presentBit).testBit 0 = true := by decide
    cases kind : m.kind with
    | pte k =>
      cases k <;>
        simp only [PageNode.getEntryValue, kind, wrap64, Nat.testBit_mod_two_pow, Nat.testBit_or, bit,
          Bool.or_true, Nat.zero_lt_succ, decide_true, Bool.and_self]
    | _ =>
      simp only [PageNode.getEntryValue, kind, wrap64, Nat.testBit_mod_two_pow, Nat.testBit_or, bit,
        Bool.or_true, Bool.true_or, Nat.zero_lt_succ, decide_true, Bool.and_self]
  rw [Nat.testBit_zero, decide_eq_true_eq] at present
  omega

/-- An empty slot is not present in memory. -/
theorem even_of_empty (faithful : Faithful gpu t read) {p : Path} {i : Nat} (hm : t p = some m)
    (hi : hasIndex i m.kind) (empty : t (i :: p) = none) :
    read (m.physicalAddress + i * 8) % 2 = 0 := by
  by_contra present
  obtain ⟨child, hchild, -⟩ := faithful p m i hm hi present
  cases empty.symm.trans hchild

theorem leafAt_above (wf : Wf n t) {x level : Nat} (hl : level + 1 ≤ n)
    (hlevel : 1 ≤ level + 1) (idle : t (slotPath n (level + 1) x) = none) : leafAt n t x = none := by
  by_contra mapped
  have region : t (slotPath n Pde x) ≠ none := by
    intro none
    apply mapped
    rw [leafAt, regionAt, none]
    rfl
  have above := @slotPath_above n Pde t wf x (level + 1 - Pde) (by unfold Pde; omega) region
  unfold Pde at above
  rw [Nat.add_sub_cancel' hlevel] at above
  exact above idle

/-- The entry that leads to a last-level table, or is the leaf. -/
theorem walkPage_region (wf : Wf n t) (aligned : TablesAligned t) (faithful : Faithful gpu t read)
    (mirrored : Mirrored gpu t read) {x : Nat} (hl : 1 < n) (hm : t (slotPath n 2 x) = some m) :
    walkPage read x 1 m.physicalAddress =
      (leafAt n t x).map fun leaf => (leaf.getEntryValue gpu, pageSizeAt n t x) := by
  have hk : m.kind = .directory := wf.directory_of_length hm (by rw [slotPath_length]; omega)
  have slot := slotPath_cons (n := n) (l := 1) x hl
  have hi : hasIndex (directoryIndex 1 x) m.kind := by
    rw [hk]
    exact directoryIndex_hasIndex 1 x
  simp only [walkPage, if_true]
  cases hregion : regionAt n t x with
  | none =>
    have empty : t (directoryIndex 1 x :: slotPath n 2 x) = none := by
      rw [← slot]
      exact hregion
    rw [if_pos (even_of_empty faithful hm hi empty), leafAt, hregion]
    rfl
  | some child =>
    have hchild : t (directoryIndex 1 x :: slotPath n 2 x) = some child := by
      rw [← slot]
      exact hregion
    have entry := mirrored _ m _ child hm hchild
    rw [entry, if_neg (getEntryValue_odd gpu child), leafAt_of_region hregion,
      pageSizeAt_of_region hregion]
    have hchild' : t (slotPath n 1 x) = some child := hregion
    rcases wf.table_of_length hchild' (by rw [slotPath_length]; omega) with ⟨k, hck⟩ | hck
    · have htable : ¬ IsLeaf child.kind := by
        rw [hck]
        intro leaf
        cases leaf
      obtain ⟨hdvd, hlt⟩ := aligned _ child hchild htable
      obtain ⟨hlarge, hformat, haddress⟩ := pte_format hdvd k
      have hindex : hasIndex (k.getIndex x) child.kind := by
        rw [hck]
        exact PteKind.getIndex_hasIndex k x
      rw [pte_value hdvd hlt hck, hlarge, hformat, haddress, hck, if_neg Bool.false_ne_true]
      cases hleaf : t (leafSlot n (.pte k) x) with
      | none => rw [if_pos (even_of_empty faithful hchild' hindex hleaf), Option.map_none]
      | some leaf =>
        rw [mirrored _ child _ leaf hchild' hleaf, if_neg (getEntryValue_odd gpu leaf), Option.map_some]
        rfl
    · have large := (entryFor_self gpu child).large hck
      have self : t (leafSlot n .page2MB x) = some child := hchild'
      rw [large, if_pos rfl, hck, self, Option.map_some]
      rfl

/-- The walk below a directory is the translation. -/
theorem walkPage_exact (wf : Wf n t) (aligned : TablesAligned t) (faithful : Faithful gpu t read)
    (mirrored : Mirrored gpu t read) (x : Nat) {level : Nat} (hl : level + 1 < n)
    (hm : t (slotPath n (level + 2) x) = some m) :
    walkPage read x (level + 1) m.physicalAddress =
      (leafAt n t x).map fun leaf => (leaf.getEntryValue gpu, pageSizeAt n t x) := by
  induction level generalizing m with
  | zero => exact walkPage_region wf aligned faithful mirrored hl hm
  | succ level ih =>
    have hk : m.kind = .directory := wf.directory_of_length hm (by rw [slotPath_length]; omega)
    have slot := slotPath_cons (n := n) (l := level + 2) x hl
    have hi : hasIndex (directoryIndex (level + 2) x) m.kind := by
      rw [hk]
      exact directoryIndex_hasIndex _ x
    rw [walkPage]
    simp only [Nat.add_one_ne_zero, if_false]
    cases hchild : t (slotPath n (level + 2) x) with
    | none =>
      rw [if_pos (even_of_empty faithful hm hi (slot ▸ hchild)),
        leafAt_above wf (by omega) (by omega) hchild, Option.map_none]
    | some child =>
      have hck : child.kind = .directory :=
        wf.directory_of_length hchild (by rw [slotPath_length]; omega)
      have htable : ¬ IsLeaf child.kind := by
        rw [hck]
        intro leaf
        cases leaf
      obtain ⟨hdvd, hlt⟩ := aligned _ child hchild htable
      rw [mirrored _ m _ child hm (slot ▸ hchild), if_neg (getEntryValue_odd gpu child),
        directory_value hdvd hlt hck, tableAddress_add hdvd (by decide)]
      exact ih (by omega) hchild

end Walk

/-! ### Writes -/

section Writes
variable {gpu : Gpu} {n : Nat} {t t' : Nodes} {image image' : AubPackets.Memory} {r : Region}

/-- The address of a slot. -/
theorem entryAddress_cons {p : Path} {m : PageNode} (i : Nat) (hm : t p = some m) :
    entryAddress t (i :: p) = m.physicalAddress + i * 8 := by
  rw [entryAddress, hm]

theorem lastAt_ne_none {es : List PageEntryInfo} {e : PageEntryInfo} (he : e ∈ es) :
    lastAt es e.physicalAddress ≠ none := by
  induction es with
  | nil => cases he
  | cons x rest ih =>
    intro none
    obtain ⟨later, here⟩ := Option.or_eq_none_iff.mp none
    rcases List.mem_cons.mp he with rfl | mem
    · rw [if_pos rfl] at here
      cases here
    · exact ih mem later

/-- Entries of slots are no other words. -/
theorem slotted_of_emitted (aligned : TablesAligned t) (apart : SlotsApart t)
    {es : List PageEntryInfo} (emitted : ∀ e ∈ es, Emitted gpu t e) {p : Path} {m : PageNode} {i : Nat}
    (hm : t p = some m) (hi : hasIndex i m.kind) : Slotted es (m.physicalAddress + i * 8) := by
  intro e he
  obtain ⟨i', p', m', _, hm', hi', _, haddress, hlt, _⟩ := emitted e he
  rw [haddress]
  refine ⟨slot_fits aligned hm' hi', hlt, ?_⟩
  rcases apart p' p m' m i' i hm' hm hi' hi with ⟨rfl, rfl⟩ | before | after
  · obtain rfl := Option.some.inj (hm'.symm.trans hm)
    exact Or.inl rfl
  · exact Or.inr (Or.inl before)
  · exact Or.inr (Or.inr after)

/-- Flags that are no part of entries. -/
theorem mirrored_commit {A : Type} {w : WalkState A} {read : Nat → Nat}
    (mirrored : Mirrored gpu w.nodes read) : Mirrored gpu (commit w) read := by
  intro p m i x hm hx
  obtain ⟨m₀, hm₀, hcore⟩ := layout_eq_some ((commit_layout w).symm ▸ layout_some hm)
  obtain ⟨x₀, hx₀, entry, -⟩ := commit_some hx gpu
  have haddress : m.physicalAddress = m₀.physicalAddress := congrArg (·.physicalAddress) hcore
  have hvalue : x.getEntryValue gpu = x₀.getEntryValue gpu := congrArg (·.tableEntry) entry
  rw [haddress, hvalue]
  exact mirrored p m₀ i x₀ hm₀ hx₀

/-- A walk whose entries are written mirrors the tables that it leaves. -/
theorem mirrored_walk {m : AubManagerImp PhysicalAddressAllocatorSimple}
    {w : WalkState PhysicalAddressAllocatorSimple} {a : PhysicalAddressAllocatorSimple}
    {phys : Option Nat} (levels : n = m.tables.ppgtt.getNumLevels) (hr : r ≠ .gtt) (wf₀ : Wf n t)
    (wf : Wf n w.nodes) (aligned : TablesAligned w.nodes) (apart : SlotsApart w.nodes)
    (emits : Emits m.tables.gpu (.start t a phys) w)
    (tracked : PendingEntries.Tracked m.tables.gpu n t w) (current : Current m.tables.gpu n w)
    (mirrored : Mirrored m.tables.gpu t (word image r)) :
    Mirrored m.tables.gpu w.nodes (word (storeEntries r image (entriesOf (m.writePages w))) r) := by
  subst levels
  intro p x i y hx hy
  obtain ⟨_, hx', hi⟩ := wf.parent i p y hy
  obtain rfl := Option.some.inj (hx.symm.trans hx')
  have emitted : ∀ e ∈ entriesOf (m.writePages w), Emitted m.tables.gpu w.nodes e := by
    intro e he
    obtain ⟨l, hl⟩ := entriesOf_writePages he
    exact (emits.entries l e hl).resolve_left List.not_mem_nil
  have haddress := entryAddress_cons i hx
  rw [word_storeEntries hr (slot_fits aligned hx hi) (slotted_of_emitted aligned apart emitted hx hi),
    ← haddress]
  cases last : lastAt (entriesOf (m.writePages w)) (entryAddress w.nodes (i :: p)) with
  | some v => exact current.written m apart wf (List.cons_ne_nil i p) hy last
  | none =>
    -- without an entry the node is the one of before
    have listed : i :: p ∉ w.pendingNodes (levelOf m.tables.ppgtt.getNumLevels (i :: p)) := by
      intro pending
      have written := listed_written m tracked pending hy
      exact absurd last (lastAt_ne_none written)
    have same := (tracked.slots (i :: p)).same listed
    have old : t (i :: p) = some y := same.symm.trans hy
    rw [Option.getD_none, (tracked.kept (i :: p) (by rw [old]; exact Option.some_ne_none y)).2]
    obtain ⟨x₀, hparent, -⟩ := wf₀.parent i p y old
    rw [entryAddress_cons i hparent]
    exact mirrored p x₀ i y hparent old

/-- A free whose entries are written. -/
theorem mirrored_free {A : Type} {s : FreeState A} (hr : r ≠ .gtt) (wf : Wf n t) (wf' : Wf n s.nodes)
    (aligned : TablesAligned t) (apart : SlotsApart t) (cleared : Cleared gpu n t s)
    (current : CurrentFreed gpu t s) (mirrored : Mirrored gpu t (word image r)) :
    Mirrored gpu s.nodes (word (storeEntries r image (emitted s)) r) := by
  intro p m i x hm hx
  obtain ⟨_, here, hi⟩ := wf'.parent i p x hx
  obtain rfl := Option.some.inj (hm.symm.trans here)
  obtain ⟨m₀, hm₀, heq⟩ := cleared.tracked.shrinks p m hm
  obtain ⟨x₀, hx₀, -⟩ := cleared.tracked.shrinks (i :: p) x hx
  have hcore := (core_of_setPs64 heq).1
  have hkind : m.kind = m₀.kind := congrArg (·.kind) hcore
  have haddress : m.physicalAddress = m₀.physicalAddress := congrArg (·.physicalAddress) hcore
  rw [hkind] at hi
  have slotted : Slotted (emitted s) (m₀.physicalAddress + i * 8) := by
    intro e he
    obtain ⟨l, q, clears⟩ := cleared.slot_of_emitted he
    obtain ⟨i', p', m', _, hm', hi', haddress'⟩ := clears.placed wf
    rw [haddress']
    refine ⟨slot_fits aligned hm' hi', clears.value, ?_⟩
    rcases apart p' p m' m₀ i' i hm' hm₀ hi' hi with ⟨rfl, rfl⟩ | before | after
    · obtain rfl := Option.some.inj (hm'.symm.trans hm₀)
      exact Or.inl rfl
    · exact Or.inr (Or.inl before)
    · exact Or.inr (Or.inr after)
  have hslot := entryAddress_cons i hm₀
  have occupied : t (i :: p) ≠ none := by
    rw [hx₀]
    exact Option.some_ne_none x₀
  rw [haddress, word_storeEntries hr (slot_fits aligned hm₀ hi) slotted, ← hslot]
  cases last : lastAt (emitted s) (entryAddress t (i :: p)) with
  | some v => exact current.written apart wf (List.cons_ne_nil i p) occupied hx last
  | none =>
    have same : x.getEntryValue gpu = x₀.getEntryValue gpu := by
      by_contra changed
      have written := cleared.tracked.values (i :: p) x x₀ hx hx₀ changed
      exact absurd last (lastAt_ne_none written)
    rw [Option.getD_none, same, hslot]
    exact mirrored p m₀ i x₀ hm₀ hx₀

/-- Memory that changes outside the tables still mirrors them. -/
theorem mirrored_apart {memoryBank : Nat} (wf : Wf n t) (aligned : TablesAligned t)
    (own : TablesOwn memoryBank t)
    (apart : ∀ x, image' (regionOf memoryBank) x ≠ image (regionOf memoryBank) x →
      ¬ TablePage t (regionOf memoryBank) x)
    (mirrored : Mirrored gpu t (word image (regionOf memoryBank))) :
    Mirrored gpu t (word image' (regionOf memoryBank)) := by
  intro p m i x hm hx
  obtain ⟨_, hm', hi⟩ := wf.parent i p x hx
  obtain rfl := Option.some.inj (hm.symm.trans hm')
  rw [← mirrored p m i x hm hx]
  refine word_congr (regionOf_ne_gtt memoryBank) (slot_fits aligned hm hi) fun y low high => ?_
  by_contra changed
  exact apart y changed (tablePage_of_slot own hm hi low high)

end Writes

end MirroredTables
