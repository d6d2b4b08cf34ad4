import Mathlib.Logic.Function.Basic
import Aubstream.Ledger
import Aubstream.AlignedBlocks
import Aubstream.MapFrame
import Aubstream.PageVisits

/-!
# Owners of physical blocks

A node whose allocator pointer is not null owns the block that its constructor
reserved, and a client owns what it has reserved. The blocks in use are exactly
the owned ones, each of them with one owner, as long as every node still has the
address and the bank of its block.
-/

namespace BlockOwners
open EntryBits PathTree PhysicalAllocator AllocatorBlocks PageNodes PageWalker TreeShape WalkPhases
  Placement Translation FreeMemory FreePhases TableRuns PageEffect PageVisits MapCursor MapFrame

inductive Holder where
  | node (device : Nat) (path : Path)
  | reservation (index : Nat)
  deriving DecidableEq

/-- The page tables by device; behind the last device there are no nodes. -/
abbrev Tables := Nat → Nodes

def block (T : Tables) (reservations : List Block) : Holder → Option Block
  | .node device path => (T device path).bind (·.allocator)
  | .reservation index => reservations[index]?

def key (a : PhysicalAddressAllocatorSimple) (b : Block) : Key :=
  (a.slotOf b.memoryBank, b.physicalAddress, b.size)

def holds (T : Tables) (reservations : List Block) (a : PhysicalAddressAllocatorSimple) (h : Holder) :
    Option Key := (block T reservations h).map (key a)

structure Owned (base : Bank → Nat) (T : Tables) (reservations : List Block)
    (a : PhysicalAddressAllocatorSimple) : Prop where
  banks : BanksSound base a
  ledger : Ledger.Exclusive (holds T reservations a) (inUse a)
  own : ∀ device p n b, T device p = some n → n.allocator = some b →
    n.memoryBank = b.memoryBank ∧ n.physicalAddress = b.physicalAddress

variable {base : Bank → Nat} {T T' : Tables} {reservations : List Block} {device : Nat}
  {a a' : PhysicalAddressAllocatorSimple} {t t' : Nodes} {q : Path} {n : PageNode} {b : Block}

theorem key_congr (slots : ∀ memoryBank, a'.slotOf memoryBank = a.slotOf memoryBank) :
    key a' = key a := by
  funext b
  rw [key, key, slots]

/-- Changes that concern no owner. -/
theorem Owned.congr (h : Owned base T reservations a)
    (same : ∀ holder, block T' reservations holder = block T reservations holder)
    (own : ∀ device p n b, T' device p = some n → n.allocator = some b →
      n.memoryBank = b.memoryBank ∧ n.physicalAddress = b.physicalAddress) :
    Owned base T' reservations a := by
  refine ⟨h.banks, h.ledger.congr ?_ fun _ => Iff.rfl, own⟩
  intro holder
  rw [holds, same, holds]

/-- What a node owns, and what it would give back. -/
def ownership (n : PageNode) : Option Block × Nat × Nat :=
  (n.allocator, n.memoryBank, n.physicalAddress)

theorem Owned.of_ownership (h : Owned base T reservations a)
    (same : ∀ device p, (T' device p).map ownership = (T device p).map ownership) :
    Owned base T' reservations a := by
  have allocators : ∀ x : Option PageNode, x.bind (·.allocator) = (x.map ownership).bind (·.1) := by
    intro x
    cases x <;> rfl
  apply h.congr
  · intro holder
    cases holder with
    | node device p =>
      change (T' device p).bind (·.allocator) = (T device p).bind (·.allocator)
      rw [allocators, same, ← allocators]
    | reservation index => rfl
  · intro device p n b hn hb
    have hmap := same device p
    rw [hn, Option.map_some, eq_comm, Option.map_eq_some_iff] at hmap
    obtain ⟨m, hm, heq⟩ := hmap
    simp only [ownership, Prod.mk.injEq] at heq
    obtain ⟨halloc, hbank, haddress⟩ := heq
    have hown := h.own device p m b hm (halloc.trans hb)
    rw [← hbank, ← haddress]
    exact hown

/-- Two versions of a table that differ in one slot differ for the holder in that slot. -/
theorem block_of_agree (agree : ∀ p, p ≠ q → t' p = t p) {holder : Holder}
    (other : holder ≠ .node device q) :
    block (Function.update T device t') reservations holder =
      block (Function.update T device t) reservations holder := by
  cases holder with
  | reservation index => rfl
  | node d p =>
    by_cases hd : d = device
    · subst d
      have hp : p ≠ q := fun heq => other (by rw [heq])
      simp only [block, Function.update_self, agree p hp]
    · simp only [block, Function.update_of_ne hd]

theorem block_self (T : Tables) (reservations : List Block) (device : Nat) (t : Nodes) (q : Path) :
    block (Function.update T device t) reservations (.node device q) = (t q).bind (·.allocator) := by
  simp only [block, Function.update_self]

/-- The nodes of a changed table outside one slot. -/
theorem own_of_agree (h : Owned base (Function.update T device t) reservations a)
    (agree : ∀ p, p ≠ q → t' p = t p)
    (here : ∀ n b, t' q = some n → n.allocator = some b →
      n.memoryBank = b.memoryBank ∧ n.physicalAddress = b.physicalAddress) :
    ∀ d p n b, Function.update T device t' d p = some n → n.allocator = some b →
      n.memoryBank = b.memoryBank ∧ n.physicalAddress = b.physicalAddress := by
  intro d p n b hn hb
  by_cases hd : d = device
  · subst d
    rw [Function.update_self] at hn
    by_cases hp : p = q
    · subst p
      exact here n b hn hb
    · rw [agree p hp] at hn
      exact h.own device p n b (by rw [Function.update_self]; exact hn) hb
  · rw [Function.update_of_ne hd] at hn
    exact h.own d p n b (by rw [Function.update_of_ne hd]; exact hn) hb

/-- A reservation reuses a block or makes one. -/
theorem mem_blocks_reserve {memoryBank size alignment : Nat} {slot : Bank} {e : Nat × Nat}
    (he : e ∈ blocks ((a.reserve memoryBank size alignment).2.get slot)) :
    e ∈ blocks (a.get slot) ∨
      ∃ x, e = (SimpleAllocator.alignUp x (max alignment 4096) % 2 ^ 64, size) := by
  unfold PhysicalAddressAllocatorSimple.reserve at he
  by_cases hslot : slot = a.slotOf memoryBank
  · subst slot
    rw [get_set] at he
    unfold SimpleAllocator.alignedAlloc at he
    split at he
    · rename_i x hf
      rw [blocks, List.mem_append, (multimapInsert_perm _ _).mem_iff, List.mem_cons] at he
      rcases he with (rfl | hused) | hfree
      · exact Or.inl (List.mem_append_right _ (List.mem_of_find?_eq_some hf))
      · exact Or.inl (List.mem_append_left _ hused)
      · exact Or.inl (List.mem_append_right _ (List.mem_of_mem_erase hfree))
    · rw [blocks, List.mem_append, (multimapInsert_perm _ _).mem_iff, List.mem_cons] at he
      rcases he with (rfl | hused) | hfree
      · exact Or.inr ⟨_, rfl⟩
      · exact Or.inl (List.mem_append_left _ hused)
      · exact Or.inl (List.mem_append_right _ hfree)
  · rw [get_set_of_ne hslot] at he
    exact Or.inl he

theorem mem_blocks_free {memoryBank address : Nat} {slot : Bank} {e : Nat × Nat}
    (he : e ∈ blocks ((a.free memoryBank address).get slot)) : e ∈ blocks (a.get slot) := by
  unfold PhysicalAddressAllocatorSimple.free at he
  by_cases hslot : slot = a.slotOf memoryBank
  · subst slot
    rw [get_set] at he
    unfold SimpleAllocator.alignedFree at he
    split at he
    · rename_i x hf
      rw [blocks, List.mem_append, (multimapInsert_perm _ _).mem_iff, List.mem_cons] at he
      rcases he with hused | rfl | hfree
      · exact List.mem_append_left _ (List.mem_of_mem_erase hused)
      · exact List.mem_append_left _ (List.mem_of_find?_eq_some hf)
      · exact List.mem_append_right _ hfree
    · exact he
  · rw [get_set_of_ne hslot] at he
    exact he

/-- Blocks of a page's size lie at multiples of it. -/
def PagesAligned (a : PhysicalAddressAllocatorSimple) : Prop :=
  ∀ slot, ∀ e ∈ blocks (a.get slot), IsPageSize e.2 → e.2 ∣ e.1

/-- A block that is aligned to its size keeps the others in place. -/
theorem pagesAligned_reserve (h : PagesAligned a) (memoryBank size : Nat) :
    PagesAligned (a.reserve memoryBank size size).2 := by
  intro slot e he hpage
  rcases mem_blocks_reserve he with hold | ⟨x, rfl⟩
  · exact h slot e hold hpage
  · obtain ⟨k, hk, hk64, hsize⟩ := isPageSize_pow hpage
    simp only at hsize ⊢
    subst hsize
    rw [AlignedBlocks.max_4096, Nat.max_eq_left hk]
    exact AlignedBlocks.alignUp_dvd hk64

theorem pagesAligned_free (h : PagesAligned a) (memoryBank address : Nat) :
    PagesAligned (a.free memoryBank address) :=
  fun slot e he => h slot e (mem_blocks_free he)

/-- One page table's part of a step: whatever else there is, ownership survives it unless the
allocator runs out of addresses. -/
structure Keeps (t : Nodes) (a : PhysicalAddressAllocatorSimple) (t' : Nodes)
    (a' : PhysicalAddressAllocatorSimple) : Prop where
  room : Unexhausted a' → Unexhausted a
  owned : ∀ base T reservations device, Unexhausted a' →
    Owned base (Function.update T device t) reservations a →
    Owned base (Function.update T device t') reservations a'
  aligned : PagesAligned a → PagesAligned a'

namespace Keeps

theorem refl (t : Nodes) (a : PhysicalAddressAllocatorSimple) : Keeps t a t a :=
  ⟨id, fun _ _ _ _ _ h => h, id⟩

theorem trans {t'' : Nodes} {a'' : PhysicalAddressAllocatorSimple} (h : Keeps t a t' a')
    (h' : Keeps t' a' t'' a'') : Keeps t a t'' a'' := by
  refine ⟨fun room => h.room (h'.room room), ?_, fun aligned => h'.aligned (h.aligned aligned)⟩
  intro base T reservations device room owned
  exact h'.owned base T reservations device room
    (h.owned base T reservations device (h'.room room) owned)

/-- Nodes keep their blocks, addresses and banks. -/
theorem of_ownership (same : ∀ p, (t' p).map ownership = (t p).map ownership) :
    Keeps t a t' a := by
  refine ⟨id, ?_, id⟩
  intro base T reservations device _ owned
  apply owned.of_ownership
  intro d p
  by_cases hd : d = device
  · subst d
    rw [Function.update_self, Function.update_self]
    exact same p
  · rw [Function.update_of_ne hd, Function.update_of_ne hd]

/-- A node that owns nothing is put where nothing is owned. -/
theorem put_foreign (before : (t q).bind (·.allocator) = none) (after : n.allocator = none) :
    Keeps t a (put t q n) a := by
  have agree : ∀ p, p ≠ q → put t q n p = t p := fun p hp => put_of_ne hp
  refine ⟨id, ?_, id⟩
  intro base T reservations device _ owned
  apply owned.congr
  · intro holder
    by_cases hholder : holder = .node device q
    · subst holder
      rw [block_self, block_self, before, put_self]
      exact after
    · exact block_of_agree agree hholder
  · apply own_of_agree owned agree
    intro m b hm hb
    rw [put_self, Option.some.injEq] at hm
    rw [← hm, after] at hb
    cases hb

/-- A constructor with an allocator takes a block of its own. -/
theorem construct (idle : t q = none) (kind : NodeKind) (size memoryBank : Nat)
    (params : AdditionalParams) :
    Keeps t a (put t q (constructNode a kind size memoryBank params).1)
      (constructNode a kind size memoryBank params).2 := by
  have agree : ∀ p, p ≠ q → put t q (constructNode a kind size memoryBank params).1 p = t p :=
    fun p hp => put_of_ne hp
  constructor
  · intro room slot
    exact Nat.lt_of_le_of_lt (reserve_highWater a memoryBank (max size 4096) (max size 4096) slot)
      (room slot)
  · intro base T reservations device room owned
    obtain ⟨banks, reserved⟩ := @reserve_sound a base owned.banks memoryBank (max size 4096)
      (max size 4096) (by omega) room
    have keys : key (constructNode a kind size memoryBank params).2 = key a :=
      key_congr reserved.slots
    refine ⟨banks, ?_, ?_⟩
    · refine @Ledger.Exclusive.acquire _ _ _ _ _ _ owned.ledger (.node device q) _ ?_ reserved.fresh
        ?_ ?_ reserved.used
      · rw [holds, block_self, idle]
        rfl
      · rw [holds, block_self, put_self, keys]
        rfl
      · intro holder hholder
        rw [holds, holds, keys, block_of_agree agree hholder]
    · apply own_of_agree owned agree
      intro m b hm hb
      rw [put_self, Option.some.injEq] at hm
      subst hm
      simp only [constructNode, Option.some.injEq] at hb
      subst hb
      exact ⟨rfl, rfl⟩
  · exact fun aligned => pagesAligned_reserve aligned memoryBank (max size 4096)

/-- A destructor gives back the block of the constructor. -/
theorem destroy (present : t q = some n) : Keeps t a (erase t q) (destroyNode a n) := by
  have agree : ∀ p, p ≠ q → erase t q p = t p := fun p hp => erase_of_ne hp
  cases hb : n.allocator with
  | none =>
    have same : destroyNode a n = a := by simp only [destroyNode, hb]
    rw [same]
    refine ⟨id, ?_, id⟩
    intro base T reservations device _ owned
    apply owned.congr
    · intro holder
      by_cases hholder : holder = .node device q
      · subst holder
        rw [block_self, block_self, present, erase_self]
        exact hb.symm
      · exact block_of_agree agree hholder
    · apply own_of_agree owned agree
      intro m b hm _
      rw [erase_self] at hm
      cases hm
  | some b =>
    have freed : destroyNode a n = a.free n.memoryBank n.physicalAddress := by
      simp only [destroyNode, hb]
      rfl
    rw [freed]
    have water : Unexhausted (a.free n.memoryBank n.physicalAddress) → Unexhausted a := by
      intro room slot
      have hslot := room slot
      rw [free_highWater] at hslot
      exact hslot
    refine ⟨water, ?_, fun aligned => pagesAligned_free aligned n.memoryBank n.physicalAddress⟩
    intro base T reservations device room owned
    obtain ⟨hbank, haddress⟩ := owned.own device q n b (by rw [Function.update_self, present]) hb
    have held : holds (Function.update T device t) reservations a (.node device q) = some (key a b) := by
      rw [holds, block_self, present, Option.bind_some, hb]
      rfl
    rw [hbank, haddress] at water room ⊢
    obtain ⟨banks, returned⟩ := @free_sound a base owned.banks b.memoryBank b.physicalAddress b.size
      (owned.ledger.held_used held) (water room)
    have keys : key (a.free b.memoryBank b.physicalAddress) = key a := key_congr returned.slots
    refine ⟨banks, ?_, ?_⟩
    · refine owned.ledger.release held ?_ ?_ returned.used
      · rw [holds, block_self, erase_self]
        rfl
      · intro holder hholder
        rw [holds, holds, keys, block_of_agree agree hholder]
    · apply own_of_agree owned agree
      intro m b hm _
      rw [erase_self] at hm
      cases hm

end Keeps

/-! ### Placing pages -/

section Pages
variable {c : WalkContext} {page : PageRequest} {last : NodeKind} {s : Layout PhysicalAddressAllocatorSimple}

theorem keeps_placeTable (c : WalkContext) (g level : Nat) (s : Layout PhysicalAddressAllocatorSimple) :
    Keeps s.nodes s.allocator (placeTable c g level s).nodes (placeTable c g level s).allocator := by
  unfold placeTable
  simp only
  split
  · rename_i idle _
    exact .construct idle _ _ _ _
  · exact .refl _ _

theorem keeps_placeTables (c : WalkContext) (last : NodeKind) (g level : Nat)
    (s : Layout PhysicalAddressAllocatorSimple) : Keeps s.nodes s.allocator
      (placeTables c last g level s).nodes (placeTables c last g level s).allocator := by
  induction level generalizing s with
  | zero => exact .refl _ _
  | succ level ih =>
    unfold placeTables
    split
    · exact .refl _ _
    · exact (keeps_placeTable c g (level + 1) s).trans (ih _)

/-- A leaf that owns its block is only mapped to that block again. -/
def Harmless (page : PageRequest) (cursor : Option Nat) (leaf : Option PageNode) : Prop :=
  ∀ m p, leaf = some m → m.allocator ≠ none → cursor = some p →
    m.physicalAddress = p ∧ m.memoryBank = page.pageMemoryBank

/-- The leaf that a page is left with. -/
structure LeafFacts (page : PageRequest) (cursor : Option Nat) (before : Option PageNode)
    (leaf : PageNode) : Prop where
  kept : ∀ m, before = some m → cursor = none → leaf = m
  mapped : ∀ m p, before = some m → cursor = some p →
    leaf = { m with physicalAddress := p, memoryBank := page.pageMemoryBank }
  foreign : ∀ p, before = none → cursor = some p → leaf.allocator = none

theorem newLeaf_foreign {pageSize p : Nat} {a : PhysicalAddressAllocatorSimple} :
    (newLeaf c page pageSize (some p) a).1.allocator = none ∧
      (newLeaf c page pageSize (some p) a).2 = a := by
  unfold newLeaf
  cases page.clonePageInfo with
  | some info => exact ⟨rfl, rfl⟩
  | none => exact ⟨rfl, rfl⟩

theorem placeLeaf_leaf (c : WalkContext) (page : PageRequest) (last : NodeKind)
    (s : Layout PhysicalAddressAllocatorSimple) :
    ∃ leaf, (placeLeaf c page last s).nodes = put s.nodes
        (leafSlot c.ppgtt.getNumLevels last page.gfxAddress) leaf ∧
      LeafFacts page (leafCursor last s.physicalAddress)
        (s.nodes (leafSlot c.ppgtt.getNumLevels last page.gfxAddress)) leaf := by
  refine ⟨_, rfl, ?_, ?_, ?_⟩
  · intro m hm hcursor
    simp only [leafCursor] at hcursor
    simp only [hm, hcursor]
  · intro m p hm hcursor
    simp only [leafCursor] at hcursor
    simp only [hm, hcursor]
  · intro p hnone hcursor
    simp only [leafCursor] at hcursor
    simp only [hnone, hcursor]
    exact newLeaf_foreign.1

theorem keeps_placeLeaf (harmless : Harmless page (leafCursor last s.physicalAddress)
      (s.nodes (leafSlot c.ppgtt.getNumLevels last page.gfxAddress))) :
    Keeps s.nodes s.allocator (placeLeaf c page last s).nodes (placeLeaf c page last s).allocator := by
  obtain ⟨leaf, hnodes, facts⟩ := placeLeaf_leaf c page last s
  generalize hq : leafSlot c.ppgtt.getNumLevels last page.gfxAddress = q at hnodes facts harmless
  cases hm : s.nodes q with
  | some m =>
    have halloc : (placeLeaf c page last s).allocator = s.allocator := by
      simp only [placeLeaf, hq, hm]
    rw [hnodes, halloc]
    cases hcursor : leafCursor last s.physicalAddress with
    | none =>
      rw [facts.kept m hm hcursor, put_eq_self hm]
      exact .refl _ _
    | some p =>
      rw [facts.mapped m p hm hcursor]
      by_cases howned : m.allocator = none
      · apply Keeps.put_foreign
        · rw [hm]
          exact howned
        · exact howned
      · obtain ⟨rfl, hbank⟩ := harmless m p hm howned hcursor
        rw [← hbank, put_eq_self hm]
        exact .refl _ _
  | none =>
    have before : (s.nodes q).bind (·.allocator) = none := by
      rw [hm]
      rfl
    cases hcursor : leafCursor last s.physicalAddress with
    | some p =>
      have halloc : (placeLeaf c page last s).allocator = s.allocator := by
        simp only [leafCursor] at hcursor
        simp only [placeLeaf, hq, hm, hcursor]
        exact newLeaf_foreign.2
      rw [hnodes, halloc]
      exact .put_foreign before (facts.foreign p hm hcursor)
    | none =>
      simp only [leafCursor] at hcursor
      have hleaf : (placeLeaf c page last s).nodes =
          put s.nodes q (newLeaf c page last.getPageSize none s.allocator).1 := by
        simp only [placeLeaf, hq, hm, hcursor]
      have halloc : (placeLeaf c page last s).allocator =
          (newLeaf c page last.getPageSize none s.allocator).2 := by
        simp only [placeLeaf, hq, hm, hcursor]
      rw [hleaf, halloc]
      unfold newLeaf
      cases page.clonePageInfo with
      | some info => exact .put_foreign before rfl
      | none => exact .construct hm _ _ _ _

theorem placePage_leaf (wf : Wf c.ppgtt.getNumLevels s.nodes) (hmode : c.mode ≠ .Expect) :
    ∃ leaf, (placePage c page s).1.nodes (visitSlot c (page, s)) = some leaf ∧
      LeafFacts page (leafCursor (lastTable c s.nodes page.gfxAddress) s.physicalAddress)
        (s.nodes (visitSlot c (page, s))) leaf := by
  obtain ⟨leaf, hnodes, facts⟩ := placeLeaf_leaf c page (lastTable c s.nodes page.gfxAddress)
    (placeTables c (lastTable c s.nodes page.gfxAddress) page.gfxAddress
      (c.ppgtt.getNumLevels - 1) s)
  rw [placeTables_physicalAddress, placeTables_leafSlot wf] at facts
  refine ⟨leaf, ?_, facts⟩
  have moving : ¬ (c.mode = .Expect ∧ s.nodes (leafSlot c.ppgtt.getNumLevels
      (lastTable c s.nodes page.gfxAddress) page.gfxAddress) = none) := fun h => hmode h.1
  simp only [placePage, if_neg moving, placeRecord_nodes, hnodes, visitSlot, put_self]

theorem keeps_placePage (wf : Wf c.ppgtt.getNumLevels s.nodes)
    (harmless : Harmless page (leafCursor (lastTable c s.nodes page.gfxAddress) s.physicalAddress)
      (s.nodes (visitSlot c (page, s)))) :
    Keeps s.nodes s.allocator (placePage c page s).1.nodes (placePage c page s).1.allocator := by
  unfold placePage
  simp only
  split
  · exact .refl _ _
  · rw [placeRecord_nodes, placeRecord_allocator]
    refine (keeps_placeTables c _ _ _ s).trans (keeps_placeLeaf ?_)
    rw [placeTables_physicalAddress, placeTables_leafSlot wf]
    exact harmless

end Pages

/-! ### Walks -/

theorem ownership_layout (t : Nodes) (p : Path) : (layout t p).map ownership = (t p).map ownership := by
  unfold layout
  rw [Option.map_map]
  rfl

/-- Along a mapping request every page that owns its block already has the address and the bank
that the request gives it. -/
def MapsOwned (n : Nat) (kinds : Nat → NodeKind) (t : Nodes) (phys bank g size : Nat) : Prop :=
  ∀ x p leaf, g ≤ x → x < g + size → PageStart kinds g x → IsTarget kinds phys g x p →
    leafAt n t x = some leaf → leaf.allocator ≠ none →
    leaf.physicalAddress = p ∧ leaf.memoryBank = bank

/-- Between two pages of a mapping walk over `t`: the leaves that own a block are those of `t`. -/
structure OwnRun (c : WalkContext) (t : Nodes) (a : PhysicalAddressAllocatorSimple)
    (phys g stop x size : Nat) (s : Layout PhysicalAddressAllocatorSimple) : Prop where
  run : CursorRun c t phys g stop x size s
  keeps : Keeps t a s.nodes s.allocator
  old : ∀ y m, s.nodes y = some m → m.allocator ≠ none → IsLeaf m.kind → t y = some m

section Walks
variable {c : WalkContext} {w : WalkState PhysicalAddressAllocatorSimple}

theorem ownRun_step {phys g stop size index : Nat} {s : Layout PhysicalAddressAllocatorSimple}
    {page : PageRequest} (wf₀ : Wf c.ppgtt.getNumLevels t) (wf : Wf c.ppgtt.getNumLevels s.nodes)
    (hmode : c.mode = .Reserve) (hsize : 0 < size)
    (hpage : pageRequest c page.gfxAddress size index s.physicalAddress = some page)
    (hps : page.size = size)
    (maps : MapsOwned c.ppgtt.getNumLevels (lastTable c t) t phys c.allocationParams.memoryBanks g
      (stop - g))
    (own : OwnRun c t a phys g stop page.gfxAddress size s) :
    OwnRun c t a phys g stop (page.gfxAddress + (placePage c page s).2)
      (size - (placePage c page s).2) (placePage c page s).1 := by
  have hmode' : c.mode ≠ .Expect := by
    rw [hmode]
    simp
  obtain ⟨hga, hstop⟩ := own.run.bounds
  have hbank : page.pageMemoryBank = c.allocationParams.memoryBanks := by
    simp only [pageRequest, hmode, own.run.supplied, if_true, reduceCtorEq, if_false,
      Option.some.injEq] at hpage
    rw [← hpage]
  obtain ⟨start, p, q, hp, _, hq, htarget⟩ := own.run.target wf₀ hsize
  have hcursor : leafCursor (lastTable c s.nodes page.gfxAddress) s.physicalAddress = some q := by
    rw [own.run.kinds, hp]
    exact hq
  -- an owned leaf that the page enters stands in `t`, so the condition speaks of it
  have entered : ∀ m, s.nodes (visitSlot c (page, s)) = some m → m.allocator ≠ none →
      m.physicalAddress = q ∧ m.memoryBank = page.pageMemoryBank := by
    intro m hm howned
    have ht := own.old _ m hm howned (isLeaf_of_slot wf hm).2
    rw [visitSlot, own.run.kinds] at ht
    rw [hbank]
    exact maps page.gfxAddress q m hga (by omega) start htarget (isLeaf_of_slot wf₀ ht).1 howned
  refine ⟨(cursorRun_step wf₀ wf hmode' hsize hps own.run).2, own.keeps.trans (keeps_placePage wf ?_),
    ?_⟩
  · intro m p' hm howned hp'
    rw [hcursor, Option.some.injEq] at hp'
    rw [← hp']
    exact entered m hm howned
  · intro y m hm howned hleaf
    have hplaced := (placePage_placed page wf hmode').1
    by_cases hy : y = visitSlot c (page, s)
    · subst y
      obtain ⟨leaf, hnodes, facts⟩ := placePage_leaf wf hmode'
      rw [hnodes, Option.some.injEq] at hm
      subst hm
      cases hold : s.nodes (visitSlot c (page, s)) with
      | none => exact absurd (facts.foreign q hold hcursor) howned
      | some x =>
        have hx := facts.mapped x q hold hcursor
        subst hx
        obtain ⟨rfl, hxbank⟩ := entered x hold howned
        rw [← hxbank] at howned hleaf ⊢
        exact own.old _ x hold howned hleaf
    · cases hold : s.nodes y with
      | none => exact absurd hleaf (new_not_leaf hplaced hm hy hold)
      | some x =>
        have hx := hplaced.kept y x hold hy
        rw [hm, Option.some.injEq] at hx
        subst hx
        exact own.old y m hold howned hleaf

/-- A walk without a physical address. -/
theorem keeps_walk {cfg : Config} {params : AllocationParams} {mode : WalkMode}
    {infos : List PageInfo} (wf : Wf cfg.ppgtt.getNumLevels t) (hmode : mode ≠ .Expect)
    (h : walkMemory cfg.gpu cfg.enablePs64 cfg.ppgtt t a params mode infos none = some w) :
    Keeps t a w.nodes w.allocator := by
  rcases walkMemory_some h with ⟨_, rfl⟩ | ⟨_, c, hc, hpages⟩
  · exact .refl _ _
  · obtain ⟨_, hppgtt, hm, _⟩ := walkContext_some hc
    rw [← hppgtt] at wf
    obtain ⟨_, _, _, _, keeps⟩ := walkPages_places
      (J := fun _ _ _ s => s.physicalAddress = none ∧ Keeps t a s.nodes s.allocator)
      (by rw [hm]; exact hmode)
      (fun size index s page wf' _ _ _ hJ => by
        refine ⟨placePage_physicalAddress_none c page hJ.1, hJ.2.trans (keeps_placePage wf' ?_)⟩
        intro m p _ _ hp
        rw [hJ.1] at hp
        cases hp)
      _ _ _ _ _ w (Nat.le_refl _) wf hpages ⟨rfl, Keeps.of_ownership (ownership_layout t)⟩
    exact keeps.trans (Keeps.of_ownership fun p => (ownership_layout w.nodes p).symm)

/-- A walk that maps a physical address. -/
theorem keeps_map {cfg : Config} {params : AllocationParams} {phys : Nat} (hphys : phys < 2 ^ 64)
    (wf : Wf cfg.ppgtt.getNumLevels t)
    (maps : MapsOwned cfg.ppgtt.getNumLevels (pageKindAt cfg.ppgtt (adjustPageSizeForHardwareSupport
      cfg.gpu params.pageSize params.memoryBanks) t) t phys params.memoryBanks params.gfxAddress
      params.size)
    (h : walkMemory cfg.gpu cfg.enablePs64 cfg.ppgtt t a params .Reserve [] (some phys) = some w) :
    Keeps t a w.nodes w.allocator := by
  rcases walkMemory_some h with ⟨_, rfl⟩ | ⟨_, c, hc, hpages⟩
  · exact .refl _ _
  · obtain ⟨_, hppgtt, hm, hparams, _, hrequested, _⟩ := walkContext_some hc
    rw [← hppgtt] at wf maps
    have hkinds : lastTable c (layout t) = pageKindAt c.ppgtt (adjustPageSizeForHardwareSupport cfg.gpu
        params.pageSize params.memoryBanks) t := by
      rw [← hrequested, ← lastTable_eq]
      funext x
      exact lastTable_layout c t x
    have maps' : MapsOwned c.ppgtt.getNumLevels (lastTable c (layout t)) (layout t) phys
        c.allocationParams.memoryBanks params.gfxAddress
        (params.gfxAddress + params.size - params.gfxAddress) := by
      rw [hkinds, hparams, Nat.add_sub_cancel_left]
      intro x p leaf h1 h2 start target hleaf howned
      rw [leafAt_layout, Option.map_eq_some_iff] at hleaf
      obtain ⟨m, hmapped, rfl⟩ := hleaf
      exact maps x p m h1 h2 start target hmapped howned
    obtain ⟨_, _, _, own⟩ := walkPages_places
      (J := fun x size _ s => OwnRun c (layout t) a phys params.gfxAddress
        (params.gfxAddress + params.size) x size s)
      (by rw [hm]; simp)
      (fun size index s page wf' hpos hpage hps own =>
        ownRun_step (wf_layout.mpr wf) wf' hm hpos hpage hps maps' own)
      _ _ _ _ _ w (Nat.le_refl _) wf hpages
      ⟨cursorRun_start c t a params.gfxAddress params.size hphys, .refl _ _, fun _ _ hm _ _ => hm⟩
    exact (Keeps.of_ownership (ownership_layout t)).trans
      (own.keeps.trans (Keeps.of_ownership fun p => (ownership_layout w.nodes p).symm))

end Walks

/-! ### Freeing -/

section Free
variable {c : FreeContext} {s : FreeState PhysicalAddressAllocatorSimple}

theorem keeps_remove (level : Nat) (present : s.nodes q = some n) :
    Keeps s.nodes s.allocator (s.remove level q n).nodes (s.remove level q n).allocator :=
  .destroy present

theorem keeps_clearPs64 (gpu : Gpu) (q : Path) (s : FreeState PhysicalAddressAllocatorSimple) :
    Keeps s.nodes s.allocator (s.clearPs64 gpu q).nodes (s.clearPs64 gpu q).allocator := by
  have same : (s.clearPs64 gpu q).allocator = s.allocator := by
    unfold FreeState.clearPs64
    split
    · rfl
    · rfl
  rw [same, clearPs64_nodes]
  apply Keeps.of_ownership
  intro p
  by_cases hp : p = q
  · subst p
    rw [modify_self, Option.map_map]
    rfl
  · rw [modify_of_ne hp]

theorem keeps_clearAll (gpu : Gpu) (qs : List Path) (s : FreeState PhysicalAddressAllocatorSimple) :
    Keeps s.nodes s.allocator (qs.foldl (fun s q => s.clearPs64 gpu q) s).nodes
      (qs.foldl (fun s q => s.clearPs64 gpu q) s).allocator := by
  induction qs generalizing s with
  | nil => exact .refl _ _
  | cons q rest ih => exact (keeps_clearPs64 gpu q s).trans (ih _)

theorem keeps_removePage (c : FreeContext) (pte : Path) (index g size : Nat)
    (s : FreeState PhysicalAddressAllocatorSimple) : Keeps s.nodes s.allocator
      (removePage c pte index g size s).nodes (removePage c pte index g size s).allocator := by
  unfold removePage
  split
  · exact .refl _ _
  · rename_i child present
    simp only
    split
    · exact (keeps_remove Pte present).trans (keeps_clearAll _ _ _)
    · exact keeps_remove Pte present

theorem keeps_pruneTable (level : Nat) (p : Path) (s : FreeState PhysicalAddressAllocatorSimple) :
    Keeps s.nodes s.allocator (pruneTable level p s).nodes (pruneTable level p s).allocator := by
  unfold pruneTable
  split
  · exact .refl _ _
  · rename_i n present
    split
    · exact keeps_remove level present
    · exact .refl _ _

theorem keeps_freePage {s' : FreeState PhysicalAddressAllocatorSimple} {g size pageSize : Nat}
    (wf : Wf c.ppgtt.getNumLevels s.nodes) (h : freePage c g size s = some (s', pageSize)) :
    Keeps s.nodes s.allocator s'.nodes s'.allocator := by
  rcases freePage_eq wf g size with ⟨_, hf⟩ | ⟨m, hs, _, hf⟩ | ⟨m, k, _, _, hf⟩
  · rw [hf] at h
    cases h
  · rw [hf, Option.some.injEq, Prod.mk.injEq] at h
    obtain ⟨rfl, _⟩ := h
    exact (keeps_remove Pde hs).trans (keeps_pruneTable _ _ _)
  · rw [hf, Option.some.injEq, Prod.mk.injEq] at h
    obtain ⟨rfl, _⟩ := h
    exact (keeps_removePage c _ _ g size s).trans (keeps_pruneTable _ _ _)

theorem keeps_free {cfg : Config} (wf : Wf cfg.ppgtt.getNumLevels t) (g size : Nat) :
    Keeps t a (freeMemory cfg.gpu cfg.ppgtt t a g size).1.nodes
      (freeMemory cfg.gpu cfg.ppgtt t a g size).1.allocator := by
  have rounds := (freePages_rule (c := ⟨cfg.ppgtt, cfg.gpu, g, g + size⟩)
    (P := fun _ _ s => Keeps t a s.nodes s.allocator)
    (fun _ _ _ _ _ wf' _ keeps hpage => keeps.trans (keeps_freePage wf' hpage)) size g size
    ⟨t, a, fun _ => []⟩ (Nat.le_refl _) wf (.refl _ _)).2
  rcases rounds with ⟨_, _, keeps⟩ | ⟨_, _, _, _, keeps, _⟩
  · exact keeps
  · exact keeps

end Free

end BlockOwners
