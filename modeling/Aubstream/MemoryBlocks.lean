import Aubstream.PageAliasing
import Aubstream.AllocatorGrowth
import Aubstream.FaithfulMemory

/-!
# Memory and the owners of its blocks

Whatever one table does to memory, inside blocks that are its own or a client's,
the memory stays faithful to the other tables.
-/

namespace MemoryBlocks
open EntryBits PathTree PhysicalAllocator AllocatorBlocks PageNodes PageWalker TreeShape Translation
  Placement AubPackets StreamedMemory HardwareWalk EmittedEntries FaithfulMemory BlockOwners
  OwnedRuns PageAliasing AllocatorGrowth

/-- `ppgtt->isLocalMemory()` tells the memory of a bank. -/
def regionOf (memoryBank : Nat) : Region := if memoryBank != 0 then .localMemory else .systemMemory

/-- The address is in a block of the allocator, in use or free. -/
def InBlock (a : PhysicalAddressAllocatorSimple) (r : Region) (x : Nat) : Prop :=
  ∃ memoryBank e, regionOf memoryBank = r ∧ e ∈ blocks (a.get (a.slotOf memoryBank)) ∧
    e.1 ≤ x ∧ x < e.1 + e.2

/-- The address is in the block of a holder. -/
def InHeld (T : Tables) (reservations : List Block) (h : Holder) (r : Region) (x : Nat) : Prop :=
  ∃ b, block T reservations h = some b ∧ regionOf b.memoryBank = r ∧ b.physicalAddress ≤ x ∧
    x < b.physicalAddress + b.size

/-- The address is in the page of a table. -/
def TablePage (t : Nodes) (r : Region) (x : Nat) : Prop :=
  ∃ q m, t q = some m ∧ ¬ IsLeaf m.kind ∧ regionOf m.memoryBank = r ∧ m.physicalAddress ≤ x ∧
    x < m.physicalAddress + 4096

/-- The memory has changed only in blocks, and not in the tables of other devices. -/
def ChangedIn (T : Tables) (device : Nat) (a : PhysicalAddressAllocatorSimple)
    (image image' : AubPackets.Memory) : Prop :=
  ∀ r x, r ≠ .gtt → image' r x ≠ image r x →
    InBlock a r x ∧ ∀ other, other ≠ device → ¬ TablePage (T other) r x

section
variable {base : Bank → Nat} {T T' : Tables} {reservations : List Block} {device : Nat}
  {a a' : PhysicalAddressAllocatorSimple} {h h' : Holder} {r : Region} {x memoryBank : Nat}
  {b b' : Block} {image image' : AubPackets.Memory} {gpu : Gpu}

theorem regionOf_ne_gtt (memoryBank : Nat) : regionOf memoryBank ≠ .gtt := by
  unfold regionOf
  split
  · simp
  · simp

theorem regionOf_eq {memoryBank' : Nat} :
    regionOf memoryBank = regionOf memoryBank' ↔ (memoryBank != 0) = (memoryBank' != 0) := by
  unfold regionOf
  cases memoryBank != 0 <;> cases memoryBank' != 0 <;> simp

theorem block_used (owned : Owned base T reservations a) (hb : block T reservations h = some b) :
    (b.physicalAddress, b.size) ∈ blocks (a.get (a.slotOf b.memoryBank)) := by
  have hk : holds T reservations a h = some (key a b) := by rw [holds, hb, Option.map_some]
  exact List.mem_append_left _ (owned.ledger.held_used hk)

theorem block_fits (owned : Owned base T reservations a) (room : Unexhausted a)
    (hb : block T reservations h = some b) : b.physicalAddress + b.size < 2 ^ 64 := by
  have sound := owned.banks (a.slotOf b.memoryBank)
  have hend := (sound.bounds _ (block_used owned hb)).2
  have hwater := sound.cursor.2
  have hroom := room (a.slotOf b.memoryBank)
  simp only at hend
  omega

theorem InBlock.fits (owned : Owned base T reservations a) (room : Unexhausted a)
    (h : InBlock a r x) : x < 2 ^ 64 := by
  obtain ⟨memoryBank, e, _, he, _, hlt⟩ := h
  have sound := owned.banks (a.slotOf memoryBank)
  have hend := (sound.bounds e he).2
  have hwater := sound.cursor.2
  have hroom := room (a.slotOf memoryBank)
  omega

theorem holders_apart (owned : Owned base T reservations a) (banks : BanksApart base a)
    (hb : block T reservations h = some b) (hb' : block T reservations h' = some b') (hne : h ≠ h')
    (same : regionOf b.memoryBank = regionOf b'.memoryBank) :
    Apart (b.physicalAddress, b.size) (b'.physicalAddress, b'.size) := by
  refine apart_of_ne owned.banks banks (regionOf_eq.mp same) (block_used owned hb)
    (block_used owned hb') fun heq => hne ?_
  have hk : holds T reservations a h = some (key a b) := by rw [holds, hb, Option.map_some]
  have hk' : holds T reservations a h' = some (key a b') := by rw [holds, hb', Option.map_some]
  have hkeys : key a b = key a b' := heq
  exact owned.ledger.injective hk (hkeys ▸ hk')

theorem InHeld.inBlock (owned : Owned base T reservations a) (held : InHeld T reservations h r x) :
    InBlock a r x := by
  obtain ⟨b, hb, hregion, h1, h2⟩ := held
  exact ⟨b.memoryBank, (b.physicalAddress, b.size), hregion, block_used owned hb, h1, h2⟩

theorem InHeld.unique (owned : Owned base T reservations a) (banks : BanksApart base a)
    (held : InHeld T reservations h r x) (held' : InHeld T reservations h' r x) : h = h' := by
  obtain ⟨b, hb, hregion, h1, h2⟩ := held
  obtain ⟨b', hb', hregion', h1', h2'⟩ := held'
  by_contra hne
  have apart := holders_apart owned banks hb hb' hne (hregion.trans hregion'.symm)
  simp only [Apart] at apart
  omega

theorem InBlock.grow (grown : Grown a a') (h : InBlock a r x) : InBlock a' r x := by
  obtain ⟨memoryBank, e, hregion, he, h1, h2⟩ := h
  refine ⟨memoryBank, e, hregion, ?_, h1, h2⟩
  rw [grown.slots]
  exact grown.blocks _ e he

theorem banksApart_of_grown (grown : Grown a a') (banks : BanksApart base a') :
    BanksApart base a := by
  intro i j hij hne
  refine Nat.le_trans (grown.highWater (some i)) (banks i j hij ?_)
  obtain ⟨e, he⟩ := List.exists_mem_of_ne_nil _ hne
  exact List.ne_nil_of_mem (grown.blocks (some j) e he)

/-! ### Tables -/

/-- The block of a table. -/
theorem table_block (own : TablesOwn memoryBank (T device)) {p : Path} {m : PageNode}
    (hm : T device p = some m) (htable : ¬ IsLeaf m.kind) :
    block T reservations (.node device p) = some ⟨memoryBank, m.physicalAddress, 4096⟩ := by
  rw [block, hm, Option.bind_some]
  exact (own p m hm htable).2

theorem tablePage_held (own : TablesOwn memoryBank (T device)) (page : TablePage (T device) r x) :
    ∃ q m, T device q = some m ∧ ¬ IsLeaf m.kind ∧ InHeld T reservations (.node device q) r x := by
  obtain ⟨q, m, hm, htable, hregion, h1, h2⟩ := page
  rw [(own q m hm htable).1] at hregion
  exact ⟨q, m, hm, htable, _, table_block own hm htable, hregion, h1, h2⟩

theorem tablePage_of_slot {t : Nodes} (own : TablesOwn memoryBank t) {p : Path} {m : PageNode}
    {i : Nat} (hm : t p = some m) (hi : hasIndex i m.kind) (h1 : m.physicalAddress + i * 8 ≤ x)
    (h2 : x < m.physicalAddress + i * 8 + 8) : TablePage t (regionOf memoryBank) x := by
  have hlt := hasIndex_lt hi
  have htable := not_isLeaf_of_hasIndex hi
  exact ⟨p, m, hm, htable, by rw [(own p m hm htable).1], by omega, by omega⟩

/-- The block of a client or a node keeps out tables, its own apart. -/
theorem InHeld.not_tablePage (owned : Owned base T reservations a) (banks : BanksApart base a)
    (own : TablesOwn memoryBank (T device)) (held : InHeld T reservations h r x)
    (other : ∀ q m, h = .node device q → T device q = some m → IsLeaf m.kind) :
    ¬ TablePage (T device) r x := by
  intro page
  obtain ⟨q, m, hm, htable, held'⟩ := tablePage_held own page
  exact htable (other q m (held.unique owned banks held') hm)

theorem tablesAligned_of_owned (owned : Owned base T reservations a) (room : Unexhausted a)
    (aligned : TableBlocksAligned a) (own : TablesOwn memoryBank (T device)) :
    TablesAligned (T device) := by
  intro p m hm htable
  have hb := @table_block T reservations device memoryBank own p m hm htable
  have hused := block_used owned hb
  have hfits := block_fits owned room hb
  simp only at hused hfits
  exact ⟨aligned _ _ hused rfl, by omega⟩

theorem tablesApart_of_owned (owned : Owned base T reservations a) (banks : BanksApart base a)
    (own : TablesOwn memoryBank (T device)) : TablesApart (T device) := by
  intro p p' m m' hm hm' htable htable' hne
  have hb := @table_block T reservations device memoryBank own p m hm htable
  have hb' := @table_block T reservations device memoryBank own p' m' hm' htable'
  exact holders_apart owned banks hb hb' (by simp [hne]) rfl

/-- Memory that changes outside the tables stays faithful to them. -/
theorem faithful_apart {t : Nodes} (aligned : TablesAligned t) (own : TablesOwn memoryBank t)
    (apart : ∀ x, image' (regionOf memoryBank) x ≠ image (regionOf memoryBank) x →
      ¬ TablePage t (regionOf memoryBank) x)
    (faithful : Faithful gpu t (word image (regionOf memoryBank))) :
    Faithful gpu t (word image' (regionOf memoryBank)) := by
  have hr := regionOf_ne_gtt memoryBank
  intro p m i hm hi present
  have same : word image' (regionOf memoryBank) (m.physicalAddress + i * 8) =
      word image (regionOf memoryBank) (m.physicalAddress + i * 8) := by
    refine word_congr hr (slot_fits aligned hm hi) fun x h1 h2 => ?_
    by_contra hchange
    exact apart x hchange (tablePage_of_slot own hm hi h1 h2)
  rw [same] at present ⊢
  exact faithful p m i hm hi present

/-- A page that owns its block is in it. -/
theorem page_held {n : Nat} {p : MappedPages.MappedPage} (hn : 4 ≤ n)
    (owned : Owned base T reservations a) (wf : Wf n (T device))
    (hp : MappedPages.pageAt n (T device) x = some p) (hb : p.owned = some b)
    (hsize : b.size = p.size) :
    ∃ q leaf, T device q = some leaf ∧ IsLeaf leaf.kind ∧
      InHeld T reservations (.node device q) (regionOf p.memoryBank)
        (p.physicalAddress + x % p.size) := by
  obtain ⟨leaf, hleaf, rfl⟩ := Option.map_eq_some_iff.mp hp
  obtain ⟨m, hm, hslot⟩ := Option.bind_eq_some_iff.mp hleaf
  obtain ⟨hbank, haddress⟩ := owned.own device _ leaf b hslot hb
  have hpos := (isRegion_of_regionAt wf hn hm).getPageSize_pos
  rw [← pageSizeAt_of_region hm] at hpos
  have hmod := Nat.mod_lt x hpos
  refine ⟨_, leaf, hslot, isLeaf_of_leafAt wf hn hm hslot, b, ?_, ?_, ?_, ?_⟩
  · rw [block, hslot, Option.bind_some]
    exact hb
  · rw [← hbank]
    rfl
  · rw [← haddress]
    exact Nat.le_add_right _ _
  · rw [← haddress, hsize]
    exact Nat.add_lt_add_left hmod _

/-! ### Changes -/

theorem ChangedIn.trans {image'' : AubPackets.Memory} (h : ChangedIn T device a image image')
    (h' : ChangedIn T device a image' image'') : ChangedIn T device a image image'' := by
  intro r x hr hchange
  by_cases hsame : image'' r x = image' r x
  · exact h r x hr (hsame ▸ hchange)
  · exact h' r x hr hsame

theorem ChangedIn.grow (h : ChangedIn T device a image image') (grown : Grown a a') :
    ChangedIn T device a' image image' := by
  intro r x hr hchange
  obtain ⟨inBlock, others⟩ := h r x hr hchange
  exact ⟨inBlock.grow grown, others⟩

theorem ChangedIn.congr (h : ChangedIn T device a image image')
    (same : ∀ other, other ≠ device → T' other = T other) : ChangedIn T' device a image image' := by
  intro r x hr hchange
  obtain ⟨inBlock, others⟩ := h r x hr hchange
  exact ⟨inBlock, fun other hne => same other hne ▸ others other hne⟩

/-- Entries that go to the device's tables. -/
theorem changedIn_entries (owned : Owned base T reservations a) (banks : BanksApart base a)
    {bank : Nat → Nat} (own : ∀ d, TablesOwn (bank d) (T d)) (hr : r ≠ .gtt)
    {es : List PageEntryInfo} (places : ∀ e ∈ es, e.physicalAddress + 8 ≤ 2 ^ 64 ∧
      ∀ x, e.physicalAddress ≤ x → x < e.physicalAddress + 8 → TablePage (T device) r x) :
    ChangedIn T device a image (storeEntries r image es) := by
  intro r' x _ hchange
  obtain ⟨rfl, page⟩ : r' = r ∧ TablePage (T device) r x := by
    by_contra hno
    refine hchange (storeEntries_outside hr fun e he => ⟨(places e he).1, fun heq => ?_⟩)
    by_contra hin
    exact hno ⟨heq, (places e he).2 x (by omega) (by omega)⟩
  obtain ⟨q, _, _, _, held⟩ := @tablePage_held T reservations device r' x _ (own device) page
  refine ⟨held.inBlock owned, fun other hne => ?_⟩
  exact held.not_tablePage owned banks (own other) fun q' m heq _ => by
    rw [Holder.node.injEq] at heq
    exact absurd heq.1.symm hne

/-! ### Walks -/

/-- Nodes that stay keep their blocks. -/
theorem block_of_grows {t t' : Nodes} (grows : Grows t t')
    (hb : block (Function.update T device t) reservations h = some b) :
    block (Function.update T device t') reservations h = some b := by
  cases h with
  | reservation index => exact hb
  | node d q =>
    by_cases hd : d = device
    · subst d
      rw [block_self] at hb ⊢
      obtain ⟨m, hm, halloc⟩ := Option.bind_eq_some_iff.mp hb
      obtain ⟨m', hm', same⟩ := grows q m hm
      rw [hm', Option.bind_some, same.allocator, halloc]
    · simp only [block, Function.update_of_ne hd] at hb ⊢
      exact hb

/-- A table that was not there is not made from a block in use. -/
theorem newTable_fresh (owned : Owned base T reservations a) (owned' : Owned base T' reservations a')
    (grown : Grown a a') (own' : TablesOwn memoryBank (T' device))
    (kept : ∀ h b, block T reservations h = some b → block T' reservations h = some b)
    {p : Path} {m : PageNode} (hm : T' device p = some m) (hidle : T device p = none)
    (htable : ¬ IsLeaf m.kind) :
    (m.physicalAddress, 4096) ∉ (a.get (a.slotOf memoryBank)).usedAllocationsMap := by
  intro hused
  -- its holder holds it still, so it is this table
  obtain ⟨h, hk⟩ := owned.ledger.used_held
    (show (a.slotOf memoryBank, (m.physicalAddress, 4096)) ∈ inUse a from hused)
  obtain ⟨b, hblock, hkey⟩ := Option.map_eq_some_iff.mp hk
  have hk' : holds T' reservations a' h = some (key a' b) := by
    rw [holds, kept h b hblock, Option.map_some]
  have hnew : holds T' reservations a' (.node device p) =
      some (key a' ⟨memoryBank, m.physicalAddress, 4096⟩) := by
    rw [holds, table_block own' hm htable, Option.map_some]
  have hkeys : key a' b = key a' ⟨memoryBank, m.physicalAddress, 4096⟩ := by
    rw [key_congr grown.slots, hkey]
    rfl
  obtain rfl := owned'.ledger.injective hk' (hkeys ▸ hnew)
  rw [block, hidle] at hblock
  cases hblock

/-- The page of a table that was not there: a free block, or memory that nothing has written. -/
theorem newTable_even (owned : Owned base T reservations a)
    (owned' : Owned base T' reservations a') (room' : Unexhausted a') (banks' : BanksApart base a')
    (aligned' : TableBlocksAligned a') (grown : Grown a a') (own' : TablesOwn memoryBank (T' device))
    (kept : ∀ h b, block T reservations h = some b → block T' reservations h = some b)
    (blank : ∀ x, image (regionOf memoryBank) x ≠ 0 → InBlock a (regionOf memoryBank) x)
    (clean : ∀ e ∈ (a.get (a.slotOf memoryBank)).freeAllocationsMap, e.2 = 4096 → ∀ i, i < 512 →
      word image (regionOf memoryBank) (e.1 + i * 8) % 2 = 0)
    {p : Path} {m : PageNode} {i : Nat} (hm : T' device p = some m) (hidle : T device p = none)
    (hi : hasIndex i m.kind) :
    word image (regionOf memoryBank) (m.physicalAddress + i * 8) % 2 = 0 := by
  have htable := not_isLeaf_of_hasIndex hi
  have hlt := hasIndex_lt hi
  have hb := @table_block T' reservations device memoryBank own' p m hm htable
  have fresh := newTable_fresh owned owned' grown own' kept hm hidle htable
  by_cases hold : (m.physicalAddress, 4096) ∈ blocks (a.get (a.slotOf memoryBank))
  · exact clean _ ((List.mem_append.mp hold).resolve_left fresh) rfl i hlt
  · have fits := slot_fits (tablesAligned_of_owned owned' room' aligned' own') hm hi
    refine even_of_blank (fun x h1 h2 => ?_) (regionOf_ne_gtt _) fits
    by_contra hwritten
    obtain ⟨memoryBank', e, hregion, he, h3, h4⟩ := blank x hwritten
    have he' := grown.blocks _ e he
    rw [← grown.slots] at he'
    by_cases hsame : (a'.slotOf memoryBank', e) = (a'.slotOf memoryBank, (m.physicalAddress, 4096))
    · rw [Prod.mk.injEq, grown.slots, grown.slots] at hsame
      rw [hsame.1, hsame.2] at he
      exact hold he
    · have apart := apart_of_ne owned'.banks banks' (regionOf_eq.mp hregion) he'
        (block_used owned' hb) hsame
      simp only [Apart] at apart
      omega

/-- A byte of a block in use that was in no table is in none after a walk. -/
theorem not_tablePage_walk (owned : Owned base T reservations a)
    (owned' : Owned base T' reservations a') (banks' : BanksApart base a') (grown : Grown a a')
    (own' : TablesOwn memoryBank (T' device))
    (kept : ∀ h b, block T reservations h = some b → block T' reservations h = some b)
    (grows : Grows (T device) (T' device))
    {memoryBank' : Nat} {e : Nat × Nat}
    (he : e ∈ (a.get (a.slotOf memoryBank')).usedAllocationsMap) (h1 : e.1 ≤ x) (h2 : x < e.1 + e.2)
    (none' : ¬ TablePage (T device) (regionOf memoryBank') x) :
    ¬ TablePage (T' device) (regionOf memoryBank') x := by
  rintro ⟨p, m, hm, htable, hregion, h3, h4⟩
  cases hold : T device p with
  | none =>
    have fresh := newTable_fresh owned owned' grown own' kept hm hold htable
    have hb := @table_block T' reservations device memoryBank own' p m hm htable
    rw [(own' p m hm htable).1] at hregion
    have he' := grown.blocks _ e (List.mem_append_left _ he)
    rw [← grown.slots] at he'
    have apart := apart_of_ne owned'.banks banks' (regionOf_eq.mp hregion.symm) he'
      (block_used owned' hb) fun hsame => by
        rw [Prod.mk.injEq, grown.slots, grown.slots] at hsame
        rw [hsame.1, hsame.2] at he
        exact fresh he
    simp only [Apart] at apart
    omega
  | some m₀ =>
    obtain ⟨m', hm', same⟩ := grows p m₀ hold
    obtain rfl := Option.some.inj (hm.symm.trans hm')
    have htable₀ : ¬ IsLeaf m₀.kind := same.kind ▸ htable
    obtain ⟨haddress, hbank⟩ := same.table htable₀
    exact none' ⟨p, m₀, hold, htable₀, hbank ▸ hregion, by omega, by omega⟩

end

end MemoryBlocks
