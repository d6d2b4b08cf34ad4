import Aubstream.EntryPackets

/-!
# Pages of a buffer in an AUB file

Pages are collected into discontiguous packets as long as they fit, and written
on their own where they do not. A page of 16GB or more has its dwords counted in
32 bits, so that it can pass for one that fits.
-/

namespace DataPackets
open AubPackets AubFileStream EntryPackets PageWalker EntryBits

def total (pages : List PageInfo) : Nat := (pages.map PageInfo.size).sum

/-- Each page's slice of the buffer from `ptr` on, at its address and in its address space. -/
def storePages : Memory → List UInt8 → Nat → List PageInfo → Memory
  | m, _, _, [] => m
  | m, memory, ptr, e :: rest =>
    storePages (TbxStream.writeMemory m e.physicalAddress (slice memory ptr e.size) e.isLocalMemory)
      memory (ptr + e.size) rest

/-- The address and the slice of each page. -/
def blocksOf (memory : List UInt8) : Nat → List PageInfo → List (Nat × List UInt8)
  | _, [] => []
  | ptr, e :: rest =>
    (wrap64 e.physicalAddress, slice memory ptr e.size) :: blocksOf memory (ptr + e.size) rest

/-- The page's dwords, counted in 32 bits, are its dwords. -/
def Counted (e : PageInfo) : Prop := e.size / 4 < 2 ^ 32

instance (e : PageInfo) : Decidable (Counted e) := inferInstanceAs (Decidable (_ < _))

/-- A page that goes into a discontiguous packet. -/
def Collected (isLocalMemory : Bool) (e : PageInfo) : Prop :=
  isSeparate isLocalMemory e = false ∧ pageDwordCount e ≤ maxDataDwordCount

/-- No page of a longer table is collected with a wrong count. -/
def Representable (table : List PageInfo) : Prop :=
  ∀ first rest, table = first :: rest → rest ≠ [] →
    ∀ e ∈ table, Collected first.isLocalMemory e → Counted e

/-- The file is read back as packets that write what `TbxStream` writes. -/
def Replays (memory : List UInt8) (table : List PageInfo) (hint : Nat) : Prop :=
  ∃ packets ws, Framing.frames packetSize (writeDiscontiguousPages memory table hint) =
      some packets ∧
    writeDiscontiguousPages memory table hint = packets.flatten ∧
    (∀ p ∈ packets, p.length = 4 * (dwordCount p + 1) ∧ dwordCount p ≤ 0xFFFF ∧
      (subOpcode p = discontiguousSubOpcode → numberOfAddressDataPairs p ≤ maxEntries)) ∧
    decodeAll packets = some ws ∧
    ∀ m, replay m ws = TbxStream.writeDiscontiguousPages m memory table

theorem total_cons (e : PageInfo) (rest : List PageInfo) :
    total (e :: rest) = e.size + total rest := List.sum_cons

theorem total_append (xs ys : List PageInfo) : total (xs ++ ys) = total xs + total ys := by
  rw [total, List.map_append, List.sum_append]
  rfl

theorem storePages_append (m : Memory) (memory : List UInt8) (ptr : Nat) (xs ys : List PageInfo) :
    storePages m memory ptr (xs ++ ys) =
      storePages (storePages m memory ptr xs) memory (ptr + total xs) ys := by
  induction xs generalizing m ptr with
  | nil => rfl
  | cons e rest ih => rw [List.cons_append, storePages, storePages, ih, total_cons, Nat.add_assoc]

theorem storePages_eq (m : Memory) (memory : List UInt8) (ptr : Nat) (table : List PageInfo) :
    storePages m memory ptr table =
      TbxStream.writeDiscontiguousPages m (memory.drop ptr) table := by
  induction table generalizing m ptr with
  | nil => rfl
  | cons e rest ih =>
    rw [storePages, TbxStream.writeDiscontiguousPages, ih, List.drop_drop]
    rfl

theorem length_slice {memory : List UInt8} {ptr size : Nat} (h : ptr + size ≤ memory.length) :
    (slice memory ptr size).length = size := by
  rw [slice, List.length_take, List.length_drop]
  omega

theorem length_blocksOf (memory : List UInt8) (ptr : Nat) (pages : List PageInfo) :
    (blocksOf memory ptr pages).length = pages.length := by
  induction pages generalizing ptr with
  | nil => rfl
  | cons e rest ih => rw [blocksOf, List.length_cons, ih, List.length_cons]

/-- A buffer that is long enough gives each page a block of its size. -/
theorem blocksOf_sizes {memory : List UInt8} {ptr : Nat} {pages : List PageInfo}
    (h : ptr + total pages ≤ memory.length) :
    (blocksOf memory ptr pages).map (fun b => (b.1, b.2.length)) =
      pages.map fun e => (wrap64 e.physicalAddress, e.size) := by
  induction pages generalizing ptr with
  | nil => rfl
  | cons e rest ih =>
    rw [total_cons] at h
    rw [blocksOf, List.map_cons, List.map_cons, ih (by omega), length_slice (by omega)]

theorem dumpPages_eq {isLocalMemory : Bool} {memory : List UInt8} {ptr : Nat}
    {pages : List PageInfo} (collected : ∀ e ∈ pages, Collected isLocalMemory e) :
    dumpPages isLocalMemory memory pages ptr = ((blocksOf memory ptr pages).map Prod.snd).flatten := by
  induction pages generalizing ptr with
  | nil => rfl
  | cons e rest ih =>
    have first := (collected e List.mem_cons_self).1
    rw [dumpPages, blocksOf, List.map_cons, List.flatten_cons,
      ih fun x mem => collected x (List.mem_cons_of_mem _ mem), first]
    rfl

theorem length_dumpPages {isLocalMemory : Bool} {memory : List UInt8} {ptr : Nat}
    {pages : List PageInfo} (collected : ∀ e ∈ pages, Collected isLocalMemory e)
    (h : ptr + total pages ≤ memory.length) :
    (dumpPages isLocalMemory memory pages ptr).length = total pages := by
  induction pages generalizing ptr with
  | nil => rfl
  | cons e rest ih =>
    rw [total_cons] at h
    have first := (collected e List.mem_cons_self).1
    rw [dumpPages, first, List.length_append,
      ih (fun x mem => collected x (List.mem_cons_of_mem _ mem)) (by omega), total_cons]
    simp only [Bool.false_eq_true, if_false]
    rw [length_slice (by omega)]

theorem region_addressSpaceOf (isLocalMemory : Bool) : region (addressSpaceOf isLocalMemory) =
    if isLocalMemory then .localMemory else .systemMemory := by
  cases isLocalMemory <;> rfl

theorem addressSpaceOf_lt (isLocalMemory : Bool) : addressSpaceOf isLocalMemory < 2 ^ 4 := by
  cases isLocalMemory <;> decide

theorem Collected.same {isLocalMemory : Bool} {e : PageInfo} (h : Collected isLocalMemory e) :
    e.size % 4 = 0 ∧ e.isLocalMemory = isLocalMemory := by
  have separate := h.1
  simp only [isSeparate, Bool.or_eq_false_iff, decide_eq_false_iff_not, Decidable.not_not,
    bne_eq_false_iff_eq] at separate
  exact ⟨separate.1.1, separate.2.symm⟩

/-- The writes of a packet are the pages it was collected from. -/
theorem replay_blocksOf {isLocalMemory : Bool} {memory : List UInt8} {ptr : Nat}
    {pages : List PageInfo} (collected : ∀ e ∈ pages, Collected isLocalMemory e) (m : Memory) :
    replay m ((blocksOf memory ptr pages).map fun b =>
        ⟨addressSpaceOf isLocalMemory, b.1 % 2 ^ 64, b.2⟩) = storePages m memory ptr pages := by
  induction pages generalizing m ptr with
  | nil => rfl
  | cons e rest ih =>
    have same := (collected e List.mem_cons_self).same.2
    rw [blocksOf, List.map_cons, storePages,
      ← ih fun x mem => collected x (List.mem_cons_of_mem _ mem), TbxStream.writeMemory, same,
      ← region_addressSpaceOf]
    rw [store_congr (show e.physicalAddress % 2 ^ 64 =
      wrap64 e.physicalAddress % 2 ^ 64 % 2 ^ 64 by rw [wrap64]; omega)]
    rfl

/-- The counted dwords of pages, against their dwords. -/
theorem pageDwordCount_le {e : PageInfo} (h : e.size % 4 = 0) : 4 * pageDwordCount e ≤ e.size := by
  unfold pageDwordCount
  omega

theorem pageDwordCount_eq {e : PageInfo} (h : e.size % 4 = 0) :
    4 * pageDwordCount e = e.size ↔ Counted e := by
  unfold pageDwordCount Counted
  constructor <;> intro _ <;> omega

theorem Collected.size_lt {isLocalMemory : Bool} {e : PageInfo} (h : Collected isLocalMemory e)
    (right : Counted e) : e.size < 2 ^ 32 := by
  have exact' := (pageDwordCount_eq h.same.1).mpr right
  have limit : pageDwordCount e ≤ 65345 := h.2
  omega

def counted (pages : List PageInfo) : Nat := (pages.map pageDwordCount).sum

theorem counted_cons (e : PageInfo) (rest : List PageInfo) :
    counted (e :: rest) = pageDwordCount e + counted rest := List.sum_cons

theorem counted_append (xs ys : List PageInfo) : counted (xs ++ ys) = counted xs + counted ys := by
  rw [counted, List.map_append, List.sum_append]
  rfl

theorem counted_le {isLocalMemory : Bool} {pages : List PageInfo}
    (collected : ∀ e ∈ pages, Collected isLocalMemory e) :
    4 * counted pages ≤ total pages ∧ total pages % 4 = 0 := by
  induction pages with
  | nil => exact ⟨Nat.le_refl 0, rfl⟩
  | cons e rest ih =>
    have aligned := (collected e List.mem_cons_self).same.1
    have first := pageDwordCount_le aligned
    have later := ih fun x mem => collected x (List.mem_cons_of_mem _ mem)
    rw [counted_cons, total_cons]
    omega

/-- The dwords of collected pages are counted if they are for each page. -/
theorem counted_eq {isLocalMemory : Bool} {pages : List PageInfo}
    (collected : ∀ e ∈ pages, Collected isLocalMemory e) :
    4 * counted pages = total pages ↔ ∀ e ∈ pages, Counted e := by
  induction pages with
  | nil => exact ⟨fun _ => nofun, fun _ => rfl⟩
  | cons e rest ih =>
    have aligned := (collected e List.mem_cons_self).same.1
    have first := pageDwordCount_le aligned
    have tail : ∀ x ∈ rest, Collected isLocalMemory x :=
      fun x mem => collected x (List.mem_cons_of_mem _ mem)
    have later := (counted_le tail).1
    rw [counted_cons, total_cons, List.forall_mem_cons, ← ih tail, ← pageDwordCount_eq aligned]
    constructor
    · intro h
      omega
    · rintro ⟨h, h'⟩
      omega

/-- The token after the pages `done`: what was written and what is pending make up `done`. -/
structure PageInv (isLocalMemory : Bool) (memory : List UInt8) (done : List PageInfo)
    (t : PageToken) : Prop where
  flushed : ∃ before ws, done = before ++ t.pending ∧ t.ptrDump = total before ∧
    Emits t.out ws ∧ ∀ m, replay m ws = storePages m memory 0 before
  ptr : t.ptr = total done
  collected : ∀ e ∈ t.pending, Collected isLocalMemory e
  index : t.index = t.pending.length
  bound : t.index ≤ maxEntries
  dwordCount : t.dwordCount = if t.index = 0 then 0 else headerDwordCount + counted t.pending
  small : t.dwordCount ≤ maxDwordCount
  length : t.pairs.length = maxEntries
  pairs : t.pairs.take t.index =
    t.pending.map fun e => (wrap64 e.physicalAddress, e.size % 2 ^ 32)

theorem pageInv_new (isLocalMemory : Bool) (memory : List UInt8) :
    PageInv isLocalMemory memory [] .new :=
  ⟨⟨[], [], rfl, rfl, emits_nil, fun _ => rfl⟩, rfl, nofun, rfl, Nat.zero_le _, rfl,
    Nat.zero_le _, rfl, rfl⟩

section
variable {isLocalMemory : Bool} {memory : List UInt8} (hint : Nat) {done : List PageInfo}
  {t : PageToken}

theorem PageInv.empty (inv : PageInv isLocalMemory memory done t) (none : t.index = 0) :
    t.pending = [] := List.length_eq_zero_iff.mp (inv.index.symm.trans none)

/-- Flushing pages that were counted right writes all that was done so far. -/
theorem PageInv.flush (inv : PageInv isLocalMemory memory done t)
    (enough : total done ≤ memory.length) (right : ∀ e ∈ t.pending, Counted e) :
    PageInv isLocalMemory memory done (flushDiscontiguousToken isLocalMemory memory hint t) ∧
      (flushDiscontiguousToken isLocalMemory memory hint t).pending = [] := by
  unfold flushDiscontiguousToken
  by_cases none : t.index = 0
  · rw [if_pos none]
    exact ⟨inv, inv.empty none⟩
  rw [if_neg none]
  obtain ⟨before, ws, rfl, hdump, written, hws⟩ := inv.flushed
  have count := inv.dwordCount
  rw [if_neg none] at count
  have small := inv.small
  have bytes := (counted_eq inv.collected).mpr right
  rw [total_append] at enough
  have room : t.ptrDump + total t.pending ≤ memory.length := by omega
  have hlen := length_blocksOf memory t.ptrDump t.pending
  have sizes := blocksOf_sizes room
  have packet : Emits (discontiguousHeader t.dwordCount t.index hint (addressSpaceOf isLocalMemory)
      t.pairs ++ dumpPages isLocalMemory memory t.pending t.ptrDump)
      ((blocksOf memory t.ptrDump t.pending).map fun b =>
        ⟨addressSpaceOf isLocalMemory, b.1 % 2 ^ 64, b.2⟩) := by
    have length := length_dumpPages inv.collected room
    have most : maxDwordCount = 65535 := rfl
    have header : headerDwordCount = 190 := rfl
    rw [dumpPages_eq inv.collected] at length ⊢
    rw [inv.index, ← hlen]
    apply emits_discontiguous (addressSpaceOf_lt isLocalMemory)
    · omega
    · exact inv.length
    · rw [hlen, ← inv.index]
      exact inv.bound
    · rw [sizes, hlen, ← inv.index, inv.pairs]
      refine List.map_congr_left fun e mem => ?_
      rw [Nat.mod_eq_of_lt ((inv.collected e mem).size_lt (right e mem))]
    · intro b mem
      have pair : (b.1, b.2.length) ∈
          (blocksOf memory t.ptrDump t.pending).map fun b => (b.1, b.2.length) :=
        List.mem_map.mpr ⟨b, mem, rfl⟩
      rw [sizes] at pair
      obtain ⟨e, hmem, heq⟩ := List.mem_map.mp pair
      rw [← (Prod.mk.inj heq).2]
      exact (inv.collected e hmem).size_lt (right e hmem)
    · rw [length, count]
      unfold sizeDiscontiguousHeader
      omega
  refine ⟨⟨⟨before ++ t.pending, _, (List.append_nil _).symm, ?_, written.append packet, ?_⟩,
    inv.ptr, nofun, rfl, Nat.zero_le _, rfl, Nat.zero_le _, inv.length, rfl⟩, rfl⟩
  · rw [total_append, ← hdump]
    rfl
  · intro m
    rw [replay_append, hws, replay_blocksOf inv.collected, storePages_append, Nat.zero_add, hdump]

/-- A page that is written on its own. -/
theorem PageInv.separate (inv : PageInv isLocalMemory memory done t) (nothing : t.pending = [])
    (e : PageInfo) :
    PageInv isLocalMemory memory (done ++ [e])
      { t with
        out := t.out ++ writeContiguousPages (slice memory t.ptr e.size) e.physicalAddress
          (addressSpaceOf e.isLocalMemory) hint
        pending := []
        ptrDump := t.ptr + e.size
        ptr := t.ptr + e.size } := by
  obtain ⟨before, ws, hdone, hdump, written, hws⟩ := inv.flushed
  rw [nothing, List.append_nil] at hdone
  subst hdone
  obtain ⟨ws', written', hws'⟩ := writeContiguousPages_emits (addressSpaceOf_lt e.isLocalMemory)
    (slice memory t.ptr e.size) e.physicalAddress hint
  have none : t.index = 0 := by rw [inv.index, nothing]; rfl
  have count := inv.dwordCount
  have sum : t.ptr + e.size = total (done ++ [e]) := by
    rw [total_append, total_cons, inv.ptr]
    rfl
  refine ⟨⟨done ++ [e], ws ++ ws', (List.append_nil _).symm, sum, written.append written', ?_⟩, sum,
    nofun, none, inv.bound, ?_, inv.small, inv.length, ?_⟩
  · intro m
    rw [replay_append, hws, hws', storePages_append, Nat.zero_add, region_addressSpaceOf, inv.ptr]
    rfl
  · rw [if_pos none] at count ⊢
    exact count
  · rw [none]
    rfl

/-- A page that is collected by a token whose header has been counted. -/
theorem PageInv.push (inv : PageInv isLocalMemory memory done t) (count : Nat)
    (header : count = headerDwordCount + counted t.pending) (room : t.index < maxEntries)
    {e : PageInfo} (collected : Collected isLocalMemory e)
    (fits : pageDwordCount e + count ≤ maxDwordCount) :
    PageInv isLocalMemory memory (done ++ [e])
      { t with
        dwordCount := (count + pageDwordCount e) % 2 ^ 16
        pairs := t.pairs.set t.index (wrap64 e.physicalAddress, e.size % 2 ^ 32)
        index := t.index + 1
        pending := t.pending ++ [e]
        ptr := t.ptr + e.size } := by
  have most : maxDwordCount = 65535 := rfl
  obtain ⟨before, ws, hdone, hdump, written, hws⟩ := inv.flushed
  have all : counted (t.pending ++ [e]) = counted t.pending + pageDwordCount e := by
    rw [counted_append, counted_cons]
    rfl
  constructor
  · exact ⟨before, ws, by rw [hdone, List.append_assoc], hdump, written, hws⟩
  · show t.ptr + e.size = total (done ++ [e])
    rw [total_append, total_cons, inv.ptr]
    rfl
  · intro x mem
    rcases List.mem_append.mp mem with mem | mem
    · exact inv.collected x mem
    · exact List.mem_singleton.mp mem ▸ collected
  · simp only [List.length_append, List.length_singleton, inv.index]
  · exact room
  · simp only [Nat.add_one_ne_zero, if_false, all]
    omega
  · simp only
    omega
  · simp only [List.length_set, inv.length]
  · simp only [List.map_append, ← inv.pairs, List.map_cons, List.map_nil]
    rw [List.take_succ_eq_append_getElem (by rw [List.length_set, inv.length]; exact room),
      List.take_set_of_le (Nat.le_refl _), List.getElem_set_self]

/-- A page that there is room for is added to what is pending, any other is preceded by a flush. -/
theorem storePage_spec (inv : PageInv isLocalMemory memory done t) (e : PageInfo) :
    ((∃ more, (storePage isLocalMemory memory hint t e).out =
        (flushDiscontiguousToken isLocalMemory memory hint t).out ++ more) ∧
      (PageInv isLocalMemory memory done (flushDiscontiguousToken isLocalMemory memory hint t) →
        (flushDiscontiguousToken isLocalMemory memory hint t).pending = [] →
        PageInv isLocalMemory memory (done ++ [e]) (storePage isLocalMemory memory hint t e))) ∨
    PageInv isLocalMemory memory (done ++ [e]) (storePage isLocalMemory memory hint t e) ∧
      (storePage isLocalMemory memory hint t e).pending = t.pending ++ [e] := by
  have header : headerDwordCount = 190 := rfl
  have most : maxDwordCount = 65535 := rfl
  have limit : maxDataDwordCount = 65345 := rfl
  have count := inv.dwordCount
  by_cases separate : isSeparate isLocalMemory e = true ∨ maxDataDwordCount < pageDwordCount e
  · left
    rw [storePage, if_pos separate]
    exact ⟨⟨_, rfl⟩, fun flushed nothing => flushed.separate hint nothing e⟩
  · have collected : Collected isLocalMemory e := by
      rw [not_or] at separate
      exact ⟨Bool.eq_false_iff.mpr separate.1, Nat.le_of_not_lt separate.2⟩
    have fits := collected.2
    simp only [storePage, if_neg separate]
    by_cases none : t.index = 0
    · right
      rw [if_pos none] at count
      have nothing := inv.empty none
      obtain ⟨out, dwords, pairs, index, pending, ptrDump, ptr⟩ := t
      obtain rfl : index = 0 := none
      obtain rfl : dwords = 0 := count
      have fresh : ¬ (maxEntries ≤ 0 ∨ maxDwordCount < pageDwordCount e + headerDwordCount) := by
        unfold maxEntries
        omega
      simp only [if_true, if_neg fresh]
      refine ⟨inv.push headerDwordCount ?_ (Nat.succ_pos 62) collected (by omega), trivial⟩
      rw [show pending = [] from nothing]
      rfl
    · rw [if_neg none] at count
      rw [if_neg (show ¬ t.dwordCount = 0 by omega)]
      by_cases full : maxEntries ≤ t.index ∨ maxDwordCount < pageDwordCount e + t.dwordCount
      · left
        rw [if_pos full]
        have flushedOut : ∀ u : PageToken, u.out ++ [] = u.out := fun u => List.append_nil u.out
        refine ⟨⟨[], (flushedOut _).symm⟩, fun flushed nothing => ?_⟩
        refine flushed.push headerDwordCount ?_ ?_ collected (by omega)
        · rw [nothing]
          rfl
        · rw [flushed.index, nothing]
          exact Nat.succ_pos 62
      · right
        rw [if_neg full]
        rw [not_or] at full
        exact ⟨inv.push _ count (Nat.lt_of_not_le full.1) collected (Nat.le_of_not_lt full.2), rfl⟩

theorem PageInv.pending_subset (inv : PageInv isLocalMemory memory done t) {e : PageInfo}
    (mem : e ∈ t.pending) : e ∈ done := by
  obtain ⟨before, ws, rfl, -⟩ := inv.flushed
  exact List.mem_append_right _ mem

theorem foldl_storePage_inv (inv : PageInv isLocalMemory memory done t) {table : List PageInfo}
    (right : ∀ e ∈ done ++ table, Collected isLocalMemory e → Counted e)
    (enough : total (done ++ table) ≤ memory.length) :
    PageInv isLocalMemory memory (done ++ table)
      (table.foldl (storePage isLocalMemory memory hint) t) := by
  induction table generalizing done t with
  | nil => simpa using inv
  | cons e rest ih =>
    have step : PageInv isLocalMemory memory (done ++ [e])
        (storePage isLocalMemory memory hint t e) := by
      rcases storePage_spec hint inv e with ⟨-, spec⟩ | ⟨kept, -⟩
      · rw [total_append] at enough
        obtain ⟨flushed, nothing⟩ := inv.flush hint (by omega) fun x mem =>
          right x (List.mem_append_left _ (inv.pending_subset mem)) (inv.collected x mem)
        exact spec flushed nothing
      · exact kept
    have split : done ++ e :: rest = done ++ [e] ++ rest := by rw [List.append_assoc]; rfl
    rw [split] at right enough ⊢
    exact ih step right enough

end

/-- Pages that are counted right are replayed from the file. -/
theorem replays_of_representable {memory : List UInt8} {table : List PageInfo} (hint : Nat)
    (nonempty : table ≠ []) (length : memory.length = total table)
    (representable : Representable table) : Replays memory table hint := by
  have emits : ∃ ws, Emits (writeDiscontiguousPages memory table hint) ws ∧
      ∀ m, replay m ws = TbxStream.writeDiscontiguousPages m memory table := by
    cases table with
    | nil => exact absurd rfl nonempty
    | cons first rest =>
      cases rest with
      | nil =>
        obtain ⟨ws, emits, hws⟩ := writeContiguousPages_emits
          (addressSpaceOf_lt first.isLocalMemory) memory first.physicalAddress hint
        refine ⟨ws, emits, fun m => ?_⟩
        have whole : memory.take first.size = memory :=
          List.take_of_length_le (Nat.le_of_eq (length.trans (Nat.add_zero _)))
        rw [hws, region_addressSpaceOf]
        simp only [TbxStream.writeDiscontiguousPages, TbxStream.writeMemory, whole]
      | cons second rest =>
        have right := representable first (second :: rest) rfl (List.cons_ne_nil _ _)
        have inv := foldl_storePage_inv hint (pageInv_new first.isLocalMemory memory) right
          (Nat.le_of_eq length.symm)
        rw [List.nil_append] at inv
        obtain ⟨flushed, nothing⟩ := inv.flush hint (Nat.le_of_eq length.symm) fun x mem =>
          right x (inv.pending_subset mem) (inv.collected x mem)
        obtain ⟨before, ws, hdone, -, written, hws⟩ := flushed.flushed
        rw [nothing, List.append_nil] at hdone
        refine ⟨ws, written, fun m => ?_⟩
        rw [hws, ← hdone, storePages_eq, List.drop_zero]
  obtain ⟨ws, emitted, hws⟩ := emits
  obtain ⟨packets, framed, whole, good, decoded⟩ := emitted.frames
  exact ⟨packets, ws, framed, whole, good, decoded, hws⟩

/-- Whatever follows, a reader of these bytes comes across something that is no packet. -/
def Broken (bytes : List UInt8) : Prop :=
  ∀ more packets, Framing.frames packetSize (bytes ++ more) = some packets →
    decodeAll packets = none

theorem Broken.append {bytes : List UInt8} (broken : Broken bytes) (rest : List UInt8) :
    Broken (bytes ++ rest) := fun more packets framed =>
  broken (rest ++ more) packets (List.append_assoc bytes rest more ▸ framed)

theorem decodeAll_none {packets : List (List UInt8)} {p : List UInt8} (mem : p ∈ packets)
    (undecoded : decode p = none) : decodeAll packets = none := by
  induction packets with
  | nil => exact absurd mem List.not_mem_nil
  | cons q rest ih =>
    rcases List.mem_cons.mp mem with rfl | mem
    · rw [decodeAll, undecoded, Option.bind_none]
    · rw [decodeAll, ih mem]
      cases decode q <;> rfl

/-- A packet with at least a dword of zeros behind it. -/
theorem broken_zeros {bytes packet : List UInt8} {ws : List Write} {n : Nat} (emits : Emits bytes ws)
    (delimited : Framing.Delimited packetSize packet) :
    Broken (bytes ++ (packet ++ List.replicate (n + 4) 0)) := by
  intro more packets framed
  obtain ⟨ps, rfl, good, -⟩ := emits
  have zeros : List.replicate (n + 4) (0 : UInt8) = dword 0 ++ List.replicate n 0 := by
    rw [Nat.add_comm, List.replicate_add]
    rfl
  have zero : Framing.Delimited packetSize (dword 0) := by
    refine ⟨by simp [dword], fun rest => ?_⟩
    have long : ¬ (dword 0 ++ rest).length < 4 := by
      rw [List.length_append, length_dword]
      omega
    rw [packetSize, if_neg long, dwordCount, readDword_dword]
    rfl
  rw [List.append_assoc, Framing.frames_append (fun p mem => (good p mem).1), List.append_assoc,
    Framing.frames_cons delimited, zeros, List.append_assoc, Framing.frames_cons zero,
    Option.map_map, Option.map_map] at framed
  obtain ⟨later, -, rfl⟩ := Option.map_eq_some_iff.mp framed
  refine decodeAll_none (p := dword 0) ?_ (by decide)
  exact List.mem_append_right _ (List.mem_cons_of_mem _ List.mem_cons_self)

theorem slice_replicate {n ptr size : Nat} (h : ptr + size ≤ n) :
    slice (List.replicate n 0) ptr size = List.replicate size 0 := by
  rw [slice, List.drop_replicate, List.take_replicate, Nat.min_eq_left (by omega)]

theorem dumpPages_replicate {isLocalMemory : Bool} {n ptr : Nat} {pages : List PageInfo}
    (collected : ∀ e ∈ pages, Collected isLocalMemory e) (h : ptr + total pages ≤ n) :
    dumpPages isLocalMemory (List.replicate n 0) pages ptr = List.replicate (total pages) 0 := by
  induction pages generalizing ptr with
  | nil => rfl
  | cons e rest ih =>
    rw [total_cons] at h ⊢
    have first := (collected e List.mem_cons_self).1
    rw [dumpPages, first, ih (fun x mem => collected x (List.mem_cons_of_mem _ mem)) (by omega),
      List.replicate_add]
    simp only [Bool.false_eq_true, if_false]
    rw [slice_replicate (by omega)]

section
variable {isLocalMemory : Bool} {n : Nat} (hint : Nat) {done : List PageInfo} {t : PageToken}

/-- Flushing a page that was counted wrong leaves zeros where the next packet should be. -/
theorem PageInv.flush_broken (inv : PageInv isLocalMemory (List.replicate n 0) done t)
    (enough : total done ≤ n) {e : PageInfo} (mem : e ∈ t.pending) (wrong : ¬ Counted e) :
    Broken (flushDiscontiguousToken isLocalMemory (List.replicate n 0) hint t).out := by
  have some : t.index ≠ 0 := by
    rw [inv.index]
    exact Nat.ne_of_gt (List.length_pos_of_mem mem)
  obtain ⟨before, ws, rfl, hdump, written, -⟩ := inv.flushed
  rw [total_append] at enough
  have count := inv.dwordCount
  rw [if_neg some] at count
  have small := inv.small
  obtain ⟨le, aligned⟩ := counted_le inv.collected
  have fewer : 4 * counted t.pending ≠ total t.pending := fun h =>
    wrong ((counted_eq inv.collected).mp h e mem)
  have most : maxDwordCount = 65535 := rfl
  have header : headerDwordCount = 190 := rfl
  have excess : total t.pending =
      4 * counted t.pending + (total t.pending - 4 * counted t.pending - 4 + 4) := by
    omega
  rw [flushDiscontiguousToken, if_neg some]
  simp only
  rw [dumpPages_replicate inv.collected (by omega), excess, List.replicate_add,
    ← List.append_assoc (discontiguousHeader _ _ _ _ _)]
  refine broken_zeros written ?_
  have shape : discontiguousHeader t.dwordCount t.index hint (addressSpaceOf isLocalMemory) t.pairs ++
      List.replicate (4 * counted t.pending) 0 =
      commandHeader t.dwordCount discontiguousSubOpcode ++
        (commandFlags t.index hint (addressSpaceOf isLocalMemory) ++
          (addressDataPairs t.pairs ++ List.replicate (4 * counted t.pending) 0)) := by
    simp only [discontiguousHeader, List.append_assoc]
  rw [shape]
  apply delimited_commandHeader (by decide) (by omega)
  rw [List.length_append, List.length_append, length_commandFlags, length_addressDataPairs,
    inv.length, List.length_replicate]
  unfold maxEntries
  omega

theorem flush_out (isLocalMemory : Bool) (memory : List UInt8) (hint : Nat) (t : PageToken) :
    ∃ more, (flushDiscontiguousToken isLocalMemory memory hint t).out = t.out ++ more := by
  unfold flushDiscontiguousToken
  split
  · exact ⟨[], (List.append_nil _).symm⟩
  · exact ⟨_, rfl⟩

theorem storePage_out (isLocalMemory : Bool) (memory : List UInt8) (hint : Nat) (t : PageToken)
    (e : PageInfo) : ∃ more, (storePage isLocalMemory memory hint t e).out = t.out ++ more := by
  simp only [storePage]
  split
  · obtain ⟨more, h⟩ := flush_out isLocalMemory memory hint t
    exact ⟨_, by rw [h, List.append_assoc]⟩
  · have opened : (if t.dwordCount = 0 then { t with dwordCount := headerDwordCount, index := 0 }
        else t).out = t.out := by split <;> rfl
    generalize (if t.dwordCount = 0 then { t with dwordCount := headerDwordCount, index := 0 }
        else t) = u at *
    split
    · obtain ⟨more, h⟩ := flush_out isLocalMemory memory hint u
      exact ⟨more, h.trans (by rw [opened])⟩
    · exact ⟨[], opened.trans (List.append_nil _).symm⟩

/-- A page that is collected is pending behind it. -/
theorem storePage_pending (t : PageToken) (memory : List UInt8) {e : PageInfo}
    (collected : Collected isLocalMemory e) :
    e ∈ (storePage isLocalMemory memory hint t e).pending := by
  have direct : ¬ (isSeparate isLocalMemory e = true ∨ maxDataDwordCount < pageDwordCount e) := by
    rw [collected.1, not_or]
    exact ⟨nofun, Nat.not_lt.mpr collected.2⟩
  simp only [storePage, if_neg direct]
  exact List.mem_append_right _ (List.mem_singleton.mpr rfl)

/-- Either the file is broken, or the pages that were counted wrong are all still pending. -/
def Spoilt (isLocalMemory : Bool) (n : Nat) (done : List PageInfo) (t : PageToken) : Prop :=
  Broken t.out ∨ PageInv isLocalMemory (List.replicate n 0) done t ∧
    ∀ e ∈ done, Collected isLocalMemory e → ¬ Counted e → ∃ e' ∈ t.pending, ¬ Counted e'

theorem storePage_spoilt (spoilt : Spoilt isLocalMemory n done t) {e : PageInfo}
    (enough : total done ≤ n) :
    Spoilt isLocalMemory n (done ++ [e])
      (storePage isLocalMemory (List.replicate n 0) hint t e) := by
  rcases spoilt with broken | ⟨inv, wrong⟩
  · obtain ⟨more, h⟩ := storePage_out isLocalMemory (List.replicate n 0) hint t e
    exact .inl (h ▸ broken.append more)
  rcases storePage_spec hint inv e with ⟨⟨more, h⟩, spec⟩ | ⟨kept, pending⟩
  · by_cases right : ∀ x ∈ t.pending, Counted x
    · obtain ⟨flushed, nothing⟩ := inv.flush hint (by rwa [List.length_replicate]) right
      refine .inr ⟨spec flushed nothing, fun x mem collected bad => ?_⟩
      rcases List.mem_append.mp mem with mem | mem
      · obtain ⟨x', mem', bad'⟩ := wrong x mem collected bad
        exact absurd (right x' mem') bad'
      · obtain rfl := List.mem_singleton.mp mem
        exact ⟨x, storePage_pending hint t _ collected, bad⟩
    · simp only [not_forall] at right
      obtain ⟨x, mem, bad⟩ := right
      exact .inl (h ▸ (inv.flush_broken hint enough mem bad).append more)
  · refine .inr ⟨kept, fun x mem collected bad => ?_⟩
    rw [pending]
    rcases List.mem_append.mp mem with mem | mem
    · obtain ⟨x', mem', bad'⟩ := wrong x mem collected bad
      exact ⟨x', List.mem_append_left _ mem', bad'⟩
    · exact ⟨x, List.mem_append_right _ mem, bad⟩

theorem foldl_storePage_spoilt (spoilt : Spoilt isLocalMemory n done t) {table : List PageInfo}
    (enough : total (done ++ table) ≤ n) :
    Spoilt isLocalMemory n (done ++ table)
      (table.foldl (storePage isLocalMemory (List.replicate n 0) hint) t) := by
  induction table generalizing done t with
  | nil => simpa using spoilt
  | cons e rest ih =>
    have split : done ++ e :: rest = done ++ [e] ++ rest := by rw [List.append_assoc]; rfl
    have before : total done ≤ n := by
      rw [total_append] at enough
      omega
    rw [split] at enough ⊢
    exact ih (storePage_spoilt hint spoilt before) enough

end

/-- A page that was counted wrong breaks a file of zeros. -/
theorem not_replays_of_not_representable {table : List PageInfo} (hint : Nat)
    (misfit : ¬ Representable table) : ¬ Replays (List.replicate (total table) 0) table hint := by
  intro replays
  obtain ⟨packets, ws, framed, -, -, decoded, -⟩ := replays
  simp only [Representable, not_forall] at misfit
  obtain ⟨first, rest, rfl, more, e, mem, collected, wrong⟩ := misfit
  have fresh : Spoilt first.isLocalMemory (total (first :: rest)) [] .new :=
    .inr ⟨pageInv_new first.isLocalMemory _, nofun⟩
  have spoilt := foldl_storePage_spoilt hint fresh (Nat.le_refl (total ([] ++ first :: rest)))
  rw [List.nil_append] at spoilt
  have broken : Broken (writeDiscontiguousPages (List.replicate (total (first :: rest)) 0)
      (first :: rest) hint) := by
    cases rest with
    | nil => exact absurd rfl more
    | cons second rest =>
      rcases spoilt with broken | ⟨inv, pending⟩
      · obtain ⟨later, h⟩ := flush_out first.isLocalMemory
          (List.replicate (total (first :: second :: rest)) 0) hint
          ((first :: second :: rest).foldl (storePage first.isLocalMemory
            (List.replicate (total (first :: second :: rest)) 0) hint) .new)
        show Broken (flushDiscontiguousToken _ _ _ _).out
        rw [h]
        exact broken.append later
      · obtain ⟨x, mem', bad⟩ := pending e mem collected wrong
        exact inv.flush_broken hint (Nat.le_refl _) mem' bad
  have none := broken [] packets (by rwa [List.append_nil])
  exact absurd (none.symm.trans decoded) nofun

/-- The pages of a buffer are replayed from the file, whatever the buffer, if and only if none is
collected with a wrong count. -/
theorem pages_replay_iff {table : List PageInfo} (nonempty : table ≠ []) :
    (∀ (memory : List UInt8) (hint : Nat), memory.length = total table →
      Replays memory table hint) ↔ Representable table := by
  constructor
  · intro replays
    by_contra misfit
    exact not_replays_of_not_representable 0 misfit (replays _ 0 List.length_replicate)
  · intro representable memory hint length
    exact replays_of_representable hint nonempty length representable

/-- A local page and an unaligned one of system memory. -/
def mixedTable : List PageInfo := [⟨0x1000, 4096, true, 1⟩, ⟨0x3002, 10, false, 0⟩]

theorem pages_replay_iff_mixed : Representable mixedTable ∧
    ∀ (memory : List UInt8) (hint : Nat), memory.length = 4106 → Replays memory mixedTable hint := by
  have representable : Representable mixedTable := by
    rintro first rest - - e mem -
    simp only [mixedTable, List.mem_cons, List.not_mem_nil, or_false] at mem
    rcases mem with rfl | rfl <;> decide
  exact ⟨representable, fun memory hint length =>
    (pages_replay_iff (show mixedTable ≠ [] from List.cons_ne_nil _ _)).mpr representable memory hint
      length⟩

/-- The dwords of the first page are 0 in 32 bits. -/
def hugeTable : List PageInfo := [⟨0, 2 ^ 34, false, 0⟩, ⟨2 ^ 34, 4, false, 0⟩]

theorem not_pages_replay :
    ¬ ∀ table : List PageInfo, table ≠ [] → (∀ e ∈ table, 0 < e.size) →
      ∀ (memory : List UInt8) (hint : Nat), memory.length = total table →
        Replays memory table hint := by
  intro claim
  have replays := claim hugeTable (List.cons_ne_nil _ _) (by decide) (List.replicate _ 0) 0
    List.length_replicate
  refine not_replays_of_not_representable 0 (fun representable => ?_) replays
  have counted := representable _ _ rfl (List.cons_ne_nil _ _) _ List.mem_cons_self
    ⟨by decide, by decide⟩
  exact absurd counted (by decide)

end DataPackets
