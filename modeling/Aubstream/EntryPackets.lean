import Aubstream.AubFileStream

/-!
# Page table entries in an AUB file

A list of entries becomes packets of 63 entries each and one of the rest. What is
pending is always what the pairs of the token name.
-/

namespace EntryPackets
open AubPackets AubFileStream PageWalker EntryBits

theorem writeChunk_emits {addressSpace : Nat} (hspace : addressSpace < 2 ^ 4) (hint : Nat)
    {chunk : List UInt8} (short : chunk.length ≤ maxChunkSize) (address : Nat) :
    Emits (memoryWriteHeader ((sizeMemoryWriteHeader + (chunk.length + 3) / 4 * 4) / 4 - 1) address
        hint addressSpace chunk.length ++ chunk ++
        List.replicate (if chunk.length % 4 ≠ 0 then 4 - chunk.length % 4 else 0) 0)
      [⟨addressSpace, address % 2 ^ 64, chunk⟩] := by
  have bound : chunk.length ≤ 262120 := short
  have header : sizeMemoryWriteHeader = 20 := rfl
  apply emits_memoryWrite hspace
  · omega
  · rw [List.length_replicate]
    split <;> omega
  · omega

/-- The chunks of a contiguous block are the block. -/
theorem writeChunks_emits {addressSpace : Nat} (hspace : addressSpace < 2 ^ 4) (hint : Nat)
    {fuel : Nat} {memory : List UInt8} (enough : memory.length ≤ fuel) (address : Nat) :
    ∃ ws, Emits (writeChunks addressSpace hint fuel memory address) ws ∧
      ∀ m, replay m ws = store m (region addressSpace) address memory := by
  induction fuel generalizing memory address with
  | zero =>
    obtain rfl := List.length_eq_zero_iff.mp (Nat.le_zero.mp enough)
    exact ⟨[], emits_nil, fun m => rfl⟩
  | succ fuel ih =>
    by_cases empty : memory.length = 0
    · obtain rfl := List.length_eq_zero_iff.mp empty
      exact ⟨[], emits_nil, fun m => rfl⟩
    · have positive : 0 < maxChunkSize := by decide
      have hlen : (memory.take (min memory.length maxChunkSize)).length =
          min memory.length maxChunkSize := by
        rw [List.length_take]
        omega
      have first := writeChunk_emits hspace hint
        (show (memory.take (min memory.length maxChunkSize)).length ≤ maxChunkSize by omega) address
      rw [hlen] at first
      obtain ⟨ws, later, hws⟩ := ih
        (show (memory.drop (min memory.length maxChunkSize)).length ≤ fuel by
          rw [List.length_drop]
          omega)
        (wrap64 (address + min memory.length maxChunkSize))
      refine ⟨[⟨addressSpace, address % 2 ^ 64, memory.take (min memory.length maxChunkSize)⟩] ++ ws,
        ?_, ?_⟩
      · rw [writeChunks, if_neg empty]
        exact first.append later
      · intro m
        rw [replay_append, hws]
        have split := store_append m (region addressSpace) address
          (memory.take (min memory.length maxChunkSize)) (memory.drop (min memory.length maxChunkSize))
        rw [List.take_append_drop, hlen] at split
        rw [split]
        show store (store m (region addressSpace) (address % 2 ^ 64) _) _ _ _ = _
        rw [store_congr (Nat.mod_mod address _)]
        exact store_congr (by rw [wrap64, Nat.mod_mod]) _

theorem writeContiguousPages_emits {addressSpace : Nat} (hspace : addressSpace < 2 ^ 4)
    (memory : List UInt8) (address hint : Nat) :
    ∃ ws, Emits (writeContiguousPages memory address addressSpace hint) ws ∧
      ∀ m, replay m ws = store m (region addressSpace) address memory :=
  writeChunks_emits hspace hint (Nat.le_refl _) address

/-- A block that fits is one packet. -/
theorem writeContiguousPages_single {addressSpace : Nat} (hspace : addressSpace < 2 ^ 4)
    {memory : List UInt8} (ne : memory.length ≠ 0) (short : memory.length ≤ maxChunkSize)
    (address hint : Nat) :
    Emits (writeContiguousPages memory address addressSpace hint)
      [⟨addressSpace, address % 2 ^ 64, memory⟩] := by
  obtain ⟨fuel, hfuel⟩ := Nat.exists_eq_succ_of_ne_zero ne
  have whole : min memory.length maxChunkSize = memory.length := Nat.min_eq_left short
  have rest : ∀ a, writeChunks addressSpace hint fuel [] a = [] := by
    intro a
    cases fuel <;> rfl
  rw [writeContiguousPages, hfuel, writeChunks, if_neg ne]
  simp only [whole, List.take_length, List.drop_length, rest, List.append_nil]
  exact writeChunk_emits hspace hint short address

/-- What an entry is to be written as. -/
def entryWrite (addressSpace : Nat) (e : PageEntryInfo) : Write :=
  ⟨addressSpace, e.physicalAddress % 2 ^ 64, qword e.tableEntry⟩

/-- The token after the entries `done`: what was flushed and what is pending make up `done`. -/
structure EntryInv (addressSpace : Nat) (done : List PageEntryInfo) (t : EntryToken) : Prop where
  flushed : ∃ ws, Emits t.out ws ∧
    ws ++ t.pending.map (entryWrite addressSpace) = done.map (entryWrite addressSpace)
  index : t.index = t.pending.length
  bound : t.index ≤ maxEntries
  dwordCount : t.dwordCount = if t.index = 0 then 0 else headerDwordCount + 2 * t.index
  length : t.pairs.length = maxEntries
  pairs : t.pairs.take t.index = t.pending.map fun e => (wrap64 e.physicalAddress, 8)

theorem entryData_length (entries : List PageEntryInfo) :
    (entryData entries).length = 8 * entries.length := by
  induction entries with
  | nil => rfl
  | cons e rest ih =>
    rw [entryData, List.flatMap_cons, List.length_append, ← entryData, ih, length_qword,
      List.length_cons]
    omega

theorem entryInv_new (addressSpace : Nat) : EntryInv addressSpace [] .new :=
  ⟨⟨[], emits_nil, rfl⟩, rfl, Nat.zero_le _, rfl, rfl, rfl⟩

section
variable {addressSpace : Nat} (hspace : addressSpace < 2 ^ 4) (hint : Nat)
  {done : List PageEntryInfo} {t : EntryToken}
include hspace

/-- The packet of a token that is not empty. -/
theorem writeEntryToken_emits (inv : EntryInv addressSpace done t) (some : t.index ≠ 0) :
    Emits (writeEntryToken addressSpace hint t) (done.map (entryWrite addressSpace)) := by
  obtain ⟨ws, before, all⟩ := inv.flushed
  have bound := inv.bound
  have count := inv.dwordCount
  rw [if_neg some] at count
  have hsize : (entryData t.pending).length = 8 * t.index := by
    rw [entryData_length, inv.index]
  have header : headerDwordCount = 190 := rfl
  have most : maxEntries = 63 := rfl
  have packet : Emits (discontiguousHeader t.dwordCount t.index hint addressSpace t.pairs ++
      entryData t.pending) (t.pending.map (entryWrite addressSpace)) := by
    rw [inv.index]
    apply emits_discontiguous_map PageEntryInfo.physicalAddress (fun e => qword e.tableEntry) hspace
    · omega
    · exact inv.length
    · rw [← inv.index]
      exact bound
    · rw [← inv.index]
      exact inv.pairs
    · intro e _
      rw [length_qword]
      decide
    · rw [← entryData, hsize, count]
      unfold sizeDiscontiguousHeader
      omega
  rw [writeEntryToken, ← all]
  exact before.append packet

omit hspace in
/-- Adding `e` to a token whose header has been counted. -/
theorem EntryInv.push (flushed : ∃ ws, Emits t.out ws ∧
      ws ++ t.pending.map (entryWrite addressSpace) = done.map (entryWrite addressSpace))
    (index : t.index = t.pending.length) (room : t.index < maxEntries)
    (dwordCount : t.dwordCount = headerDwordCount + 2 * t.index)
    (length : t.pairs.length = maxEntries)
    (pairs : t.pairs.take t.index = t.pending.map fun e => (wrap64 e.physicalAddress, 8))
    (e : PageEntryInfo) :
    EntryInv addressSpace (done ++ [e])
      { t with
        dwordCount := (t.dwordCount + 2) % 2 ^ 16
        pairs := t.pairs.set t.index (wrap64 e.physicalAddress, 8)
        index := t.index + 1
        pending := t.pending ++ [e] } := by
  have header : headerDwordCount = 190 := rfl
  have most : maxEntries = 63 := rfl
  obtain ⟨ws, before, all⟩ := flushed
  constructor
  · refine ⟨ws, before, ?_⟩
    simp only [List.map_append, ← all, List.append_assoc]
  · simp only [List.length_append, List.length_singleton, index]
  · exact room
  · simp only [dwordCount, Nat.add_one_ne_zero, if_false]
    omega
  · simp only [List.length_set, length]
  · simp only [List.map_append, ← pairs, List.map_cons, List.map_nil]
    rw [List.take_succ_eq_append_getElem (by rw [List.length_set, length]; exact room),
      List.take_set_of_le (Nat.le_refl _), List.getElem_set_self]

theorem storeEntry_inv (inv : EntryInv addressSpace done t) (e : PageEntryInfo) :
    EntryInv addressSpace (done ++ [e]) (storeEntry addressSpace hint t e) := by
  have header : headerDwordCount = 190 := rfl
  have most : maxEntries = 63 := rfl
  have bound := inv.bound
  have count := inv.dwordCount
  simp only [storeEntry]
  by_cases full : maxEntries ≤ t.index
  · rw [if_pos (Or.inl full), if_pos rfl]
    have packet := writeEntryToken_emits hspace hint inv (by omega)
    exact EntryInv.push (t := ⟨writeEntryToken addressSpace hint t, headerDwordCount, t.pairs, 0, []⟩)
      ⟨_, packet, List.append_nil _⟩ rfl (Nat.succ_pos 62) rfl inv.length rfl e
  · have room : ¬ (maxEntries ≤ t.index ∨ 65535 < 2 + t.dwordCount) := by
      split at count <;> omega
    rw [if_neg room]
    by_cases empty : t.index = 0
    · rw [if_pos empty] at count
      rw [if_pos count]
      exact EntryInv.push (t := { t with dwordCount := headerDwordCount, index := 0 })
        inv.flushed (empty ▸ inv.index) (Nat.succ_pos 62) rfl inv.length (empty ▸ inv.pairs) e
    · rw [if_neg empty] at count
      rw [if_neg (by omega)]
      exact EntryInv.push inv.flushed inv.index (by omega) count inv.length inv.pairs e

theorem foldl_storeEntry_inv (inv : EntryInv addressSpace done t) (table : List PageEntryInfo) :
    EntryInv addressSpace (done ++ table) (table.foldl (storeEntry addressSpace hint) t) := by
  induction table generalizing done t with
  | nil => simpa using inv
  | cons e rest ih =>
    have later := ih (storeEntry_inv hspace hint inv e)
    rwa [List.append_assoc] at later

/-- A table of entries is written as the entries, in their order. -/
theorem writeDiscontiguousEntries_emits (table : List PageEntryInfo) :
    Emits (writeDiscontiguousEntries addressSpace hint table)
      (table.map (entryWrite addressSpace)) := by
  have inv := foldl_storeEntry_inv hspace hint (entryInv_new addressSpace) table
  unfold writeDiscontiguousEntries
  split
  · exact writeContiguousPages_single hspace (by rw [length_qword]; decide)
      (by rw [length_qword]; decide) _ hint
  · simp only
    split
    · rename_i some
      exact writeEntryToken_emits hspace hint inv some
    · rename_i none
      obtain ⟨ws, before, all⟩ := inv.flushed
      have nothing : (table.foldl (storeEntry addressSpace hint) .new).pending = [] :=
        List.length_eq_zero_iff.mp (inv.index.symm.trans (Decidable.not_not.mp none))
      rw [nothing, List.map_nil, List.append_nil, List.nil_append] at all
      exact all ▸ before

end

/-- `TbxStream` writes the entries one by one. -/
theorem replay_entryWrites (m : Memory) (table : List PageEntryInfo) (space : AddressSpaceValues) :
    replay m (table.map (entryWrite space.value)) =
      TbxStream.writeDiscontiguousEntries m table space := by
  unfold TbxStream.writeDiscontiguousEntries
  by_cases gtt : space = .TraceGttEntry
  · rw [if_pos gtt]
    subst gtt
    induction table generalizing m with
    | nil => rfl
    | cons e rest ih =>
      rw [List.foldl_cons, ← ih, TbxStream.writeGTT,
        store_gtt (show e.physicalAddress % 2 ^ 32 % 2 ^ 32 = e.physicalAddress % 2 ^ 64 % 2 ^ 32 by
          omega)]
      rfl
  · rw [if_neg gtt]
    have hregion : region space.value =
        if decide (space = .TraceLocal) = true then .localMemory else .systemMemory := by
      cases space <;> first | rfl | exact absurd rfl gtt
    induction table generalizing m with
    | nil => rfl
    | cons e rest ih =>
      rw [List.foldl_cons, ← ih, TbxStream.writeMemory, ← hregion,
        store_congr (Nat.mod_mod e.physicalAddress (2 ^ 64)).symm]
      rfl

/-- Any table of entries is replayed from its packets as it is written through TBX. -/
theorem entries_replay (writeInfoTable : List PageEntryInfo) (addressSpace : AddressSpaceValues)
    (hint : Nat) :
    ∃ packets, Framing.frames packetSize
        (writeDiscontiguousEntries addressSpace.value hint writeInfoTable) = some packets ∧
      writeDiscontiguousEntries addressSpace.value hint writeInfoTable = packets.flatten ∧
      (∀ p ∈ packets, p.length = 4 * (dwordCount p + 1) ∧ dwordCount p ≤ 0xFFFF ∧
        (subOpcode p = discontiguousSubOpcode → numberOfAddressDataPairs p ≤ maxEntries)) ∧
      decodeAll packets = some (writeInfoTable.map (entryWrite addressSpace.value)) ∧
      ∀ m, replay m (writeInfoTable.map (entryWrite addressSpace.value)) =
        TbxStream.writeDiscontiguousEntries m writeInfoTable addressSpace := by
  obtain ⟨packets, framed, whole, good, decoded⟩ :=
    (writeDiscontiguousEntries_emits addressSpace.value_lt hint writeInfoTable).frames
  exact ⟨packets, framed, whole, good, decoded, fun m =>
    replay_entryWrites m writeInfoTable addressSpace⟩

end EntryPackets
