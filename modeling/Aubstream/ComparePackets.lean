import Aubstream.DataPackets

/-!
# Expected memory in an AUB file

`expectMemoryTable` gives each page one packet, whatever its size, and the dwords
of a packet are counted in 16 bits.
-/

namespace ComparePackets
open AubPackets AubFileStream DataPackets PageWalker EntryBits Framing

def memoryCompareSubOpcode : Nat := 0x4

def sizeMemoryCompareHeader : Nat := 20

def CompareEqual : Nat := 0

/-- No read without expectation, no repetition, no tiling and no CRC. -/
def compareFlags (compareOperation deferCompareEvaluation addressSpace : Nat) : List UInt8 :=
  dword (2 ^ 7 * (compareOperation % 2) + 2 ^ 9 * (deferCompareEvaluation % 2) +
    2 ^ 28 * (addressSpace % 2 ^ 4))

/-- `CmdServicesMemTraceMemoryCompare` up to its data. -/
def memoryCompareHeader (dwordCount address compareOperation deferCompareEvaluation addressSpace
    dataSizeInBytes : Nat) : List UInt8 :=
  commandHeader dwordCount memoryCompareSubOpcode ++ qword address ++
    compareFlags compareOperation deferCompareEvaluation addressSpace ++ dword dataSizeInBytes

/-- `StoreComparison` unless it is the last page or the comparison is for equality. -/
def deferCompareEvaluation (compareOperation : Nat) (isLast : Bool) : Nat :=
  if isLast || compareOperation == CompareEqual then 0 else 1

/-- The packet of one page. -/
def comparePacket (compareOperation : Nat) (isLast : Bool) (entry : PageInfo)
    (memory : List UInt8) : List UInt8 :=
  let dwordCount := (sizeMemoryCompareHeader + entry.size + 3) / 4
  let remainder := entry.size % 4
  memoryCompareHeader (dwordCount - 1) entry.physicalAddress compareOperation
      (deferCompareEvaluation compareOperation isLast) (addressSpaceOf entry.isLocalMemory)
      entry.size ++
    memory.take entry.size ++ List.replicate (if remainder ≠ 0 then 4 - remainder else 0) 0

/-- `memory` moves on behind each page. -/
def expectMemoryTable (compareOperation : Nat) : List UInt8 → List PageInfo → List UInt8
  | _, [] => []
  | memory, entry :: rest =>
    comparePacket compareOperation rest.isEmpty entry memory ++
      expectMemoryTable compareOperation (memory.drop entry.size) rest

/-- What a packet expects. -/
structure Compare where
  addressSpace : Nat
  address : Nat
  compareOperation : Nat
  deferCompareEvaluation : Nat
  data : List UInt8
  deriving DecidableEq, Repr

def decodeCompare (packet : List UInt8) : Option Compare :=
  let flags := readDword (packet.drop 12)
  let size := readDword (packet.drop 16)
  let data := packet.drop sizeMemoryCompareHeader
  if readDword packet / 2 ^ 23 = instructionOpcode + 2 ^ 6 * instructionType ∧
      subOpcode packet = memoryCompareSubOpcode ∧ sizeMemoryCompareHeader ≤ packet.length ∧
      flags % 2 ^ 7 = 0 ∧ data.length = (size + 3) / 4 * 4 then
    some ⟨flags / 2 ^ 28, readQword (packet.drop 4), flags / 2 ^ 7 % 2, flags / 2 ^ 9 % 2,
      data.take size⟩
  else none

/-- What a table expects of a buffer, page by page. -/
def comparesOf (compareOperation : Nat) : List UInt8 → List PageInfo → List Compare
  | _, [] => []
  | memory, entry :: rest =>
    ⟨addressSpaceOf entry.isLocalMemory, wrap64 entry.physicalAddress, compareOperation % 2,
        deferCompareEvaluation compareOperation rest.isEmpty, memory.take entry.size⟩ ::
      comparesOf compareOperation (memory.drop entry.size) rest

/-- Cut by the packets' own counts, the file has one comparison for each page. -/
def ReadsBack (compareOperation : Nat) (memory : List UInt8) (entries : List PageInfo) : Prop :=
  ∃ packets, frames packetSize (expectMemoryTable compareOperation memory entries) = some packets ∧
    expectMemoryTable compareOperation memory entries = packets.flatten ∧
    packets.map decodeCompare = (comparesOf compareOperation memory entries).map some

/-- A page whose packet has at most 65536 dwords. -/
def Countable (e : PageInfo) : Prop := e.size ≤ 262124

section
variable {compareOperation : Nat} {isLast : Bool} {e : PageInfo} {memory : List UInt8}

theorem comparePacket_shape : ∃ rest, comparePacket compareOperation isLast e memory =
      commandHeader ((sizeMemoryCompareHeader + e.size + 3) / 4 - 1) memoryCompareSubOpcode ++
        (qword e.physicalAddress ++ (compareFlags compareOperation
          (deferCompareEvaluation compareOperation isLast) (addressSpaceOf e.isLocalMemory) ++
          (dword e.size ++ (memory.take e.size ++ rest)))) ∧
      rest.length = if e.size % 4 ≠ 0 then 4 - e.size % 4 else 0 := by
  refine ⟨List.replicate (if e.size % 4 ≠ 0 then 4 - e.size % 4 else 0) 0, ?_,
    List.length_replicate⟩
  simp only [comparePacket, memoryCompareHeader, List.append_assoc]

theorem comparePacket_delimited (countable : Countable e) (enough : e.size ≤ memory.length) :
    Delimited packetSize (comparePacket compareOperation isLast e memory) := by
  obtain ⟨rest, hshape, hrest⟩ :=
    @comparePacket_shape compareOperation isLast e memory
  unfold Countable at countable
  rw [hshape]
  apply delimited_commandHeader (by decide)
  · unfold sizeMemoryCompareHeader
    omega
  · simp only [List.length_append, length_qword, length_dword, List.length_take,
      Nat.min_eq_left enough, hrest, sizeMemoryCompareHeader, compareFlags]
    split <;> omega

theorem comparePacket_decode (countable : Countable e) (enough : e.size ≤ memory.length) :
    decodeCompare (comparePacket compareOperation isLast e memory) =
      some ⟨addressSpaceOf e.isLocalMemory, wrap64 e.physicalAddress, compareOperation % 2,
        deferCompareEvaluation compareOperation isLast, memory.take e.size⟩ := by
  obtain ⟨rest, hshape, hrest⟩ :=
    @comparePacket_shape compareOperation isLast e memory
  unfold Countable at countable
  have hspace := addressSpaceOf_lt e.isLocalMemory
  have hdefer : deferCompareEvaluation compareOperation isLast < 2 := by
    unfold deferCompareEvaluation
    split <;> decide
  have htake : (memory.take e.size).length = e.size := by
    rw [List.length_take, Nat.min_eq_left enough]
  generalize deferCompareEvaluation compareOperation isLast = defer at hshape hdefer ⊢
  generalize addressSpaceOf e.isLocalMemory = space at hshape hspace ⊢
  generalize memory.take e.size = data at hshape htake ⊢
  generalize (sizeMemoryCompareHeader + e.size + 3) / 4 - 1 = count at hshape
  rw [hshape]
  have haddress : (commandHeader count memoryCompareSubOpcode ++ (qword e.physicalAddress ++
      (compareFlags compareOperation defer space ++ (dword e.size ++ (data ++ rest))))).drop 4 =
      qword e.physicalAddress ++ (compareFlags compareOperation defer space ++
        (dword e.size ++ (data ++ rest))) := rfl
  have hflags : (commandHeader count memoryCompareSubOpcode ++ (qword e.physicalAddress ++
      (compareFlags compareOperation defer space ++ (dword e.size ++ (data ++ rest))))).drop 12 =
      compareFlags compareOperation defer space ++ (dword e.size ++ (data ++ rest)) := rfl
  have hsize : (commandHeader count memoryCompareSubOpcode ++ (qword e.physicalAddress ++
      (compareFlags compareOperation defer space ++ (dword e.size ++ (data ++ rest))))).drop 16 =
      dword e.size ++ (data ++ rest) := rfl
  have hdata : (commandHeader count memoryCompareSubOpcode ++ (qword e.physicalAddress ++
      (compareFlags compareOperation defer space ++ (dword e.size ++ (data ++ rest))))).drop
        sizeMemoryCompareHeader = data ++ rest := rfl
  have hread : readDword (compareFlags compareOperation defer space ++
      (dword e.size ++ (data ++ rest))) =
      2 ^ 7 * (compareOperation % 2) + 2 ^ 9 * defer + 2 ^ 28 * space := by
    rw [compareFlags, readDword_dword]
    omega
  have hopcode : readDword (commandHeader count memoryCompareSubOpcode ++ (qword e.physicalAddress ++
      (compareFlags compareOperation defer space ++ (dword e.size ++ (data ++ rest))))) / 2 ^ 23 =
      instructionOpcode + 2 ^ 6 * instructionType := by
    rw [readDword_commandHeader (by decide)]
    unfold instructionOpcode instructionType memoryCompareSubOpcode
    omega
  have small : e.size % 2 ^ 32 = e.size := Nat.mod_eq_of_lt (by omega)
  simp only [decodeCompare]
  rw [haddress, hflags, hsize, hdata, hread, readDword_dword, readQword_qword, small, if_pos]
  · rw [List.take_left' htake]
    simp only [Option.some.injEq, Compare.mk.injEq, wrap64, true_and, and_true]
    omega
  · refine ⟨hopcode, subOpcode_commandHeader (by decide), ?_, by omega, ?_⟩
    · simp only [List.length_append, length_commandHeader, length_qword, length_dword, compareFlags,
        sizeMemoryCompareHeader]
      omega
    · rw [List.length_append, htake, hrest]
      split <;> omega

end

theorem readsBack_of_countable (compareOperation : Nat) {memory : List UInt8}
    {entries : List PageInfo} (length : memory.length = total entries)
    (countable : ∀ e ∈ entries, Countable e) : ReadsBack compareOperation memory entries := by
  induction entries generalizing memory with
  | nil => exact ⟨[], rfl, rfl, rfl⟩
  | cons e rest ih =>
    rw [total_cons] at length
    have enough : e.size ≤ memory.length := by omega
    have later : (memory.drop e.size).length = total rest := by
      rw [List.length_drop]
      omega
    obtain ⟨packets, hframes, hflat, hdecode⟩ :=
      ih later fun x hx => countable x (List.mem_cons_of_mem _ hx)
    have first := countable e List.mem_cons_self
    refine ⟨comparePacket compareOperation rest.isEmpty e memory :: packets, ?_, ?_, ?_⟩
    · rw [expectMemoryTable, frames_cons (comparePacket_delimited first enough), hframes,
        Option.map_some]
    · rw [expectMemoryTable, hflat, List.flatten_cons]
    · rw [List.map_cons, hdecode, comparePacket_decode first enough, comparesOf, List.map_cons]

/-- No frame is longer than its count can say. -/
theorem length_le_of_frames {fuel : Nat} {stream : List UInt8} {packets : List (List UInt8)}
    (h : cut packetSize fuel stream = some packets) : ∀ p ∈ packets, p.length ≤ 262144 := by
  induction fuel generalizing stream packets with
  | zero =>
    cases stream with
    | nil =>
      obtain rfl := Option.some.inj h
      exact fun _ hp => absurd hp List.not_mem_nil
    | cons b rest => cases h
  | succ fuel ih =>
    cases stream with
    | nil =>
      obtain rfl := Option.some.inj h
      exact fun _ hp => absurd hp List.not_mem_nil
    | cons b rest =>
      simp only [cut] at h
      obtain ⟨n, hn, h⟩ := Option.bind_eq_some_iff.mp h
      split at h
      · cases h
      · obtain ⟨later, hlater, rfl⟩ := Option.map_eq_some_iff.mp h
        intro p hp
        rcases List.mem_cons.mp hp with rfl | hp
        · rw [packetSize] at hn
          split at hn
          · cases hn
          · obtain rfl := Option.some.inj hn
            have hcount : dwordCount (b :: rest) < 2 ^ 16 := Nat.mod_lt _ (by decide)
            rw [List.length_take]
            omega
        · exact ih hlater p hp

/-- A comparison holds at most the data that fits into a packet. -/
theorem data_length_le {packet : List UInt8} {c : Compare} (h : decodeCompare packet = some c)
    (short : packet.length ≤ 262144) : c.data.length ≤ 262124 := by
  simp only [decodeCompare] at h
  split at h
  · obtain rfl := Option.some.inj h
    simp only [List.length_take, List.length_drop, sizeMemoryCompareHeader]
    omega
  · cases h

/-- Each page's slice of the buffer is in what the table expects. -/
theorem comparesOf_lengths {compareOperation : Nat} {memory : List UInt8} {entries : List PageInfo}
    (length : memory.length = total entries) :
    (comparesOf compareOperation memory entries).map (fun c => c.data.length) =
      entries.map PageInfo.size := by
  induction entries generalizing memory with
  | nil => rfl
  | cons e rest ih =>
    rw [total_cons] at length
    have later : (memory.drop e.size).length = total rest := by
      rw [List.length_drop]
      omega
    rw [comparesOf, List.map_cons, List.map_cons, ih later, List.length_take,
      Nat.min_eq_left (by omega)]

/-- The file of a table is read back if and only if every page's dwords can be counted. -/
theorem expectMemoryTable_readsBack_iff (compareOperation : Nat) (memory : List UInt8)
    (entries : List PageInfo) (length : memory.length = total entries) :
    ReadsBack compareOperation memory entries ↔ ∀ e ∈ entries, Countable e := by
  constructor
  · rintro ⟨packets, hframes, _, hdecode⟩ e he
    have hsize : e.size ∈
        (comparesOf compareOperation memory entries).map fun c => c.data.length := by
      rw [comparesOf_lengths length]
      exact List.mem_map_of_mem he
    obtain ⟨c, hc, hlength⟩ := List.mem_map.mp hsize
    have hsome : some c ∈ packets.map decodeCompare := by
      rw [hdecode]
      exact List.mem_map_of_mem hc
    obtain ⟨packet, hpacket, hc⟩ := List.mem_map.mp hsome
    unfold Countable
    rw [← hlength]
    exact data_length_le hc (length_le_of_frames hframes packet hpacket)
  · exact readsBack_of_countable compareOperation length

/-- The end of a 4KB page, and a 64KB page of local memory. -/
def smallPages : List PageInfo := [⟨0x1ffb, 5, false, 0⟩, ⟨0x10000, 65536, true, 1⟩]

theorem expectMemoryTable_readsBack_smallPages :
    ReadsBack CompareEqual (List.replicate 65541 0) smallPages :=
  (expectMemoryTable_readsBack_iff CompareEqual (List.replicate 65541 0) smallPages
    List.length_replicate).mpr (by unfold Countable; decide)

/-- A whole 2MB page. -/
theorem not_expectMemoryTable_readsBack :
    ¬ ∀ (compareOperation : Nat) (memory : List UInt8) (entries : List PageInfo),
      memory.length = total entries → (∀ e ∈ entries, 0 < e.size ∧ e.size ≤ pageSize2MB) →
        ReadsBack compareOperation memory entries := by
  intro claim
  have readsBack := claim CompareEqual (List.replicate pageSize2MB 0) [⟨0, pageSize2MB, true, 1⟩]
    List.length_replicate (by decide)
  obtain ⟨packets, hframes, _, hdecode⟩ := readsBack
  obtain ⟨packet, rfl, hc⟩ := List.map_eq_singleton_iff.mp hdecode
  have hlong := data_length_le hc (length_le_of_frames hframes packet (List.mem_singleton_self _))
  rw [List.length_take, List.length_replicate] at hlong
  exact absurd hlong (by decide)

end ComparePackets
