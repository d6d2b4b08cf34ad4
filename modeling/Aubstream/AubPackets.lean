import Aubstream.Framing
import Aubstream.EntryBits

/-!
# AUB packets of memory

The two packets that write memory, as the structures of `aub_services.h` lie in a
file, a reader for them, and the memory that a reader builds.
-/

namespace AubPackets
open Framing EntryBits

/-- Little-endian, cut to 32 bits. -/
def dword (v : Nat) : List UInt8 :=
  [.ofNat v, .ofNat (v / 2 ^ 8), .ofNat (v / 2 ^ 16), .ofNat (v / 2 ^ 24)]

def qword (v : Nat) : List UInt8 := dword v ++ dword (v / 2 ^ 32)

def readDword : List UInt8 → Nat
  | a :: b :: c :: d :: _ =>
    a.toNat + 2 ^ 8 * b.toNat + 2 ^ 16 * c.toNat + 2 ^ 24 * d.toNat
  | _ => 0

def readQword (bytes : List UInt8) : Nat := readDword bytes + 2 ^ 32 * readDword (bytes.drop 4)

inductive AddressSpaceValues where
  | TraceGttGfx
  | TraceLocal
  | TraceNonlocal
  | TraceGttPdEntry
  | TraceGttEntry
  | TracePpgttGfx
  | TracePpgttEntry
  | TraceNonapetureGttGfx
  | TracePhysicalPdpEntry
  | TracePpgttPdEntry
  | TracePml4Entry
  | TracePowerContext
  deriving DecidableEq

def AddressSpaceValues.value : AddressSpaceValues → Nat
  | TraceGttGfx => 0
  | TraceLocal => 1
  | TraceNonlocal => 2
  | TraceGttPdEntry => 3
  | TraceGttEntry => 4
  | TracePpgttGfx => 5
  | TracePpgttEntry => 6
  | TraceNonapetureGttGfx => 7
  | TracePhysicalPdpEntry => 8
  | TracePpgttPdEntry => 9
  | TracePml4Entry => 10
  | TracePowerContext => 11

def instructionType : Nat := 0x7
def instructionOpcode : Nat := 0x2e
def memoryWriteSubOpcode : Nat := 0x6
def discontiguousSubOpcode : Nat := 0xb
def maxEntries : Nat := 63

/-- The first dword, with its bit fields. -/
def commandHeader (dwordCount subOpcode : Nat) : List UInt8 :=
  dword (dwordCount % 2 ^ 16 + 2 ^ 16 * subOpcode + 2 ^ 23 * instructionOpcode +
    2 ^ 29 * instructionType)

/-- Neither front door access nor repetition nor tiling. -/
def commandFlags (numberOfAddressDataPairs hint addressSpace : Nat) : List UInt8 :=
  dword (2 ^ 4 * (numberOfAddressDataPairs % 2 ^ 16) + 2 ^ 20 * (hint % 2 ^ 8) +
    2 ^ 28 * (addressSpace % 2 ^ 4))

def sizeMemoryWriteHeader : Nat := 20

/-- `CmdServicesMemTraceMemoryWrite` up to its data. -/
def memoryWriteHeader (dwordCount address hint addressSpace dataSizeInBytes : Nat) : List UInt8 :=
  commandHeader dwordCount memoryWriteSubOpcode ++ qword address ++
    commandFlags 0 hint addressSpace ++ dword dataSizeInBytes

/-- `Dword_2_To_190`. -/
def addressDataPairs (pairs : List (Nat × Nat)) : List UInt8 :=
  pairs.flatMap fun p => qword p.1 ++ dword p.2

def sizeDiscontiguousHeader : Nat := 764

/-- `CmdServicesMemTraceMemoryWriteDiscontiguous` up to its data. -/
def discontiguousHeader (dwordCount numberOfAddressDataPairs hint addressSpace : Nat)
    (pairs : List (Nat × Nat)) : List UInt8 :=
  commandHeader dwordCount discontiguousSubOpcode ++
    commandFlags numberOfAddressDataPairs hint addressSpace ++ addressDataPairs pairs

/-- What a packet writes. -/
structure Write where
  addressSpace : Nat
  address : Nat
  data : List UInt8
  deriving DecidableEq, Repr

def dwordCount (packet : List UInt8) : Nat := readDword packet % 2 ^ 16

def subOpcode (packet : List UInt8) : Nat := readDword packet / 2 ^ 16 % 2 ^ 7

def numberOfAddressDataPairs (packet : List UInt8) : Nat :=
  readDword (packet.drop 4) / 2 ^ 4 % 2 ^ 16

def packetSize (bytes : List UInt8) : Option Nat :=
  if bytes.length < 4 then none else some (4 * (dwordCount bytes + 1))

def readPairs : Nat → List UInt8 → List (Nat × Nat)
  | 0, _ => []
  | n + 1, bytes => (readQword bytes, readDword (bytes.drop 8)) :: readPairs n (bytes.drop 12)

/-- Share the data out to the pairs, with none left over. -/
def splitData : List (Nat × Nat) → List UInt8 → Option (List (Nat × List UInt8))
  | [], [] => some []
  | [], _ :: _ => none
  | (address, size) :: pairs, data =>
    if data.length < size then none
    else (splitData pairs (data.drop size)).map ((address, data.take size) :: ·)

def decodeMemoryWrite (packet : List UInt8) : Option (List Write) :=
  let flags := readDword (packet.drop 12)
  let size := readDword (packet.drop 16)
  let data := packet.drop sizeMemoryWriteHeader
  if sizeMemoryWriteHeader ≤ packet.length ∧ flags % 2 ^ 4 = 0 ∧
      data.length = (size + 3) / 4 * 4 then
    some [⟨flags / 2 ^ 28, readQword (packet.drop 4), data.take size⟩]
  else none

def decodeDiscontiguous (packet : List UInt8) : Option (List Write) :=
  let flags := readDword (packet.drop 4)
  let pairs := readPairs (numberOfAddressDataPairs packet) (packet.drop 8)
  if sizeDiscontiguousHeader ≤ packet.length ∧ flags % 2 ^ 4 = 0 ∧
      numberOfAddressDataPairs packet ≤ maxEntries then
    (splitData pairs (packet.drop sizeDiscontiguousHeader)).map fun writes =>
      writes.map fun w => ⟨flags / 2 ^ 28, w.1, w.2⟩
  else none

def decode (packet : List UInt8) : Option (List Write) :=
  if readDword packet / 2 ^ 23 = instructionOpcode + 2 ^ 6 * instructionType then
    if subOpcode packet = memoryWriteSubOpcode then decodeMemoryWrite packet
    else if subOpcode packet = discontiguousSubOpcode then decodeDiscontiguous packet
    else none
  else none

def decodeAll : List (List UInt8) → Option (List Write)
  | [] => some []
  | packet :: rest => (decode packet).bind fun writes => (decodeAll rest).map (writes ++ ·)

inductive Region where
  | gtt
  | localMemory
  | systemMemory
  deriving DecidableEq

/-- As `TbxStream` tells the address spaces apart. -/
def region (addressSpace : Nat) : Region :=
  if addressSpace = AddressSpaceValues.TraceGttEntry.value then .gtt
  else if addressSpace = AddressSpaceValues.TraceLocal.value then .localMemory
  else .systemMemory

abbrev Memory := Region → Nat → UInt8

/-- Offsets into the GTT have 32 bits, addresses 64. -/
def cell : Region → Nat → Nat
  | .gtt, address => address % 2 ^ 32
  | _, address => address % 2 ^ 64

def store : Memory → Region → Nat → List UInt8 → Memory
  | m, _, _, [] => m
  | m, r, address, b :: rest =>
    store (fun r' a => if r' = r ∧ a = cell r address then b else m r' a) r (address + 1) rest

def replay (m : Memory) (writes : List Write) : Memory :=
  writes.foldl (fun m w => store m (region w.addressSpace) w.address w.data) m

/-- The bytes of a file are packets that write `writes`. -/
def Emits (bytes : List UInt8) (writes : List Write) : Prop :=
  ∃ packets, bytes = packets.flatten ∧
    (∀ p ∈ packets, Delimited packetSize p ∧
      (subOpcode p = discontiguousSubOpcode → numberOfAddressDataPairs p ≤ maxEntries)) ∧
    decodeAll packets = some writes

theorem AddressSpaceValues.value_lt (space : AddressSpaceValues) : space.value < 2 ^ 4 := by
  cases space <;> decide

theorem store_congr_cell {m : Memory} {r : Region} {a b : Nat}
    (h : ∀ i, cell r (a + i) = cell r (b + i)) (data : List UInt8) :
    store m r a data = store m r b data := by
  induction data generalizing m a b with
  | nil => rfl
  | cons x rest ih =>
    have same := h 0
    simp only [Nat.add_zero] at same
    rw [store, store, same]
    refine ih fun i => ?_
    rw [Nat.add_assoc, Nat.add_assoc]
    exact h (1 + i)

theorem store_congr {m : Memory} {r : Region} {a b : Nat} (h : a % 2 ^ 64 = b % 2 ^ 64)
    (data : List UInt8) : store m r a data = store m r b data := by
  refine store_congr_cell (fun i => ?_) data
  cases r <;> simp only [cell] <;> omega

theorem store_gtt {m : Memory} {a b : Nat} (h : a % 2 ^ 32 = b % 2 ^ 32) (data : List UInt8) :
    store m .gtt a data = store m .gtt b data := by
  refine store_congr_cell (fun i => ?_) data
  simp only [cell]
  omega

theorem store_append (m : Memory) (r : Region) (a : Nat) (xs ys : List UInt8) :
    store m r a (xs ++ ys) = store (store m r a xs) r (a + xs.length) ys := by
  induction xs generalizing m a with
  | nil => rfl
  | cons x rest ih =>
    rw [List.cons_append, store, store, ih, List.length_cons, Nat.add_right_comm, Nat.add_assoc]

theorem replay_append (m : Memory) (ws ws' : List Write) :
    replay m (ws ++ ws') = replay (replay m ws) ws' := List.foldl_append

@[simp] theorem length_dword (v : Nat) : (dword v).length = 4 := rfl

@[simp] theorem length_qword (v : Nat) : (qword v).length = 8 := rfl

@[simp] theorem length_commandHeader (count sub : Nat) : (commandHeader count sub).length = 4 := rfl

@[simp] theorem length_commandFlags (n hint space : Nat) : (commandFlags n hint space).length = 4 :=
  rfl

@[simp] theorem length_addressDataPairs (pairs : List (Nat × Nat)) :
    (addressDataPairs pairs).length = 12 * pairs.length := by
  induction pairs with
  | nil => rfl
  | cons p rest ih =>
    rw [addressDataPairs, List.flatMap_cons, List.length_append, ← addressDataPairs, ih]
    simp only [List.length_append, length_qword, length_dword, List.length_cons]
    omega

theorem readDword_dword (v : Nat) (rest : List UInt8) : readDword (dword v ++ rest) = v % 2 ^ 32 := by
  simp only [dword, List.cons_append, readDword, UInt8.toNat_ofNat']
  omega

theorem readQword_qword (v : Nat) (rest : List UInt8) : readQword (qword v ++ rest) = v % 2 ^ 64 := by
  have upper : (qword v ++ rest).drop 4 = dword (v / 2 ^ 32) ++ rest := rfl
  rw [readQword, upper, qword, List.append_assoc, readDword_dword, readDword_dword]
  omega

theorem emits_nil : Emits [] [] := ⟨[], rfl, nofun, rfl⟩

theorem decodeAll_append {ps ps' : List (List UInt8)} {ws ws' : List Write}
    (h : decodeAll ps = some ws) (h' : decodeAll ps' = some ws') :
    decodeAll (ps ++ ps') = some (ws ++ ws') := by
  induction ps generalizing ws with
  | nil =>
    obtain rfl := Option.some.inj h
    exact h'
  | cons p rest ih =>
    obtain ⟨first, hfirst, later⟩ := Option.bind_eq_some_iff.mp h
    obtain ⟨others, hothers, rfl⟩ := Option.map_eq_some_iff.mp later
    rw [List.cons_append, decodeAll, hfirst, Option.bind_some, ih hothers, Option.map_some,
      List.append_assoc]

theorem Emits.append {bytes bytes' : List UInt8} {ws ws' : List Write} (h : Emits bytes ws)
    (h' : Emits bytes' ws') : Emits (bytes ++ bytes') (ws ++ ws') := by
  obtain ⟨ps, rfl, good, hws⟩ := h
  obtain ⟨ps', rfl, good', hws'⟩ := h'
  refine ⟨ps ++ ps', List.flatten_append.symm, ?_, decodeAll_append hws hws'⟩
  intro p mem
  rcases List.mem_append.mp mem with mem | mem
  · exact good p mem
  · exact good' p mem

/-- A file of packets is read back as their writes. -/
theorem Emits.frames {bytes : List UInt8} {ws : List Write} (h : Emits bytes ws) :
    ∃ packets, Framing.frames packetSize bytes = some packets ∧ bytes = packets.flatten ∧
      (∀ p ∈ packets, p.length = 4 * (dwordCount p + 1) ∧ dwordCount p ≤ 0xFFFF ∧
        (subOpcode p = discontiguousSubOpcode → numberOfAddressDataPairs p ≤ maxEntries)) ∧
      decodeAll packets = some ws := by
  obtain ⟨packets, rfl, good, decoded⟩ := h
  refine ⟨packets, frames_flatten fun p mem => (good p mem).1, rfl, ?_, decoded⟩
  intro p mem
  obtain ⟨⟨-, hsize⟩, pairs⟩ := good p mem
  have own := hsize []
  rw [List.append_nil, packetSize] at own
  split at own
  · exact absurd own nofun
  · have count : dwordCount p < 2 ^ 16 := Nat.mod_lt _ (by decide)
    exact ⟨(Option.some.inj own).symm, by omega, pairs⟩

section
variable {count sub : Nat} {rest : List UInt8}

theorem readDword_commandHeader (hsub : sub < 2 ^ 7) :
    readDword (commandHeader count sub ++ rest) = count % 2 ^ 16 + 2 ^ 16 * sub +
      2 ^ 23 * instructionOpcode + 2 ^ 29 * instructionType := by
  rw [commandHeader, readDword_dword]
  unfold instructionOpcode instructionType
  omega

theorem dwordCount_commandHeader (hsub : sub < 2 ^ 7) (h : count < 2 ^ 16) :
    dwordCount (commandHeader count sub ++ rest) = count := by
  rw [dwordCount, readDword_commandHeader hsub]
  unfold instructionOpcode instructionType
  omega

theorem subOpcode_commandHeader (hsub : sub < 2 ^ 7) :
    subOpcode (commandHeader count sub ++ rest) = sub := by
  rw [subOpcode, readDword_commandHeader hsub]
  unfold instructionOpcode instructionType
  omega

/-- A packet that names its own length. -/
theorem delimited_commandHeader (hsub : sub < 2 ^ 7) (h : count < 2 ^ 16)
    (length : 4 + rest.length = 4 * (count + 1)) :
    Delimited packetSize (commandHeader count sub ++ rest) := by
  refine ⟨List.append_ne_nil_of_left_ne_nil (by simp [commandHeader, dword]) _, fun more => ?_⟩
  have long : ¬ (commandHeader count sub ++ (rest ++ more)).length < 4 := by
    simp only [List.length_append, length_commandHeader]
    omega
  rw [List.append_assoc, packetSize, if_neg long, dwordCount_commandHeader hsub h,
    List.length_append, length_commandHeader, length]

theorem decode_memoryWrite : decode (commandHeader count memoryWriteSubOpcode ++ rest) =
    decodeMemoryWrite (commandHeader count memoryWriteSubOpcode ++ rest) := by
  have opcode : readDword (commandHeader count memoryWriteSubOpcode ++ rest) / 2 ^ 23 =
      instructionOpcode + 2 ^ 6 * instructionType := by
    rw [readDword_commandHeader (by decide)]
    unfold instructionOpcode instructionType memoryWriteSubOpcode
    omega
  rw [decode, if_pos opcode, if_pos (subOpcode_commandHeader (by decide))]

theorem decode_discontiguous : decode (commandHeader count discontiguousSubOpcode ++ rest) =
    decodeDiscontiguous (commandHeader count discontiguousSubOpcode ++ rest) := by
  have opcode : readDword (commandHeader count discontiguousSubOpcode ++ rest) / 2 ^ 23 =
      instructionOpcode + 2 ^ 6 * instructionType := by
    rw [readDword_commandHeader (by decide)]
    unfold instructionOpcode instructionType discontiguousSubOpcode
    omega
  have sub : subOpcode (commandHeader count discontiguousSubOpcode ++ rest) =
      discontiguousSubOpcode := subOpcode_commandHeader (by decide)
  rw [decode, if_pos opcode, if_neg (by rw [sub]; decide), if_pos sub]

end

theorem readDword_commandFlags {pairs hint space : Nat} (rest : List UInt8) :
    readDword (commandFlags pairs hint space ++ rest) =
      2 ^ 4 * (pairs % 2 ^ 16) + 2 ^ 20 * (hint % 2 ^ 8) + 2 ^ 28 * (space % 2 ^ 4) := by
  rw [commandFlags, readDword_dword]
  omega

/-- One packet of contiguous memory, filled up to whole dwords. -/
theorem emits_memoryWrite {count address hint space : Nat} {data padding : List UInt8}
    (hspace : space < 2 ^ 4) (hcount : count < 2 ^ 16)
    (length : data.length + padding.length = (data.length + 3) / 4 * 4)
    (hdwords : 5 + (data.length + 3) / 4 = count + 1) :
    Emits (memoryWriteHeader count address hint space data.length ++ data ++ padding)
      [⟨space, address % 2 ^ 64, data⟩] := by
  have shape : memoryWriteHeader count address hint space data.length ++ data ++ padding =
      commandHeader count memoryWriteSubOpcode ++ (qword address ++ (commandFlags 0 hint space ++
        (dword data.length ++ (data ++ padding)))) := by
    simp only [memoryWriteHeader, List.append_assoc]
  rw [shape]
  refine ⟨[_], (List.append_nil _).symm, ?_, ?_⟩
  · intro p mem
    obtain rfl := List.mem_singleton.mp mem
    constructor
    · apply delimited_commandHeader (by decide) hcount
      simp only [List.length_append, length_qword, length_commandFlags, length_dword]
      omega
    · intro sub
      rw [subOpcode_commandHeader (by decide)] at sub
      exact absurd sub (by decide)
  · simp only [decodeAll]
    rw [decode_memoryWrite]
    simp only [decodeMemoryWrite]
    have haddress : (commandHeader count memoryWriteSubOpcode ++ (qword address ++
        (commandFlags 0 hint space ++ (dword data.length ++ (data ++ padding))))).drop 4 =
        qword address ++ (commandFlags 0 hint space ++ (dword data.length ++ (data ++ padding))) :=
      rfl
    have hflags : (commandHeader count memoryWriteSubOpcode ++ (qword address ++
        (commandFlags 0 hint space ++ (dword data.length ++ (data ++ padding))))).drop 12 =
        commandFlags 0 hint space ++ (dword data.length ++ (data ++ padding)) := rfl
    have hsize : (commandHeader count memoryWriteSubOpcode ++ (qword address ++
        (commandFlags 0 hint space ++ (dword data.length ++ (data ++ padding))))).drop 16 =
        dword data.length ++ (data ++ padding) := rfl
    have hdata : (commandHeader count memoryWriteSubOpcode ++ (qword address ++
        (commandFlags 0 hint space ++ (dword data.length ++ (data ++ padding))))).drop
          sizeMemoryWriteHeader = data ++ padding := rfl
    have small : data.length % 2 ^ 32 = data.length := Nat.mod_eq_of_lt (by omega)
    rw [haddress, hflags, hsize, hdata, readDword_commandFlags, readDword_dword, readQword_qword,
      small, if_pos]
    · rw [Option.bind_some, Option.map_some, List.take_left, List.append_nil]
      congr 3
      omega
    · refine ⟨?_, by omega, by rw [List.length_append, length]⟩
      simp only [List.length_append, length_commandHeader, length_qword, length_commandFlags,
        length_dword, sizeMemoryWriteHeader]
      omega

theorem readPairs_addressDataPairs {pairs : List (Nat × Nat)} {n : Nat} (h : n ≤ pairs.length)
    (rest : List UInt8) : readPairs n (addressDataPairs pairs ++ rest) =
      (pairs.take n).map fun p => (p.1 % 2 ^ 64, p.2 % 2 ^ 32) := by
  induction n generalizing pairs with
  | zero => simp [readPairs]
  | succ n ih =>
    cases pairs with
    | nil => exact absurd h (by simp)
    | cons p tail =>
      have shape : addressDataPairs (p :: tail) ++ rest =
          qword p.1 ++ (dword p.2 ++ (addressDataPairs tail ++ rest)) := by
        simp only [addressDataPairs, List.flatMap_cons, List.append_assoc]
      have hsize : (qword p.1 ++ (dword p.2 ++ (addressDataPairs tail ++ rest))).drop 8 =
          dword p.2 ++ (addressDataPairs tail ++ rest) := rfl
      have htail : (qword p.1 ++ (dword p.2 ++ (addressDataPairs tail ++ rest))).drop 12 =
          addressDataPairs tail ++ rest := rfl
      rw [shape, readPairs, readQword_qword, hsize, readDword_dword, htail,
        ih (Nat.le_of_succ_le_succ h), List.take_succ_cons, List.map_cons]

theorem splitData_flatten (ws : List (Nat × List UInt8)) :
    splitData (ws.map fun w => (w.1, w.2.length)) (ws.map Prod.snd).flatten = some ws := by
  induction ws with
  | nil => rfl
  | cons w rest ih =>
    have enough : ¬ (w.2 ++ (rest.map Prod.snd).flatten).length < w.2.length := by
      rw [List.length_append]
      omega
    rw [List.map_cons, List.map_cons, List.flatten_cons, splitData, if_neg enough, List.drop_left,
      List.take_left, ih, Option.map_some]

/-- One packet of at most 63 blocks; the pairs behind them are not read. -/
theorem emits_discontiguous {count hint space : Nat} {pairs : List (Nat × Nat)}
    {blocks : List (Nat × List UInt8)} (hspace : space < 2 ^ 4) (hcount : count < 2 ^ 16)
    (hpairs : pairs.length = maxEntries) (hblocks : blocks.length ≤ maxEntries)
    (used : pairs.take blocks.length = blocks.map fun b => (b.1, b.2.length))
    (small : ∀ b ∈ blocks, b.2.length < 2 ^ 32)
    (length : sizeDiscontiguousHeader + (blocks.map Prod.snd).flatten.length = 4 * (count + 1)) :
    Emits (discontiguousHeader count blocks.length hint space pairs ++
        (blocks.map Prod.snd).flatten) (blocks.map fun b => ⟨space, b.1 % 2 ^ 64, b.2⟩) := by
  generalize hdata : (blocks.map Prod.snd).flatten = data at length ⊢
  have shape : discontiguousHeader count blocks.length hint space pairs ++ data =
      commandHeader count discontiguousSubOpcode ++ (commandFlags blocks.length hint space ++
        (addressDataPairs pairs ++ data)) := by
    simp only [discontiguousHeader, List.append_assoc]
  have hflags : (commandHeader count discontiguousSubOpcode ++
      (commandFlags blocks.length hint space ++ (addressDataPairs pairs ++ data))).drop 4 =
      commandFlags blocks.length hint space ++ (addressDataPairs pairs ++ data) := rfl
  have hfields : (commandHeader count discontiguousSubOpcode ++
      (commandFlags blocks.length hint space ++ (addressDataPairs pairs ++ data))).drop 8 =
      addressDataPairs pairs ++ data := rfl
  have hrest : (commandHeader count discontiguousSubOpcode ++
      (commandFlags blocks.length hint space ++ (addressDataPairs pairs ++ data))).drop
        sizeDiscontiguousHeader = data := by
    have skip : sizeDiscontiguousHeader = 8 + (addressDataPairs pairs).length := by
      rw [length_addressDataPairs, hpairs]
      rfl
    rw [skip, ← List.drop_drop, hfields, List.drop_left]
  have number : numberOfAddressDataPairs (commandHeader count discontiguousSubOpcode ++
      (commandFlags blocks.length hint space ++ (addressDataPairs pairs ++ data))) =
      blocks.length := by
    unfold maxEntries at hblocks
    rw [numberOfAddressDataPairs, hflags, readDword_commandFlags]
    omega
  have fields : (pairs.take blocks.length).map (fun p => (p.1 % 2 ^ 64, p.2 % 2 ^ 32)) =
      (blocks.map fun b => (b.1 % 2 ^ 64, b.2)).map fun w => (w.1, w.2.length) := by
    rw [used, List.map_map, List.map_map]
    refine List.map_congr_left fun b mem => ?_
    have hb := small b mem
    simp only [Function.comp_apply, Nat.mod_eq_of_lt hb]
  have parts : data = ((blocks.map fun b => (b.1 % 2 ^ 64, b.2)).map Prod.snd).flatten := by
    rw [← hdata, List.map_map]
    rfl
  rw [shape]
  refine ⟨[_], (List.append_nil _).symm, ?_, ?_⟩
  · intro p mem
    obtain rfl := List.mem_singleton.mp mem
    constructor
    · apply delimited_commandHeader (by decide) hcount
      rw [List.length_append, List.length_append, length_commandFlags, length_addressDataPairs,
        hpairs]
      unfold sizeDiscontiguousHeader at length
      unfold maxEntries
      omega
    · intro _
      rw [number]
      exact hblocks
  · simp only [decodeAll]
    rw [decode_discontiguous]
    simp only [decodeDiscontiguous]
    rw [number, hflags, hfields, hrest, readDword_commandFlags,
      readPairs_addressDataPairs (by omega), fields, if_pos]
    · rw [parts, splitData_flatten, Option.map_some, Option.bind_some, Option.map_some,
        List.append_nil, List.map_map]
      congr 1
      refine List.map_congr_left fun b _ => ?_
      simp only [Function.comp_apply, Write.mk.injEq, and_self, and_true]
      unfold maxEntries at hblocks
      omega
    · refine ⟨?_, by omega, hblocks⟩
      rw [List.length_append, List.length_append, List.length_append, length_commandHeader,
        length_commandFlags, length_addressDataPairs, hpairs]
      unfold sizeDiscontiguousHeader maxEntries
      omega

/-- The same for the blocks that the elements of a list stand for. -/
theorem emits_discontiguous_map {α : Type} {es : List α} (address : α → Nat)
    (data : α → List UInt8) {count hint space : Nat} {pairs : List (Nat × Nat)}
    (hspace : space < 2 ^ 4) (hcount : count < 2 ^ 16) (hpairs : pairs.length = maxEntries)
    (hes : es.length ≤ maxEntries)
    (used : pairs.take es.length = es.map fun e => (wrap64 (address e), (data e).length))
    (small : ∀ e ∈ es, (data e).length < 2 ^ 32)
    (length : sizeDiscontiguousHeader + (es.flatMap data).length = 4 * (count + 1)) :
    Emits (discontiguousHeader count es.length hint space pairs ++ es.flatMap data)
      (es.map fun e => ⟨space, address e % 2 ^ 64, data e⟩) := by
  have hlen : (es.map fun e => (wrap64 (address e), data e)).length = es.length := List.length_map _
  have hflat : ((es.map fun e => (wrap64 (address e), data e)).map Prod.snd).flatten =
      es.flatMap data := by
    rw [List.map_map]
    rfl
  have hwrites : ((es.map fun e => (wrap64 (address e), data e)).map fun b =>
      (⟨space, b.1 % 2 ^ 64, b.2⟩ : Write)) = es.map fun e => ⟨space, address e % 2 ^ 64, data e⟩ := by
    rw [List.map_map]
    refine List.map_congr_left fun e _ => ?_
    simp only [Function.comp_apply, wrap64, Nat.mod_mod]
  rw [← hwrites, ← hflat, ← hlen]
  apply emits_discontiguous hspace hcount hpairs (hlen ▸ hes)
  · rw [hlen, used, List.map_map]
    rfl
  · rintro b mem
    obtain ⟨e, hmem, rfl⟩ := List.mem_map.mp mem
    exact small e hmem
  · rw [hflat]
    exact length

end AubPackets
