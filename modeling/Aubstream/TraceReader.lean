import Aubstream.TracePackets
import Aubstream.CommentPackets
import Aubstream.ComparePackets
import Aubstream.FileCycles

/-!
# A reader of AUB files

The reader cuts a file into packets by their own lengths and executes them. It
keeps the memory that the packets write, and logs everything else together with
the memory as it was then.
-/

namespace TraceReader
open AubPackets BitFields TracePackets CommentPackets ComparePackets Framing

inductive Event where
  | version (stepping device : Nat) (deviceAbbreviation commandLine : List UInt8)
  | comment (message : List UInt8)
  | registerWrite (offset value mask : Nat)
  | registerPoll (registerOffset mask desiredValue pollNotEqual timeoutAction : Nat)
  | memoryPoll (addressSpace address value comparison : Nat)
  | continuousRegion (address regionSize : Nat)
  | memoryCompare (expected : Compare)
  | contextCreate (handle sixtyFourBit : Nat) (pageDirPointer : List Nat)
  | binaryDump (gttType address size directoryHandle : Nat)
  | dumpCompress (fields : List Nat)

/-- What one packet says: memory to be written, a part of a comment, or an event. -/
inductive Record where
  | writes (ws : List Write)
  | comment (chunk : List UInt8)
  | event (e : Event)

/-- `comment` holds the parts of a comment whose terminator has not come yet. -/
structure Reader where
  memory : Memory
  comment : List UInt8
  log : List (Event × Memory)

namespace Reader

def see (r : Reader) (e : Event) : Reader := { r with log := r.log ++ [(e, r.memory)] }

def seeAll (r : Reader) (events : List Event) : Reader := events.foldl see r

def hear (r : Reader) (chunk : List UInt8) : Reader :=
  if 0 ∈ chunk then { r with comment := [] }.see (.comment (r.comment ++ chunk.takeWhile (· ≠ 0)))
  else { r with comment := r.comment ++ chunk }

def execute (r : Reader) : Record → Reader
  | .writes ws => { r with memory := replay r.memory ws }
  | .comment chunk => r.hear chunk
  | .event e => r.see e

end Reader

def opcode (packet : List UInt8) : Nat := readDword packet / 2 ^ 23 % 2 ^ 6

/-- Dwords that a packet does not count. -/
def lengthBias (packet : List UInt8) : Nat := if opcode packet = aubOpcode then 2 else 1

def traceSize (data : List UInt8) : Option Nat :=
  if data.length < 4 then none else some (4 * (dwordCount data + lengthBias data))

/-- The fields behind the header, if these are all of the packet. -/
def fieldsOf (layout : Fields) (packet : List UInt8) : List Nat :=
  if 8 * (packet.length - 4) = (layout.map Prod.fst).sum then
    decode (layout.map Prod.fst) (packet.drop 4)
  else []

def decodeRegisterPoll (packet : List UInt8) : Option Event :=
  match fieldsOf (registerPollFields 0 0 0 0 0) packet with
  | [offset, 0, action, notEqual, 0, 0, 0, 2, 0, 0, mask, 0, value] =>
    some (.registerPoll offset mask value notEqual action)
  | _ => none

def decodeRegisterWrite (packet : List UInt8) : Option Event :=
  match fieldsOf (registerWriteFields 0 0 0) packet with
  | [offset, 0, 0, 0, 2, 0, 0, mask, 0, value] => some (.registerWrite offset value mask)
  | _ => none

def decodeMemoryPoll (packet : List UInt8) : Option Event :=
  match fieldsOf (memoryPollFields 0 0 0 0) packet with
  | [address, 0, 0, 0, 2, 0, 0, 0, comparison, 0, 0, space, 0xFFFFFFFF, 0xFFFFFFFF, value] =>
    some (.memoryPoll space address value comparison)
  | _ => none

def decodeContinuousRegion (packet : List UInt8) : Option Event :=
  match fieldsOf [(64, 0), (64, 0)] packet with
  | [address, size] => some (.continuousRegion address size)
  | _ => none

def decodeContextCreate (packet : List UInt8) : Option Event :=
  match fieldsOf (contextCreateFields 0 0 fun _ => 0) packet with
  | [handle, 0, sixtyFourBit, 0, p₀, p₁, p₂, p₃] =>
    some (.contextCreate handle sixtyFourBit [p₀, p₁, p₂, p₃])
  | _ => none

def decodeBinaryDump (packet : List UInt8) : Option Event :=
  match fieldsOf (binaryDumpFields 0 0 0 0) packet with
  | [address, width, 1, pitch, 0, gttType, 0, handle, 0, 0, 0] =>
    if width = pitch then some (.binaryDump gttType address width handle) else none
  | _ => none

/-- The layout of `CmdServicesMemTraceDumpCompress`. -/
def dumpCompressLayout : Fields :=
  dumpCompressFields .PAGE_TABLE_GGTT ⟨0, 0, 0, 0, 0, 0, 0, false, 0, false, 0, 0, 0, 0, 0, 0, 0, 0, 0⟩ 0

def decodeDumpCompress (packet : List UInt8) : Option Event :=
  match fieldsOf dumpCompressLayout packet with
  | [] => none
  | fields => some (.dumpCompress fields)

def versionFields (stepping device abbreviation commandLine : Nat) : Fields :=
  [(32, 0), (3, 0), (5, stepping), (8, device), (2, 0), (2, 1), (8, 0), (4, 5), (64, abbreviation),
    (32, commandLine)]

def decodeVersion (packet : List UInt8) : Option Event :=
  match fieldsOf (versionFields 0 0 0 0) packet with
  | [0, 0, stepping, device, 0, 1, 0, 5, _, _] =>
    some (.version stepping device ((packet.drop 12).take 8) (packet.drop 20))
  | _ => none

def versionSubOpcode : Nat := 0xe

/-- A packet of memory tracing, by its sub-opcode. -/
def decodeTrace (packet : List UInt8) : Option Record :=
  let sub := subOpcode packet
  if sub = memoryWriteSubOpcode ∨ sub = discontiguousSubOpcode then
    (AubPackets.decode packet).map .writes
  else if sub = commentSubOpcode then some (.comment (CommentPackets.comment packet))
  else if sub = memoryCompareSubOpcode then (decodeCompare packet).map fun c => .event (.memoryCompare c)
  else if sub = registerPollSubOpcode then (decodeRegisterPoll packet).map .event
  else if sub = registerWriteSubOpcode then (decodeRegisterWrite packet).map .event
  else if sub = memoryPollSubOpcode then (decodeMemoryPoll packet).map .event
  else if sub = continuousRegionSubOpcode then (decodeContinuousRegion packet).map .event
  else if sub = dumpCompressSubOpcode then (decodeDumpCompress packet).map .event
  else if sub = versionSubOpcode then (decodeVersion packet).map .event
  else none

def decodeAub (packet : List UInt8) : Option Record :=
  if subOpcode packet = contextCreateSubOp then (decodeContextCreate packet).map .event
  else if subOpcode packet = binaryDumpSubOp then (decodeBinaryDump packet).map .event
  else none

def decodeRecord (packet : List UInt8) : Option Record :=
  if readDword packet / 2 ^ 23 = instructionOpcode + 2 ^ 6 * instructionType then decodeTrace packet
  else if readDword packet / 2 ^ 23 = aubOpcode + 2 ^ 6 * instructionType then decodeAub packet
  else none

/-- The bytes are packets whose execution does what `effect` does, between two comments. -/
def Reads (data : List UInt8) (effect : Reader → Reader) : Prop :=
  ∃ (packets : List (List UInt8)) (records : List Record), data = packets.flatten ∧
    (∀ p ∈ packets, p.length = 4 * (dwordCount p + lengthBias p)) ∧
    packets.map decodeRecord = records.map some ∧
    ∀ r : Reader, r.comment = [] →
      records.foldl Reader.execute r = effect r ∧ (effect r).comment = []

/-- Without a packet nothing happens. -/
theorem reads_nil : Reads [] id :=
  ⟨[], [], rfl, fun _ mem => absurd mem List.not_mem_nil, rfl, fun _ empty => ⟨rfl, empty⟩⟩

theorem Reads.append {xs ys : List UInt8} {f g : Reader → Reader} (hx : Reads xs f)
    (hy : Reads ys g) : Reads (xs ++ ys) fun r => g (f r) := by
  obtain ⟨ps, rs, rfl, sized, decoded, done⟩ := hx
  obtain ⟨ps', rs', rfl, sized', decoded', done'⟩ := hy
  refine ⟨ps ++ ps', rs ++ rs', List.flatten_append.symm, ?_, ?_, ?_⟩
  · intro p mem
    rcases List.mem_append.mp mem with mem | mem
    · exact sized p mem
    · exact sized' p mem
  · rw [List.map_append, List.map_append, decoded, decoded']
  · intro r empty
    obtain ⟨first, between⟩ := done r empty
    obtain ⟨second, after⟩ := done' (f r) between
    exact ⟨by rw [List.foldl_append, first, second], after⟩

theorem Reads.congr {data : List UInt8} {f g : Reader → Reader} (h : Reads data f)
    (same : ∀ r, f r = g r) : Reads data g := by
  obtain rfl : f = g := funext same
  exact h

theorem readDword_append {p : List UInt8} (long : 4 ≤ p.length) (rest : List UInt8) :
    readDword (p ++ rest) = readDword p := by
  match p, long with
  | _ :: _ :: _ :: _ :: _, _ => rfl

/-- A packet of the length that it names, whatever follows it. -/
theorem delimited_of_length {p : List UInt8} (sized : p.length = 4 * (dwordCount p + lengthBias p)) :
    Delimited traceSize p := by
  have positive : 1 ≤ lengthBias p := by
    rw [lengthBias]
    split <;> decide
  have long : 4 ≤ p.length := by omega
  constructor
  · rintro rfl
    exact absurd long (by decide)
  · intro rest
    have more : ¬ (p ++ rest).length < 4 := by
      rw [List.length_append]
      omega
    rw [traceSize, if_neg more, dwordCount, lengthBias, opcode, readDword_append long, sized]
    rfl

/-- Cut by the packets' own counts and executed, the bytes do what they are to do. -/
theorem Reads.frames {data : List UInt8} {effect : Reader → Reader} (h : Reads data effect) :
    ∃ (packets : List (List UInt8)) (records : List Record),
      Framing.frames traceSize data = some packets ∧ packets.flatten = data ∧
      packets.map decodeRecord = records.map some ∧
      ∀ r : Reader, r.comment = [] → records.foldl Reader.execute r = effect r := by
  obtain ⟨packets, records, rfl, sized, decoded, done⟩ := h
  exact ⟨packets, records, frames_flatten fun p mem => delimited_of_length (sized p mem), rfl, decoded,
    fun r empty => (done r empty).1⟩

end TraceReader
