import Aubstream.AubPackets

/-!
# Comments in an AUB file

`addComment` cuts a message and its terminator into records of at most 65534
dwords. A reader that joins the comments of the records gets the message back.
-/

namespace CommentPackets
open Framing AubPackets

/-- The bytes of a C string, its terminator not counted. -/
def strlen (memory : List UInt8) : Nat := (memory.takeWhile (· ≠ 0)).length

def maxMessageBytesPerRecord : Nat := (65535 - 1) * 4

def commentSubOpcode : Nat := 0x8

/-- `CmdServicesMemTraceComment` up to its comment; neither synchronization is asked for. -/
def commentHeader (dwordCount : Nat) : List UInt8 := commandHeader dwordCount commentSubOpcode ++ dword 0

/-- `do { … } while (remaining > 0)`; every record takes one unit of fuel. -/
def commentRecords : Nat → List UInt8 → Nat → List UInt8
  | 0, _, _ => []
  | fuel + 1, cursor, remaining =>
    let chunkBytes := min remaining maxMessageBytesPerRecord
    let dwordLen := (chunkBytes + 3) / 4
    let remainder := chunkBytes % 4
    commentHeader (dwordLen + 1) ++ cursor.take chunkBytes ++
      List.replicate (if remainder ≠ 0 then 4 - remainder else 0) 0 ++
      if 0 < remaining - chunkBytes then
        commentRecords fuel (cursor.drop chunkBytes) (remaining - chunkBytes)
      else []

/-- `memory` is what the pointer `message` points to. -/
def addComment (memory : List UInt8) : List UInt8 :=
  let remaining := strlen memory + 1
  commentRecords remaining memory remaining

def matchesHeader (packet : List UInt8) : Bool :=
  readDword packet / 2 ^ 23 == instructionOpcode + 2 ^ 6 * instructionType &&
    subOpcode packet == commentSubOpcode

/-- The comment of a packet, behind its two dwords. -/
def comment (packet : List UInt8) : List UInt8 := (packet.drop 8).take (4 * (dwordCount packet - 1))

/-- What a file gets for a message: comment packets of the length they name, whose comments are the
message, its terminator and the padding, which lies in the last packet. -/
structure RoundTrip (message bytes : List UInt8) (packets : List (List UInt8)) : Prop where
  parsed : frames packetSize bytes = some packets
  whole : packets.flatten = bytes
  records : ∀ p ∈ packets, matchesHeader p = true ∧ dwordCount p ≤ 0xFFFF ∧
    p.length = 4 * (dwordCount p + 1)
  payload : ∃ padding, padding < 4 ∧ 4 ∣ message.length + 1 + padding ∧
    (packets.map comment).flatten = message ++ 0 :: List.replicate padding 0 ∧
    ∃ init last part, packets = init ++ [last] ∧ part ≠ [] ∧
      (init.map comment).flatten ++ part = message ++ [0] ∧
      comment last = part ++ List.replicate padding 0

/-- A comment packet on its own. -/
structure IsRecord (p : List UInt8) : Prop where
  delimited : Delimited packetSize p
  header : matchesHeader p = true
  count : dwordCount p ≤ 0xFFFF
  length : p.length = 4 * (dwordCount p + 1)

/-- One round of the loop, its chunk filled up to whole dwords. -/
theorem record_spec {chunk padding : List UInt8} (fits : chunk.length ≤ maxMessageBytesPerRecord)
    (filled : chunk.length + padding.length = (chunk.length + 3) / 4 * 4) :
    IsRecord (commentHeader ((chunk.length + 3) / 4 + 1) ++ chunk ++ padding) ∧
      comment (commentHeader ((chunk.length + 3) / 4 + 1) ++ chunk ++ padding) = chunk ++ padding := by
  unfold maxMessageBytesPerRecord at fits
  have small : (chunk.length + 3) / 4 + 1 < 2 ^ 16 := by omega
  have shape : commentHeader ((chunk.length + 3) / 4 + 1) ++ chunk ++ padding =
      commandHeader ((chunk.length + 3) / 4 + 1) commentSubOpcode ++ (dword 0 ++ (chunk ++ padding)) := by
    simp only [commentHeader, List.append_assoc]
  rw [shape]
  have count := @dwordCount_commandHeader ((chunk.length + 3) / 4 + 1) commentSubOpcode
    (dword 0 ++ (chunk ++ padding)) (by decide) small
  have total : (commandHeader ((chunk.length + 3) / 4 + 1) commentSubOpcode ++
      (dword 0 ++ (chunk ++ padding))).length = 4 * ((chunk.length + 3) / 4 + 1 + 1) := by
    simp only [List.length_append, length_commandHeader, length_dword]
    omega
  constructor
  · constructor
    · apply delimited_commandHeader (by decide) small
      simp only [List.length_append, length_dword]
      omega
    · have opcode : readDword (commandHeader ((chunk.length + 3) / 4 + 1) commentSubOpcode ++
          (dword 0 ++ (chunk ++ padding))) / 2 ^ 23 = instructionOpcode + 2 ^ 6 * instructionType := by
        rw [readDword_commandHeader (by decide)]
        unfold instructionOpcode instructionType commentSubOpcode
        omega
      have sub : subOpcode (commandHeader ((chunk.length + 3) / 4 + 1) commentSubOpcode ++
          (dword 0 ++ (chunk ++ padding))) = commentSubOpcode := subOpcode_commandHeader (by decide)
      rw [matchesHeader, opcode, sub, beq_self_eq_true, beq_self_eq_true, Bool.and_self]
    · rw [count]
      omega
    · rw [count, total]
  · have behind : (commandHeader ((chunk.length + 3) / 4 + 1) commentSubOpcode ++
        (dword 0 ++ (chunk ++ padding))).drop 8 = chunk ++ padding := rfl
    rw [comment, count, behind]
    apply List.take_of_length_le
    rw [List.length_append, filled]
    omega

/-- The records of a loop: whole chunks, then one with the rest and its padding. -/
theorem commentRecords_split {fuel remaining : Nat} {cursor : List UInt8} (enough : remaining ≤ fuel)
    (pos : 0 < remaining) (inside : remaining ≤ cursor.length) :
    ∃ init last part, commentRecords fuel cursor remaining = (init ++ [last]).flatten ∧
      (∀ p ∈ init ++ [last], IsRecord p) ∧ part ≠ [] ∧
      (init.map comment).flatten ++ part = cursor.take remaining ∧
      comment last = part ++ List.replicate ((4 - remaining % 4) % 4) 0 := by
  induction fuel generalizing remaining cursor with
  | zero => omega
  | succ fuel ih =>
    by_cases hlast : remaining ≤ maxMessageBytesPerRecord
    · -- the rest fits into one record
      have hchunk : (cursor.take remaining).length = remaining := List.length_take_of_le inside
      have hpad : (if remaining % 4 ≠ 0 then 4 - remaining % 4 else 0) = (4 - remaining % 4) % 4 := by
        split <;> omega
      obtain ⟨record, payload⟩ := @record_spec (cursor.take remaining)
        (List.replicate ((4 - remaining % 4) % 4) 0) (by rw [hchunk]; exact hlast)
        (by rw [hchunk, List.length_replicate]; omega)
      rw [hchunk] at record payload
      refine ⟨[], _, cursor.take remaining, ?_, ?_, ?_, rfl, payload⟩
      · simp only [commentRecords, Nat.min_eq_left hlast, Nat.sub_self, Nat.lt_irrefl, if_false, hpad,
          List.append_nil, List.nil_append, List.flatten_cons, List.flatten_nil]
      · intro p mem
        obtain rfl := List.mem_singleton.mp mem
        exact record
      · intro nothing
        rw [nothing, List.length_nil] at hchunk
        omega
    · -- a whole record, without padding
      have hmax : maxMessageBytesPerRecord = 262136 := rfl
      have hchunk : (cursor.take maxMessageBytesPerRecord).length = maxMessageBytesPerRecord :=
        List.length_take_of_le (by omega)
      have hmore : 0 < remaining - maxMessageBytesPerRecord := by omega
      obtain ⟨record, payload⟩ := @record_spec (cursor.take maxMessageBytesPerRecord) []
        (Nat.le_of_eq hchunk) (by rw [hchunk]; rfl)
      rw [hchunk, List.append_nil] at record payload
      rw [List.append_nil] at payload
      obtain ⟨init, last, part, bytes, good, rest, joined, tail⟩ :=
        @ih (remaining - maxMessageBytesPerRecord) (cursor.drop maxMessageBytesPerRecord) (by omega)
          hmore (by rw [List.length_drop]; omega)
      refine ⟨(commentHeader ((maxMessageBytesPerRecord + 3) / 4 + 1) ++
        cursor.take maxMessageBytesPerRecord) :: init, last, part, ?_, ?_, rest, ?_, ?_⟩
      · have unpadded : ¬ maxMessageBytesPerRecord % 4 ≠ 0 := by decide
        simp only [commentRecords, Nat.min_eq_right (Nat.le_of_not_le hlast), if_pos hmore, bytes,
          if_neg unpadded, List.replicate_zero, List.append_nil, List.cons_append, List.flatten_cons]
      · intro p mem
        rcases List.mem_cons.mp mem with rfl | mem
        · exact record
        · exact good p mem
      · rw [List.map_cons, List.flatten_cons, payload, List.append_assoc, joined, ← List.take_add,
          Nat.add_sub_cancel' (Nat.le_of_not_le hlast)]
      · have same : (remaining - maxMessageBytesPerRecord) % 4 = remaining % 4 := by omega
        rw [tail, same]

section Message
variable {message : List UInt8} (noNul : ∀ b ∈ message, b ≠ 0) (beyond : List UInt8)
include noNul

theorem strlen_message : strlen (message ++ 0 :: beyond) = message.length := by
  have chars : ∀ b ∈ message, decide (b ≠ 0) = true := fun b mem => decide_eq_true (noNul b mem)
  rw [strlen, List.takeWhile_append_of_pos chars, List.takeWhile_cons_of_neg (by decide),
    List.append_nil]

/-- A comment is read back from the records that are written for it. -/
theorem addComment_roundTrip :
    ∃ packets, RoundTrip message (addComment (message ++ 0 :: beyond)) packets := by
  have length : (message ++ 0 :: beyond).length = message.length + 1 + beyond.length := by
    rw [List.length_append, List.length_cons]
    omega
  obtain ⟨init, last, part, bytes, good, rest, joined, tail⟩ :=
    @commentRecords_split (message.length + 1) (message.length + 1) (message ++ 0 :: beyond)
      (Nat.le_refl _) (Nat.succ_pos _) (by omega)
  have terminated : (message ++ 0 :: beyond).take (message.length + 1) = message ++ [0] := by
    rw [List.take_append, List.take_of_length_le (Nat.le_succ _), Nat.add_sub_cancel_left]
    rfl
  rw [terminated] at joined
  refine ⟨init ++ [last], ?_⟩
  unfold addComment
  rw [strlen_message noNul]
  simp only
  rw [bytes]
  constructor
  · exact frames_flatten fun p mem => (good p mem).delimited
  · rfl
  · intro p mem
    exact ⟨(good p mem).header, (good p mem).count, (good p mem).length⟩
  · refine ⟨(4 - (message.length + 1) % 4) % 4, Nat.mod_lt _ (by decide), by omega, ?_, init, last, part,
      rfl, rest, joined, tail⟩
    rw [List.map_append, List.flatten_append, List.map_singleton, List.flatten_singleton, tail,
      ← List.append_assoc, joined, List.append_assoc]
    rfl

end Message

/-- Two characters, with other data behind the terminator. -/
theorem addComment_roundTrip_two :
    ∃ packets, RoundTrip [0x41, 0x42] (addComment [0x41, 0x42, 0, 0x43]) packets :=
  @addComment_roundTrip [0x41, 0x42] (by simp) [0x43]

end CommentPackets
