import Aubstream.TraceReader

/-!
# Calls of an AUB file stream

Each call of `AubFileStream` that records something, the bytes that it appends,
and its effect on a reader. The packets of a call have the effect of the call.
-/

namespace TraceCalls
open AubPackets BitFields TracePackets CommentPackets ComparePackets Framing TraceReader DualStreams
open PageWalker AubFileStream DataPackets EntryPackets

/-- A call with its arguments; what a pointer points to is a list. -/
inductive Call where
  | addComment (memory : List UInt8)
  | declareContextForDumping (handleDumpContext : UInt32) (ppgtt : DumpContext)
  | dumpBufferBIN (gttType : PageTableType) (gfxAddress size : UInt64) (handleDumpContext : UInt32)
  | dumpSurface (gttType : PageTableType) (surfaceInfo : SurfaceInfo) (handleDumpContext : UInt32)
  | expectMemoryTable (memory : List UInt8) (entries : List PageInfo) (compareOperation : Nat)
  | reserveContiguousPages (entries : List UInt64)
  | writeContiguousPages (memory : List UInt8) (physAddress : Nat) (addressSpace : AddressSpaceValues)
      (hint : Nat)
  | writeDiscontiguousPages (memory : List UInt8) (writeInfoTable : List PageInfo) (hint : Nat)
  | writeDiscontiguousEntries (writeInfoTable : List PageEntryInfo) (addressSpace : AddressSpaceValues)
      (hint : Nat)
  | writeGttPages (writeInfoTable : List PageEntryInfo)
  | writeMMIO (offset value mask : UInt32)
  | registerPoll (registerOffset mask desiredValue : UInt32) (pollNotEqual : Bool)
      (timeoutAction : UInt32)
  | memoryPoll (physicalAddress : UInt64) (isLocalMemory : Bool) (value compareMode : UInt32)

namespace Call

/-- `dumpSupported`: `dumpBinSupported` and `dumpSurfaceSupported`, which are always equal. -/
def bytes (dumpSupported : Bool) : Call → List UInt8
  | addComment memory => CommentPackets.addComment memory
  | declareContextForDumping handle ppgtt => TracePackets.declareContextForDumping handle ppgtt
  | dumpBufferBIN gttType gfxAddress size handle =>
    if dumpSupported then TracePackets.dumpBufferBIN gttType gfxAddress size handle else []
  | dumpSurface gttType surfaceInfo handle =>
    if dumpSupported then TracePackets.dumpSurface gttType surfaceInfo handle else []
  | expectMemoryTable memory entries compareOperation =>
    ComparePackets.expectMemoryTable compareOperation memory entries
  | reserveContiguousPages entries => TracePackets.reserveContiguousPages entries
  | writeContiguousPages memory physAddress addressSpace hint =>
    AubFileStream.writeContiguousPages memory physAddress addressSpace.value hint
  | writeDiscontiguousPages memory table hint => AubFileStream.writeDiscontiguousPages memory table hint
  | writeDiscontiguousEntries table addressSpace hint =>
    AubFileStream.writeDiscontiguousEntries addressSpace.value hint table
  | writeGttPages table =>
    AubFileStream.writeDiscontiguousEntries AddressSpaceValues.TraceGttEntry.value 0 table
  | writeMMIO offset value mask => TracePackets.writeMMIO offset value mask
  | registerPoll offset mask value notEqual action =>
    TracePackets.registerPoll offset mask value notEqual action
  | memoryPoll address isLocalMemory value compareMode =>
    TracePackets.memoryPoll address isLocalMemory value compareMode

/-- The call's own effect: memory is written as `TbxStream` writes it, and the rest is logged, cut to
the widths of the fields. -/
def perform (dumpSupported : Bool) (call : Call) (r : Reader) : Reader :=
  match call with
  | addComment memory => r.see (.comment (memory.take (strlen memory)))
  | declareContextForDumping handle ppgtt => r.see (.contextCreate handle.toNat ppgtt.sixtyFourBit.toNat
      [(ppgtt.pageDirPointer 0).toNat, (ppgtt.pageDirPointer 1).toNat, (ppgtt.pageDirPointer 2).toNat,
        (ppgtt.pageDirPointer 3).toNat])
  | dumpBufferBIN gttType gfxAddress size handle =>
    if dumpSupported then
      r.see (.binaryDump (pageTableType gttType) gfxAddress.toNat size.toNat handle.toNat)
    else r
  | dumpSurface gttType surfaceInfo handle =>
    if dumpSupported then
      r.see (.dumpCompress ((dumpCompressFields gttType surfaceInfo handle).map fun f => f.2 % 2 ^ f.1))
    else r
  | expectMemoryTable memory entries compareOperation =>
    r.seeAll ((comparesOf compareOperation memory entries).map .memoryCompare)
  | reserveContiguousPages entries =>
    r.seeAll (entries.map fun page => .continuousRegion page.toNat regionSize)
  | writeContiguousPages memory physAddress addressSpace _ =>
    { r with memory := store r.memory (region addressSpace.value) physAddress memory }
  | writeDiscontiguousPages memory table _ =>
    { r with memory := TbxStream.writeDiscontiguousPages r.memory memory table }
  | writeDiscontiguousEntries table addressSpace _ =>
    { r with memory := TbxStream.writeDiscontiguousEntries r.memory table addressSpace }
  | writeGttPages table =>
    { r with memory := TbxStream.writeDiscontiguousEntries r.memory table .TraceGttEntry }
  | writeMMIO offset value mask => r.see (.registerWrite offset.toNat value.toNat mask.toNat)
  | registerPoll offset mask value notEqual action =>
    r.see (.registerPoll offset.toNat mask.toNat value.toNat notEqual.toNat (action.toNat % 2))
  | memoryPoll address isLocalMemory value compareMode =>
    r.see (.memoryPoll (addressSpaceOf isLocalMemory) address.toNat value.toNat
      (compareMode.toNat % 2 ^ 3))

/-- What a call needs to be recorded: a message has an end, a buffer has the bytes of its pages, and
these can be counted in the fields of their packets. -/
def Recordable : Call → Prop
  | addComment memory => 0 ∈ memory
  | expectMemoryTable memory entries _ =>
    memory.length = total entries ∧ ∀ e ∈ entries, Countable e
  | writeDiscontiguousPages memory table _ =>
    table ≠ [] ∧ memory.length = total table ∧ Representable table
  | _ => True

end Call

/-- A packet of memory tracing. -/
theorem header_trace {packet : List UInt8}
    (header : readDword packet / 2 ^ 23 = instructionOpcode + 2 ^ 6 * instructionType) :
    lengthBias packet = 1 ∧ decodeRecord packet = decodeTrace packet := by
  have other : ¬ opcode packet = aubOpcode := by
    rw [opcode, header]
    decide
  exact ⟨if_neg other, if_pos header⟩

/-- One packet with one event. -/
theorem reads_event {packet : List UInt8} {e : Event}
    (sized : packet.length = 4 * (dwordCount packet + lengthBias packet))
    (decoded : decodeRecord packet = some (.event e)) : Reads packet (·.see e) := by
  refine ⟨[packet], [.event e], (List.append_nil _).symm, ?_, ?_, fun r empty => ⟨rfl, empty⟩⟩
  · intro p mem
    obtain rfl := List.mem_singleton.mp mem
    exact sized
  · rw [List.map_singleton, decoded, List.map_singleton]

section
variable {sub count : Nat} {fields layout : Fields} {e : Event}

theorem header_tracePacket (small : sub < 2 ^ 7) :
    readDword (tracePacket sub count fields) / 2 ^ 23 = instructionOpcode + 2 ^ 6 * instructionType := by
  rw [tracePacket, readDword_commandHeader small, instructionOpcode, instructionType]
  omega

theorem subOpcode_tracePacket (small : sub < 2 ^ 7) : subOpcode (tracePacket sub count fields) = sub :=
  subOpcode_commandHeader small

theorem length_tracePacket : (tracePacket sub count fields).length = 4 * (count + 1) := by
  rw [tracePacket, List.length_append, length_commandHeader, length_encode]
  omega

theorem sized_tracePacket (small : sub < 2 ^ 7) (short : count < 2 ^ 16) :
    (tracePacket sub count fields).length =
      4 * (dwordCount (tracePacket sub count fields) + lengthBias (tracePacket sub count fields)) := by
  rw [(header_trace (header_tracePacket small)).1, length_tracePacket]
  exact congrArg (fun n => 4 * (n + 1)) (dwordCount_commandHeader small short).symm

/-- The fields are read back at their widths. -/
theorem fieldsOf_tracePacket (same : layout.map Prod.fst = fields.map Prod.fst)
    (fits : (fields.map Prod.fst).sum = 8 * (4 * count)) :
    fieldsOf layout (tracePacket sub count fields) = fields.map fun f => f.2 % 2 ^ f.1 := by
  have whole : 8 * ((tracePacket sub count fields).length - 4) = (fields.map Prod.fst).sum := by
    rw [length_tracePacket, fits]
    omega
  have behind : (tracePacket sub count fields).drop 4 = encode (4 * count) fields := rfl
  rw [fieldsOf, same, if_pos whole, behind, ← List.append_nil (encode (4 * count) fields),
    decode_encode fits]

end

section
variable {sub count : Nat} {fields layout : Fields} {e : Event}

theorem readDword_aubPacket (small : sub < 2 ^ 7) : readDword (aubPacket sub count fields) =
    count % 2 ^ 16 + 2 ^ 16 * sub + 2 ^ 23 * aubOpcode + 2 ^ 29 * instructionType := by
  rw [aubPacket, aubHeader, readDword_dword, aubOpcode, instructionType]
  omega

theorem header_aubPacket (small : sub < 2 ^ 7) :
    readDword (aubPacket sub count fields) / 2 ^ 23 = aubOpcode + 2 ^ 6 * instructionType := by
  rw [readDword_aubPacket small, aubOpcode, instructionType]
  omega

theorem subOpcode_aubPacket (small : sub < 2 ^ 7) : subOpcode (aubPacket sub count fields) = sub := by
  rw [subOpcode, readDword_aubPacket small, aubOpcode, instructionType]
  omega

theorem length_aubPacket : (aubPacket sub count fields).length = 4 * (count + 2) := by
  rw [aubPacket, List.length_append, length_encode, aubHeader, length_dword]
  omega

theorem sized_aubPacket (small : sub < 2 ^ 7) (short : count < 2 ^ 16) :
    (aubPacket sub count fields).length =
      4 * (dwordCount (aubPacket sub count fields) + lengthBias (aubPacket sub count fields)) := by
  have code : opcode (aubPacket sub count fields) = aubOpcode := by
    rw [opcode, header_aubPacket small]
    rfl
  have number : dwordCount (aubPacket sub count fields) = count := by
    rw [dwordCount, readDword_aubPacket small, aubOpcode, instructionType]
    omega
  rw [lengthBias, if_pos code, number, length_aubPacket]

theorem fieldsOf_aubPacket (same : layout.map Prod.fst = fields.map Prod.fst)
    (fits : (fields.map Prod.fst).sum = 8 * (4 * (count + 1))) :
    fieldsOf layout (aubPacket sub count fields) = fields.map fun f => f.2 % 2 ^ f.1 := by
  have whole : 8 * ((aubPacket sub count fields).length - 4) = (fields.map Prod.fst).sum := by
    rw [length_aubPacket, fits]
    omega
  have behind : (aubPacket sub count fields).drop 4 = encode (4 * (count + 1)) fields := rfl
  rw [fieldsOf, same, if_pos whole, behind, ← List.append_nil (encode (4 * (count + 1)) fields),
    decode_encode fits]

theorem decodeRecord_aubPacket (small : sub < 2 ^ 7) :
    decodeRecord (aubPacket sub count fields) = decodeAub (aubPacket sub count fields) := by
  have other : ¬ readDword (aubPacket sub count fields) / 2 ^ 23 =
      instructionOpcode + 2 ^ 6 * instructionType := by
    rw [header_aubPacket small]
    decide
  rw [decodeRecord, if_neg other, if_pos (header_aubPacket small)]

end

/-- One packet of memory tracing with one event. -/
theorem tracePacket_reads {sub count : Nat} {fields : Fields} {e : Event} (small : sub < 2 ^ 7)
    (short : count < 2 ^ 16)
    (decoded : decodeTrace (tracePacket sub count fields) = some (.event e)) :
    Reads (tracePacket sub count fields) (·.see e) := by
  refine reads_event (sized_tracePacket small short) ?_
  rw [(header_trace (header_tracePacket small)).2, decoded]

theorem aubPacket_reads {sub count : Nat} {fields : Fields} {e : Event} (small : sub < 2 ^ 7)
    (short : count < 2 ^ 16)
    (decoded : decodeAub (aubPacket sub count fields) = some (.event e)) :
    Reads (aubPacket sub count fields) (·.see e) := by
  refine reads_event (sized_aubPacket small short) ?_
  rw [decodeRecord_aubPacket small, decoded]

section
variable {packet : List UInt8}

theorem decodeTrace_registerPoll (sub : subOpcode packet = registerPollSubOpcode) :
    decodeTrace packet = (decodeRegisterPoll packet).map .event := by
  simp only [decodeTrace, sub]
  rfl

theorem decodeTrace_registerWrite (sub : subOpcode packet = registerWriteSubOpcode) :
    decodeTrace packet = (decodeRegisterWrite packet).map .event := by
  simp only [decodeTrace, sub]
  rfl

theorem decodeTrace_memoryPoll (sub : subOpcode packet = memoryPollSubOpcode) :
    decodeTrace packet = (decodeMemoryPoll packet).map .event := by
  simp only [decodeTrace, sub]
  rfl

theorem decodeTrace_continuousRegion (sub : subOpcode packet = continuousRegionSubOpcode) :
    decodeTrace packet = (decodeContinuousRegion packet).map .event := by
  simp only [decodeTrace, sub]
  rfl

theorem decodeTrace_dumpCompress (sub : subOpcode packet = dumpCompressSubOpcode) :
    decodeTrace packet = (decodeDumpCompress packet).map .event := by
  simp only [decodeTrace, sub]
  rfl

theorem decodeTrace_version (sub : subOpcode packet = versionSubOpcode) :
    decodeTrace packet = (decodeVersion packet).map .event := by
  simp only [decodeTrace, sub]
  rfl

theorem decodeTrace_memoryCompare (sub : subOpcode packet = memoryCompareSubOpcode) :
    decodeTrace packet = (decodeCompare packet).map fun c => .event (.memoryCompare c) := by
  simp only [decodeTrace, sub]
  rfl

theorem decodeTrace_comment (sub : subOpcode packet = commentSubOpcode) :
    decodeTrace packet = some (.comment (CommentPackets.comment packet)) := by
  simp only [decodeTrace, sub]
  rfl

end

theorem writeMMIO_reads (offset value mask : UInt32) : Reads (TracePackets.writeMMIO offset value mask)
    (·.see (.registerWrite offset.toNat value.toNat mask.toNat)) := by
  refine tracePacket_reads (by decide) (by decide) ?_
  rw [decodeTrace_registerWrite (subOpcode_tracePacket (by decide)), decodeRegisterWrite,
    fieldsOf_tracePacket]
  · simp only [registerWriteFields, List.map_cons, List.map_nil, Nat.mod_eq_of_lt offset.toNat_lt,
      Nat.mod_eq_of_lt value.toNat_lt, Nat.mod_eq_of_lt mask.toNat_lt]
    rfl
  · rfl
  · rfl

theorem registerPoll_reads (offset mask value : UInt32) (notEqual : Bool) (action : UInt32) :
    Reads (TracePackets.registerPoll offset mask value notEqual action)
      (·.see (.registerPoll offset.toNat mask.toNat value.toNat notEqual.toNat (action.toNat % 2))) := by
  refine tracePacket_reads (by decide) (by decide) ?_
  rw [decodeTrace_registerPoll (subOpcode_tracePacket (by decide)), decodeRegisterPoll,
    fieldsOf_tracePacket]
  · have bit : notEqual.toNat % 2 ^ 1 = notEqual.toNat := by cases notEqual <;> rfl
    simp only [registerPollFields, List.map_cons, List.map_nil, Nat.mod_eq_of_lt offset.toNat_lt,
      Nat.mod_eq_of_lt value.toNat_lt, Nat.mod_eq_of_lt mask.toNat_lt, bit]
    rfl
  · rfl
  · rfl

theorem memoryPoll_reads (address : UInt64) (isLocalMemory : Bool) (value compareMode : UInt32) :
    Reads (TracePackets.memoryPoll address isLocalMemory value compareMode)
      (·.see (.memoryPoll (addressSpaceOf isLocalMemory) address.toNat value.toNat
        (compareMode.toNat % 2 ^ 3))) := by
  refine tracePacket_reads (by decide) (by decide) ?_
  rw [decodeTrace_memoryPoll (subOpcode_tracePacket (by decide)), decodeMemoryPoll,
    fieldsOf_tracePacket]
  · simp only [memoryPollFields, List.map_cons, List.map_nil, Nat.mod_eq_of_lt address.toNat_lt,
      Nat.mod_eq_of_lt value.toNat_lt]
    cases isLocalMemory <;> rfl
  · rfl
  · rfl

theorem reserveContiguousPages_reads (entries : List UInt64) :
    Reads (TracePackets.reserveContiguousPages entries)
      (·.seeAll (entries.map fun page => .continuousRegion page.toNat regionSize)) := by
  induction entries with
  | nil => exact reads_nil
  | cons page rest ih =>
    refine Reads.append (f := (·.see (.continuousRegion page.toNat regionSize))) ?_ ih
    refine tracePacket_reads (by decide) (by decide) ?_
    rw [decodeTrace_continuousRegion (subOpcode_tracePacket (by decide)), decodeContinuousRegion,
      fieldsOf_tracePacket]
    · simp only [List.map_cons, List.map_nil, Nat.mod_eq_of_lt page.toNat_lt]
      rfl
    · rfl
    · rfl

theorem declareContextForDumping_reads (handle : UInt32) (ppgtt : DumpContext) :
    Reads (TracePackets.declareContextForDumping handle ppgtt)
      (·.see (.contextCreate handle.toNat ppgtt.sixtyFourBit.toNat
        [(ppgtt.pageDirPointer 0).toNat, (ppgtt.pageDirPointer 1).toNat,
          (ppgtt.pageDirPointer 2).toNat, (ppgtt.pageDirPointer 3).toNat])) := by
  refine aubPacket_reads (by decide) (by decide) ?_
  have sub := @subOpcode_aubPacket contextCreateSubOp 9 (contextCreateFields handle.toNat
    ppgtt.sixtyFourBit.toNat fun i => (ppgtt.pageDirPointer i).toNat) (by decide)
  rw [decodeAub, if_pos sub, decodeContextCreate, fieldsOf_aubPacket]
  · have bit : ppgtt.sixtyFourBit.toNat % 2 ^ 1 = ppgtt.sixtyFourBit.toNat := by
      cases ppgtt.sixtyFourBit <;> rfl
    simp only [contextCreateFields, List.map_cons, List.map_nil, Nat.mod_eq_of_lt handle.toNat_lt, bit,
      Nat.mod_eq_of_lt (UInt64.toNat_lt _)]
    rfl
  · rfl
  · simp [contextCreateFields]

theorem dumpBufferBIN_reads (gttType : PageTableType) (gfxAddress size : UInt64) (handle : UInt32) :
    Reads (TracePackets.dumpBufferBIN gttType gfxAddress size handle)
      (·.see (.binaryDump (pageTableType gttType) gfxAddress.toNat size.toNat handle.toNat)) := by
  refine aubPacket_reads (by decide) (by decide) ?_
  have sub := @subOpcode_aubPacket binaryDumpSubOp 12 (binaryDumpFields (pageTableType gttType)
    gfxAddress.toNat size.toNat handle.toNat) (by decide)
  have other : ¬ subOpcode (aubPacket binaryDumpSubOp 12 (binaryDumpFields (pageTableType gttType)
      gfxAddress.toNat size.toNat handle.toNat)) = contextCreateSubOp := by
    rw [sub]
    decide
  rw [decodeAub, if_neg other, if_pos sub, decodeBinaryDump, fieldsOf_aubPacket]
  · simp only [binaryDumpFields, List.map_cons, List.map_nil, Nat.mod_eq_of_lt handle.toNat_lt,
      Nat.mod_eq_of_lt gfxAddress.toNat_lt, Nat.mod_eq_of_lt size.toNat_lt]
    cases gttType <;> simp [pageTableType]
  · rfl
  · simp [binaryDumpFields]

theorem dumpSurface_reads (gttType : PageTableType) (s : SurfaceInfo) (handle : UInt32) :
    Reads (TracePackets.dumpSurface gttType s handle)
      (·.see (.dumpCompress ((dumpCompressFields gttType s handle).map fun f => f.2 % 2 ^ f.1))) := by
  refine tracePacket_reads (by decide) (by decide) ?_
  rw [decodeTrace_dumpCompress (subOpcode_tracePacket (by decide)), decodeDumpCompress,
    fieldsOf_tracePacket]
  · have some : (dumpCompressFields gttType s handle).map (fun f => f.2 % 2 ^ f.1) ≠ [] := by
      simp [dumpCompressFields, surfaceFields]
    split
    · contradiction
    · rfl
  · rfl
  · simp [dumpCompressFields, surfaceFields, auxSurfaceFields, compressionFields, directoryFields]

/-- A packet that is read as writes writes them. -/
theorem decodeRecord_writes {packet : List UInt8} {ws : List Write}
    (decoded : AubPackets.decode packet = some ws) :
    lengthBias packet = 1 ∧ decodeRecord packet = some (.writes ws) := by
  have parts := decoded
  rw [AubPackets.decode] at parts
  split at parts
  · rename_i header
    obtain ⟨bias, record⟩ := header_trace header
    have sub : subOpcode packet = memoryWriteSubOpcode ∨ subOpcode packet = discontiguousSubOpcode := by
      split at parts
      · rename_i contiguous
        exact Or.inl contiguous
      · split at parts
        · rename_i discontiguous
          exact Or.inr discontiguous
        · cases parts
    refine ⟨bias, ?_⟩
    simp only [record, decodeTrace, if_pos sub, decoded, Option.map_some]
  · cases parts

theorem reads_of_writes {packets : List (List UInt8)} {ws : List Write}
    (sized : ∀ p ∈ packets, p.length = 4 * (dwordCount p + 1)) (decoded : decodeAll packets = some ws) :
    Reads packets.flatten fun r => { r with memory := replay r.memory ws } := by
  induction packets generalizing ws with
  | nil =>
    obtain rfl := Option.some.inj decoded
    exact reads_nil
  | cons p rest ih =>
    obtain ⟨first, hfirst, later⟩ := Option.bind_eq_some_iff.mp decoded
    obtain ⟨others, hothers, rfl⟩ := Option.map_eq_some_iff.mp later
    obtain ⟨bias, record⟩ := decodeRecord_writes hfirst
    have head : Reads p fun r => { r with memory := replay r.memory first } := by
      refine ⟨[p], [.writes first], (List.append_nil _).symm, ?_, ?_, fun r empty => ⟨rfl, empty⟩⟩
      · intro q mem
        obtain rfl := List.mem_singleton.mp mem
        rw [bias]
        exact sized q List.mem_cons_self
      · rw [List.map_singleton, record, List.map_singleton]
    refine (head.append (ih (fun q mem => sized q (List.mem_cons_of_mem _ mem)) hothers)).congr ?_
    intro r
    rw [replay_append]

theorem reads_of_emits {data : List UInt8} {ws : List Write} (emits : Emits data ws) :
    Reads data fun r => { r with memory := replay r.memory ws } := by
  obtain ⟨packets, -, rfl, good, decoded⟩ := emits.frames
  exact reads_of_writes (fun p mem => (good p mem).1) decoded

theorem writeContiguousPages_reads (memory : List UInt8) (physAddress : Nat)
    (space : AddressSpaceValues) (hint : Nat) :
    Reads (AubFileStream.writeContiguousPages memory physAddress space.value hint)
      fun r => { r with memory := store r.memory (region space.value) physAddress memory } := by
  obtain ⟨ws, emits, same⟩ := writeContiguousPages_emits space.value_lt memory physAddress hint
  refine (reads_of_emits emits).congr fun r => ?_
  rw [same]

theorem writeDiscontiguousEntries_reads (table : List PageEntryInfo) (space : AddressSpaceValues)
    (hint : Nat) :
    Reads (AubFileStream.writeDiscontiguousEntries space.value hint table) fun r =>
      { r with memory := TbxStream.writeDiscontiguousEntries r.memory table space } := by
  refine (reads_of_emits (writeDiscontiguousEntries_emits space.value_lt hint table)).congr fun r => ?_
  rw [replay_entryWrites]

theorem writeDiscontiguousPages_reads {memory : List UInt8} {table : List PageInfo} (hint : Nat)
    (nonempty : table ≠ []) (length : memory.length = total table)
    (representable : Representable table) :
    Reads (AubFileStream.writeDiscontiguousPages memory table hint) fun r =>
      { r with memory := TbxStream.writeDiscontiguousPages r.memory memory table } := by
  obtain ⟨packets, ws, -, whole, good, decoded, same⟩ :=
    replays_of_representable hint nonempty length representable
  rw [whole]
  refine (reads_of_writes (fun p mem => (good p mem).1) decoded).congr fun r => ?_
  rw [same]

/-- The packet of one page. -/
theorem comparePacket_reads {compareOperation : Nat} {isLast : Bool} {e : PageInfo}
    {memory : List UInt8} (countable : Countable e) (enough : e.size ≤ memory.length) :
    Reads (comparePacket compareOperation isLast e memory) (·.see (.memoryCompare
      ⟨addressSpaceOf e.isLocalMemory, EntryBits.wrap64 e.physicalAddress, compareOperation % 2,
        deferCompareEvaluation compareOperation isLast, memory.take e.size⟩)) := by
  have decoded := @comparePacket_decode compareOperation isLast e memory countable enough
  obtain ⟨-, hsize⟩ := @comparePacket_delimited compareOperation isLast e memory countable enough
  have parts := decoded
  rw [decodeCompare] at parts
  split at parts
  · rename_i good
    obtain ⟨header, sub, -⟩ := good
    obtain ⟨bias, record⟩ := header_trace header
    refine reads_event ?_ ?_
    · have own := hsize []
      rw [List.append_nil, packetSize] at own
      split at own
      · cases own
      · rw [bias]
        exact (Option.some.inj own).symm
    · rw [record, decodeTrace_memoryCompare sub, decoded, Option.map_some]
  · cases parts

theorem expectMemoryTable_reads (compareOperation : Nat) {memory : List UInt8}
    {entries : List PageInfo} (length : memory.length = total entries)
    (countable : ∀ e ∈ entries, Countable e) :
    Reads (ComparePackets.expectMemoryTable compareOperation memory entries)
      (·.seeAll ((comparesOf compareOperation memory entries).map .memoryCompare)) := by
  induction entries generalizing memory with
  | nil => exact reads_nil
  | cons e rest ih =>
    rw [total_cons] at length
    have enough : e.size ≤ memory.length := by omega
    have later : (memory.drop e.size).length = total rest := by
      rw [List.length_drop]
      omega
    exact (comparePacket_reads (countable e List.mem_cons_self) enough).append
      (ih later fun x mem => countable x (List.mem_cons_of_mem _ mem))

/-- Parts without a terminator are kept together. -/
theorem hear_parts {chunks : List (List UInt8)} (open' : ∀ b ∈ chunks.flatten, b ≠ 0) (r : Reader) :
    (chunks.map Record.comment).foldl Reader.execute r =
      { r with comment := r.comment ++ chunks.flatten } := by
  induction chunks generalizing r with
  | nil => rw [List.flatten_nil, List.append_nil]; rfl
  | cons chunk rest ih =>
    have unterminated : 0 ∉ chunk := fun mem =>
      open' 0 (by rw [List.flatten_cons]; exact List.mem_append_left _ mem) rfl
    have first : r.execute (.comment chunk) = { r with comment := r.comment ++ chunk } :=
      if_neg unterminated
    have tail : ∀ b ∈ rest.flatten, b ≠ 0 := fun b mem =>
      open' b (by rw [List.flatten_cons]; exact List.mem_append_right _ mem)
    rw [List.map_cons, List.foldl_cons, first, ih tail, List.flatten_cons, List.append_assoc]

theorem hear_end {part padding : List UInt8} (noNul : ∀ b ∈ part, b ≠ 0) (r : Reader) :
    r.hear (part ++ 0 :: padding) = { r with comment := [] }.see (.comment (r.comment ++ part)) := by
  have terminated : (0 : UInt8) ∈ part ++ 0 :: padding :=
    List.mem_append_right _ List.mem_cons_self
  have chars : ∀ b ∈ part, decide (b ≠ 0) = true := fun b mem => decide_eq_true (noNul b mem)
  rw [Reader.hear, if_pos terminated, List.takeWhile_append_of_pos chars,
    List.takeWhile_cons_of_neg (by decide), List.append_nil]

/-- The records of a message give one comment. -/
theorem addComment_reads {memory : List UInt8} (terminated : 0 ∈ memory) :
    Reads (CommentPackets.addComment memory) (·.see (.comment (memory.take (strlen memory)))) := by
  obtain ⟨message, beyond, rfl, noNul⟩ : ∃ message beyond, memory = message ++ 0 :: beyond ∧
      ∀ b ∈ message, b ≠ 0 := by
    obtain ⟨message, beyond, rfl, fresh⟩ := List.eq_append_cons_of_mem terminated
    exact ⟨message, beyond, rfl, fun b mem zero => fresh (zero ▸ mem)⟩
  have length : (message ++ 0 :: beyond).length = message.length + 1 + beyond.length := by
    rw [List.length_append, List.length_cons]
    omega
  have whole : (message ++ 0 :: beyond).take (message.length + 1) = message ++ [0] := by
    rw [List.take_append, List.take_of_length_le (Nat.le_succ _), Nat.add_sub_cancel_left]
    rfl
  obtain ⟨init, last, part, data, good, rest, joined, tail⟩ :=
    @commentRecords_split (message.length + 1) (message.length + 1) (message ++ 0 :: beyond)
      (Nat.le_refl _) (Nat.succ_pos _) (by omega)
  rw [whole] at joined
  obtain ⟨front, b, rfl⟩ : ∃ front b, part = front ++ [b] :=
    ⟨part.dropLast, part.getLast rest, (List.dropLast_append_getLast rest).symm⟩
  rw [← List.append_assoc] at joined
  obtain ⟨hmessage, hnul⟩ := List.append_inj' joined rfl
  obtain rfl : b = 0 := (List.cons.inj hnul).1
  have parts : ∀ x ∈ (init.map comment).flatten, x ≠ 0 := fun x mem =>
    noNul x (hmessage ▸ List.mem_append_left _ mem)
  have ends : ∀ x ∈ front, x ≠ 0 := fun x mem => noNul x (hmessage ▸ List.mem_append_right _ mem)
  have record : ∀ p ∈ init ++ [last], lengthBias p = 1 ∧ decodeRecord p = some (.comment (comment p)) := by
    intro p mem
    have header := (good p mem).header
    rw [matchesHeader, Bool.and_eq_true, beq_iff_eq, beq_iff_eq] at header
    obtain ⟨bias, record⟩ := header_trace header.1
    exact ⟨bias, record.trans (decodeTrace_comment header.2)⟩
  rw [CommentPackets.addComment, strlen_message noNul, data]
  refine ⟨init ++ [last], (init ++ [last]).map fun p => .comment (comment p), rfl, ?_, ?_, ?_⟩
  · intro p mem
    rw [(record p mem).1]
    exact (good p mem).length
  · rw [List.map_map]
    exact List.map_congr_left fun p mem => (record p mem).2
  · intro r empty
    have heard : ((init ++ [last]).map fun p => Record.comment (comment p)) =
        (init.map comment).map Record.comment ++ [.comment (comment last)] := by
      rw [List.map_append, List.map_map]
      rfl
    refine ⟨?_, empty⟩
    rw [heard, List.foldl_append, hear_parts parts, tail, empty, List.nil_append, List.append_assoc]
    refine (hear_end ends _).trans ?_
    rw [hmessage, List.take_left]
    obtain ⟨memory, pending, log⟩ := r
    obtain rfl := empty
    rfl

/-- The packets of a call do what the call does. -/
theorem call_reads (dumpSupported : Bool) {call : Call} (recordable : call.Recordable) :
    Reads (call.bytes dumpSupported) (call.perform dumpSupported ·) := by
  cases call with
  | addComment memory => exact addComment_reads recordable
  | declareContextForDumping handle ppgtt => exact declareContextForDumping_reads handle ppgtt
  | dumpBufferBIN gttType gfxAddress size handle =>
    cases dumpSupported with
    | true => exact dumpBufferBIN_reads gttType gfxAddress size handle
    | false => exact reads_nil
  | dumpSurface gttType surfaceInfo handle =>
    cases dumpSupported with
    | true => exact dumpSurface_reads gttType surfaceInfo handle
    | false => exact reads_nil
  | expectMemoryTable memory entries compareOperation =>
    exact expectMemoryTable_reads compareOperation recordable.1 recordable.2
  | reserveContiguousPages entries => exact reserveContiguousPages_reads entries
  | writeContiguousPages memory physAddress space hint =>
    exact writeContiguousPages_reads memory physAddress space hint
  | writeDiscontiguousPages memory table hint =>
    exact writeDiscontiguousPages_reads hint recordable.1 recordable.2.1 recordable.2.2
  | writeDiscontiguousEntries table space hint => exact writeDiscontiguousEntries_reads table space hint
  | writeGttPages table => exact writeDiscontiguousEntries_reads table .TraceGttEntry 0
  | writeMMIO offset value mask => exact writeMMIO_reads offset value mask
  | registerPoll offset mask value notEqual action =>
    exact registerPoll_reads offset mask value notEqual action
  | memoryPoll address isLocalMemory value compareMode =>
    exact memoryPoll_reads address isLocalMemory value compareMode

end TraceCalls
