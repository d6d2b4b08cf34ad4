import Aubstream.TraceFiles
import Aubstream.HostReads

/-!
# The tables in a captured file

An AUB file that holds the writes of a run, among whatever else was recorded, is read back
packet by packet. In the memory that this gives, the hardware finds the tables of the
library and the data that was written.
-/

namespace CapturedTables
open EntryBits PhysicalAllocator PageNodes PageWalker FreeMemory TreeShape Placement MappedPages AubPackets
  AubManager AubFileStream StreamedMemory MemoryBlocks StreamedTables PageAliasing AllocatorGrowth
  ExactTables LeafEntries PageBytes GpuMemory WalkEntries Framing TraceReader TraceFiles Transitions
  FileCycles DataPackets FaithfulCalls PhantomMappings BlockOwners AllocatorBlocks
open FreeComplete hiding fourLevel
open TableRuns hiding Op step

/-- Whether a call of the stream writes memory. -/
def writesMemory : TraceCalls.Call → Bool
  | .writeContiguousPages _ _ _ _ | .writeDiscontiguousPages _ _ _
  | .writeDiscontiguousEntries _ _ _ | .writeGttPages _ => true
  | _ => false

/-- What a call of the stream makes of memory. -/
def written (memory : AubPackets.Memory) : TraceCalls.Call → AubPackets.Memory
  | .writeContiguousPages bytes physAddress addressSpace _ =>
    store memory (region addressSpace.value) physAddress bytes
  | .writeDiscontiguousPages bytes table _ => TbxStream.writeDiscontiguousPages memory bytes table
  | .writeDiscontiguousEntries table addressSpace _ =>
    TbxStream.writeDiscontiguousEntries memory table addressSpace
  | .writeGttPages table => TbxStream.writeDiscontiguousEntries memory table .TraceGttEntry
  | _ => memory

/-- The write that a record of a walk or a free stands for. -/
def writesOf : AubManager.Record → List TraceCalls.Call
  | .entries addressSpace hint table => [.writeDiscontiguousEntries table addressSpace hint]
  | .data write => [.writeDiscontiguousPages (bytesOf write.memory write.size) write.writeInfoTable
      write.hint]
  | _ => []

/-- The calls write memory as the records say, and do whatever else between. -/
def Transcript (records : List AubManager.Record) (calls : List TraceCalls.Call) : Prop :=
  calls.filter writesMemory = records.flatMap writesOf

/-- What the file format cannot hold: a message without an end, an expectation whose pages cannot be
counted, and data that is collected with a wrong count. -/
def Holds : TraceCalls.Call → Prop
  | .writeDiscontiguousPages _ table _ => Representable table
  | c => c.Recordable

section
variable (m : AubManagerImp PhysicalAddressAllocatorSimple)

/-- The records that a call leaves. -/
def recordsOf (s : Simulation) : StreamedTables.Call → List AubManager.Record
  | .writeMemory device params => ((s.ppgtts[device]?).bind fun t =>
      (writeTable m params t s.allocator).map (·.2.2)).getD []
  | .reservePhysicalMemory _ => []
  | .mapGpuVa device physicalAddress params => ((s.ppgtts[device]?).bind fun t =>
      ((forTable m t).walkTable params .Reserve [] (some physicalAddress) t s.allocator).map
        (·.2.2)).getD []
  | .freeMemory device gfxAddress size => ((s.ppgtts[device]?).bind fun t =>
      ((forTable m t).freeTable gfxAddress size t s.allocator).map (·.2.2)).getD []

end

/-- A simulation, and the calls of the stream so far. -/
structure Captured where
  traced : Traced
  calls : List TraceCalls.Call

/-- A call of the manager and the calls of the stream that it makes. -/
structure Op where
  call : StreamedTables.Call
  made : List TraceCalls.Call

def step (m : AubManagerImp PhysicalAddressAllocatorSimple) (s : Captured) (op : Op) :
    Option Captured :=
  (tracedCall m s.traced op.call).map fun traced => ⟨traced, s.calls ++ op.made⟩

def Allowed (m : AubManagerImp PhysicalAddressAllocatorSimple) (s : Captured) (op : Op) : Prop :=
  ExactTables.Allowed m.tables s.traced.sim op.call ∧
    Transcript (recordsOf m s.traced.sim op.call) op.made ∧ ∀ c ∈ op.made, Holds c

/-- The file of a stream that was opened and given the calls. -/
def fileItems (stepping : Int) (gpu : GpuDescriptor) (dumpSupported : Bool)
    (calls : List TraceCalls.Call) : List Item :=
  .header stepping gpu :: calls.map (.call dumpSupported)

/-! ### Memory -/

section Memory
variable {m : AubManagerImp PhysicalAddressAllocatorSimple} {s s' : Simulation}

theorem seeAll_memory (events : List Event) (r : Reader) : (r.seeAll events).memory = r.memory := by
  induction events generalizing r with
  | nil => rfl
  | cons e rest ih => exact (ih (r.see e)).trans rfl

theorem perform_memory (dumpSupported : Bool) (c : TraceCalls.Call) (r : Reader) :
    (c.perform dumpSupported r).memory = written r.memory c := by
  cases c with
  | expectMemoryTable | reserveContiguousPages => exact seeAll_memory _ r
  | dumpBufferBIN | dumpSurface =>
    cases dumpSupported with
    | false => rfl
    | true => rfl
  | _ => rfl

theorem written_filter (calls : List TraceCalls.Call) (memory : AubPackets.Memory) :
    (calls.filter writesMemory).foldl written memory = calls.foldl written memory := by
  induction calls generalizing memory with
  | nil => rfl
  | cons c rest ih =>
    rw [List.filter_cons, List.foldl_cons]
    cases writes : writesMemory c with
    | true => exact ih _
    | false =>
      have same : written memory c = memory := by
        cases c with
        | writeContiguousPages | writeDiscontiguousPages | writeDiscontiguousEntries | writeGttPages =>
          cases writes
        | _ => rfl
      rw [same]
      exact ih memory

theorem written_records (records : List AubManager.Record) (memory : AubPackets.Memory) :
    (records.flatMap writesOf).foldl written memory = storeRecords memory records := by
  induction records generalizing memory with
  | nil => rfl
  | cons record rest ih =>
    rw [List.flatMap_cons, List.foldl_append, ih]
    cases record with
    | entries | data => rfl
    | _ => rfl

theorem Transcript.written {records : List AubManager.Record} {calls : List TraceCalls.Call}
    (transcript : Transcript records calls) (memory : AubPackets.Memory) :
    calls.foldl CapturedTables.written memory = storeRecords memory records := by
  rw [← written_filter, transcript, written_records]

theorem image_atDevice {f : Nodes → PhysicalAddressAllocatorSimple →
      Option (Nodes × PhysicalAddressAllocatorSimple × List AubManager.Record)} {device : Nat}
    (h : atDevice f device s = some s') : s'.image = storeRecords s.image
      (((s.ppgtts[device]?).bind fun t => (f t s.allocator).map (·.2.2)).getD []) := by
  obtain ⟨t, r, ht, hr, rfl⟩ := atDevice_some h
  rw [ht, Option.bind_some, hr, Option.map_some, Option.getD_some]

/-- A call changes memory by its records. -/
theorem image_recordsOf {c : StreamedTables.Call} (h : call m s c = some s') :
    s'.image = storeRecords s.image (recordsOf m s c) := by
  cases c with
  | writeMemory device params => exact image_atDevice h
  | reservePhysicalMemory params =>
    cases hr : Reservations.reservePhysicalMemory m.tables.gpu s.allocator params with
    | none =>
      simp only [call, hr, Option.some.injEq] at h
      rw [← h]
      rfl
    | some r =>
      simp only [call, hr, Option.some.injEq] at h
      rw [← h]
      rfl
  | mapGpuVa device physicalAddress params => exact image_atDevice h
  | freeMemory device gfxAddress size => exact image_atDevice h

end Memory

/-! ### What can be recorded -/

section Recording
variable {m : AubManagerImp PhysicalAddressAllocatorSimple} {s s' : Simulation}

/-- The data of a record is that of a write, in the pages of its walk. -/
theorem data_recordsOf {c : StreamedTables.Call} (h : call m s c = some s')
    (shape : ∀ t ∈ s.ppgtts, Wf m.tables.ppgtt.getNumLevels t ∧ LastTables.Inhabited t)
    {write : DataWrite} (mem : AubManager.Record.data write ∈ recordsOf m s c) :
    write.writeInfoTable ≠ [] ∧ (bytesOf write.memory write.size).length = total write.writeInfoTable := by
  cases c with
  | writeMemory device params =>
    obtain ⟨t, r, ht, hr, -⟩ := atDevice_some h
    rw [recordsOf, ht, Option.bind_some, hr, Option.map_some, Option.getD_some] at mem
    obtain ⟨w, hw, hlater⟩ := Option.bind_eq_some_iff.mp hr
    obtain ⟨data, hdata, rfl⟩ := Option.map_eq_some_iff.mp hlater
    rcases List.mem_append.mp mem with page | here
    · exact absurd (entryRecord_writePages page) id
    · cases memory : params.memory with
      | none =>
        rw [AubManagerImp.writeData, memory] at hdata
        obtain rfl := Option.some.inj hdata
        cases here
      | some f =>
        simp only [AubManagerImp.writeData, memory] at hdata
        split at hdata
        · cases hdata
        · rename_i entries
          obtain rfl := Option.some.inj hdata
          obtain rfl := AubManager.Record.data.inj (List.mem_singleton.mp here)
          have covered := (chain_walk (shape t (List.mem_of_getElem? ht)).1 hw).stop_eq
          have size : params.size = coveredSize w.entries := Nat.add_left_cancel covered
          refine ⟨entries, ?_⟩
          rw [bytesOf, List.length_map, List.length_range]
          exact size
  | reservePhysicalMemory params => cases mem
  | mapGpuVa device physicalAddress params =>
    obtain ⟨t, r, ht, hr, -⟩ := atDevice_some h
    rw [recordsOf, ht, Option.bind_some, hr, Option.map_some, Option.getD_some] at mem
    obtain ⟨w, -, rfl⟩ := Option.map_eq_some_iff.mp hr
    exact absurd (entryRecord_writePages mem) id
  | freeMemory device gfxAddress size =>
    obtain ⟨t, r, ht, hr, -⟩ := atDevice_some h
    rw [recordsOf, ht, Option.bind_some, hr, Option.map_some, Option.getD_some] at mem
    obtain rfl := Option.some.inj hr
    exact absurd (entryRecord_writeFreed mem) id

/-- The calls of the stream for a call of the manager can all be recorded. -/
theorem recordable_made {c : StreamedTables.Call} (h : call m s c = some s')
    (shape : ∀ t ∈ s.ppgtts, Wf m.tables.ppgtt.getNumLevels t ∧ LastTables.Inhabited t)
    {made : List TraceCalls.Call} (transcript : Transcript (recordsOf m s c) made)
    (holds : ∀ x ∈ made, Holds x) : ∀ x ∈ made, x.Recordable := by
  intro x mem
  have fits := holds x mem
  cases x with
  | writeDiscontiguousPages memory table hint =>
    have kept : TraceCalls.Call.writeDiscontiguousPages memory table hint ∈
        made.filter writesMemory := List.mem_filter.mpr ⟨mem, rfl⟩
    rw [transcript] at kept
    obtain ⟨record, here, same⟩ := List.mem_flatMap.mp kept
    cases record with
    | data write =>
      obtain ⟨rfl, rfl, rfl⟩ := TraceCalls.Call.writeDiscontiguousPages.inj (List.mem_singleton.mp same)
      obtain ⟨nonempty, length⟩ := data_recordsOf h shape here
      exact ⟨nonempty, length, fits⟩
    | entries addressSpace hint table => cases List.mem_singleton.mp same
    | _ => cases same
  | _ => exact fits

end Recording

/-! ### Runs -/

section Runs
variable {m : AubManagerImp PhysicalAddressAllocatorSimple} {s : Captured} {memoryBanks : List Nat}
  {numberOfAllocators singleAllocatorSize : Nat} {localMemorySupport : Bool}

def newCaptured (memoryBanks : List Nat) (numberOfAllocators singleAllocatorSize : Nat)
    (localMemorySupport : Bool) : Captured :=
  ⟨newTraced memoryBanks numberOfAllocators singleAllocatorSize localMemorySupport, []⟩

/-- A run, the memory that its calls have written, and calls that can be recorded. -/
structure Taped (m : AubManagerImp PhysicalAddressAllocatorSimple) (memoryBanks : List Nat)
    (numberOfAllocators singleAllocatorSize : Nat) (localMemorySupport : Bool) (s : Captured) : Prop where
  reached : Reach (tracedCall m) (fun s c => ExactTables.Allowed m.tables s.sim c)
    (newTraced memoryBanks numberOfAllocators singleAllocatorSize localMemorySupport) s.traced
  image : s.traced.sim.image = s.calls.foldl written blank
  recordable : ∀ c ∈ s.calls, c.Recordable

theorem Taped.step {s' : Captured} {op : Op}
    (taped : Taped m memoryBanks numberOfAllocators singleAllocatorSize localMemorySupport s)
    (allowed : Allowed m s op) (done : CapturedTables.step m s op = some s') :
    Taped m memoryBanks numberOfAllocators singleAllocatorSize localMemorySupport s' := by
  obtain ⟨calm, transcript, holds⟩ := allowed
  obtain ⟨traced, tracedDone, rfl⟩ := Option.map_eq_some_iff.mp done
  have called := traced_sim tracedDone
  obtain ⟨shape, -⟩ := reach_exact (reach_kept taped.reached).1
  constructor
  · exact taped.reached.step calm tracedDone
  · rw [image_recordsOf called, taped.image, List.foldl_append, transcript.written]
  · intro c mem
    rcases List.mem_append.mp mem with old | new
    · exact taped.recordable c old
    · exact recordable_made called shape transcript holds c new

theorem reach_captured (reached : Reach (step m) (Allowed m)
      (newCaptured memoryBanks numberOfAllocators singleAllocatorSize localMemorySupport) s) :
    Taped m memoryBanks numberOfAllocators singleAllocatorSize localMemorySupport s := by
  induction reached with
  | start => exact ⟨.start, rfl, fun c mem => absurd mem List.not_mem_nil⟩
  | step _ allowed done ih => exact ih.step allowed done

/-- The calls one after the other. -/
def performAll (dumpSupported : Bool) (calls : List TraceCalls.Call) (r : Reader) : Reader :=
  calls.foldl (fun r c => c.perform dumpSupported r) r

theorem performAll_memory (dumpSupported : Bool) (calls : List TraceCalls.Call) (r : Reader) :
    (performAll dumpSupported calls r).memory = calls.foldl written r.memory := by
  induction calls generalizing r with
  | nil => rfl
  | cons c rest ih =>
    refine (ih _).trans ?_
    rw [List.foldl_cons, perform_memory]

/-- The event of the version header. -/
def versionEvent (caller : Nat) (stepping : Int) (gpu : GpuDescriptor) : Event :=
  .version (stepping % 2 ^ 5).toNat (gpu.deviceId % 2 ^ 8) (deviceAbbreviation gpu) (getHeaderStr caller)

/-- The file is cut into its packets, and a reader that executes them does what the calls do. -/
theorem Taped.file
    (taped : Taped m memoryBanks numberOfAllocators singleAllocatorSize localMemorySupport s)
    (caller : Nat) (stepping : Int) (gpu : GpuDescriptor) (dumpSupported : Bool) :
    ∃ (packets : List (List UInt8)) (records : List TraceReader.Record),
      frames traceSize ((fileItems stepping gpu dumpSupported s.calls).flatMap (Item.bytes caller)) =
        some packets ∧
      packets.map decodeRecord = records.map some ∧
      records.foldl Reader.execute ⟨blank, [], []⟩ = performAll dumpSupported s.calls
        (Reader.see ⟨blank, [], []⟩ (versionEvent caller stepping gpu)) := by
  have items : TraceFiles.Kept (fileItems stepping gpu dumpSupported s.calls) := by
    intro dump c mem
    rcases List.mem_cons.mp mem with header | call
    · cases header
    · obtain ⟨c', mem', same⟩ := List.mem_map.mp call
      obtain ⟨-, rfl⟩ := Item.call.inj same
      exact taped.recordable c' mem'
  obtain ⟨packets, records, cut, -, decoded, done⟩ := readsAs_items caller items
  refine ⟨packets, records, cut, decoded, ?_⟩
  rw [done blank, fileItems, List.foldl_cons, List.foldl_map]
  rfl

/-- What a memory shows of a run. -/
structure Replays (cfg : Config) (s : Traced) (image : AubPackets.Memory) : Prop where
  walks : WalksExact cfg { s.sim with image := image }
  shows : ExtraBitsApart cfg.gpu → Shows cfg ⟨{ s.sim with image := image }, s.sent⟩

/-- The file of every run, cut into packets by their own lengths and executed, gives a memory in which the
hardware's walk finds the tables of all devices, and at each address the last byte written to its place. -/
theorem run_captured (m : AubManagerImp PhysicalAddressAllocatorSimple) (memoryBanks : List Nat)
    (numberOfAllocators singleAllocatorSize : Nat) (localMemorySupport : Bool) (s : Captured)
    (reached : Reach (step m) (Allowed m)
      (newCaptured memoryBanks numberOfAllocators singleAllocatorSize localMemorySupport) s)
    (room : Unexhausted s.traced.sim.allocator)
    (banks : BanksApart (firstAddress singleAllocatorSize localMemorySupport) s.traced.sim.allocator)
    (caller : Nat) (stepping : Int) (gpu : GpuDescriptor) (dumpSupported : Bool) :
    ∃ (packets : List (List UInt8)) (records : List TraceReader.Record),
      frames traceSize ((fileItems stepping gpu dumpSupported s.calls).flatMap (Item.bytes caller)) =
        some packets ∧
      packets.map decodeRecord = records.map some ∧
      Replays m.tables s.traced (records.foldl Reader.execute ⟨blank, [], []⟩).memory := by
  have taped := reach_captured reached
  obtain ⟨simple, kept⟩ := reach_kept taped.reached
  obtain ⟨shape, exact'⟩ := reach_exact simple
  have walks := walksExact_of_exact shape room (exact' room banks)
  obtain ⟨packets, records, cut, decoded, done⟩ := taped.file caller stepping gpu dumpSupported
  have replayed : (records.foldl Reader.execute ⟨blank, [], []⟩).memory = s.traced.sim.image := by
    rw [done, performAll_memory, taped.image]
    rfl
  refine ⟨packets, records, cut, decoded, ?_⟩
  rw [replayed]
  refine ⟨walks, fun apart t ht x p q b hp nameable here sent => ?_⟩
  rw [gpuRead, gpuPlace_exact apart walks ht (shape t ht).1 hp nameable, here, Option.map_some]
  exact congrArg some (kept room banks q b sent).2

end Runs

/-! ### Four bytes -/

theorem transcript_writes (message : List UInt8) (records : List AubManager.Record) :
    Transcript records (.addComment message :: records.flatMap writesOf) := by
  rw [Transcript, List.filter_cons_of_neg (by simp [writesMemory]), List.filter_eq_self]
  intro c mem
  obtain ⟨record, -, here⟩ := List.mem_flatMap.mp mem
  cases record with
  | entries | data =>
    obtain rfl := List.mem_singleton.mp here
    rfl
  | _ => cases here

/-- The write of four bytes, after a comment. -/
def fourBytesOp : Op where
  call := .writeMemory 1 fourBytes
  made := .addComment [65, 0] :: (recordsOf plainManager (newSimulation [0, 0] 2 0x100000000 false)
    (.writeMemory 1 fourBytes)).flatMap writesOf

/-- At most one page of data. -/
def onePage : AubManager.Record → Bool
  | .data write => decide (write.writeInfoTable.length ≤ 1)
  | _ => true

theorem fourBytes_captured : Allowed plainManager (newCaptured [0, 0] 2 0x100000000 false)
    fourBytesOp := by
  refine ⟨fourBytes_allowed, transcript_writes [65, 0] _, fun c mem => ?_⟩
  rcases List.mem_cons.mp mem with rfl | write
  · exact List.mem_cons_of_mem _ List.mem_cons_self
  · have single : (recordsOf plainManager (newSimulation [0, 0] 2 0x100000000 false)
        (.writeMemory 1 fourBytes)).all onePage = true := by
      decide +kernel
    obtain ⟨record, here, same⟩ := List.mem_flatMap.mp write
    have short := List.all_eq_true.mp single record here
    cases record with
    | entries =>
      obtain rfl := List.mem_singleton.mp same
      trivial
    | data data =>
      obtain rfl := List.mem_singleton.mp same
      rintro first rest table more
      have length := of_decide_eq_true short
      rw [table] at length
      cases rest with
      | nil => exact absurd rfl more
      | cons => simp at length
    | _ => cases same

theorem run_captured_fourBytes : ∃ (s : Captured) (packets : List (List UInt8))
    (records : List TraceReader.Record),
    step plainManager (newCaptured [0, 0] 2 0x100000000 false) fourBytesOp = some s ∧
      frames traceSize ((fileItems 0 ⟨0, []⟩ false s.calls).flatMap (Item.bytes 0)) =
        some packets ∧
      packets.map decodeRecord = records.map some ∧
      Replays plainManager.tables s.traced (records.foldl Reader.execute ⟨blank, [], []⟩).memory := by
  obtain ⟨traced, t, done, -, room, banks, -⟩ := fourBytes_sent
  have next : step plainManager (newCaptured [0, 0] 2 0x100000000 false) fourBytesOp =
      some ⟨traced, [] ++ fourBytesOp.made⟩ := Option.map_eq_some_iff.mpr ⟨traced, done, rfl⟩
  obtain ⟨packets, records, found⟩ := run_captured plainManager [0, 0] 2 0x100000000 false _
    (.step .start fourBytes_captured next) room banks 0 0 ⟨0, []⟩ false
  exact ⟨_, packets, records, next, found⟩

end CapturedTables
