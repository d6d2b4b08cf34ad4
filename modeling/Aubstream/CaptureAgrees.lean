import Aubstream.TbxStreamCalls

/-!
# A capture and its simulation

The same calls are recorded in a file and done over a socket. Whoever reads the file has
in the end the memory and the registers of the simulator, and finds that the polls
hold which the simulator has let pass.
-/

namespace CaptureAgrees
open AubPackets BitFields TracePackets CommentPackets ComparePackets Framing PageWalker TraceReader
open TraceCalls (call_reads)
open TbxMessages TbxSockets TbxSimulator TbxStreamCalls Transitions

/-- Calls that return one after the other, with what the machine answers. -/
def Sequential (config : Config) : Machine → List Returned → Prop
  | _, [] => True
  | m, r :: rest => (∃ transId data, r.success = some (transId, data) ∧
      ((r.call.exchange config).response.isSome → data = m.answer (request config r.call))) ∧
        Sequential config (m.execute (request config r.call)) rest

section
variable {config : Config} {m : Machine} {registers : UInt32 → UInt32} {r : Reader}

theorem perform_append (xs ys : List TbxSockets.Call) :
    m.perform config (xs ++ ys) = (m.perform config xs).perform config ys := List.foldl_append

theorem perform_cons (c : TbxSockets.Call) (rest : List TbxSockets.Call) :
    m.perform config (c :: rest) = (m.execute (request config c)).perform config rest := rfl

theorem Sequential.append {xs ys : List Returned} (h : Sequential config m (xs ++ ys)) :
    Sequential config m xs ∧ Sequential config (m.perform config (xs.map Returned.call)) ys := by
  induction xs generalizing m with
  | nil => exact ⟨trivial, h⟩
  | cons x xs ih =>
    obtain ⟨first, later⟩ := h
    obtain ⟨left, right⟩ := ih later
    exact ⟨⟨first, left⟩, right⟩

/-! ### Writes -/

/-- The bytes of a dword depend on its low 32 bits. -/
theorem dword_congr {v w : Nat} (same : v % 2 ^ 32 = w % 2 ^ 32) : dword v = dword w := by
  have byte {a b : Nat} (h : a % 2 ^ 8 = b % 2 ^ 8) : UInt8.ofNat a = UInt8.ofNat b := by
    rw [← UInt8.ofNat_mod_size, h, UInt8.ofNat_mod_size]
  have b₀ : UInt8.ofNat v = UInt8.ofNat w := byte (by omega)
  have b₁ : UInt8.ofNat (v / 2 ^ 8) = UInt8.ofNat (w / 2 ^ 8) := byte (by omega)
  have b₂ : UInt8.ofNat (v / 2 ^ 16) = UInt8.ofNat (w / 2 ^ 16) := byte (by omega)
  have b₃ : UInt8.ofNat (v / 2 ^ 24) = UInt8.ofNat (w / 2 ^ 24) := byte (by omega)
  rw [dword, dword, b₀, b₁, b₂, b₃]

theorem qword_mod (v : Nat) : qword (v % 2 ^ 64) = qword v := by
  have low : dword (v % 2 ^ 64) = dword v := dword_congr (by omega)
  have high : dword (v % 2 ^ 64 / 2 ^ 32) = dword (v / 2 ^ 32) := dword_congr (by omega)
  rw [qword, qword, low, high]

theorem execute_writeMemory (plain : config.frontdoorMode = false) {address : Nat}
    (short : address < 2 ^ 40) (data : List UInt8) (isLocalMemory : Bool) :
    m.execute (request config (.writeMemory address data isLocalMemory)) =
      { m with memory := TbxStream.writeMemory m.memory address data isLocalMemory } := by
  rw [request, memoryOf, addressOf, plain]
  simp only [Bool.false_eq_true, if_false, Nat.mod_eq_of_lt short]
  rfl

theorem execute_writeGTT {offset : Nat} (small : offset < 2 ^ 32) (aligned : 8 ∣ offset) (entry : Nat) :
    m.execute (request config (.writeGTT offset entry)) =
      { m with memory := TbxStream.writeGTT m.memory offset entry } := by
  obtain ⟨k, rfl⟩ := aligned
  rw [request, Nat.mul_div_cancel_left k (by decide), Nat.mod_eq_of_lt (by omega)]
  simp only [Machine.execute, TbxStream.writeGTT, qword_mod]

theorem perform_pageCalls (plain : config.frontdoorMode = false) {table : List PageInfo}
    (short : ∀ e ∈ table, e.physicalAddress < 2 ^ 40) (memory : List UInt8) :
    m.perform config (pageCalls memory table) =
      { m with memory := TbxStream.writeDiscontiguousPages m.memory memory table } := by
  induction table generalizing m memory with
  | nil => rfl
  | cons e rest ih =>
    have first := short e List.mem_cons_self
    rw [pageCalls, perform_cons, execute_writeMemory plain first,
      ih fun x mem => short x (List.mem_cons_of_mem _ mem)]
    rfl

theorem perform_entryCalls (plain : config.frontdoorMode = false) {table : List PageEntryInfo}
    {addressSpace : AddressSpaceValues} (fits : ∀ e ∈ table,
      if addressSpace = .TraceGttEntry then 8 ∣ e.physicalAddress else e.physicalAddress < 2 ^ 40) :
    m.perform config (entryCalls table addressSpace) =
      { m with memory := TbxStream.writeDiscontiguousEntries m.memory table addressSpace } := by
  rw [entryCalls, TbxStream.writeDiscontiguousEntries]
  split
  · rename_i gtt
    induction table generalizing m with
    | nil => rfl
    | cons e rest ih =>
      have aligned := fits e List.mem_cons_self
      rw [if_pos gtt] at aligned
      have small : e.physicalAddress % 2 ^ 32 < 2 ^ 32 := Nat.mod_lt _ (by decide)
      have whole : 8 ∣ e.physicalAddress % 2 ^ 32 :=
        (Nat.dvd_mod_iff (by decide)).mpr aligned
      rw [List.map_cons, perform_cons, execute_writeGTT small whole,
        ih fun x mem => fits x (List.mem_cons_of_mem _ mem)]
      rfl
  · rename_i memory
    induction table generalizing m with
    | nil => rfl
    | cons e rest ih =>
      have short := fits e List.mem_cons_self
      rw [if_neg memory] at short
      rw [List.map_cons, perform_cons, execute_writeMemory plain short,
        ih fun x mem => fits x (List.mem_cons_of_mem _ mem)]
      rfl

/-! ### Registers -/

/-- A write that no mask restricts. -/
theorem masked_all (current value : UInt32) : masked current value 0xFFFFFFFF = value := by
  have none : current &&& ~~~0xFFFFFFFF = 0 := UInt32.and_zero
  have all : value &&& 0xFFFFFFFF = value := UInt32.and_neg_one
  rw [masked, none, all, UInt32.zero_or]

variable (config) in
theorem agree_register (agree : Agree registers r m) (polls : AllPass registers r.log)
    {offset value mask written : UInt32}
    (merged : written = masked (registersAfter registers r.log offset) value mask) :
    Agree registers (r.see (.registerWrite offset.toNat value.toNat mask.toNat))
      (m.execute (request config ( TbxSockets.Call.writeMMIO offset.toNat written.toNat))) ∧
      AllPass registers (r.see (.registerWrite offset.toNat value.toNat mask.toNat)).log := by
  constructor
  · constructor
    · exact agree.memory
    · intro o
      have after : registersAfter registers
          (r.see (.registerWrite offset.toNat value.toNat mask.toNat)).log =
            Function.update (registersAfter registers r.log) offset written := by
        have one : registersAfter registers
            (r.see (.registerWrite offset.toNat value.toNat mask.toNat)).log =
              writeRegister (registersAfter registers r.log)
                (.registerWrite offset.toNat value.toNat mask.toNat) := registersAfter_append _ _ _
        rw [one, writeRegister, UInt32.ofNat_toNat, UInt32.ofNat_toNat, UInt32.ofNat_toNat, merged]
      have machine : (m.execute (request config
          ( TbxSockets.Call.writeMMIO offset.toNat written.toNat))).registers =
            Function.update m.registers offset.toNat written.toNat := by
        rw [request, Nat.mod_eq_of_lt offset.toNat_lt, Nat.mod_eq_of_lt written.toNat_lt]
        rfl
      rw [after, machine]
      by_cases same : o = offset
      · rw [same, Function.update_self, Function.update_self, UInt32.ofNat_toNat]
      · have different : o.toNat ≠ offset.toNat := fun h => same (UInt32.toNat_inj.mp h)
        rw [Function.update_of_ne same, Function.update_of_ne different]
        exact agree.registers o
  · exact polls.snoc trivial

/-! ### Reads -/

/-- What a read of a register gives. -/
theorem valueOf_register {x : Returned} {offset : UInt32}
    (here : x.call = TbxSockets.Call.readMMIO offset.toNat) {transId : Nat} {data : List UInt8}
    (success : x.success = some (transId, data))
    (answered : (x.call.exchange config).response.isSome → data = m.answer (request config x.call)) :
    valueOf x = some (m.registers offset.toNat % 2 ^ 32) := by
  have reads : (x.call.exchange config).response.isSome := by
    rw [here]
    rfl
  have said := answered reads
  rw [here, request, Nat.mod_eq_of_lt offset.toNat_lt] at said
  have word : readDword data = m.registers offset.toNat % 2 ^ 32 := by
    rw [said]
    exact readDword_dword (m.registers offset.toNat) []
  rw [valueOf, success, Option.map_some, word]

/-- A poll of something that stays as it is ends with a value that passes. -/
theorem polls_end {again : Option Nat → Bool} {call : TbxSockets.Call} {rs : List Returned}
    (polls : Polls again call rs) (sequential : Sequential config m rs)
    (reads : (call.exchange config).response.isSome) (still : m.execute (request config call) = m) :
    m.perform config (rs.map Returned.call) = m ∧
      again (some (readDword (m.answer (request config call)))) = false := by
  induction polls with
  | last here stops =>
    obtain ⟨⟨transId, data, success, answered⟩, -⟩ := sequential
    rw [here] at answered
    rw [valueOf, success, Option.map_some, answered reads] at stops
    rw [List.map_singleton, here]
    exact ⟨still, stops⟩
  | more here _ _ ih =>
    obtain ⟨-, later⟩ := sequential
    rw [here, still] at later
    obtain ⟨same, passed⟩ := ih later
    rw [List.map_cons, here, perform_cons, still]
    exact ⟨same, passed⟩

theorem agree_registerPoll (agree : Agree registers r m) (polls : AllPass registers r.log)
    {offset mask desiredValue action : UInt32} {pollNotEqual : Bool} {rs : List Returned}
    (made : Polls (registerAgain mask desiredValue pollNotEqual)
      ( TbxSockets.Call.readMMIO offset.toNat) rs) (sequential : Sequential config m rs) :
    Agree registers (r.see (.registerPoll offset.toNat mask.toNat desiredValue.toNat
        pollNotEqual.toNat (action.toNat % 2))) (m.perform config (rs.map Returned.call)) ∧
      AllPass registers (r.see (.registerPoll offset.toNat mask.toNat desiredValue.toNat
        pollNotEqual.toNat (action.toNat % 2))).log := by
  obtain ⟨same, passed⟩ := polls_end made sequential rfl rfl
  have value : readDword (m.answer (request config ( TbxSockets.Call.readMMIO offset.toNat))) =
      m.registers offset.toNat % 2 ^ 32 := by
    rw [request, Nat.mod_eq_of_lt offset.toNat_lt]
    exact readDword_dword (m.registers offset.toNat) []
  have held : (registersAfter registers r.log offset) = UInt32.ofNat (m.registers offset.toNat) :=
    agree.registers offset
  rw [same]
  refine ⟨agree.see rfl, polls.snoc ?_⟩
  rw [value] at passed
  have small : (UInt32.ofNat (m.registers offset.toNat)).toNat = m.registers offset.toNat % 2 ^ 32 :=
    UInt32.toNat_ofNat'
  have whole : UInt32.ofNat (m.registers offset.toNat % 2 ^ 32) =
      UInt32.ofNat (m.registers offset.toNat) := UInt32.ofNat_mod_size
  have bit : decide (pollNotEqual.toNat = 1) = pollNotEqual := by
    cases pollNotEqual <;> rfl
  simp only [Passes, UInt32.ofNat_toNat, held, bit, small]
  rw [registerAgain, whole, Bool.and_eq_false_iff, decide_eq_false_iff_not,
    beq_eq_false_iff_ne] at passed
  exact passed.imp_left fun odd => by omega

theorem agree_memoryPoll (plain : config.frontdoorMode = false) (agree : Agree registers r m)
    (polls : AllPass registers r.log) {address : UInt64} {isLocalMemory : Bool}
    {value compareMode : UInt32} {rs : List Returned} (short : address.toNat < 2 ^ 40)
    (made : Polls (memoryAgain value.toNat compareMode.toNat)
      (.readMemory address.toNat 4 isLocalMemory) rs) (sequential : Sequential config m rs) :
    Agree registers (r.see (.memoryPoll (AubFileStream.addressSpaceOf isLocalMemory) address.toNat
        value.toNat (compareMode.toNat % 2 ^ 3))) (m.perform config (rs.map Returned.call)) ∧
      AllPass registers (r.see (.memoryPoll (AubFileStream.addressSpaceOf isLocalMemory)
        address.toNat value.toNat (compareMode.toNat % 2 ^ 3))).log := by
  have response : ((TbxSockets.Call.readMemory address.toNat 4 isLocalMemory).exchange
      config).response.isSome := by
    rw [TbxSockets.Call.exchange, TbxSockets.readMemory, plain]
    rfl
  obtain ⟨same, passed⟩ := polls_end made sequential response rfl
  have asked : request config (.readMemory address.toNat 4 isLocalMemory) =
      .readMemory (region (AubFileStream.addressSpaceOf isLocalMemory)) address.toNat 4 := by
    rw [request, memoryOf, addressOf, plain, DataPackets.region_addressSpaceOf]
    simp only [Bool.false_eq_true, if_false, Nat.mod_eq_of_lt short]
  rw [same]
  refine ⟨agree.see rfl, polls.snoc ?_⟩
  rw [asked, memoryAgain, Bool.not_eq_false', Machine.answer, ← agree.memory] at passed
  have known : compareMode.toNat % 2 ^ 3 = compareMode.toNat :=
    Nat.mod_eq_of_lt (compareMemory_lt passed)
  simp only [Passes, known]
  exact passed

/-! ### Calls -/

/-- A call of the stream keeps file and simulator together. -/
theorem agree_call (plain : config.frontdoorMode = false) (dumpSupported : Bool)
    {c : TraceCalls.Call} {rs : List Returned} (fits : Transferable c) (made : Makes c rs)
    (sequential : Sequential config m rs) (agree : Agree registers r m)
    (polls : AllPass registers r.log) :
    Agree registers (c.perform dumpSupported r) (m.perform config (rs.map Returned.call)) ∧
      AllPass registers (c.perform dumpSupported r).log := by
  cases c with
  | addComment | declareContextForDumping =>
    obtain rfl : rs = [] := made
    exact agree_idle trivial agree polls
  | dumpBufferBIN | dumpSurface =>
    obtain rfl : rs = [] := made
    cases dumpSupported with
    | false => exact ⟨agree, polls⟩
    | true => exact agree_idle trivial agree polls
  | expectMemoryTable memory entries compareOperation =>
    obtain rfl : rs = [] := made
    refine agree_idleAll (fun e he => ?_) agree polls
    obtain ⟨c, -, rfl⟩ := List.mem_map.mp he
    trivial
  | reserveContiguousPages entries =>
    obtain rfl : rs = [] := made
    refine agree_idleAll (fun e he => ?_) agree polls
    obtain ⟨page, -, rfl⟩ := List.mem_map.mp he
    trivial
  | writeContiguousPages memory physAddress addressSpace hint =>
    obtain ⟨other, short⟩ := fits
    have calls : rs.map Returned.call =
      [.writeMemory physAddress memory (decide (addressSpace = .TraceLocal))] := made
    have place : region addressSpace.value =
        if decide (addressSpace = .TraceLocal) then .localMemory else .systemMemory := by
      cases addressSpace with
      | TraceGttEntry => exact absurd rfl other
      | _ => rfl
    rw [calls, perform_cons, execute_writeMemory plain short, TbxStream.writeMemory, ← place,
      ← agree.memory]
    exact ⟨agree.write _, polls⟩
  | writeDiscontiguousPages memory table hint =>
    have calls : rs.map Returned.call = pageCalls memory table := made
    rw [calls, perform_pageCalls plain fits, ← agree.memory]
    exact ⟨agree.write _, polls⟩
  | writeDiscontiguousEntries table addressSpace hint =>
    have calls : rs.map Returned.call = entryCalls table addressSpace := made
    rw [calls, perform_entryCalls plain fits, ← agree.memory]
    exact ⟨agree.write _, polls⟩
  | writeGttPages table =>
    have calls : rs.map Returned.call = entryCalls table .TraceGttEntry := made
    rw [calls, perform_entryCalls plain fun e he => by rw [if_pos rfl]; exact fits e he,
      ← agree.memory]
    exact ⟨agree.write _, polls⟩
  | writeMMIO offset value mask =>
    rw [Makes] at made
    split at made
    · rename_i whole
      rw [made, whole]
      exact agree_register config agree polls (masked_all _ value).symm
    · obtain ⟨read, write, currentValue, rfl, first, current, second⟩ := made
      obtain ⟨⟨transId, data, success, answered⟩, -⟩ := sequential
      have known := current _ (valueOf_register first success answered)
      have merged : masked currentValue value mask =
          masked (registersAfter registers r.log offset) value mask := by
        have whole : UInt32.ofNat (m.registers offset.toNat % 2 ^ 32) =
            UInt32.ofNat (m.registers offset.toNat) := UInt32.ofNat_mod_size
        rw [known, whole, agree.registers]
      have calls : [read, write].map Returned.call = [ TbxSockets.Call.readMMIO offset.toNat,
          TbxSockets.Call.writeMMIO offset.toNat (masked currentValue value mask).toNat] := by
        rw [List.map_cons, List.map_singleton, first, second]
      rw [calls]
      exact agree_register config agree polls merged
  | registerPoll registerOffset mask desiredValue pollNotEqual timeoutAction =>
    exact agree_registerPoll agree polls made sequential
  | memoryPoll physicalAddress isLocalMemory value compareMode =>
    exact agree_memoryPoll plain agree polls fits made sequential

theorem agree_calls (plain : config.frontdoorMode = false) (dumpSupported : Bool)
    {calls : List TraceCalls.Call} {rs : List Returned} (fits : ∀ c ∈ calls, Transferable c)
    (made : MakesAll calls rs) (sequential : Sequential config m rs) (agree : Agree registers r m)
    (polls : AllPass registers r.log) :
    Agree registers (calls.foldl (fun r c => c.perform dumpSupported r) r)
        (m.perform config (rs.map Returned.call)) ∧
      AllPass registers (calls.foldl (fun r c => c.perform dumpSupported r) r).log := by
  induction made generalizing m r with
  | nil => exact ⟨agree, polls⟩
  | cons head _ ih =>
    obtain ⟨first, later⟩ := sequential.append
    obtain ⟨next, passed⟩ := agree_call plain dumpSupported (fits _ List.mem_cons_self) head first
      agree polls
    rw [List.map_append, perform_append]
    exact ih (fun c mem => fits c (List.mem_cons_of_mem _ mem)) later next passed

/-! ### Runs -/

/-- A stretch of calls that each return what the machine answers then. -/
theorem sequential_of_prefixes {before rest : List Returned}
    (each : ∀ earlier x, earlier ++ [x] <+: before ++ rest → ∃ transId data,
      x.success = some (transId, data) ∧ ((x.call.exchange config).response.isSome →
        data = (m.perform config (earlier.map Returned.call)).answer (request config x.call))) :
    Sequential config (m.perform config (before.map Returned.call)) rest := by
  induction rest generalizing before with
  | nil => trivial
  | cons x rest ih =>
    constructor
    · refine each before x ⟨rest, ?_⟩
      rw [List.append_assoc]
      rfl
    · have further : before ++ x :: rest = (before ++ [x]) ++ rest := List.append_cons before x rest
      rw [further] at each
      have later := ih each
      rw [List.map_append, perform_append] at later
      exact later

end

theorem reads_calls (dumpSupported : Bool) {calls : List TraceCalls.Call}
    (recordable : ∀ c ∈ calls, c.Recordable) : Reads (calls.flatMap (TraceCalls.Call.bytes dumpSupported))
      fun r => calls.foldl (fun r c => c.perform dumpSupported r) r := by
  induction calls with
  | nil => exact reads_nil
  | cons c rest ih =>
    have head := call_reads dumpSupported (recordable c List.mem_cons_self)
    exact head.append (ih fun x mem => recordable x (List.mem_cons_of_mem _ mem))

/-- A register is written under a mask, and polled for its new value. -/
def captured : List TraceCalls.Call :=
  [ TraceCalls.Call.writeMMIO 8 0x105 0xFF, .registerPoll 8 0xFF 5 false 0]

def captureRun : List Op := [.call 1 ( TbxSockets.Call.readMMIO 8), .lock 1, .number 1, .transfer 24,
  .serve, .transfer 16, .call 1 ( TbxSockets.Call.writeMMIO 8 5), .lock 1, .number 1, .transfer 24,
  .serve, .call 1 ( TbxSockets.Call.readMMIO 8), .lock 1, .number 1, .transfer 24, .serve, .transfer 16]

end CaptureAgrees
