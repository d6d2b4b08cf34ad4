import Aubstream.TraceFiles
import Aubstream.TbxLinear

/-!
# What a TBX stream asks of its socket

`TbxStream` does a call of a stream with calls of `TbxSocketsImp`: one for each page or
entry, a read before a write under a mask, and reads until a poll passes. A simulator
that answers them has the memory and the registers that a reader of the file has.
-/

namespace TbxStreamCalls
open AubPackets BitFields TracePackets PageWalker TraceReader TbxMessages TbxSockets TbxSimulator

/-- `AubStream::compareMemory`, by `ComparisonValues`. -/
def compareMemory (readValue expectedValue compareOperation : Nat) : Bool :=
  match compareOperation with
  | 1 => decide (readValue = expectedValue)
  | 2 => decide (readValue ≠ expectedValue)
  | 5 => decide (readValue > expectedValue)
  | 6 => decide (readValue ≥ expectedValue)
  | 3 => decide (readValue < expectedValue)
  | 4 => decide (readValue ≤ expectedValue)
  | _ => false

/-- An operation that is none of these never holds. -/
theorem compareMemory_lt {readValue expectedValue compareOperation : Nat}
    (h : compareMemory readValue expectedValue compareOperation = true) : compareOperation < 2 ^ 3 := by
  by_contra large
  obtain ⟨k, rfl⟩ := Nat.exists_eq_add_of_le' (Nat.not_lt.mp large)
  have never : compareMemory readValue expectedValue (k + 8) = false := rfl
  cases never.symm.trans h

/-- What a write under a mask leaves in a register. -/
def masked (currentValue value mask : UInt32) : UInt32 :=
  (currentValue &&& ~~~mask) ||| (value &&& mask)

/-- What a call has read, unless it failed. -/
def valueOf (r : Returned) : Option Nat := r.success.map fun s => readDword s.2

/-- A call is repeated as long as what it reads asks for it. -/
inductive Polls (again : Option Nat → Bool) (call : TbxSockets.Call) : List Returned → Prop where
  | last {r : Returned} (here : r.call = call) (stops : again (valueOf r) = false) :
      Polls again call [r]
  | more {r : Returned} {rest : List Returned} (here : r.call = call)
      (goes : again (valueOf r) = true) (later : Polls again call rest) : Polls again call (r :: rest)

/-- The loop of `registerPoll`, which an odd value ends too. -/
def registerAgain (mask desiredValue : UInt32) (pollNotEqual : Bool) : Option Nat → Bool
  | none => false
  | some value => decide (value % 2 = 0) &&
      (decide (UInt32.ofNat value &&& mask = desiredValue) == pollNotEqual)

/-- The loop of `memoryPoll`. -/
def memoryAgain (value compareMode : Nat) : Option Nat → Bool
  | none => false
  | some readValue => !compareMemory readValue value compareMode

def pageCalls : List UInt8 → List PageInfo → List TbxSockets.Call
  | _, [] => []
  | memory, e :: rest =>
    .writeMemory e.physicalAddress (memory.take e.size) e.isLocalMemory ::
      pageCalls (memory.drop e.size) rest

def entryCalls (table : List PageEntryInfo) (addressSpace : AddressSpaceValues) :
    List TbxSockets.Call :=
  if addressSpace = .TraceGttEntry then
    table.map fun e => .writeGTT (e.physicalAddress % 2 ^ 32) e.tableEntry
  else
    table.map fun e => .writeMemory e.physicalAddress (qword e.tableEntry)
      (decide (addressSpace = .TraceLocal))

/-- What a member of `TbxStream` does on the socket. A read that fails leaves the value of a masked write
open. -/
def Makes : TraceCalls.Call → List Returned → Prop
  | .addComment _, rs | .declareContextForDumping _ _, rs | .dumpBufferBIN _ _ _ _, rs
  | .dumpSurface _ _ _, rs | .expectMemoryTable _ _ _, rs | .reserveContiguousPages _, rs => rs = []
  | .writeContiguousPages memory physAddress addressSpace _, rs =>
    rs.map Returned.call = [.writeMemory physAddress memory (decide (addressSpace = .TraceLocal))]
  | .writeDiscontiguousPages memory table _, rs => rs.map Returned.call = pageCalls memory table
  | .writeDiscontiguousEntries table addressSpace _, rs =>
    rs.map Returned.call = entryCalls table addressSpace
  | .writeGttPages table, rs => rs.map Returned.call = entryCalls table .TraceGttEntry
  | TraceCalls.Call.writeMMIO offset value mask, rs =>
    if mask = 0xFFFFFFFF then
      rs.map Returned.call = [ TbxSockets.Call.writeMMIO offset.toNat value.toNat]
    else ∃ read write currentValue, rs = [read, write] ∧
      read.call = TbxSockets.Call.readMMIO offset.toNat ∧
      (∀ v, valueOf read = some v → currentValue = UInt32.ofNat v) ∧
      write.call = TbxSockets.Call.writeMMIO offset.toNat (masked currentValue value mask).toNat
  | .registerPoll registerOffset mask desiredValue pollNotEqual _, rs =>
    Polls (registerAgain mask desiredValue pollNotEqual)
      ( TbxSockets.Call.readMMIO registerOffset.toNat) rs
  | .memoryPoll physicalAddress isLocalMemory value compareMode, rs =>
    Polls (memoryAgain value.toNat compareMode.toNat)
      (.readMemory physicalAddress.toNat 4 isLocalMemory) rs

/-- The calls of the socket for calls of the stream, one after the other. -/
inductive MakesAll : List TraceCalls.Call → List Returned → Prop where
  | nil : MakesAll [] []
  | cons {c : TraceCalls.Call} {cs : List TraceCalls.Call} {rs rs' : List Returned} (head : Makes c rs)
      (tail : MakesAll cs rs') : MakesAll (c :: cs) (rs ++ rs')

/-- Without the front door addresses have 40 bits, and the GTT is written in whole entries. -/
def Transferable : TraceCalls.Call → Prop
  | .writeContiguousPages _ physAddress addressSpace _ =>
    addressSpace ≠ .TraceGttEntry ∧ physAddress < 2 ^ 40
  | .writeDiscontiguousPages _ table _ => ∀ e ∈ table, e.physicalAddress < 2 ^ 40
  | .writeDiscontiguousEntries table addressSpace _ => ∀ e ∈ table,
      if addressSpace = .TraceGttEntry then 8 ∣ e.physicalAddress else e.physicalAddress < 2 ^ 40
  | .writeGttPages table => ∀ e ∈ table, 8 ∣ e.physicalAddress
  | .memoryPoll physicalAddress _ _ _ => physicalAddress.toNat < 2 ^ 40
  | _ => True

/-! ### A reader's registers -/

/-- What an event does to registers. -/
def writeRegister (registers : UInt32 → UInt32) : Event → UInt32 → UInt32
  | .registerWrite offset value mask =>
    Function.update registers (UInt32.ofNat offset)
      (masked (registers (UInt32.ofNat offset)) (UInt32.ofNat value) (UInt32.ofNat mask))
  | _ => registers

def registersAfter (registers : UInt32 → UInt32) (log : List (Event × Memory)) : UInt32 → UInt32 :=
  log.foldl (fun registers e => writeRegister registers e.1) registers

/-- A poll that is found to hold. -/
def Passes (registers : UInt32 → UInt32) (memory : Memory) : Event → Prop
  | .registerPoll offset mask desiredValue pollNotEqual _ =>
    let value := registers (UInt32.ofNat offset)
    value.toNat % 2 = 1 ∨
      decide (value &&& UInt32.ofNat mask = UInt32.ofNat desiredValue) ≠ decide (pollNotEqual = 1)
  | .memoryPoll addressSpace address value comparison =>
    compareMemory (readDword (fetch memory (region addressSpace) address 4)) value comparison = true
  | _ => True

/-- Each poll of a log holds where it stands. -/
def AllPass (registers : UInt32 → UInt32) (log : List (Event × Memory)) : Prop :=
  ∀ before e after, log = before ++ e :: after → Passes (registersAfter registers before) e.2 e.1

/-- A reader and a machine that started with `registers` are in one state. -/
structure Agree (registers : UInt32 → UInt32) (r : Reader) (m : Machine) : Prop where
  memory : r.memory = m.memory
  registers : ∀ o : UInt32, registersAfter registers r.log o = UInt32.ofNat (m.registers o.toNat)

theorem registersAfter_append (registers : UInt32 → UInt32) (xs ys : List (Event × Memory)) :
    registersAfter registers (xs ++ ys) = registersAfter (registersAfter registers xs) ys :=
  List.foldl_append

theorem allPass_nil (registers : UInt32 → UInt32) : AllPass registers [] :=
  fun _ _ _ h => absurd h.symm (by simp)

/-- One more event. -/
theorem AllPass.snoc {registers : UInt32 → UInt32} {log : List (Event × Memory)} {e : Event × Memory}
    (h : AllPass registers log) (passes : Passes (registersAfter registers log) e.2 e.1) :
    AllPass registers (log ++ [e]) := by
  intro before e' after split
  rcases List.eq_nil_or_concat' after with rfl | ⟨rest, x, rfl⟩
  · obtain ⟨rfl, last⟩ := List.append_inj' split rfl
    obtain rfl := (List.cons.inj last).1
    exact passes
  · have regrouped : before ++ e' :: (rest ++ [x]) = (before ++ e' :: rest) ++ [x] := by simp
    obtain ⟨rfl, -⟩ := List.append_inj' (split.trans regrouped) rfl
    exact h before e' rest rfl

/-- Events that write no register and poll for nothing. -/
def Idle : Event → Prop
  | .registerWrite _ _ _ | .registerPoll _ _ _ _ _ | .memoryPoll _ _ _ _ => False
  | _ => True

section
variable {registers : UInt32 → UInt32} {r : Reader} {m : Machine}

theorem Agree.see (agree : Agree registers r m) {e : Event}
    (kept : writeRegister (registersAfter registers r.log) e = registersAfter registers r.log) :
    Agree registers (r.see e) m := by
  constructor
  · exact agree.memory
  · intro o
    have after : registersAfter registers (r.see e).log =
        writeRegister (registersAfter registers r.log) e := registersAfter_append _ _ _
    rw [after, kept]
    exact agree.registers o

theorem agree_idle {e : Event} (idle : Idle e) (agree : Agree registers r m)
    (polls : AllPass registers r.log) : Agree registers (r.see e) m ∧ AllPass registers (r.see e).log := by
  constructor
  · apply agree.see
    cases e with
    | registerWrite | registerPoll | memoryPoll => exact absurd idle not_false
    | _ => rfl
  · apply polls.snoc
    cases e with
    | registerWrite | registerPoll | memoryPoll => exact absurd idle not_false
    | _ => trivial

theorem agree_idleAll {events : List Event} (idle : ∀ e ∈ events, Idle e) (agree : Agree registers r m)
    (polls : AllPass registers r.log) :
    Agree registers (r.seeAll events) m ∧ AllPass registers (r.seeAll events).log := by
  induction events generalizing r with
  | nil => exact ⟨agree, polls⟩
  | cons e rest ih =>
    obtain ⟨next, passed⟩ := agree_idle (idle e List.mem_cons_self) agree polls
    exact ih (fun x mem => idle x (List.mem_cons_of_mem _ mem)) next passed

/-- Memory that is written on both sides. -/
theorem Agree.write (agree : Agree registers r m) (memory : Memory) :
    Agree registers { r with memory := memory } { m with memory := memory } :=
  ⟨rfl, agree.registers⟩

end

end TbxStreamCalls
