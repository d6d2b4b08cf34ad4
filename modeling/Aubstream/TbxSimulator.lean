import Aubstream.TbxPairing

/-!
# A simulator behind the socket

What the requests of `tbx_proto.h` ask a simulator to do, and a server that does it.
The calls of a client, one after the other, are such requests.
-/

namespace TbxSimulator
open AubPackets Framing TbxMessages TbxSockets

/-- Registers and memory of the simulated device. -/
structure Machine where
  registers : Nat → Nat
  pciRegisters : Nat → Nat → Nat → Nat → Nat
  memory : Memory

inductive Request where
  | readMMIO (offset : Nat)
  | writeMMIO (offset value : Nat)
  | readPCICFG (bus device function offset : Nat)
  | writePCICFG (bus device function offset value : Nat)
  | readMemory (region : Region) (address size : Nat)
  | writeMemory (region : Region) (address : Nat) (data : List UInt8)
  | writeGTT (index entry : Nat)
  | other

def fetch (memory : Memory) (region : Region) (address size : Nat) : List UInt8 :=
  (List.range size).map fun i => memory region (cell region (address + i))

namespace Machine

def execute (m : Machine) : Request → Machine
  | Request.writeMMIO offset value => { m with registers := Function.update m.registers offset value }
  | .writePCICFG bus device function offset value => { m with
      pciRegisters := fun b d f o =>
        if b = bus ∧ d = device ∧ f = function ∧ o = offset then value
        else m.pciRegisters b d f o }
  | .writeMemory region address data => { m with memory := store m.memory region address data }
  | .writeGTT index entry => { m with memory := store m.memory .gtt (8 * index) (qword entry) }
  | Request.readMMIO _ | .readPCICFG _ _ _ _ | .readMemory _ _ _ | .other => m

/-- What a client reads. -/
def answer (m : Machine) : Request → List UInt8
  | Request.readMMIO offset => dword (m.registers offset)
  | .readPCICFG bus device function offset => dword (m.pciRegisters bus device function offset)
  | .readMemory region address size => fetch m.memory region address size
  | Request.writeMMIO _ _ | .writePCICFG _ _ _ _ _ | .writeMemory _ _ _ | .writeGTT _ _ | .other => []

end Machine

/-- `memory_type` is `MEM_TYPE_LOCALMEM` or `MEM_TYPE_SYSTEM`. -/
def memoryType (bits : Nat) : Region := if bits % 2 ^ 2 = 1 then .localMemory else .systemMemory

/-- The structure behind a header: its size, its first three dwords and what follows them. Both
structures of a memory request have bits 32 to 39 of the address in their first dword, the extended one has
the upper half in its fourth. -/
def parseBody (msgType size flags second third : Nat) (rest : List UInt8) : Request :=
  let address := second + 2 ^ 32 * if size = 16 then readDword rest else flags / 2 ^ 24
  match msgType with
  | 0 => if flags % 2 = 0 then Request.readMMIO second else Request.writeMMIO second third
  | 2 => .writeGTT second (third + 2 ^ 32 * readDword rest)
  | 4 => .writeMemory (memoryType (flags / 2 ^ 6)) address (rest.drop (size - 12))
  | 5 => .readMemory (memoryType (flags / 2 ^ 5)) address third
  | 14 =>
    let bus := flags / 2 ^ 4 % 2 ^ 8
    let device := flags / 2 ^ 12 % 2 ^ 5
    let function := flags / 2 ^ 17 % 2 ^ 3
    if flags % 2 = 0 then .readPCICFG bus device function second
    else .writePCICFG bus device function second third
  | _ => .other

def parse (request : List UInt8) : Request :=
  parseBody (readDword request) (readDword (request.drop 8)) (readDword (request.drop 12))
    (readDword (request.drop 16)) (readDword (request.drop 20)) (request.drop 24)

/-- The machine after requests. -/
def Machine.after (m : Machine) (requests : List (List UInt8)) : Machine :=
  requests.foldl (fun m request => m.execute (parse request)) m

/-- Exactly `size` bytes. -/
def fit (size : Nat) (data : List UInt8) : List UInt8 := (data ++ List.replicate size 0).take size

theorem length_fit (size : Nat) (data : List UInt8) : (fit size data).length = size := by
  rw [fit, List.length_take, List.length_append, List.length_replicate]
  omega

theorem fit_self {size : Nat} {data : List UInt8} (length : data.length = size) :
    fit size data = data := by
  rw [fit, List.take_append_of_le_length (by omega), List.take_of_length_le (by omega)]

/-- The value of a register; the structure in front of memory is not looked at. -/
def Machine.registerAnswer (m : Machine) : Request → List UInt8
  | .readMemory _ _ _ => []
  | r => m.answer r

/-- A server that executes the requests in their order. -/
def simulator (m : Machine) : Server where
  res before request := fit (resSize request) ((m.after before).registerAnswer (parse request))
  data before request := fit (readSize request) ((m.after before).answer (parse request))
  length_res _ _ := length_fit _ _
  length_data _ _ := length_fit _ _

/-- Where memory of a call is on the other side: behind the front door, local memory is a part of
system memory. -/
def memoryOf (config : Config) (isLocalMemory : Bool) : Region :=
  if config.frontdoorMode then .systemMemory
  else if isLocalMemory then .localMemory else .systemMemory

/-- Without the front door, addresses have 40 bits. -/
def addressOf (config : Config) (address : Nat) (isLocalMemory : Bool) : Nat :=
  if config.frontdoorMode then localAddress config address isLocalMemory % 2 ^ 64
  else address % 2 ^ 40

/-- What a call asks for. -/
def request (config : Config) : Call → Request
  | .stillConnected => .other
  | Call.readMMIO offset => Request.readMMIO (offset % 2 ^ 32)
  | Call.writeMMIO offset value => Request.writeMMIO (offset % 2 ^ 32) (value % 2 ^ 32)
  | .writePCICFG bus device function offset value =>
    .writePCICFG (bus % 2 ^ 8) (device % 2 ^ 5) (function % 2 ^ 3) (offset % 2 ^ 32) (value % 2 ^ 32)
  | .readPCICFG bus device function offset =>
    .readPCICFG (bus % 2 ^ 8) (device % 2 ^ 5) (function % 2 ^ 3) (offset % 2 ^ 32)
  | .readMemory addrOffset size isLocalMemory =>
    .readMemory (memoryOf config isLocalMemory) (addressOf config addrOffset isLocalMemory) size
  | .readMemoryExt addrOffset size isLocalMemory =>
    .readMemory .systemMemory (localAddress config addrOffset isLocalMemory % 2 ^ 64) size
  | .writeMemory physAddr data isLocalMemory =>
    .writeMemory (memoryOf config isLocalMemory) (addressOf config physAddr isLocalMemory) data
  | .writeMemoryExt physAddr data isLocalMemory =>
    .writeMemory .systemMemory (localAddress config physAddr isLocalMemory % 2 ^ 64) data
  | .writeGTT offset entry => .writeGTT (offset / 8 % 2 ^ 32) (entry % 2 ^ 64)

/-- The machine after calls, one at a time. -/
def Machine.perform (config : Config) (m : Machine) (calls : List Call) : Machine :=
  calls.foldl (fun m call => m.execute (request config call)) m

/-- The fields of a structure of at least three dwords. -/
theorem parse_bytes {x : Exchange} {a b c : Nat} {more : List UInt8}
    (body : x.body = dword a ++ dword b ++ dword c ++ more) (small : more.length < 2 ^ 16)
    (transId : Nat) : parse (x.bytes transId) = parseBody x.msgType.value (12 + more.length) (a % 2 ^ 32)
      (b % 2 ^ 32) (c % 2 ^ 32) (more ++ x.data.getD []) := by
  have shape : x.bytes transId = dword x.msgType.value ++ (dword transId ++ (dword x.body.length ++
      (dword a ++ (dword b ++ (dword c ++ (more ++ x.data.getD [])))))) := by
    simp only [Exchange.bytes, Exchange.cmd, message, body, List.append_assoc]
  have length : x.body.length = 12 + more.length := by
    rw [body]
    simp only [List.length_append, length_dword]
  have size := readDword_dword x.body.length
    (dword a ++ (dword b ++ (dword c ++ (more ++ x.data.getD []))))
  rw [length, Nat.mod_eq_of_lt (by omega)] at size
  have kind := readDword_dword x.msgType.value (dword transId ++ (dword x.body.length ++
    (dword a ++ (dword b ++ (dword c ++ (more ++ x.data.getD []))))))
  rw [Nat.mod_eq_of_lt x.msgType.value_lt] at kind
  rw [shape, parse, kind]
  refine congr (congr (congr (congr (congrArg _ ?_) ?_) ?_) ?_) ?_
  · rw [length]
    exact size
  · exact readDword_dword a _
  · exact readDword_dword b _
  · exact readDword_dword c _
  · rfl

theorem memoryType_toNat {bits : Nat} {isLocalMemory : Bool} (h : bits % 2 ^ 2 = isLocalMemory.toNat) :
    memoryType bits = if isLocalMemory then .localMemory else .systemMemory := by
  rw [memoryType, h]
  cases isLocalMemory <;> rfl

section
variable (config : Config) (address : Nat) (isLocalMemory : Bool) (transId : Nat)

theorem parse_readMemoryExt {size : Nat} (small : size < 2 ^ 32) :
    parse ((readMemoryExt config address size isLocalMemory).bytes transId) =
      .readMemory .systemMemory (localAddress config address isLocalMemory % 2 ^ 64) size := by
  have high := readDword_dword (localAddress config address isLocalMemory / 2 ^ 32)
    ((readMemoryExt config address size isLocalMemory).data.getD [])
  rw [parse_bytes (show (readMemoryExt config address size isLocalMemory).body =
      dword (2 * 1 + 2 ^ 4 * 1 + 2 ^ 5 * 0 + 2 ^ 24 * (0 % 2 ^ 8)) ++
        dword (localAddress config address isLocalMemory) ++ dword size ++
        dword (localAddress config address isLocalMemory / 2 ^ 32) from rfl) (by rw [length_dword]; decide)]
  simp only [readMemoryExt, HasMsgType.value, parseBody, length_dword] at high ⊢
  rw [if_pos trivial, high, Nat.mod_eq_of_lt small]
  congr 1
  omega

theorem parse_readMemory {size : Nat} (small : size < 2 ^ 32) :
    parse ((readMemory config address size isLocalMemory).bytes transId) =
      .readMemory (memoryOf config isLocalMemory) (addressOf config address isLocalMemory) size := by
  cases front : config.frontdoorMode with
  | true =>
    rw [readMemory, memoryOf, addressOf, front]
    exact parse_readMemoryExt config address isLocalMemory transId small
  | false =>
    have bit : isLocalMemory.toNat ≤ 1 := isLocalMemory.toNat_le
    rw [readMemory, memoryOf, addressOf, front]
    simp only [Bool.false_eq_true, if_false]
    rw [parse_bytes (show _ = dword (2 * 0 + 2 ^ 4 * 0 + 2 ^ 5 * isLocalMemory.toNat +
      2 ^ 24 * (address / 2 ^ 32 % 2 ^ 8)) ++ dword address ++ dword size ++ [] from
        (List.append_nil _).symm) (by decide)]
    have type : (2 * 0 + 2 ^ 4 * 0 + 2 ^ 5 * isLocalMemory.toNat + 2 ^ 24 * (address / 2 ^ 32 % 2 ^ 8)) %
        2 ^ 32 / 2 ^ 5 % 2 ^ 2 = isLocalMemory.toNat := by omega
    simp only [HasMsgType.value, parseBody, List.length_nil]
    rw [memoryType_toNat type, Nat.mod_eq_of_lt small]
    congr 1
    show _ + 2 ^ 32 * (_ / 2 ^ 24) = _
    omega

theorem parse_writeMemoryExt (data : List UInt8) :
    parse ((writeMemoryExt config address data isLocalMemory).bytes transId) =
      .writeMemory .systemMemory (localAddress config address isLocalMemory % 2 ^ 64) data := by
  have high := readDword_dword (localAddress config address isLocalMemory / 2 ^ 32) data
  rw [parse_bytes (show (writeMemoryExt config address data isLocalMemory).body =
      dword (2 ^ 2 * 1 + 2 ^ 5 * 1 + 2 ^ 6 * 0 + 2 ^ 24 * (0 % 2 ^ 8)) ++
        dword (localAddress config address isLocalMemory) ++ dword data.length ++
        dword (localAddress config address isLocalMemory / 2 ^ 32) from rfl) (by rw [length_dword]; decide)]
  simp only [writeMemoryExt, HasMsgType.value, parseBody, length_dword, Option.getD_some]
  rw [if_pos trivial, high]
  congr 1
  omega

theorem parse_writeMemory (data : List UInt8) :
    parse ((writeMemory config address data isLocalMemory).bytes transId) =
      .writeMemory (memoryOf config isLocalMemory) (addressOf config address isLocalMemory) data := by
  cases front : config.frontdoorMode with
  | true =>
    rw [writeMemory, memoryOf, addressOf, front]
    exact parse_writeMemoryExt config address isLocalMemory transId data
  | false =>
    have bit : isLocalMemory.toNat ≤ 1 := isLocalMemory.toNat_le
    rw [writeMemory, memoryOf, addressOf, front]
    simp only [Bool.false_eq_true, if_false]
    rw [parse_bytes (show _ = dword (2 ^ 2 * 0 + 2 ^ 5 * 0 + 2 ^ 6 * isLocalMemory.toNat +
      2 ^ 24 * (address / 2 ^ 32 % 2 ^ 8)) ++ dword address ++ dword data.length ++ [] from
        (List.append_nil _).symm) (by decide)]
    have type : (2 ^ 2 * 0 + 2 ^ 5 * 0 + 2 ^ 6 * isLocalMemory.toNat + 2 ^ 24 * (address / 2 ^ 32 % 2 ^ 8)) %
        2 ^ 32 / 2 ^ 6 % 2 ^ 2 = isLocalMemory.toNat := by omega
    simp only [HasMsgType.value, parseBody, List.length_nil, Option.getD_some]
    rw [memoryType_toNat type]
    congr 1
    show _ + 2 ^ 32 * (_ / 2 ^ 24) = _
    omega

end

/-- A call says what it asks for. -/
theorem parse_exchange (config : Config) {call : Call} (sized : call.Sized) (transId : Nat) :
    parse ((call.exchange config).bytes transId) = request config call := by
  cases call with
  | stillConnected =>
    have kind := @readDword_message .markerReq transId [] []
    rw [List.append_nil] at kind
    simp only [Call.exchange, TbxSockets.stillConnected, Exchange.bytes, Exchange.cmd,
      Option.getD_none, List.append_nil, parse, kind]
    rfl
  | readMMIO offset =>
    rw [parse_bytes (List.append_nil _).symm (by decide)]
    rfl
  | writeMMIO offset value =>
    rw [parse_bytes (List.append_nil _).symm (by decide)]
    rfl
  | writePCICFG bus device function offset value =>
    rw [parse_bytes (List.append_nil _).symm (by decide)]
    simp only [Call.exchange, TbxSockets.writePCICFG, HasMsgType.value, parseBody, request]
    rw [if_neg (by omega)]
    congr 1 <;> omega
  | readPCICFG bus device function offset =>
    rw [parse_bytes (List.append_nil _).symm (by decide)]
    simp only [Call.exchange, TbxSockets.readPCICFG, HasMsgType.value, parseBody, request]
    rw [if_pos (by omega)]
    congr 1 <;> omega
  | writeGTT offset entry =>
    have body : (writeGTT offset entry).body = dword 1 ++ dword (offset / 8) ++ dword entry ++
        dword (entry / 2 ^ 32) := rfl
    have high := readDword_dword (entry / 2 ^ 32) ((writeGTT offset entry).data.getD [])
    rw [Call.exchange, parse_bytes body (by rw [length_dword]; decide)]
    simp only [TbxSockets.writeGTT, HasMsgType.value, parseBody, request] at high ⊢
    rw [high]
    congr 1
    omega
  | readMemory addrOffset size isLocalMemory =>
    exact parse_readMemory config addrOffset isLocalMemory transId (sized size rfl).2
  | readMemoryExt addrOffset size isLocalMemory =>
    exact parse_readMemoryExt config addrOffset isLocalMemory transId (sized size rfl).2
  | writeMemory physAddr data isLocalMemory =>
    exact parse_writeMemory config physAddr isLocalMemory transId data
  | writeMemoryExt physAddr data isLocalMemory =>
    exact parse_writeMemoryExt config physAddr isLocalMemory transId data

theorem length_fetch (memory : Memory) (region : Region) (address size : Nat) :
    (fetch memory region address size).length = size := by
  rw [fetch, List.length_map, List.length_range]

/-- A read of memory waits for as many bytes as it asks for, any other read for a register. -/
theorem length_answer (config : Config) (m : Machine) {call : Call} {r : HasMsgType × Nat}
    (hres : (call.exchange config).response = some r) :
    (r.1 = .readDataRes → (m.answer (request config call)).length = (call.exchange config).size.getD 0) ∧
      (r.1 ≠ .readDataRes → m.registerAnswer (request config call) = m.answer (request config call) ∧
        (m.answer (request config call)).length = r.2) := by
  cases call with
  | stillConnected =>
    obtain rfl := Option.some.inj hres
    exact ⟨fun h => (by cases h), fun _ => ⟨rfl, rfl⟩⟩
  | readMMIO offset =>
    obtain rfl := Option.some.inj hres
    exact ⟨fun h => (by cases h), fun _ => ⟨rfl, rfl⟩⟩
  | readPCICFG bus device function offset =>
    obtain rfl := Option.some.inj hres
    exact ⟨fun h => (by cases h), fun _ => ⟨rfl, rfl⟩⟩
  | readMemory addrOffset size isLocalMemory =>
    simp only [Call.exchange, readMemory] at hres ⊢
    cases front : config.frontdoorMode <;>
      (rw [front] at hres
       obtain rfl := Option.some.inj hres
       exact ⟨fun _ => length_fetch _ _ _ _, fun h => absurd rfl h⟩)
  | readMemoryExt addrOffset size isLocalMemory =>
    obtain rfl := Option.some.inj hres
    exact ⟨fun _ => length_fetch _ _ _ _, fun h => absurd rfl h⟩
  | writeMMIO offset value => cases hres
  | writePCICFG bus device function offset value => cases hres
  | writeMemory physAddr data isLocalMemory =>
    simp only [Call.exchange, writeMemory] at hres
    cases front : config.frontdoorMode <;>
      (rw [front] at hres
       cases hres)
  | writeMemoryExt physAddr data isLocalMemory => cases hres
  | writeGTT offset entry => cases hres

/-- A call reads what the machine answers, given the requests before. -/
theorem payload_simulator (config : Config) (m : Machine) {call : Call} (sized : call.Sized)
    (reads : (call.exchange config).response.isSome) (before : List (List UInt8)) (transId : Nat) :
    (simulator m).payload before ((call.exchange config).bytes transId) =
      (m.after before).answer (request config call) := by
  have sound := exchange_sound config call sized
  obtain ⟨r, hres⟩ := Option.isSome_iff_exists.mp reads
  have type := sound.resType transId
  rw [hres, Option.map_some] at type
  obtain ⟨memory, register⟩ := length_answer config (m.after before) hres
  rw [payload_eq type]
  by_cases kind : r.1 = .readDataRes
  · rw [if_pos kind]
    show fit _ ((m.after before).answer (parse _)) = _
    rw [parse_exchange config sized, sound.readSize]
    exact fit_self (memory kind)
  · obtain ⟨same, length⟩ := register kind
    rw [if_neg kind]
    show fit _ ((m.after before).registerAnswer (parse _)) = _
    rw [parse_exchange config sized, same, (sound.resSize transId r hres).1]
    exact fit_self length

end TbxSimulator
