import Mathlib.Data.Int.Basic
import Mathlib.Logic.Function.Basic
import Aubstream.TbxMessages
import Aubstream.Transitions

/-!
# Calls of several threads over one socket

Each function of `TbxSocketsImp` takes a transaction number, holds the mutex of the socket,
sends a request and, if it reads, receives the answer. Sending and receiving go in parts, and
between two parts anything may happen elsewhere.
-/

namespace TbxSockets
open AubPackets Framing TbxMessages

/-- What a function of `TbxSocketsImp` does with the socket. -/
structure Exchange where
  /-- It looks at `inErrorState` before anything else. -/
  checksError : Bool := false
  /-- It takes its number before it locks the mutex. -/
  numbersFirst : Bool
  msgType : HasMsgType
  body : List UInt8
  /-- A second `sendWriteData`. -/
  data : Option (List UInt8) := none
  /-- The answer that it waits for, with the size of its structure. -/
  response : Option (HasMsgType × Nat) := none
  /-- A second `getResponseData`. -/
  size : Option Nat := none

def Exchange.cmd (x : Exchange) (transId : Nat) : List UInt8 := message x.msgType transId x.body

/-- All that a call sends. -/
def Exchange.bytes (x : Exchange) (transId : Nat) : List UInt8 := x.cmd transId ++ x.data.getD []

inductive Platform where
  | linux
  | windows
  deriving DecidableEq

structure Config where
  platform : Platform
  frontdoorMode : Bool
  lmembar : Nat

section
variable (config : Config)

def stillConnected : Exchange where
  numbersFirst := false
  msgType := .markerReq
  body := []
  response := some (.markerRes, 0)

def readMMIO (offset : Nat) : Exchange where
  checksError := true
  numbersFirst := false
  msgType := .mmioReq
  body := mmioReq 0 offset 0
  response := some (.mmioRes, 4)

def writeMMIO (offset value : Nat) : Exchange where
  numbersFirst := false
  msgType := .mmioReq
  body := mmioReq 1 offset value

def writePCICFG (bus device function offset value : Nat) : Exchange where
  numbersFirst := false
  msgType := .pcicfgReq
  body := pcicfgReq 1 bus device function offset value

def readPCICFG (bus device function offset : Nat) : Exchange where
  numbersFirst := true
  msgType := .pcicfgReq
  body := pcicfgReq 0 bus device function offset 0
  response := some (.pcicfgRes, 4)

/-- Where local memory is behind the front door. -/
def localAddress (addr : Nat) (isLocalMemory : Bool) : Nat :=
  if isLocalMemory then (addr + config.lmembar) % 2 ^ 64 else addr

def readMemoryExt (addrOffset size : Nat) (isLocalMemory : Bool) : Exchange where
  numbersFirst := true
  msgType := .readDataReq
  body :=
    let addrOffset := localAddress config addrOffset isLocalMemory
    readDataReq 1 0 addrOffset size 0 ++ dword (addrOffset / 2 ^ 32)
  response := some (.readDataRes, 16)
  size := some size

def readMemory (addrOffset size : Nat) (isLocalMemory : Bool) : Exchange :=
  if config.frontdoorMode then readMemoryExt config addrOffset size isLocalMemory
  else {
    numbersFirst := true
    msgType := .readDataReq
    body := readDataReq 0 isLocalMemory.toNat addrOffset size (addrOffset / 2 ^ 32)
    response := some (.readDataRes, 12)
    size := some size }

def writeMemoryExt (physAddr : Nat) (data : List UInt8) (isLocalMemory : Bool) : Exchange where
  numbersFirst := true
  msgType := .writeDataReq
  body :=
    let physAddr := localAddress config physAddr isLocalMemory
    writeDataReq 1 0 physAddr data.length 0 ++ dword (physAddr / 2 ^ 32)
  data := some data

def writeMemory (physAddr : Nat) (data : List UInt8) (isLocalMemory : Bool) : Exchange :=
  if config.frontdoorMode then writeMemoryExt config physAddr data isLocalMemory
  else {
    numbersFirst := true
    msgType := .writeDataReq
    body := writeDataReq 0 isLocalMemory.toNat physAddr data.length (physAddr / 2 ^ 32)
    data := some data }

/-- The server takes an index. -/
def writeGTT (offset entry : Nat) : Exchange where
  numbersFirst := true
  msgType := .gttReq
  body := gtt64Req (offset / 8) entry

end

inductive Call where
  | stillConnected
  | readMMIO (offset : Nat)
  | writeMMIO (offset value : Nat)
  | writePCICFG (bus device function offset value : Nat)
  | readPCICFG (bus device function offset : Nat)
  | readMemory (addrOffset size : Nat) (isLocalMemory : Bool)
  | readMemoryExt (addrOffset size : Nat) (isLocalMemory : Bool)
  | writeMemory (physAddr : Nat) (data : List UInt8) (isLocalMemory : Bool)
  | writeMemoryExt (physAddr : Nat) (data : List UInt8) (isLocalMemory : Bool)
  | writeGTT (offset entry : Nat)

def Call.exchange (config : Config) : Call → Exchange
  | stillConnected => TbxSockets.stillConnected
  | readMMIO offset => TbxSockets.readMMIO offset
  | writeMMIO offset value => TbxSockets.writeMMIO offset value
  | writePCICFG bus device function offset value =>
    TbxSockets.writePCICFG bus device function offset value
  | readPCICFG bus device function offset => TbxSockets.readPCICFG bus device function offset
  | readMemory addrOffset size isLocalMemory =>
    TbxSockets.readMemory config addrOffset size isLocalMemory
  | readMemoryExt addrOffset size isLocalMemory =>
    TbxSockets.readMemoryExt config addrOffset size isLocalMemory
  | writeMemory physAddr data isLocalMemory =>
    TbxSockets.writeMemory config physAddr data isLocalMemory
  | writeMemoryExt physAddr data isLocalMemory =>
    TbxSockets.writeMemoryExt config physAddr data isLocalMemory
  | writeGTT offset entry => TbxSockets.writeGTT offset entry

/-- What is read or written, for memory. -/
def Call.size : Call → Option Nat
  | readMemory _ size _ | readMemoryExt _ size _ => some size
  | writeMemory _ data _ | writeMemoryExt _ data _ => some data.length
  | _ => none

/-- Outside the mutex, without or with a number. -/
structure Waiting where
  call : Call
  transId : Option Nat

/-- How far the thread with the mutex is. -/
inductive Held where
  | locked
  | sending (transId totalSent : Nat)
  | sendingData (transId totalSent : Nat)
  | receiving (transId : Nat) (resp : List UInt8)
  | receivingData (transId : Nat) (resp data : List UInt8)

/-- What left the socket so far. -/
def Held.left (x : Exchange) : Held → List UInt8
  | locked => []
  | sending transId totalSent => (x.cmd transId).take totalSent
  | sendingData transId totalSent => x.cmd transId ++ (x.data.getD []).take totalSent
  | receiving transId _ | receivingData transId _ _ => x.bytes transId

/-- `success`: the number of the call and what it read. -/
structure Returned where
  call : Call
  left : List UInt8
  success : Option (Nat × List UInt8)

/-- The socket, its server and the threads. Not in the source: `sent`, all that left the
socket; `returned`, the calls in the order in which they returned; and `socketFailed`. -/
structure State where
  transId : Nat
  inErrorState : Bool
  waiting : Nat → Option Waiting
  holder : Option (Nat × Call × Held)
  toServer : List UInt8
  toClient : List UInt8
  /-- Requests that the server has answered, and what the answers say. -/
  served : List (List UInt8 × List UInt8)
  sent : List UInt8
  returned : List Returned
  socketFailed : Bool

/-- A connected socket. -/
def start (transId : Nat) : State :=
  ⟨transId % 2 ^ 32, false, fun _ => none, none, [], [], [], [], [], false⟩

def wsaeconnreset : Platform → Int
  | .linux => -1
  | .windows => 10054

def socketError : Int := -1

/-- `static_cast<int>(sizeInBytes - total)`. -/
def asked (sizeInBytes total : Nat) : Int := Int.bmod ((sizeInBytes : Int) - total) (2 ^ 32)

/-- What one call transfers at most. Linux takes its length as a `size_t`, up to a limit. -/
def longest (platform : Platform) (asked : Int) : Nat :=
  match platform with
  | .linux => min (asked % 2 ^ 64).toNat 0x7ffff000
  | .windows => asked.toNat

/-- What `send` and `recv` can return. -/
def Returns (platform : Platform) (asked : Int) (available : Nat) (bytes : Int) : Prop :=
  bytes = socketError ∨ bytes = 0 ∨ (0 < bytes ∧ bytes ≤ min (longest platform asked) available)

instance (platform : Platform) (asked : Int) (available : Nat) (bytes : Int) :
    Decidable (Returns platform asked available bytes) :=
  inferInstanceAs (Decidable (_ ∨ _ ∨ (_ ∧ _)))

/-- An error, or the other side has closed the connection. -/
def Fails (asked bytes : Int) : Prop := bytes = socketError ∨ (bytes = 0 ∧ asked ≠ 0)

instance (asked bytes : Int) : Decidable (Fails asked bytes) :=
  inferInstanceAs (Decidable (_ ∨ (_ ∧ _)))

/-- The tests of both loops. -/
def takenForError (platform : Platform) (bytes : Int) : Bool :=
  (bytes == 0 || bytes == wsaeconnreset platform) || bytes == socketError

namespace State

/-- A function returns and unlocks the mutex. -/
def leave (s : State) (call : Call) (left : List UInt8) (success : Option (Nat × List UInt8)) :
    State :=
  { s with holder := none, returned := s.returned ++ [⟨call, left, success⟩] }

/-- `sendWriteData` or `getResponseData` up to its loop. -/
def enter (s : State) (thread : Nat) (call : Call) (x : Exchange) (held : Held) : State :=
  if s.inErrorState then s.leave call (held.left x) none
  else { s with holder := some (thread, call, held) }

def afterRequest (s : State) (thread : Nat) (call : Call) (x : Exchange) (transId : Nat) : State :=
  if x.data.isSome then s.enter thread call x (.sendingData transId 0)
  else if x.response.isSome then s.enter thread call x (.receiving transId [])
  else s.leave call (x.bytes transId) (some (transId, []))

/-- Without data, the value of the register is what follows the header. -/
def afterResponse (s : State) (thread : Nat) (call : Call) (x : Exchange) (transId : Nat)
    (resp : List UInt8) : State :=
  if some (readDword resp) ≠ x.response.map (fun r => r.1.value) ∨
      readDword (resp.drop 4) ≠ transId then
    s.leave call (x.bytes transId) none
  else if x.size.isSome then s.enter thread call x (.receivingData transId resp [])
  else s.leave call (x.bytes transId) (some (transId, resp.drop 12))

section
variable (config : Config) (s : State) (thread : Nat) (call : Call) (x : Exchange) (bytes : Int)

/-- One `send`, and the pass of the loop that follows. -/
def sendPart (buffer : List UInt8) (total : Nat) (held : Nat → Held) (next : State → State) :
    Option State :=
  let length := asked buffer.length total
  if ¬ Returns config.platform length (buffer.length - total) bytes then none
  else
    let part := (buffer.drop total).take bytes.toNat
    let s := { s with
      sent := s.sent ++ part
      toServer := s.toServer ++ part
      socketFailed := s.socketFailed || decide (Fails length bytes) }
    let totalSent := total + bytes.toNat
    if takenForError config.platform bytes then
      some ({ s with inErrorState := true }.leave call ((held totalSent).left x) none)
    else if totalSent < buffer.length then
      some { s with holder := some (thread, call, held totalSent) }
    else some (next s)

/-- One `recv`. -/
def recvPart (transId size : Nat) (received : List UInt8) (held : List UInt8 → Held)
    (next : State → List UInt8 → State) : Option State :=
  let length := asked size received.length
  if ¬ Returns config.platform length s.toClient.length bytes then none
  else
    let got := received ++ s.toClient.take bytes.toNat
    let s := { s with
      toClient := s.toClient.drop bytes.toNat
      socketFailed := s.socketFailed || decide (Fails length bytes) }
    if takenForError config.platform bytes then
      some ({ s with inErrorState := true }.leave call (x.bytes transId) none)
    else if got.length < size then some { s with holder := some (thread, call, held got) }
    else some (next s got)

/-- What the thread with the mutex does next. -/
def transfer (held : Held) : Option State :=
  match held with
  | .locked => none
  | .sending transId total =>
    s.sendPart config thread call x bytes (x.cmd transId) total (.sending transId)
      (·.afterRequest thread call x transId)
  | .sendingData transId total =>
    s.sendPart config thread call x bytes (x.data.getD []) total (.sendingData transId)
      (·.leave call (x.bytes transId) (some (transId, [])))
  | .receiving transId received =>
    s.recvPart config thread call x bytes transId (12 + (x.response.map Prod.snd).getD 0) received
      (.receiving transId) (·.afterResponse thread call x transId ·)
  | .receivingData transId resp received =>
    s.recvPart config thread call x bytes transId (x.size.getD 0) received
      (.receivingData transId resp) fun s data =>
        s.leave call (x.bytes transId) (some (transId, data))

end

/-- The server takes the next request when all of it has come. -/
def serve (server : Server) (s : State) : Option State :=
  (takeFrame requestSize s.toServer).map fun (request, rest) =>
    let before := s.served.map Prod.fst
    { s with
      toServer := rest
      toClient := s.toClient ++ server.reply before request
      served := s.served ++ [(request, server.payload before request)] }

end State

/-- The next step, with what the operating system returns where it is asked. -/
inductive Op where
  | call (thread : Nat) (call : Call)
  | number (thread : Nat)
  | lock (thread : Nat)
  | transfer (bytes : Int)
  | serve

section
variable (config : Config)

def begin (s : State) (thread : Nat) (call : Call) : Option State :=
  if (s.waiting thread).isSome ∨ s.holder.map Prod.fst = some thread then none
  else if (call.exchange config).checksError ∧ s.inErrorState then
    some { s with returned := s.returned ++ [⟨call, [], none⟩] }
  else some { s with waiting := Function.update s.waiting thread (some ⟨call, none⟩) }

/-- `transID++`. -/
def number (s : State) (thread : Nat) : Option State :=
  let counted := { s with transId := (s.transId + 1) % 2 ^ 32 }
  match s.waiting thread, s.holder with
  | some ⟨call, none⟩, _ =>
    if (call.exchange config).numbersFirst then some { counted with
      waiting := Function.update s.waiting thread (some ⟨call, some s.transId⟩) }
    else none
  | none, some (holder, call, .locked) =>
    if holder = thread then
      some (counted.enter thread call (call.exchange config) (.sending s.transId 0))
    else none
  | _, _ => none

def lock (s : State) (thread : Nat) : Option State :=
  let entered := { s with waiting := Function.update s.waiting thread none }
  match s.holder, s.waiting thread with
  | none, some ⟨call, some transId⟩ =>
    some (entered.enter thread call (call.exchange config) (.sending transId 0))
  | none, some ⟨call, none⟩ =>
    if (call.exchange config).numbersFirst then none
    else some { entered with holder := some (thread, call, .locked) }
  | _, _ => none

def step (server : Server) (s : State) : Op → Option State
  | .call thread call => begin config s thread call
  | .number thread => number config s thread
  | .lock thread => lock config s thread
  | .transfer bytes => s.holder.bind fun (thread, call, held) =>
    s.transfer config thread call (call.exchange config) bytes held
  | .serve => s.serve server

end

end TbxSockets
