import Aubstream.AubPackets
import Aubstream.Framing

/-!
# Messages to a TBX server

The structures of `tbx_proto.h` as they go over the socket, and a server that answers
one request after the other.
-/

namespace TbxMessages
open AubPackets Framing

inductive HasMsgType where
  | mmioReq
  | mmioRes
  | gttReq
  | writeDataReq
  | readDataReq
  | readDataRes
  | markerReq
  | markerRes
  | pcicfgReq
  | pcicfgRes
  deriving DecidableEq

def HasMsgType.value : HasMsgType → Nat
  | mmioReq => 0
  | mmioRes => 1
  | gttReq => 2
  | writeDataReq => 4
  | readDataReq => 5
  | readDataRes => 6
  | markerReq => 7
  | markerRes => 8
  | pcicfgReq => 14
  | pcicfgRes => 15

/-- `HAS_HDR` and what it heads. -/
def message (msgType : HasMsgType) (transId : Nat) (body : List UInt8) : List UInt8 :=
  dword msgType.value ++ dword transId ++ dword body.length ++ body

/-- `HAS_MMIO_REQ` of 4 bytes. -/
def mmioReq (write offset data : Nat) : List UInt8 :=
  dword (write + 2 * 4) ++ dword offset ++ dword data

/-- `HAS_PCICFG_REQ` of 4 bytes. -/
def pcicfgReq (write bus device function offset data : Nat) : List UInt8 :=
  dword (write + 2 * 4 + 2 ^ 4 * (bus % 2 ^ 8) + 2 ^ 12 * (device % 2 ^ 5) +
    2 ^ 17 * (function % 2 ^ 3)) ++ dword offset ++ dword data

/-- `HAS_GTT64_REQ`. -/
def gtt64Req (offset data : Nat) : List UInt8 :=
  dword 1 ++ dword offset ++ dword data ++ dword (data / 2 ^ 32)

/-- `HAS_READ_DATA_REQ`; `cacheline_disable` is always that of `frontdoor`. -/
def readDataReq (frontdoor memoryType address size : Nat) (addressH : Nat) : List UInt8 :=
  dword (2 * frontdoor + 2 ^ 4 * frontdoor + 2 ^ 5 * memoryType + 2 ^ 24 * (addressH % 2 ^ 8)) ++
    dword address ++ dword size

/-- `HAS_WRITE_DATA_REQ`. -/
def writeDataReq (frontdoor memoryType address size : Nat) (addressH : Nat) : List UInt8 :=
  dword (2 ^ 2 * frontdoor + 2 ^ 5 * frontdoor + 2 ^ 6 * memoryType + 2 ^ 24 * (addressH % 2 ^ 8)) ++
    dword address ++ dword size

/-- The length of a request: what its header says and, of a write, what its `size` says. -/
def requestSize (bytes : List UInt8) : Option Nat :=
  if bytes.length < 12 then none
  else if readDword bytes = HasMsgType.writeDataReq.value then
    if bytes.length < 24 then none
    else some (12 + readDword (bytes.drop 8) + readDword (bytes.drop 20))
  else some (12 + readDword (bytes.drop 8))

/-- What a request is answered with; writes are not answered. -/
def resType (request : List UInt8) : Option HasMsgType :=
  let reads := readDword (request.drop 12) % 2 = 0
  match readDword request with
  | 0 => if reads then some .mmioRes else none
  | 5 => some .readDataRes
  | 7 => some .markerRes
  | 14 => if reads then some .pcicfgRes else none
  | _ => none

/-- Size of the structure behind the header of an answer. -/
def resSize (request : List UInt8) : Nat :=
  match readDword request with
  | 0 => 4
  | 5 => if readDword (request.drop 8) = 16 then 16 else 12
  | 14 => 4
  | _ => 0

/-- What follows the structure. -/
def readSize (request : List UInt8) : Nat :=
  if readDword request = HasMsgType.readDataReq.value then readDword (request.drop 20) else 0

/-- A server, by what it puts into an answer, given the requests before. -/
structure Server where
  res : List (List UInt8) → List UInt8 → List UInt8
  data : List (List UInt8) → List UInt8 → List UInt8
  length_res : ∀ before request, (res before request).length = resSize request
  length_data : ∀ before request, (data before request).length = readSize request

namespace Server

/-- What a client reads: memory, or the value of a register. -/
def payload (server : Server) (before : List (List UInt8)) (request : List UInt8) : List UInt8 :=
  match resType request with
  | none => []
  | some .readDataRes => server.data before request
  | some _ => server.res before request

/-- An answer has the `trans_id` of its request. -/
def reply (server : Server) (before : List (List UInt8)) (request : List UInt8) : List UInt8 :=
  match resType request with
  | none => []
  | some msgType =>
    message msgType (readDword (request.drop 4)) (server.res before request) ++
      server.data before request

end Server

section
variable {msgType : HasMsgType} {transId : Nat} {body rest : List UInt8}

theorem HasMsgType.value_lt (msgType : HasMsgType) : msgType.value < 2 ^ 32 := by
  cases msgType <;> decide

theorem HasMsgType.value_inj {a b : HasMsgType} (h : a.value = b.value) : a = b := by
  cases a <;> cases b <;> first | rfl | cases h

theorem length_message : (message msgType transId body).length = 12 + body.length := by
  simp only [message, List.length_append, length_dword]

theorem readDword_message : readDword (message msgType transId body ++ rest) = msgType.value := by
  have h : message msgType transId body ++ rest =
      dword msgType.value ++ (dword transId ++ dword body.length ++ body ++ rest) := by
    simp only [message, List.append_assoc]
  rw [h, readDword_dword, Nat.mod_eq_of_lt msgType.value_lt]

theorem drop_four_message : (message msgType transId body ++ rest).drop 4 =
    dword transId ++ (dword body.length ++ body ++ rest) := by
  rw [List.append_assoc]
  rfl

theorem drop_eight_message : (message msgType transId body ++ rest).drop 8 =
    dword body.length ++ (body ++ rest) := rfl

/-- What is read at a place does not depend on what comes later. -/
theorem readDword_append {p : List UInt8} (enough : 4 ≤ p.length) (q : List UInt8) :
    readDword (p ++ q) = readDword p := by
  rcases p with _ | ⟨a, _ | ⟨b, _ | ⟨c, _ | ⟨d, p⟩⟩⟩⟩
  · exact absurd enough (by simp)
  · exact absurd enough (by simp)
  · exact absurd enough (by simp)
  · exact absurd enough (by simp)
  · rfl

theorem readDword_drop_append {p : List UInt8} {n : Nat} (enough : n + 4 ≤ p.length)
    (q : List UInt8) : readDword ((p ++ q).drop n) = readDword (p.drop n) := by
  rw [List.drop_append_of_le_length (by omega)]
  exact readDword_append (by rw [List.length_drop]; omega) q

theorem requestSize_stable : Stable requestSize := by
  intro p q n hn
  rw [requestSize] at hn ⊢
  split at hn
  · cases hn
  · rename_i hdr
    have hlen : p.length ≤ (p ++ q).length := by
      rw [List.length_append]
      omega
    rw [if_neg (by omega), readDword_append (by omega), readDword_drop_append (by omega)]
    split at hn
    · rename_i write
      rw [if_pos write]
      split at hn
      · cases hn
      · rw [if_neg (by omega), readDword_drop_append (by omega)]
        exact hn
    · rename_i write
      rw [if_neg write]
      exact hn

/-- What is not a write ends with its structure. -/
theorem message_delimited (ne : msgType ≠ .writeDataReq) (small : body.length < 2 ^ 32) :
    Delimited requestSize (message msgType transId body) := by
  have hlen := @length_message msgType transId body
  refine ⟨List.ne_nil_of_length_pos (by omega), fun rest => ?_⟩
  have hne : ¬ msgType.value = HasMsgType.writeDataReq.value :=
    fun h => ne (HasMsgType.value_inj h)
  rw [requestSize, if_neg (by rw [List.length_append]; omega), readDword_message, if_neg hne,
    drop_eight_message, readDword_dword, Nat.mod_eq_of_lt small, hlen]

/-- A write ends with its data, when `size` holds their length. -/
theorem write_delimited {flags address : Nat} {more data : List UInt8}
    (small : 12 + more.length < 2 ^ 32) (fits : data.length < 2 ^ 32) :
    Delimited requestSize (message .writeDataReq transId
      (dword flags ++ dword address ++ dword data.length ++ more) ++ data) := by
  have hlen := @length_message .writeDataReq transId
    (dword flags ++ dword address ++ dword data.length ++ more)
  have hbody : (dword flags ++ dword address ++ dword data.length ++ more).length =
      12 + more.length := by
    simp only [List.length_append, length_dword]
  refine ⟨List.append_ne_nil_of_left_ne_nil (List.ne_nil_of_length_pos (by omega)) _,
    fun rest => ?_⟩
  have hsize : (message .writeDataReq transId
      (dword flags ++ dword address ++ dword data.length ++ more) ++ (data ++ rest)).drop 20 =
        dword data.length ++ (more ++ (data ++ rest)) := rfl
  rw [List.append_assoc, requestSize, if_neg (by rw [List.length_append]; omega), readDword_message,
    if_pos rfl, if_neg (by rw [List.length_append]; omega), drop_eight_message, readDword_dword,
    hsize, readDword_dword, Nat.mod_eq_of_lt fits, hbody, Nat.mod_eq_of_lt small,
    List.length_append, hlen, hbody]

end

section
variable {server : Server} {before : List (List UInt8)} {request : List UInt8} {msgType : HasMsgType}

theorem reply_eq (h : resType request = some msgType) :
    server.reply before request =
      message msgType (readDword (request.drop 4)) (server.res before request) ++
        server.data before request := by
  rw [Server.reply, h]

/-- Nothing but the answer to a read of memory has data. -/
theorem payload_eq (h : resType request = some msgType) :
    server.payload before request =
      if msgType = .readDataRes then server.data before request else server.res before request := by
  rw [Server.payload, h]
  cases msgType <;> rfl

end

/-- The server has answered the last request, or has not read it; nothing else is to be answered. -/
def Answering (server : Server) (served : List (List UInt8 × List UInt8)) (toClient : List UInt8)
    (pending : List (List UInt8)) (request received : List UInt8) : Prop :=
  (∃ before, pending = before ++ [request] ∧ received = [] ∧ toClient = [] ∧
    ∀ f ∈ before, resType f = none) ∨
  (pending = [] ∧ ∃ before,
    served = before ++ [(request, server.payload (before.map Prod.fst) request)] ∧
    received ++ toClient = server.reply (before.map Prod.fst) request)

/-- `whole`: all requests that left; `part`: what left of the next. `awaits`: the request that a client
waits for, and what it has received. -/
def Flow (server : Server) (served : List (List UInt8 × List UInt8)) (toServer toClient : List UInt8)
    (whole : List (List UInt8)) (part : List UInt8)
    (awaits : Option (List UInt8 × List UInt8)) : Prop :=
  ∃ pending, served.map Prod.fst ++ pending = whole ∧ toServer = pending.flatten ++ part ∧
    (∀ f ∈ pending, Delimited requestSize f) ∧
    match awaits with
    | none => toClient = [] ∧ ∀ f ∈ pending, resType f = none
    | some (request, received) => Answering server served toClient pending request received

section
variable {server : Server} {served : List (List UInt8 × List UInt8)} {toServer toClient : List UInt8}
  {whole : List (List UInt8)} {part request got : List UInt8}
  {awaits : Option (List UInt8 × List UInt8)}

theorem flow_nil : Flow server [] [] [] [] [] none :=
  ⟨[], rfl, rfl, fun _ h => absurd h List.not_mem_nil, rfl, fun _ h => absurd h List.not_mem_nil⟩

theorem Flow.push (flow : Flow server served toServer toClient whole part awaits)
    (more : List UInt8) :
    Flow server served (toServer ++ more) toClient whole (part ++ more) awaits := by
  obtain ⟨pending, order, rfl, frames, answers⟩ := flow
  exact ⟨pending, order, List.append_assoc _ _ _, frames, answers⟩

/-- A write is whole. -/
theorem Flow.written (flow : Flow server served toServer toClient whole part none)
    (delimited : Delimited requestSize part) (silent : resType part = none) :
    Flow server served toServer toClient (whole ++ [part]) [] none := by
  obtain ⟨pending, rfl, rfl, frames, hclient, unanswered⟩ := flow
  refine ⟨pending ++ [part], (List.append_assoc _ _ _).symm, ?_, ?_, hclient, ?_⟩
  · rw [List.flatten_append, List.flatten_singleton, List.append_nil]
  · exact List.forall_mem_append.mpr ⟨frames, List.forall_mem_singleton.mpr delimited⟩
  · exact List.forall_mem_append.mpr ⟨unanswered, List.forall_mem_singleton.mpr silent⟩

/-- A read is whole, and its answer is waited for. -/
theorem Flow.asked (flow : Flow server served toServer toClient whole part none)
    (delimited : Delimited requestSize part) :
    Flow server served toServer toClient (whole ++ [part]) [] (some (part, [])) := by
  obtain ⟨pending, rfl, rfl, frames, hclient, unanswered⟩ := flow
  refine ⟨pending ++ [part], (List.append_assoc _ _ _).symm, ?_, ?_,
    Or.inl ⟨pending, rfl, rfl, hclient, unanswered⟩⟩
  · rw [List.flatten_append, List.flatten_singleton, List.append_nil]
  · exact List.forall_mem_append.mpr ⟨frames, List.forall_mem_singleton.mpr delimited⟩

theorem Flow.received
    (flow : Flow server served toServer toClient whole part (some (request, got))) {k : Nat}
    (positive : 0 < k) (enough : k ≤ toClient.length) :
    Flow server served toServer (toClient.drop k) whole part
      (some (request, got ++ toClient.take k)) := by
  obtain ⟨pending, order, hwire, frames, answers⟩ := flow
  rcases answers with ⟨before, -, -, rfl, -⟩ | ⟨hpending, before, hserved, hreply⟩
  · rw [List.length_nil] at enough
    omega
  · refine ⟨pending, order, hwire, frames, Or.inr ⟨hpending, before, hserved, ?_⟩⟩
    rw [List.append_assoc, List.take_append_drop]
    exact hreply

/-- What has been received is the start of the answer. -/
theorem Flow.answered
    (flow : Flow server served toServer toClient whole part (some (request, got)))
    (nonempty : got ≠ []) : served.map Prod.fst = whole ∧ ∃ before,
      served = before ++ [(request, server.payload (before.map Prod.fst) request)] ∧
      got ++ toClient = server.reply (before.map Prod.fst) request := by
  obtain ⟨pending, order, -, -, answers⟩ := flow
  rcases answers with ⟨before, -, hnil, -⟩ | ⟨rfl, answer⟩
  · exact absurd hnil nonempty
  · rw [List.append_nil] at order
    exact ⟨order, answer⟩

/-- The whole answer has been received. -/
theorem Flow.done
    (flow : Flow server served toServer toClient whole part (some (request, got)))
    (nonempty : got ≠ []) (empty : toClient = []) :
    Flow server served toServer toClient whole part none := by
  obtain ⟨pending, order, hwire, frames, answers⟩ := flow
  rcases answers with ⟨before, -, hnil, -⟩ | ⟨rfl, -⟩
  · exact absurd hnil nonempty
  · exact ⟨[], order, hwire, frames, empty, fun _ h => absurd h List.not_mem_nil⟩

/-- The server takes the oldest whole request, and never a part of one. -/
theorem Flow.serve (flow : Flow server served toServer toClient whole part awaits)
    {rest : List UInt8} (incomplete : part = [] ∨ ∃ more, more ≠ [] ∧ Delimited requestSize (part ++ more))
    (taken : takeFrame requestSize toServer = some (request, rest)) :
    Flow server (served ++ [(request, server.payload (served.map Prod.fst) request)]) rest
      (toClient ++ server.reply (served.map Prod.fst) request) whole part awaits := by
  obtain ⟨pending, order, rfl, frames, answers⟩ := flow
  cases pending with
  | nil =>
    rw [List.flatten_nil, List.nil_append] at taken
    rcases incomplete with rfl | ⟨more, ne, delimited⟩
    · rw [takeFrame_nil] at taken
      cases taken
    · rw [takeFrame_part requestSize_stable delimited ne] at taken
      cases taken
  | cons f pending =>
    rw [List.flatten_cons, List.append_assoc,
      takeFrame_frame (frames f List.mem_cons_self)] at taken
    obtain ⟨rfl, rfl⟩ := Prod.mk.inj (Option.some.inj taken)
    have horder : (served ++ [(f, server.payload (served.map Prod.fst) f)]).map Prod.fst ++ pending =
        whole := by
      rw [List.map_append, List.append_assoc]
      exact order
    have hquiet (h : resType f = none) :
        toClient ++ server.reply (served.map Prod.fst) f = toClient := by
      rw [Server.reply, h, List.append_nil]
    refine ⟨pending, horder, rfl, fun g hg => frames g (List.mem_cons_of_mem f hg), ?_⟩
    rcases awaits with _ | ⟨request, got⟩
    · obtain ⟨hclient, unanswered⟩ := answers
      rw [hquiet (unanswered f List.mem_cons_self)]
      exact ⟨hclient, fun g hg => unanswered g (List.mem_cons_of_mem f hg)⟩
    · rcases answers with ⟨before, hpending, rfl, rfl, unanswered⟩ | ⟨hnil, -⟩
      · cases before with
        | nil =>
          -- the request that is waited for
          obtain ⟨rfl, rfl⟩ := List.cons.inj hpending
          exact Or.inr ⟨rfl, served, rfl, rfl⟩
        | cons g before =>
          obtain ⟨rfl, rfl⟩ := List.cons.inj hpending
          have hclient := hquiet (unanswered f List.mem_cons_self)
          exact Or.inl ⟨before, rfl, rfl, hclient,
            fun g hg => unanswered g (List.mem_cons_of_mem f hg)⟩
      · cases hnil

end

end TbxMessages
