import Aubstream.TbxSockets

/-!
# What a request says

The bytes of each call end where its header says, and the server sees what the call waits
for. A transfer moves no more than what is left, and is told from an error.
-/

namespace TbxSockets
open AubPackets Framing TbxMessages

/-- A size that `int` and the header have. -/
def Call.Sized (call : Call) : Prop := ∀ n, call.size = some n → 0 < n ∧ n < 2 ^ 32

section
variable {sizeInBytes total : Nat} {platform : Platform} {bytes : Int}

/-- What `int` makes of a length. -/
theorem asked_cases (more : total < sizeInBytes) :
    (asked sizeInBytes total = ((sizeInBytes - total) % 2 ^ 32 : Nat) ∧
        asked sizeInBytes total < 2 ^ 31) ∨
      (asked sizeInBytes total < 0 ∧ - 2 ^ 31 ≤ asked sizeInBytes total ∧
        2 ^ 31 ≤ sizeInBytes - total) := by
  rw [asked, Int.bmod_def]
  split
  · left
    omega
  · right
    omega

theorem asked_ne_zero (more : total < sizeInBytes) (small : sizeInBytes < 2 ^ 32) :
    asked sizeInBytes total ≠ 0 := by
  rcases asked_cases more with ⟨h, -⟩ | ⟨h, -⟩ <;> omega

/-- A call never goes past what it is asked for, also when `int` turns it negative. -/
theorem longest_le (more : total < sizeInBytes) :
    longest platform (asked sizeInBytes total) ≤ sizeInBytes - total := by
  cases platform with
  | linux =>
    rw [longest, Nat.min_def]
    rcases asked_cases more with ⟨h, -⟩ | ⟨h, h', h''⟩ <;> split <;> omega
  | windows =>
    rw [longest]
    rcases asked_cases more with ⟨h, -⟩ | ⟨h, -⟩ <;> omega

theorem takenForError_iff {length : Int} (ne : length ≠ 0)
    (fits : platform = .windows → bytes ≠ 10054) :
    takenForError platform bytes = true ↔ Fails length bytes := by
  have hreset : bytes = wsaeconnreset platform → bytes = socketError := by
    cases platform with
    | linux => exact id
    | windows => exact fun h => absurd h (fits rfl)
  rw [takenForError, Bool.or_eq_true, Bool.or_eq_true, beq_iff_eq, beq_iff_eq, beq_iff_eq, Fails]
  constructor
  · rintro ((h | h) | h)
    · exact Or.inr ⟨h, ne⟩
    · exact Or.inl (hreset h)
    · exact Or.inl h
  · rintro (h | ⟨h, -⟩)
    · exact Or.inr h
    · exact Or.inl (Or.inl h)

end

/-- The server sees what the call means. -/
structure Exchange.Sound (x : Exchange) : Prop where
  delimited : ∀ transId, Delimited requestSize (x.bytes transId)
  short : x.body.length ≤ 16
  data : ∀ d, x.data = some d → 0 < d.length ∧ d.length < 2 ^ 32
  resType : ∀ transId, resType (x.bytes transId) = x.response.map Prod.fst
  noData : x.response.isSome → x.data = none
  resSize : ∀ transId r, x.response = some r → resSize (x.bytes transId) = r.2 ∧ r.2 ≤ 16
  readSize : ∀ transId, readSize (x.bytes transId) = x.size.getD 0
  reads : ∀ r, x.response = some r → (r.1 = .readDataRes ↔ x.size.isSome)
  size : ∀ n, x.size = some n → 0 < n ∧ n < 2 ^ 32

section
variable {x : Exchange}

theorem length_cmd (transId : Nat) : (x.cmd transId).length = 12 + x.body.length := length_message

theorem readDword_cmd (transId : Nat) : readDword (x.cmd transId) = x.msgType.value := by
  have h := @readDword_message x.msgType transId x.body []
  rw [List.append_nil] at h
  exact h

/-- A request of one structure. -/
theorem Exchange.Sound.of_message (short : x.body.length ≤ 16) (kind : x.msgType ≠ .writeDataReq)
    (noData : x.data = none)
    (hres : ∀ transId, TbxMessages.resType (x.cmd transId) = x.response.map Prod.fst)
    (hsize : ∀ transId r, x.response = some r →
      TbxMessages.resSize (x.cmd transId) = r.2 ∧ r.2 ≤ 16)
    (hread : ∀ transId, TbxMessages.readSize (x.cmd transId) = x.size.getD 0)
    (reads : ∀ r, x.response = some r → (r.1 = .readDataRes ↔ x.size.isSome))
    (size : ∀ n, x.size = some n → 0 < n ∧ n < 2 ^ 32) : x.Sound := by
  have hbytes : x.bytes = x.cmd := by
    funext transId
    rw [Exchange.bytes, noData, Option.getD_none, List.append_nil]
  constructor
  · intro transId
    rw [hbytes]
    exact message_delimited kind (by omega)
  · exact short
  · intro d h
    cases noData.symm.trans h
  · rw [hbytes]
    exact hres
  · exact fun _ => noData
  · rw [hbytes]
    exact hsize
  · rw [hbytes]
    exact hread
  · exact reads
  · exact size

/-- A request of a register. -/
theorem Exchange.Sound.of_register (short : x.body.length ≤ 16) (kind : x.msgType ≠ .writeDataReq)
    (kind' : x.msgType ≠ .readDataReq) (noData : x.data = none) (noSize : x.size = none)
    (hres : ∀ transId, TbxMessages.resType (x.cmd transId) = x.response.map Prod.fst)
    (hsize : ∀ transId r, x.response = some r →
      TbxMessages.resSize (x.cmd transId) = r.2 ∧ r.2 ≤ 16)
    (other : ∀ r, x.response = some r → r.1 ≠ .readDataRes) : x.Sound := by
  apply Exchange.Sound.of_message short kind noData hres hsize
  · intro transId
    have hne : ¬ x.msgType.value = HasMsgType.readDataReq.value :=
      fun h => kind' (HasMsgType.value_inj h)
    rw [TbxMessages.readSize, readDword_cmd, if_neg hne, noSize, Option.getD_none]
  · intro r hr
    rw [noSize]
    exact ⟨fun h => absurd h (other r hr), fun h => absurd h (by decide)⟩
  · intro n h
    cases noSize.symm.trans h

/-- A write of a register. -/
theorem Exchange.Sound.of_unanswered (short : x.body.length ≤ 16) (kind : x.msgType ≠ .writeDataReq)
    (kind' : x.msgType ≠ .readDataReq) (noData : x.data = none) (noSize : x.size = none)
    (noResponse : x.response = none)
    (silent : ∀ transId, TbxMessages.resType (x.cmd transId) = none) : x.Sound := by
  apply Exchange.Sound.of_register short kind kind' noData noSize
  · intro transId
    rw [silent, noResponse]
    rfl
  · intro transId r hr
    cases noResponse.symm.trans hr
  · intro r hr
    cases noResponse.symm.trans hr

end

theorem readDword_mmioReq (write offset data : Nat) :
    readDword (mmioReq write offset data) % 2 = write % 2 := by
  rw [mmioReq, List.append_assoc, readDword_dword]
  omega

theorem readDword_pcicfgReq (write bus device function offset data : Nat) :
    readDword (pcicfgReq write bus device function offset data) % 2 = write % 2 := by
  rw [pcicfgReq, List.append_assoc, readDword_dword]
  omega

theorem stillConnected_sound : stillConnected.Sound := by
  apply Exchange.Sound.of_register
  · exact (by decide : 0 ≤ 16)
  · rintro ⟨⟩
  · rintro ⟨⟩
  · rfl
  · rfl
  · intro transId
    rw [resType, readDword_cmd]
    rfl
  · rintro transId r ⟨⟩
    rw [resSize, readDword_cmd]
    exact ⟨rfl, by decide⟩
  · rintro r ⟨⟩
    decide

theorem readMMIO_sound (offset : Nat) : ( readMMIO offset).Sound := by
  apply Exchange.Sound.of_register
  · exact (by decide : 12 ≤ 16)
  · rintro ⟨⟩
  · rintro ⟨⟩
  · rfl
  · rfl
  · intro transId
    have hflags : readDword ((( readMMIO offset).cmd transId).drop 12) % 2 = 0 :=
      readDword_mmioReq 0 offset 0
    rw [resType, readDword_cmd, hflags]
    rfl
  · rintro transId r ⟨⟩
    rw [resSize, readDword_cmd]
    exact ⟨rfl, by decide⟩
  · rintro r ⟨⟩
    decide

theorem writeMMIO_sound (offset value : Nat) : ( writeMMIO offset value).Sound := by
  apply Exchange.Sound.of_unanswered
  · exact (by decide : 12 ≤ 16)
  · rintro ⟨⟩
  · rintro ⟨⟩
  · rfl
  · rfl
  · rfl
  · intro transId
    have hflags : readDword ((( writeMMIO offset value).cmd transId).drop 12) % 2 = 1 :=
      readDword_mmioReq 1 offset value
    rw [resType, readDword_cmd, hflags]
    rfl

theorem readPCICFG_sound (bus device function offset : Nat) :
    (readPCICFG bus device function offset).Sound := by
  apply Exchange.Sound.of_register
  · exact (by decide : 12 ≤ 16)
  · rintro ⟨⟩
  · rintro ⟨⟩
  · rfl
  · rfl
  · intro transId
    have hflags : readDword (((readPCICFG bus device function offset).cmd transId).drop 12) % 2 = 0 :=
      readDword_pcicfgReq 0 bus device function offset 0
    rw [resType, readDword_cmd, hflags]
    rfl
  · rintro transId r ⟨⟩
    rw [resSize, readDword_cmd]
    exact ⟨rfl, by decide⟩
  · rintro r ⟨⟩
    decide

theorem writePCICFG_sound (bus device function offset value : Nat) :
    (writePCICFG bus device function offset value).Sound := by
  apply Exchange.Sound.of_unanswered
  · exact (by decide : 12 ≤ 16)
  · rintro ⟨⟩
  · rintro ⟨⟩
  · rfl
  · rfl
  · rfl
  · intro transId
    have hflags : readDword (((writePCICFG bus device function offset value).cmd transId).drop 12) % 2 =
        1 := readDword_pcicfgReq 1 bus device function offset value
    rw [resType, readDword_cmd, hflags]
    rfl

theorem writeGTT_sound (offset entry : Nat) : (writeGTT offset entry).Sound := by
  apply Exchange.Sound.of_unanswered
  · exact (by decide : 16 ≤ 16)
  · rintro ⟨⟩
  · rintro ⟨⟩
  · rfl
  · rfl
  · rfl
  · intro transId
    rw [resType, readDword_cmd]
    rfl

section
variable {x : Exchange} {flags address : Nat} {more : List UInt8}

/-- Both forms of a read: the second has 4 more bytes, and an answer with 4 more. -/
theorem Exchange.Sound.of_read {size : Nat} (kind : x.msgType = .readDataReq)
    (hbody : x.body = dword flags ++ dword address ++ dword size ++ more)
    (hmore : more.length = 0 ∨ more.length = 4) (noData : x.data = none)
    (hres : x.response = some (.readDataRes, 12 + more.length)) (hsize : x.size = some size)
    (sized : 0 < size ∧ size < 2 ^ 32) : x.Sound := by
  have hlen : x.body.length = 12 + more.length := by
    rw [hbody]
    simp only [List.length_append, length_dword]
  have htype (transId : Nat) : readDword (x.cmd transId) = 5 := by
    rw [readDword_cmd, kind]
    rfl
  apply Exchange.Sound.of_message
  · omega
  · rw [kind]
    rintro ⟨⟩
  · exact noData
  · intro transId
    rw [TbxMessages.resType, htype, hres]
    rfl
  · intro transId r hr
    obtain rfl := Option.some.inj (hres.symm.trans hr)
    have hbody' : readDword ((x.cmd transId).drop 8) = 12 + more.length := by
      have height : (x.cmd transId).drop 8 = dword x.body.length ++ x.body := rfl
      rw [height, readDword_dword]
      omega
    rw [TbxMessages.resSize, htype]
    show (if readDword ((x.cmd transId).drop 8) = 16 then 16 else 12) = 12 + more.length ∧ _
    rw [hbody']
    constructor
    · split <;> omega
    · show 12 + more.length ≤ 16
      omega
  · intro transId
    have hplace : (x.cmd transId).drop 20 = x.body.drop 8 := rfl
    have hfield : x.body.drop 8 = dword size ++ more := by
      rw [hbody]
      rfl
    rw [TbxMessages.readSize, htype, hplace, hfield, readDword_dword, hsize,
      Nat.mod_eq_of_lt sized.2]
    rfl
  · intro r hr
    obtain rfl := Option.some.inj (hres.symm.trans hr)
    rw [hsize]
    exact ⟨fun _ => rfl, fun _ => rfl⟩
  · intro n hn
    obtain rfl := Option.some.inj (hsize.symm.trans hn)
    exact sized

/-- Both forms of a write. -/
theorem Exchange.Sound.of_write {data : List UInt8} (kind : x.msgType = .writeDataReq)
    (hbody : x.body = dword flags ++ dword address ++ dword data.length ++ more)
    (hmore : more.length ≤ 4) (hdata : x.data = some data) (hres : x.response = none)
    (hsize : x.size = none) (sized : 0 < data.length ∧ data.length < 2 ^ 32) : x.Sound := by
  have htype (transId : Nat) : readDword (x.bytes transId) = 4 := by
    rw [Exchange.bytes, Exchange.cmd, readDword_message, kind]
    rfl
  constructor
  · intro transId
    rw [Exchange.bytes, hdata, Option.getD_some, Exchange.cmd, kind, hbody]
    exact write_delimited (by omega) sized.2
  · rw [hbody]
    simp only [List.length_append, length_dword]
    omega
  · intro d hd
    obtain rfl := Option.some.inj (hdata.symm.trans hd)
    exact sized
  · intro transId
    rw [TbxMessages.resType, htype, hres]
    rfl
  · rw [hres]
    rintro ⟨⟩
  · intro transId r hr
    cases hres.symm.trans hr
  · intro transId
    rw [TbxMessages.readSize, htype, hsize]
    rfl
  · intro r hr
    cases hres.symm.trans hr
  · intro n hn
    cases hsize.symm.trans hn

end

section
variable {config : Config} {isLocalMemory : Bool}

theorem readMemoryExt_sound (addrOffset : Nat) {size : Nat} (sized : 0 < size ∧ size < 2 ^ 32) :
    (readMemoryExt config addrOffset size isLocalMemory).Sound :=
  Exchange.Sound.of_read rfl rfl (Or.inr rfl) rfl rfl rfl sized

theorem readMemory_sound (addrOffset : Nat) {size : Nat} (sized : 0 < size ∧ size < 2 ^ 32) :
    (readMemory config addrOffset size isLocalMemory).Sound := by
  rw [readMemory]
  split
  · exact readMemoryExt_sound addrOffset sized
  · exact Exchange.Sound.of_read rfl (List.append_nil _).symm (Or.inl rfl) rfl rfl rfl sized

theorem writeMemoryExt_sound (physAddr : Nat) {data : List UInt8}
    (sized : 0 < data.length ∧ data.length < 2 ^ 32) :
    (writeMemoryExt config physAddr data isLocalMemory).Sound :=
  Exchange.Sound.of_write rfl rfl (Nat.le_refl 4) rfl rfl rfl sized

theorem writeMemory_sound (physAddr : Nat) {data : List UInt8}
    (sized : 0 < data.length ∧ data.length < 2 ^ 32) :
    (writeMemory config physAddr data isLocalMemory).Sound := by
  rw [writeMemory]
  split
  · exact writeMemoryExt_sound physAddr sized
  · exact Exchange.Sound.of_write rfl (List.append_nil _).symm (Nat.zero_le 4) rfl rfl rfl sized

end

/-- Every function, with a size that fits. -/
theorem exchange_sound (config : Config) (call : Call) (sized : call.Sized) :
    (call.exchange config).Sound := by
  cases call with
  | stillConnected => exact stillConnected_sound
  | readMMIO offset => exact readMMIO_sound offset
  | writeMMIO offset value => exact writeMMIO_sound offset value
  | writePCICFG bus device function offset value =>
    exact writePCICFG_sound bus device function offset value
  | readPCICFG bus device function offset => exact readPCICFG_sound bus device function offset
  | readMemory addrOffset size isLocalMemory => exact readMemory_sound addrOffset (sized size rfl)
  | readMemoryExt addrOffset size isLocalMemory =>
    exact readMemoryExt_sound addrOffset (sized size rfl)
  | writeMemory physAddr data isLocalMemory =>
    exact writeMemory_sound physAddr (sized data.length rfl)
  | writeMemoryExt physAddr data isLocalMemory =>
    exact writeMemoryExt_sound physAddr (sized data.length rfl)
  | writeGTT offset entry => exact writeGTT_sound offset entry

end TbxSockets
