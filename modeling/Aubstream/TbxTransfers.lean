import Aubstream.TbxRequests

/-!
# What is on its way between the threads and the server

The invariant of the socket: where each request and each answer is while a thread sends or
receives, and what one `send` or `recv` changes.
-/

namespace TbxSockets
open AubPackets Framing TbxMessages

/-- Requests that left completely. -/
def Held.whole (x : Exchange) : Held → List (List UInt8)
  | receiving transId _ | receivingData transId _ _ => [x.bytes transId]
  | locked | sending _ _ | sendingData _ _ => []

/-- What left of a request that is not complete. -/
def Held.part (x : Exchange) : Held → List UInt8
  | sending transId totalSent => (x.cmd transId).take totalSent
  | sendingData transId totalSent => x.cmd transId ++ (x.data.getD []).take totalSent
  | locked | receiving _ _ | receivingData _ _ _ => []

def Held.awaits (x : Exchange) : Held → Option (List UInt8 × List UInt8)
  | receiving transId resp => some (x.bytes transId, resp)
  | receivingData transId resp data => some (x.bytes transId, resp ++ data)
  | locked | sending _ _ | sendingData _ _ => none

/-- What is behind the held call. -/
def Held.Ok (x : Exchange) : Held → Prop
  | locked => True
  | sending transId _ | sendingData transId _ => transId < 2 ^ 32
  | receiving transId _ => transId < 2 ^ 32 ∧ x.response.isSome
  | receivingData transId resp _ => transId < 2 ^ 32 ∧
    ∃ r, x.response = some r ∧ resp.length = 12 + r.2

/-- The loop has not ended. -/
def Held.Going (x : Exchange) : Held → Prop
  | locked => True
  | sending transId totalSent => totalSent < (x.cmd transId).length
  | sendingData _ totalSent => totalSent < (x.data.getD []).length
  | receiving _ resp => resp.length < 12 + (x.response.map Prod.snd).getD 0
  | receivingData _ _ data => data.length < x.size.getD 0

section
variable (config : Config)

/-- What left for the call that has the mutex. -/
def State.current (s : State) : List UInt8 :=
  match s.holder with
  | none => []
  | some (_, call, held) => held.left (call.exchange config)

/-- Each call has sent its bytes up to a place, and all of them when it succeeds. -/
structure Returned.Complete (r : Returned) : Prop where
  part : ∃ transId, r.left <+: (r.call.exchange config).bytes transId
  whole : ∀ transId data, r.success = some (transId, data) →
    r.left = (r.call.exchange config).bytes transId

/-- A call that reads has what the server put into the answer to its own request, which is the
server's next after those of the calls before. -/
def Own (served : List (List UInt8 × List UInt8)) (returned : List Returned) : Prop :=
  ∀ before r, before ++ [r] <+: returned → ∀ transId data, r.success = some (transId, data) →
    (r.call.exchange config).response.isSome → served[before.length]? = some (r.left, data)

def State.Flows (server : Server) (s : State) : Prop :=
  let whole := s.returned.map Returned.left
  match s.holder with
  | none => Flow server s.served s.toServer s.toClient whole [] none
  | some (_, call, held) =>
    let x := call.exchange config
    Flow server s.served s.toServer s.toClient (whole ++ held.whole x) (held.part x) (held.awaits x)

/-- No error yet. -/
structure Live (server : Server) (s : State) : Prop where
  socketFailed : s.socketFailed = false
  inErrorState : s.inErrorState = false
  success : ∀ r ∈ s.returned, r.success.isSome
  flows : s.Flows config server

end

/-- After an error no call gets further than its first lines. -/
structure Dead (s : State) : Prop where
  inErrorState : s.inErrorState = true
  holder : ∀ thread call held, s.holder = some (thread, call, held) → held = .locked

/-- Calls with a size that fits, and numbers of 32 bits. -/
structure Sane (config : Config) (s : State) : Prop where
  transId : s.transId < 2 ^ 32
  waiting : ∀ thread w, s.waiting thread = some w →
    w.call.Sized ∧ ∀ transId, w.transId = some transId → transId < 2 ^ 32
  holder : ∀ thread call held, s.holder = some (thread, call, held) →
    call.Sized ∧ held.Ok (call.exchange config)

/-- All that holds also after an error. -/
structure Kept (config : Config) (s : State) : Prop where
  sane : Sane config s
  contiguous : s.sent = s.returned.flatMap Returned.left ++ s.current config
  complete : ∀ r ∈ s.returned, r.Complete config
  own : Own config s.served s.returned

/-- All that holds also between two loops. -/
structure Core (config : Config) (server : Server) (s : State) : Prop where
  kept : Kept config s
  phase : Live config server s ∨ (s.socketFailed = true ∧ Dead s)

structure Inv (config : Config) (server : Server) (s : State) : Prop where
  core : Core config server s
  going : ∀ thread call held, s.holder = some (thread, call, held) →
    held.Going (call.exchange config)

section
variable {config : Config} {server : Server} {s : State} {x : Exchange}

theorem Own.append {served more : List (List UInt8 × List UInt8)} {returned : List Returned}
    (own : Own config served returned) : Own config (served ++ more) returned := by
  intro before r hprefix transId data hsuccess hreads
  have h := own before r hprefix transId data hsuccess hreads
  obtain ⟨hlt, -⟩ := List.getElem?_eq_some_iff.mp h
  rw [List.getElem?_append_left hlt]
  exact h

theorem Own.concat {served : List (List UInt8 × List UInt8)} {returned : List Returned}
    (own : Own config served returned) {r : Returned}
    (new : ∀ transId data, r.success = some (transId, data) →
      (r.call.exchange config).response.isSome → served[returned.length]? = some (r.left, data)) :
    Own config served (returned ++ [r]) := by
  intro before r' hprefix
  rcases List.prefix_concat_iff.mp hprefix with h | h
  · obtain ⟨rfl, hr⟩ := List.append_inj' h rfl
    obtain rfl := List.singleton_inj.mp hr
    exact new
  · exact own before r' h

theorem Held.left_prefix (held : Held) : ∃ transId, held.left x <+: x.bytes transId := by
  cases held with
  | locked => exact ⟨0, List.nil_prefix⟩
  | sending transId totalSent =>
    exact ⟨transId, (List.take_prefix _ _).trans (List.prefix_append _ _)⟩
  | sendingData transId totalSent =>
    exact ⟨transId, (List.prefix_append_right_inj _).mpr (List.take_prefix _ _)⟩
  | receiving transId resp => exact ⟨transId, List.prefix_rfl⟩
  | receivingData transId resp data => exact ⟨transId, List.prefix_rfl⟩

theorem Returned.Complete.nothing (call : Call) : (Returned.mk call [] none).Complete config :=
  ⟨⟨0, List.nil_prefix⟩, by rintro transId data ⟨⟩⟩

/-- A part that is still going is not the whole request. -/
theorem Held.part_incomplete (sound : x.Sound) {held : Held} (going : held.Going x) :
    held.part x = [] ∨ ∃ more, more ≠ [] ∧ Delimited requestSize (held.part x ++ more) := by
  cases held with
  | locked => exact Or.inl rfl
  | sending transId totalSent =>
    right
    refine ⟨(x.cmd transId).drop totalSent ++ x.data.getD [], ?_, ?_⟩
    · apply List.append_ne_nil_of_left_ne_nil
      apply List.ne_nil_of_length_pos
      rw [List.length_drop]
      exact Nat.sub_pos_of_lt going
    · rw [Held.part, ← List.append_assoc, List.take_append_drop]
      exact sound.delimited transId
  | sendingData transId totalSent =>
    right
    refine ⟨(x.data.getD []).drop totalSent, ?_, ?_⟩
    · apply List.ne_nil_of_length_pos
      rw [List.length_drop]
      exact Nat.sub_pos_of_lt going
    · rw [Held.part, List.append_assoc, List.take_append_drop]
      exact sound.delimited transId
  | receiving transId resp => exact Or.inl rfl
  | receivingData transId resp data => exact Or.inl rfl

end

/-- The state after an error of the socket. -/
def State.fail (s : State) (call : Call) (left : List UInt8) : State :=
  { s with inErrorState := true, socketFailed := true }.leave call left none

section
variable {config : Config} {s s' : State} {thread : Nat} {call : Call} {x : Exchange} {bytes : Int}

/-- What a transfer did: nothing else than an error is taken for one. -/
theorem returns_cases {size total available : Nat} (more : total < size) (small : size < 2 ^ 32)
    (fits : config.platform = .windows → bytes ≠ 10054)
    (possible : Returns config.platform (asked size total) available bytes) :
    (Fails (asked size total) bytes ∧ takenForError config.platform bytes = true ∧
      bytes.toNat = 0) ∨
    (¬ Fails (asked size total) bytes ∧ takenForError config.platform bytes = false ∧
      0 < bytes.toNat ∧ bytes.toNat ≤ available ∧ total + bytes.toNat ≤ size) := by
  have hne := asked_ne_zero more small
  have htaken := takenForError_iff hne fits
  have hlongest := @longest_le size total config.platform more
  by_cases failed : Fails (asked size total) bytes
  · left
    refine ⟨failed, htaken.mpr failed, ?_⟩
    rcases failed with rfl | ⟨rfl, -⟩
    · rfl
    · rfl
  · right
    have hnot : takenForError config.platform bytes = false :=
      Bool.eq_false_iff.mpr fun h => failed (htaken.mp h)
    rcases possible with h | h | ⟨hpos, hle⟩
    · exact absurd (Or.inl h) failed
    · exact absurd (Or.inr ⟨h, hne⟩) failed
    · refine ⟨failed, hnot, by omega, by omega, by omega⟩

theorem sendPart_cases {buffer : List UInt8} {total : Nat} {held : Nat → Held}
    {next : State → State} (more : total < buffer.length) (small : buffer.length < 2 ^ 32)
    (fits : config.platform = .windows → bytes ≠ 10054)
    (done : s.sendPart config thread call x bytes buffer total held next = some s') :
    s' = s.fail call ((held total).left x) ∨ ∃ k, 0 < k ∧ total + k ≤ buffer.length ∧
      let part := (buffer.drop total).take k
      let moved := { s with sent := s.sent ++ part, toServer := s.toServer ++ part }
      s' = if total + k < buffer.length then
        { moved with holder := some (thread, call, held (total + k)) } else next moved := by
  rw [State.sendPart] at done
  split at done
  · cases done
  · rename_i possible
    rcases returns_cases more small fits (not_not.mp possible) with
      ⟨failed, taken, hzero⟩ | ⟨failed, taken, hpos, -, hle⟩
    · left
      rw [if_pos taken, hzero, List.take_zero, decide_eq_true failed] at done
      simp only [List.append_nil, Bool.or_true, Nat.add_zero, Option.some.injEq] at done
      exact done.symm
    · right
      refine ⟨bytes.toNat, hpos, hle, ?_⟩
      rw [if_neg (by rw [taken]; decide), decide_eq_false failed] at done
      simp only [Bool.or_false] at done ⊢
      split at done
      · rename_i hlt
        rw [if_pos hlt]
        exact (Option.some.inj done).symm
      · rename_i hlt
        rw [if_neg hlt]
        exact (Option.some.inj done).symm

theorem recvPart_cases {transId size : Nat} {received : List UInt8} {held : List UInt8 → Held}
    {next : State → List UInt8 → State} (more : received.length < size) (small : size < 2 ^ 32)
    (fits : config.platform = .windows → bytes ≠ 10054)
    (done : s.recvPart config thread call x bytes transId size received held next = some s') :
    s' = s.fail call (x.bytes transId) ∨
      ∃ k, 0 < k ∧ k ≤ s.toClient.length ∧ received.length + k ≤ size ∧
      let got := received ++ s.toClient.take k
      let moved := { s with toClient := s.toClient.drop k }
      s' = if got.length < size then { moved with holder := some (thread, call, held got) }
        else next moved got := by
  rw [State.recvPart] at done
  split at done
  · cases done
  · rename_i possible
    rcases returns_cases more small fits (not_not.mp possible) with
      ⟨failed, taken, hzero⟩ | ⟨failed, taken, hpos, havail, hle⟩
    · left
      rw [if_pos taken, hzero, List.drop_zero, decide_eq_true failed] at done
      simp only [Bool.or_true, Option.some.injEq] at done
      exact done.symm
    · right
      refine ⟨bytes.toNat, hpos, havail, hle, ?_⟩
      rw [if_neg (by rw [taken]; decide), decide_eq_false failed] at done
      simp only [Bool.or_false] at done ⊢
      split at done
      · rename_i hlt
        rw [if_pos hlt]
        exact (Option.some.inj done).symm
      · rename_i hlt
        rw [if_neg hlt]
        exact (Option.some.inj done).symm

end

section
variable {config : Config} {server : Server} {s s' : State} {thread : Nat} {call : Call} {held : Held}

theorem Core.live (core : Core config server s) (holder : s.holder = some (thread, call, held))
    (other : held ≠ .locked) : Live config server s := by
  rcases core.phase with live | ⟨-, dead⟩
  · exact live
  · exact absurd (dead.holder thread call held holder) other

theorem Kept.current (kept : Kept config s) (holder : s.holder = some (thread, call, held)) :
    s.sent = s.returned.flatMap Returned.left ++ held.left (call.exchange config) := by
  have h := kept.contiguous
  rw [State.current, holder] at h
  exact h

theorem Live.flow (live : Live config server s) (holder : s.holder = some (thread, call, held)) :
    Flow server s.served s.toServer s.toClient
      (s.returned.map Returned.left ++ held.whole (call.exchange config))
      (held.part (call.exchange config)) (held.awaits (call.exchange config)) := by
  have h := live.flows
  rw [State.Flows, holder] at h
  exact h

/-- A call returns. -/
theorem Kept.leave (kept : Kept config s) (holder : s.holder = some (thread, call, held))
    {left : List UInt8} (hleft : held.left (call.exchange config) = left)
    {success : Option (Nat × List UInt8)}
    (whole : ∀ transId data, success = some (transId, data) →
      left = (call.exchange config).bytes transId)
    (own : ∀ transId data, success = some (transId, data) → (call.exchange config).response.isSome →
      s.served[s.returned.length]? = some (left, data)) :
    Kept config (s.leave call left success) := by
  subst hleft
  constructor
  · exact ⟨kept.sane.transId, kept.sane.waiting, by rintro thread call held ⟨⟩⟩
  · show s.sent = (s.returned ++ [_]).flatMap Returned.left ++ []
    rw [kept.current holder, List.flatMap_append, List.flatMap_singleton, List.append_nil]
  · exact List.forall_mem_append.mpr
      ⟨kept.complete, List.forall_mem_singleton.mpr ⟨held.left_prefix, whole⟩⟩
  · exact kept.own.concat own

theorem State.leave_going {left : List UInt8} {success : Option (Nat × List UInt8)} :
    ∀ thread call' held, (s.leave call left success).holder = some (thread, call', held) →
      held.Going (call'.exchange config) := by
  rintro thread call' held ⟨⟩

theorem fail_inv (core : Core config server s) (holder : s.holder = some (thread, call, held))
    {left : List UInt8} (hleft : held.left (call.exchange config) = left) :
    Inv config server (s.fail call left) := by
  have kept : Kept config { s with inErrorState := true, socketFailed := true } :=
    ⟨⟨core.kept.sane.transId, core.kept.sane.waiting, core.kept.sane.holder⟩,
      core.kept.contiguous, core.kept.complete, core.kept.own⟩
  have kept' : Kept config (s.fail call left) := by
    apply kept.leave holder hleft
    · rintro transId data ⟨⟩
    · rintro transId data ⟨⟩
  exact ⟨⟨kept', Or.inr ⟨rfl, rfl, by rintro thread call held ⟨⟩⟩⟩, State.leave_going⟩

/-- A call succeeds. -/
theorem Live.leave (live : Live config server s) {left : List UInt8}
    {success : Nat × List UInt8}
    (flow : Flow server s.served s.toServer s.toClient (s.returned.map Returned.left ++ [left]) []
      none) :
    Live config server (s.leave call left (some success)) := by
  constructor
  · exact live.socketFailed
  · exact live.inErrorState
  · exact List.forall_mem_append.mpr ⟨live.success, List.forall_mem_singleton.mpr rfl⟩
  · show Flow server s.served s.toServer s.toClient ((s.returned ++ [_]).map Returned.left) [] none
    rw [List.map_append]
    exact flow

/-- The thread with the mutex goes on. -/
theorem Core.goOn (core : Core config server s) (live : Live config server s)
    (holder : s.holder = some (thread, call, held)) (held' : Held)
    (ok : held'.Ok (call.exchange config))
    {sent toServer toClient : List UInt8}
    (hsent : sent = s.returned.flatMap Returned.left ++ held'.left (call.exchange config))
    (flow : Flow server s.served toServer toClient
      (s.returned.map Returned.left ++ held'.whole (call.exchange config))
      (held'.part (call.exchange config)) (held'.awaits (call.exchange config))) :
    Core config server { s with
      sent := sent
      toServer := toServer
      toClient := toClient
      holder := some (thread, call, held') } := by
  constructor
  · constructor
    · refine ⟨core.kept.sane.transId, core.kept.sane.waiting, ?_⟩
      rintro thread' call' held'' h
      cases h
      exact ⟨(core.kept.sane.holder thread call held holder).1, ok⟩
    · exact hsent
    · exact core.kept.complete
    · exact core.kept.own
  · exact Or.inl ⟨live.socketFailed, live.inErrorState, live.success, flow⟩

theorem Core.going (core : Core config server s) (holder : s.holder = some (thread, call, held))
    (more : held.Going (call.exchange config)) : Inv config server s := by
  refine ⟨core, ?_⟩
  rintro thread' call' held' h
  cases holder.symm.trans h
  exact more

/-- The request has left. -/
theorem request_inv (core : Core config server s) {transId : Nat}
    (holder : s.holder = some (thread, call, .sending transId
      ((call.exchange config).cmd transId).length)) (sized : call.Sized) :
    Inv config server (s.afterRequest thread call (call.exchange config) transId) := by
  have sound := exchange_sound config call sized
  have live := core.live holder (by rintro ⟨⟩)
  have hsent := core.kept.current holder
  have flow := live.flow holder
  have small : transId < 2 ^ 32 := (core.kept.sane.holder _ _ _ holder).2
  simp only [Held.left, Held.whole, Held.part, Held.awaits, List.take_length, List.append_nil]
    at hsent flow
  cases hdata : (call.exchange config).data with
  | some d =>
    have hnext : s.afterRequest thread call (call.exchange config) transId =
        { s with holder := some (thread, call, .sendingData transId 0) } := by
      rw [State.afterRequest, hdata, Option.isSome_some, if_pos rfl, State.enter,
        live.inErrorState, if_neg (by decide)]
    rw [hnext]
    constructor
    · apply core.goOn live holder (.sendingData transId 0)
      · exact small
      · simp only [Held.left, List.take_zero, List.append_nil]
        exact hsent
      · simp only [Held.whole, Held.part, Held.awaits, List.take_zero, List.append_nil]
        exact flow
    · rintro thread' call' held' h
      cases h
      show 0 < ((call.exchange config).data.getD []).length
      rw [hdata]
      exact (sound.data d hdata).1
  | none =>
    have hbytes : (call.exchange config).bytes transId = (call.exchange config).cmd transId := by
      rw [Exchange.bytes, hdata, Option.getD_none, List.append_nil]
    have delimited := sound.delimited transId
    rw [hbytes] at delimited
    cases hres : (call.exchange config).response with
    | some r =>
      have hnext : s.afterRequest thread call (call.exchange config) transId =
          { s with holder := some (thread, call, .receiving transId []) } := by
        rw [State.afterRequest, hdata, hres, Option.isSome_none, if_neg (by decide),
          Option.isSome_some, if_pos rfl, State.enter, live.inErrorState, if_neg (by decide)]
      rw [hnext]
      constructor
      · apply core.goOn live holder (.receiving transId [])
        · exact ⟨small, by rw [hres]; rfl⟩
        · rw [Held.left, hbytes]
          exact hsent
        · rw [Held.whole, Held.part, Held.awaits, hbytes]
          exact flow.asked delimited
      · rintro thread' call' held' h
        cases h
        show 0 < 12 + _
        omega
    | none =>
      have hnext : s.afterRequest thread call (call.exchange config) transId =
          s.leave call ((call.exchange config).bytes transId) (some (transId, [])) := by
        rw [State.afterRequest, hdata, hres, Option.isSome_none, if_neg (by decide),
          Option.isSome_none, if_neg (by decide)]
      have silent := sound.resType transId
      rw [hres, hbytes] at silent
      rw [hnext]
      refine ⟨⟨?_, Or.inl ?_⟩, State.leave_going⟩
      · apply core.kept.leave holder
        · rw [Held.left, List.take_length, hbytes]
        · rintro transId' data ⟨⟩
          rfl
        · intro transId' data _ hreads
          rw [hres] at hreads
          cases hreads
      · apply live.leave
        rw [hbytes]
        exact flow.written delimited silent


theorem take_grows {α : Type} (l : List α) (n k : Nat) :
    l.take n ++ (l.drop n).take k = l.take (n + k) := List.take_add.symm

theorem send_inv (inv : Inv config server s) {transId total : Nat} {bytes : Int}
    (holder : s.holder = some (thread, call, .sending transId total))
    (fits : config.platform = .windows → bytes ≠ 10054)
    (done : s.transfer config thread call (call.exchange config) bytes (.sending transId total) =
      some s') : Inv config server s' := by
  have sized := (inv.core.kept.sane.holder _ _ _ holder).1
  have sound := exchange_sound config call sized
  have live := inv.core.live holder (by rintro ⟨⟩)
  have going : total < ((call.exchange config).cmd transId).length := inv.going _ _ _ holder
  have small : ((call.exchange config).cmd transId).length < 2 ^ 32 := by
    have hshort := sound.short
    rw [length_cmd]
    omega
  rw [State.transfer] at done
  rcases sendPart_cases going small fits done with rfl | ⟨k, hpos, hle, hnext⟩
  · exact fail_inv inv.core holder rfl
  · have core : Core config server { s with
        sent := s.sent ++ (((call.exchange config).cmd transId).drop total).take k
        toServer := s.toServer ++ (((call.exchange config).cmd transId).drop total).take k
        holder := some (thread, call, .sending transId (total + k)) } := by
      apply inv.core.goOn live holder (.sending transId (total + k))
      · exact (inv.core.kept.sane.holder _ _ _ holder).2
      · rw [inv.core.kept.current holder, List.append_assoc, Held.left, Held.left, take_grows]
      · have flow := (live.flow holder).push ((((call.exchange config).cmd transId).drop total).take k)
        simp only [Held.part, take_grows] at flow
        exact flow
    simp only at hnext
    split at hnext
    · rename_i more
      rw [hnext]
      exact core.going rfl more
    · rw [hnext]
      have hend : total + k = ((call.exchange config).cmd transId).length := by omega
      rw [hend] at core
      exact request_inv core rfl sized

theorem sendData_inv (inv : Inv config server s) {transId total : Nat} {bytes : Int}
    (holder : s.holder = some (thread, call, .sendingData transId total))
    (fits : config.platform = .windows → bytes ≠ 10054)
    (done : s.transfer config thread call (call.exchange config) bytes
      (.sendingData transId total) = some s') : Inv config server s' := by
  have sized := (inv.core.kept.sane.holder _ _ _ holder).1
  have sound := exchange_sound config call sized
  have live := inv.core.live holder (by rintro ⟨⟩)
  have going : total < ((call.exchange config).data.getD []).length := inv.going _ _ _ holder
  have flow := live.flow holder
  obtain ⟨d, hdata⟩ : ∃ d, (call.exchange config).data = some d := by
    cases hdata : (call.exchange config).data with
    | none =>
      rw [hdata] at going
      exact absurd going (Nat.not_lt_zero total)
    | some d => exact ⟨d, rfl⟩
  have small : ((call.exchange config).data.getD []).length < 2 ^ 32 := by
    rw [hdata]
    exact (sound.data d hdata).2
  rw [State.transfer] at done
  rcases sendPart_cases going small fits done with rfl | ⟨k, hpos, hle, hnext⟩
  · exact fail_inv inv.core holder rfl
  · have core : Core config server { s with
        sent := s.sent ++ (((call.exchange config).data.getD []).drop total).take k
        toServer := s.toServer ++ (((call.exchange config).data.getD []).drop total).take k
        holder := some (thread, call, .sendingData transId (total + k)) } := by
      apply inv.core.goOn live holder (.sendingData transId (total + k))
      · exact (inv.core.kept.sane.holder _ _ _ holder).2
      · rw [inv.core.kept.current holder, List.append_assoc, Held.left, Held.left, List.append_assoc,
          take_grows]
      · have flow := flow.push ((((call.exchange config).data.getD []).drop total).take k)
        simp only [Held.part, List.append_assoc, take_grows] at flow
        exact flow
    simp only at hnext
    split at hnext
    · rename_i more
      rw [hnext]
      exact core.going rfl more
    · rw [hnext]
      have hend : total + k = ((call.exchange config).data.getD []).length := by omega
      rw [hend] at core
      have hres : (call.exchange config).response = none := by
        cases hres : (call.exchange config).response with
        | none => rfl
        | some r =>
          have hnone := sound.noData (by rw [hres]; rfl)
          cases hnone.symm.trans hdata
      have silent := sound.resType transId
      rw [hres] at silent
      have live' := core.live rfl (by rintro ⟨⟩)
      have flow' := live'.flow rfl
      simp only [Held.whole, Held.part, Held.awaits, List.take_length, List.append_nil] at flow'
      refine ⟨⟨?_, Or.inl ?_⟩, State.leave_going⟩
      · apply core.kept.leave rfl
        · rw [Held.left, List.take_length]
          rfl
        · rintro transId' data ⟨⟩
          rfl
        · intro transId' data _ hreads
          rw [hres] at hreads
          cases hreads
      · exact live'.leave (flow'.written (sound.delimited transId) silent)


theorem readDword_transId {x : Exchange} {transId : Nat} (small : transId < 2 ^ 32) :
    readDword ((x.bytes transId).drop 4) = transId := by
  rw [Exchange.bytes, Exchange.cmd, drop_four_message, readDword_dword, Nat.mod_eq_of_lt small]

/-- The answer to a request, with its parts. -/
theorem reply_parts {x : Exchange} (sound : x.Sound) {transId : Nat} (small : transId < 2 ^ 32)
    {r : HasMsgType × Nat} (hres : x.response = some r) (before : List (List UInt8)) :
    ∃ res data, server.reply before (x.bytes transId) = message r.1 transId res ++ data ∧
      res.length = r.2 ∧ data.length = x.size.getD 0 ∧
      server.payload before (x.bytes transId) = if r.1 = .readDataRes then data else res := by
  have htype := sound.resType transId
  rw [hres] at htype
  refine ⟨server.res before (x.bytes transId), server.data before (x.bytes transId), ?_, ?_, ?_,
    payload_eq htype⟩
  · rw [reply_eq htype, readDword_transId small]
  · rw [server.length_res]
    exact (sound.resSize transId r hres).1
  · rw [server.length_data]
    exact sound.readSize transId

/-- The place of an answer is that of its call. -/
theorem served_own {served before : List (List UInt8 × List UInt8)} {returned : List Returned}
    {request payload : List UInt8}
    (order : served.map Prod.fst = returned.map Returned.left ++ [request])
    (hserved : served = before ++ [(request, payload)]) :
    served[returned.length]? = some (request, payload) := by
  have hlen := congrArg List.length order
  rw [hserved] at hlen ⊢
  simp only [List.length_map, List.length_append, List.length_singleton] at hlen
  have hplace : returned.length = before.length := by omega
  rw [hplace, List.getElem?_concat_length]

/-- The header and the structure of the answer are there. -/
theorem response_inv (core : Core config server s) {transId : Nat} {resp : List UInt8}
    (holder : s.holder = some (thread, call, .receiving transId resp))
    (full : resp.length = 12 + ((call.exchange config).response.map Prod.snd).getD 0) :
    Inv config server (s.afterResponse thread call (call.exchange config) transId resp) := by
  obtain ⟨sized, small, hsome⟩ := core.kept.sane.holder _ _ _ holder
  have sound := exchange_sound config call sized
  have live := core.live holder (by rintro ⟨⟩)
  have flow := live.flow holder
  obtain ⟨r, hres⟩ := Option.isSome_iff_exists.mp hsome
  rw [hres, Option.map_some, Option.getD_some] at full
  simp only [Held.whole, Held.part, Held.awaits] at flow
  have nonempty : resp ≠ [] := by
    apply List.ne_nil_of_length_pos
    omega
  obtain ⟨order, before, hserved, hreply⟩ := flow.answered nonempty
  obtain ⟨res, data, hparts, hlres, hldata, hpayload⟩ :=
    @reply_parts server _ sound _ small _ hres (before.map Prod.fst)
  rw [hparts] at hreply
  obtain ⟨hresp, hclient⟩ := List.append_inj hreply (by rw [length_message]; omega)
  have hmsgType : readDword resp = r.1.value := by
    have h := @readDword_message r.1 transId res []
    rw [List.append_nil] at h
    rw [hresp, h]
  have hnumber : readDword (resp.drop 4) = transId := by
    have h := @drop_four_message r.1 transId res []
    rw [List.append_nil] at h
    rw [hresp, h, readDword_dword, Nat.mod_eq_of_lt small]
  have hmatch : ¬ (some (readDword resp) ≠ (call.exchange config).response.map (fun r => r.1.value) ∨
      readDword (resp.drop 4) ≠ transId) := by
    rw [hmsgType, hnumber, hres]
    rintro (h | h)
    · exact h rfl
    · exact h rfl
  cases hsize : (call.exchange config).size with
  | some size =>
    have hnext : s.afterResponse thread call (call.exchange config) transId resp =
        { s with holder := some (thread, call, .receivingData transId resp []) } := by
      rw [State.afterResponse, if_neg hmatch, hsize, Option.isSome_some, if_pos rfl, State.enter,
        live.inErrorState, if_neg (by decide)]
    rw [hnext]
    constructor
    · apply core.goOn live holder (.receivingData transId resp [])
      · exact ⟨small, r, hres, full⟩
      · have hsent := core.kept.current holder
        exact hsent
      · rw [Held.whole, Held.part, Held.awaits, List.append_nil]
        exact flow
    · rintro thread' call' held' h
      cases h
      show 0 < (call.exchange config).size.getD 0
      rw [hsize]
      exact (sound.size size hsize).1
  | none =>
    have hnext : s.afterResponse thread call (call.exchange config) transId resp =
        s.leave call ((call.exchange config).bytes transId) (some (transId, resp.drop 12)) := by
      rw [State.afterResponse, if_neg hmatch, hsize, Option.isSome_none, if_neg (by decide)]
    have hother : ¬ r.1 = .readDataRes := by
      rw [sound.reads r hres, hsize]
      decide
    have hempty : s.toClient = [] := by
      rw [hclient]
      apply List.eq_nil_of_length_eq_zero
      rw [hldata, hsize, Option.getD_none]
    have hown := served_own order hserved
    have hbody : resp.drop 12 = res := by
      rw [hresp]
      rfl
    rw [hpayload, if_neg hother, ← hbody] at hown
    rw [hnext]
    refine ⟨⟨?_, Or.inl ?_⟩, State.leave_going⟩
    · apply core.kept.leave holder rfl
      · rintro transId' data' ⟨⟩
        rfl
      · rintro transId' data' ⟨⟩ _
        exact hown
    · exact live.leave (flow.done nonempty hempty)


theorem recv_inv (inv : Inv config server s) {transId : Nat} {resp : List UInt8} {bytes : Int}
    (holder : s.holder = some (thread, call, .receiving transId resp))
    (fits : config.platform = .windows → bytes ≠ 10054)
    (done : s.transfer config thread call (call.exchange config) bytes (.receiving transId resp) =
      some s') : Inv config server s' := by
  obtain ⟨sized, small, hsome⟩ := inv.core.kept.sane.holder _ _ _ holder
  have sound := exchange_sound config call sized
  have live := inv.core.live holder (by rintro ⟨⟩)
  have going := inv.going _ _ _ holder
  have hsent := inv.core.kept.current holder
  obtain ⟨r, hres⟩ := Option.isSome_iff_exists.mp hsome
  have hsize : 12 + ((call.exchange config).response.map Prod.snd).getD 0 < 2 ^ 32 := by
    have hr := (sound.resSize transId r hres).2
    rw [hres, Option.map_some, Option.getD_some]
    omega
  rw [State.transfer] at done
  rcases recvPart_cases going hsize fits done with rfl | ⟨k, hpos, havail, hle, hnext⟩
  · exact fail_inv inv.core holder rfl
  · have core : Core config server { s with
        toClient := s.toClient.drop k
        holder := some (thread, call, .receiving transId (resp ++ s.toClient.take k)) } := by
      apply inv.core.goOn live holder
        (.receiving transId (resp ++ s.toClient.take k))
      · exact ⟨small, hsome⟩
      · exact hsent
      · exact (live.flow holder).received hpos havail
    simp only at hnext
    split at hnext
    · rename_i more
      rw [hnext]
      exact core.going rfl more
    · rename_i more
      rw [hnext]
      apply response_inv core rfl
      rw [List.length_append, List.length_take, Nat.min_eq_left havail] at more ⊢
      omega

theorem recvData_inv (inv : Inv config server s) {transId : Nat} {resp data : List UInt8}
    {bytes : Int} (holder : s.holder = some (thread, call, .receivingData transId resp data))
    (fits : config.platform = .windows → bytes ≠ 10054)
    (done : s.transfer config thread call (call.exchange config) bytes
      (.receivingData transId resp data) = some s') : Inv config server s' := by
  obtain ⟨sized, small, r, hres, hresp⟩ := inv.core.kept.sane.holder _ _ _ holder
  have sound := exchange_sound config call sized
  have live := inv.core.live holder (by rintro ⟨⟩)
  have going : data.length < (call.exchange config).size.getD 0 := inv.going _ _ _ holder
  have hsent := inv.core.kept.current holder
  obtain ⟨size, hsize⟩ : ∃ size, (call.exchange config).size = some size := by
    cases hsize : (call.exchange config).size with
    | none =>
      rw [hsize] at going
      exact absurd going (Nat.not_lt_zero _)
    | some size => exact ⟨size, rfl⟩
  have hfits : (call.exchange config).size.getD 0 < 2 ^ 32 := by
    rw [hsize]
    exact (sound.size size hsize).2
  rw [State.transfer] at done
  rcases recvPart_cases going hfits fits done with rfl | ⟨k, hpos, havail, hle, hnext⟩
  · exact fail_inv inv.core holder rfl
  · have flow := (live.flow holder).received hpos havail
    rw [List.append_assoc] at flow
    have core : Core config server { s with
        toClient := s.toClient.drop k
        holder := some (thread, call, .receivingData transId resp (data ++ s.toClient.take k)) } := by
      apply inv.core.goOn live holder
        (.receivingData transId resp (data ++ s.toClient.take k))
      · exact ⟨small, r, hres, hresp⟩
      · exact hsent
      · exact flow
    simp only at hnext
    split at hnext
    · rename_i more
      rw [hnext]
      exact core.going rfl more
    · rename_i more
      rw [hnext]
      have nonempty : resp ++ (data ++ s.toClient.take k) ≠ [] := by
        apply List.append_ne_nil_of_left_ne_nil
        apply List.ne_nil_of_length_pos
        omega
      obtain ⟨order, before, hserved, hreply⟩ := flow.answered nonempty
      obtain ⟨res, answer, hparts, hlres, hlanswer, hpayload⟩ :=
        @reply_parts server _ sound _ small _ hres (before.map Prod.fst)
      rw [hparts, List.append_assoc] at hreply
      obtain ⟨-, hclient⟩ := List.append_inj hreply (by rw [length_message]; omega)
      have hlen : (data ++ s.toClient.take k).length = answer.length := by
        rw [hlanswer]
        rw [List.length_append, List.length_take, Nat.min_eq_left havail] at more ⊢
        omega
      have hsplit : (data ++ s.toClient.take k) ++ s.toClient.drop k = answer ++ [] := by
        rw [List.append_nil]
        exact hclient
      obtain ⟨hdata, hempty⟩ := List.append_inj hsplit hlen
      have hread : r.1 = .readDataRes := (sound.reads r hres).mpr (by rw [hsize]; rfl)
      have hown := served_own order hserved
      rw [hpayload, if_pos hread, ← hdata] at hown
      have live' := core.live rfl (by rintro ⟨⟩)
      refine ⟨⟨?_, Or.inl ?_⟩, State.leave_going⟩
      · apply core.kept.leave rfl rfl
        · rintro transId' data' ⟨⟩
          rfl
        · rintro transId' data' ⟨⟩ _
          exact hown
      · exact live'.leave (flow.done nonempty hempty)

end

end TbxSockets
