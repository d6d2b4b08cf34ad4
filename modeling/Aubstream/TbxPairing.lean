import Aubstream.TbxTransfers

/-!
# Requests and answers belong together

Whatever the threads do, the server gets whole requests one after the other, and a call
that reads gets the answer to its own. For this no `send` or `recv` may return the number
that stands for a reset connection, and no call may move 0 or 2^32 bytes.
-/

namespace TbxSockets
open AubPackets Framing TbxMessages Transitions

def Allowed (config : Config) (_ : State) : Op → Prop
  | .call _ call => call.Sized
  | .transfer bytes => config.platform = .windows → bytes ≠ 10054
  | _ => True

section
variable (config : Config)

/-- No byte leaves, and what returns has failed. -/
def Silent (s s' : State) : Prop :=
  s'.sent = s.sent ∧ ∃ later, s'.returned = s.returned ++ later ∧ ∀ r ∈ later, r.success = none

/-- The bytes of a request are in one piece, a read has its own answer, and only an error of the socket is
taken for one; from then on nothing is sent and every call fails. -/
structure Paired (server : Server) (s : State) : Prop where
  contiguous : s.sent = s.returned.flatMap Returned.left ++ s.current config
  complete : ∀ r ∈ s.returned, r.Complete config
  own : Own config s.served s.returned
  errors : s.inErrorState = true → s.socketFailed = true
  failures : ∀ r ∈ s.returned, r.success = none → s.socketFailed = true
  silent : s.socketFailed = true → ∀ ops s', runAll (step config server) s ops = some s' →
    Silent s s'
  reports : s.socketFailed = true → s.holder = none → ∀ thread call, s.waiting thread = none →
    ∃ ops s', runAll (step config server) s (.call thread call :: ops) = some s' ∧
      s'.returned = s.returned ++ [⟨call, [], none⟩]

end

section
variable {config : Config} {server : Server} {s s' : State} {thread : Nat} {call : Call}

theorem serve_inv (inv : Inv config server s) (done : s.serve server = some s') :
    Inv config server s' := by
  obtain ⟨⟨request, rest⟩, taken, rfl⟩ := Option.map_eq_some_iff.mp done
  have kept := inv.core.kept
  refine ⟨⟨⟨⟨kept.sane.transId, kept.sane.waiting, kept.sane.holder⟩, kept.contiguous,
    kept.complete, kept.own.append⟩, ?_⟩, inv.going⟩
  rcases inv.core.phase with live | ⟨failed, dead⟩
  · refine Or.inl ⟨live.socketFailed, live.inErrorState, live.success, ?_⟩
    have flows := live.flows
    unfold State.Flows at flows ⊢
    cases holder : s.holder with
    | none =>
      rw [holder] at flows
      exact flows.serve (Or.inl rfl) taken
    | some p =>
      obtain ⟨thread, call, held⟩ := p
      rw [holder] at flows
      have sound := exchange_sound config call (kept.sane.holder _ _ _ holder).1
      exact flows.serve (held.part_incomplete sound (inv.going _ _ _ holder)) taken
  · exact Or.inr ⟨failed, dead.inErrorState, dead.holder⟩

theorem Inv.renumber (inv : Inv config server s) {transId : Nat} (small : transId < 2 ^ 32)
    {waiting : Nat → Option Waiting}
    (sized : ∀ thread w, waiting thread = some w →
      w.call.Sized ∧ ∀ transId, w.transId = some transId → transId < 2 ^ 32) :
    Inv config server { s with transId := transId, waiting := waiting } := by
  have kept := inv.core.kept
  refine ⟨⟨⟨⟨small, sized, kept.sane.holder⟩, kept.contiguous, kept.complete, kept.own⟩, ?_⟩,
    inv.going⟩
  rcases inv.core.phase with live | ⟨failed, dead⟩
  · exact Or.inl ⟨live.socketFailed, live.inErrorState, live.success, live.flows⟩
  · exact Or.inr ⟨failed, dead.inErrorState, dead.holder⟩

theorem waiting_update {waiting : Nat → Option Waiting} {P : Waiting → Prop}
    (all : ∀ thread w, waiting thread = some w → P w) {new : Option Waiting}
    (hnew : ∀ w, new = some w → P w) (th : Nat) :
    ∀ thread w, Function.update waiting th new thread = some w → P w := by
  intro thread w h
  by_cases same : thread = th
  · rw [same, Function.update_self] at h
    exact hnew w h
  · rw [Function.update_of_ne same] at h
    exact all thread w h

theorem begin_inv (inv : Inv config server s) (sized : call.Sized)
    (done : begin config s thread call = some s') : Inv config server s' := by
  have kept := inv.core.kept
  rw [begin] at done
  split at done
  · cases done
  · split at done
    · rename_i failed
      obtain rfl := Option.some.inj done
      have hcurrent : s.sent = (s.returned ++ [Returned.mk call [] none]).flatMap Returned.left ++
          s.current config := by
        rw [List.flatMap_append, List.flatMap_singleton, List.append_nil]
        exact kept.contiguous
      refine ⟨⟨⟨⟨kept.sane.transId, kept.sane.waiting, kept.sane.holder⟩, hcurrent, ?_, ?_⟩, ?_⟩,
        inv.going⟩
      · exact List.forall_mem_append.mpr
          ⟨kept.complete, List.forall_mem_singleton.mpr (Returned.Complete.nothing call)⟩
      · apply kept.own.concat
        rintro transId data ⟨⟩
      · rcases inv.core.phase with live | ⟨hfailed, dead⟩
        · cases live.inErrorState.symm.trans failed.2
        · exact Or.inr ⟨hfailed, dead.inErrorState, dead.holder⟩
    · obtain rfl := Option.some.inj done
      apply inv.renumber kept.sane.transId
      apply waiting_update kept.sane.waiting
      rintro w ⟨⟩
      exact ⟨sized, by rintro transId ⟨⟩⟩

/-- Between two calls, or just locked by this one. -/
def State.Resting (s : State) (thread : Nat) (call : Call) : Prop :=
  s.holder = none ∨ s.holder = some (thread, call, .locked)

theorem Kept.resting (kept : Kept config s) (resting : s.Resting thread call) :
    s.sent = s.returned.flatMap Returned.left := by
  rcases resting with holder | holder
  · have h := kept.contiguous
    rw [State.current, holder, List.append_nil] at h
    exact h
  · have h := kept.current holder
    rw [Held.left, List.append_nil] at h
    exact h

theorem Live.resting (live : Live config server s) (resting : s.Resting thread call) :
    Flow server s.served s.toServer s.toClient (s.returned.map Returned.left) [] none := by
  rcases resting with holder | holder
  · have h := live.flows
    rw [State.Flows, holder] at h
    exact h
  · have h := live.flow holder
    rw [Held.whole, Held.part, Held.awaits, List.append_nil] at h
    exact h

/-- The first `sendWriteData` of a call. -/
theorem enter_inv (inv : Inv config server s) (resting : s.Resting thread call)
    (sized : call.Sized) {transId : Nat} (small : transId < 2 ^ 32) :
    Inv config server (s.enter thread call (call.exchange config) (.sending transId 0)) := by
  have kept := inv.core.kept
  have hsent := kept.resting resting
  have hleft : (Held.sending transId 0).left (call.exchange config) = [] := rfl
  have hpart : (Held.sending transId 0).part (call.exchange config) = [] := rfl
  rcases inv.core.phase with live | ⟨failed, dead⟩
  · have hnext : s.enter thread call (call.exchange config) (.sending transId 0) =
        { s with holder := some (thread, call, .sending transId 0) } := by
      rw [State.enter, live.inErrorState, if_neg (by decide)]
    rw [hnext]
    refine ⟨⟨⟨⟨kept.sane.transId, kept.sane.waiting, ?_⟩, ?_, kept.complete, kept.own⟩, ?_⟩, ?_⟩
    · rintro thread' call' held' h
      cases h
      exact ⟨sized, small⟩
    · simp only [State.current, hleft, List.append_nil]
      exact hsent
    · refine Or.inl ⟨live.socketFailed, live.inErrorState, live.success, ?_⟩
      simp only [State.Flows, hpart, Held.whole, Held.awaits, List.append_nil]
      exact live.resting resting
    · rintro thread' call' held' h
      cases h
      show 0 < ((call.exchange config).cmd transId).length
      rw [length_cmd]
      omega
  · have hnext : s.enter thread call (call.exchange config) (.sending transId 0) =
        s.leave call [] none := by
      rw [State.enter, dead.inErrorState, if_pos rfl, hleft]
    rw [hnext]
    refine ⟨⟨⟨⟨kept.sane.transId, kept.sane.waiting, by rintro thread call held ⟨⟩⟩, ?_, ?_, ?_⟩, ?_⟩,
      State.leave_going⟩
    · show s.sent = (s.returned ++ [_]).flatMap Returned.left ++ []
      rw [List.flatMap_append, List.flatMap_singleton, List.append_nil, List.append_nil]
      exact hsent
    · exact List.forall_mem_append.mpr
        ⟨kept.complete, List.forall_mem_singleton.mpr (Returned.Complete.nothing call)⟩
    · apply kept.own.concat
      rintro transId data ⟨⟩
    · exact Or.inr ⟨failed, dead.inErrorState, by rintro thread call held ⟨⟩⟩


theorem number_inv (inv : Inv config server s) (done : number config s thread = some s') :
    Inv config server s' := by
  have kept := inv.core.kept
  have small : (s.transId + 1) % 2 ^ 32 < 2 ^ 32 := Nat.mod_lt _ (by decide)
  have counted := inv.renumber small kept.sane.waiting
  rw [number] at done
  split at done
  · rename_i call _ waiting
    split at done
    · obtain rfl := Option.some.inj done
      apply inv.renumber small
      apply waiting_update kept.sane.waiting
      rintro w ⟨⟩
      refine ⟨(kept.sane.waiting thread _ waiting).1, ?_⟩
      rintro transId ⟨⟩
      exact kept.sane.transId
    · cases done
  · rename_i holder call _ hholder
    split at done
    · rename_i same
      obtain rfl := Option.some.inj done
      rw [same] at hholder
      exact enter_inv counted (Or.inr hholder) (kept.sane.holder _ _ _ hholder).1 kept.sane.transId
    · cases done
  · cases done

theorem lock_inv (inv : Inv config server s) (done : lock config s thread = some s') :
    Inv config server s' := by
  have kept := inv.core.kept
  have entered := inv.renumber kept.sane.transId
    (@waiting_update _ _ kept.sane.waiting none (by rintro w ⟨⟩) thread)
  rw [lock] at done
  split at done
  · rename_i call transId holder waiting
    obtain rfl := Option.some.inj done
    obtain ⟨sized, small⟩ := kept.sane.waiting thread _ waiting
    exact enter_inv entered (Or.inl holder) sized (small transId rfl)
  · rename_i call holder waiting
    split at done
    · cases done
    · obtain rfl := Option.some.inj done
      obtain ⟨sized, -⟩ := kept.sane.waiting thread _ waiting
      have hcontiguous := kept.contiguous
      rw [State.current, holder] at hcontiguous
      refine ⟨⟨⟨⟨kept.sane.transId, entered.core.kept.sane.waiting, ?_⟩, hcontiguous, kept.complete,
        kept.own⟩, ?_⟩, ?_⟩
      · rintro thread' call' held' h
        cases h
        exact ⟨sized, trivial⟩
      · rcases inv.core.phase with live | ⟨failed, dead⟩
        · refine Or.inl ⟨live.socketFailed, live.inErrorState, live.success, ?_⟩
          have flow := live.resting (Or.inl (holder : s.holder = none) : s.Resting thread call)
          simp only [State.Flows, Held.whole, Held.part, Held.awaits, List.append_nil]
          exact flow
        · refine Or.inr ⟨failed, dead.inErrorState, ?_⟩
          rintro thread' call' held' h
          cases h
          rfl
      · rintro thread' call' held' h
        cases h
        trivial
  · cases done

theorem step_inv (inv : Inv config server s) {op : Op} (allowed : Allowed config s op)
    (done : step config server s op = some s') : Inv config server s' := by
  cases op with
  | call thread call => exact begin_inv inv allowed done
  | number thread => exact number_inv inv done
  | lock thread => exact lock_inv inv done
  | transfer bytes =>
    obtain ⟨⟨thread, call, held⟩, holder, done⟩ := Option.bind_eq_some_iff.mp done
    cases held with
    | locked => cases done
    | sending transId total => exact send_inv inv holder allowed done
    | sendingData transId total => exact sendData_inv inv holder allowed done
    | receiving transId resp => exact recv_inv inv holder allowed done
    | receivingData transId resp data => exact recvData_inv inv holder allowed done
  | serve => exact serve_inv inv done

theorem start_inv (transId : Nat) : Inv config server (start transId) := by
  refine ⟨⟨⟨⟨Nat.mod_lt _ (by decide), ?_, ?_⟩, rfl, ?_, ?_⟩, Or.inl ⟨rfl, rfl, ?_, @flow_nil server⟩⟩, ?_⟩
  · rintro thread w ⟨⟩
  · rintro thread call held ⟨⟩
  · intro r hr
    cases hr
  · intro before r hprefix
    have hlen := hprefix.length_le
    rw [List.length_append, List.length_singleton] at hlen
    exact absurd hlen (Nat.not_succ_le_zero _)
  · intro r hr
    cases hr
  · rintro thread call held ⟨⟩


theorem Silent.refl (s : State) : Silent s s :=
  ⟨rfl, [], (List.append_nil _).symm, fun _ h => absurd h List.not_mem_nil⟩

theorem Silent.trans {s'' : State} (first : Silent s s') (second : Silent s' s'') :
    Silent s s'' := by
  obtain ⟨hsent, later, hreturned, failed⟩ := first
  obtain ⟨hsent', later', hreturned', failed'⟩ := second
  refine ⟨hsent'.trans hsent, later ++ later', ?_, ?_⟩
  · rw [hreturned', hreturned, List.append_assoc]
  · exact List.forall_mem_append.mpr ⟨failed, failed'⟩

theorem Silent.one {r : Returned} (failed : r.success = none) (hsent : s'.sent = s.sent)
    (hreturned : s'.returned = s.returned ++ [r]) : Silent s s' :=
  ⟨hsent, [r], hreturned, List.forall_mem_singleton.mpr failed⟩

/-- `sendWriteData` fails at once. -/
theorem Dead.enter (dead : Dead s) {x : Exchange} {held' : Held} :
    Dead (s.enter thread call x held') ∧ Silent s (s.enter thread call x held') ∧
      (s.enter thread call x held').holder = none := by
  rw [State.enter, if_pos dead.inErrorState]
  exact ⟨⟨dead.inErrorState, by rintro thread call held ⟨⟩⟩, Silent.one rfl rfl rfl, rfl⟩

theorem dead_number (dead : Dead s) (done : number config s thread = some s') :
    Dead s' ∧ Silent s s' := by
  have counted : Dead { s with transId := (s.transId + 1) % 2 ^ 32 } :=
    ⟨dead.inErrorState, dead.holder⟩
  rw [number] at done
  split at done
  · split at done
    · obtain rfl := Option.some.inj done
      exact ⟨⟨dead.inErrorState, dead.holder⟩, Silent.refl s⟩
    · cases done
  · split at done
    · obtain rfl := Option.some.inj done
      obtain ⟨dead', silent, -⟩ := counted.enter
      exact ⟨dead', silent⟩
    · cases done
  · cases done

theorem dead_lock (dead : Dead s) (done : lock config s thread = some s') :
    Dead s' ∧ Silent s s' := by
  have entered : Dead { s with waiting := Function.update s.waiting thread none } :=
    ⟨dead.inErrorState, dead.holder⟩
  rw [lock] at done
  split at done
  · obtain rfl := Option.some.inj done
    obtain ⟨dead', silent, -⟩ := entered.enter
    exact ⟨dead', silent⟩
  · split at done
    · cases done
    · obtain rfl := Option.some.inj done
      refine ⟨⟨dead.inErrorState, ?_⟩, Silent.refl s⟩
      rintro thread call held h
      cases h
      rfl
  · cases done

theorem dead_begin (dead : Dead s) (done : begin config s thread call = some s') :
    Dead s' ∧ Silent s s' := by
  rw [begin] at done
  split at done
  · cases done
  · split at done
    · obtain rfl := Option.some.inj done
      exact ⟨⟨dead.inErrorState, dead.holder⟩, Silent.one rfl rfl rfl⟩
    · obtain rfl := Option.some.inj done
      exact ⟨⟨dead.inErrorState, dead.holder⟩, Silent.refl s⟩

theorem dead_step (dead : Dead s) {op : Op} (done : step config server s op = some s') :
    Dead s' ∧ Silent s s' := by
  cases op with
  | call thread call => exact dead_begin dead done
  | number thread => exact dead_number dead done
  | lock thread => exact dead_lock dead done
  | transfer bytes =>
    obtain ⟨⟨thread, call, held⟩, holder, done⟩ := Option.bind_eq_some_iff.mp done
    rw [dead.holder thread call held holder] at done
    cases done
  | serve =>
    obtain ⟨⟨request, rest⟩, -, rfl⟩ := Option.map_eq_some_iff.mp done
    exact ⟨⟨dead.inErrorState, dead.holder⟩, Silent.refl s⟩

theorem dead_run (dead : Dead s) (ops : List Op) (done : runAll (step config server) s ops = some s') :
    Silent s s' := by
  induction ops generalizing s with
  | nil =>
    obtain rfl := Option.some.inj done
    exact Silent.refl s
  | cons op ops ih =>
    obtain ⟨s₁, first, later⟩ := Option.bind_eq_some_iff.mp done
    obtain ⟨dead₁, silent⟩ := dead_step dead first
    exact silent.trans (ih dead₁ later)


/-- Number, then mutex: the first `sendWriteData` fails. -/
theorem dead_number_lock (dead : Dead s) (holder : s.holder = none)
    (waiting : s.waiting thread = some ⟨call, none⟩)
    (first : (call.exchange config).numbersFirst = true) :
    ∃ s', runAll (step config server) s [.number thread, .lock thread] = some s' ∧
      s'.returned = s.returned ++ [⟨call, [], none⟩] := by
  have hnumber : step config server s (.number thread) = some { s with
      transId := (s.transId + 1) % 2 ^ 32
      waiting := Function.update s.waiting thread (some ⟨call, some s.transId⟩) } := by
    rw [step, number, waiting]
    exact if_pos first
  rw [runAll, hnumber, Option.bind_some, runAll, step, lock]
  simp only [holder, Function.update_self, Option.bind_some, runAll]
  refine ⟨_, rfl, ?_⟩
  simp only [State.enter, dead.inErrorState, if_true]
  rfl

/-- Mutex, then number. -/
theorem dead_lock_number (dead : Dead s) (holder : s.holder = none)
    (waiting : s.waiting thread = some ⟨call, none⟩)
    (later : ¬ (call.exchange config).numbersFirst = true) :
    ∃ s', runAll (step config server) s [.lock thread, .number thread] = some s' ∧
      s'.returned = s.returned ++ [⟨call, [], none⟩] := by
  have hlock : step config server s (.lock thread) = some { s with
      waiting := Function.update s.waiting thread none
      holder := some (thread, call, .locked) } := by
    rw [step, lock, holder, waiting]
    exact if_neg later
  rw [runAll, hlock, Option.bind_some, runAll, step, number]
  simp only [Function.update_self, if_true, Option.bind_some, runAll]
  refine ⟨_, rfl, ?_⟩
  simp only [State.enter, dead.inErrorState, if_true]
  rfl

/-- A call that is made after an error returns, when nothing else goes on. -/
theorem dead_reports (dead : Dead s) (holder : s.holder = none) (idle : s.waiting thread = none) :
    ∃ ops s', runAll (step config server) s (.call thread call :: ops) = some s' ∧
      s'.returned = s.returned ++ [⟨call, [], none⟩] := by
  have hfree : ¬ ((s.waiting thread).isSome ∨ s.holder.map Prod.fst = some thread) := by
    rw [idle, holder]
    rintro (⟨⟨⟩⟩ | ⟨⟨⟩⟩)
  by_cases checks : (call.exchange config).checksError = true
  · refine ⟨[], { s with returned := s.returned ++ [⟨call, [], none⟩] }, ?_, rfl⟩
    rw [runAll, step, begin, if_neg hfree, if_pos ⟨checks, dead.inErrorState⟩]
    rfl
  · have hbegin : step config server s (.call thread call) = some { s with
        waiting := Function.update s.waiting thread (some ⟨call, none⟩) } := by
      rw [step, begin, if_neg hfree, if_neg (fun h => checks h.1)]
    by_cases first : (call.exchange config).numbersFirst = true
    · refine ⟨[.number thread, .lock thread], ?_⟩
      rw [runAll, hbegin, Option.bind_some]
      exact dead_number_lock ⟨dead.inErrorState, dead.holder⟩ holder (Function.update_self _ _ _) first
    · refine ⟨[.lock thread, .number thread], ?_⟩
      rw [runAll, hbegin, Option.bind_some]
      exact dead_lock_number ⟨dead.inErrorState, dead.holder⟩ holder (Function.update_self _ _ _) first


theorem Inv.paired (inv : Inv config server s) : Paired config server s := by
  obtain ⟨⟨kept, phase⟩, -⟩ := inv
  rcases phase with live | ⟨failed, dead⟩
  · constructor
    · exact kept.contiguous
    · exact kept.complete
    · exact kept.own
    · intro h
      cases live.inErrorState.symm.trans h
    · intro r hr hnone
      have h := live.success r hr
      rw [hnone] at h
      cases h
    · intro h
      cases live.socketFailed.symm.trans h
    · intro h
      cases live.socketFailed.symm.trans h
  · constructor
    · exact kept.contiguous
    · exact kept.complete
    · exact kept.own
    · exact fun _ => failed
    · exact fun _ _ _ => failed
    · exact fun _ ops s' done => dead_run dead ops done
    · exact fun _ holder thread call idle => dead_reports dead holder idle

end

/-- In every run whose sizes and transfers fit, requests and answers belong together. -/
theorem run_paired (config : Config) (server : Server) (transId : Nat) (s : State)
    (reached : Reach (step config server) (Allowed config) (start transId) s) :
    Paired config server s :=
  (reached.invariant (start_inv transId) fun _ _ _ inv allowed done =>
    step_inv inv allowed done).paired

/-- Registers hold 7 and memory holds 9. -/
def sevens : Server where
  res _ request := List.replicate (resSize request) 7
  data _ request := List.replicate (readSize request) 9
  length_res _ _ := List.length_replicate
  length_data _ _ := List.length_replicate

/-- A register is read in two parts. -/
def registerRun : List Op := [.call 3 ( Call.readMMIO 4), .lock 3, .number 3, .transfer 24, .serve,
  .transfer 14, .transfer 2]

theorem run_paired_register :
    ∃ s, runAll (step ⟨.windows, false, 0⟩ sevens) (start 0) registerRun = some s ∧
      s.returned.map Returned.success = [some (0, [7, 7, 7, 7])] ∧
      Paired ⟨.windows, false, 0⟩ sevens s := by
  have allowed : ∀ op ∈ registerRun, ∀ s, Allowed ⟨.windows, false, 0⟩ s op := by
    intro op hop s
    simp only [registerRun, List.mem_cons, List.not_mem_nil, or_false] at hop
    rcases hop with rfl | rfl | rfl | rfl | rfl | rfl | rfl
    · rintro n ⟨⟩
    · trivial
    · trivial
    · exact fun _ => by decide
    · trivial
    · exact fun _ => by decide
    · exact fun _ => by decide
  exact ⟨_, rfl, rfl, run_paired _ sevens 0 _
    (Reach.runAll registerRun .start (AllAlong.of_forall allowed) rfl)⟩

section
variable {config : Config} {s : State} {thread : Nat} {call : Call} {x : Exchange}

/-- With winsock, sending just 10054 bytes is taken for a reset connection. -/
theorem sendPart_reset (windows : config.platform = .windows) {buffer : List UInt8} {total : Nat}
    (enough : total + 10054 ≤ buffer.length) (small : buffer.length < 2 ^ 31) (held : Nat → Held)
    (next : State → State) :
    ∃ s', s.sendPart config thread call x 10054 buffer total held next = some s' ∧
      s'.inErrorState = true ∧ s'.socketFailed = s.socketFailed := by
  have possible : Returns config.platform (asked buffer.length total) (buffer.length - total) 10054 := by
    right
    right
    rw [windows, longest]
    rcases @asked_cases buffer.length total (by omega) with ⟨h, -⟩ | ⟨-, -, h⟩ <;> omega
  have fine : ¬ Fails (asked buffer.length total) 10054 := by
    rintro (h | ⟨h, -⟩)
    · cases h
    · cases h
  have taken : takenForError config.platform 10054 = true := by
    rw [windows]
    rfl
  rw [State.sendPart, if_neg (not_not.mpr possible), if_pos taken]
  refine ⟨_, rfl, rfl, ?_⟩
  show (s.socketFailed || decide _) = s.socketFailed
  rw [decide_eq_false fine, Bool.or_false]

theorem step_reset {server : Server} {transId total : Nat} {data : List UInt8}
    (windows : config.platform = .windows) (hdata : (call.exchange config).data = some data)
    (enough : total + 10054 ≤ data.length) (small : data.length < 2 ^ 31)
    (holder : s.holder = some (thread, call, .sendingData transId total)) :
    ∃ s', step config server s (.transfer 10054) = some s' ∧ s'.inErrorState = true ∧
      s'.socketFailed = s.socketFailed := by
  simp only [step, holder, Option.bind_some, State.transfer, hdata, Option.getD_some]
  exact sendPart_reset windows enough small _ _

end

/-- A write of 10054 bytes up to its data. -/
def resetRun : List Op :=
  [.call 0 (.writeMemory 0 (List.replicate 10054 0) false), .number 0, .lock 0, .transfer 24]

/-- The data then leave in one part. -/
theorem not_run_paired : ¬ ∀ (config : Config) (server : Server) (transId : Nat) (s : State),
    Reach (step config server) Any (start transId) s → Paired config server s := by
  intro claim
  let call : Call := .writeMemory 0 (List.replicate 10054 0) false
  obtain ⟨s, reached, holder, fine⟩ :
      ∃ s, Reach (step ⟨.windows, false, 0⟩ sevens) Any (start 0) s ∧
        s.holder = some (0, call, .sendingData 0 0) ∧ s.socketFailed = false :=
    ⟨_, Reach.runAll resetRun .start (AllAlong.of_forall fun _ _ _ => trivial) rfl, rfl, rfl⟩
  have hlen : (List.replicate 10054 (0 : UInt8)).length = 10054 := List.length_replicate
  obtain ⟨s', done, inError, same⟩ :=
    @step_reset ⟨.windows, false, 0⟩ _ _ _ sevens _ _ (List.replicate 10054 0) rfl rfl (by omega) (by omega) holder
  have failed := (claim _ _ _ _ (.step reached trivial done)).errors inError
  rw [same, fine] at failed
  cases failed

end TbxSockets
