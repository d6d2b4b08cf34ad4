import Aubstream.TbxSimulator

/-!
# Calls take effect one at a time

Threads share one socket, requests and answers go over it in parts. What the
threads read is what they would read if each call were made on the simulator at
once, in the order in which the calls return.
-/

namespace TbxSimulator
open AubPackets Framing TbxMessages TbxSockets Transitions

/-- What a server has answered is what it says, given the requests before. -/
def Answered (server : Server) (served : List (List UInt8 × List UInt8)) : Prop :=
  ∀ before request said, before ++ [(request, said)] <+: served →
    said = server.payload (before.map Prod.fst) request

/-- A step in which at most `call` returns; it fails unless the socket works on. -/
structure Moves (call : Call) (s s' : State) : Prop where
  served : s'.served = s.served
  returned : s'.returned = s.returned ∨ ∃ r : Returned, r.call = call ∧
    s'.returned = s.returned ++ [r] ∧ (r.success = none ∨ s'.socketFailed = s.socketFailed)

section
variable {config : Config} {server : Server} {s s' : State} {thread : Nat} {call : Call}

theorem Moves.of_same (served : s'.served = s.served) (returned : s'.returned = s.returned) :
    Moves call s s' := ⟨served, Or.inl returned⟩

theorem moves_leave (left : List UInt8) (success : Option (Nat × List UInt8)) :
    Moves call s (s.leave call left success) :=
  ⟨rfl, Or.inr ⟨⟨call, left, success⟩, rfl, rfl, Or.inr rfl⟩⟩

theorem moves_enter (x : Exchange) (held : Held) : Moves call s (s.enter thread call x held) := by
  rw [State.enter]
  split
  · exact moves_leave _ _
  · exact .of_same rfl rfl

theorem moves_afterRequest (x : Exchange) (transId : Nat) :
    Moves call s (s.afterRequest thread call x transId) := by
  rw [State.afterRequest]
  split
  · exact moves_enter x _
  · split
    · exact moves_enter x _
    · exact moves_leave _ _

theorem moves_afterResponse (x : Exchange) (transId : Nat) (resp : List UInt8) :
    Moves call s (s.afterResponse thread call x transId resp) := by
  rw [State.afterResponse]
  split
  · exact moves_leave _ _
  · split
    · exact moves_enter x _
    · exact moves_leave _ _

/-- What fails is taken for an error. -/
theorem taken_of_fails {platform : Platform} {length bytes : Int} (fails : Fails length bytes) :
    takenForError platform bytes = true := by
  rw [takenForError, Bool.or_eq_true, Bool.or_eq_true, beq_iff_eq, beq_iff_eq, beq_iff_eq]
  rcases fails with h | ⟨h, -⟩
  · exact Or.inr h
  · exact Or.inl (Or.inl h)

/-- A part of a transfer, its end as an error or with what comes next. -/
theorem Moves.transfer (length : Int) {bytes : Int} {before after : State}
    (served : before.served = s.served) (returned : before.returned = s.returned)
    (failed : before.socketFailed = (s.socketFailed || decide (Fails length bytes)))
    (works : ¬ takenForError config.platform bytes = true) (h : Moves call before after) :
    Moves call s after := by
  have fine : before.socketFailed = s.socketFailed := by
    have none : ¬ Fails length bytes := fun fails => works (taken_of_fails fails)
    rw [failed, decide_eq_false none, Bool.or_false]
  refine ⟨h.served.trans served, ?_⟩
  rcases h.returned with same | ⟨r, hcall, more, ends⟩
  · exact Or.inl (same.trans returned)
  · exact Or.inr ⟨r, hcall, returned ▸ more, fine ▸ ends⟩

theorem moves_sendPart {x : Exchange} {bytes : Int} {buffer : List UInt8} {total : Nat}
    {held : Nat → Held} {next : State → State} (hnext : ∀ s, Moves call s (next s))
    (done : s.sendPart config thread call x bytes buffer total held next = some s') :
    Moves call s s' := by
  rw [State.sendPart] at done
  split at done
  · cases done
  · dsimp only at done
    split at done
    · obtain rfl := Option.some.inj done
      exact ⟨rfl, Or.inr ⟨_, rfl, rfl, Or.inl rfl⟩⟩
    · rename_i works
      split at done
      · obtain rfl := Option.some.inj done
        exact .of_same rfl rfl
      · obtain rfl := Option.some.inj done
        refine Moves.transfer (asked buffer.length total) ?_ ?_ ?_ works (hnext _) <;> rfl

theorem moves_recvPart {x : Exchange} {bytes : Int} {transId size : Nat} {received : List UInt8}
    {held : List UInt8 → Held} {next : State → List UInt8 → State}
    (hnext : ∀ s data, Moves call s (next s data))
    (done : s.recvPart config thread call x bytes transId size received held next = some s') :
    Moves call s s' := by
  rw [State.recvPart] at done
  split at done
  · cases done
  · dsimp only at done
    split at done
    · obtain rfl := Option.some.inj done
      exact ⟨rfl, Or.inr ⟨_, rfl, rfl, Or.inl rfl⟩⟩
    · rename_i works
      split at done
      · obtain rfl := Option.some.inj done
        exact .of_same rfl rfl
      · obtain rfl := Option.some.inj done
        refine Moves.transfer (asked size received.length) ?_ ?_ ?_ works (hnext _ _) <;> rfl

theorem moves_transfer {x : Exchange} {bytes : Int} {held : Held}
    (done : s.transfer config thread call x bytes held = some s') : Moves call s s' := by
  cases held with
  | locked => cases done
  | sending transId total => exact moves_sendPart (fun _ => moves_afterRequest x transId) done
  | sendingData transId total => exact moves_sendPart (fun _ => moves_leave _ _) done
  | receiving transId received =>
    exact moves_recvPart (fun _ data => moves_afterResponse x transId data) done
  | receivingData transId resp received => exact moves_recvPart (fun _ _ => moves_leave _ _) done

end

/-- The call that an operation can bring to its end. -/
def Ending (s : State) (call : Call) : Op → Prop
  | .call _ c => c = call
  | .lock thread => ∃ transId, s.waiting thread = some ⟨call, transId⟩
  | _ => ∃ thread held, s.holder = some (thread, call, held)

section
variable {config : Config} {server : Server} {s s' : State} {op : Op}

/-- Only the server answers, and at most one call returns in a step. -/
theorem step_moves (done : step config server s op = some s') (other : op ≠ .serve) :
    s'.served = s.served ∧ (s'.returned = s.returned ∨
      ∃ call, Ending s call op ∧ Moves call s s') := by
  cases op with
  | call thread call =>
    rw [step, begin] at done
    split at done
    · cases done
    · split at done
      · obtain rfl := Option.some.inj done
        exact ⟨rfl, Or.inr ⟨call, rfl, rfl, Or.inr ⟨_, rfl, rfl, Or.inl rfl⟩⟩⟩
      · obtain rfl := Option.some.inj done
        exact ⟨rfl, Or.inl rfl⟩
  | number thread =>
    rw [step, number] at done
    split at done
    · split at done
      · obtain rfl := Option.some.inj done
        exact ⟨rfl, Or.inl rfl⟩
      · cases done
    · rename_i holder call _ hholder
      split at done
      · obtain rfl := Option.some.inj done
        have moves := @moves_enter { s with transId := (s.transId + 1) % 2 ^ 32 } thread call
          (call.exchange config) (.sending s.transId 0)
        exact ⟨moves.served, Or.inr ⟨call, ⟨_, _, hholder⟩, moves.served, moves.returned⟩⟩
      · cases done
    · cases done
  | lock thread =>
    rw [step, lock] at done
    split at done
    · rename_i call transId _ waiting
      obtain rfl := Option.some.inj done
      have moves := @moves_enter { s with waiting := Function.update s.waiting thread none } thread
        call (call.exchange config) (.sending transId 0)
      exact ⟨moves.served, Or.inr ⟨call, ⟨_, waiting⟩, moves.served, moves.returned⟩⟩
    · split at done
      · cases done
      · obtain rfl := Option.some.inj done
        exact ⟨rfl, Or.inl rfl⟩
    · cases done
  | transfer bytes =>
    obtain ⟨⟨thread, call, held⟩, holder, done⟩ := Option.bind_eq_some_iff.mp done
    have moves := moves_transfer done
    exact ⟨moves.served, Or.inr ⟨call, ⟨thread, held, holder⟩, moves⟩⟩
  | serve => exact absurd rfl other

theorem Ending.sized (sane : Sane config s) {call : Call} (ending : Ending s call op)
    (allowed : Allowed config s op) : call.Sized := by
  cases op with
  | call thread c => exact (show c = call from ending) ▸ allowed
  | lock thread =>
    obtain ⟨transId, waiting⟩ := ending
    exact (sane.waiting thread _ waiting).1
  | number thread | transfer bytes | serve =>
    obtain ⟨thread, held, holder⟩ := ending
    exact (sane.holder thread call held holder).1

end

section
variable {config : Config} {server : Server} {s s' : State} {op : Op}

/-- Before a read that succeeds, every call has succeeded, and the server has taken just their requests. -/
def Ordered (config : Config) (s : State) : Prop :=
  ∀ before r, before ++ [r] <+: s.returned → r.success.isSome →
    (r.call.exchange config).response.isSome →
    (∀ r ∈ before, r.success.isSome) ∧ before.length < s.served.length ∧
      (s.served.map Prod.fst).take before.length = before.map Returned.left

structure Lined (config : Config) (server : Server) (s : State) : Prop where
  answered : Answered server s.served
  sized : ∀ r ∈ s.returned, r.call.Sized
  ordered : Ordered config s

/-- What the server has taken, and what it will take, are the requests of the calls. -/
theorem Live.requests (live : Live config server s) : ∃ pending more,
    s.served.map Prod.fst ++ pending = s.returned.map Returned.left ++ more := by
  have flows := live.flows
  rw [State.Flows] at flows
  split at flows
  · obtain ⟨pending, order, -⟩ := flows
    exact ⟨pending, [], order.trans (List.append_nil _).symm⟩
  · obtain ⟨pending, order, -⟩ := flows
    exact ⟨pending, _, order⟩

theorem Live.ordered (live : Live config server s) (own : Own config s.served s.returned) :
    Ordered config s := by
  intro before r known success reads
  obtain ⟨⟨transId, data⟩, hsuccess⟩ := Option.isSome_iff_exists.mp success
  have place := own before r known transId data hsuccess reads
  obtain ⟨short, -⟩ := List.getElem?_eq_some_iff.mp place
  obtain ⟨later, hlater⟩ := known
  refine ⟨fun r' mem => live.success r' ?_, short, ?_⟩
  · rw [← hlater]
    exact List.mem_append_left _ (List.mem_append_left _ mem)
  · obtain ⟨pending, more, order⟩ := Live.requests live
    have firsts := congrArg (List.take before.length) order
    rw [← hlater, List.map_append, List.map_append, List.append_assoc, List.append_assoc,
      List.take_left' (List.length_map Returned.left),
      List.take_append_of_le_length (by rw [List.length_map]; omega)] at firsts
    exact firsts

theorem Ordered.of_same (ordered : Ordered config s) (served : s'.served = s.served)
    (returned : s'.returned = s.returned) : Ordered config s' := by
  intro before r known
  rw [served]
  exact ordered before r (returned ▸ known)

/-- A call that fails changes nothing for the others. -/
theorem Ordered.failed (ordered : Ordered config s) {r : Returned} (failed : r.success = none)
    (served : s'.served = s.served) (returned : s'.returned = s.returned ++ [r]) :
    Ordered config s' := by
  intro before r' known success reads
  rw [served]
  rcases List.prefix_concat_iff.mp (returned ▸ known) with h | h
  · obtain ⟨-, hr⟩ := List.append_inj' h rfl
    rw [List.singleton_inj.mp hr, failed] at success
    cases success
  · exact ordered before r' h success reads

theorem Lined.serve (lined : Lined config server s) (done : s.serve server = some s') :
    Lined config server s' := by
  obtain ⟨⟨request, rest⟩, taken, rfl⟩ := Option.map_eq_some_iff.mp done
  constructor
  · intro before request' said known
    rcases List.prefix_concat_iff.mp known with h | h
    · obtain ⟨rfl, hlast⟩ := List.append_inj' h rfl
      obtain ⟨rfl, rfl⟩ := Prod.mk.inj (List.singleton_inj.mp hlast)
      rfl
    · exact lined.answered before request' said h
  · exact lined.sized
  · intro before r known success reads
    obtain ⟨succeeded, short, requests⟩ := lined.ordered before r known success reads
    refine ⟨succeeded, ?_, ?_⟩
    · rw [List.length_append]
      omega
    · rw [List.map_append, List.take_append_of_le_length (by rw [List.length_map]; omega)]
      exact requests

theorem Lined.step (lined : Lined config server s) (inv : Inv config server s)
    (allowed : Allowed config s op) (done : step config server s op = some s') :
    Lined config server s' := by
  by_cases serves : op = .serve
  · subst serves
    exact lined.serve done
  · have inv' := step_inv inv allowed done
    obtain ⟨served, same | ⟨call, ending, moves⟩⟩ := step_moves done serves
    · constructor
      · exact served ▸ lined.answered
      · exact same ▸ lined.sized
      · exact lined.ordered.of_same served same
    · rcases moves.returned with same | ⟨r, rfl, returned, ends⟩
      · constructor
        · exact served ▸ lined.answered
        · exact same ▸ lined.sized
        · exact lined.ordered.of_same served same
      · constructor
        · exact served ▸ lined.answered
        · rw [returned]
          exact List.forall_mem_append.mpr ⟨lined.sized,
            List.forall_mem_singleton.mpr (ending.sized inv.core.kept.sane allowed)⟩
        · rcases inv'.core.phase with live' | ⟨failed', dead'⟩
          · exact Live.ordered live' inv'.core.kept.own
          · -- the socket fails in this step, or has failed before
            have failed : r.success = none := by
              rcases ends with failed | same
              · exact failed
              · rcases inv.core.phase with live | ⟨-, dead⟩
                · rw [failed', live.socketFailed] at same
                  cases same
                · obtain ⟨-, -, later, hlater, silent⟩ := dead_step dead done
                  rw [returned] at hlater
                  rw [← List.append_cancel_left hlater] at silent
                  exact silent r (List.mem_singleton_self r)
            exact lined.ordered.failed failed served returned

theorem lined_start (transId : Nat) : Lined config server (start transId) := by
  constructor
  · intro before request said known
    exact absurd (List.prefix_nil.mp known) (List.concat_ne_nil _ _)
  · intro r mem
    exact absurd mem List.not_mem_nil
  · intro before r known
    exact absurd (List.prefix_nil.mp known) (List.concat_ne_nil _ _)

end

section
variable {config : Config} {m : Machine}

theorem flatten_nil {frames : List (List UInt8)} (delimited : ∀ f ∈ frames, Delimited requestSize f)
    (empty : frames.flatten = []) : frames = [] := by
  cases frames with
  | nil => rfl
  | cons f frames =>
    exact absurd (List.append_eq_nil_iff.mp empty).1 (delimited f List.mem_cons_self).1

theorem after_eq (requests : List (List UInt8)) :
    m.after requests = (requests.map parse).foldl Machine.execute m := by
  rw [Machine.after, List.foldl_map]

theorem perform_eq (calls : List Call) :
    m.perform config calls = (calls.map (request config)).foldl Machine.execute m := by
  rw [Machine.perform, List.foldl_map]

/-- The requests of calls that have succeeded say what these ask for. -/
theorem parse_returned {rs : List Returned} (sized : ∀ r ∈ rs, r.call.Sized)
    (complete : ∀ r ∈ rs, r.Complete config) (succeeded : ∀ r ∈ rs, r.success.isSome) :
    (rs.map Returned.left).map parse = (rs.map Returned.call).map (request config) := by
  rw [List.map_map, List.map_map]
  apply List.map_congr_left
  intro r mem
  obtain ⟨⟨transId, data⟩, hsuccess⟩ := Option.isSome_iff_exists.mp (succeeded r mem)
  rw [Function.comp_apply, (complete r mem).whole transId data hsuccess,
    parse_exchange config (sized r mem)]
  rfl

end

/-- The calls whose requests have left: those that have returned, and one that waits for its answer. -/
def calls (s : State) : List Call := s.returned.map Returned.call ++
  match s.holder with
  | some (_, call, .receiving _ _) | some (_, call, .receivingData _ _ _) => [call]
  | _ => []

/-- Calls that read have what the machine answers after the calls that returned before them, and what
the machine is comes from whole calls in their order. -/
structure Linearized (config : Config) (m : Machine) (s : State) : Prop where
  reads : ∀ before r, before ++ [r] <+: s.returned → ∀ transId data,
    r.success = some (transId, data) → (r.call.exchange config).response.isSome →
    data = (m.perform config (before.map Returned.call)).answer (request config r.call)
  machine : s.socketFailed = false → ∃ done later, done ++ later = calls s ∧
    m.after (s.served.map Prod.fst) = m.perform config done ∧ (s.toServer = [] → later = [])

section
variable {config : Config} {m : Machine} {s : State}

theorem Lined.reads (lined : Lined config (simulator m) s) (kept : Kept config s)
    {before : List Returned} {r : Returned} (known : before ++ [r] <+: s.returned)
    {transId : Nat} {data : List UInt8} (success : r.success = some (transId, data))
    (reads : (r.call.exchange config).response.isSome) :
    data = (m.perform config (before.map Returned.call)).answer (request config r.call) := by
  have mem (r' : Returned) (h : r' ∈ before ++ [r]) : r' ∈ s.returned := known.subset h
  have last := mem r (List.mem_append_right _ (List.mem_singleton_self r))
  have sized := lined.sized r last
  obtain ⟨succeeded, short, requests⟩ :=
    lined.ordered before r known (success ▸ rfl) reads
  have place := kept.own before r known transId data success reads
  have upto : s.served.take before.length ++ [(r.left, data)] <+: s.served := by
    rw [← Option.toList_some, ← place, List.getElem?_eq_getElem short, Option.toList_some,
      ← List.take_succ_eq_append_getElem short]
    exact List.take_prefix _ _
  have said := lined.answered _ _ _ upto
  rw [List.map_take, requests, (kept.complete r last).whole transId data success,
    payload_simulator config m sized reads] at said
  have parsed : (before.map Returned.left).map parse =
      (before.map Returned.call).map (request config) := by
    apply parse_returned
    · exact fun r' h => lined.sized r' (mem r' (List.mem_append_left _ h))
    · exact fun r' h => kept.complete r' (mem r' (List.mem_append_left _ h))
    · exact succeeded
  rw [said, after_eq, parsed, perform_eq]

/-- A request that waits for its answer says what its call asks for. -/
theorem parse_calls (kept : Kept config s) (sized : ∀ r ∈ s.returned, r.call.Sized)
    (live : Live config (simulator m) s) : ∃ pending,
    (s.served.map Prod.fst ++ pending).map parse = (calls s).map (request config) ∧
      (s.toServer = [] → pending = []) := by
  have returned := parse_returned sized kept.complete live.success
  have flows := live.flows
  rw [State.Flows] at flows
  rw [calls, List.map_append, ← returned]
  cases holder : s.holder with
  | none =>
    rw [holder] at flows
    obtain ⟨pending, order, wire, frames, -⟩ := flows
    refine ⟨pending, ?_, fun empty => ?_⟩
    · rw [order]
      exact (List.append_nil _).symm
    · exact flatten_nil frames (List.append_eq_nil_iff.mp (wire.symm.trans empty)).1
  | some p =>
    obtain ⟨thread, call, held⟩ := p
    rw [holder] at flows
    obtain ⟨pending, order, wire, frames, -⟩ := flows
    have callSized := (kept.sane.holder thread call held holder).1
    refine ⟨pending, ?_, fun empty => ?_⟩
    · rw [order, List.map_append]
      congr 1
      cases held with
      | receiving transId resp | receivingData transId resp data =>
        exact congrArg (fun r => [r]) (parse_exchange config callSized transId)
      | locked | sending transId total | sendingData transId total => rfl
    · exact flatten_nil frames (List.append_eq_nil_iff.mp (wire.symm.trans empty)).1

theorem Lined.linearized (lined : Lined config (simulator m) s) (inv : Inv config (simulator m) s) :
    Linearized config m s := by
  constructor
  · intro before r known transId data success reads
    exact lined.reads inv.core.kept known success reads
  · intro works
    rcases inv.core.phase with live | ⟨failed, -⟩
    · obtain ⟨pending, parsed, empty⟩ := parse_calls inv.core.kept lined.sized live
      refine ⟨(calls s).take s.served.length, (calls s).drop s.served.length,
        List.take_append_drop _ _, ?_, fun taken => ?_⟩
      · rw [after_eq, perform_eq, List.map_take, ← parsed, ← List.map_take,
          List.take_left' (List.length_map Prod.fst)]
      · have long := congrArg List.length parsed
        rw [empty taken, List.append_nil] at long
        simp only [List.length_map] at long
        exact List.drop_eq_nil_of_le long.ge
    · rw [works] at failed
      cases failed

end

theorem reach_lined {config : Config} {m : Machine} {transId : Nat} {s : State}
    (reached : Reach (step config (simulator m)) (Allowed config) (start transId) s) :
    Inv config (simulator m) s ∧ Lined config (simulator m) s := by
  apply reached.invariant ⟨start_inv transId, lined_start transId⟩
  rintro s op s' ⟨inv, lined⟩ allowed done
  exact ⟨step_inv inv allowed done, lined.step inv allowed done⟩

/-- Whatever the threads do and however their requests and answers are cut, each read has what it
would have if the calls were made one at a time, in the order in which they return. -/
theorem run_linearized (config : Config) (m : Machine) (transId : Nat) (s : State)
    (reached : Reach (step config (simulator m)) (Allowed config) (start transId) s) :
    Linearized config m s := by
  obtain ⟨inv, lined⟩ := reach_lined reached
  exact lined.linearized inv

/-- One thread writes a register, another reads it while the write is not done. -/
def registerRun : List Op := [.call 1 ( Call.writeMMIO 8 5), .call 2 ( Call.readMMIO 8), .lock 1,
  .number 1, .transfer 20, .transfer 4, .lock 2, .number 2, .transfer 24, .serve, .serve, .transfer 14,
  .transfer 2]

def zeros : Machine := ⟨fun _ => 0, fun _ _ _ _ => 0, fun _ _ => 0⟩

theorem run_linearized_register :
    ∃ s, runAll (step ⟨.linux, false, 0⟩ (simulator zeros)) (start 0) registerRun = some s ∧
      s.returned.map Returned.success = [some (0, []), some (1, [5, 0, 0, 0])] ∧
      Linearized ⟨.linux, false, 0⟩ zeros s := by
  have allowed : ∀ op ∈ registerRun, ∀ s, Allowed ⟨.linux, false, 0⟩ s op := by
    intro op hop s
    cases op with
    | call thread call =>
      simp only [registerRun, List.mem_cons, List.not_mem_nil, or_false, Op.call.injEq,
        reduceCtorEq] at hop
      rcases hop with ⟨-, rfl⟩ | ⟨-, rfl⟩
      · rintro n ⟨⟩
      · rintro n ⟨⟩
    | transfer bytes =>
      rintro ⟨⟩
    | number thread | lock thread | serve => trivial
  exact ⟨_, rfl, rfl, run_linearized _ zeros 0 _
    (Reach.runAll registerRun .start (AllAlong.of_forall allowed) rfl)⟩

end TbxSimulator
