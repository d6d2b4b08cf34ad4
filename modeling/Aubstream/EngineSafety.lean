import Aubstream.EngineInvariant

/-!
# Every batch buffer is run once, in order

Whatever the host submits and however the engine comes along.
-/

namespace RingEngine
open ByteMemory HardwareContext ContextBlocks RingBuffer RingCommands CircularBuffer Framing
open Transitions

section
variable {cs : CommandStreamerHelper} {s s' : System} {done pending : List (List Nat)}

/-- Behind the tail of the engine. -/
theorem Queued.behind (queued : Queued cs s done pending) (inv : Inv cs s) (free : s.waiting = none)
    {gfxAddress : Nat} (fits : s.hw.context.ringTail + sizeCommands cs s gfxAddress < ringSize)
    (room : s.engine.tail < s.engine.head →
      s.hw.context.ringTail + sizeCommands cs s gfxAddress < 4 * s.engine.head) :
    Base cs s s.engine.head done pending := by
  have ringTail := inv.ringTail free
  have head_lt := inv.head_lt
  have tail := queued.tail
  have short := queued.short
  have there : s.hw.context.ringTail / 4 = s.engine.tail := by omega
  rw [sizeCommands_eq] at fits room
  unfold ringSize at fits
  constructor
  · exact head_lt
  · exact queued.delimited
  · exact queued.executed
  · exact queued.segment
  · rw [there]
    exact tail
  · intro i inside
    rw [there]
    rcases queued.place head_lt inside with ⟨-, -, below⟩ | ⟨lap, above | below⟩
    · exact Or.inl below
    · have ahead := room lap
      omega
    · exact Or.inl below
  · unfold ringDwords at *
    omega
  · exact queued.programs
  · rw [there]
    intro lap
    exact inv.zeros (by omega)

/-- Where the engine has its head set. -/
theorem Queued.restarted (queued : Queued cs s done []) {gfxAddress : Nat}
    (fits : s.hw.context.ringTail + sizeCommands cs s gfxAddress < ringSize) :
    Base cs s (s.hw.context.ringTail / 4) done [] := by
  rw [sizeCommands_eq] at fits
  unfold ringSize at fits
  have inside : s.hw.context.ringTail / 4 < ringDwords := by
    unfold ringDwords
    omega
  constructor
  · exact inside
  · exact queued.delimited
  · exact queued.executed
  · exact segment_nil
  · exact Nat.mod_eq_of_lt inside
  · intro i none
    exact absurd none (Nat.not_lt_zero i)
  · show 0 + _ < ringDwords
    unfold ringDwords
    omega
  · exact queued.programs
  · intro lap
    omega

theorem flatten_noops (n : Nat) : (List.replicate n [0]).flatten = List.replicate n 0 := by
  induction n with
  | zero => rfl
  | succ n ih => rw [List.replicate_succ, List.flatten_cons, ih, List.replicate_succ]; rfl

theorem effects_noops (n : Nat) : effects ((List.replicate n [0]).map decode) = [] := by
  rw [List.map_replicate]
  apply List.filter_eq_nil_iff.mpr
  intro c mem
  rw [List.eq_of_mem_replicate mem]
  decide

/-- At the start of the ring, behind the NOOPs that fill it up. -/
theorem Queued.wrapped (queued : Queued cs s done pending) (whole : FlushesWhole cs) (inv : Inv cs s)
    {w : Nat × Bool} (waiting : s.waiting = some w) (padding : pending = [] ∨ pending = [[0]]) :
    Base cs s s.engine.head done (pending ++ List.replicate (ringDwords - s.engine.tail) [0]) := by
  obtain ⟨ringTail, zeros, full, -⟩ := inv.wrapped w waiting
  have head_lt := inv.head_lt
  have tail := queued.tail
  have tail_lt := queued.tail_lt
  have few := commandDwords_le whole
  have short : pending.flatten.length ≤ 1 := by
    rcases padding with rfl | rfl
    · exact Nat.zero_le 1
    · exact Nat.le_refl 1
  have length : (pending ++ List.replicate (ringDwords - s.engine.tail) [0]).flatten.length =
      pending.flatten.length + (ringDwords - s.engine.tail) := by
    rw [List.flatten_append, List.length_append, flatten_noops, List.length_replicate]
  have start : s.hw.context.ringTail / 4 = 0 := by rw [ringTail]
  constructor
  · exact head_lt
  · refine List.forall_mem_append.mpr ⟨queued.delimited, fun f mem => ?_⟩
    rw [List.eq_of_mem_replicate mem]
    exact ⟨List.cons_ne_nil _ _, fun _ => rfl⟩
  · exact queued.executed
  · rw [List.flatten_append, flatten_noops]
    refine queued.segment.append fun i x known => ?_
    obtain ⟨inside, rfl⟩ : i < ringDwords - s.engine.tail ∧ 0 = x := by
      rw [List.getElem?_replicate] at known
      split at known
      · exact ⟨‹_›, Option.some.inj known⟩
      · cases known
    rw [← Nat.mod_add_mod, tail, Nat.mod_eq_of_lt (by omega)]
    exact zeros _ (Nat.le_add_right _ _) (by omega)
  · rw [length, start]
    unfold ringDwords at *
    omega
  · rw [length, start]
    intro i inside
    right
    unfold ringDwords at *
    omega
  · rw [length]
    unfold ringDwords at *
    omega
  · rw [← List.append_assoc, List.map_append, effects_append, effects_noops, List.append_nil]
    exact queued.programs
  · rw [start]
    intro _ i low high
    by_cases behind : s.engine.tail ≤ i
    · exact zeros i behind high
    · -- the padding of the last submission
      rcases padding with rfl | rfl
      · rw [List.flatten_nil, List.length_nil] at tail
        unfold ringDwords at *
        omega
      · have same : i = s.engine.head := by
          simp only [List.flatten_cons, List.flatten_nil, List.append_nil, List.length_singleton] at tail
          unfold ringDwords at *
          omega
        rw [same]
        exact queued.segment.first head_lt

/-- A submission fits into a ring that has just been filled up. -/
theorem sizeCommands_lt (cs : CommandStreamerHelper) (s : System) (gfxAddress : Nat) :
    sizeCommands cs s gfxAddress < ringSize := by
  rw [sizeCommands_eq]
  exact cs.shorter

theorem step_inv (whole : FlushesWhole cs) (inv : Inv cs s) {op : Op} (allowed : Allowed cs s op)
    (next : step cs s op = some s') : Inv cs s' := by
  obtain ⟨done, pending, queued⟩ := inv.queued
  cases op with
  | submitBatchBuffer gfxAddress overrideRingHead =>
    obtain ⟨few, room⟩ := allowed
    rw [step] at next
    split at next
    · cases next
    · rename_i free
      replace free : s.waiting = none := Option.not_isSome_iff_eq_none.mp free
      split at next
      · rename_i full
        obtain rfl := Option.some.inj next
        exact wrap_inv inv free few full
      · rename_i fits
        replace fits := Nat.lt_of_not_le fits
        have room := room fits
        cases overrideRingHead with
        | true =>
          obtain rfl := (queued.idle inv.head_lt).mp room
          exact finish_inv whole inv (queued.restarted fits) fits rfl next
        | false => exact finish_inv whole inv (queued.behind inv free fits room) fits rfl next
  | poll =>
    obtain ⟨⟨gfxAddress, overrideRingHead⟩, waiting, next⟩ := Option.bind_eq_some_iff.mp next
    dsimp only at next
    split at next
    · rename_i passed
      have padding := polled_pending inv queued waiting passed
      have fits : s.hw.context.ringTail + sizeCommands cs s gfxAddress < ringSize := by
        rw [(inv.wrapped _ waiting).1, Nat.zero_add]
        exact sizeCommands_lt cs s gfxAddress
      cases overrideRingHead with
      | true =>
        obtain rfl := (queued.idle inv.head_lt).mp (allowed gfxAddress waiting)
        exact finish_inv whole inv (queued.restarted fits) fits rfl next
      | false => exact finish_inv whole inv (queued.wrapped whole inv waiting padding) fits rfl next
    · cases next
  | execute => exact execute_inv inv next

end

section
variable {cs : CommandStreamerHelper}

/-- The fence of a new context is apart from its other blocks, and 0. -/
theorem initializeContext_fence {hw : HwState} (released : hw.context.pLRCA = none) :
    FencePlaced cs (initializeContext cs hw).context ∧
      readDword (initializeContext cs hw).memory (initializeContext cs hw).context.ggttContextFence =
        hw.context.contextFenceValue % 2 ^ 32 := by
  obtain ⟨bound, bound'⟩ := cs.sizeLRCA_bounds
  generalize ehwsp : hw.gfxAddressAllocator.alignedAlloc 4096 cs.alignment = hwsp
  obtain ⟨d1, hd1, hfence, hn1⟩ := alignedAlloc_near cs hwsp.2 4096
  generalize efence : hwsp.2.alignedAlloc 4096 cs.alignment = fence at hfence hn1
  obtain ⟨d2, hd2, hring, hn2⟩ := alignedAlloc_near cs fence.2 ringSize
  generalize ering : fence.2.alignedAlloc ringSize cs.alignment = ring at hring hn2
  obtain ⟨d3, hd3, hlrca, hn3⟩ := alignedAlloc_near cs ring.2 cs.sizeLRCA
  generalize elrca : ring.2.alignedAlloc cs.sizeLRCA cs.alignment = lrca at hlrca hn3
  obtain ⟨d4, hd4, hdata, _⟩ := alignedAlloc_near cs lrca.2 sizeRingData
  generalize edata : lrca.2.alignedAlloc sizeRingData cs.alignment = data at hdata
  unfold ringSize at hn2
  have ringApart : Apart ring.1 ringSize fence.1 4 := by
    unfold Apart distance ringSize
    omega
  have lrcaApart : Apart lrca.1 cs.sizeLRCA fence.1 4 := by
    unfold Apart distance
    omega
  have dataApart : Apart data.1 sizeRingData fence.1 4 := by
    unfold Apart distance sizeRingData
    omega
  have small : fence.1 < 2 ^ 32 := by omega
  have written (m : Bytes) : readDword (writeBytes m fence.1 4
      (setDword (fun _ => 0) 0 hw.context.contextFenceValue)) fence.1 =
        hw.context.contextFenceValue % 2 ^ 32 := by
    rw [setDword_mod]
    exact readDword_storeDword m fence.1 (Nat.mod_lt _ (by decide))
  have lrcaFrame (m p : Bytes) : readDword (writeBytes m lrca.1 cs.sizeLRCA p) fence.1 =
      readDword m fence.1 :=
    readDword_congr fun i hi => @writeBytes_apart m lrca.1 _ fence.1 4 0 _ i p lrcaApart (by omega) hi
  have dataFrame (m p : Bytes) : readDword (writeBytes m data.1 sizeRingData p) fence.1 =
      readDword m fence.1 :=
    readDword_congr fun i hi => @writeBytes_apart m data.1 _ fence.1 4 0 _ i p dataApart (by omega) hi
  have notLive : ¬ (none : Option Bytes).isSome = true := by decide
  by_cases enabled : cs.isRingDataEnabled = true
  · simp only [initializeContext, released, ehwsp, efence, ering, elrca, edata, if_neg notLive,
      if_pos enabled]
    refine ⟨⟨ringApart, lrcaApart, fun _ => dataApart, small⟩, ?_⟩
    rw [lrcaFrame, dataFrame, written]
  · simp only [initializeContext, released, ehwsp, efence, ering, elrca, if_neg notLive,
      if_neg enabled]
    refine ⟨⟨ringApart, lrcaApart, fun h => absurd h enabled, small⟩, ?_⟩
    rw [lrcaFrame, written]

theorem start_inv (flags : Nat) (runAlone : Bool) (ppgtt : PageTableRoot)
    (allocator : GfxAddressAllocator) (memory : Bytes) :
    Inv cs (start cs flags runAlone ppgtt allocator memory) := by
  obtain ⟨disciplined, none⟩ := start_disciplined cs flags runAlone ppgtt allocator memory
  have init : Initialized cs ⟨.new flags runAlone ppgtt, allocator, memory, [], 0⟩
      (RingBuffer.start cs flags runAlone ppgtt allocator memory) := initializeContext_initialized rfl
  obtain ⟨placed, fence⟩ := @initializeContext_fence cs
    ⟨.new flags runAlone ppgtt, allocator, memory, [], 0⟩ rfl
  constructor
  · exact disciplined
  · exact init.streamed
  · exact placed
  · show 0 < ringDwords
    decide
  · refine ⟨[], [], ?_, rfl, segment_nil, rfl, by decide, rfl, Or.inl rfl⟩
    intro f mem
    cases mem
  · exact fence
  · exact none
  · rintro lap
    exact absurd lap (Nat.not_lt_zero 0)
  · intro _
    exact init.ringTail
  · rintro w ⟨⟩

end

/-- The engine has executed the first of the programs, all of them when it is idle; the fence counts
what it has finished, and is as expected only when it has finished everything. -/
structure Executes (cs : CommandStreamerHelper) (s : System) : Prop where
  order : ∃ later, effects s.engine.executed ++ later =
    programs cs s.hw.context.ggttContextFence s.submitted ∧ (idle s → later = [])
  fence : getCurrentFence s = s.engine.executed.countP Command.isStore % 2 ^ 32
  complete : getCurrentFence s = s.hw.context.getExpectedFence →
    effects s.engine.executed = programs cs s.hw.context.ggttContextFence s.submitted

theorem Inv.executes {cs : CommandStreamerHelper} {s : System} (inv : Inv cs s) : Executes cs s := by
  obtain ⟨done, pending, queued⟩ := inv.queued
  have programs := queued.programs
  rw [List.map_append, effects_append, ← queued.executed] at programs
  constructor
  · refine ⟨_, programs, fun idle => ?_⟩
    rw [(queued.idle inv.head_lt).mp idle]
    rfl
  · exact inv.fence
  · intro reached
    have counts := congrArg (List.countP Command.isStore) programs
    rw [countP_programs, List.countP_append, countP_effects] at counts
    have few : (effects (pending.map decode)).countP Command.isStore < ringDwords := by
      have le := length_le_flatten queued.delimited
      have short := queued.short
      have all := List.countP_le_length (p := Command.isStore) (l := pending.map decode)
      rw [countP_effects]
      rw [List.length_map] at all
      omega
    have none : (effects (pending.map decode)).countP Command.isStore = 0 := by
      have expected := inv.disciplined.fence
      have submissions := inv.submissions
      rw [HardwareContextImp.getExpectedFence, inv.fence] at reached
      unfold ringDwords at few
      omega
    rw [programs_rest programs none, List.append_nil] at programs
    exact programs

theorem run_executes (cs : CommandStreamerHelper) (whole : FlushesWhole cs) (flags : Nat) (runAlone : Bool)
    (ppgtt : PageTableRoot) (allocator : GfxAddressAllocator) (memory : Bytes) (s : System)
    (reached : Reach (step cs) (Allowed cs) (start cs flags runAlone ppgtt allocator memory) s) :
    Executes cs s := by
  have inv : Inv cs s := reached.invariant (start_inv flags runAlone ppgtt allocator memory)
    fun _ _ _ inv allowed next => step_inv whole inv allowed next
  exact inv.executes

/-- A submission that keeps the head leaves the engine where it is. -/
theorem submitBatchBuffer_head {cs : CommandStreamerHelper} {s s' : System} {gfxAddress : Nat}
    (next : step cs s (.submitBatchBuffer gfxAddress false) = some s') :
    s'.engine.head = s.engine.head := by
  rw [step] at next
  split at next
  · cases next
  · split at next
    · obtain rfl := Option.some.inj next
      rfl
    · obtain ⟨hw, -, rfl⟩ := Option.map_eq_some_iff.mp next
      rfl

def exampleEngine : CommandStreamerHelper := commandStreamerHelperCcs ⟨true, true, false, 0x8000⟩ 0 0

def exampleStart (allocator : GfxAddressAllocator) : System :=
  start exampleEngine 0 false (.pml 0x1000) allocator fun _ => 0

/-- Two submissions, and the commands of both. -/
def twoBatches : List Op :=
  [.submitBatchBuffer 0x10000 false, .submitBatchBuffer 0x20000 false] ++ List.replicate 10 .execute

theorem run_executes_twoBatches :
    ∃ s, runAll (step exampleEngine) (exampleStart ⟨.new 0, rfl⟩) twoBatches = some s ∧
      s.submitted = [0x10000, 0x20000] ∧ idle s ∧ Executes exampleEngine s := by
  have few (s : System) (memoryBased : exampleEngine.memoryBasedPollForCompletion = true) :
      s.submitted.length < 2 ^ 32 := by cases memoryBased
  have allowed : AllAlong (step exampleEngine) (Allowed exampleEngine) (exampleStart ⟨.new 0, rfl⟩)
      twoBatches := by
    refine And.intro ⟨few _, fun _ lap => absurd lap (Nat.not_lt_zero _)⟩ fun s₁ first => ?_
    refine And.intro ⟨few _, fun _ lap => ?_⟩ fun s₂ _ => ?_
    · rw [submitBatchBuffer_head first] at lap
      exact absurd lap (Nat.not_lt_zero _)
    · refine AllAlong.of_forall fun op mem s => ?_
      rw [List.eq_of_mem_replicate mem]
      trivial
  have runs : (runAll (step exampleEngine) (exampleStart ⟨.new 0, rfl⟩) twoBatches).map
      (fun s => (s.submitted, s.engine.head, s.engine.tail)) = some ([0x10000, 0x20000], 44, 44) := by
    decide +kernel
  obtain ⟨s, run, seen⟩ := Option.map_eq_some_iff.mp runs
  obtain ⟨submitted, head, tail⟩ : s.submitted = _ ∧ s.engine.head = _ ∧ s.engine.tail = _ := by
    simpa only [Prod.mk.injEq] using seen
  refine ⟨s, run, submitted, head.trans tail.symm, ?_⟩
  exact run_executes exampleEngine (flushesWhole_pipe _ _ _ _ _ _ _ _ (Or.inl rfl)) 0 false (.pml 0x1000)
    ⟨.new 0, rfl⟩ (fun _ => 0) s (Reach.runAll _ .start allowed run)

end RingEngine
