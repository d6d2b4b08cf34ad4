import Aubstream.EngineRuns

/-!
# The ring between host and engine

Every command in the ring is one that the host has submitted and that the engine
has not executed. No write of the host goes over it but NOOPs over NOOPs.
-/

namespace RingEngine
open ByteMemory HardwareContext ContextBlocks RingBuffer RingCommands CircularBuffer Framing
open Transitions

/-- `pending` lies between head and tail. The last submission ends with a store and its padding. -/
structure Queued (cs : CommandStreamerHelper) (s : System) (done pending : List (List Nat)) : Prop where
  delimited : ∀ f ∈ pending, Delimited commandSize f
  executed : s.engine.executed = done.map decode
  segment : Segment (ringDword s.hw) ringDwords s.engine.head pending.flatten
  tail : (s.engine.head + pending.flatten.length) % ringDwords = s.engine.tail
  short : pending.flatten.length < ringDwords
  programs : effects ((done ++ pending).map decode) =
    programs cs s.hw.context.ggttContextFence s.submitted
  last : done ++ pending = [] ∨ ∃ q f p, done ++ pending = q ++ f :: p ∧
    (decode f).isStore = true ∧ (p = [] ∨ p = [[0]])

structure Inv (cs : CommandStreamerHelper) (s : System) : Prop where
  disciplined : Disciplined cs s.hw
  streamed : Streamed cs s.hw
  fencePlaced : FencePlaced cs s.hw.context
  head_lt : s.engine.head < ringDwords
  queued : ∃ done pending, Queued cs s done pending
  fence : getCurrentFence s = s.engine.executed.countP Command.isStore % 2 ^ 32
  submissions : s.hw.submissions = s.submitted.length
  zeros : s.engine.tail < s.engine.head → ∀ i, s.engine.head ≤ i → i < ringDwords →
    ringDword s.hw i = 0
  ringTail : s.waiting = none → s.hw.context.ringTail = 4 * s.engine.tail
  wrapped : ∀ w, s.waiting = some w → s.hw.context.ringTail = 0 ∧
    (∀ i, s.engine.tail ≤ i → i < ringDwords → ringDword s.hw i = 0) ∧
    ringDwords ≤ s.engine.tail + commandDwords cs.addFlushCommands ∧
    (cs.memoryBasedPollForCompletion = true → s.submitted.length < 2 ^ 32)

section
variable {cs : CommandStreamerHelper} {s s' : System} {done pending : List (List Nat)}

theorem flatten_pos {f : List Nat} (delimited : Delimited commandSize f) (rest : List (List Nat)) :
    0 < (f :: rest).flatten.length := by
  have positive := List.length_pos_iff.mpr delimited.1
  rw [List.flatten_cons, List.length_append]
  omega

theorem length_le_flatten {frames : List (List Nat)}
    (delimited : ∀ f ∈ frames, Delimited commandSize f) : frames.length ≤ frames.flatten.length := by
  induction frames with
  | nil => exact Nat.le_refl 0
  | cons f rest ih =>
    have positive := List.length_pos_iff.mpr (delimited f List.mem_cons_self).1
    have tail := ih fun g mem => delimited g (List.mem_cons_of_mem f mem)
    rw [List.flatten_cons, List.length_append, List.length_cons]
    omega

theorem Queued.tail_lt (queued : Queued cs s done pending) : s.engine.tail < ringDwords := by
  rw [← queued.tail]
  exact Nat.mod_lt _ (by decide)

/-- An idle engine has executed everything. -/
theorem Queued.idle (queued : Queued cs s done pending) (head_lt : s.engine.head < ringDwords) :
    idle s ↔ pending = [] := by
  have tail := queued.tail
  have short := queued.short
  rw [RingEngine.idle]
  unfold ringDwords at *
  constructor
  · intro same
    cases pending with
    | nil => rfl
    | cons f rest =>
      have positive := flatten_pos (queued.delimited f List.mem_cons_self) rest
      omega
  · rintro rfl
    rw [List.flatten_nil, List.length_nil, Nat.add_zero, Nat.mod_eq_of_lt head_lt] at tail
    exact tail

/-- Where the pending commands are. -/
theorem Queued.place (queued : Queued cs s done pending) (head_lt : s.engine.head < ringDwords) {i : Nat}
    (inside : i < pending.flatten.length) :
    (s.engine.head ≤ s.engine.tail ∧ s.engine.head ≤ (s.engine.head + i) % ringDwords ∧
      (s.engine.head + i) % ringDwords < s.engine.tail) ∨
    (s.engine.tail < s.engine.head ∧ (s.engine.head ≤ (s.engine.head + i) % ringDwords ∨
      (s.engine.head + i) % ringDwords < s.engine.tail)) := by
  have tail := queued.tail
  have short := queued.short
  unfold ringDwords at *
  omega

theorem storeDword_frame {m : Bytes} {a b n i value : Nat} (apart : Apart a 4 b n) (hi : i < n) :
    storeDword m a value ((b + i) % 2 ^ 32) = m ((b + i) % 2 ^ 32) := by
  have h := @writeBytes_apart m a 4 b n 0 4 i (setDword (fun _ => 0) 0 value) apart (by decide) hi
  rw [Nat.add_zero] at h
  exact h

/-- A write to the fence. -/
theorem ringDword_store (placed : FencePlaced cs s.hw.context) (value : Nat) {i : Nat}
    (inRing : i < ringDwords) :
    ringDword { s.hw with memory := storeDword s.hw.memory s.hw.context.ggttContextFence value } i =
      ringDword s.hw i := by
  have apart := placed.ring.symm (by decide)
  apply getDword_congr
  intro k low high
  have bound : k < ringSize := by
    unfold ringDwords at inRing
    unfold ringSize
    omega
  exact storeDword_frame apart bound

theorem streamed_store (streamed : Streamed cs s.hw) (placed : FencePlaced cs s.hw.context)
    (value : Nat) : Streamed cs
      { s.hw with memory := storeDword s.hw.memory s.hw.context.ggttContextFence value } := by
  obtain ⟨bound, -⟩ := cs.sizeLRCA_bounds
  rintro h (live | ⟨enabled, live⟩) i hi
  · exact (storeDword_frame (placed.lrca.symm (by omega)) hi).trans
      (streamed _ (IsCopy.lrca live) i hi)
  · exact (storeDword_frame ((placed.data enabled).symm (by decide)) hi).trans
      (streamed _ (IsCopy.ringData enabled live) i hi)

/-- What a command of the programs does: nothing, or to store the next fence. -/
theorem execute_cases {f : List Nat} {rest : List (List Nat)} (inv : Inv cs s)
    (queued : Queued cs s done (f :: rest)) :
    (Command.execute s.hw.memory (decode f) = s.hw.memory ∧ (decode f).isStore = false) ∨
    ∃ value, value = (s.engine.executed.countP Command.isStore + 1) % 2 ^ 32 ∧
      Command.execute s.hw.memory (decode f) =
        storeDword s.hw.memory s.hw.context.ggttContextFence value ∧ (decode f).isStore = true := by
  cases command : decode f with
  | storeDword gfxAddress value =>
    right
    have programs := queued.programs
    rw [List.map_append, effects_append, List.map_cons, command] at programs
    obtain ⟨address, count⟩ := store_programs programs.symm
    rw [countP_effects, ← queued.executed] at count
    rw [Nat.mod_eq_of_lt inv.fencePlaced.small] at address
    exact ⟨value, count, by rw [address]; rfl, rfl⟩
  | _ => exact Or.inl ⟨rfl, rfl⟩

/-- The engine takes the command that comes next. -/
theorem execute_next {f : List Nat} {rest : List (List Nat)} (queued : Queued cs s done (f :: rest))
    (head_lt : s.engine.head < ringDwords) : execute s = some { s with
      hw := { s.hw with memory := Command.execute s.hw.memory (decode f) }
      engine := { s.engine with
        head := (s.engine.head + f.length) % ringDwords
        executed := s.engine.executed ++ [decode f] } } := by
  have delimited := queued.delimited f List.mem_cons_self
  have busy : ¬ s.engine.head = s.engine.tail := by
    intro same
    cases (queued.idle head_lt).mp same
  have size : commandSize [ringDword s.hw s.engine.head] = some f.length := by
    obtain ⟨ne, measured⟩ := delimited
    cases f with
    | nil => exact absurd rfl ne
    | cons header operands =>
      rw [queued.segment.first head_lt, ← measured []]
      rfl
  rw [execute, if_neg busy, size, Option.map_some, queued.segment.fetch]

theorem execute_inv (inv : Inv cs s) (next : execute s = some s') : Inv cs s' := by
  obtain ⟨done, pending, queued⟩ := inv.queued
  cases pending with
  | nil =>
    have idle : s.engine.head = s.engine.tail := (queued.idle inv.head_lt).mpr rfl
    rw [execute, if_pos idle] at next
    cases next
  | cons f rest =>
    rw [execute_next queued inv.head_lt] at next
    obtain rfl := Option.some.inj next
    have segment := queued.segment
    have tail := queued.tail
    have short := queued.short
    have positive := List.length_pos_iff.mpr (queued.delimited f List.mem_cons_self).1
    rw [List.flatten_cons] at segment
    rw [List.flatten_cons, List.length_append] at tail short
    have tail_lt := queued.tail_lt
    -- the ring is what it was
    have ring (i : Nat) (hi : i < ringDwords) :
        ringDword { s.hw with memory := Command.execute s.hw.memory (decode f) } i =
          ringDword s.hw i := by
      rcases execute_cases inv queued with ⟨same, -⟩ | ⟨value, -, store, -⟩
      · rw [same]
      · rw [store]
        exact ringDword_store inv.fencePlaced value hi
    constructor
    · obtain ⟨ready, placed, tail_lt, aligned, tail_ge, fence, log⟩ := inv.disciplined
      exact ⟨ready, placed, tail_lt, aligned, tail_ge, fence, log⟩
    · rcases execute_cases inv queued with ⟨same, -⟩ | ⟨value, -, store, -⟩
      · rw [same]
        exact inv.streamed
      · rw [store]
        exact streamed_store inv.streamed inv.fencePlaced value
    · exact inv.fencePlaced
    · exact Nat.mod_lt _ (by decide)
    · refine ⟨done ++ [f], rest, ?_, ?_, ?_, ?_, ?_, ?_, ?_⟩
      · exact fun g mem => queued.delimited g (List.mem_cons_of_mem f mem)
      · rw [List.map_append, ← queued.executed]
        rfl
      · refine Segment.congr segment.right.wrap fun i _ => ring _ (Nat.mod_lt _ (by decide))
      · show ((s.engine.head + f.length) % ringDwords + rest.flatten.length) % ringDwords = s.engine.tail
        rw [Nat.mod_add_mod, Nat.add_assoc]
        exact tail
      · omega
      · rw [List.append_assoc]
        exact queued.programs
      · rw [List.append_assoc]
        exact queued.last
    · rw [getCurrentFence, List.countP_append, List.countP_singleton]
      have before := inv.fence
      rw [getCurrentFence] at before
      rcases execute_cases inv queued with ⟨same, none⟩ | ⟨value, count, store, some⟩
      · rw [same, none]
        exact before
      · rw [store, some]
        show readDword (storeDword _ _ _) _ = _
        rw [readDword_storeDword _ _ (count ▸ Nat.mod_lt _ (by decide))]
        exact count
    · exact inv.submissions
    · intro lap i low high
      show ringDword _ i = 0
      rw [ring i high]
      refine inv.zeros ?_ i ?_ high
      · show s.engine.tail < s.engine.head
        replace lap : s.engine.tail < (s.engine.head + f.length) % ringDwords := lap
        have head_lt := inv.head_lt
        unfold ringDwords at *
        omega
      · replace lap : s.engine.tail < (s.engine.head + f.length) % ringDwords := lap
        replace low : (s.engine.head + f.length) % ringDwords ≤ i := low
        have head_lt := inv.head_lt
        unfold ringDwords at *
        omega
    · exact inv.ringTail
    · intro w waiting
      obtain ⟨zero, zeros, full, few⟩ := inv.wrapped w waiting
      exact ⟨zero, fun i low high => (ring i high).trans (zeros i low high), full, few⟩

/-- The number of dwords of a submission. -/
theorem sizeCommands_eq (cs : CommandStreamerHelper) (s : System) (gfxAddress : Nat) :
    sizeCommands cs s gfxAddress = 4 * commandDwords cs.addFlushCommands := by
  rw [sizeCommands, ringCommands_length]

theorem commandDwords_le (whole : FlushesWhole cs) : commandDwords cs.addFlushCommands ≤ 22 := by
  rcases whole with flush | ⟨opcode, flushBits, invalidateBits, -, pipe⟩
  · rw [flush]
    decide
  · have dwords : cs.addFlushCommands.length = 12 := by
      rw [pipe]
      rfl
    rw [commandDwords, dwords]

/-- Filling the ring up changes no command that is pending. -/
theorem wrap_inv (inv : Inv cs s) {gfxAddress : Nat} {overrideRingHead : Bool}
    (free : s.waiting = none)
    (few : cs.memoryBasedPollForCompletion = true → s.submitted.length < 2 ^ 32)
    (full : ringSize ≤ s.hw.context.ringTail + sizeCommands cs s gfxAddress) :
    Inv cs { s with
      hw := wrapRing cs (sizeCommands cs s gfxAddress) s.hw
      waiting := some (gfxAddress, overrideRingHead) } := by
  obtain ⟨done, pending, queued⟩ := inv.queued
  have ringTail := inv.ringTail free
  have tail_lt := inv.disciplined.tail_lt
  have size := sizeCommands_eq cs s gfxAddress
  have zero : (wrapRing cs (sizeCommands cs s gfxAddress) s.hw).context.ringTail = 0 := by
    rw [wrapRing_ringTail, if_pos full]
  have blocks := wrapRing_blocks cs s.hw (sizeCommands cs s gfxAddress)
  have ggttRing := wrapRing_ggttRing cs s.hw (sizeCommands cs s gfxAddress)
  have fence : (wrapRing cs (sizeCommands cs s gfxAddress) s.hw).context.ggttContextFence =
      s.hw.context.ggttContextFence := by
    rw [wrapRing]
    split <;> rfl
  have noop (i : Nat) (low : s.engine.tail ≤ i) (high : i < ringDwords) :
      ringDword (wrapRing cs (sizeCommands cs s gfxAddress) s.hw) i = 0 := by
    unfold ringDwords at high
    unfold ringSize at full
    have byte (k : Nat) (hk : k < 4) :
        ringByte (wrapRing cs (sizeCommands cs s gfxAddress) s.hw) (4 * i + k) = 0 := by
      rw [wrapRing_ringByte tail_lt _ (by unfold ringSize; omega),
        if_pos ⟨by unfold ringSize; omega, by omega⟩]
    have first : ringByte (wrapRing cs (sizeCommands cs s gfxAddress) s.hw) (4 * i) = 0 :=
      byte 0 (by decide)
    simp only [ringDword, getDword, first, byte 1 (by decide), byte 2 (by decide), byte 3 (by decide),
      Nat.mul_zero, Nat.add_zero]
  have kept (i : Nat) (below : i < s.engine.tail) :
      ringDword (wrapRing cs (sizeCommands cs s gfxAddress) s.hw) i = ringDword s.hw i := by
    apply getDword_congr
    intro k low high
    unfold ringSize at tail_lt
    rw [wrapRing_ringByte inv.disciplined.tail_lt _ (by unfold ringSize; omega), if_neg (by omega)]
  constructor
  · obtain ⟨ready, placed, -, -, -, fence, log⟩ := inv.disciplined
    constructor
    · exact wrapRing_ready ready _
    · exact wrapRing_placed placed _
    · rw [zero]
      decide
    · rw [zero]
    · exact Or.inl zero
    · rw [wrapRing_contextFenceValue, wrapRing_submissions]
      exact fence
    · exact wrapRing_log cs log tail_lt _
  · exact wrapRing_streamed inv.streamed inv.disciplined.placed tail_lt _
  · exact inv.fencePlaced.congr ggttRing blocks.1 blocks.2 fence
  · exact inv.head_lt
  · refine ⟨done, pending, queued.delimited, queued.executed, ?_, queued.tail, queued.short, ?_,
      queued.last⟩
    · refine queued.segment.congr fun i inside => ?_
      have high := Nat.mod_lt (s.engine.head + i) (show 0 < ringDwords by decide)
      rcases queued.place inv.head_lt inside with ⟨-, -, below⟩ | ⟨lap, above | below⟩
      · exact kept _ below
      · -- NOOPs that the engine has not passed yet
        show ringDword _ _ = ringDword _ _
        rw [inv.zeros lap _ above high]
        exact noop _ (by omega) high
      · exact kept _ below
    · rw [fence]
      exact queued.programs
  · have same : getCurrentFence { s with
        hw := wrapRing cs (sizeCommands cs s gfxAddress) s.hw
        waiting := some (gfxAddress, overrideRingHead) } = getCurrentFence s := by
      simp only [getCurrentFence, fence]
      exact readDword_congr fun i hi => wrapRing_frame _ tail_lt inv.fencePlaced.ring hi
    rw [same]
    exact inv.fence
  · exact (wrapRing_submissions cs s.hw _).trans inv.submissions
  · intro lap i low high
    exact noop i (Nat.le_of_lt (Nat.lt_of_lt_of_le lap low)) high
  · rintro ⟨⟩
  · rintro w -
    refine ⟨zero, fun i low high => noop i low high, ?_, few⟩
    show ringDwords ≤ s.engine.tail + _
    unfold ringSize at full
    unfold ringDwords
    omega

/-- When the poll has passed, nothing is left but padding. -/
theorem polled_pending (inv : Inv cs s) (queued : Queued cs s done pending) {w : Nat × Bool}
    (waiting : s.waiting = some w) (passed : polled s (pollRequest cs s.hw.context) = true) :
    pending = [] ∨ pending = [[0]] := by
  obtain ⟨-, -, -, few⟩ := inv.wrapped w waiting
  rw [pollRequest] at passed
  split at passed
  · rename_i memoryBased
    have fewer := few memoryBased
    have expected := inv.disciplined.fence
    have passed : s.hw.context.contextFenceValue ≤ getCurrentFence s := of_decide_eq_true passed
    have counts : s.engine.executed.countP Command.isStore +
        (pending.map decode).countP Command.isStore = s.submitted.length := by
      rw [← @countP_programs cs s.hw.context.ggttContextFence, ← queued.programs, countP_effects,
        List.map_append, List.countP_append, queued.executed]
    rw [inv.fence, expected, inv.submissions, Nat.mod_eq_of_lt fewer,
      Nat.mod_eq_of_lt (by omega)] at passed
    have none : (pending.map decode).countP Command.isStore = 0 := by omega
    rcases queued.last with empty | ⟨q, f, p, split, store, padding⟩
    · exact Or.inl (List.append_eq_nil_iff.mp empty).2
    · -- the last store is executed, so only what follows it is pending
      rcases List.append_eq_append_iff.mp split with ⟨more, hq, hrest⟩ | ⟨more, hdone, hpending⟩
      · have mem : f ∈ pending := by
          rw [hrest]
          exact List.mem_append_right _ List.mem_cons_self
        have absent := List.countP_eq_zero.mp none (decode f) (List.mem_map_of_mem mem)
        exact absurd store absent
      · cases more with
        | nil =>
          have mem : f ∈ pending := by
            rw [List.nil_append] at hpending
            rw [← hpending]
            exact List.mem_cons_self
          have absent := List.countP_eq_zero.mp none (decode f) (List.mem_map_of_mem mem)
          exact absurd store absent
        | cons g more =>
          obtain ⟨-, hp⟩ := List.cons.inj hpending
          rcases padding with rfl | rfl
          · exact Or.inl (List.append_eq_nil_iff.mp hp.symm).2
          · cases more with
            | nil => exact Or.inr hp.symm
            | cons h more =>
              obtain ⟨-, rest⟩ := List.cons.inj hp
              exact Or.inl (List.append_eq_nil_iff.mp rest.symm).2
  · exact Or.inl ((queued.idle inv.head_lt).mp (beq_iff_eq.mp passed))

end

/-- What the next submission comes behind: pending commands up to the host's tail, none of them where
the new ones go. -/
structure Base (cs : CommandStreamerHelper) (s : System) (head : Nat) (done base : List (List Nat)) :
    Prop where
  head_lt : head < ringDwords
  delimited : ∀ f ∈ base, Delimited commandSize f
  executed : s.engine.executed = done.map decode
  segment : Segment (ringDword s.hw) ringDwords head base.flatten
  tail : (head + base.flatten.length) % ringDwords = s.hw.context.ringTail / 4
  apart : ∀ i, i < base.flatten.length → (head + i) % ringDwords < s.hw.context.ringTail / 4 ∨
    s.hw.context.ringTail / 4 + commandDwords cs.addFlushCommands ≤ (head + i) % ringDwords
  short : base.flatten.length + commandDwords cs.addFlushCommands < ringDwords
  programs : effects ((done ++ base).map decode) =
    programs cs s.hw.context.ggttContextFence s.submitted
  zeros : s.hw.context.ringTail / 4 + commandDwords cs.addFlushCommands < head →
    ∀ i, head ≤ i → i < ringDwords → ringDword s.hw i = 0

section
variable {cs : CommandStreamerHelper} {s s' : System} {done base : List (List Nat)}

/-- The last commands of a submission are its store and the padding. -/
theorem commandFrames_last (cs : CommandStreamerHelper) (c : HardwareContextImp) (gfxAddress : Nat) :
    ∃ q f p, (commandFrames cs c gfxAddress).map stored = q ++ f :: p ∧
      (decode f).isStore = true ∧ (p = [] ∨ p = [[0]]) := by
  have split : (commandFrames cs c gfxAddress).map stored =
      ([[0x11000001, cs.mmioEngine + 0x2244, cs.getRingContextSaveRestoreCtrlValue],
        [0x18800101, gfxAddress % 2 ^ 32, gfxAddress / 2 ^ 32]] ++ flushFrames cs).map stored ++
      stored (storeFenceValue c.ggttContextFence (wrap32 (c.contextFenceValue + 1))) ::
        (padding cs c gfxAddress).map stored := by
    rw [commandFrames, List.append_assoc, List.map_append]
    rfl
  refine ⟨_, _, _, split, rfl, ?_⟩
  rcases padding_cases cs c gfxAddress with none | one
  · rw [none]
    exact Or.inl rfl
  · rw [one]
    exact Or.inr rfl

theorem finish_inv (whole : FlushesWhole cs) (inv : Inv cs s) {head : Nat} (free : Base cs s head done base)
    {gfxAddress : Nat} {overrideRingHead : Bool}
    (fits : s.hw.context.ringTail + sizeCommands cs s gfxAddress < ringSize)
    (start : head = if overrideRingHead then s.hw.context.ringTail / 4 else s.engine.head)
    (next : finish cs s gfxAddress overrideRingHead = some s') : Inv cs s' := by
  obtain ⟨hw', submits, put⟩ := submitBatchBuffer_put inv.disciplined inv.streamed gfxAddress
    overrideRingHead fits
  rw [finish, submits, Option.map_some] at next
  obtain rfl := Option.some.inj next
  have aligned := inv.disciplined.aligned
  have size := sizeCommands_eq cs s gfxAddress
  have length := ringCommands_length cs s.hw.context gfxAddress
  obtain ⟨ggttRing, ggttLRCA, ringData, fence⟩ := put.blocks
  have tail : loaded cs hw' offsetRingTail / 4 =
      s.hw.context.ringTail / 4 + commandDwords cs.addFlushCommands := by
    rw [put.tail, put.ringTail, length]
    omega
  have head' : (if overrideRingHead then loaded cs hw' offsetRingHead / 4 else s.engine.head) = head := by
    rw [start]
    cases overrideRingHead with
    | true => exact congrArg (· / 4) (put.head rfl)
    | false => rfl
  have flat : ((commandFrames cs s.hw.context gfxAddress).map stored).flatten =
      stored (ringCommands cs s.hw.context gfxAddress) := by
    rw [← commandFrames_flatten whole]
    exact List.map_flatten.symm
  have long : (stored (ringCommands cs s.hw.context gfxAddress)).length =
      commandDwords cs.addFlushCommands := by
    rw [stored, List.length_map, length]
  have inRing : s.hw.context.ringTail / 4 + commandDwords cs.addFlushCommands < ringDwords := by
    rw [size] at fits
    unfold ringSize at fits
    unfold ringDwords
    omega
  have kept (i : Nat) (high : i < ringDwords) (outside : i < s.hw.context.ringTail / 4 ∨
      s.hw.context.ringTail / 4 + commandDwords cs.addFlushCommands ≤ i) :
      ringDword hw' i = ringDword s.hw i := by
    rw [← length] at outside
    exact put.others i high outside
  constructor
  · exact put.disciplined
  · exact put.streamed
  · exact inv.fencePlaced.congr ggttRing ggttLRCA ringData fence
  · show (if overrideRingHead then _ else _) < ringDwords
    rw [head']
    exact free.head_lt
  · refine ⟨done, base ++ (commandFrames cs s.hw.context gfxAddress).map stored, ?_, free.executed, ?_, ?_,
      ?_, ?_, ?_⟩
    · exact List.forall_mem_append.mpr
        ⟨free.delimited, commandFrames_delimited whole s.hw.context gfxAddress⟩
    · show Segment (ringDword hw') ringDwords (if overrideRingHead then _ else _) _
      rw [head', List.flatten_append, flat]
      apply Segment.append
      · exact free.segment.congr fun i inside =>
          kept _ (Nat.mod_lt _ (by decide)) (free.apart i inside)
      · intro i x known
        obtain ⟨below, -⟩ := List.getElem?_eq_some_iff.mp known
        rw [← put.commands i x known, ← Nat.mod_add_mod, free.tail, Nat.mod_eq_of_lt (by omega)]
    · show ((if overrideRingHead then _ else _) + _) % ringDwords = loaded cs hw' offsetRingTail / 4
      rw [head', List.flatten_append, flat, List.length_append, long, tail, ← Nat.add_assoc,
        ← Nat.mod_add_mod, free.tail, Nat.mod_eq_of_lt inRing]
    · rw [List.flatten_append, flat, List.length_append, long]
      exact free.short
    · show _ = RingEngine.programs cs hw'.context.ggttContextFence (s.submitted ++ [gfxAddress])
      have value : wrap32 (s.hw.context.contextFenceValue + 1) = (s.submitted.length + 1) % 2 ^ 32 := by
        rw [inv.disciplined.fence, inv.submissions, wrap32]
        omega
      rw [fence, programs_concat, ← free.programs, ← value, ← effects_commandFrames whole, ← effects_append,
        ← List.map_append, List.append_assoc]
    · right
      obtain ⟨q, f, p, split, store, padding⟩ := commandFrames_last cs s.hw.context gfxAddress
      refine ⟨done ++ base ++ q, f, p, ?_, store, padding⟩
      rw [split]
      simp only [List.append_assoc]
  · show readDword hw'.memory hw'.context.ggttContextFence = _
    rw [fence, submitBatchBuffer_fence inv.fencePlaced inv.disciplined.tail_lt submits]
    exact inv.fence
  · show hw'.submissions = (s.submitted ++ [gfxAddress]).length
    rw [put.submissions, inv.submissions, List.length_append, List.length_singleton]
  · show loaded cs hw' offsetRingTail / 4 < (if overrideRingHead then _ else _) → ∀ i,
      (if overrideRingHead then _ else _) ≤ i → i < ringDwords → ringDword hw' i = 0
    rw [head', tail]
    intro lap i low high
    rw [kept i high (Or.inr (by omega))]
    exact free.zeros lap i low high
  · intro _
    show hw'.context.ringTail = 4 * (loaded cs hw' offsetRingTail / 4)
    rw [tail, put.ringTail, length]
    omega
  · rintro w ⟨⟩

end

end RingEngine
