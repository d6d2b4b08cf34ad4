import Aubstream.ContextBlocks
import Aubstream.Transitions

/-!
# The ring buffer

All submissions of an engine have the same size. The tail goes up from 0 by that
size until it wraps, and what lies behind the tail was polled for since.
-/

namespace RingBuffer
open ByteMemory HardwareContext ContextBlocks Transitions

inductive Op where
  | submitBatchBuffer (gfxAddress : Nat) (overrideRingHead : Bool)
  | pollForCompletion

def Op.isSubmission : Op → Bool
  | .submitBatchBuffer _ _ => true
  | .pollForCompletion => false

def step (cs : CommandStreamerHelper) (s : HwState) : Op → Option HwState
  | .submitBatchBuffer gfxAddress overrideRingHead =>
    submitBatchBuffer cs gfxAddress overrideRingHead s
  | .pollForCompletion => some (pollForCompletion cs s)

/-- A new context, initialized once. -/
def start (cs : CommandStreamerHelper) (flags : Nat) (runAlone : Bool) (ppgtt : PageTableRoot)
    (allocator : GfxAddressAllocator) (memory : Bytes) : HwState :=
  initializeContext cs ⟨.new flags runAlone ppgtt, allocator, memory, [], 0⟩

def ringByte (s : HwState) (offset : Nat) : Nat := s.memory ((s.context.ggttRing + offset) % 2 ^ 32)

def written : RingEvent → Option (Nat × Nat)
  | .noops _ offset size => some (offset, size)
  | .commands _ offset size => some (offset, size)
  | _ => none

/-- A poll was issued after `e`. Logs have their newest event first. -/
def PolledSince (e : RingEvent) (log : List RingEvent) : Prop :=
  ∃ request newer older, log = newer ++ .poll request :: older ∧ e ∈ older

def Overlap (o n o' n' : Nat) : Prop := o < o' + n' ∧ o' < o + n

/-- The commands of a submission are only overwritten after a poll that came after it, and the
NOOPs in front of a wrap only after a poll that came after them. -/
def NoOverwrite (log : List RingEvent) : Prop :=
  ∀ newer e older, log = newer ++ e :: older → ∀ o n, written e = some (o, n) →
    ∀ k o' n', Overlap o n o' n' →
      (.commands k o' n' ∈ older → PolledSince (.submitted k) older) ∧
      (.noops k o' n' ∈ older → PolledSince (.noops k o' n') older)

theorem PolledSince.cons {e : RingEvent} {log : List RingEvent} (h : PolledSince e log)
    (x : RingEvent) : PolledSince e (x :: log) := by
  obtain ⟨request, newer, older, rfl, mem⟩ := h
  exact ⟨request, x :: newer, older, rfl, mem⟩

theorem polledSince_poll {e : RingEvent} {log : List RingEvent} (mem : e ∈ log)
    (request : PollRequest) : PolledSince e (.poll request :: log) := ⟨request, [], log, rfl, mem⟩

theorem NoOverwrite.cons {e : RingEvent} {log : List RingEvent} (kept : NoOverwrite log)
    (head : ∀ o n, written e = some (o, n) → ∀ k o' n', Overlap o n o' n' →
      (.commands k o' n' ∈ log → PolledSince (.submitted k) log) ∧
      (.noops k o' n' ∈ log → PolledSince (.noops k o' n') log)) : NoOverwrite (e :: log) := by
  intro newer e' older heq
  cases newer with
  | nil =>
    obtain ⟨rfl, rfl⟩ := List.cons.inj heq
    exact head
  | cons x newer =>
    obtain ⟨-, rfl⟩ := List.cons.inj heq
    exact kept newer e' older rfl

/-- The log of a ring whose tail is at `tail`: unpolled commands end in front of it. -/
structure RingLog (tail : Nat) (log : List RingEvent) : Prop where
  inRing : ∀ e ∈ log, ∀ o n, written e = some (o, n) → o + n ≤ ringSize
  behind : ∀ k o n, .commands k o n ∈ log → PolledSince (.submitted k) log ∨ o + n ≤ tail
  submitted : ∀ k o n, .commands k o n ∈ log → .submitted k ∈ log
  padding : ∀ k o n, .noops k o n ∈ log → PolledSince (.noops k o n) log
  kept : NoOverwrite log

theorem ringLog_nil (tail : Nat) : RingLog tail [] :=
  ⟨nofun, nofun, nofun, nofun, fun newer _ _ h => absurd h (by simp)⟩

/-- What is written behind the tail only overwrites what was polled for. -/
theorem RingLog.write {tail : Nat} {log : List RingEvent} (inv : RingLog tail log) {e : RingEvent}
    {o n : Nat} (he : written e = some (o, n)) (behind : tail ≤ o) : NoOverwrite (e :: log) := by
  refine inv.kept.cons ?_
  rintro o₁ n₁ h₁ k o' n' ⟨hlt, hlt'⟩
  obtain ⟨rfl, rfl⟩ := Prod.mk.inj (Option.some.inj (he.symm.trans h₁))
  constructor
  · intro mem
    rcases inv.behind k o' n' mem with polled | hle
    · exact polled
    · omega
  · exact inv.padding k o' n'

theorem RingLog.poll {tail tail' : Nat} {log : List RingEvent} (inv : RingLog tail log)
    (request : PollRequest) : RingLog tail' (.poll request :: log) := by
  constructor
  · intro e mem o n he
    rcases List.mem_cons.mp mem with rfl | mem
    · exact absurd he (by simp [written])
    · exact inv.inRing e mem o n he
  · intro k o n mem
    have old := List.mem_of_ne_of_mem (by simp) mem
    exact .inl (polledSince_poll (inv.submitted k o n old) request)
  · intro k o n mem
    exact List.mem_cons_of_mem _ (inv.submitted k o n (List.mem_of_ne_of_mem (by simp) mem))
  · intro k o n mem
    exact (inv.padding k o n (List.mem_of_ne_of_mem (by simp) mem)).cons _
  · exact inv.kept.cons fun o n he => absurd he (by simp [written])

/-- NOOPs up to the end of the ring and the poll that follows them. -/
theorem RingLog.wrap {tail tail' : Nat} {log : List RingEvent} (inv : RingLog tail log)
    (tail_le : tail ≤ ringSize) (k : Nat) (request : PollRequest) :
    RingLog tail' (.poll request :: .noops k tail (ringSize - tail) :: log) := by
  constructor
  · intro e mem o n he
    rcases List.mem_cons.mp mem with rfl | mem
    · exact absurd he (by simp [written])
    rcases List.mem_cons.mp mem with rfl | mem
    · obtain ⟨rfl, rfl⟩ := Prod.mk.inj (Option.some.inj he)
      omega
    · exact inv.inRing e mem o n he
  · intro k o n mem
    have old := List.mem_of_ne_of_mem (by simp) (List.mem_of_ne_of_mem (by simp) mem)
    exact .inl (polledSince_poll (List.mem_cons_of_mem _ (inv.submitted k o n old)) request)
  · intro k o n mem
    have old := List.mem_of_ne_of_mem (by simp) (List.mem_of_ne_of_mem (by simp) mem)
    exact List.mem_cons_of_mem _ (List.mem_cons_of_mem _ (inv.submitted k o n old))
  · intro k o n mem
    exact polledSince_poll (List.mem_of_ne_of_mem (by simp) mem) request
  · exact (inv.write rfl (Nat.le_refl tail)).cons fun o n he => absurd he (by simp [written])

/-- The commands of a submission behind the tail. -/
theorem RingLog.submit {tail : Nat} {log : List RingEvent} (inv : RingLog tail log) (k size : Nat)
    (fits : tail + size ≤ ringSize) :
    RingLog (tail + size) (.submitted k :: .commands k tail size :: log) := by
  constructor
  · intro e mem o n he
    rcases List.mem_cons.mp mem with rfl | mem
    · exact absurd he (by simp [written])
    rcases List.mem_cons.mp mem with rfl | mem
    · obtain ⟨rfl, rfl⟩ := Prod.mk.inj (Option.some.inj he)
      exact fits
    · exact inv.inRing e mem o n he
  · intro j o n mem
    rcases List.mem_cons.mp (List.mem_of_ne_of_mem (by simp) mem) with heq | old
    · obtain ⟨rfl, rfl, rfl⟩ := RingEvent.commands.inj heq
      exact .inr (Nat.le_refl _)
    · rcases inv.behind j o n old with polled | hle
      · exact .inl ((polled.cons _).cons _)
      · exact .inr (by omega)
  · intro j o n mem
    rcases List.mem_cons.mp (List.mem_of_ne_of_mem (by simp) mem) with heq | old
    · obtain ⟨rfl, -, -⟩ := RingEvent.commands.inj heq
      exact List.mem_cons_self
    · exact List.mem_cons_of_mem _ (List.mem_cons_of_mem _ (inv.submitted j o n old))
  · intro j o n mem
    have old := List.mem_of_ne_of_mem (by simp) (List.mem_of_ne_of_mem (by simp) mem)
    exact ((inv.padding j o n old).cons _).cons _
  · exact (inv.write rfl (Nat.le_refl tail)).cons fun o n he => absurd he (by simp [written])

/-- Where a submission of `size` bytes starts. -/
def commandsOffset (ringTail size : Nat) : Nat := if ringSize ≤ ringTail + size then 0 else ringTail

/-- What submitting `commands` does to the ring. -/
structure Submitted (commands : List Nat) (s s' : HwState) : Prop where
  ggttRing : s'.context.ggttRing = s.context.ggttRing
  ringTail : s'.context.ringTail =
    commandsOffset s.context.ringTail (4 * commands.length) + 4 * commands.length
  content : ∀ i, i < 4 * commands.length →
    ringByte s' (commandsOffset s.context.ringTail (4 * commands.length) + i) =
      setDwords (fun _ => 0) 0 commands i
  noops : ringSize ≤ s.context.ringTail + 4 * commands.length →
    ∀ o, s.context.ringTail ≤ o → o < ringSize → ringByte s' o = 0
  others : ∀ o, o < ringSize →
    (o < commandsOffset s.context.ringTail (4 * commands.length) ∨
      commandsOffset s.context.ringTail (4 * commands.length) + 4 * commands.length ≤ o) →
    (ringSize ≤ s.context.ringTail + 4 * commands.length → o < s.context.ringTail) →
    ringByte s' o = ringByte s o

structure Disciplined (cs : CommandStreamerHelper) (s : HwState) : Prop where
  ready : Ready cs s.context
  placed : Placed cs s.context
  tail_lt : s.context.ringTail < ringSize
  aligned : s.context.ringTail % 8 = 0
  tail_ge : s.context.ringTail = 0 ∨ 4 * commandDwords cs.addFlushCommands ≤ s.context.ringTail
  fence : s.context.contextFenceValue = s.submissions % 2 ^ 32
  log : RingLog s.context.ringTail s.ringEvents

section
variable {cs : CommandStreamerHelper}

theorem wrapRing_log (cs : CommandStreamerHelper) {s : HwState} (log : RingLog s.context.ringTail s.ringEvents)
    (tail_lt : s.context.ringTail < ringSize) (size : Nat) :
    RingLog (wrapRing cs size s).context.ringTail (wrapRing cs size s).ringEvents := by
  unfold wrapRing
  split
  · exact log.wrap (Nat.le_of_lt tail_lt) _ _
  · exact log

theorem wrapRing_ringByte {s : HwState} (tail_lt : s.context.ringTail < ringSize) (size : Nat)
    {o : Nat} (ho : o < ringSize) : ringByte (wrapRing cs size s) o =
      if ringSize ≤ s.context.ringTail + size ∧ s.context.ringTail ≤ o then 0 else ringByte s o := by
  have hsize : ringSize = 16384 := rfl
  by_cases wraps : ringSize ≤ s.context.ringTail + size
  · have hw : ringByte (wrapRing cs size s) o = writeBytes s.memory
        (s.context.ggttRing + s.context.ringTail) (ringSize - s.context.ringTail) (fun _ => 0)
        ((s.context.ggttRing + o) % 2 ^ 32) := by
      simp only [ringByte, wrapRing, if_pos wraps, pollForCompletion]
    rw [hw, writeBytes_block (by omega) (by omega)]
    by_cases hle : s.context.ringTail ≤ o
    · rw [if_pos ⟨hle, by omega⟩, if_pos ⟨wraps, hle⟩]
    · rw [if_neg fun h => hle h.1, if_neg fun h => hle h.2]
      rfl
  · rw [if_neg fun h => wraps h.1, wrapRing, if_neg wraps]

theorem writeCommands_ringByte {s : HwState} {commands : List Nat}
    (fits : s.context.ringTail + 4 * commands.length < ringSize) {o : Nat} (ho : o < ringSize) :
    ringByte (writeCommands commands s) o =
      if s.context.ringTail ≤ o ∧ o < s.context.ringTail + 4 * commands.length then
        setDwords (fun _ => 0) 0 commands (o - s.context.ringTail)
      else ringByte s o := by
  unfold ringSize at fits ho
  exact writeBytes_block (by omega) (by omega)

/-- One submission. -/
theorem submitBatchBuffer_step {s : HwState} (inv : Disciplined cs s) (gfxAddress : Nat)
    (overrideRingHead : Bool) :
    ∃ s', submitBatchBuffer cs gfxAddress overrideRingHead s = some s' ∧ Disciplined cs s' ∧
      s'.submissions = s.submissions + 1 ∧
      Submitted (ringCommands cs s.context gfxAddress) s s' := by
  obtain ⟨u, updated, done⟩ := submitBatchBuffer_updated inv.ready inv.placed gfxAddress
    overrideRingHead
  have hlen := ringCommands_length cs s.context gfxAddress
  have short := cs.shorter
  have tail_lt := inv.tail_lt
  have aligned := inv.aligned
  have tail_ge := inv.tail_ge
  generalize ringCommands cs s.context gfxAddress = commands at updated done hlen ⊢
  rw [← hlen] at short tail_ge
  have even : 4 * commands.length % 8 = 0 := by
    rw [hlen, commandDwords]
    omega
  have hstart := wrapRing_ringTail cs s (4 * commands.length)
  have hfits := wrapRing_fits cs s short
  have hlog := wrapRing_log cs inv.log inv.tail_lt (4 * commands.length)
  have hbyte : ∀ {o}, o < ringSize → ringByte (wrapRing cs (4 * commands.length) s) o = _ :=
    wrapRing_ringByte inv.tail_lt (4 * commands.length)
  have hring := wrapRing_ggttRing cs s (4 * commands.length)
  have hfence := wrapRing_contextFenceValue cs s (4 * commands.length)
  have hsub := wrapRing_submissions cs s (4 * commands.length)
  have hplaced := wrapRing_placed inv.placed (4 * commands.length)
  generalize wrapRing cs (4 * commands.length) s = w at *
  have utail : u.context.ringTail = w.context.ringTail + 4 * commands.length := updated.ringTail
  have usub : u.submissions = s.submissions + 1 := updated.submissions.trans (by
    rw [← hsub]
    rfl)
  have ubyte : ∀ o, o < ringSize → ringByte u o = ringByte (writeCommands commands w) o := by
    intro o ho
    unfold ringByte
    rw [updated.ggttRing]
    exact updated.ring o ho
  refine ⟨_, done, ?_, usub, ?_⟩
  · constructor
    · exact updated.ready
    · exact updated.placed (hplaced.congr rfl rfl rfl)
    · exact utail ▸ hfits
    · show u.context.ringTail % 8 = 0
      rw [utail, hstart]
      split <;> omega
    · right
      show _ ≤ u.context.ringTail
      rw [utail, ← hlen]
      omega
    · show u.context.contextFenceValue = u.submissions % 2 ^ 32
      rw [updated.contextFenceValue, usub]
      simp only [writeCommands, hfence, inv.fence, wrap32]
      omega
    · show RingLog u.context.ringTail (.submitted u.submissions :: u.ringEvents)
      rw [utail, updated.ringEvents, usub, ← hsub]
      exact hlog.submit (w.submissions + 1) (4 * commands.length) (Nat.le_of_lt hfits)
  · constructor
    · exact updated.ggttRing.trans hring
    · exact utail.trans (by rw [hstart, commandsOffset])
    · intro i hi
      show ringByte u _ = _
      rw [commandsOffset, ← hstart, ubyte _ (by omega), writeCommands_ringByte hfits (by omega),
        if_pos (by omega), Nat.add_sub_cancel_left]
    · intro wraps o hle ho
      show ringByte u o = 0
      rw [if_pos wraps] at hstart
      rw [ubyte o ho, writeCommands_ringByte hfits ho, if_neg (by omega), hbyte ho,
        if_pos ⟨wraps, hle⟩]
    · intro o ho outside before
      show ringByte u o = ringByte s o
      rw [commandsOffset, ← hstart] at outside
      rw [ubyte o ho, writeCommands_ringByte hfits ho, if_neg (by omega), hbyte ho,
        if_neg fun h => absurd (before h.1) (by omega)]

theorem start_disciplined (cs : CommandStreamerHelper) (flags : Nat) (runAlone : Bool)
    (ppgtt : PageTableRoot) (allocator : GfxAddressAllocator) (memory : Bytes) :
    Disciplined cs (start cs flags runAlone ppgtt allocator memory) ∧
      (start cs flags runAlone ppgtt allocator memory).submissions = 0 := by
  have init : Initialized cs ⟨.new flags runAlone ppgtt, allocator, memory, [], 0⟩
      (start cs flags runAlone ppgtt allocator memory) := initializeContext_initialized rfl
  have tail : (start cs flags runAlone ppgtt allocator memory).context.ringTail = 0 := init.ringTail
  refine ⟨?_, init.submissions⟩
  constructor
  · exact init.ready (.inr rfl)
  · exact init.placed
  · rw [tail]
    decide
  · rw [tail]
  · exact .inl tail
  · rw [init.contextFenceValue, init.submissions]
    rfl
  · rw [init.ringEvents]
    exact ringLog_nil _

/-- Any run of submissions and polls; both are always possible. -/
theorem runAll_disciplined (ops : List Op) {s : HwState} (inv : Disciplined cs s) :
    ∃ s', runAll (step cs) s ops = some s' ∧ Disciplined cs s' ∧
      s'.submissions = s.submissions + ops.countP Op.isSubmission ∧
      s'.context.ggttRing = s.context.ggttRing := by
  induction ops generalizing s with
  | nil => exact ⟨s, rfl, inv, rfl, rfl⟩
  | cons o rest ih =>
    cases o with
    | submitBatchBuffer gfxAddress overrideRingHead =>
      obtain ⟨next, done, inv', count, effect⟩ :=
        submitBatchBuffer_step inv gfxAddress overrideRingHead
      obtain ⟨s', run, inv'', count', ring⟩ := ih inv'
      refine ⟨s', ?_, inv'', ?_, ring.trans effect.ggttRing⟩
      · rw [runAll, step, done, Option.bind_some, run]
      · rw [count', count, List.countP_cons_of_pos rfl]
        omega
    | pollForCompletion =>
      have inv' : Disciplined cs (pollForCompletion cs s) :=
        ⟨inv.ready, inv.placed, inv.tail_lt, inv.aligned, inv.tail_ge, inv.fence, inv.log.poll _⟩
      obtain ⟨s', run, inv'', count, ring⟩ := ih inv'
      refine ⟨s', ?_, inv'', ?_, ring⟩
      · rw [runAll, step, Option.bind_some, run]
      · rw [count, List.countP_cons_of_neg (by decide)]
        rfl

/-- The store of the next fence value, in front of at most one dword of padding. -/
theorem ringCommands_fence (cs : CommandStreamerHelper) (c : HardwareContextImp)
    (gfxAddress : Nat) :
    ∃ padding, ringCommands cs c gfxAddress = cs.addBatchBufferJump gfxAddress ++
        cs.addFlushCommands ++ storeFenceValue c.ggttContextFence (wrap32 (c.contextFenceValue + 1)) ++
        padding ∧ (padding = [] ∨ padding = [0]) := by
  simp only [ringCommands]
  split
  · exact ⟨[0], rfl, .inr rfl⟩
  · exact ⟨[], (List.append_nil _).symm, .inl rfl⟩

/-- After any run on a new context the tail is within the ring and aligned, all writes are within
the ring and spare what was not polled for, and one more submission puts its commands, with the
fence value of its number, between the tails. -/
theorem ring_discipline (cs : CommandStreamerHelper) (flags : Nat) (runAlone : Bool)
    (ppgtt : PageTableRoot) (allocator : GfxAddressAllocator) (memory : Bytes) (ops : List Op) :
    ∃ s, runAll (step cs) (start cs flags runAlone ppgtt allocator memory) ops = some s ∧
      s.context.ggttRing =
        (start cs flags runAlone ppgtt allocator memory).context.ggttRing ∧
      s.context.ringTail < ringSize ∧ s.context.ringTail % 8 = 0 ∧
      (∀ e ∈ s.ringEvents, ∀ o n, written e = some (o, n) → o + n ≤ ringSize) ∧
      NoOverwrite s.ringEvents ∧
      s.context.getExpectedFence = ops.countP Op.isSubmission % 2 ^ 32 ∧
      ∀ gfxAddress overrideRingHead, ∃ s',
        submitBatchBuffer cs gfxAddress overrideRingHead s = some s' ∧
        Submitted (ringCommands cs s.context gfxAddress) s s' ∧
        s'.context.getExpectedFence = (ops.countP Op.isSubmission + 1) % 2 ^ 32 ∧
        ∃ padding, ringCommands cs s.context gfxAddress = cs.addBatchBufferJump gfxAddress ++
            cs.addFlushCommands ++ storeFenceValue s.context.ggttContextFence
              ((ops.countP Op.isSubmission + 1) % 2 ^ 32) ++ padding ∧
          (padding = [] ∨ padding = [0]) := by
  obtain ⟨initial, zero⟩ := start_disciplined cs flags runAlone ppgtt allocator memory
  obtain ⟨s, run, inv, count, ring⟩ := runAll_disciplined ops initial
  rw [zero, Nat.zero_add] at count
  have fence := count ▸ inv.fence
  refine ⟨s, run, ring, inv.tail_lt, inv.aligned, inv.log.inRing, inv.log.kept, fence, ?_⟩
  intro gfxAddress overrideRingHead
  obtain ⟨s', done, inv', count', effect⟩ := submitBatchBuffer_step inv gfxAddress overrideRingHead
  have next : wrap32 (s.context.contextFenceValue + 1) =
      (ops.countP Op.isSubmission + 1) % 2 ^ 32 := by
    rw [fence, wrap32]
    omega
  refine ⟨s', done, effect, ?_, next ▸ ringCommands_fence cs s.context gfxAddress⟩
  rw [HardwareContextImp.getExpectedFence, inv'.fence, count', count]

end

end RingBuffer
