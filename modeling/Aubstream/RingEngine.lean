import Aubstream.CircularBuffer
import Aubstream.RingBuffer
import Aubstream.RingCommands

/-!
# An engine behind the ring

The host puts submissions into the ring while an engine executes what is in
front of the tail that it was told last. Neither waits for the other, but for
the poll of a submission that starts the ring anew.
-/

namespace RingEngine
open ByteMemory HardwareContext ContextBlocks RingBuffer RingCommands CircularBuffer Framing
open Transitions

def ringDwords : Nat := 4096

/-- A command streamer; its head and tail count dwords. Not in the source. -/
structure Engine where
  head : Nat
  tail : Nat
  executed : List Command

/-- `waiting`: the submission that has filled the ring up and polls. `submitted` is not in the
source: the batch buffers, oldest first. -/
structure System where
  hw : HwState
  engine : Engine
  waiting : Option (Nat × Bool)
  submitted : List Nat

def ringDword (hw : HwState) (i : Nat) : Nat := getDword (ringByte hw) (4 * i)

def readDword (memory : Bytes) (gfxAddress : Nat) : Nat :=
  getDword (fun i => memory ((gfxAddress + i) % 2 ^ 32)) 0

def storeDword (memory : Bytes) (gfxAddress value : Nat) : Bytes :=
  writeBytes memory gfxAddress 4 (setDword (fun _ => 0) 0 value)

def Command.execute (memory : Bytes) : Command → Bytes
  | .storeDword gfxAddress value => storeDword memory gfxAddress value
  | _ => memory

/-- One command, when there is one. -/
def execute (s : System) : Option System :=
  if s.engine.head = s.engine.tail then none
  else (commandSize [ringDword s.hw s.engine.head]).map fun size =>
    let command := decode (fetch (ringDword s.hw) ringDwords s.engine.head size)
    { s with
      hw := { s.hw with memory := Command.execute s.hw.memory command }
      engine := { s.engine with
        head := (s.engine.head + size) % ringDwords
        executed := s.engine.executed ++ [command] } }

section
variable (cs : CommandStreamerHelper)

/-- A ring register of the image that the engine is submitted, behind the address of the register. -/
def loaded (hw : HwState) (offset : Nat) : Nat :=
  if cs.isRingDataEnabled then
    readDword hw.memory (hw.context.ringData + (getRingDataOffset + offset + 4))
  else readDword hw.memory
    (hw.context.ggttLRCA + (CommandStreamerHelper.lrcaRegisters + offset + 4))

/-- The engine goes on up to the new tail, and from the head in its image if that was set. -/
def finish (s : System) (gfxAddress : Nat) (overrideRingHead : Bool) : Option System :=
  (submitBatchBuffer cs gfxAddress overrideRingHead s.hw).map fun hw =>
    { hw := hw
      engine := { s.engine with
        head := if overrideRingHead then loaded cs hw offsetRingHead / 4 else s.engine.head
        tail := loaded cs hw offsetRingTail / 4 }
      waiting := none
      submitted := s.submitted ++ [gfxAddress] }

/-- EXECLIST_STATUS shows an idle engine, or the word in memory has come up to the value. -/
def polled (s : System) : PollRequest → Bool
  | .registerPoll _ _ => s.engine.head == s.engine.tail
  | .gttMemoryPoll gfxAddress value => decide (value ≤ readDword s.hw.memory gfxAddress)

def sizeCommands (s : System) (gfxAddress : Nat) : Nat :=
  4 * (ringCommands cs s.hw.context gfxAddress).length

inductive Op where
  | submitBatchBuffer (gfxAddress : Nat) (overrideRingHead : Bool)
  | poll
  | execute

/-- `submitBatchBuffer` up to its poll, if it has one, and from there on. -/
def step (s : System) : Op → Option System
  | .submitBatchBuffer gfxAddress overrideRingHead =>
    if s.waiting.isSome then none
    else if ringSize ≤ s.hw.context.ringTail + sizeCommands cs s gfxAddress then some { s with
      hw := wrapRing cs (sizeCommands cs s gfxAddress) s.hw
      waiting := some (gfxAddress, overrideRingHead) }
    else finish cs s gfxAddress overrideRingHead
  | .poll => s.waiting.bind fun (gfxAddress, overrideRingHead) =>
    if polled s (pollRequest cs s.hw.context) then finish cs s gfxAddress overrideRingHead else none
  | .execute => execute s

/-- A new context in front of an idle engine. -/
def start (flags : Nat) (runAlone : Bool) (ppgtt : PageTableRoot) (allocator : GfxAddressAllocator)
    (memory : Bytes) : System :=
  ⟨RingBuffer.start cs flags runAlone ppgtt allocator memory, ⟨0, 0, []⟩, none, []⟩

def idle (s : System) : Prop := s.engine.head = s.engine.tail

/-- The tail stays behind a head that it has overtaken, and only an idle engine has its head set. A fence
that is polled for in memory has not gone around. -/
def Allowed (s : System) : Op → Prop
  | .submitBatchBuffer gfxAddress overrideRingHead =>
    (cs.memoryBasedPollForCompletion = true → s.submitted.length < 2 ^ 32) ∧
    (s.hw.context.ringTail + sizeCommands cs s gfxAddress < ringSize →
      if overrideRingHead then idle s
      else s.engine.tail < s.engine.head →
        s.hw.context.ringTail + sizeCommands cs s gfxAddress < 4 * s.engine.head)
  | .poll => ∀ gfxAddress, s.waiting = some (gfxAddress, true) → idle s
  | .execute => True

end

/-- The programs of all submissions; fences count from 1. -/
def programs (cs : CommandStreamerHelper) (ggttContextFence : Nat) (submitted : List Nat) :
    List Command :=
  submitted.zipIdx.flatMap fun (gfxAddress, k) =>
    program cs ggttContextFence gfxAddress ((k + 1) % 2 ^ 32)

def getCurrentFence (s : System) : Nat := readDword s.hw.memory s.hw.context.ggttContextFence

section
variable {cs : CommandStreamerHelper}

/-- The two parts of a submission are the whole. -/
theorem submitBatchBuffer_wrapRing (hw : HwState) (gfxAddress : Nat) (overrideRingHead : Bool) :
    submitBatchBuffer cs gfxAddress overrideRingHead
        (wrapRing cs (4 * (ringCommands cs hw.context gfxAddress).length) hw) =
      submitBatchBuffer cs gfxAddress overrideRingHead hw := by
  have short : 4 * (ringCommands cs hw.context gfxAddress).length < ringSize := by
    rw [ringCommands_length]
    exact cs.shorter
  have same : ringCommands cs (wrapRing cs (4 * (ringCommands cs hw.context gfxAddress).length)
      hw).context gfxAddress = ringCommands cs hw.context gfxAddress := by
    simp only [wrapRing]
    split <;> rfl
  have twice (size : Nat) (short : size < ringSize) :
      wrapRing cs size (wrapRing cs size hw) = wrapRing cs size hw := by
    have fits := wrapRing_fits cs hw short
    generalize wrapRing cs size hw = w at fits ⊢
    rw [wrapRing, if_neg (by omega)]
  simp only [submitBatchBuffer, same, twice _ short]

end

/-- The fence is apart from the ring and the images. -/
structure FencePlaced (cs : CommandStreamerHelper) (c : HardwareContextImp) : Prop where
  ring : Apart c.ggttRing ringSize c.ggttContextFence 4
  lrca : Apart c.ggttLRCA cs.sizeLRCA c.ggttContextFence 4
  data : cs.isRingDataEnabled = true → Apart c.ringData sizeRingData c.ggttContextFence 4
  small : c.ggttContextFence < 2 ^ 32

section
variable {cs : CommandStreamerHelper} {hw hw' : HwState} {b n i : Nat}

theorem FencePlaced.congr {c c' : HardwareContextImp} (placed : FencePlaced cs c)
    (ring : c'.ggttRing = c.ggttRing) (lrca : c'.ggttLRCA = c.ggttLRCA)
    (data : c'.ringData = c.ringData) (fence : c'.ggttContextFence = c.ggttContextFence) :
    FencePlaced cs c' := by
  constructor
  · rw [ring, fence]
    exact placed.ring
  · rw [lrca, fence]
    exact placed.lrca
  · rw [data, fence]
    exact placed.data
  · rw [fence]
    exact placed.small

theorem readDword_congr {m m' : Bytes} {gfxAddress : Nat}
    (same : ∀ i, i < 4 → m' ((gfxAddress + i) % 2 ^ 32) = m ((gfxAddress + i) % 2 ^ 32)) :
    readDword m' gfxAddress = readDword m gfxAddress := by
  apply getDword_congr
  intro k _ short
  exact same k (by omega)

theorem readDword_storeDword (m : Bytes) (gfxAddress : Nat) {value : Nat} (small : value < 2 ^ 32) :
    readDword (storeDword m gfxAddress value) gfxAddress = value := by
  have held := holds_writeBytes m gfxAddress (n := 4) (setDword (fun _ => 0) 0 value) (by decide)
  have same : readDword (storeDword m gfxAddress value) gfxAddress =
      getDword (setDword (fun _ => 0) 0 value) 0 := by
    apply getDword_congr
    intro k _ short
    exact held k (by omega)
  rw [same, getDword_setDword _ _ small]

theorem wrapRing_frame (size : Nat) (tail_lt : hw.context.ringTail < ringSize)
    (apart : Apart hw.context.ggttRing ringSize b n) (hi : i < n) :
    (wrapRing cs size hw).memory ((b + i) % 2 ^ 32) = hw.memory ((b + i) % 2 ^ 32) := by
  rw [wrapRing]
  split
  · show writeBytes hw.memory (hw.context.ggttRing + hw.context.ringTail)
      (ringSize - hw.context.ringTail) (fun _ => 0) _ = _
    exact writeBytes_apart apart (by omega) hi
  · rfl

theorem wrapRing_blocks (cs : CommandStreamerHelper) (hw : HwState) (size : Nat) :
    (wrapRing cs size hw).context.ggttLRCA = hw.context.ggttLRCA ∧
      (wrapRing cs size hw).context.ringData = hw.context.ringData := by
  rw [wrapRing]
  split <;> exact ⟨rfl, rfl⟩

theorem writeCommands_frame {commands : List Nat}
    (fits : hw.context.ringTail + 4 * commands.length ≤ ringSize)
    (apart : Apart hw.context.ggttRing ringSize b n) (hi : i < n) :
    (writeCommands commands hw).memory ((b + i) % 2 ^ 32) = hw.memory ((b + i) % 2 ^ 32) :=
  writeBytes_apart apart fits hi

theorem updateLRCA_frame {overrideRingHead : Bool} {ringHead : Nat}
    (done : updateLRCA cs overrideRingHead ringHead hw = some hw')
    (apart : Apart hw.context.ggttLRCA cs.sizeLRCA b n) (hi : i < n) :
    hw'.memory ((b + i) % 2 ^ 32) = hw.memory ((b + i) % 2 ^ 32) ∧
      hw'.context = { hw.context with pLRCA := hw'.context.pLRCA } := by
  rw [updateLRCA] at done
  split at done
  · cases done
  · rename_i p live
    obtain rfl := Option.some.inj done
    exact ⟨writeRingRegisters_frame (IsCopy.lrca live).fits apart hi _ _, rfl⟩

theorem updateRingData_frame {overrideRingHead : Bool} {ringHead : Nat}
    (done : updateRingData cs overrideRingHead ringHead hw = some hw')
    (apart : cs.isRingDataEnabled = true → Apart hw.context.ringData sizeRingData b n) (hi : i < n) :
    hw'.memory ((b + i) % 2 ^ 32) = hw.memory ((b + i) % 2 ^ 32) := by
  rw [updateRingData] at done
  split at done
  · cases done
  · split at done
    · cases done
    · obtain rfl := Option.some.inj done
      rfl
  · rename_i p live
    obtain rfl := Option.some.inj done
    dsimp only
    split
    · rename_i enabled
      exact writeRingRegisters_frame (IsCopy.ringData enabled live).fits (apart enabled) hi _ _
    · rfl

/-- A submission leaves the fence alone. -/
theorem submitBatchBuffer_fence {gfxAddress : Nat} {overrideRingHead : Bool}
    (placed : FencePlaced cs hw.context) (tail_lt : hw.context.ringTail < ringSize)
    (done : submitBatchBuffer cs gfxAddress overrideRingHead hw = some hw') :
    readDword hw'.memory hw.context.ggttContextFence =
      readDword hw.memory hw.context.ggttContextFence := by
  have short : 4 * (ringCommands cs hw.context gfxAddress).length < ringSize := by
    rw [ringCommands_length]
    exact cs.shorter
  rw [submitBatchBuffer] at done
  have fits := wrapRing_fits cs hw short
  have ring := wrapRing_ggttRing cs hw (4 * (ringCommands cs hw.context gfxAddress).length)
  have blocks := wrapRing_blocks cs hw (4 * (ringCommands cs hw.context gfxAddress).length)
  have wrapped (i : Nat) (hi : i < 4) :=
    @wrapRing_frame cs hw _ 4 i (4 * (ringCommands cs hw.context gfxAddress).length) tail_lt placed.ring hi
  generalize ringCommands cs hw.context gfxAddress = commands at *
  generalize wrapRing cs (4 * commands.length) hw = w at *
  obtain ⟨lrca, first, done⟩ := Option.bind_eq_some_iff.mp done
  obtain ⟨data, second, done⟩ := Option.bind_eq_some_iff.mp done
  obtain rfl := Option.some.inj done
  have ringApart : Apart w.context.ggttRing ringSize hw.context.ggttContextFence 4 :=
    ring ▸ placed.ring
  have lrcaApart : Apart (writeCommands commands w).context.ggttLRCA cs.sizeLRCA
      hw.context.ggttContextFence 4 := by
    show Apart w.context.ggttLRCA _ _ _
    rw [blocks.1]
    exact placed.lrca
  apply readDword_congr
  intro i hi
  obtain ⟨lrcaSame, context⟩ := updateLRCA_frame first lrcaApart hi
  have dataApart (enabled : cs.isRingDataEnabled = true) : Apart lrca.context.ringData sizeRingData
      hw.context.ggttContextFence 4 := by
    rw [context]
    show Apart w.context.ringData _ _ _
    rw [blocks.2]
    exact placed.data enabled
  have dataSame := updateRingData_frame second dataApart hi
  have commandsSame := writeCommands_frame (Nat.le_of_lt fits) ringApart hi
  exact dataSame.trans (lrcaSame.trans (commandsSame.trans (wrapped i hi)))

end

end RingEngine
