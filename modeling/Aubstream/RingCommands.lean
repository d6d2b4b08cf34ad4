import Aubstream.Framing
import Aubstream.HardwareContext

/-!
# What an engine reads in its ring

The commands that a submission puts into the ring, as a command streamer takes
them: by their headers, each with its own length.
-/

namespace RingCommands
open Framing HardwareContext

inductive Command where
  | noop
  | loadRegister (register value : Nat)
  | batchBufferStart (address : Nat)
  | storeDword (address value : Nat)
  | flush
  | other
  deriving DecidableEq

/-- A header below opcode 16 stands alone; all others have their length in the lowest byte, less 2. -/
def commandSize : List Nat → Option Nat
  | [] => none
  | header :: _ => some (if header / 2 ^ 23 < 16 then 1 else header % 2 ^ 8 + 2)

/-- By the opcode in the uppermost bits. -/
def decode : List Nat → Command
  | [] => .other
  | header :: operands =>
    match header / 2 ^ 23 with
    | 0x00 => .noop
    | 0x20 => .storeDword (operands.getD 0 0 + 2 ^ 32 * operands.getD 1 0) (operands.getD 2 0)
    | 0x22 => .loadRegister (operands.getD 0 0) (operands.getD 1 0)
    | 0x26 | 0xf4 => .flush
    | 0x31 => .batchBufferStart (operands.getD 0 0 + 2 ^ 32 * operands.getD 1 0)
    | _ => .other

/-- What is in memory of a command. -/
def stored (command : List Nat) : List Nat := command.map (· % 2 ^ 32)

/-- The commands that do something. -/
def effects (commands : List Command) : List Command := commands.filter (· ≠ .noop)

def Command.isStore : Command → Bool
  | .storeDword _ _ => true
  | _ => false

/-- The engines of the products flush with one MI_FLUSH or two PIPE_CONTROLs. -/
def FlushesWhole (cs : CommandStreamerHelper) : Prop :=
  cs.addFlushCommands = miFlush ∨ ∃ opcode flushBits invalidateBits,
    (opcode = 0x7a000004 ∨ opcode = 0x7a001004) ∧
      cs.addFlushCommands = pipeControls opcode flushBits invalidateBits

section
variable (cs : CommandStreamerHelper)

def flushFrames : List (List Nat) := (frames commandSize cs.addFlushCommands).getD []

def padding (c : HardwareContextImp) (gfxAddress : Nat) : List (List Nat) :=
  let commands := cs.addBatchBufferJump gfxAddress ++ cs.addFlushCommands ++
    storeFenceValue c.ggttContextFence (wrap32 (c.contextFenceValue + 1))
  if commands.length % 2 ≠ 0 then [[0]] else []

/-- `ringCommands`, command by command. -/
def commandFrames (c : HardwareContextImp) (gfxAddress : Nat) : List (List Nat) :=
  [[0x11000001, cs.mmioEngine + 0x2244, cs.getRingContextSaveRestoreCtrlValue],
    [0x18800101, gfxAddress % 2 ^ 32, gfxAddress / 2 ^ 32]] ++ flushFrames cs ++
  [storeFenceValue c.ggttContextFence (wrap32 (c.contextFenceValue + 1))] ++ padding cs c gfxAddress

/-- What a submission asks an engine to do: to run the batch buffer, and after that has been flushed, to
store the fence. -/
def program (ggttContextFence gfxAddress fenceValue : Nat) : List Command :=
  [.loadRegister ((cs.mmioEngine + 0x2244) % 2 ^ 32)
      (cs.getRingContextSaveRestoreCtrlValue % 2 ^ 32),
    .batchBufferStart (gfxAddress % 2 ^ 64)] ++
  (flushFrames cs).map (fun _ => .flush) ++ [.storeDword (ggttContextFence % 2 ^ 32) fenceValue]

end

section
variable {cs : CommandStreamerHelper}

theorem flushesWhole_flush (core : CoreTraits) (deviceIndex offsetEngine : Nat) :
    FlushesWhole (commandStreamerHelperFlush core deviceIndex offsetEngine) := Or.inl rfl

theorem flushesWhole_pipe (core : CoreTraits) (deviceIndex offsetEngine sizeLRCA opcode flushBits
    invalidateBits : Nat) (bounds) (known : opcode = 0x7a000004 ∨ opcode = 0x7a001004) :
    FlushesWhole (commandStreamerHelperPipe core deviceIndex offsetEngine sizeLRCA opcode flushBits
      invalidateBits bounds) :=
  Or.inr ⟨opcode, flushBits, invalidateBits, known, rfl⟩

theorem delimited_pipeControl {opcode : Nat} (known : opcode = 0x7a000004 ∨ opcode = 0x7a001004)
    (bits : Nat) : Delimited commandSize [opcode, bits, 0, 0, 0, 0] := by
  refine ⟨List.cons_ne_nil _ _, fun rest => ?_⟩
  rcases known with rfl | rfl <;> rfl

theorem delimited_miFlush : Delimited commandSize miFlush :=
  ⟨List.cons_ne_nil _ _, fun _ => rfl⟩

/-- The flush commands are whole commands that flush. -/
theorem flushFrames_whole (whole : FlushesWhole cs) :
    (flushFrames cs).flatten = cs.addFlushCommands ∧
      ∀ f ∈ flushFrames cs, Delimited commandSize (stored f) ∧ decode (stored f) = .flush := by
  rcases whole with flush | ⟨opcode, flushBits, invalidateBits, known, pipe⟩
  · have cut : flushFrames cs = [miFlush] := by
      have h := @frames_flatten _ commandSize [miFlush] (List.forall_mem_singleton.mpr delimited_miFlush)
      rw [flushFrames, flush]
      exact congrArg (Option.getD · []) h
    rw [cut, flush]
    refine ⟨rfl, List.forall_mem_singleton.mpr ⟨?_, rfl⟩⟩
    exact ⟨List.cons_ne_nil _ _, fun _ => rfl⟩
  · have cut : flushFrames cs =
        [[opcode, flushBits, 0, 0, 0, 0], [opcode, invalidateBits, 0, 0, 0, 0]] := by
      have h := @frames_flatten _ commandSize
        [[opcode, flushBits, 0, 0, 0, 0], [opcode, invalidateBits, 0, 0, 0, 0]] (by
          rintro f mem
          rcases List.mem_pair.mp mem with rfl | rfl
          · exact delimited_pipeControl known _
          · exact delimited_pipeControl known _)
      rw [flushFrames, pipe]
      exact congrArg (Option.getD · []) h
    rw [cut, pipe]
    refine ⟨rfl, ?_⟩
    rintro f mem
    rcases known with rfl | rfl <;> rcases List.mem_pair.mp mem with rfl | rfl <;>
      exact ⟨⟨List.cons_ne_nil _ _, fun _ => rfl⟩, rfl⟩

theorem padding_cases (cs : CommandStreamerHelper) (c : HardwareContextImp) (gfxAddress : Nat) :
    padding cs c gfxAddress = [] ∨ padding cs c gfxAddress = [[0]] := by
  rw [padding]
  split
  · exact Or.inr rfl
  · exact Or.inl rfl

theorem commandFrames_flatten (whole : FlushesWhole cs) (c : HardwareContextImp) (gfxAddress : Nat) :
    (commandFrames cs c gfxAddress).flatten = ringCommands cs c gfxAddress := by
  have cut := (flushFrames_whole whole).1
  simp only [commandFrames, List.flatten_append, cut, ringCommands, padding]
  split
  · rfl
  · exact List.append_nil _

theorem commandFrames_delimited (whole : FlushesWhole cs) (c : HardwareContextImp) (gfxAddress : Nat) :
    ∀ f ∈ (commandFrames cs c gfxAddress).map stored, Delimited commandSize f := by
  intro g image
  obtain ⟨f, mem, rfl⟩ := List.mem_map.mp image
  simp only [commandFrames, List.mem_append, List.mem_cons, List.not_mem_nil, or_false] at mem
  rcases mem with (((rfl | rfl) | flush) | rfl) | pad
  · exact ⟨List.cons_ne_nil _ _, fun _ => rfl⟩
  · exact ⟨List.cons_ne_nil _ _, fun _ => rfl⟩
  · exact ((flushFrames_whole whole).2 f flush).1
  · refine ⟨List.cons_ne_nil _ _, fun rest => ?_⟩
    simp [storeFenceValue, stored, commandSize]
  · rcases padding_cases cs c gfxAddress with none | one
    · rw [none] at pad
      cases pad
    · rw [one] at pad
      obtain rfl := List.mem_singleton.mp pad
      exact ⟨List.cons_ne_nil _ _, fun _ => rfl⟩

theorem effects_append (xs ys : List Command) : effects (xs ++ ys) = effects xs ++ effects ys :=
  List.filter_append xs ys

theorem effects_flushes (fs : List (List Nat)) :
    effects (fs.map fun _ => Command.flush) = fs.map fun _ => Command.flush := by
  apply List.filter_eq_self.mpr
  intro c mem
  obtain ⟨-, -, rfl⟩ := List.mem_map.mp mem
  rfl

/-- The commands of a submission are its program. -/
theorem effects_commandFrames (whole : FlushesWhole cs) (c : HardwareContextImp) (gfxAddress : Nat) :
    effects (((commandFrames cs c gfxAddress).map stored).map decode) =
      program cs c.ggttContextFence gfxAddress (wrap32 (c.contextFenceValue + 1)) := by
  have flushes : ((flushFrames cs).map stored).map decode =
      (flushFrames cs).map fun _ => Command.flush := by
    rw [List.map_map]
    apply List.map_congr_left
    intro f mem
    exact ((flushFrames_whole whole).2 f mem).2
  have pad : effects (((padding cs c gfxAddress).map stored).map decode) = [] := by
    rcases padding_cases cs c gfxAddress with none | one
    · rw [none]
      rfl
    · rw [one]
      rfl
  have jump : decode (stored [0x18800101, gfxAddress % 2 ^ 32, gfxAddress / 2 ^ 32]) =
      .batchBufferStart (gfxAddress % 2 ^ 64) := by
    have address : gfxAddress % 2 ^ 32 % 2 ^ 32 + 2 ^ 32 * (gfxAddress / 2 ^ 32 % 2 ^ 32) =
        gfxAddress % 2 ^ 64 := by omega
    exact congrArg Command.batchBufferStart address
  have fence : decode (stored (storeFenceValue c.ggttContextFence (wrap32 (c.contextFenceValue + 1)))) =
      .storeDword (c.ggttContextFence % 2 ^ 32) (wrap32 (c.contextFenceValue + 1)) := by
    have value : wrap32 (c.contextFenceValue + 1) % 2 ^ 32 = wrap32 (c.contextFenceValue + 1) :=
      Nat.mod_mod _ _
    exact congrArg (Command.storeDword _) value
  simp only [commandFrames, List.map_append, effects_append, flushes, pad, effects_flushes, program,
    List.map_cons, List.map_nil, jump, fence, List.append_nil]
  rfl

end

end RingCommands
