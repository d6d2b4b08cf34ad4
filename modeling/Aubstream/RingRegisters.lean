import Aubstream.RingBuffer

/-!
# Ring registers

What a stream has been told about the ring, over calls that release a context and
initialize it again. `initialize` builds new host copies with an empty ring, but
keeps `ringTail`.
-/

namespace RingRegisters
open ByteMemory HardwareContext ContextBlocks RingBuffer Transitions

/-- `failed`: opened again while open. The library then drops all writes, without an error that
the source looks for. -/
inductive FileState where
  | closed
  | opened
  | failed
  deriving DecidableEq

/-- `writesAubFile`: the mode has an AUB file. `unwritten` is what a reader of a file takes memory
to hold before the file writes to it. -/
structure Manager where
  cs : CommandStreamerHelper
  writesAubFile : Bool
  enableThrow : Bool
  unwritten : Bytes

structure ManagerState where
  hw : HwState
  file : FileState

inductive Op where
  | init
  | submitBatchBuffer (gfxAddress : Nat) (overrideRingHead : Bool)
  | release
  | close
  | open

section
variable (m : Manager)

/-- A failed file takes no more writes. With no file open they are kept for the next one. -/
def stream (s : ManagerState) (hw : HwState) : ManagerState :=
  { s with hw := if s.file = .failed then { hw with memory := s.hw.memory } else hw }

def openFile (s : ManagerState) : ManagerState :=
  if m.writesAubFile then { s with file := if s.file = .closed then .opened else .failed } else s

/-- A new file has no content. -/
def closeFile (s : ManagerState) : ManagerState :=
  if m.writesAubFile ∧ s.file ≠ .closed then
    { s with file := .closed, hw := { s.hw with memory := m.unwritten } }
  else s

/-- `AubManagerImp::open` sets the CCS mode first, which throws while there are contexts. -/
def step (s : ManagerState) : Op → Option ManagerState
  | .init => some (stream s (initializeContext m.cs s.hw))
  | .submitBatchBuffer gfxAddress overrideRingHead =>
    (submitBatchBuffer m.cs gfxAddress overrideRingHead s.hw).map (stream s)
  | .release => (release s.hw).map (stream s)
  | .close => (release s.hw).map fun hw => closeFile m (stream s hw)
  | .open =>
    let opened := openFile m s
    if m.writesAubFile ∧ m.enableThrow then some opened
    else some (stream opened (initializeContext m.cs opened.hw))

def start (flags : Nat) (runAlone : Bool) (ppgtt : PageTableRoot)
    (allocator : GfxAddressAllocator) : ManagerState :=
  ⟨⟨.new flags runAlone ppgtt, allocator, m.unwritten, [], 0⟩, .closed⟩

end

def Written (log : List RingEvent) (offset : Nat) : Prop :=
  ∃ e ∈ log, ∃ o n, written e = some (o, n) ∧ o ≤ offset ∧ offset < o + n

/-- The bytes from `head` up to `tail`, around the end of the ring if need be. -/
def Between (head tail offset : Nat) : Prop :=
  if head ≤ tail then head ≤ offset ∧ offset < tail else head ≤ offset ∨ offset < tail

/-- The host copies are there, name the ring's tail and no byte that was not written, and are what
the stream was told. -/
structure Agree (cs : CommandStreamerHelper) (s : HwState) : Prop where
  ready : Ready cs s.context
  tail : ∀ h, IsCopy cs s.context h → h.ringTail = s.context.ringTail
  written : ∀ h, IsCopy cs s.context h → ∀ o, o < ringSize → Between h.ringHead h.ringTail o →
    Written s.ringEvents o
  streamed : Streamed cs s

/-- A context that is initialized has not submitted yet, and nothing is streamed to a file that
was opened over another. -/
def Allowed (m : Manager) (s : ManagerState) : Op → Prop
  | .init => s.hw.context.pLRCA = none → s.hw.context.ringTail = 0 ∧ s.file ≠ .failed
  | .open => s.hw.context.pLRCA = none → ¬ (m.writesAubFile = true ∧ m.enableThrow = true) →
      s.hw.context.ringTail = 0 ∧ (openFile m s).file ≠ .failed
  | .submitBatchBuffer _ _ => s.file ≠ .failed
  | _ => True

theorem Written.cons {log : List RingEvent} {o : Nat} (h : Written log o) (e : RingEvent) :
    Written (e :: log) o := by
  obtain ⟨e', mem, rest⟩ := h
  exact ⟨e', List.mem_cons_of_mem _ mem, rest⟩

theorem written_head {e : RingEvent} {o n k : Nat} (h : written e = some (o, n)) (ge : o ≤ k)
    (lt : k < o + n) (log : List RingEvent) : Written (e :: log) k :=
  ⟨e, List.mem_cons_self, o, n, h, ge, lt⟩

/-- What is below the tail was written, and so was everything once the ring has wrapped. -/
structure Filled (cs : CommandStreamerHelper) (s : HwState) : Prop where
  tail_lt : s.context.ringTail < ringSize
  below : ∀ o, o < s.context.ringTail → Written s.ringEvents o
  heads : ∀ h, IsCopy cs s.context h → h.ringHead ≤ s.context.ringTail ∨
    ∀ o, o < ringSize → Written s.ringEvents o

theorem between_written {log : List RingEvent} {head tail o : Nat}
    (below : ∀ o, o < tail → Written log o)
    (heads : head ≤ tail ∨ ∀ o, o < ringSize → Written log o) (ho : o < ringSize)
    (between : Between head tail o) : Written log o := by
  rcases heads with hle | all
  · rw [Between, if_pos hle] at between
    exact below o between.2
  · exact all o ho

structure Consistent (cs : CommandStreamerHelper) (s : HwState) : Prop where
  agree : Agree cs s
  placed : Placed cs s.context
  filled : Filled cs s

section
variable {cs : CommandStreamerHelper}

theorem wrapRing_isCopy {s : HwState} {size : Nat} {h : HostCopy}
    (copy : IsCopy cs (wrapRing cs size s).context h) : IsCopy cs s.context h := by
  unfold wrapRing at copy
  split at copy
  · cases copy with
    | lrca live => exact .lrca live
    | ringData enabled live => exact .ringData enabled live
  · exact copy

/-- A wrap writes the rest of the ring. -/
theorem wrapRing_written {s : HwState} (filled : Filled cs s) (size : Nat) :
    (∀ o, o < (wrapRing cs size s).context.ringTail →
      Written (wrapRing cs size s).ringEvents o) ∧
    ((wrapRing cs size s).context.ringTail = s.context.ringTail ∧
        (wrapRing cs size s).ringEvents = s.ringEvents ∨
      ∀ o, o < ringSize → Written (wrapRing cs size s).ringEvents o) := by
  unfold wrapRing
  split
  · refine ⟨fun o ho => absurd ho (Nat.not_lt_zero o), .inr ?_⟩
    intro o ho
    by_cases below : o < s.context.ringTail
    · exact ((filled.below o below).cons _).cons _
    · exact (written_head rfl (by omega) (by omega) _).cons _
  · exact ⟨filled.below, .inl ⟨rfl, rfl⟩⟩

theorem submitBatchBuffer_consistent {s s' : HwState} (inv : Consistent cs s) {gfxAddress : Nat}
    {overrideRingHead : Bool}
    (done : submitBatchBuffer cs gfxAddress overrideRingHead s = some s') : Consistent cs s' := by
  obtain ⟨u, updated, eq⟩ := submitBatchBuffer_updated inv.agree.ready inv.placed gfxAddress
    overrideRingHead
  obtain rfl := Option.some.inj (eq.symm.trans done)
  have hlen := ringCommands_length cs s.context gfxAddress
  have short := cs.shorter
  rw [← hlen] at short
  generalize ringCommands cs s.context gfxAddress = commands at updated short
  have fits := wrapRing_fits cs s short
  have streamed := wrapRing_streamed inv.agree.streamed inv.placed inv.filled.tail_lt
    (4 * commands.length)
  have placed := wrapRing_placed inv.placed (4 * commands.length)
  obtain ⟨below, all⟩ := wrapRing_written inv.filled (4 * commands.length)
  have copies : ∀ h, IsCopy cs (wrapRing cs (4 * commands.length) s).context h →
      IsCopy cs s.context h := fun _ => wrapRing_isCopy
  generalize wrapRing cs (4 * commands.length) s = w at *
  have tail : u.context.ringTail = w.context.ringTail + 4 * commands.length := updated.ringTail
  have log : u.ringEvents = .commands (w.submissions + 1) w.context.ringTail
      (4 * commands.length) :: w.ringEvents := updated.ringEvents
  have ubelow : ∀ o, o < u.context.ringTail → Written (.submitted u.submissions :: u.ringEvents) o := by
    intro o ho
    rw [log]
    by_cases old : o < w.context.ringTail
    · exact ((below o old).cons _).cons _
    · exact (written_head rfl (by omega) (by omega) _).cons _
  have heads : ∀ h, IsCopy cs u.context h → h.ringHead ≤ u.context.ringTail ∨
      ∀ o, o < ringSize → Written (.submitted u.submissions :: u.ringEvents) o := by
    intro h' copy'
    obtain ⟨h, copy, -, hhead⟩ := updated.registers h' copy'
    have old : IsCopy cs s.context h := copies h (by
      cases copy with
      | lrca live => exact .lrca live
      | ringData enabled live => exact .ringData enabled live)
    rw [hhead]
    cases overrideRingHead with
    | true => exact .inl (by simp only [if_true]; omega)
    | false =>
      rw [log]
      rcases all with ⟨htail, hlog⟩ | hall
      · rcases inv.filled.heads h old with hle | hall
        · exact .inl (by simp only [Bool.false_eq_true, if_false]; omega)
        · exact .inr fun o ho => (((hlog ▸ hall o ho : Written w.ringEvents o)).cons _).cons _
      · exact .inr fun o ho => ((hall o ho).cons _).cons _
  have tails : ∀ h, IsCopy cs u.context h → h.ringTail = u.context.ringTail := by
    intro h' copy'
    obtain ⟨h, -, htail, -⟩ := updated.registers h' copy'
    rw [htail, updated.ringTail]
  refine ⟨⟨updated.ready, tails, ?_, ?_⟩, updated.placed (placed.congr rfl rfl rfl), ?_⟩
  · intro h copy o ho between
    rw [tails h copy] at between
    exact between_written ubelow (heads h copy) ho between
  · exact updated.streamed (writeCommands_streamed streamed placed (Nat.le_of_lt fits))
  · exact ⟨by rw [tail]; exact fits, ubelow, heads⟩

theorem initializeContext_consistent {s : HwState} (released : s.context.pLRCA = none)
    (ringData : cs.isRingDataEnabled = true ∨ s.context.pRingData = .null)
    (fresh : s.context.ringTail = 0) : Consistent cs (initializeContext cs s) := by
  have init : Initialized cs s (initializeContext cs s) := initializeContext_initialized released
  have tail := init.ringTail.trans fresh
  refine ⟨⟨init.ready ringData, ?_, ?_, init.streamed⟩, init.placed, ?_⟩
  · intro h copy
    rw [(init.registers h copy).2, tail]
  · intro h copy o _ between
    rw [(init.registers h copy).1, (init.registers h copy).2] at between
    simp [Between] at between
  · refine ⟨by rw [tail]; decide, fun o ho => absurd ho (by omega), fun h copy => .inl ?_⟩
    rw [(init.registers h copy).1]
    exact Nat.zero_le _

/-- Initializing a context that has submitted resets the tail that the copies name, and nothing
else. -/
theorem initializeContext_not_agree {s : HwState} (released : s.context.pLRCA = none)
    (submitted : s.context.ringTail ≠ 0) : ¬ Agree cs (initializeContext cs s) := by
  intro agree
  have init : Initialized cs s (initializeContext cs s) := initializeContext_initialized released
  obtain ⟨p, hp⟩ := agree.ready.lrca
  have tail := agree.tail _ (.lrca hp)
  rw [(init.registers _ (.lrca hp)).2, init.ringTail] at tail
  exact submitted tail.symm

theorem initializeContext_live {s : HwState} (live : s.context.pLRCA.isSome) :
    initializeContext cs s = s := if_pos live

theorem release_spec {s s' : HwState} (done : release s = some s') :
    s'.context.pLRCA = none ∧ s'.context.ringTail = s.context.ringTail ∧
      (s.context.pRingData = .null → s'.context.pRingData = .null) := by
  unfold release at done
  split at done
  · exact absurd done nofun
  · obtain rfl := Option.some.inj done
    exact ⟨rfl, rfl, id⟩
  · rename_i hq
    obtain rfl := Option.some.inj done
    exact ⟨rfl, rfl, fun h => absurd (hq.symm.trans h) nofun⟩

theorem release_ready {s : HwState} (ready : Ready cs s.context) : ∃ s', release s = some s' := by
  unfold release
  rcases ready.ringData with ⟨⟨q, hq⟩, -⟩ | ⟨hnull, -⟩
  · rw [hq]
    exact ⟨_, rfl⟩
  · rw [hnull]
    exact ⟨_, rfl⟩

theorem stream_eq {s : ManagerState} (working : s.file ≠ .failed) (hw : HwState) :
    stream s hw = { s with hw := hw } := by rw [stream, if_neg working]

theorem stream_context (s : ManagerState) (hw : HwState) : (stream s hw).hw.context = hw.context := by
  unfold stream
  split <;> rfl

theorem stream_self (s : ManagerState) : stream s s.hw = s := by
  unfold stream
  split <;> rfl

theorem closeFile_context (m : Manager) (s : ManagerState) :
    (closeFile m s).hw.context = s.hw.context := by
  unfold closeFile
  split <;> rfl

theorem openFile_hw (m : Manager) (s : ManagerState) : (openFile m s).hw = s.hw := by
  unfold openFile
  split <;> rfl

end

structure Inv (m : Manager) (s : ManagerState) : Prop where
  ringData : m.cs.isRingDataEnabled = true ∨ s.hw.context.pRingData = .null
  live : s.hw.context.pLRCA.isSome → Consistent m.cs s.hw

section
variable {m : Manager}

/-- With a ring state the copy may have been freed, else it is null. -/
theorem Inv.ofConsistent {s : ManagerState} (h : Consistent m.cs s.hw) : Inv m s := by
  refine ⟨?_, fun _ => h⟩
  rcases h.agree.ready.ringData with ⟨-, enabled⟩ | ⟨hnull, -⟩
  · exact .inl enabled
  · exact .inr hnull

theorem Inv.ofReleased {s : ManagerState}
    (ringData : m.cs.isRingDataEnabled = true ∨ s.hw.context.pRingData = .null)
    (released : s.hw.context.pLRCA = none) : Inv m s :=
  ⟨ringData, fun live => absurd (released ▸ live) nofun⟩

theorem Inv.init {s : ManagerState} (inv : Inv m s)
    (ok : s.hw.context.pLRCA = none → s.hw.context.ringTail = 0 ∧ s.file ≠ .failed) :
    Inv m (stream s (initializeContext m.cs s.hw)) := by
  by_cases live : s.hw.context.pLRCA.isSome
  · rw [initializeContext_live live, stream_self]
    exact inv
  · have released := Option.not_isSome_iff_eq_none.mp live
    obtain ⟨fresh, working⟩ := ok released
    rw [stream_eq working]
    exact .ofConsistent (initializeContext_consistent released inv.ringData fresh)

theorem submit_live {s s' : HwState} {cs : CommandStreamerHelper} {gfxAddress : Nat}
    {overrideRingHead : Bool}
    (done : submitBatchBuffer cs gfxAddress overrideRingHead s = some s') :
    s.context.pLRCA.isSome := by
  cases live : s.context.pLRCA with
  | some p => rfl
  | none =>
    have wrapped : ∀ size, (wrapRing cs size s).context.pLRCA = none := by
      intro size
      unfold wrapRing
      split <;> exact live
    simp [submitBatchBuffer, updateLRCA, writeCommands, wrapped] at done

theorem Inv.step {s s' : ManagerState} (inv : Inv m s) (o : Op) (allowed : Allowed m s o)
    (done : step m s o = some s') : Inv m s' := by
  cases o with
  | init =>
    obtain rfl := Option.some.inj done
    exact inv.init allowed
  | submitBatchBuffer gfxAddress overrideRingHead =>
    obtain ⟨hw, submitted, rfl⟩ := Option.map_eq_some_iff.mp done
    rw [stream_eq allowed]
    exact .ofConsistent (submitBatchBuffer_consistent (inv.live (submit_live submitted)) submitted)
  | release =>
    obtain ⟨hw, released, rfl⟩ := Option.map_eq_some_iff.mp done
    obtain ⟨lrca, -, ringData⟩ := release_spec released
    refine .ofReleased ?_ ((congrArg _ (stream_context s hw)).trans lrca)
    rw [stream_context]
    exact inv.ringData.imp_right ringData
  | close =>
    obtain ⟨hw, released, rfl⟩ := Option.map_eq_some_iff.mp done
    obtain ⟨lrca, -, ringData⟩ := release_spec released
    have context := (closeFile_context m (stream s hw)).trans (stream_context s hw)
    refine .ofReleased ?_ ((congrArg _ context).trans lrca)
    rw [context]
    exact inv.ringData.imp_right ringData
  | «open» =>
    have opened : Inv m (openFile m s) := ⟨(openFile_hw m s).symm ▸ inv.ringData,
      (openFile_hw m s).symm ▸ inv.live⟩
    simp only [RingRegisters.step] at done
    split at done
    · obtain rfl := Option.some.inj done
      exact opened
    · rename_i initializes
      obtain rfl := Option.some.inj done
      refine opened.init fun released => ?_
      rw [openFile_hw] at released ⊢
      exact allowed released initializes

end

def exampleCore : CoreTraits := ⟨true, true, false, 0x8000⟩

def exampleManager : Manager :=
  ⟨commandStreamerHelperCcs exampleCore 0 0, true, false, fun _ => 0⟩

end RingRegisters
