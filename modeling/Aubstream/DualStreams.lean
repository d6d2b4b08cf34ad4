import Mathlib.Algebra.BigOperators.Group.List.Basic
import Aubstream.PageWalker

/-!
# Dual streams

`AubTbxStream` and `AubShmStream` forward each call to an AUB file stream and to a TBX
or shared memory stream. Pausing takes the first out, blocking takes the memory writes
of the second out. What a sub-stream does with a call is not a matter of this module.
-/

namespace DualStreams
open PageWalker

/-- `AubTbxStream` and `AubShmStream`. -/
inductive DualStream where
  | aubTbx
  | aubShm
  deriving DecidableEq

/-- `tbx` is `tbxStream` or `tbxShmStream`. -/
inductive SubStream where
  | aubFile
  | tbx
  deriving DecidableEq

inductive PageTableType where
  | PAGE_TABLE_GGTT
  | PAGE_TABLE_PPGTT
  deriving DecidableEq

/-- A call with its arguments. References and pointers are their addresses. -/
inductive StreamCall where
  | init (steppingValue : Int) (gpu : Nat)
  | addComment (message : Nat)
  | declareContextForDumping (handleDumpContext pageTable : Nat)
  | dumpBufferBIN (gttType : PageTableType) (gfxAddress size handleDumpContext : Nat)
  | dumpSurface (gttType : PageTableType) (surfaceInfo handleDumpContext : Nat)
  | registerPoll (registerOffset mask desiredValue : Nat) (pollNotEqual : Bool) (timeoutAction : Nat)
  | writeMMIO (offset value mask : Nat)
  | readMMIO (offset : Nat)
  | writePCICFG (offset value : Nat)
  | readPCICFG (offset : Nat)
  | writeGttPages (ggtt : Nat) (writeInfoTable : List PageEntryInfo)
  | expectMemoryTable (memory size : Nat) (writeInfoTable : List PageInfo) (compareOperation : Nat)
  | reserveContiguousPages (entries : List Nat)
  | readDiscontiguousPages (memory size : Nat) (writeInfoTable : List PageInfo)
  | writeContiguousPages (memory size physAddress : Nat) (addressSpace hint : Int)
  | writeDiscontiguousPages (memory size : Nat) (writeInfoTable : List PageInfo) (hint : Int)
  | writeDiscontiguousEntries (writeInfoTable : List PageEntryInfo) (addressSpace hint : Int)
  | memoryPoll (entries : List PageInfo) (value compareMode : Nat)
  deriving DecidableEq

section
variable (isAubFileStreamPaused : Bool)

/-- The AUB file stream, unless it is paused. -/
def toAubFile (c : StreamCall) : List (SubStream × StreamCall) :=
  if isAubFileStreamPaused then [] else [(.aubFile, c)]

def toTbx (c : StreamCall) : List (SubStream × StreamCall) := [(.tbx, c)]

/-- Most methods. -/
def toBoth (c : StreamCall) : List (SubStream × StreamCall) :=
  toAubFile isAubFileStreamPaused c ++ toTbx c

/-- The methods of `AubTbxStream`. -/
def AubTbxStream.forward : StreamCall → List (SubStream × StreamCall)
  | .init steppingValue gpu => (.aubFile, .init steppingValue gpu) :: toTbx (.init steppingValue gpu)
  | .addComment message => toBoth isAubFileStreamPaused (.addComment message)
  | .declareContextForDumping handleDumpContext pageTable =>
    toBoth isAubFileStreamPaused (.declareContextForDumping handleDumpContext pageTable)
  | .dumpBufferBIN gttType gfxAddress size handleDumpContext =>
    toBoth isAubFileStreamPaused (.dumpBufferBIN gttType gfxAddress size handleDumpContext)
  | .dumpSurface gttType surfaceInfo handleDumpContext =>
    toBoth isAubFileStreamPaused (.dumpSurface gttType surfaceInfo handleDumpContext)
  | .registerPoll registerOffset mask desiredValue pollNotEqual timeoutAction =>
    toBoth isAubFileStreamPaused
      (.registerPoll registerOffset mask desiredValue pollNotEqual timeoutAction)
  | StreamCall.writeMMIO offset value mask =>
    toBoth isAubFileStreamPaused ( StreamCall.writeMMIO offset value mask)
  | StreamCall.readMMIO offset => toTbx ( StreamCall.readMMIO offset)
  | .writePCICFG offset value => toBoth isAubFileStreamPaused (.writePCICFG offset value)
  | .readPCICFG offset => toTbx (.readPCICFG offset)
  | .writeGttPages ggtt writeInfoTable =>
    toBoth isAubFileStreamPaused (.writeGttPages ggtt writeInfoTable)
  | .expectMemoryTable memory size writeInfoTable compareOperation =>
    toBoth isAubFileStreamPaused (.expectMemoryTable memory size writeInfoTable compareOperation)
  | .reserveContiguousPages entries => toBoth isAubFileStreamPaused (.reserveContiguousPages entries)
  | .readDiscontiguousPages memory size writeInfoTable =>
    toTbx (.readDiscontiguousPages memory size writeInfoTable)
  | .writeContiguousPages memory size physAddress addressSpace hint =>
    toBoth isAubFileStreamPaused (.writeContiguousPages memory size physAddress addressSpace hint)
  | .writeDiscontiguousPages memory size writeInfoTable hint =>
    toBoth isAubFileStreamPaused (.writeDiscontiguousPages memory size writeInfoTable hint)
  | .writeDiscontiguousEntries writeInfoTable addressSpace hint =>
    toBoth isAubFileStreamPaused (.writeDiscontiguousEntries writeInfoTable addressSpace hint)
  | .memoryPoll entries value compareMode =>
    toBoth isAubFileStreamPaused (.memoryPoll entries value compareMode)

variable (isTbxStreamBlockedForMemWrites : Bool)

/-- The memory writes of `AubShmStream`. -/
def toUnblocked (c : StreamCall) : List (SubStream × StreamCall) :=
  toAubFile isAubFileStreamPaused c ++ if isTbxStreamBlockedForMemWrites then [] else toTbx c

/-- The methods of `AubShmStream`. -/
def AubShmStream.forward : StreamCall → List (SubStream × StreamCall)
  | .init steppingValue gpu => (.aubFile, .init steppingValue gpu) :: toTbx (.init steppingValue gpu)
  | .addComment message => toBoth isAubFileStreamPaused (.addComment message)
  | .declareContextForDumping handleDumpContext pageTable =>
    toBoth isAubFileStreamPaused (.declareContextForDumping handleDumpContext pageTable)
  | .dumpBufferBIN gttType gfxAddress size handleDumpContext =>
    toBoth isAubFileStreamPaused (.dumpBufferBIN gttType gfxAddress size handleDumpContext)
  | .dumpSurface gttType surfaceInfo handleDumpContext =>
    toBoth isAubFileStreamPaused (.dumpSurface gttType surfaceInfo handleDumpContext)
  | .registerPoll registerOffset mask desiredValue pollNotEqual timeoutAction =>
    toBoth isAubFileStreamPaused
      (.registerPoll registerOffset mask desiredValue pollNotEqual timeoutAction)
  | StreamCall.writeMMIO offset value mask =>
    toBoth isAubFileStreamPaused ( StreamCall.writeMMIO offset value mask)
  | StreamCall.readMMIO offset => toTbx ( StreamCall.readMMIO offset)
  -- the branch for the AUB file stream calls the other stream
  | .writePCICFG offset value =>
    (if isAubFileStreamPaused then [] else toTbx (.writePCICFG offset value)) ++
      toTbx (.writePCICFG offset value)
  | .readPCICFG offset => toTbx (.readPCICFG offset)
  | .writeGttPages ggtt writeInfoTable =>
    toBoth isAubFileStreamPaused (.writeGttPages ggtt writeInfoTable)
  | .expectMemoryTable memory size writeInfoTable compareOperation =>
    toBoth isAubFileStreamPaused (.expectMemoryTable memory size writeInfoTable compareOperation)
  | .reserveContiguousPages entries => toBoth isAubFileStreamPaused (.reserveContiguousPages entries)
  | .readDiscontiguousPages memory size writeInfoTable =>
    toTbx (.readDiscontiguousPages memory size writeInfoTable)
  | .writeContiguousPages memory size physAddress addressSpace hint =>
    toUnblocked isAubFileStreamPaused isTbxStreamBlockedForMemWrites
      (.writeContiguousPages memory size physAddress addressSpace hint)
  | .writeDiscontiguousPages memory size writeInfoTable hint =>
    toUnblocked isAubFileStreamPaused isTbxStreamBlockedForMemWrites
      (.writeDiscontiguousPages memory size writeInfoTable hint)
  | .writeDiscontiguousEntries writeInfoTable addressSpace hint =>
    toUnblocked isAubFileStreamPaused isTbxStreamBlockedForMemWrites
      (.writeDiscontiguousEntries writeInfoTable addressSpace hint)
  | .memoryPoll entries value compareMode =>
    toBoth isAubFileStreamPaused (.memoryPoll entries value compareMode)

end

def forward (stream : DualStream) (isAubFileStreamPaused isTbxStreamBlockedForMemWrites : Bool)
    (c : StreamCall) : List (SubStream × StreamCall) :=
  match stream with
  | .aubTbx => AubTbxStream.forward isAubFileStreamPaused c
  | .aubShm => AubShmStream.forward isAubFileStreamPaused isTbxStreamBlockedForMemWrites c

/-- Only `AubShmStream` can be blocked. -/
inductive Op : DualStream → Type where
  | call {stream : DualStream} (c : StreamCall) : Op stream
  | pauseAubFileStream {stream : DualStream} (onoff : Bool) : Op stream
  | blockMemWritesViaTbxStream (onoff : Bool) : Op .aubShm

/-- The flags, and what each sub-stream has received. -/
structure DualState where
  isAubFileStreamPaused : Bool
  isTbxStreamBlockedForMemWrites : Bool
  received : SubStream → List StreamCall

/-- What of the forwarded calls is a sub-stream's. -/
def callsOf (sub : SubStream) (sent : List (SubStream × StreamCall)) : List StreamCall :=
  (sent.filter fun x => x.1 = sub).map Prod.snd

def step {stream : DualStream} (s : DualState) : Op stream → DualState
  | .call c =>
    let sent := forward stream s.isAubFileStreamPaused s.isTbxStreamBlockedForMemWrites c
    { s with received := fun sub => s.received sub ++ callsOf sub sent }
  | .pauseAubFileStream onoff => { s with isAubFileStreamPaused := onoff }
  | .blockMemWritesViaTbxStream onoff => { s with isTbxStreamBlockedForMemWrites := onoff }

def run {stream : DualStream} (s : DualState) (ops : List (Op stream)) : DualState :=
  ops.foldl step s

/-- What a constructor leaves. -/
def start : DualState := ⟨false, false, fun _ => []⟩

/-- A call and the flags that it was issued under. -/
structure Issued where
  call : StreamCall
  paused : Bool
  blocked : Bool

/-- The flags after an operation. -/
def Op.flags {stream : DualStream} (paused blocked : Bool) : Op stream → Bool × Bool
  | .call _ => (paused, blocked)
  | .pauseAubFileStream onoff => (onoff, blocked)
  | .blockMemWritesViaTbxStream onoff => (paused, onoff)

def Op.issued {stream : DualStream} (paused blocked : Bool) : Op stream → List Issued
  | .call c => [⟨c, paused, blocked⟩]
  | .pauseAubFileStream _ => []
  | .blockMemWritesViaTbxStream _ => []

/-- The calls of a run, from the flags before it. -/
def issued {stream : DualStream} (paused blocked : Bool) : List (Op stream) → List Issued
  | [] => []
  | op :: ops => op.issued paused blocked ++
      issued (op.flags paused blocked).1 (op.flags paused blocked).2 ops

def StreamCall.isInit : StreamCall → Bool
  | .init _ _ => true
  | _ => false

def StreamCall.isRead : StreamCall → Bool
  | StreamCall.readMMIO _ => true
  | .readPCICFG _ => true
  | .readDiscontiguousPages _ _ _ => true
  | _ => false

def StreamCall.isMemoryWrite : StreamCall → Bool
  | .writeContiguousPages _ _ _ _ _ => true
  | .writeDiscontiguousPages _ _ _ _ => true
  | .writeDiscontiguousEntries _ _ _ => true
  | _ => false

def StreamCall.isWritePCICFG : StreamCall → Bool
  | .writePCICFG _ _ => true
  | _ => false

/-- A sub-stream is one for a call: the TBX stream for all but the memory writes that
`AubShmStream` blocks, the AUB file stream for all but the reads while it is not paused. -/
def reaches (stream : DualStream) (x : Issued) : SubStream → Bool
  | .aubFile => !x.call.isRead && !x.paused
  | .tbx => !(stream == .aubShm && x.call.isMemoryWrite && x.blocked)

/-- Each sub-stream has received the calls that it is one for, once and in order. -/
def FansOut {stream : DualStream} (ops : List (Op stream)) : Prop :=
  ∀ sub, (run start ops).received sub =
    ((issued false false ops).filter fun x => reaches stream x sub).map Issued.call

/-- The same, but an `init` reaches both. -/
def reachesInit (stream : DualStream) (x : Issued) (sub : SubStream) : Bool :=
  x.call.isInit || reaches stream x sub

/-- All but `AubShmStream::writePCICFG`. -/
def settled (stream : DualStream) (c : StreamCall) : Bool :=
  !(stream == .aubShm && c.isWritePCICFG)

/-- Each sub-stream has received the settled calls that reach it, once and in order. -/
def FansOutSettled {stream : DualStream} (ops : List (Op stream)) : Prop :=
  ∀ sub, ((run start ops).received sub).filter (settled stream) =
    (((issued false false ops).filter fun x => settled stream x.call).filter fun x =>
      reachesInit stream x sub).map Issued.call

/-- One call, by method: what each sub-stream receives of it. -/
theorem forward_settled {stream : DualStream} {x : Issued} (h : settled stream x.call = true)
    (sub : SubStream) : callsOf sub (forward stream x.paused x.blocked x.call) =
      if reachesInit stream x sub then [x.call] else [] := by
  obtain ⟨c, paused, blocked⟩ := x
  cases stream with
  | aubTbx => cases c <;> cases sub <;> cases paused <;> rfl
  | aubShm =>
    cases c with
    | writePCICFG offset value => exact absurd h Bool.false_ne_true
    | writeContiguousPages => cases sub <;> cases paused <;> cases blocked <;> rfl
    | writeDiscontiguousPages => cases sub <;> cases paused <;> cases blocked <;> rfl
    | writeDiscontiguousEntries => cases sub <;> cases paused <;> cases blocked <;> rfl
    | _ => cases sub <;> cases paused <;> rfl

theorem forward_unsettled {stream : DualStream} {x : Issued} (h : settled stream x.call = false)
    (sub : SubStream) :
    (callsOf sub (forward stream x.paused x.blocked x.call)).filter (settled stream) = [] := by
  obtain ⟨c, paused, blocked⟩ := x
  cases stream with
  | aubTbx => exact absurd h Bool.true_eq_false.mp
  | aubShm =>
    cases c with
    | writePCICFG offset value => cases sub <;> cases paused <;> rfl
    | _ => exact absurd h.symm Bool.false_ne_true

/-- A call as one step: `forward_settled` and `forward_unsettled` with the filter outside. -/
theorem forward_filter (stream : DualStream) (x : Issued) (sub : SubStream) :
    (callsOf sub (forward stream x.paused x.blocked x.call)).filter (settled stream) =
      if settled stream x.call && reachesInit stream x sub then [x.call] else [] := by
  cases h : settled stream x.call with
  | false => exact forward_unsettled h sub
  | true =>
    rw [forward_settled h, Bool.true_and]
    split
    · rw [List.filter_cons_of_pos h, List.filter_nil]
    · rfl

/-- What a sub-stream has received is what it is sent for the issued calls, one after another. -/
theorem run_received {stream : DualStream} (ops : List (Op stream)) (s : DualState)
    (sub : SubStream) : (run s ops).received sub = s.received sub ++
      (issued s.isAubFileStreamPaused s.isTbxStreamBlockedForMemWrites ops).flatMap fun x =>
        callsOf sub (forward stream x.paused x.blocked x.call) := by
  induction ops generalizing s with
  | nil =>
    rw [issued, List.flatMap_nil, List.append_nil]
    rfl
  | cons op ops ih =>
    have hrest := ih (step s op)
    rw [issued, List.flatMap_append, ← List.append_assoc]
    cases op with
    | call c =>
      rw [Op.issued, List.flatMap_singleton]
      exact hrest
    | pauseAubFileStream onoff =>
      rw [Op.issued, List.flatMap_nil, List.append_nil]
      exact hrest
    | blockMemWritesViaTbxStream onoff =>
      rw [Op.issued, List.flatMap_nil, List.append_nil]
      exact hrest

/-- A list of parts that are one element or none. -/
theorem flatMap_if {α β : Type} (keep : α → Bool) (f : α → β) (xs : List α) :
    (xs.flatMap fun x => if keep x then [f x] else []) = (xs.filter keep).map f := by
  induction xs with
  | nil => rfl
  | cons x xs ih =>
    rw [List.flatMap_cons, ih]
    cases h : keep x with
    | false => rw [List.filter_cons_of_neg (by simp [h]), if_neg Bool.false_ne_true, List.nil_append]
    | true => rw [List.filter_cons_of_pos h, if_pos rfl, List.map_cons, List.singleton_append]

/-- Both streams fan out, but for what `AubShmStream::writePCICFG` sends. -/
theorem run_fansOut (stream : DualStream) (ops : List (Op stream)) : FansOutSettled ops := by
  intro sub
  have hfilter : ∀ x, (callsOf sub (forward stream x.paused x.blocked x.call)).filter
      (settled stream) = if settled stream x.call && reachesInit stream x sub then [x.call] else [] :=
    fun x => forward_filter stream x sub
  rw [run_received, List.filter_append, List.filter_flatMap]
  simp only [hfilter]
  rw [flatMap_if, List.filter_filter]
  simp only [Bool.and_comm]
  rfl

/-- The branch of `AubShmStream::writePCICFG` for the AUB file stream is taken. -/
def misdirected (stream : DualStream) (x : Issued) : Bool :=
  !settled stream x.call && !x.paused

theorem forward_directed {stream : DualStream} {x : Issued} (h : misdirected stream x = false)
    (sub : SubStream) : callsOf sub (forward stream x.paused x.blocked x.call) =
      if reachesInit stream x sub then [x.call] else [] := by
  cases hsettled : settled stream x.call with
  | true => exact forward_settled hsettled sub
  | false =>
    obtain ⟨c, paused, blocked⟩ := x
    cases stream with
    | aubTbx => exact absurd hsettled Bool.true_eq_false.mp
    | aubShm =>
      cases c with
      | writePCICFG offset value =>
        cases paused with
        | true => cases sub <;> rfl
        | false => exact absurd h.symm Bool.false_ne_true
      | _ => exact absurd hsettled.symm Bool.false_ne_true

/-- The TBX stream gets one call too many for each that is misdirected. -/
theorem forward_tbx_length (stream : DualStream) (x : Issued) :
    (callsOf .tbx (forward stream x.paused x.blocked x.call)).length =
      (if reachesInit stream x .tbx then [x.call] else []).length +
        (misdirected stream x).toNat := by
  cases h : misdirected stream x with
  | false => rw [forward_directed h, Bool.toNat_false, Nat.add_zero]
  | true =>
    obtain ⟨c, paused, blocked⟩ := x
    cases stream with
    | aubTbx => exact absurd h.symm Bool.true_eq_false.mp
    | aubShm =>
      cases c with
      | writePCICFG offset value =>
        cases paused with
        | false => rfl
        | true => exact absurd h Bool.false_ne_true
      | _ => exact absurd h Bool.false_ne_true

/-- With that branch taken nowhere, and only then, no call is left out of `run_fansOut`. -/
theorem fansOutInit_iff (stream : DualStream) (ops : List (Op stream)) :
    (∀ sub, (run start ops).received sub =
      ((issued false false ops).filter fun x => reachesInit stream x sub).map Issued.call) ↔
      ∀ x ∈ issued false false ops, misdirected stream x = false := by
  constructor
  · intro fansOut x hx
    have hlength := congrArg List.length (fansOut .tbx)
    rw [run_received, ← flatMap_if, List.length_append, List.length_flatMap, List.length_flatMap]
      at hlength
    simp only [forward_tbx_length, List.sum_map_add, start, List.length_nil] at hlength
    have hnone : ((issued false false ops).map fun x => (misdirected stream x).toNat).sum = 0 := by
      omega
    have hzero := List.sum_eq_zero_iff_forall_eq_nat.mp hnone _ (List.mem_map_of_mem hx)
    exact Bool.toNat_eq_zero.mp hzero
  · intro directed sub
    have hcalls : ((issued false false ops).flatMap fun x =>
        callsOf sub (forward stream x.paused x.blocked x.call)) =
        (issued false false ops).flatMap fun x => if reachesInit stream x sub then [x.call] else [] := by
      apply List.flatMap_congr
      exact fun x hx => forward_directed (directed x hx) sub
    rw [run_received, ← flatMap_if]
    exact hcalls

/-- A paused AUB file stream is sent an `init`. -/
theorem not_fansOut : ¬ ∀ (stream : DualStream) (ops : List (Op stream)), FansOut ops := by
  intro claim
  have hinit := claim .aubTbx [.pauseAubFileStream true, .call (.init 0 0)] .aubFile
  revert hinit
  decide

end DualStreams
