import Mathlib.Logic.Function.Basic
import Aubstream.AubPackets
import Aubstream.Transitions

/-!
# Files of an AUB file stream

A stream is opened and closed any number of times. What it is given while no file is
open waits in a buffer, and goes to the next file behind the header.
-/

namespace FileCycles
open AubPackets Transitions

/-- The parts that the header has of a `GpuDescriptor`. -/
structure GpuDescriptor where
  deviceId : Nat
  productAbbreviation : List UInt8

/-- `getHeaderStr`, with the bytes that it leaves 0. -/
def getHeaderStr (caller : Nat) : List UInt8 :=
  match caller with
  | 0 => [0x4e, 0x45, 0x4f, 0]
  | 1 => [0x52, 0x4c, 0x52, 0]
  | 2 => [0x52, 0x4c, 0x43, 0]
  | 3 => [0x52, 0x4c, 0x4c, 0]
  | 4 => [0x52, 0x4c, 0, 0]
  | _ => [0x55, 0x4e, 0x4b, 0]

def deviceAbbreviation (gpu : GpuDescriptor) : List UInt8 :=
  let copied := if gpu.deviceId = 0 then gpu.productAbbreviation.take 8 else []
  copied ++ List.replicate (8 - copied.length) 0

/-- `CmdServicesMemTraceVersion`, as `init` fills it. -/
def versionHeader (aubStreamCaller : Nat) (stepping : Int) (gpu : GpuDescriptor) : List UInt8 :=
  commandHeader 5 0xe ++ dword 0 ++
    dword (2 ^ 3 * (stepping % 2 ^ 5).toNat + 2 ^ 8 * (gpu.deviceId % 2 ^ 8) + 2 ^ 18 + 2 ^ 28 * 5) ++
    deviceAbbreviation gpu ++ getHeaderStr aubStreamCaller

/-- `failed`: opened again while open; the library then drops all writes. -/
inductive FileHandle where
  | closed
  | opened (name : String)
  | failed (name : String)

/-- `disk` has the bytes of each file; all writes to files succeed. The source has no `files`: names
and bytes of the files as they were closed. -/
structure AubFileStream where
  fileHandle : FileHandle
  tmpWriteBuffer : List UInt8
  disk : String → Option (List UInt8)
  files : List (String × List UInt8)

inductive StreamOp where
  | open (name : String)
  | init (stepping : Int) (gpu : GpuDescriptor)
  | write (buffer : List UInt8)
  | close

namespace AubFileStream

def write (s : AubFileStream) (buffer : List UInt8) : AubFileStream :=
  match s.fileHandle with
  | .closed => { s with tmpWriteBuffer := s.tmpWriteBuffer ++ buffer }
  | .opened name =>
    let old := (s.disk name).getD []
    { s with disk := Function.update s.disk name (some (old ++ buffer)) }
  | .failed _ => s

/-- The file is emptied if there is one. -/
def openFile (s : AubFileStream) (name : String) : AubFileStream :=
  match s.fileHandle with
  | .closed => { s with
      fileHandle := .opened name
      disk := Function.update s.disk name (some []) }
  | .opened old => { s with fileHandle := .failed old }
  | .failed old => { s with fileHandle := .failed old }

def closeFile (s : AubFileStream) : AubFileStream :=
  match s.fileHandle with
  | .closed => s
  | .opened name | .failed name => { s with
      fileHandle := .closed
      files := s.files ++ [(name, (s.disk name).getD [])] }

/-- Without a file the buffer would be inserted into itself, which is not defined. -/
def init (aubStreamCaller : Nat) (s : AubFileStream) (stepping : Int) (gpu : GpuDescriptor) :
    Option AubFileStream :=
  match s.fileHandle with
  | .closed => none
  | _ =>
    let s := s.write (versionHeader aubStreamCaller stepping gpu)
    if 0 < s.tmpWriteBuffer.length then
      some { s.write s.tmpWriteBuffer with tmpWriteBuffer := [] }
    else some s

def step (aubStreamCaller : Nat) (s : AubFileStream) : StreamOp → Option AubFileStream
  | .open name => some (s.openFile name)
  | .init stepping gpu => s.init aubStreamCaller stepping gpu
  | .write buffer => some (s.write buffer)
  | .close => some s.closeFile

end AubFileStream

/-- A stream that was just constructed, and the files that there are. -/
def start (disk : String → Option (List UInt8)) : AubFileStream := ⟨.closed, [], disk, []⟩

/-- Files are opened while none is, and each `init` follows its `open`. Closing a stream without a file
is allowed. -/
def Cycled : Bool → List StreamOp → Prop
  | _, [] => True
  | isOpen, .write _ :: ops => Cycled isOpen ops
  | _, .close :: ops => Cycled false ops
  | false, .open _ :: .init _ _ :: ops => Cycled true ops
  | _, _ => False

/-- What can come while no file is open. -/
inductive Idle where
  | write (buffer : List UInt8)
  | close

def Idle.op : Idle → StreamOp
  | .write buffer => .write buffer
  | .close => .close

def Idle.bytes : Idle → List UInt8
  | .write buffer => buffer
  | .close => []

/-- A file with everything from the previous one on. -/
structure Cycle where
  before : List Idle
  name : String
  stepping : Int
  gpu : GpuDescriptor
  during : List (List UInt8)

namespace Cycle

/-- All but the end. -/
def openOps (c : Cycle) : List StreamOp :=
  c.before.map Idle.op ++ (.open c.name :: .init c.stepping c.gpu :: c.during.map .write)

def ops (c : Cycle) : List StreamOp := c.openOps ++ [.close]

/-- The header, what was written before the file was open, and what was written while it was. -/
def contents (aubStreamCaller : Nat) (c : Cycle) : List UInt8 :=
  versionHeader aubStreamCaller c.stepping c.gpu ++ c.before.flatMap Idle.bytes ++ c.during.flatten

end Cycle

/-- The end of a run: no file is open, or one still is. -/
inductive Last where
  | idle (waiting : List Idle)
  | current (c : Cycle)

def Last.ops : Last → List StreamOp
  | .idle waiting => waiting.map Idle.op
  | .current c => c.openOps

/-- A run by its files. -/
structure Session where
  cycles : List Cycle
  last : Last

def Session.ops (session : Session) : List StreamOp :=
  session.cycles.flatMap Cycle.ops ++ session.last.ops

/-- A later file takes the place of an earlier one of its name. -/
def Session.onDisk (aubStreamCaller : Nat) (session : Session)
    (disk : String → Option (List UInt8)) : String → Option (List UInt8) :=
  let closed : String → Option (List UInt8) := session.cycles.foldl
    (fun d c => Function.update d c.name (some (c.contents aubStreamCaller))) disk
  match session.last with
  | .idle _ => closed
  | .current c => Function.update closed c.name (some (c.contents aubStreamCaller))

/-- Each file has its bytes, and what has no file yet waits. -/
structure FilesComplete (aubStreamCaller : Nat) (disk : String → Option (List UInt8))
    (session : Session) (s : AubFileStream) : Prop where
  files : s.files = session.cycles.map fun c => (c.name, c.contents aubStreamCaller)
  disk : s.disk = session.onDisk aubStreamCaller disk
  idle : ∀ waiting, session.last = .idle waiting →
    s.fileHandle = .closed ∧ s.tmpWriteBuffer = waiting.flatMap Idle.bytes
  current : ∀ c, session.last = .current c →
    s.fileHandle = .opened c.name ∧ s.tmpWriteBuffer = []

section
variable {caller : Nat}

/-- The buffer grows, and nothing else changes. -/
theorem run_idle (waiting : List Idle) (s : AubFileStream) (closed : s.fileHandle = .closed) :
    runAll (AubFileStream.step caller) s (waiting.map Idle.op) =
      some { s with tmpWriteBuffer := s.tmpWriteBuffer ++ waiting.flatMap Idle.bytes } := by
  induction waiting generalizing s with
  | nil => rw [List.flatMap_nil, List.append_nil]; rfl
  | cons x waiting ih =>
    rw [List.map_cons, List.flatMap_cons, ← List.append_assoc]
    cases x with
    | write buffer =>
      have hwrite : s.write buffer = { s with tmpWriteBuffer := s.tmpWriteBuffer ++ buffer } := by
        rw [AubFileStream.write, closed]
      have hrest := ih (s.write buffer) (by rw [hwrite]; exact closed)
      rw [hwrite] at hrest
      rw [runAll, Idle.op, AubFileStream.step, hwrite]
      exact hrest
    | close =>
      have hclose : s.closeFile = s := by rw [AubFileStream.closeFile, closed]
      rw [runAll, Idle.op, AubFileStream.step, hclose, Idle.bytes, List.append_nil]
      exact ih s closed

/-- The open file grows, and nothing else changes. -/
theorem run_during {name : String} (buffers : List (List UInt8)) (s : AubFileStream)
    (opened : s.fileHandle = .opened name) {old : List UInt8} (hold : s.disk name = some old) :
    runAll (AubFileStream.step caller) s (buffers.map .write) =
      some { s with disk := Function.update s.disk name (some (old ++ buffers.flatten)) } := by
  induction buffers generalizing s old with
  | nil =>
    rw [List.flatten_nil, List.append_nil, ← hold, Function.update_eq_self]
    rfl
  | cons buffer buffers ih =>
    have hwrite : s.write buffer =
        { s with disk := Function.update s.disk name (some (old ++ buffer)) } := by
      rw [AubFileStream.write, opened]
      simp only [hold, Option.getD_some]
    have hrest := @ih (s.write buffer) (by rw [hwrite]; exact opened) (old ++ buffer)
      (by rw [hwrite]; exact Function.update_self _ _ _)
    rw [List.map_cons, runAll, AubFileStream.step, List.flatten_cons, ← List.append_assoc]
    refine hrest.trans ?_
    simp only [hwrite, Function.update_idem]

/-- Header and buffer are in the file before anything else. -/
theorem run_open (s : AubFileStream) (closed : s.fileHandle = .closed) (name : String)
    (stepping : Int) (gpu : GpuDescriptor) :
    runAll (AubFileStream.step caller) s [.open name, .init stepping gpu] = some { s with
      fileHandle := .opened name
      tmpWriteBuffer := []
      disk := Function.update s.disk name
        (some (versionHeader caller stepping gpu ++ s.tmpWriteBuffer)) } := by
  simp only [runAll, AubFileStream.step, AubFileStream.openFile, AubFileStream.init,
    AubFileStream.write, closed, Function.update_self, Function.update_idem, Option.getD_some,
    List.nil_append, Option.bind_some]
  split
  · rfl
  · rename_i hempty
    have hnil : s.tmpWriteBuffer = [] := List.eq_nil_of_length_eq_zero (by omega)
    rw [hnil, List.append_nil]
    rfl

/-- A file up to its close; the buffer starts with what is already there. -/
theorem run_openOps (c : Cycle) (s : AubFileStream) (closed : s.fileHandle = .closed)
    (empty : s.tmpWriteBuffer = []) :
    runAll (AubFileStream.step caller) s c.openOps = some { s with
      fileHandle := .opened c.name
      disk := Function.update s.disk c.name (some (c.contents caller)) } := by
  have hidle := @run_idle caller c.before s closed
  rw [empty, List.nil_append] at hidle
  rw [Cycle.openOps, runAll_append, hidle, Option.bind_some]
  have hopen := @run_open caller { s with tmpWriteBuffer := c.before.flatMap Idle.bytes } closed
    c.name c.stepping c.gpu
  have hsplit : (StreamOp.open c.name :: .init c.stepping c.gpu :: c.during.map .write) =
      [.open c.name, .init c.stepping c.gpu] ++ c.during.map .write := rfl
  rw [hsplit, runAll_append, hopen, Option.bind_some,
    run_during c.during _ rfl (Function.update_self _ _ _)]
  simp only [Function.update_idem, Cycle.contents, empty]

/-- The whole cycle; the buffer is empty again. -/
theorem run_cycle (c : Cycle) (s : AubFileStream) (closed : s.fileHandle = .closed)
    (empty : s.tmpWriteBuffer = []) :
    runAll (AubFileStream.step caller) s c.ops = some { s with
      disk := Function.update s.disk c.name (some (c.contents caller))
      files := s.files ++ [(c.name, c.contents caller)] } := by
  rw [Cycle.ops, runAll_append, run_openOps c s closed empty, Option.bind_some]
  simp only [runAll, AubFileStream.step, AubFileStream.closeFile, Option.bind_some,
    Function.update_self, Option.getD_some, closed]

theorem run_cycles (cycles : List Cycle) (s : AubFileStream) (closed : s.fileHandle = .closed)
    (empty : s.tmpWriteBuffer = []) :
    runAll (AubFileStream.step caller) s (cycles.flatMap Cycle.ops) = some { s with
      disk := cycles.foldl (fun d c => Function.update d c.name (some (c.contents caller))) s.disk
      files := s.files ++ cycles.map fun c => (c.name, c.contents caller) } := by
  induction cycles generalizing s with
  | nil =>
    rw [List.map_nil, List.append_nil]
    rfl
  | cons c cycles ih =>
    rw [List.flatMap_cons, runAll_append, run_cycle c s closed empty, Option.bind_some]
    have hrest := ih { s with
      disk := Function.update s.disk c.name (some (c.contents caller))
      files := s.files ++ [(c.name, c.contents caller)] } closed empty
    simp only [List.append_assoc, List.singleton_append] at hrest
    exact hrest

theorem run_session (session : Session) (disk : String → Option (List UInt8)) :
    ∃ s, runAll (AubFileStream.step caller) (start disk) session.ops = some s ∧
      FilesComplete caller disk session s := by
  have hcycles := @run_cycles caller session.cycles (start disk) rfl rfl
  cases hlast : session.last with
  | idle waiting =>
    have hrun := congrArg (Option.bind · fun s =>
      runAll (AubFileStream.step caller) s (waiting.map Idle.op)) hcycles
    simp only [Option.bind_some, ← runAll_append] at hrun
    rw [run_idle waiting _ rfl] at hrun
    have hops : session.ops = session.cycles.flatMap Cycle.ops ++ waiting.map Idle.op := by
      rw [Session.ops, hlast, Last.ops]
    rw [hops]
    refine ⟨_, hrun, rfl, ?_, fun waiting' h => ?_, fun c h => ?_⟩
    · rw [Session.onDisk, hlast]
      rfl
    · obtain rfl := Last.idle.inj (hlast.symm.trans h)
      exact ⟨rfl, rfl⟩
    · cases hlast.symm.trans h
  | current c =>
    have hrun := congrArg (Option.bind · fun s =>
      runAll (AubFileStream.step caller) s c.openOps) hcycles
    simp only [Option.bind_some, ← runAll_append] at hrun
    rw [run_openOps c _ rfl rfl] at hrun
    have hops : session.ops = session.cycles.flatMap Cycle.ops ++ c.openOps := by
      rw [Session.ops, hlast, Last.ops]
    rw [hops]
    refine ⟨_, hrun, rfl, ?_, fun waiting h => ?_, fun c' h => ?_⟩
    · rw [Session.onDisk, hlast]
      rfl
    · cases hlast.symm.trans h
    · obtain rfl := Last.current.inj (hlast.symm.trans h)
      exact ⟨rfl, rfl⟩

end

/-- One more operation before a run. -/
def Session.prepend (x : Idle) (session : Session) : Session :=
  match session.cycles, session.last with
  | c :: cycles, last => ⟨{ c with before := x :: c.before } :: cycles, last⟩
  | [], .idle waiting => ⟨[], .idle (x :: waiting)⟩
  | [], .current c => ⟨[], .current { c with before := x :: c.before }⟩

theorem Session.prepend_ops (x : Idle) (session : Session) :
    (session.prepend x).ops = x.op :: session.ops := by
  obtain ⟨cycles, last⟩ := session
  cases cycles with
  | cons c cycles => rfl
  | nil => cases last <;> rfl

/-- A run of this kind, from a closed or an open file on. -/
def Parsed : Bool → List StreamOp → Prop
  | false, ops => ∃ session : Session, session.ops = ops
  | true, ops => ∃ during : List (List UInt8), during.map .write = ops ∨
      ∃ session : Session, during.map .write ++ .close :: session.ops = ops

theorem parsed_write {isOpen : Bool} {ops : List StreamOp} (buffer : List UInt8)
    (parsed : Parsed isOpen ops) : Parsed isOpen (.write buffer :: ops) := by
  cases isOpen with
  | false =>
    obtain ⟨session, rfl⟩ := parsed
    exact ⟨session.prepend (.write buffer), session.prepend_ops (.write buffer)⟩
  | true =>
    obtain ⟨during, rfl | ⟨session, rfl⟩⟩ := parsed
    · exact ⟨buffer :: during, Or.inl rfl⟩
    · exact ⟨buffer :: during, Or.inr ⟨session, rfl⟩⟩

theorem parsed_close {isOpen : Bool} {ops : List StreamOp} (parsed : Parsed false ops) :
    Parsed isOpen (.close :: ops) := by
  obtain ⟨session, rfl⟩ := parsed
  cases isOpen with
  | false => exact ⟨session.prepend .close, session.prepend_ops .close⟩
  | true => exact ⟨[], Or.inr ⟨session, rfl⟩⟩

theorem parsed_open {ops : List StreamOp} (name : String) (stepping : Int) (gpu : GpuDescriptor)
    (parsed : Parsed true ops) : Parsed false (.open name :: .init stepping gpu :: ops) := by
  obtain ⟨during, rfl | ⟨session, rfl⟩⟩ := parsed
  · exact ⟨⟨[], .current ⟨[], name, stepping, gpu, during⟩⟩, rfl⟩
  · refine ⟨⟨⟨[], name, stepping, gpu, during⟩ :: session.cycles, session.last⟩, ?_⟩
    simp only [Session.ops, List.flatMap_cons, Cycle.ops, Cycle.openOps, List.map_nil,
      List.nil_append, List.cons_append, List.append_assoc]

/-- Every run in which files are opened and closed in turn is that of some files. -/
theorem cycled_parsed (isOpen : Bool) (ops : List StreamOp) (cycled : Cycled isOpen ops) :
    Parsed isOpen ops := by
  induction isOpen, ops using Cycled.induct with
  | case1 isOpen =>
    cases isOpen with
    | false => exact ⟨⟨[], .idle []⟩, rfl⟩
    | true => exact ⟨[], Or.inl rfl⟩
  | case2 isOpen buffer ops ih =>
    rw [Cycled] at cycled
    exact parsed_write buffer (ih cycled)
  | case3 isOpen ops ih =>
    rw [Cycled] at cycled
    exact parsed_close (ih cycled)
  | case4 name stepping gpu ops ih => exact parsed_open name stepping gpu (ih cycled)
  | case5 ops isOpen hnil hwrite hclose hopen =>
    rw [Cycled] at cycled
    · exact cycled.elim
    all_goals assumption

/-- Nothing that is written is lost, doubled or moved between files. -/
theorem run_filesComplete (caller : Nat) (disk : String → Option (List UInt8))
    (ops : List StreamOp) (cycled : Cycled false ops) :
    ∃ session : Session, session.ops = ops ∧ ∃ s,
      runAll (AubFileStream.step caller) (start disk) ops = some s ∧
        FilesComplete caller disk session s := by
  obtain ⟨session, rfl⟩ := cycled_parsed false ops cycled
  exact ⟨session, rfl, run_session session disk⟩

/-- A file between two writes to no file. -/
theorem run_filesComplete_aFile :
    let ops : List StreamOp :=
      [.write [1], .open "a", .init 0 ⟨0, []⟩, .write [2], .close, .write [3]]
    Cycled false ops ∧ ∃ session : Session, session.ops = ops ∧ ∃ s,
      runAll (AubFileStream.step 0) (start fun _ => none) ops = some s ∧
        FilesComplete 0 (fun _ => none) session s :=
  ⟨trivial, run_filesComplete 0 (fun _ => none) _ trivial⟩

end FileCycles
