import Aubstream.TraceCalls
import Aubstream.Refinement

/-!
# What AUB files hold

A stream that is given calls while files are opened and closed writes bytes; a
journal keeps the calls themselves. Each file of the stream, read on its own, does
what the calls in the journal's file do, one after the other.
-/

namespace TraceFiles
open AubPackets BitFields TracePackets Framing TraceReader TraceCalls FileCycles Transitions Refinement

inductive CoreFamily where
  | Gen12lp
  | XeHpCore
  | XeHpgCore
  | XeHpcCore
  | Xe2HpgCore
  | Xe3Core
  | Xe3pCore
  deriving DecidableEq

def CoreFamily.value : CoreFamily → Nat
  | Gen12lp => 3
  | XeHpCore => 4
  | XeHpgCore => 5
  | XeHpcCore => 6
  | Xe2HpgCore => 7
  | Xe3Core => 8
  | Xe3pCore => 9

def supportsDumps (gfxCoreFamily : CoreFamily) : Bool :=
  decide (CoreFamily.XeHpCore.value ≤ gfxCoreFamily.value ∧
    gfxCoreFamily.value ≤ CoreFamily.XeHpgCore.value)

/-- `dumpSupported` is set by `init`. -/
structure TraceStream where
  stream : AubFileStream
  dumpSupported : Bool

inductive Op where
  | open (name : String)
  | init (stepping : Int) (gpu : GpuDescriptor) (gfxCoreFamily : CoreFamily)
  | call (c : Call)
  | close

def Op.Recordable : Op → Prop
  | .call c => c.Recordable
  | _ => True

def step (aubStreamCaller : Nat) (s : TraceStream) : Op → Option TraceStream
  | .open name => some { s with stream := s.stream.openFile name }
  | .init stepping gpu gfxCoreFamily =>
    (s.stream.init aubStreamCaller stepping gpu).map fun stream =>
      ⟨stream, supportsDumps gfxCoreFamily⟩
  | .call c => some { s with stream := s.stream.write (c.bytes s.dumpSupported) }
  | .close => some { s with stream := s.stream.closeFile }

def start (disk : String → Option (List UInt8)) : TraceStream := ⟨FileCycles.start disk, false⟩

/-- What stands in a file: a version header or a call. -/
inductive Item where
  | header (stepping : Int) (gpu : GpuDescriptor)
  | call (dumpSupported : Bool) (c : Call)

namespace Item

def bytes (aubStreamCaller : Nat) : Item → List UInt8
  | header stepping gpu => versionHeader aubStreamCaller stepping gpu
  | call dumpSupported c => c.bytes dumpSupported

def effect (aubStreamCaller : Nat) (r : Reader) : Item → Reader
  | header stepping gpu => r.see (.version (stepping % 2 ^ 5).toNat (gpu.deviceId % 2 ^ 8)
      (deviceAbbreviation gpu) (getHeaderStr aubStreamCaller))
  | call dumpSupported c => c.perform dumpSupported r

end Item

/-- The same stream with items in place of bytes. Files that were there before it are not in
`disk`. -/
structure Journal where
  fileHandle : FileHandle
  waiting : List Item
  disk : String → Option (List Item)
  files : List (String × List Item)
  dumpSupported : Bool

namespace Journal

def write (j : Journal) (items : List Item) : Journal :=
  match j.fileHandle with
  | .closed => { j with waiting := j.waiting ++ items }
  | .opened name => { j with
      disk := Function.update j.disk name (some ((j.disk name).getD [] ++ items)) }
  | .failed _ => j

def openFile (j : Journal) (name : String) : Journal :=
  match j.fileHandle with
  | .closed => { j with
      fileHandle := .opened name
      disk := Function.update j.disk name (some []) }
  | .opened old | .failed old => { j with fileHandle := .failed old }

def closeFile (j : Journal) : Journal :=
  match j.fileHandle with
  | .closed => j
  | .opened name | .failed name => { j with
      fileHandle := .closed
      files := j.files ++ [(name, (j.disk name).getD [])] }

def init (j : Journal) (stepping : Int) (gpu : GpuDescriptor) (gfxCoreFamily : CoreFamily) :
    Option Journal :=
  match j.fileHandle with
  | .closed => none
  | _ => some { (j.write (.header stepping gpu :: j.waiting)) with
      waiting := []
      dumpSupported := supportsDumps gfxCoreFamily }

def step (j : Journal) : Op → Option Journal
  | .open name => some (j.openFile name)
  | .init stepping gpu gfxCoreFamily => j.init stepping gpu gfxCoreFamily
  | .call c => some (j.write [.call j.dumpSupported c])
  | .close => some j.closeFile

end Journal

def emptyJournal : Journal := ⟨.closed, [], fun _ => none, [], false⟩

/-- Cut by its packets' own lengths and executed, the file does what the items do. -/
def ReadsAs (aubStreamCaller : Nat) (data : List UInt8) (items : List Item) : Prop :=
  ∃ (packets : List (List UInt8)) (records : List Record),
    frames traceSize data = some packets ∧ packets.flatten = data ∧
    packets.map decodeRecord = records.map some ∧
    ∀ memory : Memory, records.foldl Reader.execute ⟨memory, [], []⟩ =
      items.foldl (Item.effect aubStreamCaller) ⟨memory, [], []⟩

/-- Every file, closed or not, reads as what the journal has for it. -/
structure FilesRead (aubStreamCaller : Nat) (s : TraceStream) (j : Journal) : Prop where
  names : s.stream.files.map Prod.fst = j.files.map Prod.fst
  closed : ∀ i (h : i < s.stream.files.length) (h' : i < j.files.length),
    ReadsAs aubStreamCaller (s.stream.files.get ⟨i, h⟩).2 (j.files.get ⟨i, h'⟩).2
  onDisk : ∀ name items, j.disk name = some items → ∃ data, s.stream.disk name = some data ∧
    ReadsAs aubStreamCaller data items
  waiting : ReadsAs aubStreamCaller s.stream.tmpWriteBuffer j.waiting

theorem number_dword (v : Nat) : number (dword v) = v % 2 ^ 32 := by
  simp only [dword, number, UInt8.toNat_ofNat']
  omega

theorem length_deviceAbbreviation (gpu : GpuDescriptor) : (deviceAbbreviation gpu).length = 8 := by
  have short : (if gpu.deviceId = 0 then gpu.productAbbreviation.take 8 else []).length ≤ 8 := by
    split
    · exact List.length_take_le _ _
    · exact Nat.zero_le 8
  rw [deviceAbbreviation]
  simp only [List.length_append, List.length_replicate]
  omega

theorem length_getHeaderStr (caller : Nat) : (getHeaderStr caller).length = 4 := by
  unfold getHeaderStr
  split <;> rfl

/-- The header that `init` writes is a packet. -/
theorem versionHeader_reads (caller : Nat) (stepping : Int) (gpu : GpuDescriptor) :
    Reads (versionHeader caller stepping gpu) (·.see (.version (stepping % 2 ^ 5).toNat
      (gpu.deviceId % 2 ^ 8) (deviceAbbreviation gpu) (getHeaderStr caller))) := by
  have habbreviation := length_deviceAbbreviation gpu
  have hcaller := length_getHeaderStr caller
  rw [versionHeader]
  generalize deviceAbbreviation gpu = abbreviation at habbreviation ⊢
  generalize getHeaderStr caller = line at hcaller ⊢
  have hstepping : (stepping % 2 ^ 5).toNat < 2 ^ 5 := by omega
  generalize (stepping % 2 ^ 5).toNat = bits at hstepping ⊢
  generalize hword : 2 ^ 3 * bits + 2 ^ 8 * (gpu.deviceId % 2 ^ 8) + 2 ^ 18 + 2 ^ 28 * 5 = word
  have shape : commandHeader 5 0xe ++ dword 0 ++ dword word ++ abbreviation ++ line =
      commandHeader 5 versionSubOpcode ++ (dword 0 ++ (dword word ++ (abbreviation ++ line))) := by
    simp only [versionSubOpcode, List.append_assoc]
  rw [shape]
  have length : (commandHeader 5 versionSubOpcode ++
      (dword 0 ++ (dword word ++ (abbreviation ++ line)))).length = 24 := by
    simp only [List.length_append, length_commandHeader, length_dword, habbreviation, hcaller]
  have value : number (dword 0 ++ (dword word ++ (abbreviation ++ line))) =
      pack (versionFields bits gpu.deviceId (number abbreviation) (number line)) := by
    have habbr := number_lt abbreviation
    have hline := number_lt line
    rw [habbreviation] at habbr
    rw [hcaller] at hline
    rw [number_append, number_append, number_append, number_dword, number_dword, length_dword,
      length_dword, habbreviation]
    simp only [versionFields, pack]
    omega
  have sub := @subOpcode_commandHeader 5 versionSubOpcode
    (dword 0 ++ (dword word ++ (abbreviation ++ line))) (by decide)
  have count := @dwordCount_commandHeader 5 versionSubOpcode
    (dword 0 ++ (dword word ++ (abbreviation ++ line))) (by decide) (by decide)
  obtain ⟨bias, record⟩ := @header_trace (commandHeader 5 versionSubOpcode ++
      (dword 0 ++ (dword word ++ (abbreviation ++ line)))) (by
    rw [readDword_commandHeader (by decide)]
    rfl)
  have fields : fieldsOf (versionFields 0 0 0 0) (commandHeader 5 versionSubOpcode ++
      (dword 0 ++ (dword word ++ (abbreviation ++ line)))) =
      (versionFields bits gpu.deviceId (number abbreviation) (number line)).map
        fun f => f.2 % 2 ^ f.1 := by
    have behind : (commandHeader 5 versionSubOpcode ++
        (dword 0 ++ (dword word ++ (abbreviation ++ line)))).drop 4 =
        dword 0 ++ (dword word ++ (abbreviation ++ line)) := rfl
    rw [fieldsOf, length, if_pos (by rfl), behind, BitFields.decode, value]
    exact unpack_pack
      (versionFields bits gpu.deviceId (number abbreviation) (number line))
  have parts : ((commandHeader 5 versionSubOpcode ++
      (dword 0 ++ (dword word ++ (abbreviation ++ line)))).drop 12).take 8 = abbreviation ∧
      (commandHeader 5 versionSubOpcode ++
        (dword 0 ++ (dword word ++ (abbreviation ++ line)))).drop 20 = line := by
    have behind : (commandHeader 5 versionSubOpcode ++
        (dword 0 ++ (dword word ++ (abbreviation ++ line)))).drop 12 = abbreviation ++ line := rfl
    constructor
    · rw [behind, List.take_left' habbreviation]
    · rw [show 20 = 12 + 8 from rfl, ← List.drop_drop, behind, List.drop_left' habbreviation]
  refine reads_event ?_ ?_
  · rw [length, count, bias]
  · rw [record, decodeTrace_version sub, decodeVersion, fields, parts.1, parts.2]
    simp only [versionFields, List.map_cons, List.map_nil, Nat.mod_eq_of_lt hstepping]
    rfl

/-- Items that can be recorded. -/
def Kept (items : List Item) : Prop := ∀ dumpSupported c, .call dumpSupported c ∈ items → c.Recordable

theorem Kept.append {xs ys : List Item} (hx : Kept xs) (hy : Kept ys) : Kept (xs ++ ys) := by
  intro dumpSupported c mem
  rcases List.mem_append.mp mem with mem | mem
  · exact hx dumpSupported c mem
  · exact hy dumpSupported c mem

theorem items_reads (caller : Nat) {items : List Item} (kept : Kept items) :
    Reads (items.flatMap (Item.bytes caller)) (items.foldl (Item.effect caller) ·) := by
  induction items with
  | nil => exact reads_nil
  | cons item rest ih =>
    have tail := ih fun dumpSupported c mem => kept dumpSupported c (List.mem_cons_of_mem _ mem)
    have head : Reads (item.bytes caller) (item.effect caller ·) := by
      cases item with
      | header stepping gpu => exact versionHeader_reads caller stepping gpu
      | call dumpSupported c =>
        exact call_reads dumpSupported (kept dumpSupported c List.mem_cons_self)
    exact head.append tail

theorem readsAs_items (caller : Nat) {items : List Item} (kept : Kept items) :
    ReadsAs caller (items.flatMap (Item.bytes caller)) items := by
  obtain ⟨packets, records, cut, whole, decoded, done⟩ := (items_reads caller kept).frames
  exact ⟨packets, records, cut, whole, decoded, fun memory => done ⟨memory, [], []⟩ rfl⟩

/-- The stream has the bytes of the journal's items. -/
structure Recorded (caller : Nat) (s : TraceStream) (j : Journal) : Prop where
  fileHandle : s.stream.fileHandle = j.fileHandle
  dumpSupported : s.dumpSupported = j.dumpSupported
  waiting : s.stream.tmpWriteBuffer = j.waiting.flatMap (Item.bytes caller)
  keptWaiting : Kept j.waiting
  disk : ∀ name items, j.disk name = some items →
    s.stream.disk name = some (items.flatMap (Item.bytes caller)) ∧ Kept items
  current : ∀ name, j.fileHandle = .opened name ∨ j.fileHandle = .failed name →
    ∃ items, j.disk name = some items
  files : s.stream.files = j.files.map fun f => (f.1, f.2.flatMap (Item.bytes caller))
  keptFiles : ∀ f ∈ j.files, Kept f.2

theorem recorded_start (caller : Nat) (disk : String → Option (List UInt8)) :
    Recorded caller (start disk) emptyJournal where
  fileHandle := rfl
  dumpSupported := rfl
  waiting := rfl
  keptWaiting := fun _ _ mem => absurd mem List.not_mem_nil
  disk := fun _ _ none => by cases none
  current := by
    rintro name (opened | failed)
    · cases opened
    · cases failed
  files := rfl
  keptFiles := fun _ mem => absurd mem List.not_mem_nil

theorem Recorded.filesRead {caller : Nat} {s : TraceStream} {j : Journal} (h : Recorded caller s j) :
    FilesRead caller s j := by
  constructor
  · rw [h.files, List.map_map]
    rfl
  · intro i hi hi'
    have same : s.stream.files.get ⟨i, hi⟩ = ((j.files.get ⟨i, hi'⟩).1,
        (j.files.get ⟨i, hi'⟩).2.flatMap (Item.bytes caller)) := by
      simp only [List.get_eq_getElem, h.files, List.getElem_map]
    rw [same]
    exact readsAs_items caller (h.keptFiles _ (List.get_mem _ _))
  · intro name items some
    obtain ⟨data, kept⟩ := h.disk name items some
    exact ⟨_, data, readsAs_items caller kept⟩
  · rw [h.waiting]
    exact readsAs_items caller h.keptWaiting

section
variable {caller : Nat} {s : TraceStream} {j : Journal}

/-- The disk when a file has got another content. -/
theorem Recorded.update (h : Recorded caller s j) (name : String) {items : List Item}
    (kept : Kept items) (other : String) (others : List Item)
    (hothers : Function.update j.disk name (some items) other = some others) :
    Function.update s.stream.disk name (some (items.flatMap (Item.bytes caller))) other =
      some (others.flatMap (Item.bytes caller)) ∧ Kept others := by
  by_cases here : other = name
  · subst here
    rw [Function.update_self, Option.some.injEq] at hothers
    subst hothers
    exact ⟨Function.update_self _ _ _, kept⟩
  · rw [Function.update_of_ne here] at hothers ⊢
    exact h.disk other others hothers

/-- What is written in bytes and in items goes to the same place. -/
theorem Recorded.write (h : Recorded caller s j) {items : List Item} (kept : Kept items) :
    Recorded caller { s with stream := s.stream.write (items.flatMap (Item.bytes caller)) }
      (j.write items) := by
  have same := h.fileHandle
  rw [AubFileStream.write, Journal.write, same]
  cases handle : j.fileHandle with
  | closed =>
    constructor
    · rfl
    · exact h.dumpSupported
    · show _ ++ _ = _
      rw [h.waiting, List.flatMap_append]
    · exact h.keptWaiting.append kept
    · exact h.disk
    · rintro other (opened | failed)
      · cases opened
      · cases failed
    · exact h.files
    · exact h.keptFiles
  | opened name =>
    obtain ⟨old, hold⟩ := h.current name (Or.inl handle)
    obtain ⟨hdata, hkept⟩ := h.disk name old hold
    constructor
    · rfl
    · exact h.dumpSupported
    · exact h.waiting
    · exact h.keptWaiting
    · simp only [hdata, hold, Option.getD_some, ← List.flatMap_append]
      exact h.update name (hkept.append kept)
    · rintro other (opened | failed)
      · obtain rfl := FileHandle.opened.inj opened
        exact ⟨_, Function.update_self _ _ _⟩
      · cases failed
    · exact h.files
    · exact h.keptFiles
  | failed name => exact h

theorem Recorded.openFile (h : Recorded caller s j) (name : String) :
    Recorded caller { s with stream := s.stream.openFile name } (j.openFile name) := by
  have same := h.fileHandle
  -- a second `open` keeps the name of the file
  have again : ∀ old, (j.fileHandle = .opened old ∨ j.fileHandle = .failed old) →
      Recorded caller { s with stream := { s.stream with fileHandle := .failed old } }
        { j with fileHandle := .failed old } := by
    intro old current
    refine { h with fileHandle := rfl, current := ?_ }
    rintro other (opened | failed)
    · cases opened
    · obtain rfl := FileHandle.failed.inj failed
      exact h.current old current
  rw [AubFileStream.openFile, Journal.openFile, same]
  cases handle : j.fileHandle with
  | closed =>
    refine { h with fileHandle := rfl, disk := ?_, current := ?_ }
    · exact h.update name fun _ _ mem => absurd mem List.not_mem_nil
    · rintro other (opened | failed)
      · obtain rfl := FileHandle.opened.inj opened
        exact ⟨_, Function.update_self _ _ _⟩
      · cases failed
  | opened old => exact again old (Or.inl handle)
  | failed old => exact again old (Or.inr handle)

theorem Recorded.closeFile (h : Recorded caller s j) :
    Recorded caller { s with stream := s.stream.closeFile } j.closeFile := by
  have same := h.fileHandle
  -- an open file goes to the closed ones with what the disk has
  have ends : ∀ name, j.fileHandle = .opened name ∨ j.fileHandle = .failed name →
      Recorded caller
        { s with stream := { s.stream with
            fileHandle := .closed
            files := s.stream.files ++ [(name, (s.stream.disk name).getD [])] } }
        { j with
          fileHandle := .closed
          files := j.files ++ [(name, (j.disk name).getD [])] } := by
    intro name current
    obtain ⟨items, hitems⟩ := h.current name current
    obtain ⟨hdata, hkept⟩ := h.disk name items hitems
    refine { h with fileHandle := rfl, current := ?_, files := ?_, keptFiles := ?_ }
    · rintro other (opened | failed)
      · cases opened
      · cases failed
    · show _ ++ _ = _
      rw [h.files, hdata, hitems, List.map_append]
      rfl
    · intro f mem
      rcases List.mem_append.mp mem with mem | mem
      · exact h.keptFiles f mem
      · obtain rfl := List.mem_singleton.mp mem
        rw [hitems]
        exact hkept
  rw [AubFileStream.closeFile, Journal.closeFile, same]
  cases handle : j.fileHandle with
  | closed => exact h
  | opened name => exact ends name (Or.inl handle)
  | failed name => exact ends name (Or.inr handle)

/-- With a file, `init` writes the header and what was waiting. -/
theorem init_eq {s s' : AubFileStream} {stepping : Int} {gpu : GpuDescriptor}
    (done : s.init caller stepping gpu = some s') : s.fileHandle ≠ .closed ∧
      s' = { s.write (versionHeader caller stepping gpu ++ s.tmpWriteBuffer) with
        tmpWriteBuffer := [] } := by
  obtain ⟨handle, buffer, disk, files⟩ := s
  cases handle with
  | closed => cases done
  | opened name =>
    refine ⟨fun closed => (by cases closed), ?_⟩
    simp only [AubFileStream.init, AubFileStream.write, Function.update_self, Option.getD_some,
      Function.update_idem, List.append_assoc] at done ⊢
    split at done
    · exact (Option.some.inj done).symm
    · rename_i empty
      obtain rfl : buffer = [] := List.eq_nil_of_length_eq_zero (by omega)
      rw [List.append_nil]
      exact (Option.some.inj done).symm
  | failed name =>
    refine ⟨fun closed => (by cases closed), ?_⟩
    have dropped : ∀ data, AubFileStream.write ⟨.failed name, buffer, disk, files⟩ data =
        ⟨.failed name, buffer, disk, files⟩ := fun _ => rfl
    simp only [AubFileStream.init] at done
    rw [dropped, dropped] at done
    rw [dropped]
    split at done
    · exact (Option.some.inj done).symm
    · rename_i empty
      obtain rfl : buffer = [] := List.eq_nil_of_length_eq_zero (by simpa using empty)
      exact (Option.some.inj done).symm

theorem Recorded.init (h : Recorded caller s j) {stepping : Int} {gpu : GpuDescriptor}
    {gfxCoreFamily : CoreFamily} {s' : TraceStream}
    (done : step caller s (.init stepping gpu gfxCoreFamily) = some s') :
    ∃ j', j.init stepping gpu gfxCoreFamily = some j' ∧ Recorded caller s' j' := by
  obtain ⟨stream, hinit, rfl⟩ := Option.map_eq_some_iff.mp done
  obtain ⟨isOpen, rfl⟩ := init_eq hinit
  have kept : Kept (.header stepping gpu :: j.waiting) := by
    intro dumpSupported c mem
    rcases List.mem_cons.mp mem with header | mem
    · cases header
    · exact h.keptWaiting dumpSupported c mem
  have written := h.write kept
  rw [List.flatMap_cons, ← h.waiting] at written
  have journal : j.init stepping gpu gfxCoreFamily =
      some { (j.write (.header stepping gpu :: j.waiting)) with
        waiting := []
        dumpSupported := supportsDumps gfxCoreFamily } := by
    rw [h.fileHandle] at isOpen
    rw [Journal.init]
    split
    · contradiction
    · rfl
  exact ⟨_, journal, { written with
    dumpSupported := rfl
    waiting := rfl
    keptWaiting := fun _ _ mem => absurd mem List.not_mem_nil }⟩

end

/-- Each call of the stream is one of the journal. -/
theorem step_simulates (caller : Nat) :
    Simulates (step caller) Journal.step Op.Recordable (Recorded caller) := by
  intro s j op s' recordable h done
  cases op with
  | «open» name =>
    obtain rfl := Option.some.inj done
    exact ⟨_, rfl, h.openFile name⟩
  | init stepping gpu gfxCoreFamily => exact h.init done
  | call c =>
    obtain rfl := Option.some.inj done
    have kept : Kept [.call s.dumpSupported c] := by
      intro dumpSupported other mem
      obtain ⟨-, rfl⟩ := Item.call.inj (List.mem_singleton.mp mem)
      exact recordable
    have written := h.write kept
    rw [List.flatMap_singleton, Item.bytes, h.dumpSupported] at written
    exact ⟨_, rfl, h.dumpSupported ▸ written⟩
  | close =>
    obtain rfl := Option.some.inj done
    exact ⟨_, rfl, h.closeFile⟩

/-- A write before a file is opened, and a dump, a comment and two pages while it is. -/
def dumpRun : List Op :=
  [.call ( Call.writeMMIO 0x2080 0x1000 0xFFFFFFFF), .open "a", .init 0 ⟨0, [0x44, 0x47, 0x32]⟩ .XeHpgCore,
    .call (.dumpBufferBIN .PAGE_TABLE_PPGTT 0x10000 64 7), .call (.addComment [0x41, 0]),
    .call (.writeDiscontiguousPages (List.replicate 4106 1) DataPackets.mixedTable 0), .close]

end TraceFiles
