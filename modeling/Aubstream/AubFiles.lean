import Aubstream.WrittenPaths

/-!
# Files that stand alone

A reader has one file and nothing else. The header, the registers, the contexts and
the entries on the way to the data must all be in it. Page tables and contexts
outlive a file, and what they have written to it is gone for the next one.
-/

namespace AubFiles
open EntryBits PathTree PhysicalAllocator PageNodes PageWalker FreeMemory TreeShape WalkPhases
  LastTables Reservations MapFrame FreeRounds FreeComplete Transitions AubManager WrittenPaths
open TableRuns hiding step Op

/-- Each data write comes behind the entries of the paths to the addresses that it writes. -/
def DataFollowsEntries (gpu : Gpu) (n : Nat) (records : List Record) : Prop :=
  ∀ i d, records[i]? = some (.data d) → ∀ a, d.gfxAddress ≤ a → a < d.gfxAddress + d.size →
    PathWritten gpu n d.tables (entriesOf (records.take i)) a

structure StandsAlone {A : Type} (m : AubManagerImp A) (file : File) : Prop where
  version : file.records.head? = some (.version m.stepping m.deviceId)
  globalMMIO : ∀ r ∈ writeMMIOs m.initializeGlobalMMIO ++ writeMMIOs m.setMemoryBankSize,
    r ∈ file.records
  injectedMMIO : ∀ r ∈ m.injectMMIOs, r ∈ file.records
  ccsMode : ∀ r ∈ m.ccsModeMMIOs file.ccsCount, r ∈ file.records
  contexts : ∀ id ∈ file.live, ∃ bytes, .contextInitialization id bytes ∈ file.records
  data : DataFollowsEntries m.tables.gpu m.tables.ppgtt.getNumLevels file.records

def dataRange : Record → Option (Nat × Nat)
  | .data d => some (d.gfxAddress, d.size)
  | _ => none

def NoData (records : List Record) : Prop := ∀ d, Record.data d ∉ records

def currentFile {A : Type} (s : ManagerState A) : Option File :=
  match s.fileHandle with
  | .closed => none
  | .opened file => some file
  | .failed file => some file

/-- Where the next record goes: the file, or the buffer for the next one. -/
def output {A : Type} (s : ManagerState A) : Option (List Record) :=
  match s.fileHandle with
  | .closed => some s.tmpWriteBuffer
  | .opened file => some file.records
  | .failed _ => none

/-- What `open` writes whatever contexts there are. -/
def openingRecords {A : Type} (m : AubManagerImp A) (tmpWriteBuffer : List Record) : List Record :=
  [.version m.stepping m.deviceId] ++ tmpWriteBuffer ++ writeMMIOs m.initializeGlobalMMIO ++
    writeMMIOs m.setMemoryBankSize

/-- A file is opened before there are contexts, or else no error is thrown for them and the CCS
mode is written by something else; and data goes where no node on the way is lost. -/
def Allowed {A : Type} (m : AubManagerImp A) (s : ManagerState A) : Op → Prop
  | .openAub _ => s.fileHandle = .closed → s.hwContexts = [] ∨ (m.enableThrow = false ∧
      ∀ r ∈ m.ccsModeMMIOs s.ccsCount, r ∈ openingRecords m s.tmpWriteBuffer ++ m.injectMMIOs)
  | .writeMemory2 params => params.memory.isSome → (output s).isSome → ∀ t ∈ s.ppgtts.head?,
      ∀ a, params.gfxAddress ≤ a → a < params.gfxAddress + params.size →
        ∀ q, OnPath m.tables.ppgtt.getNumLevels t a q → s.lost q = false
  | .mapGpuVa gfxAddress size info => (output s).isSome → m.tables.enablePs64 = true →
      info.pageSize = pageSize4KB → m.tables.ppgtt = .PML5 →
        InSpace m.tables.ppgtt.getNumLevels gfxAddress size
  | _ => True

theorem NoData.append {rs rs' : List Record} (h : NoData rs) (h' : NoData rs') :
    NoData (rs ++ rs') :=
  fun d hd => (List.mem_append.mp hd).elim (h d) (h' d)

theorem noData_nil : NoData [] := fun _ => List.not_mem_nil

theorem noData_writeMMIOs (list : List (Nat × Nat)) : NoData (writeMMIOs list) := by
  intro d hd
  obtain ⟨_, _, h⟩ := List.mem_map.mp hd
  cases h

theorem noData_writeEntries (addressSpace : AubPackets.AddressSpaceValues) (hint : Nat)
    (table : List PageEntryInfo) : NoData (writeEntries addressSpace hint table) := by
  intro d hd
  unfold writeEntries at hd
  split at hd
  · cases hd
  · cases List.mem_singleton.mp hd

theorem DataFollowsEntries.append {gpu : Gpu} {n : Nat} {rs rs' : List Record}
    (h : DataFollowsEntries gpu n rs)
    (h' : ∀ i d, rs'[i]? = some (.data d) → ∀ a, d.gfxAddress ≤ a → a < d.gfxAddress + d.size →
      PathWritten gpu n d.tables (entriesOf (rs ++ rs'.take i)) a) :
    DataFollowsEntries gpu n (rs ++ rs') := by
  intro i d hd a h1 h2
  rw [List.take_append]
  by_cases hi : i < rs.length
  · rw [List.getElem?_append_left hi] at hd
    rw [Nat.sub_eq_zero_of_le (by omega), List.take_zero, List.append_nil]
    exact h i d hd a h1 h2
  · rw [List.getElem?_append_right (by omega)] at hd
    rw [List.take_of_length_le (by omega)]
    exact h' _ d hd a h1 h2

theorem DataFollowsEntries.append_noData {gpu : Gpu} {n : Nat} {rs rs' : List Record}
    (h : DataFollowsEntries gpu n rs) (h' : NoData rs') : DataFollowsEntries gpu n (rs ++ rs') :=
  h.append fun _ d hd => absurd (List.mem_of_getElem? hd) (h' d)

theorem dataFollowsEntries_of_noData {gpu : Gpu} {n : Nat} {rs : List Record} (h : NoData rs) :
    DataFollowsEntries gpu n rs :=
  fun _ d hd => absurd (List.mem_of_getElem? hd) (h d)

/-- More entries in front do no harm. -/
theorem DataFollowsEntries.behind {gpu : Gpu} {n : Nat} {rs rs' : List Record} (h : NoData rs)
    (h' : DataFollowsEntries gpu n rs') : DataFollowsEntries gpu n (rs ++ rs') := by
  refine (dataFollowsEntries_of_noData h).append fun i d hd a h1 h2 => ?_
  rw [entriesOf_append]
  exact (h' i d hd a h1 h2).mono fun e he => List.mem_append_right _ he

section
variable {A : Type} (m : AubManagerImp A)

theorem noData_writeLevel (legacy : AubPackets.AddressSpaceValues) (hint : Nat)
    (table : List PageEntryInfo) : NoData (m.writeLevel legacy hint table) := by
  unfold AubManagerImp.writeLevel
  simp only
  split
  · exact noData_writeEntries _ _ _
  · exact noData_writeEntries _ _ _

theorem noData_writePages (w : WalkState A) : NoData (m.writePages w) := by
  unfold AubManagerImp.writePages AubManagerImp.writePageWalkEntries
  refine NoData.append ?_ ?_
  · intro d hd
    obtain ⟨_, _, h⟩ := List.mem_map.mp hd
    cases h
  · refine ((((NoData.append ?_ ?_).append ?_).append ?_).append ?_)
    · split
      · exact noData_writeEntries _ _ _
      · exact noData_nil
    all_goals exact noData_writeLevel m _ _ _

theorem noData_writeFreed (r : FreeState A × Bool) : NoData (m.writeFreed r) := by
  unfold AubManagerImp.writeFreed
  split
  · exact ((noData_writeLevel m _ _ _).append (noData_writeLevel m _ _ _)).append
      (noData_writeEntries _ _ _)
  · exact noData_nil

theorem noData_ccsModeMMIOs (ccsCount : Nat) : NoData (m.ccsModeMMIOs ccsCount) := by
  intro d hd
  obtain ⟨_, _, h⟩ := List.mem_map.mp hd
  cases h

theorem noData_injectMMIOs : NoData m.injectMMIOs := by
  intro d hd
  obtain ⟨_, _, hd⟩ := List.mem_flatMap.mp hd
  obtain ⟨_, _, h⟩ := List.mem_map.mp hd
  cases h

/-- Every context is written that was not initialized before. -/
theorem initializeAll_writes (contexts : List HwContext) (a : A) :
    NoData (m.initializeAll contexts a).2.2 ∧
      ∀ c ∈ contexts, c.pLRCA = false →
        ∃ bytes, .contextInitialization c.id bytes ∈ (m.initializeAll contexts a).2.2 := by
  induction contexts generalizing a with
  | nil => exact ⟨noData_nil, fun c hc => absurd hc List.not_mem_nil⟩
  | cons c rest ih =>
    obtain ⟨hdata, hwrites⟩ := ih (m.initialize1 c a).2.1
    unfold AubManagerImp.initializeAll
    simp only
    constructor
    · refine NoData.append ?_ hdata
      unfold AubManagerImp.initialize1
      split
      · exact noData_nil
      · intro d hd
        cases List.mem_singleton.mp hd
    · intro x hx hidle
      rcases List.mem_cons.mp hx with rfl | hx
      · refine ⟨(m.initializeContext x a).1, List.mem_append_left _ ?_⟩
        unfold AubManagerImp.initialize1
        rw [if_neg (by rw [hidle]; simp)]
        exact List.mem_singleton_self _
      · obtain ⟨bytes, hbytes⟩ := hwrites x hx hidle
        exact ⟨bytes, List.mem_append_right _ hbytes⟩

theorem StandsAlone.append {m : AubManagerImp A} {file : File} (h : StandsAlone m file)
    {rs : List Record}
    (data : DataFollowsEntries m.tables.gpu m.tables.ppgtt.getNumLevels (file.records ++ rs)) :
    StandsAlone m { file with records := file.records ++ rs } := by
  have more : ∀ r, r ∈ file.records → r ∈ file.records ++ rs := fun r => List.mem_append_left rs
  refine ⟨?_, fun r hr => more r (h.globalMMIO r hr), fun r hr => more r (h.injectedMMIO r hr),
    fun r hr => more r (h.ccsMode r hr), fun id hid => ?_, data⟩
  · rw [List.head?_append, h.version]
    rfl
  · obtain ⟨bytes, hbytes⟩ := h.contexts id hid
    exact ⟨bytes, more _ hbytes⟩

/-- What holds between two calls. -/
structure Inv (s : ManagerState A) : Prop where
  trees : ∀ t ∈ s.ppgtts, Wf m.tables.ppgtt.getNumLevels t ∧ Inhabited t
  recorded : ∀ es ∈ output s, ∀ t ∈ s.ppgtts.head?,
    Recorded m.tables.gpu t s.lost (entriesOf es)
  data : ∀ es ∈ output s, DataFollowsEntries m.tables.gpu m.tables.ppgtt.getNumLevels es
  current : ∀ file ∈ currentFile s, StandsAlone m file
  files : ∀ file ∈ s.files, StandsAlone m file
  empty : s.fileHandle ≠ .closed → s.tmpWriteBuffer = []
  idle : s.fileHandle = .closed → ∀ c ∈ s.hwContexts, c.pLRCA = false

variable {m : AubManagerImp A}

theorem inv_write {s : ManagerState A} {rs : List Record}
    (trees : ∀ t ∈ s.ppgtts, Wf m.tables.ppgtt.getNumLevels t ∧ Inhabited t)
    (recorded : ∀ es ∈ output s, ∀ t ∈ s.ppgtts.head?,
      Recorded m.tables.gpu t s.lost (entriesOf (es ++ rs)))
    (data : ∀ es ∈ output s,
      DataFollowsEntries m.tables.gpu m.tables.ppgtt.getNumLevels (es ++ rs))
    (current : ∀ file ∈ currentFile s, StandsAlone m file)
    (files : ∀ file ∈ s.files, StandsAlone m file)
    (empty : s.fileHandle ≠ .closed → s.tmpWriteBuffer = [])
    (idle : s.fileHandle = .closed → ∀ c ∈ s.hwContexts, c.pLRCA = false) :
    Inv m (s.write rs) := by
  cases h : s.fileHandle with
  | closed =>
    have hwrite : s.write rs = { s with tmpWriteBuffer := s.tmpWriteBuffer ++ rs } := by
      simp only [ManagerState.write, h]
    have hout : output s = some s.tmpWriteBuffer := by simp only [output, h]
    have hout' : output (s.write rs) = some (s.tmpWriteBuffer ++ rs) := by
      simp only [hwrite, output, h]
    refine ⟨?_, ?_, ?_, ?_, ?_, ?_, ?_⟩
    · rw [hwrite]
      exact trees
    · intro es hes t ht
      obtain rfl := Option.some.inj (hout'.symm.trans hes)
      rw [hwrite] at ht ⊢
      exact recorded _ hout t ht
    · intro es hes
      obtain rfl := Option.some.inj (hout'.symm.trans hes)
      exact data _ hout
    · intro file hfile
      simp only [hwrite, currentFile, h, Option.mem_def, reduceCtorEq] at hfile
    · rw [hwrite]
      exact files
    · rw [hwrite]
      exact fun hne => absurd h hne
    · rw [hwrite]
      exact idle
  | opened f =>
    have hwrite : s.write rs = { s with fileHandle := .opened { f with records := f.records ++ rs } } := by
      simp only [ManagerState.write, h]
    have hout : output s = some f.records := by simp only [output, h]
    have hfile : currentFile s = some f := by simp only [currentFile, h]
    rw [hwrite]
    refine ⟨trees, ?_, ?_, ?_, files, fun _ => empty (by rw [h]; simp), fun hc => by cases hc⟩
    · intro es hes t ht
      obtain rfl := Option.some.inj hes
      exact recorded _ hout t ht
    · intro es hes
      obtain rfl := Option.some.inj hes
      exact data _ hout
    · intro file hf
      obtain rfl := Option.some.inj hf
      exact (current f hfile).append (data _ hout)
  | failed f =>
    have hwrite : s.write rs = s := by simp only [ManagerState.write, h]
    have hout : output s = none := by simp only [output, h]
    rw [hwrite]
    refine ⟨trees, ?_, ?_, current, files, empty, idle⟩
    · intro es hes
      cases hout.symm.trans hes
    · intro es hes
      cases hout.symm.trans hes

/-- A call that changes the tables and writes. -/
theorem Inv.update {s : ManagerState A} (inv : Inv m s) {r : List Nodes × A × List Record}
    (trees : ∀ t ∈ r.1, Wf m.tables.ppgtt.getNumLevels t ∧ Inhabited t)
    (recorded : ∀ es ∈ output s, ∀ t ∈ r.1.head?, Recorded m.tables.gpu t
      (stillLost m.tables.gpu t (entriesOf r.2.2) s.lost) (entriesOf es ++ entriesOf r.2.2))
    (data : ∀ es ∈ output s,
      DataFollowsEntries m.tables.gpu m.tables.ppgtt.getNumLevels (es ++ r.2.2)) :
    Inv m (update m s r) := by
  refine inv_write trees ?_ data inv.current inv.files inv.empty inv.idle
  intro es hes t ht
  rw [entriesOf_append]
  cases hr : r.1 with
  | nil =>
    simp only [hr] at ht
    cases ht
  | cons t' rest =>
    simp only [hr, List.head?_cons, Option.mem_def, Option.some.injEq] at ht ⊢
    subst ht
    exact recorded es hes _ (by rw [hr]; rfl)

theorem inv_setCCSMode {s : ManagerState A} (inv : Inv m s) (ccsCount : Nat) :
    Inv m (m.setCCSMode ccsCount s).1 := by
  unfold AubManagerImp.setCCSMode
  split
  · refine inv_write inv.trees ?_ ?_ inv.current inv.files inv.empty inv.idle
    · intro es hes t ht q x hq hx hlost
      rw [entriesOf_append]
      exact List.mem_append_left _ (inv.recorded es hes t ht q x hq hx hlost)
    · exact fun es hes => (inv.data es hes).append_noData (noData_ccsModeMMIOs m ccsCount)
  · exact inv

theorem release_all {contexts released : List HwContext}
    (h : contexts.mapM HwContext.release = some released) : ∀ c ∈ released, c.pLRCA = false := by
  induction contexts generalizing released with
  | nil =>
    obtain rfl := Option.some.inj h
    exact fun c hc => absurd hc List.not_mem_nil
  | cons x rest ih =>
    rw [List.mapM_cons] at h
    obtain ⟨x', hx', h⟩ := Option.bind_eq_some_iff.mp h
    obtain ⟨rest', hrest, h⟩ := Option.bind_eq_some_iff.mp h
    obtain rfl := Option.some.inj h
    intro c hc
    rcases List.mem_cons.mp hc with rfl | hc
    · unfold HwContext.release at hx'
      split at hx'
      · cases hx'
      · obtain rfl := Option.some.inj hx'
        rfl
      · obtain rfl := Option.some.inj hx'
        rfl
    · exact ih hrest c hc

/-- Nothing of the trees is in the buffer for the next file. -/
theorem inv_closeAub {s s' : ManagerState A} (inv : Inv m s) (h : closeAub s = some s') :
    Inv m s' := by
  obtain ⟨contexts, hcontexts, rfl⟩ := Option.map_eq_some_iff.mp h
  have idle := release_all hcontexts
  have closed : ∀ file, currentFile s = some file → s.fileHandle ≠ .closed →
      Inv m { s with
        hwContexts := contexts
        fileHandle := .closed
        files := s.files ++ [file]
        lost := fun q => (s.ppgtts.head?.bind (· q)).isSome } := by
    intro file hfile hopen
    have hempty := inv.empty hopen
    refine ⟨inv.trees, ?_, ?_, fun _ hf => (by cases hf), ?_, fun hne => absurd rfl hne,
      fun _ => idle⟩
    · intro es _ t ht q x _ hx hlost
      simp only [show s.ppgtts.head? = some t from ht, Option.bind_some, hx,
        Option.isSome_some, Bool.true_eq_false] at hlost
    · intro es hes
      obtain rfl := Option.some.inj hes
      rw [hempty]
      exact dataFollowsEntries_of_noData noData_nil
    · intro f hf
      rcases List.mem_append.mp hf with hf | hf
      · exact inv.files f hf
      · rw [List.mem_singleton.mp hf]
        exact inv.current file hfile
  obtain ⟨handle, hh⟩ : ∃ handle, s.fileHandle = handle := ⟨_, rfl⟩
  cases handle with
  | closed =>
    have hclose : { s with hwContexts := contexts }.closeFile = { s with hwContexts := contexts } := by
      simp only [ManagerState.closeFile, hh]
    rw [hclose]
    exact ⟨inv.trees, inv.recorded, inv.data, inv.current, inv.files, inv.empty, fun _ => idle⟩
  | opened file =>
    simp only [ManagerState.closeFile, hh]
    exact closed file (by simp only [currentFile, hh]) (by rw [hh]; simp)
  | failed file =>
    simp only [ManagerState.closeFile, hh]
    exact closed file (by simp only [currentFile, hh]) (by rw [hh]; simp)

theorem inv_createHardwareContext {s : ManagerState A} (inv : Inv m s) (c : HwContext)
    (hc : c.pLRCA = false) : Inv m { s with hwContexts := s.hwContexts ++ [c] } := by
  refine ⟨inv.trees, inv.recorded, inv.data, inv.current, inv.files, inv.empty, fun hclosed x hx => ?_⟩
  rcases List.mem_append.mp hx with hx | hx
  · exact inv.idle hclosed x hx
  · rw [List.mem_singleton.mp hx]
    exact hc

/-- A file that is opened gets all its header and registers at once. -/
theorem openAub_closed {s : ManagerState A} (name : String) (h : s.fileHandle = .closed)
    (noThrow : s.hwContexts = [] ∨ m.enableThrow = false) :
    m.openAub name s = { s with
      hwContexts := (m.initializeAll s.hwContexts s.allocator).1
      allocator := (m.initializeAll s.hwContexts s.allocator).2.1
      tmpWriteBuffer := []
      fileHandle := .opened ⟨name, openingRecords m s.tmpWriteBuffer ++
        (if s.hwContexts = [] then m.ccsModeMMIOs s.ccsCount else []) ++ m.injectMMIOs ++
        (m.initializeAll s.hwContexts s.allocator).2.2, s.ccsCount, s.hwContexts.map (·.id)⟩ } := by
  by_cases hempty : s.hwContexts = []
  · simp only [AubManagerImp.openAub, AubManagerImp.init, ManagerState.openFile, ManagerState.write,
      AubManagerImp.setCCSMode, AubManagerImp.initializeContexts, h, hempty, if_true,
      Bool.false_eq_true, if_false, List.nil_append]
    rfl
  · have hthrow := noThrow.resolve_left hempty
    simp only [AubManagerImp.openAub, AubManagerImp.init, ManagerState.openFile, ManagerState.write,
      AubManagerImp.setCCSMode, AubManagerImp.initializeContexts, h, if_neg hempty, hthrow,
      Bool.false_eq_true, if_false, List.nil_append, List.append_nil]
    rfl

theorem openAub_failed {s : ManagerState A} (name : String) {file : File}
    (h : s.fileHandle = .opened file ∨ s.fileHandle = .failed file) :
    ∃ contexts allocator, m.openAub name s = { s with
      hwContexts := contexts
      allocator := allocator
      tmpWriteBuffer := []
      fileHandle := .failed file } := by
  have hopen : s.openFile name = { s with fileHandle := .failed file } := by
    rcases h with h | h <;> simp only [ManagerState.openFile, h]
  by_cases hempty : s.hwContexts = []
  · refine ⟨[], s.allocator, ?_⟩
    simp only [AubManagerImp.openAub, AubManagerImp.init, ManagerState.write, hopen,
      AubManagerImp.setCCSMode, AubManagerImp.initializeContexts, hempty, if_true,
      Bool.false_eq_true, if_false, AubManagerImp.initializeAll]
  · cases hthrow : m.enableThrow with
    | true =>
      refine ⟨s.hwContexts, s.allocator, ?_⟩
      simp only [AubManagerImp.openAub, AubManagerImp.init, ManagerState.write, hopen,
        AubManagerImp.setCCSMode, if_neg hempty, hthrow, if_true]
    | false =>
      refine ⟨(m.initializeAll s.hwContexts s.allocator).1,
        (m.initializeAll s.hwContexts s.allocator).2.1, ?_⟩
      simp only [AubManagerImp.openAub, AubManagerImp.init, ManagerState.write, hopen,
        AubManagerImp.setCCSMode, AubManagerImp.initializeContexts, if_neg hempty, hthrow,
        Bool.false_eq_true, if_false]

theorem openingRecords_data {gpu : Gpu} {n : Nat} {kept : List Record}
    (h : DataFollowsEntries gpu n kept) : DataFollowsEntries gpu n (openingRecords m kept) := by
  have header : NoData [.version m.stepping m.deviceId] := by
    intro d hd
    cases List.mem_singleton.mp hd
  exact ((h.behind header).append_noData (noData_writeMMIOs _)).append_noData (noData_writeMMIOs _)

theorem inv_openAub {s : ManagerState A} (inv : Inv m s) (name : String)
    (allowed : Allowed m s (.openAub name)) : Inv m (m.openAub name s) := by
  obtain ⟨handle, hh⟩ : ∃ handle, s.fileHandle = handle := ⟨_, rfl⟩
  have failed : ∀ file, s.fileHandle = .opened file ∨ s.fileHandle = .failed file →
      currentFile s = some file → Inv m (m.openAub name s) := by
    intro file hopen hfile
    obtain ⟨contexts, allocator, heq⟩ := openAub_failed (m := m) name hopen
    rw [heq]
    refine ⟨inv.trees, fun _ hes => (by cases hes), fun _ hes => (by cases hes), ?_, inv.files,
      fun _ => rfl, fun hc => (by cases hc)⟩
    intro f hf
    obtain rfl := Option.some.inj hf
    exact inv.current _ hfile
  cases handle with
  | opened file => exact failed file (Or.inl hh) (by simp only [currentFile, hh])
  | failed file => exact failed file (Or.inr hh) (by simp only [currentFile, hh])
  | closed =>
    have hallowed := allowed hh
    have hout : output s = some s.tmpWriteBuffer := by simp only [output, hh]
    obtain ⟨hnoData, hcontexts⟩ := initializeAll_writes m s.hwContexts s.allocator
    rw [openAub_closed name hh (hallowed.imp_right And.left)]
    generalize m.initializeAll s.hwContexts s.allocator = r at hnoData hcontexts
    have hccs : NoData (if s.hwContexts = [] then m.ccsModeMMIOs s.ccsCount else []) := by
      split
      · exact noData_ccsModeMMIOs m _
      · exact noData_nil
    have hdata := (((openingRecords_data (m := m) (inv.data _ hout)).append_noData
      hccs).append_noData (noData_injectMMIOs m)).append_noData hnoData
    refine ⟨inv.trees, ?_, ?_, ?_, inv.files, fun _ => rfl, fun hc => (by cases hc)⟩
    · intro es hes t ht q x hq hx hlost
      obtain rfl := Option.some.inj hes
      have hold := inv.recorded _ hout t ht q x hq hx hlost
      simp only [openingRecords, entriesOf_append, List.mem_append]
      exact Or.inl (Or.inl (Or.inl (Or.inl (Or.inl (Or.inr hold)))))
    · intro es hes
      obtain rfl := Option.some.inj hes
      exact hdata
    · intro file hfile
      obtain rfl := Option.some.inj hfile
      refine ⟨rfl, ?_, ?_, ?_, ?_, hdata⟩
      · intro rec hrec
        simp only [openingRecords, List.mem_append] at hrec ⊢
        rcases hrec with hrec | hrec
        · exact Or.inl (Or.inl (Or.inl (Or.inl (Or.inr hrec))))
        · exact Or.inl (Or.inl (Or.inl (Or.inr hrec)))
      · intro rec hrec
        simp only [List.mem_append]
        exact Or.inl (Or.inr hrec)
      · intro rec hrec
        simp only [List.mem_append] at hallowed ⊢
        rcases hallowed with hempty | ⟨_, helse⟩
        · rw [if_pos hempty]
          exact Or.inl (Or.inl (Or.inr hrec))
        · rcases helse rec hrec with h | h
          · exact Or.inl (Or.inl (Or.inl h))
          · exact Or.inl (Or.inr h)
      · intro id hid
        obtain ⟨c, hc, rfl⟩ := List.mem_map.mp hid
        obtain ⟨bytes, hbytes⟩ := hcontexts c hc (inv.idle hh c hc)
        exact ⟨bytes, List.mem_append_right _ hbytes⟩

section
variable {f : Nodes → A → Option (Nodes × A × List Record)}

theorem eachTable_forall {P : Nodes → Prop} (each : ∀ t a r, P t → f t a = some r → P r.1) :
    ∀ {ts : List Nodes} {a : A} {r : List Nodes × A × List Record}, (∀ t ∈ ts, P t) →
      eachTable f ts a = some r → ∀ t ∈ r.1, P t := by
  intro ts
  induction ts with
  | nil =>
    rintro a r _ h t ht
    obtain rfl := Option.some.inj h
    exact absurd ht List.not_mem_nil
  | cons t rest ih =>
    rintro a r hts h t' ht'
    obtain ⟨first, hfirst, h⟩ := Option.bind_eq_some_iff.mp h
    obtain ⟨others, hothers, rfl⟩ := Option.map_eq_some_iff.mp h
    rcases List.mem_cons.mp ht' with rfl | ht'
    · exact each t a first (hts t List.mem_cons_self) hfirst
    · exact ih (fun t ht => hts t (List.mem_cons_of_mem _ ht)) hothers t' ht'

theorem eachTable_noData (each : ∀ t a r, f t a = some r → NoData r.2.2) :
    ∀ {ts : List Nodes} {a : A} {r : List Nodes × A × List Record},
      eachTable f ts a = some r → NoData r.2.2 := by
  intro ts
  induction ts with
  | nil =>
    rintro a r h
    obtain rfl := Option.some.inj h
    exact noData_nil
  | cons t rest ih =>
    rintro a r h
    obtain ⟨first, hfirst, h⟩ := Option.bind_eq_some_iff.mp h
    obtain ⟨others, hothers, rfl⟩ := Option.map_eq_some_iff.mp h
    exact (each t a first hfirst).append (ih hothers)

/-- The first table and the records of its own. -/
theorem eachTable_head {ts : List Nodes} {a : A} {r : List Nodes × A × List Record}
    (h : eachTable f ts a = some r) {t' : Nodes} (ht' : t' ∈ r.1.head?) :
    ∃ t first others, t ∈ ts.head? ∧ f t a = some first ∧ t' = first.1 ∧
      r.2.2 = first.2.2 ++ others := by
  cases ts with
  | nil =>
    obtain rfl := Option.some.inj h
    cases ht'
  | cons t rest =>
    obtain ⟨first, hfirst, h⟩ := Option.bind_eq_some_iff.mp h
    obtain ⟨others, _, rfl⟩ := Option.map_eq_some_iff.mp h
    exact ⟨t, first, others.2.2, rfl, hfirst, (Option.some.inj ht').symm, rfl⟩

end

end

section
variable {A : Type} [PhysicalAddressAllocator A] {m : AubManagerImp A}

theorem inv_mapGpuVa {s : ManagerState A} (inv : Inv m s) {gfxAddress size : Nat}
    {info : PhysicalAllocationInfo} (allowed : Allowed m s (.mapGpuVa gfxAddress size info))
    {r : List Nodes × A × List Record}
    (h : eachTable (m.walkTable (mapParams gfxAddress size info) .Reserve []
      (some info.physicalAddress)) s.ppgtts s.allocator = some r) : Inv m (update m s r) := by
  refine inv.update ?_ ?_ ?_
  · refine eachTable_forall (fun t a first ht hfirst => ?_) inv.trees h
    obtain ⟨w, hw, rfl⟩ := Option.map_eq_some_iff.mp hfirst
    exact walk_tree m ht.1 ht.2 (fun hm => by cases hm) hw
  · intro es hes t' ht'
    obtain ⟨t, first, others, ht, hfirst, rfl, hrecords⟩ := eachTable_head h ht'
    obtain ⟨w, hw, rfl⟩ := Option.map_eq_some_iff.mp hfirst
    have hdocumented := walk_documented m (inv.trees t (List.mem_of_mem_head? ht)).1
      (by simp) (fun _ => allowed (by rw [hes]; rfl)) hw
    refine (inv.recorded es hes t ht).step (fun _ hq => hq)
      (hdocumented.mono (fun _ _ => rfl) fun e he => ?_)
    rw [hrecords, entriesOf_append]
    exact List.mem_append_left _ he
  · intro es hes
    refine (inv.data es hes).append_noData (eachTable_noData (fun t a first hfirst => ?_) h)
    obtain ⟨w, _, rfl⟩ := Option.map_eq_some_iff.mp hfirst
    exact noData_writePages m w

theorem inv_giveUp {s : ManagerState A} (inv : Inv m s) (gfxAddress size : Nat) :
    Inv m (giveUp m gfxAddress size s) ∧ output (giveUp m gfxAddress size s) = output s ∧
      ∀ t ∈ s.ppgtts.head?, (freeMemory m.tables.gpu m.tables.ppgtt t s.allocator gfxAddress
          size).2 = true ∨ ∀ q, (giveUp m gfxAddress size s).lost q = false →
        entryChanged m.tables.gpu t (freeMemory m.tables.gpu m.tables.ppgtt t s.allocator gfxAddress
          size).1.nodes q = false := by
  unfold giveUp
  split
  · rename_i hnil
    refine ⟨inv, rfl, fun t ht => ?_⟩
    rw [hnil] at ht
    cases ht
  · rename_i t rest hcons
    simp only
    split
    · rename_i hpassed
      refine ⟨inv, rfl, fun t' ht' => Or.inl ?_⟩
      rw [hcons] at ht'
      obtain rfl := Option.some.inj ht'
      exact hpassed
    · refine ⟨⟨inv.trees, fun es hes t' ht' q x hq hx hlost => ?_, inv.data, inv.current, inv.files,
        inv.empty, inv.idle⟩, rfl, fun t' ht' => Or.inr fun q hq => ?_⟩
      · exact inv.recorded es hes t' ht' q x hq hx (Bool.or_eq_false_iff.mp hlost).1
      · rw [hcons] at ht'
        obtain rfl := Option.some.inj ht'
        exact (Bool.or_eq_false_iff.mp hq).2

theorem giveUp_lost {s : ManagerState A} {gfxAddress size : Nat} {q : Path}
    (h : (giveUp m gfxAddress size s).lost q = false) : s.lost q = false := by
  unfold giveUp at h
  split at h
  · exact h
  · simp only at h
    split at h
    · exact h
    · exact (Bool.or_eq_false_iff.mp h).1

theorem inv_freeMemory {s : ManagerState A} (inv : Inv m s) {gfxAddress size : Nat}
    {r : List Nodes × A × List Record}
    (h : eachTable (m.freeTable gfxAddress size) s.ppgtts s.allocator = some r) :
    Inv m (update m (giveUp m gfxAddress size s) r) := by
  obtain ⟨invGiven, hout, hfirst⟩ := inv_giveUp inv gfxAddress size
  refine invGiven.update ?_ ?_ ?_
  · refine eachTable_forall (fun t a first ht hfirst => ?_) inv.trees h
    obtain rfl := Option.some.inj hfirst
    obtain ⟨hwf, _, _, _, run, _⟩ := freePages_run
      (c := ⟨m.tables.ppgtt, m.tables.gpu, gfxAddress, gfxAddress + size⟩) (a := a) ht.1 ht.2
      gfxAddress size
    exact ⟨hwf, run.inhabited⟩
  · intro es hes t' ht'
    rw [hout] at hes
    obtain ⟨t, first, others, ht, hfree, rfl, hrecords⟩ := eachTable_head h ht'
    obtain rfl := Option.some.inj hfree
    have htree := inv.trees t (List.mem_of_mem_head? ht)
    refine (inv.recorded es hes t ht).step (fun q => giveUp_lost)
      ((free_documented m htree.1 htree.2 (hfirst t ht)).mono (fun _ hq => hq) fun e he => ?_)
    rw [hrecords, entriesOf_append]
    exact List.mem_append_left _ he
  · intro es hes
    rw [hout] at hes
    refine (inv.data es hes).append_noData (eachTable_noData (fun t a first hfirst => ?_) h)
    obtain rfl := Option.some.inj hfirst
    exact noData_writeFreed m _

/-- The data of a write follow the entries that the walk has just written and those that the file
already had. -/
theorem inv_writeMemory2 {s : ManagerState A} (inv : Inv m s) {params : AllocationParams}
    (allowed : Allowed m s (.writeMemory2 params)) {r : List Nodes × A × List Record}
    (h : m.writeTables (supportedParams m params) s.ppgtts s.allocator = some r) :
    Inv m (update m s r) := by
  cases hs : s.ppgtts with
  | nil =>
    rw [hs] at h
    cases h
  | cons t rest =>
    rw [hs] at h
    obtain ⟨w, hw, h⟩ := Option.bind_eq_some_iff.mp h
    obtain ⟨data, hdata, h⟩ := Option.bind_eq_some_iff.mp h
    obtain ⟨others, hothers, rfl⟩ := Option.map_eq_some_iff.mp h
    have ht : t ∈ s.ppgtts := hs ▸ List.mem_cons_self
    have hhead : t ∈ s.ppgtts.head? := by
      rw [hs]
      rfl
    obtain ⟨wf, inhabited⟩ := inv.trees t ht
    have htree := walk_tree m wf inhabited (fun hm => by cases hm) hw
    have hdocumented := walk_documented m wf (by simp) (fun hne => absurd rfl hne) hw
    have hclones : NoData others.2.2 := by
      refine eachTable_noData (fun t a first hfirst => ?_) hothers
      obtain ⟨v, _, rfl⟩ := Option.map_eq_some_iff.mp hfirst
      exact noData_writePages m v
    refine inv.update ?_ ?_ ?_
    · intro t' ht'
      rcases List.mem_cons.mp ht' with rfl | ht'
      · exact htree
      · refine eachTable_forall (fun t a first ht hfirst => ?_)
          (fun t ht => inv.trees t (hs ▸ List.mem_cons_of_mem _ ht)) hothers t' ht'
        obtain ⟨v, hv, rfl⟩ := Option.map_eq_some_iff.mp hfirst
        exact walk_tree m ht.1 ht.2 (fun hm => by cases hm) hv
    · intro es hes t' ht'
      obtain rfl := Option.some.inj ht'
      refine (inv.recorded es hes t hhead).step (fun _ hq => hq)
        (hdocumented.mono (fun _ _ => rfl) fun e he => ?_)
      simp only [entriesOf_append, List.mem_append]
      exact Or.inl (Or.inl he)
    · intro es hes
      rw [← List.append_assoc, ← List.append_assoc]
      refine DataFollowsEntries.append_noData ?_ hclones
      refine ((inv.data es hes).append_noData (noData_writePages m w)).append fun i d hd x h1 h2 => ?_
      -- the only record is the data themselves
      unfold AubManagerImp.writeData at hdata
      split at hdata
      · obtain rfl := Option.some.inj hdata
        cases hd
      · rename_i memory hmemory
        split at hdata
        · cases hdata
        · obtain rfl := Option.some.inj hdata
          cases i with
          | succ i => cases hd
          | zero =>
            obtain rfl := Record.data.inj (Option.some.inj hd)
            rw [List.take_zero, List.append_nil, entriesOf_append]
            refine pathWritten_step wf htree.1 (inv.recorded es hes t hhead)
              hdocumented (walk_kinds m wf (by simp) hw) (walk_mapped m wf hw h1 h2) fun q hq => ?_
            refine allowed ?_ (by rw [hes]; rfl) t hhead x h1 h2 q hq
            rw [show params.memory = some memory from hmemory]
            rfl

theorem inv_step {s s' : ManagerState A} {o : Op} (inv : Inv m s) (allowed : Allowed m s o)
    (h : step m s o = some s') : Inv m s' := by
  cases o with
  | openAub name =>
    obtain rfl := Option.some.inj h
    exact inv_openAub inv name allowed
  | closeAub => exact inv_closeAub inv h
  | createHardwareContext device engine flags =>
    simp only [step] at h
    split at h
    · obtain rfl := Option.some.inj h
      exact inv_createHardwareContext inv _ rfl
    · cases h
  | setCCSMode ccsCount =>
    obtain rfl := Option.some.inj h
    exact inv_setCCSMode inv ccsCount
  | writeMemory2 params =>
    obtain ⟨r, hr, rfl⟩ := Option.map_eq_some_iff.mp h
    exact inv_writeMemory2 inv allowed hr
  | mapGpuVa gfxAddress size info =>
    obtain ⟨r, hr, rfl⟩ := Option.map_eq_some_iff.mp h
    exact inv_mapGpuVa inv allowed hr
  | freeMemory gfxAddress size =>
    obtain ⟨r, hr, rfl⟩ := Option.map_eq_some_iff.mp h
    exact inv_freeMemory inv hr

theorem newPpgtts_trees (devices : List Nat) (a : A) :
    ∀ t ∈ (newPpgtts m devices a).1, Wf m.tables.ppgtt.getNumLevels t ∧ Inhabited t ∧
      ∀ q, q ≠ [] → t q = none := by
  induction devices generalizing a with
  | nil => exact fun t ht => absurd ht List.not_mem_nil
  | cons device rest ih =>
    intro t ht
    rcases List.mem_cons.mp ht with rfl | ht
    · exact ⟨newTables_wf _ _ _, newTables_inhabited _ _, fun q hq => if_neg hq⟩
    · exact ih _ t ht

theorem inv_start (a : A) : Inv m (start m a) := by
  have htrees := newPpgtts_trees (m := m) (List.range m.devicesCount) a
  refine ⟨fun t ht => ⟨(htrees t ht).1, (htrees t ht).2.1⟩, ?_, ?_, fun _ hf => (by cases hf),
    fun _ hf => absurd hf List.not_mem_nil, fun hne => absurd rfl hne,
    fun _ c hc => absurd hc List.not_mem_nil⟩
  · intro es _ t ht q x hq hx _
    rw [(htrees t (List.mem_of_mem_head? ht)).2.2 q hq] at hx
    cases hx
  · intro es hes
    obtain rfl := Option.some.inj hes
    exact dataFollowsEntries_of_noData (noData_writeMMIOs _)

/-- In every run whose calls are allowed, every file stands alone: those that were closed, and the
one that is open. -/
theorem files_standAlone (m : AubManagerImp A) (a : A) (s : ManagerState A)
    (reached : Reach (step m) (Allowed m) (start m a) s) (file : File)
    (hfile : file ∈ s.files ∨ currentFile s = some file) : StandsAlone m file := by
  have inv := reached.invariant (I := Inv m) (inv_start a) fun _ _ _ inv allowed h =>
    inv_step inv allowed h
  exact hfile.elim (inv.files file) (inv.current file)

/-- Data in a first file, pages in a second one. -/
theorem files_standAlone_reopened :
    ∃ s, runAll (step plainManager) (start plainManager oneBank) [.openAub "first",
        .writeMemory2 oneDword, .closeAub, .openAub "second", .writeMemory2 (request4KB 0x1000 4)] =
        some s ∧
      ∀ file, file ∈ s.files ∨ currentFile s = some file → StandsAlone plainManager file := by
  obtain ⟨s, hs⟩ := Option.isSome_iff_exists.mp (show (runAll (step plainManager)
    (start plainManager oneBank) [.openAub "first", .writeMemory2 oneDword, .closeAub,
      .openAub "second", .writeMemory2 (request4KB 0x1000 4)]).isSome = true by decide +kernel)
  refine ⟨s, hs, fun file => files_standAlone plainManager oneBank s ?_ file⟩
  obtain ⟨s₁, h₁, hs⟩ := Option.bind_eq_some_iff.mp hs
  obtain ⟨s₂, h₂, hs⟩ := Option.bind_eq_some_iff.mp hs
  obtain ⟨s₃, h₃, hs⟩ := Option.bind_eq_some_iff.mp hs
  obtain ⟨s₄, h₄, hs⟩ := Option.bind_eq_some_iff.mp hs
  obtain ⟨s₅, h₅, hs⟩ := Option.bind_eq_some_iff.mp hs
  obtain rfl := Option.some.inj hs
  obtain rfl := Option.some.inj h₁
  have hcontexts : s₃.hwContexts = [] := by
    have heval : (runAll (step plainManager) (start plainManager oneBank) [.openAub "first",
        .writeMemory2 oneDword, .closeAub]).all (·.hwContexts.isEmpty) = true := by decide +kernel
    rw [show runAll (step plainManager) (start plainManager oneBank) [.openAub "first",
      .writeMemory2 oneDword, .closeAub] = some s₃ by
        simp only [runAll, step, Option.bind_some] at h₂ h₃ ⊢
        rw [h₂, Option.bind_some, h₃, Option.bind_some]] at heval
    exact List.isEmpty_iff.mp heval
  have first : Reach (step plainManager) (Allowed plainManager) (start plainManager oneBank)
      (plainManager.openAub "first" (start plainManager oneBank)) :=
    .step (o := Op.openAub "first") .start (fun _ => Or.inl rfl) rfl
  have data := first.step (o := Op.writeMemory2 oneDword) (fun _ _ _ _ _ _ _ _ _ => rfl) h₂
  have reopened := (data.step (o := Op.closeAub) trivial h₃).step (o := Op.openAub "second")
    (fun _ => Or.inl hcontexts) h₄
  exact reopened.step (o := Op.writeMemory2 (request4KB 0x1000 4)) (fun hmemory => by cases hmemory) h₅

/-- A second file lacks the entries of a page that the first one has. A file opened after a context
was created lacks the CCS mode. -/
theorem not_files_standAlone :
    (∃ s file, runAll (step plainManager) (start plainManager oneBank) [.openAub "first",
        .writeMemory2 oneDword, .closeAub, .openAub "second", .writeMemory2 oneDword] = some s ∧
      currentFile s = some file ∧ ¬ StandsAlone plainManager file) ∧
    ∃ s file, runAll (step plainManager) (start plainManager oneBank)
        [.createHardwareContext 0 0 0, .openAub "first"] = some s ∧
      currentFile s = some file ∧ ¬ StandsAlone plainManager file := by
  constructor
  · have heval : ((runAll (step plainManager) (start plainManager oneBank) [.openAub "first",
        .writeMemory2 oneDword, .closeAub, .openAub "second", .writeMemory2 oneDword]).bind
        currentFile).map (fun file => (file.records[2]?.bind dataRange,
          entriesOf (file.records.take 2))) = some (some (0x1000, 4), []) := by decide +kernel
    obtain ⟨file, hfile, heval⟩ := Option.map_eq_some_iff.mp heval
    obtain ⟨s, hs, hfile⟩ := Option.bind_eq_some_iff.mp hfile
    refine ⟨s, file, hs, hfile, fun alone => ?_⟩
    obtain ⟨hdata, hentries⟩ := Prod.mk.inj heval
    obtain ⟨record, hrecord, hrange⟩ := Option.bind_eq_some_iff.mp hdata
    cases record with
    | data d =>
      obtain ⟨haddress, hsize⟩ := Prod.mk.inj (Option.some.inj hrange)
      have path := alone.data 2 d hrecord 0x1000 (by omega) (by omega)
      rw [hentries] at path
      obtain ⟨_, _, hmem⟩ := path.entries (slotPath 4 Pde 0x1000) ⟨by decide, Or.inl (List.suffix_refl _)⟩
      cases hmem
    | _ => cases hrange
  · have heval : (runAll (step plainManager) (start plainManager oneBank)
        [.createHardwareContext 0 0 0, .openAub "first"]).bind currentFile =
        some ⟨"first", [.version 0 0, .contextInitialization 0 []], 0, [0]⟩ := rfl
    obtain ⟨s, hs, hfile⟩ := Option.bind_eq_some_iff.mp heval
    refine ⟨s, _, hs, hfile, fun alone => ?_⟩
    have hccs := alone.ccsMode (.mmio 0x14804 0xFFF0000 0xffffffff) (List.mem_singleton_self _)
    rcases List.mem_cons.mp hccs with h | h
    · cases h
    · cases List.mem_singleton.mp h

end

end AubFiles
