import Aubstream.LostLeaves

/-!
# Streams that can be paused

`AubTbxStream` and `AubShmStream` hand what they are given to an AUB file and to a
simulator. The file can be paused, the memory writes to shared memory can be
blocked, and what comes meanwhile is dropped there. A node that was created or
changed then stays pending for a later walk; an entry that `freeMemory` changes
does not.
-/

namespace PausedStreams
open EntryBits PathTree PhysicalAllocator PageNodes PageWalker FreeMemory TreeShape WalkPhases
  Placement Translation LastTables MapFrame FreeRounds FreeComplete Transitions AubManager
  PendingEntries WrittenPaths NotedPaths RepeatedLeaves LostLeaves Ps64Flags Ps64Walk
open TableRuns hiding step Op

/-- `single` stands for the streams that write to one place. -/
inductive StreamKind where
  | single
  | aubTbx
  | aubShm
  deriving DecidableEq

/-- A stream and one page table. A stream of kind `single` has all its records in `aubFileStream`.
The source has no `lost`: the nodes whose entries a free changed while they did not reach all
streams, and which no write to all streams has repeated since. -/
structure StreamState (A : Type) where
  nodes : Nodes
  allocator : A
  isAubFileStreamPaused : Bool
  isTbxStreamBlockedForMemWrites : Bool
  aubFileStream : List Record
  tbxStream : List Record
  lost : Path → Bool

def isMemoryWrite : Record → Bool
  | .entries _ _ _ => true
  | .data _ => true
  | _ => false

namespace StreamState

variable {A : Type} (kind : StreamKind)

def arePageTableWritesFullyCommitted (s : StreamState A) : Bool :=
  match kind with
  | .single => true
  | .aubTbx => !s.isAubFileStreamPaused
  | .aubShm => !s.isAubFileStreamPaused && !s.isTbxStreamBlockedForMemWrites

def reachesAubFile (s : StreamState A) : Bool :=
  match kind with
  | .single => true
  | _ => !s.isAubFileStreamPaused

def reachesTbx (s : StreamState A) (r : Record) : Bool :=
  match kind with
  | .single => false
  | .aubTbx => true
  | .aubShm => !(s.isTbxStreamBlockedForMemWrites && isMemoryWrite r)

def write (records : List Record) (s : StreamState A) : StreamState A :=
  { s with
    aubFileStream :=
      if s.reachesAubFile kind then s.aubFileStream ++ records else s.aubFileStream
    tbxStream := s.tbxStream ++ records.filter (s.reachesTbx kind) }

/-- What each underlying stream has been given. -/
def underlying (s : StreamState A) : List (List Record) :=
  match kind with
  | .single => [s.aubFileStream]
  | _ => [s.aubFileStream, s.tbxStream]

/-- The tree after `writePageWalkEntries`. -/
def nodesWritten (s : StreamState A) (w : WalkState A) : Nodes :=
  if s.arePageTableWritesFullyCommitted kind then commit w else w.nodes

variable (m : AubManagerImp A)

/-- `writePages` after a walk, with the records of its data. -/
def writePages (w : WalkState A) (data : List Record) (s : StreamState A) : StreamState A :=
  { s with
    nodes := s.nodesWritten kind w
    allocator := w.allocator
    lost := stillLost m.tables.gpu (s.nodesWritten kind w)
      (if s.arePageTableWritesFullyCommitted kind then entriesOf (m.writePages w) else [])
      s.lost }.write kind (m.writePages w ++ data)

variable [PhysicalAddressAllocator A]

/-- The entries of a free reach all streams. -/
def freesCompletely (gfxAddress size : Nat) (s : StreamState A) : Bool :=
  (FreeMemory.freeMemory m.tables.gpu m.tables.ppgtt s.nodes s.allocator gfxAddress size).2 &&
    s.arePageTableWritesFullyCommitted kind

def freeMemory (gfxAddress size : Nat) (s : StreamState A) : StreamState A :=
  let r := FreeMemory.freeMemory m.tables.gpu m.tables.ppgtt s.nodes s.allocator gfxAddress size
  { s with
    nodes := r.1.nodes
    allocator := r.1.allocator
    lost := stillLost m.tables.gpu r.1.nodes
      (if s.freesCompletely kind m gfxAddress size then entriesOf (m.writeFreed r) else [])
      (fun q => s.lost q || (!s.freesCompletely kind m gfxAddress size &&
        entryChanged m.tables.gpu s.nodes r.1.nodes q)) }.write kind (m.writeFreed r)

end StreamState

inductive Op (A : Type) where
  | writeMemory (params : AllocationParams)
  | cloneMemory (params : AllocationParams) (entries : List PageInfo)
  | mapGpuVa (params : AllocationParams) (physicalAddress : Nat)
  | freeMemory (gfxAddress size : Nat)
  | expectMemory (params : AllocationParams)
  | pauseAubFileStream (onoff : Bool)
  | blockMemWritesViaTbxStream (onoff : Bool)
  | others (allocator : A)

/-- The range of an operation that writes page table entries. -/
def Op.target {A : Type} : Op A → Option (Nat × Nat)
  | .writeMemory params => some (params.gfxAddress, params.size)
  | .cloneMemory params _ => some (params.gfxAddress, params.size)
  | .mapGpuVa params _ => some (params.gfxAddress, params.size)
  | _ => none

section
variable {A : Type} [PhysicalAddressAllocator A] (m : AubManagerImp A) (kind : StreamKind)

/-- `expectMemory` stands for `readMemory` too: the walk is all that matters here. -/
def step (s : StreamState A) : Op A → Option (StreamState A)
  | .writeMemory params => (m.walk params .Reserve [] none s.nodes s.allocator).bind fun w =>
      (AubManagerImp.writeData (s.nodesWritten kind w) params w.entries).map fun data =>
        s.writePages kind m w data
  | .cloneMemory params entries =>
    (m.walk params .Clone entries none s.nodes s.allocator).map fun w => s.writePages kind m w []
  | .mapGpuVa params physicalAddress =>
    (m.walk params .Reserve [] (some physicalAddress) s.nodes s.allocator).map fun w =>
      s.writePages kind m w []
  | .freeMemory gfxAddress size => some (s.freeMemory kind m gfxAddress size)
  | .expectMemory params => (m.walk params .Expect [] none s.nodes s.allocator).map fun w =>
      { s with nodes := w.nodes, allocator := w.allocator }
  | .pauseAubFileStream onoff => some { s with isAubFileStreamPaused := onoff }
  | .blockMemWritesViaTbxStream onoff => some { s with isTbxStreamBlockedForMemWrites := onoff }
  | .others allocator => some { s with allocator := allocator }

def start (a : A) (bank : Nat) : StreamState A :=
  let t := newTables a bank
  ⟨t.nodes, t.allocator, false, false, [], [], fun _ => false⟩

/-- The nodes on the way to `a` are not pending, and their entries were given to all streams. -/
structure PathStreamed (s : StreamState A) (a : Nat) : Prop where
  mapped : IsMapped m.tables.ppgtt.getNumLevels s.nodes a
  nodes : ∀ q, OnPath m.tables.ppgtt.getNumLevels s.nodes a q → ∃ x, s.nodes q = some x ∧
    x.pendingWrite = false ∧
    ∀ stream ∈ s.underlying kind, entryOf m.tables.gpu s.nodes q x ∈ entriesOf stream

/-- No node on the way to the range is lost, unless it is pending. -/
def NothingLost (s : StreamState A) (params : AllocationParams) : Prop :=
  ∀ a, params.gfxAddress ≤ a → a < params.gfxAddress + params.size →
    ∀ q, OnPath m.tables.ppgtt.getNumLevels s.nodes a q → ∀ x, s.nodes q = some x →
      x.pendingWrite = false → s.lost q = false

/-- Where all streams are reached, a walk that places its own pages meets no pending 2MB page, and
no lost node unless PS64 applies to it. A map in 4KB pages with PS64 does not go around the end of
the address space. -/
def Allowed (s : StreamState A) : Op A → Prop
  | .writeMemory params => s.arePageTableWritesFullyCommitted kind = true →
      (RepeatsLeaves m params none ∨ NothingLost m s params) ∧
      NoPending2MB m.tables.ppgtt.getNumLevels s.nodes params.gfxAddress params.size
  | .cloneMemory params _ => s.arePageTableWritesFullyCommitted kind = true →
      (RepeatsLeaves m params none ∨ NothingLost m s params) ∧
      NoPending2MB m.tables.ppgtt.getNumLevels s.nodes params.gfxAddress params.size
  | .mapGpuVa params _ => m.tables.enablePs64 = true → params.pageSize = pageSize4KB →
      m.tables.ppgtt = .PML5 →
      InSpace m.tables.ppgtt.getNumLevels params.gfxAddress params.size
  | _ => True

variable {m kind}

omit [PhysicalAddressAllocator A] in
/-- The AUB file's part of a write. -/
theorem aubFileStream_write (kind : StreamKind) (records : List Record) (s : StreamState A) :
    (∀ e ∈ entriesOf s.aubFileStream, e ∈ entriesOf (s.write kind records).aubFileStream) ∧
      (s.arePageTableWritesFullyCommitted kind = true →
        ∀ e ∈ entriesOf records, e ∈ entriesOf (s.write kind records).aubFileStream) := by
  unfold StreamState.write
  simp only
  split
  · simp only [entriesOf_append, List.mem_append]
    exact ⟨fun e he => Or.inl he, fun _ e he => Or.inr he⟩
  · rename_i hpaused
    refine ⟨fun e he => he, fun hcommitted => absurd ?_ hpaused⟩
    cases kind with
    | single => rfl
    | aubTbx => exact hcommitted
    | aubShm => exact (Bool.and_eq_true_iff.mp hcommitted).1

omit [PhysicalAddressAllocator A] in
/-- The simulator's part, where there is one. -/
theorem tbxStream_write (hkind : kind ≠ .single) (records : List Record) (s : StreamState A) :
    (∀ e ∈ entriesOf s.tbxStream, e ∈ entriesOf (s.write kind records).tbxStream) ∧
      (s.arePageTableWritesFullyCommitted kind = true →
        ∀ e ∈ entriesOf records, e ∈ entriesOf (s.write kind records).tbxStream) := by
  unfold StreamState.write
  simp only [entriesOf_append, List.mem_append]
  refine ⟨fun e he => Or.inl he, fun hcommitted e he => Or.inr ?_⟩
  have hall : records.filter (s.reachesTbx kind) = records := by
    rw [List.filter_eq_self]
    intro r _
    cases kind with
    | single => exact absurd rfl hkind
    | aubTbx => rfl
    | aubShm =>
      have hopen := (Bool.and_eq_true_iff.mp hcommitted).2
      rw [Bool.not_eq_true'] at hopen
      simp only [StreamState.reachesTbx, hopen, Bool.false_and, Bool.not_false]
  rwa [hall]

omit [PhysicalAddressAllocator A] in
/-- No stream forgets an entry, and where all are reached each of them gets the new ones. -/
theorem underlying_write {records : List Record} {s : StreamState A} {stream : List Record}
    (h : stream ∈ (s.write kind records).underlying kind) :
    ∃ before ∈ s.underlying kind, (∀ e ∈ entriesOf before, e ∈ entriesOf stream) ∧
      (s.arePageTableWritesFullyCommitted kind = true →
        ∀ e ∈ entriesOf records, e ∈ entriesOf stream) := by
  have both : kind ≠ .single → stream = (s.write kind records).aubFileStream ∨
      stream = (s.write kind records).tbxStream → ∃ before ∈ [s.aubFileStream, s.tbxStream],
        (∀ e ∈ entriesOf before, e ∈ entriesOf stream) ∧
        (s.arePageTableWritesFullyCommitted kind = true →
          ∀ e ∈ entriesOf records, e ∈ entriesOf stream) := by
    rintro hkind (rfl | rfl)
    · exact ⟨_, List.mem_cons_self, aubFileStream_write kind records s⟩
    · exact ⟨_, List.mem_cons_of_mem _ (List.mem_singleton_self _),
        tbxStream_write hkind records s⟩
  cases kind with
  | single =>
    obtain rfl := List.mem_singleton.mp h
    exact ⟨_, List.mem_singleton_self _, aubFileStream_write .single records s⟩
  | aubTbx => exact both (by simp) (by simpa [StreamState.underlying] using h)
  | aubShm => exact both (by simp) (by simpa [StreamState.underlying] using h)

/-- Every node below the root is pending, or lost, or its entry was given to all streams. -/
def Streamed (gpu : Gpu) (kind : StreamKind) (s : StreamState A) : Prop :=
  ∀ q x, q ≠ [] → s.nodes q = some x → x.pendingWrite = true ∨ s.lost q = true ∨
    ∀ stream ∈ s.underlying kind, entryOf gpu s.nodes q x ∈ entriesOf stream

/-- What an operation has made of a node: it is pending, or it is a node from before that was
given to the streams, or its entry is given to all of them now. -/
def Settled (gpu : Gpu) (kind : StreamKind) (s s' : StreamState A) (records : List Record)
    (q : Path) (y : PageNode) : Prop :=
  y.pendingWrite = true ∨
    (∃ x, s.nodes q = some x ∧ x.pendingWrite = false ∧ s.lost q = false ∧
      entryOf gpu s'.nodes q y = entryOf gpu s.nodes q x) ∨
    s.arePageTableWritesFullyCommitted kind = true ∧ entryOf gpu s'.nodes q y ∈ entriesOf records

omit [PhysicalAddressAllocator A] in
theorem Streamed.next {gpu : Gpu} {s s' : StreamState A} {records : List Record}
    (h : Streamed gpu kind s)
    (streams : ∀ stream ∈ s'.underlying kind, ∃ before ∈ s.underlying kind,
      (∀ e ∈ entriesOf before, e ∈ entriesOf stream) ∧
        (s.arePageTableWritesFullyCommitted kind = true →
          ∀ e ∈ entriesOf records, e ∈ entriesOf stream))
    (nodes : ∀ q y, q ≠ [] → s'.nodes q = some y → s'.lost q = false →
      Settled gpu kind s s' records q y) : Streamed gpu kind s' := by
  intro q y hq hy
  by_cases hlost : s'.lost q = true
  · exact Or.inr (Or.inl hlost)
  · rcases nodes q y hq hy (Bool.eq_false_iff.mpr hlost) with hpending | ⟨x, hx, hclean, hkept, heq⟩ |
      ⟨hcommitted, hwritten⟩
    · exact Or.inl hpending
    · refine Or.inr (Or.inr fun stream hstream => ?_)
      obtain ⟨before, hbefore, hmore, _⟩ := streams stream hstream
      rcases h q x hq hx with hpending | hgone | hstreamed
      · rw [hclean] at hpending
        cases hpending
      · rw [hkept] at hgone
        cases hgone
      · have hold := hstreamed before hbefore
        rw [← heq] at hold
        exact hmore _ hold
    · refine Or.inr (Or.inr fun stream hstream => ?_)
      obtain ⟨_, _, _, hnew⟩ := streams stream hstream
      exact hnew hcommitted _ hwritten

omit [PhysicalAddressAllocator A] in
/-- A node that is not lost after a write of `table` was not lost before, or it is repeated. -/
theorem stillLost_eq_false {gpu : Gpu} {t : Nodes} {table : List PageEntryInfo}
    {lost : Path → Bool} {q : Path} {y : PageNode} (hy : t q = some y) :
    stillLost gpu t table lost q = false ↔ lost q = false ∨ entryOf gpu t q y ∈ table := by
  simp only [stillLost, hy, Bool.and_eq_false_iff, Bool.not_eq_false', List.contains_iff_mem]

omit [PhysicalAddressAllocator A] in
/-- Committing clears what is listed and leaves the rest. -/
theorem commit_apply {n : Nat} {w : WalkState A} (listed : Listed n w) (hn : n ≤ 5) {q : Path} :
    (q ∈ w.pendingNodes (levelOf n q) → commit w q = (w.nodes q).map (·.setPendingWrite false)) ∧
      (q ∉ w.pendingNodes (levelOf n q) → commit w q = w.nodes q) := by
  constructor
  · intro hq
    refine modifyAll_of_mem (List.mem_flatMap.mpr ⟨levelOf n q, List.mem_range.mpr ?_, hq⟩)
    have := List.length_pos_iff.mpr (listed _ q hq).2
    have := (listed _ q hq).1
    omega
  · intro hq
    refine modifyAll_of_not_mem fun hmem => hq ?_
    obtain ⟨l, _, hl⟩ := List.mem_flatMap.mp hmem
    rwa [levelOf_slot (listed l q hl).1]

omit [PhysicalAddressAllocator A] in
theorem nodesWritten_layout (kind : StreamKind) (s : StreamState A) (w : WalkState A) :
    layout (s.nodesWritten kind w) = layout w.nodes := by
  unfold StreamState.nodesWritten
  split
  · exact commit_layout w
  · rfl

omit [PhysicalAddressAllocator A] in
/-- What a walk lists is written and committed, or stays pending; what it does not list it has not
changed. -/
theorem settled_writePages {s : StreamState A} {w : WalkState A} (data : List Record)
    (tracked : PendingEntries.Tracked m.tables.gpu m.tables.ppgtt.getNumLevels s.nodes w)
    {q : Path} {y : PageNode} (hy : (s.writePages kind m w data).nodes q = some y)
    (hlost : (s.writePages kind m w data).lost q = false) :
    Settled m.tables.gpu kind s (s.writePages kind m w data) (m.writePages w ++ data) q y := by
  have hn : m.tables.ppgtt.getNumLevels ≤ 5 := by cases m.tables.ppgtt <;> decide
  have haddress : entryAddress (s.nodesWritten kind w) q = entryAddress w.nodes q :=
    entryAddress_layout (nodesWritten_layout kind s w) q
  have hnodes : s.nodesWritten kind w q = some y := hy
  simp only [StreamState.writePages, StreamState.write] at hlost
  by_cases hq : q ∈ w.pendingNodes (levelOf m.tables.ppgtt.getNumLevels q)
  · by_cases hcommitted : s.arePageTableWritesFullyCommitted kind = true
    · refine Or.inr (Or.inr ⟨hcommitted, ?_⟩)
      rw [StreamState.nodesWritten, if_pos hcommitted] at hnodes
      obtain ⟨x, hx, hentry, _⟩ := commit_some hnodes m.tables.gpu
      have hsame : entryOf m.tables.gpu (s.writePages kind m w data).nodes q y =
          entryOf m.tables.gpu w.nodes q x := by
        rw [← hentry]
        simp only [StreamState.writePages, StreamState.write, StreamState.nodesWritten,
          if_pos hcommitted]
      rw [hsame, entriesOf_append, List.mem_append]
      exact Or.inl (listed_written m tracked hq hx)
    · left
      rw [StreamState.nodesWritten, if_neg hcommitted] at hnodes
      exact ((tracked.slots q).emitted hq y hnodes).1
  · have hsame : s.nodesWritten kind w q = s.nodes q := by
      rw [← (tracked.slots q).same hq]
      unfold StreamState.nodesWritten
      split
      · exact (commit_apply tracked.listed hn).2 hq
      · rfl
    have hx : s.nodes q = some y := hsame.symm.trans hnodes
    cases hpending : y.pendingWrite with
    | true => exact Or.inl hpending
    | false =>
      right
      have hentry : entryOf m.tables.gpu (s.writePages kind m w data).nodes q y =
          entryOf m.tables.gpu s.nodes q y := by
        have hkept := (tracked.kept q (by rw [hx]; simp)).2
        rw [entryOf, entryOf, ← hkept, ← haddress]
        rfl
      rcases (stillLost_eq_false hnodes).mp hlost with hkept | hrepeated
      · exact Or.inl ⟨y, hx, hpending, hkept, hentry⟩
      · split at hrepeated
        · rename_i hcommitted
          refine Or.inr ⟨hcommitted, ?_⟩
          rw [entriesOf_append, List.mem_append]
          exact Or.inl hrepeated
        · cases hrepeated

omit [PhysicalAddressAllocator A] in
/-- What is lost after a walk and not pending was lost before, and the walk has not touched it. -/
theorem lost_writePages {s : StreamState A} {w : WalkState A} (data : List Record)
    (tracked : PendingEntries.Tracked m.tables.gpu m.tables.ppgtt.getNumLevels s.nodes w)
    {q : Path} {y : PageNode} (hy : (s.writePages kind m w data).nodes q = some y)
    (hclean : y.pendingWrite = false) (hlost : (s.writePages kind m w data).lost q = true) :
    s.nodes q = some y ∧ s.lost q = true := by
  have hn : m.tables.ppgtt.getNumLevels ≤ 5 := by cases m.tables.ppgtt <;> decide
  have hnodes : s.nodesWritten kind w q = some y := hy
  have hfresh : ¬ (s.lost q = false ∨ entryOf m.tables.gpu (s.nodesWritten kind w) q y ∈
      (if s.arePageTableWritesFullyCommitted kind then entriesOf (m.writePages w) else [])) := by
    intro h
    have hgone : (s.writePages kind m w data).lost q = false := (stillLost_eq_false hnodes).mpr h
    rw [hlost] at hgone
    cases hgone
  obtain ⟨hbefore, hunwritten⟩ := not_or.mp hfresh
  refine ⟨?_, Bool.not_eq_false _ ▸ hbefore⟩
  by_cases hcommitted : s.arePageTableWritesFullyCommitted kind = true
  · rw [StreamState.nodesWritten, if_pos hcommitted] at hnodes hunwritten
    rw [if_pos hcommitted] at hunwritten
    by_cases hq : q ∈ w.pendingNodes (levelOf m.tables.ppgtt.getNumLevels q)
    · obtain ⟨x, hx, hentry, _⟩ := commit_some hnodes m.tables.gpu
      rw [hentry] at hunwritten
      exact absurd (listed_written m tracked hq hx) hunwritten
    · rw [(commit_apply tracked.listed hn).2 hq, (tracked.slots q).same hq] at hnodes
      exact hnodes
  · rw [StreamState.nodesWritten, if_neg hcommitted] at hnodes
    by_cases hq : q ∈ w.pendingNodes (levelOf m.tables.ppgtt.getNumLevels q)
    · have hpending := ((tracked.slots q).emitted hq y hnodes).1
      rw [hclean] at hpending
      cases hpending
    · rw [(tracked.slots q).same hq] at hnodes
      exact hnodes

/-- A free leaves the flags alone, and the entries it changes are written, or lost. -/
theorem settled_freeMemory {s : StreamState A} {g size : Nat}
    (wf : Wf m.tables.ppgtt.getNumLevels s.nodes) (inhabited : Inhabited s.nodes)
    {q : Path} {y : PageNode} (hy : (s.freeMemory kind m g size).nodes q = some y)
    (hlost : (s.freeMemory kind m g size).lost q = false) :
    Settled m.tables.gpu kind s (s.freeMemory kind m g size)
      (m.writeFreed (FreeMemory.freeMemory m.tables.gpu m.tables.ppgtt s.nodes s.allocator g size))
      q y := by
  obtain ⟨hwf, _, _, _, run, _⟩ := freePages_run
    (c := ⟨m.tables.ppgtt, m.tables.gpu, g, g + size⟩) (a := s.allocator) wf inhabited g size
  have hnodes : (FreeMemory.freeMemory m.tables.gpu m.tables.ppgtt s.nodes s.allocator g
      size).1.nodes q = some y := hy
  simp only [StreamState.freeMemory, StreamState.write] at hlost
  obtain ⟨x, hx, hflags⟩ := run.tracked.shrinks q y hnodes
  have hpending := (core_of_setPs64 hflags).2
  have haddress : entryAddress (FreeMemory.freeMemory m.tables.gpu m.tables.ppgtt s.nodes
      s.allocator g size).1.nodes q = entryAddress s.nodes q := by
    cases q with
    | nil => rfl
    | cons i p =>
      obtain ⟨parent, hp, _⟩ := hwf.parent i p y hnodes
      exact run.tracked.entryAddress_eq hp i
  have hcompletely : s.freesCompletely kind m g size = true →
      s.arePageTableWritesFullyCommitted kind = true ∧ ∀ e,
        e ∈ writtenEntries (FreeMemory.freeMemory m.tables.gpu m.tables.ppgtt s.nodes s.allocator g
          size) ↔ e ∈ emitted (FreeMemory.freeMemory m.tables.gpu m.tables.ppgtt s.nodes
            s.allocator g size).1 := by
    intro h
    obtain ⟨hpassed, hcommitted⟩ := Bool.and_eq_true_iff.mp h
    refine ⟨hcommitted, fun e => ?_⟩
    rw [writtenEntries, if_pos hpassed]
    rfl
  cases hx' : x.pendingWrite with
  | true => exact Or.inl (hpending.trans hx')
  | false =>
    right
    rcases (stillLost_eq_false hnodes).mp hlost with hkept | hrepeated
    · obtain ⟨hbefore, hsame⟩ := Bool.or_eq_false_iff.mp hkept
      by_cases hvalue : y.getEntryValue m.tables.gpu = x.getEntryValue m.tables.gpu
      · refine Or.inl ⟨x, hx, hx', hbefore, ?_⟩
        rw [entryOf, entryOf, hvalue, ← haddress]
        rfl
      · rcases Bool.and_eq_false_iff.mp hsame with hall | hsame
        · rw [Bool.not_eq_false'] at hall
          obtain ⟨hcommitted, hmem⟩ := hcompletely hall
          refine Or.inr ⟨hcommitted, ?_⟩
          rw [entriesOf_writeFreed, hmem]
          have hvalues := run.tracked.values q y x hnodes hx hvalue
          rw [← haddress] at hvalues
          exact hvalues
        · simp only [entryChanged, hx, hnodes, bne_eq_false_iff_eq] at hsame
          exact absurd hsame.symm hvalue
    · split at hrepeated
      · rename_i hall
        exact Or.inr ⟨(hcompletely hall).1, hrepeated⟩
      · cases hrepeated

/-- What is lost after a free was lost before, or the free has changed its entry. -/
theorem lost_freeMemory {s : StreamState A} {g size : Nat} {q : Path}
    (h : (s.freeMemory kind m g size).lost q = true) :
    s.lost q = true ∨ entryChanged m.tables.gpu s.nodes (FreeMemory.freeMemory m.tables.gpu
      m.tables.ppgtt s.nodes s.allocator g size).1.nodes q = true := by
  simp only [StreamState.freeMemory, StreamState.write, stillLost] at h
  split at h
  · cases h
  · obtain ⟨hlost, _⟩ := Bool.and_eq_true_iff.mp h
    rcases Bool.or_eq_true_iff.mp hlost with hold | hnew
    · exact Or.inl hold
    · exact Or.inr (Bool.and_eq_true_iff.mp hnew).2

/-- What holds in every state of a run. -/
structure Inv (m : AubManagerImp A) (kind : StreamKind) (s : StreamState A) : Prop where
  wf : Wf m.tables.ppgtt.getNumLevels s.nodes
  inhabited : Inhabited s.nodes
  streamed : Streamed m.tables.gpu kind s
  marks : MarksIn4KB s.nodes
  leavesLost : OnlyLeavesLost s.nodes s.lost

theorem Inv.writePages {s : StreamState A} (inv : Inv m kind s) {params : AllocationParams}
    {mode : WalkMode} {infos : List PageInfo} {phys : Option Nat} {w : WalkState A}
    (hmode : mode ≠ .Expect)
    (space : phys ≠ none → m.tables.enablePs64 = true → params.pageSize = pageSize4KB →
      m.tables.ppgtt = .PML5 →
      InSpace m.tables.ppgtt.getNumLevels params.gfxAddress params.size)
    (h : m.walk params mode infos phys s.nodes s.allocator = some w) (data : List Record) :
    Inv m kind (s.writePages kind m w data) := by
  have expect : mode = .Expect → phys = none := fun hm => absurd hm hmode
  obtain ⟨hwf, hinhabited⟩ := walk_tree m inv.wf inv.inhabited expect h
  have hlayout : layout (s.writePages kind m w data).nodes = layout (commit w) :=
    (nodesWritten_layout kind s w).trans (commit_layout w).symm
  constructor
  · rw [← wf_layout, hlayout, wf_layout]
    exact hwf
  · rw [← inhabited_layout, hlayout, inhabited_layout]
    exact hinhabited
  · exact inv.streamed.next (fun _ => underlying_write) fun q y _ hy hlost =>
      settled_writePages data (walk_tracked m inv.wf expect space h) hy hlost
  · have marks := walk_marks m inv.wf expect inv.marks h
    change MarksIn4KB (s.nodesWritten kind w)
    unfold StreamState.nodesWritten
    split
    · exact marks_setPendingWrite marks _ false
    · exact marks
  · have kinds : KindsKept s.nodes (s.nodesWritten kind w) := by
      unfold StreamState.nodesWritten
      split
      · exact walk_kinds m inv.wf hmode h
      · exact walk_keepsKinds m inv.wf expect h
    exact inv.leavesLost.keep kinds fun q y hy hclean hlost =>
      lost_writePages data (walk_tracked m inv.wf expect space h) hy hclean hlost

theorem Inv.expectMemory {s : StreamState A} (inv : Inv m kind s) {params : AllocationParams}
    {w : WalkState A} (h : m.walk params .Expect [] none s.nodes s.allocator = some w) :
    Inv m kind { s with nodes := w.nodes, allocator := w.allocator } := by
  obtain ⟨hwf, hinhabited⟩ := walk_tree m inv.wf inv.inhabited (fun _ => rfl) h
  have tracked := walk_tracked m inv.wf (fun _ => rfl) (fun hne => absurd rfl hne) h
  constructor
  · rw [← wf_layout, commit_layout, wf_layout] at hwf
    exact hwf
  · rw [← inhabited_layout, commit_layout, inhabited_layout] at hinhabited
    exact hinhabited
  · have hsame : ∀ stream ∈ s.underlying kind, ∃ before ∈ s.underlying kind,
        (∀ e ∈ entriesOf before, e ∈ entriesOf stream) ∧
          (s.arePageTableWritesFullyCommitted kind = true →
            ∀ e ∈ entriesOf [], e ∈ entriesOf stream) :=
      fun stream hstream => ⟨stream, hstream, fun _ he => he, fun _ _ he => by cases he⟩
    refine inv.streamed.next hsame ?_
    intro q y _ hy hlost
    by_cases hq : q ∈ w.pendingNodes (levelOf m.tables.ppgtt.getNumLevels q)
    · exact Or.inl ((tracked.slots q).emitted hq y hy).1
    · have hsame := (tracked.slots q).same hq
      have hx : s.nodes q = some y := hsame.symm.trans hy
      cases hpending : y.pendingWrite with
      | true => exact Or.inl hpending
      | false =>
        refine Or.inr (Or.inl ⟨y, hx, hpending, hlost, ?_⟩)
        rw [entryOf, entryOf, (tracked.kept q (by rw [hx]; simp)).2]
  · exact walk_marks m inv.wf (fun _ => rfl) inv.marks h
  · refine inv.leavesLost.keep (walk_keepsKinds m inv.wf (fun _ => rfl) h) ?_
    intro q y hy hclean hlost
    refine ⟨?_, hlost⟩
    by_cases hq : q ∈ w.pendingNodes (levelOf m.tables.ppgtt.getNumLevels q)
    · have hpending := ((tracked.slots q).emitted hq y hy).1
      rw [hclean] at hpending
      cases hpending
    · rw [← (tracked.slots q).same hq]
      exact hy

theorem Inv.freeMemory {s : StreamState A} (inv : Inv m kind s) (g size : Nat) :
    Inv m kind (s.freeMemory kind m g size) := by
  obtain ⟨hwf, _, _, _, run, _⟩ := freePages_run
    (c := ⟨m.tables.ppgtt, m.tables.gpu, g, g + size⟩) (a := s.allocator) inv.wf inv.inhabited g
    size
  constructor
  · exact hwf
  · exact run.inhabited
  · exact inv.streamed.next (fun _ => underlying_write) fun q y _ hy hlost =>
      settled_freeMemory inv.wf inv.inhabited hy hlost
  · exact free_marks (c := ⟨m.tables.ppgtt, m.tables.gpu, g, g + size⟩) inv.marks inv.wf g size
      run.tracked hwf
  · refine inv.leavesLost.free (c := ⟨m.tables.ppgtt, m.tables.gpu, g, g + size⟩) inv.marks inv.wf
      g size run.tracked hwf fun q hlost => ?_
    exact lost_freeMemory hlost

theorem inv_step {s s' : StreamState A} {o : Op A} (inv : Inv m kind s)
    (allowed : Allowed m kind s o) (h : step m kind s o = some s') : Inv m kind s' := by
  cases o with
  | writeMemory params =>
    obtain ⟨w, hw, h⟩ := Option.bind_eq_some_iff.mp h
    obtain ⟨data, _, rfl⟩ := Option.map_eq_some_iff.mp h
    exact inv.writePages (by simp) (fun hne => absurd rfl hne) hw data
  | cloneMemory params entries =>
    obtain ⟨w, hw, rfl⟩ := Option.map_eq_some_iff.mp h
    exact inv.writePages (by simp) (fun hne => absurd rfl hne) hw []
  | mapGpuVa params physicalAddress =>
    obtain ⟨w, hw, rfl⟩ := Option.map_eq_some_iff.mp h
    exact inv.writePages (by simp) (fun _ => allowed) hw []
  | freeMemory gfxAddress size =>
    obtain rfl := Option.some.inj h
    exact inv.freeMemory gfxAddress size
  | expectMemory params =>
    obtain ⟨w, hw, rfl⟩ := Option.map_eq_some_iff.mp h
    exact inv.expectMemory hw
  | pauseAubFileStream onoff =>
    obtain rfl := Option.some.inj h
    exact ⟨inv.wf, inv.inhabited, inv.streamed, inv.marks, inv.leavesLost⟩
  | blockMemWritesViaTbxStream onoff =>
    obtain rfl := Option.some.inj h
    exact ⟨inv.wf, inv.inhabited, inv.streamed, inv.marks, inv.leavesLost⟩
  | others allocator =>
    obtain rfl := Option.some.inj h
    exact ⟨inv.wf, inv.inhabited, inv.streamed, inv.marks, inv.leavesLost⟩

theorem inv_start (a : A) (bank : Nat) : Inv m kind (start a bank) := by
  have empty : ∀ q, q ≠ [] → (newTables a bank).nodes q = none := fun q hq => if_neg hq
  constructor
  · exact newTables_wf _ a bank
  · exact newTables_inhabited a bank
  · intro q x hq hx
    exact absurd (hx.symm.trans (empty q hq)) (by simp)
  · intro i p hmark
    have hnone : flag (newTables a bank).nodes (i :: p) = false :=
      flag_of_none (empty _ (List.cons_ne_nil i p))
    rw [show (start a bank).nodes = (newTables a bank).nodes from rfl, hnone] at hmark
    cases hmark
  · intro _ _ _ _ _ hlost
    cases hlost

/-- A walk whose entries reach all streams leaves the paths of its range streamed. -/
theorem writePages_path {s : StreamState A} (inv : Inv m kind s)
    (committed : s.arePageTableWritesFullyCommitted kind = true) {params : AllocationParams}
    {mode : WalkMode} {infos : List PageInfo} {phys : Option Nat} {w : WalkState A}
    (hmode : mode ≠ .Expect)
    (space : phys ≠ none → m.tables.enablePs64 = true → params.pageSize = pageSize4KB →
      m.tables.ppgtt = .PML5 →
      InSpace m.tables.ppgtt.getNumLevels params.gfxAddress params.size)
    (nothingLost : RepeatsLeaves m params phys ∨ NothingLost m s params)
    (standing : phys = none →
      NoPending2MB m.tables.ppgtt.getNumLevels s.nodes params.gfxAddress params.size)
    (h : m.walk params mode infos phys s.nodes s.allocator = some w) (data : List Record) {x : Nat}
    (h1 : params.gfxAddress ≤ x) (h2 : x < params.gfxAddress + params.size) :
    PathStreamed m kind (s.writePages kind m w data) x := by
  have hn : m.tables.ppgtt.getNumLevels ≤ 5 := by cases m.tables.ppgtt <;> decide
  have tracked := walk_tracked m inv.wf (fun hm => absurd hm hmode) space h
  have inv' := inv.writePages hmode space h data
  have kinds := walk_kinds m inv.wf hmode h
  obtain ⟨hmapped, hnoted⟩ := walk_noted m inv.wf hmode space standing h h1 h2
  have hnodes : (s.writePages kind m w data).nodes = commit w := if_pos committed
  rw [← isMapped_layout, ← commit_layout, isMapped_layout, ← hnodes] at hmapped
  refine ⟨hmapped, fun q hq => ?_⟩
  obtain ⟨y, hy⟩ := onPath_some inv'.wf hmapped hq
  rw [hnodes] at hq
  have hpath : OnPath m.tables.ppgtt.getNumLevels w.nodes x q := by
    rwa [← onPath_layout, commit_layout, onPath_layout] at hq
  have hy' : commit w q = some y := hnodes ▸ hy
  have hresult : y.pendingWrite = false ∧ (s.writePages kind m w data).lost q = false := by
    by_cases hlisted : q ∈ w.pendingNodes (levelOf m.tables.ppgtt.getNumLevels q)
    · have hcommit := (commit_apply tracked.listed hn).1 hlisted
      rw [hy'] at hcommit
      obtain ⟨z, hz, rfl⟩ := Option.map_eq_some_iff.mp hcommit.symm
      refine ⟨rfl, (stillLost_eq_false hy).mpr (Or.inr ?_)⟩
      obtain ⟨z', hz', hentry, _⟩ := commit_some hy' m.tables.gpu
      rw [if_pos committed, hnodes, hentry]
      exact listed_written m tracked hlisted hz'
    · have hsame := (commit_apply tracked.listed hn).2 hlisted
      rw [hy'] at hsame
      have hclean := hnoted q hpath hlisted y hsame.symm
      refine ⟨hclean, (stillLost_eq_false hy).mpr ?_⟩
      have hx : s.nodes q = some y := ((tracked.slots q).same hlisted).symm.trans hsame.symm
      have hbefore := onPath_before inv.wf kinds hq (by rw [hx]; simp)
      by_cases hlost : s.lost q = true
      · rcases nothingLost with repeats | hnone
        · right
          obtain ⟨i, p, rfl⟩ := List.exists_cons_of_ne_nil hq.1
          obtain ⟨hunmarked, table, htable, hk⟩ := inv.leavesLost i p y hx hclean hlost
          obtain ⟨z, hz, hentry, _⟩ := commit_some hy' m.tables.gpu
          rw [if_pos committed, hnodes, hentry]
          exact walk_repeated m inv.wf hmode space repeats h h1 h2 htable hk hbefore
            ((flag_of_some hx).trans hunmarked) hz
        · exact Or.inl (hnone x h1 h2 q hbefore y hx hclean)
      · exact Or.inl (Bool.eq_false_iff.mpr hlost)
  obtain ⟨hclean, hkept⟩ := hresult
  refine ⟨y, hy, hclean, fun stream hstream => ?_⟩
  rcases inv'.streamed q y hq.1 hy with hpending | hlost | hall
  · rw [hclean] at hpending
    cases hpending
  · rw [hkept] at hlost
    cases hlost
  · exact hall stream hstream

/-- In every run whose operations are all allowed, an operation that writes page table entries to
all streams leaves the path of every address of its range streamed. -/
theorem reach_pathStreamed (m : AubManagerImp A) (kind : StreamKind) (a : A) (bank : Nat)
    (s s' : StreamState A) (o : Op A) (g size : Nat)
    (reached : Reach (step m kind) (Allowed m kind) (start a bank) s)
    (allowed : Allowed m kind s o) (target : o.target = some (g, size))
    (committed : s.arePageTableWritesFullyCommitted kind = true)
    (done : step m kind s o = some s') (x : Nat) (h1 : g ≤ x) (h2 : x < g + size) :
    PathStreamed m kind s' x := by
  have inv : Inv m kind s := reached.invariant (inv_start a bank)
    fun _ _ _ inv allowed h => inv_step inv allowed h
  cases o with
  | writeMemory params =>
    obtain ⟨rfl, rfl⟩ := Prod.mk.inj (Option.some.inj target)
    obtain ⟨w, hw, done⟩ := Option.bind_eq_some_iff.mp done
    obtain ⟨data, _, rfl⟩ := Option.map_eq_some_iff.mp done
    obtain ⟨nothingLost, standing⟩ := allowed committed
    exact writePages_path inv committed (by simp) (fun hne => absurd rfl hne) nothingLost
      (fun _ => standing) hw data h1 h2
  | cloneMemory params entries =>
    obtain ⟨rfl, rfl⟩ := Prod.mk.inj (Option.some.inj target)
    obtain ⟨w, hw, rfl⟩ := Option.map_eq_some_iff.mp done
    obtain ⟨nothingLost, standing⟩ := allowed committed
    exact writePages_path inv committed (by simp) (fun hne => absurd rfl hne) nothingLost
      (fun _ => standing) hw [] h1 h2
  | mapGpuVa params physicalAddress =>
    obtain ⟨rfl, rfl⟩ := Prod.mk.inj (Option.some.inj target)
    obtain ⟨w, hw, rfl⟩ := Option.map_eq_some_iff.mp done
    exact writePages_path inv committed (by simp) (fun _ => allowed)
      (Or.inl (Or.inl (Option.some_ne_none _))) (fun hnone => by cases hnone) hw [] h1 h2
  | freeMemory gfxAddress size => cases target
  | expectMemory params => cases target
  | pauseAubFileStream onoff => cases target
  | blockMemWritesViaTbxStream onoff => cases target
  | others allocator => cases target

/-- Only a free loses entries. -/
theorem step_keepsAll {m : AubManagerImp A} {kind : StreamKind} {s s' : StreamState A} {o : Op A}
    (hfree : ∀ g size, o ≠ .freeMemory g size) (h : step m kind s o = some s')
    (hs : ∀ q, s.lost q = false) (q : Path) : s'.lost q = false := by
  have hstill : ∀ t table, stillLost m.tables.gpu t table s.lost q = false := by
    intro t table
    unfold stillLost
    cases t q with
    | none => rfl
    | some y => simp only [hs, Bool.false_and]
  cases o with
  | writeMemory params =>
    obtain ⟨w, _, h⟩ := Option.bind_eq_some_iff.mp h
    obtain ⟨data, _, rfl⟩ := Option.map_eq_some_iff.mp h
    exact hstill _ _
  | cloneMemory params entries =>
    obtain ⟨w, _, rfl⟩ := Option.map_eq_some_iff.mp h
    exact hstill _ _
  | mapGpuVa params physicalAddress =>
    obtain ⟨w, _, rfl⟩ := Option.map_eq_some_iff.mp h
    exact hstill _ _
  | freeMemory gfxAddress size => exact absurd rfl (hfree gfxAddress size)
  | expectMemory params =>
    obtain ⟨w, _, rfl⟩ := Option.map_eq_some_iff.mp h
    exact hs q
  | pauseAubFileStream onoff =>
    obtain rfl := Option.some.inj h
    exact hs q
  | blockMemWritesViaTbxStream onoff =>
    obtain rfl := Option.some.inj h
    exact hs q
  | others allocator =>
    obtain rfl := Option.some.inj h
    exact hs q

theorem runAll_keepsAll {m : AubManagerImp A} {kind : StreamKind} {s s' : StreamState A}
    {ops : List (Op A)} (hfree : ∀ o ∈ ops, ∀ g size, o ≠ .freeMemory g size)
    (h : runAll (step m kind) s ops = some s') (hs : ∀ q, s.lost q = false) (q : Path) :
    s'.lost q = false := by
  induction ops generalizing s with
  | nil =>
    obtain rfl := Option.some.inj h
    exact hs q
  | cons o rest ih =>
    obtain ⟨next, hnext, h⟩ := Option.bind_eq_some_iff.mp h
    have hkept := step_keepsAll (hfree o List.mem_cons_self) hnext hs
    exact ih (fun o' ho' => hfree o' (List.mem_cons_of_mem _ ho')) h hkept

end

/-- A page that is written while the AUB file is paused, before it is written again. -/
def pausedWrite : List (Op PhysicalAddressAllocatorSimple) :=
  [.pauseAubFileStream true, .writeMemory (request4KB 0x1000 4), .pauseAubFileStream false]

/-- What was written while the file was paused reaches it with the next write. -/
theorem reach_pathStreamed_resumed :
    ∃ s s', runAll (step plainManager .aubTbx) (start oneBank 1) pausedWrite = some s ∧
      step plainManager .aubTbx s (.writeMemory (request4KB 0x1000 4)) = some s' ∧
      PathStreamed plainManager .aubTbx s' 0x1000 := by
  have hrun : ((runAll (step plainManager .aubTbx) (start oneBank 1) pausedWrite).map fun s =>
      (s.isAubFileStreamPaused, (regionAt 4 s.nodes 0x1000).map (·.kind),
        (leafAt 4 s.nodes 0x1000).map (·.kind))) =
          some (false, some (.pte .PTE4KB), some .memory) := by decide +kernel
  have hagain : ((runAll (step plainManager .aubTbx) (start oneBank 1) pausedWrite).bind fun s =>
      step plainManager .aubTbx s (.writeMemory (request4KB 0x1000 4))).isSome = true := by
    decide +kernel
  have allowed : AllAlong (step plainManager .aubTbx) (Allowed plainManager .aubTbx)
      (start oneBank 1) pausedWrite := by
    refine ⟨trivial, fun s₁ h₁ => ⟨?_, fun _ _ => ⟨trivial, fun _ _ => trivial⟩⟩⟩
    obtain rfl := Option.some.inj h₁
    intro committed
    cases committed
  obtain ⟨s, hs, hkinds⟩ := Option.map_eq_some_iff.mp hrun
  obtain ⟨hopen, hkinds⟩ := Prod.mk.inj hkinds
  obtain ⟨hregion, hleaf⟩ := Prod.mk.inj hkinds
  rw [hs, Option.bind_some] at hagain
  obtain ⟨s', hs'⟩ := Option.isSome_iff_exists.mp hagain
  have hlost : ∀ q, s.lost q = false :=
    runAll_keepsAll (by simp [pausedWrite]) hs fun _ => rfl
  have committed : s.arePageTableWritesFullyCommitted .aubTbx = true := by
    simp only [StreamState.arePageTableWritesFullyCommitted, hopen, Bool.not_false]
  have hpage : NoPending2MB 4 s.nodes 0x1000 4 := by
    intro x h1 h2 leaf hx hkind
    obtain ⟨region, hr, hk⟩ := Option.map_eq_some_iff.mp hregion
    have hsame : leafAt 4 s.nodes 0x1000 = leafAt 4 s.nodes x :=
      leafAt_congr (hk ▸ .pte _) hr (by rw [hk]; change 0x1000 / 4096 = x / 4096; omega)
    rw [hsame, hx, Option.map_some, hkind] at hleaf
    cases hleaf
  exact ⟨s, s', hs, hs', reach_pathStreamed plainManager .aubTbx oneBank 1 s s'
    (.writeMemory (request4KB 0x1000 4)) 0x1000 4 (Reach.runAll pausedWrite .start allowed hs)
    (fun _ => ⟨Or.inr fun _ _ _ q _ _ _ _ => hlost q, hpage⟩) rfl committed hs' 0x1000 (by decide)
    (by decide)⟩

/-- One page of 2MB. -/
def request2MB : AllocationParams := { request4KB 0 1 with pageSize := pageSize2MB }

/-- A 2MB page that was created while the AUB file was paused stays pending. -/
theorem not_pathStreamed :
    ¬ ∀ (s s' : StreamState PhysicalAddressAllocatorSimple) (o : Op PhysicalAddressAllocatorSimple)
      (g size : Nat), Reach (step plainManager .aubTbx) Any (start oneBank 1) s →
        o.target = some (g, size) → s.arePageTableWritesFullyCommitted .aubTbx = true →
        step plainManager .aubTbx s o = some s' →
        ∀ x, g ≤ x → x < g + size → PathStreamed plainManager .aubTbx s' x := by
  intro hall
  have hrun : ((runAll (step plainManager .aubTbx) (start oneBank 1) [.pauseAubFileStream true,
      .writeMemory request2MB, .pauseAubFileStream false]).bind fun s =>
        (step plainManager .aubTbx s (.writeMemory (request4KB 0 1))).map fun s' =>
          (s.isAubFileStreamPaused, (pageSlot 4 s'.nodes 0).map fun q =>
            (q.isEmpty, (s'.nodes q).map (·.pendingWrite)))) =
              some (false, some (false, some true)) := by decide +kernel
  obtain ⟨s, hs, hrun⟩ := Option.bind_eq_some_iff.mp hrun
  obtain ⟨s', hs', hrun⟩ := Option.map_eq_some_iff.mp hrun
  obtain ⟨hopen, hslot⟩ := Prod.mk.inj hrun
  obtain ⟨q, hq, hslot⟩ := Option.map_eq_some_iff.mp hslot
  obtain ⟨hne, hpending⟩ := Prod.mk.inj hslot
  have committed : s.arePageTableWritesFullyCommitted .aubTbx = true := by
    simp only [StreamState.arePageTableWritesFullyCommitted, hopen, Bool.not_false]
  have path := hall s s' _ 0 1 (runAll_reach _ .start hs) rfl committed hs' 0 (by decide) (by decide)
  obtain ⟨x, hx, hclean, _⟩ := path.nodes q ⟨List.isEmpty_eq_false_iff.mp hne, Or.inr hq⟩
  rw [hx, Option.map_some, hclean] at hpending
  cases hpending

end PausedStreams
