import Aubstream.PageWalker
import Aubstream.Transitions

/-!
# The global GTT and its two streams

The GGTT is one table of 4KB pages. A page gets its entry emitted when the walk
creates it, and at no other time. A combined stream passes the entries on to the
AUB file unless that side is paused, and always to its second stream.
-/

namespace GlobalGtt
open EntryBits PhysicalAllocator PageWalker Transitions

/-- `enableBits` and `createdPaused` are not in the source: no function reads the bits that the
entry was emitted with, and whether the AUB side was paused then. -/
structure GttPage where
  physicalAddress : Nat
  memoryBank : Nat
  enableBits : Nat
  createdPaused : Bool
  deriving DecidableEq, Repr

/-- `memoryBank` is 0 or has one bit set. -/
structure GGTT where
  memoryBank : Nat

namespace GGTT

def entryOffset (ggtt : GGTT) : Nat :=
  if ggtt.memoryBank = 0 then 0
  else 0x1000000 * PhysicalAddressAllocatorSimple.allocatorIndex 32 ggtt.memoryBank

def getIndex (gfxAddress : Nat) : Nat := gfxAddress % 2 ^ 32 / 2 ^ 12

end GGTT

structure GttWalk (A : Type) where
  children : Nat → Option GttPage
  allocator : A
  entries : List PageInfo
  ggttEntries : List PageEntryInfo

/-- The entry of a page. -/
def entryOf (ggtt : GGTT) (index : Nat) (page : GttPage) : PageEntryInfo :=
  ⟨ggtt.entryOffset + 8 * index, page.physicalAddress ||| page.enableBits⟩

/-- Index of the first 4KB page of the page of an address. -/
def firstIndex (pageSize gfxAddress : Nat) : Nat :=
  GGTT.getIndex (gfxAddress - gfxAddress % pageSize)

def entriesToDump (pageSize : Nat) : Nat := max 1 (pageSize / 4096)

section
variable {A : Type} [PhysicalAddressAllocator A]

/-- `child == nullptr`: allocate a page and enter all its 4KB pages. -/
def createPage (ggtt : GGTT) (paused : Bool) (memoryBanks pageSize index : Nat) (w : GttWalk A) :
    GttWalk A :=
  let enableBits := if memoryBanks ≠ mainBank then 3 else 1
  let r := reservePhysicalMemory w.allocator ggtt.memoryBank (max pageSize 4096) (max pageSize 4096)
  let pageAt := fun i => (⟨r.1 + i * 4096, ggtt.memoryBank, enableBits, paused⟩ : GttPage)
  { w with
    children := fun j => if index ≤ j ∧ j < index + entriesToDump pageSize then
      some (pageAt (j - index)) else w.children j
    allocator := r.2
    ggttEntries := w.ggttEntries ++
      (List.range (entriesToDump pageSize)).map fun i => entryOf ggtt (index + i) (pageAt i) }

/-- The loop of `walkMemory(GGTT *, ...)`; a missing page ends an Expect walk. -/
def walkPages (ggtt : GGTT) (paused : Bool) (memoryBanks pageSize : Nat) (mode : WalkMode) :
    Nat → Nat → Nat → GttWalk A → GttWalk A
  | 0, _, _, w => w
  | fuel + 1, gfxAddress, size, w =>
    if size = 0 then w
    else
      let index := firstIndex pageSize gfxAddress
      if w.children index = none ∧ mode = .Expect then w
      else
        let w := if w.children index = none then createPage ggtt paused memoryBanks pageSize index w
          else w
        let sizeThisPass := min (pageSize - gfxAddress % pageSize) size
        let w := match w.children index with
          | none => w
          | some child => { w with entries := w.entries ++ [⟨child.physicalAddress +
              gfxAddress % pageSize, sizeThisPass, child.memoryBank != 0, 0⟩] }
        walkPages ggtt paused memoryBanks pageSize mode fuel (gfxAddress + sizeThisPass)
          (size - sizeThisPass) w

/-- The GGTT, and the GTT entries that each side of a combined stream has been given. -/
structure GttStreams (A : Type) where
  children : Nat → Option GttPage
  allocator : A
  isAubFileStreamPaused : Bool
  aubFileStream : List PageEntryInfo
  otherStream : List PageEntryInfo

def walkMemory (ggtt : GGTT) (s : GttStreams A) (gfxAddress size memoryBanks pageSize : Nat)
    (mode : WalkMode) : GttWalk A :=
  walkPages ggtt s.isAubFileStreamPaused memoryBanks pageSize mode size gfxAddress size
    ⟨s.children, s.allocator, [], []⟩

/-- `AubTbxStream::writeGttPages` and `AubShmStream::writeGttPages`. -/
def writeGttPages (s : GttStreams A) (table : List PageEntryInfo) : GttStreams A :=
  { s with
    aubFileStream := if s.isAubFileStreamPaused then s.aubFileStream else s.aubFileStream ++ table
    otherStream := s.otherStream ++ table }

inductive Op (A : Type) where
  | writeMemory (gfxAddress size memoryBanks pageSize : Nat)
  | readMemory (gfxAddress size memoryBanks pageSize : Nat)
  | pauseAubFileStream (onoff : Bool)
  | others (allocator : A)

def writeMemory (ggtt : GGTT) (s : GttStreams A) (gfxAddress size memoryBanks pageSize : Nat) :
    GttStreams A :=
  let w := walkMemory ggtt s gfxAddress size memoryBanks pageSize .Reserve
  writeGttPages { s with children := w.children, allocator := w.allocator } w.ggttEntries

/-- A read, a poll and an expectation walk in Expect mode and emit no entries. -/
def step (ggtt : GGTT) (s : GttStreams A) : Op A → Option (GttStreams A)
  | .writeMemory gfxAddress size memoryBanks pageSize =>
    some (writeMemory ggtt s gfxAddress size memoryBanks pageSize)
  | .readMemory gfxAddress size memoryBanks pageSize =>
    let w := walkMemory ggtt s gfxAddress size memoryBanks pageSize .Expect
    some { s with children := w.children, allocator := w.allocator }
  | .pauseAubFileStream onoff => some { s with isAubFileStreamPaused := onoff }
  | .others allocator => some { s with allocator := allocator }

end

def start {A : Type} (allocator : A) : GttStreams A := ⟨fun _ => none, allocator, false, [], []⟩

/-- The page sizes of the GGTT's clients. -/
def IsGttPageSize (pageSize : Nat) : Prop := pageSize = pageSize4KB ∨ pageSize = pageSize64KB

theorem IsGttPageSize.pos {pageSize : Nat} (h : IsGttPageSize pageSize) : 0 < pageSize := by
  rcases h with rfl | rfl <;> decide

section Walk
variable {A : Type} [PhysicalAddressAllocator A]

/-- The induction over the pages of a walk. `J` speaks of the address, the bytes to go and the
state; a page either stands or is created. The source does not come with page size 0. -/
theorem walkPages_rule (ggtt : GGTT) (paused : Bool) (memoryBanks : Nat) {pageSize : Nat}
    (mode : WalkMode) {J : Nat → Nat → GttWalk A → Prop}
    (created : ∀ g size w, 0 < size → mode ≠ .Expect →
      w.children (firstIndex pageSize g) = none → J g size w →
      J (g + min (pageSize - g % pageSize) size) (size - min (pageSize - g % pageSize) size)
        (createPage ggtt paused memoryBanks pageSize (firstIndex pageSize g) w))
    (found : ∀ g size w, 0 < size → w.children (firstIndex pageSize g) ≠ none → J g size w →
      J (g + min (pageSize - g % pageSize) size) (size - min (pageSize - g % pageSize) size) w)
    (records : ∀ g size w entries, J g size w → J g size { w with entries := entries }) :
    ∀ fuel g size w, size ≤ fuel ∨ pageSize = 0 → J g size w →
      ∃ g' size', J g' size' (walkPages ggtt paused memoryBanks pageSize mode fuel g size w) ∧
        (size' = 0 ∨ mode = .Expect ∨ pageSize = 0) := by
  intro fuel
  induction fuel with
  | zero =>
    intro g size w hfuel hJ
    exact ⟨g, size, hJ, hfuel.imp Nat.le_zero.mp Or.inr⟩
  | succ fuel ih =>
    intro g size w hfuel hJ
    simp only [walkPages]
    split
    · rename_i hz
      exact ⟨g, size, hJ, Or.inl hz⟩
    · rename_i hz
      split
      · rename_i hmissing
        exact ⟨g, size, hJ, Or.inr (Or.inl hmissing.2)⟩
      · rename_i hmissing
        have hfuel' : size - min (pageSize - g % pageSize) size ≤ fuel ∨ pageSize = 0 := by
          rcases Nat.eq_zero_or_pos pageSize with hzero | pos
          · exact Or.inr hzero
          · have hmod := Nat.mod_lt g pos
            exact Or.inl (by omega)
        refine ih _ _ _ hfuel' ?_
        have hnext : J (g + min (pageSize - g % pageSize) size)
            (size - min (pageSize - g % pageSize) size)
            (if w.children (firstIndex pageSize g) = none then
              createPage ggtt paused memoryBanks pageSize (firstIndex pageSize g) w else w) := by
          split
          · rename_i hnone
            exact created g size w (by omega) (fun hm => hmissing ⟨hnone, hm⟩) hnone hJ
          · rename_i hsome
            exact found g size w (by omega) hsome hJ
        generalize (if w.children (firstIndex pageSize g) = none then
          createPage ggtt paused memoryBanks pageSize (firstIndex pageSize g) w else w) = w'
          at hnext ⊢
        split
        · exact hnext
        · exact records _ _ _ _ hnext

end Walk

end GlobalGtt
