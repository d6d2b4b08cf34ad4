import Aubstream.PageWalker

/-!
# Freeing a range

`freeMemory` translates the loop of `AubStream::freeMemory`. A round descends to
the table that holds the page, removes the page, and removes a table that has
become empty. The entries are handed to the stream only when the loop has
passed the whole range: a missing table makes the function return first.
-/

namespace FreeMemory
open EntryBits PathTree PhysicalAllocator PageNodes PageWalker

structure FreeState (A : Type) where
  nodes : Nodes
  allocator : A
  pageWalkEntries : Nat → List PageEntryInfo

/-- What one call of `freeMemory` fixes before its loop. -/
structure FreeContext where
  ppgtt : PpgttKind
  gpu : Gpu
  startAddress : Nat
  endAddress : Nat

/-- Where a descent ends: at a last-level table or at a 2MB page. -/
structure Descent where
  path : Path
  is2MBPage : Bool

/-- The descent from `level`; `none` is the return at a null child. -/
def descend (t : Nodes) (gfxAddress : Nat) : Nat → Path → Option Descent
  | 0, p => (t p).map fun _ => ⟨p, false⟩
  | level + 1, p => (t p).bind fun parent =>
    let q := parent.kind.getIndex (level + 1) gfxAddress :: p
    if isExisting2MB (level + 1) (t q) then some ⟨q, true⟩ else descend t gfxAddress level q

def isEmpty (t : Nodes) (p : Path) : Bool := (List.range 512).all fun i => (t (i :: p)).isNone

section
variable {A : Type} [PhysicalAddressAllocator A]

namespace FreeState

def push (s : FreeState A) (level : Nat) (e : PageEntryInfo) : FreeState A :=
  { s with pageWalkEntries := fun l =>
      if l = level then s.pageWalkEntries l ++ [e] else s.pageWalkEntries l }

/-- `setChild(index, nullptr)`, the zero entry, and `delete child`. -/
def remove (s : FreeState A) (level : Nat) (q : Path) (n : PageNode) : FreeState A :=
  let s := s.push level ⟨entryAddress s.nodes q, 0⟩
  { s with nodes := erase s.nodes q, allocator := destroyNode s.allocator n }

/-- Clear PS64 of a slot that stays mapped and emit its entry. -/
def clearPs64 (s : FreeState A) (gpu : Gpu) (q : Path) : FreeState A :=
  match s.nodes q with
  | none => s
  | some ci =>
    let s := s.push Pte ⟨entryAddress s.nodes q, (ci.setPs64 false).getEntryValue gpu⟩
    { s with nodes := put s.nodes q (ci.setPs64 false) }

end FreeState

/-- Slots `i` with `from ≤ i < to` of the table at `p`. -/
def slotsBetween (p : Path) (first last : Nat) : List Path :=
  (List.range' first (last - first)).map (· :: p)

/-- The slots of a broken PS64 group that the request leaves mapped: below its first page
and above its last one. -/
def brokenSlots (c : FreeContext) (pte : Path) (index gfxAddress size : Nat) : List Path :=
  let hwBase := index - index % 16
  (if gfxAddress = c.startAddress ∧ c.startAddress % pageSize64KB ≠ 0 then
    slotsBetween pte hwBase index else []) ++
  (if size ≤ 4096 ∧ c.endAddress % pageSize64KB ≠ 0 then
    slotsBetween pte (index + 1) (hwBase + 16) else [])

/-- The page at slot `index` of the last-level table `pte`. -/
def removePage (c : FreeContext) (pte : Path) (index gfxAddress size : Nat) (s : FreeState A) :
    FreeState A :=
  match s.nodes (index :: pte) with
  | none => s
  | some child =>
    let s := s.remove Pte (index :: pte) child
    if child.ps64 then
      (brokenSlots c pte index gfxAddress size).foldl (fun s q => s.clearPs64 c.gpu q) s
    else s

/-- Remove the table at `p`, found at loop level `level`, when it is empty. -/
def pruneTable (level : Nat) (p : Path) (s : FreeState A) : FreeState A :=
  match s.nodes p with
  | none => s
  | some n => if isEmpty s.nodes p then s.remove level p n else s

/-- One round of the outer loop; `none` is the return inside the descent. The number is the
page size of the round. -/
def freePage (c : FreeContext) (gfxAddress size : Nat) (s : FreeState A) :
    Option (FreeState A × Nat) :=
  (descend s.nodes gfxAddress (c.ppgtt.getNumLevels - 1) []).bind fun d =>
    (s.nodes d.path).map fun n =>
      if d.is2MBPage then (pruneTable Pdp d.path.tail (s.remove Pde d.path n), pageSize2MB)
      else
        let index := n.kind.getIndex Pte gfxAddress
        (pruneTable Pde d.path (removePage c d.path index gfxAddress size s), n.kind.getPageSize)

/-- `while (size > 0)`: the state and whether the loop passed the whole range. -/
def freePages (c : FreeContext) : Nat → Nat → Nat → FreeState A → FreeState A × Bool
  | 0, _, _, s => (s, true)
  | fuel + 1, gfxAddress, size, s =>
    if size = 0 then (s, true)
    else match freePage c gfxAddress size s with
      | none => (s, false)
      | some r =>
        let passed := min size (r.2 - gfxAddress % r.2)
        freePages c fuel (gfxAddress + passed) (size - passed) r.1

/-- The tree and the allocator afterwards, and the entries for the stream: the list is
returned only by a call that reaches the end of the function. -/
def freeMemory (gpu : Gpu) (ppgtt : PpgttKind) (t : Nodes) (a : A) (gfxAddress size : Nat) :
    FreeState A × Bool :=
  freePages ⟨ppgtt, gpu, gfxAddress, gfxAddress + size⟩ size gfxAddress size
    ⟨t, a, fun _ => []⟩

/-- The entries that a call hands to the stream: level 1, then level 2, then level 3. -/
def writtenEntries (r : FreeState A × Bool) : List PageEntryInfo :=
  if r.2 then r.1.pageWalkEntries Pte ++ r.1.pageWalkEntries Pde ++ r.1.pageWalkEntries Pdp else []

end

end FreeMemory
