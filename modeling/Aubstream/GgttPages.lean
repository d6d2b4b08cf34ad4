import Aubstream.AllocatorBlocks
import Aubstream.ContextBlocks
import Aubstream.DeviceContexts
import Aubstream.GttEntries

/-!
# The physical memory behind the GGTT

Every page that a write creates has a frame of its own in a block that the
physical allocator does not give to anyone else. Pages of one size come and stay
in aligned groups.
-/

namespace GgttPages
open EntryBits PhysicalAllocator AllocatorBlocks PageWalker GlobalGtt GttEntries DeviceContexts

/-- The allocator of the GGTT's bank. -/
def bankAllocator (ggtt : GGTT) (a : PhysicalAddressAllocatorSimple) : SimpleAllocator 64 :=
  a.get (a.slotOf ggtt.memoryBank)

def frame (page : GttPage) : Nat × Nat := (page.physicalAddress, 4096)

/-- Pages have frames in blocks in use, and no two of them have a frame in common. -/
structure Framed (base : Nat) (ggtt : GGTT) (children : Nat → Option GttPage)
    (a : PhysicalAddressAllocatorSimple) : Prop where
  sound : Sound base (bankAllocator ggtt a)
  inside : ∀ j page, children j = some page → ∃ e ∈ (bankAllocator ggtt a).usedAllocationsMap,
    e.1 ≤ page.physicalAddress ∧ page.physicalAddress + 4096 ≤ e.1 + e.2
  apart : ∀ j j' page page', children j = some page → children j' = some page' → j ≠ j' →
    Apart (frame page) (frame page')

/-- Either all pages of a group stand or none. -/
def Grouped (pageSize : Nat) (children : Nat → Option GttPage) : Prop :=
  ∀ b, entriesToDump pageSize ∣ b →
    (∀ j, b ≤ j → j < b + entriesToDump pageSize → children j = none) ∨
      ∀ j, b ≤ j → j < b + entriesToDump pageSize → children j ≠ none

/-- Every page of a range stands. -/
def Mapped (children : Nat → Option GttPage) (g size : Nat) : Prop :=
  ∀ x, g ≤ x → x < g + size → children (GGTT.getIndex x) ≠ none

theorem entriesToDump_pos (pageSize : Nat) : 0 < entriesToDump pageSize :=
  Nat.lt_of_lt_of_le Nat.one_pos (Nat.le_max_left _ _)

theorem entriesToDump_mul {pageSize : Nat} (hsize : IsGttPageSize pageSize) :
    entriesToDump pageSize * 4096 = max pageSize 4096 := by
  rcases hsize with rfl | rfl <;> decide

/-- Parts of blocks that are apart are apart. -/
theorem apart_within {e e' : Nat × Nat} (h : Apart e e') {x x' : Nat} (h1 : e.1 ≤ x)
    (h2 : x + 4096 ≤ e.1 + e.2) (h1' : e'.1 ≤ x') (h2' : x' + 4096 ≤ e'.1 + e'.2) :
    Apart (x, 4096) (x', 4096) := by
  unfold Apart at h ⊢
  simp only
  omega

/-- An allocation moves the cursor by less than twice the size of an aligned block. -/
theorem alignedAlloc_highWater_le {base size : Nat} {s : SimpleAllocator 64} (sound : Sound base s)
    (hsize : 4096 ≤ size) :
    (s.alignedAlloc size size).2.highWater ≤ s.highWater + 2 * size := by
  unfold SimpleAllocator.alignedAlloc
  split
  · exact Nat.le_add_right _ _
  · obtain ⟨d, hd, heq⟩ := ContextBlocks.alignUp_near s.nextAddress (max size 4096)
    have hcursor := sound.cursor.2
    simp only [heq]
    omega

section
variable {base : Nat} {ggtt : GGTT} {pageSize : Nat} (hsize : IsGttPageSize pageSize)
  (paused : Bool) (memoryBanks : Nat)
include hsize

/-- The walk creates a page whose frames are new. -/
theorem createPage_framed (index : Nat) {w : GttWalk PhysicalAddressAllocatorSimple}
    (framed : Framed base ggtt w.children w.allocator)
    (room : (bankAllocator ggtt w.allocator).highWater + 2 * max pageSize 4096 < 2 ^ 64) :
    Framed base ggtt (createPage ggtt paused memoryBanks pageSize index w).children
        (createPage ggtt paused memoryBanks pageSize index w).allocator ∧
      (bankAllocator ggtt (createPage ggtt paused memoryBanks pageSize index w).allocator).highWater ≤
        (bankAllocator ggtt w.allocator).highWater + 2 * max pageSize 4096 := by
  obtain ⟨sound, inside, apart⟩ := framed
  have hpos : 4096 ≤ max pageSize 4096 := Nat.le_max_right _ _
  have hwater := alignedAlloc_highWater_le sound hpos
  obtain ⟨hsound, hused, hfresh, _⟩ :=
    alignedAlloc_sound sound (Nat.lt_of_lt_of_le (by decide) hpos) (Nat.lt_of_le_of_lt hwater room)
  -- the block that the page is cut from
  generalize hblock : (bankAllocator ggtt w.allocator).alignedAlloc (max pageSize 4096)
    (max pageSize 4096) = r at hsound hused hfresh hwater
  have halloc : bankAllocator ggtt (createPage ggtt paused memoryBanks pageSize index w).allocator =
      r.2 := by
    simp only [bankAllocator, createPage, reservePhysicalMemory,
      PhysicalAddressAllocatorSimple.reserve, slotOf_set, get_set]
    rw [← hblock]
    rfl
  have hchildren : ∀ j, (createPage ggtt paused memoryBanks pageSize index w).children j =
      if index ≤ j ∧ j < index + entriesToDump pageSize then
        some ⟨r.1 + (j - index) * 4096, ggtt.memoryBank,
          if memoryBanks ≠ mainBank then 3 else 1, paused⟩ else w.children j := by
    intro j
    rw [← hblock]
    rfl
  have hnew : ∀ j page, (createPage ggtt paused memoryBanks pageSize index w).children j =
      some page → (index ≤ j ∧ j < index + entriesToDump pageSize ∧
        page.physicalAddress = r.1 + (j - index) * 4096) ∨ w.children j = some page := by
    intro j page hj
    rw [hchildren] at hj
    split at hj
    · rename_i hin
      obtain rfl := Option.some.inj hj
      exact Or.inl ⟨hin.1, hin.2, rfl⟩
    · exact Or.inr hj
  have hend := entriesToDump_mul hsize
  have hblocks : ∀ e ∈ (bankAllocator ggtt w.allocator).usedAllocationsMap,
      Apart e (r.1, max pageSize 4096) := by
    intro e he
    refine hsound.apart_of_ne (List.mem_append_left _ ((hused e).mpr (Or.inr he)))
      (List.mem_append_left _ ((hused _).mpr (Or.inl rfl))) ?_
    rintro rfl
    exact hfresh he
  rw [halloc]
  refine ⟨⟨halloc ▸ hsound, fun j page hj => ?_, fun j j' page page' hj hj' hne => ?_⟩, hwater⟩
  · rw [halloc]
    rcases hnew j page hj with ⟨h1, h2, haddr⟩ | hold
    · refine ⟨_, (hused _).mpr (Or.inl rfl), ?_, ?_⟩ <;> simp only [haddr] <;> omega
    · obtain ⟨e, he, hbounds⟩ := inside j page hold
      exact ⟨e, (hused e).mpr (Or.inr he), hbounds⟩
  · rcases hnew j page hj with ⟨h1, h2, haddr⟩ | hold <;>
      rcases hnew j' page' hj' with ⟨h1', h2', haddr'⟩ | hold'
    · unfold Apart frame
      simp only [haddr, haddr']
      omega
    · obtain ⟨e, he, hlow, hhigh⟩ := inside j' page' hold'
      refine (apart_within (hblocks e he) hlow hhigh ?_ ?_).symm <;> simp only [haddr] <;> omega
    · obtain ⟨e, he, hlow, hhigh⟩ := inside j page hold
      refine apart_within (hblocks e he) hlow hhigh ?_ ?_ <;> simp only [haddr'] <;> omega
    · exact apart j j' page page' hold hold' hne

omit hsize in
/-- The pages that are created stand. -/
theorem createPage_page (index : Nat) (w : GttWalk PhysicalAddressAllocatorSimple) {j : Nat}
    (h1 : index ≤ j) (h2 : j < index + entriesToDump pageSize) :
    (createPage ggtt paused memoryBanks pageSize index w).children j ≠ none := by
  have hpage : (createPage ggtt paused memoryBanks pageSize index w).children j = some _ :=
    if_pos ⟨h1, h2⟩
  rw [hpage]
  exact Option.some_ne_none _

/-- A group's pages come together. -/
theorem createPage_grouped (g : Nat) {w : GttWalk PhysicalAddressAllocatorSimple}
    (grouped : Grouped pageSize w.children) :
    Grouped pageSize
      (createPage ggtt paused memoryBanks pageSize (firstIndex pageSize g) w).children := by
  intro b hb
  by_cases hsame : b = firstIndex pageSize g
  · subst hsame
    exact Or.inr fun j h1 h2 => createPage_page paused memoryBanks _ w h1 h2
  · have hkept : ∀ j, b ≤ j → j < b + entriesToDump pageSize →
        (createPage ggtt paused memoryBanks pageSize (firstIndex pageSize g) w).children j =
          w.children j := by
      intro j h1 h2
      refine if_neg fun hin => hsame ?_
      exact aligned_disjoint hb (firstIndex_aligned hsize g) h1 h2 hin.1 hin.2
    rcases grouped b hb with hnone | hsome
    · exact Or.inl fun j h1 h2 => (hkept j h1 h2).trans (hnone j h1 h2)
    · exact Or.inr fun j h1 h2 => (hkept j h1 h2) ▸ hsome j h1 h2

omit hsize in
theorem createPage_stands (index : Nat) {w : GttWalk PhysicalAddressAllocatorSimple} {j : Nat}
    (h : w.children j ≠ none) :
    (createPage ggtt paused memoryBanks pageSize index w).children j ≠ none := by
  rcases createPage_children ggtt paused memoryBanks pageSize index w j with hsame | ⟨_, _, page, hpage, _⟩
  · rw [hsame]
    exact h
  · rw [hpage]
    exact Option.some_ne_none _

/-- Between two pages of a write: what stood still stands, and what was passed stands too. -/
structure PageRun (base : Nat) (ggtt : GGTT) (pageSize : Nat) (t : Nat → Option GttPage)
    (g₀ stop water g size : Nat) (w : GttWalk PhysicalAddressAllocatorSimple) : Prop where
  framed : Framed base ggtt w.children w.allocator
  grouped : Grouped pageSize w.children
  stands : ∀ j, t j ≠ none → w.children j ≠ none
  passed : Mapped w.children g₀ (g - g₀)
  bounds : g₀ ≤ g ∧ g + size = stop
  aligned : size = 0 ∨ g % pageSize = 0
  water : (bankAllocator ggtt w.allocator).highWater + 2 * size +
    (if size = 0 then 0 else 2 * pageSize) ≤ water

/-- A page that stands is passed. -/
theorem PageRun.pass {t : Nat → Option GttPage} {g₀ stop water g size : Nat}
    {w w' : GttWalk PhysicalAddressAllocatorSimple}
    (run : PageRun base ggtt pageSize t g₀ stop water g size w)
    (hpos : 0 < size) (framed : Framed base ggtt w'.children w'.allocator)
    (grouped : Grouped pageSize w'.children)
    (stands : ∀ j, w.children j ≠ none → w'.children j ≠ none)
    (first : w'.children (firstIndex pageSize g) ≠ none)
    (grows : (bankAllocator ggtt w'.allocator).highWater ≤
      (bankAllocator ggtt w.allocator).highWater + 2 * pageSize) :
    PageRun base ggtt pageSize t g₀ stop water (g + min (pageSize - g % pageSize) size)
      (size - min (pageSize - g % pageSize) size) w' := by
  obtain ⟨hg, hstop⟩ := run.bounds
  have haligned := run.aligned.resolve_left (Nat.ne_of_gt hpos)
  have hwater := run.water
  have hpage := hsize.pos
  rw [if_neg (Nat.ne_of_gt hpos)] at hwater
  refine ⟨framed, grouped, fun j hj => stands j (run.stands j hj), fun x h1 h2 => ?_, by omega, ?_, ?_⟩
  · by_cases hx : x < g
    · exact stands _ (run.passed x h1 (by omega))
    · obtain ⟨_, h3, h4⟩ := index_of_page hsize (g := g) (x := x) (by omega) (by omega)
      rcases grouped _ (firstIndex_aligned hsize g) with hnone | hsome
      · exact absurd (hnone _ (Nat.le_refl _) (by omega)) first
      · exact hsome _ h3 h4
  · rw [haligned, Nat.sub_zero]
    rcases Nat.le_total size pageSize with hle | hle
    · exact Or.inl (by omega)
    · refine Or.inr ?_
      rw [Nat.min_eq_left hle, Nat.add_mod_right, haligned]
  · rw [haligned, Nat.sub_zero]
    split
    · omega
    · omega

/-- A whole write maps its range and no other page's frame. -/
theorem walk_pageRun (size : Nat) {g water : Nat} {w : GttWalk PhysicalAddressAllocatorSimple}
    (framed : Framed base ggtt w.children w.allocator) (grouped : Grouped pageSize w.children)
    (aligned : g % pageSize = 0)
    (room : (bankAllocator ggtt w.allocator).highWater + 2 * size + 2 * pageSize ≤ water)
    (limit : water < 2 ^ 64) :
    PageRun base ggtt pageSize w.children g (g + size) water (g + size) 0
      (walkPages ggtt paused memoryBanks pageSize .Reserve size g size w) := by
  have hmax : max pageSize 4096 = pageSize := by
    rcases hsize with rfl | rfl <;> decide
  have hstart : PageRun base ggtt pageSize w.children g (g + size) water g size w := by
    refine ⟨framed, grouped, fun _ hj => hj, fun x h1 h2 => ?_, ⟨Nat.le_refl _, rfl⟩,
      Or.inr aligned, ?_⟩
    · omega
    · split <;> omega
  obtain ⟨g', size', run, hend⟩ := walkPages_rule ggtt paused memoryBanks .Reserve
    (J := fun g' size' w' => PageRun base ggtt pageSize w.children g (g + size) water g' size' w')
    (fun g' size' w' hpos _ _ run => by
      have hwater := run.water
      rw [if_neg (Nat.ne_of_gt hpos)] at hwater
      obtain ⟨hframed, hgrows⟩ := createPage_framed hsize paused memoryBanks
        (firstIndex pageSize g') run.framed (by rw [hmax]; omega)
      rw [hmax] at hgrows
      exact run.pass hsize hpos hframed (createPage_grouped hsize paused memoryBanks g' run.grouped)
        (fun j hj => createPage_stands paused memoryBanks _ hj)
        (createPage_page paused memoryBanks _ w' (Nat.le_refl _)
          (Nat.lt_add_of_pos_right (entriesToDump_pos pageSize))) hgrows)
    (fun g' size' w' hpos hfound run =>
      run.pass hsize hpos run.framed run.grouped (fun _ hj => hj) hfound (Nat.le_add_right _ _))
    (fun _ _ _ _ run => ⟨run.framed, run.grouped, run.stands, run.passed, run.bounds, run.aligned,
      run.water⟩) size g size w (Or.inl (Nat.le_refl _)) hstart
  have hdone : size' = 0 := by
    rcases hend with hz | hmode | hzero
    · exact hz
    · cases hmode
    · exact absurd hzero (Nat.ne_of_gt hsize.pos)
  obtain ⟨_, hstop⟩ := run.bounds
  obtain rfl : g' = g + size := by omega
  exact hdone ▸ run

end

theorem Mapped.stands {t t' : Nat → Option GttPage} {g size : Nat} (h : Mapped t g size)
    (stands : ∀ j, t j ≠ none → t' j ≠ none) : Mapped t' g size :=
  fun x h1 h2 => stands _ (h x h1 h2)

/-- What every GGTT keeps. -/
structure Backed (base : Nat) (ggtt : GGTT) (pageSize : Nat)
    (gtt : GttStreams PhysicalAddressAllocatorSimple) : Prop where
  framed : Framed base ggtt gtt.children gtt.allocator
  grouped : Grouped pageSize gtt.children

/-- An upper bound of the physical addresses that writes use up. -/
def waterOf (pageSize : Nat) (writes : List (Nat × Nat)) : Nat :=
  (writes.map fun e => 2 * e.2 + 2 * pageSize).sum

/-- What writes do to a GGTT. -/
structure Written (base : Nat) (ggtt : GGTT) (pageSize : Nat)
    (gtt gtt' : GttStreams PhysicalAddressAllocatorSimple) (writes : List (Nat × Nat)) : Prop where
  backed : Backed base ggtt pageSize gtt'
  stands : ∀ j, gtt.children j ≠ none → gtt'.children j ≠ none
  mapped : ∀ e ∈ writes, Mapped gtt'.children e.1 e.2
  water : (bankAllocator ggtt gtt'.allocator).highWater ≤
    (bankAllocator ggtt gtt.allocator).highWater + waterOf pageSize writes

section
variable {base : Nat} {ggtt : GGTT} {pageSize : Nat} (hsize : IsGttPageSize pageSize)
include hsize

theorem writeMemory_written {gtt : GttStreams PhysicalAddressAllocatorSimple}
    (memoryBanks size : Nat) {g : Nat} (backed : Backed base ggtt pageSize gtt) (aligned : g % pageSize = 0)
    (room : (bankAllocator ggtt gtt.allocator).highWater + (2 * size + 2 * pageSize) < 2 ^ 64) :
    Written base ggtt pageSize gtt
      (GlobalGtt.writeMemory ggtt gtt g size memoryBanks pageSize) [(g, size)] := by
  have run := walk_pageRun hsize gtt.isAubFileStreamPaused memoryBanks size
    (w := ⟨gtt.children, gtt.allocator, [], []⟩) backed.framed backed.grouped aligned
    (Nat.le_refl _) (by simp only; omega)
  refine ⟨⟨run.framed, run.grouped⟩, run.stands, fun e he => ?_, ?_⟩
  · rw [List.mem_singleton] at he
    subst he
    intro x h1 h2
    exact run.passed x h1 (by simp only at h2; omega)
  · have hwater := run.water
    simp only [if_true, Nat.mul_zero, Nat.add_zero] at hwater
    simp only [waterOf, List.map_cons, List.map_nil, List.sum_cons, List.sum_nil, Nat.add_zero,
      ← Nat.add_assoc]
    exact hwater

/-- Writes one behind the other. -/
theorem writeAll_written {gtt : GttStreams PhysicalAddressAllocatorSimple}
    (writes : List (Nat × Nat)) (backed : Backed base ggtt pageSize gtt)
    (aligned : ∀ e ∈ writes, e.1 % pageSize = 0)
    (room : (bankAllocator ggtt gtt.allocator).highWater + waterOf pageSize writes < 2 ^ 64) :
    Written base ggtt pageSize gtt (writeAll ggtt pageSize gtt writes) writes := by
  induction writes generalizing gtt with
  | nil => exact ⟨backed, fun _ hj => hj, fun e he => (by cases he), Nat.le_add_right _ _⟩
  | cons e rest ih =>
    have hwater : waterOf pageSize (e :: rest) = 2 * e.2 + 2 * pageSize + waterOf pageSize rest := by
      simp only [waterOf, List.map_cons, List.sum_cons]
    have first := writeMemory_written hsize ggtt.memoryBank e.2 backed
      (aligned e (List.mem_cons_self ..)) (by omega)
    have hfirst := first.water
    simp only [waterOf, List.map_cons, List.map_nil, List.sum_cons, List.sum_nil,
      Nat.add_zero] at hfirst
    have later := ih first.backed (fun e' he' => aligned e' (List.mem_cons_of_mem _ he'))
      (by omega)
    have hlater := later.water
    refine ⟨later.backed, fun j hj => later.stands j (first.stands j hj), fun e' he' => ?_, ?_⟩
    · rcases List.mem_cons.mp he' with rfl | hmem
      · exact (first.mapped _ (List.mem_singleton_self _)).stands later.stands
      · exact later.mapped e' hmem
    · rw [hwater]
      refine Nat.le_trans hlater ?_
      omega

end

end GgttPages
