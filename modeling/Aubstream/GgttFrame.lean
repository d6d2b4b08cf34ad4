import Aubstream.GttEntries
import Aubstream.AlignedBlocks

/-!
# Translations that a GGTT write leaves alone

A write creates the pages of its range that are missing. A 64KB page is missing
when its first 4KB page is, so creating it overwrites 4KB pages behind the first,
and finding it leaves gaps. A write of pages that are missing or present as a
whole, from the banks of the table, changes no translation.
-/

namespace GgttFrame
open PhysicalAllocator PageWalker GlobalGtt GttEntries AllocatorBlocks AlignedBlocks Transitions

/-- `PageTable::isLocalMemory`. -/
def isLocalMemory (page : GttPage) : Prop := page.memoryBank ≠ mainBank

/-- Bit 1 of a GTT entry. -/
def localBit (e : PageEntryInfo) : Bool := e.tableEntry.testBit 1

/-- What a write of a range does to the GGTT, and the entries that it emits. -/
structure Frames (ggtt : GGTT) (before after : Nat → Option GttPage) (g size : Nat)
    (entries : List PageEntryInfo) : Prop where
  unchanged : ∀ index page, before index = some page →
    ∃ page', after index = some page' ∧ page'.physicalAddress = page.physicalAddress ∧
      (isLocalMemory page' ↔ isLocalMemory page)
  mapped : ∀ x, g ≤ x → x < g + size → ∃ page, after (GGTT.getIndex x) = some page
  named : ∀ e ∈ entries, ∃ index page, after index = some page ∧ e = entryOf ggtt index page ∧
    (localBit e = true ↔ isLocalMemory page)

/-- The page of an address is to be created where nothing stands and in the banks of the table, or
it stands. -/
def PageWhole (ggtt : GGTT) (children : Nat → Option GttPage) (memoryBanks pageSize x : Nat) :
    Prop :=
  let first := firstIndex pageSize x
  (children first = none → (∀ j, first ≤ j → j < first + entriesToDump pageSize →
      children j = none) ∧ (memoryBanks ≠ mainBank ↔ ggtt.memoryBank ≠ mainBank)) ∧
    (children first ≠ none → children (GGTT.getIndex x) ≠ none)

/-- A GGTT Reserve walk of 4KB or 64KB pages. -/
def IsWrite {A : Type} : GttStreams A → Op A → Prop
  | _, .writeMemory _ _ _ pageSize => IsGttPageSize pageSize
  | _, _ => False

/-- Nothing has been freed. -/
def NoFreed (a : PhysicalAddressAllocatorSimple) : Prop :=
  ∀ slot, (a.get slot).freeAllocationsMap = []

theorem new_noFreed (numberOfAllocators singleAllocatorSize : Nat) (localMemorySupport : Bool) :
    NoFreed (.new numberOfAllocators singleAllocatorSize localMemorySupport) := by
  intro slot
  cases slot with
  | none => rfl
  | some i => rfl

/-- A reservation of whole pages is aligned to a page and frees nothing. -/
theorem reserve_page {a : PhysicalAddressAllocatorSimple} (h : NoFreed a) (memoryBank : Nat)
    {size : Nat} (pages : ∃ k, k ≤ 64 ∧ max size 4096 = 2 ^ k) :
    (reservePhysicalMemory a memoryBank (max size 4096) (max size 4096)).1 % 4096 = 0 ∧
      NoFreed (reservePhysicalMemory a memoryBank (max size 4096) (max size 4096)).2 := by
  have hfree := h (a.slotOf memoryBank)
  change ((a.get (a.slotOf memoryBank)).alignedAlloc _ _).1 % 4096 = 0 ∧
    NoFreed (a.set (a.slotOf memoryBank) ((a.get (a.slotOf memoryBank)).alignedAlloc _ _).2)
  unfold SimpleAllocator.alignedAlloc
  rw [hfree]
  simp only [List.find?_nil]
  constructor
  · obtain ⟨k, hk, hsize⟩ := pages
    have hpage : 4096 ∣ 2 ^ k := by
      have hle : 12 ≤ k := by
        by_contra hlt
        have hpow : 2 ^ k < 2 ^ 12 := Nat.pow_lt_pow_right (by decide) (by omega)
        omega
      exact Nat.pow_dvd_pow 2 hle
    rw [Nat.max_eq_left (Nat.le_max_right size 4096), hsize]
    exact Nat.mod_eq_zero_of_dvd (Nat.dvd_trans hpage (alignUp_dvd hk))
  · intro slot
    by_cases hslot : slot = a.slotOf memoryBank
    · rw [hslot, get_set]
    · rw [get_set_of_ne hslot]
      exact h slot

theorem pageSize_pow {pageSize : Nat} (h : IsGttPageSize pageSize) :
    ∃ k, k ≤ 64 ∧ max pageSize 4096 = 2 ^ k := by
  rcases h with rfl | rfl
  · exact ⟨12, by decide, rfl⟩
  · exact ⟨16, by decide, rfl⟩

theorem localBit_entryOf (ggtt : GGTT) (index : Nat) {page : GttPage}
    (aligned : page.physicalAddress % 4096 = 0) :
    localBit (entryOf ggtt index page) = page.enableBits.testBit 1 := by
  have hbit : page.physicalAddress.testBit 1 = false := by
    rw [Nat.testBit_eq_decide_div_mod_eq, decide_eq_false_iff_not]
    omega
  rw [localBit, entryOf, Nat.testBit_or, hbit, Bool.false_or]

section Walk
variable {ggtt : GGTT} {paused : Bool} {memoryBanks pageSize : Nat}

/-- The 4KB pages of one page, all of them new. -/
theorem createPage_block (index : Nat) (w : GttWalk PhysicalAddressAllocatorSimple)
    (hsize : IsGttPageSize pageSize) (hfree : NoFreed w.allocator) :
    let w' := createPage ggtt paused memoryBanks pageSize index w
    NoFreed w'.allocator ∧
      (∀ j, j < index ∨ index + entriesToDump pageSize ≤ j → w'.children j = w.children j) ∧
      (∀ j, index ≤ j → j < index + entriesToDump pageSize → ∃ page, w'.children j = some page) ∧
      ∀ e ∈ w'.ggttEntries, e ∈ w.ggttEntries ∨ ∃ j page, w'.children j = some page ∧
        e = entryOf ggtt j page ∧ page.memoryBank = ggtt.memoryBank ∧
          (localBit e = true ↔ memoryBanks ≠ mainBank) := by
  obtain ⟨haligned, hkeeps⟩ := reserve_page hfree ggtt.memoryBank (pageSize_pow hsize)
  simp only [createPage]
  refine ⟨hkeeps, fun j hj => if_neg (by omega), fun j h1 h2 => ⟨_, if_pos ⟨h1, h2⟩⟩, ?_⟩
  intro e he
  rcases List.mem_append.mp he with hold | hnew
  · exact Or.inl hold
  · obtain ⟨i, hi, rfl⟩ := List.mem_map.mp hnew
    rw [List.mem_range] at hi
    refine Or.inr ⟨index + i, _, if_pos ⟨by omega, by omega⟩, ?_, rfl, ?_⟩
    · rw [Nat.add_sub_cancel_left]
    · rw [localBit_entryOf ggtt _ (show (_ + i * 4096) % 4096 = 0 by omega)]
      change (if memoryBanks ≠ mainBank then 3 else 1).testBit 1 = true ↔ _
      split
      · rename_i hlocal
        exact iff_of_true (by decide) hlocal
      · rename_i hmain
        exact iff_of_false (by decide) hmain

/-- Between two pages of a write that started on `t`. -/
structure FrameRun (ggtt : GGTT) (t : Nat → Option GttPage) (g₀ stop pageSize g size : Nat)
    (w : GttWalk PhysicalAddressAllocatorSimple) : Prop where
  bounds : g₀ ≤ g ∧ g + size = stop
  noFreed : NoFreed w.allocator
  done : ∀ x, g₀ ≤ x → x < g → ∃ page, w.children (GGTT.getIndex x) = some page
  pages : ∀ b, entriesToDump pageSize ∣ b →
    (∀ j, b ≤ j → j < b + entriesToDump pageSize → w.children j = t j) ∨
    ∀ j, b ≤ j → j < b + entriesToDump pageSize → t j = none ∧ ∃ page, w.children j = some page
  named : ∀ e ∈ w.ggttEntries, ∃ index page, w.children index = some page ∧
    e = entryOf ggtt index page ∧ (localBit e = true ↔ isLocalMemory page)

/-- The page that is passed stands. -/
theorem FrameRun.pass {t : Nat → Option GttPage} {g₀ stop g size : Nat}
    {w : GttWalk PhysicalAddressAllocatorSimple}
    (run : FrameRun ggtt t g₀ stop pageSize g size w)
    (page : ∀ x, g ≤ x → x < g + min (pageSize - g % pageSize) size →
      ∃ page, w.children (GGTT.getIndex x) = some page) :
    FrameRun ggtt t g₀ stop pageSize (g + min (pageSize - g % pageSize) size)
      (size - min (pageSize - g % pageSize) size) w := by
  obtain ⟨hg, hstop⟩ := run.bounds
  refine { run with bounds := by omega, done := fun x h1 h2 => ?_ }
  by_cases hx : x < g
  · exact run.done x h1 hx
  · exact page x (by omega) h2

theorem frameRun_created {t : Nat → Option GttPage} {g₀ stop g size : Nat}
    {w : GttWalk PhysicalAddressAllocatorSimple} (hsize : IsGttPageSize pageSize)
    (whole : ∀ x, g₀ ≤ x → x < stop → PageWhole ggtt t memoryBanks pageSize x) (pos : 0 < size)
    (missing : w.children (firstIndex pageSize g) = none)
    (run : FrameRun ggtt t g₀ stop pageSize g size w) :
    FrameRun ggtt t g₀ stop pageSize (g + min (pageSize - g % pageSize) size)
      (size - min (pageSize - g % pageSize) size)
      (createPage ggtt paused memoryBanks pageSize (firstIndex pageSize g) w) := by
  obtain ⟨hg, hstop⟩ := run.bounds
  have hdvd := firstIndex_aligned hsize g
  obtain ⟨hfree, hothers, hblock, hentries⟩ :=
    @createPage_block ggtt paused memoryBanks pageSize (firstIndex pageSize g) w hsize run.noFreed
  -- the page is as the write found it, and the write found nothing of it
  have hpos : 0 < entriesToDump pageSize := Nat.lt_of_lt_of_le Nat.one_pos (Nat.le_max_left _ _)
  have hold : ∀ j, firstIndex pageSize g ≤ j →
      j < firstIndex pageSize g + entriesToDump pageSize → w.children j = t j := by
    rcases run.pages _ hdvd with hsame | hnew
    · exact hsame
    · obtain ⟨_, page, hpage⟩ := hnew _ (Nat.le_refl _) (by omega)
      rw [missing] at hpage
      cases hpage
  obtain ⟨hnone, hbanks⟩ := (whole g (by omega) (by omega)).1
    ((hold _ (Nat.le_refl _) (by omega)).symm.trans missing)
  have hempty : ∀ j page, w.children j = some page → j < firstIndex pageSize g ∨
      firstIndex pageSize g + entriesToDump pageSize ≤ j := by
    intro j page hpage
    by_contra hinside
    rw [hold j (by omega) (by omega), hnone j (by omega) (by omega)] at hpage
    cases hpage
  refine FrameRun.pass ⟨run.bounds, hfree, ?_, ?_, ?_⟩ ?_
  · intro x h1 h2
    obtain ⟨page, hpage⟩ := run.done x h1 h2
    exact ⟨page, (hothers _ (hempty _ _ hpage)).trans hpage⟩
  · intro b hb
    by_cases hsame : b = firstIndex pageSize g
    · subst hsame
      exact Or.inr fun j h1 h2 => ⟨hnone j h1 h2, hblock j h1 h2⟩
    · have hapart : ∀ j, b ≤ j → j < b + entriesToDump pageSize → j < firstIndex pageSize g ∨
          firstIndex pageSize g + entriesToDump pageSize ≤ j := by
        intro j h1 h2
        by_contra hinside
        exact hsame (aligned_disjoint hb hdvd h1 h2 (by omega) (by omega))
      rcases run.pages b hb with hkept | hnew
      · exact Or.inl fun j h1 h2 => (hothers j (hapart j h1 h2)).trans (hkept j h1 h2)
      · right
        intro j h1 h2
        obtain ⟨htj, page, hpage⟩ := hnew j h1 h2
        exact ⟨htj, page, (hothers j (hapart j h1 h2)).trans hpage⟩
  · intro e he
    rcases hentries e he with hbefore | ⟨j, page, hpage, heq, hbank, hlocal⟩
    · obtain ⟨index, page, hpage, hrest⟩ := run.named e hbefore
      exact ⟨index, page, (hothers _ (hempty _ _ hpage)).trans hpage, hrest⟩
    · refine ⟨j, page, hpage, heq, ?_⟩
      rw [hlocal, hbanks, isLocalMemory, hbank]
  · intro x h1 h2
    obtain ⟨_, h3, h4⟩ := index_of_page hsize h1 (by omega)
    exact hblock _ h3 h4

theorem frameRun_found {t : Nat → Option GttPage} {g₀ stop g size : Nat}
    {w : GttWalk PhysicalAddressAllocatorSimple} (hsize : IsGttPageSize pageSize)
    (whole : ∀ x, g₀ ≤ x → x < stop → PageWhole ggtt t memoryBanks pageSize x)
    (found : w.children (firstIndex pageSize g) ≠ none)
    (run : FrameRun ggtt t g₀ stop pageSize g size w) :
    FrameRun ggtt t g₀ stop pageSize (g + min (pageSize - g % pageSize) size)
      (size - min (pageSize - g % pageSize) size) w := by
  obtain ⟨hg, hstop⟩ := run.bounds
  apply run.pass
  intro x h1 h2
  obtain ⟨hfirst, h3, h4⟩ := index_of_page hsize h1 (by omega)
  rcases run.pages _ (firstIndex_aligned hsize g) with hold | hnew
  · rw [hold _ h3 h4]
    apply Option.ne_none_iff_exists'.mp
    apply (whole x (by omega) (by omega)).2
    rw [hfirst, ← hold _ (Nat.le_refl _) (by omega)]
    exact found
  · exact (hnew _ h3 h4).2

/-- A write of whole pages. -/
theorem walkPages_frames {w : GttWalk PhysicalAddressAllocatorSimple} {g size : Nat}
    (hsize : IsGttPageSize pageSize) (hfree : NoFreed w.allocator) (fresh : w.ggttEntries = [])
    (whole : ∀ x, g ≤ x → x < g + size → PageWhole ggtt w.children memoryBanks pageSize x) :
    let w' := walkPages ggtt paused memoryBanks pageSize .Reserve size g size w
    Frames ggtt w.children w'.children g size w'.ggttEntries := by
  have hstart : FrameRun ggtt w.children g (g + size) pageSize g size w := by
    refine ⟨⟨Nat.le_refl _, rfl⟩, hfree, ?_, fun b _ => Or.inl fun j _ _ => rfl, ?_⟩
    · intro x h1 h2
      omega
    · intro e he
      rw [fresh] at he
      cases he
  obtain ⟨g', size', run, hend⟩ := walkPages_rule ggtt paused memoryBanks .Reserve
    (J := fun g' size' w' => FrameRun ggtt w.children g (g + size) pageSize g' size' w')
    (fun _ _ _ pos _ missing run => frameRun_created hsize whole pos missing run)
    (fun _ _ _ _ found run => frameRun_found hsize whole found run)
    (fun _ _ _ _ run => ⟨run.bounds, run.noFreed, run.done, run.pages, run.named⟩) size g size w
    (Or.inl (Nat.le_refl _)) hstart
  have hdone : size' = 0 := by
    rcases hend with hz | hmode | hzero
    · exact hz
    · cases hmode
    · exact absurd hzero (Nat.ne_of_gt (hsize.pos))
  obtain ⟨_, hstop⟩ := run.bounds
  constructor
  · intro index page hpage
    have hpos : 0 < entriesToDump pageSize := Nat.lt_of_lt_of_le Nat.one_pos (Nat.le_max_left _ _)
    have hmod := Nat.mod_lt index hpos
    have hdvd : entriesToDump pageSize ∣ index - index % entriesToDump pageSize :=
      Nat.dvd_sub_mod index
    have hle := Nat.mod_le index (entriesToDump pageSize)
    rcases run.pages _ hdvd with hkept | hnew
    · exact ⟨page, (hkept index (by omega) (by omega)).trans hpage, rfl, Iff.rfl⟩
    · obtain ⟨hnone, _⟩ := hnew index (by omega) (by omega)
      rw [hnone] at hpage
      cases hpage
  · exact fun x h1 h2 => run.done x h1 (by omega)
  · exact run.named

theorem walkPages_noFreed {w : GttWalk PhysicalAddressAllocatorSimple} {g size : Nat}
    (hsize : IsGttPageSize pageSize) (hfree : NoFreed w.allocator) :
    NoFreed (walkPages ggtt paused memoryBanks pageSize .Reserve size g size w).allocator := by
  obtain ⟨_, _, hJ, _⟩ := walkPages_rule ggtt paused memoryBanks .Reserve
    (J := fun _ _ w' => NoFreed w'.allocator)
    (fun _ _ w' _ _ _ hJ => (createPage_block _ w' hsize hJ).1) (fun _ _ _ _ _ hJ => hJ)
    (fun _ _ _ _ hJ => hJ) size g size w (Or.inl (Nat.le_refl _)) hfree
  exact hJ

end Walk

/-- Walks of the GGTT alone free nothing. -/
theorem reach_noFreed {ggtt : GGTT} {a : PhysicalAddressAllocatorSimple} (hfree : NoFreed a)
    {s : GttStreams PhysicalAddressAllocatorSimple}
    (reached : Reach (step ggtt) IsWrite (start a) s) : NoFreed s.allocator := by
  apply reached.invariant (I := fun s => NoFreed s.allocator) hfree
  intro s o s' inv allowed done
  cases o with
  | writeMemory g size memoryBanks pageSize =>
    obtain rfl := Option.some.inj done
    exact walkPages_noFreed allowed inv
  | readMemory => exact absurd allowed id
  | pauseAubFileStream => exact absurd allowed id
  | others => exact absurd allowed id

/-- After any sequence of GGTT walks, a write of pages that are missing or present as a whole, with
the locality of the table where it creates any, leaves every translation as it is. -/
theorem writeMemory_frames (ggtt : GGTT) (numberOfAllocators singleAllocatorSize : Nat)
    (localMemorySupport : Bool) {s : GttStreams PhysicalAddressAllocatorSimple}
    (reached : Reach (step ggtt) IsWrite
      (start (.new numberOfAllocators singleAllocatorSize localMemorySupport)) s)
    (g size memoryBanks : Nat) {pageSize : Nat} (hsize : IsGttPageSize pageSize)
    (whole : ∀ x, g ≤ x → x < g + size → PageWhole ggtt s.children memoryBanks pageSize x) :
    Frames ggtt s.children (writeMemory ggtt s g size memoryBanks pageSize).children g size
      (GlobalGtt.walkMemory ggtt s g size memoryBanks pageSize .Reserve).ggttEntries := by
  have hfree := reach_noFreed (new_noFreed _ _ _) reached
  exact walkPages_frames (w := ⟨s.children, s.allocator, [], []⟩) hsize hfree rfl whole

/-- A 64KB page at 0x10000 behind a 4KB page at 0x1000. -/
theorem writeMemory_frames_apart :
    ∃ s, runAll (step systemGgtt) (start (PhysicalAddressAllocatorSimple.new 0 0 false))
        [.writeMemory 0x1000 4 0 0x1000] = some s ∧
      Frames systemGgtt s.children (writeMemory systemGgtt s 0x12000 0x3000 0 0x10000).children
        0x12000 0x3000
        (GlobalGtt.walkMemory systemGgtt s 0x12000 0x3000 0 0x10000 .Reserve).ggttEntries := by
  refine ⟨_, rfl, writeMemory_frames systemGgtt 0 0 false
    (.step (o := .writeMemory 0x1000 4 0 0x1000) .start (Or.inl rfl) rfl) 0x12000 0x3000 0
    (Or.inr rfl) ?_⟩
  intro x h1 h2
  have hfirst : firstIndex 0x10000 x = 16 := by
    simp only [firstIndex, GGTT.getIndex]
    omega
  unfold PageWhole
  rw [hfirst]
  constructor
  · intro _
    refine ⟨fun j h3 _ => if_neg ?_, Iff.rfl⟩
    change ¬ (1 ≤ j ∧ j < 1 + 1)
    omega
  · intro h
    exact absurd rfl h

/-- A 64KB page over a 4KB page that is not its first moves that page. And a request for system memory
in a table in local memory emits an entry without the local bit. -/
theorem not_writeMemory_frames :
    (¬ ∀ s : GttStreams PhysicalAddressAllocatorSimple,
      Reach (step systemGgtt) IsWrite (start (.new 0 0 false)) s →
      Frames systemGgtt s.children (writeMemory systemGgtt s 0 4 0 0x10000).children 0 4
        (GlobalGtt.walkMemory systemGgtt s 0 4 0 0x10000 .Reserve).ggttEntries) ∧
    ¬ ∀ s : GttStreams PhysicalAddressAllocatorSimple,
      Reach (step ⟨1⟩) IsWrite (start (.new 1 0x80000000 true)) s →
      Frames ⟨1⟩ s.children (writeMemory ⟨1⟩ s 0 4 0 0x1000).children 0 4
        (GlobalGtt.walkMemory ⟨1⟩ s 0 4 0 0x1000 .Reserve).ggttEntries := by
  constructor
  · intro claim
    have frames := claim (writeMemory systemGgtt (start (.new 0 0 false)) 0x1000 4 0 0x1000)
      (.step (o := .writeMemory 0x1000 4 0 0x1000) .start (Or.inl rfl) rfl)
    obtain ⟨page', hpage', haddress, _⟩ := frames.unchanged 1 _ rfl
    obtain rfl := Option.some.inj hpage'
    revert haddress
    decide
  · intro claim
    have frames := claim (start (.new 1 0x80000000 true)) .start
    obtain ⟨index, page, hpage, _, hlocal⟩ := frames.named _ List.mem_cons_self
    have hbank : page.memoryBank = 1 := by
      change (if 0 ≤ index ∧ index < 0 + 1 then some _ else none) = some page at hpage
      split at hpage
      · obtain rfl := Option.some.inj hpage
        rfl
      · cases hpage
    have hbit := hlocal.mpr (by rw [isLocalMemory, hbank]; decide)
    revert hbit
    decide

end GgttFrame
