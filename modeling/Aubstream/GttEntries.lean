import Aubstream.GlobalGtt

/-!
# GTT entries in the AUB file

A page that is created while the AUB side is paused keeps its entry out of the
file for good, and so does a 64KB page whose first 4KB page already stands alone.
Every other page has its entry in the file.
-/

namespace GttEntries
open EntryBits PhysicalAllocator PageWalker GlobalGtt Transitions

variable {A : Type} [PhysicalAddressAllocator A] (ggtt : GGTT) (paused : Bool)
  (memoryBanks : Nat) {pageSize : Nat}

/-- The pages that count have their entry in `log`. -/
def Logged (ggtt : GGTT) (counts : GttPage → Prop) (children : Nat → Option GttPage)
    (log : List PageEntryInfo) : Prop :=
  ∀ index page, children index = some page → counts page → entryOf ggtt index page ∈ log

def CreatedUnpaused (page : GttPage) : Prop := page.createdPaused = false

/-- A page that needs no further entry. -/
def Entered (children : Nat → Option GttPage) (index : Nat) : Prop :=
  ∃ page, children index = some page ∧ page.createdPaused = false

theorem createPage_children (pageSize index : Nat) (w : GttWalk A) (j : Nat) :
    (createPage ggtt paused memoryBanks pageSize index w).children j = w.children j ∨
      (index ≤ j ∧ j < index + entriesToDump pageSize ∧
        ∃ page, (createPage ggtt paused memoryBanks pageSize index w).children j = some page ∧
          page.createdPaused = paused ∧ entryOf ggtt j page ∈
            (createPage ggtt paused memoryBanks pageSize index w).ggttEntries) := by
  by_cases hj : index ≤ j ∧ j < index + entriesToDump pageSize
  · right
    refine ⟨hj.1, hj.2, _, if_pos hj, rfl, ?_⟩
    refine List.mem_append_right _ (List.mem_map.mpr ⟨j - index, List.mem_range.mpr (by omega), ?_⟩)
    simp only [Nat.add_sub_cancel' hj.1]
  · exact Or.inl (if_neg hj)

theorem createPage_entered (index : Nat) (w : GttWalk A) {j : Nat} (h1 : index ≤ j)
    (h2 : j < index + entriesToDump pageSize) :
    Entered (createPage ggtt false memoryBanks pageSize index w).children j :=
  ⟨_, if_pos ⟨h1, h2⟩, rfl⟩

theorem createPage_keeps (index : Nat) (w : GttWalk A) {j : Nat} (h : Entered w.children j) :
    Entered (createPage ggtt false memoryBanks pageSize index w).children j := by
  rcases createPage_children ggtt false memoryBanks pageSize index w j with hsame | ⟨_, _, page, hpage, hcreated, _⟩
  · obtain ⟨page, hpage, hcreated⟩ := h
    exact ⟨page, hsame.trans hpage, hcreated⟩
  · exact ⟨page, hpage, hcreated⟩

/-- The entries of a walk that a stream gets. -/
def shown (hidden : Bool) (w : GttWalk A) : List PageEntryInfo :=
  if hidden then [] else w.ggttEntries

section Logged
variable {paused} {counts : GttPage → Prop} {hidden : Bool} {log : List PageEntryInfo}

theorem createPage_logged (sees : ∀ page, page.createdPaused = paused → counts page → hidden = false)
    (index : Nat) {w : GttWalk A} (h : Logged ggtt counts w.children (log ++ shown hidden w)) :
    Logged ggtt counts (createPage ggtt paused memoryBanks pageSize index w).children
      (log ++ shown hidden (createPage ggtt paused memoryBanks pageSize index w)) := by
  intro j page hpage hcounts
  rcases createPage_children ggtt paused memoryBanks pageSize index w j with hsame | ⟨_, _, page', hpage', hpaused, hmem⟩
  · rcases List.mem_append.mp (h j page (hsame.symm.trans hpage) hcounts) with hlog | hnew
    · exact List.mem_append_left _ hlog
    · refine List.mem_append_right _ ?_
      cases hidden with
      | true => cases hnew
      | false => exact List.mem_append_left _ hnew
  · obtain rfl := Option.some.inj (hpage'.symm.trans hpage)
    obtain rfl := sees page' hpaused hcounts
    exact List.mem_append_right _ hmem

/-- A walk in any mode keeps a log and what its stream gets of the walk together complete. -/
theorem walkPages_logged (mode : WalkMode)
    (sees : ∀ page, page.createdPaused = paused → counts page → hidden = false) (g size : Nat)
    {w : GttWalk A} (h : Logged ggtt counts w.children (log ++ shown hidden w)) :
    Logged ggtt counts (walkPages ggtt paused memoryBanks pageSize mode size g size w).children
      (log ++ shown hidden (walkPages ggtt paused memoryBanks pageSize mode size g size w)) := by
  obtain ⟨_, _, hJ, _⟩ := walkPages_rule ggtt paused memoryBanks mode
    (J := fun _ _ w => Logged ggtt counts w.children (log ++ shown hidden w))
    (fun _ _ _ _ _ _ hJ => createPage_logged ggtt memoryBanks sees _ hJ) (fun _ _ _ _ _ hJ => hJ)
    (fun _ _ _ _ hJ => hJ) size g size w (Or.inl (Nat.le_refl _)) h
  exact hJ

end Logged

theorem walkPages_expect (g size : Nat) (w : GttWalk A) :
    (walkPages ggtt paused memoryBanks pageSize .Expect size g size w).children = w.children := by
  obtain ⟨_, _, hJ, _⟩ := walkPages_rule ggtt paused memoryBanks .Expect
    (J := fun _ _ w' => w'.children = w.children)
    (fun _ _ _ _ hmode => absurd rfl hmode) (fun _ _ _ _ _ hJ => hJ)
    (fun _ _ _ _ hJ => hJ) size g size w (Or.inl (Nat.le_refl _)) rfl
  exact hJ

/-- The 4KB pages of an address's page. -/
theorem index_of_page (hsize : IsGttPageSize pageSize) {g x : Nat} (h1 : g ≤ x)
    (h2 : x < g + (pageSize - g % pageSize)) :
    firstIndex pageSize x = firstIndex pageSize g ∧ firstIndex pageSize g ≤ GGTT.getIndex x ∧
      GGTT.getIndex x < firstIndex pageSize g + entriesToDump pageSize := by
  rcases hsize with rfl | rfl <;>
    simp only [firstIndex, GGTT.getIndex, entriesToDump, pageSize4KB, pageSize64KB] at h2 ⊢ <;>
    omega

/-- First indices of pages of one size are aligned. -/
theorem firstIndex_aligned (hsize : IsGttPageSize pageSize) (g : Nat) :
    entriesToDump pageSize ∣ firstIndex pageSize g := by
  have h4KB : entriesToDump pageSize4KB = 1 := rfl
  have h64KB : entriesToDump pageSize64KB = 16 := rfl
  rcases hsize with rfl | rfl
  · rw [h4KB]
    exact Nat.one_dvd _
  · rw [h64KB]
    simp only [firstIndex, GGTT.getIndex, pageSize64KB]
    omega

/-- What a page of a write asks of the state before the write: it is to be created, or it already
has its entry. -/
def Covered (children : Nat → Option GttPage) (pageSize x : Nat) : Prop :=
  children (firstIndex pageSize x) = none ∨ Entered children (GGTT.getIndex x)

/-- Between two pages of a write that started on `t`. -/
structure WriteRun (t : Nat → Option GttPage) (g₀ stop pageSize g size : Nat) (w : GttWalk A) :
    Prop where
  bounds : g₀ ≤ g ∧ g + size = stop
  done : ∀ x, g₀ ≤ x → x < g → Entered w.children (GGTT.getIndex x)
  pages : ∀ b, entriesToDump pageSize ∣ b →
    (∀ j, b ≤ j → j < b + entriesToDump pageSize → w.children j = t j) ∨
    ∀ j, b ≤ j → j < b + entriesToDump pageSize → Entered w.children j

theorem aligned_disjoint {n a b j : Nat} (ha : n ∣ a) (hb : n ∣ b) (h1 : a ≤ j) (h2 : j < a + n)
    (h3 : b ≤ j) (h4 : j < b + n) : a = b := by
  obtain ⟨x, rfl⟩ := ha
  obtain ⟨y, rfl⟩ := hb
  have hx : x < y + 1 := Nat.lt_of_mul_lt_mul_left (a := n) (by rw [Nat.mul_succ]; omega)
  have hy : y < x + 1 := Nat.lt_of_mul_lt_mul_left (a := n) (by rw [Nat.mul_succ]; omega)
  rw [show x = y by omega]

omit [PhysicalAddressAllocator A] in
/-- The page that is being passed is entered when its part of the request is. -/
theorem WriteRun.pass {t : Nat → Option GttPage} {g₀ stop g size : Nat} {w : GttWalk A}
    (run : WriteRun t g₀ stop pageSize g size w)
    (page : ∀ x, g ≤ x → x < g + min (pageSize - g % pageSize) size →
      Entered w.children (GGTT.getIndex x)) :
    WriteRun t g₀ stop pageSize (g + min (pageSize - g % pageSize) size)
      (size - min (pageSize - g % pageSize) size) w := by
  obtain ⟨hg, hstop⟩ := run.bounds
  refine ⟨by omega, fun x h1 h2 => ?_, run.pages⟩
  by_cases hx : x < g
  · exact run.done x h1 hx
  · exact page x (by omega) h2

theorem writeRun_created {t : Nat → Option GttPage} {g₀ stop g size : Nat} {w : GttWalk A}
    (hsize : IsGttPageSize pageSize) (run : WriteRun t g₀ stop pageSize g size w) :
    WriteRun t g₀ stop pageSize (g + min (pageSize - g % pageSize) size)
      (size - min (pageSize - g % pageSize) size)
      (createPage ggtt false memoryBanks pageSize (firstIndex pageSize g) w) := by
  refine WriteRun.pass (w := createPage ggtt false memoryBanks pageSize (firstIndex pageSize g) w)
    ⟨run.bounds, fun x h1 h2 => createPage_keeps ggtt memoryBanks _ w (run.done x h1 h2), ?_⟩ ?_
  · intro b hb
    by_cases hsame : b = firstIndex pageSize g
    · subst hsame
      exact Or.inr fun j h1 h2 => createPage_entered ggtt memoryBanks _ w h1 h2
    · rcases run.pages b hb with hold | hnew
      · left
        intro j h1 h2
        rcases createPage_children ggtt false memoryBanks pageSize (firstIndex pageSize g) w j with hkept | ⟨h3, h4, _⟩
        · exact hkept.trans (hold j h1 h2)
        · exact absurd (aligned_disjoint hb (firstIndex_aligned hsize g) h1 h2 h3 h4) hsame
      · exact Or.inr fun j h1 h2 => createPage_keeps ggtt memoryBanks _ w (hnew j h1 h2)
  · intro x h1 h2
    obtain ⟨_, h3, h4⟩ := index_of_page hsize h1 (by omega)
    exact createPage_entered ggtt memoryBanks _ w h3 h4

omit [PhysicalAddressAllocator A] in
theorem writeRun_found {t : Nat → Option GttPage} {g₀ stop g size : Nat} {w : GttWalk A}
    (hsize : IsGttPageSize pageSize) (covered : ∀ x, g₀ ≤ x → x < stop → Covered t pageSize x)
    (hfound : w.children (firstIndex pageSize g) ≠ none)
    (run : WriteRun t g₀ stop pageSize g size w) :
    WriteRun t g₀ stop pageSize (g + min (pageSize - g % pageSize) size)
      (size - min (pageSize - g % pageSize) size) w := by
  obtain ⟨hg, hstop⟩ := run.bounds
  refine run.pass fun x h1 h2 => ?_
  obtain ⟨hfirst, h3, h4⟩ := index_of_page hsize h1 (by omega)
  rcases run.pages _ (firstIndex_aligned hsize g) with hold | hnew
  · rcases covered x (by omega) (by omega) with hnone | ⟨page, hpage, hcreated⟩
    · rw [hfirst, ← hold _ (Nat.le_refl _) (by omega)] at hnone
      exact absurd hnone hfound
    · exact ⟨page, (hold _ h3 h4).trans hpage, hcreated⟩
  · exact hnew _ h3 h4

/-- A whole write while the AUB side is not paused. -/
theorem writeRun_walk {g size : Nat} (hsize : IsGttPageSize pageSize) {w : GttWalk A}
    (covered : ∀ x, g ≤ x → x < g + size → Covered w.children pageSize x) :
    ∀ x, g ≤ x → x < g + size →
      Entered (walkPages ggtt false memoryBanks pageSize .Reserve size g size w).children
        (GGTT.getIndex x) := by
  have hstart : WriteRun w.children g (g + size) pageSize g size w := by
    refine ⟨⟨Nat.le_refl _, rfl⟩, fun x h1 h2 => ?_, fun b _ => Or.inl fun j _ _ => rfl⟩
    omega
  obtain ⟨g', size', run, hend⟩ := walkPages_rule ggtt false memoryBanks .Reserve
    (J := fun g' size' w' => WriteRun w.children g (g + size) pageSize g' size' w')
    (fun _ _ _ _ _ _ run => writeRun_created ggtt memoryBanks hsize run)
    (fun _ _ _ _ hfound run => writeRun_found hsize covered hfound run)
    (fun _ _ _ _ run => ⟨run.bounds, run.done, run.pages⟩) size g size w (Or.inl (Nat.le_refl _)) hstart
  have hdone : size' = 0 := by
    rcases hend with hz | hmode | hzero
    · exact hz
    · cases hmode
    · exact absurd hzero (Nat.ne_of_gt hsize.pos)
  obtain ⟨_, hstop⟩ := run.bounds
  exact fun x h1 h2 => run.done x h1 (by omega)

/-- Every page of a range stands, and its entry has been given to the file. -/
def EntriesInFile (ggtt : GGTT) (s : GttStreams A) (g size : Nat) : Prop :=
  ∀ x, g ≤ x → x < g + size → ∃ page, s.children (GGTT.getIndex x) = some page ∧
    entryOf ggtt (GGTT.getIndex x) page ∈ s.aubFileStream

theorem writeMemory_file {s : GttStreams A} (g size : Nat) :
    (writeMemory ggtt s g size memoryBanks pageSize).aubFileStream = s.aubFileStream ++
      shown s.isAubFileStreamPaused
        (GlobalGtt.walkMemory ggtt s g size memoryBanks pageSize .Reserve) := by
  unfold writeMemory writeGttPages shown
  cases s.isAubFileStreamPaused with
  | true => exact (List.append_nil _).symm
  | false => rfl

/-- Both sides of the stream have the entries of the pages that were created while they listened. -/
structure StreamsLogged (ggtt : GGTT) (s : GttStreams A) : Prop where
  file : Logged ggtt CreatedUnpaused s.children s.aubFileStream
  other : Logged ggtt (fun _ => True) s.children s.otherStream

theorem writeMemory_logged {s : GttStreams A} (h : StreamsLogged ggtt s) (g size : Nat) :
    StreamsLogged ggtt (writeMemory ggtt s g size memoryBanks pageSize) := by
  constructor
  · rw [writeMemory_file ggtt memoryBanks]
    have hstart : Logged ggtt CreatedUnpaused s.children (s.aubFileStream ++
        shown s.isAubFileStreamPaused (⟨s.children, s.allocator, [], []⟩ : GttWalk A)) := by
      simpa [shown] using h.file
    exact walkPages_logged ggtt memoryBanks .Reserve
      (fun page hpaused hcounts => hpaused.symm.trans hcounts) g size hstart
  · have hstart : Logged ggtt (fun _ => True) s.children (s.otherStream ++
        shown false (⟨s.children, s.allocator, [], []⟩ : GttWalk A)) := by
      simpa [shown] using h.other
    exact walkPages_logged ggtt memoryBanks .Reserve (fun _ _ _ => rfl) g size hstart

theorem step_logged {s s' : GttStreams A} {o : Op A} (h : StreamsLogged ggtt s)
    (done : step ggtt s o = some s') : StreamsLogged ggtt s' := by
  cases o with
  | writeMemory g size memoryBanks pageSize =>
    obtain rfl := Option.some.inj done
    exact writeMemory_logged ggtt memoryBanks h g size
  | readMemory g size memoryBanks pageSize =>
    obtain rfl := Option.some.inj done
    have hsame : (GlobalGtt.walkMemory ggtt s g size memoryBanks pageSize .Expect).children =
        s.children := walkPages_expect ggtt _ memoryBanks g size _
    rw [hsame]
    exact ⟨h.file, h.other⟩
  | pauseAubFileStream onoff =>
    obtain rfl := Option.some.inj done
    exact ⟨h.file, h.other⟩
  | others allocator =>
    obtain rfl := Option.some.inj done
    exact ⟨h.file, h.other⟩

/-- What every run keeps. The other stream misses no entry. -/
theorem reach_logged {a : A} {s : GttStreams A} (reached : Reach (step ggtt) Any (start a) s) :
    StreamsLogged ggtt s := by
  refine reached.invariant (I := StreamsLogged ggtt) ⟨?_, ?_⟩ fun _ _ _ inv _ done =>
    step_logged ggtt inv done
  · rintro index page ⟨⟩
  · rintro index page ⟨⟩

/-- In every run, a write while the AUB side is not paused has all its entries in the file
afterwards, when each page that it finds was created so as well. -/
theorem writeMemory_entriesInFile (a : A) {s : GttStreams A}
    (reached : Reach (step ggtt) Any (start a) s) (g size : Nat) (hsize : IsGttPageSize pageSize) (unpaused : s.isAubFileStreamPaused = false)
    (covered : ∀ x, g ≤ x → x < g + size → Covered s.children pageSize x) :
    EntriesInFile ggtt (writeMemory ggtt s g size memoryBanks pageSize) g size := by
  have hlogged : StreamsLogged ggtt (writeMemory ggtt s g size memoryBanks pageSize) :=
    writeMemory_logged ggtt memoryBanks (reach_logged ggtt reached) g size
  have hentered := writeRun_walk ggtt memoryBanks hsize
    (w := ⟨s.children, s.allocator, [], []⟩) covered
  intro x h1 h2
  obtain ⟨page, hpage, hcreated⟩ := hentered x h1 h2
  have hstands : (writeMemory ggtt s g size memoryBanks pageSize).children (GGTT.getIndex x) =
      some page := by
    simp only [writeMemory, writeGttPages, GlobalGtt.walkMemory, unpaused]
    exact hpage
  exact ⟨page, hstands, hlogged.file _ page hstands hcreated⟩

def systemGgtt : GGTT := ⟨0⟩

/-- A page written, the file paused and resumed, and two pages written. -/
theorem writeMemory_entriesInFile_resumed :
    ∃ s, runAll (step systemGgtt) (start (PhysicalAddressAllocatorSimple.new 0 0 false))
        [.writeMemory 0x1000 4 0 0x1000, .pauseAubFileStream true, .readMemory 0x1000 4 0 0x1000,
          .pauseAubFileStream false] = some s ∧
      EntriesInFile systemGgtt (writeMemory systemGgtt s 0x1000 0x2000 0 0x1000) 0x1000 0x2000 := by
  refine ⟨_, rfl, writeMemory_entriesInFile systemGgtt 0 (.new 0 0 false) ?_ 0x1000 0x2000
    (Or.inl rfl) rfl ?_⟩
  · exact runAll_reach [.writeMemory 0x1000 4 0 0x1000, .pauseAubFileStream true,
      .readMemory 0x1000 4 0 0x1000, .pauseAubFileStream false] .start rfl
  · intro x h1 h2
    by_cases hx : x < 0x2000
    · right
      have hindex : GGTT.getIndex x = 1 := by
        simp only [GGTT.getIndex]
        omega
      rw [hindex]
      exact ⟨_, rfl, rfl⟩
    · left
      have hindex : firstIndex 0x1000 x = 2 := by
        simp only [firstIndex, GGTT.getIndex]
        omega
      rw [hindex]
      rfl

/-- A page created during a pause never gets its entry into the file, and the pages behind a 4KB page
never get any when they are written as one 64KB page. -/
theorem not_writeMemory_entriesInFile :
    (¬ ∀ s : GttStreams PhysicalAddressAllocatorSimple,
      Reach (step systemGgtt) Any (start (.new 0 0 false)) s → s.isAubFileStreamPaused = false →
      EntriesInFile systemGgtt (writeMemory systemGgtt s 0x1000 4 0 0x1000) 0x1000 4) ∧
    ¬ ∀ s : GttStreams PhysicalAddressAllocatorSimple,
      Reach (step systemGgtt) Any (start (.new 0 0 false)) s → s.isAubFileStreamPaused = false →
      EntriesInFile systemGgtt (writeMemory systemGgtt s 0 0x2000 0 0x10000) 0 0x2000 := by
  constructor
  · intro hall
    have hfile := hall _ (runAll_reach (s := start (.new 0 0 false))
      [.pauseAubFileStream true, .writeMemory 0x1000 4 0 0x1000, .pauseAubFileStream false]
      .start rfl) rfl
    obtain ⟨page, _, hmem⟩ := hfile 0x1000 (Nat.le_refl _) (by decide)
    exact absurd hmem List.not_mem_nil
  · intro hall
    have hfile := hall _ (runAll_reach (s := start (.new 0 0 false)) [.writeMemory 0 4 0 0x1000]
      .start rfl) rfl
    obtain ⟨page, hpage, _⟩ := hfile 0x1000 (by decide) (by decide)
    have hnone : (writeMemory systemGgtt (writeMemory systemGgtt
        (start (PhysicalAddressAllocatorSimple.new 0 0 false)) 0 4 0 0x1000) 0 0x2000 0
          0x10000).children (GGTT.getIndex 0x1000) = none := by
      decide +kernel
    exact absurd (hnone.symm.trans hpage) (by simp)

end GttEntries
