import Aubstream.MapFrame
import Aubstream.PageVisits

/-!
# The records of a walk

Page by page a walk records where the next bytes of the request lie. Later pages
of the walk touch other leaves, so the records still hold when the walk ends.
-/

namespace WalkEntries
open EntryBits PathTree PhysicalAllocator PageNodes PageWalker TreeShape WalkPhases LeafStep
  Placement Translation PageEffect PageVisits MapCursor MapFrame TableRuns Transitions

def coveredSize (entries : List PageInfo) : Nat := (entries.map (·.size)).sum

/-- Where the bytes of record `i` start. -/
def startOf (g : Nat) (entries : List PageInfo) (i : Nat) : Nat :=
  g + coveredSize (entries.take i)

/-- Consecutive records from `b` up to `a`, each good at its address. -/
def Chain (good : Nat → PageInfo → Prop) : Nat → List PageInfo → Nat → Prop
  | b, [], a => a = b
  | b, e :: rest, a => good b e ∧ Chain good (b + e.size) rest a

namespace Chain

variable {good good' : Nat → PageInfo → Prop}

theorem mono (h : ∀ b e, good b e → good' b e) {entries : List PageInfo} {b a : Nat}
    (chain : Chain good b entries a) : Chain good' b entries a := by
  induction entries generalizing b with
  | nil => exact chain
  | cons e rest ih => exact ⟨h b e chain.1, ih chain.2⟩

theorem append {entries : List PageInfo} {b a : Nat} {e : PageInfo} (chain : Chain good b entries a)
    (next : good a e) : Chain good b (entries ++ [e]) (a + e.size) := by
  induction entries generalizing b with
  | nil =>
    obtain rfl : a = b := chain
    exact ⟨next, rfl⟩
  | cons x rest ih => exact ⟨chain.1, ih chain.2⟩

theorem stop_eq {entries : List PageInfo} {b a : Nat} (chain : Chain good b entries a) :
    a = b + coveredSize entries := by
  induction entries generalizing b with
  | nil => exact chain
  | cons e rest ih =>
    have h := ih chain.2
    simp only [coveredSize, List.map_cons, List.sum_cons] at h ⊢
    omega

theorem get {entries : List PageInfo} {b a i : Nat} {e : PageInfo} (chain : Chain good b entries a)
    (h : entries[i]? = some e) : good (startOf b entries i) e := by
  induction entries generalizing b i with
  | nil => simp at h
  | cons x rest ih =>
    cases i with
    | zero =>
      simp only [List.getElem?_cons_zero, Option.some.injEq] at h
      subst h
      exact chain.1
    | succ i =>
      rw [List.getElem?_cons_succ] at h
      have hgood := ih chain.2 h
      simp only [startOf, coveredSize, List.take_succ_cons, List.map_cons, List.sum_cons,
        ← Nat.add_assoc] at hgood ⊢
      exact hgood

/-- Every byte of the chain lies in one of its records. -/
theorem covers {entries : List PageInfo} {b a x : Nat} (chain : Chain good b entries a)
    (h1 : b ≤ x) (h2 : x < a) : ∃ y e, good y e ∧ y ≤ x ∧ x < y + e.size := by
  induction entries generalizing b with
  | nil =>
    obtain rfl : a = b := chain
    omega
  | cons e rest ih =>
    by_cases hx : x < b + e.size
    · exact ⟨b, e, chain.1, h1, hx⟩
    · exact ih chain.2 (by omega)

end Chain

/-- The record says where the bytes at `b` lie, and stays in their page. -/
def RecordOf (n : Nat) (kinds : Nat → NodeKind) (t : Nodes) (b : Nat) (e : PageInfo) : Prop :=
  0 < e.size ∧ b % (kinds b).getPageSize + e.size ≤ (kinds b).getPageSize ∧
    ∃ leaf, t (slotFor n kinds b) = some leaf ∧
      e.physicalAddress = leaf.physicalAddress + b % (kinds b).getPageSize ∧
      e.isLocalMemory = leaf.isLocalMemory

variable {A : Type} [PhysicalAddressAllocator A]

/-- Between two pages of a walk that started on `t`. -/
structure EntriesRun (c : WalkContext) (t : Nodes) (g stop a size : Nat) (s : Layout A) : Prop where
  bounds : g ≤ a ∧ a + size = stop
  kinds : ∀ b, lastTable c s.nodes b = lastTable c t b
  read : c.mode = .Expect → s.nodes = t
  start : size = 0 ∨ PageStart (lastTable c t) g a
  chain : Chain (fun b e => g ≤ b ∧ b < a ∧ PageStart (lastTable c t) g b ∧
    RecordOf c.ppgtt.getNumLevels (lastTable c t) s.nodes b e) g s.entries a

omit [PhysicalAddressAllocator A] in
theorem entriesRun_step {c : WalkContext} {t : Nodes} {g stop size : Nat} {s s' : Layout A}
    {page : PageRequest} (wf₀ : Wf c.ppgtt.getNumLevels t)
    (space : InSpace c.ppgtt.getNumLevels g (stop - g)) (hsize : 0 < size) (hps : page.size = size)
    (visited : Visited c page s s') (run : EntriesRun c t g stop page.gfxAddress size s) :
    EntriesRun c t g stop
      (page.gfxAddress + sizeThisIteration page (lastTable c s.nodes page.gfxAddress).getPageSize)
      (size - sizeThisIteration page (lastTable c s.nodes page.gfxAddress).getPageSize) s' := by
  have hk := pageKinds_lastTable wf₀
  obtain ⟨hga, hstop⟩ := run.bounds
  have start := run.start.resolve_left (by omega)
  have hpos := (hk.region page.gfxAddress).getPageSize_pos
  have hmod := Nat.mod_lt page.gfxAddress hpos
  obtain ⟨leaf, hleaf, hentries⟩ := visited.leaf
  rw [run.kinds] at hentries ⊢
  have hslot : visitSlot c (page, s) =
      slotFor c.ppgtt.getNumLevels (lastTable c t) page.gfxAddress := by
    rw [visitSlot, run.kinds]
    rfl
  have hpassed : sizeThisIteration page (lastTable c t page.gfxAddress).getPageSize =
      min size ((lastTable c t page.gfxAddress).getPageSize -
        page.gfxAddress % (lastTable c t page.gfxAddress).getPageSize) := by
    rw [sizeThisIteration, hps]
  refine ⟨by omega, fun b => (visited.kinds b).trans (run.kinds b), ?_, ?_, ?_⟩
  · intro hmode
    rw [visited.read hmode, run.read hmode]
  · rw [hpassed]
    exact pageStart_next hk g page.gfxAddress size
  · rw [hentries]
    -- the leaf of an earlier record is not in the slot that this page enters
    have earlier : Chain (fun b e => g ≤ b ∧
        b < page.gfxAddress + sizeThisIteration page (lastTable c t page.gfxAddress).getPageSize ∧
        PageStart (lastTable c t) g b ∧
        RecordOf c.ppgtt.getNumLevels (lastTable c t) s'.nodes b e) g s.entries page.gfxAddress := by
      refine run.chain.mono ?_
      rintro b e ⟨h1, h2, h3, hpos', hfits, x, hx, hfacts⟩
      refine ⟨h1, by omega, h3, hpos', hfits, x, visited.kept _ x hx ?_, hfacts⟩
      rw [hslot]
      intro heq
      have := slot_once wf₀ (pagesOnce_of_inSpace wf₀ space) h1 (by omega) hga (by omega) h3 start heq
      omega
    refine earlier.append ⟨hga, ?_, start, ?_, ?_, leaf, ?_, rfl, rfl⟩
    · omega
    · simp only [pageRecord]
      omega
    · simp only [pageRecord]
      omega
    · rw [← hslot]
      exact hleaf

/-- The records of a walk over `size` bytes at `g` tell where the tree `t` maps them. -/
structure EntriesTranslate (n : Nat) (t : Nodes) (mode : WalkMode) (g size : Nat)
    (entries : List PageInfo) : Prop where
  inPage : ∀ i e, entries[i]? = some e → 0 < e.size ∧
    startOf g entries i % pageSizeAt n t (startOf g entries i) + e.size ≤
      pageSizeAt n t (startOf g entries i)
  translated : ∀ i e, entries[i]? = some e → ∃ bank,
    translateVa n t (startOf g entries i) = some (e.physicalAddress, bank) ∧
      e.isLocalMemory = (bank != 0)
  whole : mode ≠ .Expect → coveredSize entries = size
  mapped : mode = .Expect → coveredSize entries ≤ size ∧
    (∀ x, g ≤ x → x < g + coveredSize entries → IsMapped n t x) ∧
    (coveredSize entries < size → ¬ IsMapped n t (g + coveredSize entries))

omit [PhysicalAddressAllocator A] in
theorem EntriesTranslate.of_layout {n : Nat} {t : Nodes} {mode : WalkMode} {g size : Nat}
    {entries : List PageInfo} (h : EntriesTranslate n (layout t) mode g size entries) :
    EntriesTranslate n t mode g size entries := by
  have hmapped : ∀ x, IsMapped n (layout t) x ↔ IsMapped n t x := by
    intro x
    unfold IsMapped
    rw [leafAt_layout]
    simp
  obtain ⟨h1, h2, h3, h4⟩ := h
  simp only [pageSizeAt_layout, translate_layout, hmapped] at h1 h2 h4
  exact ⟨h1, h2, h3, h4⟩

/-- The record of a byte's page makes the byte mapped. -/
theorem RecordOf.translateVa {c : WalkContext} {t : Nodes} {b : Nat} {e : PageInfo}
    (wf : Wf c.ppgtt.getNumLevels t)
    (h : RecordOf c.ppgtt.getNumLevels (lastTable c t) t b e) :
    pageSizeAt c.ppgtt.getNumLevels t b = (lastTable c t b).getPageSize ∧
      ∃ bank, Translation.translateVa c.ppgtt.getNumLevels t b = some (e.physicalAddress, bank) ∧
        e.isLocalMemory = (bank != 0) := by
  obtain ⟨_, _, leaf, hleaf, hphys, hlocal⟩ := h
  rw [← leafAt_before wf] at hleaf
  have hsize := pageSizeAt_before (c := c) (t := t) (a := b) (by rw [hleaf]; simp)
  refine ⟨hsize, leaf.memoryBank, ?_, hlocal⟩
  rw [Translation.translateVa, hleaf, hsize, hphys]
  rfl

theorem RecordOf.mapped {c : WalkContext} {t : Nodes} {b x : Nat} {e : PageInfo}
    (wf : Wf c.ppgtt.getNumLevels t)
    (h : RecordOf c.ppgtt.getNumLevels (lastTable c t) t b e) (h1 : b ≤ x) (h2 : x < b + e.size) :
    IsMapped c.ppgtt.getNumLevels t x := by
  have hk := pageKinds_lastTable wf
  obtain ⟨_, hfits, leaf, hleaf, _⟩ := h
  have hpage := samePage (hk.region b).getPageSize_pos h1 (by omega)
  have hslot : slotFor c.ppgtt.getNumLevels (lastTable c t) x =
      slotFor c.ppgtt.getNumLevels (lastTable c t) b := by
    unfold slotFor
    rw [kinds_of_page hk hpage]
    exact (leafSlot_congr (hk.region b) hpage).symm
  unfold IsMapped
  rw [leafAt_before wf, hslot, hleaf]
  simp

/-- A whole walk, in any mode. -/
theorem entriesRun_walk {c : WalkContext} {t : Nodes} {a : A} {phys : Option Nat} {g size : Nat}
    {w : WalkState A} (wf : Wf c.ppgtt.getNumLevels t) (expect : c.mode = .Expect → phys = none)
    (space : InSpace c.ppgtt.getNumLevels g size)
    (h : walkPages c size g size 0 (.start t a phys) = some w) :
    EntriesTranslate c.ppgtt.getNumLevels w.nodes c.mode g size w.entries := by
  have wf₀ := wf_layout.mpr wf
  have hstart : EntriesRun c (layout t) g (g + size) g size (layoutOf (.start t a phys)) :=
    ⟨⟨Nat.le_refl _, rfl⟩, fun _ => rfl, fun _ => rfl, Or.inr (Or.inl rfl), rfl⟩
  obtain ⟨hwf, g', size', _, run, hstop⟩ := walkPages_visits
    (J := fun a' size' _ s => EntriesRun c (layout t) g (g + size) a' size' s)
    (fun size' index s page _ _ hpos hpage hps visited run => entriesRun_step wf₀
      (by rw [Nat.add_sub_cancel_left]; exact space) hpos hps visited run)
    size g size 0 (.start t a phys) w (Nat.le_refl _) wf expect h hstart
  have hwf' : Wf c.ppgtt.getNumLevels (layoutOf w).nodes := wf_layout.mpr hwf
  have hkinds : lastTable c (layout t) = lastTable c (layoutOf w).nodes := by
    funext b
    exact (run.kinds b).symm
  have hcovered : g' = g + coveredSize w.entries := run.chain.stop_eq
  have hbounds := run.bounds
  have chain := run.chain.mono fun b e hb => hb.2.2.2
  rw [hkinds] at chain
  refine EntriesTranslate.of_layout ⟨fun i e he => ?_, fun i e he => ?_, fun hmode => ?_,
    fun hmode => ⟨by omega, fun x h1 h2 => ?_, fun hlt => ?_⟩⟩
  · have record := chain.get he
    have hsize := (record.translateVa hwf').1
    obtain ⟨hpos, hfits, _⟩ := record
    rw [← hsize] at hfits
    exact ⟨hpos, hfits⟩
  · exact ((chain.get he).translateVa hwf').2
  · rcases hstop with hz | ⟨hexpect, _⟩
    · omega
    · exact absurd hexpect hmode
  · obtain ⟨b, e, record, hb1, hb2⟩ := chain.covers h1 (by rw [hcovered]; exact h2)
    exact record.mapped hwf' hb1 hb2
  · rcases hstop with hz | ⟨_, hmissing⟩
    · omega
    · intro hmapped
      refine hmapped ?_
      rw [← hcovered]
      exact (leafAt_before hwf' g').trans hmissing

end WalkEntries
