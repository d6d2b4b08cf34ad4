import Aubstream.MapCursor
import Aubstream.Reservations

/-!
# The frame of mapGpuVa

A mapping walk enters the pages that hold the request, in the sizes that stand
in the table. Pages of the requested size or smaller stay inside the request and
inside the reservation; a larger page need not.
-/

namespace MapFrame
open EntryBits PathTree PhysicalAllocator PageNodes PageWalker TreeShape WalkPhases Placement
  Translation TableRuns PageEffect MapCursor Reservations Transitions

/-- Number of virtual addresses that a table of `n` levels tells apart. -/
def addressSpace (n : Nat) : Nat := 2 ^ (12 + 9 * n)

/-- The slot of the leaf for an address. -/
def slotFor (n : Nat) (kinds : Nat → NodeKind) (a : Nat) : Path := leafSlot n (kinds a) a

theorem pageKinds_lastTable {c : WalkContext} {t : Nodes} (wf : Wf c.ppgtt.getNumLevels t) :
    PageKinds (lastTable c t) := by
  refine ⟨isRegion_lastTable wf, fun a b h => ?_⟩
  unfold lastTable
  simp only [Pde, slotPath_congr (n := c.ppgtt.getNumLevels) (Nat.le_refl 1) h]

theorem slotPath_of_leafSlot {n : Nat} {kind kind' : NodeKind} (hk : IsRegion kind)
    (hk' : IsRegion kind') {a b : Nat} (h : leafSlot n kind a = leafSlot n kind' b) :
    slotPath n Pde a = slotPath n Pde b := by
  have hlen := congrArg List.length h
  cases hk <;> cases hk' <;>
    simp only [leafSlot, List.length_cons, slotPath_length, Pde] at h hlen
  · injection h
  · omega
  · omega
  · exact h

/-- Addresses with one slot have one region slot and lie in pages of one kind. -/
theorem region_of_slot {c : WalkContext} {t : Nodes} (wf : Wf c.ppgtt.getNumLevels t) {a b : Nat}
    (h : slotFor c.ppgtt.getNumLevels (lastTable c t) a =
      slotFor c.ppgtt.getNumLevels (lastTable c t) b) :
    slotPath c.ppgtt.getNumLevels Pde a = slotPath c.ppgtt.getNumLevels Pde b ∧
      lastTable c t a = lastTable c t b := by
  have hslot := slotPath_of_leafSlot (isRegion_lastTable wf a) (isRegion_lastTable wf b) h
  refine ⟨hslot, ?_⟩
  unfold lastTable
  rw [hslot]

/-- Page numbers agree modulo the address space when slots do. -/
theorem page_of_slot {n : Nat} (hn : 4 ≤ n) {kind : NodeKind} (hk : IsRegion kind) {a b : Nat}
    (h : leafSlot n kind a = leafSlot n kind b) :
    a / kind.getPageSize * kind.getPageSize % addressSpace n =
      b / kind.getPageSize * kind.getPageSize % addressSpace n := by
  have hslot : slotPath n Pde a = slotPath n Pde b := by
    cases hk with
    | pte k =>
      simp only [leafSlot] at h
      injection h
    | page2MB => exact h
  have hregion := slotPath_inj (n := n) (l := Pde) (by simp only [Pde]; omega) hslot
  have hspace : addressSpace n = 2 ^ 21 * 2 ^ (9 * (n - 1)) := by
    unfold addressSpace
    rw [← Nat.pow_add]
    congr 1
    omega
  simp only [Pde, Nat.mul_one, show 12 + 9 = 21 by rfl] at hregion
  have hsplit : ∀ x, x / kind.getPageSize * kind.getPageSize % addressSpace n =
      x % 2 ^ 21 / kind.getPageSize * kind.getPageSize +
        2 ^ 21 * (x / 2 ^ 21 % 2 ^ (9 * (n - 1))) := by
    intro x
    rw [hspace, Nat.mod_mul]
    cases hk with
    | pte k =>
      cases k <;> simp only [NodeKind.getPageSize, PteKind.getPageSize, pageSize4KB, pageSize64KB] <;>
        (congr 1
         · omega
         · congr 2
           omega)
    | page2MB =>
      simp only [NodeKind.getPageSize, pageSize2MB]
      congr 1
      · omega
      · congr 2
        omega
  have hoffset : a % 2 ^ 21 / kind.getPageSize = b % 2 ^ 21 / kind.getPageSize := by
    cases hk with
    | pte k =>
      simp only [leafSlot] at h
      injection h with hindex
      cases k <;> simp only [PteKind.getIndex] at hindex <;>
        simp only [NodeKind.getPageSize, PteKind.getPageSize, pageSize4KB, pageSize64KB] <;> omega
    | page2MB =>
      simp only [NodeKind.getPageSize, pageSize2MB]
      omega
  rw [hsplit, hsplit, hregion, hoffset]

theorem dvd_addressSpace {kind : NodeKind} (hk : IsRegion kind) (n : Nat) (hn : 1 ≤ n) :
    kind.getPageSize ∣ addressSpace n := by
  refine hk.dvd.trans (Nat.pow_dvd_pow 2 ?_)
  omega

theorem pageNumber_of_slot {n : Nat} (hn : 4 ≤ n) {kind : NodeKind} (hk : IsRegion kind) {a b : Nat}
    (h : leafSlot n kind a = leafSlot n kind b) :
    a % addressSpace n / kind.getPageSize = b % addressSpace n / kind.getPageSize := by
  have hpage := page_of_slot hn hk h
  obtain ⟨M, hM⟩ := dvd_addressSpace hk n (by omega)
  rw [hM, Nat.mul_comm (a / _), Nat.mul_comm (b / _), Nat.mul_mod_mul_left,
    Nat.mul_mod_mul_left] at hpage
  rw [hM, Nat.mod_mul_right_div_self, Nat.mod_mul_right_div_self]
  exact Nat.eq_of_mul_eq_mul_left hk.getPageSize_pos hpage

/-- The request is a range of virtual addresses of the table. -/
def InSpace (n g size : Nat) : Prop := g % addressSpace n + size ≤ addressSpace n

/-- The pages of a request, its first one in whole, do not go around the address space. -/
def PagesOnce (n : Nat) (kinds : Nat → NodeKind) (g size : Nat) : Prop :=
  g % (kinds g).getPageSize + size ≤ addressSpace n

theorem pagesOnce_of_inSpace {c : WalkContext} {t : Nodes} (wf : Wf c.ppgtt.getNumLevels t)
    {g size : Nat} (space : InSpace c.ppgtt.getNumLevels g size) :
    PagesOnce c.ppgtt.getNumLevels (lastTable c t) g size := by
  have hn := getNumLevels_ge c.ppgtt
  have hdvd := dvd_addressSpace (isRegion_lastTable wf g) c.ppgtt.getNumLevels (by omega)
  have hle := Nat.mod_le (g % addressSpace c.ppgtt.getNumLevels) (lastTable c t g).getPageSize
  rw [Nat.mod_mod_of_dvd g hdvd] at hle
  unfold InSpace at space
  unfold PagesOnce
  omega

/-- Numbers less than `N` apart are told apart by their remainders. -/
theorem window_unique {N x y : Nat} (h1 : x ≤ y) (h2 : y < x + N) (h : x % N = y % N) : x = y := by
  have hx := Nat.div_add_mod x N
  have hy := Nat.div_add_mod y N
  have hle : x / N ≤ y / N := Nat.div_le_div_right h1
  by_contra hne
  have hlt : x / N < y / N := by
    by_contra hge
    rw [show y / N = x / N by omega] at hy
    omega
  have hmul := Nat.mul_le_mul_left N (Nat.succ_le_of_lt hlt)
  rw [Nat.mul_succ] at hmul
  omega

/-- A request enters no slot twice. -/
theorem slot_once {c : WalkContext} {t : Nodes} (wf : Wf c.ppgtt.getNumLevels t) {g size a b : Nat}
    (once : PagesOnce c.ppgtt.getNumLevels (lastTable c t) g size) (ha1 : g ≤ a)
    (ha2 : a < g + size) (hb1 : g ≤ b) (hb2 : b < g + size) (ha : PageStart (lastTable c t) g a)
    (hb : PageStart (lastTable c t) g b)
    (h : slotFor c.ppgtt.getNumLevels (lastTable c t) a =
      slotFor c.ppgtt.getNumLevels (lastTable c t) b) : a = b := by
  wlog hab : a ≤ b generalizing a b
  · exact (this hb1 hb2 ha1 ha2 hb ha h.symm (by omega)).symm
  obtain ⟨_, hkind⟩ := region_of_slot wf h
  have hk := isRegion_lastTable wf b
  have hpos := hk.getPageSize_pos
  unfold slotFor at h
  rw [hkind] at h
  have hpage := page_of_slot (getNumLevels_ge c.ppgtt) hk h
  unfold PageStart at ha hb
  unfold PagesOnce at once
  rw [hkind] at ha
  have hx := Nat.div_add_mod a (lastTable c t b).getPageSize
  have hy := Nat.div_mul_le_self b (lastTable c t b).getPageSize
  have hmono := Nat.mul_le_mul_right (lastTable c t b).getPageSize
    (Nat.div_le_div_right (c := (lastTable c t b).getPageSize) hab)
  rw [Nat.mul_comm] at hx
  -- the page of `a` starts at most the offset of `g` below it
  have hbase : b / (lastTable c t b).getPageSize * (lastTable c t b).getPageSize <
      a / (lastTable c t b).getPageSize * (lastTable c t b).getPageSize +
        addressSpace c.ppgtt.getNumLevels := by
    rcases ha with rfl | ha
    · rw [hkind] at once
      omega
    · rw [Nat.mod_eq_zero_of_dvd ha] at hx
      omega
  have hequal := window_unique hmono hbase hpage
  rcases hb with hb | hb
  · omega
  · rw [Nat.div_mul_cancel hb] at hequal
    omega

variable {A : Type} [PhysicalAddressAllocator A]

/-- The cursor of a mapping walk that started on `t`, between two pages. -/
structure CursorRun (c : WalkContext) (t : Nodes) (phys g stop a size : Nat) (s : Layout A) :
    Prop where
  bounds : g ≤ a ∧ a + size = stop
  kinds : ∀ b, lastTable c s.nodes b = lastTable c t b
  supplied : s.physicalAddress.isSome = true
  cursor : size = 0 ∨ ∃ p, s.physicalAddress = some p ∧ IsCursor (lastTable c t) phys g a p
  start : size = 0 ∨ PageStart (lastTable c t) g a

omit [PhysicalAddressAllocator A] in
/-- Where the page at the cursor is mapped to. -/
theorem CursorRun.target {c : WalkContext} {t : Nodes} {phys g stop a size : Nat} {s : Layout A}
    (run : CursorRun c t phys g stop a size s) (wf₀ : Wf c.ppgtt.getNumLevels t) (hsize : 0 < size) :
    PageStart (lastTable c t) g a ∧ ∃ p q, s.physicalAddress = some p ∧
      IsCursor (lastTable c t) phys g a p ∧ leafCursor (lastTable c t a) (some p) = some q ∧
      IsTarget (lastTable c t) phys g a q := by
  obtain ⟨p, hp, hcursor⟩ := run.cursor.resolve_left (by omega)
  have start := run.start.resolve_left (by omega)
  obtain ⟨q, hq, htarget⟩ := isTarget_of_cursor (pageKinds_lastTable wf₀) run.bounds.1 start hcursor
  exact ⟨start, p, q, hp, hcursor, hq, htarget⟩

theorem cursorRun_step {c : WalkContext} {t : Nodes} {phys g stop size : Nat} {s : Layout A}
    {page : PageRequest} (wf₀ : Wf c.ppgtt.getNumLevels t) (wf : Wf c.ppgtt.getNumLevels s.nodes)
    (hmode : c.mode ≠ .Expect) (hsize : 0 < size) (hps : page.size = size)
    (run : CursorRun c t phys g stop page.gfxAddress size s) :
    (placePage c page s).2 = min size ((lastTable c t page.gfxAddress).getPageSize -
        page.gfxAddress % (lastTable c t page.gfxAddress).getPageSize) ∧
      CursorRun c t phys g stop (page.gfxAddress + (placePage c page s).2)
        (size - (placePage c page s).2) (placePage c page s).1 := by
  have hk := pageKinds_lastTable wf₀
  obtain ⟨hplaced, hpassed⟩ := placePage_placed page wf hmode
  obtain ⟨hga, hstop⟩ := run.bounds
  obtain ⟨start, p, q, hp, hcursor, hq, htarget⟩ := run.target wf₀ hsize
  have hmoved : (placePage c page s).2 = min size ((lastTable c t page.gfxAddress).getPageSize -
      page.gfxAddress % (lastTable c t page.gfxAddress).getPageSize) := by
    rw [hpassed, run.kinds, sizeThisIteration, hps]
  have hmod := Nat.mod_lt page.gfxAddress (hk.region page.gfxAddress).getPageSize_pos
  have hnext := hplaced.cursor
  rw [run.kinds, hp, hq] at hnext
  rw [hmoved]
  refine ⟨rfl, ⟨by omega, by omega⟩, fun b => (hplaced.lastTable wf b).trans (run.kinds b), ?_, ?_, ?_⟩
  · rw [hnext]
    rfl
  · by_cases hpart : size ≤ (lastTable c t page.gfxAddress).getPageSize -
        page.gfxAddress % (lastTable c t page.gfxAddress).getPageSize
    · left
      omega
    · right
      obtain ⟨p', hp', hcursor'⟩ := isCursor_step hk hga start hcursor hq
      rw [Nat.min_eq_right (by omega)]
      refine ⟨p', ?_, hcursor'⟩
      rw [hnext, sizeThisIteration, hps, Nat.min_eq_right (by omega)]
      exact hp'
  · exact pageStart_next hk g page.gfxAddress size

omit [PhysicalAddressAllocator A] in
theorem cursorRun_start (c : WalkContext) (t : Nodes) (a : A) {phys : Nat} (g size : Nat)
    (hphys : phys < 2 ^ 64) : CursorRun c (layout t) phys g (g + size) g size
      (layoutOf (.start t a (some phys))) := by
  refine ⟨⟨Nat.le_refl _, rfl⟩, fun _ => rfl, rfl, Or.inr ⟨phys, rfl, Or.inl ⟨?_, ?_⟩⟩,
    Or.inr (Or.inl rfl)⟩
  · intro b h1 h2
    omega
  · rw [Nat.sub_self, Nat.add_zero, wrap64, Nat.mod_eq_of_lt hphys]

/-- A slot that the request has entered before `a`. -/
def Entered (c : WalkContext) (t : Nodes) (g a : Nat) (y : Path) : Prop :=
  ∃ b, g ≤ b ∧ b < a ∧ PageStart (lastTable c t) g b ∧
    y = slotFor c.ppgtt.getNumLevels (lastTable c t) b

/-- Between two pages of a mapping walk that started on `t`. -/
structure MapRun (c : WalkContext) (t : Nodes) (phys g stop a size : Nat) (s : Layout A) :
    Prop where
  bounds : g ≤ a ∧ a + size = stop
  kinds : ∀ b, lastTable c s.nodes b = lastTable c t b
  supplied : s.physicalAddress.isSome = true
  cursor : size = 0 ∨ ∃ p, s.physicalAddress = some p ∧ IsCursor (lastTable c t) phys g a p
  start : size = 0 ∨ PageStart (lastTable c t) g a
  entered : ∀ b p, g ≤ b → b < a → PageStart (lastTable c t) g b →
    IsTarget (lastTable c t) phys g b p →
    ∃ leaf, s.nodes (slotFor c.ppgtt.getNumLevels (lastTable c t) b) = some leaf ∧
      leaf.physicalAddress = p ∧ leaf.memoryBank = c.allocationParams.memoryBanks
  kept : ∀ y m, t y = some m → ¬ Entered c t g a y → s.nodes y = some m
  new : ∀ y m, s.nodes y = some m → ¬ Entered c t g a y → t y = some m ∨ ¬ IsLeaf m.kind

omit [PhysicalAddressAllocator A] in
/-- A table added on the way is no leaf. -/
theorem new_not_leaf {c : WalkContext} {page : PageRequest} {s s' : Layout A}
    (h : Placed c page s s') {y : Path} {m : PageNode} (hm : s'.nodes y = some m)
    (hy : y ≠ visitSlot c (page, s)) (hold : s.nodes y = none) : ¬ IsLeaf m.kind := by
  rcases h.new y m hm hy with h | ⟨l, h1, h2, rfl, hk⟩
  · rw [hold] at h
    cases h
  · intro hleaf
    rw [hk] at hleaf
    by_cases hl : l = Pde
    · subst hl
      have hlast : lastTable c s.nodes page.gfxAddress =
          tableKind c.ppgtt Pde c.requestedPageSize := by
        unfold lastTable
        rw [hold]
      rw [hlast] at h1
      rcases tableKind_cases c.ppgtt c.requestedPageSize with ⟨h2MB, _⟩ | ⟨⟨k, hpte⟩, _⟩
      · rw [h2MB] at h1
        simp only [leafLevel, Pde] at h1
        omega
      · rw [hpte] at hleaf
        cases hleaf
    · simp only [tableKind, if_neg hl] at hleaf
      cases hleaf

theorem pageSize_div {kinds : Nat → NodeKind} (hk : PageKinds kinds) {g a b : Nat}
    (hga : g ≤ a) (hb1 : a ≤ b)
    (hb2 : b < a + ((kinds a).getPageSize - a % (kinds a).getPageSize))
    (hb : PageStart kinds g b) : b = a := by
  have hpos := (hk.region a).getPageSize_pos
  have hpage := samePage hpos hb1 hb2
  rcases hb with rfl | hdvd
  · omega
  · rw [kinds_of_page hk hpage] at hdvd
    have h1 := Nat.div_mul_cancel hdvd
    have h2 := Nat.div_mul_le_self a (kinds a).getPageSize
    rw [hpage] at h2
    omega

/-- The pages entered up to the end of a page are those before it and the page itself. -/
theorem entered_step {c : WalkContext} {t : Nodes} (wf : Wf c.ppgtt.getNumLevels t)
    {g a size : Nat} (hga : g ≤ a) (hsize : 0 < size) (start : PageStart (lastTable c t) g a)
    {y : Path} :
    Entered c t g (a + min size ((lastTable c t a).getPageSize -
        a % (lastTable c t a).getPageSize)) y ↔
      Entered c t g a y ∨ y = slotFor c.ppgtt.getNumLevels (lastTable c t) a := by
  have hk := pageKinds_lastTable wf
  have hmod := Nat.mod_lt a (hk.region a).getPageSize_pos
  constructor
  · rintro ⟨b, h1, h2, h3, rfl⟩
    by_cases hb : b < a
    · exact Or.inl ⟨b, h1, hb, h3, rfl⟩
    · rw [pageSize_div hk hga (by omega) (by omega) h3]
      exact Or.inr rfl
  · rintro (⟨b, h1, h2, h3, rfl⟩ | rfl)
    · exact ⟨b, h1, by omega, h3, rfl⟩
    · exact ⟨a, hga, by omega, start, rfl⟩

theorem mapRun_step {c : WalkContext} {t : Nodes} {phys g stop size index : Nat} {s : Layout A}
    {page : PageRequest} (wf₀ : Wf c.ppgtt.getNumLevels t) (wf : Wf c.ppgtt.getNumLevels s.nodes)
    (hmode : c.mode = .Reserve)
    (once : PagesOnce c.ppgtt.getNumLevels (lastTable c t) g (stop - g)) (hsize : 0 < size)
    (hpage : pageRequest c page.gfxAddress size index s.physicalAddress = some page)
    (hps : page.size = size) (run : MapRun c t phys g stop page.gfxAddress size s) :
    MapRun c t phys g stop (page.gfxAddress + (placePage c page s).2)
      (size - (placePage c page s).2) (placePage c page s).1 := by
  have hk := pageKinds_lastTable wf₀
  have hmode' : c.mode ≠ .Expect := by
    rw [hmode]
    simp
  obtain ⟨hplaced, -⟩ := placePage_placed page wf hmode'
  have hga := run.bounds.1
  have hstop := run.bounds.2
  have hbank : page.pageMemoryBank = c.allocationParams.memoryBanks := by
    simp only [pageRequest, hmode, run.supplied, if_true, reduceCtorEq, if_false,
      Option.some.injEq] at hpage
    rw [← hpage]
  have before : CursorRun c t phys g stop page.gfxAddress size s :=
    ⟨run.bounds, run.kinds, run.supplied, run.cursor, run.start⟩
  obtain ⟨start, p, q, hp, _, hq, htarget⟩ := before.target wf₀ hsize
  obtain ⟨hmoved, after⟩ := cursorRun_step wf₀ wf hmode' hsize hps before
  have hslot : visitSlot c (page, s) =
      slotFor c.ppgtt.getNumLevels (lastTable c t) page.gfxAddress := by
    rw [visitSlot, run.kinds]
    rfl
  have hentered := fun y => entered_step wf₀ hga hsize start (y := y)
  obtain ⟨leaf, hleaf, _, _, hset⟩ := hplaced.leaf
  rw [run.kinds, hp] at hset
  obtain ⟨hphys, hleafBank⟩ := hset q hq
  refine ⟨after.bounds, after.kinds, after.supplied, after.cursor, after.start, ?_, ?_, ?_⟩ <;>
    rw [hmoved]
  · intro b p' h1 h2 hb ht
    by_cases hlt : b < page.gfxAddress
    · obtain ⟨leaf', hleaf', hfacts⟩ := run.entered b p' h1 hlt hb ht
      refine ⟨leaf', hplaced.kept _ leaf' hleaf' ?_, hfacts⟩
      rw [hslot]
      intro heq
      have := slot_once wf₀ once h1 (by omega) hga (by omega) hb start heq
      omega
    · obtain rfl : b = page.gfxAddress := pageSize_div hk hga (by omega) (by omega) hb
      refine ⟨leaf, hslot ▸ hleaf, ?_, hleafBank.trans hbank⟩
      rw [hphys]
      exact isTarget_unique htarget ht
  · intro y m hm hy
    rw [hentered, not_or] at hy
    exact hplaced.kept y m (run.kept y m hm hy.1) (hslot ▸ hy.2)
  · intro y m hm hy
    rw [hentered, not_or] at hy
    have hne : y ≠ visitSlot c (page, s) := hslot ▸ hy.2
    cases hold : s.nodes y with
    | none => exact Or.inr (new_not_leaf hplaced hm hne hold)
    | some x =>
      have hx := hplaced.kept y x hold hne
      rw [hm, Option.some.injEq] at hx
      exact run.new y m (hx ▸ hold) hy.1

omit [PhysicalAddressAllocator A] in
theorem mapRun_start (c : WalkContext) (t : Nodes) (a : A) {phys : Nat} (g size : Nat)
    (hphys : phys < 2 ^ 64) : MapRun c (layout t) phys g (g + size) g size
      (layoutOf (.start t a (some phys))) := by
  have start := cursorRun_start c t a g size hphys
  refine ⟨start.bounds, start.kinds, start.supplied, start.cursor, start.start, ?_, ?_, ?_⟩
  · intro b p h1 h2
    omega
  · exact fun y m hm _ => hm
  · exact fun y m hm _ => Or.inl hm

/-- A whole mapping walk. -/
theorem mapRun_walk {c : WalkContext} {t : Nodes} {a : A} {phys g size : Nat} {w : WalkState A}
    (wf : Wf c.ppgtt.getNumLevels t) (hmode : c.mode = .Reserve) (hphys : phys < 2 ^ 64)
    (once : PagesOnce c.ppgtt.getNumLevels (lastTable c (layout t)) g size)
    (h : walkPages c size g size 0 (.start t a (some phys)) = some w) :
    Wf c.ppgtt.getNumLevels w.nodes ∧
      ∃ g', MapRun c (layout t) phys g (g + size) g' 0 (layoutOf w) := by
  have wf₀ := wf_layout.mpr wf
  obtain ⟨hwf, g', _, run⟩ := walkPages_places
    (J := fun g' size' _ s => MapRun c (layout t) phys g (g + size) g' size' s)
    (by rw [hmode]; simp)
    (fun size' index s page wf' hpos hpage hps run => mapRun_step wf₀ wf' hmode
      (by rw [Nat.add_sub_cancel_left]; exact once) hpos hpage hps run)
    size g size 0 (.start t a (some phys)) w (Nat.le_refl _) wf h (mapRun_start c t a g size hphys)
  exact ⟨hwf, g', run⟩

/-- What the frame of a mapping request asks for: every leaf that changes its address or bank, or
is new, lies in the block of `reserved` bytes at `phys`, and addresses outside the request rounded
outwards to pages of `pageSize` bytes translate as before. -/
structure StaysInside (n : Nat) (t t' : Nodes) (phys reserved g size pageSize : Nat) : Prop where
  inside : ∀ a leaf', leafAt n t' a = some leaf' →
    (∀ leaf, leafAt n t a = some leaf → leaf.physicalAddress ≠ leaf'.physicalAddress ∨
      leaf.memoryBank ≠ leaf'.memoryBank) →
    phys ≤ leaf'.physicalAddress ∧ leaf'.physicalAddress + pageSizeAt n t' a ≤ phys + reserved
  others : ∀ b, (∀ a, g / pageSize * pageSize ≤ a →
      a < (g + size + (pageSize - 1)) / pageSize * pageSize →
      a % addressSpace n ≠ b % addressSpace n) →
    translateVa n t' b = translateVa n t b

/-- What stands in the page directory for an address, or what a request in pages of `requested`
bytes would put there. -/
def pageKindAt (ppgtt : PpgttKind) (requested : Nat) (t : Nodes) (a : Nat) : NodeKind :=
  match regionAt ppgtt.getNumLevels t a with
  | some m => m.kind
  | none => tableKind ppgtt Pde requested

/-- The condition on a mapping request, from the state before it. Either no page along the request
is larger than the requested size and the block is aligned and does not wrap, or each page of the
request already is where the cursor would put it, or it lies within the rounded request and its
target within the block. -/
def MapCondition (n : Nat) (kinds : Nat → NodeKind) (t : Nodes)
    (phys bank reserved g size pageSize : Nat) : Prop :=
  ((∀ a, g ≤ a → a < g + size → (kinds a).getPageSize ≤ pageSize) ∧ pageSize ∣ phys ∧
    phys + reserved ≤ 2 ^ 64) ∨
  ∀ a p, g ≤ a → a < g + size → PageStart kinds g a → IsTarget kinds phys g a p →
    (∃ leaf, leafAt n t a = some leaf ∧ leaf.physicalAddress = p ∧ leaf.memoryBank = bank) ∨
    (g / pageSize * pageSize ≤ pageBase kinds a ∧
      pageBase kinds a + (kinds a).getPageSize ≤ (g + size + (pageSize - 1)) / pageSize * pageSize ∧
      phys ≤ p ∧ p + (kinds a).getPageSize ≤ phys + reserved)

/-- The page sizes of the library. -/
def IsPageSize (size : Nat) : Prop :=
  size = pageSize4KB ∨ size = pageSize64KB ∨ size = pageSize2MB

theorem isPageSize_pow {size : Nat} (h : IsPageSize size) : ∃ k, 12 ≤ k ∧ k ≤ 64 ∧ size = 2 ^ k := by
  rcases h with rfl | rfl | rfl
  · exact ⟨12, by decide, by decide, rfl⟩
  · exact ⟨16, by decide, by decide, rfl⟩
  · exact ⟨21, by decide, by decide, rfl⟩

theorem isPageSize_of_region {kind : NodeKind} (h : IsRegion kind) :
    IsPageSize kind.getPageSize := by
  cases h with
  | pte k =>
    cases k
    · exact Or.inl rfl
    · exact Or.inr (Or.inl rfl)
    · exact Or.inr (Or.inl rfl)
  | page2MB => exact Or.inr (Or.inr rfl)

/-- The first 2MB page of a request is entered at its start or at the start of the request. -/
theorem firstLarge_aligned {kinds : Nat → NodeKind} (hk : PageKinds kinds) {g f : Nat}
    (h : FirstLarge kinds g f) : f = g ∨ f % pageSize2MB = 0 := by
  by_contra hnot
  rw [not_or] at hnot
  obtain ⟨h1, h2, h3⟩ := h
  refine h3 (f - 1) (by omega) (by omega) ?_
  rw [← h2]
  refine hk.uniform _ _ ?_
  simp only [pageSize2MB] at hnot
  omega

/-- Pages of the requested size or smaller stay within the rounded request, and their targets
within an aligned block of its length. -/
theorem target_bounds {kinds : Nat → NodeKind} (hk : PageKinds kinds)
    {pageSize phys reserved g size a p : Nat} (hsize : IsPageSize pageSize)
    (small : ∀ b, g ≤ b → b < g + size → (kinds b).getPageSize ≤ pageSize)
    (hphys : pageSize ∣ phys) (hwrap : phys + reserved ≤ 2 ^ 64)
    (hreserved : reserved =
      (g + size + (pageSize - 1)) / pageSize * pageSize - g / pageSize * pageSize)
    (h1 : g ≤ a) (h2 : a < g + size) (start : PageStart kinds g a)
    (target : IsTarget kinds phys g a p) :
    g / pageSize * pageSize ≤ pageBase kinds a ∧
      pageBase kinds a + (kinds a).getPageSize ≤
        (g + size + (pageSize - 1)) / pageSize * pageSize ∧
      phys ≤ p ∧ p + (kinds a).getPageSize ≤ phys + reserved := by
  have hpage : g / pageSize * pageSize ≤ pageBase kinds a ∧
      pageBase kinds a + (kinds a).getPageSize ≤
        (g + size + (pageSize - 1)) / pageSize * pageSize := by
    have hle := small a h1 h2
    unfold pageBase
    rcases isPageSize_of_region (hk.region a) with hps | hps | hps <;> rw [hps] at hle ⊢ <;>
      rcases hsize with rfl | rfl | rfl <;>
      simp only [pageSize4KB, pageSize64KB, pageSize2MB] at hle ⊢ <;> omega
  refine ⟨hpage.1, hpage.2, ?_⟩
  have hfirst : a = g ∨ pageBase kinds a = a := by
    rcases start with rfl | hdvd
    · exact Or.inl rfl
    · right
      simp only [pageBase, Nat.mod_eq_zero_of_dvd hdvd, Nat.sub_zero]
  have hup := hpage.2
  rcases target with ⟨_, rfl⟩ | ⟨f, hf, hfa, rfl⟩
  · have hvalue : phys + (a - g) + (kinds a).getPageSize ≤ phys + reserved := by
      have hle := small a h1 h2
      rcases hfirst with rfl | hbase
      · rw [hreserved]
        unfold pageBase at hpage
        omega
      · rw [hbase] at hup
        rw [hreserved]
        have : g / pageSize * pageSize ≤ g := Nat.div_mul_le_self _ _
        omega
    have hpos := (hk.region a).getPageSize_pos
    rw [wrap64, Nat.mod_eq_of_lt (by omega)]
    omega
  · have h2MB := small f hf.1 (by omega)
    rw [hf.2.1] at h2MB
    have hpageSize : pageSize = pageSize2MB := by
      rcases hsize with rfl | rfl | rfl
      · exact absurd h2MB (by decide)
      · exact absurd h2MB (by decide)
      · rfl
    subst hpageSize
    have hbase : pageBase kinds f = f - f % pageSize2MB := by
      simp only [pageBase, hf.2.1, NodeKind.getPageSize]
    have haligned := firstLarge_aligned hk hf
    have hmono : pageBase kinds f ≤ pageBase kinds a := by
      rcases hfirst with rfl | ha
      · have : f = a := by have := hf.1; omega
        rw [this]
      · rw [ha, hbase]
        omega
    have hvalue : alignUp2MB (phys + (f - g)) + (pageBase kinds a - pageBase kinds f) =
        phys + (pageBase kinds a - g / pageSize2MB * pageSize2MB) := by
      obtain ⟨d, rfl⟩ := hphys
      rw [hbase] at hmono ⊢
      have hgf := hf.1
      simp only [alignUp2MB, pageSize2MB] at haligned hmono hpage ⊢
      omega
    have hpos := (hk.region a).getPageSize_pos
    rw [hvalue, wrap64, Nat.mod_eq_of_lt (by omega)]
    omega

theorem window_eq {N k x y : Nat} (hx1 : N * k ≤ x) (hx2 : x < N * k + N) (hy1 : N * k ≤ y)
    (hy2 : y < N * k + N) (h : x % N = y % N) : x = y := by
  obtain ⟨u, rfl⟩ : ∃ u, x = N * k + u := ⟨x - N * k, by omega⟩
  obtain ⟨v, rfl⟩ : ∃ v, y = N * k + v := ⟨y - N * k, by omega⟩
  rw [Nat.mul_add_mod, Nat.mul_add_mod, Nat.mod_eq_of_lt (by omega), Nat.mod_eq_of_lt (by omega)] at h
  rw [h]

/-- Rounding to a page size stays within one copy of the address space. -/
theorem round_in_window {N k x size : Nat} (hpos : 0 < size) (hdvd : size ∣ N)
    (h1 : N * k ≤ x) (h2 : x ≤ N * k + N) :
    N * k ≤ x / size * size ∧ (x + (size - 1)) / size * size ≤ N * k + N := by
  obtain ⟨M, rfl⟩ := hdvd
  constructor
  · rw [Nat.mul_assoc, Nat.mul_comm]
    refine Nat.mul_le_mul_right size ((Nat.le_div_iff_mul_le hpos).mpr ?_)
    rwa [Nat.mul_comm, ← Nat.mul_assoc]
  · have hup : size * M * k + size * M = (M * k + M) * size := by
      rw [Nat.add_mul, Nat.mul_comm M size, Nat.mul_assoc size M k, Nat.mul_comm (M * k) size]
    rw [hup] at h2 ⊢
    refine Nat.mul_le_mul_right size ?_
    refine Nat.le_of_lt_succ ((Nat.div_lt_iff_lt_mul hpos).mpr ?_)
    rw [Nat.succ_mul]
    omega

section
variable {c : WalkContext} {t : Nodes} {phys g size : Nat} {s : Layout A} {g' : Nat}

omit [PhysicalAddressAllocator A] in
theorem leafAt_after (wf : Wf c.ppgtt.getNumLevels s.nodes)
    (run : MapRun c t phys g (g + size) g' 0 s) (a : Nat) :
    leafAt c.ppgtt.getNumLevels s.nodes a =
      s.nodes (slotFor c.ppgtt.getNumLevels (lastTable c t) a) := by
  rw [leafSlot_mapped wf, run.kinds]
  rfl

theorem leafAt_before (wf : Wf c.ppgtt.getNumLevels t) (a : Nat) :
    leafAt c.ppgtt.getNumLevels t a = t (slotFor c.ppgtt.getNumLevels (lastTable c t) a) :=
  leafSlot_mapped wf

theorem pageSizeAt_mapped {n : Nat} {t : Nodes} {a : Nat} (h : leafAt n t a ≠ none) :
    ∃ m, regionAt n t a = some m := by
  refine Option.ne_none_iff_exists'.mp fun hnone => h ?_
  simp only [leafAt, hnone, Option.bind_none]

omit [PhysicalAddressAllocator A] in
theorem pageSizeAt_after (run : MapRun c t phys g (g + size) g' 0 s) {a : Nat}
    (h : leafAt c.ppgtt.getNumLevels s.nodes a ≠ none) :
    pageSizeAt c.ppgtt.getNumLevels s.nodes a = (lastTable c t a).getPageSize := by
  obtain ⟨m, hm⟩ := pageSizeAt_mapped h
  rw [pageSizeAt_of_region hm, ← run.kinds, lastTable_of_region hm]

theorem pageSizeAt_before {a : Nat} (h : leafAt c.ppgtt.getNumLevels t a ≠ none) :
    pageSizeAt c.ppgtt.getNumLevels t a = (lastTable c t a).getPageSize := by
  obtain ⟨m, hm⟩ := pageSizeAt_mapped h
  rw [pageSizeAt_of_region hm, lastTable_of_region hm]

omit [PhysicalAddressAllocator A] in
/-- A page that the request does not enter keeps its leaf. -/
theorem leafAt_unentered (wf₀ : Wf c.ppgtt.getNumLevels t) (wf : Wf c.ppgtt.getNumLevels s.nodes)
    (run : MapRun c t phys g (g + size) g' 0 s) {a : Nat}
    (h : ¬ Entered c t g (g + size) (slotFor c.ppgtt.getNumLevels (lastTable c t) a)) :
    leafAt c.ppgtt.getNumLevels s.nodes a = leafAt c.ppgtt.getNumLevels t a := by
  have hn := getNumLevels_ge c.ppgtt
  obtain rfl : g' = g + size := run.bounds.2
  rw [leafAt_before wf₀]
  cases hafter : leafAt c.ppgtt.getNumLevels s.nodes a with
  | none =>
    cases hbefore : t (slotFor c.ppgtt.getNumLevels (lastTable c t) a) with
    | none => rfl
    | some m =>
      rw [leafAt_after wf run, run.kept _ m hbefore h] at hafter
      cases hafter
  | some leaf =>
    obtain ⟨m, hm⟩ := pageSizeAt_mapped (n := c.ppgtt.getNumLevels) (t := s.nodes) (a := a)
      (by rw [hafter]; simp)
    have hleaf := hafter
    rw [leafAt_of_region hm] at hleaf
    have hisLeaf := isLeaf_of_leafAt wf hn hm hleaf
    rw [leafAt_after wf run] at hafter
    rcases run.new _ leaf hafter h with hold | hnot
    · exact hold.symm
    · exact absurd hisLeaf hnot

omit [PhysicalAddressAllocator A] in
/-- An entered page is at its target afterwards. -/
theorem leafAt_entered (wf : Wf c.ppgtt.getNumLevels s.nodes)
    (run : MapRun c t phys g (g + size) g' 0 s) {a p : Nat} (h1 : g ≤ a) (h2 : a < g + size)
    (start : PageStart (lastTable c t) g a) (target : IsTarget (lastTable c t) phys g a p) :
    ∃ leaf, leafAt c.ppgtt.getNumLevels s.nodes a = some leaf ∧ leaf.physicalAddress = p ∧
      leaf.memoryBank = c.allocationParams.memoryBanks := by
  obtain rfl : g' = g + size := run.bounds.2
  obtain ⟨leaf, hleaf, hfacts⟩ := run.entered a p h1 h2 start target
  exact ⟨leaf, by rw [leafAt_after wf run, hleaf], hfacts⟩

omit [PhysicalAddressAllocator A] in
/-- An address of an entered page is, up to the address space, in the page as it was entered. -/
theorem alias_of_slot (wf : Wf c.ppgtt.getNumLevels t) {a b : Nat}
    (h : slotFor c.ppgtt.getNumLevels (lastTable c t) a =
      slotFor c.ppgtt.getNumLevels (lastTable c t) b) :
    (pageBase (lastTable c t) a + b % (lastTable c t a).getPageSize) %
        addressSpace c.ppgtt.getNumLevels = b % addressSpace c.ppgtt.getNumLevels := by
  obtain ⟨_, hkind⟩ := region_of_slot wf h
  have hk := isRegion_lastTable wf a
  unfold slotFor at h
  rw [← hkind] at h
  have hpage := page_of_slot (getNumLevels_ge c.ppgtt) hk h
  have hbase : pageBase (lastTable c t) a =
      a / (lastTable c t a).getPageSize * (lastTable c t a).getPageSize := by
    have := Nat.div_add_mod a (lastTable c t a).getPageSize
    unfold pageBase
    rw [Nat.mul_comm] at this
    omega
  rw [hbase, Nat.add_mod, hpage, ← Nat.add_mod, Nat.mul_comm, Nat.div_add_mod]

theorem isPageSize_dvd {pageSize : Nat} (h : IsPageSize pageSize) (ppgtt : PpgttKind) :
    pageSize ∣ addressSpace ppgtt.getNumLevels := by
  rcases h with rfl | rfl | rfl <;> cases ppgtt <;> decide +kernel

omit [PhysicalAddressAllocator A] in
/-- The frame holds when every page of the request passes its check. -/
theorem staysInside_of_pages {reserved pageSize : Nat} (wf₀ : Wf c.ppgtt.getNumLevels t)
    (wf : Wf c.ppgtt.getNumLevels s.nodes) (run : MapRun c t phys g (g + size) g' 0 s)
    (pages : ∀ a p, g ≤ a → a < g + size → PageStart (lastTable c t) g a →
      IsTarget (lastTable c t) phys g a p →
      (∃ leaf, leafAt c.ppgtt.getNumLevels t a = some leaf ∧ leaf.physicalAddress = p ∧
        leaf.memoryBank = c.allocationParams.memoryBanks) ∨
      (g / pageSize * pageSize ≤ pageBase (lastTable c t) a ∧
        pageBase (lastTable c t) a + (lastTable c t a).getPageSize ≤
          (g + size + (pageSize - 1)) / pageSize * pageSize ∧
        phys ≤ p ∧ p + (lastTable c t a).getPageSize ≤ phys + reserved)) :
    StaysInside c.ppgtt.getNumLevels t s.nodes phys reserved g size pageSize := by
  have hn := getNumLevels_ge c.ppgtt
  refine ⟨?_, ?_⟩
  · intro a leaf' hleaf' hchanged
    by_cases hentered : Entered c t g (g + size) (slotFor c.ppgtt.getNumLevels (lastTable c t) a)
    · obtain ⟨v, h1, h2, start, hslot⟩ := hentered
      obtain ⟨_, hkind⟩ := region_of_slot wf₀ hslot
      obtain ⟨p, target⟩ := isTarget_exists (lastTable c t) phys (g := g) (a := v)
      obtain ⟨leaf, hleaf, hp, hbank⟩ := leafAt_entered wf run h1 h2 start target
      have hsame : leaf' = leaf := by
        rw [leafAt_after wf run, hslot, ← leafAt_after wf run, hleaf, Option.some.injEq] at hleaf'
        exact hleaf'.symm
      subst hsame
      rw [pageSizeAt_after run (by rw [hleaf']; simp), hkind, hp]
      rcases pages v p h1 h2 start target with ⟨old, hold, hp', hbank'⟩ | ⟨_, _, h3, h4⟩
      · rw [leafAt_before wf₀, ← hslot, ← leafAt_before wf₀] at hold
        rcases hchanged old hold with hne | hne
        · exact absurd (hp'.trans hp.symm) hne
        · exact absurd (hbank'.trans hbank.symm) hne
      · exact ⟨h3, h4⟩
    · rw [leafAt_unentered wf₀ wf run hentered] at hleaf'
      rcases hchanged leaf' hleaf' with hne | hne
      · exact absurd rfl hne
      · exact absurd rfl hne
  · intro b outside
    by_cases hentered : Entered c t g (g + size) (slotFor c.ppgtt.getNumLevels (lastTable c t) b)
    · obtain ⟨v, h1, h2, start, hslot⟩ := hentered
      obtain ⟨_, hkind⟩ := region_of_slot wf₀ hslot
      obtain ⟨p, target⟩ := isTarget_exists (lastTable c t) phys (g := g) (a := v)
      obtain ⟨leaf, hleaf, hp, hbank⟩ := leafAt_entered wf run h1 h2 start target
      rcases pages v p h1 h2 start target with ⟨old, hold, hp', hbank'⟩ | ⟨h3, h4, _⟩
      · rw [leafAt_after wf run, ← hslot, ← leafAt_after wf run] at hleaf
        rw [leafAt_before wf₀, ← hslot, ← leafAt_before wf₀] at hold
        simp only [translateVa, hleaf, hold, Option.map_some, hp, hp', hbank, hbank',
          pageSizeAt_after run (a := b) (by rw [hleaf]; simp),
          pageSizeAt_before (c := c) (t := t) (a := b) (by rw [hold]; simp)]
      · have hmod := Nat.mod_lt b (isRegion_lastTable wf₀ v).getPageSize_pos
        exact absurd (alias_of_slot wf₀ hslot.symm) (outside _ (by omega) (by omega))
    · have hsame := leafAt_unentered wf₀ wf run hentered
      unfold translateVa
      rw [hsame]
      cases hleaf : leafAt c.ppgtt.getNumLevels t b with
      | none => rfl
      | some leaf =>
        rw [pageSizeAt_after run (a := b) (by rw [hsame, hleaf]; simp),
          pageSizeAt_before (c := c) (t := t) (a := b) (by rw [hleaf]; simp)]

/-- A page that is not at its target beforehand, and leaves the rounded request, moves an address
outside of it. -/
theorem outside_moves {pageSize : Nat} (hpageSize : IsPageSize pageSize)
    (space : InSpace c.ppgtt.getNumLevels g size) (wf₀ : Wf c.ppgtt.getNumLevels t)
    {a : Nat} (h1 : g ≤ a) (h2 : a < g + size)
    (hout : ¬ (g / pageSize * pageSize ≤ pageBase (lastTable c t) a ∧
      pageBase (lastTable c t) a + (lastTable c t a).getPageSize ≤
        (g + size + (pageSize - 1)) / pageSize * pageSize)) :
    ∃ b, slotFor c.ppgtt.getNumLevels (lastTable c t) b =
        slotFor c.ppgtt.getNumLevels (lastTable c t) a ∧
      ∀ x, g / pageSize * pageSize ≤ x → x < (g + size + (pageSize - 1)) / pageSize * pageSize →
        x % addressSpace c.ppgtt.getNumLevels ≠ b % addressSpace c.ppgtt.getNumLevels := by
  have hn := getNumLevels_ge c.ppgtt
  have hk := pageKinds_lastTable wf₀
  have hregion := hk.region a
  have hpos := hregion.getPageSize_pos
  have hposS : 0 < pageSize := by rcases hpageSize with rfl | rfl | rfl <;> decide
  have hmod := Nat.mod_lt a hpos
  have hdvd := dvd_addressSpace hregion c.ppgtt.getNumLevels (by omega)
  have hdvdS := isPageSize_dvd hpageSize c.ppgtt
  unfold InSpace at space
  have hg := Nat.div_add_mod g (addressSpace c.ppgtt.getNumLevels)
  have hbase : pageBase (lastTable c t) a =
      a / (lastTable c t a).getPageSize * (lastTable c t a).getPageSize := by
    have := Nat.div_add_mod a (lastTable c t a).getPageSize
    unfold pageBase
    rw [Nat.mul_comm] at this
    omega
  have slotAt : ∀ d, d < (lastTable c t a).getPageSize →
      slotFor c.ppgtt.getNumLevels (lastTable c t) (pageBase (lastTable c t) a + d) =
        slotFor c.ppgtt.getNumLevels (lastTable c t) a := by
    intro d hd
    have hpage : a / (lastTable c t a).getPageSize =
        (pageBase (lastTable c t) a + d) / (lastTable c t a).getPageSize := by
      rw [hbase, Nat.mul_comm, Nat.mul_add_div hpos, Nat.div_eq_of_lt hd, Nat.add_zero]
    unfold slotFor
    rw [kinds_of_page hk hpage]
    exact (leafSlot_congr hregion hpage).symm
  generalize addressSpace c.ppgtt.getNumLevels = N at *
  generalize g / N = k at *
  obtain ⟨hlow, _⟩ := round_in_window (k := k) (x := g) hposS hdvdS (by omega) (by omega)
  obtain ⟨_, hhigh⟩ := round_in_window (k := k) (x := g + size) hposS hdvdS (by omega) (by omega)
  obtain ⟨hpageLow, _⟩ := round_in_window (k := k) (x := a) hpos hdvd (by omega) (by omega)
  obtain ⟨_, hpageHigh⟩ := round_in_window (k := k) (x := a + 1) hpos hdvd (by omega) (by omega)
  have hend : pageBase (lastTable c t) a + (lastTable c t a).getPageSize ≤ N * k + N := by
    refine Nat.le_trans ?_ hpageHigh
    have hsum : a + 1 + ((lastTable c t a).getPageSize - 1) = a + (lastTable c t a).getPageSize := by
      omega
    rw [hsum, Nat.add_div_right a hpos, Nat.succ_mul, hbase]
  rw [← hbase] at hpageLow
  rw [not_and_or] at hout
  rcases hout with hout | hout
  · refine ⟨pageBase (lastTable c t) a, by simpa using slotAt 0 hpos, fun x hx1 hx2 heq => ?_⟩
    have := window_eq (N := N) (k := k) (by omega) (by omega) hpageLow (by omega) heq
    omega
  · refine ⟨_, slotAt ((lastTable c t a).getPageSize - 1) (by omega), fun x hx1 hx2 heq => ?_⟩
    have := window_eq (N := N) (k := k) (by omega) (by omega) (by omega) (by omega) heq
    omega

omit [PhysicalAddressAllocator A] in
/-- The frame holds exactly under the condition. -/
theorem staysInside_iff {reserved pageSize : Nat} (wf₀ : Wf c.ppgtt.getNumLevels t)
    (wf : Wf c.ppgtt.getNumLevels s.nodes) (run : MapRun c t phys g (g + size) g' 0 s)
    (hpageSize : IsPageSize pageSize) (space : InSpace c.ppgtt.getNumLevels g size)
    (hreserved : reserved =
      (g + size + (pageSize - 1)) / pageSize * pageSize - g / pageSize * pageSize) :
    StaysInside c.ppgtt.getNumLevels t s.nodes phys reserved g size pageSize ↔
      MapCondition c.ppgtt.getNumLevels (lastTable c t) t phys c.allocationParams.memoryBanks
        reserved g size pageSize := by
  have hk := pageKinds_lastTable wf₀
  constructor
  · intro h
    right
    intro a p h1 h2 start target
    obtain ⟨leaf, hleaf, hp, hbank⟩ := leafAt_entered wf run h1 h2 start target
    by_cases hold : ∃ old, leafAt c.ppgtt.getNumLevels t a = some old ∧ old.physicalAddress = p ∧
        old.memoryBank = c.allocationParams.memoryBanks
    · exact Or.inl hold
    · right
      have hin := h.inside a leaf hleaf fun old hleafOld => by
        by_contra hsame
        rw [not_or, not_not, not_not] at hsame
        exact hold ⟨old, hleafOld, hsame.1.trans hp, hsame.2.trans hbank⟩
      rw [pageSizeAt_after run (by rw [hleaf]; simp), hp] at hin
      rw [← and_assoc]
      refine ⟨?_, hin⟩
      by_contra hout
      obtain ⟨b, hslot, hb⟩ := outside_moves hpageSize space wf₀ h1 h2 hout
      have hsame := h.others b hb
      have hafter : leafAt c.ppgtt.getNumLevels s.nodes b = some leaf := by
        rw [leafAt_after wf run, hslot, ← leafAt_after wf run, hleaf]
      have hbefore : leafAt c.ppgtt.getNumLevels t b = leafAt c.ppgtt.getNumLevels t a := by
        rw [leafAt_before wf₀, hslot, ← leafAt_before wf₀]
      unfold translateVa at hsame
      rw [hafter, hbefore, Option.map_some] at hsame
      cases hleafOld : leafAt c.ppgtt.getNumLevels t a with
      | none =>
        rw [hleafOld] at hsame
        cases hsame
      | some old =>
        rw [hleafOld, Option.map_some, Option.some.injEq, Prod.mk.injEq,
          pageSizeAt_after run (by rw [hafter]; simp),
          pageSizeAt_before (c := c) (t := t) (a := b) (by rw [hbefore, hleafOld]; simp)] at hsame
        exact hold ⟨old, hleafOld, (Nat.add_right_cancel hsame.1).symm.trans hp,
          hsame.2.symm.trans hbank⟩
  · rintro (⟨small, haligned, hwrap⟩ | pages)
    · exact staysInside_of_pages wf₀ wf run fun a p h1 h2 start target =>
        Or.inr (target_bounds hk hpageSize small haligned hwrap hreserved h1 h2 start target)
    · exact staysInside_of_pages wf₀ wf run pages

end

theorem sizePageAligned_eq {n g size pageSize : Nat} (hn : n ≤ 5) (hpageSize : IsPageSize pageSize)
    (space : InSpace n g size) : sizePageAligned g size pageSize =
      (g + size + (pageSize - 1)) / pageSize * pageSize - g / pageSize * pageSize := by
  have hspace : addressSpace n ≤ 2 ^ 57 := Nat.pow_le_pow_right (by decide) (by omega)
  unfold InSpace at space
  have hsmall : size ≤ 2 ^ 57 := by omega
  unfold sizePageAligned wrap64
  rcases hpageSize with rfl | rfl | rfl <;> simp only [pageSize4KB, pageSize64KB, pageSize2MB] <;>
    omega

theorem getSupportedPageSize_isPageSize (gpu : Gpu) (bank : Nat) {pageSize : Nat}
    (h : IsPageSize pageSize) : IsPageSize (getSupportedPageSize gpu bank pageSize) := by
  unfold getSupportedPageSize
  split
  · exact h
  · split
    · exact Or.inr (Or.inl rfl)
    · split
      · exact Or.inl rfl
      · exact Or.inr (Or.inl rfl)

theorem staysInside_layout {n : Nat} {t t' : Nodes} {phys reserved g size pageSize : Nat} :
    StaysInside n (layout t) (layout t') phys reserved g size pageSize ↔
      StaysInside n t t' phys reserved g size pageSize := by
  constructor
  · rintro ⟨h1, h2⟩
    refine ⟨fun a leaf' hleaf' hchanged => ?_, fun b hb => ?_⟩
    · have h := h1 a (core leaf') (by rw [leafAt_layout, hleaf']; rfl) fun leaf hleaf => by
        rw [leafAt_layout, Option.map_eq_some_iff] at hleaf
        obtain ⟨x, hx, rfl⟩ := hleaf
        exact hchanged x hx
      rw [pageSizeAt_layout] at h
      exact h
    · have h := h2 b hb
      rwa [translate_layout, translate_layout] at h
  · rintro ⟨h1, h2⟩
    refine ⟨fun a leaf' hleaf' hchanged => ?_, fun b hb => ?_⟩
    · rw [leafAt_layout, Option.map_eq_some_iff] at hleaf'
      obtain ⟨x, hx, rfl⟩ := hleaf'
      rw [pageSizeAt_layout]
      exact h1 a x hx fun leaf hleaf => hchanged (core leaf) (by rw [leafAt_layout, hleaf]; rfl)
    · rw [translate_layout, translate_layout]
      exact h2 b hb

theorem mapCondition_layout {n : Nat} {kinds : Nat → NodeKind} {t : Nodes}
    {phys bank reserved g size pageSize : Nat} :
    MapCondition n kinds (layout t) phys bank reserved g size pageSize ↔
      MapCondition n kinds t phys bank reserved g size pageSize := by
  have hleaf : ∀ a p, (∃ leaf, leafAt n (layout t) a = some leaf ∧ leaf.physicalAddress = p ∧
      leaf.memoryBank = bank) ↔ ∃ leaf, leafAt n t a = some leaf ∧ leaf.physicalAddress = p ∧
        leaf.memoryBank = bank := by
    intro a p
    rw [leafAt_layout]
    constructor
    · rintro ⟨leaf, h, hfacts⟩
      obtain ⟨x, hx, rfl⟩ := Option.map_eq_some_iff.mp h
      exact ⟨x, hx, hfacts⟩
    · rintro ⟨leaf, h, hfacts⟩
      exact ⟨core leaf, by rw [h]; rfl, hfacts⟩
  simp only [MapCondition, hleaf]

theorem lastTable_eq (c : WalkContext) (t : Nodes) :
    lastTable c t = pageKindAt c.ppgtt c.requestedPageSize t := by
  funext a
  unfold lastTable pageKindAt regionAt
  cases t (slotPath c.ppgtt.getNumLevels Pde a) <;> rfl

/-- A mapping of a reservation keeps its frame exactly under the condition. -/
theorem mapGpuVa_staysInside_iff (cfg : Config) (a : A) (bank : Nat) (s s' : PageTables A)
    (reached : Reach (step cfg) Any (newTables a bank) s) (params : AllocationParams)
    (hpageSize : IsPageSize params.pageSize)
    (space : InSpace cfg.ppgtt.getNumLevels params.gfxAddress params.size) (a₀ a₁ : A)
    (info : PhysicalAllocationInfo)
    (reserved : Reservations.reservePhysicalMemory cfg.gpu a₀ params = some (info, a₁))
    (address : info.physicalAddress < 2 ^ 64)
    (mapped : step cfg s (.map (mapParams params.gfxAddress params.size info)
      info.physicalAddress) = some s') :
    StaysInside cfg.ppgtt.getNumLevels s.nodes s'.nodes info.physicalAddress
        (sizePageAligned params.gfxAddress params.size info.pageSize) params.gfxAddress params.size
        info.pageSize ↔
      MapCondition cfg.ppgtt.getNumLevels
        (pageKindAt cfg.ppgtt (adjustPageSizeForHardwareSupport cfg.gpu info.pageSize
          info.memoryBank) s.nodes) s.nodes info.physicalAddress info.memoryBank
        (sizePageAligned params.gfxAddress params.size info.pageSize) params.gfxAddress params.size
        info.pageSize := by
  have wf := reach_wf reached
  have hinfo : info.pageSize = getSupportedPageSize cfg.gpu params.memoryBanks params.pageSize ∧
      0 < params.size := by
    simp only [Reservations.reservePhysicalMemory] at reserved
    split at reserved
    · cases reserved
    · split at reserved
      · cases reserved
      · split at reserved
        · cases reserved
        · rw [Option.some.injEq, Prod.mk.injEq] at reserved
          rw [← reserved.1]
          exact ⟨rfl, by omega⟩
  obtain ⟨hinfo, hpos⟩ := hinfo
  have hsize : IsPageSize info.pageSize := by
    rw [hinfo]
    exact getSupportedPageSize_isPageSize cfg.gpu params.memoryBanks hpageSize
  simp only [step, runWalk, Option.map_eq_some_iff] at mapped
  obtain ⟨w, hw, rfl⟩ := mapped
  rcases walkMemory_some hw with ⟨hzero, _⟩ | ⟨_, c, hc, hpages⟩
  · simp only [mapParams] at hzero
    omega
  · obtain ⟨_, hppgtt, hmode, hparams, _, hrequested, _⟩ := walkContext_some hc
    have hlevels : cfg.ppgtt.getNumLevels ≤ 5 := by cases cfg.ppgtt <;> decide
    have hreserved := sizePageAligned_eq hlevels hsize space
    rw [← hppgtt] at wf space ⊢
    obtain ⟨hwf, g', run⟩ := mapRun_walk wf hmode address
      (pagesOnce_of_inSpace (wf_layout.mpr wf) space) hpages
    have hiff := staysInside_iff (wf_layout.mpr wf) (wf_layout.mpr hwf) run hsize space hreserved
    rw [hparams] at hiff
    simp only [layoutOf, mapParams] at hiff
    rw [staysInside_layout, mapCondition_layout] at hiff
    rw [hiff]
    have hkinds : lastTable c (layout s.nodes) = pageKindAt c.ppgtt
        (adjustPageSizeForHardwareSupport cfg.gpu info.pageSize info.memoryBank) s.nodes := by
      rw [show adjustPageSizeForHardwareSupport cfg.gpu info.pageSize info.memoryBank =
        c.requestedPageSize from hrequested.symm, ← lastTable_eq]
      funext x
      exact lastTable_layout c s.nodes x
    rw [hkinds]

theorem regionAt_newTables {n : Nat} (hn : 4 ≤ n) (a : A) (bank x : Nat) :
    regionAt n (newTables a bank).nodes x = none := by
  have hne : slotPath n Pde x ≠ [] := FreePhases.slotPath_ne_nil x (by simp only [Pde]; omega)
  simp only [regionAt, newTables, if_neg hne]

def fourLevel : Config := ⟨plainGpu, false, .PML4⟩

/-- A reservation mapped into an empty table stays inside. -/
theorem mapGpuVa_staysInside_empty :
    ∃ info a₁ s', Reservations.reservePhysicalMemory plainGpu oneBank (request4KB 0x1000 0x2000) =
        some (info, a₁) ∧
      step fourLevel ⟨(newTables oneBank 1).nodes, a₁⟩
        (.map (mapParams 0x1000 0x2000 info) info.physicalAddress) = some s' ∧
      StaysInside 4 (newTables oneBank 1).nodes s'.nodes info.physicalAddress 0x2000 0x1000 0x2000
        info.pageSize := by
  have hrun : ((Reservations.reservePhysicalMemory plainGpu oneBank (request4KB 0x1000 0x2000)).bind
      fun r => (step fourLevel ⟨(newTables oneBank 1).nodes, r.2⟩
        (.map (mapParams 0x1000 0x2000 r.1) r.1.physicalAddress)).map fun _ => r.1) =
        some ⟨0x1000, 0x2000, 1, 0x1000⟩ := by
    decide +kernel
  obtain ⟨r, hr, hstep⟩ := Option.bind_eq_some_iff.mp hrun
  obtain ⟨s', hs', hinfo⟩ := Option.map_eq_some_iff.mp hstep
  obtain ⟨info, a₁⟩ := r
  refine ⟨info, a₁, s', hr, hs', ?_⟩
  have hreach : Reach (step fourLevel) Any (newTables oneBank 1)
      (⟨(newTables oneBank 1).nodes, a₁⟩ : PageTables PhysicalAddressAllocatorSimple) :=
    .step (o := .others a₁) .start trivial rfl
  simp only at hinfo
  subst hinfo
  have space : InSpace fourLevel.ppgtt.getNumLevels (request4KB 0x1000 0x2000).gfxAddress
      (request4KB 0x1000 0x2000).size := by
    unfold InSpace
    decide +kernel
  refine (mapGpuVa_staysInside_iff fourLevel oneBank 1 _ s' hreach (request4KB 0x1000 0x2000)
    (Or.inl rfl) space oneBank a₁ _ hr (by decide) hs').mpr (Or.inl ⟨?_, by decide, ?_⟩)
  · intro x _ _
    have hnone : regionAt fourLevel.ppgtt.getNumLevels
        (⟨(newTables oneBank 1).nodes, a₁⟩ : PageTables PhysicalAddressAllocatorSimple).nodes x =
          none :=
      regionAt_newTables (by decide) oneBank 1 x
    simp only [pageKindAt, hnone]
    decide +kernel
  · decide +kernel

/-- A 4KB reservation mapped over a 2MB page moves the whole page. -/
theorem not_mapGpuVa_staysInside :
    ¬ ∀ (s s' : PageTables PhysicalAddressAllocatorSimple) info a₁,
      Reach (step fourLevel) Any (newTables oneBank 1) s →
      Reservations.reservePhysicalMemory plainGpu s.allocator (request4KB 0x1000 0x1000) =
        some (info, a₁) →
      step fourLevel ⟨s.nodes, a₁⟩ (.map (mapParams 0x1000 0x1000 info) info.physicalAddress) =
        some s' →
      StaysInside 4 s.nodes s'.nodes info.physicalAddress 0x1000 0x1000 0x1000 info.pageSize := by
  intro hall
  have hrun : ((step fourLevel (newTables oneBank 1)
      (.walk { request4KB 0 0x1000 with pageSize := pageSize2MB } .Reserve [])).bind fun s =>
      (Reservations.reservePhysicalMemory plainGpu s.allocator (request4KB 0x1000 0x1000)).bind
        fun r => (step fourLevel ⟨s.nodes, r.2⟩
          (.map (mapParams 0x1000 0x1000 r.1) r.1.physicalAddress)).map fun s' =>
          (r.1.pageSize, translateVa 4 s.nodes 0, translateVa 4 s'.nodes 0)) =
        some (0x1000, some (0x200000, 1), some (0x400000, 1)) := by
    decide +kernel
  obtain ⟨s, hs, hrest⟩ := Option.bind_eq_some_iff.mp hrun
  obtain ⟨⟨info, a₁⟩, hr, hstep⟩ := Option.bind_eq_some_iff.mp hrest
  obtain ⟨s', hs', hfacts⟩ := Option.map_eq_some_iff.mp hstep
  simp only [Prod.mk.injEq] at hfacts
  obtain ⟨hpage, hbefore, hafter⟩ := hfacts
  have hsame := (hall s s' info a₁ (.step .start trivial hs) hr hs').others 0 (by
    intro x h1 h2
    rw [hpage] at h1 h2
    simp only [addressSpace]
    omega)
  rw [hbefore, hafter] at hsame
  cases hsame

end MapFrame
