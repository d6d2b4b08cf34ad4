import Mathlib.Data.List.Nodup
import Aubstream.EvenSplit
import Aubstream.PageWalker

/-!
# Shares of the banks

A walk over a range asks the bank helper at each page. Every bank gets its share
of the pages, except that a range of fewer pages than banks, starting inside a
page, may ask for two pages in the same colour.
-/

namespace BankColours
open EntryBits MemoryBanks PageNodes PageWalker EvenSplit

/-- The banks of a mask below bit 31, lowest first. -/
def banksOf (memoryBanks : Nat) : List Nat :=
  ((List.range 31).filter memoryBanks.testBit).map (2 ^ ·)

/-- Pages of a range that is rounded to pages. -/
def pagesOf (pageSize gfxAddress size : Nat) : Nat :=
  (gfxAddress % pageSize + size + (pageSize - 1)) / pageSize

/-- The addresses that a walk asks about: where the range starts, and the start of every later
page. -/
def queryAddresses (pageSize : Nat) : Nat → Nat → Nat → List Nat
  | 0, _, _ => []
  | fuel + 1, gfxAddress, size =>
    if size = 0 then []
    else
      let sizeThisIteration := min size (pageSize - gfxAddress % pageSize)
      gfxAddress :: queryAddresses pageSize fuel (gfxAddress + sizeThisIteration)
        (size - sizeThisIteration)

/-- The bank of every page of a walk. -/
def queriedBanks (c : WalkContext) : List Nat :=
  (queryAddresses c.requestedPageSize c.allocationParams.size c.allocationParams.gfxAddress
    c.allocationParams.size).map c.bankHelper.getMemoryBank

/-- The banks of a mask share a number of pages. -/
structure Balanced (memoryBanks pages : Nat) (helper : MemoryBankHelper) (banks : List Nat) :
    Prop where
  length : banks.length = pages
  sorted : banks.Pairwise (· ≤ ·)
  member : ∀ b ∈ banks, b ∈ banksOf memoryBanks
  share : ∀ b ∈ banksOf memoryBanks, banks.count b = pages / (banksOf memoryBanks).length ∨
    banks.count b = (pages + ((banksOf memoryBanks).length - 1)) / (banksOf memoryBanks).length
  divides : 2 ≤ (banksOf memoryBanks).length → helper.colorSize ≠ 0

theorem banksOf_sorted (memoryBanks : Nat) : (banksOf memoryBanks).Pairwise (· < ·) := by
  unfold banksOf
  rw [List.pairwise_map]
  apply List.Pairwise.imp _ (List.Pairwise.filter _ List.pairwise_lt_range)
  intro i j h
  exact Nat.pow_lt_pow_right (by decide) h

theorem singleBanks_of_new? {memoryBanks initialGfxAddress size : Nat} {h : MemoryBankHelper}
    (done : MemoryBankHelper.new? memoryBanks initialGfxAddress size = some h) :
    h = ⟨initialGfxAddress, if (banksOf memoryBanks).length = 0 then 1
      else size / (banksOf memoryBanks).length, banksOf memoryBanks⟩ := by
  have hbanks := MemoryBankHelper.lt_of_new? done
  obtain ⟨banks, hloop, rfl⟩ := Option.map_eq_some_iff.mp done
  have hall := @singleBanksFrom_eq memoryBanks hbanks 33 0 banks (by decide) hloop
  rw [hall, ← List.range_eq_range']
  rfl

theorem banksOf_ne_nil {memoryBanks : Nat} (hbanks : memoryBanks < 2 ^ 31) (hne : memoryBanks ≠ 0) :
    banksOf memoryBanks ≠ [] := by
  obtain ⟨k, hk⟩ := Nat.exists_testBit_of_ne_zero hne
  have hlt : k < 31 := lt_of_testBit hbanks hk
  apply List.ne_nil_of_mem (a := 2 ^ k)
  apply List.mem_map_of_mem
  exact List.mem_filter.mpr ⟨List.mem_range.mpr hlt, hk⟩

/-- A walk asks once for each page. -/
theorem queryAddresses_eq {pageSize : Nat} (pos : 0 < pageSize) {fuel gfxAddress size : Nat}
    (enough : size ≤ fuel) :
    queryAddresses pageSize fuel gfxAddress size =
      if size = 0 then []
      else (List.range (pagesOf pageSize gfxAddress size)).map fun i =>
        if i = 0 then gfxAddress else gfxAddress - gfxAddress % pageSize + i * pageSize := by
  induction fuel generalizing gfxAddress size with
  | zero =>
    obtain rfl := Nat.le_zero.mp enough
    rfl
  | succ fuel ih =>
    have hmod := Nat.mod_lt gfxAddress pos
    unfold queryAddresses
    by_cases hz : size = 0
    · rw [if_pos hz, if_pos hz]
    · rw [if_neg hz, if_neg hz]
      simp only
      rw [ih (by omega)]
      by_cases hlast : size ≤ pageSize - gfxAddress % pageSize
      · have hone : pagesOf pageSize gfxAddress size = 1 := by
          unfold pagesOf
          apply Nat.div_eq_of_lt_le <;> omega
        rw [Nat.min_eq_left hlast, Nat.sub_self, if_pos rfl, hone]
        rfl
      · rw [Nat.min_eq_right (by omega), if_neg (by omega)]
        have hstart : (gfxAddress + (pageSize - gfxAddress % pageSize)) % pageSize = 0 := by
          have hround := Nat.div_add_mod gfxAddress pageSize
          rw [show gfxAddress + (pageSize - gfxAddress % pageSize) =
            pageSize * (gfxAddress / pageSize) + pageSize by omega, ← Nat.mul_succ]
          exact Nat.mul_mod_right _ _
        have hpages : pagesOf pageSize gfxAddress size =
            pagesOf pageSize (gfxAddress + (pageSize - gfxAddress % pageSize))
              (size - (pageSize - gfxAddress % pageSize)) + 1 := by
          unfold pagesOf
          rw [hstart, ← Nat.add_div_right _ pos]
          congr 1
          omega
        rw [hpages, List.range_succ_eq_map, List.map_cons, List.map_map, if_pos rfl]
        congr 1
        apply List.map_congr_left
        intro i _
        have hle := Nat.mod_le gfxAddress pageSize
        simp only [Function.comp_apply, Nat.succ_eq_add_one, hstart, if_neg (Nat.succ_ne_zero i),
          Nat.succ_mul]
        split
        · rename_i hi
          rw [hi]
          omega
        · omega

section Colours
variable {banks cs : List Nat} {k : Nat}

/-- Where `banks` has distinct entries in order, a list of positions is what its banks are. -/
theorem map_getD_sorted_iff (increasing : banks.Pairwise (· < ·)) (inside : ∀ t ∈ cs, t < banks.length) :
    (cs.map fun t => banks.getD t 0).Pairwise (· ≤ ·) ↔ cs.Pairwise (· ≤ ·) := by
  rw [List.pairwise_map]
  apply List.Pairwise.iff_of_mem
  intro s t hs ht
  have hs := inside s hs
  have ht := inside t ht
  rw [List.getD_eq_getElem _ _ hs, List.getD_eq_getElem _ _ ht]
  have hlt := List.pairwise_iff_getElem.mp increasing
  constructor
  · intro hle
    by_contra hgt
    have := hlt t s ht hs (by omega)
    omega
  · intro hle
    rcases Nat.lt_or_eq_of_le hle with h | rfl
    · exact Nat.le_of_lt (hlt s t hs ht h)
    · exact Nat.le_refl _

theorem count_map_getD (increasing : banks.Pairwise (· < ·)) (inside : ∀ t ∈ cs, t < banks.length)
    {t : Nat} (ht : t < banks.length) :
    (cs.map fun t => banks.getD t 0).count banks[t] = cs.count t := by
  have hnodup : banks.Nodup := increasing.imp Nat.ne_of_lt
  unfold List.count
  rw [List.countP_map]
  apply List.countP_congr
  intro s hs
  have hs := inside s hs
  simp only [Function.comp_apply, List.getD_eq_getElem _ _ hs, beq_iff_eq]
  exact List.Nodup.getElem_inj_iff hnodup

end Colours

/-- What an even colouring comes to for the colours of the pages. -/
def EvenShares (banks pages : Nat) (cs : List Nat) : Prop :=
  cs.length = pages ∧ cs.Pairwise (· ≤ ·) ∧
    ∀ t, t < banks → cs.count t = pages / banks ∨ cs.count t = (pages + (banks - 1)) / banks

/-- A list of colours has its shares where the banks have theirs. -/
theorem balanced_iff {memoryBanks pages : Nat} {helper : MemoryBankHelper} {cs : List Nat}
    (inside : ∀ t ∈ cs, t < (banksOf memoryBanks).length) :
    Balanced memoryBanks pages helper (cs.map fun t => (banksOf memoryBanks).getD t 0) ↔
      EvenShares (banksOf memoryBanks).length pages cs ∧
        (2 ≤ (banksOf memoryBanks).length → helper.colorSize ≠ 0) := by
  have increasing := banksOf_sorted memoryBanks
  constructor
  · intro h
    refine ⟨⟨?_, (map_getD_sorted_iff increasing inside).mp h.sorted, ?_⟩, h.divides⟩
    · rw [← h.length, List.length_map]
    · intro t ht
      rw [← count_map_getD increasing inside ht]
      exact h.share _ (List.getElem_mem ht)
  · rintro ⟨⟨hlength, hsorted, hshare⟩, hdivides⟩
    constructor
    · rw [List.length_map, hlength]
    · exact (map_getD_sorted_iff increasing inside).mpr hsorted
    · intro b hb
      obtain ⟨t, ht, rfl⟩ := List.mem_map.mp hb
      rw [List.getD_eq_getElem _ _ (inside t ht)]
      exact List.getElem_mem _
    · intro b hb
      obtain ⟨t, ht, rfl⟩ := List.mem_iff_getElem.mp hb
      rw [count_map_getD increasing inside ht]
      exact hshare t ht
    · exact hdivides

/-- The page sizes that the walk can mask addresses with, from 4KB on. -/
def IsPageSize (pageSize : Nat) : Prop := ∃ p, 12 ≤ p ∧ p < 64 ∧ pageSize = 2 ^ p

theorem IsPageSize.adjust {gpu : Gpu} {pageSize memoryBanks : Nat} (h : IsPageSize pageSize) :
    IsPageSize (adjustPageSizeForHardwareSupport gpu pageSize memoryBanks) := by
  unfold adjustPageSizeForHardwareSupport
  split
  · exact ⟨16, by decide, by decide, rfl⟩
  · exact h

/-- Between its bytes and its banks a range is coloured evenly. -/
def ColoursEvenly (banks pageSize gfxAddress size : Nat) : Prop :=
  let pages := pagesOf pageSize gfxAddress size
  let colourSize := pages * pageSize / banks
  banks = 1 ∨ pages * pageSize < 2 ^ 64 ∧ (banks ≤ pages ∨ pages = 1 ∨
    gfxAddress % pageSize / colourSize < pageSize / colourSize)

/-- Distance of a query from the start of the rounded range. -/
def queryOffset (pageSize gfxAddress i : Nat) : Nat :=
  if i = 0 then gfxAddress % pageSize else i * pageSize

/-- The colour of a query, as the helper computes it. -/
def colourOf (banks colourSize pageSize gfxAddress i : Nat) : Nat :=
  wrap64 (queryOffset pageSize gfxAddress i) / colourSize % banks

theorem getMemoryBank_eq {h : MemoryBankHelper} (some : h.singleBanks ≠ []) (gfxAddress : Nat) :
    h.getMemoryBank gfxAddress = h.singleBanks.getD
      (wrap64 (gfxAddress + (2 ^ 64 - h.initialGfxAddress)) / h.colorSize % h.singleBanks.length)
      0 := by
  unfold MemoryBankHelper.getMemoryBank
  match h.singleBanks, some with
  | [bank], _ =>
    rw [List.length_singleton, Nat.mod_one]
    rfl
  | first :: second :: rest, _ => rfl

section Shares
variable {banks pages size : Nat} {cs : List Nat}

/-- Each page in the part it starts in. -/
theorem evenShares_part (parts : 0 < banks) (small : banks ≤ size) (pos : 0 < pages)
    (hcs : cs = (List.range pages).map (part pages size banks)) : EvenShares banks pages cs := by
  subst hcs
  refine ⟨by rw [List.length_map, List.length_range], ?_, ?_⟩
  · rw [List.pairwise_map]
    exact List.pairwise_lt_range.imp fun h => part_mono (Nat.le_of_lt h)
  · intro t ht
    have hcount : ((List.range pages).map (part pages size banks)).count t =
        (List.range pages).countP fun i => decide (part pages size banks i = t) := by
      unfold List.count
      rw [List.countP_map]
      rfl
    rw [hcount]
    obtain ⟨hge, hle⟩ := count_part parts small pos ht
    have hceil := @ceil_eq pages banks parts
    generalize (List.range pages).countP (fun i => decide (part pages size banks i = t)) = count
      at hge hle ⊢
    generalize pages / banks = least at hge hceil ⊢
    generalize (pages + (banks - 1)) / banks = most at hle hceil ⊢
    omega

/-- No more pages than banks, and no colour twice. -/
theorem evenShares_distinct (hlength : cs.length = pages) (few : pages < banks) (pos : 0 < pages)
    (increasing : cs.Pairwise (· < ·)) : EvenShares banks pages cs := by
  refine ⟨hlength, increasing.imp Nat.le_of_lt, ?_⟩
  intro t _
  have hnodup : cs.Nodup := increasing.imp Nat.ne_of_lt
  have hone := List.nodup_iff_count_le_one.mp hnodup t
  have hmost : (pages + (banks - 1)) / banks = 1 := by
    apply Nat.div_eq_of_lt_le <;> omega
  rw [Nat.div_eq_of_lt few, hmost]
  omega

/-- With fewer pages than banks a colour is used once. -/
theorem not_evenShares_twice (few : pages < banks) {t : Nat} (ht : t < banks)
    {rest : List Nat} (hcs : cs = t :: t :: rest) : ¬ EvenShares banks pages cs := by
  rintro ⟨hlength, _, hshare⟩
  have hpages : 2 ≤ pages := by
    rw [← hlength, hcs]
    simp
  have hmost : (pages + (banks - 1)) / banks = 1 := by
    apply Nat.div_eq_of_lt_le <;> omega
  have htwo : 2 ≤ cs.count t := by
    rw [hcs, List.count_cons_self, List.count_cons_self]
    omega
  have htimes := hshare t ht
  rw [Nat.div_eq_of_lt few, hmost] at htimes
  omega

end Shares

/-- The colours of all queries of a range. -/
def colours (banks pageSize gfxAddress size : Nat) : List Nat :=
  let pages := pagesOf pageSize gfxAddress size
  (List.range pages).map
    (colourOf banks (wrap64 (pages * pageSize) / banks) pageSize gfxAddress)

section Range
variable {banks pageSize gfxAddress size : Nat}

theorem pagesOf_pos (pos : 0 < pageSize) (hsize : 0 < size) :
    0 < pagesOf pageSize gfxAddress size := by
  unfold pagesOf
  apply Nat.div_pos _ pos
  omega

/-- A colour in a range that is shorter than the address space. -/
theorem colourOf_eq {pages : Nat} (space : pages * pageSize < 2 ^ 64) (parts : 0 < banks)
    (small : banks ≤ pageSize) {i : Nat} (hi : i < pages) (later : 0 < i) :
    colourOf banks (wrap64 (pages * pageSize) / banks) pageSize gfxAddress i =
      part pages pageSize banks i := by
  have hlt := part_lt parts small hi
  have hmul : i * pageSize ≤ pages * pageSize := Nat.mul_le_mul_right _ (Nat.le_of_lt hi)
  unfold colourOf queryOffset wrap64
  rw [if_neg (by omega), Nat.mod_eq_of_lt space, Nat.mod_eq_of_lt (a := i * pageSize) (by omega)]
  exact Nat.mod_eq_of_lt hlt

/-- The first colour is no later than that of the second page. -/
theorem colourOf_zero {pages : Nat} (space : pages * pageSize < 2 ^ 64) (parts : 0 < banks)
    (small : banks ≤ pageSize) (two : 1 < pages) :
    colourOf banks (wrap64 (pages * pageSize) / banks) pageSize gfxAddress 0 =
        gfxAddress % pageSize / (pages * pageSize / banks) ∧
      gfxAddress % pageSize / (pages * pageSize / banks) ≤
        pageSize / (pages * pageSize / banks) := by
  have hmod := Nat.mod_lt gfxAddress (Nat.lt_of_lt_of_le parts small)
  have hmul : 1 * pageSize ≤ pages * pageSize := Nat.mul_le_mul_right _ (Nat.le_of_lt two)
  have hle : gfxAddress % pageSize / (pages * pageSize / banks) ≤
      pageSize / (pages * pageSize / banks) := Nat.div_le_div_right (Nat.le_of_lt hmod)
  have hlt := part_lt parts small two
  unfold part partSize at hlt
  rw [Nat.one_mul] at hlt hmul
  unfold colourOf queryOffset wrap64
  rw [if_pos rfl, Nat.mod_eq_of_lt space, Nat.mod_eq_of_lt (a := gfxAddress % pageSize) (by omega)]
  exact ⟨Nat.mod_eq_of_lt (Nat.lt_of_le_of_lt hle hlt), hle⟩

/-- Several banks, and a range that is shorter than the address space. -/
theorem evenShares_short (several : 2 ≤ banks) (small : banks ≤ pageSize) (hsize : 0 < size)
    (space : pagesOf pageSize gfxAddress size * pageSize < 2 ^ 64) :
    EvenShares banks (pagesOf pageSize gfxAddress size) (colours banks pageSize gfxAddress size) ↔
      banks ≤ pagesOf pageSize gfxAddress size ∨ pagesOf pageSize gfxAddress size = 1 ∨
        gfxAddress % pageSize / (pagesOf pageSize gfxAddress size * pageSize / banks) <
          pageSize / (pagesOf pageSize gfxAddress size * pageSize / banks) := by
  have parts : 0 < banks := by omega
  have pos := @pagesOf_pos pageSize gfxAddress size (by omega) hsize
  have hmod := Nat.mod_lt gfxAddress (Nat.lt_of_lt_of_le parts small)
  unfold colours
  simp only
  generalize pagesOf pageSize gfxAddress size = pages at pos space ⊢
  have hlater := fun i => @colourOf_eq banks pageSize gfxAddress pages space parts small i
  by_cases hone : pages = 1
  · subst hone
    refine iff_of_true ?_ (Or.inr (Or.inl rfl))
    exact evenShares_distinct rfl (by omega) Nat.one_pos (List.pairwise_singleton _ _)
  · obtain ⟨hzero, hle⟩ := @colourOf_zero banks pageSize gfxAddress pages space parts small
      (by omega)
    by_cases hmany : banks ≤ pages
    · refine iff_of_true ?_ (Or.inl hmany)
      -- a colour is at least a page long, so the first query has the first colour
      have hlong : pageSize ≤ pages * pageSize / banks := by
        apply (Nat.le_div_iff_mul_le parts).mpr
        rw [Nat.mul_comm]
        exact Nat.mul_le_mul_right _ hmany
      apply evenShares_part parts small pos
      apply List.map_congr_left
      intro i hi
      rcases Nat.eq_zero_or_pos i with rfl | later
      · rw [hzero, part, Nat.zero_mul, Nat.zero_div]
        exact Nat.div_eq_of_lt (Nat.lt_of_lt_of_le hmod hlong)
      · exact hlater i (List.mem_range.mp hi) later
    · have few : pages < banks := by omega
      have hshort : partSize pages pageSize banks ≤ pageSize := by
        apply Nat.div_le_of_le_mul
        exact Nat.mul_le_mul_right _ (Nat.le_of_lt few)
      have hpart := @part_succ_lt pages pageSize banks (partSize_pos pos parts small) hshort
      have hsecond : part pages pageSize banks 1 = pageSize / (pages * pageSize / banks) := by
        rw [part, partSize, Nat.one_mul]
      by_cases hapart : gfxAddress % pageSize / (pages * pageSize / banks) <
          pageSize / (pages * pageSize / banks)
      · refine iff_of_true ?_ (Or.inr (Or.inr hapart))
        apply evenShares_distinct (by rw [List.length_map, List.length_range]) few pos
        rw [List.pairwise_map]
        apply List.Pairwise.imp_of_mem _ List.pairwise_lt_range
        intro i j _ hj hij
        rw [hlater j (List.mem_range.mp hj) (by omega)]
        rcases Nat.eq_zero_or_pos i with rfl | later
        · rw [hzero]
          refine Nat.lt_of_lt_of_le hapart ?_
          rw [← hsecond]
          exact part_mono hij
        · rw [hlater i (by have := List.mem_range.mp hj; omega) later]
          exact Nat.lt_of_lt_of_le (hpart i) (part_mono hij)
      · refine iff_of_false ?_ (by omega)
        obtain ⟨rest, rfl⟩ : ∃ rest, pages = rest + 2 := ⟨pages - 2, by omega⟩
        have hlt := @part_lt (rest + 2) pageSize banks parts small 1 (by omega)
        apply not_evenShares_twice few (t := part (rest + 2) pageSize banks 1) hlt
        rw [List.range_succ_eq_map, List.range_succ_eq_map, List.map_cons, List.map_cons,
          List.map_cons, hzero, hlater _ (by omega) (by omega)]
        rw [show gfxAddress % pageSize / ((rest + 2) * pageSize / banks) =
          part (rest + 2) pageSize banks 1 by omega]

/-- A rounded range as long as the address space, or one page longer: the helper is given the
length of nothing, or of one page. -/
theorem not_evenShares_long (hpage : IsPageSize pageSize) (several : 2 ≤ banks)
    (hsize : size < 2 ^ 64) (long : 2 ^ 64 ≤ pagesOf pageSize gfxAddress size * pageSize) :
    ¬ (EvenShares banks (pagesOf pageSize gfxAddress size)
        (colours banks pageSize gfxAddress size) ∧
      wrap64 (pagesOf pageSize gfxAddress size * pageSize) / banks ≠ 0) := by
  obtain ⟨p, hp, hp64, rfl⟩ := hpage
  have hpos := Nat.two_pow_pos p
  have hmod := Nat.mod_lt gfxAddress hpos
  have hspace : 2 ^ 64 = 2 ^ (64 - p) * 2 ^ p := by
    rw [← Nat.pow_add, Nat.sub_add_cancel (Nat.le_of_lt hp64)]
  have htwo : 2 ≤ 2 ^ (64 - p) := by
    have hle := Nat.pow_le_pow_right (show 0 < 2 by decide) (show 1 ≤ 64 - p by omega)
    omega
  have hpages : pagesOf (2 ^ p) gfxAddress size = 2 ^ (64 - p) ∨
      pagesOf (2 ^ p) gfxAddress size = 2 ^ (64 - p) + 1 := by
    have hle : pagesOf (2 ^ p) gfxAddress size * 2 ^ p ≤
        gfxAddress % 2 ^ p + size + (2 ^ p - 1) := Nat.div_mul_le_self _ _
    have hupper : pagesOf (2 ^ p) gfxAddress size < 2 ^ (64 - p) + 2 := by
      apply Nat.lt_of_mul_lt_mul_right (a := 2 ^ p)
      rw [Nat.add_mul, ← hspace]
      omega
    have hlower : 2 ^ (64 - p) ≤ pagesOf (2 ^ p) gfxAddress size := by
      apply Nat.le_of_mul_le_mul_right (c := 2 ^ p) _ hpos
      rw [← hspace]
      exact long
    omega
  rintro ⟨⟨hlength, hsorted, hshare⟩, hcolour⟩
  rcases hpages with hexact | hmore
  · apply hcolour
    rw [hexact, ← hspace]
    exact Nat.zero_div banks
  · -- the last page starts where the addresses come round to the first
    have hbehind : 2 ^ (64 - p) < (colours banks (2 ^ p) gfxAddress size).length := by omega
    have hlast : (colours banks (2 ^ p) gfxAddress size)[2 ^ (64 - p)] = 0 := by
      simp only [colours, List.getElem_map, List.getElem_range]
      unfold colourOf queryOffset
      rw [if_neg (by omega), ← hspace]
      simp [wrap64]
    have hall : ∀ t ∈ colours banks (2 ^ p) gfxAddress size, t = 0 := by
      intro t ht
      obtain ⟨i, hi, rfl⟩ := List.mem_iff_getElem.mp ht
      have hle := List.pairwise_iff_getElem.mp hsorted i (2 ^ (64 - p)) hi (by omega)
      by_cases hlt : i < 2 ^ (64 - p)
      · exact Nat.le_zero.mp (hlast ▸ hle hlt)
      · have hend : i = 2 ^ (64 - p) := by omega
        subst hend
        exact hlast
    have hcount : (colours banks (2 ^ p) gfxAddress size).count 0 = 2 ^ (64 - p) + 1 := by
      rw [← hmore, ← hlength]
      exact List.count_eq_length.mpr fun t ht => (hall t ht).symm
    have hhalf := @Nat.div_le_div_left 2 banks (2 ^ (64 - p) + 1) several (by decide)
    have hceil := @ceil_eq (2 ^ (64 - p) + 1) banks (by omega)
    have htimes := hshare 0 (by omega)
    rw [hcount, hmore] at htimes
    generalize (2 ^ (64 - p) + 1) / banks = least at hhalf hceil htimes
    generalize (2 ^ (64 - p) + 1 + (banks - 1)) / banks = most at hceil htimes
    omega

end Range

theorem rounded_eq {pageSize : Nat} (pos : 0 < pageSize) (gfxAddress size : Nat) :
    gfxAddress + size + pageSize - 1 - (gfxAddress + size + pageSize - 1) % pageSize -
      (gfxAddress - gfxAddress % pageSize) = pagesOf pageSize gfxAddress size * pageSize := by
  have hstart := Nat.div_add_mod gfxAddress pageSize
  have hend := Nat.div_add_mod (gfxAddress + size + pageSize - 1) pageSize
  have hpages : (gfxAddress + size + pageSize - 1) / pageSize =
      gfxAddress / pageSize + pagesOf pageSize gfxAddress size := by
    unfold pagesOf
    rw [← Nat.mul_add_div pos]
    congr 1
    omega
  rw [hpages, Nat.mul_add, Nat.mul_comm pageSize (pagesOf _ _ _)] at hend
  omega

/-- The colours that a walk's helper gives. -/
theorem queriedBanks_eq {gpu : Gpu} {enablePs64 : Bool} {ppgtt : PpgttKind}
    {params : AllocationParams} {mode : WalkMode} {pageInfos : List PageInfo} {c : WalkContext}
    (hc : walkContext gpu enablePs64 ppgtt params mode pageInfos = some c)
    (hne : params.memoryBanks ≠ 0) (hsize : 0 < params.size) (hgfx : params.gfxAddress < 2 ^ 64)
    (hpos : 0 < c.requestedPageSize) :
    queriedBanks c = (colours (banksOf params.memoryBanks).length c.requestedPageSize
        params.gfxAddress params.size).map (fun t => (banksOf params.memoryBanks).getD t 0) ∧
      c.bankHelper.colorSize = wrap64 (pagesOf c.requestedPageSize params.gfxAddress params.size *
        c.requestedPageSize) / (banksOf params.memoryBanks).length := by
  obtain ⟨helper, hhelper, rfl⟩ := Option.map_eq_some_iff.mp hc
  have hbanks := banksOf_ne_nil (MemoryBankHelper.lt_of_new? hhelper) hne
  have hlength : (banksOf params.memoryBanks).length ≠ 0 := by
    simpa using hbanks
  simp only at hpos
  generalize adjustPageSizeForHardwareSupport gpu params.pageSize params.memoryBanks = pageSize
    at hhelper hpos
  rw [rounded_eq hpos] at hhelper
  obtain rfl := singleBanks_of_new? hhelper
  refine ⟨?_, if_neg hlength⟩
  unfold queriedBanks colours
  simp only
  rw [queryAddresses_eq hpos (Nat.le_refl _), if_neg (Nat.ne_of_gt hsize), List.map_map,
    List.map_map]
  apply List.map_congr_left
  intro i _
  have hmod := Nat.mod_le params.gfxAddress pageSize
  have hoffset : wrap64 ((if i = 0 then params.gfxAddress
        else params.gfxAddress - params.gfxAddress % pageSize + i * pageSize) +
          (2 ^ 64 - (params.gfxAddress - params.gfxAddress % pageSize))) =
      wrap64 (queryOffset pageSize params.gfxAddress i) := by
    unfold queryOffset wrap64
    split
    · rw [show params.gfxAddress + (2 ^ 64 - (params.gfxAddress - params.gfxAddress % pageSize)) =
        params.gfxAddress % pageSize + 2 ^ 64 by omega, Nat.add_mod_right]
    · rw [show params.gfxAddress - params.gfxAddress % pageSize + i * pageSize +
        (2 ^ 64 - (params.gfxAddress - params.gfxAddress % pageSize)) = i * pageSize + 2 ^ 64 by
          omega, Nat.add_mod_right]
  simp only [Function.comp_apply]
  rw [getMemoryBank_eq hbanks, colourOf, ← hoffset]
  simp only [if_neg hlength]

end BankColours
