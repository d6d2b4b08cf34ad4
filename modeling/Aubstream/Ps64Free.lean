import Aubstream.Ps64Walk

/-!
# PS64 groups through a free

A free takes the pages of a group from the bottom up. Until its last page is
gone, or the part above is cleared, the group is open; no other group is.
-/

namespace Ps64Free
open EntryBits PathTree PhysicalAllocator PageNodes PageWalker FreeMemory TreeShape WalkPhases
  LeafStep Placement FreePhases Ps64Flags Ps64Walk

variable {A : Type} [PhysicalAddressAllocator A]

/-- A free has cleared the group of `g` below it, and the slots from `g` up are still marked. -/
structure Suffix (n g : Nat) (t : Nodes) (p : Path) (b : Nat) : Prop where
  table : p = slotPath n Pde g
  base : b = hwBaseOf g
  inside : PteKind.PTE4KB.getIndex g % 16 ≠ 0
  below : ∀ j, b ≤ j → j < PteKind.PTE4KB.getIndex g → flag t (j :: p) = false
  above : ∀ j, PteKind.PTE4KB.getIndex g ≤ j → j < b + 16 → flag t (j :: p) = true

/-- Between two rounds of a free: only the group of the next page may be open. -/
structure FreeInv (c : FreeContext) (g size : Nat) (s : FreeState A) : Prop where
  ends : c.endAddress = g + size
  tables : MarksIn4KB s.nodes
  groups : ∀ p b, 16 ∣ b → Settled c.gpu s.nodes p b ∨
    (0 < size ∧ Suffix c.ppgtt.getNumLevels g s.nodes p b)
  below : size = 0 ∨ g = c.startAddress ∨ ∀ j, hwBaseOf g ≤ j → j < PteKind.PTE4KB.getIndex g →
    flag s.nodes (j :: slotPath c.ppgtt.getNumLevels Pde g) = false

theorem group_index {t : Nodes} {p : Path} {b j : Nat} (f : ∀ i, i < 16 → flag t ((b + i) :: p) = true)
    (h1 : b ≤ j) (h2 : j < b + 16) : flag t (j :: p) = true := by
  have h := f (j - b) (by omega)
  rwa [show b + (j - b) = j by omega] at h

omit [PhysicalAddressAllocator A] in
/-- The group of a freed page: afterwards it is unmarked, or open at the next page. -/
theorem freedGroup {c : FreeContext} {g size : Nat} {s : FreeState A} (inv : FreeInv c g size s)
    (hsize : 0 < size) {t : Nodes}
    (hflag : ∀ j, flag t (j :: slotPath c.ppgtt.getNumLevels Pde g) =
      if j = PteKind.PTE4KB.getIndex g then false
      else if flag s.nodes (PteKind.PTE4KB.getIndex g :: slotPath c.ppgtt.getNumLevels Pde g) = true ∧
        j :: slotPath c.ppgtt.getNumLevels Pde g ∈
          brokenSlots c (slotPath c.ppgtt.getNumLevels Pde g) (PteKind.PTE4KB.getIndex g) g size
        then false
      else flag s.nodes (j :: slotPath c.ppgtt.getNumLevels Pde g)) :
    (∀ j, hwBaseOf g ≤ j → j ≤ PteKind.PTE4KB.getIndex g →
      flag t (j :: slotPath c.ppgtt.getNumLevels Pde g) = false) ∧
    (GroupUnmarked t (slotPath c.ppgtt.getNumLevels Pde g) (hwBaseOf g) ∨
      (4096 < size ∧ PteKind.PTE4KB.getIndex g % 16 < 15 ∧
        ∀ j, PteKind.PTE4KB.getIndex g < j → j < hwBaseOf g + 16 →
          flag t (j :: slotPath c.ppgtt.getNumLevels Pde g) = true)) := by
  have hidx : PteKind.PTE4KB.getIndex g = g / 2 ^ 12 % 512 := rfl
  have hbase : hwBaseOf g = PteKind.PTE4KB.getIndex g - PteKind.PTE4KB.getIndex g % 16 := rfl
  generalize hslot : slotPath c.ppgtt.getNumLevels Pde g = slot at hflag
  generalize hi : PteKind.PTE4KB.getIndex g = index at hflag hidx hbase
  generalize hb : hwBaseOf g = base at hbase
  have hgroups := inv.groups slot base (by omega)
  by_cases hmark : flag s.nodes (index :: slot) = true
  · have hothers : ∀ j, index < j → j < base + 16 → flag s.nodes (j :: slot) = true := by
      intro j h1 h2
      rcases hgroups with (h | ⟨_, h⟩) | ⟨_, h⟩
      · have hfalse := h (index - base) (by omega)
        rw [show base + (index - base) = index by omega, hmark] at hfalse
        cases hfalse
      · exact group_index h (by omega) h2
      · exact h.above j (by omega) h2
    have hbelow : ∀ j, base ≤ j → j < index → flag t (j :: slot) = false := by
      intro j h1 h2
      rw [hflag, if_neg (by omega)]
      split
      · rfl
      · rename_i hbroken
        by_contra hj
        rw [Bool.not_eq_false] at hj
        rcases inv.below with h | h | h
        · omega
        · refine hbroken ⟨hmark, ?_⟩
          exact mem_brokenSlots.mpr (Or.inl ⟨⟨h, by simp only [pageSize64KB]; omega⟩, j,
            by omega, h2, rfl⟩)
        · rw [hb, hi, hslot] at h
          rw [h j h1 h2] at hj
          cases hj
    have hself : flag t (index :: slot) = false := by
      rw [hflag, if_pos rfl]
    refine ⟨?_, ?_⟩
    · intro j h1 h2
      rcases Nat.lt_or_eq_of_le h2 with h2 | rfl
      · exact hbelow j h1 h2
      · exact hself
    · by_cases hlast : (size ≤ 4096 ∧ c.endAddress % pageSize64KB ≠ 0) ∨ index % 16 = 15
      · left
        intro i hi16
        rcases Nat.lt_trichotomy (base + i) index with h | h | h
        · exact hbelow _ (by omega) h
        · rw [h]
          exact hself
        · rcases hlast with hlast | hlast
          · rw [hflag, if_neg (by omega), if_pos ⟨hmark, mem_brokenSlots.mpr
              (Or.inr ⟨hlast, base + i, by omega, by omega, rfl⟩)⟩]
          · omega
      · right
        rw [not_or, not_and_or, Nat.not_le, not_not] at hlast
        have hends := inv.ends
        simp only [pageSize64KB] at hlast
        refine ⟨by omega, by omega, ?_⟩
        intro j h1 h2
        rw [hflag, if_neg (by omega), if_neg ?_]
        · exact hothers j h1 h2
        · rintro ⟨_, hmem⟩
          rcases mem_brokenSlots.mp hmem with ⟨_, i, _, h3, heq⟩ | ⟨hcut, _⟩
          · injection heq with heq _
            omega
          · omega
  · rw [Bool.not_eq_true] at hmark
    have hall : GroupUnmarked s.nodes slot base := by
      rcases hgroups with (h | ⟨_, h⟩) | ⟨_, h⟩
      · exact h
      · rw [group_index h (by omega) (by omega)] at hmark
        cases hmark
      · have habove := h.above index (by omega) (by omega)
        rw [hmark] at habove
        cases habove
    have hnone : ∀ j, base ≤ j → j < base + 16 → flag t (j :: slot) = false := by
      intro j h1 h2
      have h := hall (j - base) (by omega)
      rw [show base + (j - base) = j by omega] at h
      rw [hflag]
      split
      · rfl
      · split
        · rfl
        · exact h
    exact ⟨fun j h1 h2 => hnone j h1 (by omega),
      Or.inl fun i hi16 => hnone (base + i) (by omega) (by omega)⟩

theorem hwBaseOf_aligned {g : Nat} (h : g % 65536 = 0) : hwBaseOf g = PteKind.PTE4KB.getIndex g := by
  simp only [hwBaseOf, PteKind.getIndex]
  omega

/-- A directory's child carries no mark. -/
theorem flag_slot {n : Nat} {t : Nodes} (wf : Wf n t) (tables : MarksIn4KB t) {q : Path}
    (hq : q ≠ []) (hl : q.length < n) : flag t q = false := by
  cases q with
  | nil => exact absurd rfl hq
  | cons i p =>
    by_contra hmark
    rw [Bool.not_eq_false] at hmark
    have hlen := marked_length wf tables hmark
    simp only [List.length_cons] at hl
    omega

/-- What every round does to the tree apart from the group it enters. -/
structure Round (n : Nat) (t t' : Nodes) (q : Path) : Prop where
  flags : ∀ p, flag t' p = true → flag t p = true
  leaves : ∀ p, p.length = n → p ≠ q → layout t' p = layout t p
  kinds : ∀ p m, t' p = some m → ∃ m', t p = some m' ∧ m'.kind = m.kind

theorem Round.tables {n : Nat} {t t' : Nodes} {q : Path} (h : Round n t t' q) (wf : Wf n t')
    (tables : MarksIn4KB t) : MarksIn4KB t' := by
  intro i p hmark
  obtain ⟨x, hx, _⟩ := some_of_flag hmark
  obtain ⟨m, hm, _⟩ := wf.parent i p x hx
  obtain ⟨m', hm', hk'⟩ := h.kinds p m hm
  obtain ⟨y, hy, hk⟩ := tables i p (h.flags _ hmark)
  rw [hm', Option.some.injEq] at hy
  exact ⟨m, hm, by rw [← hk', hy, hk]⟩

theorem freePage_4KB_round {c : FreeContext} {s : FreeState A} (g size : Nat)
    (wf : Wf c.ppgtt.getNumLevels s.nodes) (tables : MarksIn4KB s.nodes) (k : PteKind) :
    let slot := slotPath c.ppgtt.getNumLevels Pde g
    let t := (pruneTable Pde slot (removePage c slot (k.getIndex g) g size s)).nodes
    Round c.ppgtt.getNumLevels s.nodes t (k.getIndex g :: slot) ∧
    ∀ p, flag t p = if p = k.getIndex g :: slot then false
      else if flag s.nodes (k.getIndex g :: slot) = true ∧
        p ∈ brokenSlots c slot (k.getIndex g) g size then false
      else flag s.nodes p := by
  have hn := getNumLevels_ge c.ppgtt
  have hne := @slotPath_ne_nil c.ppgtt.getNumLevels Pde g (by simp only [Pde]; omega)
  have hlen : (slotPath c.ppgtt.getNumLevels Pde g).length + 1 = c.ppgtt.getNumLevels := by
    rw [slotPath_length]
    simp only [Pde]
    omega
  have hslot : flag (removePage c (slotPath c.ppgtt.getNumLevels Pde g) (k.getIndex g) g size s).nodes
      (slotPath c.ppgtt.getNumLevels Pde g) = false := by
    rw [removePage_flag]
    have hold := flag_slot wf tables hne (by omega)
    rw [hold]
    simp
  have hflag : ∀ p, flag (pruneTable Pde (slotPath c.ppgtt.getNumLevels Pde g)
      (removePage c (slotPath c.ppgtt.getNumLevels Pde g) (k.getIndex g) g size s)).nodes p =
      if p = k.getIndex g :: slotPath c.ppgtt.getNumLevels Pde g then false
      else if flag s.nodes (k.getIndex g :: slotPath c.ppgtt.getNumLevels Pde g) = true ∧
        p ∈ brokenSlots c (slotPath c.ppgtt.getNumLevels Pde g) (k.getIndex g) g size then false
      else flag s.nodes p := by
    intro p
    rw [pruneTable_flag hslot, removePage_flag]
  refine ⟨⟨?_, ?_, ?_⟩, hflag⟩
  · intro p hp
    rw [hflag] at hp
    split at hp
    · cases hp
    · split at hp
      · cases hp
      · exact hp
  · intro p hp hq
    have hpne : p ≠ slotPath c.ppgtt.getNumLevels Pde g := by
      intro heq
      rw [heq] at hp
      omega
    have hprune := pruneTable_other (removePage c (slotPath c.ppgtt.getNumLevels Pde g)
      (k.getIndex g) g size s) Pde hpne
    rw [← removePage_layout c (slotPath c.ppgtt.getNumLevels Pde g) (k.getIndex g) g size s hq]
    simp only [layout, hprune]
  · intro p m hm
    obtain ⟨m', hm', hcore⟩ := removePage_shrinks _ _ _ _ _ _ (pruneTable_some hm)
    exact ⟨m', hm', congrArg (·.kind) hcore⟩

theorem freePage_2MB_round {n : Nat} {s : FreeState A} {g : Nat} {m : PageNode} (hn : 4 ≤ n)
    (wf : Wf n s.nodes) (tables : MarksIn4KB s.nodes) :
    let t := (pruneTable Pdp (slotPath n Pdp g) (s.remove Pde (slotPath n Pde g) m)).nodes
    Round n s.nodes t (slotPath n Pde g) ∧ ∀ p, flag t p = flag s.nodes p := by
  have herase : ∀ p, flag (s.remove Pde (slotPath n Pde g) m).nodes p = flag s.nodes p := by
    intro p
    refine flag_erase_unflagged (flag_slot wf tables (slotPath_ne_nil g ?_) ?_) p
    · simp only [Pde]
      omega
    · rw [slotPath_length]
      simp only [Pde]
      omega
  have hflag : ∀ p, flag (pruneTable Pdp (slotPath n Pdp g)
      (s.remove Pde (slotPath n Pde g) m)).nodes p = flag s.nodes p := by
    intro p
    rw [pruneTable_flag, herase]
    rw [herase]
    refine flag_slot wf tables (slotPath_ne_nil g ?_) ?_
    · simp only [Pdp]
      omega
    · rw [slotPath_length]
      simp only [Pdp]
      omega
  refine ⟨⟨fun p hp => (hflag p).symm.trans hp, ?_, ?_⟩, hflag⟩
  · intro p hp hq
    have hne : p ≠ slotPath n Pdp g := by
      intro heq
      rw [heq, slotPath_length] at hp
      simp only [Pdp] at hp
      omega
    simp only [layout, pruneTable_other _ _ hne, remove_nodes, erase_of_ne hq]
  · intro p x hx
    exact ⟨x, (erase_some (pruneTable_some hx)).2, rfl⟩

/-- A round that leaves the marks of a group alone keeps it settled. -/
theorem Round.settled {gpu : Gpu} {n : Nat} {t t' : Nodes} {q : Path} (h : Round n t t' q)
    (wf : Wf n t) (tables : MarksIn4KB t) {p : Path} {b : Nat}
    (hq : flag t q = true → q ∉ groupSlots p b)
    (hflag : ∀ i, i < 16 → flag t' ((b + i) :: p) = flag t ((b + i) :: p))
    (hs : Settled gpu t p b) : Settled gpu t' p b := by
  refine settled_congr hflag (fun hm i hi => h.leaves _ ?_ ?_) hs
  · have hlen := marked_length wf tables (hm i hi)
    simpa using hlen
  · intro heq
    exact hq (heq ▸ hm i hi) (heq ▸ mem_groupSlots.mpr ⟨i, hi, rfl⟩)

omit [PhysicalAddressAllocator A] in
/-- A round on anything but a 4KB table. -/
theorem FreeInv.other_round {c : FreeContext} {g size g' size' : Nat} {s s' : FreeState A}
    (inv : FreeInv c g size s) (wf : Wf c.ppgtt.getNumLevels s.nodes)
    (wf' : Wf c.ppgtt.getNumLevels s'.nodes) {q : Path} {m : PageNode}
    (hround : Round c.ppgtt.getNumLevels s.nodes s'.nodes q)
    (hflag : ∀ p, flag s'.nodes p = flag s.nodes p) (hq : flag s.nodes q = false)
    (hm : s.nodes (slotPath c.ppgtt.getNumLevels Pde g) = some m) (hk : m.kind ≠ .pte .PTE4KB)
    (ends : g + size = g' + size') (aligned : size' = 0 ∨ g' % 65536 = 0) :
    FreeInv c g' size' s' := by
  refine ⟨inv.ends.trans ends, hround.tables wf' inv.tables, ?_, ?_⟩
  · intro p b hb
    left
    rcases inv.groups p b hb with h | ⟨_, h⟩
    · exact hround.settled wf inv.tables (fun hmark => by rw [hq] at hmark; cases hmark)
        (fun i _ => hflag _) h
    · have hbase := h.base
      have hinside := h.inside
      unfold hwBaseOf at hbase
      obtain ⟨x, hx, hxk⟩ := inv.tables _ p (h.above _ (Nat.le_refl _) (by omega))
      rw [h.table, hm, Option.some.injEq] at hx
      exact absurd (hx ▸ hxk) hk
  · refine aligned.imp id fun h => Or.inr fun j h1 h2 => ?_
    rw [hwBaseOf_aligned h] at h1
    omega

omit [PhysicalAddressAllocator A] in
/-- A round on a 4KB table. -/
theorem FreeInv.round_4KB {c : FreeContext} {g size : Nat} {s s' : FreeState A}
    (inv : FreeInv c g size s) (hsize : 0 < size) (wf : Wf c.ppgtt.getNumLevels s.nodes)
    (wf' : Wf c.ppgtt.getNumLevels s'.nodes)
    (hround : Round c.ppgtt.getNumLevels s.nodes s'.nodes
      (PteKind.PTE4KB.getIndex g :: slotPath c.ppgtt.getNumLevels Pde g))
    (hflag : ∀ p, flag s'.nodes p =
      if p = PteKind.PTE4KB.getIndex g :: slotPath c.ppgtt.getNumLevels Pde g then false
      else if flag s.nodes (PteKind.PTE4KB.getIndex g :: slotPath c.ppgtt.getNumLevels Pde g) =
          true ∧ p ∈ brokenSlots c (slotPath c.ppgtt.getNumLevels Pde g)
            (PteKind.PTE4KB.getIndex g) g size then false
      else flag s.nodes p) :
    FreeInv c (g + min size (4096 - g % 4096)) (size - min size (4096 - g % 4096)) s' := by
  have hidx : PteKind.PTE4KB.getIndex g = g / 2 ^ 12 % 512 := rfl
  have hbase : hwBaseOf g = PteKind.PTE4KB.getIndex g - PteKind.PTE4KB.getIndex g % 16 := rfl
  have hslotflag : ∀ j, flag s'.nodes (j :: slotPath c.ppgtt.getNumLevels Pde g) =
      if j = PteKind.PTE4KB.getIndex g then false
      else if flag s.nodes (PteKind.PTE4KB.getIndex g :: slotPath c.ppgtt.getNumLevels Pde g) = true ∧
        j :: slotPath c.ppgtt.getNumLevels Pde g ∈
          brokenSlots c (slotPath c.ppgtt.getNumLevels Pde g) (PteKind.PTE4KB.getIndex g) g size
        then false
      else flag s.nodes (j :: slotPath c.ppgtt.getNumLevels Pde g) := by
    intro j
    rw [hflag]
    simp only [List.cons.injEq, and_true]
  obtain ⟨hbelow, hgroup⟩ := freedGroup inv hsize hslotflag
  -- the next page of the same group hangs below the same table
  have hnext : ∀ g', g' = g + (4096 - g % 4096) → PteKind.PTE4KB.getIndex g % 16 < 15 →
      PteKind.PTE4KB.getIndex g' = PteKind.PTE4KB.getIndex g + 1 ∧ hwBaseOf g' = hwBaseOf g ∧
      slotPath c.ppgtt.getNumLevels Pde g' = slotPath c.ppgtt.getNumLevels Pde g := by
    intro g' hg' hin
    have hidx' : PteKind.PTE4KB.getIndex g' = g' / 2 ^ 12 % 512 := rfl
    have hbase' : hwBaseOf g' = PteKind.PTE4KB.getIndex g' - PteKind.PTE4KB.getIndex g' % 16 := rfl
    refine ⟨by omega, by omega, slotPath_congr (Nat.le_refl 1) (by omega)⟩
  refine ⟨by have := inv.ends; omega, hround.tables wf' inv.tables, ?_, ?_⟩
  · intro p b hb
    by_cases hin : PteKind.PTE4KB.getIndex g :: slotPath c.ppgtt.getNumLevels Pde g ∈ groupSlots p b
    · obtain ⟨rfl, hbg⟩ := (mem_groupSlots_cons hb).mp hin
      rw [← hbase] at hbg
      subst hbg
      rcases hgroup with h | ⟨hsz, hin15, habove⟩
      · exact Or.inl (Or.inl h)
      · right
        rw [show min size (4096 - g % 4096) = 4096 - g % 4096 by omega]
        obtain ⟨h1, h2, h3⟩ := hnext _ rfl hin15
        refine ⟨by omega, h3.symm, h2.symm, by omega, ?_, ?_⟩
        · intro j hj1 hj2
          exact hbelow j hj1 (by omega)
        · intro j hj1 hj2
          exact habove j (by omega) hj2
    · left
      have hsame : ∀ i, i < 16 → flag s'.nodes ((b + i) :: p) = flag s.nodes ((b + i) :: p) := by
        intro i hi
        rw [hflag, if_neg ?_, if_neg ?_]
        · rintro ⟨_, hmem⟩
          refine hin ((mem_groupSlots_cons hb).mpr ?_)
          rcases mem_brokenSlots.mp hmem with ⟨_, j, h1, h2, heq⟩ | ⟨_, j, h1, h2, heq⟩
          · injection heq with heq hp
            exact ⟨hp.symm, by omega⟩
          · injection heq with heq hp
            exact ⟨hp.symm, by omega⟩
        · intro heq
          exact hin (heq ▸ mem_groupSlots.mpr ⟨i, hi, rfl⟩)
      rcases inv.groups p b hb with h | ⟨_, h⟩
      · exact hround.settled wf inv.tables (fun _ => hin) hsame h
      · refine absurd ((mem_groupSlots_cons hb).mpr ⟨h.table.symm, ?_⟩) hin
        rw [h.base, hbase]
  · by_cases hz : size ≤ 4096 - g % 4096
    · left
      omega
    · right; right
      rw [show min size (4096 - g % 4096) = 4096 - g % 4096 by omega]
      by_cases h15 : PteKind.PTE4KB.getIndex g % 16 < 15
      · obtain ⟨h1, h2, h3⟩ := hnext _ rfl h15
        intro j hj1 hj2
        rw [h3]
        exact hbelow j (by omega) (by omega)
      · intro j hj1 hj2
        rw [hwBaseOf_aligned (by omega)] at hj1
        omega

theorem freePage_groups {c : FreeContext} {g size pageSize : Nat} {s s' : FreeState A}
    (inv : FreeInv c g size s) (hsize : 0 < size) (wf : Wf c.ppgtt.getNumLevels s.nodes)
    (h : freePage c g size s = some (s', pageSize)) :
    FreeInv c (g + min size (pageSize - g % pageSize)) (size - min size (pageSize - g % pageSize))
      s' := by
  have hn := getNumLevels_ge c.ppgtt
  have wf' := freePage_wf wf h
  rcases freePage_eq wf g size with ⟨_, hf⟩ | ⟨m, hs, hk, hf⟩ | ⟨m, k, hs, hk, hf⟩
  · rw [hf] at h
    cases h
  · rw [hf, Option.some.injEq, Prod.mk.injEq] at h
    obtain ⟨rfl, rfl⟩ := h
    obtain ⟨hround, hflag⟩ := freePage_2MB_round (g := g) (m := m) hn wf inv.tables
    refine inv.other_round wf wf' hround hflag ?_ hs (by rw [hk]; simp) (by omega) ?_
    · refine flag_slot wf inv.tables (slotPath_ne_nil g (by simp only [Pde]; omega)) ?_
      rw [slotPath_length]
      simp only [Pde]
      omega
    · simp only [pageSize2MB]
      omega
  · rw [hf, Option.some.injEq, Prod.mk.injEq] at h
    obtain ⟨rfl, rfl⟩ := h
    obtain ⟨hround, hflag⟩ := freePage_4KB_round g size wf inv.tables k
    by_cases h4 : k = .PTE4KB
    · subst h4
      exact inv.round_4KB hsize wf wf' hround hflag
    · have hq : flag s.nodes (k.getIndex g :: slotPath c.ppgtt.getNumLevels Pde g) = false := by
        by_contra hmark
        rw [Bool.not_eq_false] at hmark
        obtain ⟨x, hx, hxk⟩ := inv.tables _ _ hmark
        rw [hs, Option.some.injEq] at hx
        rw [← hx, hk] at hxk
        injection hxk with hxk
        exact h4 hxk
      refine inv.other_round wf wf' hround ?_ hq hs ?_ (by omega) ?_
      · intro p
        rw [hflag, hq]
        by_cases hp : p = k.getIndex g :: slotPath c.ppgtt.getNumLevels Pde g
        · rw [if_pos hp, hp, hq]
        · rw [if_neg hp, if_neg (by simp)]
      · rw [hk]
        intro heq
        injection heq with heq
        exact h4 heq
      · have h64 : k.getPageSize = 65536 := by
          cases k with
          | PTE4KB => exact absurd rfl h4
          | PTE64KB => rfl
          | LegacyPTE64KB => rfl
        rw [h64]
        omega

end Ps64Free
