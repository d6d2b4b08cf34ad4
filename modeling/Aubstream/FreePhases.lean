import Aubstream.TreeShape
import Aubstream.FreeMemory
import Mathlib.Data.List.Nodup

/-!
# One round of freeing

On a well-formed tree the descent ends at the slot of the page directory. The
round then removes a leaf below the table found there, or the 2MB page itself,
and the table above when nothing is left in it.
-/

namespace FreePhases
open EntryBits PathTree PhysicalAllocator PageNodes PageWalker FreeMemory TreeShape

theorem isExisting2MB_pde {t : Nodes} {n : Nat} (wf : Wf n t) {p : Path} {m : PageNode}
    (h : t p = some m) (hl : p.length + 1 = n) :
    isExisting2MB Pde (t p) = decide (m.kind = .page2MB) := by
  rcases wf.table_of_length h hl with ⟨k, hk⟩ | hk
  · have hne : k.getPageSize ≠ pageSize2MB := pte_getPageSize_ne_2MB
    simp [isExisting2MB, h, hk, NodeKind.getPageSize, hne]
  · simp [isExisting2MB, h, hk, NodeKind.getPageSize]

theorem isExisting2MB_directory {t : Nodes} {l : Nat} (hl : l ≠ Pde) (p : Path) :
    isExisting2MB l (t p) = false := by
  cases h : t p with
  | none => rfl
  | some m => simp [isExisting2MB, hl]

theorem descend_eq {n : Nat} {t : Nodes} (wf : Wf n t) (g : Nat) :
    ∀ level, level + 1 < n → descend t g (level + 1) (slotPath n (level + 2) g) =
      (t (slotPath n Pde g)).map fun m => ⟨slotPath n Pde g, decide (m.kind = .page2MB)⟩ := by
  intro level
  induction level with
  | zero =>
    intro hl
    have hcons := slotPath_cons (n := n) (l := 1) g hl
    cases hp : t (slotPath n 2 g) with
    | none =>
      have hnone : t (slotPath n Pde g) = none := by
        simp only [Pde]
        rw [hcons]
        exact wf.none_of_parent_none hp
      simp [descend, hp, hnone]
    | some parent =>
      have hk : parent.kind = .directory :=
        wf.directory_of_length hp (by rw [slotPath_length]; omega)
      have hq : parent.kind.getIndex 1 g :: slotPath n 2 g = slotPath n Pde g := by
        rw [hk]
        exact hcons.symm
      simp only [descend, Nat.zero_add, hp, Option.bind_some, hq]
      cases hs : t (slotPath n Pde g) with
      | none => simp [isExisting2MB]
      | some m =>
        have hex := isExisting2MB_pde wf hs (by rw [slotPath_length]; simp only [Pde]; omega)
        rw [hs] at hex
        simp only [Pde] at hex
        rw [hex]
        by_cases h2 : m.kind = .page2MB <;> simp [h2]
  | succ level ih =>
    intro hl
    have hcons := slotPath_cons (n := n) (l := level + 2) g (by omega)
    cases hp : t (slotPath n (level + 1 + 2) g) with
    | none =>
      have hnone : t (slotPath n Pde g) = none := by
        have hbelow := ih (by omega)
        have hq : t (slotPath n (level + 2) g) = none := by
          rw [hcons]
          exact wf.none_of_parent_none hp
        simp only [descend, hq, Option.bind_none] at hbelow
        exact Option.map_eq_none_iff.mp hbelow.symm
      simp [descend, hp, hnone]
    | some parent =>
      have hk : parent.kind = .directory :=
        wf.directory_of_length hp (by rw [slotPath_length]; omega)
      have hq : parent.kind.getIndex (level + 1 + 1) g :: slotPath n (level + 1 + 2) g =
          slotPath n (level + 2) g := by
        rw [hk]
        exact hcons.symm
      have hex := isExisting2MB_directory (t := t) (l := level + 1 + 1)
        (by simp only [Pde]; omega) (slotPath n (level + 2) g)
      rw [← ih (by omega)]
      simp only [descend, hp, Option.bind_some, hq, hex, Bool.false_eq_true, if_false]

variable {A : Type} [PhysicalAddressAllocator A]

/-- One round of the loop, by what stands in the slot of the page directory. -/
theorem freePage_eq {c : FreeContext} {s : FreeState A} (wf : Wf c.ppgtt.getNumLevels s.nodes)
    (g size : Nat) :
    let slot := slotPath c.ppgtt.getNumLevels Pde g
    (s.nodes slot = none ∧ freePage c g size s = none) ∨
    (∃ m, s.nodes slot = some m ∧ m.kind = .page2MB ∧
      freePage c g size s = some (pruneTable Pdp (slotPath c.ppgtt.getNumLevels Pdp g)
        (s.remove Pde slot m), pageSize2MB)) ∨
    (∃ m k, s.nodes slot = some m ∧ m.kind = .pte k ∧
      freePage c g size s = some (pruneTable Pde slot
        (removePage c slot (k.getIndex g) g size s), k.getPageSize)) := by
  have hn : 4 ≤ c.ppgtt.getNumLevels := by cases c.ppgtt <;> decide
  have hd := descend_eq wf g (c.ppgtt.getNumLevels - 2) (by omega)
  rw [show c.ppgtt.getNumLevels - 2 + 1 = c.ppgtt.getNumLevels - 1 by omega,
    show c.ppgtt.getNumLevels - 2 + 2 = c.ppgtt.getNumLevels by omega, slotPath_root] at hd
  have hcons := slotPath_cons (n := c.ppgtt.getNumLevels) (l := Pde) g (by simp only [Pde]; omega)
  cases hs : s.nodes (slotPath c.ppgtt.getNumLevels Pde g) with
  | none =>
    left
    simp [freePage, hd, hs]
  | some m =>
    right
    rcases wf.table_of_length hs (by rw [slotPath_length]; simp only [Pde]; omega) with ⟨k, hk⟩ | hk
    · right
      refine ⟨m, k, hs, hk, ?_⟩
      simp [freePage, hd, hs, hk, NodeKind.getPageSize, NodeKind.getIndex]
    · left
      refine ⟨m, hs, hk, ?_⟩
      have htail : (slotPath c.ppgtt.getNumLevels Pde g).tail =
          slotPath c.ppgtt.getNumLevels Pdp g := by
        rw [hcons]
        rfl
      simp [freePage, hd, hs, hk, htail]

theorem remove_nodes (s : FreeState A) (level : Nat) (q : Path) (n : PageNode) :
    (s.remove level q n).nodes = erase s.nodes q := rfl

omit [PhysicalAddressAllocator A] in
theorem clearPs64_nodes (s : FreeState A) (gpu : Gpu) (q : Path) :
    (s.clearPs64 gpu q).nodes = modify s.nodes q (·.setPs64 false) := by
  cases h : s.nodes q with
  | none => simp only [FreeState.clearPs64, h, modify_none h]
  | some ci => simp only [FreeState.clearPs64, h, modify_some h, FreeState.push]

theorem slotsBetween_nodup (p : Path) (first last : Nat) : (slotsBetween p first last).Nodup := by
  refine List.Nodup.map ?_ (List.nodup_range' ..)
  intro i j h
  simpa using h

theorem mem_slotsBetween {p q : Path} {first last : Nat} :
    q ∈ slotsBetween p first last ↔ ∃ i, first ≤ i ∧ i < last ∧ q = i :: p := by
  simp only [slotsBetween, List.mem_map, List.mem_range'_1]
  constructor
  · rintro ⟨i, hi, rfl⟩
    exact ⟨i, hi.1, by omega, rfl⟩
  · rintro ⟨i, h1, h2, rfl⟩
    exact ⟨i, ⟨h1, by omega⟩, rfl⟩

theorem mem_brokenSlots {c : FreeContext} {pte q : Path} {index g size : Nat} :
    q ∈ brokenSlots c pte index g size ↔
      ((g = c.startAddress ∧ c.startAddress % pageSize64KB ≠ 0) ∧
        ∃ i, index - index % 16 ≤ i ∧ i < index ∧ q = i :: pte) ∨
      ((size ≤ 4096 ∧ c.endAddress % pageSize64KB ≠ 0) ∧
        ∃ i, index + 1 ≤ i ∧ i < index - index % 16 + 16 ∧ q = i :: pte) := by
  simp only [brokenSlots, List.mem_append]
  refine or_congr ?_ ?_
  · by_cases h : g = c.startAddress ∧ c.startAddress % pageSize64KB ≠ 0
    · rw [if_pos h, mem_slotsBetween]
      exact (and_iff_right h).symm
    · rw [if_neg h]
      exact iff_of_false List.not_mem_nil fun hand => h hand.1
  · by_cases h : size ≤ 4096 ∧ c.endAddress % pageSize64KB ≠ 0
    · rw [if_pos h, mem_slotsBetween]
      exact (and_iff_right h).symm
    · rw [if_neg h]
      exact iff_of_false List.not_mem_nil fun hand => h hand.1

theorem brokenSlots_nodup (c : FreeContext) (pte : Path) (index g size : Nat) :
    (brokenSlots c pte index g size).Nodup := by
  unfold brokenSlots
  simp only
  refine List.Nodup.append ?_ ?_ ?_
  · split
    · exact slotsBetween_nodup _ _ _
    · exact List.nodup_nil
  · split
    · exact slotsBetween_nodup _ _ _
    · exact List.nodup_nil
  · intro q h1 h2
    split at h1
    · split at h2
      · obtain ⟨i, _, hi, rfl⟩ := mem_slotsBetween.mp h1
        obtain ⟨j, hj, _, heq⟩ := mem_slotsBetween.mp h2
        injection heq with heq _
        omega
      · cases h2
    · cases h1

theorem removePage_nodes (c : FreeContext) (pte : Path) (index g size : Nat) (s : FreeState A) :
    (removePage c pte index g size s).nodes =
      if ∃ child, s.nodes (index :: pte) = some child ∧ child.ps64 = true then
        modifyAll (erase s.nodes (index :: pte)) (brokenSlots c pte index g size) (·.setPs64 false)
      else erase s.nodes (index :: pte) := by
  cases h : s.nodes (index :: pte) with
  | none =>
    simp only [removePage, h]
    rw [if_neg (by simp)]
    funext p
    by_cases hp : p = index :: pte
    · subst p
      rw [erase_self, h]
    · rw [erase_of_ne hp]
  | some child =>
    simp only [removePage, h, Option.some.injEq, exists_eq_left']
    split
    · rw [← foldl_modify (brokenSlots_nodup c pte index g size)]
      generalize brokenSlots c pte index g size = qs
      have key : ∀ (s : FreeState A), (qs.foldl (fun s q => s.clearPs64 c.gpu q) s).nodes =
          qs.foldl (fun t q => modify t q (·.setPs64 false)) s.nodes := by
        induction qs with
        | nil => intro s; rfl
        | cons q rest ih =>
          intro s
          rw [List.foldl_cons, List.foldl_cons, ih, clearPs64_nodes]
      rw [key, remove_nodes]
    · rw [remove_nodes]

theorem pruneTable_nodes (level : Nat) (p : Path) (s : FreeState A) :
    (pruneTable level p s).nodes =
      if isEmpty s.nodes p then erase s.nodes p else s.nodes := by
  cases h : s.nodes p with
  | none =>
    simp only [pruneTable, h]
    split
    · funext q
      by_cases hq : q = p
      · subst q
        rw [erase_self, h]
      · rw [erase_of_ne hq]
    · rfl
  | some n =>
    simp only [pruneTable, h]
    split
    · rfl
    · rfl

theorem isEmpty_eq_true {t : Nodes} {n : Nat} (wf : Wf n t) {p : Path} :
    isEmpty t p = true ↔ ∀ i, t (i :: p) = none := by
  simp only [isEmpty, List.all_eq_true, List.mem_range, Option.isNone_iff_eq_none]
  constructor
  · intro h i
    cases hc : t (i :: p) with
    | none => rfl
    | some m =>
      obtain ⟨parent, _, hi⟩ := wf.parent i p m hc
      have hlt : i < 512 := by
        revert hi
        cases parent.kind with
        | directory => exact id
        | pte k => cases k <;> simp only [hasIndex] <;> omega
        | page2MB => exact False.elim
        | memory => exact False.elim
      rw [h i hlt] at hc
      cases hc
  · intro h i _
    exact h i

theorem modifyAll_setPs64_wf {n : Nat} {t : Nodes} (wf : Wf n t) (qs : List Path) :
    Wf n (modifyAll t qs (·.setPs64 false)) := by
  have key : ∀ p x, modifyAll t qs (·.setPs64 false) p = some x →
      ∃ y, t p = some y ∧ y.kind = x.kind := by
    intro p x hx
    by_cases hp : p ∈ qs
    · rw [modifyAll_of_mem hp, Option.map_eq_some_iff] at hx
      obtain ⟨y, hy, rfl⟩ := hx
      exact ⟨y, hy, rfl⟩
    · rw [modifyAll_of_not_mem hp] at hx
      exact ⟨x, hx, rfl⟩
  have back : ∀ p y, t p = some y →
      ∃ x, modifyAll t qs (·.setPs64 false) p = some x ∧ x.kind = y.kind := by
    intro p y hy
    by_cases hp : p ∈ qs
    · exact ⟨y.setPs64 false, by rw [modifyAll_of_mem hp, hy]; rfl, rfl⟩
    · exact ⟨y, by rw [modifyAll_of_not_mem hp, hy], rfl⟩
  refine ⟨?_, ?_, ?_⟩
  · obtain ⟨r, hr, hk⟩ := wf.root
    obtain ⟨x, hx, hxk⟩ := back [] r hr
    exact ⟨x, hx, hxk.trans hk⟩
  · intro p x hx
    obtain ⟨y, hy, hk⟩ := key p x hx
    exact hk ▸ wf.depth p y hy
  · intro i p x hx
    obtain ⟨y, hy, _⟩ := key (i :: p) x hx
    obtain ⟨z, hz, hi⟩ := wf.parent i p y hy
    obtain ⟨w, hw, hk⟩ := back p z hz
    exact ⟨w, hw, hk ▸ hi⟩

theorem removePage_wf {c : FreeContext} {s : FreeState A} {n : Nat} (wf : Wf n s.nodes)
    {pte : Path} (hl : pte.length + 1 = n) (index g size : Nat) :
    Wf n (removePage c pte index g size s).nodes := by
  have herase : Wf n (erase s.nodes (index :: pte)) := by
    refine wf.erase_childless (by simp) ?_
    intro i
    cases hc : s.nodes (i :: index :: pte) with
    | none => rfl
    | some m =>
      have := wf.length_le hc
      simp only [List.length_cons] at this
      omega
  rw [removePage_nodes]
  split
  · exact modifyAll_setPs64_wf herase _
  · exact herase

theorem pruneTable_wf {s : FreeState A} {n : Nat} (wf : Wf n s.nodes) (level : Nat) {p : Path}
    (hp : p ≠ []) : Wf n (pruneTable level p s).nodes := by
  rw [pruneTable_nodes]
  split
  · rename_i h
    exact wf.erase_childless hp ((isEmpty_eq_true wf).mp h)
  · exact wf

theorem slotPath_ne_nil {n level : Nat} (g : Nat) (h : level < n) : slotPath n level g ≠ [] := by
  rw [slotPath_cons g h]
  simp

theorem freePage_wf {c : FreeContext} {s s' : FreeState A} {g size pageSize : Nat}
    (wf : Wf c.ppgtt.getNumLevels s.nodes) (h : freePage c g size s = some (s', pageSize)) :
    Wf c.ppgtt.getNumLevels s'.nodes := by
  have hn : 4 ≤ c.ppgtt.getNumLevels := by cases c.ppgtt <;> decide
  rcases freePage_eq wf g size with ⟨_, hf⟩ | ⟨m, hs, hk, hf⟩ | ⟨m, k, hs, hk, hf⟩
  · rw [hf] at h
    cases h
  · rw [hf, Option.some.injEq, Prod.mk.injEq] at h
    obtain ⟨rfl, _⟩ := h
    refine pruneTable_wf ?_ Pdp (slotPath_ne_nil g (by simp only [Pdp]; omega))
    rw [remove_nodes]
    refine wf.erase_childless (slotPath_ne_nil g (by simp only [Pde]; omega)) ?_
    intro i
    exact wf.none_of_childless hs (by rw [hk]; exact id)
  · rw [hf, Option.some.injEq, Prod.mk.injEq] at h
    obtain ⟨rfl, _⟩ := h
    refine pruneTable_wf ?_ Pde (slotPath_ne_nil g (by simp only [Pde]; omega))
    exact removePage_wf wf (by rw [slotPath_length]; simp only [Pde]; omega) _ _ _

/-- The induction over the rounds of a free. -/
theorem freePages_rule {c : FreeContext} {P : Nat → Nat → FreeState A → Prop}
    (round : ∀ g size s s' pageSize, Wf c.ppgtt.getNumLevels s.nodes → 0 < size → P g size s →
      freePage c g size s = some (s', pageSize) →
      P (g + min size (pageSize - g % pageSize)) (size - min size (pageSize - g % pageSize)) s') :
    ∀ fuel g size (s : FreeState A), size ≤ fuel → Wf c.ppgtt.getNumLevels s.nodes → P g size s →
      let r := freePages c fuel g size s
      Wf c.ppgtt.getNumLevels r.1.nodes ∧
        ((r.2 = true ∧ ∃ g', P g' 0 r.1) ∨
          (r.2 = false ∧ ∃ g' size', 0 < size' ∧ P g' size' r.1 ∧
            r.1.nodes (slotPath c.ppgtt.getNumLevels Pde g') = none)) := by
  intro fuel
  induction fuel with
  | zero =>
    intro g size s hf wf hP
    have hz : size = 0 := Nat.le_zero.mp hf
    subst hz
    exact ⟨wf, Or.inl ⟨rfl, g, hP⟩⟩
  | succ fuel ih =>
    intro g size s hf wf hP
    by_cases hz : size = 0
    · subst hz
      simp only [freePages, if_true]
      exact ⟨wf, Or.inl ⟨trivial, g, hP⟩⟩
    · simp only [freePages, if_neg hz]
      cases hpage : freePage c g size s with
      | none =>
        refine ⟨wf, Or.inr ⟨rfl, g, size, Nat.pos_of_ne_zero hz, hP, ?_⟩⟩
        rcases freePage_eq wf g size with ⟨hs, _⟩ | ⟨m, _, _, hf'⟩ | ⟨m, k, _, _, hf'⟩
        · exact hs
        · rw [hpage] at hf'
          cases hf'
        · rw [hpage] at hf'
          cases hf'
      | some r =>
        obtain ⟨s', pageSize⟩ := r
        have hpos : 0 < pageSize := by
          rcases freePage_eq wf g size with ⟨_, hf'⟩ | ⟨m, _, _, hf'⟩ | ⟨m, k, _, _, hf'⟩
          · rw [hpage] at hf'
            cases hf'
          · rw [hpage, Option.some.injEq, Prod.mk.injEq] at hf'
            rw [hf'.2]
            decide
          · rw [hpage, Option.some.injEq, Prod.mk.injEq] at hf'
            rw [hf'.2]
            exact getPageSize_pos
        have hmod : g % pageSize < pageSize := Nat.mod_lt g hpos
        exact ih _ _ s' (by dsimp only; omega) (freePage_wf wf hpage)
          (round g size s s' pageSize wf (Nat.pos_of_ne_zero hz) hP hpage)

end FreePhases
