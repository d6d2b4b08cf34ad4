import Aubstream.Ps64Flags
import Aubstream.Translation
import Aubstream.LastTables

/-!
# The effect of freeing

A round takes one leaf out of the tree, and with it a table that the leaf leaves
empty. Every slot it empties and every entry it changes is collected.
-/

namespace FreeRounds
open EntryBits PathTree PhysicalAllocator PageNodes PageWalker FreeMemory TreeShape WalkPhases
  FreePhases Placement Ps64Flags Translation LastTables

variable {A : Type} [PhysicalAddressAllocator A]

def emitted (s : FreeState A) : List PageEntryInfo :=
  s.pageWalkEntries Pte ++ s.pageWalkEntries Pde ++ s.pageWalkEntries Pdp

omit [PhysicalAddressAllocator A] in
theorem mem_emitted_push {s : FreeState A} {level : Nat} (hl : level ≤ Pdp) {e x : PageEntryInfo} :
    x ∈ emitted (s.push level e) ↔ x = e ∨ x ∈ emitted s := by
  have hcases : level = 0 ∨ level = 1 ∨ level = 2 := by
    simp only [Pdp] at hl
    omega
  rcases hcases with rfl | rfl | rfl <;>
    simp only [emitted, FreeState.push, Pte, Pde, Pdp, List.mem_append] <;>
    simp <;> tauto

/-- The tree has shrunk from `t`, and the entries say how. -/
structure Tracked (gpu : Gpu) (t : Nodes) (s : FreeState A) : Prop where
  shrinks : ∀ q m, s.nodes q = some m → ∃ m₀, t q = some m₀ ∧ m.setPs64 false = m₀.setPs64 false
  zeros : ∀ q, t q ≠ none → s.nodes q = none → ⟨entryAddress t q, 0⟩ ∈ emitted s
  values : ∀ q m m₀, s.nodes q = some m → t q = some m₀ →
    m.getEntryValue gpu ≠ m₀.getEntryValue gpu →
      ⟨entryAddress t q, m.getEntryValue gpu⟩ ∈ emitted s

theorem core_of_setPs64 {m m' : PageNode} (h : m.setPs64 false = m'.setPs64 false) :
    core m = core m' ∧ m.pendingWrite = m'.pendingWrite := by
  simp only [PageNode.setPs64, PageNode.mk.injEq] at h
  simp only [core, h, and_self]

namespace Tracked

variable {gpu : Gpu} {t : Nodes} {s : FreeState A}

omit [PhysicalAddressAllocator A] in
/-- The slots of a table that is still there have the addresses they had. -/
theorem entryAddress_eq (h : Tracked gpu t s) {p : Path} {m : PageNode} (hp : s.nodes p = some m)
    (i : Nat) : entryAddress s.nodes (i :: p) = entryAddress t (i :: p) := by
  obtain ⟨m₀, hm₀, heq⟩ := h.shrinks p m hp
  have hphys : m.physicalAddress = m₀.physicalAddress :=
    congrArg (·.physicalAddress) (core_of_setPs64 heq).1
  simp only [entryAddress, hp, hm₀, hphys]

theorem remove (h : Tracked gpu t s) {level i : Nat} {p : Path} {m n : PageNode}
    (hl : level ≤ Pdp) (hp : s.nodes p = some m) : Tracked gpu t (s.remove level (i :: p) n) := by
  have haddr := h.entryAddress_eq hp i
  have grows : ∀ x, x = ⟨entryAddress t (i :: p), 0⟩ ∨ x ∈ emitted s →
      x ∈ emitted (s.remove level (i :: p) n) := by
    intro x hx
    have := (mem_emitted_push hl (s := s) (e := ⟨entryAddress s.nodes (i :: p), 0⟩) (x := x)).mpr
      (haddr.symm ▸ hx)
    exact this
  refine ⟨?_, ?_, ?_⟩
  · intro q x hx
    exact h.shrinks q x (erase_some hx).2
  · intro q ht hq
    by_cases hqp : q = i :: p
    · subst q
      exact grows _ (Or.inl rfl)
    · rw [remove_nodes, erase_of_ne hqp] at hq
      exact grows _ (Or.inr (h.zeros q ht hq))
  · intro q x x₀ hx hx₀ hne
    exact grows _ (Or.inr (h.values q x x₀ (erase_some hx).2 hx₀ hne))

omit [PhysicalAddressAllocator A] in
theorem clearPs64 (h : Tracked gpu t s) {i : Nat} {p : Path} {m : PageNode}
    (hp : s.nodes p = some m) : Tracked gpu t (s.clearPs64 gpu (i :: p)) := by
  cases hs : s.nodes (i :: p) with
  | none =>
    simp only [FreeState.clearPs64, hs]
    exact h
  | some ci =>
    have haddr := h.entryAddress_eq hp i
    have hnodes : (s.clearPs64 gpu (i :: p)).nodes = put s.nodes (i :: p) (ci.setPs64 false) := by
      rw [clearPs64_nodes, modify_some hs]
    have grows : ∀ x, x = ⟨entryAddress t (i :: p), (ci.setPs64 false).getEntryValue gpu⟩ ∨
        x ∈ emitted s → x ∈ emitted (s.clearPs64 gpu (i :: p)) := by
      intro x hx
      have hmem := (mem_emitted_push (s := s) (show Pte ≤ Pdp by decide)
        (e := ⟨entryAddress s.nodes (i :: p), (ci.setPs64 false).getEntryValue gpu⟩)).mpr
        (haddr.symm ▸ hx)
      simp only [FreeState.clearPs64, hs]
      exact hmem
    refine ⟨?_, ?_, ?_⟩
    · intro q x hx
      rw [hnodes] at hx
      by_cases hq : q = i :: p
      · subst q
        rw [put_self, Option.some.injEq] at hx
        subst hx
        exact h.shrinks _ ci hs
      · rw [put_of_ne hq] at hx
        exact h.shrinks q x hx
    · intro q ht hq
      rw [hnodes] at hq
      by_cases hqp : q = i :: p
      · subst q
        rw [put_self] at hq
        cases hq
      · rw [put_of_ne hqp] at hq
        exact grows _ (Or.inr (h.zeros q ht hq))
    · intro q x x₀ hx hx₀ hne
      rw [hnodes] at hx
      by_cases hq : q = i :: p
      · subst q
        rw [put_self, Option.some.injEq] at hx
        subst hx
        exact grows _ (Or.inl rfl)
      · rw [put_of_ne hq] at hx
        exact grows _ (Or.inr (h.values q x x₀ hx hx₀ hne))

omit [PhysicalAddressAllocator A] in
theorem clearAll (pte : Path) (qs : List Path) (hqs : ∀ q ∈ qs, ∃ i, q = i :: pte) :
    ∀ {s : FreeState A} {m : PageNode}, Tracked gpu t s → s.nodes pte = some m →
      Tracked gpu t (qs.foldl (fun s q => s.clearPs64 gpu q) s) := by
  induction qs with
  | nil => exact fun h _ => h
  | cons q rest ih =>
    intro s m h hp
    obtain ⟨i, rfl⟩ := hqs q List.mem_cons_self
    refine ih (fun q hq => hqs q (List.mem_cons_of_mem _ hq)) (h.clearPs64 hp) (m := m) ?_
    rw [clearPs64_nodes, modify_of_ne (by simp)]
    exact hp

theorem removePage (h : Tracked gpu t s) {c : FreeContext} (hgpu : c.gpu = gpu) {pte : Path}
    {m : PageNode} (hp : s.nodes pte = some m) (index g size : Nat) :
    Tracked gpu t (removePage c pte index g size s) := by
  unfold FreeMemory.removePage
  split
  · exact h
  · rename_i child hc
    have hremove := h.remove (i := index) (n := child) (show Pte ≤ Pdp by decide) hp
    simp only
    split
    · rw [hgpu]
      refine clearAll pte _ ?_ hremove (m := m) ?_
      · intro q hq
        rcases mem_brokenSlots.mp hq with ⟨_, i, _, _, rfl⟩ | ⟨_, i, _, _, rfl⟩
        · exact ⟨i, rfl⟩
        · exact ⟨i, rfl⟩
      · rw [remove_nodes, erase_of_ne (by simp)]
        exact hp
    · exact hremove

theorem pruneTable (h : Tracked gpu t s) {n level : Nat} (wf : Wf n s.nodes) (hl : level ≤ Pdp)
    {p : Path} (hp : p ≠ []) : Tracked gpu t (pruneTable level p s) := by
  unfold FreeMemory.pruneTable
  split
  · exact h
  · rename_i m hm
    split
    · cases p with
      | nil => exact absurd rfl hp
      | cons i q =>
        obtain ⟨parent, hparent, _⟩ := wf.parent i q m hm
        exact h.remove hl hparent
    · exact h

end Tracked

omit [PhysicalAddressAllocator A] in
theorem tracked_refl (gpu : Gpu) (s : FreeState A) : Tracked gpu s.nodes s := by
  refine ⟨fun q m h => ⟨m, h, rfl⟩, fun q ht hq => absurd hq ht, ?_⟩
  intro q m m₀ h h₀ hne
  obtain rfl : m₀ = m := Option.some.inj (h₀.symm.trans h)
  exact absurd rfl hne

theorem freePage_tracked {gpu : Gpu} {t : Nodes} {c : FreeContext} (hgpu : c.gpu = gpu)
    {s s' : FreeState A} {g size pageSize : Nat} (wf : Wf c.ppgtt.getNumLevels s.nodes)
    (h : Tracked gpu t s) (hpage : freePage c g size s = some (s', pageSize)) :
    Tracked gpu t s' := by
  have hn := getNumLevels_ge c.ppgtt
  rcases freePage_eq wf g size with ⟨_, hf⟩ | ⟨m, hs, hk, hf⟩ | ⟨m, k, hs, hk, hf⟩
  · rw [hf] at hpage
    cases hpage
  · rw [hf, Option.some.injEq, Prod.mk.injEq] at hpage
    obtain ⟨rfl, _⟩ := hpage
    have hcons := slotPath_cons (n := c.ppgtt.getNumLevels) (l := Pde) g
      (by simp only [Pde]; omega)
    rw [hcons] at hs
    obtain ⟨parent, hparent, _⟩ := wf.parent _ _ _ hs
    have hremove := h.remove (i := directoryIndex Pde g) (n := m) (show Pde ≤ Pdp by decide) hparent
    rw [← hcons] at hremove
    refine hremove.pruneTable (n := c.ppgtt.getNumLevels) ?_ (by decide) (slotPath_ne_nil g (by simp only [Pdp]; omega))
    rw [remove_nodes]
    rw [← hcons] at hs
    exact wf.erase_childless (slotPath_ne_nil g (by simp only [Pde]; omega))
      fun i => wf.none_of_childless hs (by rw [hk]; exact id)
  · rw [hf, Option.some.injEq, Prod.mk.injEq] at hpage
    obtain ⟨rfl, _⟩ := hpage
    refine (h.removePage hgpu hs _ _ _).pruneTable
      (removePage_wf wf (by rw [slotPath_length]; simp only [Pde]; omega) _ _ _) (by decide)
      (slotPath_ne_nil g (by simp only [Pde]; omega))

theorem removePage_removed (c : FreeContext) (pte : Path) (index g size : Nat) (s : FreeState A) :
    (removePage c pte index g size s).nodes (index :: pte) = none := by
  cases h : (removePage c pte index g size s).nodes (index :: pte) with
  | none => rfl
  | some m =>
    rw [removePage_nodes] at h
    split at h
    · by_cases hm : index :: pte ∈ brokenSlots c pte index g size
      · rw [modifyAll_of_mem hm, erase_self] at h
        cases h
      · rw [modifyAll_of_not_mem hm, erase_self] at h
        cases h
    · rw [erase_self] at h
      cases h

/-- A round empties the slot of its address and keeps every other leaf. -/
theorem freePage_leaves {c : FreeContext} {s s' : FreeState A} {g size pageSize : Nat}
    (wf : Wf c.ppgtt.getNumLevels s.nodes) (h : freePage c g size s = some (s', pageSize)) :
    ∃ m, regionAt c.ppgtt.getNumLevels s.nodes g = some m ∧ pageSize = m.kind.getPageSize ∧
      s'.nodes (leafSlot c.ppgtt.getNumLevels m.kind g) = none ∧
      ∀ x y, s.nodes x = some y → IsLeaf y.kind → x ≠ leafSlot c.ppgtt.getNumLevels m.kind g →
        s'.nodes x ≠ none := by
  have hn := getNumLevels_ge c.ppgtt
  have pruned : ∀ (s : FreeState A) level p (x : Path), Wf c.ppgtt.getNumLevels s.nodes →
      (∀ m, s.nodes p = some m → ¬ IsLeaf m.kind) →
      (s.nodes x = none → (pruneTable level p s).nodes x = none) ∧
      ∀ y, s.nodes x = some y → IsLeaf y.kind → (pruneTable level p s).nodes x ≠ none := by
    intro s level p x _ htable
    rw [pruneTable_nodes]
    split
    · refine ⟨fun hx => ?_, fun y hx hleaf => ?_⟩
      · by_cases hxp : x = p
        · rw [hxp, erase_self]
        · rw [erase_of_ne hxp, hx]
      · have hxp : x ≠ p := fun heq => htable y (heq ▸ hx) hleaf
        rw [erase_of_ne hxp, hx]
        simp
    · exact ⟨id, fun y hx _ => by rw [hx]; simp⟩
  rcases freePage_eq wf g size with ⟨_, hf⟩ | ⟨m, hs, hk, hf⟩ | ⟨m, k, hs, hk, hf⟩
  · rw [hf] at h
    cases h
  · rw [hf, Option.some.injEq, Prod.mk.injEq] at h
    obtain ⟨rfl, rfl⟩ := h
    have hwf : Wf c.ppgtt.getNumLevels (s.remove Pde (slotPath c.ppgtt.getNumLevels Pde g) m).nodes := by
      rw [remove_nodes]
      exact wf.erase_childless (slotPath_ne_nil g (by simp only [Pde]; omega))
        fun i => wf.none_of_childless hs (by rw [hk]; exact id)
    have htable : ∀ x, (s.remove Pde (slotPath c.ppgtt.getNumLevels Pde g) m).nodes
        (slotPath c.ppgtt.getNumLevels Pdp g) = some x → ¬ IsLeaf x.kind := by
      intro x hx hleaf
      have hdir := hwf.directory_of_length hx (by rw [slotPath_length]; simp only [Pdp]; omega)
      rw [hdir] at hleaf
      cases hleaf
    refine ⟨m, hs, by rw [hk]; rfl, ?_, ?_⟩
    · refine (pruned _ _ _ _ hwf htable).1 ?_
      rw [hk, remove_nodes]
      exact erase_self _ _
    · intro x y hx hleaf hne
      refine (pruned _ _ _ _ hwf htable).2 y ?_ hleaf
      rw [hk] at hne
      rw [remove_nodes]
      exact (erase_of_ne hne).trans hx
  · rw [hf, Option.some.injEq, Prod.mk.injEq] at h
    obtain ⟨rfl, rfl⟩ := h
    have hlen : (slotPath c.ppgtt.getNumLevels Pde g).length + 1 = c.ppgtt.getNumLevels := by
      rw [slotPath_length]
      simp only [Pde]
      omega
    have hwf := removePage_wf (c := c) wf hlen (k.getIndex g) g size
    have htable : ∀ x, (removePage c (slotPath c.ppgtt.getNumLevels Pde g) (k.getIndex g) g size
        s).nodes (slotPath c.ppgtt.getNumLevels Pde g) = some x → ¬ IsLeaf x.kind := by
      intro x hx hleaf
      obtain ⟨y, hy, hcore⟩ := removePage_shrinks c _ _ g size s hx
      rw [hs, Option.some.injEq] at hy
      have hkind : y.kind = x.kind := congrArg (·.kind) hcore
      rw [← hkind, ← hy, hk] at hleaf
      cases hleaf
    refine ⟨m, hs, by rw [hk]; rfl, ?_, ?_⟩
    · refine (pruned _ _ _ _ hwf htable).1 ?_
      rw [hk]
      exact removePage_removed c _ _ g size s
    · intro x y hx hleaf hne
      rw [hk] at hne
      have hlayout := removePage_layout c (slotPath c.ppgtt.getNumLevels Pde g) (k.getIndex g) g
        size s hne
      rw [layout_some hx] at hlayout
      obtain ⟨y', hy', hcore⟩ := layout_eq_some hlayout
      have hkind : y.kind = y'.kind := congrArg (·.kind) hcore
      exact (pruned _ _ _ _ hwf htable).2 y' hy' (hkind ▸ hleaf)

theorem freePage_inhabited {c : FreeContext} {s s' : FreeState A} {g size pageSize : Nat}
    (wf : Wf c.ppgtt.getNumLevels s.nodes) (h : freePage c g size s = some (s', pageSize))
    (inhabited : Inhabited s.nodes) : Inhabited s'.nodes := by
  have hn := getNumLevels_ge c.ppgtt
  have wf' := freePage_wf wf h
  intro q m k hm hk
  rcases freePage_eq wf g size with ⟨_, hf⟩ | ⟨m₀, hs, hk₀, hf⟩ | ⟨m₀, k₀, hs, hk₀, hf⟩
  · rw [hf] at h
    cases h
  · rw [hf, Option.some.injEq, Prod.mk.injEq] at h
    obtain ⟨rfl, _⟩ := h
    have hq := pruneTable_some hm
    rw [remove_nodes] at hq
    obtain ⟨hne, hq⟩ := erase_some hq
    have hlen := wf.depth q m hq
    rw [hk] at hlen
    simp only [fitsDepth] at hlen
    obtain ⟨i, hi⟩ := inhabited q m k hq hk
    refine ⟨i, ?_⟩
    rw [pruneTable_other, remove_nodes, erase_of_ne]
    · exact hi
    · intro heq
      have := congrArg List.length heq
      rw [List.length_cons, slotPath_length] at this
      simp only [Pde] at this
      omega
    · intro heq
      have := congrArg List.length heq
      rw [List.length_cons, slotPath_length] at this
      simp only [Pdp] at this
      omega
  · rw [hf, Option.some.injEq, Prod.mk.injEq] at h
    obtain ⟨rfl, _⟩ := h
    have hq := pruneTable_some hm
    have hwf := removePage_wf (c := c) wf
      (show (slotPath c.ppgtt.getNumLevels Pde g).length + 1 = c.ppgtt.getNumLevels by
        rw [slotPath_length]; simp only [Pde]; omega) (k₀.getIndex g) g size
    rw [pruneTable_nodes] at hm ⊢
    by_cases hempty : isEmpty (removePage c (slotPath c.ppgtt.getNumLevels Pde g) (k₀.getIndex g) g
        size s).nodes (slotPath c.ppgtt.getNumLevels Pde g) = true
    · rw [if_pos hempty] at hm ⊢
      obtain ⟨hne, _⟩ := erase_some hm
      obtain ⟨y, hy, hcore⟩ := removePage_shrinks c _ _ g size s hq
      have hkind : y.kind = m.kind := congrArg (·.kind) hcore
      obtain ⟨i, hi⟩ := inhabited q y k hy (hkind.trans hk)
      have hslot : i :: q ≠ k₀.getIndex g :: slotPath c.ppgtt.getNumLevels Pde g := by
        intro heq
        injection heq with _ heq
        exact hne heq
      refine ⟨i, ?_⟩
      rw [erase_of_ne]
      · intro hnone
        have hlayout := removePage_layout c _ _ g size s hslot
        rw [layout_eq_none.mpr hnone] at hlayout
        exact hi (layout_eq_none.mp hlayout.symm)
      · intro heq
        have hd := wf.depth q y hy
        rw [hkind, hk] at hd
        have := congrArg List.length heq
        rw [List.length_cons, slotPath_length] at this
        simp only [fitsDepth, Pde] at hd this
        omega
    · rw [if_neg hempty] at hm ⊢
      by_cases hqs : q = slotPath c.ppgtt.getNumLevels Pde g
      · subst q
        rw [isEmpty_eq_true hwf] at hempty
        push Not at hempty
        exact hempty
      · obtain ⟨y, hy, hcore⟩ := removePage_shrinks c _ _ g size s hq
        have hkind : y.kind = m.kind := congrArg (·.kind) hcore
        obtain ⟨i, hi⟩ := inhabited q y k hy (hkind.trans hk)
        have hslot : i :: q ≠ k₀.getIndex g :: slotPath c.ppgtt.getNumLevels Pde g := by
          intro heq
          injection heq with _ heq
          exact hqs heq
        refine ⟨i, fun hnone => ?_⟩
        have hlayout := removePage_layout c _ _ g size s hslot
        rw [layout_eq_none.mpr hnone] at hlayout
        exact hi (layout_eq_none.mp hlayout.symm)

end FreeRounds
