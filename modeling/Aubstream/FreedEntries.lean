import Aubstream.LatestEntries

/-!
# The last entries of a free

A rule for what each single change of a free keeps. With it: the last entry that a
free has for a slot which stays occupied is that of the node there.
-/

namespace FreedEntries
open EntryBits PathTree PhysicalAllocator PageNodes PageWalker FreeMemory TreeShape WalkPhases
  FreePhases Placement FreeRounds StreamedMemory ClearedSlots LatestEntries

section
variable {A : Type} [PhysicalAddressAllocator A]

/-- Kept by each single change of a free: a node leaves its slot, or a page loses PS64. -/
structure Stable (c : FreeContext) (P : FreeState A → Prop) : Prop where
  remove : ∀ (s : FreeState A) level i p parent m, level ≤ Pdp →
    (level = Pte → (i :: p).length = c.ppgtt.getNumLevels) → s.nodes p = some parent →
    s.nodes (i :: p) = some m → P s → P (s.remove level (i :: p) m)
  clearPs64 : ∀ (s : FreeState A) i p parent, (i :: p).length = c.ppgtt.getNumLevels →
    s.nodes p = some parent → P s → P (s.clearPs64 c.gpu (i :: p))

namespace Stable

variable {c : FreeContext} {P : FreeState A → Prop} {s s' : FreeState A} {p : Path}
  {parent : PageNode}

theorem clearAll (h : Stable c P) (depth : p.length + 1 = c.ppgtt.getNumLevels) {qs : List Path}
    (hqs : ∀ q ∈ qs, ∃ i, q = i :: p) (hp : s.nodes p = some parent) (hs : P s) :
    P (qs.foldl (fun s q => s.clearPs64 c.gpu q) s) := by
  induction qs generalizing s with
  | nil => exact hs
  | cons q rest ih =>
    obtain ⟨⟨i, rfl⟩, hrest⟩ := List.forall_mem_cons.mp hqs
    refine ih hrest ?_ (h.clearPs64 s i p parent depth hp hs)
    rw [clearPs64_nodes, modify_of_ne (by simp)]
    exact hp

theorem removePage (h : Stable c P) (depth : p.length + 1 = c.ppgtt.getNumLevels)
    (hp : s.nodes p = some parent) (hs : P s) (index g size : Nat) :
    P (removePage c p index g size s) := by
  unfold FreeMemory.removePage
  split
  · exact hs
  · rename_i child hchild
    have removed := h.remove s Pte index p parent child (by decide) (fun _ => depth) hp hchild hs
    simp only
    split
    · have kept : (s.remove Pte (index :: p) child).nodes p = some parent := by
        rw [remove_nodes, erase_of_ne (by simp)]
        exact hp
      refine h.clearAll depth (fun q hq => ?_) kept removed
      rcases mem_brokenSlots.mp hq with ⟨_, i, _, _, rfl⟩ | ⟨_, i, _, _, rfl⟩
      · exact ⟨i, rfl⟩
      · exact ⟨i, rfl⟩
    · exact removed

theorem pruneTable (h : Stable c P) {n level : Nat} (wf : Wf n s.nodes) (hl : level ≤ Pdp)
    (hlevel : level ≠ Pte) (hp : p ≠ []) (hs : P s) : P (pruneTable level p s) := by
  unfold FreeMemory.pruneTable
  split
  · exact hs
  · rename_i m hm
    split
    · cases p with
      | nil => exact absurd rfl hp
      | cons i q =>
        obtain ⟨parent, hparent, _⟩ := wf.parent i q m hm
        exact h.remove s level i q parent m hl (fun hpte => absurd hpte hlevel) hparent hm hs
    · exact hs

theorem freePage (h : Stable c P) (wf : Wf c.ppgtt.getNumLevels s.nodes) {g size pageSize : Nat}
    (hpage : freePage c g size s = some (s', pageSize)) (hs : P s) : P s' := by
  have hn : 4 ≤ c.ppgtt.getNumLevels := by cases c.ppgtt <;> decide
  rcases freePage_eq wf g size with ⟨_, hf⟩ | ⟨m, hm, hk, hf⟩ | ⟨m, k, hm, hk, hf⟩
  · rw [hf] at hpage
    cases hpage
  · rw [hf, Option.some.injEq, Prod.mk.injEq] at hpage
    obtain ⟨rfl, _⟩ := hpage
    have hwf : Wf c.ppgtt.getNumLevels (s.remove Pde (slotPath c.ppgtt.getNumLevels Pde g) m).nodes := by
      rw [remove_nodes]
      exact wf.erase_childless (slotPath_ne_nil g (by simp only [Pde]; omega))
        fun i => wf.none_of_childless hm (by rw [hk]; exact id)
    have hcons := slotPath_cons (n := c.ppgtt.getNumLevels) (l := Pde) g (by simp only [Pde]; omega)
    rw [hcons] at hm
    obtain ⟨parent, hparent, _⟩ := wf.parent _ _ _ hm
    have removed := h.remove s Pde _ _ parent m (by decide) (fun hpte => absurd hpte (by decide))
      hparent hm hs
    rw [← hcons] at removed
    exact h.pruneTable hwf (by decide) (by decide)
      (slotPath_ne_nil g (by simp only [Pdp]; omega)) removed
  · rw [hf, Option.some.injEq, Prod.mk.injEq] at hpage
    obtain ⟨rfl, _⟩ := hpage
    have depth : (slotPath c.ppgtt.getNumLevels Pde g).length + 1 = c.ppgtt.getNumLevels := by
      rw [slotPath_length]
      simp only [Pde]
      omega
    exact h.pruneTable (removePage_wf wf depth _ _ _) (by decide) (by decide)
      (slotPath_ne_nil g (by simp only [Pde]; omega)) (h.removePage depth hm hs _ _ _)

/-- A whole free. -/
theorem freeMemory {gpu : Gpu} {ppgtt : PpgttKind} {t : Nodes} {a : A} {g size : Nat}
    (h : Stable ⟨ppgtt, gpu, g, g + size⟩ P) (wf : Wf ppgtt.getNumLevels t)
    (hs : P ⟨t, a, fun _ => []⟩) : P (freeMemory gpu ppgtt t a g size).1 := by
  have rounds := (freePages_rule (c := ⟨ppgtt, gpu, g, g + size⟩) (P := fun _ _ s => P s)
    (fun _ _ _ _ _ wf' _ hs hpage => h.freePage wf' hpage hs) size g size ⟨t, a, fun _ => []⟩
    (Nat.le_refl _) wf hs).2
  rcases rounds with ⟨_, _, hs⟩ | ⟨_, _, _, _, hs, _⟩
  · exact hs
  · exact hs

end Stable

end

section
variable {A : Type} {gpu : Gpu} {t : Nodes} {s : FreeState A}

/-- The last entry that a free has for an address is that of the node there, if there is one. -/
def CurrentFreed (gpu : Gpu) (t : Nodes) (s : FreeState A) : Prop :=
  ∀ l a v, lastAt (s.pageWalkEntries l) a = some v → ∃ q, q ≠ [] ∧ t q ≠ none ∧
    a = entryAddress t q ∧ (l ≠ Pte → s.nodes q = none) ∧
    ∀ m, s.nodes q = some m → v = m.getEntryValue gpu

theorem lastAt_push {level l : Nat} {e : PageEntryInfo} {a v : Nat}
    (h : lastAt ((s.push level e).pageWalkEntries l) a = some v) :
    (l = level ∧ a = e.physicalAddress ∧ v = e.tableEntry) ∨
      lastAt (s.pageWalkEntries l) a = some v ∧ (l = level → a ≠ e.physicalAddress) := by
  simp only [FreeState.push] at h
  split at h
  · rename_i hl
    rw [lastAt_snoc] at h
    split at h
    · rename_i haddress
      exact Or.inl ⟨hl, haddress.symm, (Option.some.inj h).symm⟩
    · rename_i haddress
      exact Or.inr ⟨h, fun _ heq => haddress heq.symm⟩
  · rename_i hl
    exact Or.inr ⟨h, fun heq => absurd heq hl⟩

theorem CurrentFreed.remove [PhysicalAddressAllocator A] (h : CurrentFreed gpu t s)
    (tracked : Tracked gpu t s) {level i : Nat} {p : Path} {parent m : PageNode}
    (hp : s.nodes p = some parent) (hm : s.nodes (i :: p) = some m) :
    CurrentFreed gpu t (s.remove level (i :: p) m) := by
  have hslot : t (i :: p) ≠ none := by
    obtain ⟨m₀, hm₀, _⟩ := tracked.shrinks _ m hm
    rw [hm₀]
    simp
  intro l a v hlast
  rcases lastAt_push hlast with ⟨_, rfl, rfl⟩ | ⟨hold, _⟩
  · refine ⟨i :: p, List.cons_ne_nil _ _, hslot, tracked.entryAddress_eq hp i, fun _ => ?_,
      fun x hx => ?_⟩
    · rw [remove_nodes, erase_self]
    · rw [remove_nodes, erase_self] at hx
      cases hx
  · obtain ⟨q, hne, ht, haddress, hgone, hvalue⟩ := h l a v hold
    refine ⟨q, hne, ht, haddress, fun hl => ?_, fun x hx => hvalue x (erase_some hx).2⟩
    by_cases hq : q = i :: p
    · rw [hq, remove_nodes, erase_self]
    · rw [remove_nodes, erase_of_ne hq, hgone hl]

theorem CurrentFreed.clearPs64 (h : CurrentFreed gpu t s) (tracked : Tracked gpu t s)
    {i : Nat} {p : Path} {parent : PageNode} (hp : s.nodes p = some parent) :
    CurrentFreed gpu t (s.clearPs64 gpu (i :: p)) := by
  cases hs : s.nodes (i :: p) with
  | none =>
    simp only [FreeState.clearPs64, hs]
    exact h
  | some ci =>
    have hnodes : (s.clearPs64 gpu (i :: p)).nodes = put s.nodes (i :: p) (ci.setPs64 false) := by
      rw [clearPs64_nodes, modify_some hs]
    have haddress := tracked.entryAddress_eq hp i
    obtain ⟨m₀, hm₀, _⟩ := tracked.shrinks _ ci hs
    intro l a v hlast
    rw [hnodes]
    simp only [FreeState.clearPs64, hs] at hlast
    rcases lastAt_push hlast with ⟨rfl, rfl, rfl⟩ | ⟨hold, hother⟩
    · refine ⟨i :: p, List.cons_ne_nil _ _, by rw [hm₀]; simp, haddress, fun hl => absurd rfl hl,
        fun x hx => ?_⟩
      rw [put_self, Option.some.injEq] at hx
      rw [hx]
    · obtain ⟨q, hne, ht, rfl, hgone, hvalue⟩ := h l a v hold
      have hq : q ≠ i :: p := by
        rintro rfl
        by_cases hl : l = Pte
        · exact hother hl haddress.symm
        · cases hs.symm.trans (hgone hl)
      refine ⟨q, hne, ht, rfl, fun hl => ?_, fun x hx => hvalue x ?_⟩
      · rw [put_of_ne hq, hgone hl]
      · rwa [put_of_ne hq] at hx

/-- The entries of a whole free. -/
theorem freeMemory_current [PhysicalAddressAllocator A] {ppgtt : PpgttKind}
    (wf : Wf ppgtt.getNumLevels t) (a : A) (g size : Nat) :
    CurrentFreed gpu t (freeMemory gpu ppgtt t a g size).1 := by
  have kept : Stable ⟨ppgtt, gpu, g, g + size⟩
      fun s : FreeState A => Tracked gpu t s ∧ CurrentFreed gpu t s :=
    ⟨fun _ _ _ _ _ _ hl _ hp hm h => ⟨h.1.remove hl hp, h.2.remove h.1 hp hm⟩,
      fun _ _ _ _ _ hp h => ⟨h.1.clearPs64 hp, h.2.clearPs64 h.1 hp⟩⟩
  exact (kept.freeMemory wf ⟨tracked_refl gpu ⟨t, a, fun _ => []⟩,
    fun _ _ _ hlast => by cases hlast⟩).2

/-- What a free writes last to a slot that it leaves occupied is the entry of the node there. -/
theorem CurrentFreed.written {n : Nat} (h : CurrentFreed gpu t s) (apart : SlotsApart t) (wf : Wf n t)
    {q : Path} {x : PageNode} (hq : q ≠ []) (ht : t q ≠ none) (hx : s.nodes q = some x) {v : Nat}
    (last : lastAt (emitted s) (entryAddress t q) = some v) : v = x.getEntryValue gpu := by
  have here : ∀ l, lastAt (s.pageWalkEntries l) (entryAddress t q) = some v →
      v = x.getEntryValue gpu := by
    intro l hl
    obtain ⟨p, hne, hp, haddress, _, hvalue⟩ := h l _ v hl
    obtain rfl := entryAddress_inj apart wf hq hne ht hp haddress
    exact hvalue x hx
  simp only [lastAt_emitted, Option.or_eq_some_iff] at last
  rcases last with hl | ⟨_, hl | ⟨_, hl⟩⟩
  · exact here _ hl
  · exact here _ hl
  · exact here _ hl

end

end FreedEntries
