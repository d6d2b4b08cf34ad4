import Aubstream.RepeatedLeaves
import Aubstream.Ps64Walk

/-!
# What a free can lose

A free clears PS64 bits and sets none. So an entry that it changes is that of a
leaf of a 4KB table, and the leaf has lost the bit. A walk that does not list the
leaf leaves it as the free made it.
-/

namespace LostLeaves
open EntryBits PathTree PhysicalAllocator PageNodes PageWalker FreeMemory TreeShape WalkPhases
  Placement FreePhases Ps64Flags Ps64Walk TableRuns FreeRounds AubManager WrittenPaths

variable {A : Type} [PhysicalAddressAllocator A]

theorem pruneTable_unmarks {s : FreeState A} {level : Nat} {q p : Path}
    (h : flag (pruneTable level q s).nodes p = true) : flag s.nodes p = true := by
  rw [pruneTable_nodes] at h
  split at h
  · by_cases hp : p = q
    · rw [hp, flag_of_none (erase_self _ _)] at h
      cases h
    · rwa [flag, erase_of_ne hp] at h
  · exact h

/-- A round of a free marks nothing. -/
theorem freePage_unmarks {c : FreeContext} {s s' : FreeState A} {g size pageSize : Nat}
    (wf : Wf c.ppgtt.getNumLevels s.nodes) (h : freePage c g size s = some (s', pageSize))
    {p : Path} (hflag : flag s'.nodes p = true) : flag s.nodes p = true := by
  rcases freePage_eq wf g size with ⟨_, hf⟩ | ⟨m, _, _, hf⟩ | ⟨m, k, _, _, hf⟩
  · rw [hf] at h
    cases h
  · rw [hf, Option.some.injEq, Prod.mk.injEq] at h
    obtain ⟨rfl, _⟩ := h
    have hremoved := pruneTable_unmarks hflag
    rw [remove_nodes] at hremoved
    by_cases hp : p = slotPath c.ppgtt.getNumLevels Pde g
    · rw [hp, flag_of_none (erase_self _ _)] at hremoved
      cases hremoved
    · rwa [flag, erase_of_ne hp] at hremoved
  · rw [hf, Option.some.injEq, Prod.mk.injEq] at h
    obtain ⟨rfl, _⟩ := h
    have hremoved := pruneTable_unmarks hflag
    rw [removePage_flag] at hremoved
    split at hremoved
    · cases hremoved
    · split at hremoved
      · cases hremoved
      · exact hremoved

theorem freePages_unmarks {c : FreeContext} {t : Nodes} {a : A}
    (wf : Wf c.ppgtt.getNumLevels t) (g size : Nat) {p : Path}
    (hflag : flag (freePages c size g size ⟨t, a, fun _ => []⟩).1.nodes p = true) :
    flag t p = true := by
  obtain ⟨_, h⟩ := freePages_rule (c := c)
    (P := fun _ _ s => ∀ p, flag s.nodes p = true → flag t p = true)
    (fun _ _ _ _ _ wf' _ hs hpage p hp => hs p (freePage_unmarks wf' hpage hp)) size g size
    ⟨t, a, fun _ => []⟩ (Nat.le_refl _) wf fun _ h => h
  rcases h with ⟨_, _, h⟩ | ⟨_, _, _, _, h, _⟩
  · exact h p hflag
  · exact h p hflag

/-- Walks of every mode mark slots of 4KB tables only. -/
theorem walk_marks (m : AubManagerImp A) {params : AllocationParams} {mode : WalkMode}
    {infos : List PageInfo} {phys : Option Nat} {t : Nodes} {a : A} {w : WalkState A}
    (wf : Wf m.tables.ppgtt.getNumLevels t) (expect : mode = .Expect → phys = none)
    (tables : MarksIn4KB t) (h : m.walk params mode infos phys t a = some w) :
    MarksIn4KB w.nodes := by
  rcases walkMemory_some h with ⟨_, rfl⟩ | ⟨_, c, hc, hpages⟩
  · exact tables
  · obtain ⟨_, hppgtt, hm, _⟩ := walkContext_some hc
    rw [← hppgtt] at wf
    obtain ⟨_, _, hmarks, _⟩ := walkPages_rule (P := fun _ w => MarksIn4KB w.nodes)
      (fun _ _ _ wf expect _ hmoves marks => walkPage_tables wf expect hmoves marks)
      (fun w w' _ hnodes _ _ marks => by rwa [hnodes]) _ _ _ _ _ w wf
      (fun hexpect => expect (hm ▸ hexpect)) hpages
    exact hmarks tables

/-- What is lost below the root and not pending is a leaf of a 4KB table, without the PS64 bit. -/
def OnlyLeavesLost (t : Nodes) (lost : Path → Bool) : Prop :=
  ∀ i p x, t (i :: p) = some x → x.pendingWrite = false → lost (i :: p) = true →
    x.ps64 = false ∧ ∃ table, t p = some table ∧ table.kind = .pte .PTE4KB

omit [PhysicalAddressAllocator A] in
theorem OnlyLeavesLost.keep {t t' : Nodes} {lost lost' : Path → Bool}
    (h : OnlyLeavesLost t lost) (kinds : KindsKept t t')
    (old : ∀ q y, t' q = some y → y.pendingWrite = false → lost' q = true →
      t q = some y ∧ lost q = true) : OnlyLeavesLost t' lost' := by
  intro i p y hy hclean hlost
  obtain ⟨hx, hbefore⟩ := old (i :: p) y hy hclean hlost
  obtain ⟨hunmarked, table, htable, hk⟩ := h i p y hx hclean hbefore
  obtain ⟨table', htable', hk'⟩ := kinds p table htable
  exact ⟨hunmarked, table', htable', hk'.trans hk⟩

omit [PhysicalAddressAllocator A] in
/-- A node whose flag a free has not changed is as it was. -/
theorem eq_of_flag {x y : PageNode} (h : y.setPs64 false = x.setPs64 false)
    (hflag : y.ps64 = x.ps64) : y = x := by
  cases x
  cases y
  simp only [PageNode.setPs64, PageNode.mk.injEq] at h hflag ⊢
  simp only [h, hflag, and_self]

omit [PhysicalAddressAllocator A] in
/-- The table of a slot that a free leaves occupied keeps its kind. -/
theorem table_kept {gpu : Gpu} {n : Nat} {t : Nodes} {s : FreeState A} (tracked : Tracked gpu t s)
    (wf : Wf n s.nodes) {i : Nat} {p : Path} {y table : PageNode} (hy : s.nodes (i :: p) = some y)
    (ht : t p = some table) : ∃ table', s.nodes p = some table' ∧ table'.kind = table.kind := by
  obtain ⟨table', ht', _⟩ := wf.parent i p y hy
  obtain ⟨table₀, ht₀, hcore⟩ := tracked.shrinks p table' ht'
  obtain rfl := Option.some.inj (ht₀.symm.trans ht)
  exact ⟨table', ht', congrArg (·.kind) (core_of_setPs64 hcore).1⟩

/-- A free loses nothing but leaves that it has unmarked. -/
theorem OnlyLeavesLost.free {c : FreeContext} {t : Nodes} {a : A} {lost lost' : Path → Bool}
    (h : OnlyLeavesLost t lost) (tables : MarksIn4KB t) (wf : Wf c.ppgtt.getNumLevels t)
    (g size : Nat)
    (tracked : Tracked c.gpu t (freePages c size g size ⟨t, a, fun _ => []⟩).1)
    (wf' : Wf c.ppgtt.getNumLevels (freePages c size g size ⟨t, a, fun _ => []⟩).1.nodes)
    (changed : ∀ q, lost' q = true → lost q = true ∨ entryChanged c.gpu t
      (freePages c size g size ⟨t, a, fun _ => []⟩).1.nodes q = true) :
    OnlyLeavesLost (freePages c size g size ⟨t, a, fun _ => []⟩).1.nodes lost' := by
  intro i p y hy hclean hlost
  obtain ⟨x, hx, hflags⟩ := tracked.shrinks (i :: p) y hy
  have hpending : x.pendingWrite = false := (core_of_setPs64 hflags).2.symm.trans hclean
  have hmarked : y.ps64 = true → x.ps64 = true := by
    intro hy64
    rw [← flag_of_some hx]
    exact freePages_unmarks wf g size ((flag_of_some hy).trans hy64)
  have hlostBefore : y.ps64 = x.ps64 → lost (i :: p) = true := by
    intro hsame
    refine (changed (i :: p) hlost).resolve_right fun hnew => ?_
    simp only [entryChanged, hx, hy, eq_of_flag hflags hsame, bne_self_eq_false] at hnew
    cases hnew
  have hunmarked : y.ps64 = false := by
    by_contra hy64
    rw [Bool.not_eq_false] at hy64
    have hx64 := hmarked hy64
    have hold := (h i p x hx hpending (hlostBefore (hy64.trans hx64.symm))).1
    rw [hx64] at hold
    cases hold
  have htable : ∃ table, t p = some table ∧ table.kind = .pte .PTE4KB := by
    cases hx64 : x.ps64 with
    | true => exact tables i p ((flag_of_some hx).trans hx64)
    | false => exact (h i p x hx hpending (hlostBefore (hunmarked.trans hx64.symm))).2
  obtain ⟨table, ht, hk⟩ := htable
  obtain ⟨table', ht', hk'⟩ := table_kept tracked wf' hy ht
  exact ⟨hunmarked, table', ht', hk'.trans hk⟩

/-- A free marks no slot, and keeps the tables of the slots that it leaves. -/
theorem free_marks {c : FreeContext} {t : Nodes} {a : A} (tables : MarksIn4KB t)
    (wf : Wf c.ppgtt.getNumLevels t) (g size : Nat)
    (tracked : Tracked c.gpu t (freePages c size g size ⟨t, a, fun _ => []⟩).1)
    (wf' : Wf c.ppgtt.getNumLevels (freePages c size g size ⟨t, a, fun _ => []⟩).1.nodes) :
    MarksIn4KB (freePages c size g size ⟨t, a, fun _ => []⟩).1.nodes := by
  intro i p hflag
  obtain ⟨table, ht, hk⟩ := tables i p (freePages_unmarks wf g size hflag)
  obtain ⟨y, hy, _⟩ := some_of_flag hflag
  obtain ⟨table', ht', hk'⟩ := table_kept tracked wf' hy ht
  exact ⟨table', ht', hk'.trans hk⟩

end LostLeaves
