import Aubstream.TableRuns

/-!
# Last-level tables are never empty

A walk creates a last-level table only to put a leaf into it, and a free removes
the table with its last leaf.
-/

namespace LastTables
open EntryBits PathTree PhysicalAllocator PageNodes PageWalker FreeMemory TreeShape WalkPhases
  LeafStep Placement FreePhases TableRuns

def Inhabited (t : Nodes) : Prop :=
  ∀ q m k, t q = some m → m.kind = .pte k → ∃ i, t (i :: q) ≠ none

theorem inhabited_layout {t : Nodes} : Inhabited (layout t) ↔ Inhabited t := by
  constructor
  · intro h q m k hm hk
    obtain ⟨i, hi⟩ := h q (core m) k (layout_some hm) hk
    exact ⟨i, fun hnone => hi (layout_eq_none.mpr hnone)⟩
  · intro h q m k hm hk
    obtain ⟨x, hx, rfl⟩ := layout_eq_some hm
    obtain ⟨i, hi⟩ := h q x k hx hk
    exact ⟨i, fun hnone => hi (layout_eq_none.mp hnone)⟩

variable {A : Type} [PhysicalAddressAllocator A]

theorem placeTable_new {c : WalkContext} {g level : Nat} {s : Layout A} {q : Path} {m : PageNode}
    (h : (placeTable c g level s).nodes q = some m) : s.nodes q = some m ∨
      q = slotPath c.ppgtt.getNumLevels level g ∧
        m.kind = tableKind c.ppgtt level c.requestedPageSize := by
  unfold placeTable at h
  simp only at h
  split at h
  · dsimp only at h
    by_cases hq : q = slotPath c.ppgtt.getNumLevels level g
    · subst q
      rw [put_self, Option.some.injEq] at h
      exact Or.inr ⟨rfl, by rw [← h]; rfl⟩
    · rw [put_of_ne hq] at h
      exact Or.inl h
  · exact Or.inl h

/-- A table that a descent has put is on the path of the address, with the kind of its level. -/
theorem placeTables_new (c : WalkContext) (last : NodeKind) (g : Nat) :
    ∀ level (s : Layout A) q m, leafLevel last ≤ level →
      (placeTables c last g level s).nodes q = some m → s.nodes q = some m ∨
        ∃ l, leafLevel last < l ∧ l ≤ level ∧ q = slotPath c.ppgtt.getNumLevels l g ∧
          m.kind = tableKind c.ppgtt l c.requestedPageSize := by
  intro level
  induction level with
  | zero => exact fun s q m _ h => Or.inl h
  | succ level ih =>
    intro s q m hl h
    unfold placeTables at h
    by_cases hleaf : leafLevel last = level + 1
    · rw [if_pos hleaf] at h
      exact Or.inl h
    · rw [if_neg hleaf] at h
      rcases ih _ q m (by omega) h with h | ⟨l, h1, h2, h3⟩
      · rcases placeTable_new h with h | h
        · exact Or.inl h
        · exact Or.inr ⟨level + 1, by omega, Nat.le_refl _, h⟩
      · exact Or.inr ⟨l, h1, by omega, h3⟩

theorem tableKind_pte {ppgtt : PpgttKind} {level pageSize : Nat} {k : PteKind}
    (h : tableKind ppgtt level pageSize = .pte k) : level = Pde := by
  by_contra hne
  simp only [tableKind, if_neg hne] at h
  cases h

theorem leafLevel_le {c : WalkContext} {t : Nodes} (wf : Wf c.ppgtt.getNumLevels t) (g : Nat) :
    leafLevel (lastTable c t g) ≤ c.ppgtt.getNumLevels - 1 := by
  have hn := getNumLevels_ge c.ppgtt
  rcases lastTable_cases wf g with ⟨k, h⟩ | h <;> rw [h] <;> simp only [leafLevel, Pte, Pde] <;>
    omega

theorem placePage_inhabited (c : WalkContext) (page : PageRequest) {s : Layout A}
    (wf : Wf c.ppgtt.getNumLevels s.nodes) (h : Inhabited s.nodes) :
    Inhabited (placePage c page s).1.nodes := by
  intro q m k hm hk
  cases hq : s.nodes q with
  | some m₀ =>
    obtain ⟨m', hm', hk', _⟩ := placePage_keeps c page hq
    rw [hm, Option.some.injEq] at hm'
    subst hm'
    obtain ⟨i, hi⟩ := h q m₀ k hq (hk'.symm.trans hk)
    obtain ⟨x, hx⟩ := Option.ne_none_iff_exists'.mp hi
    obtain ⟨x', hx', _⟩ := placePage_keeps c page hx
    exact ⟨i, by rw [hx']; simp⟩
  | none =>
    unfold placePage at hm ⊢
    simp only at hm ⊢
    split at hm
    · rw [hq] at hm
      cases hm
    · rename_i hmode
      rw [if_neg hmode]
      rw [placeRecord_nodes] at hm ⊢
      simp only [placeLeaf] at hm ⊢
      by_cases hslot : q = leafSlot c.ppgtt.getNumLevels (lastTable c s.nodes page.gfxAddress)
          page.gfxAddress
      · exfalso
        have hnew : (placeTables c (lastTable c s.nodes page.gfxAddress) page.gfxAddress
            (c.ppgtt.getNumLevels - 1) s).nodes q = none := by
          cases ht : (placeTables c (lastTable c s.nodes page.gfxAddress) page.gfxAddress
              (c.ppgtt.getNumLevels - 1) s).nodes q with
          | none => rfl
          | some x =>
            rcases placeTables_new c _ _ _ s q x (leafLevel_le wf _) ht with hx | ⟨l, h1, h2, h3, _⟩
            · rw [hq] at hx
              cases hx
            · have hlen := congrArg List.length (hslot.symm.trans h3)
              have hn := getNumLevels_ge c.ppgtt
              rcases lastTable_cases wf page.gfxAddress with ⟨k', hl⟩ | hl <;>
                rw [hl] at hlen h1 <;>
                simp only [leafSlot, List.length_cons, slotPath_length, leafLevel, Pte, Pde] at hlen h1 <;>
                omega
        rw [hslot, put_self, Option.some.injEq] at hm
        rw [hslot] at hnew
        rw [hnew] at hm
        have hleafKind : m.kind = leafKind (lastTable c s.nodes page.gfxAddress).getPageSize := by
          rw [← hm]
          split
          · exact newLeaf_kind c page _ _ _
          · exact newLeaf_kind c page _ _ _
        rw [hk] at hleafKind
        unfold leafKind at hleafKind
        split at hleafKind
        · cases hleafKind
        · cases hleafKind
      · rw [put_of_ne hslot] at hm
        rcases placeTables_new c _ _ _ s q m (leafLevel_le wf _) hm with hx | ⟨l, h1, h2, h3, h4⟩
        · rw [hq] at hx
          cases hx
        · have hl : l = Pde := tableKind_pte (h4.symm.trans hk)
          subst hl
          rcases lastTable_cases wf page.gfxAddress with ⟨k', hlast⟩ | hlast
          · refine ⟨k'.getIndex page.gfxAddress, ?_⟩
            rw [hlast, h3]
            simp [leafSlot]
          · rw [hlast] at h1
            simp only [leafLevel] at h1
            omega

theorem walkPages_inhabited {c : WalkContext} {fuel g size index : Nat} {w w' : WalkState A}
    (wf : Wf c.ppgtt.getNumLevels w.nodes) (expect : c.mode = .Expect → w.physicalAddress = none)
    (h : walkPages c fuel g size index w = some w') (inhabited : Inhabited w.nodes) :
    Inhabited w'.nodes := by
  obtain ⟨_, _, hP, _⟩ := walkPages_rule (P := fun _ w => Inhabited w.nodes)
    (fun page rest w wf expect _ _ hw => by
      have hpage := placePage_inhabited c page (s := layoutOf w) (wf_layout.mpr wf)
        (inhabited_layout.mpr hw)
      rw [← (walkPage_layout page wf expect).1] at hpage
      exact inhabited_layout.mp hpage)
    (fun w w' _ hn _ _ hw => by rw [hn]; exact hw) fuel g size index w w' wf expect h
  exact hP inhabited

end LastTables
