import Aubstream.ClearedSlots

/-!
# Memory that is faithful to tables

A walk keeps the memory faithful if its new tables lie where the memory has no
present entries. A free that passes its range keeps it without a condition.
-/

namespace FaithfulMemory
open EntryBits PathTree PhysicalAllocator PageNodes PageWalker FreeMemory TreeShape WalkPhases
  Placement Translation FreeRounds AubPackets StreamedMemory HardwareWalk EmittedEntries ClearedSlots

/-- Two tables lie in different pages. -/
def TablesApart (t : Nodes) : Prop :=
  ∀ p p' m m', t p = some m → t p' = some m' → ¬ IsLeaf m.kind → ¬ IsLeaf m'.kind → p ≠ p' →
    m.physicalAddress + 4096 ≤ m'.physicalAddress ∨ m'.physicalAddress + 4096 ≤ m.physicalAddress

section
variable {gpu : Gpu} {t t' : Nodes} {image : AubPackets.Memory} {r : Region} {i : Nat} {kind : NodeKind}

theorem hasIndex_lt (h : hasIndex i kind) : i < 512 := by
  cases kind with
  | directory => exact h
  | pte k =>
    cases k with
    | PTE4KB => exact h
    | PTE64KB => exact Nat.lt_trans h (by decide)
    | LegacyPTE64KB => exact h.1
  | page2MB => exact h.elim
  | memory => exact h.elim

theorem TablesApart.slots (h : TablesApart t) : SlotsApart t := by
  intro p p' m m' i i' hm hm' hi hi'
  have hlt := hasIndex_lt hi
  have hlt' := hasIndex_lt hi'
  by_cases hp : p = p'
  · subst p'
    obtain rfl := Option.some.inj (hm.symm.trans hm')
    by_cases hii : i = i'
    · exact Or.inl ⟨rfl, hii⟩
    · omega
  · have := h p p' m m' hm hm' (not_isLeaf_of_hasIndex hi) (not_isLeaf_of_hasIndex hi') hp
    omega

theorem slot_fits (aligned : TablesAligned t) {p : Path} {m : PageNode} (hm : t p = some m)
    (hi : hasIndex i m.kind) : m.physicalAddress + i * 8 + 8 ≤ 2 ^ 64 := by
  obtain ⟨⟨k, hk⟩, hlt⟩ := aligned p m hm (not_isLeaf_of_hasIndex hi)
  have := hasIndex_lt hi
  omega

/-- Trees that differ in flags. -/
theorem faithful_of_layout (same : layout t' = layout t) {read : Nat → Nat}
    (faithful : Faithful gpu t read) : Faithful gpu t' read := by
  intro p m i hm hi present
  obtain ⟨m₀, hm₀, hcore⟩ := layout_eq_some (same ▸ layout_some hm)
  have hkind : m.kind = m₀.kind := congrArg (·.kind) hcore
  have haddress : m.physicalAddress = m₀.physicalAddress := congrArg (·.physicalAddress) hcore
  rw [haddress] at present ⊢
  obtain ⟨child, hchild, facts⟩ := faithful p m₀ i hm₀ (hkind ▸ hi) present
  obtain ⟨child', hchild', hcore'⟩ := layout_eq_some (same.symm ▸ layout_some hchild)
  exact ⟨child', hchild', entryFor_mono (.of_core hcore'.symm) facts⟩

/-- A walk, with any choice of its entries in any order. -/
theorem faithful_walk {A : Type} {w : WalkState A} {a : A} {phys : Option Nat} (hr : r ≠ .gtt)
    (aligned : TablesAligned w.nodes) (apart : SlotsApart w.nodes)
    (emits : Emits gpu (.start t a phys) w)
    (fresh : ∀ p m i, w.nodes p = some m → t p = none → hasIndex i m.kind →
      word image r (m.physicalAddress + i * 8) % 2 = 0)
    (faithful : Faithful gpu t (word image r)) {es : List PageEntryInfo}
    (hes : ∀ e ∈ es, ∃ l, e ∈ w.pageWalkEntries l) :
    Faithful gpu w.nodes (word (storeEntries r image es) r) := by
  have emitted : ∀ e ∈ es, Emitted gpu w.nodes e := by
    intro e he
    obtain ⟨l, hl⟩ := hes e he
    exact (emits.entries l e hl).resolve_left List.not_mem_nil
  intro p m i hm hi present
  have slotted : Slotted es (m.physicalAddress + i * 8) := by
    intro e he
    obtain ⟨i', p', m', _, hm', hi', _, haddress, hlt, _⟩ := emitted e he
    rw [haddress]
    refine ⟨slot_fits aligned hm' hi', hlt, ?_⟩
    rcases apart p' p m' m i' i hm' hm hi' hi with ⟨rfl, rfl⟩ | hbefore | hafter
    · obtain rfl := Option.some.inj (hm'.symm.trans hm)
      exact Or.inl rfl
    · exact Or.inr (Or.inl hbefore)
    · exact Or.inr (Or.inr hafter)
  rw [word_storeEntries hr (slot_fits aligned hm hi) slotted] at present ⊢
  cases hlast : lastAt es (m.physicalAddress + i * 8) with
  | some v =>
    -- the entry is that of the node in this slot
    obtain ⟨i', p', m', child, hm', hi', hchild, haddress, _, facts⟩ := emitted _ (lastAt_some hlast)
    simp only at haddress
    rcases apart p' p m' m i' i hm' hm hi' hi with ⟨rfl, rfl⟩ | hbefore | hafter
    · exact ⟨child, hchild, facts⟩
    · omega
    · omega
  | none =>
    rw [hlast, Option.getD_none] at present
    rw [Option.getD_none]
    cases hold : t p with
    | none => exact absurd (fresh p m i hm hold hi) present
    | some m₀ =>
      obtain ⟨m', hm', same⟩ := emits.grows p m₀ hold
      obtain rfl := Option.some.inj (hm.symm.trans hm')
      have hi₀ : hasIndex i m₀.kind := same.kind ▸ hi
      have haddress := (same.table (not_isLeaf_of_hasIndex hi₀)).1
      rw [haddress] at present ⊢
      obtain ⟨child, hchild, facts⟩ := faithful p m₀ i hold hi₀ present
      obtain ⟨child', hchild', same'⟩ := emits.grows _ child hchild
      exact ⟨child', hchild', entryFor_mono same' facts⟩

/-- A free whose entries are written. -/
theorem faithful_free {A : Type} {n : Nat} {s : FreeState A} (hr : r ≠ .gtt) (wf : Wf n t)
    (wf' : Wf n s.nodes) (aligned : TablesAligned t) (apart : SlotsApart t)
    (cleared : Cleared gpu n t s) (faithful : Faithful gpu t (word image r)) :
    Faithful gpu s.nodes (word (storeEntries r image (emitted s)) r) := by
  intro p m i hm hi present
  obtain ⟨m₀, hm₀, heq⟩ := cleared.tracked.shrinks p m hm
  have hcore := (core_of_setPs64 heq).1
  have hkind : m.kind = m₀.kind := congrArg (·.kind) hcore
  have haddress : m.physicalAddress = m₀.physicalAddress := congrArg (·.physicalAddress) hcore
  rw [hkind] at hi
  rw [haddress] at present ⊢
  have hentry : entryAddress t (i :: p) = m₀.physicalAddress + i * 8 := by rw [entryAddress, hm₀]
  have slotted : Slotted (emitted s) (m₀.physicalAddress + i * 8) := by
    intro e he
    obtain ⟨l, q, clears⟩ := cleared.slot_of_emitted he
    obtain ⟨i', p', m', _, hm', hi', haddress'⟩ := clears.placed wf
    rw [haddress']
    refine ⟨slot_fits aligned hm' hi', clears.value, ?_⟩
    rcases apart p' p m' m₀ i' i hm' hm₀ hi' hi with ⟨rfl, rfl⟩ | hbefore | hafter
    · obtain rfl := Option.some.inj (hm'.symm.trans hm₀)
      exact Or.inl rfl
    · exact Or.inr (Or.inl hbefore)
    · exact Or.inr (Or.inr hafter)
  rw [word_storeEntries hr (slot_fits aligned hm₀ hi) slotted] at present ⊢
  -- a slot that is empty now reads as zero
  have full : t (i :: p) ≠ none → ∃ child, s.nodes (i :: p) = some child := by
    intro ht
    rw [← Option.ne_none_iff_exists']
    intro hnone
    have hzero := cleared.last (i :: p) (List.cons_ne_nil _ _) ht hnone
    rw [hentry] at hzero
    rw [hzero] at present
    exact present rfl
  cases hlast : lastAt (emitted s) (m₀.physicalAddress + i * 8) with
  | some v =>
    rw [hlast] at present
    obtain ⟨l, q, clears⟩ := cleared.slot_of_emitted (lastAt_some hlast)
    obtain ⟨i', p', m', rfl, hm', hi', haddress'⟩ := clears.placed wf
    simp only at haddress'
    rcases apart p' p m' m₀ i' i hm' hm₀ hi' hi with ⟨rfl, rfl⟩ | hbefore | hafter
    · obtain ⟨child, hchild⟩ := full clears.slot.1
      have hlevel : l = Pte := by
        by_contra hne
        rw [(clears.table hne).2] at hchild
        cases hchild
      have hmemory := wf'.memory_of_length hchild (clears.leaf hlevel)
      refine ⟨child, hchild, fun htable => ?_, fun hlarge => ?_⟩
      · rw [hmemory] at htable
        exact absurd .memory htable
      · rw [hmemory] at hlarge
        cases hlarge
    · omega
    · omega
  | none =>
    rw [hlast, Option.getD_none] at present
    rw [Option.getD_none]
    obtain ⟨child₀, hchild₀, facts⟩ := faithful p m₀ i hm₀ hi present
    obtain ⟨child, hchild⟩ := full (by rw [hchild₀]; simp)
    obtain ⟨x, hx, hsame⟩ := cleared.tracked.shrinks _ child hchild
    obtain rfl := Option.some.inj (hchild₀.symm.trans hx)
    exact ⟨child, hchild, entryFor_mono (.of_core (core_of_setPs64 hsame).1) facts⟩

end

end FaithfulMemory
