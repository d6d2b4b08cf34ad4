import Aubstream.StreamedMemory
import Aubstream.EmittedEntries
import Aubstream.FreeRounds

/-!
# The entries of a free

A free writes zeros to the slots that it empties and new entries of pages to slots
of last-level tables. A slot that is empty in the end has a zero as its last entry.
-/

namespace ClearedSlots
open EntryBits PathTree PhysicalAllocator PageNodes PageWalker FreeMemory TreeShape WalkPhases
  FreePhases Placement Translation FreeRounds AubPackets StreamedMemory HardwareWalk EmittedEntries

/-- Slots of tables lie apart. -/
def SlotsApart (t : Nodes) : Prop :=
  ∀ p p' m m' i i', t p = some m → t p' = some m' → hasIndex i m.kind → hasIndex i' m'.kind →
    (p = p' ∧ i = i') ∨ m.physicalAddress + i * 8 + 8 ≤ m'.physicalAddress + i' * 8 ∨
      m'.physicalAddress + i' * 8 + 8 ≤ m.physicalAddress + i * 8

/-- An entry of a free that started on `t`, in the list of `level`. -/
structure ClearsSlot (n : Nat) (t t' : Nodes) (level : Nat) (e : PageEntryInfo) (q : Path) : Prop where
  slot : t q ≠ none ∧ q ≠ []
  address : e.physicalAddress = entryAddress t q
  value : e.tableEntry < 2 ^ 64
  leaf : level = Pte → q.length = n
  table : level ≠ Pte → e.tableEntry = 0 ∧ t' q = none

structure Cleared {A : Type} (gpu : Gpu) (n : Nat) (t : Nodes) (s : FreeState A) : Prop where
  tracked : Tracked gpu t s
  slots : ∀ l e, e ∈ s.pageWalkEntries l → ∃ q, ClearsSlot n t s.nodes l e q
  last : ∀ q, q ≠ [] → t q ≠ none → s.nodes q = none →
    lastAt (emitted s) (entryAddress t q) = some 0

/-- The slot is in a table. -/
theorem ClearsSlot.placed {n level : Nat} {t t' : Nodes} {e : PageEntryInfo} {q : Path} (wf : Wf n t)
    (clears : ClearsSlot n t t' level e q) : ∃ i p m, q = i :: p ∧ t p = some m ∧
      hasIndex i m.kind ∧ e.physicalAddress = m.physicalAddress + i * 8 := by
  obtain ⟨hslot, hne⟩ := clears.slot
  obtain ⟨child, hchild⟩ := Option.ne_none_iff_exists'.mp hslot
  cases q with
  | nil => exact absurd rfl hne
  | cons i p =>
    obtain ⟨m, hm, hi⟩ := wf.parent i p child hchild
    exact ⟨i, p, m, rfl, hm, hi, by rw [clears.address, entryAddress, hm]⟩

theorem Cleared.slot_of_emitted {A : Type} {gpu : Gpu} {n : Nat} {t : Nodes} {s : FreeState A}
    (cleared : Cleared gpu n t s) {e : PageEntryInfo} (he : e ∈ emitted s) :
    ∃ l q, ClearsSlot n t s.nodes l e q := by
  simp only [emitted, List.mem_append] at he
  rcases he with (he | he) | he
  · exact ⟨_, cleared.slots _ e he⟩
  · exact ⟨_, cleared.slots _ e he⟩
  · exact ⟨_, cleared.slots _ e he⟩

/-! ### Last entries -/

section Last
variable {A : Type} {s : FreeState A} {a v : Nat} {es : List PageEntryInfo} {e : PageEntryInfo}

theorem lastAt_snoc_self (es : List PageEntryInfo) (e : PageEntryInfo) :
    lastAt (es ++ [e]) e.physicalAddress = some e.tableEntry := by
  rw [lastAt_append]
  simp [lastAt]

theorem lastAt_snoc_of_ne (h : e.physicalAddress ≠ a) : lastAt (es ++ [e]) a = lastAt es a := by
  rw [lastAt_append]
  simp [lastAt, h]

theorem lastAt_emitted (s : FreeState A) (a : Nat) : lastAt (emitted s) a =
    (lastAt (s.pageWalkEntries Pdp) a).or
      ((lastAt (s.pageWalkEntries Pde) a).or (lastAt (s.pageWalkEntries Pte) a)) := by
  rw [emitted, lastAt_append, lastAt_append]

/-- An entry for another address. -/
theorem lastAt_push_of_ne (level : Nat) (h : e.physicalAddress ≠ a) :
    lastAt (emitted (s.push level e)) a = lastAt (emitted s) a := by
  have each : ∀ l, lastAt ((s.push level e).pageWalkEntries l) a =
      lastAt (s.pageWalkEntries l) a := by
    intro l
    simp only [FreeState.push]
    split
    · exact lastAt_snoc_of_ne h
    · rfl
  simp only [lastAt_emitted, each]

/-- A zero is the last entry, as none but zeros go to the later lists. -/
theorem lastAt_push_zero {level : Nat} (hl : level ≤ Pdp)
    (zeros : ∀ l x, l ≠ Pte → x ∈ s.pageWalkEntries l → x.tableEntry = 0) :
    lastAt (emitted (s.push level ⟨a, 0⟩)) a = some 0 := by
  have later : ∀ l (o : Option Nat), l ≠ Pte → o = some 0 →
      (lastAt (s.pageWalkEntries l) a).or o = some 0 := by
    intro l o hne ho
    cases hv : lastAt (s.pageWalkEntries l) a with
    | none => exact ho
    | some v =>
      have hzero : v = 0 := zeros l ⟨a, v⟩ hne (lastAt_some hv)
      rw [hzero]
      rfl
  have self := fun l => lastAt_snoc_self (s.pageWalkEntries l) ⟨a, 0⟩
  have hcases : level = Pte ∨ level = Pde ∨ level = Pdp := by
    simp only [Pte, Pde, Pdp] at hl ⊢
    omega
  rw [lastAt_emitted]
  rcases hcases with rfl | rfl | rfl
  · simp only [FreeState.push, Pte, Pde, Pdp, if_true, OfNat.ofNat_ne_zero, Nat.one_ne_zero, if_false]
    exact later Pdp _ (by decide) (later Pde _ (by decide) (self Pte))
  · simp only [FreeState.push, Pte, Pde, Pdp, if_true, OfNat.ofNat_ne_one, Nat.zero_ne_one, if_false]
    refine later Pdp _ (by decide) ?_
    rw [self]
    rfl
  · simp only [FreeState.push, if_true, self]
    rfl

end Last

/-! ### Rounds -/

section Rounds
variable {A : Type} [PhysicalAddressAllocator A] {gpu : Gpu} {n : Nat} {t : Nodes} {s : FreeState A}

omit [PhysicalAddressAllocator A] in
theorem entryAddress_inj (apart : SlotsApart t) (wf : Wf n t) {q q' : Path} (hq : q ≠ [])
    (hq' : q' ≠ []) (h : t q ≠ none) (h' : t q' ≠ none)
    (same : entryAddress t q = entryAddress t q') : q = q' := by
  cases q with
  | nil => exact absurd rfl hq
  | cons i p =>
    cases q' with
    | nil => exact absurd rfl hq'
    | cons i' p' =>
      obtain ⟨child, hchild⟩ := Option.ne_none_iff_exists'.mp h
      obtain ⟨child', hchild'⟩ := Option.ne_none_iff_exists'.mp h'
      obtain ⟨m, hm, hi⟩ := wf.parent i p child hchild
      obtain ⟨m', hm', hi'⟩ := wf.parent i' p' child' hchild'
      simp only [entryAddress, hm, hm'] at same
      rcases apart p p' m m' i i' hm hm' hi hi' with ⟨rfl, rfl⟩ | hbefore | hafter
      · rfl
      · omega
      · omega

namespace Cleared

omit [PhysicalAddressAllocator A] in
theorem zeros (h : Cleared gpu n t s) (l : Nat) (x : PageEntryInfo) (hl : l ≠ Pte)
    (hx : x ∈ s.pageWalkEntries l) : x.tableEntry = 0 := by
  obtain ⟨q, clears⟩ := h.slots l x hx
  exact (clears.table hl).1

omit [PhysicalAddressAllocator A] in
theorem present (h : Cleared gpu n t s) {q : Path} {m : PageNode} (hq : s.nodes q = some m) :
    t q ≠ none := by
  obtain ⟨m₀, hm₀, _⟩ := h.tracked.shrinks q m hq
  rw [hm₀]
  simp

theorem remove (h : Cleared gpu n t s) (apart : SlotsApart t) (wf : Wf n t) {level i : Nat}
    {p : Path} {parent m : PageNode} (hl : level ≤ Pdp) (hp : s.nodes p = some parent)
    (hm : s.nodes (i :: p) = some m) (depth : level = Pte → (i :: p).length = n) :
    Cleared gpu n t (s.remove level (i :: p) m) := by
  have haddress := h.tracked.entryAddress_eq hp i
  have hslot := h.present hm
  refine ⟨h.tracked.remove hl hp, ?_, ?_⟩
  · intro l e he
    change e ∈ (s.push level ⟨entryAddress s.nodes (i :: p), 0⟩).pageWalkEntries l at he
    simp only [FreeState.push] at he
    have old : e ∈ s.pageWalkEntries l → ∃ q,
        ClearsSlot n t (s.remove level (i :: p) m).nodes l e q := by
      intro he
      obtain ⟨q, clears⟩ := h.slots l e he
      refine ⟨q, clears.slot, clears.address, clears.value, clears.leaf, fun hne => ?_⟩
      obtain ⟨hzero, hnone⟩ := clears.table hne
      refine ⟨hzero, ?_⟩
      rw [remove_nodes]
      by_cases hq : q = i :: p
      · rw [hq, erase_self]
      · rw [erase_of_ne hq, hnone]
    split at he
    · rename_i heq
      rcases List.mem_append.mp he with he | he
      · exact old he
      · obtain rfl := List.mem_singleton.mp he
        exact ⟨i :: p, ⟨hslot, List.cons_ne_nil _ _⟩, haddress, Nat.two_pow_pos 64,
          fun hpte => depth (heq.symm.trans hpte), fun _ => ⟨rfl, by rw [remove_nodes, erase_self]⟩⟩
    · exact old he
  · intro q hne ht hq
    change lastAt (emitted (s.push level ⟨entryAddress s.nodes (i :: p), 0⟩)) _ = _
    rw [haddress]
    by_cases hqp : q = i :: p
    · rw [hqp]
      exact lastAt_push_zero hl h.zeros
    · rw [remove_nodes, erase_of_ne hqp] at hq
      rw [lastAt_push_of_ne _ fun same => hqp
        (entryAddress_inj apart wf (List.cons_ne_nil _ _) hne hslot ht same).symm]
      exact h.last q hne ht hq

omit [PhysicalAddressAllocator A] in
theorem clearPs64 (h : Cleared gpu n t s) (apart : SlotsApart t) (wf : Wf n t) {i : Nat} {p : Path}
    {parent : PageNode} (hp : s.nodes p = some parent) (depth : (i :: p).length = n) :
    Cleared gpu n t (s.clearPs64 gpu (i :: p)) := by
  have tracked := h.tracked.clearPs64 hp (i := i)
  cases hs : s.nodes (i :: p) with
  | none =>
    simp only [FreeState.clearPs64, hs]
    exact h
  | some ci =>
    have haddress := h.tracked.entryAddress_eq hp i
    have hslot := h.present hs
    have hnodes : ∀ q, s.nodes q = none ↔ (s.clearPs64 gpu (i :: p)).nodes q = none := by
      intro q
      rw [clearPs64_nodes]
      by_cases hq : q = i :: p
      · subst q
        rw [modify_self, Option.map_eq_none_iff]
      · rw [modify_of_ne hq]
    have hentries : (s.clearPs64 gpu (i :: p)).pageWalkEntries =
        (s.push Pte ⟨entryAddress t (i :: p), (ci.setPs64 false).getEntryValue gpu⟩).pageWalkEntries := by
      simp only [FreeState.clearPs64, hs, haddress]
    have hemitted : emitted (s.clearPs64 gpu (i :: p)) =
        emitted (s.push Pte ⟨entryAddress t (i :: p), (ci.setPs64 false).getEntryValue gpu⟩) := by
      simp only [emitted, hentries]
    refine ⟨tracked, ?_, ?_⟩
    · intro l e he
      rw [hentries] at he
      simp only [FreeState.push] at he
      have old : e ∈ s.pageWalkEntries l → ∃ q,
          ClearsSlot n t (s.clearPs64 gpu (i :: p)).nodes l e q := by
        intro he
        obtain ⟨q, clears⟩ := h.slots l e he
        refine ⟨q, clears.slot, clears.address, clears.value, clears.leaf, fun hne => ?_⟩
        obtain ⟨hzero, hnone⟩ := clears.table hne
        exact ⟨hzero, (hnodes q).mp hnone⟩
      split at he
      · rename_i heq
        rcases List.mem_append.mp he with he | he
        · exact old he
        · obtain rfl := List.mem_singleton.mp he
          exact ⟨i :: p, ⟨hslot, List.cons_ne_nil _ _⟩, rfl, Nat.mod_lt _ (by decide),
            fun _ => depth, fun hne => absurd heq hne⟩
      · exact old he
    · intro q hne ht hq
      have hq' := (hnodes q).mpr hq
      rw [hemitted, lastAt_push_of_ne]
      · exact h.last q hne ht hq'
      · intro same
        have hqs := entryAddress_inj apart wf (List.cons_ne_nil _ _) hne hslot ht same
        rw [← hqs, hs] at hq'
        cases hq'

omit [PhysicalAddressAllocator A] in
theorem clearAll (apart : SlotsApart t) (wf : Wf n t) {pte : Path} (depth : pte.length + 1 = n)
    (qs : List Path) (hqs : ∀ q ∈ qs, ∃ i, q = i :: pte) :
    ∀ {s : FreeState A} {parent : PageNode}, Cleared gpu n t s → s.nodes pte = some parent →
      Cleared gpu n t (qs.foldl (fun s q => s.clearPs64 gpu q) s) := by
  induction qs with
  | nil => exact fun h _ => h
  | cons q rest ih =>
    intro s parent h hp
    obtain ⟨i, rfl⟩ := hqs q List.mem_cons_self
    have hparent : (s.clearPs64 gpu (i :: pte)).nodes pte = some parent := by
      rw [clearPs64_nodes, modify_of_ne (by simp)]
      exact hp
    exact ih (fun q hq => hqs q (List.mem_cons_of_mem _ hq)) (h.clearPs64 apart wf hp depth) hparent

theorem removePage (h : Cleared gpu n t s) (apart : SlotsApart t) (wf : Wf n t) {c : FreeContext}
    (hgpu : c.gpu = gpu) {pte : Path} {parent : PageNode} (hp : s.nodes pte = some parent)
    (depth : pte.length + 1 = n) (index g size : Nat) :
    Cleared gpu n t (removePage c pte index g size s) := by
  unfold FreeMemory.removePage
  split
  · exact h
  · rename_i child hc
    have removed := h.remove apart wf (show Pte ≤ Pdp by decide) hp hc fun _ => depth
    simp only
    split
    · rw [hgpu]
      have hparent : (s.remove Pte (index :: pte) child).nodes pte = some parent := by
        rw [remove_nodes, erase_of_ne (by simp)]
        exact hp
      refine clearAll apart wf depth _ (fun q hq => ?_) removed hparent
      rcases mem_brokenSlots.mp hq with ⟨_, i, _, _, rfl⟩ | ⟨_, i, _, _, rfl⟩
      · exact ⟨i, rfl⟩
      · exact ⟨i, rfl⟩
    · exact removed

theorem pruneTable (h : Cleared gpu n t s) (apart : SlotsApart t) (wf : Wf n t)
    (wf' : Wf n s.nodes) {level : Nat} (hl : level ≤ Pdp) (hlevel : level ≠ Pte) {p : Path}
    (hp : p ≠ []) : Cleared gpu n t (pruneTable level p s) := by
  unfold FreeMemory.pruneTable
  split
  · exact h
  · rename_i m hm
    split
    · cases p with
      | nil => exact absurd rfl hp
      | cons i q =>
        obtain ⟨parent, hparent, _⟩ := wf'.parent i q m hm
        exact h.remove apart wf hl hparent hm fun hpte => absurd hpte hlevel
    · exact h

end Cleared

theorem freePage_cleared {c : FreeContext} {s s' : FreeState A} {g size pageSize : Nat}
    (apart : SlotsApart t) (wf₀ : Wf c.ppgtt.getNumLevels t) (wf : Wf c.ppgtt.getNumLevels s.nodes)
    (h : Cleared c.gpu c.ppgtt.getNumLevels t s)
    (hpage : freePage c g size s = some (s', pageSize)) :
    Cleared c.gpu c.ppgtt.getNumLevels t s' := by
  have hn := getNumLevels_ge c.ppgtt
  rcases freePage_eq wf g size with ⟨_, hf⟩ | ⟨m, hs, hk, hf⟩ | ⟨m, k, hs, hk, hf⟩
  · rw [hf] at hpage
    cases hpage
  · rw [hf, Option.some.injEq, Prod.mk.injEq] at hpage
    obtain ⟨rfl, _⟩ := hpage
    have hcons := slotPath_cons (n := c.ppgtt.getNumLevels) (l := Pde) g
      (by simp only [Pde]; omega)
    have hwf : Wf c.ppgtt.getNumLevels
        (s.remove Pde (slotPath c.ppgtt.getNumLevels Pde g) m).nodes := by
      rw [remove_nodes]
      exact wf.erase_childless (slotPath_ne_nil g (by simp only [Pde]; omega))
        fun i => wf.none_of_childless hs (by rw [hk]; exact id)
    rw [hcons] at hs
    obtain ⟨parent, hparent, _⟩ := wf.parent _ _ _ hs
    have removed := h.remove apart wf₀ (show Pde ≤ Pdp by decide) hparent hs
      fun hpte => absurd hpte (by decide)
    rw [← hcons] at removed
    exact removed.pruneTable apart wf₀ hwf (by decide) (by decide)
      (slotPath_ne_nil g (by simp only [Pdp]; omega))
  · rw [hf, Option.some.injEq, Prod.mk.injEq] at hpage
    obtain ⟨rfl, _⟩ := hpage
    have depth : (slotPath c.ppgtt.getNumLevels Pde g).length + 1 = c.ppgtt.getNumLevels := by
      rw [slotPath_length]
      simp only [Pde]
      omega
    exact (h.removePage apart wf₀ rfl hs depth _ _ _).pruneTable apart wf₀
      (removePage_wf wf depth _ _ _) (by decide) (by decide)
      (slotPath_ne_nil g (by simp only [Pde]; omega))

omit [PhysicalAddressAllocator A] in
theorem cleared_start (gpu : Gpu) (n : Nat) (t : Nodes) (a : A) :
    Cleared gpu n t ⟨t, a, fun _ => []⟩ :=
  ⟨tracked_refl gpu ⟨t, a, fun _ => []⟩, fun _ _ he => absurd he List.not_mem_nil,
    fun _ _ ht hq => absurd hq ht⟩

theorem freeMemory_cleared {ppgtt : PpgttKind} (apart : SlotsApart t) (wf : Wf ppgtt.getNumLevels t)
    (a : A) (g size : Nat) :
    Wf ppgtt.getNumLevels (freeMemory gpu ppgtt t a g size).1.nodes ∧
      Cleared gpu ppgtt.getNumLevels t (freeMemory gpu ppgtt t a g size).1 := by
  obtain ⟨hwf, h⟩ := freePages_rule (c := ⟨ppgtt, gpu, g, g + size⟩)
    (P := fun _ _ s => Cleared gpu ppgtt.getNumLevels t s)
    (fun _ _ _ _ _ wf' _ cleared hpage => freePage_cleared apart wf wf' cleared hpage) size g size
    ⟨t, a, fun _ => []⟩ (Nat.le_refl _) wf (cleared_start gpu _ t a)
  rcases h with ⟨_, _, cleared⟩ | ⟨_, _, _, _, cleared, _⟩
  · exact ⟨hwf, cleared⟩
  · exact ⟨hwf, cleared⟩

end Rounds

end ClearedSlots
