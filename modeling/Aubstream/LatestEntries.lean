import Aubstream.ClearedSlots
import Aubstream.WrittenPaths

/-!
# The last entries of a walk

A walk that changes a node emits its entry after the change, or has emitted the same
entry before. So the last entry for a slot is that of the node which the walk leaves there.
-/

namespace LatestEntries
open EntryBits PathTree PhysicalAllocator PageNodes PageWalker TreeShape WalkPhases LeafStep
  Placement Ps64Flags Ps64Walk Translation PendingEntries PendingWalks TableRuns StreamedMemory
  MapFrame AubManager WrittenPaths ClearedSlots

/-- The last entry that a list has for an address is that of a node there. Nodes in `changed` have
changed since. -/
def Latest {A : Type} (gpu : Gpu) (n : Nat) (changed : Path → Prop) (w : WalkState A) : Prop :=
  ∀ l a v, lastAt (w.pageWalkEntries l) a = some v → ∃ q m, q.length + l = n ∧ q ≠ [] ∧
    w.nodes q = some m ∧ a = entryAddress w.nodes q ∧ (changed q ∨ v = m.getEntryValue gpu)

/-- No node has changed. -/
def Current {A : Type} (gpu : Gpu) (n : Nat) (w : WalkState A) : Prop :=
  Latest gpu n (fun _ => False) w

theorem lastAt_snoc (es : List PageEntryInfo) (e : PageEntryInfo) (a : Nat) :
    lastAt (es ++ [e]) a = if e.physicalAddress = a then some e.tableEntry else lastAt es a := by
  split
  · rename_i h
    exact h ▸ lastAt_snoc_self es e
  · rename_i h
    exact lastAt_snoc_of_ne h

section
variable {A : Type} {gpu : Gpu} {n level : Nat} {changed changed' : Path → Prop}
  {w w' : WalkState A} {q : Path}

theorem Latest.mono (h : Latest gpu n changed w) (sub : ∀ p, changed p → changed' p) :
    Latest gpu n changed' w := by
  intro l a v hlast
  obtain ⟨p, m, depth, hne, hp, haddress, hvalue⟩ := h l a v hlast
  exact ⟨p, m, depth, hne, hp, haddress, hvalue.imp_left (sub p)⟩

theorem Current.latest (h : Current gpu n w) (changed : Path → Prop) : Latest gpu n changed w :=
  Latest.mono h fun _ hno => hno.elim

/-- A change of nodes alone. -/
theorem Latest.change (h : Latest gpu n changed w)
    (entries : w'.pageWalkEntries = w.pageWalkEntries) (sub : ∀ p, changed p → changed' p)
    (kept : ∀ p m, p ≠ [] → w.nodes p = some m → ∃ m', w'.nodes p = some m' ∧
      entryAddress w'.nodes p = entryAddress w.nodes p ∧
      (changed' p ∨ m'.getEntryValue gpu = m.getEntryValue gpu)) : Latest gpu n changed' w' := by
  intro l a v hlast
  rw [entries] at hlast
  obtain ⟨p, m, depth, hne, hp, rfl, hvalue⟩ := h l a v hlast
  obtain ⟨m', hp', haddress, hsame⟩ := kept p m hne hp
  refine ⟨p, m', depth, hne, hp', haddress.symm, ?_⟩
  rcases hsame with hchanged | hsame
  · exact Or.inl hchanged
  · exact hvalue.imp (sub p) fun heq => heq.trans hsame.symm

/-- The entry of a slot is the last one when it has been emitted. -/
theorem Latest.pushEntry (h : Latest gpu n changed w) (depth : q.length + level = n ∧ q ≠ []) :
    Latest gpu n (fun p => changed p ∧ p ≠ q) (w.pushEntry gpu level q) := by
  intro l a v hlast
  rw [pushEntry_nodes]
  have old : lastAt (w.pageWalkEntries l) a = some v → (l = level → ∀ m, w.nodes q = some m →
      entryAddress w.nodes q ≠ a) → ∃ p m, p.length + l = n ∧ p ≠ [] ∧ w.nodes p = some m ∧
        a = entryAddress w.nodes p ∧ ((changed p ∧ p ≠ q) ∨ v = m.getEntryValue gpu) := by
    intro hold hother
    obtain ⟨p, m, hdepth, hne, hp, rfl, hvalue⟩ := h l a v hold
    refine ⟨p, m, hdepth, hne, hp, rfl, hvalue.imp_left fun hchanged => ⟨hchanged, ?_⟩⟩
    rintro rfl
    exact hother (by omega) m hp rfl
  cases hq : w.nodes q with
  | none =>
    simp only [WalkState.pushEntry, hq] at hlast
    exact old hlast fun _ m hm => by cases hq.symm.trans hm
  | some m =>
    simp only [WalkState.pushEntry, hq] at hlast
    split at hlast
    · rename_i hl
      rw [lastAt_snoc] at hlast
      split at hlast
      · rename_i haddress
        exact ⟨q, m, hl ▸ depth.1, depth.2, hq, haddress.symm, Or.inr (Option.some.inj hlast).symm⟩
      · rename_i haddress
        exact old hlast fun _ _ _ => haddress
    · rename_i hl
      exact old hlast fun heq => absurd heq hl

theorem Latest.emitAndTrack (h : Latest gpu n changed w) (depth : q.length + level = n ∧ q ≠ []) :
    Latest gpu n (fun p => changed p ∧ p ≠ q) (emitAndTrack gpu level q w) := by
  have pushed : Latest gpu n (fun p => changed p ∧ p ≠ q) (w.pushEntry gpu level q) := h.pushEntry depth
  unfold PageWalker.emitAndTrack
  simp only
  split
  · exact pushed
  · exact pushed

theorem Current.emitAndTrack (h : Latest gpu n (· = q) w) (depth : q.length + level = n ∧ q ≠ []) :
    Current gpu n (emitAndTrack gpu level q w) :=
  (Latest.emitAndTrack h depth).mono fun _ ⟨heq, hne⟩ => hne heq

/-- A change of flags of one node. -/
theorem Latest.modify (h : Latest gpu n changed w) {f : PageNode → PageNode}
    (hf : ∀ m, (f m).physicalAddress = m.physicalAddress) (q : Path) :
    Latest gpu n (fun p => changed p ∨ p = q) { w with nodes := PathTree.modify w.nodes q f } := by
  refine h.change rfl (fun _ => Or.inl) fun p m _ hp => ?_
  have haddress : entryAddress (PathTree.modify w.nodes q f) p = entryAddress w.nodes p :=
    entryAddress_modify hf
  by_cases hpq : p = q
  · subst p
    exact ⟨f m, by simp only [modify_self, hp, Option.map_some], haddress, Or.inl (Or.inr rfl)⟩
  · exact ⟨m, by simp only [modify_of_ne hpq, hp], haddress, Or.inr rfl⟩

/-! ### Groups -/

/-- The entry of the changed node in `q` will be emitted when its group is complete. -/
def Ready (w : WalkState A) (level : Nat) (q : Path) : Prop :=
  ∃ m, w.nodes q = some m ∧ m.pendingWrite = true ∧ (m.ps64 = false ∨ q ∉ w.pendingNodes level)

theorem Latest.emitSlot (h : Latest gpu n changed w) (depth : q.length + level = n ∧ q ≠ [])
    {isNewPs64 : Bool} (emits : (isNewPs64 || w.isNewPending level q) = true) :
    Latest gpu n (fun p => changed p ∧ p ≠ q) (emitSlot gpu level q isNewPs64 w) := by
  have pushed : Latest gpu n (fun p => changed p ∧ p ≠ q) (w.pushEntry gpu level q) := h.pushEntry depth
  unfold PendingEntries.emitSlot
  simp only [emits, if_true]
  split
  · exact pushed
  · exact pushed

/-- The completion of another slot, or of a changed slot that is ready. -/
theorem Latest.completeSlot (h : Latest gpu n changed w) (depth : q.length + level = n ∧ q ≠ [])
    (sub : ∀ p, changed p → changed' p ∨ p = q ∧ Ready w level q) :
    Latest gpu n changed' (completeSlot gpu level q w) := by
  cases hq : w.nodes q with
  | none =>
    rw [completeSlot_none hq]
    refine h.mono fun p hp => (sub p hp).resolve_right ?_
    rintro ⟨_, m, hm, _⟩
    cases hq.symm.trans hm
  | some m =>
    rw [completeSlot_eq hq]
    have marked := h.modify markPs64_physicalAddress q
    by_cases emits : (!m.ps64 || WalkState.isNewPending
        { w with nodes := PathTree.modify w.nodes q markPs64 } level q) = true
    · refine (Latest.emitSlot marked depth emits).mono fun p ⟨hp, hne⟩ => ?_
      exact (sub p (hp.resolve_right hne)).resolve_right fun hready => hne hready.1
    · -- nothing is emitted for a slot that was marked and is listed, and the slot stays as it is
      rw [Bool.not_eq_true, Bool.or_eq_false_iff, Bool.not_eq_false'] at emits
      obtain ⟨hmarked, hlisted⟩ := emits
      have hsame : PathTree.modify w.nodes q markPs64 = w.nodes := by
        rw [modify_some hq, markPs64, hmarked, if_pos rfl, put_eq_self hq]
      rw [hsame] at hlisted ⊢
      have hquiet : PendingEntries.emitSlot gpu level q (!m.ps64) w = w := by
        simp only [PendingEntries.emitSlot, hmarked, hlisted, Bool.not_true, Bool.or_self,
          Bool.false_eq_true, if_false]
      rw [show ({ w with nodes := w.nodes } : WalkState A) = w from rfl, hquiet]
      refine h.mono fun p hp => (sub p hp).resolve_right ?_
      rintro ⟨_, m', hm', hpending, hfresh⟩
      obtain rfl := Option.some.inj (hq.symm.trans hm')
      have hnew := isNewPending_iff.mpr ⟨⟨m, hq, hpending⟩,
        hfresh.resolve_left fun hclear => by rw [hmarked] at hclear; cases hclear⟩
      cases hlisted.symm.trans hnew

theorem Latest.downgradeSlot (h : Latest gpu n changed w) (depth : q.length + level = n ∧ q ≠ []) :
    Latest gpu n (fun p => changed p ∧ p ≠ q) (downgradeSlot gpu level q w) := by
  cases hq : w.nodes q with
  | none =>
    simp only [PageWalker.downgradeSlot, hq]
    intro l a v hlast
    obtain ⟨p, m, hdepth, hne, hp, haddress, hvalue⟩ := h l a v hlast
    refine ⟨p, m, hdepth, hne, hp, haddress, hvalue.imp_left fun hchanged => ⟨hchanged, ?_⟩⟩
    rintro rfl
    cases hq.symm.trans hp
  | some m =>
    rw [downgradeSlot_eq hq]
    have unmarked := h.modify (f := unmarkPs64) (fun _ => rfl) q
    exact (Latest.emitAndTrack unmarked depth).mono fun _ hp => ⟨hp.1.resolve_right hp.2, hp.2⟩

/-- A loop over slots that settles the changed one and keeps the others settled. -/
theorem current_foldl {f : WalkState A → Path → WalkState A} {P : WalkState A → Prop}
    {qs : List Path} (hq : q ∈ qs) (before : ∀ w p, p ∈ qs → p ≠ q → P w → P (f w p))
    (here : ∀ w, P w → Current gpu n (f w q))
    (after : ∀ w p, p ∈ qs → Current gpu n w → Current gpu n (f w p)) (start : P w) :
    Current gpu n (qs.foldl f w) := by
  have rest : ∀ (ps : List Path) w, (∀ p ∈ ps, p ∈ qs) → Current gpu n w →
      Current gpu n (ps.foldl f w) :=
    fun ps w hps hw => List.foldlRecOn ps f hw fun w hw p hp => after w p (hps p hp) hw
  have later : ∀ (ps : List Path) w, (∀ p ∈ ps, p ∈ qs) → q ∈ ps → P w →
      Current gpu n (ps.foldl f w) := by
    intro ps
    induction ps with
    | nil => exact fun _ _ hnil => absurd hnil List.not_mem_nil
    | cons p ps ih =>
      intro w hall hmem hw
      obtain ⟨hp, hps⟩ := List.forall_mem_cons.mp hall
      rw [List.foldl_cons]
      by_cases hpq : p = q
      · subst p
        exact rest ps _ hps (here w hw)
      · exact ih _ hps ((List.mem_cons.mp hmem).resolve_left (Ne.symm hpq)) (before w p hp hpq hw)
  exact later qs w (fun _ hp => hp) hq start

theorem Current.completeSlot (h : Current gpu n w) (depth : q.length + level = n ∧ q ≠ []) :
    Current gpu n (completeSlot gpu level q w) :=
  Latest.completeSlot h depth fun _ => False.elim

theorem Current.downgradeSlot (h : Current gpu n w) (depth : q.length + level = n ∧ q ≠ []) :
    Current gpu n (downgradeSlot gpu level q w) :=
  (Latest.downgradeSlot h depth).mono fun _ hno => hno.1

/-- The PS64 branch, with the entered leaf changed or not. -/
theorem current_updatePs64 {c : WalkContext} {page : PageRequest} {parent : Path} {index : Nat}
    {was : Bool} (h : Latest c.gpu n (· = index :: parent) w)
    (ready : Current c.gpu n w ∨ (isPs64GroupComplete c.gpu w.nodes parent (index - index % 16) = true →
      Ready w level (index :: parent))) (depth : parent.length + 1 + level = n) :
    Current c.gpu n (updatePs64 c page level parent index was w) := by
  have slots := @groupSlots_depth parent (index - index % 16) _ _ depth
  have hq : index :: parent ∈ groupSlots parent (index - index % 16) :=
    mem_groupSlots.mpr ⟨index % 16, Nat.mod_lt _ (by decide), by congr 1; omega⟩
  have hdepth : (index :: parent).length + level = n ∧ index :: parent ≠ [] :=
    ⟨depth, List.cons_ne_nil _ _⟩
  unfold updatePs64
  simp only
  split
  · rename_i hcomplete
    refine current_foldl (P := fun w => Current c.gpu n w ∨ Latest c.gpu n (· = index :: parent) w ∧
      Ready w level (index :: parent)) hq ?_ ?_ (fun w p hp hw => hw.completeSlot (slots p hp))
      (ready.imp_right fun hready => ⟨h, hready hcomplete⟩)
    · intro w p hp hpq hw
      refine hw.imp (fun hw => hw.completeSlot (slots p hp)) fun ⟨hw, hready⟩ => ?_
      refine ⟨Latest.completeSlot hw (slots p hp) fun _ => Or.inl, ?_⟩
      have hother := completeSlot_other c.gpu level level (w := w) (Ne.symm hpq)
      obtain ⟨m, hm, hpending, hfresh⟩ := hready
      exact ⟨m, hother.node.trans hm, hpending, hfresh.imp_right (mt hother.pending.mp)⟩
    · intro w hw
      rcases hw with hw | ⟨hw, hready⟩
      · exact hw.completeSlot hdepth
      · exact Latest.completeSlot hw hdepth fun p hp => Or.inr ⟨hp, hready⟩
  · split
    · refine current_foldl (P := fun w => Latest c.gpu n (· = index :: parent) w) hq ?_ ?_
        (fun w p hp hw => hw.downgradeSlot (slots p hp)) h
      · exact fun w p hp _ hw => (Latest.downgradeSlot hw (slots p hp)).mono fun _ hr => hr.1
      · exact fun w hw => (Latest.downgradeSlot hw hdepth).mono fun _ hr => hr.2 hr.1
    · cases hchild : w.nodes (index :: parent) with
      | none =>
        intro l a v hlast
        obtain ⟨p, m, hpd, hne, hp, haddress, hvalue⟩ := h l a v hlast
        refine ⟨p, m, hpd, hne, hp, haddress, Or.inr (hvalue.resolve_left ?_)⟩
        rintro rfl
        cases hchild.symm.trans hp
      | some child =>
        refine Current.emitAndTrack ?_ hdepth
        split
        · have marked := h.modify (f := fun m => (m.setPs64 true).setPendingWrite true)
            (fun _ => rfl) (index :: parent)
          rw [modify_some hchild] at marked
          exact marked.mono fun p hp => hp.elim id id
        · exact h

end

/-! ### Pages -/

section
variable {A : Type} [PhysicalAddressAllocator A]

omit [PhysicalAddressAllocator A] in
/-- A filled slot is the only one that has changed. -/
theorem Current.filled {gpu : Gpu} {n : Nat} {q : Path} {m : PageNode} {w w' : WalkState A}
    (h : Current gpu n w) (filled : Filled q m w w') (childless : Childless w.nodes q) :
    Latest gpu n (· = q) w' := by
  refine Latest.change h filled.pageWalkEntries (fun _ => False.elim) fun p x _ hp => ?_
  have haddress := filled.unmoved childless p (by rw [hp]; simp)
  rw [filled.nodes] at haddress ⊢
  by_cases hpq : p = q
  · subst p
    exact ⟨m, put_self _ _ _, haddress, Or.inl rfl⟩
  · exact ⟨x, by rw [put_of_ne hpq, hp], haddress, Or.inr rfl⟩

omit [PhysicalAddressAllocator A] in
/-- A node that is replaced by one with the same entry. -/
theorem Current.filled_same {gpu : Gpu} {n : Nat} {q : Path} {m x : PageNode} {w w' : WalkState A}
    (h : Current gpu n w) (filled : Filled q m w w') (childless : Childless w.nodes q)
    (hq : w.nodes q = some x) (same : m.getEntryValue gpu = x.getEntryValue gpu) :
    Current gpu n w' := by
  refine Latest.change h filled.pageWalkEntries (fun _ => id) fun p y _ hp => ?_
  have haddress := filled.unmoved childless p (by rw [hp]; simp)
  rw [filled.nodes] at haddress ⊢
  by_cases hpq : p = q
  · subst p
    obtain rfl := Option.some.inj (hq.symm.trans hp)
    exact ⟨m, put_self _ _ _, haddress, Or.inr same⟩
  · exact ⟨y, by rw [put_of_ne hpq, hp], haddress, Or.inr rfl⟩

omit [PhysicalAddressAllocator A] in
/-- The branch without PS64 emits the entry of a changed slot when it is told to. -/
theorem current_emitChild {c : WalkContext} {n level : Nat} {q : Path} {flag : Bool}
    {w : WalkState A} (h : Latest c.gpu n (· = q) w) (depth : q.length + level = n ∧ q ≠ [])
    (told : flag = false → Current c.gpu n w) : Current c.gpu n (emitChild c level q flag w) := by
  unfold emitChild
  split
  · exact Current.emitAndTrack h depth
  · rename_i hsilent
    simp only [Bool.or_eq_true, not_or, Bool.not_eq_true] at hsilent
    exact told hsilent.1.1

theorem current_tableStep {c : WalkContext} {page : PageRequest} {last : NodeKind} :
    TableStep c page last fun _ (w : WalkState A) => Current c.gpu c.ppgtt.getNumLevels w := by
  intro level w parent hat _ _ _ h
  have depth := slotPath_depth (c := c) page.gfxAddress hat.below
  generalize slotPath c.ppgtt.getNumLevels (level + 1) page.gfxAddress = q at depth
  unfold tableStep
  split
  · rename_i hnone
    have hnone := Option.isNone_iff_eq_none.mp hnone
    have filled : Filled q (newTable c (level + 1) parent w.allocator) w
        (createTable c (level + 1) parent q w) := ⟨rfl, rfl, rfl⟩
    exact current_emitChild (h.filled filled (childless_of_none hat.wf hnone)) depth
      fun hno => by cases hno
  · exact current_emitChild (h.latest _) depth fun _ => h

/-- The leaf that the PS64 branch finds in its slot: its last entry is right, or comes when the
group is complete. -/
theorem ready_leaf {c : WalkContext} {page : PageRequest} {n size i : Nat} {p : Path}
    {w w' : WalkState A} (h : Current c.gpu n w)
    (filled : Filled (i :: p) (enteredLeaf c page size (i :: p) w) w w')
    (childless : Childless w.nodes (i :: p))
    (steady : w.physicalAddress ≠ none → Steady c.gpu w (i :: p)) :
    Current c.gpu n w' ∨ (isPs64GroupComplete c.gpu w'.nodes p (i - i % 16) = true →
      Ready w' Pte (i :: p)) := by
  have hnode : w'.nodes (i :: p) = some (enteredLeaf c page size (i :: p) w) := by
    rw [filled.nodes, put_self]
  rcases enteredLeaf_cases c page size (i :: p) w with hsame | ⟨hpending, _⟩
  · exact Or.inl (h.filled_same filled childless hsame rfl)
  · by_cases hcomplete : isPs64GroupComplete c.gpu w'.nodes p (i - i % 16) = true
    · by_cases hlisted : flag w.nodes (i :: p) = true ∧ i :: p ∈ w.pendingNodes Pte
      · obtain ⟨hflag, hlisted⟩ := hlisted
        obtain ⟨m, slot, _⟩ := some_of_flag hflag
        refine Or.inl (h.filled_same filled childless slot ?_)
        by_cases hphys : w.physicalAddress = none
        · simp only [enteredLeaf, overrideLeaf, hphys, providedLeaf, slot]
        · exact enteredLeaf_entry slot (steady hphys hlisted hflag).1 (filled.nodes ▸ hcomplete)
      · refine Or.inr fun _ => ⟨_, hnode, hpending, ?_⟩
        rw [filled.pendingNodes]
        rcases not_and_or.mp hlisted with hclear | hfresh
        · exact Or.inl ((enteredLeaf_ps64 c page size (i :: p) w).trans
            (Bool.not_eq_true _ ▸ hclear))
        · exact Or.inr hfresh
    · exact Or.inr fun hc => absurd hc hcomplete

theorem current_leafStep {c : WalkContext} {page : PageRequest} {last : NodeKind}
    {parent : PageNode} {w : WalkState A} (hat : AtLevel c page last (leafLevel last) w)
    (hp : w.nodes (slotPath c.ppgtt.getNumLevels (leafLevel last + 1) page.gfxAddress) = some parent)
    (h : Current c.gpu c.ppgtt.getNumLevels w)
    (steady : c.ps64Applicable = true → w.physicalAddress ≠ none → leafLevel last = Pte →
      Steady c.gpu w (leafSlot c.ppgtt.getNumLevels last page.gfxAddress)) :
    Current c.gpu c.ppgtt.getNumLevels (leafStep c page last parent w) := by
  have depth := leafSlot_depth hat
  have childless := leafSlot_childless hat
  have haligned : Current c.gpu c.ppgtt.getNumLevels (alignedState last w) := h
  unfold leafStep
  simp only
  split
  · exact h
  · obtain ⟨pages, henter⟩ := enterChild_leaf c page (leafLevel last) last.getPageSize parent
      (leafSlot c.ppgtt.getNumLevels last page.gfxAddress) (alignedState last w)
    simp only [alignedState] at henter
    rw [henter]
    split
    · rename_i hcheck
      obtain ⟨happ, hlevel, _⟩ := checkPs64_iff.mp hcheck
      obtain ⟨k, rfl⟩ : ∃ k, last = .pte k := by
        rcases hat.last_cases with hk | rfl
        · exact hk
        · cases hlevel
      rw [hat.parent_kind_pte hp]
      refine current_updatePs64 (Current.filled (w := alignedState (.pte k) w) haligned ⟨rfl, rfl, rfl⟩
        childless) (ready_leaf (w := alignedState (.pte k) w) haligned ⟨rfl, rfl, rfl⟩ childless ?_)
        depth.1
      intro hphys
      refine steady happ (fun hnone => hphys ?_) hlevel
      simp only [alignedState, hnone, alignCursor]
    · refine current_emitChild (Current.filled (w := alignedState last w) haligned ⟨rfl, rfl, rfl⟩
        childless) depth fun hquiet => ?_
      rcases enteredLeaf_cases c page last.getPageSize
        (leafSlot c.ppgtt.getNumLevels last page.gfxAddress) (alignedState last w) with hsame |
          ⟨_, hnew⟩
      · exact Current.filled_same (w := alignedState last w) haligned ⟨rfl, rfl, rfl⟩ childless hsame rfl
      · cases hnew.symm.trans hquiet

theorem current_walkPage {c : WalkContext} {page : PageRequest} {w : WalkState A}
    (wf : Wf c.ppgtt.getNumLevels w.nodes) (hmode : c.mode ≠ .Expect)
    (h : Current c.gpu c.ppgtt.getNumLevels w)
    (steady : c.ps64Applicable = true → w.physicalAddress ≠ none → Steady c.gpu w
      (leafSlot c.ppgtt.getNumLevels (lastTable c w.nodes page.gfxAddress) page.gfxAddress)) :
    Current c.gpu c.ppgtt.getNumLevels (walkPage c page w).1 := by
  have hrule := walkPage_rule page
    (P := fun _ w' => Current c.gpu c.ppgtt.getNumLevels w' ∧ SameLeaves c.ppgtt.getNumLevels w w')
    wf (fun hexpect => absurd hexpect hmode)
    (fun level w' parent hat hleaf hp hm ⟨h1, h2⟩ =>
      ⟨current_tableStep level w' parent hat hleaf hp hm h1,
        sameLeaves_tableStep w level w' parent hat hleaf hp hm h2⟩)
    ⟨h, rfl, rfl, fun _ _ => rfl⟩
  rcases hrule with ⟨w', parent, hat, ⟨h1, h2⟩, hp, _, hw⟩ | ⟨_, _, _, _, hexpect, _, _⟩
  · have hleaf := current_leafStep hat hp h1 fun happ hphys hlevel => by
      refine h2.steady ?_ (steady happ (h2.physicalAddress ▸ hphys))
      have depth := (leafSlot_depth hat).1
      rwa [hlevel] at depth
    rw [hw]
    unfold recordPage
    split
    · exact hleaf
    · exact hleaf
  · exact absurd hexpect hmode

/-- A walk that places its own leaves. -/
theorem current_walk {c : WalkContext} {t : Nodes} {a : A} {g size : Nat} {w : WalkState A}
    (wf : Wf c.ppgtt.getNumLevels t) (hmode : c.mode ≠ .Expect)
    (h : walkPages c size g size 0 (.start t a none) = some w) :
    Current c.gpu c.ppgtt.getNumLevels w := by
  obtain ⟨_, _, current⟩ := walkPages_runs (c := c)
    (J := fun _ _ w => w.physicalAddress = none ∧ Current c.gpu c.ppgtt.getNumLevels w) hmode
    (fun page w wf' _ ⟨hphys, current⟩ => ⟨walkPage_physicalAddress_none page wf' hphys,
      current_walkPage wf' hmode current fun _ hsome => absurd hphys hsome⟩)
    size g size 0 (.start t a none) w (Nat.le_refl _) wf h
    ⟨rfl, fun _ _ _ hlast => by cases hlast⟩
  exact current

omit [PhysicalAddressAllocator A] in
/-- A mapping walk that comes to a marked leaf which it has listed finds its group intact. -/
theorem steady_of_run {c : WalkContext} {t : Nodes} {g stop : Nat} {w : WalkState A}
    {page : PageRequest} (wf₀ : Wf c.ppgtt.getNumLevels t)
    (space : c.ps64Applicable = true → InSpace c.ppgtt.getNumLevels g (stop - g))
    (hsize : 0 < page.size) (run : MapEmission c t g stop page.gfxAddress page.size w)
    (happ : c.ps64Applicable = true) : Steady c.gpu w
      (leafSlot c.ppgtt.getNumLevels (lastTable c w.nodes page.gfxAddress) page.gfxAddress) := by
  obtain ⟨hga, hstop⟩ := run.bounds
  have start := run.start.resolve_left (by omega)
  rw [run.kinds]
  have hfresh : ¬ Entered c t g page.gfxAddress
      (slotFor c.ppgtt.getNumLevels (lastTable c t) page.gfxAddress) := by
    rintro ⟨b, h1, h2, hb, heq⟩
    have := slot_once wf₀ (pagesOnce_of_inSpace wf₀ (space happ)) hga (by omega) h1 (by omega) start hb heq
    omega
  have hahead := run.ahead happ
  change Steady c.gpu w (slotFor c.ppgtt.getNumLevels (lastTable c t) page.gfxAddress)
  generalize slotFor c.ppgtt.getNumLevels (lastTable c t) page.gfxAddress = q at hfresh
  intro hlisted hflag
  cases q with
  | nil => exact absurd (run.tracked.listed Pte [] hlisted).2 (not_not.mpr rfl)
  | cons i p => exact (hahead i p hlisted hfresh).2 hflag

/-- A walk with a supplied physical address. -/
theorem current_map {c : WalkContext} {t : Nodes} {a : A} {phys g size : Nat} {w : WalkState A}
    (wf : Wf c.ppgtt.getNumLevels t) (hmode : c.mode ≠ .Expect)
    (space : c.ps64Applicable = true → InSpace c.ppgtt.getNumLevels g size)
    (h : walkPages c size g size 0 (.start t a (some phys)) = some w) :
    Current c.gpu c.ppgtt.getNumLevels w := by
  have space' : c.ps64Applicable = true → InSpace c.ppgtt.getNumLevels g (g + size - g) := by
    rw [Nat.add_sub_cancel_left]
    exact space
  obtain ⟨_, _, current⟩ := walkPages_runs (c := c)
    (J := fun b rest w => MapEmission c t g (g + size) b rest w ∧
      Current c.gpu c.ppgtt.getNumLevels w) hmode
    (fun page w wf' hsize ⟨run, current⟩ => ⟨mapEmission_step wf wf' hmode space' hsize run,
      current_walkPage wf' hmode current fun happ _ => steady_of_run wf space' hsize run happ⟩)
    size g size 0 (.start t a (some phys)) w (Nat.le_refl _) wf h
    ⟨⟨tracked_start _ _ t a _, ⟨Nat.le_refl _, rfl⟩, fun _ => rfl, Or.inr (Or.inl rfl),
      fun _ _ _ hlisted => absurd hlisted List.not_mem_nil⟩, fun _ _ _ hlast => by cases hlast⟩
  exact current

variable (m : AubManagerImp A)

theorem walk_current {params : AllocationParams} {mode : WalkMode} {infos : List PageInfo}
    {phys : Option Nat} {t : Nodes} {a : A} {w : WalkState A}
    (wf : Wf m.tables.ppgtt.getNumLevels t) (hmode : mode ≠ .Expect)
    (space : phys ≠ none → m.tables.enablePs64 = true → params.pageSize = pageSize4KB →
      m.tables.ppgtt = .PML5 →
      InSpace m.tables.ppgtt.getNumLevels params.gfxAddress params.size)
    (h : m.walk params mode infos phys t a = some w) :
    Current m.tables.gpu m.tables.ppgtt.getNumLevels w := by
  rcases walkMemory_some h with ⟨_, rfl⟩ | ⟨_, c, hc, hpages⟩
  · exact fun _ _ _ hlast => by cases hlast
  · obtain ⟨hgpu, hppgtt, hm, _⟩ := walkContext_some hc
    rw [← hgpu, ← hppgtt]
    rw [← hppgtt] at wf
    have hmode' : c.mode ≠ .Expect := hm ▸ hmode
    cases phys with
    | none => exact current_walk wf hmode' hpages
    | some p =>
      refine current_map wf hmode' (fun happ => ?_) hpages
      obtain ⟨henable, hpageSize, hkind⟩ := (ps64Applicable_iff hc).mp happ
      rw [hppgtt]
      exact space (by simp) henable hpageSize hkind

omit [PhysicalAddressAllocator A] in
theorem lastAt_writePages {w : WalkState A} {a v : Nat}
    (h : lastAt (entriesOf (m.writePages w)) a = some v) :
    ∃ l, lastAt (w.pageWalkEntries l) a = some v := by
  have hpages : entriesOf (w.pages64KB.map Record.reserveContiguousPages) = [] := by
    rw [entriesOf, List.flatMap_map]
    exact List.flatMap_eq_nil_iff.mpr fun _ _ => rfl
  simp only [AubManagerImp.writePages, AubManagerImp.writePageWalkEntries, entriesOf_append, hpages,
    entriesOf_writeLevel, lastAt_append, Option.or_eq_some_iff] at h
  rcases h with (h | ⟨_, h | ⟨_, h | ⟨_, h | ⟨_, h⟩⟩⟩⟩) | ⟨_, h⟩
  · exact ⟨_, h⟩
  · exact ⟨_, h⟩
  · exact ⟨_, h⟩
  · exact ⟨_, h⟩
  · split at h
    · rw [entriesOf_writeEntries] at h
      exact ⟨_, h⟩
    · cases h
  · cases h

omit [PhysicalAddressAllocator A] in
/-- What a walk writes last to a slot is the entry of the node there. -/
theorem Current.written {n : Nat} {w : WalkState A} (h : Current m.tables.gpu n w)
    (apart : SlotsApart w.nodes) (wf : Wf n w.nodes) {q : Path} {x : PageNode} (hq : q ≠ [])
    (hx : w.nodes q = some x) {v : Nat}
    (last : lastAt (entriesOf (m.writePages w)) (entryAddress w.nodes q) = some v) :
    v = x.getEntryValue m.tables.gpu := by
  obtain ⟨l, hl⟩ := lastAt_writePages m last
  obtain ⟨p, y, _, hne, hy, haddress, hvalue⟩ := h l _ v hl
  obtain rfl := entryAddress_inj apart wf hq hne (by rw [hx]; simp) (by rw [hy]; simp) haddress
  obtain rfl := Option.some.inj (hx.symm.trans hy)
  exact hvalue.resolve_left id

end

end LatestEntries
