import Aubstream.WrittenPaths

/-!
# Pending nodes of a path are listed

A walk that passes a pending node emits its entry and puts it on the pending
list, so that the stream may clear the flag. The one exception is the exit at a
2MB page that stands already: it comes before both.
-/

namespace NotedPaths
open EntryBits PathTree PhysicalAllocator PageNodes PageWalker TreeShape WalkPhases LeafStep
  Placement Translation TableRuns PageEffect PageVisits MapCursor MapFrame FreeComplete
  Ps64Flags Ps64Walk PendingEntries PendingWalks WrittenPaths AubManager

section
variable {A : Type}

/-- The node at `q` is listed if it is pending. -/
def Noted (n : Nat) (w : WalkState A) (q : Path) : Prop :=
  q ∉ w.pendingNodes (levelOf n q) → ∀ m, w.nodes q = some m → m.pendingWrite = false

def ListsMore (w w' : WalkState A) : Prop :=
  ∀ l q, q ∈ w.pendingNodes l → q ∈ w'.pendingNodes l

theorem ListsMore.trans {w w' w'' : WalkState A} (h : ListsMore w w') (h' : ListsMore w' w'') :
    ListsMore w w'' := fun l q hq => h' l q (h l q hq)

/-- Once noted, a node stays noted: what changes it lists it. -/
theorem Noted.keep {gpu : Gpu} {n : Nat} {t : Nodes} {w w' : WalkState A} {q : Path}
    (h : Noted n w q) (before : Tracked gpu n t w) (after : Tracked gpu n t w')
    (more : ListsMore w w') : Noted n w' q := by
  intro hfresh m hm
  have hold : q ∉ w.pendingNodes (levelOf n q) := fun hlisted => hfresh (more _ q hlisted)
  have hsame := (after.slots q).same hfresh
  have hsame' := (before.slots q).same hold
  exact h hold m (hsame'.trans (hsame.symm.trans hm))

theorem Noted.frame {n : Nat} {w w' : WalkState A} {q : Path} (h : Noted n w q)
    (same : Untouched (levelOf n q) w w' q) : Noted n w' q := by
  intro hfresh m hm
  exact h (mt same.pending.mpr hfresh) m (same.node ▸ hm)

/-- Listing a node when it is pending notes it. -/
theorem noted_of_listed {n level : Nat} {w : WalkState A} {q : Path} (depth : q.length + level = n)
    (h : ∀ m, w.nodes q = some m → m.pendingWrite = true → q ∈ w.pendingNodes level) :
    Noted n w q := by
  intro hfresh m hm
  rw [levelOf_slot depth] at hfresh
  by_contra hpending
  exact hfresh (h m hm (by simpa using hpending))

theorem noted_emitAndTrack {gpu : Gpu} {n level : Nat} {q : Path} {w : WalkState A}
    (depth : q.length + level = n) : Noted n (emitAndTrack gpu level q w) q := by
  apply noted_of_listed depth
  intro m hm hpending
  rw [emitAndTrack_nodes] at hm
  exact mem_emitAndTrack_pending.mpr (Or.inr ⟨rfl, rfl, m, hm, hpending⟩)

theorem noted_emitChild {c : WalkContext} {n level : Nat} {q : Path} {emitEntry : Bool}
    {w : WalkState A} (depth : q.length + level = n) :
    Noted n (emitChild c level q emitEntry w) q := by
  unfold emitChild
  split
  · exact noted_emitAndTrack depth
  · rename_i hsilent
    simp only [Bool.or_eq_true, not_or, Bool.not_eq_true] at hsilent
    apply noted_of_listed depth
    intro m hm hpending
    by_contra hfresh
    have hnew := isNewPending_iff.mpr ⟨⟨m, hm, hpending⟩, hfresh⟩
    rw [hsilent.2] at hnew
    cases hnew

theorem noted_completeSlot {gpu : Gpu} {n level : Nat} {q : Path} {w : WalkState A}
    (depth : q.length + level = n) : Noted n (completeSlot gpu level q w) q := by
  apply noted_of_listed depth
  intro m hm hpending
  cases hq : w.nodes q with
  | none =>
    rw [completeSlot_none hq, hq] at hm
    cases hm
  | some x =>
    rw [completeSlot_eq hq, emitSlot_nodes] at hm
    rw [completeSlot_eq hq, mem_emitSlot_pending]
    exact Or.inr ⟨rfl, rfl, m, hm, hpending⟩

theorem noted_downgradeSlot {gpu : Gpu} {n level : Nat} {q : Path} {w : WalkState A}
    (depth : q.length + level = n) : Noted n (downgradeSlot gpu level q w) q := by
  cases hq : w.nodes q with
  | none =>
    apply noted_of_listed depth
    intro m hm _
    simp only [downgradeSlot, hq] at hm
    cases hm
  | some x =>
    rw [downgradeSlot_eq hq]
    exact noted_emitAndTrack depth

/-- A loop over slots that notes the slot of each round notes them all. -/
theorem noted_foldl {n level : Nat} {f : WalkState A → Path → WalkState A}
    (body : ∀ w q, q.length + level = n → Noted n (f w q) q)
    (other : ∀ w q p, p ≠ q → Untouched (levelOf n p) w (f w q) p) {qs : List Path}
    (nodup : qs.Nodup) (depth : ∀ q ∈ qs, q.length + level = n) (w : WalkState A) :
    ∀ q ∈ qs, Noted n (qs.foldl f w) q :=
  (foldl_slots (R := fun _ q => q.length + level = n) (D := fun w q => Noted n w q) body
    (fun _ _ _ _ h => h) (fun w q p hne h => h.frame (other w q p hne)) nodup w depth).1

theorem noted_updatePs64 {c : WalkContext} {page : PageRequest} {n level : Nat} {parent : Path}
    {index : Nat} {was : Bool} {w : WalkState A} (depth : parent.length + 1 + level = n) :
    Noted n (updatePs64 c page level parent index was w) (index :: parent) := by
  have slots : ∀ q ∈ groupSlots parent (index - index % 16), q.length + level = n :=
    fun q hq => (groupSlots_depth depth q hq).1
  have hq : index :: parent ∈ groupSlots parent (index - index % 16) :=
    mem_groupSlots.mpr ⟨index % 16, Nat.mod_lt _ (by decide), by congr 1; omega⟩
  have nodup := groupSlots_nodup parent (index - index % 16)
  unfold updatePs64
  simp only
  split
  · exact noted_foldl (fun _ _ => noted_completeSlot)
      (fun _ _ _ hne => completeSlot_other c.gpu level _ hne) nodup slots w _ hq
  · split
    · exact noted_foldl (fun _ _ => noted_downgradeSlot)
        (fun _ _ _ hne => downgradeSlot_other c.gpu level _ hne) nodup slots w _ hq
    · cases hchild : w.nodes (index :: parent) with
      | none =>
        intro _ m hm
        rw [hchild] at hm
        cases hm
      | some child => exact noted_emitAndTrack depth

theorem listsMore_emitAndTrack (gpu : Gpu) (level : Nat) (q : Path) (w : WalkState A) :
    ListsMore w (emitAndTrack gpu level q w) :=
  fun _ _ h => mem_emitAndTrack_pending.mpr (Or.inl h)

theorem listsMore_emitChild (c : WalkContext) (level : Nat) (q : Path) (emitEntry : Bool)
    (w : WalkState A) : ListsMore w (emitChild c level q emitEntry w) := by
  unfold emitChild
  split
  · exact listsMore_emitAndTrack c.gpu level q w
  · exact fun _ _ h => h

theorem listsMore_completeSlot (gpu : Gpu) (level : Nat) (q : Path) (w : WalkState A) :
    ListsMore w (completeSlot gpu level q w) := by
  cases hq : w.nodes q with
  | none =>
    rw [completeSlot_none hq]
    exact fun _ _ h => h
  | some m =>
    rw [completeSlot_eq hq]
    exact fun _ _ h => mem_emitSlot_pending.mpr (Or.inl h)

theorem listsMore_downgradeSlot (gpu : Gpu) (level : Nat) (q : Path) (w : WalkState A) :
    ListsMore w (downgradeSlot gpu level q w) := by
  cases hq : w.nodes q with
  | none =>
    simp only [downgradeSlot, hq]
    exact fun _ _ h => h
  | some m =>
    rw [downgradeSlot_eq hq]
    exact fun _ _ h => mem_emitAndTrack_pending.mpr (Or.inl h)

theorem listsMore_updatePs64 (c : WalkContext) (page : PageRequest) (level : Nat) (parent : Path)
    (index : Nat) (was : Bool) (w : WalkState A) :
    ListsMore w (updatePs64 c page level parent index was w) := by
  unfold updatePs64
  simp only
  split
  · exact List.foldlRecOn _ _ (fun _ _ h => h) fun w' h q _ =>
      h.trans (listsMore_completeSlot c.gpu level q w')
  · split
    · exact List.foldlRecOn _ _ (fun _ _ h => h) fun w' h q _ =>
        h.trans (listsMore_downgradeSlot c.gpu level q w')
    · cases w.nodes (index :: parent) with
      | none => exact fun _ _ h => h
      | some child =>
        intro l p h
        apply listsMore_emitAndTrack
        split
        · exact h
        · exact h

end

section
variable {A : Type} [PhysicalAddressAllocator A]

theorem noted_tableStep {c : WalkContext} {n level : Nat} {parent : PageNode} {q : Path}
    {w : WalkState A} (depth : q.length + level = n) :
    Noted n (tableStep c level parent q w) q := by
  unfold tableStep
  split
  · exact noted_emitChild depth
  · exact noted_emitChild depth

theorem listsMore_tableStep (c : WalkContext) (level : Nat) (parent : PageNode) (q : Path)
    (w : WalkState A) : ListsMore w (tableStep c level parent q w) := by
  unfold tableStep
  split
  · exact listsMore_emitChild c level q true (createTable c level parent q w)
  · exact listsMore_emitChild c level q false w

theorem listsMore_leafStep (c : WalkContext) (page : PageRequest) (last : NodeKind)
    (parent : PageNode) (w : WalkState A) : ListsMore w (leafStep c page last parent w) := by
  unfold leafStep
  simp only
  split
  · exact fun _ _ h => h
  · obtain ⟨pages, henter⟩ := enterChild_leaf c page (leafLevel last) last.getPageSize parent
      (leafSlot c.ppgtt.getNumLevels last page.gfxAddress) (alignedState last w)
    simp only [alignedState] at henter
    rw [henter]
    split
    · exact fun _ _ h => listsMore_updatePs64 _ _ _ _ _ _ _ _ _ h
    · exact fun _ _ h => listsMore_emitChild _ _ _ _ _ _ _ h

/-- Entering a leaf notes it. The exit at a 2MB page leaves it as it is. -/
theorem noted_leafStep {c : WalkContext} {page : PageRequest} {last : NodeKind}
    {parent : PageNode} {w : WalkState A} (hat : AtLevel c page last (leafLevel last) w)
    (hp : w.nodes (slotPath c.ppgtt.getNumLevels (leafLevel last + 1) page.gfxAddress) = some parent)
    (standing : w.physicalAddress = none → last = .page2MB → Noted c.ppgtt.getNumLevels w
      (leafSlot c.ppgtt.getNumLevels last page.gfxAddress)) :
    Noted c.ppgtt.getNumLevels (leafStep c page last parent w)
      (leafSlot c.ppgtt.getNumLevels last page.gfxAddress) := by
  have depth := (leafSlot_depth hat).1
  unfold leafStep
  simp only
  split
  · rename_i hexit
    rw [Bool.and_eq_true, Option.isNone_iff_eq_none] at hexit
    refine standing hexit.2 ?_
    rcases hat.last_cases with ⟨k, rfl⟩ | rfl
    · exact absurd (isExisting2MB_some hexit.1).1 Nat.zero_ne_one
    · rfl
  · obtain ⟨pages, henter⟩ := enterChild_leaf c page (leafLevel last) last.getPageSize parent
      (leafSlot c.ppgtt.getNumLevels last page.gfxAddress) (alignedState last w)
    simp only [alignedState] at henter
    rw [henter]
    split
    · rename_i hcheck
      obtain ⟨_, hlevel, _⟩ := checkPs64_iff.mp hcheck
      obtain ⟨k, rfl⟩ : ∃ k, last = .pte k := by
        rcases hat.last_cases with hk | rfl
        · exact hk
        · cases hlevel
      rw [hat.parent_kind_pte hp]
      exact noted_updatePs64 depth
    · exact noted_emitChild depth

theorem listsMore_walkPage {c : WalkContext} (page : PageRequest) {w : WalkState A}
    (wf : Wf c.ppgtt.getNumLevels w.nodes) (hmode : c.mode ≠ .Expect) :
    ListsMore w (walkPage c page w).1 := by
  have hrule := walkPage_rule page (P := fun _ w' => ListsMore w w') wf
    (fun hexpect => absurd hexpect hmode)
    (fun level w' parent _ _ _ _ h => h.trans (listsMore_tableStep c (level + 1) parent _ w'))
    (fun _ _ h => h)
  rcases hrule with ⟨w', parent, _, hmore, _, _, hw⟩ | ⟨_, _, _, _, hexpect, _, _⟩
  · rw [hw]
    intro l q h
    rw [recordPage_pendingNodes]
    exact listsMore_leafStep c page _ parent w' l q (hmore l q h)
  · exact absurd hexpect hmode

omit [PhysicalAddressAllocator A] in
theorem suffix_slotPath {n l g : Nat} {q : Path} (hq : q ≠ []) (h : q <:+ slotPath n l g) :
    ∃ l', l ≤ l' ∧ l' < n ∧ q = slotPath n l' g := by
  by_cases hl : l < n
  · rw [slotPath_cons g hl, List.suffix_cons_iff] at h
    rcases h with h | h
    · exact ⟨l, Nat.le_refl l, hl, by rw [h, slotPath_cons g hl]⟩
    · obtain ⟨l', h1, h2, h3⟩ := suffix_slotPath hq h
      exact ⟨l', by omega, h2, h3⟩
  · have hnil : slotPath n l g = [] := by
      rw [← List.length_eq_zero_iff, slotPath_length]
      omega
    rw [hnil, List.suffix_nil] at h
    exact absurd h hq
termination_by n - l

omit [PhysicalAddressAllocator A] in
/-- The slots on the way to a leaf: its own, and those of the tables above it. -/
theorem suffix_leafSlot {c : WalkContext} {t : Nodes} (wf : Wf c.ppgtt.getNumLevels t) {g : Nat}
    {q : Path} (hq : q ≠ [])
    (h : q <:+ leafSlot c.ppgtt.getNumLevels (lastTable c t g) g) :
    q = leafSlot c.ppgtt.getNumLevels (lastTable c t g) g ∨
      ∃ l, leafLevel (lastTable c t g) < l ∧ l < c.ppgtt.getNumLevels ∧
        q = slotPath c.ppgtt.getNumLevels l g := by
  rcases lastTable_cases wf g with ⟨k, hk⟩ | hk
  · rw [hk, leafSlot_pte, List.suffix_cons_iff] at h
    rw [hk]
    rcases h with h | h
    · exact Or.inl h
    · obtain ⟨l, h1, h2, h3⟩ := suffix_slotPath hq h
      exact Or.inr ⟨l, h1, h2, h3⟩
  · rw [hk] at h ⊢
    obtain ⟨l, h1, h2, h3⟩ := suffix_slotPath hq h
    by_cases hl : l = Pde
    · subst hl
      exact Or.inl h3
    · exact Or.inr ⟨l, Nat.lt_of_le_of_ne h1 (Ne.symm hl), h2, h3⟩

/-- One page notes every node on the way to it. -/
theorem walkPage_noted {c : WalkContext} {page : PageRequest} {t : Nodes} {w : WalkState A}
    (wf : Wf c.ppgtt.getNumLevels w.nodes) (hmode : c.mode ≠ .Expect)
    (before : Tracked c.gpu c.ppgtt.getNumLevels t w)
    (after : Tracked c.gpu c.ppgtt.getNumLevels t (walkPage c page w).1)
    (standing : w.physicalAddress = none → lastTable c w.nodes page.gfxAddress = .page2MB →
      Noted c.ppgtt.getNumLevels w (slotPath c.ppgtt.getNumLevels Pde page.gfxAddress)) :
    ∀ q, q ≠ [] →
      q <:+ leafSlot c.ppgtt.getNumLevels (lastTable c w.nodes page.gfxAddress) page.gfxAddress →
      Noted c.ppgtt.getNumLevels (walkPage c page w).1 q := by
  have expect : c.mode = .Expect → w.physicalAddress = none := fun h => absurd h hmode
  have hrule := walkPage_rule page
    (P := fun level w' => Tracked c.gpu c.ppgtt.getNumLevels t w' ∧ ListsMore w w' ∧
      w'.physicalAddress = w.physicalAddress ∧ ∀ l, level < l → l < c.ppgtt.getNumLevels →
        Noted c.ppgtt.getNumLevels w' (slotPath c.ppgtt.getNumLevels l page.gfxAddress))
    wf expect ?_ ⟨before, fun _ _ h => h, rfl, fun l h1 h2 => by omega⟩
  · rcases hrule with ⟨w', parent, hat, ⟨htracked, hmore, hphys, hnoted⟩, hp, _, hw⟩ |
      ⟨_, _, _, _, hexpect, _, _⟩
    · have hstanding : w'.physicalAddress = none →
          lastTable c w.nodes page.gfxAddress = .page2MB → Noted c.ppgtt.getNumLevels w'
            (leafSlot c.ppgtt.getNumLevels (lastTable c w.nodes page.gfxAddress)
              page.gfxAddress) := by
        intro hnone hlast
        rw [hlast]
        exact (standing (hphys ▸ hnone) hlast).keep before htracked hmore
      have hslot := noted_leafStep hat hp hstanding
      have hmore' : ListsMore w' (walkPage c page w).1 := by
        rw [hw]
        intro l q h
        rw [recordPage_pendingNodes]
        exact listsMore_leafStep c page _ parent w' l q h
      intro q hq hsuffix
      rcases suffix_leafSlot wf hq hsuffix with rfl | ⟨l, h1, h2, rfl⟩
      · rw [hw]
        intro hfresh m hm
        rw [recordPage_pendingNodes] at hfresh
        rw [recordPage_nodes] at hm
        exact hslot hfresh m hm
      · exact (hnoted l h1 h2).keep htracked after hmore'
    · exact absurd hexpect hmode
  · intro level w' parent hat hleaf hp hm ⟨htracked, hmore, hphys, hnoted⟩
    have hnext := tracked_tableStep level w' parent hat hleaf hp hm htracked
    have hlists := listsMore_tableStep c (level + 1) parent
      (slotPath c.ppgtt.getNumLevels (level + 1) page.gfxAddress) w'
    refine ⟨hnext, hmore.trans hlists, (tableStep_physicalAddress ..).trans hphys, ?_⟩
    intro l h1 h2
    by_cases hl : l = level + 1
    · subst hl
      exact noted_tableStep (slotPath_depth page.gfxAddress h2).1
    · exact (hnoted l (by omega) h2).keep htracked hnext hlists

/-- Between two pages of a walk over `[g, stop)` that started on `t`: what lies on the way to an
address behind the cursor stands and is noted. -/
structure NotedRun (c : WalkContext) (t : Nodes) (g stop a size : Nat) (w : WalkState A) :
    Prop where
  bounds : g ≤ a ∧ a + size = stop
  kinds : ∀ b, lastTable c w.nodes b = lastTable c t b
  mapped : ∀ x, g ≤ x → x < a →
    w.nodes (slotFor c.ppgtt.getNumLevels (lastTable c t) x) ≠ none
  noted : ∀ x, g ≤ x → x < a → ∀ q, q ≠ [] →
    q <:+ slotFor c.ppgtt.getNumLevels (lastTable c t) x → Noted c.ppgtt.getNumLevels w q

/-- No 2MB page of the range is pending. -/
def NoPending2MB (n : Nat) (t : Nodes) (g size : Nat) : Prop :=
  ∀ x, g ≤ x → x < g + size → ∀ m, leafAt n t x = some m → m.kind = .page2MB →
    m.pendingWrite = false

omit [PhysicalAddressAllocator A] in
theorem notedRun_start {c : WalkContext} {t : Nodes} {a : A} {phys : Option Nat} {g size : Nat} :
    NotedRun c t g (g + size) g size (.start t a phys) :=
  ⟨⟨Nat.le_refl g, rfl⟩, fun _ => rfl, fun x h1 h2 => by omega, fun x h1 h2 => by omega⟩

theorem notedRun_step {c : WalkContext} {t : Nodes} {g stop : Nat} {page : PageRequest}
    {w : WalkState A} (wf₀ : Wf c.ppgtt.getNumLevels t) (wf : Wf c.ppgtt.getNumLevels w.nodes)
    (hmode : c.mode ≠ .Expect) (hsize : 0 < page.size)
    (before : Tracked c.gpu c.ppgtt.getNumLevels t w)
    (after : Tracked c.gpu c.ppgtt.getNumLevels t (walkPage c page w).1)
    (standing : w.physicalAddress = none →
      NoPending2MB c.ppgtt.getNumLevels t page.gfxAddress page.size)
    (run : NotedRun c t g stop page.gfxAddress page.size w) :
    NotedRun c t g stop (page.gfxAddress + (walkPage c page w).2)
      (page.size - (walkPage c page w).2) (walkPage c page w).1 := by
  have hk := pageKinds_lastTable wf₀
  have hpos := (hk.region page.gfxAddress).getPageSize_pos
  have hpassed := walkPage_passes page wf hmode
  obtain ⟨hga, hstop⟩ := run.bounds
  rw [run.kinds] at hpassed
  have hstanding : w.physicalAddress = none → lastTable c w.nodes page.gfxAddress = .page2MB →
      Noted c.ppgtt.getNumLevels w (slotPath c.ppgtt.getNumLevels Pde page.gfxAddress) := by
    intro hphys hlast hfresh m hm
    rw [(before.slots _).same hfresh] at hm
    have hkind : m.kind = .page2MB := by
      rw [run.kinds, lastTable_of_region hm] at hlast
      exact hlast
    refine standing hphys page.gfxAddress (Nat.le_refl _) (by omega) m ?_ hkind
    rw [leafAt_of_region hm, hkind]
    exact hm
  have hmore := listsMore_walkPage page wf hmode
  have hnoted := walkPage_noted wf hmode before after hstanding
  rw [run.kinds] at hnoted
  have hpage : ∀ x, page.gfxAddress ≤ x → x < page.gfxAddress + (walkPage c page w).2 →
      slotFor c.ppgtt.getNumLevels (lastTable c t) x =
        leafSlot c.ppgtt.getNumLevels (lastTable c t page.gfxAddress) page.gfxAddress := by
    intro x h1 h2
    have hsame := samePage hpos h1 (by omega)
    rw [slotFor, kinds_of_page hk hsame]
    exact (leafSlot_congr (hk.region page.gfxAddress) hsame).symm
  refine ⟨by omega, fun b => (walkPage_kinds page wf hmode b).trans (run.kinds b), ?_, ?_⟩
  · intro x h1 h2
    by_cases hx : x < page.gfxAddress
    · obtain ⟨m, hm⟩ := Option.ne_none_iff_exists'.mp (run.mapped x h1 hx)
      obtain ⟨m', hm', _⟩ := @walkPage_keeps_kind _ _ _ page _ _ _ wf
        (fun hexpect => absurd hexpect hmode) hm
      rw [hm']
      simp
    · obtain ⟨hl, _⟩ := walkPage_layout page wf fun h => absurd h hmode
      obtain ⟨leaf, hleaf, _⟩ :=
        (placePage_placed page (s := layoutOf w) (wf_layout.mpr wf) hmode).1.leaf
      have hslot : visitSlot c (page, layoutOf w) =
          leafSlot c.ppgtt.getNumLevels (lastTable c t page.gfxAddress) page.gfxAddress := by
        rw [← run.kinds, ← lastTable_layout c w.nodes]
        rfl
      rw [← hl, hslot, ← hpage x (by omega) h2] at hleaf
      exact fun hnone => by simp [layoutOf, layout, hnone] at hleaf
  · intro x h1 h2 q hq hsuffix
    by_cases hx : x < page.gfxAddress
    · exact (run.noted x h1 hx q hq hsuffix).keep before after hmore
    · rw [hpage x (by omega) h2] at hsuffix
      exact hnoted q hq hsuffix

theorem walkPage_physicalAddress_ne_none {c : WalkContext} (page : PageRequest) {w : WalkState A}
    (wf : Wf c.ppgtt.getNumLevels w.nodes) (hmode : c.mode ≠ .Expect)
    (h : w.physicalAddress ≠ none) : (walkPage c page w).1.physicalAddress ≠ none := by
  obtain ⟨hl, _⟩ := walkPage_layout page wf fun h => absurd h hmode
  have hcursor := (placePage_placed page (s := layoutOf w) (wf_layout.mpr wf) hmode).1.cursor
  rw [← hl] at hcursor
  obtain ⟨p, hp⟩ := Option.ne_none_iff_exists'.mp h
  have hsome : (layoutOf w).physicalAddress = some p := hp
  have hnext : (walkPage c page w).1.physicalAddress = _ := hcursor
  rw [hnext, hsome]
  simp only [leafCursor, alignCursor]
  split
  · exact Option.some_ne_none _
  · exact Option.some_ne_none _

omit [PhysicalAddressAllocator A] in
theorem NoPending2MB.rest {n : Nat} {t : Nodes} {g size a rest : Nat}
    (h : NoPending2MB n t g size) (hga : g ≤ a) (hstop : a + rest = g + size) :
    NoPending2MB n t a rest := fun x h1 h2 => h x (by omega) (by omega)

/-- The induction over the pages of a walk that started on `t`, with what it keeps track of and
whether a physical address was supplied. -/
theorem trackedPages_rule {c : WalkContext} {t : Nodes} {a : A} {phys : Option Nat} {g size : Nat}
    {w : WalkState A} {J : Nat → Nat → WalkState A → Prop} (wf : Wf c.ppgtt.getNumLevels t)
    (hmode : c.mode ≠ .Expect)
    (space : phys ≠ none → c.ps64Applicable = true → InSpace c.ppgtt.getNumLevels g size)
    (visit : ∀ page w, Wf c.ppgtt.getNumLevels w.nodes → 0 < page.size →
      Tracked c.gpu c.ppgtt.getNumLevels t w →
      Tracked c.gpu c.ppgtt.getNumLevels t (walkPage c page w).1 →
      (w.physicalAddress = none ↔ phys = none) → J page.gfxAddress page.size w →
      J (page.gfxAddress + (walkPage c page w).2) (page.size - (walkPage c page w).2)
        (walkPage c page w).1)
    (init : J g size (.start t a phys))
    (h : walkPages c size g size 0 (.start t a phys) = some w) : ∃ b, J b 0 w := by
  cases phys with
  | none =>
    obtain ⟨b, _, _, run⟩ := walkPages_runs (c := c)
      (J := fun b rest w => Tracked c.gpu c.ppgtt.getNumLevels t w ∧ w.physicalAddress = none ∧
        J b rest w) hmode
      (fun page w wf' hsize ⟨tracked, hphys, run⟩ => by
        have after : Tracked c.gpu c.ppgtt.getNumLevels t (walkPage c page w).1 :=
          tracked_walkPage wf' (fun _ => hphys) tracked fun _ hsome => absurd hphys hsome
        exact ⟨after, walkPage_physicalAddress_none page wf' hphys,
          visit page w wf' hsize tracked after (iff_of_true hphys rfl) run⟩)
      size g size 0 (.start t a none) w (Nat.le_refl _) wf h
      ⟨tracked_start _ _ t a none, rfl, init⟩
    exact ⟨b, run⟩
  | some p =>
    obtain ⟨b, _, _, run⟩ := walkPages_runs (c := c)
      (J := fun b rest w => MapEmission c t g (g + size) b rest w ∧
        w.physicalAddress ≠ none ∧ J b rest w) hmode
      (fun page w wf' hsize ⟨emission, hphys, run⟩ => by
        have emission' := mapEmission_step wf wf' hmode
          (by rw [Nat.add_sub_cancel_left]; exact space (by simp)) hsize emission
        exact ⟨emission', walkPage_physicalAddress_ne_none page wf' hmode hphys,
          visit page w wf' hsize emission.tracked emission'.tracked
            (iff_of_false hphys (by simp)) run⟩)
      size g size 0 (.start t a (some p)) w (Nat.le_refl _) wf h
      ⟨⟨tracked_start _ _ t a _, ⟨Nat.le_refl _, rfl⟩, fun _ => rfl, Or.inr (Or.inl rfl),
        fun _ _ _ hlisted => absurd hlisted List.not_mem_nil⟩, by simp [WalkState.start], init⟩
    exact ⟨b, run⟩

/-- A walk notes everything on the way to the addresses of its range. -/
theorem noted_walk {c : WalkContext} {t : Nodes} {a : A} {phys : Option Nat} {g size : Nat}
    {w : WalkState A} (wf : Wf c.ppgtt.getNumLevels t) (hmode : c.mode ≠ .Expect)
    (space : phys ≠ none → c.ps64Applicable = true → InSpace c.ppgtt.getNumLevels g size)
    (standing : phys = none → NoPending2MB c.ppgtt.getNumLevels t g size)
    (h : walkPages c size g size 0 (.start t a phys) = some w) :
    ∃ b, NotedRun c t g (g + size) b 0 w := by
  refine trackedPages_rule (J := NotedRun c t g (g + size)) wf hmode space ?_ notedRun_start h
  intro page w wf' hsize before after hphys run
  exact notedRun_step wf wf' hmode hsize before after
    (fun hnone => (standing (hphys.mp hnone)).rest run.bounds.1 run.bounds.2) run

/-- What lies on the way to an address of the range when the walk's entries are written. -/
theorem walk_noted (m : AubManagerImp A) {params : AllocationParams} {mode : WalkMode}
    {infos : List PageInfo} {phys : Option Nat} {t : Nodes} {a : A} {w : WalkState A}
    (wf : Wf m.tables.ppgtt.getNumLevels t) (hmode : mode ≠ .Expect)
    (space : phys ≠ none → m.tables.enablePs64 = true → params.pageSize = pageSize4KB →
      m.tables.ppgtt = .PML5 →
      InSpace m.tables.ppgtt.getNumLevels params.gfxAddress params.size)
    (standing : phys = none →
      NoPending2MB m.tables.ppgtt.getNumLevels t params.gfxAddress params.size)
    (h : m.walk params mode infos phys t a = some w) {x : Nat} (h1 : params.gfxAddress ≤ x)
    (h2 : x < params.gfxAddress + params.size) :
    IsMapped m.tables.ppgtt.getNumLevels w.nodes x ∧
      ∀ q, OnPath m.tables.ppgtt.getNumLevels w.nodes x q →
        Noted m.tables.ppgtt.getNumLevels w q := by
  rcases walkMemory_some h with ⟨hzero, _⟩ | ⟨_, c, hc, hpages⟩
  · omega
  · obtain ⟨_, hppgtt, hm, _⟩ := walkContext_some hc
    rw [← hm] at hmode
    rw [← hppgtt] at wf space standing ⊢
    have hwf : Wf c.ppgtt.getNumLevels w.nodes := by
      have hrun : runWalk m.tables ⟨t, a⟩ params mode infos phys = some ⟨w.nodes, w.allocator⟩ :=
        Option.map_eq_some_iff.mpr ⟨w, h, rfl⟩
      rw [hppgtt] at wf ⊢
      exact runWalk_wf wf (fun hexpect => absurd (hm.trans hexpect) hmode) hrun
    obtain ⟨b, run⟩ := noted_walk wf hmode (fun hphys happ => by
      obtain ⟨henable, hpageSize, hkind⟩ := (ps64Applicable_iff hc).mp happ
      exact space hphys henable hpageSize (hppgtt.trans hkind)) standing hpages
    have hb := run.bounds
    have hslot : slotFor c.ppgtt.getNumLevels (lastTable c t) x =
        leafSlot c.ppgtt.getNumLevels (lastTable c w.nodes x) x := by rw [run.kinds, slotFor]
    constructor
    · unfold IsMapped
      rw [leafSlot_mapped hwf, ← hslot]
      exact run.mapped x h1 (by omega)
    · rintro q ⟨hne, hq⟩
      refine run.noted x h1 (by omega) q hne ?_
      rw [hslot]
      rcases hq with habove | hpage
      · refine habove.trans ?_
        rcases lastTable_cases hwf x with ⟨k, hk⟩ | hk
        · rw [hk, leafSlot_pte]
          exact List.suffix_cons _ _
        · rw [hk]
          exact List.suffix_refl _
      · obtain ⟨region, hregion, rfl⟩ := Option.map_eq_some_iff.mp hpage
        simp only [lastTable_of_region hregion, List.suffix_refl]

end

end NotedPaths
