import Aubstream.NotedPaths
import Aubstream.LeafWrites

/-!
# Leaf entries that a walk repeats

A walk that maps supplied memory, or to which PS64 applies, writes the entry of
every 4KB leaf without the PS64 bit that it passes, whether the leaf is pending
or not. An entry that was lost on its way is repeated by such a walk.
-/

namespace RepeatedLeaves
open EntryBits PathTree PhysicalAllocator PageNodes PageWalker TreeShape WalkPhases LeafStep
  Placement Translation PageEffect MapCursor MapFrame Ps64Flags PendingEntries PendingWalks
  NotedPaths LeafWrites WrittenPaths AubManager TableRuns

section
variable {A : Type}

/-- The entry of the node at `q` is among those of the walk. -/
def Repeated (gpu : Gpu) (n : Nat) (w : WalkState A) (q : Path) : Prop :=
  ∀ m, w.nodes q = some m → entryOf gpu w.nodes q m ∈ w.pageWalkEntries (levelOf n q)

/-- Once repeated, an entry stays so: what changes the node writes it again. -/
theorem Repeated.keep {gpu : Gpu} {n : Nat} {t : Nodes} {w w' : WalkState A} {q : Path}
    (h : Repeated gpu n w q) (before : Tracked gpu n t w) (after : Tracked gpu n t w')
    (more : WritesMore w w') (lists : ListsMore w w') : Repeated gpu n w' q := by
  intro m hm
  by_cases hlisted : q ∈ w'.pendingNodes (levelOf n q)
  · exact ((after.slots q).emitted hlisted m hm).2
  · have hold : q ∉ w.pendingNodes (levelOf n q) := fun hq => hlisted (lists _ q hq)
    have ht : t q = some m := ((after.slots q).same hlisted).symm.trans hm
    have hm' : w.nodes q = some m := ((before.slots q).same hold).trans ht
    have hne : t q ≠ none := by
      rw [ht]
      exact Option.some_ne_none m
    have haddress : entryAddress w'.nodes q = entryAddress w.nodes q :=
      (after.kept q hne).2.trans (before.kept q hne).2.symm
    rw [entryOf, haddress]
    exact more.entries _ _ (h m hm')

theorem repeated_emitAndTrack {gpu : Gpu} {n level : Nat} {q : Path} {w : WalkState A}
    (depth : q.length + level = n) : Repeated gpu n (emitAndTrack gpu level q w) q := by
  intro m hm
  rw [emitAndTrack_nodes] at hm ⊢
  exact mem_emitAndTrack_entries.mpr (Or.inr ⟨levelOf_slot depth, m, hm, rfl⟩)

theorem repeated_emitChild {c : WalkContext} {n level : Nat} {q : Path} {emitEntry : Bool}
    {w : WalkState A} (depth : q.length + level = n) (supplied : w.physicalAddress ≠ none) :
    Repeated c.gpu n (emitChild c level q emitEntry w) q := by
  unfold emitChild
  rw [if_pos]
  · exact repeated_emitAndTrack depth
  · rw [Option.isSome_iff_ne_none.mpr supplied, Bool.or_true, Bool.true_or]

/-- A leaf that has no PS64 bit gets it with its group, and its entry is written. -/
theorem repeated_completeSlot {gpu : Gpu} {n level : Nat} {q : Path} {w : WalkState A}
    (depth : q.length + level = n) (unmarked : flag w.nodes q = false) :
    Repeated gpu n (completeSlot gpu level q w) q := by
  intro m hm
  cases hq : w.nodes q with
  | none =>
    rw [completeSlot_none hq, hq] at hm
    cases hm
  | some x =>
    rw [flag_of_some hq] at unmarked
    rw [completeSlot_eq hq, unmarked] at hm ⊢
    rw [emitSlot_nodes] at hm ⊢
    exact mem_emitSlot_entries.mpr (Or.inr ⟨rfl, levelOf_slot depth, m, hm, rfl⟩)

theorem repeated_downgradeSlot {gpu : Gpu} {n level : Nat} {q : Path} {w : WalkState A}
    (depth : q.length + level = n) : Repeated gpu n (downgradeSlot gpu level q w) q := by
  cases hq : w.nodes q with
  | none =>
    intro m hm
    simp only [downgradeSlot, hq] at hm
    cases hm
  | some x =>
    rw [downgradeSlot_eq hq]
    exact repeated_emitAndTrack depth

theorem Repeated.frame {gpu : Gpu} {n : Nat} {w w' : WalkState A} {q : Path}
    (h : Repeated gpu n w q) (same : Untouched (levelOf n q) w w' q) : Repeated gpu n w' q := by
  intro m hm
  rw [entryOf, same.address]
  exact same.entries _ (h m (same.node ▸ hm))

/-- A loop over slots that repeats an unmarked slot in its round. -/
theorem repeated_foldl {gpu : Gpu} {n : Nat} {f : WalkState A → Path → WalkState A} {q : Path}
    (body : ∀ w, flag w.nodes q = false → Repeated gpu n (f w q) q)
    (other : ∀ w p, q ≠ p → Untouched (levelOf n q) w (f w p) q) {qs : List Path}
    (nodup : qs.Nodup) (hq : q ∈ qs) (w : WalkState A) (unmarked : flag w.nodes q = false) :
    Repeated gpu n (qs.foldl f w) q := by
  have hslots := foldl_slots (f := f) (R := fun w p => p = q → flag w.nodes q = false)
    (D := fun w p => p = q → Repeated gpu n w q) ?_ ?_ ?_ nodup w fun _ _ _ => unmarked
  · exact hslots.1 q hq rfl
  · rintro w p hfresh rfl
    exact body w (hfresh rfl)
  · rintro w x p hne hfresh rfl
    rw [flag, (other w x hne).node]
    exact hfresh rfl
  · rintro w x p hne hdone rfl
    exact (hdone rfl).frame (other w x hne)

theorem repeated_updatePs64 {c : WalkContext} {page : PageRequest} {n level : Nat} {parent : Path}
    {index : Nat} {was : Bool} {w : WalkState A} (depth : parent.length + 1 + level = n)
    (unmarked : flag w.nodes (index :: parent) = false) :
    Repeated c.gpu n (updatePs64 c page level parent index was w) (index :: parent) := by
  have hq : index :: parent ∈ groupSlots parent (index - index % 16) :=
    mem_groupSlots.mpr ⟨index % 16, Nat.mod_lt _ (by decide), by congr 1; omega⟩
  have nodup := groupSlots_nodup parent (index - index % 16)
  unfold updatePs64
  simp only
  split
  · exact repeated_foldl (fun _ => repeated_completeSlot depth)
      (fun _ _ hne => completeSlot_other c.gpu level _ hne) nodup hq w unmarked
  · split
    · exact repeated_foldl (fun _ _ => repeated_downgradeSlot depth)
        (fun _ _ hne => downgradeSlot_other c.gpu level _ hne) nodup hq w unmarked
    · cases hchild : w.nodes (index :: parent) with
      | none =>
        intro m hm
        rw [hchild] at hm
        cases hm
      | some child => exact repeated_emitAndTrack depth

end

section
variable {A : Type} [PhysicalAddressAllocator A]

/-- The walk repeats the entries of the 4KB leaves that it passes. -/
def Repeats (c : WalkContext) (phys : Option Nat) : Prop :=
  phys ≠ none ∨ c.ps64Applicable = true

theorem repeated_leafStep {c : WalkContext} {page : PageRequest} {parent : PageNode}
    {w : WalkState A} (hat : AtLevel c page (.pte .PTE4KB) (leafLevel (.pte .PTE4KB)) w)
    (hp : w.nodes (slotPath c.ppgtt.getNumLevels (leafLevel (.pte .PTE4KB) + 1) page.gfxAddress) =
      some parent)
    (repeats : Repeats c w.physicalAddress)
    (unmarked : flag w.nodes
      (leafSlot c.ppgtt.getNumLevels (.pte .PTE4KB) page.gfxAddress) = false) :
    Repeated c.gpu c.ppgtt.getNumLevels (leafStep c page (.pte .PTE4KB) parent w)
      (leafSlot c.ppgtt.getNumLevels (.pte .PTE4KB) page.gfxAddress) := by
  have depth := (leafSlot_depth hat).1
  have hkind := hat.parent_kind_pte hp
  have hexisting : isExisting2MB (leafLevel (.pte .PTE4KB)) (w.nodes
      (leafSlot c.ppgtt.getNumLevels (.pte .PTE4KB) page.gfxAddress)) = false := by
    refine Bool.eq_false_iff.mpr fun h => ?_
    exact absurd (isExisting2MB_some h).1 Nat.zero_ne_one
  obtain ⟨pages, henter⟩ := enterChild_leaf c page (leafLevel (.pte .PTE4KB))
    (NodeKind.pte .PTE4KB).getPageSize parent
    (leafSlot c.ppgtt.getNumLevels (.pte .PTE4KB) page.gfxAddress)
    (alignedState (.pte .PTE4KB) w)
  simp only [alignedState] at henter
  unfold leafStep
  simp only [hexisting, Bool.false_and, Bool.false_eq_true, if_false, henter, hkind]
  split
  · refine repeated_updatePs64 depth ?_
    exact (flag_of_some (put_self _ _ _)).trans ((enteredLeaf_ps64 ..).trans unmarked)
  · rename_i hunchecked
    refine repeated_emitChild depth ?_
    rcases repeats with hphys | happ
    · obtain ⟨p, hphys⟩ := Option.ne_none_iff_exists'.mp hphys
      simp only [hphys, alignCursor]
      split
      · exact Option.some_ne_none _
      · exact Option.some_ne_none _
    · exact absurd (checkPs64_iff.mpr ⟨happ, rfl, rfl⟩) hunchecked

/-- A page repeats the entry of its 4KB leaf, if that had no PS64 bit when the walk started. -/
theorem walkPage_repeated {c : WalkContext} {page : PageRequest} {t : Nodes} {w : WalkState A}
    (wf : Wf c.ppgtt.getNumLevels w.nodes) (hmode : c.mode ≠ .Expect)
    (before : Tracked c.gpu c.ppgtt.getNumLevels t w)
    (after : Tracked c.gpu c.ppgtt.getNumLevels t (walkPage c page w).1)
    (repeats : Repeats c w.physicalAddress)
    (hlast : lastTable c w.nodes page.gfxAddress = .pte .PTE4KB)
    (unmarked : flag t
      (leafSlot c.ppgtt.getNumLevels (.pte .PTE4KB) page.gfxAddress) = false) :
    Repeated c.gpu c.ppgtt.getNumLevels (walkPage c page w).1
      (leafSlot c.ppgtt.getNumLevels (.pte .PTE4KB) page.gfxAddress) := by
  by_cases hlisted : leafSlot c.ppgtt.getNumLevels (.pte .PTE4KB) page.gfxAddress ∈
      w.pendingNodes (levelOf c.ppgtt.getNumLevels
        (leafSlot c.ppgtt.getNumLevels (.pte .PTE4KB) page.gfxAddress))
  · intro m hm
    exact ((after.slots _).emitted (listsMore_walkPage page wf hmode _ _ hlisted) m hm).2
  · have hrule := walkPage_rule page (P := fun _ w' => SameLeaves c.ppgtt.getNumLevels w w') wf
      (fun hexpect => absurd hexpect hmode) (sameLeaves_tableStep w) ⟨rfl, rfl, fun _ _ => rfl⟩
    rw [hlast] at hrule
    rcases hrule with ⟨w', parent, hat, hsame, hp, _, hw⟩ | ⟨_, _, _, _, hexpect, _, _⟩
    · have depth : (leafSlot c.ppgtt.getNumLevels (.pte .PTE4KB) page.gfxAddress).length =
          c.ppgtt.getNumLevels := (leafSlot_depth hat).1
      have hflag : flag w'.nodes
          (leafSlot c.ppgtt.getNumLevels (.pte .PTE4KB) page.gfxAddress) = false := by
        rw [flag, hsame.nodes _ depth, (before.slots _).same hlisted]
        exact unmarked
      have hleaf := repeated_leafStep hat hp (hsame.physicalAddress ▸ repeats) hflag
      have hentries := (recordPage_writes page (NodeKind.pte .PTE4KB).getPageSize
        (sizeThisIteration page (NodeKind.pte .PTE4KB).getPageSize)
        (leafSlot c.ppgtt.getNumLevels (.pte .PTE4KB) page.gfxAddress)
        (leafStep c page (.pte .PTE4KB) parent w')).1
      rw [hw]
      intro m hm
      rw [hentries]
      rw [recordPage_nodes] at hm ⊢
      exact hleaf m hm
    · exact absurd hexpect hmode

/-- Between two pages of a walk from `g` on: the 4KB leaves behind the cursor are repeated. -/
def RepeatedRun (c : WalkContext) (t : Nodes) (g a : Nat) (w : WalkState A) : Prop :=
  ∀ x, g ≤ x → x < a → lastTable c t x = .pte .PTE4KB →
    flag t (leafSlot c.ppgtt.getNumLevels (.pte .PTE4KB) x) = false →
    Repeated c.gpu c.ppgtt.getNumLevels w (leafSlot c.ppgtt.getNumLevels (.pte .PTE4KB) x)

theorem repeatedRun_step {c : WalkContext} {t : Nodes} {g : Nat} {page : PageRequest}
    {w : WalkState A} (wf₀ : Wf c.ppgtt.getNumLevels t) (wf : Wf c.ppgtt.getNumLevels w.nodes)
    (hmode : c.mode ≠ .Expect) (before : Tracked c.gpu c.ppgtt.getNumLevels t w)
    (after : Tracked c.gpu c.ppgtt.getNumLevels t (walkPage c page w).1)
    (repeats : Repeats c w.physicalAddress)
    (kinds : ∀ b, lastTable c w.nodes b = lastTable c t b)
    (run : RepeatedRun c t g page.gfxAddress w) :
    RepeatedRun c t g (page.gfxAddress + (walkPage c page w).2) (walkPage c page w).1 := by
  intro x h1 h2 hlast hflag
  by_cases hx : x < page.gfxAddress
  · exact (run x h1 hx hlast hflag).keep before after (writesMore_walkPage page wf hmode)
      (listsMore_walkPage page wf hmode)
  · have hk := pageKinds_lastTable wf₀
    have hpassed := walkPage_passes page wf hmode
    rw [kinds] at hpassed
    have hpage := samePage (hk.region page.gfxAddress).getPageSize_pos (Nat.le_of_not_lt hx)
      (by omega : x < page.gfxAddress + ((lastTable c t page.gfxAddress).getPageSize -
        page.gfxAddress % (lastTable c t page.gfxAddress).getPageSize))
    have hkind : lastTable c t page.gfxAddress = .pte .PTE4KB :=
      (kinds_of_page hk hpage).symm.trans hlast
    rw [hkind] at hpage
    have hslot := leafSlot_congr (n := c.ppgtt.getNumLevels) (.pte .PTE4KB) hpage
    rw [← hslot] at hflag ⊢
    exact walkPage_repeated wf hmode before after repeats ((kinds _).trans hkind) hflag

/-- A walk repeats the 4KB leaves of its range that had no PS64 bit. -/
theorem repeated_walk {c : WalkContext} {t : Nodes} {a : A} {phys : Option Nat} {g size : Nat}
    {w : WalkState A} (wf : Wf c.ppgtt.getNumLevels t) (hmode : c.mode ≠ .Expect)
    (space : phys ≠ none → c.ps64Applicable = true → InSpace c.ppgtt.getNumLevels g size)
    (repeats : Repeats c phys) (h : walkPages c size g size 0 (.start t a phys) = some w) :
    RepeatedRun c t g (g + size) w := by
  have hrun := trackedPages_rule (J := fun b rest w => b + rest = g + size ∧
    (∀ b, lastTable c w.nodes b = lastTable c t b) ∧ RepeatedRun c t g b w) wf hmode space ?_
    ⟨rfl, fun _ => rfl, fun x h1 h2 => by omega⟩ h
  · obtain ⟨b, hb, _, run⟩ := hrun
    rwa [← hb]
  · intro page w wf' hsize before after hphys ⟨hstop, kinds, run⟩
    have hpassed := walkPage_passes page wf' hmode
    refine ⟨by omega, fun b => (walkPage_kinds page wf' hmode b).trans (kinds b), ?_⟩
    exact repeatedRun_step wf wf' hmode before after
      (repeats.imp_left fun hne hnone => hne (hphys.mp hnone)) kinds run

omit [PhysicalAddressAllocator A] in
/-- A slot of a 4KB table on the way to an address is that of its leaf. -/
theorem leafSlot_onPath {c : WalkContext} {t : Nodes} (wf : Wf c.ppgtt.getNumLevels t) {x i : Nat}
    {p : Path} {table : PageNode} (onPath : OnPath c.ppgtt.getNumLevels t x (i :: p))
    (htable : t p = some table) (hkind : table.kind = .pte .PTE4KB) :
    lastTable c t x = .pte .PTE4KB ∧
      i :: p = leafSlot c.ppgtt.getNumLevels (.pte .PTE4KB) x := by
  have hn := getNumLevels_ge c.ppgtt
  have hlen : p.length + 1 = c.ppgtt.getNumLevels := by
    have hdepth := wf.depth p table htable
    rw [hkind] at hdepth
    exact hdepth
  have hregion : (slotPath c.ppgtt.getNumLevels Pde x).length + 1 = c.ppgtt.getNumLevels := by
    rw [slotPath_length]
    simp only [Pde]
    omega
  obtain ⟨_, habove | hslot⟩ := onPath
  · have hle := habove.length_le
    rw [List.length_cons] at hle
    omega
  · obtain ⟨region, hr, hq⟩ := Option.map_eq_some_iff.mp hslot
    have hlast := lastTable_of_region (c := c) hr
    rcases lastTable_cases wf x with ⟨k, hk⟩ | hk
    · rw [hlast] at hk
      rw [hk, leafSlot_pte, List.cons.injEq] at hq
      obtain ⟨rfl, rfl⟩ := hq
      obtain rfl := Option.some.inj (hr.symm.trans htable)
      rw [hkind] at hk hlast
      obtain rfl : PteKind.PTE4KB = k := NodeKind.pte.inj hk
      exact ⟨hlast, rfl⟩
    · rw [hlast] at hk
      rw [hk] at hq
      have hsame : slotPath c.ppgtt.getNumLevels Pde x = i :: p := hq
      rw [hsame, List.length_cons] at hregion
      omega

variable (m : AubManagerImp A)

/-- The walk of a request repeats the entries of the 4KB leaves that it passes: it maps, or PS64
applies to it. -/
def RepeatsLeaves (params : AllocationParams) (phys : Option Nat) : Prop :=
  phys ≠ none ∨
    m.tables.enablePs64 = true ∧ params.pageSize = pageSize4KB ∧ m.tables.ppgtt = .PML5

/-- A leaf without the PS64 bit on the way to an address of the range is written again. -/
theorem walk_repeated {params : AllocationParams} {mode : WalkMode} {infos : List PageInfo}
    {phys : Option Nat} {t : Nodes} {a : A} {w : WalkState A}
    (wf : Wf m.tables.ppgtt.getNumLevels t) (hmode : mode ≠ .Expect)
    (space : phys ≠ none → m.tables.enablePs64 = true → params.pageSize = pageSize4KB →
      m.tables.ppgtt = .PML5 →
      InSpace m.tables.ppgtt.getNumLevels params.gfxAddress params.size)
    (repeats : RepeatsLeaves m params phys) (h : m.walk params mode infos phys t a = some w)
    {x : Nat} (h1 : params.gfxAddress ≤ x) (h2 : x < params.gfxAddress + params.size) {i : Nat}
    {p : Path} {table leaf : PageNode} (htable : t p = some table)
    (hkind : table.kind = .pte .PTE4KB) (onPath : OnPath m.tables.ppgtt.getNumLevels t x (i :: p))
    (unmarked : flag t (i :: p) = false) (hleaf : w.nodes (i :: p) = some leaf) :
    entryOf m.tables.gpu w.nodes (i :: p) leaf ∈ entriesOf (m.writePages w) := by
  rcases walkMemory_some h with ⟨hzero, _⟩ | ⟨_, c, hc, hpages⟩
  · omega
  · obtain ⟨hgpu, hppgtt, hm, _⟩ := walkContext_some hc
    have happ := ps64Applicable_iff hc
    rw [← hm] at hmode
    rw [← hppgtt] at wf space onPath
    rw [← hgpu]
    obtain ⟨hlast, hslot⟩ := leafSlot_onPath wf onPath htable hkind
    have run := repeated_walk wf hmode (fun hphys hps64 => by
      obtain ⟨henable, hpageSize, hpml5⟩ := happ.mp hps64
      exact space hphys henable hpageSize (hppgtt.trans hpml5)) (repeats.imp_right happ.mpr) hpages
    rw [hslot] at unmarked hleaf ⊢
    have hwritten := run x h1 h2 hlast unmarked leaf hleaf
    refine mem_writePages m ?_ hwritten
    have hn := getNumLevels_ge c.ppgtt
    rw [← hppgtt, levelOf, leafSlot_pte, List.length_cons, slotPath_length]
    simp only [Pde]
    omega

end

end RepeatedLeaves
