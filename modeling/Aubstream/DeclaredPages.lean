import Aubstream.LeafWrites
import Aubstream.NotedPaths

/-!
# Which leaf entries a walk declares

A walk over pages of its own writes the entries of leaves that it creates, whose
addresses it notes unless it clones, and of leaves that were pending before it. A
walk with a supplied address moves the leaves that stand. `D` tells which
addresses have been declared before.
-/

namespace DeclaredPages
open EntryBits PathTree PhysicalAllocator MemoryBanks PageNodes PageWalker TreeShape WalkPhases
  Placement Translation PageEffect PendingEntries PendingWalks MapCursor MapFrame NotedPaths LeafWrites

/-- The addresses at which the rounds of a walk start; the recursion is that of `walkPages`. -/
def roundStarts (kinds : Nat → NodeKind) : Nat → Nat → Nat → List Nat
  | 0, _, _ => []
  | fuel + 1, gfxAddress, size =>
    if size = 0 then []
    else
      let passed := min size ((kinds gfxAddress).getPageSize - gfxAddress % (kinds gfxAddress).getPageSize)
      gfxAddress :: roundStarts kinds fuel (gfxAddress + passed) (size - passed)

section
variable (D : Nat → Prop) (n : Nat) (kinds : Nat → NodeKind) (t : Nodes) (g size : Nat)

/-- The pending 64KB leaves in system memory that a request meets have been declared. -/
def PendingDeclared : Prop :=
  ∀ x, g ≤ x → x < g + size → ∀ leaf, leafAt n t x = some leaf → pageSizeAt n t x = pageSize64KB →
    leaf.memoryBank = mainBank → leaf.pendingWrite = true → D leaf.physicalAddress

/-- So have the 64KB pages in system memory that a clone puts into empty slots. -/
def ClonesDeclared (infos : List PageInfo) : Prop :=
  ∀ (i x : Nat) (info : PageInfo), (roundStarts kinds size g size)[i]? = some x → infos[i]? = some info →
    (kinds x).getPageSize = pageSize64KB → leafAt n t x = none → info.memoryBank = mainBank →
    D (info.physicalAddress - info.physicalAddress % pageSize64KB)

/-- The addresses that the 64KB leaves are to be moved to have been declared. -/
def TargetsDeclared (phys : Nat) : Prop :=
  ∀ x p, g ≤ x → x < g + size → PageStart kinds g x → IsTarget kinds phys g x p →
    (kinds x).getPageSize = pageSize64KB → leafAt n t x ≠ none → D p

end

section
variable {A : Type} [PhysicalAddressAllocator A]

/-- The induction over the rounds of a walk that writes. -/
theorem writtenLeaves_rule {c : WalkContext} {D : Nat → Prop}
    {J : Nat → Nat → Nat → Nat → WalkState A → Prop} (hmode : c.mode ≠ .Expect)
    (visit : ∀ fuel page index w, Wf c.ppgtt.getNumLevels w.nodes → 0 < page.size →
      pageRequest c page.gfxAddress page.size index w.physicalAddress = some page →
      J (fuel + 1) page.gfxAddress page.size index w →
      J fuel (page.gfxAddress + (walkPage c page w).2) (page.size - (walkPage c page w).2)
          (index + 1) (walkPage c page w).1 ∧
        ∀ e, writtenLeaf c page w = some e →
          e.entry ∈ (walkPage c page w).1.pageWalkEntries Pte ∧
          (e.page ∈ (walkPage c page w).1.pages64KB ∨ D e.page)) :
    ∀ fuel g size index (w w' : WalkState A), Wf c.ppgtt.getNumLevels w.nodes →
      walkPages c fuel g size index w = some w' → J fuel g size index w →
      WritesMore w w' ∧ ∀ e ∈ writtenLeaves c fuel g size index w,
        e.entry ∈ w'.pageWalkEntries Pte ∧ (e.page ∈ w'.pages64KB ∨ D e.page) := by
  intro fuel
  induction fuel with
  | zero =>
    intro g size index w w' _ h _
    obtain rfl := Option.some.inj h
    exact ⟨.refl w, fun e he => by cases he⟩
  | succ fuel ih =>
    intro g size index w w' wf h hJ
    by_cases hz : size = 0
    · simp only [walkPages, if_pos hz, Option.some.injEq] at h
      subst h
      refine ⟨.refl w, fun e he => ?_⟩
      simp only [writtenLeaves, if_pos hz, List.not_mem_nil] at he
    · simp only [walkPages, if_neg hz, Option.bind_eq_some_iff] at h
      obtain ⟨page, hpage, h⟩ := h
      simp only [writtenLeaves, if_neg hz, hpage]
      obtain ⟨rfl, rfl⟩ := pageRequest_some hpage
      obtain ⟨hnext, hround⟩ := visit fuel page index w wf (Nat.pos_of_ne_zero hz) hpage hJ
      have hmore := writesMore_walkPage page wf hmode
      have wf' := walkPage_wf page wf fun hexpect => absurd hexpect hmode
      -- what the round has written is still there at the end of the walk
      have later : WritesMore (walkPage c page w).1 w' → ∀ e, writtenLeaf c page w = some e →
          e.entry ∈ w'.pageWalkEntries Pte ∧ (e.page ∈ w'.pages64KB ∨ D e.page) :=
        fun grows e he =>
          ⟨grows.entries _ _ (hround e he).1, (hround e he).2.imp_left (grows.pages _)⟩
      split at h
      · rename_i hstop
        obtain rfl := Option.some.inj h
        refine ⟨hmore, fun e he => ?_⟩
        rw [if_pos hstop, List.append_nil, Option.mem_toList] at he
        exact later (.refl _) e he
      · rename_i hgo
        obtain ⟨hrest, hleaves⟩ := ih _ _ _ _ _ wf' h hnext
        refine ⟨hmore.trans hrest, fun e he => ?_⟩
        rw [if_neg hgo, List.mem_append, Option.mem_toList] at he
        rcases he with hnew | hlater
        · exact later hrest e hnew
        · exact hleaves e hlater

/-- Between two rounds of a walk that places its own pages. -/
structure OwnRun (c : WalkContext) (t : Nodes) (g total fuel a size index : Nat)
    (w : WalkState A) : Prop where
  tracked : Tracked c.gpu c.ppgtt.getNumLevels t w
  cursor : w.physicalAddress = none
  kinds : ∀ b, lastTable c w.nodes b = lastTable c t b
  bounds : g ≤ a ∧ a + size = g + total
  starts : (roundStarts (lastTable c t) total g total).drop index =
    roundStarts (lastTable c t) fuel a size

omit [PhysicalAddressAllocator A] in
theorem pageRequest_cases {c : WalkContext} {g size index : Nat} {p : Option Nat}
    {page : PageRequest} (h : pageRequest c g size index p = some page) :
    page.pageMemoryBank = (if p.isSome then c.allocationParams.memoryBanks
        else c.bankHelper.getMemoryBank g) ∧
      (c.mode = .Clone → ∃ info, c.pageInfos[index]? = some info ∧
        page.clonePageInfo = some info) ∧
      (c.mode ≠ .Clone → page.clonePageInfo = none) := by
  simp only [pageRequest] at h
  by_cases hmode : c.mode = .Clone
  · rw [if_pos hmode] at h
    obtain ⟨info, hinfo, rfl⟩ := Option.map_eq_some_iff.mp h
    exact ⟨rfl, fun _ => ⟨info, hinfo, rfl⟩, fun hne => absurd hmode hne⟩
  · rw [if_neg hmode] at h
    obtain rfl := Option.some.inj h
    exact ⟨rfl, fun hclone => absurd hclone hmode, fun _ => rfl⟩

theorem ownRun_step {c : WalkContext} {t : Nodes} {g total fuel index : Nat} {page : PageRequest}
    {w : WalkState A} (wf : Wf c.ppgtt.getNumLevels w.nodes) (hmode : c.mode ≠ .Expect)
    (hsize : 0 < page.size)
    (run : OwnRun c t g total (fuel + 1) page.gfxAddress page.size index w) :
    OwnRun c t g total fuel (page.gfxAddress + (walkPage c page w).2)
      (page.size - (walkPage c page w).2) (index + 1) (walkPage c page w).1 := by
  have hpassed := walkPage_passes page wf hmode
  rw [run.kinds] at hpassed
  obtain ⟨hga, hstop⟩ := run.bounds
  refine ⟨?_, walkPage_physicalAddress_none page wf run.cursor,
    fun b => (walkPage_kinds page wf hmode b).trans (run.kinds b), by omega, ?_⟩
  · exact tracked_walkPage wf (fun hexpect => absurd hexpect hmode) run.tracked
      fun _ hsome => absurd run.cursor hsome
  · rw [← List.drop_drop, run.starts, roundStarts, if_neg (by omega), hpassed]
    rfl

theorem ownRun_declares {c : WalkContext} {D : Nat → Prop} {t : Nodes} {g total fuel index : Nat}
    {x y : Nat} (helper : MemoryBankHelper.new? c.allocationParams.memoryBanks x y =
      some c.bankHelper)
    {page : PageRequest} {w : WalkState A} (wf₀ : Wf c.ppgtt.getNumLevels t)
    (wf : Wf c.ppgtt.getNumLevels w.nodes) (hmode : c.mode ≠ .Expect) (hsize : 0 < page.size)
    (pending : PendingDeclared D c.ppgtt.getNumLevels t g total)
    (clones : c.mode = .Clone →
      ClonesDeclared D c.ppgtt.getNumLevels (lastTable c t) t g total c.pageInfos)
    (hpage : pageRequest c page.gfxAddress page.size index w.physicalAddress = some page)
    (run : OwnRun c t g total (fuel + 1) page.gfxAddress page.size index w) {e : LeafEntry}
    (h : writtenLeaf c page w = some e) :
    e.entry ∈ (walkPage c page w).1.pageWalkEntries Pte ∧
      (e.page ∈ (walkPage c page w).1.pages64KB ∨ D e.page) := by
  obtain ⟨hga, hstop⟩ := run.bounds
  obtain ⟨hbank, hclone, hown⟩ := pageRequest_cases hpage
  obtain ⟨hentry, h64KB, hcase⟩ := writtenLeaf_cases wf hmode (fun _ => run.cursor) h
  refine ⟨hentry, ?_⟩
  rw [run.kinds] at h64KB hcase
  have hleafAt := leafSlot_mapped wf₀ (c := c) (g := page.gfxAddress)
  cases hcase with
  | created missing own system noted =>
    left
    have hreserve : c.mode = .Reserve := by
      cases hm : c.mode with
      | Reserve => rfl
      | Clone =>
        obtain ⟨info, _, hinfo⟩ := hclone hm
        rw [own] at hinfo
        cases hinfo
      | Expect => exact absurd hm hmode
    refine noted hreserve ?_
    rw [run.cursor] at hbank
    by_contra hlocal
    exact MemoryBankHelper.getMemoryBank_ne_zero helper hlocal page.gfxAddress
      (hbank.symm.trans system)
  | cloned info missing record system address =>
    right
    have hcloning : c.mode = .Clone := by
      by_contra hne
      rw [hown hne] at record
      cases record
    obtain ⟨info', hinfo', hrecord⟩ := hclone hcloning
    obtain rfl : info' = info := Option.some.inj (hrecord.symm.trans record)
    rw [address]
    refine clones hcloning index page.gfxAddress info' ?_ hinfo' h64KB ?_ system
    · have hstart := congrArg List.head? run.starts
      rw [List.head?_drop, roundStarts, if_neg (by omega)] at hstart
      exact hstart
    · rw [hleafAt]
      by_contra hstands
      exact (run.tracked.kept _ hstands).1 missing
  | pending n standing cursor system hpending fresh address =>
    right
    rw [address]
    have depth : levelOf c.ppgtt.getNumLevels (leafSlot c.ppgtt.getNumLevels
        (lastTable c t page.gfxAddress) page.gfxAddress) = Pte := by
      obtain ⟨k, hk, _⟩ := getPageSize_64KB (isRegion_lastTable wf₀ page.gfxAddress) h64KB
      have hn := getNumLevels_ge c.ppgtt
      rw [hk, leafSlot_pte, levelOf, List.length_cons, slotPath_length]
      simp only [Pde, Pte]
      omega
    have hbefore := (run.tracked.slots _).same (depth ▸ fresh)
    rw [standing, ← hleafAt] at hbefore
    refine pending page.gfxAddress hga (by omega) n hbefore.symm ?_ system hpending
    rw [pageSizeAt_before (c := c) (by rw [← hbefore]; simp)]
    exact h64KB
  | overridden n p standing cursor =>
    rw [run.cursor] at cursor
    cases cursor

/-- A walk without a supplied address. -/
theorem ownWalk_declares {c : WalkContext} {D : Nat → Prop} {t : Nodes} {a : A} {g size : Nat}
    {x y : Nat} {w : WalkState A}
    (helper : MemoryBankHelper.new? c.allocationParams.memoryBanks x y = some c.bankHelper)
    (wf : Wf c.ppgtt.getNumLevels t) (hmode : c.mode ≠ .Expect)
    (pending : PendingDeclared D c.ppgtt.getNumLevels t g size)
    (clones : c.mode = .Clone →
      ClonesDeclared D c.ppgtt.getNumLevels (lastTable c t) t g size c.pageInfos)
    (h : walkPages c size g size 0 (.start t a none) = some w) :
    ∀ e ∈ writtenLeaves c size g size 0 (.start t a none),
      e.entry ∈ w.pageWalkEntries Pte ∧ (e.page ∈ w.pages64KB ∨ D e.page) := by
  have hstart : OwnRun c t g size size g size 0 (.start t a none) :=
    ⟨tracked_start _ _ t a none, rfl, fun _ => rfl, ⟨Nat.le_refl g, rfl⟩, rfl⟩
  exact (writtenLeaves_rule (J := fun fuel b rest index w => OwnRun c t g size fuel b rest index w)
    hmode (fun fuel page index w wf' hsize hpage run => ⟨ownRun_step wf' hmode hsize run,
      fun e he => ownRun_declares helper wf wf' hmode hsize pending clones hpage run he⟩)
    size g size 0 _ w wf h hstart).2

theorem mapRun_declares {c : WalkContext} {D : Nat → Prop} {t : Nodes}
    {phys g total index : Nat} {page : PageRequest} {w : WalkState A}
    (wf₀ : Wf c.ppgtt.getNumLevels t) (wf : Wf c.ppgtt.getNumLevels w.nodes)
    (hmode : c.mode = .Reserve) (hsize : 0 < page.size)
    (once : PagesOnce c.ppgtt.getNumLevels (lastTable c t) g total)
    (targets : c.allocationParams.memoryBanks = mainBank →
      TargetsDeclared D c.ppgtt.getNumLevels (lastTable c t) t g total phys)
    (hpage : pageRequest c page.gfxAddress page.size index w.physicalAddress = some page)
    (run : MapRun c (layout t) phys g (g + total) page.gfxAddress page.size (layoutOf w))
    {e : LeafEntry} (h : writtenLeaf c page w = some e) :
    e.entry ∈ (walkPage c page w).1.pageWalkEntries Pte ∧
      (e.page ∈ (walkPage c page w).1.pages64KB ∨ D e.page) := by
  have hn := getNumLevels_ge c.ppgtt
  have hkinds : lastTable c (layout t) = lastTable c t := funext (lastTable_layout c t)
  have hk := pageKinds_lastTable wf₀
  obtain ⟨hga, hstop⟩ := run.bounds
  obtain ⟨hbank, _, hown⟩ := pageRequest_cases hpage
  have hmode' : c.mode ≠ .Expect := by
    rw [hmode]
    simp
  have own : page.clonePageInfo = none := hown (by rw [hmode]; simp)
  have hsame : lastTable c w.nodes page.gfxAddress = lastTable c t page.gfxAddress := by
    rw [← lastTable_layout c w.nodes, ← lastTable_layout c t]
    exact run.kinds page.gfxAddress
  obtain ⟨hentry, h64KB, hcase⟩ := writtenLeaf_cases wf hmode' (fun hne => absurd own hne) h
  refine ⟨hentry, ?_⟩
  rw [hsame] at h64KB hcase
  obtain ⟨p, hp, hcursor⟩ := run.cursor.resolve_left (by omega)
  have hp : w.physicalAddress = some p := hp
  have start := run.start.resolve_left (by omega)
  rw [hkinds] at hcursor start
  rw [hp] at hbank
  cases hcase with
  | created missing own system noted => exact Or.inl (noted hmode (hbank.symm.trans system))
  | cloned info missing record =>
    rw [own] at record
    cases record
  | pending n standing cursor =>
    rw [hp] at cursor
    cases cursor
  | overridden n p' standing cursor system address =>
    right
    obtain rfl : p = p' := Option.some.inj (hp.symm.trans cursor)
    rw [address]
    refine targets (hbank.symm.trans system) page.gfxAddress p hga (by omega) start ?_ h64KB ?_
    · obtain ⟨q, hq, htarget⟩ := isTarget_of_cursor hk hga start hcursor
      obtain ⟨k, hkind, _⟩ := getPageSize_64KB (hk.region page.gfxAddress) h64KB
      rw [hkind, leafCursor_pte] at hq
      exact Option.some.inj hq ▸ htarget
    · -- no earlier round has entered the slot, so its leaf stood before the walk
      obtain ⟨k, hkind, _⟩ := getPageSize_64KB (hk.region page.gfxAddress) h64KB
      have hleaf : IsLeaf n.kind := by
        rw [wf.memory_of_length standing (by
          rw [hkind, leafSlot_pte, List.length_cons, slotPath_length]
          simp only [Pde]
          omega)]
        exact .memory
      rcases run.new _ (core n) (layout_some standing) (by
        rintro ⟨b, h1, h2, hb, heq⟩
        rw [hkinds] at hb heq
        have := slot_once wf₀ once hga (by omega) h1 (by omega) start hb heq
        omega) with hold | hnot
      · rw [leafSlot_mapped wf₀]
        intro hnone
        rw [layout_eq_none.mpr hnone] at hold
        cases hold
      · exact absurd hleaf hnot

/-- A walk with a supplied address. -/
theorem mapWalk_declares {c : WalkContext} {D : Nat → Prop} {t : Nodes} {a : A}
    {phys g size : Nat} {w : WalkState A} (wf : Wf c.ppgtt.getNumLevels t)
    (hmode : c.mode = .Reserve) (address : phys < 2 ^ 64)
    (once : PagesOnce c.ppgtt.getNumLevels (lastTable c t) g size)
    (targets : c.allocationParams.memoryBanks = mainBank →
      TargetsDeclared D c.ppgtt.getNumLevels (lastTable c t) t g size phys)
    (h : walkPages c size g size 0 (.start t a (some phys)) = some w) :
    ∀ e ∈ writtenLeaves c size g size 0 (.start t a (some phys)),
      e.entry ∈ w.pageWalkEntries Pte ∧ (e.page ∈ w.pages64KB ∨ D e.page) := by
  have hkinds : lastTable c (layout t) = lastTable c t := funext (lastTable_layout c t)
  have hmode' : c.mode ≠ .Expect := by
    rw [hmode]
    simp
  have expect : ∀ w : WalkState A, c.mode = .Expect → w.physicalAddress = none :=
    fun _ hexpect => absurd hexpect hmode'
  exact (writtenLeaves_rule (J := fun _ b rest _ w =>
      MapRun c (layout t) phys g (g + size) b rest (layoutOf w)) hmode'
    (fun fuel page index w wf' hsize hpage run => by
      obtain ⟨hl, hp⟩ := walkPage_layout page wf' (expect w)
      refine ⟨?_, fun e he => mapRun_declares wf wf' hmode hsize once targets hpage run he⟩
      rw [hl, hp]
      exact mapRun_step (wf_layout.mpr wf) (wf_layout.mpr wf') hmode
        (by rw [Nat.add_sub_cancel_left, hkinds]; exact once) hsize hpage rfl run)
    size g size 0 _ w wf h (mapRun_start c t a g size address)).2

/-- A map to local memory writes no entry of system memory. -/
theorem mapWalk_local {c : WalkContext} {D : Nat → Prop} {t : Nodes} {a : A} {phys g size : Nat}
    {w : WalkState A} (wf : Wf c.ppgtt.getNumLevels t) (hmode : c.mode = .Reserve)
    (banks : c.allocationParams.memoryBanks ≠ mainBank)
    (h : walkPages c size g size 0 (.start t a (some phys)) = some w) :
    ∀ e ∈ writtenLeaves c size g size 0 (.start t a (some phys)),
      e.entry ∈ w.pageWalkEntries Pte ∧ (e.page ∈ w.pages64KB ∨ D e.page) := by
  have hmode' : c.mode ≠ .Expect := by
    rw [hmode]
    simp
  refine (writtenLeaves_rule (J := fun _ _ _ _ w => w.physicalAddress ≠ none) hmode' ?_ size g size 0
    _ w wf h (Option.some_ne_none phys)).2
  intro fuel page index w wf' hsize hpage hcursor
  refine ⟨walkPage_physicalAddress_ne_none page wf' hmode' hcursor, fun e he => ?_⟩
  obtain ⟨hbank, _, hown⟩ := pageRequest_cases hpage
  have own : page.clonePageInfo = none := hown (by rw [hmode]; simp)
  rw [if_pos (Option.isSome_iff_ne_none.mpr hcursor)] at hbank
  cases (writtenLeaf_cases wf' hmode' (fun hne => absurd own hne) he).2.2 with
  | created _ _ system => exact absurd (hbank.symm.trans system) banks
  | cloned info _ record =>
    rw [own] at record
    cases record
  | pending _ _ cursor => exact absurd cursor hcursor
  | overridden _ _ _ _ system => exact absurd (hbank.symm.trans system) banks

omit [PhysicalAddressAllocator A] in
theorem walkContext_helper {gpu : Gpu} {enablePs64 : Bool} {ppgtt : PpgttKind}
    {params : AllocationParams} {mode : WalkMode} {infos : List PageInfo} {c : WalkContext}
    (h : walkContext gpu enablePs64 ppgtt params mode infos = some c) :
    ∃ x y, MemoryBankHelper.new? c.allocationParams.memoryBanks x y = some c.bankHelper := by
  simp only [walkContext, Option.map_eq_some_iff] at h
  obtain ⟨helper, hhelper, rfl⟩ := h
  exact ⟨_, _, hhelper⟩

end

end DeclaredPages
