import Aubstream.TableRuns
import Aubstream.Ps64Free

/-!
# PS64 groups over runs

Frees keep every group settled, and so does each walk whose placement fulfils
the predictions that the code makes on it.
-/

namespace Ps64Groups
open EntryBits PathTree PhysicalAllocator PageNodes PageWalker FreeMemory TreeShape WalkPhases
  Placement FreePhases Ps64Flags Ps64Walk Ps64Free TableRuns Transitions

variable {A : Type} [PhysicalAddressAllocator A]

/-- The condition on a walk, from the state before it. Where PS64 applies, each prediction that
the code makes on the placement of the request is one that the placement fulfils; elsewhere the
placement leaves every marked group complete. -/
def WalkOk (cfg : Config) (s : PageTables A) (params : AllocationParams) (mode : WalkMode)
    (infos : List PageInfo) (physicalAddress : Option Nat) : Prop :=
  ∀ c pages, walkContext cfg.gpu cfg.enablePs64 cfg.ppgtt params mode infos = some c →
    placePages c params.size params.gfxAddress params.size 0
      ⟨layout s.nodes, s.allocator, physicalAddress, []⟩ = some pages →
    let F := (finalLayout c ⟨layout s.nodes, s.allocator, physicalAddress, []⟩ pages).nodes
    if c.ps64Applicable then
      Fulfils c s.nodes F (visits c ⟨layout s.nodes, s.allocator, physicalAddress, []⟩ pages)
    else ∀ p b, 16 ∣ b → GroupMarked s.nodes p b → isPs64GroupComplete c.gpu F p b = true

def OpOk (cfg : Config) (s : PageTables A) : Op A → Prop
  | .walk params mode infos => WalkOk cfg s params mode infos none
  | .map params physicalAddress => WalkOk cfg s params .Reserve [] (some physicalAddress)
  | .freeMemory _ _ => True
  | .commit _ => True
  | .others _ => True

/-- The condition on a walk to which PS64 applies, computed. -/
def walkCheck (cfg : Config) (s : PageTables A) (params : AllocationParams) (mode : WalkMode)
    (infos : List PageInfo) (physicalAddress : Option Nat) : Bool :=
  (walkContext cfg.gpu cfg.enablePs64 cfg.ppgtt params mode infos).any fun c =>
    (placePages c params.size params.gfxAddress params.size 0
      ⟨layout s.nodes, s.allocator, physicalAddress, []⟩).any fun pages =>
        c.ps64Applicable &&
          (visits c ⟨layout s.nodes, s.allocator, physicalAddress, []⟩ pages).all fun v =>
            !predicts c s.nodes v || isPs64GroupComplete c.gpu
              (finalLayout c ⟨layout s.nodes, s.allocator, physicalAddress, []⟩ pages).nodes
              (slotPath c.ppgtt.getNumLevels Pde v.1.gfxAddress) (hwBaseOf v.1.gfxAddress)

theorem walkOk_of_check {cfg : Config} {s : PageTables A} {params : AllocationParams}
    {mode : WalkMode} {infos : List PageInfo} {phys : Option Nat}
    (h : walkCheck cfg s params mode infos phys = true) : WalkOk cfg s params mode infos phys := by
  intro c pages hc hpages
  simp only [walkCheck, hc, hpages, Option.any_some, Bool.and_eq_true, List.all_eq_true,
    Bool.or_eq_true, Bool.not_eq_true'] at h
  obtain ⟨happ, hall⟩ := h
  rw [if_pos happ]
  intro v hv hpredicted
  rcases hall v hv with hno | hcomplete
  · rw [hpredicted] at hno
    cases hno
  · exact hcomplete

theorem applicable_walk {c : WalkContext} {t : Nodes} {a : A} {phys : Option Nat}
    {fuel g size index : Nat} {w : WalkState A} {pages : List PageRequest}
    (wf : Wf c.ppgtt.getNumLevels t) (expect : c.mode = .Expect → phys = none)
    (applicable : c.ps64Applicable = true) (inv : Ps64Inv c.gpu t)
    (hplaced : placePages c fuel g size index ⟨layout t, a, phys, []⟩ = some pages)
    (fulfils : Fulfils c t (finalLayout c ⟨layout t, a, phys, []⟩ pages).nodes
      (visits c ⟨layout t, a, phys, []⟩ pages))
    (h : walkPages c fuel g size index (.start t a phys) = some w) : Ps64Inv c.gpu w.nodes := by
  have stuck : ∀ w w' : WalkState A, c.mode = .Expect → w'.nodes = w.nodes →
      w'.allocator = w.allocator → w'.entries = w.entries →
      WalkInv c t (finalLayout c ⟨layout t, a, phys, []⟩ pages).nodes [] w →
      WalkInv c t (finalLayout c ⟨layout t, a, phys, []⟩ pages).nodes [] w' := by
    intro w w' _ hnodes _ _ hinv
    refine ⟨?_, fun v hv => (List.not_mem_nil hv).elim, hnodes ▸ hinv.tables, fun p b hb => ?_,
      hnodes ▸ hinv.kept⟩
    · rw [← hinv.final]
      change layout w'.nodes = layout w.nodes
      rw [hnodes]
    · rcases hinv.groups p b hb with h | ⟨_, v, hv, _⟩
      · exact Or.inl (hnodes ▸ h)
      · cases hv
  obtain ⟨pages', hp, hP, _⟩ := walkPages_rule
    (fun page rest w wf expect _ hmoves => walkPage_groups wf expect hmoves applicable) stuck
    fuel g size index (.start t a phys) w wf expect h
  have hsame : pages' = pages := Option.some.inj (hp.symm.trans hplaced)
  subst hsame
  have hend := hP ⟨rfl, fulfils, inv.tables, fun p b hb => Or.inl (inv.groups p b hb),
    fun p b _ hm => ⟨inv.tables _ p (hm 0 (by omega)), fun _ => hm⟩⟩
  refine ⟨fun p b hb => ?_, hend.tables⟩
  rcases hend.groups p b hb with h | ⟨_, v, hv, _⟩
  · exact h
  · cases hv

/-- The marks of `t` are those of `t'`, and no table has gone or changed its kind. -/
def SameMarks (t t' : Nodes) : Prop :=
  (∀ p, flag t' p = flag t p) ∧ ∀ p m, t p = some m → ∃ m', t' p = some m' ∧ m'.kind = m.kind

theorem other_walk {c : WalkContext} {t : Nodes} {a : A} {phys : Option Nat}
    {fuel g size index : Nat} {w : WalkState A} {pages : List PageRequest}
    (wf : Wf c.ppgtt.getNumLevels t) (expect : c.mode = .Expect → phys = none)
    (applicable : c.ps64Applicable = false) (inv : Ps64Inv c.gpu t)
    (hplaced : placePages c fuel g size index ⟨layout t, a, phys, []⟩ = some pages)
    (keeps : ∀ p b, 16 ∣ b → GroupMarked t p b → isPs64GroupComplete c.gpu
      (finalLayout c ⟨layout t, a, phys, []⟩ pages).nodes p b = true)
    (h : walkPages c fuel g size index (.start t a phys) = some w) : Ps64Inv c.gpu w.nodes := by
  have visit : ∀ page (rest : List PageRequest) (w : WalkState A),
      Wf c.ppgtt.getNumLevels w.nodes → (c.mode = .Expect → w.physicalAddress = none) →
      0 < page.size → (walkPage c page w).2 ≠ 0 → SameMarks t w.nodes →
      SameMarks t (walkPage c page w).1.nodes := by
    intro page rest w wf expect _ hmoves ⟨hflags, hkinds⟩
    refine ⟨?_, ?_⟩
    · rcases walkPage_flags page wf expect hmoves with ⟨_, h⟩ | ⟨h, _⟩
      · exact fun p => (h p).trans (hflags p)
      · rw [applicable] at h
        cases h
    · intro p m hm
      obtain ⟨m', hm', hk⟩ := hkinds p m hm
      obtain ⟨m'', hm'', hk'⟩ := walkPage_keeps_kind wf expect hm'
      exact ⟨m'', hm'', hk'.trans hk⟩
  obtain ⟨pages', hp, hP, _, hlayout, _⟩ := walkPages_rule (P := fun _ w => SameMarks t w.nodes)
    visit (fun w w' _ hnodes _ _ hinv => hnodes ▸ hinv) fuel g size index (.start t a phys) w wf
    expect h
  have hsame : pages' = pages := Option.some.inj (hp.symm.trans hplaced)
  subst hsame
  obtain ⟨hflags, hkinds⟩ := hP ⟨fun _ => rfl, fun p m hm => ⟨m, hm, rfl⟩⟩
  refine ⟨?_, ?_⟩
  · intro p b hb
    rcases inv.groups p b hb with h | ⟨_, h⟩
    · exact Or.inl fun i hi => (hflags _).trans (h i hi)
    · refine Or.inr ⟨?_, fun i hi => (hflags _).trans (h i hi)⟩
      rw [← isPs64GroupComplete_layout, hlayout]
      exact keeps p b hb h
  · intro i p hmark
    rw [hflags] at hmark
    obtain ⟨m, hm, hk⟩ := inv.tables i p hmark
    obtain ⟨m', hm', hk'⟩ := hkinds p m hm
    exact ⟨m', hm', hk'.trans hk⟩

theorem runWalk_groups {cfg : Config} {s s' : PageTables A} {params : AllocationParams}
    {mode : WalkMode} {infos : List PageInfo} {phys : Option Nat}
    (wf : Wf cfg.ppgtt.getNumLevels s.nodes) (expect : mode = .Expect → phys = none)
    (inv : Ps64Inv cfg.gpu s.nodes) (ok : WalkOk cfg s params mode infos phys)
    (h : runWalk cfg s params mode infos phys = some s') : Ps64Inv cfg.gpu s'.nodes := by
  simp only [runWalk, Option.map_eq_some_iff] at h
  obtain ⟨w, hw, rfl⟩ := h
  rcases walkMemory_some hw with ⟨_, rfl⟩ | ⟨_, c, hc, hpages⟩
  · exact inv
  · obtain ⟨hgpu, hppgtt, hmode, _⟩ := walkContext_some hc
    rw [← hppgtt] at wf
    rw [← hgpu] at inv ⊢
    have expect' : c.mode = .Expect → phys = none := fun hm => expect (hmode ▸ hm)
    obtain ⟨pages, hplaced, _⟩ := walkPages_rule (P := fun _ _ => True)
      (fun _ _ _ _ _ _ _ _ => trivial) (fun _ _ _ _ _ _ _ => trivial) _ _ _ _ _ w wf expect' hpages
    have hok := ok c pages hc hplaced
    cases happ : c.ps64Applicable with
    | true =>
      simp only [happ, if_true] at hok
      exact applicable_walk wf expect' happ inv hplaced hok hpages
    | false =>
      simp only [happ, Bool.false_eq_true, if_false] at hok
      exact other_walk wf expect' happ inv hplaced hok hpages

theorem runFree_groups {cfg : Config} {s : PageTables A} (wf : Wf cfg.ppgtt.getNumLevels s.nodes)
    (inv : Ps64Inv cfg.gpu s.nodes) (g size : Nat) :
    Ps64Inv cfg.gpu (runFree cfg s g size).nodes := by
  have h := freePages_rule (c := ⟨cfg.ppgtt, cfg.gpu, g, g + size⟩)
    (P := FreeInv (A := A) ⟨cfg.ppgtt, cfg.gpu, g, g + size⟩)
    (fun g size s s' pageSize wf hsize hinv hpage => freePage_groups hinv hsize wf hpage)
    size g size ⟨s.nodes, s.allocator, fun _ => []⟩ (Nat.le_refl _) wf
    ⟨rfl, inv.tables, fun p b hb => Or.inl (inv.groups p b hb), Or.inr (Or.inl rfl)⟩
  rcases h with ⟨_, ⟨_, g', hend⟩ | ⟨_, g', size', _, hend, hnone⟩⟩
  · refine ⟨fun p b hb => ?_, hend.tables⟩
    rcases hend.groups p b hb with h | ⟨h, _⟩
    · exact h
    · omega
  · refine ⟨fun p b hb => ?_, hend.tables⟩
    rcases hend.groups p b hb with h | ⟨_, h⟩
    · exact h
    · have hbase := h.base
      unfold hwBaseOf at hbase
      obtain ⟨m, hm, _⟩ := hend.tables _ p (h.above _ (Nat.le_refl _) (by omega))
      rw [h.table] at hm
      rw [hnone] at hm
      cases hm

theorem step_groups {cfg : Config} {s s' : PageTables A} {o : Op A}
    (wf : Wf cfg.ppgtt.getNumLevels s.nodes) (inv : Ps64Inv cfg.gpu s.nodes)
    (ok : OpOk cfg s o) (h : step cfg s o = some s') : Ps64Inv cfg.gpu s'.nodes := by
  cases o with
  | walk params mode infos => exact runWalk_groups wf (fun _ => rfl) inv ok h
  | map params phys => exact runWalk_groups wf (fun hm => by cases hm) inv ok h
  | freeMemory g size =>
    simp only [step, Option.some.injEq] at h
    subst h
    exact runFree_groups wf inv g size
  | commit qs =>
    simp only [step, Option.some.injEq] at h
    subst h
    refine ⟨?_, marks_setPendingWrite inv.tables qs false⟩
    intro p b hb
    refine settled_congr (fun i _ => flag_modifyAll_setPendingWrite _) (fun _ i _ => ?_)
      (inv.groups p b hb)
    rw [modifyAll_setPendingWrite_layout]
  | others allocator =>
    simp only [step, Option.some.injEq] at h
    subst h
    exact inv

theorem newTables_groups (gpu : Gpu) (a : A) (bank : Nat) :
    Ps64Inv gpu (newTables a bank).nodes := by
  have hflag : ∀ i p, flag (newTables a bank).nodes (i :: p) = false := fun i p =>
    flag_of_none (by simp [newTables])
  refine ⟨fun p b _ => Or.inl fun i _ => hflag _ p, fun i p h => ?_⟩
  rw [hflag] at h
  cases h

/-- The claim's property: a group with a PS64 leaf is sixteen leaves on one aligned 64KB frame
with the same flags. -/
def GroupsConsecutive (gpu : Gpu) (t : Nodes) : Prop :=
  ∀ p m b, t p = some m → m.kind = .pte .PTE4KB → 16 ∣ b →
    (∃ i, i < 16 ∧ flag t ((b + i) :: p) = true) →
    ∃ base flags, 65536 ∣ base ∧ ∀ i, i < 16 → ∃ ci, t ((b + i) :: p) = some ci ∧
      ci.physicalAddress = base + i * 4096 ∧ ps64EntryFlags gpu ci = flags

theorem groupsConsecutive_of_inv {gpu : Gpu} {t : Nodes} (inv : Ps64Inv gpu t) :
    GroupsConsecutive gpu t := by
  rintro p m b _ _ hb ⟨i, hi, hmark⟩
  rcases inv.groups p b hb with h | ⟨h, _⟩
  · rw [h i hi] at hmark
    cases hmark
  · exact isPs64GroupComplete_iff.mp h

def fiveLevelPs64 (gpu : Gpu) : Config := ⟨gpu, true, .PML5⟩

end Ps64Groups
