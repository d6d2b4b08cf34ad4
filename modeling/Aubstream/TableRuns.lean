import Aubstream.Transitions
import Aubstream.Placement
import Aubstream.FreePhases

/-!
# Runs of operations on one page table

The operations that change a tree: page walks, with or without a supplied
physical address, the rounds of `freeMemory`, and the clearing of pending flags
after a stream has written the entries of a walk. The allocator is shared, so
other tables and clients may leave it in any state in between.
-/

namespace TableRuns
open EntryBits PathTree PhysicalAllocator PageNodes PageWalker FreeMemory TreeShape WalkPhases
  Placement FreePhases Transitions

structure PageTables (A : Type) where
  nodes : Nodes
  allocator : A

inductive Op (A : Type) where
  | walk (params : AllocationParams) (mode : WalkMode) (pageInfos : List PageInfo)
  | map (params : AllocationParams) (physicalAddress : Nat)
  | freeMemory (gfxAddress size : Nat)
  | commit (pendingNodes : List Path)
  | others (allocator : A)

/-- The product, the `EnablePs64` setting and the class of the root. -/
structure Config where
  gpu : Gpu
  enablePs64 : Bool
  ppgtt : PpgttKind

variable {A : Type} [PhysicalAddressAllocator A]

/-- `PML4(gpu, allocator, memoryBank)` or its variants: a root without children. -/
def newTables (a : A) (memoryBank : Nat) : PageTables A :=
  let r := constructNode a .directory 4096 memoryBank noParams
  ⟨fun p => if p = [] then some r.1 else none, r.2⟩

def runWalk (cfg : Config) (s : PageTables A) (params : AllocationParams) (mode : WalkMode)
    (pageInfos : List PageInfo) (physicalAddress : Option Nat) : Option (PageTables A) :=
  (walkMemory cfg.gpu cfg.enablePs64 cfg.ppgtt s.nodes s.allocator params mode pageInfos
    physicalAddress).map fun w => ⟨w.nodes, w.allocator⟩

def runFree (cfg : Config) (s : PageTables A) (gfxAddress size : Nat) : PageTables A :=
  let r := freeMemory cfg.gpu cfg.ppgtt s.nodes s.allocator gfxAddress size
  ⟨r.1.nodes, r.1.allocator⟩

def step (cfg : Config) (s : PageTables A) : Op A → Option (PageTables A)
  | .walk params mode pageInfos => runWalk cfg s params mode pageInfos none
  | .map params physicalAddress => runWalk cfg s params .Reserve [] (some physicalAddress)
  | .freeMemory gfxAddress size => some (runFree cfg s gfxAddress size)
  | .commit pendingNodes =>
    some ⟨modifyAll s.nodes pendingNodes (·.setPendingWrite false), s.allocator⟩
  | .others allocator => some ⟨s.nodes, allocator⟩

/-- A walk that does something is the page loop on its context. -/
theorem walkMemory_some {gpu : Gpu} {enablePs64 : Bool} {ppgtt : PpgttKind} {t : Nodes} {a : A}
    {params : AllocationParams} {mode : WalkMode} {infos : List PageInfo} {phys : Option Nat}
    {w : WalkState A}
    (h : walkMemory gpu enablePs64 ppgtt t a params mode infos phys = some w) :
    (params.size = 0 ∧ w = .start t a phys) ∨
    (0 < params.size ∧ ∃ c, walkContext gpu enablePs64 ppgtt params mode infos = some c ∧
      walkPages c params.size params.gfxAddress params.size 0 (.start t a phys) = some w) := by
  unfold walkMemory at h
  split at h
  · rename_i hz
    rw [Option.some.injEq] at h
    exact Or.inl ⟨hz, h.symm⟩
  · rename_i hz
    rw [Option.bind_eq_some_iff] at h
    obtain ⟨c, hc, hw⟩ := h
    exact Or.inr ⟨Nat.pos_of_ne_zero hz, c, hc, hw⟩

omit [PhysicalAddressAllocator A] in
theorem walkContext_some {gpu : Gpu} {enablePs64 : Bool} {ppgtt : PpgttKind}
    {params : AllocationParams} {mode : WalkMode} {infos : List PageInfo} {c : WalkContext}
    (h : walkContext gpu enablePs64 ppgtt params mode infos = some c) :
    c.gpu = gpu ∧ c.ppgtt = ppgtt ∧ c.mode = mode ∧ c.allocationParams = params ∧
      c.pageInfos = infos ∧
      c.requestedPageSize = adjustPageSizeForHardwareSupport gpu params.pageSize params.memoryBanks ∧
      c.ps64Applicable = (enablePs64 && c.requestedPageSize == 4096 && ppgtt.getNumLevels == 5) := by
  simp only [walkContext, Option.map_eq_some_iff] at h
  obtain ⟨helper, _, rfl⟩ := h
  exact ⟨rfl, rfl, rfl, rfl, rfl, rfl, rfl⟩

omit [PhysicalAddressAllocator A] in
/-- PS64 applies to the walks of a request for 4KB pages, on five levels with the setting on. -/
theorem ps64Applicable_iff {cfg : Config} {params : AllocationParams} {mode : WalkMode}
    {infos : List PageInfo} {c : WalkContext}
    (h : walkContext cfg.gpu cfg.enablePs64 cfg.ppgtt params mode infos = some c) :
    c.ps64Applicable = true ↔
      cfg.enablePs64 = true ∧ params.pageSize = pageSize4KB ∧ cfg.ppgtt = .PML5 := by
  obtain ⟨_, _, _, _, _, hsize, happ⟩ := walkContext_some h
  have hlevels : cfg.ppgtt.getNumLevels = 5 ↔ cfg.ppgtt = .PML5 := by
    cases cfg.ppgtt <;> simp [PpgttKind.getNumLevels]
  have h4KB : adjustPageSizeForHardwareSupport cfg.gpu params.pageSize params.memoryBanks = 4096 ↔
      params.pageSize = pageSize4KB := by
    unfold adjustPageSizeForHardwareSupport pageSize4KB pageSize2MB pageSize64KB
    split
    · omega
    · exact Iff.rfl
  rw [happ, hsize]
  simp only [Bool.and_eq_true, beq_iff_eq, hlevels, h4KB, and_assoc]

/-- Only a clone list can end too early. -/
theorem walkPages_isSome {c : WalkContext} (hmode : c.mode ≠ .Clone) (fuel g size index : Nat)
    (w : WalkState A) : (walkPages c fuel g size index w).isSome = true := by
  induction fuel generalizing g size index w with
  | zero => rfl
  | succ fuel ih =>
    obtain ⟨page, hpage⟩ : ∃ page, pageRequest c g size index w.physicalAddress = some page :=
      ⟨_, if_neg hmode⟩
    simp only [walkPages, hpage, Option.bind_some]
    split
    · rfl
    · split
      · rfl
      · exact ih _ _ _ _

/-- Walks end when the bank loop does. -/
theorem walkMemory_isSome (gpu : Gpu) (enablePs64 : Bool) (ppgtt : PpgttKind) (t : Nodes) (a : A)
    {params : AllocationParams} {mode : WalkMode} (infos : List PageInfo) (phys : Option Nat)
    (hmode : mode ≠ .Clone) (hbanks : params.memoryBanks < 2 ^ 31) :
    (walkMemory gpu enablePs64 ppgtt t a params mode infos phys).isSome = true := by
  unfold walkMemory
  split
  · rfl
  · obtain ⟨c, hc⟩ : ∃ c, walkContext gpu enablePs64 ppgtt params mode infos = some c := by
      rw [← Option.isSome_iff_exists, walkContext, Option.isSome_map]
      exact MemoryBanks.MemoryBankHelper.new?_isSome hbanks _ _
    rw [hc, Option.bind_some]
    refine walkPages_isSome ?_ _ _ _ _ _
    rwa [(walkContext_some hc).2.2.1]

theorem newTables_wf (ppgtt : PpgttKind) (a : A) (bank : Nat) :
    Wf ppgtt.getNumLevels (newTables a bank).nodes := by
  have hn := getNumLevels_ge ppgtt
  refine ⟨⟨(constructNode a .directory 4096 bank noParams).1, rfl, rfl⟩, ?_, ?_⟩
  · intro p m h
    by_cases hp : p = []
    · subst p
      simp only [newTables, if_true, Option.some.injEq] at h
      subst h
      change 0 + 2 ≤ _
      omega
    · simp [newTables, hp] at h
  · intro i p m h
    simp [newTables] at h

theorem runWalk_wf {cfg : Config} {s s' : PageTables A} {params : AllocationParams}
    {mode : WalkMode} {infos : List PageInfo} {phys : Option Nat}
    (wf : Wf cfg.ppgtt.getNumLevels s.nodes) (expect : mode = .Expect → phys = none)
    (h : runWalk cfg s params mode infos phys = some s') :
    Wf cfg.ppgtt.getNumLevels s'.nodes := by
  simp only [runWalk, Option.map_eq_some_iff] at h
  obtain ⟨w, hw, rfl⟩ := h
  rcases walkMemory_some hw with ⟨_, rfl⟩ | ⟨_, c, hc, hpages⟩
  · exact wf
  · obtain ⟨_, hppgtt, hmode, _⟩ := walkContext_some hc
    rw [← hppgtt] at wf ⊢
    obtain ⟨_, _, _, hwf, _⟩ := walkPages_rule (P := fun _ _ => True)
      (fun _ _ _ _ _ _ _ _ => trivial) (fun _ _ _ _ _ _ _ => trivial) _ _ _ _ _ w wf
      (fun hm => expect (hmode ▸ hm)) hpages
    exact hwf

theorem modifyAll_setPendingWrite_layout (t : Nodes) (qs : List Path) (b : Bool) :
    layout (modifyAll t qs (·.setPendingWrite b)) = layout t :=
  layout_modifyAll (fun n => core_setPendingWrite n b) t qs

theorem runFree_wf {cfg : Config} {s : PageTables A} (wf : Wf cfg.ppgtt.getNumLevels s.nodes)
    (gfxAddress size : Nat) : Wf cfg.ppgtt.getNumLevels (runFree cfg s gfxAddress size).nodes :=
  (freePages_rule (c := ⟨cfg.ppgtt, cfg.gpu, gfxAddress, gfxAddress + size⟩)
    (P := fun _ _ _ => True) (fun _ _ _ _ _ _ _ _ _ => trivial) size gfxAddress size
    ⟨s.nodes, s.allocator, fun _ => []⟩ (Nat.le_refl _) wf trivial).1

theorem step_wf {cfg : Config} {s s' : PageTables A} {o : Op A}
    (wf : Wf cfg.ppgtt.getNumLevels s.nodes) (h : step cfg s o = some s') :
    Wf cfg.ppgtt.getNumLevels s'.nodes := by
  cases o with
  | walk params mode infos => exact runWalk_wf wf (fun _ => rfl) h
  | map params phys => exact runWalk_wf wf (fun hm => by cases hm) h
  | freeMemory g size =>
    simp only [step, Option.some.injEq] at h
    subst h
    exact runFree_wf wf g size
  | commit qs =>
    simp only [step, Option.some.injEq] at h
    subst h
    rw [← wf_layout, modifyAll_setPendingWrite_layout, wf_layout]
    exact wf
  | others allocator =>
    simp only [step, Option.some.injEq] at h
    subst h
    exact wf

/-- Every tree that a run reaches is well formed. -/
theorem reach_wf {cfg : Config} {a : A} {bank : Nat} {ok : PageTables A → Op A → Prop}
    {s : PageTables A} (reached : Reach (step cfg) ok (newTables a bank) s) :
    Wf cfg.ppgtt.getNumLevels s.nodes :=
  reached.invariant (I := fun s => Wf cfg.ppgtt.getNumLevels s.nodes)
    (newTables_wf cfg.ppgtt a bank) fun _ _ _ wf _ h => step_wf wf h

/-- A product without extra entry bits that supports every page size. -/
def plainGpu : Gpu := ⟨fun _ => 0, fun _ _ => true⟩

/-- One bank of 4GB. -/
def oneBank : PhysicalAddressAllocatorSimple := .new 1 0x100000000 false

/-- A request in 4KB pages of the first bank. -/
def request4KB (gfxAddress size : Nat) : AllocationParams :=
  ⟨gfxAddress, none, size, 1, 0, pageSize4KB, noParams⟩

end TableRuns
