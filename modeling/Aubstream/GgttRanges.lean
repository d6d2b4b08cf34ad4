import Aubstream.AlignedBlocks
import Aubstream.GgttPages

/-!
# The GGTT ranges of initialized contexts

The cursor only moves forward, so a block lies behind all earlier ones until the
32 bits of an address are used up, whether the contexts of these are still
there or not.
-/

namespace GgttRanges
open PhysicalAllocator AllocatorBlocks HardwareContext GlobalGtt Transitions DeviceContexts GgttPages
open DeviceContexts.Device
open ContextLifetimes (ContextPtr setAt setAt_same setAt_ne setAt_cases)

/-- The sizes of the blocks that an initialization takes, in this order. -/
def blockSizes (cs : CommandStreamerHelper) : List Nat :=
  [4096, 4096, ringSize, cs.sizeLRCA] ++ if cs.isRingDataEnabled then [sizeRingData] else []

/-- The ranges of a context. -/
def blocksOf (cs : CommandStreamerHelper) (c : HardwareContextImp) : List (Nat × Nat) :=
  [(c.ggttGlobalHWSP, 4096), (c.ggttContextFence, 4096), (c.ggttRing, ringSize),
    (c.ggttLRCA, cs.sizeLRCA)] ++ if cs.isRingDataEnabled then [(c.ringData, sizeRingData)] else []

/-- Where blocks end that are taken one behind the other, each on a multiple of the alignment. -/
def endOf (alignment : Nat) : Nat → List Nat → Nat
  | cursor, [] => cursor
  | cursor, size :: rest => endOf alignment (SimpleAllocator.alignUp cursor alignment + size) rest

/-- An initialized context. -/
def Initialized {is64KBSupported : Bool} (s : Device is64KBSupported) (c : ContextPtr)
    (x : EngineContext is64KBSupported) : Prop :=
  s.objects c = some x ∧ x.context.pLRCA.isSome = true

/-- Ranges are apart and lie below 2^32, their pages are mapped, and no two contexts have a page of
physical memory in common. -/
structure RangesOk {is64KBSupported : Bool} (s : Device is64KBSupported) : Prop where
  below : ∀ c x, Initialized s c x → ∀ e ∈ blocksOf x.cs x.context, e.1 + e.2 ≤ 2 ^ 32
  own : ∀ c x, Initialized s c x → (blocksOf x.cs x.context).Pairwise Apart
  apart : ∀ c c' x x', Initialized s c x → Initialized s c' x' → c ≠ c' →
    ∀ e ∈ blocksOf x.cs x.context, ∀ e' ∈ blocksOf x'.cs x'.context, Apart e e'
  mapped : ∀ c x, Initialized s c x → ∀ e ∈ blocksOf x.cs x.context,
    Mapped s.gtt.children e.1 e.2
  unshared : ∀ c c' x x', Initialized s c x → Initialized s c' x' → c ≠ c' →
    ∀ e ∈ blocksOf x.cs x.context, ∀ e' ∈ blocksOf x'.cs x'.context, ∀ g g' page page',
    e.1 ≤ g → g < e.1 + e.2 → e'.1 ≤ g' → g' < e'.1 + e'.2 →
    s.gtt.children (GGTT.getIndex g) = some page → s.gtt.children (GGTT.getIndex g') = some page' →
    Apart (frame page) (frame page')

/-- The blocks of an initialization end at or below 2^32, no block having ended there before; and
there are 64-bit addresses left for the physical memory. -/
def Allowed {is64KBSupported : Bool} (ggtt : GGTT) (s : Device is64KBSupported) :
    Call is64KBSupported → Prop
  | .initializeContext c => ∀ x, s.objects c = some x → x.context.pLRCA = none →
    endOf x.cs.alignment s.gfxAddressAllocator.allocator.highWater (blockSizes x.cs) ≤ 2 ^ 32 ∧
      (bankAllocator ggtt s.gtt.allocator).highWater + 2 ^ 20 ≤ 2 ^ 64
  | _ => True

/-- The cursor stands at the end of the last block until 2^32 is reached. -/
def Within (a : GfxAddressAllocator) : Prop :=
  a.allocator.highWater ≤ 2 ^ 32 ∧
    (a.allocator.highWater < 2 ^ 32 → a.allocator.nextAddress = a.allocator.highWater)

/-- Blocks taken one behind the other. -/
def takeBlocks (alignment : Nat) : GfxAddressAllocator → List Nat →
    List (Nat × Nat) × GfxAddressAllocator
  | a, [] => ([], a)
  | a, size :: rest =>
    let r := a.alignedAlloc size alignment
    let later := takeBlocks alignment r.2 rest
    ((r.1, size) :: later.1, later.2)

theorem le_endOf (alignment : Nat) (sizes : List Nat) (cursor : Nat) :
    cursor ≤ endOf alignment cursor sizes := by
  induction sizes generalizing cursor with
  | nil => exact Nat.le_refl _
  | cons size rest ih =>
    have hge := alignUp_ge cursor alignment
    refine Nat.le_trans ?_ (ih _)
    omega

/-- The page size of the writes, which is the alignment of the blocks. -/
theorem alignment_pageSize (cs : CommandStreamerHelper) : IsGttPageSize cs.alignment ∧
    max cs.alignment 4096 = cs.alignment ∧ ∃ k, cs.alignment = 2 ^ k ∧ 12 ≤ k ∧ k ≤ 32 := by
  unfold CommandStreamerHelper.alignment
  split
  · exact ⟨Or.inr rfl, by decide, 16, rfl, by decide, by decide⟩
  · exact ⟨Or.inl rfl, by decide, 12, rfl, by decide, by decide⟩

/-- A block lies on a multiple of the page size. -/
theorem alignedAlloc_aligned (cs : CommandStreamerHelper) (a : GfxAddressAllocator) (size : Nat) :
    (a.alignedAlloc size cs.alignment).1 % cs.alignment = 0 := by
  obtain ⟨_, hmax, k, hk, _, hk32⟩ := alignment_pageSize cs
  obtain ⟨haddr, _, _⟩ := a.alignedAlloc_eq size cs.alignment
  refine Nat.mod_eq_zero_of_dvd ?_
  rw [GfxAddressAllocator.alignedAlloc, haddr, hmax, hk]
  exact AlignedBlocks.alignUp_dvd hk32

/-- A block that ends at or below 2^32 begins behind all earlier ones. -/
theorem alignedAlloc_within (cs : CommandStreamerHelper) {a : GfxAddressAllocator} {size : Nat}
    (within : Within a) (pos : 0 < size)
    (room : SimpleAllocator.alignUp a.allocator.highWater cs.alignment + size ≤ 2 ^ 32) :
    (a.alignedAlloc size cs.alignment).1 =
        SimpleAllocator.alignUp a.allocator.highWater cs.alignment ∧
      (a.alignedAlloc size cs.alignment).2.allocator.highWater =
        SimpleAllocator.alignUp a.allocator.highWater cs.alignment + size ∧
      Within (a.alignedAlloc size cs.alignment).2 := by
  obtain ⟨_, hmax, _⟩ := alignment_pageSize cs
  have hge := alignUp_ge a.allocator.highWater cs.alignment
  have hnext := within.2 (by omega)
  obtain ⟨haddr, hcursor, _⟩ := a.alignedAlloc_eq size cs.alignment
  rw [hmax, hnext] at haddr hcursor
  have hwater : (a.alignedAlloc size cs.alignment).2.allocator.highWater =
      SimpleAllocator.alignUp a.allocator.highWater cs.alignment + size := by
    simp only [GfxAddressAllocator.alignedAlloc, SimpleAllocator.alignedAlloc, a.nothingFree,
      List.find?_nil, hmax, hnext]
    omega
  rw [Nat.mod_eq_of_lt (by omega : SimpleAllocator.alignUp a.allocator.highWater cs.alignment <
    2 ^ 32)] at haddr hcursor
  refine ⟨haddr, hwater, hwater ▸ room, fun hlt => ?_⟩
  rw [hwater] at hlt ⊢
  exact hcursor.trans (Nat.mod_eq_of_lt hlt)

/-- Blocks taken one behind the other are apart from each other and from all earlier ones. -/
theorem takeBlocks_within (cs : CommandStreamerHelper) (sizes : List Nat) {a : GfxAddressAllocator}
    (within : Within a) (pos : ∀ size ∈ sizes, 0 < size)
    (room : endOf cs.alignment a.allocator.highWater sizes ≤ 2 ^ 32) :
    (takeBlocks cs.alignment a sizes).1.Pairwise Apart ∧
      (∀ e ∈ (takeBlocks cs.alignment a sizes).1, a.allocator.highWater ≤ e.1 ∧
        e.1 + e.2 ≤ (takeBlocks cs.alignment a sizes).2.allocator.highWater ∧
        e.1 % cs.alignment = 0) ∧
      a.allocator.highWater ≤ (takeBlocks cs.alignment a sizes).2.allocator.highWater ∧
      Within (takeBlocks cs.alignment a sizes).2 := by
  induction sizes generalizing a with
  | nil => exact ⟨List.Pairwise.nil, fun e he => (by cases he), Nat.le_refl _, within⟩
  | cons size rest ih =>
    have hend := le_endOf cs.alignment rest
      (SimpleAllocator.alignUp a.allocator.highWater cs.alignment + size)
    obtain ⟨haddr, hwater, hwithin⟩ := alignedAlloc_within cs within (pos size (List.mem_cons_self ..))
      (Nat.le_trans hend room)
    have haligned := alignedAlloc_aligned cs a size
    have hge := alignUp_ge a.allocator.highWater cs.alignment
    obtain ⟨hpairs, hblocks, hle, hlast⟩ := ih hwithin
      (fun size' hs => pos size' (List.mem_cons_of_mem _ hs)) (by rw [hwater]; exact room)
    rw [hwater] at hblocks hle
    simp only [takeBlocks]
    refine ⟨List.pairwise_cons.mpr ⟨fun e he => Or.inl ?_, hpairs⟩, fun e he => ?_, by omega, hlast⟩
    · rw [haddr]
      exact (hblocks e he).1
    · rcases List.mem_cons.mp he with rfl | hmem
      · exact ⟨by simp only [haddr]; exact hge, by simp only [haddr]; exact hle, haligned⟩
      · obtain ⟨h1, h2⟩ := hblocks e hmem
        exact ⟨by omega, h2⟩

theorem blockSizes_pos (cs : CommandStreamerHelper) : ∀ size ∈ blockSizes cs, 0 < size := by
  have hbounds := cs.sizeLRCA_bounds
  intro size hs
  simp only [blockSizes, List.mem_append, List.mem_cons, List.not_mem_nil, or_false] at hs
  rcases hs with (rfl | rfl | rfl | rfl) | hring
  · decide
  · decide
  · decide
  · omega
  · split at hring
    · rw [List.mem_singleton.mp hring]
      decide
    · cases hring

/-- An initialization takes its blocks one behind the other. -/
theorem initializeContext_blocks (cs : CommandStreamerHelper) {s : HwState}
    (released : s.context.pLRCA = none) :
    blocksOf cs (HardwareContext.initializeContext cs s).context =
        (takeBlocks cs.alignment s.gfxAddressAllocator (blockSizes cs)).1 ∧
      (HardwareContext.initializeContext cs s).gfxAddressAllocator =
        (takeBlocks cs.alignment s.gfxAddressAllocator (blockSizes cs)).2 ∧
      (HardwareContext.initializeContext cs s).context.pLRCA.isSome = true := by
  have notLive : ¬ (none : Option ByteMemory.Bytes).isSome = true := by decide
  by_cases enabled : cs.isRingDataEnabled = true
  · simp only [HardwareContext.initializeContext, released, if_neg notLive, if_pos enabled,
      blocksOf, blockSizes, List.cons_append, List.nil_append, takeBlocks, Option.isSome_some,
      and_self]
  · simp only [HardwareContext.initializeContext, released, if_neg notLive, if_neg enabled,
      blocksOf, blockSizes, List.append_nil, takeBlocks, Option.isSome_some, and_self]

/-- The pages of the blocks are those that an initialization writes to. -/
theorem mapped_blocks {cs : CommandStreamerHelper} {c : HardwareContextImp}
    {children : Nat → Option GttPage} (aligned : c.ggttContextFence % 4096 = 0)
    (mapped : ∀ e ∈ initialWrites cs c, Mapped children e.1 e.2) :
    ∀ e ∈ blocksOf cs c, Mapped children e.1 e.2 := by
  intro e he
  have hmem : e ∈ initialWrites cs c ∨ e = (c.ggttContextFence, 4096) := by
    simp only [blocksOf, initialWrites, List.mem_append, List.mem_cons, List.not_mem_nil,
      or_false] at he ⊢
    tauto
  rcases hmem with hwrite | rfl
  · exact mapped e hwrite
  · -- only the fence itself is written, and its page is the whole block
    intro x h1 h2
    have hfence := mapped (c.ggttContextFence, 4) (by
      simp only [initialWrites, List.mem_append, List.mem_cons]
      tauto) c.ggttContextFence (Nat.le_refl _) (Nat.lt_add_of_pos_right (show 0 < 4 by decide))
    have hindex : GGTT.getIndex x = GGTT.getIndex c.ggttContextFence := by
      simp only [GGTT.getIndex]
      simp only at h1 h2
      omega
    rw [hindex]
    exact hfence

/-- A write begins where a block does. -/
theorem initialWrites_start {cs : CommandStreamerHelper} {c : HardwareContextImp} {e : Nat × Nat}
    (he : e ∈ initialWrites cs c) : ∃ b ∈ blocksOf cs c, b.1 = e.1 := by
  simp only [initialWrites, blocksOf, List.mem_append, List.mem_cons, List.not_mem_nil,
    or_false] at he ⊢
  rcases he with ((rfl | rfl | rfl) | hring) | rfl
  · exact ⟨_, Or.inl (Or.inl rfl), rfl⟩
  · exact ⟨_, Or.inl (Or.inr (Or.inl rfl)), rfl⟩
  · exact ⟨_, Or.inl (Or.inr (Or.inr (Or.inl rfl))), rfl⟩
  · exact ⟨e, Or.inr hring, rfl⟩
  · exact ⟨_, Or.inl (Or.inr (Or.inr (Or.inr rfl))), rfl⟩

/-- The physical memory that the writes of an initialization use up. -/
theorem waterOf_initialWrites (cs : CommandStreamerHelper) (c : HardwareContextImp) :
    waterOf cs.alignment (initialWrites cs c) < 2 ^ 20 := by
  have hbounds := cs.sizeLRCA_bounds
  have halign : cs.alignment ≤ 65536 := by
    unfold CommandStreamerHelper.alignment
    split <;> omega
  unfold waterOf initialWrites
  split <;>
    simp only [List.map_append, List.map_cons, List.map_nil, List.sum_append, List.sum_cons,
      List.sum_nil, ringSize, sizeRingData, List.append_nil] <;>
    omega

/-- What holds in every state of a run. -/
structure Inv {is64KBSupported : Bool} (base : Nat) (ggtt : GGTT) (s : Device is64KBSupported) :
    Prop where
  within : Within s.gfxAddressAllocator
  backed : Backed base ggtt (if is64KBSupported then 65536 else 4096) s.gtt
  fresh : ∀ c, s.nextContext ≤ c → s.objects c = none
  own : ∀ c x, Initialized s c x → (blocksOf x.cs x.context).Pairwise Apart
  blocks : ∀ c x, Initialized s c x → ∀ e ∈ blocksOf x.cs x.context,
    e.1 + e.2 ≤ s.gfxAddressAllocator.allocator.highWater ∧ e.1 % 4096 = 0 ∧
      Mapped s.gtt.children e.1 e.2
  apart : ∀ c c' x x', Initialized s c x → Initialized s c' x' → c ≠ c' →
    ∀ e ∈ blocksOf x.cs x.context, ∀ e' ∈ blocksOf x'.cs x'.context, Apart e e'

/-- Addresses of blocks that are apart are on different pages. -/
theorem getIndex_ne {e e' : Nat × Nat} (apart : Apart e e') (aligned : e.1 % 4096 = 0)
    (aligned' : e'.1 % 4096 = 0) (below : e.1 + e.2 ≤ 2 ^ 32) (below' : e'.1 + e'.2 ≤ 2 ^ 32)
    {g g' : Nat} (h1 : e.1 ≤ g) (h2 : g < e.1 + e.2) (h1' : e'.1 ≤ g') (h2' : g' < e'.1 + e'.2) :
    GGTT.getIndex g ≠ GGTT.getIndex g' := by
  unfold Apart at apart
  simp only [GGTT.getIndex]
  omega

section
variable {is64KBSupported : Bool} {base : Nat} {ggtt : GGTT} {s s' : Device is64KBSupported}

theorem inv_rangesOk (inv : Inv base ggtt s) : RangesOk s := by
  have hbelow : ∀ c x, Initialized s c x → ∀ e ∈ blocksOf x.cs x.context, e.1 + e.2 ≤ 2 ^ 32 :=
    fun c x hx e he => Nat.le_trans (inv.blocks c x hx e he).1 inv.within.1
  refine ⟨hbelow, inv.own, inv.apart, fun c x hx e he => (inv.blocks c x hx e he).2.2, ?_⟩
  intro c c' x x' hx hx' hne e he e' he' g g' page page' h1 h2 h1' h2' hpage hpage'
  refine inv.backed.framed.apart _ _ _ _ hpage hpage' ?_
  exact getIndex_ne (inv.apart c c' x x' hx hx' hne e he e' he') (inv.blocks c x hx e he).2.1
    (inv.blocks c' x' hx' e' he').2.1 (hbelow c x hx e he) (hbelow c' x' hx' e' he') h1 h2 h1' h2'

/-- A step that initializes nothing. -/
theorem inv_frame (inv : Inv base ggtt s) (allocator : s'.gfxAddressAllocator = s.gfxAddressAllocator)
    (gtt : s'.gtt = s.gtt) (fresh : ∀ c, s'.nextContext ≤ c → s'.objects c = none)
    (initialized : ∀ c x, Initialized s' c x → Initialized s c x) : Inv base ggtt s' := by
  refine ⟨allocator ▸ inv.within, gtt ▸ inv.backed, fresh,
    fun c x hx => inv.own c x (initialized c x hx), fun c x hx => ?_, fun c c' x x' hx hx' =>
      inv.apart c c' x x' (initialized c x hx) (initialized c' x' hx')⟩
  rw [allocator, gtt]
  exact inv.blocks c x (initialized c x hx)

theorem create_inv (inv : Inv base ggtt s) (cs : CommandStreamerHelper)
    (sameBank : cs.is64KBSupported = is64KBSupported) (flags : Nat) (runAlone : Bool)
    (ppgtt : PageTableRoot) : Inv base ggtt (s.create cs sameBank flags runAlone ppgtt) := by
  refine inv_frame inv rfl rfl (fun c hc => ?_) fun c x hx => ?_
  · have hlt : s.nextContext < c := hc
    exact (setAt_ne _ _ (Nat.ne_of_gt hlt)).trans (inv.fresh c (Nat.le_of_lt hlt))
  · obtain ⟨hc, hlive⟩ := hx
    rcases setAt_cases hc with ⟨_, rfl⟩ | ⟨_, hold⟩
    · cases hlive
    · exact ⟨hold, hlive⟩

/-- A released context is not initialized. -/
theorem release_inv {c : ContextPtr} (inv : Inv base ggtt s) (h : s.release c = some s') :
    Inv base ggtt s' := by
  unfold Device.release at h
  split at h
  · cases h
  · rename_i x hx
    obtain ⟨hw, hrelease, rfl⟩ := Option.map_eq_some_iff.mp h
    have hlrca : hw.context.pLRCA = none := by
      unfold HardwareContext.release at hrelease
      split at hrelease
      · cases hrelease
      · rw [← Option.some.inj hrelease]
      · rw [← Option.some.inj hrelease]
    refine inv_frame inv rfl rfl (fun c' hc' => ?_) fun c' x' hx' => ?_
    · have hne : c' ≠ c := by
        rintro rfl
        rw [inv.fresh c' hc'] at hx
        cases hx
      exact (setAt_ne _ _ hne).trans (inv.fresh c' hc')
    · obtain ⟨hc, hlive⟩ := hx'
      rcases setAt_cases hc with ⟨_, rfl⟩ | ⟨_, hold⟩
      · simp only [hlrca, Option.isSome_none, Bool.false_eq_true] at hlive
      · exact ⟨hold, hlive⟩

theorem destroy_inv {c : ContextPtr} (inv : Inv base ggtt s) (h : s.destroy c = some s') :
    Inv base ggtt s' := by
  unfold Device.destroy at h
  split at h
  · obtain ⟨s₁, hrelease, rfl⟩ := Option.map_eq_some_iff.mp h
    have hlist : Inv base ggtt { s with hwContexts := s.hwContexts.erase c } :=
      inv_frame inv rfl rfl inv.fresh fun _ _ hx => hx
    have inv₁ := release_inv hlist hrelease
    refine inv_frame inv₁ rfl rfl (fun c' hc' => ?_) fun c' x hx => ?_
    · by_cases hcc : c' = c
      · rw [hcc]
        exact setAt_same _ _ _
      · exact (setAt_ne _ _ hcc).trans (inv₁.fresh c' hc')
    · obtain ⟨hc, hlive⟩ := hx
      have hcc : c' ≠ c := by
        rintro rfl
        simp only [setAt_same] at hc
        cases hc
      exact ⟨(setAt_ne _ _ hcc).symm.trans hc, hlive⟩
  · obtain rfl := Option.some.inj h
    exact inv

/-- An initialization takes blocks behind those of all other contexts. -/
theorem initializeContext_inv {c : ContextPtr} (inv : Inv base ggtt s)
    (allowed : Allowed ggtt s (.initializeContext c))
    (h : s.initializeContext ggtt c = some s') : Inv base ggtt s' := by
  unfold Device.initializeContext at h
  split at h
  · cases h
  · rename_i x hx
    split at h
    · rw [← Option.some.inj h]
      exact inv
    · rename_i hnull
      rw [Option.not_isSome_iff_eq_none] at hnull
      obtain rfl := Option.some.inj h
      obtain ⟨room, physical⟩ := allowed x hx hnull
      obtain ⟨hsize, hmax, k, hk, hk12, _⟩ := alignment_pageSize x.cs
      obtain ⟨hblocks, halloc, hlive⟩ := initializeContext_blocks x.cs (s := s.hwState x) hnull
      obtain ⟨hpairs, hplaces, hgrows, hwithin⟩ := takeBlocks_within x.cs (blockSizes x.cs)
        (a := (s.hwState x).gfxAddressAllocator) inv.within (blockSizes_pos x.cs) room
      have hsame : x.cs.alignment = if is64KBSupported then 65536 else 4096 := by
        rw [CommandStreamerHelper.alignment, x.sameBank]
      rw [← hblocks] at hpairs hplaces
      rw [← halloc] at hplaces hgrows hwithin
      generalize HardwareContext.initializeContext x.cs (s.hwState x) = hw at *
      have hwater := waterOf_initialWrites x.cs hw.context
      have written := writeAll_written hsize (initialWrites x.cs hw.context)
        (hsame ▸ inv.backed) (fun e he => by
          obtain ⟨b, hb, hstart⟩ := initialWrites_start he
          exact hstart ▸ (hplaces b hb).2.2) (by omega)
      have hpage : ∀ e ∈ blocksOf x.cs hw.context, e.1 % 4096 = 0 := by
        intro e he
        refine Nat.mod_eq_zero_of_dvd (Nat.dvd_trans ?_ (Nat.dvd_of_mod_eq_zero (hplaces e he).2.2))
        rw [hk]
        exact Nat.pow_dvd_pow 2 hk12
      have hmapped := mapped_blocks (hpage (hw.context.ggttContextFence, 4096) (by
        simp only [blocksOf, List.mem_append, List.mem_cons]
        tauto)) written.mapped
      have hcases : ∀ c' x', Initialized (s := { s with
            gfxAddressAllocator := hw.gfxAddressAllocator
            memory := hw.memory
            gtt := writeAll ggtt x.cs.alignment s.gtt (initialWrites x.cs hw.context)
            objects := setAt s.objects c (some { x with context := hw.context }) }) c' x' →
          (c' = c ∧ x' = { x with context := hw.context }) ∨ (c' ≠ c ∧ Initialized s c' x') := by
        rintro c' x' ⟨hc, hlive'⟩
        rcases setAt_cases hc with hnew | ⟨hne, hold⟩
        · exact Or.inl hnew
        · exact Or.inr ⟨hne, hold, hlive'⟩
      refine ⟨hwithin, hsame ▸ written.backed, fun c' hc' => ?_, fun c' x' hx' => ?_,
        fun c' x' hx' e he => ?_, fun c₁ c₂ x₁ x₂ h₁ h₂ hne e he e' he' => ?_⟩
      · have hne : c' ≠ c := by
          rintro rfl
          rw [inv.fresh c' hc'] at hx
          cases hx
        exact (setAt_ne _ _ hne).trans (inv.fresh c' hc')
      · rcases hcases c' x' hx' with ⟨_, rfl⟩ | ⟨_, hold⟩
        · exact hpairs
        · exact inv.own c' x' hold
      · rcases hcases c' x' hx' with ⟨_, rfl⟩ | ⟨_, hold⟩
        · exact ⟨(hplaces e he).2.1, hpage e he, hmapped e he⟩
        · obtain ⟨hend, haligned, hold'⟩ := inv.blocks c' x' hold e he
          exact ⟨Nat.le_trans hend hgrows, haligned, hold'.stands written.stands⟩
      · rcases hcases c₁ x₁ h₁ with ⟨rfl, rfl⟩ | ⟨_, hold₁⟩ <;>
          rcases hcases c₂ x₂ h₂ with ⟨rfl, rfl⟩ | ⟨_, hold₂⟩
        · exact absurd rfl hne
        · exact Or.inr (Nat.le_trans (inv.blocks c₂ x₂ hold₂ e' he').1 (hplaces e he).1)
        · exact Or.inl (Nat.le_trans (inv.blocks c₁ x₁ hold₁ e he).1 (hplaces e' he').1)
        · exact inv.apart c₁ c₂ x₁ x₂ hold₁ hold₂ hne e he e' he'

/-- One call, whatever it is. -/
theorem callStep_inv {o : Call is64KBSupported} (inv : Inv base ggtt s) (allowed : Allowed ggtt s o)
    (h : callStep ggtt s o = some s') : Inv base ggtt s' := by
  cases o with
  | create cs sameBank flags runAlone ppgtt =>
    obtain rfl := Option.some.inj h
    exact create_inv inv cs sameBank flags runAlone ppgtt
  | initializeContext c => exact initializeContext_inv inv allowed h
  | release c => exact release_inv inv h
  | destroy c => exact destroy_inv inv h

theorem newDevice_inv {a : PhysicalAddressAllocatorSimple}
    (sound : Sound base (bankAllocator ggtt a)) : Inv base ggtt (newDevice is64KBSupported a) := by
  have hnone : ∀ c x, ¬ Initialized (newDevice is64KBSupported a) c x := by
    rintro c x ⟨hc, _⟩
    cases hc
  refine ⟨⟨Nat.zero_le _, fun _ => rfl⟩, ⟨⟨sound, fun j page hj => (by cases hj),
    fun j j' page page' hj => (by cases hj)⟩, fun b _ => Or.inl fun _ _ _ => rfl⟩, fun _ _ => rfl,
    fun c x hx => absurd hx (hnone c x), fun c x hx => absurd hx (hnone c x),
    fun c c' x x' hx => absurd hx (hnone c x)⟩

/-- An operation whose calls are all allowed. -/
def AllowedOp (ggtt : GGTT) (s : Device is64KBSupported) (o : Op is64KBSupported) : Prop :=
  AllAlong (callStep ggtt) (Allowed ggtt) s (s.calls o)

/-- While the cursor has not gone round, the ranges of initialized contexts are apart, mapped and
share no physical memory. -/
theorem ranges_apart (a : PhysicalAddressAllocatorSimple) (sound : Sound base (bankAllocator ggtt a))
    (s : Device is64KBSupported)
    (reached : Reach (step ggtt) (AllowedOp ggtt) (newDevice is64KBSupported a) s) : RangesOk s := by
  have inv : Inv base ggtt s :=
    (Reach.calls reached).invariant (newDevice_inv sound) fun s o s' inv allowed done =>
      callStep_inv inv allowed done
  exact inv_rangesOk inv

end

/-- A compute engine with 64KB pages in local memory and no ring state. -/
def computeEngine : CommandStreamerHelper :=
  commandStreamerHelperCcs ⟨true, false, false, 0⟩ 0 0

def createOp : Call true := .create computeEngine rfl 0 false (.pml 0)

def localGgtt : GGTT := ⟨1⟩

def localAllocator : PhysicalAddressAllocatorSimple := .new 1 0x80000000 true

def openedRun : List (Op true) := [.call createOp, .call createOp, .managerOpen, .managerClose,
  .managerOpen]

theorem ranges_apart_opened :
    ∃ s, runAll (step localGgtt) (newDevice true localAllocator) openedRun = some s ∧
      (∃ x, Initialized s 1 x ∧ x.context.ggttRing = 0xe0000) ∧ RangesOk s := by
  have allowed : AllAlong (step localGgtt) (AllowedOp localGgtt) (newDevice true localAllocator)
      openedRun := by
    refine And.intro (And.intro trivial fun _ _ => trivial) fun s₁ h₁ => ?_
    obtain rfl := Option.some.inj h₁
    refine And.intro (And.intro trivial fun _ _ => trivial) fun s₂ h₂ => ?_
    obtain rfl := Option.some.inj h₂
    refine And.intro (And.intro ?_ fun s h => And.intro ?_ fun _ _ => trivial) fun s₃ h₃ => ?_
    · intro x hx _
      obtain rfl := Option.some.inj hx
      exact And.intro (by decide) (by decide)
    · obtain rfl := Option.some.inj h
      intro x hx _
      obtain rfl := Option.some.inj hx
      exact And.intro (by decide) (by decide)
    obtain rfl := Option.some.inj h₃
    refine And.intro (And.intro trivial fun s h => ?_) fun s₄ h₄ => ?_
    · obtain rfl := Option.some.inj h
      exact And.intro trivial fun _ _ => trivial
    obtain rfl := Option.some.inj h₄
    refine And.intro (And.intro ?_ fun s h => And.intro ?_ fun _ _ => trivial) fun _ _ => trivial
    · intro x hx _
      obtain rfl := Option.some.inj hx
      exact And.intro (by decide) (by decide)
    · obtain rfl := Option.some.inj h
      intro x hx _
      obtain rfl := Option.some.inj hx
      exact And.intro (by decide) (by decide)
  refine ⟨_, rfl, ⟨_, ⟨rfl, rfl⟩, rfl⟩, ?_⟩
  exact ranges_apart localAllocator (new_sound _) _ (Reach.runAll openedRun .start allowed rfl)

/-- The GGTT space that a context needs, from an aligned address on. -/
def contextSpace {is64KBSupported : Bool} (s : Device is64KBSupported) (c : ContextPtr) : Nat :=
  match s.objects c with
  | some x => endOf x.cs.alignment 0 (blockSizes x.cs)
  | none => 0

/-- The GGTT space that the live contexts need. -/
def neededSpace {is64KBSupported : Bool} (s : Device is64KBSupported) : Nat :=
  (s.hwContexts.map (contextSpace s)).sum

/-- The live contexts fit into the GGTT. -/
def FitsGgtt {is64KBSupported : Bool} (s : Device is64KBSupported) (_ : Op is64KBSupported) : Prop :=
  neededSpace s < 2 ^ 32

theorem step_call {is64KBSupported : Bool} (ggtt : GGTT) (s : Device is64KBSupported)
    (c : Call is64KBSupported) : step ggtt s (.call c) = callStep ggtt s c := by
  unfold Device.step Device.calls
  simp only [runAll]
  cases callStep ggtt s c <;> rfl

theorem alignedAlloc_64KB (a : GfxAddressAllocator) (size : Nat) :
    (a.alignedAlloc size 65536).1 =
        (a.allocator.nextAddress + 65535 - (a.allocator.nextAddress + 65535) % 65536) % 2 ^ 32 ∧
      (a.alignedAlloc size 65536).2.allocator.nextAddress =
        ((a.alignedAlloc size 65536).1 + size) % 2 ^ 32 := by
  obtain ⟨haddr, hnext, _⟩ := a.alignedAlloc_eq size 65536
  have hand : a.allocator.nextAddress + 65535 &&& 65535 =
      (a.allocator.nextAddress + 65535) % 65536 := Nat.and_two_pow_sub_one_eq_mod _ 16
  rw [SimpleAllocator.alignUp, show max 65536 4096 - 1 = 65535 by decide, hand] at haddr hnext
  refine ⟨haddr, ?_⟩
  rw [GfxAddressAllocator.alignedAlloc, haddr]
  exact hnext

/-- What an initialization of a compute engine does to the cursor. -/
theorem computeEngine_cursor {s : HwState} (released : s.context.pLRCA = none) {k : Nat}
    (hk : k < 2 ^ 14) (cursor : (s.gfxAddressAllocator.allocator.nextAddress + 65535 -
      (s.gfxAddressAllocator.allocator.nextAddress + 65535) % 65536) % 2 ^ 32 = k * 2 ^ 18) :
    (HardwareContext.initializeContext computeEngine s).context.ggttGlobalHWSP = k * 2 ^ 18 ∧
      (HardwareContext.initializeContext computeEngine s).gfxAddressAllocator.allocator.nextAddress =
        k * 2 ^ 18 + 204800 := by
  have hspace : k * 2 ^ 18 + 2 ^ 18 ≤ 2 ^ 32 := by omega
  obtain ⟨h1, h1'⟩ := alignedAlloc_64KB s.gfxAddressAllocator 4096
  generalize ehwsp : s.gfxAddressAllocator.alignedAlloc 4096 65536 = hwsp at h1 h1'
  obtain ⟨h2, h2'⟩ := alignedAlloc_64KB hwsp.2 4096
  generalize efence : hwsp.2.alignedAlloc 4096 65536 = fence at h2 h2'
  obtain ⟨h3, h3'⟩ := alignedAlloc_64KB fence.2 ringSize
  generalize ering : fence.2.alignedAlloc ringSize 65536 = ring at h3 h3'
  obtain ⟨h4, h4'⟩ := alignedAlloc_64KB ring.2 0x2000
  generalize elrca : ring.2.alignedAlloc 0x2000 65536 = lrca at h4 h4'
  unfold ringSize at h3'
  have notLive : ¬ (none : Option ByteMemory.Bytes).isSome = true := by decide
  have halign : computeEngine.alignment = 65536 := rfl
  have hlrca : computeEngine.sizeLRCA = 0x2000 := rfl
  have hdata : ¬ computeEngine.isRingDataEnabled = true := by decide
  simp only [HardwareContext.initializeContext, released, if_neg notLive, if_neg hdata, halign,
    hlrca, ehwsp, efence, ering, elrca]
  rw [cursor] at h1
  refine ⟨h1, ?_⟩
  omega

/-- One more context is initialized. -/
theorem initialize_engine {s : Device true} {c : ContextPtr} {x : EngineContext true}
    (hx : s.objects c = some x) (engine : x.cs = computeEngine) (released : x.context.pLRCA = none)
    (noData : x.context.pRingData = .null) {k : Nat} (hk : k < 2 ^ 14)
    (cursor : (s.gfxAddressAllocator.allocator.nextAddress + 65535 -
      (s.gfxAddressAllocator.allocator.nextAddress + 65535) % 65536) % 2 ^ 32 = k * 2 ^ 18) :
    ∃ s' x', step localGgtt s (.call (.initializeContext c)) = some s' ∧
      s'.objects = setAt s.objects c (some x') ∧ s'.hwContexts = s.hwContexts ∧
      s'.nextContext = s.nextContext ∧
      s'.gfxAddressAllocator.allocator.nextAddress = k * 2 ^ 18 + 204800 ∧
      x'.cs = computeEngine ∧ x'.context.pLRCA.isSome = true ∧
      x'.context.ggttGlobalHWSP = k * 2 ^ 18 ∧ x'.context.pRingData = .null := by
  obtain ⟨cs, sameBank, context⟩ := x
  simp only at engine released noData
  subst engine
  have notLive : ¬ (none : Option ByteMemory.Bytes).isSome = true := by decide
  obtain ⟨hhwsp, hnext⟩ := computeEngine_cursor
    (s := s.hwState ⟨computeEngine, sameBank, context⟩) released hk cursor
  obtain ⟨_, _, hlive⟩ := initializeContext_blocks computeEngine
    (s := s.hwState ⟨computeEngine, sameBank, context⟩) released
  have hdata : ¬ computeEngine.isRingDataEnabled = true := by decide
  have hstep : step localGgtt s (.call (.initializeContext c)) = some { s with
      gfxAddressAllocator := (HardwareContext.initializeContext computeEngine
        (s.hwState ⟨computeEngine, sameBank, context⟩)).gfxAddressAllocator
      memory := (HardwareContext.initializeContext computeEngine
        (s.hwState ⟨computeEngine, sameBank, context⟩)).memory
      gtt := writeAll localGgtt computeEngine.alignment s.gtt (initialWrites computeEngine
        (HardwareContext.initializeContext computeEngine
          (s.hwState ⟨computeEngine, sameBank, context⟩)).context)
      objects := setAt s.objects c (some ⟨computeEngine, sameBank,
        (HardwareContext.initializeContext computeEngine
          (s.hwState ⟨computeEngine, sameBank, context⟩)).context⟩) } := by
    rw [step_call]
    simp only [callStep, Device.initializeContext, hx, released]
    rfl
  refine ⟨_, _, hstep, rfl, rfl, rfl, hnext, rfl, hlive, hhwsp, ?_⟩
  · simp only [HardwareContext.initializeContext, Device.hwState, released, if_neg notLive,
      if_neg hdata, noData]

/-- A context without a ring state goes. -/
theorem destroy_engine {s : Device true} {c : ContextPtr} {x : EngineContext true}
    (hx : s.objects c = some x) (mem : c ∈ s.hwContexts) (noData : x.context.pRingData = .null) :
    ∃ s' x', step localGgtt s (.call (.destroy c)) = some s' ∧
      s'.objects = setAt (setAt s.objects c (some x')) c none ∧
      s'.hwContexts = s.hwContexts.erase c ∧ s'.nextContext = s.nextContext ∧
      s'.gfxAddressAllocator = s.gfxAddressAllocator := by
  have hstep : step localGgtt s (.call (.destroy c)) = some { s with
      objects := setAt (setAt s.objects c
        (some { x with context := { x.context with pLRCA := none } })) c none
      hwContexts := s.hwContexts.erase c } := by
    rw [step_call]
    simp only [callStep, Device.destroy, if_pos mem, Device.release, hx, HardwareContext.release,
      Device.hwState, noData, Option.map_some]
  exact ⟨_, _, hstep, rfl, rfl, rfl, rfl⟩

/-- The first context is initialized at address 0, and `n` others have come and gone. -/
structure Gone (n : Nat) (s : Device true) : Prop where
  cursor : s.gfxAddressAllocator.allocator.nextAddress = n * 2 ^ 18 + 204800
  hwContexts : s.hwContexts = [0]
  nextContext : s.nextContext = n + 1
  engines : ∀ c x, s.objects c = some x → x.cs = computeEngine
  first : ∃ x, Initialized s 0 x ∧ x.context.ggttGlobalHWSP = 0

/-- Two contexts fit. -/
theorem fits_two {s : Device true} (engines : ∀ c x, s.objects c = some x → x.cs = computeEngine)
    (few : s.hwContexts.length ≤ 2) : neededSpace s < 2 ^ 32 := by
  have hbound : ∀ c, contextSpace s c ≤ 2 ^ 30 := by
    intro c
    unfold contextSpace
    split
    · rename_i x hx
      rw [engines c x hx]
      decide
    · exact Nat.zero_le _
  unfold neededSpace
  cases hlist : s.hwContexts with
  | nil => exact Nat.two_pow_pos 32
  | cons a rest =>
    have ha := hbound a
    rw [hlist] at few
    cases rest with
    | nil =>
      simp only [List.map_cons, List.map_nil, List.sum_cons, List.sum_nil]
      omega
    | cons b rest =>
      have hb := hbound b
      have hrest : rest = [] := List.eq_nil_of_length_eq_zero (by
        simp only [List.length_cons] at few
        omega)
      simp only [hrest, List.map_cons, List.map_nil, List.sum_cons, List.sum_nil]
      omega

/-- Where a context that is created next to the first one is initialized. -/
theorem gone_initialize {n : Nat} {s : Device true} (gone : Gone n s)
    (reached : Reach (step localGgtt) FitsGgtt (newDevice true localAllocator) s) :
    ∃ s' x, Reach (step localGgtt) FitsGgtt (newDevice true localAllocator) s' ∧
      neededSpace s' < 2 ^ 32 ∧ s'.objects (n + 1) = some x ∧
      s'.hwContexts = [0, n + 1] ∧ s'.nextContext = n + 2 ∧
      s'.gfxAddressAllocator.allocator.nextAddress = (n + 1) % 2 ^ 14 * 2 ^ 18 + 204800 ∧
      (∀ c x, s'.objects c = some x → x.cs = computeEngine) ∧
      (∃ x, Initialized s' 0 x ∧ x.context.ggttGlobalHWSP = 0) ∧
      x.context.pLRCA.isSome = true ∧ x.context.ggttGlobalHWSP = (n + 1) % 2 ^ 14 * 2 ^ 18 ∧
      x.context.pRingData = .null := by
  obtain ⟨cursor, hwContexts, nextContext, engines, x₀, ⟨hx₀, hlive₀⟩, hhwsp₀⟩ := gone
  have hcreate : step localGgtt s (.call createOp) =
      some (s.create computeEngine rfl 0 false (.pml 0)) := step_call _ _ _
  have hfits : neededSpace s < 2 ^ 32 := fits_two engines (by rw [hwContexts]; decide)
  have r₁ := Reach.step reached hfits hcreate
  generalize hs₁ : s.create computeEngine rfl 0 false (.pml 0) = s₁ at r₁
  have hobjects₁ : s₁.objects = setAt s.objects (n + 1)
      (some ⟨computeEngine, rfl, .new 0 false (.pml 0)⟩) := by
    rw [← hs₁, ← nextContext]
    rfl
  have hlist₁ : s₁.hwContexts = [0, n + 1] := by
    rw [← hs₁]
    simp only [Device.create, hwContexts, nextContext, List.cons_append, List.nil_append]
  have hengines₁ : ∀ c x, s₁.objects c = some x → x.cs = computeEngine := by
    intro c x hx
    rw [hobjects₁] at hx
    rcases setAt_cases hx with ⟨_, rfl⟩ | ⟨_, hold⟩
    · rfl
    · exact engines c x hold
  have hfits₁ : neededSpace s₁ < 2 ^ 32 := fits_two hengines₁ (hlist₁ ▸ Nat.le_refl 2)
  have hnew : s₁.objects (n + 1) = some ⟨computeEngine, rfl, .new 0 false (.pml 0)⟩ := by
    rw [hobjects₁, setAt_same]
  have hcursor₁ : s₁.gfxAddressAllocator.allocator.nextAddress = n * 2 ^ 18 + 204800 := by
    rw [← hs₁]
    exact cursor
  obtain ⟨s₂, x, hinit, hobjects₂, hlist₂, hnext₂, hcursor₂, hcs, hlive, hhwsp, hring⟩ :=
    initialize_engine hnew rfl rfl rfl (k := (n + 1) % 2 ^ 14) (Nat.mod_lt _ (by decide))
      (by rw [hcursor₁]; omega)
  have hengines₂ : ∀ c x, s₂.objects c = some x → x.cs = computeEngine := by
    intro c x' hx
    rw [hobjects₂] at hx
    rcases setAt_cases hx with ⟨_, rfl⟩ | ⟨_, hold⟩
    · exact hcs
    · exact hengines₁ c x' hold
  have hfirst : s₂.objects 0 = some x₀ := by
    rw [hobjects₂, setAt_ne _ _ (Nat.succ_ne_zero n).symm, hobjects₁,
      setAt_ne _ _ (Nat.succ_ne_zero n).symm, hx₀]
  refine ⟨s₂, x, .step r₁ hfits₁ hinit, fits_two hengines₂ (hlist₂.trans hlist₁ ▸ Nat.le_refl 2), ?_,
    hlist₂.trans hlist₁, ?_, hcursor₂, hengines₂, ⟨x₀, ⟨hfirst, hlive₀⟩, hhwsp₀⟩, hlive, hhwsp,
    hring⟩
  · rw [hobjects₂, setAt_same]
  · rw [hnext₂, ← hs₁]
    exact congrArg (· + 1) nextContext

/-- The device after the first context and `n` others. -/
theorem reach_gone (n : Nat) (hn : n < 2 ^ 14) : ∃ s : Device true,
    Reach (step localGgtt) FitsGgtt (newDevice true localAllocator) s ∧ Gone n s := by
  induction n with
  | zero =>
    have hcreate : step localGgtt (newDevice true localAllocator) (.call createOp) =
        some ((newDevice true localAllocator).create computeEngine rfl 0 false (.pml 0)) :=
      step_call _ _ _
    have hfits : FitsGgtt (newDevice true localAllocator) (.call createOp) := Nat.two_pow_pos 32
    have r₁ := Reach.step .start hfits hcreate
    have hengines : ∀ c x, ((newDevice true localAllocator).create computeEngine rfl 0 false
        (.pml 0)).objects c = some x → x.cs = computeEngine := by
      intro c x hx
      rcases setAt_cases hx with ⟨_, rfl⟩ | ⟨_, hold⟩
      · rfl
      · cases hold
    obtain ⟨s₂, x, hinit, hobjects, hlist, hnext, hcursor, hcs, hlive, hhwsp, _⟩ :=
      initialize_engine (s := (newDevice true localAllocator).create computeEngine rfl 0 false
        (.pml 0)) (c := 0) rfl rfl rfl rfl (k := 0) (by decide) rfl
    refine ⟨s₂, .step r₁ (fits_two hengines (Nat.le_succ 1)) hinit, ⟨hcursor, hlist, hnext,
      fun c y hy => ?_, x, ⟨?_, hlive⟩, hhwsp⟩⟩
    · rw [hobjects] at hy
      rcases setAt_cases hy with ⟨_, rfl⟩ | ⟨_, hold⟩
      · exact hcs
      · exact hengines c y hold
    · rw [hobjects, setAt_same]
  | succ n ih =>
    obtain ⟨s, reached, gone⟩ := ih (Nat.lt_of_succ_lt hn)
    obtain ⟨s₂, x, r₂, hfits₂, hx, hlist₂, hnext₂, hcursor₂, hengines₂, ⟨x₀, ⟨hx₀, hlive₀⟩, hhwsp₀⟩,
      _, _, hring⟩ := gone_initialize gone reached
    obtain ⟨s₃, x', hdestroy, hobjects₃, hlist₃, hnext₃, halloc₃⟩ := destroy_engine hx
      (by rw [hlist₂]; exact List.mem_cons_of_mem _ (List.mem_singleton_self _)) hring
    refine ⟨s₃, .step r₂ hfits₂ hdestroy, ⟨?_, ?_, hnext₃.trans hnext₂, fun c y hy => ?_,
      x₀, ⟨?_, hlive₀⟩, hhwsp₀⟩⟩
    · rw [halloc₃, hcursor₂, Nat.mod_eq_of_lt hn]
    · rw [hlist₃, hlist₂]
      simp
    · rw [hobjects₃] at hy
      by_cases hc : c = n + 1
      · rw [hc, setAt_same] at hy
        cases hy
      · rw [setAt_ne _ _ hc, setAt_ne _ _ hc] at hy
        exact hengines₂ c y hy
    · rw [hobjects₃, setAt_ne _ _ (Nat.succ_ne_zero n).symm,
        setAt_ne _ _ (Nat.succ_ne_zero n).symm, hx₀]

/-- After 16383 others have come and gone, a context gets the blocks of the first one. -/
theorem not_ranges_apart :
    ¬ ∀ s : Device true, Reach (step localGgtt) FitsGgtt (newDevice true localAllocator) s →
      neededSpace s < 2 ^ 32 → RangesOk s := by
  intro h
  obtain ⟨s, reached, gone⟩ := reach_gone 16383 (by decide)
  obtain ⟨s', x, reached', hfits, hx, _, _, _, _, ⟨x₀, hx₀, hhwsp₀⟩, hlive, hhwsp, _⟩ :=
    gone_initialize gone reached
  have hapart := (h s' reached' hfits).apart 0 (16383 + 1) x₀ x hx₀ ⟨hx, hlive⟩ (by decide)
    (x₀.context.ggttGlobalHWSP, 4096) (List.mem_append_left _ (List.mem_cons_self ..))
    (x.context.ggttGlobalHWSP, 4096) (List.mem_append_left _ (List.mem_cons_self ..))
  rw [hhwsp₀, hhwsp] at hapart
  unfold Apart at hapart
  omega

end GgttRanges
