import Aubstream.StolenMemory
import Aubstream.AllocatorBlocks
import Aubstream.Transitions

/-!
# Isolation of the local memory banks

An allocator never compares its cursor with the end of its bank, so a bank keeps
its blocks below its stolen memory only as long as a new block has room there.
-/

namespace BankIsolation
open EntryBits PhysicalAllocator AllocatorBlocks StolenMemory Transitions

/-- The allocator of a manager and every block that it has handed out, with its bank. -/
structure Banks where
  allocator : PhysicalAddressAllocatorSimple
  handedOut : List Key

inductive Op where
  | reservePhysicalMemory (memoryBank size alignment : Nat)
  | freePhysicalMemory (memoryBank address : Nat)

/-- The allocator that `initialize` makes. The third shared memory mode has none of its own: it
hands out addresses of the host's heap. -/
def start (o : AubManagerOptions) : Option Banks :=
  if o.mode = .tbxShm3 then none
  else some ⟨.new o.devicesCount o.memoryBankSize o.localMemorySupported, []⟩

/-- The source asserts that the lowest bank has an allocator. -/
def HasAllocator (a : PhysicalAddressAllocatorSimple) (memoryBank : Nat) : Prop :=
  ∀ i, a.slotOf memoryBank = some i → i < a.numberOfAllocators

instance (a : PhysicalAddressAllocatorSimple) (memoryBank : Nat) :
    Decidable (HasAllocator a memoryBank) :=
  match h : a.slotOf memoryBank with
  | none => isTrue (by simp [HasAllocator, h])
  | some i => decidable_of_iff (i < a.numberOfAllocators) (by simp [HasAllocator, h])

/-- The mapper of the fourth shared memory mode does not free. -/
def keepsFreed (mode : StreamMode) : Bool := mode == .tbxShm4 || mode == .aubFileAndShm4

def step (o : AubManagerOptions) (s : Banks) : Op → Option Banks
  | .reservePhysicalMemory memoryBank size alignment =>
    if HasAllocator s.allocator memoryBank then
      let r := s.allocator.reserve memoryBank size alignment
      some ⟨r.2, (s.allocator.slotOf memoryBank, r.1, size) :: s.handedOut⟩
    else none
  | .freePhysicalMemory memoryBank address =>
    if keepsFreed o.mode then some s
    else if HasAllocator s.allocator memoryBank then
      some { s with allocator := s.allocator.free memoryBank address }
    else none

/-- A free block of the size is reused, or a new one ends below `limit`. -/
def FitsBelow (limit : Nat) (s : SimpleAllocator 64) (size alignment : Nat) : Prop :=
  (∃ e ∈ s.freeAllocationsMap, e.2 = size) ∨
    SimpleAllocator.alignUp s.nextAddress (max alignment 4096) + size ≤ limit

/-- The local bank that a call asks is not exhausted. -/
def HasRoom (p : Product) (o : AubManagerOptions) (s : Banks) : Op → Prop
  | .reservePhysicalMemory memoryBank size alignment =>
    ∀ i, s.allocator.slotOf memoryBank = some i →
      FitsBelow (getBaseAddress p o i) (s.allocator.allocators i) size alignment
  | .freePhysicalMemory _ _ => True

section Bounds

/-- All blocks of an allocator lie between `low` and `limit`. -/
structure Within (low limit : Nat) (s : SimpleAllocator 64) : Prop where
  cursor : low ≤ s.nextAddress
  used : ∀ e ∈ s.usedAllocationsMap, low ≤ e.1 ∧ e.1 + e.2 ≤ limit
  free : ∀ e ∈ s.freeAllocationsMap, low ≤ e.1 ∧ e.1 + e.2 ≤ limit

variable {low limit : Nat} {s : SimpleAllocator 64}

theorem new_within (low limit : Nat) : Within low limit (.new low) := by
  refine ⟨Nat.le_refl _, ?_, ?_⟩
  · rintro e ⟨⟩
  · rintro e ⟨⟩

theorem alignedAlloc_within (h : Within low limit s) (hlimit : limit < 2 ^ 64) {size alignment : Nat}
    (room : FitsBelow limit s size alignment) :
    Within low limit (s.alignedAlloc size alignment).2 ∧
      low ≤ (s.alignedAlloc size alignment).1 ∧
      (s.alignedAlloc size alignment).1 + size ≤ limit := by
  unfold SimpleAllocator.alignedAlloc
  cases hf : s.freeAllocationsMap.find? fun e => e.2 = size with
  | some e =>
    have hmem := List.mem_of_find?_eq_some hf
    have hsize : e.2 = size := by simpa using List.find?_some hf
    have he := h.free e hmem
    refine ⟨⟨h.cursor, ?_, ?_⟩, he.1, hsize ▸ he.2⟩
    · intro x hx
      rcases List.mem_cons.mp ((multimapInsert_perm _ _).mem_iff.mp hx) with rfl | hx
      · exact he
      · exact h.used x hx
    · intro x hx
      exact h.free x (List.mem_of_mem_erase hx)
  | none =>
    have hfits : SimpleAllocator.alignUp s.nextAddress (max alignment 4096) + size ≤ limit := by
      rcases room with ⟨e, he, hsize⟩ | hfits
      · rw [List.find?_eq_none] at hf
        exact absurd (by simpa using hsize) (hf e he)
      · exact hfits
    have hge := Nat.le_trans h.cursor (alignUp_ge s.nextAddress (max alignment 4096))
    generalize SimpleAllocator.alignUp s.nextAddress (max alignment 4096) = x at hfits hge ⊢
    have hx : x % 2 ^ 64 = x := Nat.mod_eq_of_lt (by omega)
    have hend : (x + size) % 2 ^ 64 = x + size := Nat.mod_eq_of_lt (by omega)
    simp only [hx, hend]
    refine ⟨⟨Nat.le_add_right_of_le hge, ?_, h.free⟩, hge, hfits⟩
    intro y hy
    rcases List.mem_cons.mp ((multimapInsert_perm _ _).mem_iff.mp hy) with rfl | hy
    · exact ⟨hge, hfits⟩
    · exact h.used y hy

theorem alignedFree_within (h : Within low limit s) (address : Nat) :
    Within low limit (s.alignedFree address) := by
  unfold SimpleAllocator.alignedFree
  cases hf : s.usedAllocationsMap.find? fun e => e.1 = address % 2 ^ 64 with
  | none => exact h
  | some e =>
    have he := h.used e (List.mem_of_find?_eq_some hf)
    refine ⟨h.cursor, ?_, ?_⟩
    · intro x hx
      exact h.used x (List.mem_of_mem_erase hx)
    · intro x hx
      rcases List.mem_cons.mp ((multimapInsert_perm _ _).mem_iff.mp hx) with rfl | hx
      · exact he
      · exact h.free x hx

end Bounds

/-- Where the allocator of a device starts. -/
def bankStart (o : AubManagerOptions) (device : Nat) : Nat :=
  firstAddress o.memoryBankSize o.localMemorySupported (some device)

/-- What holds between two calls. -/
structure BanksWithin (p : Product) (o : AubManagerOptions) (s : Banks) : Prop where
  count : s.allocator.numberOfAllocators = o.devicesCount
  banks : ∀ i, i < o.devicesCount →
    Within (bankStart o i) (getBaseAddress p o i) (s.allocator.allocators i)
  handedOut : ∀ i e, (some i, e) ∈ s.handedOut → i < o.devicesCount ∧ bankStart o i ≤ e.1 ∧
    e.1 + e.2 ≤ getBaseAddress p o i

theorem start_within (p : Product) {o : AubManagerOptions} {s : Banks} (h : start o = some s) :
    BanksWithin p o s := by
  unfold start at h
  split at h
  · cases h
  · obtain rfl := Option.some.inj h
    refine ⟨rfl, fun i _ => new_within _ _, ?_⟩
    rintro i e ⟨⟩

theorem set_numberOfAllocators (a : PhysicalAddressAllocatorSimple) (slot : Bank)
    (s : SimpleAllocator 64) : (a.set slot s).numberOfAllocators = a.numberOfAllocators := by
  cases slot <;> rfl

/-- A call that changes one bank within its bounds keeps the others. -/
theorem set_within {p : Product} {o : AubManagerOptions} {s : Banks} (h : BanksWithin p o s)
    {slot : Bank} {x : SimpleAllocator 64}
    (changed : ∀ i, slot = some i → i < o.devicesCount →
      Within (bankStart o i) (getBaseAddress p o i) x) {i : Nat} (hi : i < o.devicesCount) :
    Within (bankStart o i) (getBaseAddress p o i) ((s.allocator.set slot x).get (some i)) := by
  by_cases hslot : some i = slot
  · subst hslot
    rw [get_set]
    exact changed i rfl hi
  · rw [get_set_of_ne hslot]
    exact h.banks i hi

theorem step_within {p : Product} {o : AubManagerOptions} {s s' : Banks} {op : Op}
    (limit : ∀ i, i < o.devicesCount → getBaseAddress p o i < 2 ^ 64) (h : BanksWithin p o s)
    (room : HasRoom p o s op) (done : step o s op = some s') : BanksWithin p o s' := by
  cases op with
  | reservePhysicalMemory memoryBank size alignment =>
    simp only [step] at done
    split at done
    · rename_i hindex
      obtain rfl := Option.some.inj done
      have halloc : ∀ i, s.allocator.slotOf memoryBank = some i → i < o.devicesCount →
          Within (bankStart o i) (getBaseAddress p o i)
            ((s.allocator.allocators i).alignedAlloc size alignment).2 ∧
          bankStart o i ≤ ((s.allocator.allocators i).alignedAlloc size alignment).1 ∧
          ((s.allocator.allocators i).alignedAlloc size alignment).1 + size ≤
            getBaseAddress p o i :=
        fun i hslot hi => alignedAlloc_within (h.banks i hi) (limit i hi) (room i hslot)
      refine ⟨(set_numberOfAllocators _ _ _).trans h.count, ?_, ?_⟩
      · intro i hi
        refine set_within h (fun j hslot hj => ?_) hi
        rw [hslot]
        exact (halloc j hslot hj).1
      · rintro i e hmem
        rcases List.mem_cons.mp hmem with heq | hmem
        · obtain ⟨hslot, rfl⟩ := Prod.mk.inj heq
          have hi : i < o.devicesCount := h.count ▸ hindex i hslot.symm
          have hbounds := (halloc i hslot.symm hi).2
          refine ⟨hi, ?_⟩
          simp only [PhysicalAddressAllocatorSimple.reserve, ← hslot,
            PhysicalAddressAllocatorSimple.get]
          exact hbounds
        · exact h.handedOut i e hmem
    · cases done
  | freePhysicalMemory memoryBank address =>
    simp only [step] at done
    split at done
    · obtain rfl := Option.some.inj done
      exact h
    · split at done
      · obtain rfl := Option.some.inj done
        refine ⟨(set_numberOfAllocators _ _ _).trans h.count, ?_, h.handedOut⟩
        intro i hi
        refine set_within h (fun j hslot hj => ?_) hi
        rw [hslot]
        exact alignedFree_within (h.banks j hj) address
      · cases done

/-- Blocks of local banks stay in their bank below its stolen memory, and banks and parts of stolen
memory are apart. `counts` says which parts are meant. -/
structure BanksIsolated (p : Product) (o : AubManagerOptions) (counts : StolenPart → Prop)
    (handedOut : List Key) : Prop where
  inside : ∀ i e, (some i, e) ∈ handedOut →
    i * o.memoryBankSize + max (o.memoryBankSize / 256) (if i = 0 then 0x1000 else 0) ≤ e.1 ∧
      e.1 + e.2 ≤ getBaseAddress p o i
  banks : ∀ i j e e', (some i, e) ∈ handedOut → (some j, e') ∈ handedOut → i ≠ j → Apart e e'
  stolen : ∀ i e d part, (some i, e) ∈ handedOut → d < o.devicesCount → counts part →
    Apart e (stolenRange p o d part)
  parts : ∀ d d' part part', d < o.devicesCount → d' < o.devicesCount → counts part →
    counts part' → (d, part) ≠ (d', part') →
    Apart (stolenRange p o d part) (stolenRange p o d' part')

theorem bankStart_eq {o : AubManagerOptions} (hlocal : o.localMemorySupported = true)
    (space : InAddressSpace o) {i : Nat} (hi : i < o.devicesCount)
    (hpos : 0 < o.memoryBankSize) :
    bankStart o i = max 0x1000 (o.memoryBankSize / 256 + i * o.memoryBankSize) := by
  have hend := bankEnd_le space hi
  have hsplit : bankEnd o i = i * o.memoryBankSize + o.memoryBankSize := by
    rw [bankEnd, Nat.mul_comm, Nat.add_mul, Nat.one_mul]
  have hstart : bankStart o i = max 0x1000 (wrap64 ((if o.localMemorySupported then
      o.memoryBankSize / 256 else 0) + i * o.memoryBankSize)) := rfl
  rw [hstart, if_pos hlocal, wrap64, Nat.mod_eq_of_lt (by omega)]

/-- A bank starts behind the end of every lower bank. -/
theorem bankEnd_le_bankStart {o : AubManagerOptions} (hlocal : o.localMemorySupported = true)
    (space : InAddressSpace o) {d i : Nat} (h : d < i) (hi : i < o.devicesCount)
    (hpos : 0 < o.memoryBankSize) : bankEnd o d ≤ bankStart o i := by
  rw [bankStart_eq hlocal space hi hpos, bankEnd, Nat.mul_comm]
  have := Nat.mul_le_mul_right o.memoryBankSize (Nat.succ_le_of_lt h)
  simp only [Nat.succ_eq_add_one] at this
  omega

theorem BanksWithin.isolated {p : Product} {o : AubManagerOptions} {s : Banks}
    {counts : StolenPart → Prop} (h : BanksWithin p o s) (sizes : Sizes p o)
    (hlocal : o.localMemorySupported = true) (space : InAddressSpace o)
    (carved : ∀ part, counts part → part = .gsm → p.gsmAtZero = false) :
    BanksIsolated p o counts s.handedOut := by
  have hpos : 0 < o.memoryBankSize := by
    have h1 := sizes.dsm_pos
    have h2 := sizes.parts
    have h3 := sizes.fits
    omega
  have below : ∀ i e, (some i, e) ∈ s.handedOut → e.1 + e.2 ≤ bankEnd o i := by
    intro i e he
    obtain ⟨hi, _, hend⟩ := h.handedOut i e he
    have := stolen_end sizes space hi
    omega
  have ordered : ∀ i j e e', (some i, e) ∈ s.handedOut → (some j, e') ∈ s.handedOut → i < j →
      Apart e e' := by
    intro i j e e' he he' hij
    obtain ⟨hj, hstart, _⟩ := h.handedOut j e' he'
    have h1 := below i e he
    have h2 := bankEnd_le_bankStart hlocal space hij hj hpos
    exact Or.inl (by omega)
  refine ⟨?_, ?_, ?_, ?_⟩
  · intro i e he
    obtain ⟨hi, hstart, hend⟩ := h.handedOut i e he
    rw [bankStart_eq hlocal space hi hpos] at hstart
    refine ⟨?_, hend⟩
    split
    · rename_i hzero
      subst hzero
      omega
    · omega
  · intro i j e e' he he' hne
    rcases Nat.lt_or_gt_of_ne hne with hij | hij
    · exact ordered i j e e' he he' hij
    · exact (ordered j i e' e he' he hij).symm
  · intro i e d part he hd hcounts
    obtain ⟨hi, hstart, hend⟩ := h.handedOut i e he
    obtain ⟨hlow, hhigh⟩ := stolenRange_inside sizes space hd (carved part hcounts)
    rcases Nat.lt_trichotomy i d with hid | rfl | hid
    · have := stolen_before sizes space hid hd
      exact Or.inl (by omega)
    · exact Or.inl (by omega)
    · have h1 := stolen_end sizes space hd
      have h2 := bankEnd_le_bankStart hlocal space hid hi hpos
      exact Or.inr (by omega)
  · intro d d' part part' hd hd' hcounts hcounts' hne
    obtain ⟨hlow, hhigh⟩ := stolenRange_inside sizes space hd (carved part hcounts)
    obtain ⟨hlow', hhigh'⟩ := stolenRange_inside sizes space hd' (carved part' hcounts')
    rcases Nat.lt_trichotomy d d' with hdd | rfl | hdd
    · have := stolen_before sizes space hdd hd'
      exact Or.inl (by omega)
    · refine stolenRange_apart sizes space hd (carved part hcounts) (carved part' hcounts') ?_
      rintro rfl
      exact hne rfl
    · have := stolen_before sizes space hdd hd
      exact Or.inr (by omega)

/-- As long as no local bank is exhausted, banks and stolen memory are isolated. Only the product
that keeps its GTT at address 0 has it outside its stolen memory. -/
theorem banks_isolated (p : Product) (o : AubManagerOptions) (accepted : create p o = true)
    (hlocal : o.localMemorySupported = true) (space : InAddressSpace o) {s₀ s : Banks}
    (started : start o = some s₀) (reached : Reach (step o) (HasRoom p o) s₀ s) :
    BanksIsolated p o (fun part => part = .gsm → p.gsmAtZero = false) s.handedOut := by
  have sizes := create_sizes accepted
  have limit : ∀ i, i < o.devicesCount → getBaseAddress p o i < 2 ^ 64 := by
    intro i hi
    have h1 := stolen_end sizes space hi
    have h2 := bankEnd_le space hi
    have h3 := sizes.dsm_pos
    have h4 := sizes.parts
    omega
  have within : BanksWithin p o s :=
    reached.invariant (start_within p started) fun _ _ _ inv room done => step_within limit inv room done
  exact within.isolated sizes hlocal space fun part hcounts => hcounts

theorem hasRoom_of_fits {p : Product} {o : AubManagerOptions} {s : Banks}
    {memoryBank size alignment i : Nat} (hslot : s.allocator.slotOf memoryBank = some i)
    (fits : SimpleAllocator.alignUp (s.allocator.allocators i).nextAddress (max alignment 4096) +
      size ≤ getBaseAddress p o i) :
    HasRoom p o s (.reservePhysicalMemory memoryBank size alignment) := by
  rintro j hj
  obtain rfl : i = j := Option.some.inj (hslot.symm.trans hj)
  exact Or.inr fits

/-- Two devices with 256MB each. -/
def twoBanks : AubManagerOptions := ⟨2, 256 * MB, true, .aubFile, 0, 0, by decide⟩

theorem banks_isolated_two :
    ∃ s, (start twoBanks).bind (runAll (step twoBanks) ·
        [.reservePhysicalMemory 1 0x1000 0x1000, .reservePhysicalMemory 2 0x1000 0x1000]) = some s ∧
      s.handedOut = [(some 1, (257 * MB, 0x1000)), (some 0, (MB, 0x1000))] ∧
      BanksIsolated gpuXeCore twoBanks (fun part => part = .gsm → gpuXeCore.gsmAtZero = false)
        s.handedOut := by
  refine ⟨_, rfl, by decide +kernel, banks_isolated gpuXeCore twoBanks (by decide +kernel) rfl
    (by unfold InAddressSpace; decide +kernel) rfl ?_⟩
  refine .step (.step .start (o := .reservePhysicalMemory 1 0x1000 0x1000) ?_ rfl)
    (o := .reservePhysicalMemory 2 0x1000 0x1000) ?_ rfl
  · exact hasRoom_of_fits (i := 0) rfl (by decide +kernel)
  · exact hasRoom_of_fits (i := 1) rfl (by decide +kernel)

def oneBank (memoryBankSize : Nat) (h : memoryBankSize < 2 ^ 64) : AubManagerOptions :=
  ⟨1, memoryBankSize, true, .aubFile, 0, 0, h⟩

/-- Three banks that end behind the address type. -/
def threeBanks : AubManagerOptions := ⟨3, 2 ^ 63, true, .aubFile, 0, 0, by decide⟩

/-- An exhausted bank hands out its stolen memory, banks behind the address type overlap, and a GTT
at address 0 lies in the first bank. -/
theorem not_banks_isolated :
    (¬ ∀ p o s₀ s, create p o = true → o.localMemorySupported = true → start o = some s₀ →
      Reach (step o) Any s₀ s → BanksIsolated p o (fun _ => True) s.handedOut) ∧
    (¬ ∀ p o s₀ s, create p o = true → o.localMemorySupported = true → start o = some s₀ →
      Reach (step o) (HasRoom p o) s₀ s → p.gsmAtZero = false →
      BanksIsolated p o (fun _ => True) s.handedOut) ∧
    (¬ ∀ p o s₀ s, create p o = true → o.localMemorySupported = true → start o = some s₀ →
      Reach (step o) (HasRoom p o) s₀ s → InAddressSpace o →
      BanksIsolated p o (fun _ => True) s.handedOut) := by
  refine ⟨fun hall => ?_, fun hall => ?_, fun hall => ?_⟩
  · have h := hall gpuXeCore (oneBank (256 * MB) (by decide)) _ _ (by decide +kernel) rfl rfl
      (.step .start (o := .reservePhysicalMemory 1 (240 * MB) 0x1000) trivial rfl)
    have hin := (h.inside 0 (MB, 240 * MB) (by decide +kernel)).2
    exact absurd hin (by decide +kernel)
  · have h := hall gpuXeCore threeBanks _ _ (by decide +kernel) rfl rfl
      (.step (.step .start (o := .reservePhysicalMemory 1 0x1000 0x1000)
        (hasRoom_of_fits (i := 0) rfl (by decide +kernel)) rfl)
        (o := .reservePhysicalMemory 4 0x1000 0x1000)
        (hasRoom_of_fits (i := 2) rfl (by decide +kernel)) rfl) rfl
    have hapart := h.banks 0 2 (2 ^ 55, 0x1000) (2 ^ 55, 0x1000) (by decide +kernel)
      (by decide +kernel) (by decide)
    unfold Apart at hapart
    omega
  · have h := hall gpuGen12LP (oneBank (1024 * MB) (by decide)) _ _ (by decide +kernel) rfl rfl
      (.step .start (o := .reservePhysicalMemory 1 0x1000 0x1000)
        (hasRoom_of_fits (i := 0) rfl (by decide +kernel)) rfl)
      (by unfold InAddressSpace; decide +kernel)
    have hapart := h.stolen 0 (4 * MB, 0x1000) 0 .gsm (by decide +kernel) (by decide) trivial
    unfold Apart at hapart
    exact absurd hapart (by decide +kernel)

end BankIsolation
