import Aubstream.HardwareContext

/-!
# The blocks and host copies of a context

The ring, the register image and the ring state are allocated one behind the
other and never overlap. A submission changes the ring registers of the host
copies and carries the change over to their blocks.
-/

namespace ContextBlocks
open ByteMemory PhysicalAllocator HardwareContext

/-- A host copy, where its ring registers are, and the block that it is streamed to. -/
structure HostCopy where
  registers : Nat
  gfxAddress : Nat
  size : Nat
  bytes : Bytes

def HostCopy.ringHead (h : HostCopy) : Nat := getDword h.bytes (h.registers + offsetRingHead + 4)

def HostCopy.ringTail (h : HostCopy) : Nat := getDword h.bytes (h.registers + offsetRingTail + 4)

/-- The ring registers lie within the copy. -/
def HostCopy.Fits (h : HostCopy) : Prop := h.registers + 16 ≤ h.size ∧ h.size ≤ 2 ^ 32

section
variable {cs : CommandStreamerHelper}

inductive IsCopy (cs : CommandStreamerHelper) (c : HardwareContextImp) : HostCopy → Prop where
  | lrca {p : Bytes} (live : c.pLRCA = some p) :
      IsCopy cs c ⟨CommandStreamerHelper.lrcaRegisters, c.ggttLRCA, cs.sizeLRCA, p⟩
  | ringData {p : Bytes} (enabled : cs.isRingDataEnabled = true)
      (live : c.pRingData = .allocated p) :
      IsCopy cs c ⟨getRingDataOffset, c.ringData, sizeRingData, p⟩

/-- Both host copies are there. -/
structure Ready (cs : CommandStreamerHelper) (c : HardwareContextImp) : Prop where
  lrca : ∃ p, c.pLRCA = some p
  ringData : (∃ p, c.pRingData = .allocated p) ∧ cs.isRingDataEnabled = true ∨
    c.pRingData = .null ∧ cs.isRingDataEnabled = false

structure Placed (cs : CommandStreamerHelper) (c : HardwareContextImp) : Prop where
  ring_lrca : Apart c.ggttRing ringSize c.ggttLRCA cs.sizeLRCA
  ring_data : cs.isRingDataEnabled = true → Apart c.ggttRing ringSize c.ringData sizeRingData
  lrca_data : cs.isRingDataEnabled = true → Apart c.ggttLRCA cs.sizeLRCA c.ringData sizeRingData

/-- Every host copy is streamed to its block. -/
def Streamed (cs : CommandStreamerHelper) (s : HwState) : Prop :=
  ∀ h, IsCopy cs s.context h → Holds s.memory h.gfxAddress h.size h.bytes

theorem Ready.congr {c c' : HardwareContextImp} (ready : Ready cs c) (lrca : c'.pLRCA = c.pLRCA)
    (ringData : c'.pRingData = c.pRingData) : Ready cs c' :=
  ⟨lrca ▸ ready.lrca, ringData ▸ ready.ringData⟩

theorem Placed.congr {c c' : HardwareContextImp} (placed : Placed cs c)
    (ring : c'.ggttRing = c.ggttRing) (lrca : c'.ggttLRCA = c.ggttLRCA)
    (ringData : c'.ringData = c.ringData) : Placed cs c' := by
  obtain ⟨ring_lrca, ring_data, lrca_data⟩ := placed
  rw [← ring, ← lrca] at ring_lrca
  rw [← ring, ← ringData] at ring_data
  rw [← lrca, ← ringData] at lrca_data
  exact ⟨ring_lrca, ring_data, lrca_data⟩

theorem IsCopy.fits {c : HardwareContextImp} {h : HostCopy} (copy : IsCopy cs c h) : h.Fits := by
  have bounds := cs.sizeLRCA_bounds
  cases copy with
  | lrca => exact ⟨by simp only [CommandStreamerHelper.lrcaRegisters, offsetContext,
      offsetRingRegisters, offsetLRI0]; omega, by simp only; omega⟩
  | ringData => exact ⟨show getRingDataOffset + 16 ≤ sizeRingData by decide,
      show sizeRingData ≤ 2 ^ 32 by decide⟩

theorem alignUp_near (x a : Nat) : ∃ d, d ≤ a - 1 ∧ SimpleAllocator.alignUp x a = x + d := by
  have hle := Nat.and_le_right (n := x + (a - 1)) (m := a - 1)
  refine ⟨a - 1 - ((x + (a - 1)) &&& (a - 1)), by omega, ?_⟩
  unfold SimpleAllocator.alignUp
  omega

/-- A block lies less than 64KB behind the cursor, which moves to its end. -/
theorem alignedAlloc_near (cs : CommandStreamerHelper) (a : GfxAddressAllocator) (size : Nat) :
    ∃ d, d < 65536 ∧ (a.alignedAlloc size cs.alignment).1 = (a.allocator.nextAddress + d) % 2 ^ 32 ∧
      (a.alignedAlloc size cs.alignment).2.allocator.nextAddress =
        (a.allocator.nextAddress + d + size) % 2 ^ 32 := by
  obtain ⟨d, hd, heq⟩ := alignUp_near a.allocator.nextAddress (max cs.alignment 4096)
  have hsmall : max cs.alignment 4096 ≤ 65536 := by
    unfold CommandStreamerHelper.alignment
    split <;> omega
  obtain ⟨haddr, hnext, _⟩ := a.alignedAlloc_eq size cs.alignment
  rw [heq] at haddr hnext
  refine ⟨d, by omega, haddr, ?_⟩
  simp only [GfxAddressAllocator.alignedAlloc, hnext]
  omega

theorem getDword_setRegister (base offset register : Nat) (p : Bytes) {value : Nat}
    (h : value < 2 ^ 32) :
    getDword (cs.setRegister base offset register value p) (base + offset + 4) = value := by
  simp only [CommandStreamerHelper.setRegister, setDwords]
  exact getDword_setDword _ _ h

theorem getDword_setRegister_ne {base offset register value offset' : Nat} {p : Bytes}
    (h : base + offset + 8 ≤ offset' ∨ offset' + 4 ≤ base + offset) :
    getDword (cs.setRegister base offset register value p) offset' = getDword p offset' :=
  getDword_setDwords_outside h

theorem setRegister_outside {base offset register value k : Nat} {p : Bytes}
    (h : k < base + offset ∨ base + offset + 8 ≤ k) :
    cs.setRegister base offset register value p k = p k := setDwords_outside h

/-- The copies that a context starts with have an empty ring. -/
theorem initialLRCA_registers (cs : CommandStreamerHelper) (c : HardwareContextImp)
    (ggttRing : Nat) :
    getDword (initialLRCA cs c ggttRing)
        (CommandStreamerHelper.lrcaRegisters + offsetRingHead + 4) = 0 ∧
      getDword (initialLRCA cs c ggttRing)
        (CommandStreamerHelper.lrcaRegisters + offsetRingTail + 4) = 0 := by
  unfold initialLRCA CommandStreamerHelper.setRingCtrl CommandStreamerHelper.setRingBase
    CommandStreamerHelper.setRingTail CommandStreamerHelper.setRingHead
  constructor
  · rw [getDword_setRegister_ne (.inr (by decide)), getDword_setRegister_ne (.inr (by decide)),
      getDword_setRegister_ne (.inr (by decide)), getDword_setRegister _ _ _ _ (by decide)]
  · rw [getDword_setRegister_ne (.inr (by decide)), getDword_setRegister_ne (.inr (by decide)),
      getDword_setRegister _ _ _ _ (by decide)]

theorem setIndirectRingState_registers (ringData : Nat) {p : Bytes} {head tail : Nat}
    (h : getDword p (CommandStreamerHelper.lrcaRegisters + offsetRingHead + 4) = head ∧
      getDword p (CommandStreamerHelper.lrcaRegisters + offsetRingTail + 4) = tail) :
    getDword (cs.setIndirectRingState ringData p)
        (CommandStreamerHelper.lrcaRegisters + offsetRingHead + 4) = head ∧
      getDword (cs.setIndirectRingState ringData p)
        (CommandStreamerHelper.lrcaRegisters + offsetRingTail + 4) = tail := by
  unfold CommandStreamerHelper.setIndirectRingState
  constructor
  · rw [getDword_setDwords_outside (.inr (by decide)), h.1]
  · rw [getDword_setDwords_outside (.inr (by decide)), h.2]

theorem initializeRingData_registers (cs : CommandStreamerHelper) (ggttRing : Nat) :
    getDword (cs.initializeRingData ggttRing) (getRingDataOffset + offsetRingHead + 4) = 0 ∧
      getDword (cs.initializeRingData ggttRing) (getRingDataOffset + offsetRingTail + 4) = 0 := by
  unfold CommandStreamerHelper.initializeRingData CommandStreamerHelper.setRingTail
    CommandStreamerHelper.setRingHead
  constructor
  · rw [getDword_setDword_ne (.inr (by decide)), getDword_setDwords_outside (.inr (by decide)),
      getDword_setDwords_outside (.inr (by decide)), getDword_setRegister_ne (.inr (by decide)),
      getDword_setRegister _ _ _ _ (by decide)]
  · rw [getDword_setDword_ne (.inr (by decide)), getDword_setDwords_outside (.inr (by decide)),
      getDword_setDwords_outside (.inr (by decide)), getDword_setRegister _ _ _ _ (by decide)]

/-- What initializing a released context does. -/
structure Initialized (cs : CommandStreamerHelper) (s s' : HwState) : Prop where
  ready : cs.isRingDataEnabled = true ∨ s.context.pRingData = .null → Ready cs s'.context
  placed : Placed cs s'.context
  streamed : Streamed cs s'
  registers : ∀ h, IsCopy cs s'.context h → h.ringHead = 0 ∧ h.ringTail = 0
  ringTail : s'.context.ringTail = s.context.ringTail
  contextFenceValue : s'.context.contextFenceValue = s.context.contextFenceValue
  ringEvents : s'.ringEvents = []
  submissions : s'.submissions = s.submissions

theorem initializeContext_initialized {s : HwState} (released : s.context.pLRCA = none) :
    Initialized cs s (initializeContext cs s) := by
  obtain ⟨bound, bound'⟩ := cs.sizeLRCA_bounds
  obtain ⟨d0, hd0, _, hn0⟩ := alignedAlloc_near cs s.gfxAddressAllocator 4096
  generalize ehwsp : s.gfxAddressAllocator.alignedAlloc 4096 cs.alignment = hwsp at hn0
  obtain ⟨d1, hd1, _, hn1⟩ := alignedAlloc_near cs hwsp.2 4096
  generalize efence : hwsp.2.alignedAlloc 4096 cs.alignment = fence at hn1
  obtain ⟨d2, hd2, hring, hn2⟩ := alignedAlloc_near cs fence.2 ringSize
  generalize ering : fence.2.alignedAlloc ringSize cs.alignment = ring at hring hn2
  obtain ⟨d3, hd3, hlrca, hn3⟩ := alignedAlloc_near cs ring.2 cs.sizeLRCA
  generalize elrca : ring.2.alignedAlloc cs.sizeLRCA cs.alignment = lrca at hlrca hn3
  obtain ⟨d4, hd4, hdata, _⟩ := alignedAlloc_near cs lrca.2 sizeRingData
  generalize edata : lrca.2.alignedAlloc sizeRingData cs.alignment = data at hdata
  unfold ringSize at hn2
  have ring_lrca : Apart ring.1 ringSize lrca.1 cs.sizeLRCA := by
    unfold Apart distance ringSize
    omega
  have ring_data : Apart ring.1 ringSize data.1 sizeRingData := by
    unfold Apart distance ringSize sizeRingData
    omega
  have lrca_data : Apart lrca.1 cs.sizeLRCA data.1 sizeRingData := by
    unfold Apart distance sizeRingData
    omega
  have hreg := initialLRCA_registers cs s.context ring.1
  have notLive : ¬ (none : Option Bytes).isSome = true := by decide
  by_cases enabled : cs.isRingDataEnabled = true
  · simp only [initializeContext, released, ehwsp, efence, ering, elrca, edata, if_neg notLive,
      if_pos enabled]
    constructor
    · exact fun _ => ⟨⟨_, rfl⟩, .inl ⟨⟨_, rfl⟩, enabled⟩⟩
    · exact ⟨ring_lrca, fun _ => ring_data, fun _ => lrca_data⟩
    · rintro h (⟨⟨⟩⟩ | ⟨_, ⟨⟩⟩)
      · exact holds_writeBytes _ _ _ (by omega)
      · have held := holds_writeBytes (writeBytes s.memory fence.1 4
          (setDword (fun _ => 0) 0 s.context.contextFenceValue)) data.1 (n := sizeRingData)
          (cs.initializeRingData ring.1) (by decide)
        exact held.frame (o := 0) lrca_data (by omega)
    · rintro h (⟨⟨⟩⟩ | ⟨_, ⟨⟩⟩)
      · exact setIndirectRingState_registers data.1 hreg
      · exact initializeRingData_registers cs ring.1
    all_goals rfl
  · simp only [initializeContext, released, ehwsp, efence, ering, elrca, if_neg notLive,
      if_neg enabled]
    constructor
    · exact fun h => ⟨⟨_, rfl⟩, .inr ⟨h.resolve_left enabled, by simpa using enabled⟩⟩
    · exact ⟨ring_lrca, fun h => absurd h enabled, fun h => absurd h enabled⟩
    · rintro h (⟨⟨⟩⟩ | ⟨h', _⟩)
      · exact holds_writeBytes _ _ _ (by omega)
      · exact absurd h' enabled
    · rintro h (⟨⟨⟩⟩ | ⟨h', _⟩)
      · exact hreg
      · exact absurd h' enabled
    all_goals rfl

theorem setRingRegisters_outside {base ringHead ringTail k : Nat} {overrideRingHead : Bool}
    {p : Bytes}
    (h : k < base + (if overrideRingHead then offsetRingHead else offsetRingTail) ∨
      base + (if overrideRingHead then offsetRingHead else offsetRingTail) +
        (if overrideRingHead then 16 else 8) ≤ k) :
    setRingRegisters cs base overrideRingHead ringHead ringTail p k = p k := by
  simp only [offsetRingHead, offsetRingTail] at h
  cases overrideRingHead with
  | true =>
    simp only [if_true] at h
    have htail : k < base + offsetRingTail ∨ base + offsetRingTail + 8 ≤ k := by
      unfold offsetRingTail
      omega
    have hhead : k < base + offsetRingHead ∨ base + offsetRingHead + 8 ≤ k := by
      unfold offsetRingHead
      omega
    exact (setRegister_outside htail).trans (setRegister_outside hhead)
  | false => exact setRegister_outside h

theorem setRingRegisters_tail (base ringHead : Nat) (overrideRingHead : Bool) (p : Bytes)
    {ringTail : Nat} (h : ringTail < 2 ^ 32) :
    getDword (setRingRegisters cs base overrideRingHead ringHead ringTail p)
      (base + offsetRingTail + 4) = ringTail := by
  cases overrideRingHead <;> exact getDword_setRegister _ _ _ _ h

theorem setRingRegisters_head (base ringTail : Nat) (overrideRingHead : Bool) (p : Bytes)
    {ringHead : Nat} (h : ringHead < 2 ^ 32) :
    getDword (setRingRegisters cs base overrideRingHead ringHead ringTail p)
      (base + offsetRingHead + 4) =
        if overrideRingHead then ringHead else getDword p (base + offsetRingHead + 4) := by
  have apart : base + offsetRingTail + 8 ≤ base + offsetRingHead + 4 ∨
      base + offsetRingHead + 4 + 4 ≤ base + offsetRingTail := by
    unfold offsetRingHead offsetRingTail
    omega
  cases overrideRingHead with
  | true => exact (getDword_setRegister_ne apart).trans (getDword_setRegister _ _ _ _ h)
  | false => exact getDword_setRegister_ne apart

/-- The part of a copy that `setRingRegisters` changes is the part that is streamed. -/
theorem writeRingRegisters_holds {m : Bytes} {h : HostCopy} (fits : h.Fits)
    (held : Holds m h.gfxAddress h.size h.bytes) (overrideRingHead : Bool)
    (ringHead ringTail : Nat) :
    let p := setRingRegisters cs h.registers overrideRingHead ringHead ringTail h.bytes
    Holds (writeRingRegisters h.registers overrideRingHead h.gfxAddress p m) h.gfxAddress h.size
      p := by
  obtain ⟨hin, hsize⟩ := fits
  refine Holds.patch held hsize ?_ fun i hi => setRingRegisters_outside hi
  cases overrideRingHead with
  | true => exact hin
  | false => exact Nat.le_trans (by simp only [Bool.false_eq_true, if_false, offsetRingTail]; omega) hin

theorem writeRingRegisters_frame {m : Bytes} {h : HostCopy} (fits : h.Fits) {b n i : Nat}
    (apart : Apart h.gfxAddress h.size b n) (hi : i < n) (overrideRingHead : Bool) (p : Bytes) :
    writeRingRegisters h.registers overrideRingHead h.gfxAddress p m ((b + i) % 2 ^ 32) =
      m ((b + i) % 2 ^ 32) := by
  obtain ⟨hin, _⟩ := fits
  unfold writeRingRegisters
  refine writeBytes_apart apart (Nat.le_trans ?_ hin) hi
  cases overrideRingHead
  · simp only [Bool.false_eq_true, if_false, offsetRingTail]
    omega
  · simp only [if_true, offsetRingHead]
    omega

/-- What carrying the tail over to the host copies does. -/
structure Updated (cs : CommandStreamerHelper) (overrideRingHead : Bool) (ringHead : Nat)
    (s s' : HwState) : Prop where
  context : s'.context =
    { s.context with pLRCA := s'.context.pLRCA, pRingData := s'.context.pRingData }
  ringEvents : s'.ringEvents = s.ringEvents
  submissions : s'.submissions = s.submissions
  ready : Ready cs s'.context
  ring : ∀ i, i < ringSize → s'.memory ((s.context.ggttRing + i) % 2 ^ 32) =
    s.memory ((s.context.ggttRing + i) % 2 ^ 32)
  streamed : Streamed cs s → Streamed cs s'
  registers : ∀ h', IsCopy cs s'.context h' → ∃ h, IsCopy cs s.context h ∧
    h'.ringTail = s.context.ringTail ∧
    h'.ringHead = if overrideRingHead then ringHead else h.ringHead

theorem Updated.ringTail {o : Bool} {head : Nat} {s s' : HwState} (u : Updated cs o head s s') :
    s'.context.ringTail = s.context.ringTail := by rw [u.context]

theorem Updated.contextFenceValue {o : Bool} {head : Nat} {s s' : HwState}
    (u : Updated cs o head s s') : s'.context.contextFenceValue = s.context.contextFenceValue :=
  by rw [u.context]

theorem Updated.ggttRing {o : Bool} {head : Nat} {s s' : HwState} (u : Updated cs o head s s') :
    s'.context.ggttRing = s.context.ggttRing := by rw [u.context]

theorem Updated.placed {o : Bool} {head : Nat} {s s' : HwState} (u : Updated cs o head s s')
    (placed : Placed cs s.context) : Placed cs s'.context :=
  placed.congr u.ggttRing (by rw [u.context]) (by rw [u.context])

theorem update_updated {s : HwState} (ready : Ready cs s.context) (placed : Placed cs s.context)
    (tail_lt : s.context.ringTail < 2 ^ 32) (overrideRingHead : Bool) {ringHead : Nat}
    (head_lt : ringHead < 2 ^ 32) :
    ∃ s', (updateLRCA cs overrideRingHead ringHead s).bind
        (updateRingData cs overrideRingHead ringHead) = some s' ∧
      Updated cs overrideRingHead ringHead s s' := by
  obtain ⟨⟨p, hp⟩, data⟩ := ready
  have lrca : IsCopy cs s.context _ := .lrca hp
  have lrca_ring := placed.ring_lrca.symm (by decide)
  rcases data with ⟨⟨q, hq⟩, enabled⟩ | ⟨hnull, disabled⟩
  · have data := IsCopy.ringData enabled hq
    have data_ring := (placed.ring_data enabled).symm (by decide)
    have lrca_data := placed.lrca_data enabled
    have data_lrca := lrca_data.symm (Nat.lt_of_lt_of_le (by decide) cs.sizeLRCA_bounds.1)
    simp only [updateLRCA, hp, Option.bind_some, updateRingData, hq, if_pos enabled]
    refine ⟨_, rfl, ?_⟩
    constructor
    · rfl
    · rfl
    · rfl
    · exact ⟨⟨_, rfl⟩, .inl ⟨⟨_, rfl⟩, enabled⟩⟩
    · intro i hi
      exact (writeRingRegisters_frame data.fits data_ring hi _ _).trans
        (writeRingRegisters_frame lrca.fits lrca_ring hi _ _)
    · rintro streamed h' (⟨⟨⟩⟩ | ⟨_, ⟨⟩⟩)
      · intro i hi
        exact (writeRingRegisters_frame data.fits data_lrca hi _ _).trans
          (writeRingRegisters_holds lrca.fits (streamed _ lrca) _ _ _ i hi)
      · refine writeRingRegisters_holds data.fits (fun i hi => ?_) _ _ _
        exact (writeRingRegisters_frame lrca.fits lrca_data hi _ _).trans (streamed _ data i hi)
    · rintro h' (⟨⟨⟩⟩ | ⟨_, ⟨⟩⟩)
      · exact ⟨_, lrca, setRingRegisters_tail _ _ _ _ tail_lt, setRingRegisters_head _ _ _ _ head_lt⟩
      · exact ⟨_, data, setRingRegisters_tail _ _ _ _ tail_lt, setRingRegisters_head _ _ _ _ head_lt⟩
  · have notEnabled : ¬ cs.isRingDataEnabled = true := by simp [disabled]
    simp only [updateLRCA, hp, Option.bind_some, updateRingData, hnull, if_neg notEnabled]
    refine ⟨_, rfl, ?_⟩
    constructor
    · rfl
    · rfl
    · rfl
    · exact ⟨⟨_, rfl⟩, .inr ⟨rfl, disabled⟩⟩
    · intro i hi
      exact writeRingRegisters_frame lrca.fits lrca_ring hi _ _
    · rintro streamed h' (⟨⟨⟩⟩ | ⟨enabled, _⟩)
      · exact writeRingRegisters_holds lrca.fits (streamed _ lrca) _ _ _
      · exact absurd enabled notEnabled
    · rintro h' (⟨⟨⟩⟩ | ⟨enabled, _⟩)
      · exact ⟨_, lrca, setRingRegisters_tail _ _ _ _ tail_lt, setRingRegisters_head _ _ _ _ head_lt⟩
      · exact absurd enabled notEnabled

/-- Writing within the ring leaves the blocks of the host copies alone. -/
theorem Streamed.ringWrite {s s' : HwState} (streamed : Streamed cs s)
    (placed : Placed cs s.context) {o n : Nat} {data : Bytes} (hin : o + n ≤ ringSize)
    (lrca : s'.context.pLRCA = s.context.pLRCA) (ringData : s'.context.pRingData = s.context.pRingData)
    (ggttLRCA : s'.context.ggttLRCA = s.context.ggttLRCA)
    (address : s'.context.ringData = s.context.ringData)
    (memory : s'.memory = writeBytes s.memory (s.context.ggttRing + o) n data) : Streamed cs s' := by
  rintro h (hp | ⟨enabled, hq⟩)
  · rw [memory, ggttLRCA]
    exact (streamed _ (.lrca (lrca ▸ hp))).frame placed.ring_lrca hin
  · rw [memory, address]
    exact (streamed _ (.ringData enabled (ringData ▸ hq))).frame (placed.ring_data enabled) hin

theorem ringCommands_length (cs : CommandStreamerHelper) (c : HardwareContextImp)
    (gfxAddress : Nat) :
    (ringCommands cs c gfxAddress).length = commandDwords cs.addFlushCommands := by
  have hlen : (cs.addBatchBufferJump gfxAddress ++ cs.addFlushCommands ++
      storeFenceValue c.ggttContextFence (wrap32 (c.contextFenceValue + 1))).length =
        10 + cs.addFlushCommands.length := by
    simp only [CommandStreamerHelper.addBatchBufferJump, storeFenceValue, List.length_append,
      List.length_cons, List.length_nil]
    omega
  unfold ringCommands commandDwords
  rw [apply_ite List.length, hlen, List.length_append, hlen, List.length_singleton]
  split <;> omega

/-- The tail that a submission writes its commands at. -/
theorem wrapRing_ringTail (cs : CommandStreamerHelper) (s : HwState) (size : Nat) :
    (wrapRing cs size s).context.ringTail =
      if ringSize ≤ s.context.ringTail + size then 0 else s.context.ringTail := by
  unfold wrapRing
  split <;> rfl

theorem wrapRing_ready {s : HwState} (ready : Ready cs s.context) (size : Nat) :
    Ready cs (wrapRing cs size s).context := by
  unfold wrapRing
  split
  · exact ready.congr rfl rfl
  · exact ready

theorem wrapRing_placed {s : HwState} (placed : Placed cs s.context) (size : Nat) :
    Placed cs (wrapRing cs size s).context := by
  unfold wrapRing
  split
  · exact placed.congr rfl rfl rfl
  · exact placed

theorem wrapRing_ggttRing (cs : CommandStreamerHelper) (s : HwState) (size : Nat) :
    (wrapRing cs size s).context.ggttRing = s.context.ggttRing := by
  unfold wrapRing
  split <;> rfl

theorem wrapRing_contextFenceValue (cs : CommandStreamerHelper) (s : HwState) (size : Nat) :
    (wrapRing cs size s).context.contextFenceValue = s.context.contextFenceValue := by
  unfold wrapRing
  split <;> rfl

theorem wrapRing_submissions (cs : CommandStreamerHelper) (s : HwState) (size : Nat) :
    (wrapRing cs size s).submissions = s.submissions := by
  unfold wrapRing
  split <;> rfl

theorem wrapRing_fits (cs : CommandStreamerHelper) (s : HwState) {size : Nat} (h : size < ringSize) :
    (wrapRing cs size s).context.ringTail + size < ringSize := by
  rw [wrapRing_ringTail]
  split <;> omega

theorem wrapRing_streamed {s : HwState} (streamed : Streamed cs s) (placed : Placed cs s.context)
    (tail_lt : s.context.ringTail < ringSize) (size : Nat) :
    Streamed cs (wrapRing cs size s) := by
  unfold wrapRing
  split
  · exact streamed.ringWrite placed (o := s.context.ringTail) (n := ringSize - s.context.ringTail)
      (by omega) rfl rfl rfl rfl (Eq.refl (writeBytes s.memory (s.context.ggttRing +
        s.context.ringTail) (ringSize - s.context.ringTail) fun _ => 0))
  · exact streamed

theorem writeCommands_streamed {s : HwState} (streamed : Streamed cs s)
    (placed : Placed cs s.context) {commands : List Nat}
    (fits : s.context.ringTail + 4 * commands.length ≤ ringSize) :
    Streamed cs (writeCommands commands s) :=
  streamed.ringWrite placed fits rfl rfl rfl rfl rfl

/-- A submission is a wrap, a write of the commands and an update of the host copies. -/
theorem submitBatchBuffer_updated {s : HwState} (ready : Ready cs s.context)
    (placed : Placed cs s.context) (gfxAddress : Nat) (overrideRingHead : Bool) :
    ∃ u, Updated cs overrideRingHead
        (wrapRing cs (4 * (ringCommands cs s.context gfxAddress).length) s).context.ringTail
        (writeCommands (ringCommands cs s.context gfxAddress)
          (wrapRing cs (4 * (ringCommands cs s.context gfxAddress).length) s)) u ∧
      submitBatchBuffer cs gfxAddress overrideRingHead s =
        some { u with ringEvents := .submitted u.submissions :: u.ringEvents } := by
  have short : 4 * (ringCommands cs s.context gfxAddress).length < ringSize := by
    rw [ringCommands_length]
    exact cs.shorter
  have fits := wrapRing_fits cs s short
  have hready := wrapRing_ready ready (4 * (ringCommands cs s.context gfxAddress).length)
  have hplaced := wrapRing_placed placed (4 * (ringCommands cs s.context gfxAddress).length)
  generalize ew : wrapRing cs (4 * (ringCommands cs s.context gfxAddress).length) s = w at *
  generalize ec : ringCommands cs s.context gfxAddress = commands at *
  unfold ringSize at fits
  have tail_lt : (writeCommands commands w).context.ringTail < 2 ^ 32 := by
    simp only [writeCommands]
    omega
  obtain ⟨u, done, updated⟩ := update_updated (s := writeCommands commands w)
    (hready.congr rfl rfl) (hplaced.congr rfl rfl rfl) tail_lt overrideRingHead
    (show w.context.ringTail < 2 ^ 32 by omega)
  refine ⟨u, updated, ?_⟩
  simp only [submitBatchBuffer, ew, ec, Option.bind_eq_bind, Option.pure_def]
  rw [← Option.bind_assoc, done, Option.bind_some]

end

end ContextBlocks
