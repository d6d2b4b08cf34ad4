import Aubstream.HardwareContext

/-!
# Submission of a context group

A group is submitted as one exec list with a descriptor for each slot. The list
goes through eight register pairs or, descriptor by descriptor, through a port.
-/

namespace GroupSubmission
open HardwareContext

/-- `MiContextDescriptorReg::sData`. -/
structure ContextDescriptor where
  Valid : Nat
  ForcePageDirRestore : Nat
  ForceRestore : Nat
  Legacy : Nat
  ADor64bitSupport : Nat
  LlcCoherencySupport : Nat
  FaultSupport : Nat
  PrivilegeAccessOrPPGTT : Nat
  FunctionType : Nat
  LogicalRingCtxAddress : Nat
  Reserved : Nat
  ContextID : Nat
  Reserved2 : Nat

namespace ContextDescriptor

def empty : ContextDescriptor := ⟨0, 0, 0, 0, 0, 0, 0, 0, 0, 0, 0, 0, 0⟩

/-- The fields in their bits. -/
def qwordData (d : ContextDescriptor) : Nat :=
  d.Valid % 2 + 2 ^ 1 * (d.ForcePageDirRestore % 2) + 2 ^ 2 * (d.ForceRestore % 2) +
    2 ^ 3 * (d.Legacy % 2) + 2 ^ 4 * (d.ADor64bitSupport % 2) +
    2 ^ 5 * (d.LlcCoherencySupport % 2) + 2 ^ 6 * (d.FaultSupport % 2 ^ 2) +
    2 ^ 8 * (d.PrivilegeAccessOrPPGTT % 2) + 2 ^ 9 * (d.FunctionType % 2 ^ 3) +
    2 ^ 12 * (d.LogicalRingCtxAddress % 2 ^ 20) + 2 ^ 32 * (d.Reserved % 2 ^ 7) +
    2 ^ 39 * (d.ContextID % 2 ^ 16) + 2 ^ 55 * (d.Reserved2 % 2 ^ 9)

def ulData0 (d : ContextDescriptor) : Nat := d.qwordData % 2 ^ 32

def ulData1 (d : ContextDescriptor) : Nat := d.qwordData / 2 ^ 32

end ContextDescriptor

/-- The overrides of `submitContext` and `setPriority`. -/
inductive CoreFamily where
  | gen12LP
  | xeHpgCore
  | xeCore
  | xe3pCore
  deriving DecidableEq

namespace CoreFamily

/-- `setting` is `ExeclistSubmitPortSubmission`. -/
def isExeclistSubmissionEnabled (setting : Int) : CoreFamily → Bool
  | gen12LP => false
  | xeHpgCore => if setting ≠ -1 then setting != 0 else false
  | xeCore => false
  | xe3pCore => if setting ≠ -1 then setting != 0 else true

def getContextGroupCount : CoreFamily → Nat
  | xe3pCore => 64
  | _ => 8

/-- Not all families have priorities. -/
def hasPriority : CoreFamily → Bool
  | xeCore => true
  | xe3pCore => true
  | _ => false

def setPriority (family : CoreFamily) (d : ContextDescriptor) (priority : Nat) :
    ContextDescriptor :=
  if family.hasPriority ∧ priority ≠ 0 then { d with FunctionType := priority % 4 } else d

end CoreFamily

/-- What a submission reads of a member of the group. -/
structure Member where
  ggttLRCA : Nat
  contextId : Nat
  priority : Nat
  ggttLRCA_lt : ggttLRCA < 2 ^ 32

/-- An offset and the value that is written to it. -/
abbrev MMIOWrite := Nat × Nat

section
variable (family : CoreFamily) (setting : Int) (mmioEngine : Nat)

def execlistRegister (i : Nat) : Nat := wrap32 (mmioEngine + 0x2510 + i * 8)

def execlistRegisterUpper (i : Nat) : Nat := wrap32 (mmioEngine + 0x2514 + i * 8)

def submitPort : Nat := wrap32 (mmioEngine + 0x2230)

def loadRegister : Nat := wrap32 (mmioEngine + 0x2550)

def writeRegisters (ds : List ContextDescriptor) : List MMIOWrite :=
  (List.range ds.length).flatMap fun i =>
    let d := ds.getD i .empty
    [(execlistRegister mmioEngine i, d.ulData0), (execlistRegisterUpper mmioEngine i, d.ulData1)]

def writePort (ds : List ContextDescriptor) : List MMIOWrite :=
  ds.flatMap fun d => [(submitPort mmioEngine, d.ulData0), (submitPort mmioEngine, d.ulData1)]

/-- `none` where the source reads past the end of the descriptors or asserts their number. -/
def submitContext (contextDescriptor : List ContextDescriptor) : Option (List MMIOWrite) :=
  let load := [(loadRegister mmioEngine, 1)]
  match family with
  | .xe3pCore =>
    if family.isExeclistSubmissionEnabled setting then
      if contextDescriptor.length ≤ 64 then some (writePort mmioEngine contextDescriptor ++ load)
      else none
    else if 8 ≤ contextDescriptor.length then
      some (writeRegisters mmioEngine (contextDescriptor.take 8) ++ load)
    else none
  | _ =>
    if contextDescriptor.length ≤ 8 then
      if family.isExeclistSubmissionEnabled setting then
        some (writePort mmioEngine contextDescriptor ++ load)
      else if 8 ≤ contextDescriptor.length then
        some (writeRegisters mmioEngine (contextDescriptor.take 8) ++ load)
      else none
    else none

def describe (is48Bits : Bool) (c : Member) : ContextDescriptor :=
  family.setPriority { ContextDescriptor.empty with
    Valid := 1
    Legacy := 1
    PrivilegeAccessOrPPGTT := 1
    ADor64bitSupport := is48Bits.toNat
    LogicalRingCtxAddress := c.ggttLRCA / 4096
    ContextID := c.contextId } c.priority

/-- `CommandStreamerHelper::submit` of `ContextGroup::contexts`. -/
def submit (hwContexts : List (Option Member)) (is48Bits : Bool) : Option (List MMIOWrite) :=
  submitContext family setting mmioEngine <| hwContexts.map fun
    | none => .empty
    | some c => describe family is48Bits c

end

/-- Everything that is written to an offset, in order. -/
def valuesAt (writes : List MMIOWrite) (offset : Nat) : List Nat :=
  (writes.filter fun w => w.1 = offset).map Prod.snd

def qwordOf (lower upper : Nat) : Nat := lower + 2 ^ 32 * upper

/-- The descriptor that a register pair is given, if both halves are written once. -/
def registerDescriptor (mmioEngine : Nat) (writes : List MMIOWrite) (i : Nat) : Option Nat :=
  match valuesAt writes (execlistRegister mmioEngine i),
    valuesAt writes (execlistRegisterUpper mmioEngine i) with
  | [lower], [upper] => some (qwordOf lower upper)
  | _, _ => none

/-- The port takes the lower half of each descriptor first. -/
def portDescriptor (mmioEngine : Nat) (writes : List MMIOWrite) (i : Nat) : Option Nat :=
  match (valuesAt writes (submitPort mmioEngine))[2 * i]?,
    (valuesAt writes (submitPort mmioEngine))[2 * i + 1]? with
  | some lower, some upper => some (qwordOf lower upper)
  | _, _ => none

/-- The descriptor of a slot that the engine is given. There are eight register pairs. -/
def descriptorAt (port : Bool) (mmioEngine : Nat) (writes : List MMIOWrite) (i : Nat) : Option Nat :=
  if port then portDescriptor mmioEngine writes i
  else if i < 8 then registerDescriptor mmioEngine writes i else none

/-- The descriptor is valid and has the member's own values, in the width of their fields. -/
structure Describes (family : CoreFamily) (c : Member) (descriptor : Nat) : Prop where
  complete : descriptor < 2 ^ 64
  valid : descriptor % 2 = 1
  lrca : descriptor / 2 ^ 12 % 2 ^ 20 = c.ggttLRCA / 4096
  contextID : descriptor / 2 ^ 39 % 2 ^ 16 = c.contextId % 2 ^ 16
  priority : descriptor / 2 ^ 9 % 2 ^ 3 = if family.hasPriority then c.priority % 4 else 0

/-- Every member is submitted, and nothing else, with one load. -/
structure CoversGroup (family : CoreFamily) (port : Bool) (mmioEngine : Nat)
    (hwContexts : List (Option Member)) (writes : List MMIOWrite) : Prop where
  members : ∀ i c, hwContexts[i]? = some (some c) →
    ∃ d, descriptorAt port mmioEngine writes i = some d ∧ Describes family c d
  empty : ∀ i, hwContexts[i]? = some none → ∀ d, descriptorAt port mmioEngine writes i = some d →
    d = 0
  inside : ∀ i d, descriptorAt port mmioEngine writes i = some d → i < hwContexts.length
  loadsLast : writes.getLast? = some (loadRegister mmioEngine, 1)
  loadsOnce : valuesAt writes (loadRegister mmioEngine) = [1]

theorem describe_describes (family : CoreFamily) (is48Bits : Bool) (c : Member) :
    Describes family c (qwordOf (describe family is48Bits c).ulData0
      (describe family is48Bits c).ulData1) := by
  have hlrca := c.ggttLRCA_lt
  have hbits : is48Bits.toNat ≤ 1 := Bool.toNat_le is48Bits
  have hqword : ∃ functionType, functionType = (if family.hasPriority then c.priority % 4 else 0) ∧
      (describe family is48Bits c).qwordData = 1 + 2 ^ 3 + 2 ^ 4 * is48Bits.toNat + 2 ^ 8 +
        2 ^ 9 * functionType + 2 ^ 12 * (c.ggttLRCA / 4096) + 2 ^ 39 * (c.contextId % 2 ^ 16) := by
    refine ⟨_, rfl, ?_⟩
    simp only [describe, CoreFamily.setPriority, ContextDescriptor.empty]
    split
    · rename_i hpriority
      rw [if_pos hpriority.1]
      simp only [ContextDescriptor.qwordData]
      omega
    · rename_i hnone
      have hzero : (if family.hasPriority then c.priority % 4 else 0) = 0 := by
        split
        · rename_i h
          have : c.priority = 0 := by
            by_contra hne
            exact hnone ⟨h, hne⟩
          omega
        · rfl
      rw [hzero]
      simp only [ContextDescriptor.qwordData]
      omega
  obtain ⟨functionType, htype, hqword⟩ := hqword
  have hsmall : functionType < 4 := by
    rw [htype]
    split
    · exact Nat.mod_lt _ (by decide)
    · decide
  have hwhole : qwordOf (describe family is48Bits c).ulData0
      (describe family is48Bits c).ulData1 = (describe family is48Bits c).qwordData := by
    simp only [qwordOf, ContextDescriptor.ulData0, ContextDescriptor.ulData1]
    omega
  rw [hwhole, hqword]
  refine ⟨by omega, by omega, by omega, by omega, ?_⟩
  rw [← htype]
  omega

theorem valuesAt_append (writes writes' : List MMIOWrite) (offset : Nat) :
    valuesAt (writes ++ writes') offset = valuesAt writes offset ++ valuesAt writes' offset := by
  simp only [valuesAt, List.filter_append, List.map_append]

/-- One of the rounds of a loop writes to the offset. -/
theorem valuesAt_range {n i x offset : Nat} {f : Nat → List MMIOWrite}
    (h : ∀ j, j < n → valuesAt (f j) offset = if j = i then [x] else []) :
    valuesAt ((List.range n).flatMap f) offset = if i < n then [x] else [] := by
  induction n with
  | zero => rfl
  | succ n ih =>
    rw [List.range_succ, List.flatMap_append, valuesAt_append, ih fun j hj => h j (by omega),
      List.flatMap_singleton, h n (Nat.lt_succ_self n)]
    rcases Nat.lt_trichotomy i n with hi | rfl | hi
    · rw [if_pos hi, if_neg (by omega), if_pos (by omega), List.append_nil]
    · rw [if_neg (Nat.lt_irrefl i), if_pos rfl, if_pos (Nat.lt_succ_self i), List.nil_append]
    · rw [if_neg (by omega), if_neg (by omega), if_neg (by omega), List.append_nil]

section
variable {mmioEngine i : Nat} {ds : List ContextDescriptor}

theorem valuesAt_pair (a x b y offset : Nat) : valuesAt [(a, x), (b, y)] offset =
    (if a = offset then [x] else []) ++ if b = offset then [y] else [] := by
  unfold valuesAt
  by_cases ha : a = offset <;> by_cases hb : b = offset <;> simp [List.filter, ha, hb]

theorem valuesAt_writeRegisters (short : ds.length ≤ 8) (hi : i < 8) :
    valuesAt (writeRegisters mmioEngine ds) (execlistRegister mmioEngine i) =
        (if i < ds.length then [(ds.getD i .empty).ulData0] else []) ∧
      valuesAt (writeRegisters mmioEngine ds) (execlistRegisterUpper mmioEngine i) =
        if i < ds.length then [(ds.getD i .empty).ulData1] else [] := by
  unfold writeRegisters
  constructor
  · refine valuesAt_range fun j hj => ?_
    have hupper : execlistRegisterUpper mmioEngine j ≠ execlistRegister mmioEngine i := by
      unfold execlistRegister execlistRegisterUpper wrap32
      omega
    rw [valuesAt_pair, if_neg hupper, List.append_nil]
    by_cases hji : j = i
    · rw [hji, if_pos rfl, if_pos rfl]
    · have hlower : execlistRegister mmioEngine j ≠ execlistRegister mmioEngine i := by
        unfold execlistRegister wrap32
        omega
      rw [if_neg hlower, if_neg hji]
  · refine valuesAt_range fun j hj => ?_
    have hlower : execlistRegister mmioEngine j ≠ execlistRegisterUpper mmioEngine i := by
      unfold execlistRegister execlistRegisterUpper wrap32
      omega
    rw [valuesAt_pair, if_neg hlower, List.nil_append]
    by_cases hji : j = i
    · rw [hji, if_pos rfl, if_pos rfl]
    · have hupper : execlistRegisterUpper mmioEngine j ≠ execlistRegisterUpper mmioEngine i := by
        unfold execlistRegisterUpper wrap32
        omega
      rw [if_neg hupper, if_neg hji]

theorem valuesAt_writeRegisters_load (short : ds.length ≤ 8) :
    valuesAt (writeRegisters mmioEngine ds) (loadRegister mmioEngine) = [] := by
  have h : valuesAt (writeRegisters mmioEngine ds) (loadRegister mmioEngine) =
      if ds.length < ds.length then [0] else [] := by
    refine valuesAt_range fun j hj => ?_
    have hlower : execlistRegister mmioEngine j ≠ loadRegister mmioEngine := by
      unfold execlistRegister loadRegister wrap32
      omega
    have hupper : execlistRegisterUpper mmioEngine j ≠ loadRegister mmioEngine := by
      unfold execlistRegisterUpper loadRegister wrap32
      omega
    rw [valuesAt_pair, if_neg hlower, if_neg hupper, if_neg (Nat.ne_of_lt hj)]
    rfl
  rwa [if_neg (Nat.lt_irrefl _)] at h

theorem valuesAt_writePort :
    valuesAt (writePort mmioEngine ds) (submitPort mmioEngine) =
        ds.flatMap (fun d => [d.ulData0, d.ulData1]) ∧
      valuesAt (writePort mmioEngine ds) (loadRegister mmioEngine) = [] := by
  have hload : submitPort mmioEngine ≠ loadRegister mmioEngine := by
    unfold submitPort loadRegister wrap32
    omega
  induction ds with
  | nil => exact ⟨rfl, rfl⟩
  | cons d rest ih =>
    simp only [writePort, List.flatMap_cons] at ih ⊢
    rw [valuesAt_append, valuesAt_append, ih.1, ih.2, valuesAt_pair, valuesAt_pair, if_pos rfl,
      if_pos rfl, if_neg hload, if_neg hload]
    exact ⟨rfl, rfl⟩

/-- Two values for each element, in order. -/
theorem getElem?_flatMap_pair {α : Type} (f g : α → Nat) (l : List α) (i : Nat) :
    (l.flatMap fun x => [f x, g x])[2 * i]? = l[i]?.map f ∧
      (l.flatMap fun x => [f x, g x])[2 * i + 1]? = l[i]?.map g := by
  induction l generalizing i with
  | nil => exact ⟨rfl, rfl⟩
  | cons x rest ih =>
    cases i with
    | zero => exact ⟨rfl, rfl⟩
    | succ i =>
      rw [List.flatMap_cons]
      exact ih i

theorem valuesAt_load (offset : Nat) :
    valuesAt [(loadRegister mmioEngine, 1)] offset =
      if loadRegister mmioEngine = offset then [1] else [] := by
  by_cases h : loadRegister mmioEngine = offset <;> simp [valuesAt, List.filter, h]

/-- What the engine is given through the port: all descriptors. -/
theorem descriptorAt_port (i : Nat) :
    descriptorAt true mmioEngine (writePort mmioEngine ds ++ [(loadRegister mmioEngine, 1)]) i =
      ds[i]?.map fun d => qwordOf d.ulData0 d.ulData1 := by
  have hload : loadRegister mmioEngine ≠ submitPort mmioEngine := by
    unfold submitPort loadRegister wrap32
    omega
  have hvalues : valuesAt (writePort mmioEngine ds ++ [(loadRegister mmioEngine, 1)])
      (submitPort mmioEngine) = ds.flatMap fun d => [d.ulData0, d.ulData1] := by
    rw [valuesAt_append, valuesAt_load, if_neg hload, List.append_nil]
    exact valuesAt_writePort.1
  obtain ⟨hlower, hupper⟩ := getElem?_flatMap_pair ContextDescriptor.ulData0
    ContextDescriptor.ulData1 ds i
  rw [descriptorAt, if_pos rfl, portDescriptor, hvalues, hlower, hupper]
  cases ds[i]? <;> rfl

/-- Through the registers: the first eight. -/
theorem descriptorAt_registers (i : Nat) :
    descriptorAt false mmioEngine
        (writeRegisters mmioEngine (ds.take 8) ++ [(loadRegister mmioEngine, 1)]) i =
      (ds.take 8)[i]?.map fun d => qwordOf d.ulData0 d.ulData1 := by
  have short : (ds.take 8).length ≤ 8 := by
    rw [List.length_take]
    omega
  generalize ds.take 8 = first at short ⊢
  rw [descriptorAt, if_neg Bool.false_ne_true]
  by_cases hi : i < 8
  · have hlower : loadRegister mmioEngine ≠ execlistRegister mmioEngine i := by
      unfold loadRegister execlistRegister wrap32
      omega
    have hupper : loadRegister mmioEngine ≠ execlistRegisterUpper mmioEngine i := by
      unfold loadRegister execlistRegisterUpper wrap32
      omega
    obtain ⟨hvalues, hvalues'⟩ := @valuesAt_writeRegisters mmioEngine i first short hi
    rw [if_pos hi, registerDescriptor, valuesAt_append, valuesAt_append, valuesAt_load,
      valuesAt_load, if_neg hlower, if_neg hupper, List.append_nil, List.append_nil, hvalues,
      hvalues']
    by_cases hlen : i < first.length
    · rw [if_pos hlen, if_pos hlen, List.getElem?_eq_getElem hlen, List.getD_eq_getElem _ _ hlen]
      rfl
    · rw [if_neg hlen, if_neg hlen, List.getElem?_eq_none (by omega)]
      rfl
  · rw [if_neg hi, List.getElem?_eq_none (by omega)]
    rfl

end

/-- The descriptor of a slot. -/
def slotDescriptor (family : CoreFamily) (is48Bits : Bool) : Option Member → ContextDescriptor
  | none => .empty
  | some c => describe family is48Bits c

section
variable {family : CoreFamily} {setting : Int} {mmioEngine : Nat}
  {hwContexts : List (Option Member)} {is48Bits : Bool}

/-- A whole group is submitted without an assertion failing. -/
theorem submit_some (size : hwContexts.length = family.getContextGroupCount) :
    submit family setting mmioEngine hwContexts is48Bits =
      some ((if family.isExeclistSubmissionEnabled setting then
          writePort mmioEngine (hwContexts.map (slotDescriptor family is48Bits))
        else writeRegisters mmioEngine ((hwContexts.map (slotDescriptor family is48Bits)).take 8)) ++
          [(loadRegister mmioEngine, 1)]) := by
  have hmap : (hwContexts.map fun
      | none => ContextDescriptor.empty
      | some c => describe family is48Bits c) = hwContexts.map (slotDescriptor family is48Bits) :=
    List.map_congr_left fun x _ => by cases x <;> rfl
  have hlength : (hwContexts.map (slotDescriptor family is48Bits)).length =
      family.getContextGroupCount := by rw [List.length_map, size]
  rw [submit, hmap]
  generalize hwContexts.map (slotDescriptor family is48Bits) = ds at hlength ⊢
  cases hport : family.isExeclistSubmissionEnabled setting <;> cases family <;>
    simp [submitContext, hport, hlength, CoreFamily.getContextGroupCount]

/-- The slots whose descriptors the engine is given, and what they are. -/
theorem descriptorAt_submit {writes : List MMIOWrite}
    (size : hwContexts.length = family.getContextGroupCount)
    (h : submit family setting mmioEngine hwContexts is48Bits = some writes) (i : Nat) :
    descriptorAt (family.isExeclistSubmissionEnabled setting) mmioEngine writes i =
      if family.isExeclistSubmissionEnabled setting = true ∨ i < 8 then
        hwContexts[i]?.map fun x => qwordOf (slotDescriptor family is48Bits x).ulData0
          (slotDescriptor family is48Bits x).ulData1
      else none := by
  rw [submit_some size] at h
  obtain rfl := Option.some.inj h
  cases hport : family.isExeclistSubmissionEnabled setting with
  | true =>
    rw [if_pos rfl, if_pos (Or.inl rfl), descriptorAt_port, List.getElem?_map, Option.map_map]
    rfl
  | false =>
    rw [if_neg Bool.false_ne_true, descriptorAt_registers]
    by_cases hi : i < 8
    · rw [if_pos (Or.inr hi), List.getElem?_take_of_lt hi, List.getElem?_map, Option.map_map]
      rfl
    · have hlong : ((hwContexts.map (slotDescriptor family is48Bits)).take 8).length ≤ i := by
        rw [List.length_take]
        omega
      rw [if_neg (by simp [hi]), List.getElem?_eq_none hlong]
      rfl

/-- One load, behind everything else. -/
theorem submit_load {writes : List MMIOWrite}
    (size : hwContexts.length = family.getContextGroupCount)
    (h : submit family setting mmioEngine hwContexts is48Bits = some writes) :
    writes.getLast? = some (loadRegister mmioEngine, 1) ∧
      valuesAt writes (loadRegister mmioEngine) = [1] := by
  rw [submit_some size] at h
  obtain rfl := Option.some.inj h
  refine ⟨List.getLast?_concat .., ?_⟩
  rw [valuesAt_append, valuesAt_load, if_pos rfl]
  split
  · rw [valuesAt_writePort.2, List.nil_append]
  · have short : ((hwContexts.map (slotDescriptor family is48Bits)).take 8).length ≤ 8 := by
      rw [List.length_take]
      omega
    rw [valuesAt_writeRegisters_load short, List.nil_append]

end

/-- A group of nine members. -/
def nineMembers : List (Option Member) :=
  (List.range 64).map fun i => if i < 9 then some ⟨0x10000, i, 1, by decide⟩ else none

end GroupSubmission
