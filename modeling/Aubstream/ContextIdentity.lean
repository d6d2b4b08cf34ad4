import Aubstream.ContextLifetimes

/-!
# Which context an engine runs

A context takes its id from a counter of the process. The id goes into the descriptors
that an engine is given, and `isActive` looks for it in what the engine has.
-/

namespace ContextIdentity
open HardwareContext (wrap32)
open GroupSubmission Transitions ContextLifetimes AubManagerImp

/-- What else a constructor and `initialize` give a context. -/
structure Identity where
  mmioEngine : Nat
  is48Bits : Bool
  member : Member

/-- The descriptor that an engine was last given; the source has no `owner`. -/
structure Execution where
  owner : Nat
  descriptor : ContextDescriptor

/-- Engines are known by `mmioEngine`; `active` is the active bit of their status. -/
structure ContextRun where
  manager : AubManagerImp
  globalContextId : Nat
  identities : ContextPtr → Option Identity
  executions : Nat → Option Execution
  active : Nat → Bool

/-- Where a submission has several descriptors, `running` is the one that the engine takes up.
`setActive` is the engine's own. -/
inductive Op where
  | create (contextGroup : Option GroupPtr) (isRingDataEnabled : Bool) (mmioEngine : Nat)
      (is48Bits : Bool) (priority : Nat)
  | initializeContext (context : ContextPtr) (ggttLRCA : Fin (2 ^ 32))
  | release (context : ContextPtr)
  | destroy (context : ContextPtr)
  | submitBatchBuffer (context : ContextPtr) (running : Nat)
  | resubmit (context : ContextPtr) (running : Nat)
  | setActive (mmioEngine : Nat) (active : Bool)

namespace ContextRun

section
variable (family : CoreFamily) (s : ContextRun)

def create (contextGroup : Option GroupPtr) (isRingDataEnabled : Bool) (mmioEngine : Nat)
    (is48Bits : Bool) (priority : Nat) : ContextRun :=
  { s with
    manager := s.manager.create contextGroup isRingDataEnabled
    globalContextId := wrap32 (s.globalContextId + 1)
    identities := setAt s.identities s.manager.nextContext
      (some ⟨mmioEngine, is48Bits, ⟨2 ^ 32 - 1, s.globalContextId, priority, by decide⟩⟩) }

/-- The LRCA is only allocated for a context that has none. -/
def initializeContext (c : ContextPtr) (ggttLRCA : Fin (2 ^ 32)) : Option ContextRun :=
  (s.manager.initializeContext c).map fun m =>
    { s with
      manager := m
      identities := if ((s.manager.objects c).bind (·.pLRCA)).isSome then s.identities
        else setAt s.identities c ((s.identities c).map fun x =>
          { x with member := ⟨ggttLRCA, x.member.contextId, x.member.priority, ggttLRCA.isLt⟩ }) }

/-- The contexts that a context submits: those of its group, or itself in the first of eight slots. -/
def hwContexts (c : ContextPtr) (ctx : HardwareContextImp) : List (Option ContextPtr) :=
  match slotOf ctx with
  | none => some c :: List.replicate 7 none
  | some g => (s.manager.contextGroups g).contexts

/-- A slot that can be read: it is empty or its context is there. -/
def readable : Option ContextPtr → Bool
  | none => true
  | some c => (s.manager.objects c).isSome

def contextDescriptor (is48Bits : Bool) : Option ContextPtr → ContextDescriptor
  | none => .empty
  | some c => match s.identities c with
    | none => .empty
    | some x => describe family is48Bits x.member

/-- `csTraits.submit`, in both forms. -/
def submit (c : ContextPtr) (running : Nat) : Option ContextRun := do
  let ctx ← s.manager.objects c
  let x ← s.identities c
  let slots := s.hwContexts c ctx
  let owner ← slots[running]?.join
  let descriptor := s.contextDescriptor family x.is48Bits (some owner)
  if slots.all s.readable then
    some { s with executions := setAt s.executions x.mmioEngine (some ⟨owner, descriptor⟩) }
  else none

/-- A context that is not initialized has no LRCA to write to. -/
def submitBatchBuffer (c : ContextPtr) (running : Nat) : Option ContextRun :=
  if ((s.manager.objects c).bind (·.pLRCA)).isSome then s.submit family c running else none

def step : Op → Option ContextRun
  | .create contextGroup isRingDataEnabled mmioEngine is48Bits priority =>
    some (s.create contextGroup isRingDataEnabled mmioEngine is48Bits priority)
  | .initializeContext c ggttLRCA => s.initializeContext c ggttLRCA
  | .release c => (s.manager.release c).map fun m => { s with manager := m }
  | .destroy c => (s.manager.destroy c).map fun m => { s with manager := m }
  | .submitBatchBuffer c running => s.submitBatchBuffer family c running
  | .resubmit c running => s.submit family c running
  | .setActive mmioEngine active => some { s with active := setAt s.active mmioEngine active }

/-- Both halves of `EXECLIST_STATUS`: the words of the descriptor, with the active bit. -/
def execListStatus (mmioEngine : Nat) : Nat × Nat :=
  match s.executions mmioEngine with
  | none => (0, 0)
  | some e => (e.descriptor.ulData0 / 2 ^ 8 * 2 ^ 8 + (s.active mmioEngine).toNat * 2 ^ 7 +
      e.descriptor.ulData0 % 2 ^ 7, e.descriptor.ulData1)

def isActive (c : ContextPtr) : Option Bool := do
  let ctx ← s.manager.objects c
  let x ← s.identities c
  let status := s.execListStatus x.mmioEngine
  if ctx.contextGroupId ≠ invalidGroupId then some false
  else if status.1 &&& 0x80 = 0 then some false
  else some (status.2 >>> 7 == x.member.contextId)

end

end ContextRun

/-- A process that has created no context. -/
def newRun (count : Nat) : ContextRun :=
  ⟨newManager count, 0, fun _ => none, fun _ => none, fun _ => false⟩

/-- The field `ContextID`. -/
def contextIDOf (d : ContextDescriptor) : Nat := d.qwordData / 2 ^ 39 % 2 ^ 16

/-- The engine of a context holds a descriptor of its own. -/
def Runs (s : ContextRun) (c : ContextPtr) : Prop :=
  ∃ x e, s.identities c = some x ∧ s.executions x.mmioEngine = some e ∧
    s.active x.mmioEngine = true ∧ e.owner = c

/-- The descriptors of live contexts differ in their `ContextID`, and outside a group `isActive` tells
whether the engine runs the context. -/
structure Identified (family : CoreFamily) (s : ContextRun) : Prop where
  distinct : ∀ c c', (s.manager.objects c).isSome = true → (s.manager.objects c').isSome = true →
    c ≠ c' → ∀ is48Bits is48Bits', contextIDOf (s.contextDescriptor family is48Bits (some c)) ≠
      contextIDOf (s.contextDescriptor family is48Bits' (some c'))
  active : ∀ c ctx, s.manager.objects c = some ctx → ctx.contextGroupId = invalidGroupId →
    (s.isActive c = some true ↔ Runs s c)

/-- A context takes an id that fits its field. -/
def IdFits (s : ContextRun) : Op → Prop
  | .create _ _ _ _ _ => s.globalContextId < 2 ^ 16
  | _ => True

/-- The upper half of a descriptor is the id, above the bits of the address. -/
theorem describe_ulData1 (family : CoreFamily) (is48Bits : Bool) (c : Member) :
    (describe family is48Bits c).ulData1 / 2 ^ 7 = c.contextId % 2 ^ 16 := by
  have hbits : is48Bits.toNat ≤ 1 := Bool.toNat_le is48Bits
  simp only [describe, CoreFamily.setPriority, ContextDescriptor.empty]
  split <;> simp only [ContextDescriptor.ulData1, ContextDescriptor.qwordData] <;> omega

theorem contextIDOf_eq (d : ContextDescriptor) : contextIDOf d = d.ulData1 / 2 ^ 7 % 2 ^ 16 := by
  unfold contextIDOf ContextDescriptor.ulData1
  omega

theorem contextIDOf_describe (family : CoreFamily) (is48Bits : Bool) (c : Member) :
    contextIDOf (describe family is48Bits c) = c.contextId % 2 ^ 16 := by
  rw [contextIDOf_eq, describe_ulData1, Nat.mod_mod]

/-- No context appears, and no address is taken. -/
structure NoneNew (m m' : AubManagerImp) : Prop where
  nextContext : m'.nextContext = m.nextContext
  live : ∀ c, (m'.objects c).isSome = true → (m.objects c).isSome = true

theorem NoneNew.trans {m m' m'' : AubManagerImp} (h : NoneNew m m') (h' : NoneNew m' m'') :
    NoneNew m m'' :=
  ⟨h'.nextContext.trans h.nextContext, fun c hc => h.live c (h'.live c hc)⟩

theorem noneNew_sameLives {m m' : AubManagerImp} (h : SameLives m m') : NoneNew m m' :=
  ⟨h.nextContext, fun c hc => h.isSome c ▸ hc⟩

/-- An object is changed, or deleted. -/
theorem noneNew_setAt {m m' : AubManagerImp} {c : ContextPtr} {x : Option HardwareContextImp}
    (live : (m.objects c).isSome = true) (hobjects : m'.objects = setAt m.objects c x)
    (hnext : m'.nextContext = m.nextContext) : NoneNew m m' := by
  refine ⟨hnext, fun c' hc' => ?_⟩
  by_cases hsame : c' = c
  · rw [hsame]
    exact live
  · rwa [hobjects, setAt_ne _ _ hsame] at hc'

section
variable {m m' : AubManagerImp} {c : ContextPtr}

theorem initializeContext_noneNew (h : m.initializeContext c = some m') : NoneNew m m' := by
  unfold AubManagerImp.initializeContext at h
  cases hc : m.objects c with
  | none =>
    rw [hc] at h
    cases h
  | some ctx =>
    simp only [hc] at h
    split at h
    · obtain rfl := Option.some.inj h
      exact noneNew_sameLives (.refl m)
    · have hallocate : NoneNew m (allocateBuffers m c ctx) :=
        noneNew_setAt (by rw [hc]; rfl) rfl rfl
      exact hallocate.trans (noneNew_sameLives (enterGroup_sameLives h))

theorem release_noneNew (h : m.release c = some m') : NoneNew m m' := by
  unfold AubManagerImp.release at h
  cases hc : m.objects c with
  | none =>
    rw [hc] at h
    cases h
  | some ctx =>
    simp only [hc] at h
    have hdelete : NoneNew m (deleteBuffers m c ctx) := noneNew_setAt (by rw [hc]; rfl) rfl rfl
    exact hdelete.trans (noneNew_sameLives (leaveGroup_sameLives h))

theorem destroy_noneNew (h : m.destroy c = some m') : NoneNew m m' := by
  unfold AubManagerImp.destroy at h
  split at h
  · obtain ⟨m'', hrelease, rfl⟩ := Option.map_eq_some_iff.mp h
    have hkept : NoneNew m m'' :=
      ⟨(release_noneNew hrelease).nextContext, (release_noneNew hrelease).live⟩
    refine ⟨hkept.nextContext, fun c' hc' => hkept.live c' ?_⟩
    by_cases hsame : c' = c
    · simp only [hsame, setAt_same, Option.isSome_none, Bool.false_eq_true] at hc'
    · simpa only [setAt_ne _ _ hsame] using hc'
  · obtain rfl := Option.some.inj h
    exact noneNew_sameLives (.refl m)

end

/-- How many contexts there have been. -/
def created (s : ContextRun) : Nat := s.manager.nextContext

/-- Ids are the numbers of the contexts in the order of their creation, and descriptors have those of
their owners. -/
structure Inv (s : ContextRun) : Prop where
  counter : s.globalContextId = wrap32 (created s)
  fresh : ∀ c : Nat, (s.manager.objects c).isSome = true → c < created s
  ids : ∀ c : Nat, (s.manager.objects c).isSome = true →
    ∃ x, s.identities c = some x ∧ x.member.contextId = wrap32 c
  held : ∀ mmioEngine e, s.executions mmioEngine = some e →
    e.owner < created s ∧ e.descriptor.ulData1 / 2 ^ 7 = e.owner % 2 ^ 16

theorem newRun_inv (count : Nat) : Inv (newRun count) :=
  ⟨rfl, fun _ h => absurd h Bool.false_ne_true, fun _ h => absurd h Bool.false_ne_true,
    fun _ _ h => by cases h⟩

section
variable {s s' : ContextRun}

theorem create_inv (inv : Inv s) (contextGroup : Option GroupPtr) (isRingDataEnabled : Bool)
    (mmioEngine : Nat) (is48Bits : Bool) (priority : Nat) :
    Inv (s.create contextGroup isRingDataEnabled mmioEngine is48Bits priority) := by
  have hlive : ∀ c, ((s.manager.create contextGroup isRingDataEnabled).objects c).isSome = true →
      c = s.manager.nextContext ∨ c ≠ s.manager.nextContext ∧ (s.manager.objects c).isSome = true := by
    intro c hc
    by_cases hsame : c = s.manager.nextContext
    · exact Or.inl hsame
    · simp only [AubManagerImp.create, setAt_ne _ _ hsame] at hc
      exact Or.inr ⟨hsame, hc⟩
  constructor
  · rw [ContextRun.create, inv.counter]
    exact Nat.mod_add_mod _ _ _
  · intro c hc
    rcases hlive c hc with rfl | ⟨_, hold⟩
    · exact Nat.lt_succ_self _
    · exact Nat.lt_succ_of_lt (inv.fresh c hold)
  · intro c hc
    rcases hlive c hc with rfl | ⟨hne, hold⟩
    · exact ⟨_, setAt_same _ _ _, inv.counter⟩
    · obtain ⟨x, hx, hid⟩ := inv.ids c hold
      exact ⟨x, (setAt_ne _ _ hne).trans hx, hid⟩
  · intro mmio e he
    obtain ⟨howner, hdescriptor⟩ := inv.held mmio e he
    exact ⟨Nat.lt_succ_of_lt howner, hdescriptor⟩

/-- A step of the manager that creates nothing, with the ids kept. -/
theorem noneNew_inv (inv : Inv s) {m : AubManagerImp} {identities : ContextPtr → Option Identity}
    (h : NoneNew s.manager m) (hids : ∀ c x, s.identities c = some x →
      ∃ x', identities c = some x' ∧ x'.member.contextId = x.member.contextId) :
    Inv { s with manager := m, identities := identities } := by
  have hcreated : m.nextContext = created s := h.nextContext
  constructor
  · exact inv.counter.trans (congrArg wrap32 hcreated.symm)
  · intro c hc
    rw [created, hcreated]
    exact inv.fresh c (h.live c hc)
  · intro c hc
    obtain ⟨x, hx, hid⟩ := inv.ids c (h.live c hc)
    obtain ⟨x', hx', hsame⟩ := hids c x hx
    exact ⟨x', hx', hsame.trans hid⟩
  · intro mmioEngine e he
    rw [created, hcreated]
    exact inv.held mmioEngine e he

theorem initializeContext_inv {c : ContextPtr} {ggttLRCA : Fin (2 ^ 32)} (inv : Inv s)
    (h : s.initializeContext c ggttLRCA = some s') : Inv s' := by
  obtain ⟨m, hm, rfl⟩ := Option.map_eq_some_iff.mp h
  refine noneNew_inv inv (initializeContext_noneNew hm) fun c' x hx => ?_
  split
  · exact ⟨x, hx, rfl⟩
  · by_cases hsame : c' = c
    · rw [hsame] at hx ⊢
      rw [setAt_same, hx]
      exact ⟨_, rfl, rfl⟩
    · rw [setAt_ne _ _ hsame]
      exact ⟨x, hx, rfl⟩

/-- What a submission does, and which context the engine then runs. -/
theorem submit_cases {family : CoreFamily} {c : ContextPtr} {running : Nat}
    (h : s.submit family c running = some s') :
    ∃ ctx x e, s.manager.objects c = some ctx ∧ s.identities c = some x ∧
      (s.hwContexts c ctx)[running]? = some (some e.owner) ∧
      (s.manager.objects e.owner).isSome = true ∧
      e.descriptor = s.contextDescriptor family x.is48Bits (some e.owner) ∧
      s' = { s with executions := setAt s.executions x.mmioEngine (some e) } := by
  simp only [ContextRun.submit, bind, Option.bind_eq_some_iff] at h
  obtain ⟨ctx, hctx, x, hx, owner, howner, hdone⟩ := h
  have hslot : (s.hwContexts c ctx)[running]? = some (some owner) := Option.join_eq_some_iff.mp howner
  split at hdone
  · rename_i hall
    have hread := List.all_eq_true.mp hall (some owner) (List.mem_of_getElem? hslot)
    exact ⟨ctx, x, ⟨owner, _⟩, hctx, hx, hslot, hread, rfl, (Option.some.inj hdone).symm⟩
  · cases hdone

theorem submitBatchBuffer_some {family : CoreFamily} {c : ContextPtr} {running : Nat}
    (h : s.submitBatchBuffer family c running = some s') : s.submit family c running = some s' := by
  unfold ContextRun.submitBatchBuffer at h
  split at h
  · exact h
  · cases h

theorem submit_inv {family : CoreFamily} {c : ContextPtr} {running : Nat} (inv : Inv s)
    (h : s.submit family c running = some s') : Inv s' := by
  obtain ⟨ctx, x, e, _, _, _, hlive, hdescriptor, rfl⟩ := submit_cases h
  obtain ⟨y, hy, hid⟩ := inv.ids e.owner hlive
  refine ⟨inv.counter, inv.fresh, inv.ids, fun mmioEngine e' he => ?_⟩
  rcases setAt_cases he with ⟨_, rfl⟩ | ⟨_, hold⟩
  · refine ⟨inv.fresh e'.owner hlive, ?_⟩
    rw [hdescriptor]
    simp only [ContextRun.contextDescriptor, hy, describe_ulData1, hid, wrap32]
    omega
  · exact inv.held mmioEngine e' hold

theorem step_inv {family : CoreFamily} {o : Op} (inv : Inv s) (h : s.step family o = some s') :
    Inv s' := by
  cases o with
  | create contextGroup isRingDataEnabled mmioEngine is48Bits priority =>
    obtain rfl := Option.some.inj h
    exact create_inv inv contextGroup isRingDataEnabled mmioEngine is48Bits priority
  | initializeContext c ggttLRCA => exact initializeContext_inv inv h
  | release c =>
    obtain ⟨m, hm, rfl⟩ := Option.map_eq_some_iff.mp h
    exact noneNew_inv inv (release_noneNew hm) fun _ x hx => ⟨x, hx, rfl⟩
  | destroy c =>
    obtain ⟨m, hm, rfl⟩ := Option.map_eq_some_iff.mp h
    exact noneNew_inv inv (destroy_noneNew hm) fun _ x hx => ⟨x, hx, rfl⟩
  | submitBatchBuffer c running => exact submit_inv inv (submitBatchBuffer_some h)
  | resubmit c running => exact submit_inv inv h
  | setActive mmioEngine active =>
    obtain rfl := Option.some.inj h
    exact ⟨inv.counter, inv.fresh, inv.ids, inv.held⟩

/-- Contexts are only created by `create`. -/
theorem step_created {family : CoreFamily} {o : Op} (fits : IdFits s o)
    (few : created s ≤ 2 ^ 16) (inv : Inv s) (h : s.step family o = some s') :
    created s' ≤ 2 ^ 16 := by
  cases o with
  | create contextGroup isRingDataEnabled mmioEngine is48Bits priority =>
    obtain rfl := Option.some.inj h
    have hcounter := inv.counter
    have hfits : s.globalContextId < 2 ^ 16 := fits
    unfold wrap32 at hcounter
    have hnext : created s + 1 ≤ 2 ^ 16 := by omega
    exact hnext
  | initializeContext c ggttLRCA =>
    obtain ⟨m, hm, rfl⟩ := Option.map_eq_some_iff.mp h
    exact Nat.le_trans (Nat.le_of_eq (initializeContext_noneNew hm).nextContext) few
  | release c =>
    obtain ⟨m, hm, rfl⟩ := Option.map_eq_some_iff.mp h
    exact Nat.le_trans (Nat.le_of_eq (release_noneNew hm).nextContext) few
  | destroy c =>
    obtain ⟨m, hm, rfl⟩ := Option.map_eq_some_iff.mp h
    exact Nat.le_trans (Nat.le_of_eq (destroy_noneNew hm).nextContext) few
  | submitBatchBuffer c running =>
    obtain ⟨_, _, _, _, _, _, _, _, rfl⟩ := submit_cases (submitBatchBuffer_some h)
    exact few
  | resubmit c running =>
    obtain ⟨_, _, _, _, _, _, _, _, rfl⟩ := submit_cases h
    exact few
  | setActive mmioEngine active =>
    obtain rfl := Option.some.inj h
    exact few

end

theorem reach_inv {family : CoreFamily} {count : Nat} {s : ContextRun}
    (reached : Reach (ContextRun.step family) IdFits (newRun count) s) :
    Inv s ∧ created s ≤ 2 ^ 16 := by
  refine reached.invariant (I := fun s => Inv s ∧ created s ≤ 2 ^ 16)
    ⟨newRun_inv count, Nat.zero_le _⟩ ?_
  intro s o s' ⟨inv, few⟩ fits done
  exact ⟨step_inv inv done, step_created fits few inv done⟩

section
variable {s : ContextRun} {c : ContextPtr}

/-- The descriptor of a live context has the id that it was numbered with. -/
theorem contextDescriptor_id (inv : Inv s) (family : CoreFamily) (is48Bits : Bool)
    (live : (s.manager.objects c).isSome = true) :
    contextIDOf (s.contextDescriptor family is48Bits (some c)) = c % 2 ^ 16 := by
  obtain ⟨x, hx, hid⟩ := inv.ids c live
  simp only [ContextRun.contextDescriptor, hx, contextIDOf_describe, hid, wrap32]
  omega

/-- The active bit is bit 7 of the lower half. -/
theorem activeBit (word : Nat) (active : Bool) :
    ((word / 2 ^ 8 * 2 ^ 8 + active.toNat * 2 ^ 7 + word % 2 ^ 7) &&& 0x80 = 0) ↔
      active = false := by
  have hmask : (0x80 : Nat) = 2 ^ 7 := rfl
  have hle : active.toNat ≤ 1 := Bool.toNat_le active
  have hbit : (word / 2 ^ 8 * 2 ^ 8 + active.toNat * 2 ^ 7 + word % 2 ^ 7) / 2 ^ 7 % 2 =
      active.toNat := by omega
  rw [hmask, Nat.and_two_pow, Nat.testBit_eq_decide_div_mod_eq, hbit]
  cases active <;> decide

/-- What `isActive` compares, for a context outside any group. -/
theorem isActive_iff {x : Identity} {ctx : HardwareContextImp}
    (hctx : s.manager.objects c = some ctx) (outside : ctx.contextGroupId = invalidGroupId)
    (hx : s.identities c = some x) : s.isActive c = some true ↔
      ∃ e, s.executions x.mmioEngine = some e ∧ s.active x.mmioEngine = true ∧
        e.descriptor.ulData1 / 2 ^ 7 = x.member.contextId := by
  have hread : s.isActive c = some (if (s.execListStatus x.mmioEngine).1 &&& 0x80 = 0 then false
      else (s.execListStatus x.mmioEngine).2 >>> 7 == x.member.contextId) := by
    simp only [ContextRun.isActive, hctx, hx, outside, bind, Option.bind_some, ne_eq,
      not_true_eq_false, if_false]
    split <;> rfl
  rw [hread, Option.some.injEq]
  unfold ContextRun.execListStatus
  cases he : s.executions x.mmioEngine with
  | none =>
    constructor
    · intro hmatch
      simp only [Nat.zero_and, if_true, Bool.false_eq_true] at hmatch
    · rintro ⟨_, hnone, _⟩
      cases hnone
  | some e =>
    simp only [Nat.shiftRight_eq_div_pow]
    constructor
    · intro hmatch
      split at hmatch
      · cases hmatch
      · rename_i hbit
        refine ⟨e, rfl, ?_, beq_iff_eq.mp hmatch⟩
        rw [activeBit] at hbit
        simpa using hbit
    · rintro ⟨e', he', hactive, hsame⟩
      obtain rfl := Option.some.inj he'
      rw [if_neg, hsame]
      · exact beq_self_eq_true _
      · rw [activeBit, hactive]
        exact Bool.true_eq_false.mp

/-- A context with an id that does not fit its field is never found active. -/
theorem isActive_wide {x : Identity} {ctx : HardwareContextImp} (inv : Inv s)
    (hctx : s.manager.objects c = some ctx) (outside : ctx.contextGroupId = invalidGroupId)
    (hx : s.identities c = some x) (wide : 2 ^ 16 ≤ x.member.contextId) :
    s.isActive c ≠ some true := by
  intro found
  obtain ⟨e, he, _, hsame⟩ := (isActive_iff hctx outside hx).mp found
  obtain ⟨_, hdescriptor⟩ := inv.held _ e he
  omega

end

/-- As long as each context takes an id that fits its field, contexts are told apart. -/
theorem run_identified (family : CoreFamily) (count : Nat) (s : ContextRun)
    (reached : Reach (ContextRun.step family) IdFits (newRun count) s) : Identified family s := by
  obtain ⟨inv, few⟩ := reach_inv reached
  constructor
  · intro (c : Nat) (c' : Nat) live live' hne is48Bits is48Bits'
    have hc := inv.fresh c live
    have hc' := inv.fresh c' live'
    have hother : ¬ c = c' := hne
    rw [contextDescriptor_id inv family is48Bits live, contextDescriptor_id inv family is48Bits' live']
    omega
  · intro (c : Nat) ctx hctx outside
    have live : (s.manager.objects c).isSome = true := by rw [hctx]; rfl
    have hc := inv.fresh c live
    obtain ⟨x, hx, hid⟩ := inv.ids c live
    rw [isActive_iff hctx outside hx, hid]
    unfold wrap32
    constructor
    · rintro ⟨e, he, hactive, hsame⟩
      obtain ⟨howner, hdescriptor⟩ := inv.held _ e he
      exact ⟨x, e, hx, he, hactive, by omega⟩
    · rintro ⟨x', e, hx', he, hactive, rfl⟩
      obtain rfl : x' = x := Option.some.inj (hx'.symm.trans hx)
      obtain ⟨howner, hdescriptor⟩ := inv.held _ e he
      exact ⟨e, he, hactive, by omega⟩

/-- A context is created and initialized, and its engine runs it. -/
def activeRun : List Op := [.create none false 0x2000 true 1, .initializeContext 0 4096,
  .submitBatchBuffer 0 0, .setActive 0x2000 true]

theorem run_identified_active :
    ∃ s, runAll (ContextRun.step .xeCore) (newRun 8) activeRun = some s ∧ s.isActive 0 = some true ∧
      Identified .xeCore s := by
  have allowed : AllAlong (ContextRun.step .xeCore) IdFits (newRun 8) activeRun := by
    refine And.intro (by decide : (0 : Nat) < 2 ^ 16) fun s₁ h₁ => ?_
    obtain rfl := Option.some.inj h₁
    refine And.intro trivial fun s₂ h₂ => ?_
    obtain rfl := Option.some.inj h₂
    refine And.intro trivial fun s₃ h₃ => ?_
    obtain rfl := Option.some.inj h₃
    exact And.intro trivial fun _ _ => trivial
  exact ⟨_, rfl, rfl, run_identified .xeCore 8 _ (Reach.runAll activeRun .start allowed rfl)⟩

/-- Any number of contexts can be alive. -/
theorem reach_created (family : CoreFamily) (count n : Nat) :
    ∃ s, Reach (ContextRun.step family) Any (newRun count) s ∧ created s = n ∧
      ∀ c : Nat, c < n → (s.manager.objects c).isSome = true := by
  induction n with
  | zero => exact ⟨_, .start, rfl, fun c h => absurd h (Nat.not_lt_zero c)⟩
  | succ n ih =>
    obtain ⟨s, reached, hcreated, hlive⟩ := ih
    refine ⟨_, .step reached (o := .create none false 0x2000 true 1) trivial rfl,
      congrArg Nat.succ hcreated, fun c hc => ?_⟩
    have hnext : s.manager.nextContext = n := hcreated
    simp only [ContextRun.create, AubManagerImp.create, hnext]
    by_cases hsame : c = n
    · rw [hsame, setAt_same]
      rfl
    · rw [setAt_ne _ _ hsame]
      exact hlive c (by omega)

/-- Context 65536 has the `ContextID` of context 0. -/
theorem not_run_identified : ¬ ∀ (family : CoreFamily) (count : Nat) (s : ContextRun),
    Reach (ContextRun.step family) Any (newRun count) s → Identified family s := by
  intro claim
  obtain ⟨s, reached, _, hlive⟩ := reach_created .xeCore 8 65537
  have inv : Inv s := reached.invariant (newRun_inv 8) fun _ _ _ inv _ done => step_inv inv done
  refine (claim .xeCore 8 s reached).distinct 0 65536 (hlive 0 (by decide)) (hlive 65536 (by decide))
    (by decide) true true ?_
  rw [contextDescriptor_id inv .xeCore true (hlive 0 (by decide)),
    contextDescriptor_id inv .xeCore true (hlive 65536 (by decide))]
  rfl

end ContextIdentity
