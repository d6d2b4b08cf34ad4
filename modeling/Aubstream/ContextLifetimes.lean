import Aubstream.GroupSubmission
import Aubstream.Transitions

/-!
# Lifetimes of hardware contexts

The manager creates contexts and destroys them. In between a context is initialized
and released any number of times, by its owner or as the manager is opened and
closed. A member of a context group has a slot there while it is initialized.
-/

namespace ContextLifetimes
open HardwareContext GroupSubmission Transitions

/-- Addresses; none is used twice. -/
abbrev ContextPtr := Nat
abbrev GroupPtr := Nat
abbrev Buffer := Nat

/-- `std::numeric_limits<uint32_t>::max()`. -/
def invalidGroupId : Nat := 2 ^ 32 - 1

structure ContextGroup where
  contextGroupCounter : Nat
  contexts : List (Option ContextPtr)

/-- `contextGroup` is `none` without the flag; the source does not look at it then. `released` is
not in the source: the context was released after it was last initialized. -/
structure HardwareContextImp where
  contextGroup : Option GroupPtr
  contextGroupId : Nat
  isRingDataEnabled : Bool
  pLRCA : Option Buffer
  pRingData : Option Buffer
  released : Bool

/-- `freed` is not in the source: the buffers that were deleted, newest first. -/
structure AubManagerImp where
  objects : ContextPtr → Option HardwareContextImp
  hwContexts : List ContextPtr
  contextGroups : GroupPtr → ContextGroup
  nextContext : ContextPtr
  nextBuffer : Buffer
  freed : List Buffer

/-- A call on a context; `destroy` is `releaseHardwareContext`. -/
inductive Call where
  | create (contextGroup : Option GroupPtr) (isRingDataEnabled : Bool)
  | initializeContext (context : ContextPtr)
  | release (context : ContextPtr)
  | destroy (context : ContextPtr)

inductive Op where
  | call (c : Call)
  | managerOpen
  | managerClose

def setAt {β : Type} (f : Nat → β) (p : Nat) (x : β) : Nat → β := fun q => if q = p then x else f q

@[simp] theorem setAt_same {β : Type} (f : Nat → β) (p : Nat) (x : β) : setAt f p x p = x :=
  if_pos rfl

theorem setAt_ne {β : Type} (f : Nat → β) {p q : Nat} (x : β) (h : q ≠ p) : setAt f p x q = f q :=
  if_neg h

theorem setAt_cases {β : Type} {f : Nat → Option β} {p q : Nat} {x y : β}
    (h : setAt f p (some x) q = some y) : (q = p ∧ y = x) ∨ (q ≠ p ∧ f q = some y) := by
  by_cases hq : q = p
  · rw [hq, setAt_same, Option.some.injEq] at h
    exact Or.inl ⟨hq, h.symm⟩
  · rw [setAt_ne f _ hq] at h
    exact Or.inr ⟨hq, h⟩

namespace ContextGroup

def take (g : ContextGroup) : ContextGroup :=
  { g with contextGroupCounter := wrap32 (g.contextGroupCounter + 1) }

def enter (g : ContextGroup) (id : Nat) (c : Option ContextPtr) : ContextGroup :=
  { g with contexts := g.contexts.set id c }

def clear (g : ContextGroup) : ContextGroup := ⟨0, g.contexts.map fun _ => none⟩

end ContextGroup

namespace AubManagerImp

def create (s : AubManagerImp) (contextGroup : Option GroupPtr) (isRingDataEnabled : Bool) :
    AubManagerImp :=
  let contextGroupId := match contextGroup with
    | none => invalidGroupId
    | some g => (s.contextGroups g).contextGroupCounter
  { s with
    objects := setAt s.objects s.nextContext
      (some ⟨contextGroup, contextGroupId, isRingDataEnabled, none, none, false⟩)
    hwContexts := s.hwContexts ++ [s.nextContext]
    contextGroups := match contextGroup with
      | none => s.contextGroups
      | some g => setAt s.contextGroups g (s.contextGroups g).take
    nextContext := s.nextContext + 1 }

/-- The group in which a context has an id. -/
def slotOf (ctx : HardwareContextImp) : Option GroupPtr :=
  if ctx.contextGroupId = invalidGroupId then none else ctx.contextGroup

/-- `contextGroup->contexts[contextGroupId] = this`; not defined past the end. -/
def enterGroup (s : AubManagerImp) (c : ContextPtr) (ctx : HardwareContextImp) :
    Option AubManagerImp :=
  match slotOf ctx with
  | none => some s
  | some g =>
    if ctx.contextGroupId < (s.contextGroups g).contexts.length then
      some { s with
        contextGroups :=
          setAt s.contextGroups g ((s.contextGroups g).enter ctx.contextGroupId (some c)) }
    else none

/-- The context with its new buffers. -/
def allocate (s : AubManagerImp) (ctx : HardwareContextImp) : HardwareContextImp :=
  { ctx with
    pLRCA := some s.nextBuffer
    pRingData := if ctx.isRingDataEnabled then some (s.nextBuffer + 1) else ctx.pRingData
    released := false }

def allocateBuffers (s : AubManagerImp) (c : ContextPtr) (ctx : HardwareContextImp) :
    AubManagerImp :=
  { s with
    objects := setAt s.objects c (some (allocate s ctx))
    nextBuffer := if ctx.isRingDataEnabled then s.nextBuffer + 2 else s.nextBuffer + 1 }

def initializeContext (s : AubManagerImp) (c : ContextPtr) : Option AubManagerImp :=
  match s.objects c with
  | none => none
  | some ctx =>
    if ctx.pLRCA.isSome then some s else enterGroup (allocateBuffers s c ctx) c ctx

/-- What a release does to the group. The member with id 0 takes the ids of all that have a slot. -/
def leaveGroup (s : AubManagerImp) (ctx : HardwareContextImp) : Option AubManagerImp :=
  match slotOf ctx with
  | none => some s
  | some g =>
    if ctx.contextGroupId < (s.contextGroups g).contexts.length then
      let group := (s.contextGroups g).enter ctx.contextGroupId none
      if ctx.contextGroupId = 0 then some { s with
        objects := fun c => if some c ∈ group.contexts then
            (s.objects c).map ({ · with contextGroupId := invalidGroupId }) else s.objects c
        contextGroups := setAt s.contextGroups g group.clear }
      else some { s with contextGroups := setAt s.contextGroups g group }
    else none

/-- The buffers that a release deletes. -/
def deletes (ctx : HardwareContextImp) : List Buffer := ctx.pRingData.toList ++ ctx.pLRCA.toList

/-- `pRingData` keeps its value. -/
def deleteBuffers (s : AubManagerImp) (c : ContextPtr) (ctx : HardwareContextImp) : AubManagerImp :=
  { s with
    objects := setAt s.objects c (some { ctx with pLRCA := none, released := true })
    freed := deletes ctx ++ s.freed }

def release (s : AubManagerImp) (c : ContextPtr) : Option AubManagerImp :=
  match s.objects c with
  | none => none
  | some ctx => leaveGroup (deleteBuffers s c ctx) ctx

/-- What is not in the list is left alone. -/
def destroy (s : AubManagerImp) (c : ContextPtr) : Option AubManagerImp :=
  if c ∈ s.hwContexts then
    (release { s with hwContexts := s.hwContexts.erase c } c).map fun s =>
      { s with objects := setAt s.objects c none }
  else some s

def callStep (s : AubManagerImp) : Call → Option AubManagerImp
  | .create contextGroup isRingDataEnabled => some (s.create contextGroup isRingDataEnabled)
  | .initializeContext c => s.initializeContext c
  | .release c => s.release c
  | .destroy c => s.destroy c

/-- The calls that an operation comes to. -/
def calls (s : AubManagerImp) : Op → List Call
  | .call c => [c]
  | .managerOpen => s.hwContexts.map .initializeContext
  | .managerClose => s.hwContexts.map .release

def step (s : AubManagerImp) (o : Op) : Option AubManagerImp := runAll callStep s (calls s o)

end AubManagerImp

/-- A manager without contexts; `count` is `getContextGroupCount()`. -/
def newManager (count : Nat) : AubManagerImp :=
  ⟨fun _ => none, [], fun _ => ⟨0, List.replicate count none⟩, 0, 0, []⟩

namespace AubManagerImp

/-- What a context is apart from its id. -/
def withoutId (ctx : HardwareContextImp) : HardwareContextImp := { ctx with contextGroupId := 0 }

/-- Only groups and ids in them differ. -/
structure SameLives (s s' : AubManagerImp) : Prop where
  objects : ∀ c, (s'.objects c).map withoutId = (s.objects c).map withoutId
  hwContexts : s'.hwContexts = s.hwContexts
  nextContext : s'.nextContext = s.nextContext
  nextBuffer : s'.nextBuffer = s.nextBuffer
  freed : s'.freed = s.freed

theorem SameLives.refl (s : AubManagerImp) : SameLives s s := ⟨fun _ => rfl, rfl, rfl, rfl, rfl⟩

theorem SameLives.isSome {s s' : AubManagerImp} (h : SameLives s s') (c : ContextPtr) :
    (s'.objects c).isSome = (s.objects c).isSome := by
  rw [← Option.isSome_map (f := withoutId), h.objects, Option.isSome_map]

theorem enterGroup_cases {s s' : AubManagerImp} {c : ContextPtr} {ctx : HardwareContextImp}
    (h : enterGroup s c ctx = some s') :
    (slotOf ctx = none ∧ s' = s) ∨
    ∃ g, slotOf ctx = some g ∧ ctx.contextGroupId < (s.contextGroups g).contexts.length ∧
      s' = { s with
        contextGroups :=
          setAt s.contextGroups g ((s.contextGroups g).enter ctx.contextGroupId (some c)) } := by
  unfold enterGroup at h
  split at h
  · rename_i hnone
    exact Or.inl ⟨hnone, (Option.some.inj h).symm⟩
  · rename_i g hg
    split at h
    · rename_i hlt
      exact Or.inr ⟨g, hg, hlt, (Option.some.inj h).symm⟩
    · cases h

theorem leaveGroup_cases {s s' : AubManagerImp} {ctx : HardwareContextImp}
    (h : leaveGroup s ctx = some s') :
    (slotOf ctx = none ∧ s' = s) ∨
    ∃ g, slotOf ctx = some g ∧ ctx.contextGroupId < (s.contextGroups g).contexts.length ∧
      (ctx.contextGroupId = 0 ∧ s' = { s with
          objects := fun c =>
            if some c ∈ ((s.contextGroups g).enter ctx.contextGroupId none).contexts then
              (s.objects c).map ({ · with contextGroupId := invalidGroupId }) else s.objects c
          contextGroups := setAt s.contextGroups g
            ((s.contextGroups g).enter ctx.contextGroupId none).clear } ∨
        ctx.contextGroupId ≠ 0 ∧ s' = { s with
          contextGroups :=
            setAt s.contextGroups g ((s.contextGroups g).enter ctx.contextGroupId none) }) := by
  unfold leaveGroup at h
  split at h
  · rename_i hnone
    exact Or.inl ⟨hnone, (Option.some.inj h).symm⟩
  · rename_i g hg
    split at h
    · rename_i hlt
      refine Or.inr ⟨g, hg, hlt, ?_⟩
      split at h
      · rename_i hid
        exact Or.inl ⟨hid, (Option.some.inj h).symm⟩
      · rename_i hid
        exact Or.inr ⟨hid, (Option.some.inj h).symm⟩
    · cases h

theorem enterGroup_sameLives {s s' : AubManagerImp} {c : ContextPtr} {ctx : HardwareContextImp}
    (h : enterGroup s c ctx = some s') : SameLives s s' := by
  rcases enterGroup_cases h with ⟨_, rfl⟩ | ⟨g, _, _, rfl⟩
  · exact .refl _
  · exact ⟨fun _ => rfl, rfl, rfl, rfl, rfl⟩

theorem leaveGroup_sameLives {s s' : AubManagerImp} {ctx : HardwareContextImp}
    (h : leaveGroup s ctx = some s') : SameLives s s' := by
  rcases leaveGroup_cases h with ⟨_, rfl⟩ | ⟨g, _, _, ⟨_, rfl⟩ | ⟨_, rfl⟩⟩
  · exact .refl _
  · refine ⟨fun c => ?_, rfl, rfl, rfl, rfl⟩
    simp only
    split
    · rw [Option.map_map]
      rfl
    · rfl
  · exact ⟨fun _ => rfl, rfl, rfl, rfl, rfl⟩

end AubManagerImp

end ContextLifetimes
