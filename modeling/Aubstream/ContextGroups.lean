import Aubstream.ContextLifetimes

/-!
# How a context finds its group

The groups of an engine are the elements of a growing array, and a context keeps
the address of one of them. A primary context takes the next element; a
secondary one looks up the element of the context that it names.
-/

namespace ContextGroups
open HardwareContext (wrap32)
open Transitions ContextLifetimes AubManagerImp

inductive EngineType where
  | rcs | bcs | vcs | vecs | ccs | ccs1 | ccs2 | ccs3 | cccs
  | bcs1 | bcs2 | bcs3 | bcs4 | bcs5 | bcs6 | bcs7 | bcs8
  deriving DecidableEq

abbrev Device := Fin 4

/-- `hardwareContextId::invalidContextId`. -/
def invalidContextId : Nat := 2 ^ 32 - 1

/-- `hardwareContextFlags::contextGroup`. -/
def contextGroupFlag : Nat := 2 ^ 15

structure CreateHardwareContext2Params where
  contextId : Nat
  primaryContextId : Nat

structure CreateHardwareContext3Params where
  version : Nat
  size : Nat
  device : Device
  engine : EngineType
  flags : Nat
  contextId : Nat
  primaryContextId : Nat

/-- `sizeof(CreateHardwareContext3Params)`. -/
def sizeOfParams3 : Nat := 32

/-- What `GroupContextHelper` has for one engine. An element of `contextGroups` is known by its
address. -/
structure EngineGroups where
  contextGroups : List GroupPtr
  capacity : Nat
  groupIds : Nat
  primaryContextIdToGroupId : Nat → Option Nat

/-- With what a context was created in a group. The source keeps none of it: `groupId` is the index
that it looked up, and `primary` the live context that the new one was to join. -/
structure Creation where
  device : Device
  engine : EngineType
  contextId : Nat
  primaryContextId : Nat
  groupId : Nat
  primary : Option ContextPtr

structure GroupManager where
  manager : AubManagerImp
  groups : Device → EngineType → EngineGroups
  nextGroup : GroupPtr
  created : ContextPtr → Option Creation

/-- What the manager is not free to choose; `newCapacity` is how arrays grow. -/
structure Setup where
  getContextGroupCount : Nat
  isRingDataEnabled : Bool
  newCapacity : Nat → Nat → Nat

def setEngine {β : Type} (f : Device → EngineType → β) (d : Device) (e : EngineType) (x : β) :
    Device → EngineType → β :=
  fun d' e' => if d' = d ∧ e' = e then x else f d' e'

@[simp] theorem setEngine_same {β : Type} (f : Device → EngineType → β) (d : Device)
    (e : EngineType) (x : β) : setEngine f d e x d e = x :=
  if_pos ⟨rfl, rfl⟩

theorem setEngine_ne {β : Type} (f : Device → EngineType → β) {d d' : Device} {e e' : EngineType}
    (x : β) (h : ¬ (d' = d ∧ e' = e)) : setEngine f d e x d' e' = f d' e' :=
  if_neg h

namespace GroupManager

section
variable (setup : Setup) (s : GroupManager) (device : Device) (engine : EngineType)

/-- `contextGroups.resize(n)`. Up to the capacity the elements stay where they are; beyond it all of
them move. -/
def resize (n : Nat) : GroupManager :=
  let old := (s.groups device engine).contextGroups
  let fits := n ≤ (s.groups device engine).capacity
  let kept := if fits then old.take n else []
  let moved := if fits then [] else old
  { s with
    manager := { s.manager with
      contextGroups := fun g =>
        if g < s.nextGroup then s.manager.contextGroups g
        else match moved[g - s.nextGroup]? with
          | some o => s.manager.contextGroups o
          | none => ⟨0, []⟩ }
    groups := setEngine s.groups device engine { s.groups device engine with
      contextGroups := kept ++ List.range' s.nextGroup (n - kept.length)
      capacity := if fits then (s.groups device engine).capacity
        else setup.newCapacity (s.groups device engine).capacity n }
    nextGroup := s.nextGroup + (n - kept.length) }

/-- `contexts.resize(contextGroupCount)`. -/
def resizeContexts (g : GroupPtr) : GroupManager :=
  let group := s.manager.contextGroups g
  { s with
    manager := { s.manager with
      contextGroups := setAt s.manager.contextGroups g { group with
        contexts := group.contexts.take setup.getContextGroupCount ++
          List.replicate (setup.getContextGroupCount - group.contexts.length) none } } }

/-- The element behind the last one, if the primary needs it; not defined past the end. -/
def appendGroup (groupId : Nat) : Option GroupManager :=
  if (s.groups device engine).contextGroups.length ≤ groupId then
    let s := resize setup s device engine (wrap32 (groupId + 1))
    ((s.groups device engine).contextGroups[groupId]?).map (resizeContexts setup s)
  else some s

/-- The group of a primary context. -/
def primaryGroup (contextId : Nat) : Option (GroupManager × Nat) :=
  let groupId := (s.groups device engine).groupIds
  (appendGroup setup s device engine groupId).map fun s =>
    ({ s with
      groups := setEngine s.groups device engine { s.groups device engine with
        groupIds := wrap32 (groupId + 1)
        primaryContextIdToGroupId := setAt (s.groups device engine).primaryContextIdToGroupId
          contextId (some groupId) } }, groupId)

/-- The group of a secondary context; a miss inserts 0. -/
def secondaryGroup (primaryContextId : Nat) : GroupManager × Nat :=
  let groups := s.groups device engine
  let groupId := (groups.primaryContextIdToGroupId primaryContextId).getD 0
  ({ s with
    groups := setEngine s.groups device engine { groups with
      primaryContextIdToGroupId :=
        setAt groups.primaryContextIdToGroupId primaryContextId (some groupId) } }, groupId)

/-- A context that was created as a primary with this id. -/
def bears (id : Nat) (c : ContextPtr) : Bool :=
  match s.created c with
  | some cr => cr.device = device && cr.engine = engine && cr.primaryContextId = invalidContextId &&
      cr.contextId = id
  | none => false

/-- The live context that a new one is to join. -/
def primaryOf (primaryContextId : Nat) : Option ContextPtr :=
  if primaryContextId = invalidContextId then some s.manager.nextContext
  else s.manager.hwContexts.reverse.find? (bears s device engine primaryContextId)

/-- What `createHardwareContext2` and `createHardwareContext3` have in common. -/
def createContext (contextId primaryContextId flags : Nat) : Option GroupManager :=
  if flags &&& contextGroupFlag ≠ 0 then do
    let (t, groupId) ← if primaryContextId = invalidContextId
      then primaryGroup setup s device engine contextId
      else some (secondaryGroup s device engine primaryContextId)
    let group ← (t.groups device engine).contextGroups[groupId]?
    some { t with
      manager := t.manager.create (some group) setup.isRingDataEnabled
      created := setAt s.created s.manager.nextContext (some ⟨device, engine, contextId,
        primaryContextId, groupId, primaryOf s device engine primaryContextId⟩) }
  else some { s with manager := s.manager.create none setup.isRingDataEnabled }

end

def createHardwareContext2 (setup : Setup) (s : GroupManager) (params : CreateHardwareContext2Params)
    (device : Device) (engine : EngineType) (flags : Nat) : Option GroupManager :=
  createContext setup s device engine params.contextId params.primaryContextId flags

/-- Bad parameters create nothing. -/
def createHardwareContext3 (setup : Setup) (s : GroupManager) :
    Option CreateHardwareContext3Params → Option GroupManager
  | none => some s
  | some params =>
    if params.version ≠ 1 ∨ sizeOfParams3 < params.size then some s
    else createContext setup s params.device params.engine params.contextId params.primaryContextId
      params.flags

end GroupManager

inductive GroupOp where
  | createHardwareContext2 (params : CreateHardwareContext2Params) (device : Device)
      (engine : EngineType) (flags : Nat)
  | createHardwareContext3 (paramsHeader : Option CreateHardwareContext3Params)
  | releaseHardwareContext (context : ContextPtr)
  | initializeContext (context : ContextPtr)
  | release (context : ContextPtr)

namespace GroupManager

def memberCall (s : GroupManager) (o : Call) : Option GroupManager :=
  (callStep s.manager o).map fun m => { s with manager := m }

def step (setup : Setup) (s : GroupManager) : GroupOp → Option GroupManager
  | .createHardwareContext2 params device engine flags =>
    createHardwareContext2 setup s params device engine flags
  | .createHardwareContext3 paramsHeader => createHardwareContext3 setup s paramsHeader
  | .releaseHardwareContext c => s.memberCall (.destroy c)
  | .initializeContext c => s.memberCall (.initializeContext c)
  | .release c => s.memberCall (.release c)

end GroupManager

/-- Every engine starts with one element and room for three more. -/
def newGroupManager (setup : Setup) : GroupManager where
  manager := newManager setup.getContextGroupCount
  groups := fun device engine => ⟨[device.val * 17 + engine.ctorIdx], 4, 0, fun _ => none⟩
  nextGroup := 4 * 17
  created := fun _ => none

namespace GroupManager

/-- What stays in place and what comes behind it. -/
theorem getElem?_grown {kept : List GroupPtr} {next n i : Nat} {g : GroupPtr} :
    (kept ++ List.range' next (n - kept.length))[i]? = some g ↔
      kept[i]? = some g ∨ (kept.length ≤ i ∧ i < n ∧ g = next + (i - kept.length)) := by
  rw [List.getElem?_append]
  by_cases hi : i < kept.length
  · rw [if_pos hi]
    exact (or_iff_left fun h => absurd h.1 (Nat.not_le.mpr hi)).symm
  · rw [if_neg hi, List.getElem?_eq_none (Nat.not_lt.mp hi), List.getElem?_eq_some_iff]
    simp only [List.length_range', List.getElem_range', Nat.one_mul, reduceCtorEq, false_or]
    constructor
    · rintro ⟨hlt, heq⟩
      exact ⟨Nat.not_lt.mp hi, by omega, heq.symm⟩
    · rintro ⟨h1, h2, heq⟩
      exact ⟨by omega, heq.symm⟩

/-- How an array can grow: its elements stay in place or all of them move to new addresses. -/
structure Grown (old new : List GroupPtr) (next next' : GroupPtr) (stays : Prop) : Prop where
  le : next ≤ next'
  place : ∀ (i : Nat) g, new[i]? = some g →
    old[i]? = some g ∧ stays ∨ next ≤ g ∧ g < next' ∧ (stays → old.length ≤ i)
  apart : ∀ (i i' : Nat) g, next ≤ g → new[i]? = some g → new[i']? = some g → i = i'
  kept : stays → ∀ (i : Nat) g, old[i]? = some g → new[i]? = some g

section
variable {old : List GroupPtr} {next : GroupPtr}
  (placed : ∀ (i : Nat) g, old[i]? = some g → g < next)
include placed

theorem Grown.refl {stays : Prop} (holds : stays) : Grown old old next next stays :=
  ⟨Nat.le_refl _, fun _ _ hg => Or.inl ⟨hg, holds⟩,
    fun i _ g hge hg => absurd (placed i g hg) (Nat.not_lt.mpr hge), fun _ _ _ hg => hg⟩

theorem grown_resize {kept : List GroupPtr} {n : Nat} {stays : Prop} (hlen : old.length ≤ n)
    (hkept : kept = old ∧ stays ∨ kept = [] ∧ ¬ stays) :
    Grown old (kept ++ List.range' next (n - kept.length)) next (next + (n - kept.length)) stays := by
  have hold : ∀ (i : Nat) g, kept[i]? = some g → old[i]? = some g ∧ stays := by
    intro i g hg
    rcases hkept with ⟨rfl, hstays⟩ | ⟨rfl, _⟩
    · exact ⟨hg, hstays⟩
    · cases hg
  refine ⟨Nat.le_add_right _ _, fun i g hg => ?_, fun i i' g hge hg hg' => ?_,
    fun hstays i g hg => ?_⟩
  · rcases getElem?_grown.mp hg with hin | ⟨h1, h2, rfl⟩
    · exact Or.inl (hold i g hin)
    · refine Or.inr ⟨Nat.le_add_right _ _, Nat.add_lt_add_left (by omega) _, fun hstays => ?_⟩
      rcases hkept with ⟨rfl, _⟩ | ⟨_, hnot⟩
      · exact h1
      · exact absurd hstays hnot
  · have hnew : ∀ (i : Nat), (kept ++ List.range' next (n - kept.length))[i]? = some g →
        kept.length ≤ i ∧ g = next + (i - kept.length) := by
      intro i hg
      rcases getElem?_grown.mp hg with hin | ⟨h1, _, h2⟩
      · exact absurd (placed i g (hold i g hin).1) (Nat.not_lt.mpr hge)
      · exact ⟨h1, h2⟩
    obtain ⟨h1, h2⟩ := hnew i hg
    obtain ⟨h1', h2'⟩ := hnew i' hg'
    have heq := Nat.add_left_cancel (h2.symm.trans h2')
    omega
  · rcases hkept with ⟨rfl, _⟩ | ⟨_, hnot⟩
    · exact getElem?_grown.mpr (Or.inl hg)
    · exact absurd hstays hnot

end

/-- The array has the element already or room for it. -/
def HasRoom (s : GroupManager) (device : Device) (engine : EngineType) (groupId : Nat) : Prop :=
  groupId < (s.groups device engine).contextGroups.length ∨
    groupId + 1 ≤ (s.groups device engine).capacity

/-- An append leaves all but the engine's array alone. -/
structure Appended (s t : GroupManager) (device : Device) (engine : EngineType) (groupId : Nat) :
    Prop where
  objects : t.manager.objects = s.manager.objects
  hwContexts : t.manager.hwContexts = s.manager.hwContexts
  nextContext : t.manager.nextContext = s.manager.nextContext
  others : ∀ d e, ¬ (d = device ∧ e = engine) → t.groups d e = s.groups d e
  ids : (t.groups device engine).primaryContextIdToGroupId =
    (s.groups device engine).primaryContextIdToGroupId
  length : (t.groups device engine).contextGroups.length =
    max (s.groups device engine).contextGroups.length (groupId + 1)
  fits : wrap32 (groupId + 1) = groupId + 1
  array : Grown (s.groups device engine).contextGroups (t.groups device engine).contextGroups
    s.nextGroup t.nextGroup (HasRoom s device engine groupId)

theorem appendGroup_appended {setup : Setup} {s t : GroupManager} {device : Device}
    {engine : EngineType} {groupId : Nat} (hid : groupId < 2 ^ 32)
    (length : (s.groups device engine).contextGroups.length = max 1 groupId)
    (placed : ∀ (i : Nat) g, (s.groups device engine).contextGroups[i]? = some g → g < s.nextGroup)
    (h : appendGroup setup s device engine groupId = some t) :
    Appended s t device engine groupId := by
  unfold appendGroup at h
  split at h
  · rename_i hlen
    obtain ⟨g₀, hg₀, rfl⟩ := Option.map_eq_some_iff.mp h
    have hroom : HasRoom s device engine groupId ↔
        groupId + 1 ≤ (s.groups device engine).capacity :=
      or_iff_right (Nat.not_lt.mpr hlen)
    have hwrap : wrap32 (groupId + 1) = groupId + 1 := by
      by_contra hne
      have hzero : wrap32 (groupId + 1) = 0 := by
        unfold wrap32 at hne ⊢
        omega
      rw [hzero] at hg₀
      simp only [resize, setEngine_same, Nat.zero_le, if_true, List.take_zero, List.length_nil,
        Nat.sub_zero, List.range'_zero, List.append_nil, List.getElem?_nil, reduceCtorEq] at hg₀
    have hle := Nat.le_succ_of_le hlen
    have hkept : (if groupId + 1 ≤ (s.groups device engine).capacity then
          (s.groups device engine).contextGroups else []) = (s.groups device engine).contextGroups ∧
          HasRoom s device engine groupId ∨
        (if groupId + 1 ≤ (s.groups device engine).capacity then
          (s.groups device engine).contextGroups else []) = [] ∧
          ¬ HasRoom s device engine groupId := by
      rw [hroom]
      split
      · rename_i hfits
        exact Or.inl ⟨rfl, hfits⟩
      · rename_i hfits
        exact Or.inr ⟨rfl, hfits⟩
    have hgrown := grown_resize placed hle hkept
    refine ⟨rfl, rfl, rfl, fun d e hne => setEngine_ne _ _ hne, ?_, ?_, hwrap, ?_⟩
    · simp only [resizeContexts, resize, setEngine_same]
    · simp only [resizeContexts, resize, setEngine_same, hwrap, List.take_of_length_le hle,
        List.length_append, List.length_range']
      split
      · omega
      · rw [List.length_nil]
        omega
    · simp only [resizeContexts, resize, setEngine_same, hwrap, List.take_of_length_le hle]
      exact hgrown
  · rename_i hlen
    obtain rfl := Option.some.inj h
    have hlt := Nat.not_le.mp hlen
    refine ⟨rfl, rfl, rfl, fun _ _ _ => rfl, rfl, (Nat.max_eq_left hlt).symm, ?_,
      .refl placed (Or.inl hlt)⟩
    unfold wrap32
    omega

/-- The address that a context keeps. -/
def groupPointer (m : AubManagerImp) (c : ContextPtr) : Option (Option GroupPtr) :=
  (m.objects c).map (·.contextGroup)

section
variable {m m' : AubManagerImp}

theorem groupPointer_sameLives (h : SameLives m m') (c : ContextPtr) :
    groupPointer m' c = groupPointer m c := by
  have hgroup : ∀ m : AubManagerImp, groupPointer m c =
      ((m.objects c).map withoutId).map (·.contextGroup) := by
    intro m
    rw [Option.map_map]
    rfl
  rw [hgroup, hgroup, h.objects]

theorem groupPointer_setAt {c : ContextPtr} {ctx x : HardwareContextImp}
    (hc : m.objects c = some ctx) (same : x.contextGroup = ctx.contextGroup)
    (objects : m'.objects = setAt m.objects c (some x)) (c' : ContextPtr) :
    groupPointer m' c' = groupPointer m c' := by
  unfold groupPointer
  rw [objects]
  by_cases hcc : c' = c
  · rw [hcc, setAt_same, hc, Option.map_some, Option.map_some, same]
  · rw [setAt_ne _ _ hcc]

theorem release_pointers {c : ContextPtr} (h : m.release c = some m') :
    (∀ c', groupPointer m' c' = groupPointer m c') ∧ m'.hwContexts = m.hwContexts ∧
      m'.nextContext = m.nextContext := by
  unfold AubManagerImp.release at h
  split at h
  · cases h
  · rename_i ctx hc
    have hlives := leaveGroup_sameLives h
    refine ⟨fun c' => ?_, hlives.hwContexts, hlives.nextContext⟩
    rw [groupPointer_sameLives hlives]
    exact groupPointer_setAt (x := { ctx with pLRCA := none, released := true }) hc rfl rfl c'

/-- No call but a creation gives a context an address. -/
theorem callStep_pointers {o : Call} (nodup : m.hwContexts.Nodup)
    (hne : ∀ contextGroup isRingDataEnabled, o ≠ .create contextGroup isRingDataEnabled)
    (h : callStep m o = some m') :
    (∀ c ∈ m'.hwContexts, groupPointer m' c = groupPointer m c) ∧
      m'.hwContexts.Sublist m.hwContexts ∧ m'.nextContext = m.nextContext := by
  cases o with
  | create contextGroup isRingDataEnabled => exact absurd rfl (hne _ _)
  | initializeContext c =>
    simp only [callStep, AubManagerImp.initializeContext] at h
    split at h
    · cases h
    · rename_i ctx hc
      split at h
      · obtain rfl := Option.some.inj h
        exact ⟨fun _ _ => rfl, List.Sublist.refl _, rfl⟩
      · have hlives := enterGroup_sameLives h
        refine ⟨fun c' _ => ?_, ?_, hlives.nextContext⟩
        · rw [groupPointer_sameLives hlives]
          exact groupPointer_setAt (x := allocate m ctx) hc rfl rfl c'
        · rw [hlives.hwContexts]
          exact List.Sublist.refl _
  | release c =>
    obtain ⟨hpointers, hlist, hnext⟩ := release_pointers h
    exact ⟨fun c' _ => hpointers c', hlist ▸ List.Sublist.refl _, hnext⟩
  | destroy c =>
    simp only [callStep, AubManagerImp.destroy] at h
    split at h
    · obtain ⟨m₁, hrelease, rfl⟩ := Option.map_eq_some_iff.mp h
      obtain ⟨hpointers, hlist, hnext⟩ := release_pointers hrelease
      have herase : m₁.hwContexts = m.hwContexts.erase c := hlist
      refine ⟨fun c' hc' => ?_, herase ▸ List.erase_sublist, hnext⟩
      · have hmem : c' ∈ m₁.hwContexts := hc'
        rw [herase] at hmem
        have hcc : c' ≠ c := (nodup.mem_erase_iff.mp hmem).1
        exact (congrArg _ (setAt_ne _ _ hcc)).trans (hpointers c')
    · obtain rfl := Option.some.inj h
      exact ⟨fun _ _ => rfl, List.Sublist.refl _, rfl⟩

end

end GroupManager

end ContextGroups
