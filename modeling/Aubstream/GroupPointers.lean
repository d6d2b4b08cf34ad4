import Aubstream.ContextGroups

/-!
# Contexts and the groups of their primaries

A context keeps its group's address for life. The address is good while the array
stays in place, and it is the right one if the index that was looked up is the
one of a context that is still alive.
-/

namespace GroupPointers
open HardwareContext (wrap32)
open Transitions ContextLifetimes ContextGroups GroupManager

def IsPrimary (cr : Creation) : Prop := cr.primaryContextId = invalidContextId

/-- The element with the index that a context was created with. -/
def element (s : GroupManager) (cr : Creation) : Option GroupPtr :=
  (s.groups cr.device cr.engine).contextGroups[cr.groupId]?

/-- The element that was created for the primary of a context. -/
def primaryElement (s : GroupManager) (cr : Creation) : Option GroupPtr :=
  cr.primary.bind fun p => (s.created p).bind (element s)

/-- Live contexts keep the addresses of their primaries' elements, or none where there was no
primary; and no two primaries have one element. -/
structure GroupsOk (s : GroupManager) : Prop where
  joins : ∀ c ∈ s.manager.hwContexts, ∀ cr, s.created c = some cr →
    groupPointer s.manager c = some (primaryElement s cr)
  apart : ∀ p p' cr cr' g, s.created p = some cr → s.created p' = some cr' → IsPrimary cr →
    IsPrimary cr' → element s cr = some g → element s cr' = some g → p = p'

/-- The last context that was created as a primary with the id. -/
def LastBearer (s : GroupManager) (device : Device) (engine : EngineType) (id : Nat)
    (p : ContextPtr) : Prop :=
  bears s device engine id p = true ∧ ∀ q, bears s device engine id q = true → q ≤ p

/-- A primary moves no array that a live context has an address in; a secondary names a context that
is alive and was the last with its id. -/
def MayCreate (s : GroupManager) (device : Device) (engine : EngineType)
    (primaryContextId flags : Nat) : Prop :=
  flags &&& contextGroupFlag ≠ 0 →
    if primaryContextId = invalidContextId then
      HasRoom s device engine (s.groups device engine).groupIds ∨
        ∀ c ∈ s.manager.hwContexts, ∀ cr, s.created c = some cr →
          ¬ (cr.device = device ∧ cr.engine = engine)
    else ∃ p ∈ s.manager.hwContexts, LastBearer s device engine primaryContextId p

def Allowed (s : GroupManager) : GroupOp → Prop
  | .createHardwareContext2 params device engine flags =>
    MayCreate s device engine params.primaryContextId flags
  | .createHardwareContext3 (some params) => params.version = 1 → params.size ≤ sizeOfParams3 →
    MayCreate s params.device params.engine params.primaryContextId params.flags
  | _ => True

/-- What holds in every state of a run, whatever the order of the calls. -/
structure Inv (s : GroupManager) : Prop where
  sorted : s.manager.hwContexts.Pairwise (· < ·)
  lt : ∀ c ∈ s.manager.hwContexts, c < s.manager.nextContext
  created_lt : ∀ c cr, s.created c = some cr → c < s.manager.nextContext
  pointed : ∀ c ∈ s.manager.hwContexts, ∀ cr, s.created c = some cr →
    ∃ g, groupPointer s.manager c = some (some g)
  length : ∀ d e, (s.groups d e).contextGroups.length = max 1 (s.groups d e).groupIds
  ids_lt : ∀ d e, (s.groups d e).groupIds < 2 ^ 32
  placed : ∀ d e (i : Nat) g, (s.groups d e).contextGroups[i]? = some g → g < s.nextGroup
  once : ∀ d e d' e' (i i' : Nat) g, (s.groups d e).contextGroups[i]? = some g →
    (s.groups d' e').contextGroups[i']? = some g → d = d' ∧ e = e' ∧ i = i'
  founder : ∀ p cr, s.created p = some cr → IsPrimary cr →
    cr.groupId < (s.groups cr.device cr.engine).groupIds
  founder_once : ∀ p p' cr cr', s.created p = some cr → s.created p' = some cr' → IsPrimary cr →
    IsPrimary cr' → cr.device = cr'.device → cr.engine = cr'.engine → cr.groupId = cr'.groupId →
    p = p'
  latest : ∀ d e id p, bears s d e id p = true → ∃ q cr, LastBearer s d e id q ∧
    s.created q = some cr ∧ (s.groups d e).primaryContextIdToGroupId id = some cr.groupId
  primary : ∀ c cr q, s.created c = some cr → cr.primary = some q →
    ∃ qr, s.created q = some qr ∧ IsPrimary qr ∧ qr.device = cr.device ∧ qr.engine = cr.engine

/-- What both creations in a group do. -/
structure Created (s s' : GroupManager) (cr : Creation) (group : GroupPtr) (stays : Prop) :
    Prop where
  hwContexts : s'.manager.hwContexts = s.manager.hwContexts ++ [s.manager.nextContext]
  nextContext : s'.manager.nextContext = s.manager.nextContext + 1
  created : s'.created = setAt s.created s.manager.nextContext (some cr)
  pointers : ∀ c, c ≠ s.manager.nextContext →
    groupPointer s'.manager c = groupPointer s.manager c
  pointer : groupPointer s'.manager s.manager.nextContext = some (some group)
  group : element s' cr = some group
  others : ∀ d e, ¬ (d = cr.device ∧ e = cr.engine) → s'.groups d e = s.groups d e
  array : Grown (s.groups cr.device cr.engine).contextGroups
    (s'.groups cr.device cr.engine).contextGroups s.nextGroup s'.nextGroup stays
  primary : cr.primary = primaryOf s cr.device cr.engine cr.primaryContextId

structure PrimaryCreated (s s' : GroupManager) (cr : Creation) : Prop where
  isPrimary : IsPrimary cr
  groupId : cr.groupId = (s.groups cr.device cr.engine).groupIds
  groupIds : (s'.groups cr.device cr.engine).groupIds = cr.groupId + 1
  fits : cr.groupId + 1 < 2 ^ 32
  length : (s'.groups cr.device cr.engine).contextGroups.length =
    max (s.groups cr.device cr.engine).contextGroups.length (cr.groupId + 1)
  ids : (s'.groups cr.device cr.engine).primaryContextIdToGroupId =
    setAt (s.groups cr.device cr.engine).primaryContextIdToGroupId cr.contextId (some cr.groupId)

structure SecondaryCreated (s s' : GroupManager) (cr : Creation) : Prop where
  isSecondary : ¬ IsPrimary cr
  groupId : cr.groupId = ((s.groups cr.device cr.engine).primaryContextIdToGroupId
    cr.primaryContextId).getD 0
  groupIds : (s'.groups cr.device cr.engine).groupIds = (s.groups cr.device cr.engine).groupIds
  same : (s'.groups cr.device cr.engine).contextGroups =
    (s.groups cr.device cr.engine).contextGroups
  ids : (s'.groups cr.device cr.engine).primaryContextIdToGroupId =
    setAt (s.groups cr.device cr.engine).primaryContextIdToGroupId cr.primaryContextId
      (some cr.groupId)

section
variable {s s' : GroupManager}

theorem bears_iff {d : Device} {e : EngineType} {id : Nat} {c : ContextPtr} :
    bears s d e id c = true ↔ ∃ cr, s.created c = some cr ∧ IsPrimary cr ∧ cr.device = d ∧
      cr.engine = e ∧ cr.contextId = id := by
  unfold bears IsPrimary
  cases s.created c with
  | none => simp
  | some cr =>
    simp only [Bool.and_eq_true, decide_eq_true_eq, Option.some.injEq, exists_eq_left']
    constructor
    · rintro ⟨⟨⟨hd, he⟩, hp⟩, hid⟩
      exact ⟨hp, hd, he, hid⟩
    · rintro ⟨hp, hd, he, hid⟩
      exact ⟨⟨⟨hd, he⟩, hp⟩, hid⟩

theorem groupPointer_create (m : AubManagerImp) (group : Option GroupPtr) (ring : Bool)
    (c : ContextPtr) : groupPointer (m.create group ring) c =
      if c = m.nextContext then some group else groupPointer m c := by
  unfold groupPointer
  by_cases hc : c = m.nextContext
  · rw [if_pos hc, hc]
    exact congrArg _ (setAt_same _ _ _)
  · rw [if_neg hc]
    exact congrArg _ (setAt_ne _ _ hc)

theorem groupPointer_congr {m m' : AubManagerImp} (objects : m'.objects = m.objects)
    (c : ContextPtr) : groupPointer m' c = groupPointer m c := by
  rw [groupPointer, groupPointer, objects]

/-- A creation in a group, by the kind of the context. -/
theorem createContext_created {setup : Setup} {d : Device} {e : EngineType} {id pid flags : Nat}
    (inv : Inv s) (flag : flags &&& contextGroupFlag ≠ 0)
    (h : createContext setup s d e id pid flags = some s') :
    ∃ cr group, cr.device = d ∧ cr.engine = e ∧ cr.primaryContextId = pid ∧
      (Created s s' cr group (HasRoom s d e (s.groups d e).groupIds) ∧ PrimaryCreated s s' cr ∨
        Created s s' cr group True ∧ SecondaryCreated s s' cr) := by
  unfold createContext at h
  rw [if_pos flag] at h
  by_cases hpid : pid = invalidContextId
  · rw [if_pos hpid] at h
    simp only [Option.bind_eq_bind, primaryGroup, Option.bind_eq_some_iff, Option.map_eq_some_iff]
      at h
    obtain ⟨x, ⟨t, happend, rfl⟩, group, hgroup, hs⟩ := h
    obtain rfl := Option.some.inj hs
    have happended := appendGroup_appended (inv.ids_lt d e) (inv.length d e) (inv.placed d e)
      happend
    simp only [setEngine_same] at hgroup
    have hlt := (List.getElem?_eq_some_iff.mp hgroup).1
    refine ⟨⟨d, e, id, pid, (s.groups d e).groupIds, primaryOf s d e pid⟩, group, rfl, rfl, rfl,
      Or.inl ⟨⟨?_, ?_, rfl, fun c hc => ?_, ?_, ?_, fun d' e' hne => ?_, ?_, rfl⟩,
        ⟨hpid, rfl, ?_, ?_, ?_, ?_⟩⟩⟩
    · simp only [AubManagerImp.create, happended.hwContexts, happended.nextContext]
    · exact congrArg (· + 1) happended.nextContext
    · rw [groupPointer_create, if_neg (happended.nextContext ▸ hc)]
      exact groupPointer_congr happended.objects c
    · rw [groupPointer_create, if_pos happended.nextContext.symm]
    · simp only [element, setEngine_same]
      exact hgroup
    · simp only [setEngine_ne _ _ hne]
      exact happended.others d' e' hne
    · simp only [setEngine_same]
      exact happended.array
    · simp only [setEngine_same]
      exact happended.fits
    · have hfits := happended.fits
      have hlt' := inv.ids_lt d e
      unfold wrap32 at hfits
      simp only
      omega
    · simp only [setEngine_same]
      exact happended.length
    · simp only [setEngine_same, happended.ids]
  · rw [if_neg hpid] at h
    simp only [Option.bind_eq_bind, secondaryGroup, Option.bind_some, Option.bind_eq_some_iff] at h
    obtain ⟨group, hgroup, hs⟩ := h
    obtain rfl := Option.some.inj hs
    simp only [setEngine_same] at hgroup
    refine ⟨_, group, rfl, rfl, rfl, Or.inr ⟨⟨rfl, rfl, rfl, fun c hc => ?_, ?_, ?_,
      fun d' e' hne => setEngine_ne _ _ hne, ?_, rfl⟩, ⟨hpid, rfl, ?_, ?_, ?_⟩⟩⟩
    · rw [groupPointer_create, if_neg hc]
    · rw [groupPointer_create, if_pos rfl]
    · simp only [element, setEngine_same]
      exact hgroup
    · simp only [setEngine_same]
      exact .refl (inv.placed d e) trivial
    · simp only [setEngine_same]
    · simp only [setEngine_same]
    · simp only [setEngine_same]

end

section
variable {s s' : GroupManager} {cr : Creation} {group : GroupPtr} {stays : Prop}
  (h : Created s s' cr group stays)
include h

theorem Created.cases {c : ContextPtr} {cr' : Creation} (hc : s'.created c = some cr') :
    (c = s.manager.nextContext ∧ cr' = cr) ∨
      (c ≠ s.manager.nextContext ∧ s.created c = some cr') :=
  setAt_cases (h.created ▸ hc)

theorem Created.new : s'.created s.manager.nextContext = some cr := by
  rw [h.created, setAt_same]

theorem Created.primary_self (hp : IsPrimary cr) : cr.primary = some s.manager.nextContext :=
  h.primary.trans (if_pos hp)

theorem Created.primary_found (hsec : ¬ IsPrimary cr) : cr.primary =
    s.manager.hwContexts.reverse.find? (bears s cr.device cr.engine cr.primaryContextId) :=
  h.primary.trans (if_neg hsec)

theorem Created.old (inv : Inv s) {c : ContextPtr} {cr' : Creation} (hc : s.created c = some cr') :
    c ≠ s.manager.nextContext ∧ s'.created c = some cr' := by
  have hne := Nat.ne_of_lt (inv.created_lt c cr' hc)
  rw [h.created, setAt_ne _ _ hne]
  exact ⟨hne, hc⟩

/-- Where an element is after a creation. -/
theorem Created.place {d : Device} {e : EngineType} {i : Nat} {g : GroupPtr}
    (hg : (s'.groups d e).contextGroups[i]? = some g) :
    (s.groups d e).contextGroups[i]? = some g ∨
      (d = cr.device ∧ e = cr.engine ∧ s.nextGroup ≤ g ∧ g < s'.nextGroup) := by
  by_cases heng : d = cr.device ∧ e = cr.engine
  · obtain ⟨rfl, rfl⟩ := heng
    rcases h.array.place i g hg with ⟨hold, _⟩ | ⟨hge, hlt, _⟩
    · exact Or.inl hold
    · exact Or.inr ⟨rfl, rfl, hge, hlt⟩
  · rw [h.others d e heng] at hg
    exact Or.inl hg

/-- No two elements are at one place. -/
theorem Created.once (inv : Inv s) {d d' : Device} {e e' : EngineType} {i i' : Nat} {g : GroupPtr}
    (hg : (s'.groups d e).contextGroups[i]? = some g)
    (hg' : (s'.groups d' e').contextGroups[i']? = some g) : d = d' ∧ e = e' ∧ i = i' := by
  rcases h.place hg with hold | ⟨rfl, rfl, hge, _⟩ <;>
    rcases h.place hg' with hold' | ⟨rfl, rfl, hge', _⟩
  · exact inv.once d e d' e' i i' g hold hold'
  · exact absurd (inv.placed d e i g hold) (Nat.not_lt.mpr hge')
  · exact absurd (inv.placed d' e' i' g hold') (Nat.not_lt.mpr hge)
  · exact ⟨rfl, rfl, h.array.apart i i' g hge hg hg'⟩

/-- A creation keeps what the ids and the arrays have to do with each other. -/
theorem Created.inv (inv : Inv s)
    (length : ∀ d e, (s'.groups d e).contextGroups.length = max 1 (s'.groups d e).groupIds)
    (ids_lt : ∀ d e, (s'.groups d e).groupIds < 2 ^ 32)
    (le : ∀ d e, (s.groups d e).groupIds ≤ (s'.groups d e).groupIds)
    (founder : IsPrimary cr → cr.groupId = (s.groups cr.device cr.engine).groupIds ∧
      cr.groupId < (s'.groups cr.device cr.engine).groupIds)
    (latest : ∀ d e id p, bears s' d e id p = true → ∃ q cr, LastBearer s' d e id q ∧
      s'.created q = some cr ∧ (s'.groups d e).primaryContextIdToGroupId id = some cr.groupId)
    (primary : ∀ q, cr.primary = some q → ∃ qr, s'.created q = some qr ∧ IsPrimary qr ∧
      qr.device = cr.device ∧ qr.engine = cr.engine) : Inv s' := by
  refine ⟨?_, fun c hc => ?_, fun c cr' hc => ?_, fun c hmem cr' hc => ?_, length, ids_lt,
    fun d e i g hg => ?_, fun d e d' e' i i' g hg hg' => h.once inv hg hg', fun p pr hp hprim => ?_,
    fun p p' pr pr' hp hp' hprim hprim' hd he hid => ?_, latest, fun c cr' q hc hq => ?_⟩
  · rw [h.hwContexts]
    refine List.pairwise_append.mpr ⟨inv.sorted, List.pairwise_singleton _ _, ?_⟩
    intro c hc c' hc'
    rw [List.mem_singleton] at hc'
    exact hc' ▸ inv.lt c hc
  · rw [h.hwContexts, List.mem_append, List.mem_singleton] at hc
    rw [h.nextContext]
    rcases hc with hold | rfl
    · exact Nat.lt_succ_of_lt (inv.lt c hold)
    · exact Nat.lt_succ_self _
  · rw [h.nextContext]
    rcases h.cases hc with ⟨rfl, _⟩ | ⟨_, hold⟩
    · exact Nat.lt_succ_self _
    · exact Nat.lt_succ_of_lt (inv.created_lt c cr' hold)
  · rcases h.cases hc with ⟨rfl, _⟩ | ⟨hne, hold⟩
    · exact ⟨group, h.pointer⟩
    · rw [h.hwContexts, List.mem_append, List.mem_singleton] at hmem
      rw [h.pointers c hne]
      exact inv.pointed c (hmem.resolve_right hne) cr' hold
  · rcases h.place hg with hold | ⟨_, _, _, hlt⟩
    · exact Nat.lt_of_lt_of_le (inv.placed d e i g hold) h.array.le
    · exact hlt
  · rcases h.cases hp with ⟨_, rfl⟩ | ⟨_, hold⟩
    · exact (founder hprim).2
    · exact Nat.lt_of_lt_of_le (inv.founder p pr hold hprim) (le _ _)
  · rcases h.cases hp with ⟨rfl, rfl⟩ | ⟨_, hold⟩ <;> rcases h.cases hp' with ⟨rfl, rfl⟩ | ⟨_, hold'⟩
    · rfl
    · have hlt := inv.founder p' pr' hold' hprim'
      rw [← hd, ← he, ← hid, (founder hprim).1] at hlt
      exact absurd hlt (Nat.lt_irrefl _)
    · have hlt := inv.founder p pr hold hprim
      rw [hd, he, hid, (founder hprim').1] at hlt
      exact absurd hlt (Nat.lt_irrefl _)
    · exact inv.founder_once p p' pr pr' hold hold' hprim hprim' hd he hid
  · rcases h.cases hc with ⟨_, rfl⟩ | ⟨_, hold⟩
    · exact primary q hq
    · obtain ⟨qr, hqr, hfacts⟩ := inv.primary c cr' q hold hq
      exact ⟨qr, (h.old inv hqr).2, hfacts⟩

end

section
variable {s s' : GroupManager} {cr : Creation} {group : GroupPtr} {stays : Prop}
  (inv : Inv s) (h : Created s s' cr group stays)
include inv h

theorem bears_created {d : Device} {e : EngineType} {id : Nat} {p : ContextPtr} :
    bears s' d e id p = true ↔ bears s d e id p = true ∨ (p = s.manager.nextContext ∧
      IsPrimary cr ∧ cr.device = d ∧ cr.engine = e ∧ cr.contextId = id) := by
  rw [bears_iff, bears_iff]
  constructor
  · rintro ⟨cr', hc, hfacts⟩
    rcases h.cases hc with ⟨rfl, rfl⟩ | ⟨_, hold⟩
    · exact Or.inr ⟨rfl, hfacts⟩
    · exact Or.inl ⟨cr', hold, hfacts⟩
  · rintro (⟨cr', hc, hfacts⟩ | ⟨rfl, hfacts⟩)
    · exact ⟨cr', (h.old inv hc).2, hfacts⟩
    · exact ⟨cr, h.new, hfacts⟩

omit h in
theorem bears_lt {d : Device} {e : EngineType} {id : Nat} {p : ContextPtr}
    (hp : bears s d e id p = true) : p < s.manager.nextContext := by
  obtain ⟨cr', hc, _⟩ := bears_iff.mp hp
  exact inv.created_lt p cr' hc

/-- The last context with an id is still the last one, unless the new one has it. -/
theorem lastBearer_created {d : Device} {e : EngineType} {id : Nat} {p : ContextPtr}
    (hne : ¬ (IsPrimary cr ∧ cr.device = d ∧ cr.engine = e ∧ cr.contextId = id))
    (hp : LastBearer s d e id p) : LastBearer s' d e id p := by
  refine ⟨(bears_created inv h).mpr (Or.inl hp.1), fun q hq => ?_⟩
  rcases (bears_created inv h).mp hq with hold | ⟨_, hnew⟩
  · exact hp.2 q hold
  · exact absurd hnew hne

theorem primaryCreated_inv (hp : PrimaryCreated s s' cr) : Inv s' := by
  have hgroups : ∀ d e, ¬ (d = cr.device ∧ e = cr.engine) → s'.groups d e = s.groups d e := h.others
  refine h.inv inv (fun d e => ?_) (fun d e => ?_) (fun d e => ?_) (fun _ => ⟨hp.groupId, ?_⟩)
    (fun d e id p hbears => ?_) (fun q hq => ?_)
  · by_cases heng : d = cr.device ∧ e = cr.engine
    · obtain ⟨rfl, rfl⟩ := heng
      rw [hp.length, inv.length, hp.groupIds, ← hp.groupId]
      omega
    · rw [hgroups d e heng]
      exact inv.length d e
  · by_cases heng : d = cr.device ∧ e = cr.engine
    · obtain ⟨rfl, rfl⟩ := heng
      rw [hp.groupIds]
      exact hp.fits
    · rw [hgroups d e heng]
      exact inv.ids_lt d e
  · by_cases heng : d = cr.device ∧ e = cr.engine
    · obtain ⟨rfl, rfl⟩ := heng
      rw [hp.groupIds, hp.groupId]
      exact Nat.le_succ _
    · rw [hgroups d e heng]
  · rw [hp.groupIds]
    exact Nat.lt_succ_self _
  · by_cases hnew : IsPrimary cr ∧ cr.device = d ∧ cr.engine = e ∧ cr.contextId = id
    · -- the new context is the last one with this id
      obtain ⟨hprim, rfl, rfl, rfl⟩ := hnew
      refine ⟨s.manager.nextContext, cr, ⟨(bears_created inv h).mpr
        (Or.inr ⟨rfl, hprim, rfl, rfl, rfl⟩), fun q hq => ?_⟩, h.new, ?_⟩
      · rcases (bears_created inv h).mp hq with hold | ⟨rfl, _⟩
        · exact Nat.le_of_lt (bears_lt inv hold)
        · exact Nat.le_refl _
      · rw [hp.ids, setAt_same]
    · have hold := ((bears_created inv h).mp hbears).resolve_right fun hp => hnew hp.2
      obtain ⟨q, qr, hq, hqr, hid⟩ := inv.latest d e id p hold
      refine ⟨q, qr, lastBearer_created inv h hnew hq, (h.old inv hqr).2, ?_⟩
      by_cases heng : d = cr.device ∧ e = cr.engine
      · obtain ⟨rfl, rfl⟩ := heng
        have hne : id ≠ cr.contextId := fun heq => hnew ⟨hp.isPrimary, rfl, rfl, heq.symm⟩
        rw [hp.ids, setAt_ne _ _ hne]
        exact hid
      · rw [hgroups d e heng]
        exact hid
  · obtain rfl := Option.some.inj (hq.symm.trans (h.primary_self hp.isPrimary))
    exact ⟨cr, h.new, hp.isPrimary, rfl, rfl⟩

omit inv in
/-- The primary of a secondary context bears the id that it names. -/
theorem secondary_bears (hsec : ¬ IsPrimary cr) {q : ContextPtr} (hq : cr.primary = some q) :
    q ∈ s.manager.hwContexts ∧ bears s cr.device cr.engine cr.primaryContextId q = true := by
  rw [h.primary_found hsec] at hq
  exact ⟨List.mem_reverse.mp (List.mem_of_find?_eq_some hq), List.find?_some hq⟩

theorem secondaryCreated_inv (hsec : SecondaryCreated s s' cr) : Inv s' := by
  have hids : ∀ d e, (s'.groups d e).groupIds = (s.groups d e).groupIds ∧
      (s'.groups d e).contextGroups = (s.groups d e).contextGroups := by
    intro d e
    by_cases heng : d = cr.device ∧ e = cr.engine
    · obtain ⟨rfl, rfl⟩ := heng
      exact ⟨hsec.groupIds, hsec.same⟩
    · rw [h.others d e heng]
      exact ⟨rfl, rfl⟩
  refine h.inv inv (fun d e => ?_) (fun d e => ?_) (fun d e => ?_)
    (fun hp => absurd hp hsec.isSecondary) (fun d e id p hbears => ?_) (fun q hq => ?_)
  · rw [(hids d e).1, (hids d e).2]
    exact inv.length d e
  · rw [(hids d e).1]
    exact inv.ids_lt d e
  · exact Nat.le_of_eq (hids d e).1.symm
  · have hnew : ¬ (IsPrimary cr ∧ cr.device = d ∧ cr.engine = e ∧ cr.contextId = id) :=
      fun hp => hsec.isSecondary hp.1
    have hold := ((bears_created inv h).mp hbears).resolve_right fun hp => hnew hp.2
    obtain ⟨q, qr, hq, hqr, hid⟩ := inv.latest d e id p hold
    refine ⟨q, qr, lastBearer_created inv h hnew hq, (h.old inv hqr).2, ?_⟩
    by_cases heng : d = cr.device ∧ e = cr.engine
    · obtain ⟨rfl, rfl⟩ := heng
      rw [hsec.ids]
      by_cases heq : id = cr.primaryContextId
      · rw [heq, setAt_same, hsec.groupId, ← heq, hid, Option.getD_some]
      · rw [setAt_ne _ _ heq]
        exact hid
    · rw [h.others d e heng]
      exact hid
  · obtain ⟨_, hbears⟩ := secondary_bears h hsec.isSecondary hq
    obtain ⟨qr, hqr, hprim, hd, he, _⟩ := bears_iff.mp hbears
    exact ⟨qr, (h.old inv hqr).2, hprim, hd, he⟩

end

/-- No two primaries have one element. -/
theorem inv_apart {s : GroupManager} (inv : Inv s) {p p' : ContextPtr} {cr cr' : Creation}
    {g : GroupPtr} (hp : s.created p = some cr) (hp' : s.created p' = some cr')
    (hprim : IsPrimary cr) (hprim' : IsPrimary cr') (hg : element s cr = some g)
    (hg' : element s cr' = some g) : p = p' := by
  obtain ⟨hd, he, hid⟩ := inv.once _ _ _ _ _ _ g hg hg'
  exact inv.founder_once p p' cr cr' hp hp' hprim hprim' hd he hid

/-- In a sorted list the search from the end finds the largest. -/
theorem find?_reverse_eq {l : List ContextPtr} (sorted : l.Pairwise (· < ·)) {f : ContextPtr → Bool}
    {p : ContextPtr} (hp : p ∈ l) (hf : f p = true) (last : ∀ q, f q = true → q ≤ p) :
    l.reverse.find? f = some p := by
  cases hfind : l.reverse.find? f with
  | none =>
    rw [List.find?_eq_none] at hfind
    exact absurd hf (hfind p (List.mem_reverse.mpr hp))
  | some q =>
    obtain ⟨hq, as, bs, hsplit, hnot⟩ := List.find?_eq_some_iff_append.mp hfind
    have hmem : p ∈ as ++ q :: bs := hsplit ▸ List.mem_reverse.mpr hp
    rw [List.mem_append, List.mem_cons] at hmem
    rcases hmem with has | rfl | hbs
    · have hfalse := hnot p has
      rw [hf] at hfalse
      cases hfalse
    · rfl
    · have hpairs := List.pairwise_reverse.mpr sorted
      rw [hsplit, List.pairwise_append, List.pairwise_cons] at hpairs
      exact absurd (hpairs.2.1.1 p hbs) (Nat.not_lt.mpr (last q hq))

/-- The addresses that were kept before are still good. -/
def OldJoin (s s' : GroupManager) : Prop :=
  ∀ c ∈ s.manager.hwContexts, ∀ cr, s.created c = some cr →
    groupPointer s'.manager c = some (primaryElement s' cr)

section
variable {s s' : GroupManager} {cr : Creation} {group : GroupPtr} {stays : Prop}
  (inv : Inv s) (ok : GroupsOk s) (h : Created s s' cr group stays)
include inv ok

/-- What a context joined before a creation. -/
theorem joined_element {c : ContextPtr} {cr' : Creation} (hmem : c ∈ s.manager.hwContexts)
    (hc : s.created c = some cr') :
    ∃ p pr g, cr'.primary = some p ∧ s.created p = some pr ∧ pr.device = cr'.device ∧
      pr.engine = cr'.engine ∧ element s pr = some g ∧ groupPointer s.manager c = some (some g) := by
  obtain ⟨g, hg⟩ := inv.pointed c hmem cr' hc
  have hjoin : primaryElement s cr' = some g :=
    Option.some.inj ((ok.joins c hmem cr' hc).symm.trans hg)
  obtain ⟨p, hp, hpr⟩ := Option.bind_eq_some_iff.mp hjoin
  obtain ⟨pr, hcreated, helement⟩ := Option.bind_eq_some_iff.mp hpr
  obtain ⟨pr', hcreated', _, hd, he⟩ := inv.primary c cr' p hc hp
  obtain rfl := Option.some.inj (hcreated.symm.trans hcreated')
  exact ⟨p, pr, g, hp, hcreated, hd, he, helement, hg⟩

include h

theorem oldJoin_iff : OldJoin s s' ↔ stays ∨ ∀ c ∈ s.manager.hwContexts, ∀ cr',
    s.created c = some cr' → ¬ (cr'.device = cr.device ∧ cr'.engine = cr.engine) := by
  constructor
  · intro joins
    by_contra hnot
    obtain ⟨hstays, hexists⟩ := not_or.mp hnot
    refine hexists fun c hmem cr' hc heng => ?_
    obtain ⟨p, pr, g, hp, hcreated, hd, he, helement, hg⟩ := joined_element inv ok hmem hc
    obtain ⟨hne, _⟩ := h.old inv hc
    have hjoin := joins c hmem cr' hc
    rw [h.pointers c hne, hg, Option.some.injEq, primaryElement, hp, Option.bind_some,
      (h.old inv hcreated).2, Option.bind_some, element, hd, he, heng.1, heng.2] at hjoin
    rcases h.array.place pr.groupId g hjoin.symm with ⟨_, hyes⟩ | ⟨hge, _, _⟩
    · exact hstays hyes
    · exact absurd (inv.placed _ _ _ g helement) (Nat.not_lt.mpr hge)
  · intro hstays c hmem cr' hc
    obtain ⟨p, pr, g, hp, hcreated, hd, he, helement, hg⟩ := joined_element inv ok hmem hc
    obtain ⟨hne, _⟩ := h.old inv hc
    rw [h.pointers c hne, hg, primaryElement, hp, Option.bind_some, (h.old inv hcreated).2,
      Option.bind_some, element, hd, he]
    rw [element, hd, he] at helement
    by_cases heng : cr'.device = cr.device ∧ cr'.engine = cr.engine
    · have hyes := hstays.resolve_right fun hnone => hnone c hmem cr' hc heng
      rw [heng.1, heng.2] at helement ⊢
      rw [h.array.kept hyes _ g helement]
    · rw [h.others _ _ heng, helement]

end

section
variable {s s' : GroupManager} {cr : Creation} {group : GroupPtr} {stays : Prop}
  (inv : Inv s) (inv' : Inv s') (h : Created s s' cr group stays)

/-- What the new context has joined. -/
theorem newJoin_primary (h : Created s s' cr group stays) (hp : IsPrimary cr) :
    primaryElement s' cr = some group := by
  rw [primaryElement, h.primary_self hp, Option.bind_some, h.new, Option.bind_some, h.group]

include inv inv' h

theorem newJoin_secondary (hsec : SecondaryCreated s s' cr) :
    primaryElement s' cr = some group ↔ ∃ p ∈ s.manager.hwContexts,
      LastBearer s cr.device cr.engine cr.primaryContextId p := by
  constructor
  · intro hjoin
    obtain ⟨q, hq, hrest⟩ := Option.bind_eq_some_iff.mp hjoin
    obtain ⟨qr, hqr', helement⟩ := Option.bind_eq_some_iff.mp hrest
    obtain ⟨hmem, hbears⟩ := secondary_bears h hsec.isSecondary hq
    obtain ⟨qr₀, hqr, hprim, hd, he, _⟩ := bears_iff.mp hbears
    obtain rfl := Option.some.inj (hqr'.symm.trans (h.old inv hqr).2)
    obtain ⟨_, _, hid⟩ := inv'.once _ _ _ _ _ _ group helement h.group
    -- the index is the one of the last context that bore the id
    obtain ⟨p, pr, hlast, hpr, hids⟩ := inv.latest _ _ _ q hbears
    obtain ⟨pr₀, hpr', hprim', hd', he', _⟩ := bears_iff.mp hlast.1
    obtain rfl := Option.some.inj (hpr.symm.trans hpr')
    have hgroup : cr.groupId = pr.groupId := by rw [hsec.groupId, hids, Option.getD_some]
    obtain rfl := inv.founder_once q p qr pr hqr hpr hprim hprim' (hd.trans hd'.symm)
      (he.trans he'.symm) (hid.trans hgroup)
    exact ⟨q, hmem, hlast⟩
  · rintro ⟨p, hmem, hlast⟩
    obtain ⟨q, qr, hlast', hqr, hids⟩ := inv.latest _ _ _ p hlast.1
    obtain rfl : p = q := Nat.le_antisymm (hlast'.2 p hlast.1) (hlast.2 q hlast'.1)
    obtain ⟨qr₀, hqr₀, _, hd, he, _⟩ := bears_iff.mp hlast.1
    obtain rfl := Option.some.inj (hqr.symm.trans hqr₀)
    have hgroup : cr.groupId = qr.groupId := by rw [hsec.groupId, hids, Option.getD_some]
    rw [primaryElement, h.primary_found hsec.isSecondary, find?_reverse_eq inv.sorted hmem hlast.1
      hlast.2, Option.bind_some, (h.old inv hqr).2, Option.bind_some, element, hd, he, ← hgroup]
    exact h.group

omit inv' in
/-- The groups are right after a creation if the old addresses and the new one are. -/
theorem groupsOk_created (inv' : Inv s') :
    GroupsOk s' ↔ OldJoin s s' ∧ primaryElement s' cr = some group := by
  constructor
  · intro ok'
    refine ⟨fun c hmem cr' hc => ?_, ?_⟩
    · refine ok'.joins c ?_ cr' (h.old inv hc).2
      rw [h.hwContexts]
      exact List.mem_append_left _ hmem
    · have hmem : s.manager.nextContext ∈ s'.manager.hwContexts := by
        rw [h.hwContexts]
        exact List.mem_append_right _ (List.mem_singleton_self _)
      have hjoin := ok'.joins _ hmem cr h.new
      rw [h.pointer, Option.some.injEq] at hjoin
      exact hjoin.symm
  · rintro ⟨hold, hnew⟩
    refine ⟨fun c hmem cr' hc => ?_, fun p p' pr pr' g hp hp' => inv_apart inv' hp hp'⟩
    rcases h.cases hc with ⟨rfl, rfl⟩ | ⟨hne, hcreated⟩
    · rw [h.pointer, hnew]
    · rw [h.hwContexts, List.mem_append, List.mem_singleton] at hmem
      exact hold c (hmem.resolve_right hne) cr' hcreated

end

/-- A step that changes no array and gives no live context an address. -/
theorem inv_manager {s : GroupManager} {m : AubManagerImp} (inv : Inv s)
    (sorted : m.hwContexts.Pairwise (· < ·)) (lt : ∀ c ∈ m.hwContexts, c < m.nextContext)
    (next : s.manager.nextContext ≤ m.nextContext)
    (pointers : ∀ c ∈ m.hwContexts, ∀ cr, s.created c = some cr →
      c ∈ s.manager.hwContexts ∧ groupPointer m c = groupPointer s.manager c) :
    Inv { s with manager := m } ∧ (GroupsOk s → GroupsOk { s with manager := m }) := by
  refine ⟨⟨sorted, lt, fun c cr hc => Nat.lt_of_lt_of_le (inv.created_lt c cr hc) next,
    fun c hmem cr hc => ?_, inv.length, inv.ids_lt, inv.placed, inv.once, inv.founder,
    inv.founder_once, inv.latest, inv.primary⟩, fun ok => ⟨fun c hmem cr hc => ?_, ok.apart⟩⟩
  · obtain ⟨hold, hpointer⟩ := pointers c hmem cr hc
    rw [hpointer]
    exact inv.pointed c hold cr hc
  · obtain ⟨hold, hpointer⟩ := pointers c hmem cr hc
    rw [hpointer]
    exact ok.joins c hold cr hc

/-- Calls on contexts leave the groups' addresses alone. -/
theorem memberCall_inv {s s' : GroupManager} {o : Call} (inv : Inv s)
    (hne : ∀ contextGroup isRingDataEnabled, o ≠ .create contextGroup isRingDataEnabled)
    (h : s.memberCall o = some s') : Inv s' ∧ (GroupsOk s → GroupsOk s') := by
  obtain ⟨m, hcall, rfl⟩ := Option.map_eq_some_iff.mp h
  have nodup : s.manager.hwContexts.Nodup := inv.sorted.imp Nat.ne_of_lt
  obtain ⟨hpointers, hlist, hnext⟩ := callStep_pointers nodup hne hcall
  refine inv_manager inv (inv.sorted.sublist hlist) (fun c hc => ?_) (Nat.le_of_eq hnext.symm)
    fun c hc _ _ => ⟨hlist.subset hc, hpointers c hc⟩
  rw [hnext]
  exact inv.lt c (hlist.subset hc)

/-- A creation keeps the groups right exactly if it may be made. -/
theorem createContext_groups {setup : Setup} {s s' : GroupManager} {d : Device} {e : EngineType}
    {id pid flags : Nat} (inv : Inv s) (ok : GroupsOk s)
    (h : createContext setup s d e id pid flags = some s') :
    Inv s' ∧ (GroupsOk s' ↔ MayCreate s d e pid flags) := by
  by_cases flag : flags &&& contextGroupFlag ≠ 0
  · obtain ⟨cr, group, rfl, rfl, rfl, ⟨hcreated, hprim⟩ | ⟨hcreated, hsec⟩⟩ :=
      createContext_created inv flag h
    · have inv' := primaryCreated_inv inv hcreated hprim
      have hpid : cr.primaryContextId = invalidContextId := hprim.isPrimary
      refine ⟨inv', ?_⟩
      rw [groupsOk_created inv hcreated inv', oldJoin_iff inv ok hcreated,
        and_iff_left (newJoin_primary hcreated hprim.isPrimary)]
      unfold MayCreate
      rw [if_pos hpid]
      exact ⟨fun hroom _ => hroom, fun hroom => hroom flag⟩
    · have inv' := secondaryCreated_inv inv hcreated hsec
      have hpid : ¬ cr.primaryContextId = invalidContextId := hsec.isSecondary
      refine ⟨inv', ?_⟩
      rw [groupsOk_created inv hcreated inv', and_iff_right
        ((oldJoin_iff inv ok hcreated).mpr (Or.inl trivial)),
        newJoin_secondary inv inv' hcreated hsec]
      unfold MayCreate
      rw [if_neg hpid]
      exact ⟨fun hlive _ => hlive, fun hlive => hlive flag⟩
  · unfold createContext at h
    rw [if_neg flag] at h
    obtain rfl := Option.some.inj h
    have hframe := inv_manager (m := s.manager.create none setup.isRingDataEnabled) inv
      (List.pairwise_append.mpr ⟨inv.sorted, List.pairwise_singleton _ _, fun c hc c' hc' => by
        rw [List.mem_singleton] at hc'
        exact hc' ▸ inv.lt c hc⟩)
      (fun c hc => by
        rcases List.mem_append.mp hc with hold | hnew
        · exact Nat.lt_succ_of_lt (inv.lt c hold)
        · exact (List.mem_singleton.mp hnew) ▸ Nat.lt_succ_self _)
      (Nat.le_succ _) fun c hc cr hcr => by
        have hne := Nat.ne_of_lt (inv.created_lt c cr hcr)
        rw [groupPointer_create, if_neg hne]
        exact ⟨(List.mem_append.mp hc).resolve_right fun hnew =>
          hne (List.mem_singleton.mp hnew), rfl⟩
    exact ⟨hframe.1, fun _ hflag => absurd hflag flag, fun _ => hframe.2 ok⟩

/-- One step, whatever the call. -/
theorem step_groups {setup : Setup} {s s' : GroupManager} {o : GroupOp} (inv : Inv s)
    (ok : GroupsOk s) (h : step setup s o = some s') :
    Inv s' ∧ (GroupsOk s' ↔ Allowed s o) := by
  have hmember : ∀ c, (∀ group ring, c ≠ Call.create group ring) → s.memberCall c = some s' →
      Inv s' ∧ (GroupsOk s' ↔ True) := by
    intro c hne hcall
    obtain ⟨inv', hok⟩ := memberCall_inv inv hne hcall
    exact ⟨inv', fun _ => trivial, fun _ => hok ok⟩
  cases o with
  | createHardwareContext2 params device engine flags => exact createContext_groups inv ok h
  | createHardwareContext3 paramsHeader =>
    cases paramsHeader with
    | none =>
      obtain rfl := Option.some.inj h
      exact ⟨inv, fun _ => trivial, fun _ => ok⟩
    | some params =>
      simp only [step, createHardwareContext3] at h
      split at h
      · rename_i hbad
        obtain rfl := Option.some.inj h
        refine ⟨inv, fun _ hversion hsize => ?_, fun _ => ok⟩
        exact absurd hbad (not_or.mpr ⟨not_not.mpr hversion, Nat.not_lt.mpr hsize⟩)
      · rename_i hgood
        rw [not_or, not_not, Nat.not_lt] at hgood
        obtain ⟨inv', hiff⟩ := createContext_groups inv ok h
        exact ⟨inv', hiff.trans ⟨fun hmay _ _ => hmay, fun hmay => hmay hgood.1 hgood.2⟩⟩
  | releaseHardwareContext c => exact hmember _ (fun _ _ heq => by cases heq) h
  | initializeContext c => exact hmember _ (fun _ _ heq => by cases heq) h
  | release c => exact hmember _ (fun _ _ heq => by cases heq) h

theorem engineType_lt (e : EngineType) : e.ctorIdx < 17 := by
  cases e <;> decide

theorem newGroupManager_inv (setup : Setup) : Inv (newGroupManager setup) := by
  have hfirst : ∀ d e (i : Nat) g, ((newGroupManager setup).groups d e).contextGroups[i]? = some g →
      i = 0 ∧ g = d.val * 17 + e.ctorIdx := by
    intro d e i g hg
    obtain ⟨hi, heq⟩ := List.getElem?_eq_some_iff.mp hg
    have hzero : i = 0 := Nat.lt_one_iff.mp hi
    subst hzero
    exact ⟨rfl, heq.symm⟩
  have hnone : ∀ c cr, (newGroupManager setup).created c ≠ some cr := by
    intro c cr hc
    cases hc
  refine ⟨List.Pairwise.nil, fun c hc => (by cases hc), fun c cr hc => absurd hc (hnone c cr),
    fun c hc => (by cases hc), fun _ _ => rfl, fun _ _ => Nat.two_pow_pos 32,
    fun d e i g hg => ?_, fun d e d' e' i i' g hg hg' => ?_, fun p cr hp => absurd hp (hnone p cr),
    fun p p' cr cr' hp => absurd hp (hnone p cr), fun d e id p hp => ?_,
    fun c cr q hc => absurd hc (hnone c cr)⟩
  · obtain ⟨_, rfl⟩ := hfirst d e i g hg
    have hd := d.isLt
    have he := engineType_lt e
    refine Nat.lt_of_lt_of_le (Nat.add_lt_add_left he _) ?_
    rw [← Nat.succ_mul]
    exact Nat.mul_le_mul_right 17 hd
  · obtain ⟨rfl, hplace⟩ := hfirst d e i g hg
    obtain ⟨rfl, hplace'⟩ := hfirst d' e' i' g hg'
    have he := engineType_lt e
    have he' := engineType_lt e'
    have heq : d.val * 17 + e.ctorIdx = d'.val * 17 + e'.ctorIdx := hplace.symm.trans hplace'
    refine ⟨Fin.ext (by omega), ?_, rfl⟩
    have hidx : e.ctorIdx = e'.ctorIdx := by omega
    rw [← EngineType.ofNat_ctorIdx e, hidx, EngineType.ofNat_ctorIdx]
  · obtain ⟨cr, hc, _⟩ := bears_iff.mp hp
    exact absurd hc (hnone p cr)

theorem reach_groups {setup : Setup} {s : GroupManager}
    (reached : Reach (step setup) Allowed (newGroupManager setup) s) : Inv s ∧ GroupsOk s := by
  have start : GroupsOk (newGroupManager setup) :=
    ⟨fun c hc => (by cases hc), fun p p' cr cr' g hp => (by cases hp)⟩
  refine reached.invariant (I := fun s => Inv s ∧ GroupsOk s) ⟨newGroupManager_inv setup, start⟩
    fun s o s' groups allowed done => ?_
  obtain ⟨inv, ok⟩ := groups
  obtain ⟨inv', hiff⟩ := step_groups inv ok done
  exact ⟨inv', hiff.mpr allowed⟩

/-- While every call is allowed, each live context keeps the address of its primary's group; the
first call that is not allowed breaks this. -/
theorem contextGroup_current_iff (setup : Setup) (s : GroupManager)
    (reached : Reach (step setup) Allowed (newGroupManager setup) s) :
    GroupsOk s ∧ ∀ o s', step setup s o = some s' → (GroupsOk s' ↔ Allowed s o) := by
  obtain ⟨inv, ok⟩ := reach_groups reached
  exact ⟨ok, fun _ _ h => (step_groups inv ok h).2⟩

/-- Arrays that double. -/
def doubling : Setup := ⟨8, false, fun capacity n => max (2 * capacity) n⟩

def primaryOp (id : Nat) : GroupOp :=
  .createHardwareContext2 ⟨id, invalidContextId⟩ 0 .ccs contextGroupFlag

def secondaryOp (id primary : Nat) : GroupOp :=
  .createHardwareContext2 ⟨id, primary⟩ 0 .ccs contextGroupFlag

/-- Two groups; the second context joins the first. -/
theorem contextGroup_current_twoGroups :
    ∃ s, runAll (step doubling) (newGroupManager doubling)
        [primaryOp 7, secondaryOp 8 7, primaryOp 20] = some s ∧
      groupPointer s.manager 1 = some (some 4) ∧ GroupsOk s := by
  have allowed : AllAlong (step doubling) Allowed (newGroupManager doubling)
      [primaryOp 7, secondaryOp 8 7, primaryOp 20] := by
    refine And.intro (fun _ => Or.inl (Or.inl (by decide))) fun s₁ h₁ => ?_
    obtain rfl := Option.some.inj h₁
    refine And.intro (fun _ => ⟨0, by decide, by decide, fun q hq => ?_⟩) fun s₂ h₂ => ?_
    · obtain ⟨cr, hc, _⟩ := bears_iff.mp hq
      rcases setAt_cases hc with ⟨rfl, _⟩ | ⟨_, hold⟩
      · exact Nat.le_refl _
      · cases hold
    obtain rfl := Option.some.inj h₂
    exact And.intro (fun _ => Or.inl (Or.inr (by decide))) fun _ _ => trivial
  exact ⟨_, rfl, rfl, (contextGroup_current_iff doubling _ (Reach.runAll _ .start allowed rfl)).1⟩

/-- The fifth primary moves the group that the first one has the address of. -/
theorem not_contextGroup_current :
    ¬ ∀ (ops : List GroupOp) (s : GroupManager),
      runAll (step doubling) (newGroupManager doubling) ops = some s → GroupsOk s := by
  intro h
  have ok := h [primaryOp 1, primaryOp 2, primaryOp 3, primaryOp 4, primaryOp 5] _ rfl
  exact absurd (ok.joins 0 (by decide) _ rfl) (by decide)

end GroupPointers
