import Aubstream.ContextLifetimes
import Mathlib.Data.List.Count

/-!
# The slots of a context group

The id of a new member is the group's counter, which nothing but a release of the
member with id 0 sets back. So which ids are free is a matter of the order in
which the members go.
-/

namespace ContextSlots
open GroupSubmission Transitions ContextLifetimes AubManagerImp

/-- A live context has an id in the group. -/
def Holds (s : AubManagerImp) (g : GroupPtr) (c : ContextPtr) (i : Nat) : Prop :=
  ∃ ctx, s.objects c = some ctx ∧ slotOf ctx = some g ∧ ctx.contextGroupId = i

/-- An initialized context has an id in the group. -/
def Occupies (s : AubManagerImp) (g : GroupPtr) (c : ContextPtr) (i : Nat) : Prop :=
  ∃ ctx, s.objects c = some ctx ∧ slotOf ctx = some g ∧ ctx.contextGroupId = i ∧
    ctx.pLRCA.isSome = true

def groupOf (s : AubManagerImp) (c : ContextPtr) : Option GroupPtr :=
  (s.objects c).bind (·.contextGroup)

/-- Live members of the group, with an id or without. -/
def memberCount (s : AubManagerImp) (g : GroupPtr) : Nat :=
  s.hwContexts.countP fun c => groupOf s c == some g

def size (s : AubManagerImp) (g : GroupPtr) : Nat := (s.contextGroups g).contexts.length

def counter (s : AubManagerImp) (g : GroupPtr) : Nat := (s.contextGroups g).contextGroupCounter

/-- No live context has the id of the next member, and there is a slot for it. -/
def NextFree (s : AubManagerImp) (g : GroupPtr) (next : Nat) : Prop :=
  next < size s g ∧ ∀ c, ¬ Holds s g c next

/-- The slots are a bijection between ids and initialized members. -/
structure Slotted (s : AubManagerImp) (g : GroupPtr) : Prop where
  owner : ∀ i c, (s.contextGroups g).contexts[i]? = some (some c) ↔ Occupies s g c i
  distinct : ∀ c c' i, Holds s g c i → Holds s g c' i → c = c'
  below : ∀ c i, Holds s g c i → i < size s g

/-- While there may be another member, there is a slot for it, whoever had it before. -/
structure SlotsOk (s : AubManagerImp) (g : GroupPtr) : Prop extends Slotted s g where
  room : memberCount s g < size s g → NextFree s g (counter s g)

/-- Never more members than slots. -/
def FewMembers (s : AubManagerImp) : Call → Prop
  | .create (some g) _ => memberCount s g < size s g
  | _ => True

/-- A new member leaves a free id behind the counter unless it is the last one; the member with id 0
is released by its destruction only; and another one is destroyed only while the counter stands at a
free id. -/
def Allowed (s : AubManagerImp) : Call → Prop
  | .create (some g) _ => memberCount s g + 1 < size s g → NextFree s g (counter s g + 1)
  | .release c => ∀ g, Holds s g c 0 → size s g ≤ memberCount s g
  | .destroy c => ∀ g, c ∈ s.hwContexts → groupOf s c = some g → ¬ Holds s g c 0 →
      counter s g < size s g ∧ ∀ c', c' ≠ c → ¬ Holds s g c' (counter s g)
  | _ => True

/-- The manager's list holds the live contexts, and every group has all its slots. -/
structure Living (count : Nat) (s : AubManagerImp) : Prop where
  nodup : s.hwContexts.Nodup
  listed : ∀ c, c ∈ s.hwContexts ↔ (s.objects c).isSome = true
  fresh : ∀ c, s.nextContext ≤ c → s.objects c = none
  slots : ∀ g, size s g = count

section
variable {s s' : AubManagerImp} {g : GroupPtr}

theorem Occupies.holds {c : ContextPtr} {i : Nat} (h : Occupies s g c i) : Holds s g c i := by
  obtain ⟨ctx, hc, hg, hi, _⟩ := h
  exact ⟨ctx, hc, hg, hi⟩

theorem slotOf_some {ctx : HardwareContextImp} (h : slotOf ctx = some g) :
    ctx.contextGroup = some g ∧ ctx.contextGroupId ≠ invalidGroupId := by
  unfold slotOf at h
  split at h
  · cases h
  · rename_i hid
    exact ⟨h, hid⟩

theorem slotOf_of_group {ctx : HardwareContextImp} (h : ctx.contextGroup = some g)
    (hid : ctx.contextGroupId ≠ invalidGroupId) : slotOf ctx = some g := by
  rw [slotOf, if_neg hid, h]

/-- A context has one id in one group. -/
theorem Holds.unique {g' : GroupPtr} {c : ContextPtr} {i i' : Nat} (h : Holds s g c i)
    (h' : Holds s g' c i') : g = g' ∧ i = i' := by
  obtain ⟨ctx, hc, hg, hi⟩ := h
  obtain ⟨ctx', hc', hg', hi'⟩ := h'
  obtain rfl := Option.some.inj (hc.symm.trans hc')
  exact ⟨Option.some.inj (hg.symm.trans hg'), hi.symm.trans hi'⟩

/-- What a group is is a matter of its slots, its counter and its members. -/
theorem SlotsOk.congr (ok : SlotsOk s g)
    (holds : ∀ c i, Holds s' g c i ↔ Holds s g c i)
    (occupies : ∀ c i, Occupies s' g c i ↔ Occupies s g c i)
    (groups : s'.contextGroups g = s.contextGroups g)
    (members : memberCount s' g = memberCount s g) : SlotsOk s' g := by
  obtain ⟨⟨owner, distinct, below⟩, room⟩ := ok
  refine ⟨⟨fun i c => ?_, fun c c' i h h' => ?_, fun c i h => ?_⟩, fun h => ?_⟩
  · rw [groups, occupies]
    exact owner i c
  · exact distinct c c' i ((holds c i).mp h) ((holds c' i).mp h')
  · rw [size, groups]
    exact below c i ((holds c i).mp h)
  · rw [members, size, groups] at h
    obtain ⟨hlt, hfree⟩ := room h
    rw [NextFree, size, counter, groups]
    exact ⟨hlt, fun c hc => hfree c ((holds c _).mp hc)⟩

end

/-- The ids after one object has changed. -/
theorem holds_setAt {s s' : AubManagerImp} {d : ContextPtr} {x : HardwareContextImp}
    (objects : s'.objects = setAt s.objects d (some x)) {g : GroupPtr} {c : ContextPtr} {i : Nat} :
    Holds s' g c i ↔ (c = d ∧ slotOf x = some g ∧ x.contextGroupId = i) ∨
      (c ≠ d ∧ Holds s g c i) := by
  unfold Holds
  rw [objects]
  constructor
  · rintro ⟨ctx, hc, hfacts⟩
    rcases setAt_cases hc with ⟨rfl, rfl⟩ | ⟨hne, hold⟩
    · exact Or.inl ⟨rfl, hfacts⟩
    · exact Or.inr ⟨hne, ctx, hold, hfacts⟩
  · rintro (⟨rfl, hfacts⟩ | ⟨hne, ctx, hold, hfacts⟩)
    · exact ⟨x, setAt_same _ _ _, hfacts⟩
    · exact ⟨ctx, by rw [setAt_ne _ _ hne, hold], hfacts⟩

theorem occupies_setAt {s s' : AubManagerImp} {d : ContextPtr} {x : HardwareContextImp}
    (objects : s'.objects = setAt s.objects d (some x)) {g : GroupPtr} {c : ContextPtr} {i : Nat} :
    Occupies s' g c i ↔
      (c = d ∧ slotOf x = some g ∧ x.contextGroupId = i ∧ x.pLRCA.isSome = true) ∨
        (c ≠ d ∧ Occupies s g c i) := by
  unfold Occupies
  rw [objects]
  constructor
  · rintro ⟨ctx, hc, hfacts⟩
    rcases setAt_cases hc with ⟨rfl, rfl⟩ | ⟨hne, hold⟩
    · exact Or.inl ⟨rfl, hfacts⟩
    · exact Or.inr ⟨hne, ctx, hold, hfacts⟩
  · rintro (⟨rfl, hfacts⟩ | ⟨hne, ctx, hold, hfacts⟩)
    · exact ⟨x, setAt_same _ _ _, hfacts⟩
    · exact ⟨ctx, by rw [setAt_ne _ _ hne, hold], hfacts⟩

/-- Contexts keep their groups, so these keep their members. -/
theorem memberCount_congr {s s' : AubManagerImp} {g : GroupPtr}
    (hwContexts : s'.hwContexts = s.hwContexts) (groups : ∀ c, groupOf s' c = groupOf s c) :
    memberCount s' g = memberCount s g := by
  unfold memberCount
  rw [hwContexts]
  exact List.countP_congr fun c _ => by rw [groups]

/-- A context leaves the list. -/
theorem memberCount_erase {s s' : AubManagerImp} {c : ContextPtr} {g : GroupPtr}
    (mem : c ∈ s.hwContexts) (hwContexts : s'.hwContexts = s.hwContexts.erase c)
    (groups : ∀ c' ∈ s.hwContexts.erase c, groupOf s' c' = groupOf s c') :
    memberCount s' g = memberCount s g - if groupOf s c = some g then 1 else 0 := by
  unfold memberCount
  rw [hwContexts, List.countP_congr fun c' hc' => by rw [groups c' hc'], List.countP_erase]
  simp only [mem, true_and, beq_iff_eq]

theorem groupOf_sameLives {s s' : AubManagerImp} (h : SameLives s s') (c : ContextPtr) :
    groupOf s' c = groupOf s c := by
  have hgroup : ∀ s : AubManagerImp, groupOf s c =
      ((s.objects c).map withoutId).bind (·.contextGroup) := by
    intro s
    unfold groupOf
    cases s.objects c <;> rfl
  rw [hgroup, hgroup, h.objects]

section
variable {count : Nat} {s : AubManagerImp} (living : Living count s)
include living

theorem living_lt {c : ContextPtr} {ctx : HardwareContextImp} (hc : s.objects c = some ctx) :
    c < s.nextContext := by
  by_contra hge
  rw [living.fresh c (Nat.not_lt.mp hge)] at hc
  cases hc

theorem next_notMem : s.nextContext ∉ s.hwContexts := by
  rw [living.listed, living.fresh _ (Nat.le_refl _)]
  simp

/-- A new context is a member of its group. -/
theorem memberCount_create (contextGroup : Option GroupPtr) (isRingDataEnabled : Bool)
    (g : GroupPtr) : memberCount (s.create contextGroup isRingDataEnabled) g =
      memberCount s g + if contextGroup = some g then 1 else 0 := by
  have hold : ∀ c ∈ s.hwContexts, groupOf (s.create contextGroup isRingDataEnabled) c =
      groupOf s c := by
    intro c hc
    have hne : c ≠ s.nextContext := fun h => next_notMem living (h ▸ hc)
    simp only [groupOf, create, setAt_ne _ _ hne]
  have hnew : groupOf (s.create contextGroup isRingDataEnabled) s.nextContext = contextGroup := by
    simp only [groupOf, create, setAt_same, Option.bind_some]
  have hlist : (s.create contextGroup isRingDataEnabled).hwContexts =
      s.hwContexts ++ [s.nextContext] := rfl
  unfold memberCount
  rw [hlist, List.countP_append, List.countP_congr fun c hc => by rw [hold c hc],
    List.countP_singleton, hnew]
  simp only [beq_iff_eq]

theorem create_living (contextGroup : Option GroupPtr) (isRingDataEnabled : Bool) :
    Living count (s.create contextGroup isRingDataEnabled) := by
  refine ⟨?_, fun c => ?_, fun c hc => ?_, fun g => ?_⟩
  · refine List.nodup_append.mpr ⟨living.nodup, by simp, ?_⟩
    intro c hc c' hc' heq
    rw [List.mem_singleton] at hc'
    exact next_notMem living (hc' ▸ heq ▸ hc)
  · by_cases hne : c = s.nextContext
    · subst hne
      simp [create]
    · simp only [create, List.mem_append, List.mem_singleton, hne, or_false, setAt_ne _ _ hne]
      exact living.listed c
  · have hlt : s.nextContext < c := hc
    simp only [create, setAt_ne _ _ (Nat.ne_of_gt hlt)]
    exact living.fresh c (Nat.le_of_lt hlt)
  · rw [← living.slots g]
    cases contextGroup with
    | none => rfl
    | some g₀ =>
      by_cases hg : g = g₀
      · subst hg
        simp only [size, create, setAt_same, ContextGroup.take]
      · simp only [size, create, setAt_ne _ _ hg]

end

section
variable {count : Nat} {s : AubManagerImp} (living : Living count s) {g : GroupPtr}
include living

/-- A new member has the counter as its id. -/
theorem holds_create {contextGroup : Option GroupPtr} (isRingDataEnabled : Bool)
    (valid : contextGroup = some g → counter s g ≠ invalidGroupId) {c : ContextPtr} {i : Nat} :
    Holds (s.create contextGroup isRingDataEnabled) g c i ↔
      Holds s g c i ∨ (c = s.nextContext ∧ contextGroup = some g ∧ counter s g = i) := by
  have hnone : ∀ i, ¬ Holds s g s.nextContext i := by
    rintro i ⟨ctx, hc, _⟩
    exact absurd (living_lt living hc) (Nat.lt_irrefl _)
  rw [holds_setAt (s := s) (d := s.nextContext) rfl]
  constructor
  · rintro (⟨hc, hg, hi⟩ | ⟨_, hold⟩)
    · obtain ⟨hgroup, _⟩ := slotOf_some hg
      simp only at hgroup
      subst hgroup
      exact Or.inr ⟨hc, rfl, hi⟩
    · exact Or.inl hold
  · rintro (hold | ⟨hc, hg, hi⟩)
    · exact Or.inr ⟨fun h => hnone i (h ▸ hold), hold⟩
    · subst hg
      exact Or.inl ⟨hc, slotOf_of_group rfl (valid rfl), hi⟩

theorem occupies_create (contextGroup : Option GroupPtr) (isRingDataEnabled : Bool)
    {c : ContextPtr} {i : Nat} :
    Occupies (s.create contextGroup isRingDataEnabled) g c i ↔ Occupies s g c i := by
  rw [occupies_setAt (s := s) (d := s.nextContext) rfl]
  constructor
  · rintro (⟨_, _, _, h⟩ | ⟨_, hold⟩)
    · cases h
    · exact hold
  · intro hold
    refine Or.inr ⟨?_, hold⟩
    rintro rfl
    obtain ⟨ctx, hc, _⟩ := hold
    exact absurd (living_lt living hc) (Nat.lt_irrefl _)

/-- A creation keeps the slots exactly if it leaves a free id behind. -/
theorem create_slots (hcount : count < invalidGroupId) (ok : ∀ g, SlotsOk s g)
    {contextGroup : Option GroupPtr} (isRingDataEnabled : Bool)
    (few : FewMembers s (.create contextGroup isRingDataEnabled)) :
    (∀ g, SlotsOk (s.create contextGroup isRingDataEnabled) g) ↔
      Allowed s (.create contextGroup isRingDataEnabled) := by
  have hother : ∀ g, contextGroup ≠ some g →
      SlotsOk (s.create contextGroup isRingDataEnabled) g := by
    intro g hne
    refine (ok g).congr (fun c i => ?_) (fun c i => occupies_create living _ _) ?_ ?_
    · rw [holds_create living isRingDataEnabled fun h => absurd h hne]
      exact or_iff_left fun h => hne h.2.1
    · cases contextGroup with
      | none => rfl
      | some g₀ => exact setAt_ne _ _ fun h => hne (by rw [h])
    · rw [memberCount_create living, if_neg hne, Nat.add_zero]
  cases contextGroup with
  | none => exact ⟨fun _ => trivial, fun _ g => hother g (by simp)⟩
  | some g₀ =>
    have hsize := living.slots g₀
    obtain ⟨⟨owner, distinct, below⟩, room⟩ := ok g₀
    obtain ⟨hlt, hfree⟩ := room few
    have hvalid : counter s g₀ ≠ invalidGroupId := by omega
    have hholds : ∀ c i, Holds (s.create (some g₀) isRingDataEnabled) g₀ c i ↔
        Holds s g₀ c i ∨ (c = s.nextContext ∧ some g₀ = some g₀ ∧ counter s g₀ = i) :=
      fun c i => holds_create living isRingDataEnabled fun _ => hvalid
    have hgroup : (s.create (some g₀) isRingDataEnabled).contextGroups g₀ =
        (s.contextGroups g₀).take := setAt_same _ _ _
    have hsize' : size (s.create (some g₀) isRingDataEnabled) g₀ = size s g₀ := by
      simp only [size, hgroup, ContextGroup.take]
    have hcounter : counter (s.create (some g₀) isRingDataEnabled) g₀ = counter s g₀ + 1 := by
      simp only [counter, hgroup, ContextGroup.take, HardwareContext.wrap32]
      refine Nat.mod_eq_of_lt ?_
      have hmax : invalidGroupId < 2 ^ 32 := by decide
      unfold counter at hlt
      omega
    have hmembers : memberCount (s.create (some g₀) isRingDataEnabled) g₀ = memberCount s g₀ + 1 := by
      rw [memberCount_create living, if_pos rfl]
    have hnext : NextFree (s.create (some g₀) isRingDataEnabled) g₀ (counter s g₀ + 1) ↔
        NextFree s g₀ (counter s g₀ + 1) := by
      unfold NextFree
      rw [hsize']
      refine and_congr_right fun _ => forall_congr' fun c => not_congr ?_
      rw [hholds]
      exact or_iff_left fun h => absurd h.2.2 (by omega)
    constructor
    · intro slots hmore
      have hroom := (slots g₀).room
      rw [hmembers, hsize', hcounter, hnext] at hroom
      exact hroom hmore
    · intro allowed g
      by_cases hg : g₀ = g
      · subst hg
        refine ⟨⟨fun i c => ?_, fun c c' i h h' => ?_, fun c i h => ?_⟩, fun h => ?_⟩
        · rw [occupies_create living, hgroup]
          exact owner i c
        · rw [hholds] at h h'
          rcases h with h | ⟨hc, _, hi⟩ <;> rcases h' with h' | ⟨hc', _, hi'⟩
          · exact distinct c c' i h h'
          · exact absurd (hi' ▸ h) (hfree c)
          · exact absurd (hi ▸ h') (hfree c')
          · rw [hc, hc']
        · rw [hholds] at h
          rw [hsize']
          rcases h with h | ⟨_, _, hi⟩
          · exact below c i h
          · exact hi ▸ hlt
        · rw [hmembers, hsize'] at h
          rw [hcounter, hnext]
          exact allowed h
      · exact hother g fun h => hg (Option.some.inj h)

end

section
variable {s s' : AubManagerImp} {c : ContextPtr}

theorem setAt_isSome {β : Type} {f : Nat → Option β} {p q : Nat} {x : β} (h : (f p).isSome = true) :
    (setAt f p (some x) q).isSome = (f q).isSome := by
  by_cases hq : q = p
  · rw [hq, setAt_same, h, Option.isSome_some]
  · rw [setAt_ne f _ hq]

/-- Neither call creates or destroys a context. -/
theorem living_setAt {count : Nat} {ctx : HardwareContextImp} {t : AubManagerImp}
    (living : Living count s) (hc : (s.objects c).isSome = true)
    (objects : t.objects = setAt s.objects c (some ctx)) (hwContexts : t.hwContexts = s.hwContexts)
    (nextContext : t.nextContext = s.nextContext) (lives : SameLives t s')
    (slots : ∀ g, size s' g = size s g) : Living count s' := by
  have hsome : ∀ c', (s'.objects c').isSome = (s.objects c').isSome := by
    intro c'
    rw [lives.isSome, objects, setAt_isSome hc]
  refine ⟨?_, fun c' => ?_, fun c' hc' => ?_, fun g => (slots g).trans (living.slots g)⟩
  · rw [lives.hwContexts, hwContexts]
    exact living.nodup
  · rw [lives.hwContexts, hwContexts, hsome]
    exact living.listed c'
  · rw [lives.nextContext, nextContext] at hc'
    have hnone := hsome c'
    rw [living.fresh c' hc', Option.isSome_none] at hnone
    rwa [Option.isSome_eq_false_iff, Option.isNone_iff_eq_none] at hnone

theorem groupOf_setAt {ctx x : HardwareContextImp} {t : AubManagerImp} (hc : s.objects c = some ctx)
    (same : x.contextGroup = ctx.contextGroup) (objects : t.objects = setAt s.objects c (some x))
    (c' : ContextPtr) : groupOf t c' = groupOf s c' := by
  unfold groupOf
  rw [objects]
  by_cases hcc : c' = c
  · rw [hcc, setAt_same, hc, Option.bind_some, Option.bind_some, same]
  · rw [setAt_ne _ _ hcc]

/-- An object that keeps its id keeps all ids. -/
theorem holds_setAt_same {ctx x : HardwareContextImp} {t : AubManagerImp}
    (hc : s.objects c = some ctx) (slot : slotOf x = slotOf ctx)
    (id : x.contextGroupId = ctx.contextGroupId)
    (objects : t.objects = setAt s.objects c (some x)) {g : GroupPtr} {c' : ContextPtr} {i : Nat} :
    Holds t g c' i ↔ Holds s g c' i := by
  rw [holds_setAt objects, slot, id]
  constructor
  · rintro (⟨rfl, hfacts⟩ | ⟨_, hold⟩)
    · exact ⟨ctx, hc, hfacts⟩
    · exact hold
  · intro hold
    by_cases hcc : c' = c
    · subst hcc
      obtain ⟨ctx', hc', hfacts⟩ := hold
      obtain rfl := Option.some.inj (hc.symm.trans hc')
      exact Or.inl ⟨rfl, hfacts⟩
    · exact Or.inr ⟨hcc, hold⟩

/-- An initialization takes the slot of the context's id. -/
theorem initializeContext_slots {count : Nat} (living : Living count s) (ok : ∀ g, SlotsOk s g)
    (h : s.initializeContext c = some s') : Living count s' ∧ ∀ g, SlotsOk s' g := by
  unfold initializeContext at h
  split at h
  · cases h
  · rename_i ctx hc
    split at h
    · rw [← Option.some.inj h]
      exact ⟨living, ok⟩
    · rename_i hnull
      have hsome : (s.objects c).isSome = true := by rw [hc, Option.isSome_some]
      have hlives := enterGroup_sameLives h
      have hobjects : (allocateBuffers s c ctx).objects = setAt s.objects c (some (allocate s ctx)) :=
        rfl
      have hholds : ∀ g c' i, Holds (allocateBuffers s c ctx) g c' i ↔ Holds s g c' i :=
        fun g c' i => holds_setAt_same (x := allocate s ctx) hc rfl rfl rfl
      have hoccupies : ∀ g c' i, Occupies (allocateBuffers s c ctx) g c' i ↔
          Occupies s g c' i ∨ (c' = c ∧ Holds s g c i) := by
        intro g c' i
        rw [occupies_setAt hobjects]
        constructor
        · rintro (⟨hcc, hg, hi, _⟩ | ⟨_, hold⟩)
          · exact Or.inr ⟨hcc, ctx, hc, hg, hi⟩
          · exact Or.inl hold
        · rintro (hold | ⟨rfl, ctx', hc', hg, hi⟩)
          · refine Or.inr ⟨?_, hold⟩
            rintro rfl
            obtain ⟨ctx', hc', _, _, hlrca⟩ := hold
            obtain rfl := Option.some.inj (hc.symm.trans hc')
            exact hnull hlrca
          · obtain rfl := Option.some.inj (hc.symm.trans hc')
            exact Or.inl ⟨rfl, hg, hi, rfl⟩
      have hmembers : ∀ g, memberCount s' g = memberCount s g := fun g =>
        memberCount_congr hlives.hwContexts fun c' =>
          (groupOf_sameLives hlives c').trans (groupOf_setAt (x := allocate s ctx) hc rfl hobjects c')
      have hliving := living_setAt living hsome hobjects rfl rfl hlives
      rcases enterGroup_cases h with ⟨hnone, rfl⟩ | ⟨g₀, hg₀, hlt, rfl⟩
      · refine ⟨hliving fun _ => rfl, fun g => (ok g).congr (hholds g) (fun c' i => ?_) rfl
          (hmembers g)⟩
        rw [hoccupies]
        refine or_iff_left ?_
        rintro ⟨_, ctx', hc', hg, _⟩
        obtain rfl := Option.some.inj (hc.symm.trans hc')
        rw [hnone] at hg
        cases hg
      · have hown : Holds s g₀ c ctx.contextGroupId := ⟨ctx, hc, hg₀, rfl⟩
        refine ⟨hliving fun g => ?_, fun g => ?_⟩
        · by_cases hg : g = g₀
          · subst hg
            simp only [size, setAt_same, ContextGroup.enter, List.length_set]
            rfl
          · simp only [size, setAt_ne _ _ hg]
            rfl
        · by_cases hg : g = g₀
          · subst hg
            obtain ⟨⟨owner, distinct, below⟩, room⟩ := ok g
            refine ⟨⟨fun i c' => ?_, fun c₁ c₂ i h₁ h₂ => distinct c₁ c₂ i ((hholds g c₁ i).mp h₁)
              ((hholds g c₂ i).mp h₂), fun c' i hc' => ?_⟩, fun hmore => ?_⟩
            · have hslots := hoccupies g c' i
              change _ ↔ Occupies (allocateBuffers s c ctx) g c' i
              simp only [setAt_same, ContextGroup.enter]
              rw [hslots]
              by_cases hi : ctx.contextGroupId = i
              · subst hi
                rw [List.getElem?_set_self hlt, Option.some.injEq, Option.some.injEq]
                constructor
                · rintro rfl
                  exact Or.inr ⟨rfl, hown⟩
                · rintro (hold | ⟨rfl, _⟩)
                  · exact distinct _ _ _ hown hold.holds
                  · rfl
              · rw [List.getElem?_set_ne hi]
                refine (owner i c').trans (or_iff_left ?_).symm
                rintro ⟨_, hold⟩
                exact hi (hown.unique hold).2
            · have hsize := below c' i ((hholds g c' i).mp hc')
              simp only [size, setAt_same, ContextGroup.enter, List.length_set]
              exact hsize
            · rw [hmembers] at hmore
              simp only [size, setAt_same, ContextGroup.enter, List.length_set] at hmore
              obtain ⟨hnext, hfree⟩ := room hmore
              simp only [NextFree, size, counter, setAt_same, ContextGroup.enter, List.length_set]
              exact ⟨hnext, fun c' hc' => hfree c' ((hholds g c' _).mp hc')⟩
          · refine (ok g).congr (hholds g) (fun c' i => ?_) (setAt_ne _ _ hg) (hmembers g)
            change Occupies (allocateBuffers s c ctx) g c' i ↔ _
            rw [hoccupies]
            refine or_iff_left ?_
            rintro ⟨_, hold⟩
            exact hg (hold.unique hown).1

section
variable {p : ContextPtr → Prop} [DecidablePred p]
  (objects : s'.objects = fun c => if p c then
    (s.objects c).map ({ · with contextGroupId := invalidGroupId }) else s.objects c)
  {g : GroupPtr} {c' : ContextPtr} {i : Nat}
include objects

/-- Contexts whose ids are taken away are in no group. -/
theorem object_reset {ctx : HardwareContextImp} (hg : slotOf ctx = some g) :
    s'.objects c' = some ctx ↔ s.objects c' = some ctx ∧ ¬ p c' := by
  rw [objects]
  constructor
  · intro h
    simp only at h
    split at h
    · obtain ⟨ctx', _, rfl⟩ := Option.map_eq_some_iff.mp h
      exact absurd rfl (slotOf_some hg).2
    · rename_i hp
      exact ⟨h, hp⟩
  · rintro ⟨h, hp⟩
    simp only [if_neg hp]
    exact h

theorem holds_reset : Holds s' g c' i ↔ Holds s g c' i ∧ ¬ p c' := by
  constructor
  · rintro ⟨ctx, hc, hg, hi⟩
    obtain ⟨hold, hp⟩ := (object_reset objects hg).mp hc
    exact ⟨⟨ctx, hold, hg, hi⟩, hp⟩
  · rintro ⟨⟨ctx, hc, hg, hi⟩, hp⟩
    exact ⟨ctx, (object_reset objects hg).mpr ⟨hc, hp⟩, hg, hi⟩

theorem occupies_reset : Occupies s' g c' i ↔ Occupies s g c' i ∧ ¬ p c' := by
  constructor
  · rintro ⟨ctx, hc, hg, hi⟩
    obtain ⟨hold, hp⟩ := (object_reset objects hg).mp hc
    exact ⟨⟨ctx, hold, hg, hi⟩, hp⟩
  · rintro ⟨⟨ctx, hc, hg, hi⟩, hp⟩
    exact ⟨ctx, (object_reset objects hg).mpr ⟨hc, hp⟩, hg, hi⟩

end

/-- What a release does to the ids and the slots of a group. -/
structure Released (s s' : AubManagerImp) (c : ContextPtr) (g : GroupPtr) : Prop where
  holds : ∀ c' i, Holds s' g c' i ↔
    Holds s g c' i ∧ (Holds s g c 0 → c' = c ∨ ¬ Occupies s g c' i)
  occupies : ∀ c' i, Occupies s' g c' i ↔ Occupies s g c' i ∧ c' ≠ c ∧ ¬ Holds s g c 0
  owner : ∀ i c', (s'.contextGroups g).contexts[i]? = some (some c') ↔ Occupies s' g c' i
  size : size s' g = size s g
  counter : counter s' g = counter s g ∧ ¬ Holds s g c 0 ∨ counter s' g = 0 ∧ Holds s g c 0

section
variable {ctx : HardwareContextImp} (hc : s.objects c = some ctx) {g : GroupPtr}
include hc

theorem holds_deleteBuffers {c' : ContextPtr} {i : Nat} :
    Holds (deleteBuffers s c ctx) g c' i ↔ Holds s g c' i :=
  holds_setAt_same hc (x := { ctx with pLRCA := none, released := true })
    (t := deleteBuffers s c ctx) rfl rfl rfl

omit hc in
theorem occupies_deleteBuffers {c' : ContextPtr} {i : Nat} :
    Occupies (deleteBuffers s c ctx) g c' i ↔ Occupies s g c' i ∧ c' ≠ c := by
  rw [occupies_setAt (s := s) (d := c) rfl]
  constructor
  · rintro (⟨_, _, _, h⟩ | ⟨hne, hold⟩)
    · cases h
    · exact ⟨hold, hne⟩
  · rintro ⟨hold, hne⟩
    exact Or.inr ⟨hne, hold⟩

theorem holds_iff {i : Nat} : Holds s g c i ↔ slotOf ctx = some g ∧ ctx.contextGroupId = i := by
  constructor
  · rintro ⟨ctx', hc', hfacts⟩
    obtain rfl := Option.some.inj (hc.symm.trans hc')
    exact hfacts
  · exact fun hfacts => ⟨ctx, hc, hfacts⟩

end

section
variable (ok : ∀ g, Slotted s g) {g : GroupPtr}
include ok

/-- A group that the context has no id in. -/
theorem released_other (hno : ∀ i, ¬ Holds s g c i)
    (holds : ∀ c' i, Holds s' g c' i ↔ Holds s g c' i)
    (occupies : ∀ c' i, Occupies s' g c' i ↔ Occupies s g c' i ∧ c' ≠ c)
    (groups : s'.contextGroups g = s.contextGroups g) : Released s s' c g := by
  have hoccupies : ∀ c' i, Occupies s' g c' i ↔ Occupies s g c' i := by
    intro c' i
    rw [occupies]
    refine and_iff_left_of_imp fun h hcc => hno i ?_
    exact hcc ▸ h.holds
  refine ⟨fun c' i => ?_, fun c' i => ?_, fun i c' => ?_, ?_, Or.inl ⟨?_, hno 0⟩⟩
  · rw [holds]
    exact (and_iff_left fun h => absurd h (hno 0)).symm
  · rw [occupies]
    exact and_congr_right fun _ => (and_iff_left (hno 0)).symm
  · rw [groups, hoccupies]
    exact (ok g).owner i c'
  · rw [size, size, groups]
  · rw [counter, counter, groups]

/-- The group of a member whose id is not 0. -/
theorem released_id {i₀ : Nat} (hown : Holds s g c i₀) (hid : i₀ ≠ 0) (hlt : i₀ < size s g)
    (holds : ∀ c' i, Holds s' g c' i ↔ Holds s g c' i)
    (occupies : ∀ c' i, Occupies s' g c' i ↔ Occupies s g c' i ∧ c' ≠ c)
    (groups : s'.contextGroups g = (s.contextGroups g).enter i₀ none) : Released s s' c g := by
  have hzero : ¬ Holds s g c 0 := fun h => hid (hown.unique h).2
  refine ⟨fun c' i => ?_, fun c' i => ?_, fun i c' => ?_, ?_, Or.inl ⟨?_, hzero⟩⟩
  · rw [holds]
    exact (and_iff_left fun h => absurd h hzero).symm
  · rw [occupies]
    exact and_congr_right fun _ => (and_iff_left hzero).symm
  · rw [groups, occupies]
    simp only [ContextGroup.enter]
    by_cases hi : i₀ = i
    · subst hi
      rw [List.getElem?_set_self hlt]
      refine ⟨fun h => (by cases h), ?_⟩
      rintro ⟨hold, hne⟩
      exact absurd ((ok g).distinct _ _ _ hold.holds hown) hne
    · rw [List.getElem?_set_ne hi, (ok g).owner i c']
      refine (and_iff_left_of_imp fun h hcc => hi ?_).symm
      exact (hown.unique (hcc ▸ h.holds)).2
  · simp only [size, groups, ContextGroup.enter, List.length_set]
  · simp only [counter, groups, ContextGroup.enter]

/-- The members that lose their ids to the member with id 0. -/
theorem mem_cleared (hown : Holds s g c 0) {c' : ContextPtr} :
    some c' ∈ ((s.contextGroups g).enter 0 none).contexts ↔ ∃ i, i ≠ 0 ∧ Occupies s g c' i := by
  simp only [ContextGroup.enter]
  rw [List.mem_iff_getElem?]
  constructor
  · rintro ⟨i, hi⟩
    by_cases hzero : i = 0
    · subst hzero
      rw [List.getElem?_set_self ((ok g).below c 0 hown)] at hi
      cases hi
    · rw [List.getElem?_set_ne (Ne.symm hzero), (ok g).owner] at hi
      exact ⟨i, hzero, hi⟩
  · rintro ⟨i, hzero, hi⟩
    refine ⟨i, ?_⟩
    rw [List.getElem?_set_ne (Ne.symm hzero)]
    exact ((ok g).owner i c').mpr hi

/-- The group of the member with id 0. -/
theorem released_primary (hown : Holds s g c 0)
    (holds : ∀ c' i, Holds s' g c' i ↔ Holds s g c' i ∧
      some c' ∉ ((s.contextGroups g).enter 0 none).contexts)
    (occupies : ∀ c' i, Occupies s' g c' i ↔ (Occupies s g c' i ∧ c' ≠ c) ∧
      some c' ∉ ((s.contextGroups g).enter 0 none).contexts)
    (groups : s'.contextGroups g = ((s.contextGroups g).enter 0 none).clear) :
    Released s s' c g := by
  have hmem : ∀ c', some c' ∈ ((s.contextGroups g).enter 0 none).contexts ↔
      ∃ i, i ≠ 0 ∧ Occupies s g c' i := fun c' => mem_cleared ok hown
  have hnone : ∀ c' i, ¬ Occupies s' g c' i := by
    intro c' i h
    rw [occupies, hmem] at h
    obtain ⟨⟨hold, hne⟩, hnot⟩ := h
    by_cases hzero : i = 0
    · subst hzero
      exact hne ((ok g).distinct _ _ _ hold.holds hown)
    · exact hnot ⟨i, hzero, hold⟩
  refine ⟨fun c' i => ?_, fun c' i => ?_, fun i c' => ?_, ?_, Or.inr ⟨?_, hown⟩⟩
  · rw [holds, hmem]
    refine and_congr_right fun hold => ⟨fun hnot _ => ?_, ?_⟩
    · by_cases hcc : c' = c
      · exact Or.inl hcc
      · refine Or.inr fun hocc => hnot ⟨i, fun hzero => hcc ?_, hocc⟩
        subst hzero
        exact (ok g).distinct _ _ _ hold hown
    · rintro himp ⟨j, hj, hocc⟩
      rcases himp hown with hcc | hnot
      · exact hj (hown.unique (hcc ▸ hocc.holds)).2.symm
      · exact hnot ((hocc.holds.unique hold).2 ▸ hocc)
  · exact ⟨fun h => absurd h (hnone c' i), fun h => absurd hown h.2.2⟩
  · rw [groups]
    refine ⟨fun h => ?_, fun h => absurd h (hnone c' i)⟩
    simp only [ContextGroup.clear, List.getElem?_map, Option.map_eq_some_iff] at h
    obtain ⟨_, _, h⟩ := h
    cases h
  · simp only [size, groups, ContextGroup.clear, ContextGroup.enter, List.length_map, List.length_set]
  · simp only [counter, groups, ContextGroup.clear]

end

/-- One release, whatever the id of the context. -/
theorem release_released (ok : ∀ g, Slotted s g) (h : s.release c = some s') :
    (s.objects c).isSome = true ∧ (∀ g, Released s s' c g) ∧
      (∀ c', groupOf s' c' = groupOf s c') ∧ s'.hwContexts = s.hwContexts ∧
      (∀ c', (s'.objects c').isSome = (s.objects c').isSome) ∧ s'.nextContext = s.nextContext := by
  unfold release at h
  split at h
  · cases h
  · rename_i ctx hc
    have hlives := leaveGroup_sameLives h
    have hsome : (s.objects c).isSome = true := by rw [hc, Option.isSome_some]
    have hholds : ∀ g c' i, Holds (deleteBuffers s c ctx) g c' i ↔ Holds s g c' i :=
      fun g c' i => holds_deleteBuffers hc
    have hoccupies : ∀ g c' i, Occupies (deleteBuffers s c ctx) g c' i ↔
        Occupies s g c' i ∧ c' ≠ c := fun g c' i => occupies_deleteBuffers
    have hiff : ∀ g i, Holds s g c i ↔ slotOf ctx = some g ∧ ctx.contextGroupId = i :=
      fun g i => holds_iff hc
    have hreleased : ∀ g, Released s s' c g := by
      rcases leaveGroup_cases h with ⟨hnone, rfl⟩ | ⟨g₀, hg₀, hlt, ⟨hid, rfl⟩ | ⟨hid, rfl⟩⟩
      · intro g
        refine released_other ok (fun i hold => ?_) (hholds g) (hoccupies g) rfl
        rw [hiff, hnone] at hold
        cases hold.1
      · have hown := (hiff g₀ 0).mpr ⟨hg₀, hid⟩
        rw [hid]
        intro g
        by_cases hg : g = g₀
        · subst hg
          refine released_primary ok hown (fun c' i => ?_) (fun c' i => ?_) (setAt_same _ _ _)
          · rw [holds_reset (s := deleteBuffers s c ctx) rfl, hholds]
            rfl
          · rw [occupies_reset (s := deleteBuffers s c ctx) rfl, hoccupies]
            rfl
        · have hother : ∀ c' i, Holds s g c' i →
              some c' ∉ ((s.contextGroups g₀).enter 0 none).contexts := by
            intro c' i hold hmem
            obtain ⟨j, _, hocc⟩ := (mem_cleared ok hown).mp hmem
            exact hg (hold.unique hocc.holds).1
          refine released_other ok (fun i hold => hg (hold.unique hown).1) (fun c' i => ?_)
            (fun c' i => ?_) (setAt_ne _ _ hg)
          · rw [holds_reset (s := deleteBuffers s c ctx) rfl, hholds]
            exact and_iff_left_of_imp (hother c' i)
          · rw [occupies_reset (s := deleteBuffers s c ctx) rfl, hoccupies]
            exact and_iff_left_of_imp fun h => hother c' i h.1.holds
      · intro g
        by_cases hg : g = g₀
        · subst hg
          exact released_id ok ((hiff g _).mpr ⟨hg₀, rfl⟩) hid hlt (hholds g) (hoccupies g)
            (setAt_same _ _ _)
        · refine released_other ok (fun i hold => ?_) (hholds g) (hoccupies g) (setAt_ne _ _ hg)
          rw [hiff, hg₀, Option.some.injEq] at hold
          exact hg hold.1.symm
    refine ⟨hsome, hreleased, fun c' => ?_, hlives.hwContexts, fun c' => ?_, hlives.nextContext⟩
    · rw [groupOf_sameLives hlives]
      exact groupOf_setAt (x := { ctx with pLRCA := none, released := true }) hc rfl rfl c'
    · rw [hlives.isSome]
      exact setAt_isSome hsome

end

/-- What holds in every state of a run. -/
structure Inv (count : Nat) (s : AubManagerImp) : Prop where
  living : Living count s
  ok : ∀ g, SlotsOk s g
  few : ∀ g, memberCount s g ≤ count

section
variable {count : Nat} {s s' : AubManagerImp} {c : ContextPtr} (inv : Inv count s)
include inv

/-- A release keeps the slots unless it leaves the member with id 0 its id. -/
theorem release_slots (h : s.release c = some s') :
    Living count s' ∧ (∀ g, memberCount s' g = memberCount s g) ∧
      ((∀ g, SlotsOk s' g) ↔ Allowed s (.release c)) := by
  obtain ⟨_, released, groups, hwContexts, hsome, hnext⟩ :=
    release_released (fun g => (inv.ok g).toSlotted) h
  have hmembers : ∀ g, memberCount s' g = memberCount s g :=
    fun g => memberCount_congr hwContexts groups
  refine ⟨⟨?_, fun c' => ?_, fun c' hc' => ?_, fun g => (released g).size.trans (inv.living.slots g)⟩,
    hmembers, fun ok g hown => ?_, fun allowed g => ?_⟩
  · rw [hwContexts]
    exact inv.living.nodup
  · rw [hwContexts, hsome]
    exact inv.living.listed c'
  · rw [hnext] at hc'
    have hnone := hsome c'
    rw [inv.living.fresh c' hc', Option.isSome_none] at hnone
    rwa [Option.isSome_eq_false_iff, Option.isNone_iff_eq_none] at hnone
  · by_contra hmore
    have hroom := (ok g).room
    rcases (released g).counter with ⟨_, hzero⟩ | ⟨hcounter, _⟩
    · exact hzero hown
    · rw [hmembers, (released g).size, hcounter] at hroom
      exact (hroom (Nat.not_le.mp hmore)).2 c (((released g).holds c 0).mpr
        ⟨hown, fun _ => Or.inl rfl⟩)
  · refine ⟨⟨(released g).owner, fun c₁ c₂ i h₁ h₂ => (inv.ok g).distinct c₁ c₂ i
      (((released g).holds c₁ i).mp h₁).1 (((released g).holds c₂ i).mp h₂).1, fun c' i hc' => ?_⟩,
      fun hmore => ?_⟩
    · rw [(released g).size]
      exact (inv.ok g).below c' i (((released g).holds c' i).mp hc').1
    · rw [hmembers, (released g).size] at hmore
      rcases (released g).counter with ⟨hcounter, _⟩ | ⟨_, hown⟩
      · obtain ⟨hlt, hfree⟩ := (inv.ok g).room hmore
        rw [hcounter, NextFree, (released g).size]
        exact ⟨hlt, fun c' hc' => hfree c' (((released g).holds c' _).mp hc').1⟩
      · exact absurd (allowed g hown) (Nat.not_le.mpr hmore)

end

section
variable {count : Nat} {s s' : AubManagerImp} {c : ContextPtr} (inv : Inv count s)
include inv

/-- A destruction is a release after which the context is in no list and no group. -/
structure Destroyed (s s' : AubManagerImp) (c : ContextPtr) (g : GroupPtr) : Prop where
  holds : ∀ c' i, Holds s' g c' i ↔
    (Holds s g c' i ∧ c' ≠ c) ∧ (Holds s g c 0 → ¬ Occupies s g c' i)
  slotted : Slotted s' g
  size : size s' g = size s g
  counter : counter s' g = counter s g ∧ ¬ Holds s g c 0 ∨ counter s' g = 0 ∧ Holds s g c 0
  members : memberCount s' g = memberCount s g - if groupOf s c = some g then 1 else 0

theorem destroy_destroyed (h : s.destroy c = some s') (mem : c ∈ s.hwContexts) :
    Living count s' ∧ ∀ g, Destroyed s s' c g := by
  unfold destroy at h
  rw [if_pos mem, Option.map_eq_some_iff] at h
  obtain ⟨s₁, hrelease, rfl⟩ := h
  obtain ⟨_, released, groups, hwContexts, hsome, hnext⟩ :=
    release_released (s := { s with hwContexts := s.hwContexts.erase c })
      (fun g => ⟨(inv.ok g).owner, (inv.ok g).distinct, (inv.ok g).below⟩) hrelease
  have hnone : ∀ c', c' ≠ c → setAt s₁.objects c none c' = s₁.objects c' :=
    fun c' hne => setAt_ne _ _ hne
  have hholds₁ : ∀ g c' i, Holds { s₁ with objects := setAt s₁.objects c none } g c' i ↔
      Holds s₁ g c' i ∧ c' ≠ c := by
    intro g c' i
    unfold Holds
    constructor
    · rintro ⟨ctx, hc', hfacts⟩
      have hne : c' ≠ c := by
        rintro rfl
        simp only [setAt_same] at hc'
        cases hc'
      exact ⟨⟨ctx, (hnone c' hne).symm.trans hc', hfacts⟩, hne⟩
    · rintro ⟨⟨ctx, hc', hfacts⟩, hne⟩
      exact ⟨ctx, (hnone c' hne).trans hc', hfacts⟩
  have hoccupies : ∀ g c' i, Occupies { s₁ with objects := setAt s₁.objects c none } g c' i ↔
      Occupies s₁ g c' i := by
    intro g c' i
    constructor
    · rintro ⟨ctx, hc', hfacts⟩
      have hne : c' ≠ c := by
        rintro rfl
        simp only [setAt_same] at hc'
        cases hc'
      exact ⟨ctx, (hnone c' hne).symm.trans hc', hfacts⟩
    · intro hocc
      have hne := (((released g).occupies c' i).mp hocc).2.1
      obtain ⟨ctx, hc', hfacts⟩ := hocc
      exact ⟨ctx, (hnone c' hne).trans hc', hfacts⟩
  have hholds : ∀ g c' i, Holds { s₁ with objects := setAt s₁.objects c none } g c' i ↔
      (Holds s g c' i ∧ c' ≠ c) ∧ (Holds s g c 0 → ¬ Occupies s g c' i) := by
    intro g c' i
    rw [hholds₁, (released g).holds, and_right_comm]
    exact and_congr_right fun hne => imp_congr_right fun _ => or_iff_right hne.2
  refine ⟨⟨?_, fun c' => ?_, fun c' hc' => ?_, fun g => (released g).size.trans
    (inv.living.slots g)⟩, fun g => ⟨hholds g, ⟨fun i c' => ?_, fun c₁ c₂ i h₁ h₂ => ?_,
    fun c' i hc' => ?_⟩, (released g).size, (released g).counter, ?_⟩⟩
  · rw [hwContexts]
    exact inv.living.nodup.erase c
  · rw [hwContexts, inv.living.nodup.mem_erase_iff]
    by_cases hcc : c' = c
    · subst hcc
      simp only [setAt_same, Option.isSome_none, Bool.false_eq_true, ne_eq, not_true_eq_false,
        false_and]
    · simp only [hnone c' hcc, hsome, ne_eq, hcc, not_false_eq_true, true_and]
      exact inv.living.listed c'
  · by_cases hcc : c' = c
    · rw [hcc]
      exact setAt_same _ _ _
    · have hfresh := hsome c'
      rw [inv.living.fresh c' (hnext ▸ hc'), Option.isSome_none, Option.isSome_eq_false_iff,
        Option.isNone_iff_eq_none] at hfresh
      exact (hnone c' hcc).trans hfresh
  · rw [hoccupies]
    exact (released g).owner i c'
  · exact (inv.ok g).distinct c₁ c₂ i ((hholds g c₁ i).mp h₁).1.1 ((hholds g c₂ i).mp h₂).1.1
  · have hlt := (inv.ok g).below c' i ((hholds g c' i).mp hc').1.1
    exact hlt.trans_eq (released g).size.symm
  · have hgroups : ∀ c' ∈ s.hwContexts.erase c,
        groupOf { s₁ with objects := setAt s₁.objects c none } c' = groupOf s c' := by
      intro c' hc'
      have hne := (inv.living.nodup.mem_erase_iff.mp hc').1
      simp only [groupOf, hnone c' hne]
      exact groups c'
    exact memberCount_erase mem hwContexts hgroups

/-- A destruction keeps the slots exactly if it leaves the next member a slot. -/
theorem destroy_slots (h : s.destroy c = some s') :
    Living count s' ∧ (∀ g, memberCount s' g ≤ memberCount s g) ∧
      ((∀ g, SlotsOk s' g) ↔ Allowed s (.destroy c)) := by
  by_cases mem : c ∈ s.hwContexts
  · obtain ⟨living, destroyed⟩ := destroy_destroyed inv h mem
    have hmembers : ∀ g, memberCount s' g ≤ memberCount s g := by
      intro g
      rw [(destroyed g).members]
      exact Nat.sub_le _ _
    refine ⟨living, hmembers, fun ok g _ hgroup hzero => ?_, fun allowed g =>
      ⟨(destroyed g).slotted, fun hmore => ?_⟩⟩
    · -- the destroyed member left room in its group
      have hmember : 0 < memberCount s g :=
        List.countP_pos_iff.mpr ⟨c, mem, beq_iff_eq.mpr hgroup⟩
      have hmore : memberCount s' g < size s' g := by
        rw [(destroyed g).members, if_pos hgroup, (destroyed g).size, inv.living.slots]
        exact Nat.lt_of_lt_of_le (Nat.sub_lt hmember Nat.one_pos) (inv.few g)
      obtain ⟨hlt, hfree⟩ := (ok g).room hmore
      rcases (destroyed g).counter with ⟨hcounter, _⟩ | ⟨_, hown⟩
      · rw [(destroyed g).size, hcounter] at hlt
        rw [hcounter] at hfree
        exact ⟨hlt, fun c' hne hold => hfree c' (((destroyed g).holds c' _).mpr
          ⟨⟨hold, hne⟩, fun hown => absurd hown hzero⟩)⟩
      · exact absurd hown hzero
    · rcases (destroyed g).counter with ⟨hcounter, hzero⟩ | ⟨hcounter, hown⟩
      · rw [hcounter, NextFree, (destroyed g).size]
        by_cases hgroup : groupOf s c = some g
        · obtain ⟨hlt, hfree⟩ := allowed g mem hgroup hzero
          refine ⟨hlt, fun c' hc' => ?_⟩
          obtain ⟨⟨hold, hne⟩, _⟩ := ((destroyed g).holds c' _).mp hc'
          exact hfree c' hne hold
        · rw [(destroyed g).members, if_neg hgroup, (destroyed g).size, Nat.sub_zero] at hmore
          obtain ⟨hlt, hfree⟩ := (inv.ok g).room hmore
          exact ⟨hlt, fun c' hc' => hfree c' (((destroyed g).holds c' _).mp hc').1.1⟩
      · rw [hcounter, NextFree, (destroyed g).size]
        refine ⟨(inv.ok g).below c 0 hown, fun c' hc' => ?_⟩
        obtain ⟨⟨hold, hne⟩, _⟩ := ((destroyed g).holds c' 0).mp hc'
        exact hne ((inv.ok g).distinct c' c 0 hold hown)
  · unfold destroy at h
    rw [if_neg mem] at h
    obtain rfl := Option.some.inj h
    exact ⟨inv.living, fun _ => Nat.le_refl _, fun _ _ hmem => absurd hmem mem, fun _ => inv.ok⟩

end

/-- An initialization changes no group's members. -/
theorem initializeContext_members {s s' : AubManagerImp} {c : ContextPtr}
    (h : s.initializeContext c = some s') (g : GroupPtr) : memberCount s' g = memberCount s g := by
  unfold initializeContext at h
  split at h
  · cases h
  · rename_i ctx hc
    split at h
    · rw [← Option.some.inj h]
    · have hlives := enterGroup_sameLives h
      refine memberCount_congr hlives.hwContexts fun c' => ?_
      rw [groupOf_sameLives hlives]
      exact groupOf_setAt (x := allocate s ctx) hc rfl rfl c'

theorem newManager_inv (count : Nat) : Inv count (newManager count) := by
  have hholds : ∀ g c i, ¬ Holds (newManager count) g c i := by
    rintro g c i ⟨ctx, hc, _⟩
    cases hc
  refine ⟨⟨List.nodup_nil, fun c => ?_, fun _ _ => rfl, fun g => List.length_replicate⟩,
    fun g => ⟨⟨fun i c => ⟨fun h => ?_, fun h => absurd h.holds (hholds g c i)⟩,
      fun c c' i h => absurd h (hholds g c i), fun c i h => absurd h (hholds g c i)⟩,
      fun hmore => ⟨hmore, fun c => hholds g c 0⟩⟩, fun g => Nat.zero_le _⟩
  · exact ⟨fun h => absurd h List.not_mem_nil, fun h => by cases h⟩
  · have hmem : some c ∈ List.replicate count (none : Option ContextPtr) := List.mem_of_getElem? h
    cases List.eq_of_mem_replicate hmem

section
variable {count : Nat} {s s' : AubManagerImp} {o : Call} (hcount : count < invalidGroupId)
  (inv : Inv count s)
include hcount inv

/-- A call keeps the slots exactly if it is allowed. -/
theorem callStep_slots (few : FewMembers s o) (h : callStep s o = some s') :
    Living count s' ∧ (∀ g, memberCount s' g ≤ count) ∧
      ((∀ g, SlotsOk s' g) ↔ Allowed s o) := by
  cases o with
  | create contextGroup isRingDataEnabled =>
    obtain rfl := Option.some.inj h
    refine ⟨create_living inv.living _ _, fun g => ?_,
      create_slots inv.living hcount inv.ok isRingDataEnabled few⟩
    rw [memberCount_create inv.living]
    split
    · rename_i hg
      subst hg
      exact (inv.living.slots g) ▸ few
    · exact inv.few g
  | initializeContext c =>
    obtain ⟨living, ok⟩ := initializeContext_slots inv.living inv.ok h
    exact ⟨living, fun g => (initializeContext_members h g).symm ▸ inv.few g,
      fun _ => trivial, fun _ => ok⟩
  | release c =>
    obtain ⟨living, members, hiff⟩ := release_slots inv h
    exact ⟨living, fun g => (members g).symm ▸ inv.few g, hiff⟩
  | destroy c =>
    obtain ⟨living, members, hiff⟩ := destroy_slots inv h
    exact ⟨living, fun g => Nat.le_trans (members g) (inv.few g), hiff⟩

end

/-- An operation whose calls are all allowed. -/
def AllowedOp (s : AubManagerImp) (o : Op) : Prop :=
  AllAlong callStep (fun s o => FewMembers s o ∧ Allowed s o) s (s.calls o)

theorem reach_inv {count : Nat} (hcount : count < invalidGroupId) {s : AubManagerImp}
    (reached : Reach step AllowedOp (newManager count) s) : Inv count s := by
  refine (Reach.calls reached).invariant (newManager_inv count) fun s o s' inv allowed done => ?_
  obtain ⟨living, few, hiff⟩ := callStep_slots hcount inv allowed.1 done
  exact ⟨living, hiff.mpr allowed.2, few⟩

theorem getContextGroupCount_lt (family : CoreFamily) :
    family.getContextGroupCount < invalidGroupId := by
  cases family <;> decide

/-- While every call is allowed, slots and initialized members are in bijection and the next member
has one; the first call that is not allowed breaks this. -/
theorem slots_bijection_iff (family : CoreFamily) (s : AubManagerImp)
    (reached : Reach step AllowedOp (newManager family.getContextGroupCount) s) :
    (∀ g, SlotsOk s g) ∧ ∀ o s', FewMembers s o → callStep s o = some s' →
      ((∀ g, SlotsOk s' g) ↔ Allowed s o) := by
  have hcount := getContextGroupCount_lt family
  have inv := reach_inv hcount reached
  exact ⟨inv.ok, fun _ _ few h => (callStep_slots hcount inv few h).2.2⟩

/-- Two members; the first is destroyed. -/
def leftRun : List Op := [.call (.create (some 0) false), .call (.create (some 0) false),
  .call (.initializeContext 0), .call (.initializeContext 1), .call (.destroy 0)]

/-- A new member takes the slot of the destroyed one. -/
theorem slots_bijection_taken :
    ∃ s, runAll step (newManager 8)
        (leftRun ++ [.call (.create (some 0) false), .call (.initializeContext 2)]) = some s ∧
      (s.contextGroups 0).contexts = some 2 :: List.replicate 7 none ∧ ∀ g, SlotsOk s g := by
  have allowed : AllAlong step AllowedOp (newManager 8) leftRun := by
    refine And.intro (And.intro (And.intro (Nat.lt_of_sub_pos (by decide))
      fun _ => And.intro (by decide) ?_) fun _ _ => trivial) fun s₁ h₁ => ?_
    · rintro c ⟨ctx, hc, _⟩
      cases hc
    obtain rfl := Option.some.inj h₁
    refine And.intro (And.intro (And.intro (Nat.lt_of_sub_pos (by decide))
      fun _ => And.intro (by decide) ?_) fun _ _ => trivial) fun s₂ h₂ => ?_
    · rintro c ⟨ctx, hc, _, hi⟩
      rcases setAt_cases hc with ⟨rfl, rfl⟩ | ⟨_, hold⟩
      · cases hi
      · cases hold
    obtain rfl := Option.some.inj h₂
    refine And.intro (And.intro (And.intro trivial trivial) fun _ _ => trivial) fun s₃ h₃ => ?_
    obtain rfl := Option.some.inj h₃
    refine And.intro (And.intro (And.intro trivial trivial) fun _ _ => trivial) fun s₄ h₄ => ?_
    obtain rfl := Option.some.inj h₄
    refine And.intro (And.intro (And.intro trivial ?_) fun _ _ => trivial) fun _ _ => trivial
    intro g _ hgroup hzero
    obtain rfl := Option.some.inj hgroup
    exact absurd ⟨_, rfl, rfl, rfl⟩ hzero
  have left := Reach.runAll leftRun .start allowed rfl
  have listed := (reach_inv (by decide) left).living.listed
  refine ⟨_, rfl, rfl, (slots_bijection_iff .xeCore _ (.step (.step left
    (o := .call (.create (some 0) false)) (And.intro (And.intro (Nat.lt_of_sub_pos (by decide))
      fun _ => And.intro (by decide) ?_) fun _ _ => trivial) rfl)
    (o := .call (.initializeContext 2)) (And.intro (And.intro trivial trivial) fun _ _ => trivial)
    rfl)).1⟩
  rintro c ⟨ctx, hc, hg, hi⟩
  obtain rfl := List.mem_singleton.mp ((listed c).mpr (Option.isSome_of_mem hc))
  cases hc
  cases hi
/-- The member with id 0 is closed and a new one has its id. -/
theorem not_slots_bijection :
    ¬ ∀ (ops : List Op) (s : AubManagerImp),
      AllAlong step (fun s o => AllAlong callStep FewMembers s (s.calls o)) (newManager 8) ops →
      runAll step (newManager 8) ops = some s → ∀ g, SlotsOk s g := by
  intro h
  have few : AllAlong step (fun s o => AllAlong callStep FewMembers s (s.calls o)) (newManager 8)
      [.call (.create (some 0) false), .call (.initializeContext 0), .managerClose,
        .call (.create (some 0) false)] := by
    refine And.intro (And.intro (Nat.lt_of_sub_pos (by decide)) fun _ _ => trivial) fun s₁ h₁ => ?_
    obtain rfl := Option.some.inj h₁
    refine And.intro (And.intro trivial fun _ _ => trivial) fun s₂ h₂ => ?_
    obtain rfl := Option.some.inj h₂
    refine And.intro (And.intro trivial fun _ _ => trivial) fun s₃ h₃ => ?_
    obtain rfl := Option.some.inj h₃
    exact And.intro (And.intro (Nat.lt_of_sub_pos (by decide)) fun _ _ => trivial) fun _ _ => trivial
  have distinct := (h _ _ few rfl 0).distinct 0 1 0
  cases distinct ⟨_, rfl, rfl, rfl⟩ ⟨_, rfl, rfl, rfl⟩

end ContextSlots
