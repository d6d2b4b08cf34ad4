import Aubstream.ContextLifetimes

/-!
# The buffers of hardware contexts

An initialized context owns its register image and its ring state. A release
deletes both and forgets the first only, so what a second release deletes depends
on whether there was a ring state.
-/

namespace ContextBuffers
open Transitions ContextLifetimes AubManagerImp

def Points (ctx : HardwareContextImp) (b : Buffer) : Prop :=
  ctx.pLRCA = some b ∨ ctx.pRingData = some b

/-- A buffer of an initialized context. -/
def Owned (s : AubManagerImp) (b : Buffer) : Prop :=
  ∃ c ctx, s.objects c = some ctx ∧ ctx.pLRCA.isSome = true ∧ Points ctx b

/-- Every buffer that was allocated is either owned or freed, and freed only once. -/
structure FreedOnce (s : AubManagerImp) : Prop where
  owned : ∀ b, Owned s b → s.freed.count b = 0
  others : ∀ b, b < s.nextBuffer → ¬ Owned s b → s.freed.count b = 1

theorem FreedOnce.count_le {s : AubManagerImp} (h : FreedOnce s) (b : Buffer)
    (hb : b < s.nextBuffer) : s.freed.count b ≤ 1 := by
  by_cases owned : Owned s b
  · rw [h.owned b owned]
    exact Nat.zero_le _
  · exact Nat.le_of_eq (h.others b hb owned)

/-- A release of a released context changes neither it nor its group. -/
def ReleaseKeeps (s : AubManagerImp) (o : Call) (s' : AubManagerImp) : Prop :=
  match o with
  | .release c => ∀ ctx, s.objects c = some ctx → ctx.released = true →
      s'.objects = s.objects ∧ s'.contextGroups = s.contextGroups
  | .destroy c => ∀ ctx, c ∈ s.hwContexts → s.objects c = some ctx → ctx.released = true →
      s'.objects = setAt s.objects c none ∧ s'.contextGroups = s.contextGroups
  | _ => True

/-- Nobody has taken the slot of a context, or any slot of its group where it has id 0. -/
def GroupLeft (s : AubManagerImp) (ctx : HardwareContextImp) : Prop :=
  ∀ g, slotOf ctx = some g → (s.contextGroups g).contexts.getD ctx.contextGroupId none = none ∧
    (ctx.contextGroupId = 0 → (s.contextGroups g).contextGroupCounter = 0 ∧
      ∀ x ∈ (s.contextGroups g).contexts, x = none)

/-- A context that is released a second time has no ring state and finds its group as it left it. -/
def MayRelease (s : AubManagerImp) (ctx : HardwareContextImp) : Prop :=
  (ctx.pLRCA = none → ctx.pRingData = none) ∧ (ctx.released = true → GroupLeft s ctx)

def Allowed (s : AubManagerImp) : Call → Prop
  | .release c => ∀ ctx, s.objects c = some ctx → MayRelease s ctx
  | .destroy c => ∀ ctx, c ∈ s.hwContexts → s.objects c = some ctx → MayRelease s ctx
  | _ => True

/-- Pointers are to buffers that were allocated, and no two of them are equal. -/
structure Buffered (s : AubManagerImp) : Prop where
  fresh : ∀ c, s.nextContext ≤ c → s.objects c = none
  lt : ∀ c ctx b, s.objects c = some ctx → Points ctx b → b < s.nextBuffer
  apart : ∀ c c' ctx ctx' b, s.objects c = some ctx → s.objects c' = some ctx' → Points ctx b →
    Points ctx' b → c = c'
  pair : ∀ c ctx b, s.objects c = some ctx → ctx.pLRCA = some b → ctx.pRingData ≠ some b
  released : ∀ c ctx, s.objects c = some ctx → ctx.released = true → ctx.pLRCA = none
  ringData : ∀ c ctx, s.objects c = some ctx → ctx.isRingDataEnabled = false → ctx.pRingData = none
  freed_lt : ∀ b, b ∈ s.freed → b < s.nextBuffer

section
variable {s s' : AubManagerImp}

theorem sameLives_symm (h : SameLives s s') : SameLives s' s :=
  ⟨fun c => (h.objects c).symm, h.hwContexts.symm, h.nextContext.symm, h.nextBuffer.symm,
    h.freed.symm⟩

theorem sameLives_object (h : SameLives s s') {c : ContextPtr} {ctx' : HardwareContextImp}
    (hc : s'.objects c = some ctx') :
    ∃ ctx, s.objects c = some ctx ∧ ctx.pLRCA = ctx'.pLRCA ∧ ctx.pRingData = ctx'.pRingData ∧
      ctx.released = ctx'.released ∧ ctx.isRingDataEnabled = ctx'.isRingDataEnabled := by
  have hlives := h.objects c
  rw [hc, Option.map_some, eq_comm, Option.map_eq_some_iff] at hlives
  obtain ⟨ctx, hctx, heq⟩ := hlives
  simp only [withoutId, HardwareContextImp.mk.injEq] at heq
  exact ⟨ctx, hctx, heq.2.2.2.1, heq.2.2.2.2.1, heq.2.2.2.2.2, heq.2.2.1⟩

theorem owned_sameLives (h : SameLives s s') {b : Buffer} (owned : Owned s' b) : Owned s b := by
  obtain ⟨c, ctx', hc, hlrca, hpoints⟩ := owned
  obtain ⟨ctx, hctx, hp, hr, _⟩ := sameLives_object h hc
  refine ⟨c, ctx, hctx, hp ▸ hlrca, ?_⟩
  unfold Points at hpoints ⊢
  rwa [hp, hr]

theorem freedOnce_sameLives (h : SameLives s s') (freed : FreedOnce s) : FreedOnce s' := by
  refine ⟨fun b howned => ?_, fun b hb hnot => ?_⟩
  · rw [h.freed]
    exact freed.owned b (owned_sameLives h howned)
  · rw [h.freed]
    exact freed.others b (h.nextBuffer ▸ hb) fun howned =>
      hnot (owned_sameLives (sameLives_symm h) howned)

theorem buffered_sameLives (h : SameLives s s') (buffered : Buffered s) : Buffered s' := by
  obtain ⟨fresh, lt, apart, pair, released, ringData, freed_lt⟩ := buffered
  refine ⟨fun c hc => ?_, fun c ctx' b hc hb => ?_, fun c c' x x' b hc hc' hb hb' => ?_,
    fun c ctx' b hc hb => ?_, fun c ctx' hc hrel => ?_, fun c ctx' hc hring => ?_, fun b hb => ?_⟩
  · have hsome := h.isSome c
    rw [fresh c (h.nextContext ▸ hc), Option.isSome_none, Option.isSome_eq_false_iff,
      Option.isNone_iff_eq_none] at hsome
    exact hsome
  · obtain ⟨ctx, hctx, hp, hr, _⟩ := sameLives_object h hc
    rw [h.nextBuffer]
    exact lt c ctx b hctx (hb.imp hp.trans hr.trans)
  · obtain ⟨ctx, hctx, hp, hr, _⟩ := sameLives_object h hc
    obtain ⟨ctx', hctx', hp', hr', _⟩ := sameLives_object h hc'
    exact apart c c' ctx ctx' b hctx hctx' (hb.imp hp.trans hr.trans) (hb'.imp hp'.trans hr'.trans)
  · obtain ⟨ctx, hctx, hp, hr, _⟩ := sameLives_object h hc
    exact hr ▸ pair c ctx b hctx (hp.trans hb)
  · obtain ⟨ctx, hctx, hp, _, hrel', _⟩ := sameLives_object h hc
    exact hp ▸ released c ctx hctx (hrel'.trans hrel)
  · obtain ⟨ctx, hctx, _, hr, _, hring'⟩ := sameLives_object h hc
    exact hr ▸ ringData c ctx hctx (hring'.trans hring)
  · rw [h.freed] at hb
    rw [h.nextBuffer]
    exact freed_lt b hb

end

/-- An object takes the place of one or of none; what it points to nobody else does. -/
theorem buffered_setAt {s s' : AubManagerImp} (buffered : Buffered s) {c : ContextPtr}
    {ctx : HardwareContextImp} (objects : s'.objects = setAt s.objects c (some ctx))
    (hc : c < s'.nextContext) (next : s.nextContext ≤ s'.nextContext)
    (grows : s.nextBuffer ≤ s'.nextBuffer) (lt : ∀ b, Points ctx b → b < s'.nextBuffer)
    (own : ∀ b, Points ctx b → s.nextBuffer ≤ b ∨ ∃ old, s.objects c = some old ∧ Points old b)
    (pair : ∀ b, ctx.pLRCA = some b → ctx.pRingData ≠ some b)
    (released : ctx.released = true → ctx.pLRCA = none)
    (ringData : ctx.isRingDataEnabled = false → ctx.pRingData = none)
    (freed_lt : ∀ b, b ∈ s'.freed → b < s'.nextBuffer) : Buffered s' := by
  have hown : ∀ c' ctx' b, c' ≠ c → s.objects c' = some ctx' → Points ctx' b → ¬ Points ctx b := by
    intro c' ctx' b hne hc' hb' hb
    rcases own b hb with hge | ⟨old, hold, hpoints⟩
    · exact absurd (buffered.lt c' ctx' b hc' hb') (Nat.not_lt.mpr hge)
    · exact hne (buffered.apart c' c ctx' old b hc' hold hb' hpoints)
  refine ⟨fun c' hc' => ?_, fun c' ctx' b hc' hb => ?_, fun c₁ c₂ x₁ x₂ b h₁ h₂ hb₁ hb₂ => ?_,
    fun c' ctx' b hc' hb => ?_, fun c' ctx' hc' hrel => ?_, fun c' ctx' hc' hring => ?_, freed_lt⟩
  · rw [objects, setAt_ne _ _ (Nat.ne_of_gt (Nat.lt_of_lt_of_le hc hc'))]
    exact buffered.fresh c' (Nat.le_trans next hc')
  · rw [objects] at hc'
    rcases setAt_cases hc' with ⟨rfl, rfl⟩ | ⟨_, hold⟩
    · exact lt b hb
    · exact Nat.lt_of_lt_of_le (buffered.lt c' ctx' b hold hb) grows
  · rw [objects] at h₁ h₂
    rcases setAt_cases h₁ with ⟨rfl, rfl⟩ | ⟨hne₁, hold₁⟩ <;>
      rcases setAt_cases h₂ with ⟨rfl, rfl⟩ | ⟨hne₂, hold₂⟩
    · rfl
    · exact absurd hb₁ (hown c₂ x₂ b hne₂ hold₂ hb₂)
    · exact absurd hb₂ (hown c₁ x₁ b hne₁ hold₁ hb₁)
    · exact buffered.apart c₁ c₂ x₁ x₂ b hold₁ hold₂ hb₁ hb₂
  · rw [objects] at hc'
    rcases setAt_cases hc' with ⟨rfl, rfl⟩ | ⟨_, hold⟩
    · exact pair b hb
    · exact buffered.pair c' ctx' b hold hb
  · rw [objects] at hc'
    rcases setAt_cases hc' with ⟨rfl, rfl⟩ | ⟨_, hold⟩
    · exact released hrel
    · exact buffered.released c' ctx' hold hrel
  · rw [objects] at hc'
    rcases setAt_cases hc' with ⟨rfl, rfl⟩ | ⟨_, hold⟩
    · exact ringData hring
    · exact buffered.ringData c' ctx' hold hring

/-- What both initialization and release start with: an object takes the place of one. -/
theorem owned_setAt {s s' : AubManagerImp} {c : ContextPtr} {ctx : HardwareContextImp}
    (objects : s'.objects = setAt s.objects c (some ctx)) {b : Buffer} :
    Owned s' b ↔ (ctx.pLRCA.isSome = true ∧ Points ctx b) ∨
      ∃ c' ctx', c' ≠ c ∧ s.objects c' = some ctx' ∧ ctx'.pLRCA.isSome = true ∧ Points ctx' b := by
  unfold Owned
  rw [objects]
  constructor
  · rintro ⟨c', ctx', hc', hlrca, hb⟩
    rcases setAt_cases hc' with ⟨_, rfl⟩ | ⟨hne, hold⟩
    · exact Or.inl ⟨hlrca, hb⟩
    · exact Or.inr ⟨c', ctx', hne, hold, hlrca, hb⟩
  · rintro (⟨hlrca, hb⟩ | ⟨c', ctx', hne, hold, hlrca, hb⟩)
    · exact ⟨c, ctx, setAt_same _ _ _, hlrca, hb⟩
    · exact ⟨c', ctx', by rw [setAt_ne _ _ hne, hold], hlrca, hb⟩

theorem owned_split {s : AubManagerImp} {c : ContextPtr} {ctx : HardwareContextImp}
    (hc : s.objects c = some ctx) {b : Buffer} :
    Owned s b ↔ (ctx.pLRCA.isSome = true ∧ Points ctx b) ∨
      ∃ c' ctx', c' ≠ c ∧ s.objects c' = some ctx' ∧ ctx'.pLRCA.isSome = true ∧ Points ctx' b := by
  refine owned_setAt (s := s) (c := c) ?_
  funext c'
  by_cases hcc : c' = c
  · rw [hcc, setAt_same, hc]
  · rw [setAt_ne _ _ hcc]

/-- What holds in every state of a run. -/
structure Inv (s : AubManagerImp) : Prop where
  buffered : Buffered s
  freedOnce : FreedOnce s

theorem inv_sameLives {s s' : AubManagerImp} (h : SameLives s s') (inv : Inv s) : Inv s' :=
  ⟨buffered_sameLives h inv.buffered, freedOnce_sameLives h inv.freedOnce⟩

theorem newManager_inv (count : Nat) : Inv (newManager count) := by
  refine ⟨⟨fun _ _ => rfl, ?_, ?_, ?_, ?_, ?_, ?_⟩, ?_, ?_⟩
  · intro c ctx b hc
    cases hc
  · intro c c' ctx ctx' b hc
    cases hc
  · intro c ctx b hc
    cases hc
  · intro c ctx hc
    cases hc
  · intro c ctx hc
    cases hc
  · intro b hb
    cases hb
  · rintro b ⟨c, ctx, hc, _⟩
    cases hc
  · intro b hb
    exact absurd hb (Nat.not_lt_zero b)

/-- A new context points to nothing. -/
theorem create_inv {s : AubManagerImp} (inv : Inv s) (contextGroup : Option GroupPtr)
    (isRingDataEnabled : Bool) : Inv (s.create contextGroup isRingDataEnabled) := by
  have hnone : ∀ groupId b,
      ¬ Points ⟨contextGroup, groupId, isRingDataEnabled, none, none, false⟩ b := by
    rintro groupId b (h | h) <;> cases h
  refine ⟨buffered_setAt inv.buffered (c := s.nextContext) rfl (Nat.lt_succ_self _) (Nat.le_succ _)
    (Nat.le_refl _) (fun b hb => absurd hb (hnone _ b)) (fun b hb => absurd hb (hnone _ b))
    (fun b hb => by cases hb) (fun h => by cases h) (fun _ => rfl) inv.buffered.freed_lt, ?_⟩
  have howned : ∀ b, Owned (s.create contextGroup isRingDataEnabled) b ↔ Owned s b := by
    intro b
    rw [owned_setAt (s := s) (c := s.nextContext) rfl]
    constructor
    · rintro (⟨h, _⟩ | ⟨c', ctx', _, hold, hlrca, hb⟩)
      · cases h
      · exact ⟨c', ctx', hold, hlrca, hb⟩
    · rintro ⟨c', ctx', hold, hlrca, hb⟩
      refine Or.inr ⟨c', ctx', ?_, hold, hlrca, hb⟩
      rintro rfl
      rw [inv.buffered.fresh _ (Nat.le_refl _)] at hold
      cases hold
  exact ⟨fun b hb => inv.freedOnce.owned b ((howned b).mp hb),
    fun b hb hnot => inv.freedOnce.others b hb (fun h => hnot ((howned b).mpr h))⟩

theorem points_allocate {s : AubManagerImp} {ctx : HardwareContextImp}
    (ringData : ctx.isRingDataEnabled = false → ctx.pRingData = none) {b : Buffer} :
    Points (allocate s ctx) b ↔ s.nextBuffer ≤ b ∧
      b < if ctx.isRingDataEnabled then s.nextBuffer + 2 else s.nextBuffer + 1 := by
  unfold Points allocate
  cases hring : ctx.isRingDataEnabled with
  | true =>
    simp only [if_true, Option.some.injEq]
    constructor
    · rintro (rfl | rfl)
      · exact ⟨Nat.le_refl _, Nat.lt_add_of_pos_right (by decide)⟩
      · exact ⟨Nat.le_succ _, Nat.lt_succ_self _⟩
    · rintro ⟨h1, h2⟩
      rcases Nat.eq_or_lt_of_le h1 with heq | hlt
      · exact Or.inl heq
      · exact Or.inr (Nat.le_antisymm hlt (Nat.le_of_lt_succ h2))
  | false =>
    rw [ringData hring]
    simp only [reduceCtorEq, if_false, or_false, Option.some.injEq, Bool.false_eq_true]
    constructor
    · rintro rfl
      exact ⟨Nat.le_refl _, Nat.lt_succ_self _⟩
    · rintro ⟨h1, h2⟩
      exact Nat.le_antisymm h1 (Nat.le_of_lt_succ h2)

/-- The buffers that an initialization allocates are new. -/
theorem initializeContext_inv {s s' : AubManagerImp} {c : ContextPtr} (inv : Inv s)
    (h : s.initializeContext c = some s') : Inv s' := by
  unfold initializeContext at h
  split at h
  · cases h
  · rename_i ctx hc
    split at h
    · rw [← Option.some.inj h]
      exact inv
    · rename_i hnull
      rw [Option.not_isSome_iff_eq_none] at hnull
      refine inv_sameLives (enterGroup_sameLives h) ?_
      have hringData := inv.buffered.ringData c ctx hc
      have hpoints := fun b => points_allocate (s := s) hringData (b := b)
      have hlt : c < s.nextContext := by
        by_contra hge
        rw [inv.buffered.fresh c (Nat.not_lt.mp hge)] at hc
        cases hc
      have hgrows : s.nextBuffer ≤
          if ctx.isRingDataEnabled then s.nextBuffer + 2 else s.nextBuffer + 1 := by
        split
        · exact Nat.le_add_right _ 2
        · exact Nat.le_succ _
      -- what the context pointed to before it does not own
      have howned : ∀ b, Owned (allocateBuffers s c ctx) b ↔
          Points (allocate s ctx) b ∨ Owned s b := by
        intro b
        rw [owned_setAt rfl, owned_split hc, hnull]
        simp only [Option.isSome_none, Bool.false_eq_true, false_and, false_or]
        exact or_congr_left (and_iff_right rfl)
      refine ⟨buffered_setAt inv.buffered rfl hlt (Nat.le_refl _) hgrows
        (fun b hb => ((hpoints b).mp hb).2) (fun b hb => Or.inl ((hpoints b).mp hb).1) ?_
        (fun hrel => by cases hrel) ?_ ?_, ?_, ?_⟩
      · intro b hb hb'
        simp only [allocate, Option.some.injEq] at hb hb'
        subst hb
        split at hb'
        · exact absurd (Option.some.inj hb') (Nat.succ_ne_self _)
        · rename_i hring
          rw [hringData (Bool.not_eq_true _ ▸ hring)] at hb'
          cases hb'
      · intro hring
        have hring' : ctx.isRingDataEnabled = false := hring
        simp only [allocate, hring', Bool.false_eq_true, if_false]
        exact hringData hring'
      · exact fun b hb => Nat.lt_of_lt_of_le (inv.buffered.freed_lt b hb) hgrows
      · intro b hb
        rcases (howned b).mp hb with hnew | hold
        · exact List.count_eq_zero.mpr fun hfreed =>
            absurd (inv.buffered.freed_lt b hfreed) (Nat.not_lt.mpr ((hpoints b).mp hnew).1)
        · exact inv.freedOnce.owned b hold
      · intro b hb hnot
        rw [howned, not_or, hpoints, not_and] at hnot
        refine inv.freedOnce.others b ?_ hnot.2
        by_contra hge
        exact hnot.1 (Nat.not_lt.mp hge) hb

theorem count_deletes {ctx : HardwareContextImp}
    (pair : ∀ b, ctx.pLRCA = some b → ctx.pRingData ≠ some b) (b : Buffer) :
    (Points ctx b → (deletes ctx).count b = 1) ∧ (¬ Points ctx b → (deletes ctx).count b = 0) := by
  unfold Points deletes
  constructor
  · rintro (hp | hr)
    · have hne : b ∉ ctx.pRingData.toList := fun h => pair b hp (Option.mem_toList.mp h)
      rw [hp, List.count_append, List.count_eq_zero.mpr hne]
      simp
    · have hne : b ∉ ctx.pLRCA.toList := fun h => pair b (Option.mem_toList.mp h) hr
      rw [hr, List.count_append, List.count_eq_zero.mpr hne]
      simp
  · intro hnot
    rw [not_or] at hnot
    refine List.count_eq_zero.mpr fun h => ?_
    rcases List.mem_append.mp h with h | h
    · exact hnot.2 (Option.mem_toList.mp h)
    · exact hnot.1 (Option.mem_toList.mp h)

section
variable {s : AubManagerImp} {c : ContextPtr} {ctx : HardwareContextImp} (inv : Inv s)
  (hc : s.objects c = some ctx)
include inv hc

theorem deleteBuffers_buffered : Buffered (deleteBuffers s c ctx) := by
  have hlt : c < s.nextContext := by
    by_contra hge
    rw [inv.buffered.fresh c (Nat.not_lt.mp hge)] at hc
    cases hc
  have hpoints : ∀ b, Points { ctx with pLRCA := none, released := true } b → Points ctx b := by
    rintro b (h | h)
    · cases h
    · exact Or.inr h
  refine buffered_setAt inv.buffered rfl hlt (Nat.le_refl _) (Nat.le_refl _)
    (fun b hb => inv.buffered.lt c ctx b hc (hpoints b hb))
    (fun b hb => Or.inr ⟨ctx, hc, hpoints b hb⟩) (fun b hb => by cases hb) (fun _ => rfl)
    (inv.buffered.ringData c ctx hc) fun b hb => ?_
  rcases List.mem_append.mp hb with hdeleted | hfreed
  · refine inv.buffered.lt c ctx b hc ?_
    rcases List.mem_append.mp hdeleted with h | h
    · exact Or.inr (Option.mem_toList.mp h)
    · exact Or.inl (Option.mem_toList.mp h)
  · exact inv.buffered.freed_lt b hfreed

theorem deleteBuffers_owned (b : Buffer) :
    Owned (deleteBuffers s c ctx) b ↔ Owned s b ∧ ¬ Points ctx b := by
  rw [owned_setAt (s := s) (c := c) rfl, owned_split hc]
  constructor
  · rintro (⟨h, _⟩ | ⟨c', ctx', hne, hold, hlrca, hb⟩)
    · cases h
    · exact ⟨Or.inr ⟨c', ctx', hne, hold, hlrca, hb⟩, fun hb' =>
        hne (inv.buffered.apart c' c ctx' ctx b hold hc hb hb')⟩
  · rintro ⟨⟨_, hb⟩ | hother, hnot⟩
    · exact absurd hb hnot
    · exact Or.inr hother

/-- Only the ring state of a context that has been released is deleted twice. -/
theorem deleteBuffers_freedOnce :
    FreedOnce (deleteBuffers s c ctx) ↔ (ctx.pLRCA = none → ctx.pRingData = none) := by
  have howned := deleteBuffers_owned inv hc
  have hcount := count_deletes (inv.buffered.pair c ctx · hc)
  have hfreed : ∀ b, (deleteBuffers s c ctx).freed.count b =
      (deletes ctx).count b + s.freed.count b := fun b => List.count_append
  constructor
  · intro freed hnull
    by_contra hsome
    obtain ⟨b, hb⟩ := Option.ne_none_iff_exists'.mp hsome
    have hpoints : Points ctx b := Or.inr hb
    have hnot : ¬ Owned s b := by
      rw [owned_split hc, hnull]
      rintro (⟨h, _⟩ | ⟨c', ctx', hne, hold, _, hb'⟩)
      · cases h
      · exact hne (inv.buffered.apart c' c ctx' ctx b hold hc hb' hpoints)
    have hlt := inv.buffered.lt c ctx b hc hpoints
    have htwice := freed.others b hlt fun h => hnot ((howned b).mp h).1
    rw [hfreed, (hcount b).1 hpoints, inv.freedOnce.others b hlt hnot] at htwice
    omega
  · intro single
    refine ⟨fun b hb => ?_, fun b hlt hnot => ?_⟩
    · obtain ⟨hown, hpoints⟩ := (howned b).mp hb
      rw [hfreed, (hcount b).2 hpoints, inv.freedOnce.owned b hown]
    · by_cases hpoints : Points ctx b
      · have hlrca : ctx.pLRCA.isSome = true := by
          by_contra hnull
          rw [Option.not_isSome_iff_eq_none] at hnull
          rcases hpoints with h | h
          · rw [hnull] at h
            cases h
          · rw [single hnull] at h
            cases h
        rw [hfreed, (hcount b).1 hpoints,
          inv.freedOnce.owned b ((owned_split hc).mpr (Or.inl ⟨hlrca, hpoints⟩))]
      · rw [hfreed, (hcount b).2 hpoints, Nat.zero_add]
        exact inv.freedOnce.others b hlt fun h => hnot ((howned b).mpr ⟨h, hpoints⟩)

end

/-- Leaving a group again changes nothing if nobody has come in since, and only then. -/
theorem leaveGroup_keeps {s s' : AubManagerImp} {ctx : HardwareContextImp}
    (h : leaveGroup s ctx = some s') :
    (s'.contextGroups = s.contextGroups → GroupLeft s ctx) ∧
      (GroupLeft s ctx → s'.objects = s.objects ∧ s'.contextGroups = s.contextGroups) := by
  rcases leaveGroup_cases h with ⟨hnone, rfl⟩ | ⟨g, hg, hlt, hcases⟩
  · refine ⟨fun _ g hg => ?_, fun _ => ⟨rfl, rfl⟩⟩
    rw [hnone] at hg
    cases hg
  · have hslot : (s.contextGroups g).contexts.getD ctx.contextGroupId none =
        (s.contextGroups g).contexts[ctx.contextGroupId] := List.getD_eq_getElem _ _ hlt
    have hset : (s.contextGroups g).contexts[ctx.contextGroupId] = none →
        (s.contextGroups g).enter ctx.contextGroupId none = s.contextGroups g := by
      intro hempty
      have hsame : (s.contextGroups g).contexts.set ctx.contextGroupId
          (s.contextGroups g).contexts[ctx.contextGroupId] = (s.contextGroups g).contexts :=
        List.set_getElem_self hlt
      rw [hempty] at hsame
      simp only [ContextGroup.enter, hsame]
    have hgroup : ∀ group, setAt s.contextGroups g group = s.contextGroups →
        group = s.contextGroups g := by
      intro group heq
      rw [← heq, setAt_same]
    have hsetAt : setAt s.contextGroups g (s.contextGroups g) = s.contextGroups := by
      funext q
      by_cases hq : q = g
      · rw [hq, setAt_same]
      · rw [setAt_ne _ _ hq]
    have hread : ∀ group, setAt s.contextGroups g group = s.contextGroups →
        group.contexts[ctx.contextGroupId]? = some none →
          (s.contextGroups g).contexts[ctx.contextGroupId] = none := by
      intro group heq hempty
      rw [hgroup group heq, List.getElem?_eq_getElem hlt, Option.some.injEq] at hempty
      exact hempty
    rcases hcases with ⟨hid, rfl⟩ | ⟨hid, rfl⟩
    · constructor
      · intro hgroups
        have hclear := hgroup _ hgroups
        intro g' hg'
        obtain rfl : g = g' := Option.some.inj (hg.symm.trans hg')
        refine ⟨hslot.trans (hread _ hgroups ?_), fun _ => ⟨?_, fun x hx => ?_⟩⟩
        · simp only [ContextGroup.clear, ContextGroup.enter, List.getElem?_map]
          rw [List.getElem?_set_self hlt]
          rfl
        · exact (congrArg ContextGroup.contextGroupCounter hclear).symm
        · rw [← hclear] at hx
          obtain ⟨_, _, hx⟩ := List.mem_map.mp hx
          exact hx.symm
      · intro left
        obtain ⟨hempty, hall⟩ := left g hg
        obtain ⟨hcounter, hnone⟩ := hall hid
        rw [hslot] at hempty
        rw [hset hempty]
        constructor
        · funext c
          simp only
          rw [if_neg]
          intro hmem
          exact absurd (hnone _ hmem) (by simp)
        · have hclear : (s.contextGroups g).clear = s.contextGroups g := by
            have hmap : ((s.contextGroups g).contexts.map fun _ => none) =
                (s.contextGroups g).contexts := by
              conv_rhs => rw [← List.map_id (s.contextGroups g).contexts]
              exact List.map_congr_left fun x hx => (hnone x hx).symm
            unfold ContextGroup.clear
            rw [hmap, ← hcounter]
          simp only [hclear, hsetAt]
    · constructor
      · intro hgroups g' hg'
        obtain rfl : g = g' := Option.some.inj (hg.symm.trans hg')
        refine ⟨hslot.trans (hread _ hgroups ?_), fun h => absurd h hid⟩
        simp only [ContextGroup.enter]
        exact List.getElem?_set_self hlt
      · intro left
        have hempty := (left g hg).1
        rw [hslot] at hempty
        exact ⟨rfl, by simp only [hset hempty, hsetAt]⟩

/-- A release of a released context finds its objects as they are to be. -/
theorem deleteBuffers_objects {s : AubManagerImp} {c : ContextPtr} {ctx : HardwareContextImp}
    (inv : Inv s) (hc : s.objects c = some ctx) (released : ctx.released = true) :
    (deleteBuffers s c ctx).objects = s.objects := by
  have hsame : { ctx with pLRCA := none, released := true } = ctx := by
    rw [← inv.buffered.released c ctx hc released, ← released]
  funext c'
  by_cases hcc : c' = c
  · simp only [deleteBuffers, hcc, setAt_same, hsame, hc]
  · exact setAt_ne _ _ hcc

/-- One release, whatever the state of the context. -/
theorem release_step {s s' : AubManagerImp} {c : ContextPtr} (inv : Inv s)
    (h : s.release c = some s') :
    ∃ ctx, s.objects c = some ctx ∧ Buffered s' ∧
      (FreedOnce s' ↔ (ctx.pLRCA = none → ctx.pRingData = none)) ∧
      (ctx.released = true → (s'.contextGroups = s.contextGroups → GroupLeft s ctx) ∧
        (GroupLeft s ctx → s'.objects = s.objects ∧ s'.contextGroups = s.contextGroups)) ∧
      ∀ ctx', s'.objects c = some ctx' → ctx'.pLRCA = none := by
  unfold release at h
  split at h
  · cases h
  · rename_i ctx hc
    have hlives := leaveGroup_sameLives h
    refine ⟨ctx, hc, buffered_sameLives hlives (deleteBuffers_buffered inv hc), ?_, ?_, ?_⟩
    · rw [← deleteBuffers_freedOnce inv hc]
      exact ⟨freedOnce_sameLives (sameLives_symm hlives), freedOnce_sameLives hlives⟩
    · intro released
      rw [← deleteBuffers_objects inv hc released]
      exact leaveGroup_keeps h
    · intro ctx' hc'
      obtain ⟨ctx'', hc'', hp, _⟩ := sameLives_object hlives hc'
      simp only [deleteBuffers, setAt_same, Option.some.injEq] at hc''
      rw [← hp, ← hc'']

theorem inv_hwContexts {s : AubManagerImp} (inv : Inv s) (hwContexts : List ContextPtr) :
    Inv { s with hwContexts := hwContexts } :=
  ⟨⟨inv.buffered.fresh, inv.buffered.lt, inv.buffered.apart, inv.buffered.pair,
    inv.buffered.released, inv.buffered.ringData, inv.buffered.freed_lt⟩,
    ⟨inv.freedOnce.owned, inv.freedOnce.others⟩⟩

/-- What is left when an object is gone. -/
theorem setAt_none {β : Type} {f : Nat → Option β} {p q : Nat} {y : β}
    (h : setAt f p none q = some y) : q ≠ p ∧ f q = some y := by
  by_cases hq : q = p
  · rw [hq, setAt_same] at h
    cases h
  · rw [setAt_ne f _ hq] at h
    exact ⟨hq, h⟩

section
variable {s : AubManagerImp} (buffered : Buffered s) (c : ContextPtr)
include buffered

theorem delete_buffered : Buffered { s with objects := setAt s.objects c none } := by
  refine ⟨fun c' hc' => ?_, fun c' ctx b hc' => buffered.lt c' ctx b (setAt_none hc').2,
    fun c₁ c₂ x₁ x₂ b h₁ h₂ => buffered.apart c₁ c₂ x₁ x₂ b (setAt_none h₁).2 (setAt_none h₂).2,
    fun c' ctx b hc' => buffered.pair c' ctx b (setAt_none hc').2,
    fun c' ctx hc' => buffered.released c' ctx (setAt_none hc').2,
    fun c' ctx hc' => buffered.ringData c' ctx (setAt_none hc').2, buffered.freed_lt⟩
  by_cases hcc : c' = c
  · simp only [hcc, setAt_same]
  · simp only [setAt_ne _ _ hcc]
    exact buffered.fresh c' hc'

omit buffered in
/-- A released context can go. -/
theorem delete_freedOnce (released : ∀ ctx, s.objects c = some ctx → ctx.pLRCA = none) :
    FreedOnce { s with objects := setAt s.objects c none } ↔ FreedOnce s := by
  have howned : ∀ b, Owned { s with objects := setAt s.objects c none } b ↔ Owned s b := by
    intro b
    constructor
    · rintro ⟨c', ctx, hc', hlrca, hb⟩
      exact ⟨c', ctx, (setAt_none hc').2, hlrca, hb⟩
    · rintro ⟨c', ctx, hc', hlrca, hb⟩
      refine ⟨c', ctx, ?_, hlrca, hb⟩
      simp only
      rw [setAt_ne _ _ ?_, hc']
      rintro rfl
      rw [released ctx hc'] at hlrca
      cases hlrca
  constructor
  · exact fun h => ⟨fun b hb => h.owned b ((howned b).mpr hb),
      fun b hb hnot => h.others b hb fun h' => hnot ((howned b).mp h')⟩
  · exact fun h => ⟨fun b hb => h.owned b ((howned b).mp hb),
      fun b hb hnot => h.others b hb fun h' => hnot ((howned b).mpr h')⟩

end

/-- A call keeps both properties exactly if it is allowed. -/
theorem callStep_iff {s s' : AubManagerImp} {o : Call} (inv : Inv s)
    (h : callStep s o = some s') :
    Buffered s' ∧ (FreedOnce s' ∧ ReleaseKeeps s o s' ↔ Allowed s o) := by
  cases o with
  | create contextGroup isRingDataEnabled =>
    obtain rfl := Option.some.inj h
    have inv' := create_inv inv contextGroup isRingDataEnabled
    exact ⟨inv'.buffered, fun _ => trivial, fun _ => ⟨inv'.freedOnce, trivial⟩⟩
  | initializeContext c =>
    have inv' := initializeContext_inv inv h
    exact ⟨inv'.buffered, fun _ => trivial, fun _ => ⟨inv'.freedOnce, trivial⟩⟩
  | release c =>
    obtain ⟨ctx, hc, hbuffered, hfreed, hkeeps, _⟩ := release_step inv h
    refine ⟨hbuffered, ?_⟩
    rw [hfreed]
    constructor
    · rintro ⟨single, keeps⟩ ctx' hc'
      obtain rfl : ctx = ctx' := Option.some.inj (hc.symm.trans hc')
      exact ⟨single, fun released => (hkeeps released).1 (keeps ctx hc released).2⟩
    · intro allowed
      refine ⟨(allowed ctx hc).1, fun ctx' hc' released => ?_⟩
      obtain rfl : ctx = ctx' := Option.some.inj (hc.symm.trans hc')
      exact (hkeeps released).2 ((allowed ctx hc).2 released)
  | destroy c =>
    simp only [callStep, destroy] at h
    split at h
    · rename_i hmem
      obtain ⟨s₂, hrelease, rfl⟩ := Option.map_eq_some_iff.mp h
      obtain ⟨ctx, hc, hbuffered, hfreed, hkeeps, hnone⟩ :=
        release_step (inv_hwContexts inv (s.hwContexts.erase c)) hrelease
      refine ⟨delete_buffered hbuffered c, ?_⟩
      rw [delete_freedOnce c hnone, hfreed]
      constructor
      · rintro ⟨single, keeps⟩ ctx' _ hc'
        obtain rfl : ctx = ctx' := Option.some.inj (hc.symm.trans hc')
        exact ⟨single, fun released => (hkeeps released).1 (keeps ctx hmem hc released).2⟩
      · intro allowed
        refine ⟨(allowed ctx hmem hc).1, fun ctx' _ hc' released => ?_⟩
        obtain rfl : ctx = ctx' := Option.some.inj (hc.symm.trans hc')
        obtain ⟨hobjects, hgroups⟩ := (hkeeps released).2 ((allowed ctx hmem hc).2 released)
        exact ⟨by simp only [hobjects], hgroups⟩
    · rename_i hmem
      obtain rfl := Option.some.inj h
      exact ⟨inv.buffered, fun _ ctx hmem' => absurd hmem' hmem,
        fun _ => ⟨inv.freedOnce, fun ctx hmem' => absurd hmem' hmem⟩⟩

/-- An operation whose calls are all allowed. -/
def AllowedOp (s : AubManagerImp) (o : Op) : Prop := AllAlong callStep Allowed s (s.calls o)

theorem reach_inv {count : Nat} {s : AubManagerImp}
    (reached : Reach step AllowedOp (newManager count) s) : Inv s := by
  refine (Reach.calls reached).invariant (newManager_inv count) fun s o s' inv allowed done => ?_
  obtain ⟨buffered, hiff⟩ := callStep_iff inv done
  exact ⟨buffered, (hiff.mpr allowed).1⟩

/-- While every call is allowed each buffer is freed once and repeated releases change nothing;
the first call that is not allowed breaks this. -/
theorem buffers_freedOnce_iff (count : Nat) (s : AubManagerImp)
    (reached : Reach step AllowedOp (newManager count) s) :
    FreedOnce s ∧ ∀ o s', callStep s o = some s' →
      (FreedOnce s' ∧ ReleaseKeeps s o s' ↔ Allowed s o) := by
  have inv := reach_inv reached
  exact ⟨inv.freedOnce, fun _ _ h => (callStep_iff inv h).2⟩

def reopenedRun : List Op := [.call (.create none true), .call (.initializeContext 0), .managerClose,
  .managerOpen, .call (.destroy 0)]

/-- A context with a ring state is initialized, closed, opened again and destroyed. -/
theorem buffers_freedOnce_reopened :
    ∃ s, runAll step (newManager 8) reopenedRun = some s ∧ s.freed = [3, 2, 1, 0] ∧ FreedOnce s := by
  have allowed : AllAlong step AllowedOp (newManager 8) reopenedRun := by
    refine And.intro (And.intro trivial fun _ _ => trivial) fun s₁ h₁ => ?_
    obtain rfl := Option.some.inj h₁
    refine And.intro (And.intro trivial fun _ _ => trivial) fun s₂ h₂ => ?_
    obtain rfl := Option.some.inj h₂
    refine And.intro (And.intro ?_ fun _ _ => trivial) fun s₃ h₃ => ?_
    · intro ctx hc
      obtain rfl := Option.some.inj hc
      refine And.intro (fun h => ?_) fun h => ?_ <;> cases h
    obtain rfl := Option.some.inj h₃
    refine And.intro (And.intro trivial fun _ _ => trivial) fun s₄ h₄ => ?_
    obtain rfl := Option.some.inj h₄
    refine And.intro (And.intro ?_ fun _ _ => trivial) fun _ _ => trivial
    intro ctx _ hc
    obtain rfl := Option.some.inj hc
    refine And.intro (fun h => ?_) fun h => ?_ <;> cases h
  exact ⟨_, rfl, rfl, (buffers_freedOnce_iff 8 _ (Reach.runAll reopenedRun .start allowed rfl)).1⟩

/-- A context with a ring state is initialized, closed and destroyed: the ring state is deleted
twice. -/
theorem not_buffers_freedOnce :
    ¬ ∀ (ops : List Op) (s : AubManagerImp), runAll step (newManager 8) ops = some s →
      FreedOnce s := by
  intro h
  have freed := h [.call (.create none true), .call (.initializeContext 0), .managerClose,
    .call (.destroy 0)] _ rfl
  exact absurd (freed.count_le 1 (by decide)) (by decide)

end ContextBuffers
