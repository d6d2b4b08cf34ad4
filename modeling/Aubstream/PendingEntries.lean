import Aubstream.Ps64Flags
import Aubstream.Translation

/-!
# Emission and pending flags

Whatever changes the entry of a node sets the node's pending flag and emits the
entry as it stands afterwards. A walk keeps this for every slot: the node is the
one that the walk found, or it is on the pending list and its entry is emitted.
-/

namespace PendingEntries
open EntryBits PathTree PhysicalAllocator PageNodes PageWalker TreeShape WalkPhases LeafStep
  Placement Ps64Flags Translation

/-- The entry through which the hardware reaches the node `m` at `q`. -/
def entryOf (gpu : Gpu) (t : Nodes) (q : Path) (m : PageNode) : PageEntryInfo :=
  ⟨entryAddress t q, m.getEntryValue gpu⟩

/-- Loop level at which a walk enters the slot `q` of a tree of `n` levels. -/
def levelOf (n : Nat) (q : Path) : Nat := n - q.length

section
variable {A : Type}

/-- Slot `q`, entered at `level`, in a walk that started on `t`. -/
structure TrackedAt (gpu : Gpu) (t : Nodes) (level : Nat) (w : WalkState A) (q : Path) : Prop where
  same : q ∉ w.pendingNodes level → w.nodes q = t q
  emitted : q ∈ w.pendingNodes level → ∀ m, w.nodes q = some m →
    m.pendingWrite = true ∧ entryOf gpu w.nodes q m ∈ w.pageWalkEntries level

/-- A walk that started on `t`: no node has gone and no entry has moved. -/
structure Tracked (gpu : Gpu) (n : Nat) (t : Nodes) (w : WalkState A) : Prop where
  kept : ∀ q, t q ≠ none → w.nodes q ≠ none ∧ entryAddress w.nodes q = entryAddress t q
  slots : ∀ q, TrackedAt gpu t (levelOf n q) w q
  listed : ∀ l q, q ∈ w.pendingNodes l → q.length + l = n ∧ q ≠ []

theorem mem_pushEntry {gpu : Gpu} {level l : Nat} {q : Path} {w : WalkState A} {e : PageEntryInfo} :
    e ∈ (w.pushEntry gpu level q).pageWalkEntries l ↔ e ∈ w.pageWalkEntries l ∨
      l = level ∧ ∃ m, w.nodes q = some m ∧ e = entryOf gpu w.nodes q m := by
  cases hq : w.nodes q with
  | none => simp [WalkState.pushEntry, hq]
  | some m =>
    by_cases hl : l = level <;> simp [WalkState.pushEntry, hq, hl, entryOf]

theorem pushEntry_nodes (gpu : Gpu) (level : Nat) (q : Path) (w : WalkState A) :
    (w.pushEntry gpu level q).nodes = w.nodes := by
  obtain ⟨e, h⟩ := pushEntry_frame gpu level q w
  rw [h]

theorem pushEntry_pendingNodes (gpu : Gpu) (level : Nat) (q : Path) (w : WalkState A) :
    (w.pushEntry gpu level q).pendingNodes = w.pendingNodes := by
  obtain ⟨e, h⟩ := pushEntry_frame gpu level q w
  rw [h]

theorem isNewPending_iff {level : Nat} {q : Path} {w : WalkState A} :
    w.isNewPending level q = true ↔
      (∃ m, w.nodes q = some m ∧ m.pendingWrite = true) ∧ q ∉ w.pendingNodes level := by
  cases hq : w.nodes q with
  | none => simp [WalkState.isNewPending, hq]
  | some m => simp [WalkState.isNewPending, hq]

theorem mem_pushPending {level l : Nat} {q p : Path} {w : WalkState A} :
    p ∈ (w.pushPending level q).pendingNodes l ↔
      p ∈ w.pendingNodes l ∨ l = level ∧ p = q := by
  by_cases hl : l = level <;> simp [WalkState.pushPending, hl]

/-- Listing a pending node that is not listed yet leaves every pending node listed. -/
theorem mem_listPending {level l : Nat} {q p : Path} {w v : WalkState A}
    (hp : v.pendingNodes = w.pendingNodes) :
    p ∈ (if w.isNewPending level q then v.pushPending level q else v).pendingNodes l ↔
      p ∈ w.pendingNodes l ∨
        (l = level ∧ p = q ∧ ∃ m, w.nodes q = some m ∧ m.pendingWrite = true) := by
  by_cases hnew : w.isNewPending level q = true
  · obtain ⟨hm, hfresh⟩ := isNewPending_iff.mp hnew
    rw [if_pos hnew, mem_pushPending, hp]
    exact ⟨Or.imp_right fun ⟨h1, h2⟩ => ⟨h1, h2, hm⟩, Or.imp_right fun ⟨h1, h2, _⟩ => ⟨h1, h2⟩⟩
  · rw [if_neg hnew, hp]
    refine ⟨Or.inl, ?_⟩
    rintro (h | ⟨rfl, rfl, hm⟩)
    · exact h
    · exact not_not.mp fun hfresh => hnew (isNewPending_iff.mpr ⟨hm, hfresh⟩)

theorem emitAndTrack_nodes (gpu : Gpu) (level : Nat) (q : Path) (w : WalkState A) :
    (emitAndTrack gpu level q w).nodes = w.nodes := by
  obtain ⟨e, p, h⟩ := emitAndTrack_frame gpu level q w
  rw [h]

theorem mem_emitAndTrack_pending {gpu : Gpu} {level l : Nat} {q p : Path} {w : WalkState A} :
    p ∈ (emitAndTrack gpu level q w).pendingNodes l ↔ p ∈ w.pendingNodes l ∨
      (l = level ∧ p = q ∧ ∃ m, w.nodes q = some m ∧ m.pendingWrite = true) :=
  mem_listPending (pushEntry_pendingNodes gpu level q w)

theorem mem_emitAndTrack_entries {gpu : Gpu} {level l : Nat} {q : Path} {w : WalkState A}
    {e : PageEntryInfo} :
    e ∈ (emitAndTrack gpu level q w).pageWalkEntries l ↔ e ∈ w.pageWalkEntries l ∨
      l = level ∧ ∃ m, w.nodes q = some m ∧ e = entryOf gpu w.nodes q m := by
  rw [← mem_pushEntry]
  unfold emitAndTrack
  simp only
  split
  · rfl
  · rfl

/-- The body of the completion loop after the flag is set. -/
def emitSlot (gpu : Gpu) (level : Nat) (q : Path) (isNewPs64 : Bool) (w : WalkState A) :
    WalkState A :=
  let isNewPending := w.isNewPending level q
  let w := if isNewPs64 || isNewPending then w.pushEntry gpu level q else w
  if isNewPending then w.pushPending level q else w

theorem completeSlot_eq {gpu : Gpu} {level : Nat} {q : Path} {w : WalkState A} {m : PageNode}
    (hq : w.nodes q = some m) :
    completeSlot gpu level q w =
      emitSlot gpu level q (!m.ps64) { w with nodes := modify w.nodes q markPs64 } := by
  have hmark : modify w.nodes q markPs64 = if !m.ps64 then
      PathTree.put w.nodes q ((m.setPs64 true).setPendingWrite true) else w.nodes := by
    rw [modify_some hq, markPs64]
    cases m.ps64 with
    | true => exact put_eq_self hq
    | false => rfl
  rw [hmark]
  simp only [completeSlot, hq]
  cases m.ps64 with
  | true => rfl
  | false => rfl

theorem mem_emitSlot_pending {gpu : Gpu} {level l : Nat} {q p : Path} {isNewPs64 : Bool}
    {w : WalkState A} :
    p ∈ (emitSlot gpu level q isNewPs64 w).pendingNodes l ↔ p ∈ w.pendingNodes l ∨
      (l = level ∧ p = q ∧ ∃ m, w.nodes q = some m ∧ m.pendingWrite = true) := by
  refine mem_listPending ?_
  split
  · exact pushEntry_pendingNodes gpu level q w
  · rfl

theorem mem_emitSlot_entries {gpu : Gpu} {level l : Nat} {q : Path} {isNewPs64 : Bool}
    {w : WalkState A} {e : PageEntryInfo} :
    e ∈ (emitSlot gpu level q isNewPs64 w).pageWalkEntries l ↔ e ∈ w.pageWalkEntries l ∨
      (isNewPs64 || w.isNewPending level q) = true ∧
        l = level ∧ ∃ m, w.nodes q = some m ∧ e = entryOf gpu w.nodes q m := by
  have hpush : ∀ v : WalkState A, (if w.isNewPending level q then v.pushPending level q
      else v).pageWalkEntries = v.pageWalkEntries := by
    intro v
    split
    · rfl
    · rfl
  simp only [emitSlot, hpush]
  by_cases hnew : (isNewPs64 || w.isNewPending level q) = true
  · simp only [hnew, if_true, true_and, mem_pushEntry]
  · simp [hnew]

theorem emitSlot_nodes (gpu : Gpu) (level : Nat) (q : Path) (isNewPs64 : Bool) (w : WalkState A) :
    (emitSlot gpu level q isNewPs64 w).nodes = w.nodes := by
  have hpushed : (if isNewPs64 || w.isNewPending level q then w.pushEntry gpu level q
      else w).nodes = w.nodes := by
    split
    · exact pushEntry_nodes gpu level q w
    · rfl
  simp only [emitSlot]
  split
  · exact hpushed
  · exact hpushed

theorem isNewPending_pushEntry (gpu : Gpu) (level l : Nat) (q p : Path) (w : WalkState A) :
    (w.pushEntry gpu l p).isNewPending level q = w.isNewPending level q := by
  simp only [WalkState.isNewPending, pushEntry_nodes, pushEntry_pendingNodes]

theorem downgradeSlot_eq {gpu : Gpu} {level : Nat} {q : Path} {w : WalkState A} {m : PageNode}
    (hq : w.nodes q = some m) :
    downgradeSlot gpu level q w =
      emitAndTrack gpu level q { w with nodes := modify w.nodes q unmarkPs64 } := by
  rw [modify_some hq]
  simp only [downgradeSlot, hq, emitAndTrack, isNewPending_pushEntry]
  rfl

/-- A slot that an operation on other slots leaves alone. -/
theorem TrackedAt.frame {gpu : Gpu} {t : Nodes} {level : Nat} {w w' : WalkState A} {q : Path}
    (h : TrackedAt gpu t level w q) (node : w'.nodes q = w.nodes q)
    (address : w.nodes q ≠ none → entryAddress w'.nodes q = entryAddress w.nodes q)
    (entries : ∀ e, e ∈ w.pageWalkEntries level → e ∈ w'.pageWalkEntries level)
    (pending : q ∈ w'.pendingNodes level ↔ q ∈ w.pendingNodes level) :
    TrackedAt gpu t level w' q := by
  constructor
  · intro hfresh
    rw [node]
    exact h.same fun hlisted => hfresh (pending.mpr hlisted)
  · intro hlisted m hm
    rw [node] at hm
    obtain ⟨hpending, hentry⟩ := h.emitted (pending.mp hlisted) m hm
    refine ⟨hpending, ?_⟩
    rw [entryOf, address (by rw [hm]; simp)]
    exact entries _ hentry

/-- A pending node whose entry has just been emitted. -/
theorem TrackedAt.of_emitted {gpu : Gpu} {t : Nodes} {level : Nat} {w : WalkState A} {q : Path}
    {m : PageNode} (node : w.nodes q = some m) (pending : m.pendingWrite = true)
    (listed : q ∈ w.pendingNodes level)
    (entry : entryOf gpu w.nodes q m ∈ w.pageWalkEntries level) : TrackedAt gpu t level w q := by
  constructor
  · exact fun hfresh => absurd listed hfresh
  · intro _ m' hm'
    obtain rfl := Option.some.inj (node.symm.trans hm')
    exact ⟨pending, entry⟩

/-- Emitting the entry of a changed, pending node. -/
theorem emitAndTrack_changed {gpu : Gpu} {t : Nodes} {level : Nat} {w : WalkState A} {q : Path}
    {m : PageNode} (node : w.nodes q = some m) (pending : m.pendingWrite = true) :
    TrackedAt gpu t level (emitAndTrack gpu level q w) q := by
  refine .of_emitted ((congrFun (emitAndTrack_nodes gpu level q w) q).trans node) pending ?_ ?_
  · exact mem_emitAndTrack_pending.mpr (Or.inr ⟨rfl, rfl, m, node, pending⟩)
  · rw [emitAndTrack_nodes]
    exact mem_emitAndTrack_entries.mpr (Or.inr ⟨rfl, m, node, rfl⟩)

theorem emitAndTrack_other {gpu : Gpu} {t : Nodes} {level l : Nat} {w : WalkState A} {q p : Path}
    (hne : p ≠ q) (h : TrackedAt gpu t l w p) :
    TrackedAt gpu t l (emitAndTrack gpu level q w) p := by
  refine h.frame (congrFun (emitAndTrack_nodes gpu level q w) p)
    (fun _ => by rw [emitAndTrack_nodes]) (fun e he => mem_emitAndTrack_entries.mpr (Or.inl he)) ?_
  rw [mem_emitAndTrack_pending]
  exact ⟨fun h => h.resolve_right fun ⟨_, heq, _⟩ => hne heq, Or.inl⟩

/-- Emitting an entry keeps what is tracked. -/
theorem emitAndTrack_tracked {gpu : Gpu} {t : Nodes} {level l : Nat} {w : WalkState A}
    {q p : Path} (h : TrackedAt gpu t l w p) :
    TrackedAt gpu t l (emitAndTrack gpu level q w) p := by
  by_cases hne : p = q
  · subst hne
    by_cases hpending : l = level ∧ ∃ m, w.nodes p = some m ∧ m.pendingWrite = true
    · obtain ⟨rfl, m, hm, hw⟩ := hpending
      exact emitAndTrack_changed hm hw
    · refine h.frame (congrFun (emitAndTrack_nodes gpu level p w) p)
        (fun _ => by rw [emitAndTrack_nodes]) (fun e he => mem_emitAndTrack_entries.mpr (Or.inl he)) ?_
      rw [mem_emitAndTrack_pending]
      exact ⟨fun h => h.resolve_right fun ⟨hl, _, hm⟩ => hpending ⟨hl, hm⟩, Or.inl⟩
  · exact emitAndTrack_other hne h

theorem entryAddress_congr {t t' : Nodes} {q : Path}
    (h : ∀ p, (t' p).map (·.physicalAddress) = (t p).map (·.physicalAddress)) :
    entryAddress t' q = entryAddress t q := by
  cases q with
  | nil => rfl
  | cons i p =>
    have hp := h p
    simp only [entryAddress]
    cases ht : t p <;> cases ht' : t' p <;> simp_all

theorem entryAddress_modify {t : Nodes} {x q : Path} {f : PageNode → PageNode}
    (hf : ∀ m, (f m).physicalAddress = m.physicalAddress) :
    entryAddress (modify t x f) q = entryAddress t q := by
  refine entryAddress_congr fun p => ?_
  by_cases hp : p = x
  · subst hp
    rw [modify_self, Option.map_map]
    exact congrFun (congrArg Option.map (funext hf)) (t p)
  · rw [modify_of_ne hp]

theorem markPs64_physicalAddress (m : PageNode) :
    (markPs64 m).physicalAddress = m.physicalAddress := by
  unfold markPs64
  split
  · rfl
  · rfl

/-- A loop over slots whose body turns `R` into `D` at its slot and disturbs neither at another. -/
theorem foldl_slots {S : Type} {f : S → Path → S} {R D : S → Path → Prop}
    (body : ∀ w q, R w q → D (f w q) q)
    (ahead : ∀ w q p, p ≠ q → R w p → R (f w q) p)
    (behind : ∀ w q p, p ≠ q → D w p → D (f w q) p) {qs : List Path} (nodup : qs.Nodup)
    (w : S) (start : ∀ q ∈ qs, R w q) :
    (∀ q ∈ qs, D (qs.foldl f w) q) ∧ ∀ q, q ∉ qs → D w q → D (qs.foldl f w) q := by
  induction qs generalizing w with
  | nil => exact ⟨fun q hq => absurd hq List.not_mem_nil, fun _ _ h => h⟩
  | cons x rest ih =>
    obtain ⟨hx, hrest⟩ := List.nodup_cons.mp nodup
    have apart : ∀ q ∈ rest, q ≠ x := by
      rintro q hq rfl
      exact hx hq
    obtain ⟨inside, outside⟩ := ih hrest (f w x) fun q hq =>
      ahead w x q (apart q hq) (start q (List.mem_cons_of_mem x hq))
    rw [List.foldl_cons]
    constructor
    · intro q hq
      rcases List.mem_cons.mp hq with rfl | hq
      · exact outside q hx (body w q (start q List.mem_cons_self))
      · exact inside q hq
    · intro q hq h
      obtain ⟨hne, hq⟩ := not_or.mp (mt List.mem_cons.mpr hq)
      exact outside q hq (behind w x q hne h)

/-- A slot before the completion loop comes to it. -/
def Completable (gpu : Gpu) (t : Nodes) (level : Nat) (w : WalkState A) (q : Path) : Prop :=
  TrackedAt gpu t level w q ∨ ∃ m, w.nodes q = some m ∧ m.pendingWrite = true ∧
    (m.ps64 = false ∨ q ∉ w.pendingNodes level)

theorem completeSlot_none {gpu : Gpu} {level : Nat} {q : Path} {w : WalkState A}
    (hq : w.nodes q = none) : completeSlot gpu level q w = w := by
  simp only [completeSlot, hq]

theorem completeSlot_done {gpu : Gpu} {t : Nodes} {level : Nat} {w : WalkState A} {q : Path}
    (h : Completable gpu t level w q) : TrackedAt gpu t level (completeSlot gpu level q w) q := by
  cases hq : w.nodes q with
  | none =>
    rw [completeSlot_none hq]
    rcases h with h | ⟨m, hm, _⟩
    · exact h
    · rw [hq] at hm
      cases hm
  | some m =>
    rw [completeSlot_eq hq]
    have hnode : modify w.nodes q markPs64 q = some (markPs64 m) := by rw [modify_self, hq]; rfl
    have pushed : (markPs64 m).pendingWrite = true → (!m.ps64 || WalkState.isNewPending
        { w with nodes := modify w.nodes q markPs64 } level q) = true →
        TrackedAt gpu t level
          (emitSlot gpu level q (!m.ps64) { w with nodes := modify w.nodes q markPs64 }) q := by
      intro hpending hemits
      refine .of_emitted ((congrFun (emitSlot_nodes ..) q).trans hnode) hpending ?_ ?_
      · exact mem_emitSlot_pending.mpr (Or.inr ⟨rfl, rfl, _, hnode, hpending⟩)
      · rw [emitSlot_nodes]
        exact mem_emitSlot_entries.mpr (Or.inr ⟨hemits, rfl, _, hnode, rfl⟩)
    cases hflag : m.ps64 with
    | false =>
      rw [hflag] at pushed
      exact pushed (by simp [markPs64, hflag, PageNode.setPendingWrite]) rfl
    | true =>
      have hmark : markPs64 m = m := by rw [markPs64, hflag, if_pos rfl]
      have hsame : modify w.nodes q markPs64 = w.nodes := by
        rw [modify_some hq, hmark, put_eq_self hq]
      rw [hflag, hmark, hsame] at pushed
      rw [hsame]
      by_cases hnew : w.isNewPending level q = true
      · obtain ⟨⟨m', hm', hw⟩, _⟩ := isNewPending_iff.mp hnew
        obtain rfl := Option.some.inj (hq.symm.trans hm')
        exact pushed hw hnew
      · have tracked : TrackedAt gpu t level w q := by
          rcases h with h | ⟨m', hm', hw, hfresh⟩
          · exact h
          · obtain rfl := Option.some.inj (hq.symm.trans hm')
            rcases hfresh with hfresh | hfresh
            · rw [hflag] at hfresh
              cases hfresh
            · exact absurd (isNewPending_iff.mpr ⟨⟨m, hq, hw⟩, hfresh⟩) hnew
        have hsilent : emitSlot gpu level q (!true) w = w := by simp [emitSlot, hnew]
        rw [hsilent]
        exact tracked

/-- What a step for slot `x` leaves at slot `p`. -/
structure Untouched (level : Nat) (w w' : WalkState A) (p : Path) : Prop where
  node : w'.nodes p = w.nodes p
  address : entryAddress w'.nodes p = entryAddress w.nodes p
  entries : ∀ e, e ∈ w.pageWalkEntries level → e ∈ w'.pageWalkEntries level
  pending : p ∈ w'.pendingNodes level ↔ p ∈ w.pendingNodes level

theorem Untouched.tracked {gpu : Gpu} {t : Nodes} {level : Nat} {w w' : WalkState A} {p : Path}
    (h : Untouched level w w' p) (tracked : TrackedAt gpu t level w p) :
    TrackedAt gpu t level w' p :=
  tracked.frame h.node (fun _ => h.address) h.entries h.pending

theorem completeSlot_other (gpu : Gpu) (level l : Nat) {w : WalkState A} {q p : Path}
    (hne : p ≠ q) : Untouched l w (completeSlot gpu level q w) p := by
  cases hq : w.nodes q with
  | none =>
    rw [completeSlot_none hq]
    exact ⟨rfl, rfl, fun _ h => h, Iff.rfl⟩
  | some m =>
    rw [completeSlot_eq hq]
    constructor
    · rw [emitSlot_nodes]
      exact modify_of_ne hne
    · rw [emitSlot_nodes]
      exact entryAddress_modify markPs64_physicalAddress
    · exact fun e he => mem_emitSlot_entries.mpr (Or.inl he)
    · rw [mem_emitSlot_pending]
      exact ⟨fun h => h.resolve_right fun ⟨_, heq, _⟩ => hne heq, Or.inl⟩

theorem downgradeSlot_other (gpu : Gpu) (level l : Nat) {w : WalkState A} {q p : Path}
    (hne : p ≠ q) : Untouched l w (downgradeSlot gpu level q w) p := by
  cases hq : w.nodes q with
  | none =>
    simp only [downgradeSlot, hq]
    exact ⟨rfl, rfl, fun _ h => h, Iff.rfl⟩
  | some m =>
    rw [downgradeSlot_eq hq]
    constructor
    · rw [emitAndTrack_nodes]
      exact modify_of_ne hne
    · rw [emitAndTrack_nodes]
      exact entryAddress_modify fun _ => rfl
    · exact fun e he => mem_emitAndTrack_entries.mpr (Or.inl he)
    · rw [mem_emitAndTrack_pending]
      exact ⟨fun h => h.resolve_right fun hnew => hne hnew.2.1, Or.inl⟩

/-- The downgrade loop emits every slot that is occupied. -/
theorem downgradeSlot_done {gpu : Gpu} {t : Nodes} {level : Nat} {w : WalkState A} {q : Path}
    (h : TrackedAt gpu t level w q ∨ w.nodes q ≠ none) :
    TrackedAt gpu t level (downgradeSlot gpu level q w) q := by
  cases hq : w.nodes q with
  | none =>
    simp only [downgradeSlot, hq]
    exact h.resolve_right fun hne => hne hq
  | some m =>
    rw [downgradeSlot_eq hq]
    refine emitAndTrack_changed (m := unmarkPs64 m) ?_ rfl
    simp only [modify_self, hq, Option.map_some]

theorem entryAddress_layout {t t' : Nodes} (h : layout t' = layout t) (q : Path) :
    entryAddress t' q = entryAddress t q := by
  refine entryAddress_congr fun p => ?_
  have hp := congrFun h p
  simp only [layout] at hp
  cases ht : t p <;> cases ht' : t' p <;> simp_all [core]

/-- The state in which `updatePs64` finds the slots: only the entered leaf may have changed since
its entry was emitted. -/
structure Enters (gpu : Gpu) (n : Nat) (t : Nodes) (q : Path) (complete : Prop)
    (w : WalkState A) : Prop where
  kept : ∀ p, t p ≠ none → w.nodes p ≠ none ∧ entryAddress w.nodes p = entryAddress t p
  others : ∀ p, p ≠ q → TrackedAt gpu t (levelOf n p) w p
  listed : ∀ l p, p ∈ w.pendingNodes l → p.length + l = n ∧ p ≠ []
  entered : TrackedAt gpu t (levelOf n q) w q ∨ ∃ m, w.nodes q = some m ∧ m.pendingWrite = true ∧
    (complete → m.ps64 = false ∨ q ∉ w.pendingNodes (levelOf n q))

theorem levelOf_slot {n level : Nat} {q : Path} (h : q.length + level = n) : levelOf n q = level := by
  unfold levelOf
  omega

theorem Enters.completed {gpu : Gpu} {n level : Nat} {t : Nodes} {q : Path} {w : WalkState A}
    {qs : List Path} (h : Enters gpu n t q True w) (nodup : qs.Nodup) (hq : q ∈ qs)
    (depth : ∀ p ∈ qs, p.length + level = n ∧ p ≠ []) (p : Path) :
    TrackedAt gpu t (levelOf n p) (qs.foldl (fun w q => completeSlot gpu level q w) w) p := by
  obtain ⟨inside, outside⟩ := foldl_slots (f := fun w q => completeSlot gpu level q w)
    (R := fun w q => levelOf n q = level ∧ Completable gpu t level w q)
    (D := fun w q => TrackedAt gpu t (levelOf n q) w q)
    (fun w q ⟨hl, hready⟩ => hl.symm ▸ completeSlot_done hready)
    (fun w q p hne ⟨hl, hready⟩ => by
      have hother := completeSlot_other gpu level level (w := w) hne
      refine ⟨hl, hready.imp hother.tracked ?_⟩
      rintro ⟨m, hm, hpending, hfresh⟩
      exact ⟨m, hother.node.trans hm, hpending, hfresh.imp_right (mt hother.pending.mp)⟩)
    (fun w q p hne => (completeSlot_other gpu level _ hne).tracked) nodup w
    (fun p hp => by
      have hl := levelOf_slot (depth p hp).1
      refine ⟨hl, ?_⟩
      by_cases hpq : p = q
      · subst hpq
        refine (hl ▸ h.entered).imp_right ?_
        rintro ⟨m, hm, hpending, hfresh⟩
        exact ⟨m, hm, hpending, hl ▸ hfresh trivial⟩
      · exact Or.inl (hl ▸ h.others p hpq))
  by_cases hp : p ∈ qs
  · exact inside p hp
  · exact outside p hp (h.others p fun heq => hp (heq ▸ hq))

theorem Enters.downgraded {gpu : Gpu} {n level : Nat} {t : Nodes} {q : Path} {w : WalkState A}
    {qs : List Path} {complete : Prop} (h : Enters gpu n t q complete w) (nodup : qs.Nodup)
    (hq : q ∈ qs) (depth : ∀ p ∈ qs, p.length + level = n ∧ p ≠ []) (p : Path) :
    TrackedAt gpu t (levelOf n p) (qs.foldl (fun w q => downgradeSlot gpu level q w) w) p := by
  obtain ⟨inside, outside⟩ := foldl_slots (f := fun w q => downgradeSlot gpu level q w)
    (R := fun w q => levelOf n q = level ∧ (TrackedAt gpu t level w q ∨ w.nodes q ≠ none))
    (D := fun w q => TrackedAt gpu t (levelOf n q) w q)
    (fun w q ⟨hl, hready⟩ => hl.symm ▸ downgradeSlot_done hready)
    (fun w q p hne ⟨hl, hready⟩ => by
      have hother := downgradeSlot_other gpu level level (w := w) hne
      exact ⟨hl, hready.imp hother.tracked (by rw [hother.node]; exact id)⟩)
    (fun w q p hne => (downgradeSlot_other gpu level _ hne).tracked) nodup w
    (fun p hp => by
      have hl := levelOf_slot (depth p hp).1
      refine ⟨hl, ?_⟩
      by_cases hpq : p = q
      · subst hpq
        refine (hl ▸ h.entered).imp_right ?_
        rintro ⟨m, hm, _⟩
        rw [hm]
        simp
      · exact Or.inl (hl ▸ h.others p hpq))
  by_cases hp : p ∈ qs
  · exact inside p hp
  · exact outside p hp (h.others p fun heq => hp (heq ▸ hq))

/-- Pending lists hold slots of their level. -/
def Listed (n : Nat) (w : WalkState A) : Prop :=
  ∀ l p, p ∈ w.pendingNodes l → p.length + l = n ∧ p ≠ []

theorem Listed.emitAndTrack {gpu : Gpu} {n level : Nat} {q : Path} {w : WalkState A}
    (h : Listed n w) (depth : q.length + level = n ∧ q ≠ []) :
    Listed n (emitAndTrack gpu level q w) := by
  intro l p hp
  rcases mem_emitAndTrack_pending.mp hp with hp | ⟨rfl, rfl, _⟩
  · exact h l p hp
  · exact depth

theorem Listed.completeSlot {gpu : Gpu} {n level : Nat} {q : Path} {w : WalkState A}
    (h : Listed n w) (depth : q.length + level = n ∧ q ≠ []) :
    Listed n (completeSlot gpu level q w) := by
  cases hq : w.nodes q with
  | none => rwa [completeSlot_none hq]
  | some m =>
    rw [completeSlot_eq hq]
    intro l p hp
    rcases mem_emitSlot_pending.mp hp with hp | ⟨rfl, rfl, _⟩
    · exact h l p hp
    · exact depth

theorem Listed.downgradeSlot {gpu : Gpu} {n level : Nat} {q : Path} {w : WalkState A}
    (h : Listed n w) (depth : q.length + level = n ∧ q ≠ []) :
    Listed n (downgradeSlot gpu level q w) := by
  cases hq : w.nodes q with
  | none =>
    simp only [PageWalker.downgradeSlot, hq]
    exact h
  | some m =>
    rw [downgradeSlot_eq hq]
    have h' : Listed n { w with nodes := modify w.nodes q unmarkPs64 } := h
    exact h'.emitAndTrack depth

theorem groupSlots_depth {parent : Path} {hwBase level n : Nat} (h : parent.length + 1 + level = n) :
    ∀ p ∈ groupSlots parent hwBase, p.length + level = n ∧ p ≠ [] := by
  intro p hp
  obtain ⟨i, _, rfl⟩ := mem_groupSlots.mp hp
  exact ⟨h, List.cons_ne_nil _ _⟩

theorem Listed.updatePs64 {c : WalkContext} {page : PageRequest} {n level : Nat} {parent : Path}
    {index : Nat} {was : Bool} {w : WalkState A} (h : Listed n w)
    (depth : parent.length + 1 + level = n) :
    Listed n (updatePs64 c page level parent index was w) := by
  have slots := @groupSlots_depth parent (index - index % 16) _ _ depth
  unfold PageWalker.updatePs64
  simp only
  split
  · exact List.foldlRecOn _ _ h fun w hw q hq => hw.completeSlot (slots q hq)
  · split
    · exact List.foldlRecOn _ _ h fun w hw q hq => hw.downgradeSlot (slots q hq)
    · cases hq : w.nodes (index :: parent) with
      | none => exact h
      | some child =>
        refine Listed.emitAndTrack ?_ ⟨depth, List.cons_ne_nil _ _⟩
        split
        · exact h
        · exact h

/-- A leaf outside complete groups: the mark changes the leaf, and its entry is always emitted. -/
theorem Enters.emitted {gpu : Gpu} {n level : Nat} {t : Nodes} {q : Path} {w : WalkState A}
    {complete : Prop} {child m : PageNode} (h : Enters gpu n t q complete w)
    (depth : q.length + level = n) (hq : w.nodes q = some child)
    (hm : m = child ∨ m = (child.setPs64 true).setPendingWrite true) (p : Path) :
    TrackedAt gpu t (levelOf n p) (emitAndTrack gpu level q { w with nodes := put w.nodes q m })
      p := by
  have hcore : core m = core child := by rcases hm with rfl | rfl <;> rfl
  have hlayout : layout (put w.nodes q m) = layout w.nodes := layout_put_core hq hcore
  by_cases hp : p = q
  · subst hp
    rw [levelOf_slot depth]
    have hentered := levelOf_slot depth ▸ h.entered
    rcases hm with rfl | rfl
    · have hsame : ({ w with nodes := put w.nodes p m } : WalkState A) = w := by
        rw [put_eq_self hq]
      rw [hsame]
      rcases hentered with htracked | ⟨m', hm', hpending, _⟩
      · exact emitAndTrack_tracked htracked
      · exact emitAndTrack_changed hm' hpending
    · exact emitAndTrack_changed (put_self _ _ _) rfl
  · refine emitAndTrack_tracked ((h.others p hp).frame (put_of_ne hp) ?_ (fun _ h => h) Iff.rfl)
    exact fun _ => entryAddress_layout hlayout p

theorem tracked_updatePs64 {c : WalkContext} {page : PageRequest} {n level : Nat} {t : Nodes}
    {parent : Path} {index : Nat} {was : Bool} {w : WalkState A}
    (h : Enters c.gpu n t (index :: parent)
      (isPs64GroupComplete c.gpu w.nodes parent (index - index % 16) = true) w)
    (depth : parent.length + 1 + level = n) :
    Tracked c.gpu n t (updatePs64 c page level parent index was w) := by
  have slots := @groupSlots_depth parent (index - index % 16) _ _ depth
  have hq : index :: parent ∈ groupSlots parent (index - index % 16) :=
    mem_groupSlots.mpr ⟨index % 16, Nat.mod_lt _ (by decide), by congr 1; omega⟩
  have nodup := groupSlots_nodup parent (index - index % 16)
  constructor
  · intro p hp
    obtain ⟨e, x, hframe⟩ := updatePs64_frame c page level parent index was w
    have hlayout : layout (updatePs64 c page level parent index was w).nodes = layout w.nodes := by
      rw [hframe]
      exact layout_ps64Update c.gpu page.size parent index was w.nodes
    obtain ⟨hsome, haddress⟩ := h.kept p hp
    constructor
    · rw [← layout_eq_none.ne, hlayout, layout_eq_none.ne]
      exact hsome
    · rw [entryAddress_layout hlayout, haddress]
  · intro p
    unfold updatePs64
    simp only
    split
    · rename_i hcomplete
      have h' : Enters c.gpu n t (index :: parent) True w :=
        ⟨h.kept, h.others, h.listed, h.entered.imp_right fun ⟨m, hm, hw, hfresh⟩ =>
          ⟨m, hm, hw, fun _ => hfresh hcomplete⟩⟩
      exact h'.completed nodup hq slots p
    · split
      · exact h.downgraded nodup hq slots p
      · cases hchild : w.nodes (index :: parent) with
        | none =>
          by_cases hp : p = index :: parent
          · subst hp
            refine h.entered.resolve_right ?_
            rintro ⟨m, hm, _⟩
            rw [hchild] at hm
            cases hm
          · exact h.others p hp
        | some child =>
          simp only
          split
          · exact h.emitted depth hchild (Or.inr rfl) p
          · have hsame := h.emitted depth hchild (Or.inl rfl) p
            rwa [put_eq_self hchild] at hsame
  · exact Listed.updatePs64 h.listed depth

/-- The flags of an entry and its PS64 bit determine it. -/
theorem entryValue_of_flags {gpu : Gpu} {m m' : PageNode} (kind : m'.kind = m.kind)
    (address : m'.physicalAddress = m.physicalAddress) (ps64 : m'.ps64 = m.ps64)
    (params : m'.additionalAllocParams = m.additionalAllocParams)
    (flags : ps64EntryFlags gpu m' = ps64EntryFlags gpu m) :
    m'.getEntryValue gpu = m.getEntryValue gpu := by
  refine Nat.eq_of_testBit_eq fun i => ?_
  have hlarge : ∀ n : PageNode, ¬ i < 64 → (n.getEntryValue gpu).testBit i = false := by
    intro n hi
    simp only [PageNode.getEntryValue, wrap64, Nat.testBit_mod_two_pow, hi, decide_false,
      Bool.false_and]
  by_cases hi : i < 64
  · by_cases h8 : i = 8
    · subst h8
      have hlocal : ∀ b, (PageNode.bitIf b localMemoryBit).testBit 8 = false := fun b =>
        bitIf_testBit_of_ne (by decide)
      cases hk : m.kind with
      | memory => simp only [PageNode.getEntryValue, kind, hk, wrap64, Nat.testBit_mod_two_pow,
          Nat.testBit_or, hlocal, address, ps64, params]
      | page2MB => simp only [PageNode.getEntryValue, kind, hk, wrap64, Nat.testBit_mod_two_pow,
          Nat.testBit_or, hlocal, address, params]
      | directory => simp only [PageNode.getEntryValue, kind, hk, address]
      | pte k => cases k <;> simp only [PageNode.getEntryValue, kind, hk, address]
    · have hmask : ∀ i < 64, i ≠ 8 → (2 ^ 64 - 1 - toBitValue ps64Bit).testBit i = true := by decide
      have hbit := congrArg (fun x => x.testBit i) flags
      simp only [ps64EntryFlags, Nat.testBit_and, Nat.testBit_xor, hmask i hi h8, Bool.and_true,
        address] at hbit
      exact Bool.xor_left_inj.mp hbit
  · rw [hlarge m' hi, hlarge m hi]

/-- Changing one slot of a complete group to another complete group changes no entry. -/
theorem complete_put {gpu : Gpu} {t : Nodes} {i : Nat} {p : Path} {m m' : PageNode}
    (slot : t (i :: p) = some m) (before : isPs64GroupComplete gpu t p (i - i % 16) = true)
    (after : isPs64GroupComplete gpu (put t (i :: p) m') p (i - i % 16) = true) :
    m'.physicalAddress = m.physicalAddress ∧ ps64EntryFlags gpu m' = ps64EntryFlags gpu m := by
  obtain ⟨base, flags, _, hall⟩ := isPs64GroupComplete_iff.mp before
  obtain ⟨base', flags', _, hall'⟩ := isPs64GroupComplete_iff.mp after
  obtain ⟨j, hj, hne⟩ : ∃ j, j < 16 ∧ i - i % 16 + j ≠ i := by
    by_cases h : i % 16 = 0
    · exact ⟨1, by omega, by omega⟩
    · exact ⟨0, by omega, by omega⟩
  have hself : i - i % 16 + i % 16 = i := by omega
  obtain ⟨x, hx, hxp, hxf⟩ := hall j hj
  obtain ⟨y, hy, hyp, hyf⟩ := hall' j hj
  rw [put_of_ne (by simpa using hne), hx, Option.some.injEq] at hy
  subst hy
  obtain ⟨z, hz, hzp, hzf⟩ := hall (i % 16) (Nat.mod_lt _ (by decide))
  obtain ⟨z', hz', hzp', hzf'⟩ := hall' (i % 16) (Nat.mod_lt _ (by decide))
  rw [hself, slot, Option.some.injEq] at hz
  rw [hself, put_self, Option.some.injEq] at hz'
  subst hz hz'
  constructor
  · omega
  · rw [hzf, hzf', ← hxf, ← hyf]

end

end PendingEntries
