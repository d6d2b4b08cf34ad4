import Mathlib.Data.List.Induction
import Aubstream.RingEngine

/-!
# What the engine executes

In every run the engine executes the programs of the submissions, one after the
other, and the fence in memory counts those that it has finished.
-/

namespace RingEngine
open ByteMemory HardwareContext ContextBlocks RingBuffer RingCommands CircularBuffer Framing
open Transitions

section
variable {cs : CommandStreamerHelper} {hw hw' : HwState}

theorem setDword_mod (p : Bytes) (offset value : Nat) :
    setDword p offset value = setDword p offset (value % 2 ^ 32) := by
  funext k
  simp only [setDword]
  split
  · rename_i inside
    have near : k - offset = 0 ∨ k - offset = 1 ∨ k - offset = 2 ∨ k - offset = 3 := by omega
    rcases near with h | h | h | h <;> rw [h] <;> omega
  · rfl

theorem getDword_setDwords (vs : List Nat) (p : Bytes) (offset i v : Nat) (known : vs[i]? = some v) :
    getDword (setDwords p offset vs) (offset + 4 * i) = v % 2 ^ 32 := by
  induction vs generalizing p offset i with
  | nil => cases known
  | cons w rest ih =>
    rw [setDwords]
    cases i with
    | zero =>
      obtain rfl := Option.some.inj known
      have there : getDword (setDwords (setDword p offset w) (offset + 4) rest) offset = w % 2 ^ 32 := by
        rw [getDword_setDwords_outside (Or.inr (Nat.le_refl _)), setDword_mod,
          getDword_setDword _ _ (Nat.mod_lt _ (by decide))]
      exact there
    | succ i =>
      rw [← ih (setDword p offset w) (offset + 4) i known]
      congr 1
      omega

/-- A register in a block is that of the host copy. -/
theorem readDword_copy {h : HostCopy} (fits : h.Fits) {m : Bytes}
    (held : Holds m h.gfxAddress h.size h.bytes) {offset : Nat} (inside : offset + 8 ≤ 16) :
    readDword m (h.gfxAddress + (h.registers + offset + 4)) =
      getDword h.bytes (h.registers + offset + 4) := by
  obtain ⟨bound, -⟩ := fits
  have same (i : Nat) (hi : i < 4) :
      m ((h.gfxAddress + (h.registers + offset + 4) + i) % 2 ^ 32) =
        h.bytes (h.registers + offset + 4 + i) := by
    rw [Nat.add_assoc h.gfxAddress]
    exact held _ (by omega)
  have first : m ((h.gfxAddress + (h.registers + offset + 4)) % 2 ^ 32) =
      h.bytes (h.registers + offset + 4) := same 0 (by decide)
  simp only [readDword, getDword, Nat.zero_add, Nat.add_zero, first, same 1 (by decide),
    same 2 (by decide), same 3 (by decide)]

/-- The image that the engine is submitted is one of the host copies. -/
theorem loaded_copy (ready : Ready cs hw.context) (streamed : Streamed cs hw) :
    ∃ h, IsCopy cs hw.context h ∧ loaded cs hw offsetRingTail = h.ringTail ∧
      loaded cs hw offsetRingHead = h.ringHead := by
  rcases ready.ringData with ⟨⟨q, live⟩, enabled⟩ | ⟨-, disabled⟩
  · have copy := IsCopy.ringData enabled live
    refine ⟨_, copy, ?_, ?_⟩
    · rw [loaded, if_pos enabled]
      exact readDword_copy copy.fits (streamed _ copy) (by decide)
    · rw [loaded, if_pos enabled]
      exact readDword_copy copy.fits (streamed _ copy) (by decide)
  · obtain ⟨p, live⟩ := ready.lrca
    have copy : IsCopy cs hw.context _ := IsCopy.lrca live
    have other : ¬ cs.isRingDataEnabled = true := by
      rw [disabled]
      decide
    refine ⟨_, copy, ?_, ?_⟩
    · rw [loaded, if_neg other]
      exact readDword_copy copy.fits (streamed _ copy) (by decide)
    · rw [loaded, if_neg other]
      exact readDword_copy copy.fits (streamed _ copy) (by decide)

/-- What a submission does that fits behind the tail. -/
structure Put (cs : CommandStreamerHelper) (gfxAddress : Nat) (overrideRingHead : Bool)
    (hw hw' : HwState) : Prop where
  disciplined : Disciplined cs hw'
  streamed : Streamed cs hw'
  submissions : hw'.submissions = hw.submissions + 1
  contextFenceValue : hw'.context.contextFenceValue = wrap32 (hw.context.contextFenceValue + 1)
  blocks : hw'.context.ggttRing = hw.context.ggttRing ∧
    hw'.context.ggttLRCA = hw.context.ggttLRCA ∧ hw'.context.ringData = hw.context.ringData ∧
    hw'.context.ggttContextFence = hw.context.ggttContextFence
  ringTail : hw'.context.ringTail =
    hw.context.ringTail + 4 * (ringCommands cs hw.context gfxAddress).length
  tail : loaded cs hw' offsetRingTail = hw'.context.ringTail
  head : overrideRingHead = true → loaded cs hw' offsetRingHead = hw.context.ringTail
  commands : ∀ i x, (stored (ringCommands cs hw.context gfxAddress))[i]? = some x →
    ringDword hw' (hw.context.ringTail / 4 + i) = x
  others : ∀ i, i < ringDwords → (i < hw.context.ringTail / 4 ∨
      hw.context.ringTail / 4 + (ringCommands cs hw.context gfxAddress).length ≤ i) →
    ringDword hw' i = ringDword hw i

theorem submitBatchBuffer_put (inv : Disciplined cs hw) (streamed : Streamed cs hw) (gfxAddress : Nat)
    (overrideRingHead : Bool)
    (fits : hw.context.ringTail + 4 * (ringCommands cs hw.context gfxAddress).length < ringSize) :
    ∃ hw', submitBatchBuffer cs gfxAddress overrideRingHead hw = some hw' ∧
      Put cs gfxAddress overrideRingHead hw hw' := by
  obtain ⟨u, updated, done⟩ := submitBatchBuffer_updated inv.ready inv.placed gfxAddress
    overrideRingHead
  obtain ⟨hw', done', inv', count, effect⟩ := submitBatchBuffer_step inv gfxAddress overrideRingHead
  obtain rfl := Option.some.inj (done.symm.trans done')
  have stays : wrapRing cs (4 * (ringCommands cs hw.context gfxAddress).length) hw = hw := by
    rw [wrapRing, if_neg (by omega)]
  rw [stays] at updated
  have start : commandsOffset hw.context.ringTail
      (4 * (ringCommands cs hw.context gfxAddress).length) = hw.context.ringTail := by
    rw [commandsOffset, if_neg (by omega)]
  have aligned := inv.aligned
  have ringTail := effect.ringTail
  have content := effect.content
  have others := effect.others
  rw [start] at ringTail content others
  have streamed' : Streamed cs u := by
    apply updated.streamed
    exact writeCommands_streamed streamed inv.placed (Nat.le_of_lt fits)
  obtain ⟨h, copy, tail, head⟩ := loaded_copy updated.ready streamed'
  obtain ⟨before, -, copyTail, copyHead⟩ := updated.registers h copy
  refine ⟨_, done, inv', fun h copy => streamed' h copy, count, updated.contextFenceValue, ?_, ringTail, ?_,
    ?_, ?_, ?_⟩
  · have context := updated.context
    refine ⟨?_, ?_, ?_, ?_⟩
    · show u.context.ggttRing = _
      rw [context]
      rfl
    · show u.context.ggttLRCA = _
      rw [context]
      rfl
    · show u.context.ringData = _
      rw [context]
      rfl
    · show u.context.ggttContextFence = _
      rw [context]
      rfl
  · exact tail.trans (copyTail.trans ringTail.symm)
  · intro override
    rw [if_pos override] at copyHead
    exact head.trans copyHead
  · intro i x known
    rw [stored, List.getElem?_map] at known
    obtain ⟨v, command, rfl⟩ := Option.map_eq_some_iff.mp known
    obtain ⟨short, -⟩ := List.getElem?_eq_some_iff.mp command
    have there := getDword_setDwords _ (fun _ => 0) 0 i v command
    rw [Nat.zero_add] at there
    rw [← there]
    have base : 4 * (hw.context.ringTail / 4 + i) = hw.context.ringTail + 4 * i := by omega
    simp only [ringDword, getDword, base, Nat.add_assoc]
    rw [content (4 * i) (by omega), content (4 * i + 1) (by omega), content (4 * i + 2) (by omega),
      content (4 * i + 3) (by omega)]
  · intro i inRing outside
    have bound : 4 * i + 3 < ringSize := by
      rw [ringDwords] at inRing
      rw [ringSize]
      omega
    apply getDword_congr
    intro k low high
    exact others k (by omega) (by omega) (fun wraps => by omega)

end

section
variable {cs : CommandStreamerHelper} {fence : Nat}

theorem programs_concat (submitted : List Nat) (gfxAddress : Nat) :
    programs cs fence (submitted ++ [gfxAddress]) = programs cs fence submitted ++
      program cs fence gfxAddress ((submitted.length + 1) % 2 ^ 32) := by
  rw [programs, List.zipIdx_append, List.flatMap_append]
  congr 1
  rw [List.zipIdx_singleton, List.flatMap_singleton, Nat.zero_add]

/-- A program ends with its only store. -/
theorem program_split (gfxAddress value : Nat) : ∃ front,
    program cs fence gfxAddress value = front ++ [.storeDword (fence % 2 ^ 32) value] ∧
      ∀ c ∈ front, c.isStore = false := by
  refine ⟨_, rfl, ?_⟩
  intro c mem
  simp only [List.mem_append, List.mem_cons, List.not_mem_nil, or_false, List.mem_map] at mem
  rcases mem with (rfl | rfl) | ⟨f, -, rfl⟩ <;> rfl

theorem countP_front {front : List Command} (none : ∀ c ∈ front, c.isStore = false) :
    front.countP Command.isStore = 0 := by
  apply List.countP_eq_zero.mpr
  intro c mem
  rw [none c mem]
  decide

theorem countP_programs (submitted : List Nat) :
    (programs cs fence submitted).countP Command.isStore = submitted.length := by
  induction submitted using List.reverseRecOn with
  | nil => rfl
  | append_singleton submitted gfxAddress ih =>
    obtain ⟨front, eq, none⟩ := @program_split cs fence gfxAddress ((submitted.length + 1) % 2 ^ 32)
    rw [programs_concat, eq, List.countP_append, List.countP_append, ih, countP_front none,
      List.length_append, List.length_singleton, List.countP_singleton]
    rfl

/-- A store that comes last ends the program it is in. -/
theorem store_last {front before after : List Command} {store last : Command}
    (none : ∀ c ∈ front, c.isStore = false) (isStore : store.isStore = true)
    (eq : front ++ [last] = before ++ store :: after) : before = front ∧ store = last := by
  rcases List.append_eq_append_iff.mp eq with ⟨more, hbefore, hlast⟩ | ⟨more, hfront, hrest⟩
  · cases more with
    | nil =>
      rw [List.append_nil] at hbefore
      exact ⟨hbefore, (List.cons.inj hlast).1.symm⟩
    | cons c more =>
      have long := congrArg List.length hlast
      simp only [List.length_append, List.length_cons, List.length_nil] at long
      omega
  · cases more with
    | nil =>
      rw [List.append_nil] at hfront
      exact ⟨hfront.symm, (List.cons.inj hrest).1⟩
    | cons c more =>
      obtain ⟨rfl, -⟩ := List.cons.inj hrest
      have inFront : store ∈ front := by
        rw [hfront]
        exact List.mem_append_right _ List.mem_cons_self
      rw [none store inFront] at isStore
      cases isStore

/-- The stores of the programs are to the fence, and count up. -/
theorem store_programs {submitted : List Nat} {before after : List Command} {gfxAddress value : Nat}
    (eq : programs cs fence submitted = before ++ .storeDword gfxAddress value :: after) :
    gfxAddress = fence % 2 ^ 32 ∧ value = (before.countP Command.isStore + 1) % 2 ^ 32 := by
  induction submitted using List.reverseRecOn generalizing after with
  | nil => exact absurd eq.symm (List.append_ne_nil_of_right_ne_nil _ (List.cons_ne_nil _ _))
  | append_singleton submitted g ih =>
    obtain ⟨front, split, none⟩ := @program_split cs fence g ((submitted.length + 1) % 2 ^ 32)
    rw [programs_concat] at eq
    have within (more : List Command) (hbefore : before = programs cs fence submitted ++ more)
        (hrest : program cs fence g ((submitted.length + 1) % 2 ^ 32) =
          more ++ .storeDword gfxAddress value :: after) :
        gfxAddress = fence % 2 ^ 32 ∧ value = (before.countP Command.isStore + 1) % 2 ^ 32 := by
      rw [split] at hrest
      obtain ⟨rfl, store⟩ := store_last none rfl hrest
      obtain ⟨rfl, rfl⟩ := Command.storeDword.inj store
      rw [hbefore, List.countP_append, countP_front none, countP_programs]
      exact ⟨rfl, rfl⟩
    rcases List.append_eq_append_iff.mp eq with ⟨more, hbefore, hrest⟩ | ⟨more, hprograms, hrest⟩
    · exact within more hbefore hrest
    · cases more with
      | nil =>
        rw [List.append_nil] at hprograms
        exact within [] (by rw [List.append_nil, hprograms]) hrest.symm
      | cons c more =>
        obtain ⟨rfl, -⟩ := List.cons.inj hrest
        exact ih hprograms

/-- What is left of the programs has a store at its end. -/
theorem programs_rest {submitted : List Nat} {before after : List Command}
    (eq : before ++ after = programs cs fence submitted)
    (none : after.countP Command.isStore = 0) : after = [] := by
  cases submitted using List.reverseRecOn with
  | nil => exact (List.append_eq_nil_iff.mp eq).2
  | append_singleton submitted g =>
    obtain ⟨front, split, -⟩ := @program_split cs fence g ((submitted.length + 1) % 2 ^ 32)
    rw [programs_concat, split, ← List.append_assoc] at eq
    cases after using List.reverseRecOn with
    | nil => rfl
    | append_singleton after last =>
      rw [← List.append_assoc] at eq
      obtain ⟨-, same⟩ := List.append_inj' eq rfl
      obtain rfl := (List.cons.inj same).1
      rw [List.countP_append, List.countP_singleton] at none
      exact absurd none (by simp [Command.isStore])

theorem countP_effects (commands : List Command) :
    (effects commands).countP Command.isStore = commands.countP Command.isStore := by
  induction commands with
  | nil => rfl
  | cons c commands ih =>
    cases c <;> simp [effects, List.countP_cons, Command.isStore] at ih ⊢ <;> exact ih

end

end RingEngine
