import Aubstream.CapturedTables
import Aubstream.ExpectWalk

/-!
# Expectations in a captured file

A program under test states what it expects in memory, and the file carries that. Whoever
replays the file finds the expectations true if the library reads back, where they
were stated, what they say.
-/

namespace CapturedExpectations
open EntryBits PhysicalAllocator PageNodes PageWalker TreeShape Placement MappedPages AubPackets
  AubManager AubFileStream StreamedMemory StreamedTables PageAliasing ExactTables LeafEntries PageBytes
  GpuMemory HostReads WalkEntries Framing TraceReader TraceFiles Transitions FileCycles DataPackets
  ComparePackets AllocatorBlocks CapturedTables
open FreeComplete hiding fourLevel
open TableRuns hiding Op step
open CapturedTables hiding Op step Allowed

def CompareNotEqual : Nat := 1

/-! ### Verdicts -/

/-- A replay that has found everything right so far, and a page that differs among those whose
comparison is stored. -/
structure Verdict where
  differs : Bool
  right : Bool

def foundAt (image : AubPackets.Memory) (c : Compare) : List UInt8 :=
  TbxSimulator.fetch image (region c.addressSpace) c.address c.data.length

/-- Pages are equal one by one; they are not equal if one of them differs, which is decided at the
page that is compared immediately. -/
def judge (v : Verdict) : Event × AubPackets.Memory → Verdict
  | (.memoryCompare c, image) =>
    let equal := decide (foundAt image c = c.data)
    if c.compareOperation = CompareEqual then { v with right := v.right && equal }
    else if c.deferCompareEvaluation = 1 then { v with differs := v.differs || !equal }
    else ⟨false, v.right && (v.differs || !equal)⟩
  | _ => v

def verdict (log : List (Event × AubPackets.Memory)) : Verdict := log.foldl judge ⟨false, true⟩

/-! ### Sessions -/

/-- An expectation, and what the library reads where it is stated. -/
structure Expectation where
  compareOperation : Nat
  memory : List UInt8
  found : Option (List UInt8)

def Expectation.Right (e : Expectation) : Prop :=
  if e.compareOperation = CompareEqual then e.found = some e.memory else e.found ≠ some e.memory

instance (e : Expectation) : Decidable e.Right := by
  unfold Expectation.Right
  infer_instance

theorem right_equal {memory : List UInt8} {found : Option (List UInt8)} :
    Expectation.Right ⟨CompareEqual, memory, found⟩ ↔ found = some memory := Iff.rfl

theorem right_notEqual {memory : List UInt8} {found : Option (List UInt8)} :
    Expectation.Right ⟨CompareNotEqual, memory, found⟩ ↔ found ≠ some memory := Iff.rfl

structure Session where
  captured : Captured
  expectations : List Expectation

inductive Op where
  | call (op : CapturedTables.Op)
  | expectMemory (device gfxAddress : Nat) (memory : List UInt8) (compareOperation : Nat)

/-- The request of `AubStream::expectMemory`. -/
def expectParams (gfxAddress size : Nat) : AllocationParams :=
  ⟨gfxAddress, none, size, mainBank, 0, 65536, noParams⟩

section
variable (m : AubManagerImp PhysicalAddressAllocatorSimple)

/-- `AubStream::expectMemory` on the PPGTT of a device; the stream asserts that every byte has a
page. -/
def expectMemory (s : Captured) (device gfxAddress : Nat) (memory : List UInt8)
    (compareOperation : Nat) : Option Captured :=
  (s.traced.sim.ppgtts[device]?).bind fun t =>
    (m.walk (expectParams gfxAddress memory.length) .Expect [] none t s.traced.sim.allocator).bind
      fun w => if total w.entries = memory.length then
        some ⟨{ s.traced with sim := { s.traced.sim with
            ppgtts := s.traced.sim.ppgtts.set device w.nodes
            allocator := w.allocator } },
          s.calls ++ [.expectMemoryTable memory w.entries compareOperation]⟩
      else none

def step (s : Session) : Op → Option Session
  | .call op => (CapturedTables.step m s.captured op).map fun captured => { s with captured := captured }
  | .expectMemory device gfxAddress memory compareOperation =>
    (expectMemory m s.captured device gfxAddress memory compareOperation).map fun captured =>
      ⟨captured, s.expectations ++ [⟨compareOperation, memory, readMemory m s.captured.traced.sim device
        (expectParams gfxAddress memory.length) (List.replicate memory.length 0)⟩]⟩

/-- Whether a call of the stream states an expectation. -/
def expects : TraceCalls.Call → Bool
  | .expectMemoryTable _ _ _ => true
  | _ => false

/-- The pages of an expectation are below 2MB, which is what the format can count. -/
def Allowed (s : Session) : Op → Prop
  | .call op => CapturedTables.Allowed m s.captured op ∧ ∀ c ∈ op.made, expects c = false
  | .expectMemory device gfxAddress memory compareOperation =>
    memory ≠ [] ∧ (compareOperation = CompareEqual ∨ compareOperation = CompareNotEqual) ∧
      ∀ t ∈ s.captured.traced.sim.ppgtts[device]?, ∀ i, i < memory.length →
        ∀ p ∈ pageAt m.tables.ppgtt.getNumLevels t (gfxAddress + i), p.size ≤ 0x10000

end

/-! ### Comparisons of one table -/

section Tables
variable {image : AubPackets.Memory} {entries : List PageInfo} {memory before : List UInt8}

/-- The log of comparisons that meet one memory. -/
def compared (image : AubPackets.Memory) (cs : List Compare) : List (Event × AubPackets.Memory) :=
  cs.map fun c => (.memoryCompare c, image)

theorem append_eq_iff_take {xs ys l : List UInt8} :
    xs ++ ys = l ↔ xs = l.take xs.length ∧ ys = l.drop xs.length := by
  constructor
  · rintro rfl
    rw [List.take_left, List.drop_left]
    exact ⟨rfl, rfl⟩
  · rintro ⟨left, right⟩
    calc xs ++ ys = l.take xs.length ++ l.drop xs.length := by rw [← left, ← right]
      _ = l := List.take_append_drop _ l

/-- A comparison finds what a read gives. -/
theorem foundAt_page (e : PageInfo) {data : List UInt8} (length : data.length = e.size)
    (operation deferred : Nat) :
    foundAt image ⟨addressSpaceOf e.isLocalMemory, wrap64 e.physicalAddress, operation, deferred, data⟩ =
      TbxSimulator.fetch image (pageRegion e) e.physicalAddress e.size := by
  have space : region (addressSpaceOf e.isLocalMemory) = pageRegion e := by
    rw [pageRegion]
    cases e.isLocalMemory with
    | false => rfl
    | true => rfl
  have wrapped (i : Nat) : cell (pageRegion e) (wrap64 e.physicalAddress + i) =
      cell (pageRegion e) (e.physicalAddress + i) := by
    have far (x : Nat) : cell (pageRegion e) x = x % 2 ^ 64 := by
      rw [pageRegion]
      cases e.isLocalMemory with
      | false => rfl
      | true => rfl
    rw [far, far, wrap64, Nat.mod_add_mod]
  rw [foundAt, space, length]
  simp only [TbxSimulator.fetch, wrapped]

/-- A page and what follows it are read as expected. -/
theorem read_cons {e : PageInfo} {rest : List PageInfo} :
    readDiscontiguousPages image before (e :: rest) = memory ↔
      TbxSimulator.fetch image (pageRegion e) e.physicalAddress e.size = memory.take e.size ∧
        readDiscontiguousPages image (before.drop e.size) rest = memory.drop e.size := by
  have length : (TbxSimulator.fetch image (pageRegion e) e.physicalAddress e.size).length = e.size := by
    rw [TbxSimulator.fetch, List.length_map, List.length_range]
  rw [readDiscontiguousPages, append_eq_iff_take, length]

theorem judge_equal (length : memory.length = total entries) (length' : before.length = total entries)
    (v : Verdict) : (compared image (comparesOf CompareEqual memory entries)).foldl judge v =
      { v with right := v.right && decide (readDiscontiguousPages image before entries = memory) } := by
  induction entries generalizing memory before v with
  | nil =>
    obtain rfl := List.length_eq_zero_iff.mp length
    obtain rfl := List.length_eq_zero_iff.mp length'
    simp [compared, comparesOf, readDiscontiguousPages]
  | cons e rest ih =>
    rw [total_cons] at length length'
    have first : (memory.take e.size).length = e.size := by
      rw [List.length_take]
      omega
    have later := @ih (memory.drop e.size) (before.drop e.size) (by rw [List.length_drop]; omega)
      (by rw [List.length_drop]; omega)
    have here : judge v (.memoryCompare ⟨addressSpaceOf e.isLocalMemory, wrap64 e.physicalAddress,
          CompareEqual % 2, deferCompareEvaluation CompareEqual rest.isEmpty, memory.take e.size⟩, image) =
        { v with right := v.right && decide (TbxSimulator.fetch image (pageRegion e) e.physicalAddress
          e.size = memory.take e.size) } := by
      rw [judge, foundAt_page e first]
      rfl
    rw [comparesOf, compared, List.map_cons, List.foldl_cons, here]
    refine (later _).trans ?_
    rw [Verdict.mk.injEq]
    refine ⟨rfl, ?_⟩
    rw [Bool.and_assoc, ← Bool.decide_and]
    exact congrArg (v.right && ·) (decide_eq_decide.mpr read_cons.symm)

theorem judge_notEqual (length : memory.length = total entries)
    (length' : before.length = total entries) (pages : entries ≠ []) (v : Verdict) :
    (compared image (comparesOf CompareNotEqual memory entries)).foldl judge v =
      ⟨false, v.right && (v.differs ||
        !decide (readDiscontiguousPages image before entries = memory))⟩ := by
  induction entries generalizing memory before v with
  | nil => exact absurd rfl pages
  | cons e rest ih =>
    rw [total_cons] at length length'
    have first : (memory.take e.size).length = e.size := by
      rw [List.length_take]
      omega
    have found := @foundAt_page image e _ first (CompareNotEqual % 2)
    cases rest with
    | nil =>
      have behind : before.drop e.size = memory.drop e.size := by
        rw [List.drop_eq_nil_of_le (by rw [length']; exact Nat.le_refl _),
          List.drop_eq_nil_of_le (by rw [length]; exact Nat.le_refl _)]
      have last : readDiscontiguousPages image before [e] = memory ↔
          TbxSimulator.fetch image (pageRegion e) e.physicalAddress e.size = memory.take e.size :=
        read_cons.trans (and_iff_left behind)
      rw [comparesOf, comparesOf, compared, List.map_singleton, List.foldl_cons, List.foldl_nil, judge,
        found, decide_eq_decide.mpr last]
      rfl
    | cons x rest =>
      have later := @ih (memory.drop e.size) (before.drop e.size) (by rw [List.length_drop]; omega)
        (by rw [List.length_drop]; omega) (List.cons_ne_nil x rest)
      have here : judge v (.memoryCompare ⟨addressSpaceOf e.isLocalMemory, wrap64 e.physicalAddress,
            CompareNotEqual % 2, deferCompareEvaluation CompareNotEqual (x :: rest).isEmpty,
            memory.take e.size⟩, image) =
          { v with differs := v.differs || !decide (TbxSimulator.fetch image (pageRegion e)
            e.physicalAddress e.size = memory.take e.size) } := by
        rw [judge, found]
        rfl
      rw [comparesOf, compared, List.map_cons, List.foldl_cons, here]
      refine (later _).trans ?_
      rw [Verdict.mk.injEq]
      refine ⟨rfl, congrArg (v.right && ·) ?_⟩
      rw [Bool.or_assoc, ← Bool.not_and, ← Bool.decide_and]
      exact congrArg (v.differs || !·) (decide_eq_decide.mpr read_cons.symm)

end Tables

/-! ### Logs -/

section Logs
variable {r : Reader}

theorem verdict_append (xs ys : List (Event × AubPackets.Memory)) :
    verdict (xs ++ ys) = ys.foldl judge (verdict xs) := List.foldl_append

theorem seeAll_log (events : List Event) (r : Reader) :
    (r.seeAll events).log = r.log ++ events.map fun e => (e, r.memory) := by
  induction events generalizing r with
  | nil => exact (List.append_nil _).symm
  | cons e rest ih =>
    refine (ih (r.see e)).trans ?_
    exact (List.append_cons r.log (e, r.memory) _).symm

/-- Regions are judged by nothing. -/
theorem verdict_regions (pages : List UInt64) : verdict (r.seeAll (pages.map fun page =>
    .continuousRegion page.toNat TracePackets.regionSize)).log = verdict r.log := by
  induction pages generalizing r with
  | nil => rfl
  | cons page rest ih =>
    refine (ih (r := r.see _)).trans ?_
    exact verdict_append r.log [(.continuousRegion page.toNat TracePackets.regionSize, r.memory)]

/-- Only expectations are judged. -/
theorem verdict_perform {c : TraceCalls.Call} (quiet : expects c = false) (dumpSupported : Bool) :
    verdict (c.perform dumpSupported r).log = verdict r.log := by
  have one (e : Event) (unjudged : ∀ v, judge v (e, r.memory) = v) :
      verdict (r.see e).log = verdict r.log :=
    (verdict_append r.log [(e, r.memory)]).trans (unjudged _)
  cases c with
  | expectMemoryTable => cases quiet
  | reserveContiguousPages entries => exact verdict_regions entries
  | dumpBufferBIN | dumpSurface =>
    cases dumpSupported with
    | false => rfl
    | true => exact one _ fun _ => rfl
  | writeContiguousPages | writeDiscontiguousPages | writeDiscontiguousEntries | writeGttPages => rfl
  | _ => exact one _ fun _ => rfl

theorem performAll_append (dumpSupported : Bool) (xs ys : List TraceCalls.Call) (r : Reader) :
    performAll dumpSupported (xs ++ ys) r = performAll dumpSupported ys (performAll dumpSupported xs r) :=
  List.foldl_append

theorem verdict_performAll (dumpSupported : Bool) {calls : List TraceCalls.Call}
    (quiet : ∀ c ∈ calls, expects c = false) :
    verdict (performAll dumpSupported calls r).log = verdict r.log := by
  induction calls generalizing r with
  | nil => rfl
  | cons c rest ih =>
    have later := @ih (c.perform dumpSupported r) fun x mem => quiet x (List.mem_cons_of_mem _ mem)
    exact later.trans (verdict_perform (quiet c List.mem_cons_self) dumpSupported)

theorem verdict_expect (dumpSupported : Bool) (memory : List UInt8) (entries : List PageInfo)
    (compareOperation : Nat) :
    verdict (TraceCalls.Call.perform dumpSupported (.expectMemoryTable memory entries compareOperation)
      r).log = (compared r.memory (comparesOf compareOperation memory entries)).foldl judge
        (verdict r.log) := by
  refine (congrArg verdict (seeAll_log _ r)).trans ?_
  rw [verdict_append, List.map_map]
  rfl

end Logs

/-! ### Runs -/

section Runs
variable {m : AubManagerImp PhysicalAddressAllocatorSimple} {s s' : Session} {memoryBanks : List Nat}
  {numberOfAllocators singleAllocatorSize : Nat} {localMemorySupport : Bool}

theorem chain_mem {good : Nat → PageInfo → Prop} {entries : List PageInfo} {g stop : Nat} {e : PageInfo}
    (chain : Chain good g entries stop) (mem : e ∈ entries) :
    ∃ b, good b e ∧ g ≤ b ∧ b + e.size ≤ stop := by
  induction entries generalizing g with
  | nil => cases mem
  | cons x rest ih =>
    obtain ⟨first, later⟩ := chain
    have covered := later.stop_eq
    rcases List.mem_cons.mp mem with rfl | mem
    · exact ⟨g, first, Nat.le_refl _, by omega⟩
    · obtain ⟨b, here, after, before⟩ := ih later mem
      exact ⟨b, here, by omega, before⟩

/-- A walk in 64KB pages has nothing to do with PS64: it only reads. -/
theorem expectWalk_unchanged {t : Nodes} {a : PhysicalAddressAllocatorSimple} {g size : Nat}
    {w : WalkState PhysicalAddressAllocatorSimple} (wf : Wf m.tables.ppgtt.getNumLevels t)
    (h : m.walk (expectParams g size) .Expect [] none t a = some w) :
    w.nodes = t ∧ w.allocator = a := by
  rcases walkMemory_some h with ⟨zero, rfl⟩ | ⟨_, c, hc, hpages⟩
  · exact ⟨rfl, rfl⟩
  · obtain ⟨_, hppgtt, expect, _⟩ := walkContext_some hc
    rw [← hppgtt] at wf
    obtain ⟨allocator, -, same⟩ := ExpectWalk.expectPages expect _ _ _ _ _ w wf rfl (Nat.le_refl _) hpages
    refine ⟨same.mpr fun applicable => ?_, allocator⟩
    have small : m.tables.enablePs64 = true ∧ (expectParams g size).pageSize = pageSize4KB ∧
        m.tables.ppgtt = .PML5 := (ps64Applicable_iff hc).mp applicable
    cases small.2.1

/-- An expectation adds its call, and changes nothing else. -/
theorem expectMemory_some {s s' : Captured} {device g operation : Nat} {memory : List UInt8}
    (shape : ∀ t ∈ s.traced.sim.ppgtts, Wf m.tables.ppgtt.getNumLevels t)
    (h : expectMemory m s device g memory operation = some s') :
    ∃ t w, s.traced.sim.ppgtts[device]? = some t ∧
      m.walk (expectParams g memory.length) .Expect [] none t s.traced.sim.allocator = some w ∧
      total w.entries = memory.length ∧
      s' = ⟨s.traced, s.calls ++ [.expectMemoryTable memory w.entries operation]⟩ := by
  obtain ⟨t, ht, hw⟩ := Option.bind_eq_some_iff.mp h
  obtain ⟨w, walk, done⟩ := Option.bind_eq_some_iff.mp hw
  split at done
  · rename_i covered
    obtain ⟨nodes, allocator⟩ := expectWalk_unchanged (shape t (List.mem_of_getElem? ht)) walk
    obtain ⟨inside, rfl⟩ := List.getElem?_eq_some_iff.mp ht
    refine ⟨_, w, ht, walk, covered, ?_⟩
    rw [← Option.some.inj done, nodes, allocator, List.set_getElem_self]
  · cases done

/-- The stream's assertion holds if every byte has a page. -/
theorem expectMemory_isSome {s : Captured} {device g operation : Nat} {memory : List UInt8} {t : Nodes}
    (ht : s.traced.sim.ppgtts[device]? = some t) (wf : Wf m.tables.ppgtt.getNumLevels t)
    (mapped : ∀ i, i < memory.length → pageAt m.tables.ppgtt.getNumLevels t (g + i) ≠ none) :
    (expectMemory m s device g memory operation).isSome = true := by
  have ends : (m.walk (expectParams g memory.length) .Expect [] none t
      s.traced.sim.allocator).isSome = true :=
    walkMemory_isSome _ _ _ _ _ [] none (by simp) (by simp [expectParams, mainBank])
  obtain ⟨w, walk⟩ := Option.isSome_iff_exists.mp ends
  obtain ⟨stop, first, last, chain, missing⟩ := chain_expect wf walk
  have covered : stop = g + total w.entries := chain.stop_eq
  have whole : total w.entries = memory.length := by
    change stop ≤ g + memory.length at last
    by_contra short
    refine mapped (total w.entries) (by omega) ?_
    rw [← covered]
    exact missing (show stop < g + memory.length by omega)
  rw [expectMemory, ht, Option.bind_some, walk, Option.bind_some, if_pos whole]
  rfl

/-- The pages of an expectation can be counted. -/
theorem countable_entries {t : Nodes} {g size : Nat} {a : PhysicalAddressAllocatorSimple}
    {w : WalkState PhysicalAddressAllocatorSimple} (wf : Wf m.tables.ppgtt.getNumLevels t)
    (walk : m.walk (expectParams g size) .Expect [] none t a = some w)
    (small : ∀ i, i < size → ∀ p ∈ pageAt m.tables.ppgtt.getNumLevels t (g + i), p.size ≤ 0x10000) :
    ∀ e ∈ w.entries, ComparePackets.Countable e := by
  intro e mem
  obtain ⟨stop, -, last, chain, -⟩ := chain_expect wf walk
  obtain ⟨b, ⟨-, pos, p, page, fits⟩, after, before⟩ := chain_mem chain mem
  obtain ⟨i, rfl⟩ := Nat.exists_eq_add_of_le after
  change stop ≤ g + size at last
  change g + i + e.size ≤ stop at before
  have page' := small i (by omega) p page
  unfold ComparePackets.Countable
  omega

theorem right_append (es : List Expectation) (e : Expectation) :
    decide (∀ x ∈ es ++ [e], x.Right) = (decide (∀ x ∈ es, x.Right) && decide e.Right) := by
  rw [← Bool.decide_and]
  exact decide_eq_decide.mpr (by simp [or_imp, forall_and])

/-- The session's file is judged as its expectations are. -/
def Judged (s : Session) : Prop :=
  ∀ dumpSupported (r : Reader), r.memory = blank → verdict r.log = ⟨false, true⟩ →
    verdict (performAll dumpSupported s.captured.calls r).log =
      ⟨false, decide (∀ e ∈ s.expectations, e.Right)⟩

theorem judged_call {op : CapturedTables.Op} (judged : Judged s)
    (quiet : ∀ c ∈ op.made, expects c = false) (done : step m s (.call op) = some s') : Judged s' := by
  obtain ⟨captured, made, rfl⟩ := Option.map_eq_some_iff.mp done
  obtain ⟨traced, -, rfl⟩ := Option.map_eq_some_iff.mp made
  intro dumpSupported r memory start
  rw [performAll_append, verdict_performAll dumpSupported quiet]
  exact judged dumpSupported r memory start

theorem judged_expect {device g operation : Nat} {memory : List UInt8} (judged : Judged s)
    (shape : ∀ t ∈ s.captured.traced.sim.ppgtts, Wf m.tables.ppgtt.getNumLevels t)
    (image : s.captured.traced.sim.image = s.captured.calls.foldl written blank)
    (nonempty : memory ≠ []) (known : operation = CompareEqual ∨ operation = CompareNotEqual)
    (done : step m s (.expectMemory device g memory operation) = some s') : Judged s' := by
  obtain ⟨captured, made, rfl⟩ := Option.map_eq_some_iff.mp done
  obtain ⟨t, w, ht, walk, covered, rfl⟩ := expectMemory_some shape made
  intro dumpSupported r blankMemory start
  have length : (List.replicate memory.length (0 : UInt8)).length = total w.entries := by
    rw [List.length_replicate, covered]
  have there : (performAll dumpSupported s.captured.calls r).memory = s.captured.traced.sim.image := by
    rw [performAll_memory, blankMemory, image]
  have found : readMemory m s.captured.traced.sim device (expectParams g memory.length)
      (List.replicate memory.length 0) = some (readDiscontiguousPages s.captured.traced.sim.image
        (List.replicate memory.length 0) w.entries) := by
    rw [readMemory, ht, Option.bind_some, walk, Option.map_some]
  rw [performAll_append, right_append]
  refine (verdict_expect dumpSupported memory w.entries operation).trans ?_
  rw [judged dumpSupported r blankMemory start, there]
  rcases known with rfl | rfl
  · rw [judge_equal covered.symm length, Verdict.mk.injEq]
    refine ⟨rfl, congrArg (_ && ·) (decide_eq_decide.mpr ?_)⟩
    rw [right_equal, found, Option.some.injEq]
  · have pages : w.entries ≠ [] := by
      intro none
      rw [none] at covered
      exact nonempty (List.length_eq_zero_iff.mp covered.symm)
    rw [judge_notEqual covered.symm length pages, Verdict.mk.injEq, Bool.false_or, ← decide_not]
    refine ⟨rfl, congrArg (_ && ·) (decide_eq_decide.mpr ?_)⟩
    rw [right_notEqual, found, ne_eq, Option.some.injEq]

def newSession (memoryBanks : List Nat) (numberOfAllocators singleAllocatorSize : Nat)
    (localMemorySupport : Bool) : Session :=
  ⟨newCaptured memoryBanks numberOfAllocators singleAllocatorSize localMemorySupport, []⟩

theorem taped_expect {device g operation : Nat} {memory : List UInt8} {s s' : Captured}
    (taped : Taped m memoryBanks numberOfAllocators singleAllocatorSize localMemorySupport s)
    (small : ∀ t ∈ s.traced.sim.ppgtts[device]?, ∀ i, i < memory.length →
      ∀ p ∈ pageAt m.tables.ppgtt.getNumLevels t (g + i), p.size ≤ 0x10000)
    (done : expectMemory m s device g memory operation = some s') :
    Taped m memoryBanks numberOfAllocators singleAllocatorSize localMemorySupport s' := by
  obtain ⟨shape, -⟩ := reach_exact (reach_kept taped.reached).1
  obtain ⟨t, w, ht, walk, covered, rfl⟩ := expectMemory_some (fun t mem => (shape t mem).1) done
  constructor
  · exact taped.reached
  · rw [List.foldl_append]
    exact taped.image
  · intro c mem
    rcases List.mem_append.mp mem with old | new
    · exact taped.recordable c old
    · obtain rfl := List.mem_singleton.mp new
      exact ⟨covered.symm, countable_entries (shape t (List.mem_of_getElem? ht)).1 walk (small t ht)⟩

theorem reach_judged (reached : Reach (step m) (Allowed m)
      (newSession memoryBanks numberOfAllocators singleAllocatorSize localMemorySupport) s) :
    Taped m memoryBanks numberOfAllocators singleAllocatorSize localMemorySupport s.captured ∧
      Judged s := by
  induction reached with
  | start => exact ⟨reach_captured .start, fun _ _ _ start => start⟩
  | @step s s' op _ allowed done ih =>
    obtain ⟨taped, judged⟩ := ih
    obtain ⟨shape, -⟩ := reach_exact (reach_kept taped.reached).1
    cases op with
    | call op =>
      obtain ⟨calm, quiet⟩ := allowed
      have next := judged_call judged quiet done
      obtain ⟨captured, made, rfl⟩ := Option.map_eq_some_iff.mp done
      exact ⟨taped.step calm made, next⟩
    | expectMemory device g memory operation =>
      obtain ⟨nonempty, known, small⟩ := allowed
      have next := judged_expect judged (fun t mem => (shape t mem).1) taped.image nonempty known done
      obtain ⟨captured, made, rfl⟩ := Option.map_eq_some_iff.mp done
      exact ⟨taped_expect taped small made, next⟩

/-- A reader of the session's file finds everything right if all expectations are. -/
theorem file_judged (reached : Reach (step m) (Allowed m)
      (newSession memoryBanks numberOfAllocators singleAllocatorSize localMemorySupport) s)
    (caller : Nat) (stepping : Int) (gpu : GpuDescriptor) (dumpSupported : Bool) :
    ∃ (packets : List (List UInt8)) (records : List TraceReader.Record),
      frames traceSize ((fileItems stepping gpu dumpSupported s.captured.calls).flatMap
        (Item.bytes caller)) = some packets ∧
      packets.map decodeRecord = records.map some ∧
      ((verdict (records.foldl Reader.execute ⟨blank, [], []⟩).log).right = true ↔
        ∀ e ∈ s.expectations, e.Right) := by
  obtain ⟨taped, judged⟩ := reach_judged reached
  obtain ⟨packets, records, cut, decoded, done⟩ := taped.file caller stepping gpu dumpSupported
  refine ⟨packets, records, cut, decoded, ?_⟩
  rw [done, judged dumpSupported _ rfl rfl]
  exact decide_eq_true_iff

theorem length_read {image : AubPackets.Memory} {entries : List PageInfo} {before : List UInt8}
    (length : before.length = total entries) :
    (readDiscontiguousPages image before entries).length = total entries := by
  induction entries generalizing before with
  | nil => exact length
  | cons e rest ih =>
    rw [total_cons] at length ⊢
    have later := @ih (before.drop e.size) (by rw [List.length_drop]; omega)
    rw [readDiscontiguousPages, List.length_append, later, TbxSimulator.fetch, List.length_map,
      List.length_range]

/-- An expectation of what was just written is right. -/
theorem right_written {s s₁ s₂ : Session} {op : CapturedTables.Op} {device : Nat}
    {params : AllocationParams} {f : Nat → UInt8} {t : Nodes}
    (taped : Taped m memoryBanks numberOfAllocators singleAllocatorSize localMemorySupport s.captured)
    (write : op.call = .writeMemory device params) (data : params.memory = some f)
    (allowed : Allowed m s (.call op)) (done : step m s (.call op) = some s₁)
    (room : Unexhausted s₁.captured.traced.sim.allocator)
    (banks : BanksApart (firstAddress singleAllocatorSize localMemorySupport)
      s₁.captured.traced.sim.allocator)
    (ht : s₁.captured.traced.sim.ppgtts[device]? = some t)
    (distinct : ∀ i j, i < j → j < params.size →
      placeOf m.tables.ppgtt.getNumLevels t (params.gfxAddress + j) ≠
        placeOf m.tables.ppgtt.getNumLevels t (params.gfxAddress + i))
    (expected : step m s₁ (.expectMemory device params.gfxAddress (bytesOf f params.size) CompareEqual) =
      some s₂) :
    ∃ e, s₂.expectations = s.expectations ++ [e] ∧ e.Right := by
  obtain ⟨captured, made, rfl⟩ := Option.map_eq_some_iff.mp done
  obtain ⟨shape, -⟩ := reach_exact (reach_kept (taped.step allowed.1 made).reached).1
  obtain ⟨captured', made', rfl⟩ := Option.map_eq_some_iff.mp expected
  obtain ⟨t', w, ht', walk, covered, -⟩ := expectMemory_some (fun t mem => (shape t mem).1) made'
  obtain ⟨traced, tracedDone, rfl⟩ := Option.map_eq_some_iff.mp made
  refine ⟨_, rfl, right_equal.mpr ?_⟩
  have size : (bytesOf f params.size).length = params.size := by
    rw [bytesOf, List.length_map, List.length_range]
  have length : (List.replicate (bytesOf f params.size).length (0 : UInt8)).length = total w.entries := by
    rw [List.length_replicate, covered]
  have found : readMemory m traced.sim device (expectParams params.gfxAddress (bytesOf f params.size).length)
      (List.replicate (bytesOf f params.size).length 0) = some (readDiscontiguousPages traced.sim.image
        (List.replicate (bytesOf f params.size).length 0) w.entries) := by
    rw [readMemory, ht', Option.bind_some, walk, Option.map_some]
  have calm : FaithfulCalls.Allowed m.tables s.captured.traced.sim (.writeMemory device params) := by
    have here := allowed.1.1
    rw [write] at here
    exact here
  rw [write] at tracedDone
  have range : (expectParams params.gfxAddress (bytesOf f params.size).length).gfxAddress =
      params.gfxAddress ∧ (expectParams params.gfxAddress (bytesOf f params.size).length).size =
        params.size := ⟨rfl, size⟩
  have back := take_of_written
    (read_written taped.reached data calm tracedDone room banks ht range found) distinct
  have all : (readDiscontiguousPages traced.sim.image
      (List.replicate (bytesOf f params.size).length 0) w.entries).length ≤ params.size := by
    rw [length_read length, covered, size]
  rw [List.take_of_length_le all] at back
  exact found.trans (congrArg some back)

end Runs

/-! ### Four bytes -/

theorem fourBytesOp_quiet : ∀ c ∈ fourBytesOp.made, expects c = false := by
  intro c mem
  rcases List.mem_cons.mp mem with rfl | write
  · rfl
  · obtain ⟨record, -, here⟩ := List.mem_flatMap.mp write
    cases record with
    | entries | data =>
      obtain rfl := List.mem_singleton.mp here
      rfl
    | _ => cases here

/-- The session after the write, in whose table the four bytes can be expected. -/
theorem fourBytes_session : ∃ s t, step plainManager (newSession [0, 0] 2 0x100000000 false)
      (.call fourBytesOp) = some s ∧ s.captured.traced.sim.ppgtts[1]? = some t ∧
    Allowed plainManager (newSession [0, 0] 2 0x100000000 false) (.call fourBytesOp) ∧
    Unexhausted s.captured.traced.sim.allocator ∧
    BanksApart (firstAddress 0x100000000 false) s.captured.traced.sim.allocator ∧
    (∀ i, i < 4 → placeOf 4 t (0x1000 + i) = some (.systemMemory, 0x85000 + i)) ∧
    ∀ memory operation, memory.length = 4 → operation = CompareEqual ∨ operation = CompareNotEqual →
      Allowed plainManager s (.expectMemory 1 0x1000 memory operation) ∧
        ∃ s', step plainManager s (.expectMemory 1 0x1000 memory operation) = some s' := by
  obtain ⟨traced, t, done, ht, room, banks, pages⟩ := fourBytes_run
  obtain ⟨traced', t', done', ht', -, -, bytes⟩ := fourBytes_sent
  obtain rfl := Option.some.inj (done.symm.trans done')
  obtain rfl := Option.some.inj (ht.symm.trans ht')
  have made : CapturedTables.step plainManager (newCaptured [0, 0] 2 0x100000000 false) fourBytesOp =
      some ⟨traced, [] ++ fourBytesOp.made⟩ := Option.map_eq_some_iff.mpr ⟨traced, done, rfl⟩
  have stepped : step plainManager (newSession [0, 0] 2 0x100000000 false) (.call fourBytesOp) =
      some ⟨⟨traced, [] ++ fourBytesOp.made⟩, []⟩ := by
    simp only [step, newSession, made, Option.map_some]
  refine ⟨⟨⟨traced, [] ++ fourBytesOp.made⟩, []⟩, t, stepped, ht, ⟨fourBytes_captured, fourBytesOp_quiet⟩,
    room, banks, fun i hi => (bytes i hi).2.1, fun memory operation four known => ⟨⟨?_, known, ?_⟩, ?_⟩⟩
  · rintro rfl
    cases four
  · intro t'' same i hi p page
    obtain rfl := Option.some.inj (ht.symm.trans same)
    obtain ⟨p', page', fields⟩ := Option.map_eq_some_iff.mp (pages i (four ▸ hi))
    obtain rfl := Option.some.inj (page.symm.trans page')
    obtain ⟨-, rest⟩ := Prod.mk.inj fields
    rw [(Prod.mk.inj rest).2]
    decide
  · have calm : ExactTables.Allowed plainManager.tables (newSimulation [0, 0] 2 0x100000000 false)
        (.writeMemory 1 fourBytes) := fourBytes_allowed
    have new : Reach (call plainManager) (ExactTables.Allowed plainManager.tables)
        (newSimulation [0, 0] 2 0x100000000 false) traced.sim := .step .start calm (traced_sim done)
    obtain ⟨shape, -⟩ := reach_exact new
    have mapped : ∀ i, i < memory.length → pageAt plainManager.tables.ppgtt.getNumLevels t
        (0x1000 + i) ≠ none := by
      intro i hi none
      obtain ⟨p, page, -⟩ := Option.map_eq_some_iff.mp (pages i (four ▸ hi))
      cases none.symm.trans page
    have holds : (expectMemory plainManager ⟨traced, [] ++ fourBytesOp.made⟩ 1 0x1000 memory
        operation).isSome = true :=
      expectMemory_isSome ht (shape t (List.mem_of_getElem? ht)).1 mapped
    obtain ⟨captured, expected⟩ := Option.isSome_iff_exists.mp holds
    exact ⟨_, Option.map_eq_some_iff.mpr ⟨captured, expected, rfl⟩⟩

end CapturedExpectations
