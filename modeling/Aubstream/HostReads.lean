import Aubstream.GpuMemory
import Aubstream.TbxSimulator

/-!
# What the host reads back

A read of the host goes over the tables as a walk that expects its pages. Up to the
first page that is missing it gives what the hardware would read there.
-/

namespace HostReads
open EntryBits PathTree PhysicalAllocator AllocatorBlocks PageNodes PageWalker TreeShape WalkPhases
  Placement Translation PageEffect PageVisits MapFrame WalkEntries TableRuns MappedPages LastTables
  AubPackets AubManager StreamedMemory StreamedTables MemoryBlocks PageAliasing PageBytes LeafEntries
  GpuMemory ExactTables Transitions AllocatorGrowth FaithfulCalls PhantomMappings
open FreeComplete hiding fourLevel

/-- `TbxStream::readDiscontiguousPages`; `memory` is the buffer before the read. -/
def readDiscontiguousPages (image : AubPackets.Memory) : List UInt8 → List PageInfo → List UInt8
  | memory, [] => memory
  | memory, e :: rest => TbxSimulator.fetch image (pageRegion e) e.physicalAddress e.size ++
      readDiscontiguousPages image (memory.drop e.size) rest

/-- `AubStream::readMemory` on the PPGTT of a device. -/
def readMemory (m : AubManagerImp PhysicalAddressAllocatorSimple) (s : Simulation) (device : Nat)
    (params : AllocationParams) (memory : List UInt8) : Option (List UInt8) :=
  (s.ppgtts[device]?).bind fun t => (m.walk params .Expect [] none t s.allocator).map fun w =>
    readDiscontiguousPages s.image memory w.entries

/-- What a read of `size` bytes at `g` makes of a buffer. -/
structure ReadsBack (cfg : Config) (s : Traced) (t : Nodes) (g size : Nat)
    (memory memory' : List UInt8) (count : Nat) : Prop where
  within : count ≤ size
  missing : count < size → pageAt cfg.ppgtt.getNumLevels t (g + count) = none
  rest : ∀ i, count ≤ i → memory'[i]? = memory[i]?
  sent : ∀ i q b, i < count → placeOf cfg.ppgtt.getNumLevels t (g + i) = some q → s.sent q b →
    memory'[i]? = some b
  seen : ∀ i p, i < count → pageAt cfg.ppgtt.getNumLevels t (g + i) = some p → Nameable p →
    memory'[i]? = gpuRead cfg.ppgtt.getNumLevels s.sim.image t (g + i)

/-! ### Records -/

section Records
variable {place : Nat → Option (Region × Nat)} {image : AubPackets.Memory}

theorem fetch_get (r : Region) (a : Nat) {n k : Nat} (short : k < n) :
    (TbxSimulator.fetch image r a n)[k]? = some (image r (cell r (a + k))) := by
  rw [TbxSimulator.fetch, List.getElem?_map, List.getElem?_range short]
  rfl

/-- Each byte of the records comes from its place. -/
theorem readDiscontiguousPages_get {entries : List PageInfo} {memory : List UInt8} {g stop : Nat}
    (chain : Chain (Places place) g entries stop) (k : Nat) :
    (readDiscontiguousPages image memory entries)[k]? =
      if k < stop - g then (place (g + k)).map (cells image) else memory[k]? := by
  induction entries generalizing memory g k with
  | nil =>
    obtain rfl : stop = g := chain
    rw [if_neg (by omega)]
    rfl
  | cons e rest ih =>
    obtain ⟨places, later⟩ := chain
    have covered := later.stop_eq
    have length : (TbxSimulator.fetch image (pageRegion e) e.physicalAddress e.size).length =
        e.size := by
      rw [TbxSimulator.fetch, List.length_map, List.length_range]
    rw [readDiscontiguousPages]
    by_cases short : k < e.size
    · rw [List.getElem?_append_left (by omega), fetch_get _ _ short, if_pos (by omega), places k short]
      rfl
    · have next : (readDiscontiguousPages image (memory.drop e.size) rest)[k - e.size]? = _ :=
        ih later (k - e.size)
      rw [List.getElem?_append_right (by omega), length, next, List.getElem?_drop,
        show g + e.size + (k - e.size) = g + k by omega, show e.size + (k - e.size) = k by omega]
      by_cases inside : k < stop - g
      · rw [if_pos inside, if_pos (by omega)]
      · rw [if_neg inside, if_neg (by omega)]

end Records

/-! ### Walks -/

section Walks
variable {A : Type} [PhysicalAddressAllocator A] {c : WalkContext} {t : Nodes}

/-- Between two pages of a walk that only reads. -/
structure ReadRun (c : WalkContext) (t : Nodes) (g stop a size : Nat) (s : Layout A) : Prop where
  bounds : g ≤ a ∧ a + size = stop
  nodes : s.nodes = t
  chain : Chain (RecordOf c.ppgtt.getNumLevels (lastTable c t) t) g s.entries a

omit [PhysicalAddressAllocator A] in
theorem readRun_step {g stop size : Nat} {s s' : Layout A} {page : PageRequest}
    (wf : Wf c.ppgtt.getNumLevels t) (expect : c.mode = .Expect) (hsize : 0 < size)
    (hps : page.size = size) (visited : Visited c page s s')
    (run : ReadRun c t g stop page.gfxAddress size s) :
    ReadRun c t g stop
      (page.gfxAddress + sizeThisIteration page (lastTable c s.nodes page.gfxAddress).getPageSize)
      (size - sizeThisIteration page (lastTable c s.nodes page.gfxAddress).getPageSize) s' := by
  have hk := pageKinds_lastTable wf
  have hpos := (hk.region page.gfxAddress).getPageSize_pos
  have hmod := Nat.mod_lt page.gfxAddress hpos
  obtain ⟨hga, hstop⟩ := run.bounds
  obtain ⟨leaf, hleaf, hentries⟩ := visited.leaf
  rw [run.nodes] at hentries ⊢
  have passed : sizeThisIteration page (lastTable c t page.gfxAddress).getPageSize =
      min size ((lastTable c t page.gfxAddress).getPageSize -
        page.gfxAddress % (lastTable c t page.gfxAddress).getPageSize) := by
    rw [sizeThisIteration, hps]
  constructor
  · omega
  · rw [visited.read expect, run.nodes]
  · rw [hentries]
    refine run.chain.append ⟨?_, ?_, leaf, ?_, rfl, rfl⟩
    · simp only [pageRecord]
      omega
    · simp only [pageRecord]
      omega
    · rw [visitSlot, visited.read expect, run.nodes] at hleaf
      exact hleaf

/-- A record from `b` on, which stays in the page of `b`. -/
structure OnPage (n : Nat) (t : Nodes) (b : Nat) (e : PageInfo) : Prop where
  places : Places (placeOf n t) b e
  pos : 0 < e.size
  page : ∃ p, pageAt n t b = some p ∧ e.size ≤ p.size

omit [PhysicalAddressAllocator A] in
theorem onPage_of_record {b : Nat} {e : PageInfo} (wf : Wf c.ppgtt.getNumLevels t)
    (record : RecordOf c.ppgtt.getNumLevels (lastTable c t) t b e) :
    OnPage c.ppgtt.getNumLevels t b e := by
  constructor
  · exact RecordOf.places wf record
  · exact record.1
  · obtain ⟨_, fits, leaf, hleaf, -⟩ := record
    refine ⟨pageOf leaf (lastTable c t b).getPageSize, ?_, Nat.le_trans (Nat.le_add_left _ _) fits⟩
    rw [pageAt_of_slot wf, hleaf, Option.map_some]

omit [PhysicalAddressAllocator A] in
theorem OnPage.of_layout {n b : Nat} {e : PageInfo} (h : OnPage n (layout t) b e) : OnPage n t b e := by
  have pages : pageAt n (layout t) = pageAt n t := funext (pageAt_layout n t)
  have same : placeOf n (layout t) = placeOf n t := by
    funext x
    rw [placeOf, placeOf, pages]
  obtain ⟨places, pos, page⟩ := h
  rw [same] at places
  rw [pages] at page
  exact ⟨places, pos, page⟩

/-- The records of a read, up to the first page that is missing. -/
theorem chain_expect {cfg : Config} {a : A} {params : AllocationParams} {w : WalkState A}
    (wf : Wf cfg.ppgtt.getNumLevels t)
    (h : walkMemory cfg.gpu cfg.enablePs64 cfg.ppgtt t a params .Expect [] none = some w) :
    ∃ stop, params.gfxAddress ≤ stop ∧ stop ≤ params.gfxAddress + params.size ∧
      Chain (OnPage cfg.ppgtt.getNumLevels t) params.gfxAddress w.entries stop ∧
      (stop < params.gfxAddress + params.size → pageAt cfg.ppgtt.getNumLevels t stop = none) := by
  rcases walkMemory_some h with ⟨zero, rfl⟩ | ⟨_, c, hc, hpages⟩
  · exact ⟨params.gfxAddress, Nat.le_refl _, Nat.le_add_right _ _, rfl, fun short => by omega⟩
  · obtain ⟨_, hppgtt, expect, _⟩ := walkContext_some hc
    rw [← hppgtt] at wf ⊢
    have wf' := wf_layout.mpr wf
    obtain ⟨-, stop, rest, _, run, ended⟩ := walkPages_visits
      (J := fun x size _ s => ReadRun c (layout t) params.gfxAddress
        (params.gfxAddress + params.size) x size s)
      (fun size index s page _ _ hpos _ hps visited run =>
        readRun_step wf' expect hpos hps visited run)
      _ _ _ _ _ w (Nat.le_refl _) wf (fun _ => rfl) hpages
      ⟨⟨Nat.le_refl _, rfl⟩, rfl, rfl⟩
    obtain ⟨first, last⟩ := run.bounds
    have records := run.chain.mono fun b e record => (onPage_of_record wf' record).of_layout
    refine ⟨stop, first, by omega, records, fun short => ?_⟩
    rcases ended with done | ⟨-, hole⟩
    · omega
    · rw [run.nodes] at hole
      have leaf : leafAt c.ppgtt.getNumLevels (layout t) stop = none := (leafAt_before wf' stop).trans hole
      rw [← pageAt_layout, pageAt, leaf]
      rfl

end Walks

/-! ### Runs -/

section Runs
variable {m : AubManagerImp PhysicalAddressAllocatorSimple} {base : Bank → Nat} {s : Traced}

/-- A read takes each byte from its place, up to the first page that is missing. -/
theorem readMemory_get {sim : Simulation} {device : Nat} {t : Nodes} {params : AllocationParams}
    {memory memory' : List UInt8} (ht : sim.ppgtts[device]? = some t)
    (wf : Wf m.tables.ppgtt.getNumLevels t)
    (h : readMemory m sim device params memory = some memory') :
    ∃ count, count ≤ params.size ∧
      (count < params.size → pageAt m.tables.ppgtt.getNumLevels t (params.gfxAddress + count) = none) ∧
      ∀ i, memory'[i]? = if i < count then (placeOf m.tables.ppgtt.getNumLevels t
        (params.gfxAddress + i)).map (cells sim.image) else memory[i]? := by
  rw [readMemory, ht, Option.bind_some] at h
  obtain ⟨w, hw, rfl⟩ := Option.map_eq_some_iff.mp h
  obtain ⟨stop, first, last, chain, ended⟩ := chain_expect wf hw
  refine ⟨stop - params.gfxAddress, by omega, fun short => ?_, fun i => ?_⟩
  · rw [Nat.add_sub_cancel' first]
    exact ended (by omega)
  · exact readDiscontiguousPages_get (chain.mono fun _ _ record => record.places) i

/-- A read finds what was sent, and what the hardware finds. -/
theorem readMemory_back {device : Nat} {t : Nodes} {params : AllocationParams}
    {memory memory' : List UInt8} (apart : ExtraBitsApart m.tables.gpu)
    (walks : WalksExact m.tables s.sim) (kept : Kept s) (ht : s.sim.ppgtts[device]? = some t)
    (wf : Wf m.tables.ppgtt.getNumLevels t)
    (h : readMemory m s.sim device params memory = some memory') :
    ∃ count, ReadsBack m.tables s t params.gfxAddress params.size memory memory' count := by
  obtain ⟨count, within, missing, found⟩ := readMemory_get ht wf h
  refine ⟨count, within, missing, ?_, ?_, ?_⟩
  · intro i after
    rw [found, if_neg (Nat.not_lt.mpr after)]
  · intro i q b inside here sent
    rw [found, if_pos inside, here, Option.map_some]
    exact congrArg some (kept q b sent).2
  · intro i p inside page nameable
    rw [found, if_pos inside, gpuRead,
      gpuPlace_exact apart walks (List.mem_of_getElem? ht) wf page nameable]

/-- A read of the range of a write finds it whole. -/
theorem read_written {memoryBanks : List Nat} {numberOfAllocators singleAllocatorSize : Nat}
    {localMemorySupport : Bool} {s' : Traced}
    (reached : Reach (tracedCall m) (fun s c => ExactTables.Allowed m.tables s.sim c)
      (newTraced memoryBanks numberOfAllocators singleAllocatorSize localMemorySupport) s)
    {device : Nat} {params : AllocationParams} {f : Nat → UInt8} (data : params.memory = some f)
    (allowed : FaithfulCalls.Allowed m.tables s.sim (.writeMemory device params))
    (done : tracedCall m s (.writeMemory device params) = some s')
    (room : Unexhausted s'.sim.allocator)
    (banks : BanksApart (firstAddress singleAllocatorSize localMemorySupport) s'.sim.allocator)
    {t : Nodes} (ht : s'.sim.ppgtts[device]? = some t) {params' : AllocationParams}
    (range : params'.gfxAddress = params.gfxAddress ∧ params'.size = params.size)
    {memory memory' : List UInt8}
    (read : readMemory m s'.sim device params' memory = some memory') :
    ∀ i, i < params.size → ∃ q, placeOf m.tables.ppgtt.getNumLevels t (params.gfxAddress + i) = some q ∧
      memory'[i]? = lastOf (placeOf m.tables.ppgtt.getNumLevels t) f params.gfxAddress params.size q := by
  obtain ⟨plain, -⟩ := reach_kept reached
  obtain ⟨shape, exact'⟩ := reach_exact plain
  have called := traced_sim done
  obtain ⟨shape', grown⟩ := call_shape shape called
  have before : Exact _ m.tables s.sim := exact'
    (fun slot => Nat.lt_of_le_of_lt (grown.highWater slot) (room slot)) (banksApart_of_grown grown banks)
  have allowed' : ExactTables.Allowed m.tables s.sim (.writeMemory device params) := allowed
  obtain ⟨-, kept⟩ := reach_kept (reached.step allowed' done)
  have sent := fun i (hi : i < params.size) =>
    sent_writeMemory before shape allowed done data room banks ht hi
  obtain ⟨count, within, missing, found⟩ := readMemory_get ht (shape' t (List.mem_of_getElem? ht)).1 read
  obtain ⟨start, length⟩ := range
  rw [start] at missing found
  rw [length] at within missing
  have whole : count = params.size := by
    by_contra short
    obtain ⟨q, b, here, -⟩ := sent count (by omega)
    rw [placeOf, missing (by omega)] at here
    cases here
  intro i hi
  obtain ⟨q, b, here, last, there⟩ := sent i hi
  refine ⟨q, here, ?_⟩
  rw [found, if_pos (by omega), here, Option.map_some, last]
  exact congrArg some (kept room banks q b there).2

/-- No two bytes of the range have one place. -/
theorem take_of_written {place : Nat → Option (Region × Nat)} {f : Nat → UInt8} {g size : Nat}
    {memory' : List UInt8} (back : ∀ i, i < size → ∃ q, place (g + i) = some q ∧
      memory'[i]? = lastOf place f g size q)
    (distinct : ∀ i j, i < j → j < size → place (g + j) ≠ place (g + i)) :
    memory'.take size = bytesOf f size := by
  refine List.ext_getElem? fun i => ?_
  by_cases hi : i < size
  · obtain ⟨q, here, value⟩ := back i hi
    have last := lastOf_eq (f := f) hi here fun j after inside => here ▸ distinct i j after inside
    rw [List.getElem?_take_of_lt hi, value, last, bytesOf, List.getElem?_map, List.getElem?_range hi]
    rfl
  · rw [List.getElem?_take_eq_none (Nat.not_lt.mp hi), bytesOf, List.getElem?_eq_none]
    rw [List.length_map, List.length_range]
    exact Nat.not_lt.mp hi

end Runs

end HostReads
