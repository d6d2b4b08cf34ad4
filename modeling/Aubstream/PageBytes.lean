import Aubstream.MappedPages
import Aubstream.StreamedMemory
import Aubstream.MemoryBlocks

/-!
# Where the bytes of a range go

The records of a walk are consecutive, and each byte of the range goes to the place
that the tables have for its address. Of two bytes for one place the later one stays.
-/

namespace PageBytes
open EntryBits PathTree PhysicalAllocator PageNodes PageWalker TreeShape WalkPhases Placement
  Translation PageEffect PageVisits MapCursor MapFrame ReserveFrame WalkEntries TableRuns MappedPages
  AubPackets StreamedMemory MemoryBlocks

universe u v

/-! ### Scattered writes -/

section Scattered
variable {P : Type u} {B : Type v} [DecidableEq P] {place : Nat → Option P} {f : Nat → B} {g n i : Nat}
  {q : P} {b : B}

/-- The last value of a range that goes to a place. -/
def lastOf (place : Nat → Option P) (f : Nat → B) (g : Nat) : Nat → P → Option B
  | 0, _ => none
  | n + 1, q => if place (g + n) = some q then some (f n) else lastOf place f g n q

theorem lastOf_some (h : lastOf place f g n q = some b) : ∃ i, i < n ∧ place (g + i) = some q ∧
    f i = b ∧ ∀ j, i < j → j < n → place (g + j) ≠ some q := by
  induction n with
  | zero => cases h
  | succ n ih =>
    rw [lastOf] at h
    split at h
    · rename_i here
      exact ⟨n, Nat.lt_succ_self n, here, Option.some.inj h, fun j after before => by omega⟩
    · rename_i other
      obtain ⟨i, hi, here, value, later⟩ := ih h
      refine ⟨i, Nat.lt_succ_of_lt hi, here, value, fun j after before => ?_⟩
      rcases Nat.lt_succ_iff_lt_or_eq.mp before with earlier | rfl
      · exact later j after earlier
      · exact other

/-- A value that nothing follows at its place. -/
theorem lastOf_eq (hi : i < n) (here : place (g + i) = some q)
    (later : ∀ j, i < j → j < n → place (g + j) ≠ some q) : lastOf place f g n q = some (f i) := by
  induction n with
  | zero => exact absurd hi (Nat.not_lt_zero i)
  | succ n ih =>
    rw [lastOf]
    rcases Nat.lt_succ_iff_lt_or_eq.mp hi with before | rfl
    · rw [if_neg (later n before (Nat.lt_succ_self n))]
      exact ih before fun j after earlier => later j after (Nat.lt_succ_of_lt earlier)
    · rw [if_pos here]

theorem lastOf_ne_none (hi : i < n) (here : place (g + i) = some q) : lastOf place f g n q ≠ none := by
  induction n with
  | zero => exact absurd hi (Nat.not_lt_zero i)
  | succ n ih =>
    rw [lastOf]
    split
    · exact Option.some_ne_none _
    · rename_i other
      rcases Nat.lt_succ_iff_lt_or_eq.mp hi with before | rfl
      · exact ih before
      · exact absurd here other

/-- After the first `n` values of a range are written. -/
def Stored (place : Nat → Option P) (f : Nat → B) (g n : Nat) (m m' : P → B) : Prop :=
  ∀ q, m' q = (lastOf place f g n q).getD (m q)

theorem Stored.next {m m' : P → B} {p : P} (stored : Stored place f g n m m')
    (here : place (g + n) = some p) : Stored place f g (n + 1) m (Function.update m' p (f n)) := by
  intro q
  rw [lastOf]
  by_cases hq : q = p
  · subst q
    rw [Function.update_self, if_pos here, Option.getD_some]
  · rw [Function.update_of_ne hq, if_neg, stored q]
    rw [here]
    exact fun heq => hq (Option.some.inj heq).symm

end Scattered

/-! ### Records -/

/-- Where the tables put a byte. -/
def placeOf (n : Nat) (t : Nodes) (x : Nat) : Option (Region × Nat) :=
  (pageAt n t x).map fun p => (regionOf p.memoryBank,
    cell (regionOf p.memoryBank) (p.physicalAddress + x % p.size))

/-- The cells of a memory. -/
def cells (image : Memory) : Region × Nat → UInt8 := fun q => image q.1 q.2

def pageRegion (e : PageInfo) : Region := if e.isLocalMemory then .localMemory else .systemMemory

/-- A record from `b` on whose bytes are those of the tables. -/
def Places (place : Nat → Option (Region × Nat)) (b : Nat) (e : PageInfo) : Prop :=
  ∀ k, k < e.size → place (b + k) = some (pageRegion e, cell (pageRegion e) (e.physicalAddress + k))

section Records
variable {place : Nat → Option (Region × Nat)} {f : Nat → UInt8} {g : Nat} {m image : Memory}

theorem stored_store {r : Region} {a n : Nat} (count : Nat)
    (places : ∀ k, k < count → place (g + (n + k)) = some (r, cell r (a + k)))
    (stored : Stored place f g n (cells m) (cells image)) :
    Stored place f g (n + count) (cells m)
      (cells (store image r a ((List.range count).map fun k => f (n + k)))) := by
  induction count generalizing image a n with
  | zero => exact stored
  | succ count ih =>
    have first := places 0 (Nat.succ_pos count)
    have next := stored.next (f := f) first
    have rest : (List.range (count + 1)).map (fun k => f (n + k)) =
        f n :: (List.range count).map fun k => f (n + 1 + k) := by
      rw [List.range_succ_eq_map, List.map_cons, List.map_map, Nat.add_zero]
      refine congrArg _ (List.map_congr_left fun k _ => ?_)
      exact congrArg f (by omega)
    have image' : Function.update (cells image) (r, cell r (a + 0)) (f n) = cells (fun r' a' =>
        if r' = r ∧ a' = cell r a then f n else image r' a') := by
      funext q
      rw [Function.update_apply, Nat.add_zero]
      simp only [Prod.ext_iff]
      rfl
    rw [image'] at next
    rw [rest, store]
    have later := ih (a := a + 1) (fun k short => ?_) next
    · rw [show n + (count + 1) = n + 1 + count by omega]
      exact later
    · have h := places (k + 1) (Nat.succ_lt_succ short)
      rw [show n + 1 + k = n + (k + 1) by omega, show a + 1 + k = a + (k + 1) by omega]
      exact h

/-- Data goes where the records of its range say, byte by byte. -/
theorem stored_writeDiscontiguousPages {entries : List PageInfo} {n stop : Nat}
    (chain : Chain (Places place) (g + n) entries stop)
    (stored : Stored place f g n (cells m) (cells image)) :
    Stored place f g (stop - g) (cells m) (cells (TbxStream.writeDiscontiguousPages image
      ((List.range (stop - (g + n))).map fun k => f (n + k)) entries)) := by
  induction entries generalizing image n with
  | nil =>
    obtain rfl : stop = g + n := chain
    rw [Nat.add_sub_cancel_left]
    exact stored
  | cons e rest ih =>
    obtain ⟨first, later⟩ := chain
    have covered := later.stop_eq
    have count : stop - (g + n) = e.size + (stop - (g + (n + e.size))) := by omega
    have split : (List.range (stop - (g + n))).map (fun k => f (n + k)) =
        (List.range e.size).map (fun k => f (n + k)) ++
          (List.range (stop - (g + (n + e.size)))).map fun k => f (n + e.size + k) := by
      rw [count, List.range_add, List.map_append, List.map_map]
      refine congrArg _ (List.map_congr_left fun k _ => ?_)
      exact congrArg f (by rw [Nat.add_assoc])
    have length : ((List.range e.size).map fun k => f (n + k)).length = e.size := by
      rw [List.length_map, List.length_range]
    rw [split, TbxStream.writeDiscontiguousPages, List.take_left' length, List.drop_left' length]
    rw [show g + n + e.size = g + (n + e.size) from Nat.add_assoc _ _ _] at later
    refine ih later (stored_store e.size (fun k short => ?_) stored)
    rw [← Nat.add_assoc]
    exact first k short

/-- Each byte of a range is in a record. -/
theorem chain_covers {entries : List PageInfo} {g stop x : Nat}
    (chain : Chain (Places place) g entries stop) (h1 : g ≤ x) (h2 : x < stop) :
    ∃ e ∈ entries, ∃ y, e.physicalAddress ≤ y ∧ y < e.physicalAddress + e.size ∧
      place x = some (pageRegion e, cell (pageRegion e) y) := by
  induction entries generalizing g with
  | nil =>
    obtain rfl : stop = g := chain
    omega
  | cons e rest ih =>
    obtain ⟨places, later⟩ := chain
    by_cases short : x < g + e.size
    · have here := places (x - g) (by omega)
      rw [show g + (x - g) = x by omega] at here
      exact ⟨e, List.mem_cons_self, e.physicalAddress + (x - g), by omega, by omega, here⟩
    · obtain ⟨e', he', found⟩ := ih later (by omega)
      exact ⟨e', List.mem_cons_of_mem _ he', found⟩

end Records

/-! ### Walks -/

section Walks
variable {A : Type} {c : WalkContext} {t : Nodes}

/-- A record says what the tables say of each of its bytes. -/
theorem RecordOf.places {b : Nat} {e : PageInfo} (wf : Wf c.ppgtt.getNumLevels t)
    (record : RecordOf c.ppgtt.getNumLevels (lastTable c t) t b e) :
    Places (placeOf c.ppgtt.getNumLevels t) b e := by
  intro k short
  have hk := pageKinds_lastTable wf
  obtain ⟨_, hfits, leaf, hleaf, haddress, hlocal⟩ := record
  have hpage := samePage (g := b) (a := b + k) (hk.region b).getPageSize_pos (by omega) (by omega)
  have hslot : slotFor c.ppgtt.getNumLevels (lastTable c t) (b + k) =
      slotFor c.ppgtt.getNumLevels (lastTable c t) b := by
    rw [slotFor, slotFor, kinds_of_page hk hpage]
    exact (leafSlot_congr (hk.region b) hpage).symm
  have hmod : (b + k) % (lastTable c t b).getPageSize = b % (lastTable c t b).getPageSize + k := by
    rw [Nat.add_mod, Nat.mod_eq_of_lt (a := k) (by omega), Nat.mod_eq_of_lt]
    omega
  have hregion : pageRegion e = regionOf leaf.memoryBank := by
    rw [pageRegion, hlocal]
    rfl
  have hoffset : leaf.physicalAddress + (b % (lastTable c t b).getPageSize + k) =
      e.physicalAddress + k := by omega
  rw [placeOf, pageAt_congr wf hslot, pageAt_of_slot wf, hleaf, Option.map_some, Option.map_some, hregion]
  simp only [pageOf]
  rw [hmod, hoffset]

variable [PhysicalAddressAllocator A] {page : PageRequest} {s : Layout A} {g stop size : Nat}

/-- The records of a write so far. -/
theorem chain_step (wf₀ : Wf c.ppgtt.getNumLevels t) (wf : Wf c.ppgtt.getNumLevels s.nodes)
    (hmode : c.mode ≠ .Expect) (hsize : 0 < size) (hps : page.size = size)
    (run : AddRun c t g stop page.gfxAddress size s)
    (chain : Chain (RecordOf c.ppgtt.getNumLevels (lastTable c t) s.nodes) g s.entries
      page.gfxAddress) :
    Chain (RecordOf c.ppgtt.getNumLevels (lastTable c t) (placePage c page s).1.nodes) g
      (placePage c page s).1.entries (page.gfxAddress + (placePage c page s).2) := by
  have hk := pageKinds_lastTable wf₀
  obtain ⟨-, hpassed⟩ := placePage_placed page wf hmode
  rcases placePage_visited page wf (fun h => absurd h hmode) with ⟨hexpect, _⟩ | ⟨visited, _⟩
  · exact absurd hexpect hmode
  · obtain ⟨leaf, hleaf, hentries⟩ := visited.leaf
    rw [run.kinds] at hentries hpassed
    have hpos := (hk.region page.gfxAddress).getPageSize_pos
    have hmod := Nat.mod_lt page.gfxAddress hpos
    have earlier : Chain (RecordOf c.ppgtt.getNumLevels (lastTable c t) (placePage c page s).1.nodes) g
        s.entries page.gfxAddress := by
      refine chain.mono ?_
      rintro b e ⟨hpos', hfits, x, hx, hfacts⟩
      exact ⟨hpos', hfits, x, visited.added run.unsupplied _ x hx, hfacts⟩
    rw [hentries, hpassed]
    refine earlier.append ⟨?_, ?_, leaf, ?_, rfl, rfl⟩
    · simp only [pageRecord, sizeThisIteration]
      omega
    · simp only [pageRecord, sizeThisIteration]
      omega
    · rw [slotFor, ← run.kinds]
      exact hleaf

/-- The records of a whole write. -/
theorem chain_walk {cfg : Config} {a : A} {params : AllocationParams} {w : WalkState A}
    (wf : Wf cfg.ppgtt.getNumLevels t)
    (h : walkMemory cfg.gpu cfg.enablePs64 cfg.ppgtt t a params .Reserve [] none = some w) :
    Chain (Places (placeOf cfg.ppgtt.getNumLevels w.nodes)) params.gfxAddress w.entries
      (params.gfxAddress + params.size) := by
  rcases walkMemory_some h with ⟨hzero, rfl⟩ | ⟨_, c, hc, hpages⟩
  · rw [hzero]
    exact rfl
  · obtain ⟨_, hppgtt, hm, _⟩ := walkContext_some hc
    rw [← hppgtt] at wf ⊢
    have hmode : c.mode ≠ .Expect := by
      rw [hm]
      simp
    obtain ⟨wf', stop, _, run, chain⟩ := walkPages_places
      (J := fun x size _ s => AddRun c (layout t) params.gfxAddress
          (params.gfxAddress + params.size) x size s ∧
        Chain (RecordOf c.ppgtt.getNumLevels (lastTable c (layout t)) s.nodes) params.gfxAddress
          s.entries x) hmode
      (fun size index s page wf' hpos _ hps run =>
        ⟨addRun_step (wf_layout.mpr wf) wf' hmode hpos hps run.1,
          chain_step (wf_layout.mpr wf) wf' hmode hpos hps run.1 run.2⟩)
      _ _ _ _ _ w (Nat.le_refl _) wf hpages
      ⟨addRun_start c t a params.gfxAddress params.size, rfl⟩
    have wf'' : Wf c.ppgtt.getNumLevels (layoutOf w).nodes := wf_layout.mpr wf'
    have hkinds : lastTable c (layoutOf w).nodes = lastTable c (layout t) := funext run.kinds
    have hend : stop = params.gfxAddress + params.size := run.bounds.2
    rw [← hkinds, hend] at chain
    have places := chain.mono fun b e record => RecordOf.places wf'' record
    have same : placeOf c.ppgtt.getNumLevels (layoutOf w).nodes =
        placeOf c.ppgtt.getNumLevels w.nodes := by
      funext x
      rw [placeOf, placeOf, layoutOf, pageAt_layout]
    rw [same] at places
    exact places

end Walks

end PageBytes
