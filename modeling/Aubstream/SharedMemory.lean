import Aubstream.DataPackets

/-!
# Pages in shared memory

`TbxShmStream` copies each page to and from the host memory that a translation
table gives its physical pages. One copy takes one run of consecutive host pages;
what is longer is refused without a word.
-/

namespace SharedMemory
open PageWalker DataPackets

abbrev HostMemory := Nat → UInt8

/-- Host pointers of physical pages, for local and for system memory. -/
abbrev TranslationTable := Bool → Nat → Nat

/-- The memory continuity check; every page takes one unit of fuel. -/
def continuousSize (table : Nat → Nat) : Nat → Nat → Nat → Nat → Nat
  | 0, _, _, _ => 0
  | fuel + 1, entryNumber, expected, size =>
    if size = 0 ∨ table entryNumber ≠ expected then 0
    else min 0x1000 size +
      continuousSize table fuel (entryNumber + 1) (expected + 0x1000) (size - min 0x1000 size)

/-- The host pointer of an address and the size that is available there. -/
def translatePhysicalAddressToSystemMemory (tables : TranslationTable) (physAddress size : Nat)
    (isLocalMemory : Bool) : Nat × Nat :=
  let entryNumber := physAddress / 0x1000
  let pageOffset := physAddress % 0x1000
  let traslationTable := tables isLocalMemory
  if traslationTable entryNumber ≠ 0 then
    let availableSize := 0x1000 - pageOffset
    let rest := size - min availableSize size
    (traslationTable entryNumber + pageOffset, availableSize + continuousSize traslationTable rest
      (entryNumber + 1) (traslationTable entryNumber + 0x1000) rest)
  else (0, 0)

/-- `memcpy_s` copies between a host pointer and a buffer. -/
def memcpySucceeds (p destSize count : Nat) : Bool := p != 0 && decide (count ≤ destSize)

def copy (m : HostMemory) (dst : Nat) (data : List UInt8) : HostMemory :=
  fun a => if dst ≤ a ∧ a < dst + data.length then data.getD (a - dst) 0 else m a

def hostBytes (m : HostMemory) (src count : Nat) : List UInt8 :=
  (List.range count).map fun i => m (src + i)

section
variable (tables : TranslationTable)

def writePage (m : HostMemory) (e : PageInfo) (data : List UInt8) : HostMemory :=
  let r := translatePhysicalAddressToSystemMemory tables e.physicalAddress e.size e.isLocalMemory
  if memcpySucceeds r.1 r.2 e.size then copy m r.1 data else m

def writeDiscontiguousPages : HostMemory → List UInt8 → List PageInfo → HostMemory
  | m, _, [] => m
  | m, memory, e :: rest =>
    writeDiscontiguousPages (writePage tables m e (memory.take e.size)) (memory.drop e.size) rest

def readPage (m : HostMemory) (e : PageInfo) (memory : List UInt8) : List UInt8 :=
  let r := translatePhysicalAddressToSystemMemory tables e.physicalAddress e.size e.isLocalMemory
  if memcpySucceeds r.1 r.2 e.size then hostBytes m r.1 e.size else memory

/-- `memory` is the buffer before the read. -/
def readDiscontiguousPages (m : HostMemory) : List UInt8 → List PageInfo → List UInt8
  | memory, [] => memory
  | memory, e :: rest =>
    readPage tables m e (memory.take e.size) ++ readDiscontiguousPages m (memory.drop e.size) rest

/-- The host byte of a byte in physical memory. -/
def hostAddress (isLocalMemory : Bool) (physAddress : Nat) : Nat :=
  tables isLocalMemory (physAddress / 0x1000) + physAddress % 0x1000

/-- Distinct physical pages have disjoint host pages. -/
def DisjointPages : Prop := ∀ l n l' n', tables l n ≠ 0 → tables l' n' ≠ 0 → (l, n) ≠ (l', n') →
  tables l n + 0x1000 ≤ tables l' n' ∨ tables l' n' + 0x1000 ≤ tables l n

def Mapped (e : PageInfo) : Prop :=
  ∀ i, i < e.size → tables e.isLocalMemory ((e.physicalAddress + i) / 0x1000) ≠ 0

def DisjointEntries (e e' : PageInfo) : Prop := e.isLocalMemory ≠ e'.isLocalMemory ∨
  e.physicalAddress + e.size ≤ e'.physicalAddress ∨ e'.physicalAddress + e'.size ≤ e.physicalAddress

/-- The pages of a table and what they are mapped to. -/
structure WellMapped (entries : List PageInfo) : Prop where
  pages : DisjointPages tables
  mapped : ∀ e ∈ entries, Mapped tables e
  entries : entries.Pairwise DisjointEntries

/-- The host bytes that a list translates to. -/
def Translated (entries : List PageInfo) (a : Nat) : Prop :=
  ∃ e ∈ entries, ∃ i, i < e.size ∧ a = hostAddress tables e.isLocalMemory (e.physicalAddress + i)

/-- What was written is read, whatever was there before, and nothing else is written. -/
def RoundTrips (entries : List PageInfo) : Prop :=
  ∀ (m : HostMemory) (memory before : List UInt8), memory.length = total entries →
    before.length = total entries →
    readDiscontiguousPages tables (writeDiscontiguousPages tables m memory entries) before entries =
      memory ∧
    ∀ a, ¬ Translated tables entries a → writeDiscontiguousPages tables m memory entries a = m a

/-- The host pages of an entry are consecutive. -/
def Consecutive (e : PageInfo) : Prop :=
  ∀ i, i < e.size → hostAddress tables e.isLocalMemory (e.physicalAddress + i) =
    hostAddress tables e.isLocalMemory e.physicalAddress + i

end

theorem continuousSize_le {table : Nat → Nat} (fuel entryNumber expected size : Nat) :
    continuousSize table fuel entryNumber expected size ≤ size := by
  induction fuel generalizing entryNumber expected size with
  | zero => exact Nat.zero_le _
  | succ fuel ih =>
    unfold continuousSize
    split
    · exact Nat.zero_le _
    · have hrest := ih (entryNumber + 1) (expected + 0x1000) (size - min 0x1000 size)
      omega

/-- The check goes through if all the pages follow each other. -/
theorem continuousSize_eq_iff {table : Nat → Nat} {fuel entryNumber expected size : Nat}
    (enough : size ≤ fuel) :
    continuousSize table fuel entryNumber expected size = size ↔
      ∀ k, 0x1000 * k < size → table (entryNumber + k) = expected + 0x1000 * k := by
  induction fuel generalizing entryNumber expected size with
  | zero =>
    obtain rfl := Nat.le_zero.mp enough
    exact ⟨fun _ k hk => absurd hk (Nat.not_lt_zero _), fun _ => rfl⟩
  | succ fuel ih =>
    unfold continuousSize
    by_cases hz : size = 0
    · subst hz
      rw [if_pos (Or.inl rfl)]
      exact ⟨fun _ k hk => absurd hk (Nat.not_lt_zero _), fun _ => rfl⟩
    · by_cases hfirst : table entryNumber = expected
      · have hle := @continuousSize_le table fuel (entryNumber + 1) (expected + 0x1000)
          (size - min 0x1000 size)
        rw [if_neg (by simp [hz, hfirst])]
        have hsplit : (min 0x1000 size + continuousSize table fuel (entryNumber + 1)
              (expected + 0x1000) (size - min 0x1000 size) = size) ↔
            continuousSize table fuel (entryNumber + 1) (expected + 0x1000)
              (size - min 0x1000 size) = size - min 0x1000 size := by omega
        rw [hsplit, ih (by omega)]
        clear hsplit hle
        constructor
        · intro later k hk
          cases k with
          | zero => simpa using hfirst
          | succ k =>
            have hnext := later k (by omega)
            rw [show entryNumber + (k + 1) = entryNumber + 1 + k by omega, hnext]
            omega
        · intro all k hk
          have hnext := all (k + 1) (by omega)
          rw [show entryNumber + 1 + k = entryNumber + (k + 1) by omega, hnext]
          omega
      · rw [if_pos (Or.inr hfirst)]
        constructor
        · exact fun h => absurd h.symm hz
        · exact fun all => absurd (by simpa using all 0 (by omega)) hfirst

section
variable {tables : TranslationTable}

/-- A page is copied if and only if its host pages are consecutive. -/
theorem memcpySucceeds_iff {e : PageInfo} (mapped : Mapped tables e) (pos : 0 < e.size) :
    let r := translatePhysicalAddressToSystemMemory tables e.physicalAddress e.size e.isLocalMemory
    r.1 = hostAddress tables e.isLocalMemory e.physicalAddress ∧
      (memcpySucceeds r.1 r.2 e.size = true ↔ Consecutive tables e) := by
  have hfirst : tables e.isLocalMemory (e.physicalAddress / 0x1000) ≠ 0 := by
    simpa using mapped 0 pos
  simp only [translatePhysicalAddressToSystemMemory, if_pos hfirst]
  refine ⟨rfl, ?_⟩
  simp only [memcpySucceeds, Bool.and_eq_true, bne_iff_ne, ne_eq, decide_eq_true_eq]
  unfold Consecutive hostAddress
  generalize tables e.isLocalMemory = table at hfirst ⊢
  generalize e.physicalAddress = phys at hfirst ⊢
  generalize e.size = size at pos ⊢
  have hle := @continuousSize_le table (size - min (0x1000 - phys % 0x1000) size)
    (phys / 0x1000 + 1) (table (phys / 0x1000) + 0x1000)
    (size - min (0x1000 - phys % 0x1000) size)
  have hcontinuous := @continuousSize_eq_iff table _ (phys / 0x1000 + 1)
    (table (phys / 0x1000) + 0x1000) _ (Nat.le_refl (size - min (0x1000 - phys % 0x1000) size))
  have havailable : (size ≤ 0x1000 - phys % 0x1000 + continuousSize table
        (size - min (0x1000 - phys % 0x1000) size) (phys / 0x1000 + 1)
        (table (phys / 0x1000) + 0x1000) (size - min (0x1000 - phys % 0x1000) size)) ↔
      continuousSize table (size - min (0x1000 - phys % 0x1000) size) (phys / 0x1000 + 1)
        (table (phys / 0x1000) + 0x1000) (size - min (0x1000 - phys % 0x1000) size) =
          size - min (0x1000 - phys % 0x1000) size := by omega
  rw [havailable, hcontinuous]
  constructor
  · rintro ⟨_, pages⟩ i hi
    by_cases hpage : phys % 0x1000 + i < 0x1000
    · rw [show (phys + i) / 0x1000 = phys / 0x1000 by omega]
      omega
    · obtain ⟨k, hk⟩ : ∃ k, (phys + i) / 0x1000 = phys / 0x1000 + 1 + k :=
        ⟨(phys + i) / 0x1000 - phys / 0x1000 - 1, by omega⟩
      have hnext := pages k (by omega)
      rw [hk, hnext]
      omega
  · intro all
    refine ⟨by omega, fun k hk => ?_⟩
    have hbyte := all (0x1000 - phys % 0x1000 + 0x1000 * k) (by omega)
    rw [show (phys + (0x1000 - phys % 0x1000 + 0x1000 * k)) / 0x1000 = phys / 0x1000 + 1 + k by
      omega] at hbyte
    omega

/-- A host byte belongs to one physical byte. -/
theorem hostAddress_inj (disjoint : DisjointPages tables) {l l' : Bool} {x y : Nat}
    (hx : tables l (x / 0x1000) ≠ 0) (hy : tables l' (y / 0x1000) ≠ 0)
    (same : hostAddress tables l x = hostAddress tables l' y) : l = l' ∧ x = y := by
  unfold hostAddress at same
  by_cases hpage : (l, x / 0x1000) = (l', y / 0x1000)
  · obtain ⟨rfl, hdiv⟩ := Prod.mk.inj hpage
    rw [hdiv] at same
    exact ⟨rfl, by omega⟩
  · have hmod := Nat.mod_lt x (show 0 < 0x1000 by decide)
    have hmod' := Nat.mod_lt y (show 0 < 0x1000 by decide)
    rcases disjoint l _ l' _ hx hy hpage with h | h <;> omega

/-- Where a page lies when its copy is not refused. -/
theorem translate_page {e : PageInfo} (mapped : Mapped tables e)
    (succeeds : memcpySucceeds
      (translatePhysicalAddressToSystemMemory tables e.physicalAddress e.size e.isLocalMemory).1
      (translatePhysicalAddressToSystemMemory tables e.physicalAddress e.size e.isLocalMemory).2
      e.size = true) {i : Nat} (hi : i < e.size) :
    hostAddress tables e.isLocalMemory (e.physicalAddress + i) =
      (translatePhysicalAddressToSystemMemory tables e.physicalAddress e.size e.isLocalMemory).1 +
        i := by
  obtain ⟨hp, hiff⟩ := memcpySucceeds_iff mapped (Nat.zero_lt_of_lt hi)
  rw [hp]
  exact hiff.mp succeeds i hi

/-- One page changes no byte but its own. -/
theorem writePage_frame {e : PageInfo} (mapped : Mapped tables e) {data : List UInt8}
    (length : data.length = e.size) (m : HostMemory) {a : Nat}
    (other : ∀ i, i < e.size → a ≠ hostAddress tables e.isLocalMemory (e.physicalAddress + i)) :
    writePage tables m e data a = m a := by
  simp only [writePage]
  split
  · rename_i succeeds
    rw [copy, if_neg]
    rintro ⟨hlow, hhigh⟩
    rw [length] at hhigh
    have hi : a - (translatePhysicalAddressToSystemMemory tables e.physicalAddress e.size
      e.isLocalMemory).1 < e.size := by omega
    refine other _ hi ?_
    rw [translate_page mapped succeeds hi]
    omega
  · rfl

theorem writePage_page {e : PageInfo} (mapped : Mapped tables e)
    (consecutive : Consecutive tables e) {data : List UInt8} (length : data.length = e.size)
    (m : HostMemory) {i : Nat} (hi : i < e.size) :
    writePage tables m e data (hostAddress tables e.isLocalMemory (e.physicalAddress + i)) =
      data.getD i 0 := by
  obtain ⟨_, hiff⟩ := memcpySucceeds_iff mapped (Nat.zero_lt_of_lt hi)
  have succeeds := hiff.mpr consecutive
  simp only [writePage, if_pos succeeds]
  rw [translate_page mapped succeeds hi, copy, if_pos ⟨by omega, by omega⟩, Nat.add_sub_cancel_left]

/-- The pages of a list change no byte but theirs. -/
theorem writeDiscontiguousPages_frame {entries : List PageInfo}
    (mapped : ∀ e ∈ entries, Mapped tables e) {memory : List UInt8}
    (length : memory.length = total entries) (m : HostMemory) {a : Nat}
    (other : ¬ Translated tables entries a) :
    writeDiscontiguousPages tables m memory entries a = m a := by
  induction entries generalizing m memory with
  | nil => rfl
  | cons e rest ih =>
    rw [total_cons] at length
    rw [writeDiscontiguousPages, ih (fun x hx => mapped x (List.mem_cons_of_mem _ hx))
      (by rw [List.length_drop]; omega)
      _ fun ⟨x, hx, i, hi, ha⟩ => other ⟨x, List.mem_cons_of_mem _ hx, i, hi, ha⟩]
    exact writePage_frame (mapped e List.mem_cons_self) (by rw [List.length_take]; omega) m
      fun i hi ha => other ⟨e, List.mem_cons_self, i, hi, ha⟩

/-- A page is read as it was written. -/
theorem readPage_eq {e : PageInfo} (mapped : Mapped tables e) (consecutive : Consecutive tables e)
    {m : HostMemory} {data before : List UInt8} (length : data.length = e.size)
    (length' : before.length = e.size)
    (holds : ∀ i, i < e.size →
      m (hostAddress tables e.isLocalMemory (e.physicalAddress + i)) = data.getD i 0) :
    readPage tables m e before = data := by
  rcases Nat.eq_zero_or_pos e.size with hz | pos
  · rw [hz] at length length'
    simp only [readPage, hostBytes, hz, List.range_zero, List.map_nil,
      List.length_eq_zero_iff.mp length, List.length_eq_zero_iff.mp length', ite_self]
  · obtain ⟨_, hiff⟩ := memcpySucceeds_iff mapped pos
    have succeeds := hiff.mpr consecutive
    simp only [readPage, if_pos succeeds, hostBytes]
    refine List.ext_getElem (by rw [List.length_map, List.length_range, length]) fun i h1 h2 => ?_
    have hi : i < e.size := length ▸ h2
    rw [List.getElem_map, List.getElem_range, ← translate_page mapped succeeds hi, holds i hi,
      List.getD_eq_getElem _ _ h2]

theorem roundTrips_of_consecutive {entries : List PageInfo} (well : WellMapped tables entries)
    (consecutive : ∀ e ∈ entries, Consecutive tables e) : RoundTrips tables entries := by
  intro m memory before length length'
  refine ⟨?_, fun a other => writeDiscontiguousPages_frame well.mapped length m other⟩
  obtain ⟨pages, mapped, disjoint⟩ := well
  induction entries generalizing m memory before with
  | nil =>
    rw [readDiscontiguousPages, List.length_eq_zero_iff.mp length,
      List.length_eq_zero_iff.mp length']
  | cons e rest ih =>
    obtain ⟨hfirst, hrest⟩ := List.pairwise_cons.mp disjoint
    rw [total_cons] at length length'
    have hmapped := mapped e List.mem_cons_self
    have hmapped' : ∀ x ∈ rest, Mapped tables x := fun x hx => mapped x (List.mem_cons_of_mem _ hx)
    have hconsecutive := consecutive e List.mem_cons_self
    have hdata : (memory.take e.size).length = e.size := by
      rw [List.length_take]
      omega
    have hlater : (memory.drop e.size).length = total rest := by
      rw [List.length_drop]
      omega
    have hread : readPage tables (writeDiscontiguousPages tables
        (writePage tables m e (memory.take e.size)) (memory.drop e.size) rest) e
          (before.take e.size) = memory.take e.size := by
      refine readPage_eq hmapped hconsecutive hdata (by rw [List.length_take]; omega)
        fun i hi => ?_
      rw [writeDiscontiguousPages_frame hmapped' hlater]
      · exact writePage_page hmapped hconsecutive hdata m hi
      · rintro ⟨x, hx, j, hj, hsame⟩
        obtain ⟨hlocal, haddress⟩ := hostAddress_inj pages (hmapped i hi) (hmapped' x hx j hj) hsame
        rcases hfirst x hx with hne | hlow | hhigh
        · exact hne hlocal
        · omega
        · omega
    rw [writeDiscontiguousPages, readDiscontiguousPages, hread,
      ih (fun x hx => consecutive x (List.mem_cons_of_mem _ hx)) _ _ _ hlater
        (by rw [List.length_drop]; omega) hmapped' hrest,
      List.take_append_drop]

/-- A buffer of ones is overwritten only where the host pages are consecutive. -/
theorem consecutive_of_read {entries : List PageInfo} (mapped : ∀ e ∈ entries, Mapped tables e)
    {m : HostMemory}
    (h : readDiscontiguousPages tables m (List.replicate (total entries) 1) entries =
      List.replicate (total entries) 0) : ∀ e ∈ entries, Consecutive tables e := by
  induction entries with
  | nil => exact fun e he => absurd he List.not_mem_nil
  | cons e rest ih =>
    rw [total_cons, readDiscontiguousPages, List.take_replicate, List.drop_replicate,
      Nat.min_eq_left (Nat.le_add_right _ _), Nat.add_sub_cancel_left, List.replicate_add] at h
    have hlength : (readPage tables m e (List.replicate e.size 1)).length =
        (List.replicate e.size (0 : UInt8)).length := by
      simp only [readPage, hostBytes]
      split
      · rw [List.length_map, List.length_range, List.length_replicate]
      · rw [List.length_replicate, List.length_replicate]
    obtain ⟨hpage, hrest⟩ := List.append_inj h hlength
    have hmapped := mapped e List.mem_cons_self
    intro x hx
    rcases List.mem_cons.mp hx with rfl | hx
    · rcases Nat.eq_zero_or_pos x.size with hz | pos
      · exact fun i hi => absurd hi (by omega)
      · refine (memcpySucceeds_iff hmapped pos).2.mp ?_
        by_contra refused
        simp only [readPage, if_neg refused] at hpage
        have hbyte := congrArg (fun l => l.getD 0 0) hpage
        simp [pos] at hbyte
    · exact ih (fun y hy => mapped y (List.mem_cons_of_mem _ hy)) hrest x hx

end

/-- Every buffer goes through shared memory unchanged if and only if no entry has host pages that
do not follow each other. -/
theorem shmStream_roundTrips_iff (tables : TranslationTable) (entries : List PageInfo)
    (well : WellMapped tables entries) :
    RoundTrips tables entries ↔ ∀ e ∈ entries, Consecutive tables e := by
  constructor
  · intro roundTrips
    exact consecutive_of_read well.mapped (roundTrips (fun _ => 0) (List.replicate (total entries) 0)
      (List.replicate (total entries) 1) List.length_replicate List.length_replicate).1
  · exact roundTrips_of_consecutive well

/-- An entry over two consecutive host pages and one in a page after a gap. -/
theorem shmStream_roundTrips_pages :
    RoundTrips (fun l n => if l = false ∧ n ≠ 2 then 0x1000 * (n + 1) else 0)
      [⟨0x0ff0, 0x20, false, 0⟩, ⟨0x3000, 0x10, false, 0⟩] := by
  have hdisjoint : DisjointPages
      (fun l n => if l = false ∧ n ≠ 2 then 0x1000 * (n + 1) else 0) := by
    intro l n l' n' hn hn' hne
    simp only [ne_eq, ite_eq_right_iff, Classical.not_imp] at hn hn'
    obtain ⟨h1, _⟩ := hn
    obtain ⟨h2, _⟩ := hn'
    simp only [if_pos h1, if_pos h2]
    have hpages : n ≠ n' := fun h => hne (by rw [h, h1.1, h2.1])
    omega
  refine (shmStream_roundTrips_iff _ _ ⟨hdisjoint, ?_, by simp [DisjointEntries]⟩).mpr ?_
  · intro e he i hi
    simp only [List.mem_cons, List.not_mem_nil, or_false] at he
    rcases he with rfl | rfl
    · change i < 0x20 at hi
      have hpage : (0x0ff0 + i) / 0x1000 ≠ 2 := by omega
      simp [hpage]
    · have hpage : (0x3000 + i) / 0x1000 ≠ 2 := by omega
      simp [hpage]
  · intro e he i hi
    simp only [List.mem_cons, List.not_mem_nil, or_false] at he
    rcases he with rfl | rfl
    · change i < 0x20 at hi
      have hpage : (0x0ff0 + i) / 0x1000 ≠ 2 := by omega
      simp only [hostAddress, ne_eq, hpage, not_false_eq_true, and_true, if_true]
      simp
      omega
    · have hpage : (0x3000 + i) / 0x1000 = 3 := by
        change i < 0x10 at hi
        omega
      simp [hostAddress, hpage]
      omega

/-- Two neighbouring pages of system memory lie apart in the host: an entry over both is neither
written nor read. -/
theorem not_shmStream_roundTrips :
    ¬ ∀ (tables : TranslationTable) (entries : List PageInfo), WellMapped tables entries →
      RoundTrips tables entries := by
  intro h
  have hdisjoint : DisjointPages (fun l n => if l = false then 0x20000 * (n + 1) else 0) := by
    intro l n l' n' hn hn' hne
    simp only [ne_eq, ite_eq_right_iff, Classical.not_imp] at hn hn'
    simp only [if_pos hn.1, if_pos hn'.1]
    have hpages : n ≠ n' := fun h => hne (by rw [h, hn.1, hn'.1])
    omega
  have roundTrips := h (fun l n => if l = false then 0x20000 * (n + 1) else 0)
    [⟨0x0ff0, 0x20, false, 0⟩] ⟨hdisjoint, by simp [Mapped], by simp⟩
  have hread := (roundTrips (fun _ => 0) (List.replicate 0x20 0) (List.replicate 0x20 1)
    rfl rfl).1
  have hmapped : ∀ e ∈ [(⟨0x0ff0, 0x20, false, 0⟩ : PageInfo)],
      Mapped (fun l n => if l = false then 0x20000 * (n + 1) else 0) e := by
    simp [Mapped]
  have consecutive := consecutive_of_read hmapped hread ⟨0x0ff0, 0x20, false, 0⟩
    List.mem_cons_self 0x10 (by decide)
  simp [hostAddress] at consecutive

end SharedMemory
