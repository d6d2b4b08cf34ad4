import Aubstream.AubManager
import Aubstream.DataPackets

/-!
# The memory behind a stream

What the records of page table entries and of data make of a simulator's memory,
and the 64-bit words that are read from it.
-/

namespace StreamedMemory
open EntryBits PageNodes PageWalker AubPackets AubManager

/-- Before the first record. -/
def blank : Memory := fun _ _ => 0

def bytesOf (memory : Nat → UInt8) (size : Nat) : List UInt8 := (List.range size).map memory

/-- Of the records that walks and frees leave, entries and data are writes to memory. -/
def storeRecord (image : Memory) : Record → Memory
  | .entries addressSpace _ table => TbxStream.writeDiscontiguousEntries image table addressSpace
  | .data write => TbxStream.writeDiscontiguousPages image (bytesOf write.memory write.size)
      write.writeInfoTable
  | _ => image

def storeRecords (image : Memory) (records : List Record) : Memory :=
  records.foldl storeRecord image

def readBytes (image : Memory) (r : Region) (address : Nat) : List UInt8 :=
  (List.range 8).map fun i => image r (cell r (address + i))

/-- What the hardware reads at an address. -/
def word (image : Memory) (r : Region) (address : Nat) : Nat := readQword (readBytes image r address)

def storeEntries (r : Region) (image : Memory) (entries : List PageEntryInfo) : Memory :=
  entries.foldl (fun image e => store image r e.physicalAddress (qword e.tableEntry)) image

/-- The value of the last entry for an address. -/
def lastAt : List PageEntryInfo → Nat → Option Nat
  | [], _ => none
  | e :: rest, a => (lastAt rest a).or (if e.physicalAddress = a then some e.tableEntry else none)

/-! ### Bytes and words -/

section Words
variable {image image' : Memory} {r r' : Region} {a b v : Nat} {data : List UInt8}

theorem store_outside (local' : r ≠ .gtt) (fits : a + data.length ≤ 2 ^ 64)
    (outside : r' = r → b < a ∨ a + data.length ≤ b) : store image r a data r' b = image r' b := by
  induction data generalizing image a with
  | nil => rfl
  | cons x rest ih =>
    rw [List.length_cons] at fits outside
    have hcell : cell r a = a := by
      cases r with
      | gtt => exact absurd rfl local'
      | localMemory => exact Nat.mod_eq_of_lt (by omega)
      | systemMemory => exact Nat.mod_eq_of_lt (by omega)
    rw [store, ih (by omega) fun h => by have := outside h; omega, if_neg]
    rintro ⟨heq, hb⟩
    have := outside heq
    omega

theorem store_inside (local' : r ≠ .gtt) (fits : a + data.length ≤ 2 ^ 64) {i : Nat}
    (hi : i < data.length) : store image r a data r (a + i) = data[i] := by
  induction data generalizing image a i with
  | nil => exact absurd hi (Nat.not_lt_zero _)
  | cons x rest ih =>
    rw [List.length_cons] at fits hi
    have hcell : cell r a = a := by
      cases r with
      | gtt => exact absurd rfl local'
      | localMemory => exact Nat.mod_eq_of_lt (by omega)
      | systemMemory => exact Nat.mod_eq_of_lt (by omega)
    rw [store]
    cases i with
    | zero =>
      rw [store_outside local' (by omega) (fun _ => Or.inl (by omega)), if_pos ⟨rfl, by rw [hcell]; rfl⟩]
      rfl
    | succ i =>
      have hsum : a + (i + 1) = a + 1 + i := by omega
      rw [hsum, ih (by omega) (by omega), List.getElem_cons_succ]

theorem cell_of_lt (hr : r ≠ .gtt) (h : a < 2 ^ 64) : cell r a = a := by
  cases r with
  | gtt => exact absurd rfl hr
  | localMemory => exact Nat.mod_eq_of_lt h
  | systemMemory => exact Nat.mod_eq_of_lt h

theorem word_congr (hr : r ≠ .gtt) (fits : a + 8 ≤ 2 ^ 64)
    (same : ∀ x, a ≤ x → x < a + 8 → image' r x = image r x) : word image' r a = word image r a := by
  unfold word readBytes
  congr 1
  refine List.map_congr_left fun i hi => ?_
  have := List.mem_range.mp hi
  rw [cell_of_lt hr (by omega)]
  exact same _ (by omega) (by omega)

theorem word_store_self (hr : r ≠ .gtt) (fits : a + 8 ≤ 2 ^ 64) :
    word (store image r a (qword v)) r a = v % 2 ^ 64 := by
  have hlen : (qword v).length = 8 := length_qword v
  have hbytes : readBytes (store image r a (qword v)) r a = qword v := by
    refine List.ext_getElem (by simp [readBytes]) fun i h1 h2 => ?_
    have hi : i < 8 := by omega
    simp only [readBytes, List.getElem_map, List.getElem_range]
    rw [cell_of_lt hr (by omega)]
    exact store_inside hr (by omega) h2
  rw [word, hbytes]
  have h := readQword_qword v []
  rwa [List.append_nil] at h

theorem word_store_apart (hr : r ≠ .gtt) (hr' : r' ≠ .gtt) (fits : a + data.length ≤ 2 ^ 64)
    (fits' : b + 8 ≤ 2 ^ 64) (apart : r' = r → b + 8 ≤ a ∨ a + data.length ≤ b) :
    word (store image r a data) r' b = word image r' b := by
  refine word_congr hr' fits' fun x h1 h2 => store_outside hr fits fun heq => ?_
  have := apart heq
  omega

/-- A word is even if its first byte is. -/
theorem even_of_blank (h : ∀ x, a ≤ x → x < a + 8 → image r x = 0) (hr : r ≠ .gtt)
    (fits : a + 8 ≤ 2 ^ 64) : word image r a % 2 = 0 := by
  have hzero : word image r a = word blank r a := word_congr hr fits fun x h1 h2 => h x h1 h2
  rw [hzero]
  rfl

end Words

/-! ### Entries -/

section Entries
variable {image : Memory} {r : Region} {es es' : List PageEntryInfo} {e : PageEntryInfo} {a v : Nat}

/-- The words of entries are no other words, and lie in the address space. -/
def Slotted (es : List PageEntryInfo) (a : Nat) : Prop :=
  ∀ e ∈ es, e.physicalAddress + 8 ≤ 2 ^ 64 ∧ e.tableEntry < 2 ^ 64 ∧
    (e.physicalAddress = a ∨ e.physicalAddress + 8 ≤ a ∨ a + 8 ≤ e.physicalAddress)

theorem lastAt_append (es es' : List PageEntryInfo) (a : Nat) :
    lastAt (es ++ es') a = (lastAt es' a).or (lastAt es a) := by
  induction es with
  | nil => simp [lastAt]
  | cons e rest ih => rw [List.cons_append, lastAt, ih, lastAt, Option.or_assoc]

theorem lastAt_some (h : lastAt es a = some v) : ⟨a, v⟩ ∈ es := by
  induction es with
  | nil => cases h
  | cons e rest ih =>
    rw [lastAt] at h
    cases hrest : lastAt rest a with
    | some x =>
      rw [hrest, Option.some_or] at h
      exact List.mem_cons_of_mem _ (ih (hrest.trans h))
    | none =>
      rw [hrest, Option.none_or] at h
      split at h
      · rename_i heq
        rw [← heq, ← Option.some.inj h]
        exact List.mem_cons_self
      · cases h

/-- A word after entries are written. -/
theorem word_storeEntries (hr : r ≠ .gtt) (fits : a + 8 ≤ 2 ^ 64) (slotted : Slotted es a) :
    word (storeEntries r image es) r a = (lastAt es a).getD (word image r a) := by
  induction es generalizing image with
  | nil => rfl
  | cons e rest ih =>
    obtain ⟨⟨hfits, hvalue, hplace⟩, hrest⟩ := List.forall_mem_cons.mp slotted
    have hlen : (qword e.tableEntry).length = 8 := length_qword _
    have hstep : storeEntries r image (e :: rest) =
        storeEntries r (store image r e.physicalAddress (qword e.tableEntry)) rest := rfl
    rw [hstep, ih hrest, lastAt]
    cases lastAt rest a with
    | some x => rfl
    | none =>
      rw [Option.none_or, Option.getD_none]
      by_cases heq : e.physicalAddress = a
      · subst heq
        rw [if_pos rfl, word_store_self hr fits, Nat.mod_eq_of_lt hvalue]
        rfl
      · rw [if_neg heq, word_store_apart hr hr (by omega) fits (fun _ => by omega)]
        rfl

/-- Entries leave what is outside their words. -/
theorem storeEntries_outside {r' : Region} {x : Nat} (hr : r ≠ .gtt)
    (outside : ∀ e ∈ es, e.physicalAddress + 8 ≤ 2 ^ 64 ∧
      (r' = r → x < e.physicalAddress ∨ e.physicalAddress + 8 ≤ x)) :
    storeEntries r image es r' x = image r' x := by
  induction es generalizing image with
  | nil => rfl
  | cons e rest ih =>
    obtain ⟨⟨hfits, hplace⟩, hrest⟩ := List.forall_mem_cons.mp outside
    have hlen : (qword e.tableEntry).length = 8 := length_qword _
    have hstep : storeEntries r image (e :: rest) =
        storeEntries r (store image r e.physicalAddress (qword e.tableEntry)) rest := rfl
    rw [hstep, ih hrest]
    exact store_outside hr (by omega) fun heq => by have := hplace heq; omega

/-- A record of entries for a region. -/
def EntryRecord (r : Region) : Record → Prop
  | .entries addressSpace _ _ => region addressSpace.value = r
  | .data _ => False
  | _ => True

theorem storeRecords_entries {records : List Record} (hr : r ≠ .gtt)
    (all : ∀ record ∈ records, EntryRecord r record) :
    storeRecords image records = storeEntries r image (entriesOf records) := by
  induction records generalizing image with
  | nil => rfl
  | cons record rest ih =>
    obtain ⟨hrecord, hrest⟩ := List.forall_mem_cons.mp all
    have hstep : storeRecords image (record :: rest) = storeRecords (storeRecord image record) rest := rfl
    have hentries : entriesOf (record :: rest) = record.table ++ entriesOf rest := rfl
    have happend : ∀ xs ys, storeEntries r image (xs ++ ys) =
        storeEntries r (storeEntries r image xs) ys := fun _ _ => List.foldl_append
    rw [hstep, ih hrest, hentries, happend]
    congr 1
    cases record with
    | entries addressSpace hint table =>
      have hregion : region addressSpace.value = r := hrecord
      have hgtt : addressSpace ≠ .TraceGttEntry := by
        rintro rfl
        exact hr hregion.symm
      have hspace : r = if decide (addressSpace = .TraceLocal) = true then .localMemory
          else .systemMemory := by
        rw [← hregion]
        cases addressSpace <;> first | rfl | exact absurd rfl hgtt
      rw [storeRecord, TbxStream.writeDiscontiguousEntries, if_neg hgtt, hspace]
      rfl
    | data write => exact hrecord.elim
    | version stepping device => rfl
    | mmio offset value mask => rfl
    | reserveContiguousPages address => rfl
    | contextInitialization context bytes => rfl

/-- Data leaves what is outside its pages. -/
theorem writeDiscontiguousPages_outside {memory : List UInt8} {table : List PageInfo} {x : Nat}
    (fits : ∀ e ∈ table, ∀ y, e.physicalAddress ≤ y → y < e.physicalAddress + e.size → y < 2 ^ 64)
    (outside : ∀ e ∈ table, (if e.isLocalMemory then .localMemory else .systemMemory) = r →
      x < e.physicalAddress ∨ e.physicalAddress + e.size ≤ x) :
    TbxStream.writeDiscontiguousPages image memory table r x = image r x := by
  induction table generalizing image memory with
  | nil => rfl
  | cons e rest ih =>
    obtain ⟨hfits, hfitsRest⟩ := List.forall_mem_cons.mp fits
    obtain ⟨hplace, hrest⟩ := List.forall_mem_cons.mp outside
    have hlocal : (if e.isLocalMemory then Region.localMemory else .systemMemory) ≠ .gtt := by
      split
      · simp
      · simp
    rw [TbxStream.writeDiscontiguousPages, ih hfitsRest hrest, TbxStream.writeMemory]
    by_cases hsize : e.size = 0
    · rw [hsize, List.take_zero]
      rfl
    · have hlen := List.length_take_le e.size memory
      have hlast := hfits (e.physicalAddress + e.size - 1) (by omega) (by omega)
      exact store_outside hlocal (by omega) fun heq => by have := hplace heq.symm; omega

end Entries

end StreamedMemory
