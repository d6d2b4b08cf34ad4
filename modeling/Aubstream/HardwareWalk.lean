import Aubstream.Translation

/-!
# The page walk of the hardware

The hardware follows present entries from the root and knows a table only from
the entry that leads to it. It stays on the tables in memory as long as their
present entries are those of children.
-/

namespace HardwareWalk
open EntryBits PathTree PageNodes TreeShape Translation

def tableAddress (entry : Nat) : Nat := entry / 4096 * 4096

/-- The table that an entry of the page directory leads to. -/
def tableFormat (entry : Nat) : PteKind :=
  if entry.testBit intermediatePageSizeBit then .PTE64KB
  else if entry.testBit legacyIntermediatePageSizeBit then .LegacyPTE64KB
  else .PTE4KB

/-- The walk for `x` from the table at `table`, with the entry of the leaf. `none`: an entry is
not present. -/
def walk (read : Nat → Nat) (x : Nat) : Nat → Nat → Option Nat
  | 0, _ => none
  | level + 1, table =>
    let entry := read (table + directoryIndex (level + 1) x * 8)
    if entry % 2 = 0 then none
    else if level = 0 then
      if entry.testBit largePageSizeBit then some entry
      else
        let leaf := read (tableAddress entry + (tableFormat entry).getIndex x * 8)
        if leaf % 2 = 0 then none else some leaf
    else walk read x level (tableAddress entry)

/-- What a present entry for a node says. The addresses of leaves do not matter here. -/
structure EntryFor (gpu : Gpu) (child : PageNode) (entry : Nat) : Prop where
  table : ¬ IsLeaf child.kind → entry = child.getEntryValue gpu
  large : child.kind = .page2MB → entry.testBit largePageSizeBit = true

/-- The present entries of the tables are those of children. -/
def Faithful (gpu : Gpu) (t : Nodes) (read : Nat → Nat) : Prop :=
  ∀ p m i, t p = some m → hasIndex i m.kind → read (m.physicalAddress + i * 8) % 2 ≠ 0 →
    ∃ child, t (i :: p) = some child ∧ EntryFor gpu child (read (m.physicalAddress + i * 8))

/-- Tables lie in whole pages. -/
def TablesAligned (t : Nodes) : Prop :=
  ∀ p m, t p = some m → ¬ IsLeaf m.kind → 4096 ∣ m.physicalAddress ∧ m.physicalAddress < 2 ^ 64

/-! ### Entries of tables -/

section Values
variable {gpu : Gpu} {m : PageNode} {k : PteKind}

theorem aligned_or {x b : Nat} (h : 4096 ∣ x) (hb : b < 4096) : (x ||| b) = x + b := by
  obtain ⟨q, rfl⟩ := h
  exact (Nat.two_pow_add_eq_or_of_lt (i := 12) hb q).symm

theorem directory_value (aligned : 4096 ∣ m.physicalAddress) (lt : m.physicalAddress < 2 ^ 64)
    (hk : m.kind = .directory) : m.getEntryValue gpu = m.physicalAddress + 3 := by
  have hbits : (toBitValue writableBit ||| toBitValue presentBit) = 3 := by decide
  simp only [PageNode.getEntryValue, hk, hbits, aligned_or aligned (show 3 < 4096 by decide), wrap64]
  omega

def formatBits : PteKind → Nat
  | .PTE4KB => 3
  | .PTE64KB => 67
  | .LegacyPTE64KB => 2051

theorem pte_value (aligned : 4096 ∣ m.physicalAddress) (lt : m.physicalAddress < 2 ^ 64)
    (hk : m.kind = .pte k) : m.getEntryValue gpu = m.physicalAddress + formatBits k := by
  have hlt : formatBits k < 4096 := by cases k <;> decide
  have hbits : m.getEntryValue gpu = wrap64 (m.physicalAddress ||| formatBits k) := by
    unfold PageNode.getEntryValue
    rw [hk]
    cases k <;> rfl
  rw [hbits, aligned_or aligned hlt, wrap64, Nat.mod_eq_of_lt]
  omega

theorem tableAddress_add {x b : Nat} (h : 4096 ∣ x) (hb : b < 4096) : tableAddress (x + b) = x := by
  unfold tableAddress
  omega

theorem testBit_add {x b : Nat} (h : 4096 ∣ x) (hb : b < 4096) {i : Nat} (hi : i < 12) :
    (x + b).testBit i = b.testBit i := by
  obtain ⟨q, rfl⟩ := h
  rw [show 4096 = 2 ^ 12 from rfl, Nat.testBit_two_pow_mul_add q hb, if_pos hi]

theorem pte_format {x : Nat} (h : 4096 ∣ x) (k : PteKind) :
    (x + formatBits k).testBit largePageSizeBit = false ∧ tableFormat (x + formatBits k) = k ∧
      tableAddress (x + formatBits k) = x := by
  have hlt : formatBits k < 4096 := by cases k <;> decide
  refine ⟨?_, ?_, tableAddress_add h hlt⟩
  · rw [testBit_add h hlt (by decide)]
    cases k <;> decide
  · unfold tableFormat
    rw [testBit_add h hlt (by decide), testBit_add h hlt (by decide)]
    cases k <;> decide

end Values

/-- The walk below a directory that is in memory. -/
theorem mapped_of_walk {gpu : Gpu} {n : Nat} {t : Nodes} {read : Nat → Nat} (wf : Wf n t)
    (aligned : TablesAligned t) (faithful : Faithful gpu t read) (x : Nat) {level : Nat}
    (hl : level + 1 < n) {m : PageNode} (hm : t (slotPath n (level + 2) x) = some m) {entry : Nat}
    (h : walk read x (level + 1) m.physicalAddress = some entry) : IsMapped n t x := by
  induction level generalizing m with
  | zero =>
    have hk : m.kind = .directory := wf.directory_of_length hm (by rw [slotPath_length]; omega)
    simp only [walk, if_true] at h
    split at h
    · cases h
    · rename_i present
      obtain ⟨child, hchild, facts⟩ := faithful _ m _ hm
        (by rw [hk]; exact directoryIndex_hasIndex 1 x) present
      rw [← slotPath_cons x (by omega)] at hchild
      have hregion : regionAt n t x = some child := hchild
      unfold IsMapped
      rw [leafAt_of_region hregion]
      rcases wf.table_of_length hchild (by rw [slotPath_length]; omega) with ⟨k, hck⟩ | hck
      · have htable : ¬ IsLeaf child.kind := by
          rw [hck]
          exact fun hleaf => by cases hleaf
        obtain ⟨hdvd, hlt⟩ := aligned _ child hchild htable
        obtain ⟨hlarge, hformat, haddress⟩ := pte_format hdvd k
        rw [facts.table htable, pte_value hdvd hlt hck, hlarge, hformat, haddress] at h
        simp only [Bool.false_eq_true, if_false] at h
        split at h
        · cases h
        · rename_i leafPresent
          obtain ⟨leaf, hleaf, _⟩ := faithful _ child _ hchild
            (by rw [hck]; exact PteKind.getIndex_hasIndex k x) leafPresent
          rw [hck]
          have hslot : t (WalkPhases.leafSlot n (.pte k) x) = some leaf := hleaf
          rw [hslot]
          simp
      · rw [hck]
        have hslot : t (WalkPhases.leafSlot n .page2MB x) = some child := hchild
        rw [hslot]
        simp
  | succ level ih =>
    have hk : m.kind = .directory := wf.directory_of_length hm (by rw [slotPath_length]; omega)
    rw [walk] at h
    simp only [Nat.add_one_ne_zero, if_false] at h
    split at h
    · cases h
    · rename_i present
      obtain ⟨child, hchild, facts⟩ := faithful _ m _ hm
        (by rw [hk]; exact directoryIndex_hasIndex _ x) present
      rw [← slotPath_cons x (by omega)] at hchild
      have hck : child.kind = .directory :=
        wf.directory_of_length hchild (by rw [slotPath_length]; omega)
      have htable : ¬ IsLeaf child.kind := by
        rw [hck]
        exact fun hleaf => by cases hleaf
      obtain ⟨hdvd, hlt⟩ := aligned _ child hchild htable
      rw [facts.table htable, directory_value hdvd hlt hck, tableAddress_add hdvd (by decide)] at h
      exact ih (by omega) hchild h

end HardwareWalk
