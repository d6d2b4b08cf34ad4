import Aubstream.PageNodes

/-!
# The shape of a page-table tree

A tree of `n` levels has directories above the last-level tables and 2MB pages
at depth `n - 1`, and memory leaves at depth `n`. A node other than the root
hangs below a node that can index it.
-/

namespace TreeShape
open EntryBits PathTree PageNodes

/-- The depth at which a node of this kind stands. -/
def fitsDepth (n depth : Nat) : NodeKind → Prop
  | .directory => depth + 2 ≤ n
  | .pte _ => depth + 1 = n
  | .page2MB => depth + 1 = n
  | .memory => depth = n

/-- The indices that `getIndex` of this kind can return. -/
def hasIndex (i : Nat) : NodeKind → Prop
  | .directory => i < 512
  | .pte .PTE4KB => i < 512
  | .pte .PTE64KB => i < 32
  | .pte .LegacyPTE64KB => i < 512 ∧ i % 16 = 0
  | .page2MB => False
  | .memory => False

structure Wf (n : Nat) (t : Nodes) : Prop where
  root : ∃ r, t [] = some r ∧ r.kind = .directory
  depth : ∀ p m, t p = some m → fitsDepth n p.length m.kind
  parent : ∀ i p m, t (i :: p) = some m → ∃ parent, t p = some parent ∧ hasIndex i parent.kind

theorem PteKind.getIndex_hasIndex (k : PteKind) (g : Nat) : hasIndex (k.getIndex g) (.pte k) := by
  cases k <;> simp only [hasIndex, PteKind.getIndex] <;> omega

theorem directoryIndex_hasIndex (level g : Nat) : hasIndex (directoryIndex level g) .directory := by
  simp only [hasIndex, directoryIndex]
  omega

theorem getPageSize_pos {k : PteKind} : 0 < k.getPageSize := by
  cases k <;> decide

theorem pte_getPageSize_ne_2MB {k : PteKind} : k.getPageSize ≠ pageSize2MB := by
  cases k <;> decide

namespace Wf

variable {n : Nat} {t : Nodes}

theorem directory_of_length (wf : Wf n t) {p : Path} {m : PageNode} (h : t p = some m)
    (hl : p.length + 2 ≤ n) : m.kind = .directory := by
  have hd := wf.depth p m h
  cases hk : m.kind with
  | directory => rfl
  | pte k => rw [hk] at hd; simp only [fitsDepth] at hd; omega
  | page2MB => rw [hk] at hd; simp only [fitsDepth] at hd; omega
  | memory => rw [hk] at hd; simp only [fitsDepth] at hd; omega

theorem table_of_length (wf : Wf n t) {p : Path} {m : PageNode} (h : t p = some m)
    (hl : p.length + 1 = n) : (∃ k, m.kind = .pte k) ∨ m.kind = .page2MB := by
  have hd := wf.depth p m h
  cases hk : m.kind with
  | directory => rw [hk] at hd; simp only [fitsDepth] at hd; omega
  | pte k => exact Or.inl ⟨k, rfl⟩
  | page2MB => exact Or.inr rfl
  | memory => rw [hk] at hd; simp only [fitsDepth] at hd; omega

theorem memory_of_length (wf : Wf n t) {p : Path} {m : PageNode} (h : t p = some m)
    (hl : p.length = n) : m.kind = .memory := by
  have hd := wf.depth p m h
  cases hk : m.kind with
  | directory => rw [hk] at hd; simp only [fitsDepth] at hd; omega
  | pte k => rw [hk] at hd; simp only [fitsDepth] at hd; omega
  | page2MB => rw [hk] at hd; simp only [fitsDepth] at hd; omega
  | memory => rfl

theorem length_le (wf : Wf n t) {p : Path} {m : PageNode} (h : t p = some m) : p.length ≤ n := by
  have hd := wf.depth p m h
  cases hk : m.kind <;> rw [hk] at hd <;> simp only [fitsDepth] at hd <;> omega

theorem none_of_parent_none (wf : Wf n t) {i : Nat} {p : Path} (h : t p = none) :
    t (i :: p) = none := by
  cases hc : t (i :: p) with
  | none => rfl
  | some m =>
    obtain ⟨parent, hp, _⟩ := wf.parent i p m hc
    rw [h] at hp
    cases hp

theorem none_of_childless (wf : Wf n t) {i : Nat} {p : Path} {m : PageNode} (h : t p = some m)
    (hk : ¬ hasIndex i m.kind) : t (i :: p) = none := by
  cases hc : t (i :: p) with
  | none => rfl
  | some c =>
    obtain ⟨parent, hp, hi⟩ := wf.parent i p c hc
    rw [h, Option.some.injEq] at hp
    exact absurd (hp ▸ hi) hk

/-- A node that fits its place may be put into an empty slot of an indexing parent. -/
theorem put_child (wf : Wf n t) {i : Nat} {p : Path} {parent m : PageNode}
    (hp : t p = some parent) (hi : hasIndex i parent.kind) (hm : fitsDepth n (p.length + 1) m.kind)
    (hempty : t (i :: p) = none) : Wf n (put t (i :: p) m) := by
  refine ⟨?_, ?_, ?_⟩
  · obtain ⟨r, hr, hk⟩ := wf.root
    exact ⟨r, by rw [put_of_ne (by simp)]; exact hr, hk⟩
  · intro q x hx
    by_cases hq : q = i :: p
    · subst q
      rw [put_self, Option.some.injEq] at hx
      subst x
      simpa using hm
    · rw [put_of_ne hq] at hx
      exact wf.depth q x hx
  · intro j q x hx
    by_cases hq : j :: q = i :: p
    · injection hq with hj hq
      subst j; subst q
      exact ⟨parent, by rw [put_of_ne (by simp)]; exact hp, hi⟩
    · rw [put_of_ne hq] at hx
      obtain ⟨y, hy, hiy⟩ := wf.parent j q x hx
      refine ⟨y, ?_, hiy⟩
      rw [put_of_ne ?_]
      · exact hy
      · intro heq
        rw [heq, hempty] at hy
        cases hy

/-- Replacing a node by one of the same kind keeps the shape. -/
theorem put_same_kind (wf : Wf n t) {q : Path} {m m' : PageNode} (h : t q = some m)
    (hk : m'.kind = m.kind) : Wf n (put t q m') := by
  have key : ∀ p x, put t q m' p = some x → ∃ y, t p = some y ∧ y.kind = x.kind := by
    intro p x hx
    by_cases hp : p = q
    · subst p
      rw [put_self, Option.some.injEq] at hx
      exact ⟨m, h, hx ▸ hk.symm⟩
    · rw [put_of_ne hp] at hx
      exact ⟨x, hx, rfl⟩
  have back : ∀ p y, t p = some y → ∃ x, put t q m' p = some x ∧ x.kind = y.kind := by
    intro p y hy
    by_cases hp : p = q
    · subst p
      rw [h, Option.some.injEq] at hy
      exact ⟨m', put_self _ _ _, hy ▸ hk⟩
    · exact ⟨y, by rw [put_of_ne hp]; exact hy, rfl⟩
  refine ⟨?_, ?_, ?_⟩
  · obtain ⟨r, hr, hrk⟩ := wf.root
    obtain ⟨x, hx, hxk⟩ := back [] r hr
    exact ⟨x, hx, hxk.trans hrk⟩
  · intro p x hx
    obtain ⟨y, hy, hyk⟩ := key p x hx
    exact hyk ▸ wf.depth p y hy
  · intro i p x hx
    obtain ⟨y, hy, _⟩ := key (i :: p) x hx
    obtain ⟨z, hz, hiz⟩ := wf.parent i p y hy
    obtain ⟨w, hw, hwk⟩ := back p z hz
    exact ⟨w, hw, hwk ▸ hiz⟩

/-- A node without children may be taken out. -/
theorem erase_childless (wf : Wf n t) {q : Path} (hq : q ≠ [])
    (hempty : ∀ i, t (i :: q) = none) : Wf n (erase t q) := by
  refine ⟨?_, ?_, ?_⟩
  · obtain ⟨r, hr, hk⟩ := wf.root
    exact ⟨r, by rw [erase_of_ne hq.symm]; exact hr, hk⟩
  · intro p x hx
    exact wf.depth p x (erase_some hx).2
  · intro i p x hx
    obtain ⟨_, hx⟩ := erase_some hx
    obtain ⟨y, hy, hiy⟩ := wf.parent i p x hx
    refine ⟨y, ?_, hiy⟩
    rw [erase_of_ne ?_]
    · exact hy
    · intro heq
      rw [heq, hempty i] at hx
      cases hx

end Wf

/-- The slot of an address at a directory level: the indices from `level` up. -/
def slotPath (n level g : Nat) : Path :=
  (List.range' level (n - level)).map fun l => directoryIndex l g

@[simp] theorem slotPath_root (n g : Nat) : slotPath n n g = [] := by
  simp [slotPath]

theorem slotPath_cons {n l : Nat} (g : Nat) (h : l < n) :
    slotPath n l g = directoryIndex l g :: slotPath n (l + 1) g := by
  unfold slotPath
  obtain ⟨k, hk⟩ : ∃ k, n - l = k + 1 := ⟨n - l - 1, by omega⟩
  have hk' : n - (l + 1) = k := by omega
  rw [hk, hk', List.range'_succ, List.map_cons]

@[simp] theorem slotPath_length (n level g : Nat) : (slotPath n level g).length = n - level := by
  simp [slotPath]

theorem directoryIndex_congr {level g g' : Nat} (hl : 1 ≤ level) (h : g / 2 ^ 21 = g' / 2 ^ 21) :
    directoryIndex level g = directoryIndex level g' := by
  have split : ∀ x : Nat, x / 2 ^ (12 + 9 * level) = x / 2 ^ 21 / 2 ^ (9 * (level - 1)) := by
    intro x
    rw [Nat.div_div_eq_div_mul, ← Nat.pow_add]
    congr 2
    omega
  simp only [directoryIndex, split, h]

/-- Addresses of one 2MB region share their slots above the last table. -/
theorem slotPath_congr {n level g g' : Nat} (hl : 1 ≤ level) (h : g / 2 ^ 21 = g' / 2 ^ 21) :
    slotPath n level g = slotPath n level g' := by
  unfold slotPath
  refine List.map_congr_left fun l hmem => directoryIndex_congr ?_ h
  rw [List.mem_range'_1] at hmem
  omega

end TreeShape
