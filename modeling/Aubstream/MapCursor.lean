import Aubstream.PageEffect
import Mathlib.Data.Nat.Find

/-!
# The physical cursor of a mapping walk

The cursor starts at the supplied address and follows the request, except that
the first 2MB page it meets aligns it up. Where each page of the request is
mapped is thereby a matter of the page sizes along the request.
-/

namespace MapCursor
open EntryBits PageNodes PageWalker WalkPhases Translation PageEffect

/-- Page kinds along an address range, the same throughout each 2MB region. -/
structure PageKinds (kinds : Nat → NodeKind) : Prop where
  region : ∀ a, IsRegion (kinds a)
  uniform : ∀ a b, a / 2 ^ 21 = b / 2 ^ 21 → kinds a = kinds b

/-- First address of the page of `a`. -/
def pageBase (kinds : Nat → NodeKind) (a : Nat) : Nat := a - a % (kinds a).getPageSize

/-- `a` is where a walk from `g` enters a page. -/
def PageStart (kinds : Nat → NodeKind) (g a : Nat) : Prop :=
  a = g ∨ (kinds a).getPageSize ∣ a

def alignUp2MB (x : Nat) : Nat := (x + (pageSize2MB - 1)) / pageSize2MB * pageSize2MB

/-- `f` is the first address from `g` on that lies in a 2MB page. -/
def FirstLarge (kinds : Nat → NodeKind) (g f : Nat) : Prop :=
  g ≤ f ∧ kinds f = .page2MB ∧ ∀ b, g ≤ b → b < f → kinds b ≠ .page2MB

/-- The physical address that the page entered at `a` is mapped to, for a request at `g` that
is mapped to `phys`. -/
def IsTarget (kinds : Nat → NodeKind) (phys g a p : Nat) : Prop :=
  ((∀ b, g ≤ b → b ≤ a → kinds b ≠ .page2MB) ∧ p = wrap64 (phys + (a - g))) ∨
  ∃ f, FirstLarge kinds g f ∧ f ≤ a ∧
    p = wrap64 (alignUp2MB (phys + (f - g)) + (pageBase kinds a - pageBase kinds f))

/-- The cursor when the walk has passed everything before `a`. -/
def IsCursor (kinds : Nat → NodeKind) (phys g a p : Nat) : Prop :=
  ((∀ b, g ≤ b → b < a → kinds b ≠ .page2MB) ∧ p = wrap64 (phys + (a - g))) ∨
  ∃ f, FirstLarge kinds g f ∧ f < a ∧
    p = wrap64 (alignUp2MB (phys + (f - g)) + (a - pageBase kinds f))

theorem wrap64_add (x y : Nat) : wrap64 (wrap64 x + y) = wrap64 (x + y) := by
  simp only [wrap64]
  omega

theorem wrap64_mod (x : Nat) : wrap64 x % pageSize2MB = x % pageSize2MB := by
  simp only [wrap64, pageSize2MB]
  omega

theorem alignUp2MB_of_aligned {x : Nat} (h : x % pageSize2MB = 0) : alignUp2MB x = x := by
  simp only [alignUp2MB, pageSize2MB] at h ⊢
  omega

theorem alignUp2MB_mod (x : Nat) : alignUp2MB x % pageSize2MB = 0 := by
  simp only [alignUp2MB]
  exact Nat.mul_mod_left _ _

/-- Aligning the cursor for a 2MB page. -/
theorem leafCursor_2MB (x : Nat) :
    leafCursor .page2MB (some (wrap64 x)) = some (wrap64 (alignUp2MB x)) := by
  have hmod := wrap64_mod x
  simp only [leafCursor, alignCursor, NodeKind.getPageSize, true_and, leafLevel]
  split
  · rename_i h
    rw [hmod] at h
    simp only [Option.some.injEq, roundUp2MB, alignUp2MB, wrap64, pageSize2MB] at h ⊢
    omega
  · rename_i h
    rw [hmod, not_not] at h
    rw [alignUp2MB_of_aligned h]

theorem leafCursor_pte (k : PteKind) (p : Nat) : leafCursor (.pte k) (some p) = some p := by
  simp only [leafCursor, alignCursor, NodeKind.getPageSize]
  rw [if_neg]
  rintro ⟨_, h, _⟩
  cases k <;> simp only [PteKind.getPageSize, pageSize4KB, pageSize64KB, pageSize2MB] at h <;> omega

theorem firstLarge_unique {kinds : Nat → NodeKind} {g f f' : Nat} (h : FirstLarge kinds g f)
    (h' : FirstLarge kinds g f') : f = f' := by
  by_contra hne
  rcases Nat.lt_or_gt_of_ne hne with hlt | hlt
  · exact h'.2.2 f h.1 hlt h.2.1
  · exact h.2.2 f' h'.1 hlt h'.2.1

/-- A page has one target. -/
theorem isTarget_unique {kinds : Nat → NodeKind} {phys g a p p' : Nat}
    (h : IsTarget kinds phys g a p) (h' : IsTarget kinds phys g a p') : p = p' := by
  rcases h with ⟨hnone, rfl⟩ | ⟨f, hf, hfa, rfl⟩
  · rcases h' with ⟨_, rfl⟩ | ⟨f, hf, hfa, rfl⟩
    · rfl
    · exact absurd hf.2.1 (hnone f hf.1 hfa)
  · rcases h' with ⟨hnone, rfl⟩ | ⟨f', hf', _, rfl⟩
    · exact absurd hf.2.1 (hnone f hf.1 hfa)
    · rw [firstLarge_unique hf hf']

theorem isTarget_exists (kinds : Nat → NodeKind) (phys : Nat) {g a : Nat} :
    ∃ p, IsTarget kinds phys g a p := by
  classical
  by_cases h : ∃ f, g ≤ f ∧ kinds f = .page2MB
  · by_cases hle : Nat.find h ≤ a
    · obtain ⟨h1, h2⟩ := Nat.find_spec h
      exact ⟨_, Or.inr ⟨Nat.find h, ⟨h1, h2, fun b hb hlt heq => Nat.find_min h hlt ⟨hb, heq⟩⟩, hle,
        rfl⟩⟩
    · exact ⟨_, Or.inl ⟨fun b hb hlt heq => hle ((Nat.find_min' h ⟨hb, heq⟩).trans hlt), rfl⟩⟩
  · exact ⟨_, Or.inl ⟨fun b hb _ heq => h ⟨b, hb, heq⟩, rfl⟩⟩

section
variable {kinds : Nat → NodeKind} (hk : PageKinds kinds) {phys g a p : Nat}
include hk

theorem kinds_of_page {b : Nat} (h : a / (kinds a).getPageSize = b / (kinds a).getPageSize) :
    kinds b = kinds a :=
  (hk.uniform a b (region_of_page (hk.region a).dvd h)).symm

/-- A page is passed to its end, which starts another page, or the request ends in it. -/
theorem pageStart_next (g a size : Nat) :
    size - min size ((kinds a).getPageSize - a % (kinds a).getPageSize) = 0 ∨
      PageStart kinds g (a + min size ((kinds a).getPageSize - a % (kinds a).getPageSize)) := by
  by_cases hpart : size ≤ (kinds a).getPageSize - a % (kinds a).getPageSize
  · left
    omega
  · right; right
    rw [Nat.min_eq_right (by omega)]
    refine pageEnd_aligned (hk.region a).getPageSize_pos (hk.region a).dvd (hk.region _).dvd ?_
    intro hregion
    exact congrArg NodeKind.getPageSize (hk.uniform _ _ hregion).symm

/-- The target of the page entered at the cursor's address. -/
theorem isTarget_of_cursor (hga : g ≤ a) (start : PageStart kinds g a)
    (h : IsCursor kinds phys g a p) :
    ∃ q, leafCursor (kinds a) (some p) = some q ∧ IsTarget kinds phys g a q := by
  have hbase : a ≠ g → pageBase kinds a = a := by
    intro hne
    rcases start with heq | hdvd
    · exact absurd heq hne
    · simp only [pageBase, Nat.mod_eq_zero_of_dvd hdvd, Nat.sub_zero]
  have hregion := hk.region a
  cases hka : kinds a with
  | pte k =>
    refine ⟨p, leafCursor_pte k p, ?_⟩
    rcases h with ⟨hnone, rfl⟩ | ⟨f, hf, hfa, rfl⟩
    · refine Or.inl ⟨fun b h1 h2 => ?_, rfl⟩
      by_cases hb : b = a
      · rw [hb, hka]
        simp
      · exact hnone b h1 (by omega)
    · refine Or.inr ⟨f, hf, by omega, ?_⟩
      rw [hbase (by have := hf.1; omega)]
  | page2MB =>
    rcases h with ⟨hnone, rfl⟩ | ⟨f, hf, hfa, rfl⟩
    · refine ⟨_, leafCursor_2MB _, Or.inr ⟨a, ⟨hga, hka, hnone⟩, Nat.le_refl _, ?_⟩⟩
      rw [Nat.sub_self, Nat.add_zero]
    · have hne : a ≠ g := by have := hf.1; omega
      refine ⟨_, leafCursor_2MB _, Or.inr ⟨f, hf, by omega, ?_⟩⟩
      have haligned : a % pageSize2MB = 0 := by
        rcases start with heq | hdvd
        · exact absurd heq hne
        · rw [hka] at hdvd
          exact Nat.mod_eq_zero_of_dvd hdvd
      have hfbase : pageBase kinds f % pageSize2MB = 0 := by
        simp only [pageBase, hf.2.1, NodeKind.getPageSize, pageSize2MB]
        omega
      have hle : pageBase kinds f ≤ a := by
        have : pageBase kinds f ≤ f := Nat.sub_le _ _
        omega
      have hup := alignUp2MB_mod (phys + (f - g))
      rw [alignUp2MB_of_aligned, hbase hne]
      simp only [pageSize2MB] at haligned hfbase hup ⊢
      omega
  | directory =>
    rw [hka] at hregion
    cases hregion
  | memory =>
    rw [hka] at hregion
    cases hregion

/-- The cursor behind a page that is passed to its end. -/
theorem isCursor_step {q : Nat} (hga : g ≤ a) (start : PageStart kinds g a)
    (h : IsCursor kinds phys g a p) (hq : leafCursor (kinds a) (some p) = some q) :
    ∃ p', advanceCursor (kinds a).getPageSize
        ((kinds a).getPageSize - a % (kinds a).getPageSize) (some q) = some p' ∧
      IsCursor kinds phys g (a + ((kinds a).getPageSize - a % (kinds a).getPageSize)) p' := by
  have hregion := hk.region a
  have hpos := hregion.getPageSize_pos
  have hmod := Nat.mod_lt a hpos
  have same : ∀ b, a ≤ b → b < a + ((kinds a).getPageSize - a % (kinds a).getPageSize) →
      kinds b = kinds a := fun b h1 h2 => kinds_of_page hk (samePage hpos h1 h2)
  have hadvance : ∀ x, wrap64 x % pageSize2MB = 0 →
      wrap64 (roundUp2MB (wrap64 x)) = wrap64 (x + pageSize2MB) := by
    intro x hx
    rw [roundUp2MB, hx, Nat.sub_zero, wrap64_add]
  cases hka : kinds a with
  | pte k =>
    rw [hka, leafCursor_pte, Option.some.injEq] at hq
    subst hq
    rw [hka] at same
    have hne : (NodeKind.pte k).getPageSize ≠ pageSize2MB := TreeShape.pte_getPageSize_ne_2MB
    refine ⟨_, by simp only [advanceCursor, if_neg hne]; rfl, ?_⟩
    rcases h with ⟨hnone, rfl⟩ | ⟨f, hf, hfa, rfl⟩
    · refine Or.inl ⟨fun b h1 h2 => ?_, ?_⟩
      · by_cases hb : b < a
        · exact hnone b h1 hb
        · rw [same b (by omega) h2]
          simp
      · rw [wrap64_add]
        exact congrArg wrap64 (by omega)
    · refine Or.inr ⟨f, hf, by omega, ?_⟩
      have hle : pageBase kinds f ≤ f := Nat.sub_le _ _
      rw [wrap64_add]
      exact congrArg wrap64 (by omega)
  | page2MB =>
    rw [hka] at hq hpos hmod
    have hsize : NodeKind.page2MB.getPageSize = pageSize2MB := rfl
    rw [hsize] at hpos hmod ⊢
    rcases h with ⟨hnone, rfl⟩ | ⟨f, hf, hfa, rfl⟩
    · rw [leafCursor_2MB, Option.some.injEq] at hq
      subst hq
      refine ⟨_, by simp only [advanceCursor, if_true]; rfl, Or.inr ⟨a, ⟨hga, hka, hnone⟩, by omega, ?_⟩⟩
      rw [hadvance _ (by rw [wrap64_mod, alignUp2MB_mod])]
      refine congrArg (fun d => wrap64 (alignUp2MB (phys + (a - g)) + d)) ?_
      simp only [pageBase, hka, hsize, pageSize2MB] at hmod ⊢
      omega
    · rw [leafCursor_2MB, Option.some.injEq] at hq
      subst hq
      have haligned : a % pageSize2MB = 0 := by
        rcases start with heq | hdvd
        · have := hf.1
          omega
        · rw [hka] at hdvd
          exact Nat.mod_eq_zero_of_dvd hdvd
      have hfbase : pageBase kinds f % pageSize2MB = 0 := by
        simp only [pageBase, hf.2.1, NodeKind.getPageSize, pageSize2MB]
        omega
      have hle : pageBase kinds f ≤ a := by
        have : pageBase kinds f ≤ f := Nat.sub_le _ _
        omega
      have hup := alignUp2MB_mod (phys + (f - g))
      refine ⟨_, by simp only [advanceCursor, if_true]; rfl, Or.inr ⟨f, hf, by omega, ?_⟩⟩
      rw [hadvance _ (by rw [wrap64_mod, alignUp2MB_mod]), alignUp2MB_of_aligned]
      · exact congrArg wrap64 (by omega)
      · simp only [pageSize2MB] at haligned hfbase hup ⊢
        omega
  | directory =>
    rw [hka] at hregion
    cases hregion
  | memory =>
    rw [hka] at hregion
    cases hregion

end

end MapCursor
