import Mathlib.Data.Set.Basic

/-!
# Holders of exclusive items

A ledger says which item each holder has. It is exclusive when the items in use
are exactly the held ones and no item has two holders; acquiring a fresh item
and releasing a held one keep it so.
-/

namespace Ledger

universe u v

variable {κ : Type u} {β : Type v}

structure Exclusive (holds : κ → Option β) (used : Set β) : Prop where
  held_used : ∀ {k b}, holds k = some b → b ∈ used
  injective : ∀ {k k' b}, holds k = some b → holds k' = some b → k = k'
  used_held : ∀ {b}, b ∈ used → ∃ k, holds k = some b

namespace Exclusive

variable {holds holds' : κ → Option β} {used used' : Set β}

theorem congr (h : Exclusive holds used) (same : ∀ k, holds' k = holds k)
    (same_used : ∀ b, b ∈ used' ↔ b ∈ used) : Exclusive holds' used' := by
  obtain rfl : holds' = holds := funext same
  obtain rfl : used' = used := Set.ext same_used
  exact h

/-- A holder without an item takes one that was not in use. -/
theorem acquire (h : Exclusive holds used) {k : κ} {b : β} (idle : holds k = none)
    (fresh : b ∉ used) (takes : holds' k = some b) (others : ∀ j, j ≠ k → holds' j = holds j)
    (inUse : ∀ x, x ∈ used' ↔ x = b ∨ x ∈ used) : Exclusive holds' used' := by
  have old : ∀ {j x}, j ≠ k → holds' j = some x → x ∈ used := by
    intro j x hj hx
    rw [others j hj] at hx
    exact h.held_used hx
  refine ⟨?_, ?_, ?_⟩
  · intro j x hx
    by_cases hj : j = k
    · subst j
      rw [takes, Option.some.injEq] at hx
      exact (inUse x).mpr (Or.inl hx.symm)
    · exact (inUse x).mpr (Or.inr (old hj hx))
  · intro i j x hi hj
    by_cases hik : i = k
    · by_cases hjk : j = k
      · rw [hik, hjk]
      · subst hik
        rw [takes, Option.some.injEq] at hi
        exact absurd (old hjk (hi ▸ hj)) fresh
    · by_cases hjk : j = k
      · subst hjk
        rw [takes, Option.some.injEq] at hj
        exact absurd (old hik (hj ▸ hi)) fresh
      · rw [others i hik] at hi
        rw [others j hjk] at hj
        exact h.injective hi hj
  · intro x hx
    rcases (inUse x).mp hx with rfl | hx
    · exact ⟨k, takes⟩
    · obtain ⟨j, hj⟩ := h.used_held hx
      have hjk : j ≠ k := by
        rintro rfl
        rw [idle] at hj
        cases hj
      exact ⟨j, by rw [others j hjk]; exact hj⟩

/-- A holder gives its item back. -/
theorem release (h : Exclusive holds used) {k : κ} {b : β} (has : holds k = some b)
    (gives : holds' k = none) (others : ∀ j, j ≠ k → holds' j = holds j)
    (inUse : ∀ x, x ∈ used' ↔ x ∈ used ∧ x ≠ b) : Exclusive holds' used' := by
  have held : ∀ {j x}, holds' j = some x → j ≠ k ∧ holds j = some x := by
    intro j x hx
    by_cases hj : j = k
    · subst j
      rw [gives] at hx
      cases hx
    · exact ⟨hj, by rw [← others j hj]; exact hx⟩
  refine ⟨?_, ?_, ?_⟩
  · intro j x hx
    obtain ⟨hj, hx⟩ := held hx
    refine (inUse x).mpr ⟨h.held_used hx, ?_⟩
    rintro rfl
    exact hj (h.injective hx has)
  · intro i j x hi hj
    exact h.injective (held hi).2 (held hj).2
  · intro x hx
    obtain ⟨hx, hne⟩ := (inUse x).mp hx
    obtain ⟨j, hj⟩ := h.used_held hx
    have hjk : j ≠ k := by
      rintro rfl
      rw [has, Option.some.injEq] at hj
      exact hne hj.symm
    exact ⟨j, by rw [others j hjk]; exact hj⟩

end Exclusive

end Ledger
