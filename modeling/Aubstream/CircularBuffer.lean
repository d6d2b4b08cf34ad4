import Mathlib.Data.Nat.Bitwise

/-!
# Circular buffers

A list in the cells of a circular buffer, from a head on and around the end.
-/

namespace CircularBuffer

universe u

variable {α : Type u} {cells cells' : Nat → α} {capacity head : Nat} {xs ys : List α}

/-- `xs` lies in the cells from `head` on. -/
def Segment (cells : Nat → α) (capacity head : Nat) (xs : List α) : Prop :=
  ∀ i x, xs[i]? = some x → cells ((head + i) % capacity) = x

/-- The next cells. -/
def fetch (cells : Nat → α) (capacity head count : Nat) : List α :=
  (List.range count).map fun i => cells ((head + i) % capacity)

theorem segment_nil : Segment cells capacity head [] := by
  intro i x h
  cases h

theorem Segment.left (segment : Segment cells capacity head (xs ++ ys)) :
    Segment cells capacity head xs := by
  intro i x h
  obtain ⟨short, -⟩ := List.getElem?_eq_some_iff.mp h
  exact segment i x ((List.getElem?_append_left short).trans h)

theorem Segment.right (segment : Segment cells capacity head (xs ++ ys)) :
    Segment cells capacity (head + xs.length) ys := by
  intro i x h
  rw [Nat.add_assoc]
  refine segment (xs.length + i) x ?_
  rw [List.getElem?_append_right (Nat.le_add_right _ _), Nat.add_sub_cancel_left]
  exact h

theorem Segment.append (first : Segment cells capacity head xs)
    (second : Segment cells capacity (head + xs.length) ys) :
    Segment cells capacity head (xs ++ ys) := by
  intro i x h
  by_cases short : i < xs.length
  · rw [List.getElem?_append_left short] at h
    exact first i x h
  · have long := Nat.le_of_not_lt short
    rw [List.getElem?_append_right long] at h
    have there := second (i - xs.length) x h
    rw [Nat.add_assoc, Nat.add_sub_cancel' long] at there
    exact there

theorem Segment.congr (segment : Segment cells capacity head xs)
    (same : ∀ i, i < xs.length → cells' ((head + i) % capacity) = cells ((head + i) % capacity)) :
    Segment cells' capacity head xs := by
  intro i x h
  obtain ⟨short, -⟩ := List.getElem?_eq_some_iff.mp h
  rw [same i short]
  exact segment i x h

/-- A head behind the end is one at the start. -/
theorem Segment.wrap (segment : Segment cells capacity head xs) :
    Segment cells capacity (head % capacity) xs := by
  intro i x h
  rw [Nat.mod_add_mod]
  exact segment i x h

/-- Fetching as many cells as a list has elements gives the list. -/
theorem Segment.fetch (segment : Segment cells capacity head (xs ++ ys)) :
    fetch cells capacity head xs.length = xs := by
  apply List.ext_getElem?
  intro i
  by_cases short : i < xs.length
  · have there := List.getElem?_eq_getElem short
    rw [CircularBuffer.fetch, List.getElem?_map, List.getElem?_range short, Option.map_some, there]
    exact congrArg some (segment.left i _ there)
  · rw [List.getElem?_eq_none (Nat.le_of_not_lt short), List.getElem?_eq_none]
    rw [CircularBuffer.fetch, List.length_map, List.length_range]
    exact Nat.le_of_not_lt short

/-- The first cell. -/
theorem Segment.first {x : α} (segment : Segment cells capacity head (x :: xs))
    (inside : head < capacity) : cells head = x := by
  have there := segment 0 x rfl
  rw [Nat.add_zero, Nat.mod_eq_of_lt inside] at there
  exact there

end CircularBuffer
