import Mathlib.Data.List.Basic

/-!
# Length-delimited frames

The length of a frame is read off the elements that it starts with.
-/

namespace Framing

universe u

variable {β : Type u}

/-- Cut a stream into frames; every frame takes one unit of fuel. -/
def cut (size : List β → Option Nat) : Nat → List β → Option (List (List β))
  | _, [] => some []
  | 0, _ :: _ => none
  | fuel + 1, b :: rest =>
    (size (b :: rest)).bind fun n =>
      if n = 0 ∨ (b :: rest).length < n then none
      else (cut size fuel ((b :: rest).drop n)).map ((b :: rest).take n :: ·)

def frames (size : List β → Option Nat) (stream : List β) : Option (List (List β)) :=
  cut size stream.length stream

/-- Whatever follows a frame, its own length is read off. -/
def Delimited (size : List β → Option Nat) (frame : List β) : Prop :=
  frame ≠ [] ∧ ∀ rest, size (frame ++ rest) = some frame.length

variable {size : List β → Option Nat}

theorem cut_fuel {fuel fuel' : Nat} {stream : List β} (h : stream.length ≤ fuel)
    (h' : stream.length ≤ fuel') : cut size fuel stream = cut size fuel' stream := by
  induction fuel generalizing fuel' stream with
  | zero =>
    obtain rfl := List.length_eq_zero_iff.mp (Nat.le_zero.mp h)
    simp [cut]
  | succ fuel ih =>
    cases stream with
    | nil => simp [cut]
    | cons b rest =>
      cases fuel' with
      | zero => exact absurd h' (by simp)
      | succ fuel' =>
        simp only [cut]
        refine Option.bind_congr fun n _ => ?_
        split
        · rfl
        · rename_i positive
          have shorter : ((b :: rest).drop n).length ≤ rest.length := by
            simp only [List.length_drop, List.length_cons]
            omega
          rw [ih (Nat.le_trans shorter (Nat.le_of_succ_le_succ h))
            (Nat.le_trans shorter (Nat.le_of_succ_le_succ h'))]

theorem cut_succ {fuel : Nat} {stream : List β} (ne : stream ≠ []) :
    cut size (fuel + 1) stream = (size stream).bind fun n =>
      if n = 0 ∨ stream.length < n then none
      else (cut size fuel (stream.drop n)).map (stream.take n :: ·) := by
  cases stream with
  | nil => exact absurd rfl ne
  | cons b rest => rfl

theorem frames_cons {frame : List β} (delimited : Delimited size frame) (rest : List β) :
    frames size (frame ++ rest) = (frames size rest).map (frame :: ·) := by
  obtain ⟨ne, hsize⟩ := delimited
  have positive := List.length_pos_iff.mpr ne
  have enough : ¬ (frame.length = 0 ∨ (frame ++ rest).length < frame.length) := by
    rw [List.length_append]
    omega
  have fuel : (frame ++ rest).length = (frame.length - 1 + rest.length) + 1 := by
    rw [List.length_append]
    omega
  rw [frames, fuel, cut_succ (List.append_ne_nil_of_left_ne_nil ne rest), hsize, Option.bind_some,
    if_neg enough, List.take_left, List.drop_left,
    cut_fuel (Nat.le_add_left _ _) (Nat.le_refl rest.length), frames]

theorem frames_append {fs : List (List β)} (delimited : ∀ f ∈ fs, Delimited size f)
    (rest : List β) : frames size (fs.flatten ++ rest) = (frames size rest).map (fs ++ ·) := by
  induction fs with
  | nil => simp
  | cons f fs ih =>
    have tail := ih fun f' mem => delimited f' (List.mem_cons_of_mem _ mem)
    rw [List.flatten_cons, List.append_assoc, frames_cons (delimited f List.mem_cons_self), tail,
      Option.map_map]
    rfl

theorem frames_flatten {fs : List (List β)} (delimited : ∀ f ∈ fs, Delimited size f) :
    frames size fs.flatten = some fs := by
  have h := frames_append delimited []
  rw [List.append_nil] at h
  rw [h]
  simp [frames, cut]

/-- The first frame, when all of it is there. -/
def takeFrame (size : List β → Option Nat) (stream : List β) : Option (List β × List β) :=
  (size stream).bind fun n =>
    if n = 0 ∨ stream.length < n then none else some (stream.take n, stream.drop n)

/-- A length that was read off once stays. -/
def Stable (size : List β → Option Nat) : Prop :=
  ∀ p q n, size p = some n → size (p ++ q) = some n

theorem takeFrame_frame {frame : List β} (delimited : Delimited size frame) (rest : List β) :
    takeFrame size (frame ++ rest) = some (frame, rest) := by
  obtain ⟨ne, hsize⟩ := delimited
  have positive := List.length_pos_iff.mpr ne
  have enough : ¬ (frame.length = 0 ∨ (frame ++ rest).length < frame.length) := by
    rw [List.length_append]
    omega
  rw [takeFrame, hsize, Option.bind_some, if_neg enough, List.take_left, List.drop_left]

/-- A part of a frame is not taken for one. -/
theorem takeFrame_part (stable : Stable size) {p q : List β} (delimited : Delimited size (p ++ q))
    (ne : q ≠ []) : takeFrame size p = none := by
  rw [takeFrame, Option.bind_eq_none_iff]
  intro n hn
  have whole := delimited.2 []
  rw [List.append_nil, stable p q n hn, Option.some.injEq, List.length_append] at whole
  have positive := List.length_pos_iff.mpr ne
  rw [if_pos (Or.inr (by omega))]

theorem takeFrame_nil : takeFrame size [] = none := by
  rw [takeFrame, Option.bind_eq_none_iff]
  intro n _
  have short : n = 0 ∨ ([] : List β).length < n := by
    rw [List.length_nil]
    omega
  rw [if_pos short]

end Framing
