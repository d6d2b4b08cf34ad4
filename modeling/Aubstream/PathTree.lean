import Mathlib.Logic.Basic

/-!
# Trees addressed by index paths

A node is named by the list of child indices that leads to it, the deepest
index first, so `i :: p` is child `i` of the node at `p`. Two nodes are the same
exactly when their paths are, which replaces pointer identity.
-/

namespace PathTree

universe u

abbrev Path := List Nat

/-- The nodes of a tree; `none` is a null child pointer. -/
abbrev IndexTree (α : Type u) := Path → Option α

variable {α : Type u}

def put (t : IndexTree α) (q : Path) (n : α) : IndexTree α := fun p => if p = q then some n else t p

def erase (t : IndexTree α) (q : Path) : IndexTree α := fun p => if p = q then none else t p

def modify (t : IndexTree α) (q : Path) (f : α → α) : IndexTree α :=
  fun p => if p = q then (t p).map f else t p

@[simp] theorem put_self (t : IndexTree α) (q : Path) (n : α) : put t q n q = some n := by
  simp [put]

theorem put_of_ne {t : IndexTree α} {q p : Path} {n : α} (h : p ≠ q) : put t q n p = t p := by
  simp [put, h]

theorem put_eq_self {t : IndexTree α} {q : Path} {n : α} (h : t q = some n) : put t q n = t := by
  funext p
  by_cases hp : p = q
  · subst p
    rw [put_self, h]
  · rw [put_of_ne hp]

@[simp] theorem put_put (t : IndexTree α) (q : Path) (m n : α) : put (put t q m) q n = put t q n := by
  funext p
  by_cases hp : p = q
  · subst p
    rw [put_self, put_self]
  · rw [put_of_ne hp, put_of_ne hp, put_of_ne hp]

@[simp] theorem erase_self (t : IndexTree α) (q : Path) : erase t q q = none := by
  simp [erase]

theorem erase_of_ne {t : IndexTree α} {q p : Path} (h : p ≠ q) : erase t q p = t p := by
  simp [erase, h]

@[simp] theorem modify_self (t : IndexTree α) (q : Path) (f : α → α) :
    modify t q f q = (t q).map f := by
  simp [modify]

theorem modify_of_ne {t : IndexTree α} {q p : Path} {f : α → α} (h : p ≠ q) :
    modify t q f p = t p := by
  simp [modify, h]

theorem modify_none {t : IndexTree α} {q : Path} {f : α → α} (h : t q = none) : modify t q f = t := by
  funext p
  by_cases hp : p = q
  · subst p
    rw [modify_self, h, Option.map_none]
  · rw [modify_of_ne hp]

/-- Apply `f` to every node of `qs`. -/
def modifyAll (t : IndexTree α) (qs : List Path) (f : α → α) : IndexTree α :=
  fun p => if p ∈ qs then (t p).map f else t p

theorem modifyAll_of_mem {t : IndexTree α} {qs : List Path} {f : α → α} {p : Path} (h : p ∈ qs) :
    modifyAll t qs f p = (t p).map f := by
  simp [modifyAll, h]

theorem modifyAll_of_not_mem {t : IndexTree α} {qs : List Path} {f : α → α} {p : Path} (h : p ∉ qs) :
    modifyAll t qs f p = t p := by
  simp [modifyAll, h]

theorem foldl_modify {qs : List Path} (nodup : qs.Nodup) (t : IndexTree α) (f : α → α) :
    qs.foldl (fun t q => modify t q f) t = modifyAll t qs f := by
  induction qs generalizing t with
  | nil =>
    funext p
    simp [modifyAll]
  | cons q rest ih =>
    obtain ⟨hq, hrest⟩ := List.nodup_cons.mp nodup
    rw [List.foldl_cons, ih hrest]
    funext p
    by_cases hp : p = q
    · subst p
      rw [modifyAll_of_not_mem hq, modify_self, modifyAll_of_mem List.mem_cons_self]
    · by_cases hr : p ∈ rest
      · rw [modifyAll_of_mem hr, modifyAll_of_mem (List.mem_cons_of_mem q hr), modify_of_ne hp]
      · rw [modifyAll_of_not_mem hr, modify_of_ne hp,
          modifyAll_of_not_mem (fun h => (List.mem_cons.mp h).elim hp hr)]

theorem modify_some {t : IndexTree α} {q : Path} {f : α → α} {n : α} (h : t q = some n) :
    modify t q f = put t q (f n) := by
  funext p
  by_cases hp : p = q
  · subst hp
    simp [h]
  · rw [modify_of_ne hp, put_of_ne hp]

theorem erase_some {t : IndexTree α} {q p : Path} {n : α} (h : erase t q p = some n) :
    p ≠ q ∧ t p = some n := by
  by_cases hp : p = q
  · subst hp
    simp at h
  · exact ⟨hp, by rwa [erase_of_ne hp] at h⟩

end PathTree
