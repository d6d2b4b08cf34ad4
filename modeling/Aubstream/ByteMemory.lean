import Mathlib.Data.Nat.Bitwise

/-!
# Bytes in a 32-bit address space

Buffers and memories are functions from offsets to bytes. Addresses wrap, so a
block is an interval on the circle of addresses.
-/

namespace ByteMemory

abbrev Bytes := Nat → Nat

/-- Little-endian. -/
def setDword (p : Bytes) (offset value : Nat) : Bytes :=
  fun k => if offset ≤ k ∧ k < offset + 4 then value / 256 ^ (k - offset) % 256 else p k

def getDword (p : Bytes) (offset : Nat) : Nat :=
  p offset + 256 * p (offset + 1) + 256 ^ 2 * p (offset + 2) + 256 ^ 3 * p (offset + 3)

/-- Consecutive dwords from `offset` up. -/
def setDwords (p : Bytes) (offset : Nat) : List Nat → Bytes
  | [] => p
  | v :: rest => setDwords (setDword p offset v) (offset + 4) rest

theorem setDword_outside {p : Bytes} {offset value k : Nat} (h : k < offset ∨ offset + 4 ≤ k) :
    setDword p offset value k = p k := if_neg (by omega)

theorem setDwords_outside {vs : List Nat} {p : Bytes} {offset k : Nat}
    (h : k < offset ∨ offset + 4 * vs.length ≤ k) : setDwords p offset vs k = p k := by
  induction vs generalizing p offset with
  | nil => rfl
  | cons v rest ih =>
    simp only [List.length_cons] at h
    rw [setDwords, ih (by omega), setDword_outside (by omega)]

theorem getDword_congr {p q : Bytes} {offset : Nat}
    (h : ∀ k, offset ≤ k → k < offset + 4 → p k = q k) : getDword p offset = getDword q offset := by
  simp only [getDword, h offset (by omega) (by omega), h (offset + 1) (by omega) (by omega),
    h (offset + 2) (by omega) (by omega), h (offset + 3) (by omega) (by omega)]

theorem getDword_setDword (p : Bytes) (offset : Nat) {value : Nat} (h : value < 2 ^ 32) :
    getDword (setDword p offset value) offset = value := by
  have h0 : offset - offset = 0 := by omega
  have h1 : offset + 1 - offset = 1 := by omega
  have h2 : offset + 2 - offset = 2 := by omega
  have h3 : offset + 3 - offset = 3 := by omega
  unfold getDword setDword
  rw [if_pos (by omega), if_pos (by omega), if_pos (by omega), if_pos (by omega), h0, h1, h2, h3]
  omega

theorem getDword_setDword_ne {p : Bytes} {offset offset' value : Nat}
    (h : offset + 4 ≤ offset' ∨ offset' + 4 ≤ offset) :
    getDword (setDword p offset value) offset' = getDword p offset' :=
  getDword_congr fun _ h1 h2 => setDword_outside (by omega)

theorem getDword_setDwords_outside {vs : List Nat} {p : Bytes} {offset offset' : Nat}
    (h : offset + 4 * vs.length ≤ offset' ∨ offset' + 4 ≤ offset) :
    getDword (setDwords p offset vs) offset' = getDword p offset' :=
  getDword_congr fun _ h1 h2 => setDwords_outside (by omega)

/-- How far `x` lies behind `a` on the circle. -/
def distance (a x : Nat) : Nat := (x + (2 ^ 32 - a % 2 ^ 32)) % 2 ^ 32

def writeBytes (m : Bytes) (address size : Nat) (data : Bytes) : Bytes :=
  fun x => if distance address x < size then data (distance address x) else m x

/-- The block of `n` bytes at `a` holds the first bytes of `p`. -/
def Holds (m : Bytes) (a n : Nat) (p : Bytes) : Prop := ∀ i, i < n → m ((a + i) % 2 ^ 32) = p i

/-- A block of `n'` bytes at `b` begins behind the `n` bytes at `a` and ends before them. -/
def Apart (a n b n' : Nat) : Prop := n ≤ distance a b ∧ distance a b + n' ≤ 2 ^ 32

theorem Apart.symm {a n b n' : Nat} (h : Apart a n b n') (hn : 0 < n) : Apart b n' a n := by
  unfold Apart distance at h ⊢
  omega

theorem writeBytes_block {m : Bytes} {a o k i : Nat} {data : Bytes} (ho : o + k ≤ 2 ^ 32)
    (hi : i < 2 ^ 32) : writeBytes m (a + o) k data ((a + i) % 2 ^ 32) =
      if o ≤ i ∧ i < o + k then data (i - o) else m ((a + i) % 2 ^ 32) := by
  unfold writeBytes
  by_cases h : o ≤ i
  · have hd : distance (a + o) ((a + i) % 2 ^ 32) = i - o := by
      unfold distance
      omega
    rw [hd]
    by_cases hk : i < o + k
    · rw [if_pos (by omega), if_pos ⟨h, hk⟩]
    · rw [if_neg (by omega), if_neg (by omega)]
  · have hd : distance (a + o) ((a + i) % 2 ^ 32) = 2 ^ 32 + i - o := by
      unfold distance
      omega
    rw [hd, if_neg (by omega), if_neg (by omega)]

theorem writeBytes_apart {m : Bytes} {a n b n' o k i : Nat} {data : Bytes} (h : Apart a n b n')
    (hk : o + k ≤ n) (hi : i < n') :
    writeBytes m (a + o) k data ((b + i) % 2 ^ 32) = m ((b + i) % 2 ^ 32) := by
  unfold writeBytes
  unfold Apart distance at h
  refine if_neg ?_
  unfold distance
  omega

/-- Writing a whole buffer. -/
theorem holds_writeBytes (m : Bytes) (a : Nat) {n : Nat} (p : Bytes) (hn : n ≤ 2 ^ 32) :
    Holds (writeBytes m a n p) a n p := by
  intro i hi
  have h : writeBytes m (a + 0) n p ((a + i) % 2 ^ 32) = _ :=
    writeBytes_block (by omega) (by omega)
  rw [Nat.add_zero] at h
  rw [h, if_pos (by omega), Nat.sub_zero]

/-- Writing the part of a buffer that has changed. -/
theorem Holds.patch {m : Bytes} {a n o k : Nat} {p p' : Bytes} (h : Holds m a n p) (hn : n ≤ 2 ^ 32)
    (hk : o + k ≤ n) (same : ∀ i, i < o ∨ o + k ≤ i → p' i = p i) :
    Holds (writeBytes m (a + o) k fun i => p' (o + i)) a n p' := by
  intro i hi
  rw [writeBytes_block (by omega) (by omega)]
  by_cases hin : o ≤ i ∧ i < o + k
  · rw [if_pos hin, Nat.add_sub_cancel' hin.1]
  · rw [if_neg hin, h i hi, same i (by omega)]

/-- Writing within a block leaves the blocks apart from it alone. -/
theorem Holds.frame {m : Bytes} {a n b n' o k : Nat} {data p : Bytes} (h : Holds m b n' p)
    (apart : Apart a n b n') (hk : o + k ≤ n) : Holds (writeBytes m (a + o) k data) b n' p := by
  intro i hi
  rw [writeBytes_apart apart hk hi, h i hi]

end ByteMemory
