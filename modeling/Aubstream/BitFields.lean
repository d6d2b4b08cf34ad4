import Mathlib.Data.Nat.Bitwise

/-!
# Bit fields

A structure of bit fields is one number, its first field in the lowest bits, and
lies in memory with its lowest byte first.
-/

namespace BitFields

/-- Widths and values, the lowest bits first. -/
abbrev Fields := List (Nat × Nat)

def pack : Fields → Nat
  | [] => 0
  | (width, value) :: rest => value % 2 ^ width + 2 ^ width * pack rest

def unpack : List Nat → Nat → List Nat
  | [], _ => []
  | width :: rest, n => n % 2 ^ width :: unpack rest (n / 2 ^ width)

def bytes : Nat → Nat → List UInt8
  | 0, _ => []
  | size + 1, n => .ofNat n :: bytes size (n / 2 ^ 8)

def number : List UInt8 → Nat
  | [] => 0
  | b :: rest => b.toNat + 2 ^ 8 * number rest

/-- `size` bytes. -/
def encode (size : Nat) (fields : Fields) : List UInt8 := bytes size (pack fields)

def decode (widths : List Nat) (data : List UInt8) : List Nat := unpack widths (number data)

@[simp] theorem length_bytes (size n : Nat) : (bytes size n).length = size := by
  induction size generalizing n with
  | zero => rfl
  | succ size ih => rw [bytes, List.length_cons, ih]

@[simp] theorem length_encode (size : Nat) (fields : Fields) :
    (encode size fields).length = size := length_bytes _ _

theorem number_append (xs ys : List UInt8) :
    number (xs ++ ys) = number xs + 2 ^ (8 * xs.length) * number ys := by
  induction xs with
  | nil => simp [number]
  | cons x xs ih =>
    have power : 2 ^ (8 * (x :: xs).length) = 2 ^ 8 * 2 ^ (8 * xs.length) := by
      rw [List.length_cons, Nat.mul_succ, Nat.pow_add, Nat.mul_comm]
    rw [List.cons_append, number, number, ih, power, Nat.mul_add, Nat.add_assoc, Nat.mul_assoc]

theorem number_bytes (size n : Nat) : number (bytes size n) = n % 2 ^ (8 * size) := by
  induction size generalizing n with
  | zero => simp [bytes, number, Nat.mod_one]
  | succ size ih =>
    have power : 2 ^ (8 * (size + 1)) = 2 ^ 8 * 2 ^ (8 * size) := by
      rw [Nat.mul_succ, Nat.pow_add, Nat.mul_comm]
    rw [bytes, number, ih, power, Nat.mod_mul, UInt8.toNat_ofNat']

theorem number_lt (data : List UInt8) : number data < 2 ^ (8 * data.length) := by
  induction data with
  | nil => exact Nat.one_pos
  | cons b rest ih =>
    have power : 2 ^ (8 * (b :: rest).length) = 2 ^ 8 * 2 ^ (8 * rest.length) := by
      rw [List.length_cons, Nat.mul_succ, Nat.pow_add, Nat.mul_comm]
    have byte := b.toNat_lt
    rw [number, power]
    omega

/-- Fields that are read lie in the lowest bits. -/
theorem unpack_add (widths : List Nat) (n m : Nat) :
    unpack widths (n + 2 ^ widths.sum * m) = unpack widths n := by
  induction widths generalizing n m with
  | nil => rfl
  | cons width rest ih =>
    have split : 2 ^ (width :: rest).sum * m = 2 ^ width * (2 ^ rest.sum * m) := by
      rw [List.sum_cons, Nat.pow_add, Nat.mul_assoc]
    have quotient : (n + 2 ^ width * (2 ^ rest.sum * m)) / 2 ^ width =
        n / 2 ^ width + 2 ^ rest.sum * m := Nat.add_mul_div_left _ _ (Nat.two_pow_pos width)
    rw [split, unpack, unpack, Nat.add_mul_mod_self_left, quotient, ih]

theorem unpack_mod (widths : List Nat) (n : Nat) :
    unpack widths (n % 2 ^ widths.sum) = unpack widths n := by
  conv_rhs => rw [← Nat.mod_add_div n (2 ^ widths.sum)]
  rw [unpack_add]

theorem unpack_pack (fields : Fields) :
    unpack (fields.map Prod.fst) (pack fields) = fields.map fun f => f.2 % 2 ^ f.1 := by
  induction fields with
  | nil => rfl
  | cons f rest ih =>
    obtain ⟨width, value⟩ := f
    have low : (value % 2 ^ width + 2 ^ width * pack rest) % 2 ^ width = value % 2 ^ width := by
      rw [Nat.add_mul_mod_self_left, Nat.mod_mod]
    have high : (value % 2 ^ width + 2 ^ width * pack rest) / 2 ^ width = pack rest := by
      rw [Nat.add_mul_div_left _ _ (Nat.two_pow_pos width),
        Nat.div_eq_of_lt (Nat.mod_lt _ (Nat.two_pow_pos width)), Nat.zero_add]
    rw [List.map_cons, List.map_cons, pack, unpack, low, high, ih]

/-- Fields are read back, whatever follows them. -/
theorem decode_encode {size : Nat} {fields : Fields}
    (fits : (fields.map Prod.fst).sum = 8 * size) (rest : List UInt8) :
    decode (fields.map Prod.fst) (encode size fields ++ rest) =
      fields.map fun f => f.2 % 2 ^ f.1 := by
  rw [decode, encode, number_append, number_bytes, length_bytes, ← fits, unpack_add, unpack_mod,
    unpack_pack]

end BitFields
