import Mathlib.Algebra.Order.Ring.Nat
import Mathlib.Data.List.Induction

/-! Fixed-width big-endian numerals over bytes. -/

namespace BigEndian

/-- The `w` low-order base-256 digits of `n`, most significant first. -/
def encode : Nat → Nat → List UInt8
  | 0, _ => []
  | w + 1, n => encode w (n / 256) ++ [UInt8.ofNat n]

def decode (bs : List UInt8) : Nat := bs.foldl (fun n b => n * 256 + b.toNat) 0

@[simp] theorem length_encode (w n : Nat) : (encode w n).length = w := by
  induction w generalizing n with
  | zero => rfl
  | succ w ih => simp [encode, ih]

@[simp] theorem decode_nil : decode [] = 0 := rfl

theorem decode_append_singleton (bs : List UInt8) (b : UInt8) :
    decode (bs ++ [b]) = decode bs * 256 + b.toNat := by
  simp [decode]

/-- Decoding keeps the residue that fits the width. -/
theorem decode_encode (w n : Nat) : decode (encode w n) = n % 256 ^ w := by
  induction w generalizing n with
  | zero => simp [encode, Nat.mod_one]
  | succ w ih =>
    have hsplit : n % (256 * 256 ^ w) = n % 256 + 256 * (n / 256 % 256 ^ w) := Nat.mod_mul
    rw [encode, decode_append_singleton, ih, UInt8.toNat_ofNat', pow_succ' 256 w, hsplit]
    omega

theorem decode_encode_of_lt {w n : Nat} (h : n < 256 ^ w) : decode (encode w n) = n := by
  rw [decode_encode, Nat.mod_eq_of_lt h]

theorem decode_lt (bs : List UInt8) : decode bs < 256 ^ bs.length := by
  induction bs using List.reverseRecOn with
  | nil => simp
  | append_singleton bs b ih =>
    have hb := b.toNat_lt
    rw [decode_append_singleton, List.length_append, List.length_singleton, pow_succ]
    omega

theorem encode_decode (bs : List UInt8) : encode bs.length (decode bs) = bs := by
  induction bs using List.reverseRecOn with
  | nil => rfl
  | append_singleton bs b ih =>
    have hb := b.toNat_lt
    have hdiv : (decode bs * 256 + b.toNat) / 256 = decode bs := by omega
    have hlow : UInt8.ofNat (decode bs * 256 + b.toNat) = b := by
      apply UInt8.toNat_inj.mp
      rw [UInt8.toNat_ofNat']
      omega
    rw [List.length_append, List.length_singleton, encode, decode_append_singleton, hdiv, ih, hlow]

end BigEndian
