import Mathlib.Algebra.Group.Nat.Defs
import Mathlib.Data.List.Induction
import Mathlib.Data.Nat.Basic
import Mathlib.Tactic.Common

/-!
# Numbers as big-endian byte strings

The number a byte string spells with its most significant byte first,
`BigEndian.value`, and the byte string of a given width that spells a number,
`BigEndian.bytes`. A number that fits the width is spelt back
(`BigEndian.value_bytes`), and a byte string is the spelling of its own number
(`BigEndian.bytes_value`).
-/

namespace BigEndian

/-- The number a byte string spells, most significant byte first. -/
def value (l : List UInt8) : ℕ := l.foldl (fun n b => n * 256 + b.toNat) 0

/-- The `k` bytes that spell the number `n`, most significant byte first. -/
def bytes : ℕ → ℕ → List UInt8
  | 0, _ => []
  | k + 1, n => bytes k (n / 256) ++ [UInt8.ofNat n]

@[simp] theorem value_nil : value [] = 0 := rfl

@[simp] theorem value_concat (l : List UInt8) (b : UInt8) :
    value (l ++ [b]) = value l * 256 + b.toNat := by
  simp [value]

@[simp] theorem length_bytes (k n : ℕ) : (bytes k n).length = k := by
  induction k generalizing n with
  | zero => rfl
  | succ k ih => simp [bytes, ih]

theorem value_lt (l : List UInt8) : value l < 256 ^ l.length := by
  induction l using List.reverseRecOn with
  | nil => simp
  | append_singleton l b ih =>
    have hb := b.toNat_lt
    rw [value_concat, List.length_append, List.length_singleton, Nat.pow_succ]
    omega

/-- **A number that fits the width is read back.** -/
theorem value_bytes {k n : ℕ} (h : n < 256 ^ k) : value (bytes k n) = n := by
  induction k generalizing n with
  | zero =>
    obtain rfl : n = 0 := by simpa using h
    rfl
  | succ k ih =>
    have hdiv : n / 256 < 256 ^ k := by
      rw [Nat.pow_succ] at h
      exact Nat.div_lt_of_lt_mul (by omega)
    have hmod : (UInt8.ofNat n).toNat = n % 256 := by simp
    rw [bytes, value_concat, ih hdiv, hmod]
    omega

/-- A byte string is the spelling of its number. -/
theorem bytes_value (l : List UInt8) : bytes l.length (value l) = l := by
  induction l using List.reverseRecOn with
  | nil => rfl
  | append_singleton l b ih =>
    have hb := b.toNat_lt
    have hdiv : (value l * 256 + b.toNat) / 256 = value l := by omega
    have hbyte : UInt8.ofNat (value l * 256 + b.toNat) = b := by
      apply UInt8.toNat_inj.mp
      simp only [UInt8.toNat_ofNat']
      omega
    rw [List.length_append, List.length_singleton, value_concat, bytes, hdiv, ih, hbyte]

/-- The bytes of a number split into those of its high and of its low part. -/
theorem bytes_add (j k n : ℕ) : bytes (j + k) n = bytes j (n / 256 ^ k) ++ bytes k n := by
  induction k generalizing n with
  | zero => simp [bytes]
  | succ k ih =>
    have hdiv : n / 256 / 256 ^ k = n / 256 ^ (k + 1) := by
      rw [Nat.div_div_eq_div_mul, Nat.pow_succ, Nat.mul_comm]
    rw [← Nat.add_assoc, bytes, ih, hdiv, bytes, List.append_assoc]

/-- The low bytes of a number are those of its remainder. -/
theorem bytes_mod (k n : ℕ) : bytes k (n % 256 ^ k) = bytes k n := by
  induction k generalizing n with
  | zero => rfl
  | succ k ih =>
    have hdiv : n % 256 ^ (k + 1) / 256 = n / 256 % 256 ^ k := by
      rw [Nat.pow_succ, Nat.mul_comm, Nat.mod_mul_right_div_self]
    have hbyte : UInt8.ofNat (n % 256 ^ (k + 1)) = UInt8.ofNat n := by
      apply UInt8.toNat_inj.mp
      simp only [UInt8.toNat_ofNat']
      exact Nat.mod_mod_of_dvd n ⟨256 ^ k, by rw [Nat.pow_succ, Nat.mul_comm]⟩
    rw [bytes, bytes, hdiv, ih, hbyte]

end BigEndian
