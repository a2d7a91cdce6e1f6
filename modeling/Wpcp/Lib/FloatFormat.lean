import Mathlib.Algebra.Order.Field.Rat
import Mathlib.Algebra.GroupWithZero.Basic
import Mathlib.Data.Nat.Log
import Mathlib.Tactic.FieldSimp
import Mathlib.Tactic.Ring
import Mathlib.Tactic.NormNum

/-!
# Binary floating-point formats

A binary interchange format has a sign bit, an exponent field and a fraction field. What a
bit pattern of it denotes (`FloatFormat.denote`) is a sign and a magnitude: an exact rational,
infinity, or not a number. The sign belongs to zeros and infinities as well.

A format is *widened* into one with a longer exponent and a fraction at least as long. The
four lemmas of the last section say which fields of the wide format denote the same: special
values keep the fraction at the top of the field, normal numbers move the exponent by the
difference of the biases (`FloatFormat.magnitude_normal_widen`), and subnormal numbers become
normal ones, with the leading bit of the fraction as the implicit one
(`FloatFormat.magnitude_subnormal_widen`).
-/

/-- A binary interchange format, with the widths of its two fields. -/
structure FloatFormat where
  exponentBits : ℕ
  fractionBits : ℕ
  /-- There are exponents that are neither the least nor the greatest. -/
  two_le : 2 ≤ exponentBits

namespace FloatFormat

/-- What a pattern denotes, apart from the sign. -/
inductive Magnitude where
  | finite (value : ℚ)
  | infinite
  | nan

/-- What a pattern denotes. -/
structure Number where
  negative : Bool
  magnitude : Magnitude

variable (F G : FloatFormat)

/-- The exponent of 1. -/
def bias : ℕ := 2 ^ (F.exponentBits - 1) - 1

/-- The magnitude that an exponent and a fraction denote. -/
def magnitude (exponent fraction : ℕ) : Magnitude :=
  if exponent = 2 ^ F.exponentBits - 1 then
    if fraction = 0 then .infinite else .nan
  else if exponent = 0 then
    .finite (fraction * 2 ^ (1 - F.bias - F.fractionBits : ℤ))
  else
    .finite ((2 ^ F.fractionBits + fraction) * 2 ^ (exponent - F.bias - F.fractionBits : ℤ))

/-- The bit pattern of a sign, an exponent and a fraction. -/
def pattern (negative : Bool) (exponent fraction : ℕ) : ℕ :=
  (negative.toNat * 2 ^ F.exponentBits + exponent) * 2 ^ F.fractionBits + fraction

/-- The number that a bit pattern denotes. -/
def denote (n : ℕ) : Number where
  negative := n / 2 ^ F.fractionBits / 2 ^ F.exponentBits % 2 = 1
  magnitude := F.magnitude (n / 2 ^ F.fractionBits % 2 ^ F.exponentBits) (n % 2 ^ F.fractionBits)

/-- **A pattern denotes what its fields do.** -/
theorem denote_pattern {negative : Bool} {exponent fraction : ℕ}
    (hexponent : exponent < 2 ^ F.exponentBits) (hfraction : fraction < 2 ^ F.fractionBits) :
    F.denote (F.pattern negative exponent fraction) =
      ⟨negative, F.magnitude exponent fraction⟩ := by
  have hdiv : F.pattern negative exponent fraction / 2 ^ F.fractionBits =
      negative.toNat * 2 ^ F.exponentBits + exponent := by
    rw [pattern, Nat.add_comm, Nat.add_mul_div_right _ _ (Nat.two_pow_pos _),
      Nat.div_eq_of_lt hfraction, Nat.zero_add]
  have hmod : F.pattern negative exponent fraction % 2 ^ F.fractionBits = fraction := by
    rw [pattern, Nat.add_comm, Nat.add_mul_mod_self_right, Nat.mod_eq_of_lt hfraction]
  have hsign : (negative.toNat * 2 ^ F.exponentBits + exponent) / 2 ^ F.exponentBits =
      negative.toNat := by
    rw [Nat.add_comm, Nat.add_mul_div_right _ _ (Nat.two_pow_pos _),
      Nat.div_eq_of_lt hexponent, Nat.zero_add]
  have hexp : (negative.toNat * 2 ^ F.exponentBits + exponent) % 2 ^ F.exponentBits =
      exponent := by
    rw [Nat.add_comm, Nat.add_mul_mod_self_right, Nat.mod_eq_of_lt hexponent]
  rw [denote, hdiv, hmod, hsign, hexp]
  cases negative <;> rfl

/-- A pattern is the one of its fields. -/
theorem exists_pattern {n : ℕ} (h : n < 2 ^ (1 + F.exponentBits + F.fractionBits)) :
    ∃ negative exponent fraction, exponent < 2 ^ F.exponentBits ∧
      fraction < 2 ^ F.fractionBits ∧ n = F.pattern negative exponent fraction := by
  have hquot : n / 2 ^ F.fractionBits < 2 * 2 ^ F.exponentBits := by
    rw [Nat.div_lt_iff_lt_mul (Nat.two_pow_pos _), ← Nat.pow_succ', ← pow_add]
    rwa [Nat.add_comm 1] at h
  have hsign : n / 2 ^ F.fractionBits / 2 ^ F.exponentBits < 2 := by
    rwa [Nat.div_lt_iff_lt_mul (Nat.two_pow_pos _)]
  refine ⟨decide (n / 2 ^ F.fractionBits / 2 ^ F.exponentBits = 1),
    n / 2 ^ F.fractionBits % 2 ^ F.exponentBits, n % 2 ^ F.fractionBits,
    Nat.mod_lt _ (Nat.two_pow_pos _), Nat.mod_lt _ (Nat.two_pow_pos _), ?_⟩
  have hbit : ∀ q < 2, (decide (q = 1)).toNat = q := by decide
  rw [pattern, hbit _ hsign, Nat.div_add_mod', Nat.div_add_mod']

/-! ### Widening -/

section Widen

variable {F G}

theorem bias_pos : 0 < F.bias := by
  have hpow : 2 ^ 1 ≤ 2 ^ (F.exponentBits - 1) :=
    Nat.pow_le_pow_right (by omega) (by have := F.two_le; omega)
  unfold bias
  omega

theorem two_pow_exponentBits : 2 ^ F.exponentBits = 2 * F.bias + 2 := by
  have hpow : 2 ^ F.exponentBits = 2 * 2 ^ (F.exponentBits - 1) := by
    rw [← Nat.pow_succ']
    congr 1
    have := F.two_le
    omega
  have := Nat.two_pow_pos (F.exponentBits - 1)
  rw [hpow, bias]
  omega

/-- Zero is zero. -/
theorem magnitude_zero : F.magnitude 0 0 = .finite 0 := by
  have := F.bias_pos
  have := F.two_pow_exponentBits
  rw [magnitude, if_neg (by omega), if_pos rfl, Nat.cast_zero, zero_mul]

/-- Infinity and what is not a number keep the bits of the fraction. -/
theorem magnitude_special_widen {fraction k : ℕ} :
    G.magnitude (2 ^ G.exponentBits - 1) (fraction * 2 ^ k) =
      F.magnitude (2 ^ F.exponentBits - 1) fraction := by
  rw [magnitude, magnitude, if_pos rfl, if_pos rfl]
  have hzero : fraction * 2 ^ k = 0 ↔ fraction = 0 := by
    have := Nat.two_pow_pos k
    rw [Nat.mul_eq_zero]
    omega
  split_ifs <;> simp_all

/-- **Normal numbers** move the exponent by the difference of the biases. -/
theorem magnitude_normal_widen {exponent fraction : ℕ}
    (hbias : F.bias ≤ G.bias) (hbits : F.fractionBits ≤ G.fractionBits) (hpos : 0 < exponent)
    (hlt : exponent < 2 ^ F.exponentBits - 1) :
    G.magnitude (exponent + (G.bias - F.bias))
        (fraction * 2 ^ (G.fractionBits - F.fractionBits)) =
      F.magnitude exponent fraction := by
  have hF := F.two_pow_exponentBits
  have hG := G.two_pow_exponentBits
  rw [magnitude, magnitude, if_neg (by omega), if_neg (by omega), if_neg (by omega),
    if_neg (by omega)]
  congr 1
  obtain ⟨k, hk⟩ := Nat.exists_eq_add_of_le hbits
  obtain ⟨d, hd⟩ := Nat.exists_eq_add_of_le hbias
  rw [hk, hd, Nat.add_sub_cancel_left, Nat.add_sub_cancel_left]
  push_cast
  have hexp : (exponent + d - (F.bias + d) - (F.fractionBits + k) : ℤ) =
      (exponent - F.bias - F.fractionBits : ℤ) - k := by ring
  rw [hexp, zpow_sub₀ (by norm_num), pow_add, zpow_natCast]
  field_simp

/-- **Subnormal numbers** become normal ones: the leading bit of the fraction is the implicit
one. -/
theorem magnitude_subnormal_widen {fraction : ℕ} (hne : fraction ≠ 0)
    (hlt : fraction < 2 ^ F.fractionBits) (hbias : F.bias + F.fractionBits ≤ G.bias)
    (hbits : F.fractionBits ≤ G.fractionBits) :
    G.magnitude (fraction.log2 + (G.bias + 1 - F.bias - F.fractionBits))
        (fraction * 2 ^ (G.fractionBits - fraction.log2) - 2 ^ G.fractionBits) =
      F.magnitude 0 fraction := by
  have hF := F.two_pow_exponentBits
  have hG := G.two_pow_exponentBits
  have hFbias := F.bias_pos
  have hlog : fraction.log2 < F.fractionBits := (Nat.log2_lt hne).mpr hlt
  have hle : 2 ^ fraction.log2 ≤ fraction := Nat.log2_self_le hne
  rw [magnitude, magnitude, if_neg (by omega), if_neg (by omega), if_neg (by omega), if_pos rfl]
  congr 1
  obtain ⟨k, hk⟩ := Nat.exists_eq_add_of_le (show fraction.log2 ≤ G.fractionBits by omega)
  have hpow : 2 ^ G.fractionBits ≤ fraction * 2 ^ (G.fractionBits - fraction.log2) := by
    rw [hk, Nat.add_sub_cancel_left, pow_add]
    exact Nat.mul_le_mul_right _ hle
  have hcast : ((2 : ℚ) ^ G.fractionBits +
      ((fraction * 2 ^ (G.fractionBits - fraction.log2) - 2 ^ G.fractionBits : ℕ) : ℚ)) =
        fraction * 2 ^ (G.fractionBits - fraction.log2) := by
    rw [Nat.cast_sub hpow]
    push_cast
    ring
  have hexp : (((fraction.log2 + (G.bias + 1 - F.bias - F.fractionBits) : ℕ) : ℤ) - G.bias -
      G.fractionBits : ℤ) = (1 - F.bias - F.fractionBits : ℤ) - k := by
    omega
  rw [hcast, hexp, hk, Nat.add_sub_cancel_left, zpow_sub₀ (by norm_num), zpow_natCast]
  field_simp

end Widen

end FloatFormat
